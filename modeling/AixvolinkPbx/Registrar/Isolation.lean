import AixvolinkPbx.Registrar.Transactions

/-!
# Users and each other's registrations

The calls a REGISTER makes of the store are for one address of record, the one of the user that
authenticated. Such a call leaves all other addresses as they are (`lookup_call`), and what it answers
does not depend on them (`AgreeOff.call`). `registers_isolated` puts the two together: with `leads_keep`,
leaving out one user's requests changes nothing for the others.
-/

namespace AixvolinkPbx.Registration

/-! ## Calls for one address of record -/

/-- The key belongs to the address of record. -/
def BindingKey.Of (key : BindingKey) (tenantID aor : String) : Prop :=
  key.tenantID = tenantID ∧ key.aor = aor

/-- The call is for the address of record. -/
def StoreCall.Concerns (tenantID aor : String) : StoreCall → Prop
  | .upsert binding _ => binding.key.Of tenantID aor
  | .delete tenantID' aor' contact => (⟨tenantID', aor', contact⟩ : BindingKey).Of tenantID aor
  | .deleteAll tenantID' aor' => tenantID' = tenantID ∧ aor' = aor
  | .listActive tenantID' aor' _ => tenantID' = tenantID ∧ aor' = aor
  | .deleteExpired _ => False

theorem Applied.concerns {request : Request} {c : StoreCall} (h : Applied request c) :
    c.Concerns request.tenantID request.aor := by
  cases c with
  | upsert binding maxBindings =>
    obtain ⟨_, _, id, now, rfl, _⟩ := h
    exact ⟨rfl, rfl⟩
  | delete => exact ⟨h.2.2.1, h.2.2.2.1⟩
  | deleteAll tenantID aor => exact h.2.2
  | listActive => exact h.elim
  | deleteExpired now => exact h.elim

theorem StoreResult.Same.symm {a b : StoreResult} (h : a.Same b) : b.Same a := by
  match a, b, h with
  | .done _, .done _, h => exact Eq.symm h
  | .listed (.ok _), .listed (.ok _), h => exact List.Perm.symm h
  | .listed (.error _), .listed (.error _), h => exact Eq.symm h
  | .count _, .count _, h => exact Eq.symm h

theorem StoreResult.Same.trans {a b c : StoreResult} (h : a.Same b) (h' : b.Same c) : a.Same c := by
  match a, b, c, h, h' with
  | .done _, .done _, .done _, h, h' => exact Eq.trans h h'
  | .listed (.ok _), .listed (.ok _), .listed (.ok _), h, h' => exact List.Perm.trans h h'
  | .listed (.error _), .listed (.error _), .listed (.error _), h, h' => exact Eq.trans h h'
  | .count _, .count _, .count _, h, h' => exact Eq.trans h h'

namespace MemoryStore

variable {s u : MemoryStore} {c : StoreCall} {key : BindingKey} {tenantID aor tenantID' aor' : String}

/-- A call leaves the other addresses of record as they are. -/
theorem lookup_call (hc : c.Concerns tenantID aor) (hkey : ¬ key.Of tenantID aor) :
    (s.call c).2.lookup key = s.lookup key := by
  cases c with
  | upsert binding maxBindings =>
    have hne : key ≠ binding.key := fun h => hkey (h ▸ hc)
    show (s.upsert binding maxBindings).2.lookup key = _
    unfold upsert
    split_ifs
    · rfl
    · exact AList.lookup_insert_ne hne
  | delete tenantID' aor' contact =>
    have hne : key ≠ ⟨tenantID', aor', contact⟩ := fun h => hkey (h ▸ hc)
    exact AList.lookup_erase_ne hne
  | deleteAll tenantID' aor' =>
    obtain ⟨rfl, rfl⟩ := hc
    apply Option.ext
    intro b
    refine Table.lookup_deleteIf_eq_some.trans (and_iff_left ?_)
    simpa [BindingKey.Of] using hkey
  | listActive => rfl
  | deleteExpired now => exact hc.elim

/-- The stores agree on all addresses of record but one. -/
def AgreeOff (tenantID aor : String) (s u : MemoryStore) : Prop :=
  ∀ key : BindingKey, ¬ key.Of tenantID aor → s.lookup key = u.lookup key

/-- They have the same active bindings of every other address. -/
theorem AgreeOff.active_perm (h : AgreeOff tenantID aor s u)
    (hne : ¬ (tenantID' = tenantID ∧ aor' = aor)) (now : ℤ) :
    (s.entries.filter fun e => active tenantID' aor' now e.1 e.2).Perm
      (u.entries.filter fun e => active tenantID' aor' now e.1 e.2) := by
  apply (List.perm_ext_iff_of_nodup (s.nodupKeys.nodup.filter _) (u.nodupKeys.nodup.filter _)).mpr
  rintro ⟨key, b⟩
  rw [List.mem_filter, List.mem_filter, ← Table.lookup_eq_some, ← Table.lookup_eq_some]
  refine and_congr_left fun hactive => ?_
  simp only [active, Bool.and_eq_true, decide_eq_true_eq] at hactive
  have hkey : ¬ key.Of tenantID aor := by
    rintro ⟨rfl, rfl⟩
    exact hne ⟨hactive.1.1.symm, hactive.1.2.symm⟩
  rw [h key hkey]

/-- What a call answers and does on the other addresses does not depend on the one. -/
theorem AgreeOff.call (h : AgreeOff tenantID aor s u) (hc : c.Concerns tenantID' aor')
    (hne : ¬ (tenantID' = tenantID ∧ aor' = aor)) :
    (s.call c).1.Same (u.call c).1 ∧ AgreeOff tenantID aor (s.call c).2 (u.call c).2 := by
  cases c with
  | upsert binding maxBindings =>
    have hoff : ¬ binding.key.Of tenantID aor := by
      obtain ⟨rfl, rfl⟩ := hc
      exact hne
    have hcount : s.activeCount binding.tenantID binding.aor binding.updatedAt =
        u.activeCount binding.tenantID binding.aor binding.updatedAt := by
      unfold activeCount
      rw [List.countP_eq_length_filter, List.countP_eq_length_filter]
      exact (h.active_perm hoff _).length_eq
    have hlookup := h binding.key hoff
    show (StoreResult.done (s.upsert binding maxBindings).1).Same (.done (u.upsert binding maxBindings).1) ∧
      AgreeOff tenantID aor (s.upsert binding maxBindings).2 (u.upsert binding maxBindings).2
    unfold upsert
    rw [hlookup, hcount]
    split_ifs
    · exact ⟨rfl, h⟩
    · refine ⟨rfl, fun key hkey => ?_⟩
      by_cases heq : key = binding.key
      · rw [heq, AList.lookup_insert, AList.lookup_insert]
      · rw [AList.lookup_insert_ne heq, AList.lookup_insert_ne heq]
        exact h key hkey
  | delete tenantID'' aor'' contact =>
    refine ⟨rfl, fun key hkey => ?_⟩
    show (s.erase ⟨tenantID'', aor'', contact⟩).lookup key =
      (u.erase ⟨tenantID'', aor'', contact⟩).lookup key
    by_cases heq : key = ⟨tenantID'', aor'', contact⟩
    · rw [heq, AList.lookup_erase, AList.lookup_erase]
    · rw [AList.lookup_erase_ne heq, AList.lookup_erase_ne heq]
      exact h key hkey
  | deleteAll tenantID'' aor'' =>
    refine ⟨rfl, fun key hkey => Option.ext fun b => ?_⟩
    refine Table.lookup_deleteIf_eq_some.trans (Iff.trans ?_ Table.lookup_deleteIf_eq_some.symm)
    rw [h key hkey]
  | listActive tenantID'' aor'' now =>
    obtain ⟨rfl, rfl⟩ := hc
    exact ⟨(h.active_perm hne now).map _, h⟩
  | deleteExpired now => exact hc.elim

end MemoryStore

end AixvolinkPbx.Registration

namespace AixvolinkPbx.Registrar

open Auth (Credential)
open Prog Registration

variable {cfg : Config} {T : Texts} {request : Register} {credential : Credential}

/-! ## Events for one address of record -/

theorem Issued.concerns {c : StoreCall} (h : Issued cfg T request credential c) :
    c.Concerns credential.tenantID (addressOfRecord credential) := by
  rcases h with ⟨now, rfl⟩ | ⟨r, contact, ⟨rfl, _, _⟩, _, expires, q, _, happlied⟩
  · exact ⟨rfl, rfl⟩
  · exact happlied.concerns

variable {s s' u : MemoryStore} {ev : Event registrarSig} {tenantID aor : String}

theorem Serve.lookup_eq {key : BindingKey} (h : Serve cfg s ev s')
    (hev : Makes (fun c => ∃ tenantID aor, c.Concerns tenantID aor ∧ ¬ key.Of tenantID aor) ev.op) :
    s'.lookup key = s.lookup key := by
  unfold Serve at h
  split at h
  · obtain ⟨tenantID, aor, hc, hkey⟩ := hev
    rw [h.2]
    exact MemoryStore.lookup_call hc hkey
  · rw [h.2]
  · rw [h]

theorem Serve.eq_of_noCall (h : Serve cfg s ev s') (hev : Makes (fun _ => False) ev.op) : s' = s := by
  unfold Serve at h
  split at h
  · exact hev.elim
  · exact h.2
  · exact h

/-- The same event from a store that agrees but for another address. -/
theorem Serve.agreeOff (h : Serve cfg s ev s') (hagree : MemoryStore.AgreeOff tenantID aor s u)
    (hev : Makes (fun c => ∃ tenantID' aor', c.Concerns tenantID' aor' ∧
      ¬ (tenantID' = tenantID ∧ aor' = aor)) ev.op) :
    ∃ u', Serve cfg u ev u' ∧ MemoryStore.AgreeOff tenantID aor s' u' := by
  unfold Serve at h ⊢
  split at h
  · next c result =>
    obtain ⟨hsame, rfl⟩ := h
    obtain ⟨tenantID', aor', hc, hne⟩ := hev
    obtain ⟨hresult, hstore⟩ := hagree.call hc hne
    exact ⟨_, ⟨hresult.symm.trans hsame, rfl⟩, hstore⟩
  · obtain ⟨hrealm, rfl⟩ := h
    exact ⟨u, ⟨hrealm, rfl⟩, hagree⟩
  · subst h
    exact ⟨u, rfl, hagree⟩

/-! ## One request -/

def userAddress (cfg : Config) (username : String) : String := "sip:" ++ username ++ "@" ++ cfg.realm

theorem userAddress_inj {username username' : String}
    (h : userAddress cfg username = userAddress cfg username') : username = username' := by
  unfold userAddress at h
  rw [String.append_left_inj, String.append_left_inj, String.append_right_inj] at h
  exact h

theorem Serve.realm_eq (h : Serve cfg s ev s') (hev : verifiedBy ev = some credential) :
    credential.realm = cfg.realm := by
  unfold verifiedBy at hev
  split at hev
  · cases hev
    exact h.1
  · cases hev

variable {t : List (Event registrarSig)}

theorem realm_of_verified (h : Steps (Serve cfg) s t s') (hverified : verified t = some credential)
    : credential.realm = cfg.realm := by
  obtain ⟨ev, hmem, hev⟩ := List.exists_of_findSome?_eq_some hverified
  exact h.forall_labels (P := fun ev => verifiedBy ev = some credential → credential.realm = cfg.realm)
    (fun _ _ _ hstep => hstep.realm_eq) ev hmem hev

variable {q : Prog registrarSig Outcome}

/-- Every event of a request is for the address of the user it authenticated. -/
theorem makes_of_path (h : Path (handle cfg T request) t q) (hev : ev ∈ t) :
    Makes (fun c => ∃ credential header, verified t = some credential ∧
      request.toHeader = some header ∧ credential.username = header.user ∧
      c.Concerns credential.tenantID (addressOfRecord credential)) ev.op := by
  obtain ⟨e, result⟩ := ev
  rcases e with e | (_ | _ | c)
  · trivial
  · trivial
  · trivial
  · obtain ⟨credential, header, hheader, -, huser, hverified, hissued⟩ := issued_of_path h hev
    exact ⟨credential, header, hverified, hheader, huser, hissued.concerns⟩

theorem lookup_of_path (h : Path (handle cfg T request) t q) (hsteps : Steps (Serve cfg) s t s')
    {key : BindingKey}
    (hkey : ∀ credential header, verified t = some credential → request.toHeader = some header →
      ¬ key.Of credential.tenantID (userAddress cfg header.user)) :
    s'.lookup key = s.lookup key := by
  apply hsteps.keeps (f := fun s : MemoryStore => s.lookup key)
  intro s₁ ev s₂ hev hstep
  apply hstep.lookup_eq
  refine Makes.mono ?_ _ (makes_of_path h hev)
  rintro c ⟨credential, header, hverified, hheader, huser, hc⟩
  refine ⟨_, _, hc, ?_⟩
  have haddress : addressOfRecord credential = userAddress cfg header.user := by
    rw [addressOfRecord, realm_of_verified hsteps hverified, huser]
    rfl
  rw [haddress]
  exact hkey credential header hverified hheader

/-- A request that does not authenticate the user of its To header changes nothing. -/
theorem eq_of_unauthenticated (h : Path (handle cfg T request) t q)
    (hsteps : Steps (Serve cfg) s t s')
    (hnot : ∀ credential header, verified t = some credential → request.toHeader = some header →
      credential.username ≠ header.user) : s' = s := by
  apply hsteps.keeps (f := id)
  intro s₁ ev s₂ hev hstep
  apply hstep.eq_of_noCall
  refine Makes.mono ?_ _ (makes_of_path h hev)
  rintro c ⟨credential, header, hverified, hheader, huser, -⟩
  exact hnot credential header hverified hheader huser

/-! ## Histories -/

theorem realm_of_leads {X α : Type} {prog : X → Prog registrarSig α} {h : History prog} {i : ℕ}
    (hlead : h.Leads (Serve cfg) s s') (hverified : verified (ownEvents i h.events) = some credential) :
    credential.realm = cfg.realm := by
  obtain ⟨ev, hmem, hev⟩ := List.exists_of_findSome?_eq_some hverified
  have hrealm : ∀ l ∈ h.events, verifiedBy l.2 = some credential → credential.realm = cfg.realm :=
    Steps.forall_labels (fun _ _ _ hstep hl => Serve.realm_eq hstep hl) hlead
  exact hrealm _ (mem_ownEvents.mp hmem) hev

/-- The user whom a request of the history authenticated: tenant and username. -/
def userOf (h : History (handle cfg T)) (i : ℕ) : Option (String × String) :=
  (verified (ownEvents i h.events)).map fun credential => (credential.tenantID, credential.username)

def without (h : History (handle cfg T)) (tenantID username : String) : History (handle cfg T) :=
  h.keep fun i => userOf h i ≠ some (tenantID, username)

variable {h : History (handle cfg T)} {i : ℕ} {username : String}

theorem makes_of_mem (hlead : h.Leads (Serve cfg) s s') (hev : (i, ev) ∈ h.events) :
    Makes (fun c => ∃ tenantID username, userOf h i = some (tenantID, username) ∧
      c.Concerns tenantID (userAddress cfg username)) ev.op := by
  obtain ⟨q, hq⟩ := h.paths i
  refine Makes.mono ?_ _ (makes_of_path hq (mem_ownEvents.mpr hev))
  rintro c ⟨credential, header, hverified, -, -, hc⟩
  refine ⟨credential.tenantID, credential.username, ?_, ?_⟩
  · rw [userOf, hverified]
    rfl
  · rw [addressOfRecord, realm_of_leads hlead hverified] at hc
    exact hc

theorem without_agrees (hlead : h.Leads (Serve cfg) s s') (tenantID username : String) :
    ∃ u, (without h tenantID username).Leads (Serve cfg) s u ∧
      MemoryStore.AgreeOff tenantID (userAddress cfg username) s' u := by
  refine History.leads_keep hlead ?_ ?_ fun _ _ => rfl
  · intro i ev hev hkeep s₁ s₂ u hagree hstep
    apply hstep.agreeOff hagree
    refine Makes.mono ?_ _ (makes_of_mem hlead hev)
    rintro c ⟨tenantID', username', huser, hc⟩
    refine ⟨_, _, hc, ?_⟩
    rintro ⟨rfl, haddress⟩
    rw [userAddress_inj haddress] at huser
    exact of_decide_eq_true hkeep huser
  · intro i ev hev hdrop s₁ s₂ u hagree hstep key hkey
    have huser : userOf h i = some (tenantID, username) := not_not.mp (of_decide_eq_false hdrop)
    rw [← hagree key hkey]
    apply hstep.lookup_eq
    refine Makes.mono ?_ _ (makes_of_mem hlead hev)
    rintro c ⟨tenantID', username', huser', hc⟩
    rw [huser] at huser'
    cases huser'
    exact ⟨_, _, hc, hkey⟩

/-- A REGISTER changes only the bindings of the user it authenticated, and none if that is not the user
of the To header; leaving out all requests of one user changes nothing for the others. -/
theorem registers_isolated (cfg : Config) (T : Texts) :
    (∀ request t outcome s s', Returns (handle cfg T request) t outcome →
      Steps (Serve cfg) s t s' →
      (∀ key : BindingKey,
        (∀ credential header, verified t = some credential → request.toHeader = some header →
          ¬ key.Of credential.tenantID ("sip:" ++ header.user ++ "@" ++ cfg.realm)) →
        s'.lookup key = s.lookup key) ∧
      ((∀ credential header, verified t = some credential → request.toHeader = some header →
          credential.username ≠ header.user) →
        s' = s)) ∧
    ∀ (h : History (handle cfg T)) s s', h.Leads (Serve cfg) s s' → ∀ tenantID username,
      ∃ u, (without h tenantID username).Leads (Serve cfg) s u ∧
        ∀ tenantID' username', tenantID' ≠ tenantID ∨ username' ≠ username → ∀ contact,
          s'.lookup ⟨tenantID', "sip:" ++ username' ++ "@" ++ cfg.realm, contact⟩ =
            u.lookup ⟨tenantID', "sip:" ++ username' ++ "@" ++ cfg.realm, contact⟩ := by
  constructor
  · intro request t outcome s s' hreturns hsteps
    exact ⟨fun key hkey => lookup_of_path hreturns hsteps hkey,
      fun hnot => eq_of_unauthenticated hreturns hsteps hnot⟩
  · intro h s s' hlead tenantID username
    obtain ⟨u, hu, hagree⟩ := without_agrees hlead tenantID username
    refine ⟨u, hu, fun tenantID' username' hne contact => hagree _ ?_⟩
    rintro ⟨rfl, haddress⟩
    rcases hne with hne | hne
    · exact hne rfl
    · exact hne (userAddress_inj haddress)

/-- Alice registers one phone, then Bob one. -/
def twoUsers : History (handle homeConfig homeTexts) where
  arg i :=
    if i = 0 then homeRegister "alice" [homeContact "alice"]
    else homeRegister "bob" [homeContact "bob"]
  events := (registering "alice" [homeContact "alice"] ∅).1.map (Prod.mk 0) ++
    (registering "bob" [homeContact "bob"]
      (registering "alice" [homeContact "alice"] ∅).2.2).1.map (Prod.mk 1)
  paths i := by
    rw [ownEvents_append, ownEvents_tag, ownEvents_tag]
    match i with
    | 0 => exact ⟨_, returns_trace (a := .ok ()) rfl⟩
    | 1 => exact ⟨_, returns_trace (a := .ok ()) rfl⟩
    | i + 2 => exact ⟨_, .nil _⟩

theorem twoUsers_leads :
    twoUsers.Leads (Serve homeConfig) ∅ (registering "bob" [homeContact "bob"]
      (registering "alice" [homeContact "alice"] ∅).2.2).2.2 :=
  (History.steps_tag 0 (steps_registering _ _ _)).trans (History.steps_tag 1 (steps_registering _ _ _))

theorem registers_isolated_twoUsers :
    userOf twoUsers 0 = some ("home", "alice") ∧ userOf twoUsers 1 = some ("home", "bob") ∧
    (registering "alice" [homeContact "alice"] ∅).2.2.lookup
      ⟨"home", "sip:bob@pbx", "sip:bob@10.0.0.5"⟩ = none ∧
    ∃ u, (without twoUsers "home" "bob").Leads (Serve homeConfig) ∅ u ∧
      (u.lookup ⟨"home", "sip:alice@pbx", "sip:alice@10.0.0.5"⟩).isSome = true := by
  have hone := (registers_isolated homeConfig homeTexts).1 _ _ (.ok ()) ∅ _ (returns_trace rfl)
    (steps_registering "alice" [homeContact "alice"] ∅)
  have htwo := (registers_isolated homeConfig homeTexts).2 twoUsers ∅ _ twoUsers_leads "home" "bob"
  refine ⟨rfl, rfl, ?_, ?_⟩
  · refine hone.1 _ fun credential header hverified hheader => ?_
    obtain rfl := Option.some.inj (hverified : some (homeCredential "alice") = some credential)
    obtain rfl := Option.some.inj (hheader : some ⟨"alice", "pbx"⟩ = some header)
    rintro ⟨-, h⟩
    exact absurd h (by decide)
  · obtain ⟨u, hu, hsame⟩ := htwo
    refine ⟨u, hu, ?_⟩
    have hlookup := hsame "home" "alice" (.inr (by decide)) "sip:alice@10.0.0.5"
    rw [show "sip:" ++ "alice" ++ "@" ++ homeConfig.realm = "sip:alice@pbx" from rfl] at hlookup
    rw [← hlookup]
    decide +kernel

end AixvolinkPbx.Registrar
