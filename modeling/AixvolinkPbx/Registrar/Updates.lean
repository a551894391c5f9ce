import AixvolinkPbx.Registrar.Isolation

/-!
# The updates of a REGISTER

The contacts of a REGISTER are applied one after another; when one of them is refused, those before it
stay applied.

1. `lookup_updates`: what the store has after the updates of a run, key by key.
2. `handle_returns`: the updates are those of the contacts in front of the first one that is refused
   (`AppliesFirst`, `Refused`).
3. `register_kept_iff`: the bindings are as they were exactly if for every key the last of these contacts
   that is about it removes it, and there was nothing to remove. `register_half_applied` is a request
   whose second contact is refused.
-/

namespace AixvolinkPbx.Registration

/-- Whether the call is an update of a request. -/
def StoreCall.isUpdate : StoreCall → Bool
  | .upsert _ _ => true
  | .delete _ _ _ => true
  | .deleteAll _ _ => true
  | _ => false

theorem Applied.isUpdate {request : Request} {c : StoreCall} (h : Applied request c) :
    c.isUpdate = true := by
  cases c with
  | upsert binding maxBindings => rfl
  | delete => rfl
  | deleteAll tenantID aor => rfl
  | listActive => exact h.elim
  | deleteExpired now => exact h.elim

/-- What the update leaves under the key, if it is about the key. -/
def StoreCall.leaves (key : BindingKey) : StoreCall → Option (Option Binding)
  | .upsert binding _ => if binding.key = key then some (some binding) else none
  | .delete tenantID aor contact => if ⟨tenantID, aor, contact⟩ = key then some none else none
  | .deleteAll tenantID aor => if key.tenantID = tenantID ∧ key.aor = aor then some none else none
  | _ => none

/-- What the last of the updates that are about the key leaves there. -/
def finalEffect (key : BindingKey) (updates : List StoreCall) : Option (Option Binding) :=
  updates.reverse.findSome? (·.leaves key)

theorem StoreResult.Same.done_iff {a b : StoreResult} (h : a.Same b) (r : Except StoreError Unit) :
    a = .done r ↔ b = .done r := by
  match a, b, h with
  | .done _, .done _, h => rw [show _ = _ from h]
  | .listed (.ok _), .listed (.ok _), _ => exact ⟨nofun, nofun⟩
  | .listed (.error _), .listed (.error _), _ => exact ⟨nofun, nofun⟩
  | .count _, .count _, _ => exact ⟨nofun, nofun⟩

namespace MemoryStore

variable {s : MemoryStore} {c : StoreCall}

theorem isUpdate_of_done {r : Except StoreError Unit} (h : (s.call c).1 = .done r) :
    c.isUpdate = true := by
  cases c with
  | upsert binding maxBindings => rfl
  | delete => rfl
  | deleteAll tenantID aor => rfl
  | listActive => cases h
  | deleteExpired now => cases h

theorem lookup_of_accepted (h : (s.call c).1 = .done (.ok ())) (key : BindingKey) :
    (s.call c).2.lookup key = (c.leaves key).getD (s.lookup key) := by
  cases c with
  | upsert binding maxBindings =>
    have hstored : (s.upsert binding maxBindings).2 = s.insert binding.key binding := by
      replace h : StoreResult.done (s.upsert binding maxBindings).1 = .done (.ok ()) := h
      unfold upsert at h ⊢
      split_ifs at h ⊢
      · cases h
      · rfl
    show (s.upsert binding maxBindings).2.lookup key =
      (if binding.key = key then some (some binding) else none).getD (s.lookup key)
    rw [hstored]
    split_ifs with hkey
    · rw [hkey, AList.lookup_insert]
      rfl
    · rw [AList.lookup_insert_ne (Ne.symm hkey)]
      rfl
  | delete tenantID aor contact =>
    show (s.erase ⟨tenantID, aor, contact⟩).lookup key =
      (if ⟨tenantID, aor, contact⟩ = key then some none else none).getD (s.lookup key)
    split_ifs with hkey
    · rw [hkey, AList.lookup_erase]
      rfl
    · rw [AList.lookup_erase_ne (Ne.symm hkey)]
      rfl
  | deleteAll tenantID aor =>
    show (s.deleteAll tenantID aor).lookup key =
      (if key.tenantID = tenantID ∧ key.aor = aor then some none else none).getD (s.lookup key)
    split_ifs with hkey
    · apply Option.eq_none_iff_forall_ne_some.mpr
      intro b hb
      have := (Table.lookup_deleteIf_eq_some.mp hb).2
      simp [hkey] at this
    · exact lookup_call (c := .deleteAll tenantID aor) ⟨rfl, rfl⟩ hkey
  | listActive => cases h
  | deleteExpired now => cases h

theorem eq_of_not_accepted (h : (s.call c).1 ≠ .done (.ok ())) (hc : ∀ now, c ≠ .deleteExpired now) :
    (s.call c).2 = s := by
  cases c with
  | upsert binding maxBindings =>
    replace h : StoreResult.done (s.upsert binding maxBindings).1 ≠ .done (.ok ()) := h
    show (s.upsert binding maxBindings).2 = s
    unfold upsert at h ⊢
    split_ifs at h ⊢
    · rfl
    · exact absurd rfl h
  | delete => exact absurd rfl h
  | deleteAll tenantID aor => exact absurd rfl h
  | listActive => rfl
  | deleteExpired now => exact absurd rfl (hc now)

end MemoryStore

end AixvolinkPbx.Registration

namespace AixvolinkPbx.Registrar

open Prog Registration

variable {cfg : Config} {T : Texts} {request : Register}

/-! ## What the updates leave -/

/-- The update that an event performs. -/
def accepted : Event registrarSig → Option StoreCall
  | ⟨.inr (.store c), some (.done (.ok ()))⟩ => if c.isUpdate then some c else none
  | _ => none

def updates (t : List (Event registrarSig)) : List StoreCall := t.filterMap accepted

variable {c : StoreCall} {ev : Event registrarSig}

theorem accepted_eq_some :
    accepted ev = some c ↔ c.isUpdate = true ∧ ev = ⟨.inr (.store c), some (.done (.ok ()))⟩ := by
  constructor
  · intro h
    unfold accepted at h
    split at h
    · split_ifs at h with hupdate
      cases h
      exact ⟨hupdate, rfl⟩
    · cases h
  · rintro ⟨hupdate, rfl⟩
    exact if_pos hupdate

theorem accepted_eq_none
    (h : ∀ c : StoreCall, c.isUpdate = true → ev ≠ ⟨.inr (.store c), some (.done (.ok ()))⟩) :
    accepted ev = none := by
  apply Option.eq_none_iff_forall_ne_some.mpr
  intro c hc
  obtain ⟨hupdate, hev⟩ := accepted_eq_some.mp hc
  exact h c hupdate hev

theorem Serve.lookup_accepted {s s' : MemoryStore} (h : Serve cfg s ev s')
    (hev : Makes (fun c => ∀ now, c ≠ .deleteExpired now) ev.op) (key : BindingKey) :
    s'.lookup key = ((accepted ev).bind (·.leaves key)).getD (s.lookup key) := by
  unfold Serve at h
  split at h
  · next c result =>
    obtain ⟨hsame, rfl⟩ := h
    by_cases hdone : (s.call c).1 = .done (.ok ())
    · have hupdate := MemoryStore.isUpdate_of_done hdone
      rw [MemoryStore.lookup_of_accepted hdone, (hsame.done_iff _).mp hdone,
        accepted_eq_some.mpr ⟨hupdate, rfl⟩]
      rfl
    · have hnone : accepted ⟨.inr (.store c), some result⟩ = none := by
        apply accepted_eq_none
        rintro c' - hev
        cases hev
        exact hdone ((hsame.done_iff _).mpr rfl)
      rw [MemoryStore.eq_of_not_accepted hdone hev, hnone]
      rfl
  · rw [h.2]
    rfl
  · next hstore _ =>
    subst h
    rw [accepted_eq_none fun _ _ hev => hstore _ _ hev]
    rfl

theorem updates_append (t u : List (Event registrarSig)) : updates (t ++ u) = updates t ++ updates u :=
  List.filterMap_append

theorem finalEffect_append (key : BindingKey) (calls calls' : List StoreCall) :
    finalEffect key (calls ++ calls') = (finalEffect key calls').or (finalEffect key calls) := by
  rw [finalEffect, List.reverse_append, List.findSome?_append]
  rfl

theorem lookup_updates {s s' : MemoryStore} {t : List (Event registrarSig)}
    (h : Steps (Serve cfg) s t s')
    (ht : ∀ ev ∈ t, Makes (fun c => ∀ now, c ≠ .deleteExpired now) ev.op) (key : BindingKey) :
    s'.lookup key = (finalEffect key (updates t)).getD (s.lookup key) := by
  induction h with
  | nil => rfl
  | @snoc t ev s₁ s₂ _ hev ih =>
    have hone : s₂.lookup key = (finalEffect key (updates [ev])).getD (s₁.lookup key) := by
      rw [hev.lookup_accepted (ht ev (List.mem_append_right _ List.mem_cons_self)) key]
      unfold updates
      cases hacc : accepted ev with
      | none => simp [hacc, finalEffect]
      | some c => simp [hacc, finalEffect]
    rw [updates_append, finalEffect_append, hone, ih fun ev hev => ht ev (List.mem_append_left _ hev)]
    cases finalEffect key (updates [ev]) <;> rfl

/-! ## The contacts that are applied -/

theorem updates_eq_nil {t : List (Event registrarSig)}
    (h : ∀ ev ∈ t, Makes (fun c => c.isUpdate = false) ev.op) : updates t = [] := by
  refine List.filterMap_eq_nil_iff.mpr fun ev hev => accepted_eq_none fun c hupdate heq => ?_
  subst heq
  exact Bool.false_ne_true ((h _ hev : c.isUpdate = false).symm.trans hupdate)

theorem update_returns (hc : c.isUpdate = true) {u : List (Event managerSig)}
    {result : Except ManagerError Unit} (h : Returns (update c) u result) :
    result = .ok () ∧ updates (u.map Event.inr) = [c] ∨
      (∃ err, result = .error err) ∧ updates (u.map Event.inr) = [] := by
  obtain ⟨r, u, v, rfl, hu, hv⟩ := returns_bind h
  obtain rfl := returns_call hu
  split at hv
  · cases hv
    refine .inl ⟨rfl, ?_⟩
    show (accepted ⟨.inr (.store c), some (.done (.ok ()))⟩).toList = [c]
    rw [accepted_eq_some.mpr ⟨hc, rfl⟩]
    rfl
  · cases hv
    exact .inr ⟨⟨_, rfl⟩, rfl⟩
  · next hother _ =>
    cases hv
    refine .inr ⟨⟨_, rfl⟩, List.filterMap_eq_nil_iff.mpr fun ev hev => accepted_eq_none ?_⟩
    rintro c' - rfl
    cases List.mem_singleton.mp hev
    exact hother rfl

/-- The update is one that `Apply` makes for the request, with an ID of the run for a new binding. -/
structure Made (request : Request) (t : List (Event registrarSig)) (c : StoreCall) : Prop where
  applied : Applied request c
  generated : ∀ binding maxBindings, c = .upsert binding maxBindings →
    ⟨.inr .newV7, some binding.id⟩ ∈ t

/-- `Apply` has made one update of the request, or it has failed and made none. -/
def Attempt (request : Request) (u : List (Event managerSig))
    (result : Except ManagerError (Option Binding)) : Prop :=
  (∃ binding c, result = .ok binding ∧ Made request (u.map Event.inr) c ∧
      updates (u.map Event.inr) = [c]) ∨
    (∃ err, result = .error err) ∧ updates (u.map Event.inr) = []

theorem Attempt.of_update {request : Request} {binding : Option Binding}
    {v : List (Event managerSig)} {result : Except ManagerError (Option Binding)}
    (before : List (Event managerSig)) (hbefore : updates (before.map Event.inr) = [])
    (hv : Returns (do return (← update c).map fun _ => binding) v result)
    (hc : Made request ((before ++ v).map Event.inr) c) : Attempt request (before ++ v) result := by
  obtain ⟨r, v, w, rfl, hr, hw⟩ := returns_bind hv
  cases hw
  rw [List.append_nil] at hc ⊢
  have hsame : updates ((before ++ v).map Event.inr) = updates (v.map Event.inr) := by
    rw [List.map_append, updates_append, hbefore, List.nil_append]
  rw [Attempt, hsame]
  rcases update_returns hc.applied.isUpdate hr with ⟨rfl, hone⟩ | ⟨⟨err, rfl⟩, hnone⟩
  · exact .inl ⟨_, c, rfl, hc, hone⟩
  · exact .inr ⟨⟨err, rfl⟩, hnone⟩

theorem apply_returns {request : Request} {u : List (Event managerSig)}
    {result : Except ManagerError (Option Binding)} (h : Returns (apply request) u result) :
    Attempt request u result := by
  unfold apply at h
  split_ifs at h with hneg hzero hstar hmax hreceived
  · cases h
    exact .inr ⟨⟨_, rfl⟩, rfl⟩
  · exact .of_update [] rfl h ⟨⟨hzero, hstar, rfl, rfl⟩, nofun⟩
  · exact .of_update [] rfl h ⟨⟨hzero, hstar, rfl, rfl, rfl⟩, nofun⟩
  · cases h
    exact .inr ⟨⟨_, rfl⟩, rfl⟩
  · obtain ⟨now, u, v, rfl, hu, hv⟩ := returns_bind h
    obtain rfl := returns_call hu
    cases hv
    exact .inr ⟨⟨_, rfl⟩, rfl⟩
  · obtain ⟨now, u, v, rfl, hu, hv⟩ := returns_bind h
    obtain rfl := returns_call hu
    obtain ⟨id, u, w, rfl, hu, hw⟩ := returns_bind hv
    obtain rfl := returns_call hu
    cases id with
    | none =>
      cases hw
      exact .inr ⟨⟨_, rfl⟩, rfl⟩
    | some id =>
      dsimp only at hw
      split at hw
      · cases hw
        exact .inr ⟨⟨_, rfl⟩, rfl⟩
      · next hvalid =>
        refine .of_update [⟨.now, now⟩, ⟨.newV7, some id⟩] rfl hw
          ⟨⟨by omega, rfl, id, now, rfl, hvalid⟩, ?_⟩
        rintro _ _ ⟨⟩
        exact List.mem_cons_of_mem _ List.mem_cons_self

/-- The update is one for this Contact header. -/
def UpdateFor (cfg : Config) (T : Texts) (request : Register) (r : Registrant)
    (t : List (Event registrarSig)) (contact : Option Contact) (c : StoreCall) : Prop :=
  ∃ x expires q, contact = some x ∧ contactExpires cfg request x = .ok expires ∧ parseQ T x = some q ∧
    Made (r.request T x expires q) t c

variable {contact : Option Contact} {t' : List (Event registrarSig)}

theorem UpdateFor.mono {r : Registrant} {t : List (Event registrarSig)} (hsub : ∀ ev ∈ t, ev ∈ t')
    (h : UpdateFor cfg T request r t contact c) :
    UpdateFor cfg T request r t' contact c := by
  obtain ⟨x, expires, q, hx, hexpires, hq, happlied, hgenerated⟩ := h
  exact ⟨x, expires, q, hx, hexpires, hq, happlied, fun b m hc => hsub _ (hgenerated b m hc)⟩

/-- Why a Contact header is not applied: it is none, it has no valid expiration or preference, or
`Apply` fails. -/
inductive Refused (cfg : Config) (T : Texts) (request : Register) (r : Registrant)
    (t : List (Event registrarSig)) : Option Contact → Prop
  | malformed : Refused cfg T request r t none
  | expires {contact : Contact} {err : ExpiresError}
      (h : contactExpires cfg request contact = .error err) : Refused cfg T request r t (some contact)
  | preference {contact : Contact} (h : parseQ T contact = none) :
      Refused cfg T request r t (some contact)
  | apply {contact : Contact} {expires : ℤ} {q : Q} {u : List (Event managerSig)} {err : ManagerError}
      (hexpires : contactExpires cfg request contact = .ok expires) (hq : parseQ T contact = some q)
      (hu : u.map Event.inr <:+: t)
      (h : Returns (apply (r.request T contact expires q)) u (.error err)) :
      Refused cfg T request r t (some contact)

theorem Refused.mono {r : Registrant} {t : List (Event registrarSig)} (hsub : t <:+: t')
    (h : Refused cfg T request r t contact) :
    Refused cfg T request r t' contact := by
  cases h with
  | malformed => exact .malformed
  | expires h => exact .expires h
  | preference h => exact .preference h
  | apply hexpires hq hu h => exact .apply hexpires hq (hu.trans hsub) h

/-- A contact is applied by one update, or it is refused and ends the request. -/
theorem handleContact_returns {r : Registrant} {t : List (Event registrarSig)}
    {result : Option Outcome} (h : Returns (handleContact cfg T request r contact) t result) :
    (∃ c, result = none ∧ UpdateFor cfg T request r t contact c ∧ updates t = [c]) ∨
      (∃ outcome, result = some outcome) ∧ updates t = [] ∧ Refused cfg T request r t contact := by
  have hrespond : ∀ {response : Response} {v : List (Event registrarSig)},
      Returns (do return some (← respond response)) v result →
        (∃ outcome, result = some outcome) ∧ updates v = [] := by
    intro response v hv
    obtain ⟨outcome, v, w, rfl, hresponse, hw⟩ := returns_bind hv
    cases hw
    rw [List.append_nil]
    exact ⟨⟨outcome, rfl⟩, updates_eq_nil ((only_respond response).of_path hresponse)⟩
  cases contact with
  | none => exact .inr ⟨(hrespond h).1, (hrespond h).2, .malformed⟩
  | some contact =>
    unfold handleContact at h
    dsimp only at h
    split at h
    · next hexpires => exact .inr ⟨(hrespond h).1, (hrespond h).2, .expires hexpires⟩
    · next hexpires => exact .inr ⟨(hrespond h).1, (hrespond h).2, .expires hexpires⟩
    · next expires hexpires =>
      split at h
      · next hq => exact .inr ⟨(hrespond h).1, (hrespond h).2, .preference hq⟩
      · next q hq =>
        obtain ⟨applied, u, v, rfl, hu, hv⟩ := returns_bind h
        obtain ⟨u, rfl, happly⟩ := returns_inr hu
        rw [updates_append]
        rcases apply_returns happly with ⟨binding, c, rfl, hc, hone⟩ | ⟨⟨err, rfl⟩, hnone⟩
        · cases hv
          rw [hone, List.append_nil]
          exact .inl ⟨c, rfl, ⟨contact, expires, q, rfl, hexpires, hq, hc⟩, rfl⟩
        · have hrefused : Refused cfg T request r (u.map Event.inr ++ v) (some contact) :=
            .apply hexpires hq (List.prefix_append ..).isInfix happly
          rw [hnone, List.nil_append]
          split at hv
          · exact .inr ⟨(hrespond hv).1, (hrespond hv).2, hrefused⟩
          · cases hv
            exact .inr ⟨⟨_, rfl⟩, rfl, hrefused⟩
          · next h => cases h

/-- The updates of the run are those of the contacts `applied`, and the next contact is refused. -/
structure AppliesFirst (cfg : Config) (T : Texts) (request : Register) (r : Registrant)
    (t : List (Event registrarSig)) (applied rest : List (Option Contact)) : Prop where
  made : List.Forall₂ (UpdateFor cfg T request r t) applied (updates t)
  refused : ∀ contact ∈ rest.head?, Refused cfg T request r t contact

/-- Events that update nothing may stand in front or follow. -/
theorem AppliesFirst.mono {r : Registrant} {t : List (Event registrarSig)}
    {applied rest : List (Option Contact)} (h : AppliesFirst cfg T request r t applied rest)
    (hsub : t <:+: t') (hsame : updates t' = updates t) :
    AppliesFirst cfg T request r t' applied rest := by
  constructor
  · rw [hsame]
    exact h.made.imp fun _ _ h => h.mono fun ev hev => hsub.subset hev
  · exact fun contact hcontact => (h.refused contact hcontact).mono hsub

theorem handleContacts_returns {r : Registrant} {contacts : List (Option Contact)}
    {t : List (Event registrarSig)} {result : Option Outcome}
    (h : Returns (handleContacts cfg T request r contacts) t result) :
    ∃ applied rest, contacts = applied ++ rest ∧ AppliesFirst cfg T request r t applied rest := by
  induction contacts generalizing t with
  | nil =>
    cases h
    exact ⟨[], [], rfl, .nil, nofun⟩
  | cons contact contacts ih =>
    unfold handleContacts at h
    obtain ⟨ended, u, v, rfl, hu, hv⟩ := returns_bind h
    rcases handleContact_returns hu with ⟨c, rfl, hc, hone⟩ | ⟨⟨outcome, rfl⟩, hnone, hrefused⟩
    · obtain ⟨applied, rest, rfl, hrest⟩ := ih hv
      refine ⟨contact :: applied, rest, rfl, ?_, fun contact' hcontact => ?_⟩
      · rw [updates_append, hone]
        refine .cons (hc.mono fun ev hev => List.mem_append_left _ hev) ?_
        exact hrest.made.imp fun _ _ h => h.mono fun ev hev => List.mem_append_right _ hev
      · exact (hrest.refused contact' hcontact).mono (List.suffix_append ..).isInfix
    · cases hv
      rw [List.append_nil]
      refine ⟨[], contact :: contacts, rfl, ?_, ?_⟩
      · rw [hnone]
        exact .nil
      · rintro contact' ⟨⟩
        exact hrefused

/-- How far a request comes: it applies none of its contacts, or the first ones for the credential that
`Verify` returned. -/
inductive Progress (cfg : Config) (T : Texts) (request : Register) (t : List (Event registrarSig)) :
    List (Option Contact) → List (Option Contact) → Prop
  | none {rest : List (Option Contact)} (h : updates t = []) : Progress cfg T request t [] rest
  | first {credential : Auth.Credential} {r : Registrant} {applied rest : List (Option Contact)}
      (hverified : verified t = some credential) (hr : Registrant.Of T request credential r)
      (h : AppliesFirst cfg T request r t applied rest) : Progress cfg T request t applied rest

theorem handleAuthenticated_returns {credential : Auth.Credential} {t : List (Event registrarSig)}
    {outcome : Outcome} (h : Returns (handleAuthenticated cfg T request credential) t outcome) :
    (∀ ev ∈ t, Makes (fun c => c.isUpdate = false) ev.op) ∨
      ∃ r applied rest, Registrant.Of T request credential r ∧ request.contacts = applied ++ rest ∧
        AppliesFirst cfg T request r t applied rest := by
  have hlist : ∀ {v : List (Event registrarSig)},
      Returns (respondBindings T credential.tenantID (addressOfRecord credential)) v outcome →
        ∀ ev ∈ v, Makes (fun c => c.isUpdate = false) ev.op := by
    intro v hv ev hev
    refine Makes.mono ?_ _ ((only_respondBindings (T := T) _ _).of_path hv ev hev)
    rintro c ⟨now, rfl⟩
    rfl
  unfold handleAuthenticated at h
  dsimp only at h
  split_ifs at h
  · exact .inl (hlist h)
  split at h
  · next received hreceived =>
    split at h
    · next transport htransport =>
      obtain ⟨ended, u, v, rfl, hu, hv⟩ := returns_bind h
      obtain ⟨applied, rest, hcontacts, hfirst⟩ := handleContacts_returns hu
      have hv' : updates v = [] := by
        cases ended with
        | some outcome => cases hv; rfl
        | none => exact updates_eq_nil (hlist hv)
      have hsame : updates (u ++ v) = updates u := by rw [updates_append, hv', List.append_nil]
      have hfirst' := hfirst.mono (List.prefix_append ..).isInfix hsame
      refine .inr ⟨_, applied, rest, ?_, hcontacts, hfirst'⟩
      exact ⟨rfl, hreceived, htransport⟩
    · exact .inl ((only_refuse _ _).of_path h)
  · exact .inl ((only_refuse _ _).of_path h)

theorem handle_returns {t : List (Event registrarSig)} {outcome : Outcome}
    (h : Returns (handle cfg T request) t outcome) :
    ∃ applied rest, request.contacts = applied ++ rest ∧ Progress cfg T request t applied rest := by
  have hnone : (∀ ev ∈ t, Makes (fun c => c.isUpdate = false) ev.op) →
      ∃ applied rest, request.contacts = applied ++ rest ∧ Progress cfg T request t applied rest :=
    fun hnone => ⟨[], _, rfl, .none (updates_eq_nil hnone)⟩
  rcases handle_path h with hquiet | ⟨credential, header, u, -, -, -, hverified, rfl, hu⟩
  · exact hnone fun ev hev => Makes.mono (fun _ h => h.elim) _ (hquiet ev hev)
  · rcases handleAuthenticated_returns hu with hquiet | ⟨r, applied, rest, hr, hcontacts, hfirst⟩
    · exact hnone (List.forall_mem_cons.mpr ⟨trivial, hquiet⟩)
    · refine ⟨applied, rest, hcontacts, .first hverified hr ?_⟩
      exact hfirst.mono (List.suffix_cons ..).isInfix rfl

/-! ## What the contacts change -/

/-- The time until a contact expires, if it is about the key; a wildcard that removes is about all keys
of its address of record. -/
def Contact.touches (cfg : Config) (request : Register) (credential : Auth.Credential)
    (key : BindingKey) (contact : Contact) : Option ℤ :=
  match contactExpires cfg request contact with
  | .error _ => none
  | .ok expires =>
    if key.tenantID = credential.tenantID ∧ key.aor = addressOfRecord credential ∧
        (contact.value = key.contact ∨ contact.value = "*" ∧ expires = 0) then some expires
    else none

/-- The time of the last of some contacts that is about the key. -/
def lastTouch (cfg : Config) (request : Register) (credential : Auth.Credential) (key : BindingKey)
    (contacts : List (Option Contact)) : Option ℤ :=
  contacts.reverse.findSome? (·.bind (·.touches cfg request credential key))

/-- What contacts that are about a key, or not, make of it. -/
inductive Effect (t : List (Event registrarSig)) : Option ℤ → Option (Option Binding) → Prop
  | untouched : Effect t none none
  | removed : Effect t (some 0) (some none)
  | bound {expires : ℤ} {binding : Binding} (hexpires : expires ≠ 0)
      (hid : ⟨.inr .newV7, some binding.id⟩ ∈ t) : Effect t (some expires) (some (some binding))

theorem Effect.or {t : List (Event registrarSig)} {a b : Option ℤ} {x y : Option (Option Binding)}
    (h : Effect t a x) (h' : Effect t b y) : Effect t (a.or b) (x.or y) := by
  cases h with
  | untouched => exact h'
  | removed => exact .removed
  | bound hexpires hid => exact .bound hexpires hid

variable {credential : Auth.Credential} {r : Registrant} {t : List (Event registrarSig)}

theorem Effect.ite {P Q : Prop} [Decidable P] [Decidable Q] (h : Q ↔ P) {expires : ℤ}
    {after : Option Binding} (heffect : Effect t (some expires) (some after)) :
    Effect t (if P then some expires else none) (if Q then some after else none) := by
  by_cases hP : P
  · rwa [if_pos hP, if_pos (h.mpr hP)]
  · rw [if_neg hP, if_neg (mt h.mp hP)]
    exact .untouched

theorem mk_eq_key {key : BindingKey} {tenantID aor contact : String} :
    (⟨tenantID, aor, contact⟩ : BindingKey) = key ↔
      key.tenantID = tenantID ∧ key.aor = aor ∧ contact = key.contact := by
  obtain ⟨_, _, _⟩ := key
  simp only [BindingKey.mk.injEq]
  rw [eq_comm, @eq_comm _ aor]

theorem UpdateFor.effect (hr : r.credential = credential)
    (h : UpdateFor cfg T request r t contact c) (key : BindingKey) :
    Effect t (contact.bind (·.touches cfg request credential key)) (c.leaves key) := by
  obtain ⟨x, expires, q, rfl, hexpires, -, happlied, hgenerated⟩ := h
  subst hr
  rw [Option.bind_some, Contact.touches, hexpires]
  dsimp only
  cases c with
  | upsert binding maxBindings =>
    obtain ⟨hpositive, -, id, now, rfl, -⟩ := happlied
    have hexpires' : expires ≠ 0 := ne_of_gt hpositive
    refine .ite (mk_eq_key.trans ?_) (.bound hexpires' (hgenerated _ _ rfl))
    exact and_congr_right fun _ => and_congr_right fun _ =>
      ⟨.inl, fun h => h.resolve_right fun h => hexpires' h.2⟩
  | delete =>
    obtain ⟨hzero, hstar, rfl, rfl, rfl⟩ := happlied
    obtain rfl : expires = 0 := hzero
    refine .ite (mk_eq_key.trans ?_) .removed
    exact and_congr_right fun _ => and_congr_right fun _ =>
      ⟨.inl, fun h => h.resolve_right fun h => hstar h.1⟩
  | deleteAll tenantID aor =>
    obtain ⟨hzero, hstar, rfl, rfl⟩ := happlied
    obtain rfl : expires = 0 := hzero
    refine .ite ?_ .removed
    exact and_congr_right fun _ => (and_iff_left (.inr ⟨hstar, rfl⟩)).symm
  | listActive | deleteExpired => exact happlied.elim

theorem effect_of_applied {contacts : List (Option Contact)} {calls : List StoreCall}
    (hr : r.credential = credential) (h : List.Forall₂ (UpdateFor cfg T request r t) contacts calls)
    (key : BindingKey) :
    Effect t (lastTouch cfg request credential key contacts) (finalEffect key calls) := by
  induction h with
  | nil => exact .untouched
  | @cons contact c contacts calls hc _ ih =>
    have hone := (hc.effect hr key)
    rw [lastTouch, finalEffect, List.reverse_cons, List.reverse_cons, List.findSome?_append,
      List.findSome?_append, List.findSome?_singleton, List.findSome?_singleton]
    exact ih.or hone

/-! ## Requests that change nothing -/

/-- **Partial REGISTERs.** A request applies the contacts in front of the first one that is refused,
whatever its response is. It leaves the bindings as they were exactly if, for every key that one of these
contacts is about, the last of them removes it and there was no binding under it. Assumed of the
generated IDs: no binding of the store has one of them before the request. -/
theorem register_kept_iff (cfg : Config) (T : Texts) (request : Register)
    (t : List (Event registrarSig)) (outcome : Outcome) (s s' : MemoryStore)
    (h : Returns (handle cfg T request) t outcome) (hsteps : Steps (Serve cfg) s t s')
    (hnew : ∀ id : String, ⟨.inr .newV7, some id⟩ ∈ t →
      ∀ key b, s.lookup key = some b → b.id ≠ id) :
    ∃ applied rest, request.contacts = applied ++ rest ∧ Progress cfg T request t applied rest ∧
      ((∀ key : BindingKey, s'.lookup key = s.lookup key) ↔
        ∀ credential ∈ verified t, ∀ key expires,
          lastTouch cfg request credential key applied = some expires →
            expires = 0 ∧ s.lookup key = none) := by
  have hlive : ∀ ev ∈ t, Makes (fun c => ∀ now, c ≠ .deleteExpired now) ev.op := by
    intro ev hev
    refine Makes.mono ?_ _ (makes_of_path h hev)
    rintro c ⟨_, _, _, _, _, hc⟩ now rfl
    exact hc
  obtain ⟨applied, rest, hcontacts, hprogress⟩ := handle_returns h
  refine ⟨applied, rest, hcontacts, hprogress, ?_⟩
  cases hprogress with
  | none hnone =>
    refine iff_of_true (fun key => ?_) nofun
    rw [lookup_updates hsteps hlive key, hnone]
    rfl
  | @first credential r _ _ hverified hr hfirst =>
    rw [hverified]
    have heffect := effect_of_applied hr.credential hfirst.made
    constructor
    · rintro hkept _ ⟨⟩ key expires htouch
      have hlookup := (hkept key).symm.trans (lookup_updates hsteps hlive key)
      have hone := heffect key
      rw [htouch] at hone
      generalize finalEffect key (updates t) = final at hone hlookup
      cases hone with
      | removed => exact ⟨rfl, hlookup⟩
      | bound hexpires hid => exact absurd rfl (hnew _ hid key _ hlookup)
    · intro hcond key
      rw [lookup_updates hsteps hlive key]
      have hone := heffect key
      have htouch := hcond credential rfl key
      generalize lastTouch cfg request credential key applied = touch at hone htouch
      generalize finalEffect key (updates t) = final at hone
      cases hone with
      | untouched => rfl
      | removed => exact (htouch 0 rfl).2.symm
      | bound hexpires hid => exact absurd (htouch _ rfl).1 hexpires

def badContact (user : String) : Contact := { homeContact user with expires := some "soon" }

/-- The second contact is refused, the first one is bound. -/
theorem register_half_applied :
    ∃ t s', Returns (handle homeConfig homeTexts
        (homeRegister "alice" [homeContact "alice", badContact "carol"])) t (.ok ()) ∧
      Steps (Serve homeConfig) ∅ t s' ∧
      ⟨.inl (.respond ⟨400, "Bad Expires", [], []⟩), true⟩ ∈ t ∧
      (s'.lookup ⟨"home", "sip:alice@pbx", "sip:alice@10.0.0.5"⟩).isSome = true :=
  ⟨_, _, returns_trace (show (trace (frontDesk (homeCredential "alice") 1) _ _).2.1 = some _ from rfl),
    steps_registering "alice" [homeContact "alice", badContact "carol"] ∅,
    List.mem_of_getElem? (i := 4) rfl, by decide +kernel⟩

def goneContact (user : String) : Contact := { homeContact user with expires := some "0" }

/-- A contact is bound, removed again and followed by one that is refused. -/
def undone : List Contact := [homeContact "alice", goneContact "alice", badContact "carol"]

def otherPhone : MemoryStore :=
  let contact := "sip:desk@10.0.0.5"
  (MemoryStore.upsert ∅ ⟨"desk", "home", "sip:alice@pbx", contact, contact, .udp,
    ⟨.v4 0x0a000005, 5060⟩, "", .num 1, 3600 * Time.second, 0⟩ 2).2

theorem newV7_registering {user : String} {contacts : List Contact} {s : MemoryStore} {id : String}
    (h : ⟨.inr .newV7, some id⟩ ∈ (registering user contacts s).1) : id = "id" := by
  have hsteps : Steps (fun s ev _ => ev.ans = (frontDesk (homeCredential user) 1 s ev.op).1) s
      (registering user contacts s).1 (registering user contacts s).2.2 :=
    steps_trace (fun _ _ => rfl) _ _
  have hans := hsteps.forall_labels
    (P := fun ev => ∃ s, ev.ans = (frontDesk (homeCredential user) 1 s ev.op).1)
    (fun s _ _ h => ⟨s, h⟩) _ h
  obtain ⟨_, ⟨⟩⟩ := hans
  rfl

theorem register_kept_undone :
    ∃ t s', Returns (handle homeConfig homeTexts (homeRegister "alice" undone)) t (.ok ()) ∧
      Steps (Serve homeConfig) otherPhone t s' ∧
      ⟨.inl (.respond ⟨400, "Bad Expires", [], []⟩), true⟩ ∈ t ∧ (updates t).length = 2 ∧
      ∀ key : BindingKey, s'.lookup key = otherPhone.lookup key := by
  have hreturns : Returns (handle homeConfig homeTexts (homeRegister "alice" undone))
      (registering "alice" undone otherPhone).1 (.ok ()) := returns_trace rfl
  have hsteps := steps_registering "alice" undone otherPhone
  have hlength : (updates (registering "alice" undone otherPhone).1).length = 2 := rfl
  refine ⟨_, _, hreturns, hsteps, List.mem_of_getElem? (i := 5) rfl, hlength, ?_⟩
  have hnew : ∀ id : String, ⟨.inr .newV7, some id⟩ ∈ (registering "alice" undone otherPhone).1 →
      ∀ key b, otherPhone.lookup key = some b → b.id ≠ id := by
    rintro id hid key b hb
    rw [newV7_registering hid]
    cases List.mem_singleton.mp (Table.lookup_eq_some.mp hb)
    decide
  obtain ⟨applied, rest, hcontacts, hprogress, hiff⟩ :=
    register_kept_iff _ _ _ _ _ _ _ hreturns hsteps hnew
  refine hiff.mpr ?_
  rintro _ ⟨⟩ key expires htouch
  have happlied : applied = [some (homeContact "alice"), some (goneContact "alice")] := by
    cases hprogress with
    | none h => exact absurd (congrArg List.length h) (by rw [hlength]; decide)
    | first _ _ h =>
      have htake := congrArg (List.take 2) hcontacts
      rw [List.take_left' (h.made.length_eq.trans hlength)] at htake
      exact htake.symm
  subst happlied
  by_cases hkey : key = ⟨"home", "sip:alice@pbx", "sip:alice@10.0.0.5"⟩
  · subst hkey
    cases htouch
    exact ⟨rfl, by decide +kernel⟩
  · have hnone : ∀ contact : Contact, contact.value = "sip:alice@10.0.0.5" →
        contact.touches homeConfig (homeRegister "alice" undone) (homeCredential "alice") key = none := by
      intro contact hvalue
      unfold Contact.touches
      split
      · rfl
      · rw [if_neg]
        rintro ⟨h, h', h'' | ⟨h'', -⟩⟩
        · exact hkey (mk_eq_key.mpr ⟨h, h', hvalue.symm.trans h''⟩).symm
        · exact absurd (hvalue.symm.trans h'') (by decide)
    have hlast := htouch.symm.trans (List.findSome?_eq_none_iff.mpr (by
      rintro _ (_ | ⟨_, _ | ⟨_, ⟨⟩⟩⟩)
      · exact hnone (goneContact "alice") (by decide)
      · exact hnone (homeContact "alice") (by decide)))
    cases hlast

end AixvolinkPbx.Registrar
