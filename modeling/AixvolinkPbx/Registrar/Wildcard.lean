import AixvolinkPbx.Registrar.Isolation

/-!
# Wildcard contacts

A wildcard contact stands for all bindings of its address of record, and makes sense for a removal only.
The handler does not check this: with an expiration other than zero it binds the text `*`
(`wildcard_stored`). When no request of a history has such a contact, `wildcard_never_stored` says that
every binding is one of a Contact header with an address, and that a wildcard removes everything.
-/

namespace AixvolinkPbx.Registration

/-! ## Where bindings come from -/

def Stored (P : Binding → Prop) (s : MemoryStore) : Prop := ∀ key b, s.lookup key = some b → P b

theorem Stored.call {P : Binding → Prop} {s : MemoryStore} (h : Stored P s) {c : StoreCall}
    (hc : ∀ binding maxBindings, c = .upsert binding maxBindings → P binding) :
    Stored P (s.call c).2 := by
  intro key b hb
  cases c with
  | upsert binding maxBindings =>
    replace hb : (s.upsert binding maxBindings).2.lookup key = some b := hb
    unfold MemoryStore.upsert at hb
    split_ifs at hb
    · exact h key b hb
    · by_cases hkey : key = binding.key
      · rw [hkey, AList.lookup_insert] at hb
        obtain rfl := Option.some.inj hb
        exact hc binding maxBindings rfl
      · rw [AList.lookup_insert_ne hkey] at hb
        exact h key b hb
  | delete tenantID aor contact =>
    replace hb : (s.erase ⟨tenantID, aor, contact⟩).lookup key = some b := hb
    by_cases hkey : key = ⟨tenantID, aor, contact⟩
    · rw [hkey, AList.lookup_erase] at hb
      cases hb
    · rw [AList.lookup_erase_ne hkey] at hb
      exact h key b hb
  | deleteAll tenantID aor => exact h key b (Table.lookup_deleteIf_eq_some.mp hb).1
  | listActive => exact h key b hb
  | deleteExpired now => exact h key b (Table.lookup_deleteIf_eq_some.mp hb).1

theorem Stored.listActive {P : Binding → Prop} {s : MemoryStore} (h : Stored P s)
    {tenantID aor : String} {now : ℤ} {b : Binding} (hb : b ∈ s.listActive tenantID aor now) : P b := by
  obtain ⟨⟨key, b⟩, hmem, rfl⟩ := List.mem_map.mp hb
  exact h key b (Table.lookup_eq_some.mpr (List.mem_filter.mp hmem).1)

end AixvolinkPbx.Registration

namespace AixvolinkPbx.Registrar

open Prog Registration

variable {cfg : Config} {T : Texts} {request : Register} {s s' : MemoryStore}

theorem Serve.stored {P : Binding → Prop} {ev : Event registrarSig} (h : Serve cfg s ev s')
    (hs : Stored P s)
    (hev : Makes (fun c => ∀ binding maxBindings, c = .upsert binding maxBindings → P binding) ev.op) :
    Stored P s' := by
  unfold Serve at h
  split at h
  · rw [h.2]
    exact hs.call hev
  · rw [h.2]
    exact hs
  · rw [h]
    exact hs

theorem stored_list {P : Binding → Prop} {tenantID aor : String} {t : List (Event registrarSig)}
    {bindings : List Binding} (hs : Stored P s) (hsteps : Steps (Serve cfg) s t s')
    (h : Returns (Prog.inr (list tenantID aor) : Prog registrarSig _) t (.ok bindings)) :
    ∀ b ∈ bindings, P b := by
  obtain ⟨u, rfl, hu⟩ := returns_inr h
  obtain ⟨now, rfl⟩ := list_returns hu
  replace hsteps : Steps (Serve cfg) s ([⟨.inr .now, now⟩] ++
    ⟨.inr (.store (.listActive tenantID aor now)), some (.listed (.ok bindings))⟩ :: []) s' := hsteps
  obtain ⟨s₁, s₂, hclock, hlisted, -⟩ := hsteps.split_cons
  have hsame : s₁ = s := by
    apply hclock.keeps (f := id)
    intro s ev s' hev hstep
    obtain rfl := List.mem_singleton.mp hev
    exact hstep
  rw [hsame] at hlisted
  have hperm : (s.listActive tenantID aor now).Perm bindings := hlisted.1
  intro b hb
  exact hs.listActive (hperm.mem_iff.mpr hb)

/-! ## Requests -/

/-- A wildcard contact of the request is a removal, and no address has the text of the wildcard. -/
def WildcardsRemove (cfg : Config) (request : Register) : Prop :=
  ∀ contact, some contact ∈ request.contacts →
    (contact.wildcard = true → ∀ expires, contactExpires cfg request contact = .ok expires →
      expires = 0) ∧
    (contact.wildcard = false → contact.address ≠ "*")

/-- The contact of the binding is the address of a Contact header of some request. -/
def FromAddress (requests : ℕ → Register) (b : Binding) : Prop :=
  ∃ i contact, some contact ∈ (requests i).contacts ∧ contact.wildcard = false ∧
    b.contact = contact.address

theorem FromAddress.ne_wildcard {requests : ℕ → Register} {b : Binding} (h : FromAddress requests b)
    (hrequests : ∀ i, WildcardsRemove cfg (requests i)) : b.contact ≠ "*" := by
  obtain ⟨i, contact, hmem, hwildcard, hcontact⟩ := h
  rw [hcontact]
  exact (hrequests i contact hmem).2 hwildcard

/-- A wildcard that removes makes no other call. -/
theorem eq_deleteAll {r : Registrant} {contact : Contact} {c : StoreCall}
    (hrequest : WildcardsRemove cfg request) (hmem : some contact ∈ request.contacts)
    (hwildcard : contact.wildcard = true) (hc : ForContact cfg T request r contact c) :
    c = .deleteAll r.credential.tenantID (addressOfRecord r.credential) ∧
      contactExpires cfg request contact = .ok 0 := by
  obtain ⟨expires, q, hexpires, happlied⟩ := hc
  have hzero : expires = 0 := (hrequest contact hmem).1 hwildcard expires hexpires
  have hvalue : contact.value = "*" := if_pos hwildcard
  refine ⟨?_, hzero ▸ hexpires⟩
  cases c with
  | upsert binding maxBindings =>
    have hpos : 0 < expires := happlied.1
    omega
  | delete => exact absurd hvalue happlied.2.1
  | deleteAll tenantID aor =>
    obtain ⟨-, -, rfl, rfl⟩ := happlied
    rfl
  | listActive => exact happlied.elim
  | deleteExpired now => exact happlied.elim

/-- What is bound for a contact is its address. -/
theorem contact_of_upsert {r : Registrant} {contact : Contact} {binding : Binding} {maxBindings : ℤ}
    (hrequest : WildcardsRemove cfg request) (hmem : some contact ∈ request.contacts)
    (hc : ForContact cfg T request r contact (.upsert binding maxBindings)) :
    contact.wildcard = false ∧ binding.contact = contact.address := by
  have hwildcard : contact.wildcard = false := by
    by_contra htrue
    exact nomatch (eq_deleteAll hrequest hmem (Bool.not_eq_false _ ▸ htrue) hc).1
  obtain ⟨expires, q, -, -, -, id, now, rfl, -⟩ := hc
  refine ⟨hwildcard, ?_⟩
  show contact.value = contact.address
  rw [Contact.value, hwildcard]
  rfl

/-! ## Histories -/

theorem stored_of_leads {h : History (handle cfg T)} (hlead : h.Leads (Serve cfg) ∅ s')
    (hrequests : ∀ i, WildcardsRemove cfg (h.arg i)) : Stored (FromAddress h.arg) s' := by
  have hmem : Steps (fun s (l : ℕ × Event registrarSig) s' => Serve cfg s l.2 s' ∧ l ∈ h.events) ∅
      h.events s' := Steps.mono hlead fun _ _ _ hl hstep => ⟨hstep, hl⟩
  refine hmem.invariant (I := fun _ s => Stored (FromAddress h.arg) s) ?_ fun key b hb => by cases hb
  rintro _ s₁ ⟨i, ev⟩ s₂ hs ⟨hstep, hev⟩
  refine hstep.stored hs ?_
  obtain ⟨q, hq⟩ := h.paths i
  replace hev := mem_ownEvents.mpr hev
  obtain ⟨e, result⟩ := ev
  rcases e with e | (_ | _ | c)
  · trivial
  · trivial
  · trivial
  · rintro binding maxBindings rfl
    obtain ⟨credential, -, -, -, -, -, hissued⟩ := issued_of_path hq hev
    rcases hissued with ⟨now, h⟩ | ⟨r, contact, -, hcontact, hc⟩
    · cases h
    · exact ⟨i, contact, hcontact, contact_of_upsert (hrequests i) hcontact hc⟩

/-- When the wildcard contacts of all requests are removals, every binding is one of a Contact header
with an address, and so is every binding that `List` and `Resolve` return; a wildcard contact makes no
call but the one that removes all bindings of its address, and makes it for an expiration of zero. -/
theorem wildcard_never_stored (cfg : Config) (T : Texts) (h : History (handle cfg T))
    (s' : MemoryStore) (hlead : h.Leads (Serve cfg) ∅ s')
    (hrequests : ∀ i, WildcardsRemove cfg (h.arg i)) :
    Stored (fun b => b.contact ≠ "*" ∧ FromAddress h.arg b) s' ∧
    (∀ tenantID aor t bindings s'',
      Returns (Prog.inr (list tenantID aor) : Prog registrarSig _) t (.ok bindings) →
      Steps (Serve cfg) s' t s'' → ∀ b ∈ bindings, b.contact ≠ "*" ∧ FromAddress h.arg b) ∧
    (∀ sort, (∀ compare bindings, (sort compare bindings).Perm bindings) →
      ∀ tenantID aor t binding s'',
      Returns (Prog.inr (resolve sort tenantID aor) : Prog registrarSig _) t (.ok binding) →
      Steps (Serve cfg) s' t s'' → binding.contact ≠ "*" ∧ FromAddress h.arg binding) ∧
    ∀ i contact, some contact ∈ (h.arg i).contacts → contact.wildcard = true →
      ∀ r t q, Path (handleContact cfg T (h.arg i) r (some contact)) t q →
        ∀ c result, ⟨.inr (.store c), result⟩ ∈ t →
          c = .deleteAll r.credential.tenantID (addressOfRecord r.credential) ∧
            contactExpires cfg (h.arg i) contact = .ok 0 := by
  have hstored : Stored (fun b => b.contact ≠ "*" ∧ FromAddress h.arg b) s' := by
    intro key b hb
    have hfrom := stored_of_leads hlead hrequests key b hb
    exact ⟨hfrom.ne_wildcard hrequests, hfrom⟩
  refine ⟨hstored, ?_, ?_, ?_⟩
  · intro tenantID aor t bindings s'' hlist hsteps
    exact stored_list hstored hsteps hlist
  · intro sort hsort tenantID aor t binding s'' hresolve hsteps
    obtain ⟨u, rfl, hu⟩ := returns_inr hresolve
    obtain ⟨bindings, hlist, hmem⟩ := resolve_returns hsort hu
    exact stored_list hstored hsteps (Path.inr hlist) binding hmem
  · intro i contact hmem hwildcard r t q hpath c result hc
    exact eq_deleteAll (hrequests i) hmem hwildcard ((only_handleContact r contact).of_path hpath _ hc)

def wildcardContact : Contact := ⟨true, "", none, none⟩

/-- A wildcard without an expiration is bound for the default one. -/
theorem wildcard_stored :
    ∃ t s', Returns (handle homeConfig homeTexts (homeRegister "alice" [wildcardContact])) t (.ok ()) ∧
      Steps (Serve homeConfig) ∅ t s' ∧
      (s'.lookup ⟨"home", "sip:alice@pbx", "*"⟩).map (·.contact) = some "*" :=
  ⟨_, _, returns_trace (show (trace (frontDesk (homeCredential "alice") 1) _ _).2.1 = some _ from rfl),
    steps_registering "alice" [wildcardContact] ∅, by decide +kernel⟩

def removalContact : Contact := { wildcardContact with expires := some "0" }

/-- Alice removes all her bindings, then registers a phone. -/
def cleanStart : History (handle homeConfig homeTexts) where
  arg i :=
    if i = 0 then homeRegister "alice" [removalContact]
    else homeRegister "alice" [homeContact "alice"]
  events := (registering "alice" [removalContact] ∅).1.map (Prod.mk 0) ++
    (registering "alice" [homeContact "alice"]
      (registering "alice" [removalContact] ∅).2.2).1.map (Prod.mk 1)
  paths i := by
    rw [ownEvents_append, ownEvents_tag, ownEvents_tag]
    match i with
    | 0 => exact ⟨_, returns_trace (a := .ok ()) rfl⟩
    | 1 => exact ⟨_, returns_trace (a := .ok ()) rfl⟩
    | i + 2 => exact ⟨_, .nil _⟩

theorem wildcard_never_stored_cleanStart :
    ∃ s', cleanStart.Leads (Serve homeConfig) ∅ s' ∧
      (s'.lookup ⟨"home", "sip:alice@pbx", "sip:alice@10.0.0.5"⟩).isSome = true ∧
      Stored (fun b => b.contact ≠ "*" ∧ FromAddress cleanStart.arg b) s' := by
  have hlead : cleanStart.Leads (Serve homeConfig) ∅ (registering "alice" [homeContact "alice"]
      (registering "alice" [removalContact] ∅).2.2).2.2 :=
    (History.steps_tag 0 (steps_registering _ _ _)).trans (History.steps_tag 1 (steps_registering _ _ _))
  have hrequests : ∀ i, WildcardsRemove homeConfig (cleanStart.arg i) := by
    intro i contact hcontact
    rcases i with _ | i
    · obtain rfl : contact = removalContact := by simpa [cleanStart, homeRegister] using hcontact
      refine ⟨fun _ expires h => ?_, nofun⟩
      exact (Except.ok.inj (h : Except.ok 0 = Except.ok expires)).symm
    · obtain rfl : contact = homeContact "alice" := by simpa [cleanStart, homeRegister] using hcontact
      exact ⟨nofun, fun _ => by decide⟩
  exact ⟨_, hlead, by decide +kernel,
    (wildcard_never_stored homeConfig homeTexts cleanStart _ hlead hrequests).1⟩

end AixvolinkPbx.Registrar
