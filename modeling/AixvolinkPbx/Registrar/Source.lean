import AixvolinkPbx.B2bua.Engine
import AixvolinkPbx.Registrar.Updates

/-!
# Admission by source address

An INVITE is not authenticated: the engine admits it when its source address is one that the caller has
registered from. The registrar writes the bindings, the store keeps them, `Expire` cleans up and the
engine reads them; the four never meet but in the store.

1. `Work` are the things that happen: REGISTER transactions, runs of `Expire`, and the admission check of
   an INVITE, in any interleaving.
2. `origin_of_leads`: every stored binding comes from an upsert after which nothing happened to its key.
3. `admitted_source_registered` follows a binding that the check finds back to the request that stored
   it: one that the caller has authenticated, from the same source and transport.
-/

namespace AixvolinkPbx.Registrar

open Auth (Credential)
open B2bua (engineSig)
open Prog Registration

/-! ## The components -/

/-- `e.registrations`: the engine lists bindings with the manager of the registrar. -/
def registrations : (e : engineSig.Op) → Prog managerSig (engineSig.Ans e)
  | .listBindings tenantID aor => do
    match ← list tenantID aor with
    | .ok bindings => return some bindings
    | .error _ => return none
  | _ => .diverge

inductive Work
  | register (request : Register)
  | expire
  | invite (user source transport : String)

/-- A REGISTER, a run of `Expire`, or the admission check of an INVITE with its result. -/
def work (cfg : Config) (T : Texts) (engine : B2bua.Config) : Work → Prog registrarSig (Option Bool)
  | .register request => do
    let _ ← handle cfg T request
    return none
  | .expire => do
    let _ ← Prog.inr expire
    return none
  | .invite user source transport =>
    Prog.inr (interp registrations (B2bua.sourceIsRegistered engine (B2bua.addressOfRecord engine user)
      source transport))

variable {cfg : Config} {T : Texts} {engine : B2bua.Config} {user source transport : String}
  {t : List (Event registrarSig)}

/-- The check reads the clock, lists the caller's bindings and finds one that fits. -/
theorem check_returns
    (h : Returns (work cfg T engine (.invite user source transport)) t (some true)) :
    ∃ now bindings, t = [⟨.inr .now, now⟩,
        ⟨.inr (.store (.listActive engine.tenantID (B2bua.addressOfRecord engine user) now)),
          some (.listed (.ok bindings))⟩] ∧
      ∃ b ∈ bindings, b.routeTarget = source ∧ b.transport.text = Text.toLower transport := by
  obtain ⟨u, rfl, hu⟩ := returns_inr h
  rw [B2bua.sourceIsRegistered, interp_bind, interp_call] at hu
  obtain ⟨found, v, w, rfl, hv, hw⟩ := returns_bind hu
  obtain ⟨result, v, x, rfl, hv, hx⟩ := returns_bind hv
  cases result with
  | error err =>
    cases hx
    cases hw
  | ok bindings =>
    obtain ⟨now, rfl⟩ := list_returns hv
    cases hx
    replace hw : Returns (S := managerSig) (Pure.pure (some (bindings.any fun b =>
      b.routeTarget = source && b.transport.text = Text.toLower transport))) w (some true) := hw
    generalize hany : (bindings.any fun b =>
      b.routeTarget = source && b.transport.text = Text.toLower transport) = any at hw
    cases hw
    obtain ⟨b, hb, hfits⟩ := List.any_eq_true.mp hany
    rw [Bool.and_eq_true, decide_eq_true_eq, decide_eq_true_eq] at hfits
    exact ⟨now, bindings, rfl, b, hb, hfits⟩

/-! ## Where a binding comes from -/

variable {b : Binding} {key : BindingKey}

theorem upsert_of_leaves {c : StoreCall} (h : c.leaves key = some (some b)) :
    ∃ maxBindings, c = .upsert b maxBindings ∧ b.key = key := by
  cases c with
  | upsert binding maxBindings =>
    replace h : (if binding.key = key then some (some binding) else none) = some (some b) := h
    split_ifs at h with hkey
    cases h
    exact ⟨maxBindings, rfl, hkey⟩
  | delete tenantID aor contact =>
    replace h : (if ⟨tenantID, aor, contact⟩ = key then some none else none) = some (some b) := h
    split_ifs at h
    cases h
  | deleteAll tenantID aor =>
    replace h : (if key.tenantID = tenantID ∧ key.aor = aor then some none else none) =
      some (some b) := h
    split_ifs at h
    cases h
  | listActive => cases h
  | deleteExpired now => cases h

/-- A binding after an event was stored by it, or it was there and the event is not about its key. -/
theorem Serve.origin {s s' : MemoryStore} {ev : Event registrarSig} (h : Serve cfg s ev s')
    (hb : s'.lookup key = some b) :
    (∃ maxBindings, ev = ⟨.inr (.store (.upsert b maxBindings)), some (.done (.ok ()))⟩ ∧
      b.key = key) ∨
      s.lookup key = some b ∧ ∀ c, accepted ev = some c → c.leaves key = none := by
  by_cases hexpire : ∃ now result, ev = ⟨.inr (.store (.deleteExpired now)), result⟩
  · obtain ⟨now, result, rfl⟩ := hexpire
    refine .inr ⟨?_, fun c hc => ?_⟩
    · cases result with
      | none =>
        rw [show s' = s from h] at hb
        exact hb
      | some result =>
        rw [h.2] at hb
        exact (Table.lookup_deleteIf_eq_some.mp hb).1
    · obtain ⟨hupdate, hev⟩ := accepted_eq_some.mp hc
      cases hev
      cases hupdate
  · have hlive : Makes (fun c => ∀ now, c ≠ .deleteExpired now) ev.op := by
      obtain ⟨e, result⟩ := ev
      rcases e with e | (_ | _ | c)
      · trivial
      · trivial
      · trivial
      · rintro now rfl
        exact hexpire ⟨now, result, rfl⟩
    have hlookup := h.lookup_accepted hlive key
    rw [hb] at hlookup
    cases hacc : accepted ev with
    | none =>
      rw [hacc] at hlookup
      exact .inr ⟨hlookup.symm, nofun⟩
    | some c =>
      rw [hacc] at hlookup
      replace hlookup : some b = (c.leaves key).getD (s.lookup key) := hlookup
      cases hleaves : c.leaves key with
      | none =>
        rw [hleaves] at hlookup
        refine .inr ⟨hlookup.symm, ?_⟩
        rintro _ ⟨⟩
        exact hleaves
      | some stored =>
        rw [hleaves] at hlookup
        obtain rfl : some b = stored := hlookup
        obtain ⟨maxBindings, rfl, hkey⟩ := upsert_of_leaves hleaves
        exact .inl ⟨maxBindings, (accepted_eq_some.mp hacc).2, hkey⟩

/-- The binding was stored by an event after which no update is about its key. -/
theorem origin_of_leads {t : List (ℕ × Event registrarSig)} {s : MemoryStore}
    (h : Steps (fun s (l : ℕ × Event registrarSig) s' => Serve cfg s l.2 s') ∅ t s)
    (hb : s.lookup key = some b) :
    ∃ before j maxBindings between,
      t = before ++ (j, ⟨.inr (.store (.upsert b maxBindings)), some (.done (.ok ()))⟩) :: between ∧
      b.key = key ∧ ∀ l ∈ between, ∀ c, accepted l.2 = some c → c.leaves key = none := by
  induction h with
  | nil => cases hb
  | @snoc t l s₁ s₂ _ hl ih =>
    rcases hl.origin hb with ⟨maxBindings, hev, hkey⟩ | ⟨hbefore, hkeeps⟩
    · refine ⟨t, l.1, maxBindings, [], ?_, hkey, fun l hl => absurd hl List.not_mem_nil⟩
      rw [← hev]
    · obtain ⟨before, j, maxBindings, between, rfl, hkey, hbetween⟩ := ih hbefore
      refine ⟨before, j, maxBindings, between ++ [l], by simp, hkey, ?_⟩
      intro l' hl'
      rcases List.mem_append.mp hl' with hl' | hl'
      · exact hbetween l' hl'
      · rw [List.mem_singleton.mp hl']
        exact hkeeps

/-- A binding that is listed is active, and no update is about its key from when it was stored. -/
theorem origin_of_listed {t : List (ℕ × Event registrarSig)} {s : MemoryStore}
    (h : Steps (fun s (l : ℕ × Event registrarSig) s' => Serve cfg s l.2 s') ∅ t s) {i : ℕ}
    {tenantID aor : String} {now : ℤ} {bindings : List Binding}
    (hlisted : (i, ⟨.inr (.store (.listActive tenantID aor now)), some (.listed (.ok bindings))⟩) ∈ t)
    (hb : b ∈ bindings) :
    ∃ before j maxBindings between after,
      t = before ++ (j, ⟨.inr (.store (.upsert b maxBindings)), some (.done (.ok ()))⟩) :: between ++
        (i, ⟨.inr (.store (.listActive tenantID aor now)), some (.listed (.ok bindings))⟩) :: after ∧
      b.tenantID = tenantID ∧ b.aor = aor ∧ now < b.expiresAt ∧
      ∀ l ∈ between, ∀ c, accepted l.2 = some c → c.leaves b.key = none := by
  obtain ⟨earlier, after, rfl⟩ := List.append_of_mem hlisted
  -- the state in which the bindings are listed
  obtain ⟨s₁, s₂, hearlier, hlist, -⟩ := h.split_cons
  have hperm : (s₁.listActive tenantID aor now).Perm bindings := hlist.1
  obtain ⟨⟨key, b⟩, hentry, rfl⟩ := List.mem_map.mp (hperm.mem_iff.mpr hb)
  obtain ⟨hmem, hactive⟩ := List.mem_filter.mp hentry
  simp only [MemoryStore.active, Bool.and_eq_true, decide_eq_true_eq] at hactive
  obtain ⟨before, j, maxBindings, between, rfl, rfl, hbetween⟩ :=
    origin_of_leads hearlier (Table.lookup_eq_some.mpr hmem)
  exact ⟨before, j, maxBindings, between, after, rfl, hactive.1.1, hactive.1.2, hactive.2, hbetween⟩

theorem username_of_addressOfRecord (hrealm : engine.realm = cfg.realm) {credential : Credential}
    (hcredential : credential.realm = cfg.realm)
    (h : addressOfRecord credential = B2bua.addressOfRecord engine user) : credential.username = user := by
  rw [addressOfRecord, hcredential, B2bua.addressOfRecord, hrealm] at h
  have haddress : userAddress cfg credential.username = userAddress cfg user := h
  exact userAddress_inj haddress

theorem only_invite : Only
    (Makes fun c => ∃ now, c = .listActive engine.tenantID (B2bua.addressOfRecord engine user) now)
    (work cfg T engine (.invite user source transport)) := by
  refine only_manager ?_
  rw [B2bua.sourceIsRegistered, interp_bind, interp_call]
  refine only_bind (only_bind (only_list _ _) fun result => ?_) fun found => ?_
  · split <;> exact only_pure
  · split <;> exact only_pure

/-- A REGISTER stores a binding for the user it authenticated, with its source and transport. -/
theorem upsert_of_handle {request : Register} {q : Prog registrarSig Outcome}
    (h : Path (handle cfg T request) t q) {maxBindings : ℤ} {result : Option StoreResult}
    (hb : ⟨.inr (.store (.upsert b maxBindings)), result⟩ ∈ t) :
    ∃ credential received parsed, verified t = some credential ∧
      b.tenantID = credential.tenantID ∧ b.aor = addressOfRecord credential ∧
      T.parseAddrPort request.source = some received ∧ b.routeTarget = T.addrPortString received ∧
      parseTransport request.transport = some parsed ∧ b.transport = parsed := by
  obtain ⟨credential, -, -, -, -, hverified, hissued⟩ := issued_of_path h hb
  rcases hissued with ⟨now, hlist⟩ | ⟨r, contact, ⟨rfl, hreceived, hparsed⟩, -, expires, q, -,
    happlied⟩
  · cases hlist
  · obtain ⟨-, -, id, now, rfl, -⟩ := happlied
    exact ⟨r.credential, r.received, r.transport, hverified, rfl, rfl, hreceived, rfl, hparsed, rfl⟩

theorem register_of_upsert {x : Work} {q : Prog registrarSig (Option Bool)}
    (h : Path (work cfg T engine x) t q) {maxBindings : ℤ} {result : Option StoreResult}
    (hb : ⟨.inr (.store (.upsert b maxBindings)), result⟩ ∈ t) :
    ∃ request q', x = .register request ∧ Path (handle cfg T request) t q' := by
  cases x with
  | register request =>
    rcases path_bind h with ⟨p', hp', -⟩ | ⟨a, u, v, rfl, hu, hv⟩
    · exact ⟨request, p', rfl, hp'⟩
    · cases hv
      rw [List.append_nil]
      exact ⟨request, _, rfl, hu⟩
  | expire =>
    have honly : Only (Makes fun c => ∃ now, c = .deleteExpired now) (work cfg T engine .expire) :=
      only_bind (only_manager only_expire) fun _ => only_pure
    obtain ⟨now, hc⟩ := honly.of_path h _ hb
    cases hc
  | invite =>
    obtain ⟨now, hc⟩ := only_invite.of_path h _ hb
    cases hc

/-- An INVITE passes the admission check only if an earlier REGISTER that its user has authenticated
came from the same source and transport, and stored a binding that has not expired; between that and
the check, no update is about the contact of this binding. -/
theorem admitted_source_registered (cfg : Config) (T : Texts) (engine : B2bua.Config)
    (hrealm : engine.realm = cfg.realm) (h : History (work cfg T engine)) (s' : MemoryStore)
    (hlead : h.Leads (Serve cfg) ∅ s') (i : ℕ) (user source transport : String)
    (harg : h.arg i = .invite user source transport)
    (hpass : Returns (work cfg T engine (h.arg i)) (ownEvents i h.events) (some true)) :
    ∃ now bindings before j binding maxBindings between after,
      ownEvents i h.events = [⟨.inr .now, now⟩,
        ⟨.inr (.store (.listActive engine.tenantID ("sip:" ++ user ++ "@" ++ engine.realm) now)),
          some (.listed (.ok bindings))⟩] ∧
      h.events = before ++
        (j, ⟨.inr (.store (.upsert binding maxBindings)), some (.done (.ok ()))⟩) :: between ++
        (i, ⟨.inr (.store (.listActive engine.tenantID ("sip:" ++ user ++ "@" ++ engine.realm) now)),
          some (.listed (.ok bindings))⟩) :: after ∧
      now < binding.expiresAt ∧
      (∀ l ∈ between, ∀ c, accepted l.2 = some c → c.leaves binding.key = none) ∧
      ∃ request credential received parsed, h.arg j = .register request ∧
        verified (ownEvents j h.events) = some credential ∧
        credential.tenantID = engine.tenantID ∧ credential.username = user ∧
        T.parseAddrPort request.source = some received ∧ T.addrPortString received = source ∧
        parseTransport request.transport = some parsed ∧ parsed.text = Text.toLower transport := by
  rw [harg] at hpass
  obtain ⟨now, bindings, hown, b, hb, hsource, htransport⟩ := check_returns hpass
  have hlisted : (i, ⟨.inr (.store (.listActive engine.tenantID (B2bua.addressOfRecord engine user) now)),
      some (.listed (.ok bindings))⟩) ∈ h.events := by
    apply mem_ownEvents.mp
    rw [hown]
    exact List.mem_cons_of_mem _ List.mem_cons_self
  -- the request that stored the binding
  obtain ⟨before, j, maxBindings, between, after, hevents, htenant, haor, hactive, hbetween⟩ :=
    origin_of_listed hlead hlisted hb
  have hstored : ⟨.inr (.store (.upsert b maxBindings)), some (.done (.ok ()))⟩ ∈
      ownEvents j h.events := by
    apply mem_ownEvents.mpr
    rw [hevents]
    simp
  obtain ⟨q, hq⟩ := h.paths j
  obtain ⟨request, q', hregister, hq'⟩ := register_of_upsert hq hstored
  obtain ⟨credential, received, parsed, hverified, htenant', haor', hreceived, hroute, hparsed, rfl⟩ :=
    upsert_of_handle hq' hstored
  have huser : credential.username = user :=
    username_of_addressOfRecord hrealm (realm_of_leads hlead hverified) (haor'.symm.trans haor)
  exact ⟨now, bindings, before, j, b, maxBindings, between, after, hown, hevents, hactive, hbetween,
    request, credential, received, b.transport, hregister, hverified, htenant'.symm.trans htenant, huser,
    hreceived, hroute.symm.trans hsource, hparsed, htransport⟩

def homeEngine : B2bua.Config := ⟨"home", "pbx", "node", 1, 1, 1, 1⟩

def aliceRegisters : List (Event registrarSig) × Option (Option Bool) × MemoryStore :=
  trace (frontDesk (homeCredential "alice") 1)
    (work homeConfig homeTexts homeEngine (.register (homeRegister "alice" [homeContact "alice"]))) ∅

def aliceCalls : List (Event registrarSig) × Option (Option Bool) × MemoryStore :=
  trace (frontDesk (homeCredential "alice") 1)
    (work homeConfig homeTexts homeEngine (.invite "alice" "10.0.0.5:5060" "UDP")) aliceRegisters.2.2

def registeredCall : History (work homeConfig homeTexts homeEngine) where
  arg i :=
    if i = 0 then .register (homeRegister "alice" [homeContact "alice"])
    else .invite "alice" "10.0.0.5:5060" "UDP"
  events := aliceRegisters.1.map (Prod.mk 0) ++ aliceCalls.1.map (Prod.mk 1)
  paths i := by
    rw [ownEvents_append, ownEvents_tag, ownEvents_tag]
    match i with
    | 0 => exact ⟨_, returns_trace (a := none) rfl⟩
    | 1 => exact ⟨_, returns_trace (a := some true) rfl⟩
    | i + 2 => exact ⟨_, .nil _⟩

theorem admitted_source_registered_alice :
    Returns (work homeConfig homeTexts homeEngine (registeredCall.arg 1))
        (ownEvents 1 registeredCall.events) (some true) ∧
      ∃ j credential, verified (ownEvents j registeredCall.events) = some credential ∧
        credential.tenantID = "home" ∧ credential.username = "alice" := by
  have hlead : registeredCall.Leads (Serve homeConfig) ∅ aliceCalls.2.2 :=
    (History.steps_tag 0 (steps_trace (fun s e => serve_frontDesk rfl 1 s e) _ _)).trans
      (History.steps_tag 1 (steps_trace (fun s e => serve_frontDesk rfl 1 s e) _ _))
  have hpass : Returns (work homeConfig homeTexts homeEngine (registeredCall.arg 1))
      (ownEvents 1 registeredCall.events) (some true) := by
    rw [registeredCall, ownEvents_append, ownEvents_tag, ownEvents_tag]
    exact returns_trace (a := some true) rfl
  obtain ⟨now, bindings, before, j, binding, maxBindings, between, after, -, -, -, -, request,
    credential, received, parsed, -, hverified, htenant, huser, -⟩ :=
    admitted_source_registered homeConfig homeTexts homeEngine rfl registeredCall _ hlead 1 _ _ _ rfl hpass
  exact ⟨hpass, j, credential, hverified, htenant, huser⟩

end AixvolinkPbx.Registrar
