import AixvolinkPbx.B2bua.Offers
import AixvolinkPbx.Lib.Channel
import AixvolinkPbx.Lib.Sorting
import AixvolinkPbx.Registrar.Source

/-!
# Who calls whom

INVITEs are not authenticated, REGISTERs are. The engine reads the bindings twice for a call, once to
admit the caller's source and once to find the callee, and any number of REGISTERs, INVITEs and runs of
`Expire` go on at the same time.

1. `traffic` are the whole functions: what the engine asks the registrations for is answered by the
   manager over the store, everything else of it is left open.
2. `finds_of_lists`: a binding that is listed was stored by a REGISTER of its user.
3. `dialled_authorised` follows a call back: the engine dials from a phone that has authenticated as the
   caller to one that has authenticated as the callee.
-/

namespace AixvolinkPbx.Registrar

open Auth (Credential)
open B2bua (engineSig EngineOp Invite)
open Prog Registration

/-! ## The traffic -/

abbrev trafficSig : Sig := engineSig.sum registrarSig

/-- What the manager returns; its errors are not told apart. -/
def asked {α : Type} (p : Prog managerSig (Except ManagerError α)) : Prog trafficSig (Option α) := do
  match ← p.inr.inr with
  | .ok a => return some a
  | .error _ => return none

/-- `e.registrations`: the engine lists and resolves with the manager of the registrar. -/
def lookups (sort : (Binding → Binding → ℤ) → List Binding → List Binding) :
    (e : EngineOp) → Prog trafficSig (engineSig.Ans e)
  | .listBindings tenantID aor => asked (list tenantID aor)
  | .resolve tenantID aor => asked (resolve sort tenantID aor)
  | e => .call (S := trafficSig) (.inl e)

inductive Traffic
  | register (request : Register)
  | expire
  | invite (n : ℕ) (invite : Invite)

variable (cfg : Config) (T : Texts) (engine : B2bua.Config) (C : Sdp.Codecs)
  (sort : (Binding → Binding → ℤ) → List Binding → List Binding)

/-- A REGISTER, a run of `Expire`, or an INVITE with its whole session. -/
def traffic : Traffic → Prog trafficSig Unit
  | .register request => do
    let _ ← (handle cfg T request).inr
  | .expire => do
    let _ ← expire.inr.inr
  | .invite n invite => interp (lookups sort) (B2bua.handleInvite engine C n invite)

/-- The store performs the calls of the registrar; what the engine does elsewhere leaves it alone. -/
def ServeTraffic (s : MemoryStore) : Event trafficSig → MemoryStore → Prop
  | ⟨.inl _, _⟩, s' => s' = s
  | ⟨.inr e, r⟩, s' => Serve cfg s ⟨e, r⟩ s'

/-- The part of an event that the registrar sees. -/
def registrarPart : ℕ × Event trafficSig → Option (ℕ × Event registrarSig)
  | (_, ⟨.inl _, _⟩) => none
  | (i, ⟨.inr e, r⟩) => some (i, ⟨e, r⟩)

variable {cfg T engine C sort} {t : List (Event trafficSig)}

theorem returns_asked {α : Type} {p : Prog managerSig (Except ManagerError α)} {a : α}
    (h : Returns (asked p) t (some a)) :
    ∃ u, t = (u.map Event.inr).map Event.inr ∧ Returns p u (.ok a) := by
  obtain ⟨result, u, v, rfl, hu, hv⟩ := returns_bind h
  obtain ⟨u, rfl, hu₁⟩ := returns_inr hu
  obtain ⟨u, rfl, hu₂⟩ := returns_inr hu₁
  cases result with
  | error err => cases hv
  | ok a =>
    cases hv
    exact ⟨u, List.append_nil _, hu₂⟩

theorem only_asked {α : Type} {p : Prog managerSig (Except ManagerError α)} {F : trafficSig.Op → Prop}
    (h : Only (fun e => F (.inr (.inr e))) p) : Only F (asked p) := by
  refine only_bind (only_inr (only_inr h)) fun result => ?_
  cases result <;> exact only_pure

theorem registrarPart_eq_some {l : ℕ × Event trafficSig} {i : ℕ} {ev : Event registrarSig} :
    registrarPart l = some (i, ev) ↔ l = (i, ev.inr) := by
  obtain ⟨j, e | e, r⟩ := l
  · simp [registrarPart, Event.inr]
  · constructor
    · rintro ⟨⟩
      rfl
    · rintro ⟨⟩
      rfl

theorem mem_registrarPart {t : List (ℕ × Event trafficSig)} {i : ℕ} {ev : Event registrarSig} :
    (i, ev) ∈ t.filterMap registrarPart ↔ (i, ev.inr) ∈ t := by
  rw [List.mem_filterMap]
  constructor
  · rintro ⟨l, hl, heq⟩
    exact registrarPart_eq_some.mp heq ▸ hl
  · exact fun h => ⟨_, h, registrarPart_eq_some.mpr rfl⟩

theorem rights_ownEvents (i : ℕ) (t : List (ℕ × Event trafficSig)) :
    Event.rights (ownEvents i t) = ownEvents i (t.filterMap registrarPart) := by
  induction t with
  | nil => rfl
  | cons l t ih =>
    rw [← List.singleton_append, ownEvents_append, Event.rights_append, ih, List.filterMap_append,
      ownEvents_append]
    refine congrArg (· ++ _) ?_
    obtain ⟨j, e | e, r⟩ := l
    · by_cases hj : j = i <;> simp [ownEvents, registrarPart, Event.rights, hj]
    · by_cases hj : j = i <;> simp [ownEvents, registrarPart, Event.rights, hj]

theorem steps_registrar {s s' : MemoryStore} {t : List (ℕ × Event trafficSig)}
    (h : Steps (fun s l s' => ServeTraffic cfg s l.2 s') s t s') :
    Steps (fun s (l : ℕ × Event registrarSig) s' => Serve cfg s l.2 s') s
      (t.filterMap registrarPart) s' := by
  refine Steps.project id registrarPart (fun s l s' hs => ?_) h
  obtain ⟨i, e | e, r⟩ := l
  · exact hs
  · exact hs

/-! ## Where the bindings come from -/

variable {q : Prog trafficSig Unit}

theorem path_register {request : Register}
    (h : Path (traffic cfg T engine C sort (.register request)) t q) :
    ∃ q', Path (handle cfg T request) (Event.rights t) q' := by
  rcases path_bind h with ⟨p', hp', -⟩ | ⟨a, u, v, rfl, hu, hv⟩
  · obtain ⟨u, p'', rfl, -, hu⟩ := path_inr hp'
    exact ⟨p'', by rwa [Event.rights_map_inr]⟩
  · cases hv
    obtain ⟨w, rfl, hw⟩ := returns_inr hu
    exact ⟨_, by rwa [List.append_nil, Event.rights_map_inr]⟩

/-- Operations that store no binding. -/
def NoUpsert : trafficSig.Op → Prop
  | .inl _ => True
  | .inr e => Makes (fun c => ∀ b maxBindings, c ≠ .upsert b maxBindings) e

theorem noUpsert_of_calls {P : StoreCall → Prop}
    (h : ∀ c, P c → ∀ b maxBindings, c ≠ .upsert b maxBindings) (e : managerSig.Op) (he : Calls P e)
    : NoUpsert (.inr (.inr e)) := by
  cases e with
  | store c => exact h c he
  | _ => trivial

theorem noUpsert_lookups (e : EngineOp) : Only NoUpsert (lookups sort e) := by
  have hlist : ∀ tenantID aor, Only (fun e => NoUpsert (.inr (.inr e))) (list tenantID aor) :=
    fun tenantID aor => (only_list tenantID aor).mono <|
      noUpsert_of_calls fun c ⟨now, hc⟩ b maxBindings h => by cases hc.symm.trans h
  cases e with
  | listBindings tenantID aor => exact only_asked (hlist tenantID aor)
  | resolve tenantID aor =>
    refine only_asked (only_bind (hlist tenantID aor) fun result => ?_)
    cases result with
    | error err => exact only_pure
    | ok bindings =>
      dsimp only
      split <;> exact only_pure
  | _ => exact only_call.mpr trivial

theorem register_of_stored {x : Traffic} (h : Path (traffic cfg T engine C sort x) t q)
    {b : Binding} {maxBindings : ℤ} {result : Option StoreResult}
    (hb : ⟨.inr (.inr (.store (.upsert b maxBindings))), result⟩ ∈ t) :
    ∃ request, x = .register request := by
  cases x with
  | register request => exact ⟨request, rfl⟩
  | expire =>
    have honly : Only NoUpsert (traffic cfg T engine C sort .expire) := by
      refine only_bind (only_inr (only_manager (only_expire.mono ?_))) fun _ => only_pure
      exact noUpsert_of_calls fun c ⟨now, hc⟩ b maxBindings h => by cases hc.symm.trans h
    exact absurd rfl (honly.of_path h _ hb b maxBindings)
  | invite n invite =>
    have honly : Only NoUpsert (traffic cfg T engine C sort (.invite n invite)) :=
      only_interp _ (only_of_forall noUpsert_lookups _)
    exact absurd rfl (honly.of_path h _ hb b maxBindings)

/-- Among these events the user has registered the binding: a REGISTER that the user has authenticated
stored it, and came from the address and over the transport of the binding. -/
def Registers (h : History (traffic cfg T engine C sort)) (t : List (ℕ × Event trafficSig))
    (user : String) (b : Binding) : Prop :=
  ∃ j maxBindings request credential received,
    (j, ⟨.inr (.inr (.store (.upsert b maxBindings))), some (.done (.ok ()))⟩) ∈ t ∧
      h.arg j = .register request ∧ verified (Event.rights (ownEvents j t)) = some credential ∧
      credential.tenantID = engine.tenantID ∧ credential.username = user ∧
      T.parseAddrPort request.source = some received ∧ T.addrPortString received = b.routeTarget ∧
      parseTransport request.transport = some b.transport

/-- The call `i` has looked the binding up for the user before it expired, and the user has registered it. -/
def Finds (h : History (traffic cfg T engine C sort)) (t : List (ℕ × Event trafficSig)) (i : ℕ)
    (user : String) (b : Binding) : Prop :=
  ∃ now, (i, ⟨.inr (.inr .now), now⟩) ∈ t ∧ now < b.expiresAt ∧ Registers h t user b

/-- Among these events the bindings of a user were listed, and this is one of them. -/
def Lists (engine : B2bua.Config) (user : String) (t : List (Event trafficSig)) (b : Binding) : Prop :=
  ∃ now bindings, ⟨.inr (.inr .now), now⟩ ∈ t ∧
    ⟨.inr (.inr (.store (.listActive engine.tenantID (B2bua.addressOfRecord engine user) now))),
      some (.listed (.ok bindings))⟩ ∈ t ∧ b ∈ bindings

/-- A binding that is listed for a user was registered by that user. -/
theorem finds_of_lists (hrealm : engine.realm = cfg.realm)
    (h : History (traffic cfg T engine C sort)) {t rest : List (ℕ × Event trafficSig)}
    (hevents : h.events = t ++ rest) {s : MemoryStore}
    (hsteps : Steps (fun s l s' => ServeTraffic cfg s l.2 s') ∅ t s) {i : ℕ} {user : String} {b : Binding}
    (hlists : Lists engine user (ownEvents i t) b) : Finds h t i user b := by
  obtain ⟨now, bindings, hnow, hlisted, hb⟩ := hlists
  have hsteps := steps_registrar hsteps
  have hlisted : (i, ⟨.inr (.store (.listActive engine.tenantID (B2bua.addressOfRecord engine user) now)),
      some (.listed (.ok bindings))⟩) ∈ t.filterMap registrarPart :=
    mem_registrarPart.mpr (mem_ownEvents.mp hlisted)
  -- the request that stored the binding
  obtain ⟨before, j, maxBindings, between, after, hsplit, htenant, haor, hactive, -⟩ :=
    origin_of_listed hsteps hlisted hb
  have hstored : (j, ⟨.inr (.store (.upsert b maxBindings)), some (.done (.ok ()))⟩) ∈
      t.filterMap registrarPart := by
    rw [hsplit]
    simp
  obtain ⟨q, hq⟩ := h.paths j
  rw [hevents, ownEvents_append] at hq
  obtain ⟨q, hq, -⟩ := hq.split
  have hown := mem_ownEvents.mpr (mem_registrarPart.mp hstored)
  obtain ⟨request, hregister⟩ := register_of_stored hq hown
  rw [hregister] at hq
  obtain ⟨q', hq'⟩ := path_register hq
  obtain ⟨credential, received, parsed, hverified, htenant', haor', hreceived, hroute, hparsed, rfl⟩ :=
    upsert_of_handle hq' (Event.mem_rights.mpr hown)
  have hcredential : credential.realm = cfg.realm := by
    rw [rights_ownEvents] at hverified
    obtain ⟨ev, hev, hby⟩ := List.exists_of_findSome?_eq_some hverified
    have hrealms : ∀ l ∈ t.filterMap registrarPart, verifiedBy l.2 = some credential →
        credential.realm = cfg.realm :=
      Steps.forall_labels (fun _ _ _ hstep hl => Serve.realm_eq hstep hl) hsteps
    exact hrealms _ (mem_ownEvents.mp hev) hby
  have huser : credential.username = user :=
    username_of_addressOfRecord hrealm hcredential (haor'.symm.trans haor)
  exact ⟨now, mem_ownEvents.mp hnow, hactive, j, maxBindings, request, credential, received,
    mem_registrarPart.mp hstored, hregister, hverified, htenant'.symm.trans htenant, huser, hreceived,
    hroute.symm, hparsed⟩

/-! ## Calls -/

theorem lists_of_list {user : String} {t : List (Event managerSig)} {bindings : List Binding}
    (h : Returns (list engine.tenantID (B2bua.addressOfRecord engine user)) t (.ok bindings)) {b : Binding}
    (hb : b ∈ bindings) : Lists engine user ((t.map Event.inr).map Event.inr) b := by
  obtain ⟨now, rfl⟩ := list_returns h
  exact ⟨now, bindings, List.mem_cons_self, List.mem_cons_of_mem _ List.mem_cons_self, hb⟩

/-- Before a call is dialled, its source was listed for the caller and its target for the callee. -/
theorem lists_of_dial (hsort : Sorting.Contract sort) {n : ℕ} {invite : Invite}
    {pre post : List (Event trafficSig)} {binding : Binding} {offer : Sdp.Body}
    {answer : Option String} (h : Path (traffic cfg T engine C sort (.invite n invite))
      (pre ++ ⟨.inl (.createOutbound binding offer), answer⟩ :: post) q) :
    (∃ b, b.routeTarget = invite.source ∧ b.transport.text = Text.toLower invite.transport ∧
        Lists engine (invite.fromUser.getD "") pre b) ∧
      Lists engine (invite.toUser.getD "") pre binding := by
  have hother : ∀ e, e ≠ .createOutbound binding offer →
      Only (fun e' : trafficSig.Op => e' ≠ .inl (.createOutbound binding offer)) (lookups sort e) := by
    intro e he
    cases e with
    | listBindings | resolve => exact only_asked (only_of_forall (fun _ h => by cases h) _)
    | _ => exact only_call.mpr fun heq => he (Sum.inl.inj heq)
  obtain ⟨u, v, p', hpath, hreplaced⟩ := path_interp_inl rfl hother h
  obtain ⟨⟨bindings, hlisted, b, hb, hfits⟩, hprepared⟩ :=
    (B2bua.handleInvite_scene engine C invite n).of_path hpath
  have hsourced := B2bua.sourced_past u
  constructor
  · obtain ⟨seg, hseg, hsub⟩ := hreplaced _ (hsourced.listed _ _ _ hlisted)
    obtain ⟨w, rfl, hlist⟩ := returns_asked hseg
    obtain ⟨now, bindings, hnow, hlist, hb⟩ := lists_of_list hlist hb
    exact ⟨b, hfits.1, hfits.2, now, bindings, hsub hnow, hsub hlist, hb⟩
  · obtain ⟨seg, hseg, hsub⟩ := hreplaced _ (hsourced.resolved _ _ _ hprepared.resolved)
    obtain ⟨w, rfl, hresolve⟩ := returns_asked hseg
    obtain ⟨bindings, hlist, hb⟩ := resolve_returns hsort.perm hresolve
    obtain ⟨now, bindings, hnow, hlist, hb⟩ := lists_of_list hlist hb
    exact ⟨now, bindings, hsub hnow, hsub hlist, hb⟩

/-- Whatever else goes on, the engine sends an INVITE out only to a binding that the callee has
registered and that had not expired when this call looked it up, and only for an INVITE that comes from
the address and over the transport of a binding which the caller has registered and which had not
expired. Both were stored by REGISTERs that these users have authenticated, sent from the addresses of
the bindings. -/
theorem dialled_authorised (hrealm : engine.realm = cfg.realm) (hsort : Sorting.Contract sort)
    (h : History (traffic cfg T engine C sort)) (s : MemoryStore)
    (hlead : h.Leads (ServeTraffic cfg) ∅ s) (i n : ℕ) (invite : Invite)
    (harg : h.arg i = .invite n invite) (before after : List (ℕ × Event trafficSig))
    (binding : Binding) (offer : Sdp.Body) (answer : Option String)
    (hdial : h.events = before ++ (i, ⟨.inl (.createOutbound binding offer), answer⟩) :: after) :
    (∃ b, b.routeTarget = invite.source ∧ b.transport.text = Text.toLower invite.transport ∧
        Finds h before i (invite.fromUser.getD "") b) ∧
      Finds h before i (invite.toUser.getD "") binding := by
  obtain ⟨q, hq⟩ := h.paths i
  rw [harg, hdial, ownEvents_append, ← List.singleton_append, ownEvents_append] at hq
  have hown : ownEvents i [(i, (⟨.inl (.createOutbound binding offer), answer⟩ : Event trafficSig))] =
      [⟨.inl (.createOutbound binding offer), answer⟩] := by simp [ownEvents]
  rw [hown, List.singleton_append] at hq
  obtain ⟨⟨b, hsource, htransport, hcaller⟩, hcallee⟩ := lists_of_dial hsort hq
  have hsteps := hlead
  rw [History.Leads, hdial] at hsteps
  obtain ⟨s₁, hbefore, -⟩ := hsteps.split
  exact ⟨⟨b, hsource, htransport, finds_of_lists hrealm h hdial hbefore hcaller⟩,
    finds_of_lists hrealm h hdial hbefore hcallee⟩

/-! Alice and Bob register, and Alice calls. -/

def frontDeskTraffic (user : String) (s : MemoryStore) :
    (e : trafficSig.Op) → trafficSig.Ans e × MemoryStore
  | .inl e => (B2bua.relaying 40 e, s)
  | .inr e => frontDesk (homeCredential user) 1 s e

def homeInvite : Invite :=
  ⟨some "alice", some "bob", "10.0.0.5:5060", "UDP", B2bua.phoneBody 1 4000⟩

def homeTraffic : Traffic → Prog trafficSig Unit :=
  traffic homeConfig homeTexts homeEngine B2bua.relayCodecs Sorting.insertionSort

def aliceArrives := trace (frontDeskTraffic "alice")
  (homeTraffic (.register (homeRegister "alice" [homeContact "alice"]))) ∅

def bobArrives := trace (frontDeskTraffic "bob")
  (homeTraffic (.register (homeRegister "bob" [homeContact "bob"]))) aliceArrives.2.2

def aliceDials := trace (frontDeskTraffic "") (homeTraffic (.invite 2 homeInvite)) bobArrives.2.2

def homeCalls : History homeTraffic where
  arg i :=
    if i = 0 then .register (homeRegister "alice" [homeContact "alice"])
    else if i = 1 then .register (homeRegister "bob" [homeContact "bob"])
    else .invite 2 homeInvite
  events := aliceArrives.1.map (Prod.mk 0) ++ bobArrives.1.map (Prod.mk 1) ++ aliceDials.1.map (Prod.mk 2)
  paths i := by
    rw [ownEvents_append, ownEvents_append, ownEvents_tag, ownEvents_tag, ownEvents_tag]
    rcases i with _ | _ | _ | i
    · exact ⟨_, returns_trace (a := ()) (by decide +kernel)⟩
    · exact ⟨_, returns_trace (a := ()) (by decide +kernel)⟩
    · exact ⟨_, returns_trace (a := ()) (by decide +kernel)⟩
    · exact ⟨_, .nil _⟩

theorem serve_frontDeskTraffic (user : String) (s : MemoryStore) (e : trafficSig.Op) :
    ServeTraffic homeConfig s ⟨e, (frontDeskTraffic user s e).1⟩ (frontDeskTraffic user s e).2 := by
  cases e with
  | inl e => rfl
  | inr e => exact serve_frontDesk rfl 1 s e

theorem homeCalls_leads : homeCalls.Leads (ServeTraffic homeConfig) ∅ aliceDials.2.2 :=
  ((History.steps_tag 0 (steps_trace (serve_frontDeskTraffic "alice") _ _)).trans
    (History.steps_tag 1 (steps_trace (serve_frontDeskTraffic "bob") _ _))).trans
    (History.steps_tag 2 (steps_trace (serve_frontDeskTraffic "") _ _))

theorem dialled_authorised_home : ∃ before binding b, b.routeTarget = "10.0.0.5:5060" ∧
    Finds homeCalls before 2 "alice" b ∧ Finds homeCalls before 2 "bob" binding := by
  obtain ⟨binding, offer, answer, hget⟩ : ∃ binding offer answer, homeCalls.events[29]? =
      some (2, ⟨.inl (.createOutbound binding offer), answer⟩) := ⟨_, _, _, rfl⟩
  obtain ⟨hlt, heq⟩ := List.getElem?_eq_some_iff.mp hget
  have hdial : homeCalls.events = homeCalls.events.take 29 ++
      (2, ⟨.inl (.createOutbound binding offer), answer⟩) :: homeCalls.events.drop 30 := by
    rw [← heq, List.getElem_cons_drop, List.take_append_drop]
  obtain ⟨⟨b, hsource, -, halice⟩, hbob⟩ :=
    dialled_authorised rfl Sorting.contract_insertionSort homeCalls _ homeCalls_leads 2 2 homeInvite rfl
      _ _ binding offer answer hdial
  exact ⟨_, binding, b, hsource, halice, hbob⟩

end AixvolinkPbx.Registrar
