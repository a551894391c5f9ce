import AixvolinkPbx.Lib.History
import AixvolinkPbx.Registrar.Handler

/-!
# What a REGISTER does to the store

1. `Applied` and `Issued` say which calls of the store the manager and the handler make; every later
   statement about the registrar is derived from them.
2. `handle_path` is the authentication: before it there are no calls of the store, after it all calls
   are made for the credential that `Verify` returned.
3. `Serve` is the environment of the handler: the store in memory, and an authenticator of the same
   realm (`realm_of_verify`).
-/

namespace AixvolinkPbx.Registration

open Prog

/-! ## Calls of the manager -/

/-- The update is one that `Apply` makes for the request. -/
def Applied (request : Request) : StoreCall → Prop
  | .upsert binding maxBindings =>
    0 < request.expires ∧ maxBindings = request.maxBindings ∧
      ∃ id now, binding = request.binding id now ∧ binding.validate now = .ok ()
  | .delete tenantID aor contact =>
    request.expires = 0 ∧ request.contact ≠ "*" ∧
      tenantID = request.tenantID ∧ aor = request.aor ∧ contact = request.contact
  | .deleteAll tenantID aor =>
    request.expires = 0 ∧ request.contact = "*" ∧ tenantID = request.tenantID ∧ aor = request.aor
  | _ => False

/-- Only calls of the store that satisfy `P`. -/
def Calls (P : StoreCall → Prop) : managerSig.Op → Prop
  | .store c => P c
  | _ => True

theorem only_update {P : StoreCall → Prop} {c : StoreCall} (h : P c) : Only (Calls P) (update c) := by
  refine only_bind (only_call.mpr h) fun result => ?_
  split <;> exact only_pure

theorem only_apply (request : Request) : Only (Calls (Applied request)) (apply request) := by
  unfold apply
  split_ifs with hneg hzero hstar hmax hvalid
  · exact only_pure
  · exact only_bind (only_update ⟨hzero, hstar, rfl, rfl⟩) fun _ => only_pure
  · exact only_bind (only_update ⟨hzero, hstar, rfl, rfl, rfl⟩) fun _ => only_pure
  · exact only_pure
  · exact only_bind (only_call.mpr (show Calls _ .now from trivial)) fun _ => only_pure
  · refine only_bind (only_call.mpr (show Calls _ .now from trivial)) fun now => ?_
    refine only_bind (only_call.mpr (show Calls _ .newV7 from trivial)) fun id => ?_
    cases id with
    | none => exact only_pure
    | some id =>
      dsimp only
      split
      · exact only_pure
      · next hvalid =>
        exact only_bind (only_update ⟨by omega, rfl, id, now, rfl, hvalid⟩) fun _ => only_pure

theorem only_list (tenantID aor : String) :
    Only (Calls fun c => ∃ now, c = .listActive tenantID aor now) (list tenantID aor) := by
  refine only_bind (only_call.mpr trivial) fun now => ?_
  refine only_bind (only_call.mpr ⟨now, rfl⟩) fun result => ?_
  split <;> exact only_pure

theorem only_expire : Only (Calls fun c => ∃ now, c = .deleteExpired now) expire := by
  refine only_bind (only_call.mpr trivial) fun now => ?_
  refine only_bind (only_call.mpr ⟨now, rfl⟩) fun result => ?_
  split <;> exact only_pure

theorem list_returns {tenantID aor : String} {t : List (Event managerSig)} {bindings : List Binding}
    (h : Returns (list tenantID aor) t (.ok bindings)) :
    ∃ now, t = [⟨.now, now⟩, ⟨.store (.listActive tenantID aor now),
      some (.listed (.ok bindings))⟩] := by
  obtain ⟨now, u, v, rfl, hu, hv⟩ := returns_bind h
  obtain ⟨result, v, w, rfl, hv, hw⟩ := returns_bind hv
  obtain rfl := returns_call hu
  obtain rfl := returns_call hv
  refine ⟨now, ?_⟩
  split at hw
  · cases hw
    rfl
  · cases hw
  · cases hw

/-- `Resolve` returns one of the bindings that are listed. -/
theorem resolve_returns {sort : (Binding → Binding → ℤ) → List Binding → List Binding}
    (hsort : ∀ compare bindings, (sort compare bindings).Perm bindings) {tenantID aor : String}
    {t : List (Event managerSig)} {binding : Binding}
    (h : Returns (resolve sort tenantID aor) t (.ok binding)) :
    ∃ bindings, Returns (list tenantID aor) t (.ok bindings) ∧ binding ∈ bindings := by
  obtain ⟨result, u, v, rfl, hu, hv⟩ := returns_bind h
  cases result with
  | error err => cases hv
  | ok bindings =>
    dsimp only at hv
    split at hv
    · cases hv
    · next first rest hsorted =>
      cases hv
      rw [List.append_nil]
      refine ⟨bindings, hu, (hsort compareBindings bindings).mem_iff.mp ?_⟩
      rw [hsorted]
      exact List.mem_cons_self

end AixvolinkPbx.Registration

namespace AixvolinkPbx.Registrar

open Auth (Credential)
open Prog Registration

variable {cfg : Config} {T : Texts} {request : Register} {credential : Credential}

/-! ## Calls of the handler -/

/-- The call is an update for one of the contacts. -/
def ForContact (cfg : Config) (T : Texts) (request : Register) (r : Registrant)
    (contact : Contact) (c : StoreCall) : Prop :=
  ∃ expires q, contactExpires cfg request contact = .ok expires ∧
    Applied (r.request T contact expires q) c

/-- What the contacts of the request have in common. -/
structure Registrant.Of (T : Texts) (request : Register) (credential : Credential) (r : Registrant) :
    Prop where
  credential : r.credential = credential
  received : T.parseAddrPort request.source = some r.received
  transport : parseTransport request.transport = some r.transport

/-- The call is one that the handler makes after authentication: a listing for the response, or an
update for one of the contacts. -/
def Issued (cfg : Config) (T : Texts) (request : Register) (credential : Credential)
    (c : StoreCall) : Prop :=
  (∃ now, c = .listActive credential.tenantID (addressOfRecord credential) now) ∨
    ∃ r contact, Registrant.Of T request credential r ∧ some contact ∈ request.contacts ∧
      ForContact cfg T request r contact c

def Makes (P : StoreCall → Prop) : registrarSig.Op → Prop
  | .inr e => Calls P e
  | .inl _ => True

variable {P : StoreCall → Prop}

theorem only_handlerOp (e : HandlerOp) : Only (Makes P) (handlerOp e) :=
  only_inl (only_call.mpr trivial)

theorem only_manager {α : Type} {p : Prog managerSig α} (h : Only (Calls P) p) :
    Only (Makes P) (Prog.inr p : Prog registrarSig α) := only_inr h

theorem Makes.mono {Q : StoreCall → Prop} (h : ∀ c, P c → Q c) (e : registrarSig.Op) :
    Makes P e → Makes Q e := by
  rcases e with e | (_ | _ | c)
  · exact id
  · exact id
  · exact id
  · exact h c

theorem only_respond (response : Response) :
    Only (Makes P) (respond response) := by
  refine only_bind (only_handlerOp _) fun ok => ?_
  split_ifs <;> exact only_pure

theorem only_refuse (status : ℕ) (reason : String) :
    Only (Makes P) (refuse status reason) := only_respond _

theorem only_challenge (stale : Bool) : Only (Makes P) (challenge stale) := by
  refine only_bind (only_handlerOp _) fun text => ?_
  cases text with
  | none => exact only_pure
  | some text => exact only_respond _

theorem only_respondBindings (tenantID aor : String) :
    Only (Makes fun c => ∃ now, c = .listActive tenantID aor now) (respondBindings T tenantID aor) := by
  refine only_bind (only_manager (only_list tenantID aor)) fun result => ?_
  cases result with
  | error err => exact only_pure
  | ok bindings =>
    refine only_bind (only_handlerOp _) fun now => ?_
    split
    · exact only_pure
    · exact only_respond _

theorem only_handleContact (r : Registrant) (contact : Contact) :
    Only (Makes (ForContact cfg T request r contact)) (handleContact cfg T request r (some contact)) := by
  unfold handleContact
  dsimp only
  split
  · exact only_bind (only_respond _) fun _ => only_pure
  · exact only_bind (only_refuse _ _) fun _ => only_pure
  · next expires hexpires =>
    split
    · exact only_bind (only_refuse _ _) fun _ => only_pure
    · next q _ =>
      have happly := (only_manager (only_apply (r.request T contact expires q))).mono
        (Makes.mono fun c hc => (⟨expires, q, hexpires, hc⟩ : ForContact cfg T request r contact c))
      refine only_bind happly fun result => ?_
      split
      · exact only_bind (only_refuse _ _) fun _ => only_pure
      · exact only_pure
      · exact only_pure

theorem only_handleContacts (r : Registrant) (contacts : List (Option Contact))
    (h : ∀ contact, some contact ∈ contacts → ∀ c, ForContact cfg T request r contact c → P c) :
    Only (Makes P) (handleContacts cfg T request r contacts) := by
  induction contacts with
  | nil => exact only_pure
  | cons contact contacts ih =>
    have hhead : Only (Makes P) (handleContact cfg T request r contact) := by
      cases contact with
      | none => exact only_bind (only_refuse _ _) fun _ => only_pure
      | some contact =>
        exact (only_handleContact r contact).mono (Makes.mono (h contact List.mem_cons_self))
    refine only_bind hhead fun outcome => ?_
    cases outcome with
    | some outcome => exact only_pure
    | none => exact ih fun contact hmem => h contact (List.mem_cons_of_mem _ hmem)

theorem only_handleAuthenticated :
    Only (Makes (Issued cfg T request credential)) (handleAuthenticated cfg T request credential) := by
  have hlist : Only (Makes (Issued cfg T request credential))
      (respondBindings T credential.tenantID (addressOfRecord credential)) :=
    (only_respondBindings _ _).mono (Makes.mono fun _ h => .inl h)
  unfold handleAuthenticated
  dsimp only
  split_ifs
  · exact hlist
  split
  · next received hreceived =>
    split
    · next transport htransport =>
      refine only_bind (only_handleContacts _ _ fun contact hmem c hc => ?_) fun outcome => ?_
      · exact .inr ⟨_, contact, ⟨rfl, hreceived, htransport⟩, hmem, hc⟩
      · cases outcome with
        | some outcome => exact only_pure
        | none => exact hlist
    · exact only_refuse _ _
  · exact only_refuse _ _

/-! ## Authentication -/

def verifiedBy : Event registrarSig → Option Credential
  | ⟨.inl (.verify _ _ _), .ok credential⟩ => some credential
  | _ => none

/-- The credential that `Verify` returned. -/
def verified (t : List (Event registrarSig)) : Option Credential := t.findSome? verifiedBy

/-- `handle` makes no call of the store, or it makes its calls for the credential that `Verify` returned
for the user of the To header. -/
theorem handle_path {t : List (Event registrarSig)} {q : Prog registrarSig Outcome}
    (h : Path (handle cfg T request) t q) :
    (∀ ev ∈ t, Makes (fun _ => False) ev.op) ∨
      ∃ credential header u, request.toHeader = some header ∧ header.host = cfg.realm ∧
        credential.username = header.user ∧ verified t = some credential ∧
        t = ⟨.inl (.verify request.method request.recipient (request.authorization.getD "")),
          .ok credential⟩ :: u ∧
        Path (handleAuthenticated cfg T request credential) u q := by
  unfold handle at h
  split at h
  · next header hheader =>
    split_ifs at h with hbad
    · exact .inl ((only_refuse _ _).of_path h)
    · cases h with
      | nil => exact .inl fun ev hev => absurd hev List.not_mem_nil
      | @cons _ _ r u _ h =>
        cases r with
        | error err =>
          refine .inl (List.forall_mem_cons.mpr ⟨trivial, (only_challenge _).of_path h⟩)
        | ok credential =>
          replace h : Path (if credential.username ≠ header.user then challenge false
            else handleAuthenticated cfg T request credential) u q := h
          split_ifs at h with huser
          · exact .inl (List.forall_mem_cons.mpr ⟨trivial, (only_challenge _).of_path h⟩)
          · rw [not_or, not_not] at hbad
            exact .inr ⟨credential, header, u, hheader, hbad.2, not_not.mp huser, rfl, rfl, h⟩
  · exact .inl ((only_refuse _ _).of_path h)

/-- Every call of the store is made after authentication. -/
theorem issued_of_path {t : List (Event registrarSig)} {q : Prog registrarSig Outcome}
    (h : Path (handle cfg T request) t q) {c : StoreCall} {result : Option StoreResult}
    (hc : ⟨.inr (.store c), result⟩ ∈ t) :
    ∃ credential header, request.toHeader = some header ∧ header.host = cfg.realm ∧
      credential.username = header.user ∧ verified t = some credential ∧
      Issued cfg T request credential c := by
  rcases handle_path h with hnone | ⟨credential, header, u, hheader, hhost, huser, hverified, rfl, hu⟩
  · exact (hnone _ hc).elim
  · refine ⟨credential, header, hheader, hhost, huser, hverified, ?_⟩
    rcases List.mem_cons.mp hc with hc | hc
    · cases hc
    · exact only_handleAuthenticated.of_path hu _ hc

/-! ## The environment -/

theorem realm_of_verify (cfg : Auth.Config) (P : Auth.Primitives) (call : Auth.VerifyCall) :
    Ensures (fun result => ∀ credential, result = .ok credential → credential.realm = cfg.realm)
      (Auth.verify cfg P call) := by
  unfold Auth.verify
  have herror : ∀ err : Auth.AuthError, ∀ credential : Credential,
      (Except.error err : Except Auth.AuthError Credential) = .ok credential →
        credential.realm = cfg.realm := fun _ _ h => nomatch h
  split_ifs
  · exact ensures_pure.mpr (herror _)
  split
  · next credentials _ =>
    split_ifs with hacceptable
    · exact ensures_pure.mpr (herror _)
    have hrealm : credentials.realm = cfg.realm := by
      simp [Auth.acceptable] at hacceptable
      exact hacceptable.1.1.1.1.1
    refine ensures_after fun nonce => ?_
    split
    · exact ensures_pure.mpr (herror _)
    refine ensures_after fun found => ?_
    cases found with
    | none => exact ensures_pure.mpr (herror _)
    | some credential =>
      dsimp only
      split_ifs with hlookup
      · exact ensures_pure.mpr (herror _)
      · exact ensures_pure.mpr (herror _)
      refine ensures_after fun now => ?_
      refine ensures_after fun recorded => ?_
      cases recorded with
      | error err => exact ensures_pure.mpr (herror _)
      | ok _ =>
        refine ensures_pure.mpr fun returned h => ?_
        cases h
        rw [not_or, not_not] at hlookup
        rw [hlookup.1, hrealm]
  · exact ensures_pure.mpr (herror _)

/-- An event of the handler leads from the store `s` to `s'`: the store in memory performs the calls it
has an answer for, and the authenticator returns credentials of the realm. -/
def Serve (cfg : Config) (s : MemoryStore) : Event registrarSig → MemoryStore → Prop
  | ⟨.inr (.store c), some result⟩, s' => StoreResult.Same (s.call c).1 result ∧ s' = (s.call c).2
  | ⟨.inl (.verify _ _ _), .ok credential⟩, s' => credential.realm = cfg.realm ∧ s' = s
  | _, s' => s' = s

/-- An environment: every request has the one credential, the clock stands still, all responses arrive
and the store has an answer for every call. -/
def frontDesk (credential : Credential) (now : ℤ) (s : MemoryStore) :
    (e : registrarSig.Op) → registrarSig.Ans e × MemoryStore
  | .inl (.verify _ _ _) => (.ok credential, s)
  | .inl (.challenge _) => (none, s)
  | .inl .timeNow => (now, s)
  | .inl (.respond _) => (true, s)
  | .inr .now => (now, s)
  | .inr .newV7 => (some "id", s)
  | .inr (.store c) => (some (s.call c).1, (s.call c).2)

theorem serve_frontDesk (h : credential.realm = cfg.realm) (now : ℤ) (s : MemoryStore)
    (e : registrarSig.Op) :
    Serve cfg s ⟨e, (frontDesk credential now s e).1⟩ (frontDesk credential now s e).2 := by
  rcases e with (_ | _ | _ | _) | (_ | _ | c)
  · exact ⟨h, rfl⟩
  · rfl
  · rfl
  · rfl
  · rfl
  · rfl
  · exact ⟨StoreResult.Same.refl _, rfl⟩

/-! A small office: texts are taken as they are, and everybody calls from one address. -/

def homeConfig : Config := ⟨"pbx", 3600 * Time.second, 60 * Time.second, 7200 * Time.second, Time.second⟩

def homeTexts : Texts where
  parseAddrPort _ := some ⟨.v4 0x0a000005, 5060⟩
  addrPortString _ := "10.0.0.5:5060"
  parseUri := some
  parseFloat _ := none
  firstBytes _ text := text

def homeContact (user : String) : Contact := ⟨false, "sip:" ++ user ++ "@10.0.0.5", none, none⟩

def homeRegister (user : String) (contacts : List Contact) : Register :=
  ⟨"REGISTER", "sip:pbx", some ⟨user, "pbx"⟩, some "Digest", "10.0.0.5:5060", "udp", none, none,
    contacts.map some⟩

def homeCredential (user : String) : Credential := ⟨"home", user, "pbx", "", 2⟩

/-- A request of a user, from the store `s` on. -/
def registering (user : String) (contacts : List Contact) (s : MemoryStore) :
    List (Event registrarSig) × Option Outcome × MemoryStore :=
  trace (frontDesk (homeCredential user) 1) (handle homeConfig homeTexts (homeRegister user contacts)) s

theorem steps_registering (user : String) (contacts : List Contact) (s : MemoryStore) :
    Steps (Serve homeConfig) s (registering user contacts s).1 (registering user contacts s).2.2 :=
  steps_trace (fun s e => serve_frontDesk rfl 1 s e) _ s

end AixvolinkPbx.Registrar
