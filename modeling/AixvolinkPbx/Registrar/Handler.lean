import AixvolinkPbx.Auth.Digest
import AixvolinkPbx.Lib.Interp
import AixvolinkPbx.Registration.Manager

/-!
# REGISTER transactions (`internal/sip/registrar/handler.go`)

`Handler.handle` authenticates a REGISTER, applies its contacts one after another and answers with the
bindings. Beside the operations of the manager it verifies credentials, makes challenges, reads the
clock and responds. What is read of a request are its fields; the texts of addresses, URIs and
preference values are those of other packages (`Texts`).
-/

namespace AixvolinkPbx.Registrar

open Auth (AuthError Credential)
open Registration (Binding Transport Q ManagerError managerSig)

structure Config where
  realm : String
  defaultExpires : ℤ
  minExpires : ℤ
  maxExpires : ℤ
  transactionTimeout : ℤ
  deriving DecidableEq, Repr

/-- The checks of `NewHandler` on its configuration, in their order. -/
def newHandler (cfg : Config) : Except String Unit :=
  if cfg.realm = "" then .error "registrar realm is required"
  else if cfg.minExpires ≤ 0 ∨ cfg.defaultExpires < cfg.minExpires ∨
      cfg.maxExpires < cfg.defaultExpires then
    .error "registration expiration bounds are invalid"
  else if cfg.transactionTimeout ≤ 0 then .error "transaction timeout must be positive"
  else .ok ()

/-! ## Requests -/

/-- A Contact header: the text of its address, and two of its parameters. -/
structure Contact where
  wildcard : Bool
  address : String
  expires : Option String
  q : Option String
  deriving DecidableEq, Repr

structure ToHeader where
  user : String
  host : String
  deriving DecidableEq, Repr

/-- A REGISTER; a Contact header that could not be parsed as one is missing. -/
structure Register where
  method : String
  recipient : String
  toHeader : Option ToHeader
  authorization : Option String
  source : String
  transport : String
  userAgent : Option String
  expires : Option String
  contacts : List (Option Contact)
  deriving DecidableEq, Repr

/-- The text functions of other packages. -/
structure Texts where
  parseAddrPort : String → Option AddrPort
  addrPortString : AddrPort → String
  parseUri : String → Option String
  parseFloat : String → Option Q
  firstBytes : ℕ → String → String

structure Response where
  status : ℕ
  reason : String
  headers : List (String × String)
  /-- The Contact headers, with the seconds until they expire. -/
  contacts : List (String × ℤ)
  deriving DecidableEq, Repr

/-! ## Operations -/

inductive HandlerOp
  | verify (method uri authorization : String)
  | challenge (stale : Bool)
  | timeNow
  | respond (response : Response)
  deriving DecidableEq

/-- A challenge is missing and a response is false when it fails. -/
abbrev handlerSig : Sig where
  Op := HandlerOp
  Ans
    | .verify _ _ _ => Except AuthError Credential
    | .challenge _ => Option String
    | .timeNow => ℤ
    | .respond _ => Bool

/-- The operations of the handler and of its manager. -/
abbrev registrarSig : Sig := handlerSig.sum managerSig

abbrev handlerOp (e : HandlerOp) : Prog registrarSig (handlerSig.Ans e) :=
  Prog.inl (.call (S := handlerSig) e)

inductive HandleError
  | responseFailed
  | challenge
  | apply (err : ManagerError)
  | list (err : ManagerError)
  | storedContact
  deriving DecidableEq, Repr

abbrev Outcome := Except HandleError Unit

def statusIntervalTooBrief : ℕ := 423

def respond (response : Response) : Prog registrarSig Outcome := do
  if ← handlerOp (.respond response) then return .ok ()
  else return .error .responseFailed

def refuse (status : ℕ) (reason : String) : Prog registrarSig Outcome :=
  respond ⟨status, reason, [], []⟩

/-! ## The parts of a contact -/

inductive ExpiresError
  | tooBrief
  | invalid
  deriving DecidableEq, Repr

/-- The seconds of an expiration, if one is given. -/
def expiresSeconds (default : ℤ) : Option String → Except ExpiresError ℤ
  | none => .ok default
  | some text =>
    match Text.parseInt 32 text with
    | none => .error .invalid
    | some seconds => if seconds < 0 then .error .invalid else .ok seconds

def contactExpires (cfg : Config) (request : Register) (contact : Contact) : Except ExpiresError ℤ :=
  match expiresSeconds (cfg.defaultExpires.tdiv Time.second) request.expires with
  | .error err => .error err
  | .ok seconds =>
    match expiresSeconds seconds contact.expires with
    | .error err => .error err
    | .ok seconds =>
      if seconds = 0 then .ok 0
      else
        let duration := seconds * Time.second
        if duration < cfg.minExpires then .error .tooBrief
        else if cfg.maxExpires < duration then .ok cfg.maxExpires
        else .ok duration

def parseTransport (value : String) : Option Transport :=
  let lower := Text.toLower value
  if lower = "udp" ∨ lower = "" then some .udp
  else if lower = "tcp" then some .tcp
  else none

def parseQ (T : Texts) (contact : Contact) : Option Q :=
  match contact.q with
  | none => some (.num 1)
  | some text => (T.parseFloat text).filter fun q => !(q.lt (.num 0) || (Q.num 1).lt q)

def headerValue (T : Texts) (header : Option String) (maxLength : ℕ) : String :=
  match header with
  | none => ""
  | some value => if maxLength < value.utf8ByteSize then T.firstBytes maxLength value else value

/-- The contact a request is applied for. -/
def Contact.value (contact : Contact) : String := if contact.wildcard then "*" else contact.address

/-! ## Handling a REGISTER -/

section Handle

variable (cfg : Config) (T : Texts)

/-- The Contact headers of the response. -/
def responseContacts (now : ℤ) : List Binding → Option (List (String × ℤ))
  | [] => some []
  | binding :: bindings => do
    let uri ← T.parseUri binding.contact
    let rest ← responseContacts now bindings
    return (uri, max 0 ((binding.expiresAt - now).tdiv Time.second)) :: rest

def respondBindings (tenantID aor : String) : Prog registrarSig Outcome := do
  match ← Prog.inr (Registration.list tenantID aor) with
  | .error err => return .error (.list err)
  | .ok bindings =>
    let now ← handlerOp .timeNow
    match responseContacts T now bindings with
    | none => return .error .storedContact
    | some contacts => respond ⟨200, "OK", [], contacts⟩

/-- What the contacts of a request have in common. -/
structure Registrant where
  credential : Credential
  received : AddrPort
  transport : Transport
  userAgent : String
  deriving DecidableEq, Repr

def addressOfRecord (credential : Credential) : String :=
  "sip:" ++ credential.username ++ "@" ++ credential.realm

def Registrant.request (r : Registrant) (contact : Contact) (expires : ℤ) (q : Q) :
    Registration.Request where
  tenantID := r.credential.tenantID
  aor := addressOfRecord r.credential
  contact := contact.value
  routeTarget := T.addrPortString r.received
  transport := r.transport
  received := r.received
  userAgent := r.userAgent
  q := q
  expires := expires
  maxBindings := r.credential.maxBindings

/-- One iteration of the contact loop: how the handler ends, if it does. -/
def handleContact (request : Register) (r : Registrant) :
    Option Contact → Prog registrarSig (Option Outcome)
  | none => do
    return some (← refuse 400 "Bad Contact")
  | some contact =>
    match contactExpires cfg request contact with
    | .error .tooBrief => do
      let minExpires := toString (cfg.minExpires.tdiv Time.second)
      return some (← respond
        ⟨statusIntervalTooBrief, "Interval Too Brief", [("Min-Expires", minExpires)], []⟩)
    | .error .invalid => do
      return some (← refuse 400 "Bad Expires")
    | .ok expires =>
      match parseQ T contact with
      | none => do
        return some (← refuse 400 "Bad Contact")
      | some q => do
        match ← Prog.inr (Registration.apply (r.request T contact expires q)) with
        | .error (.store .bindingLimit) => return some (← refuse 403 "Binding Limit Reached")
        | .error err => return some (.error (.apply err))
        | .ok _ => return none

def handleContacts (request : Register) (r : Registrant) :
    List (Option Contact) → Prog registrarSig (Option Outcome)
  | [] => return none
  | contact :: contacts => do
    match ← handleContact cfg T request r contact with
    | some outcome => return some outcome
    | none => handleContacts request r contacts

/-- `handle` from the contacts on. -/
def handleAuthenticated (request : Register) (credential : Credential) : Prog registrarSig Outcome := do
  let aor := addressOfRecord credential
  if request.contacts = [] then respondBindings T credential.tenantID aor
  else
    let some received := T.parseAddrPort request.source
      | refuse 400 "Bad Request"
    let some transport := parseTransport request.transport
      | refuse 415 "Unsupported Transport"
    let r : Registrant := ⟨credential, received, transport, headerValue T request.userAgent 255⟩
    match ← handleContacts cfg T request r request.contacts with
    | some outcome => return outcome
    | none => respondBindings T credential.tenantID aor

/-- The answer to a request that is not authenticated. -/
def challenge (stale : Bool) : Prog registrarSig Outcome := do
  match ← handlerOp (.challenge stale) with
  | none => return .error .challenge
  | some challenge => respond ⟨401, "Unauthorized", [("WWW-Authenticate", challenge)], []⟩

def handle (request : Register) : Prog registrarSig Outcome := do
  let some header := request.toHeader
    | refuse 400 "Bad Request"
  if header.user = "" ∨ header.host ≠ cfg.realm then refuse 400 "Bad Request"
  else
    match ← handlerOp (.verify request.method request.recipient (request.authorization.getD "")) with
    | .error err => challenge (err = .staleNonce)
    | .ok credential =>
      if credential.username ≠ header.user then challenge false
      else handleAuthenticated cfg T request credential

end Handle

end AixvolinkPbx.Registrar
