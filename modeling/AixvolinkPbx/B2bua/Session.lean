import AixvolinkPbx.Call.Actor
import AixvolinkPbx.Registration.Binding
import AixvolinkPbx.Sdp.Audio

/-!
# Sessions of the B2BUA (`internal/sip/b2bua`)

The data of a session, the operations its goroutine performs on everything it shares (the engine, the
SIP dialogs, the call actor, the media session, the pending re-INVITE), and the functions that both
the setup of a call and its in-dialog commands use.

The SIP stack, the registration manager, the actor and the media session answer the operations;
timers and contexts show in their answers.
-/

namespace AixvolinkPbx.B2bua

open Calls (Call Actor ActorError Transition)
open Registration (Binding)
open Sdp (Body Codecs Endpoint Mapping)

structure Config where
  tenantID : String
  realm : String
  nodeID : String
  maxActiveCalls : ℤ
  mailboxSize : ℤ
  inviteTimeout : ℤ
  dispatchTimeout : ℤ

/-- The checks of `NewEngine` on its configuration, in their order. -/
def newEngine (cfg : Config) : Except String Unit :=
  if cfg.tenantID = "" ∨ cfg.realm = "" ∨ cfg.nodeID = "" then
    .error "tenant, realm, and node ID are required"
  else if cfg.maxActiveCalls ≤ 0 ∨ cfg.mailboxSize ≤ 0 ∨
      Calls.maxMailboxCapacity < cfg.mailboxSize then
    .error "active call and mailbox limits are invalid"
  else if cfg.inviteTimeout ≤ 0 ∨ cfg.dispatchTimeout ≤ 0 then
    .error "invite and dispatch timeouts must be positive"
  else .ok ()

/-! ## Messages -/

structure Header where
  name : String
  value : String
  deriving DecidableEq, Repr

structure Response where
  status : ℕ
  reason : String
  body : Body
  headers : List Header
  deriving DecidableEq, Repr

def Response.isProvisional (r : Response) : Bool := r.status < 200
def Response.isSuccess (r : Response) : Bool := 200 ≤ r.status && r.status < 300
def Response.isFinal (r : Response) : Bool := 200 ≤ r.status

/-- An initial INVITE, with the users of its From and To headers. -/
structure Invite where
  fromUser : Option String
  toUser : Option String
  source : String
  transport : String
  body : Body
  deriving DecidableEq

/-- A request inside a dialog; `transaction` names its server transaction. -/
structure Request where
  method : String
  body : Body
  headers : List Header
  cseq : UInt32
  transaction : ℕ
  deriving DecidableEq, Repr

inductive Leg
  | caller
  | callee
  deriving DecidableEq, Repr

inductive SessionCommand
  | hangup (origin : Leg)
  | reInvite (request : Request)
  | refer (request : Request)
  | notify (request : Request)
  deriving DecidableEq, Repr

/-! ## The media session -/

/-- The ports a media session has leased for its legs, and the address it advertises. -/
structure Media where
  advertisedIP : Addr
  callerPort : UInt16
  calleePort : UInt16
  deriving DecidableEq, Repr

/-- `LocalEndpoint`: the RTP and RTCP addresses that face a leg. -/
def Media.localEndpoint (m : Media) : Leg → Option (AddrPort × AddrPort)
  | .caller => some (⟨m.advertisedIP, m.callerPort⟩, ⟨m.advertisedIP, m.callerPort + 1⟩)
  | .callee => some (⟨m.advertisedIP, m.calleePort⟩, ⟨m.advertisedIP, m.calleePort + 1⟩)

/-! ## Session state -/

/-- The fields of `session` that its goroutine alone writes. -/
structure Session where
  call : Call
  inbound : String
  outbound : Option String
  media : Option Media
  callerOffer : Endpoint
  mediaMapping : Mapping
  callerAnswer : Body
  /-- `mediaCancel` is not nil. -/
  mediaStarted : Bool
  /-- `mediaResult` is not nil. -/
  mediaRunning : Bool

/-! ## Operations -/

/-- How a response is sent: on the transaction, or by the dialog session made from it. -/
inductive Via
  | transaction
  | dialog
  deriving DecidableEq, Repr

/-- The context of an operation: that of the process, or one that its end does not cancel. -/
inductive Ctx
  | parent
  | detached
  deriving DecidableEq, Repr

/-- Why waiting for an answer ended without a response; `other` stands for every other error that
`WaitAnswer` may give up with, such as that of too many responses. -/
inductive WaitFailure
  | canceled
  | timeout
  | shutdown
  | transaction
  | other
  deriving DecidableEq, Repr

inductive Waited
  | response (r : Response)
  | failed (cause : WaitFailure)
  deriving DecidableEq

inductive Selected
  | command (c : SessionCommand)
  | parentDone
  | mediaDone (failed : Bool)
  deriving DecidableEq

inductive EngineOp
  -- the engine's mutex and wait group
  | reserve
  | release
  | wgDone
  | registerInbound (id : String)
  | registerOutbound (id : String)
  | remove (inbound : String) (outbound : Option String)
  -- registrations
  | listBindings (tenantID aor : String)
  | resolve (tenantID aor : String)
  -- the call and its actor
  | newCall (tenantID nodeID : String)
  | startActor (actor : Actor)
  | transition (ctx : Ctx) (t : Transition)
  | stopActor
  -- the media session
  | newMedia
  | configure (caller callee : Endpoint) (mapping : Mapping)
  | startMedia
  | cancelMedia
  | closeMedia
  | awaitMedia
  | publishSummary
  | now
  -- the caller's dialog
  | readInvite
  | respond (via : Via) (response : Response)
  | closeInbound
  -- the callee's dialog
  | createOutbound (binding : Binding) (offer : Body)
  | nextResponse
  | ack
  | closeOutbound
  -- either dialog
  | bye (ctx : Ctx) (leg : Leg)
  | request (leg : Leg) (method : String) (body : Body) (headers : List Header)
  -- the command loop
  | select
  | respondTo (transaction : ℕ) (response : Response)
  | closeResult (transaction : ℕ)
  | closeDone
  -- the pending re-INVITE
  | readPending
  | pollAcks (transaction : ℕ)
  | clearPending (transaction : ℕ)
  | setPending (transaction : ℕ) (cseq : UInt32)
  | takePending
  | terminate (transaction : ℕ)
  deriving DecidableEq

/-- The answers. An optional value is missing and a Boolean is false when the operation fails. -/
abbrev engineSig : Sig where
  Op := EngineOp
  Ans
    | .reserve => Bool
    | .listBindings _ _ => Option (List Binding)
    | .resolve _ _ => Option Binding
    | .newCall _ _ => Option Call
    | .transition _ _ => Option ActorError
    | .newMedia => Option Media
    | .awaitMedia => Bool
    | .now => ℤ
    | .readInvite => Option String
    | .respond _ _ => Bool
    | .createOutbound _ _ => Option String
    | .nextResponse => Waited
    | .ack => Bool
    | .request .. => Option Response
    | .select => Selected
    | .respondTo _ _ => Bool
    | .readPending => Option ℕ
    | .pollAcks _ => Bool
    | .clearPending _ => Bool
    | .takePending => Option ℕ
    | _ => Unit

instance (e : EngineOp) : DecidableEq (engineSig.Ans e) := by
  cases e <;> exact inferInstance

abbrev op (e : EngineOp) : Prog engineSig (engineSig.Ans e) := .call (S := engineSig) e

def respond (status : ℕ) (reason : String) (body : Body) (headers : List Header) :
    Prog engineSig Bool :=
  op (.respond .dialog ⟨status, reason, body, headers⟩)

/-! ## Call state -/

/-- `s.transition`; none is success. -/
def transition (ctx : Ctx) (state : Calls.State) (legID protocolEvent reason : String) :
    Prog engineSig (Option ActorError) :=
  op (.transition ctx ⟨state, legID, reason, protocolEvent⟩)

def fail (s : Session) (reason protocolEvent : String) : Prog engineSig Unit := do
  let _ ← transition .parent .failed s.call.calleeLeg protocolEvent reason

def terminate (reason protocolEvent legID : String) : Prog engineSig Unit := do
  let _ ← transition .parent .terminating legID protocolEvent reason
  let _ ← transition .parent .terminated legID protocolEvent reason

def handleHangup (ctx : Ctx) (s : Session) (origin : Leg) : Prog engineSig Unit := do
  let legID := if origin = .callee then s.call.calleeLeg else s.call.callerLeg
  if (← transition ctx .terminating legID "BYE" "normal clearing").isSome then return
  Prog.when (origin = .caller ∧ s.outbound.isSome) (op (.bye ctx .callee))
  Prog.when (origin = .callee) (op (.bye ctx .caller))
  let _ ← transition ctx .terminated legID "200" "normal clearing"

/-! ## Media answers -/

inductive MediaError
  | sdp (err : Sdp.SdpError)
  | mappingChanged
  | mappingRequired
  | endpoint
  deriving DecidableEq, Repr

def startMedia (s : Session) : Prog engineSig Session := do
  if s.mediaRunning then return s
  op .startMedia
  return { s with mediaStarted := true, mediaRunning := true }

/-- `Session.Configure` of the media package: the check, and then the new endpoints. -/
def configure (caller callee : Endpoint) (mapping : Mapping) : Prog engineSig (Option MediaError) := do
  if mapping.name = "" ∨ mapping.clockRate = 0 then return some .mappingRequired
  op (.configure caller callee mapping)
  return none

def localEndpoint (s : Session) (leg : Leg) : Option (AddrPort × AddrPort) :=
  s.media.bind (·.localEndpoint leg)

def applyMediaAnswer (C : Codecs) (s : Session) (body : Body) :
    Prog engineSig (Except MediaError Body × Session) := do
  match Sdp.parseAudio C body with
  | .error err => return (.error (.sdp err), s)
  | .ok calleeAnswer =>
    match Sdp.negotiate s.callerOffer calleeAnswer with
    | .error err => return (.error (.sdp err), s)
    | .ok mapping =>
      if s.mediaMapping.name ≠ "" ∧ s.mediaMapping ≠ mapping then
        return (.error .mappingChanged, s)
      if let some err ← configure s.callerOffer calleeAnswer mapping then
        return (.error err, s)
      let s := { s with mediaMapping := mapping }
      match localEndpoint s .caller with
      | none => return (.error .endpoint, s)
      | some (callerRTP, callerRTCP) =>
        let sessionID ← op .now
        match Sdp.buildAudio C sessionID callerRTP callerRTCP (Sdp.codecListForAnswer mapping)
            calleeAnswer.direction with
        | .error err => return (.error (.sdp err), s)
        | .ok answer =>
          let s ← startMedia { s with callerAnswer := answer }
          return (.ok answer, s)

end AixvolinkPbx.B2bua
