import AixvolinkPbx.Lib.Prog
import AixvolinkPbx.Media.Rtp
import AixvolinkPbx.Sdp.Audio

/-!
# The endpoints of a media session (`internal/media/session/endpoint.go`, `session.go`)

The two packet loops of a media session and the signalling goroutine that configures it share the
atomic fields of the two endpoints. Every load, store and compare-and-swap is an operation of its own;
a load carries the place in the code it is made at.
-/

namespace AixvolinkPbx.Media

open Sdp (Direction Mapping)

inductive Leg
  | caller
  | callee
  deriving DecidableEq, Repr

def Leg.other : Leg → Leg
  | .caller => .callee
  | .callee => .caller

structure RemoteConfig where
  rtp : AddrPort
  rtcp : AddrPort
  audioPT : UInt8
  dtmfPT : UInt8
  hasDTMF : Bool
  direction : Direction
  deriving DecidableEq, Repr

inductive Channel
  | rtp
  | rtcp
  deriving DecidableEq, Repr

/-- The places at which a field of an endpoint is loaded; `confirm` is the load after the
compare-and-swap of `acceptsRTP`. -/
inductive Site
  | configure
  | accepts
  | confirm
  | forward
  | canSend
  | canReceive
  | target
  deriving DecidableEq, Repr

inductive ReadResult
  | datagram (bytes : List UInt8) (source : AddrPort)
  | timeout
  | closed
  | failed
  deriving DecidableEq, Repr

inductive WriteResult
  | written
  | closed
  | failed
  deriving DecidableEq, Repr

inductive MediaOp
  -- the atomic fields of an endpoint
  | loadRemote (site : Site) (leg : Leg)
  | storeRemote (leg : Leg) (remote : RemoteConfig)
  | loadLearned (site : Site) (leg : Leg) (channel : Channel)
  | storeLearned (leg : Leg) (channel : Channel) (port : UInt32)
  | casLearned (leg : Leg) (channel : Channel) (old new : UInt32)
  | addInvalid (leg : Leg)
  | addDtmfEvent (leg : Leg)
  | storeTimedOut (leg : Leg) (timedOut : Bool)
  -- those of the session
  | storeMapping (mapping : Mapping)
  | loadStarted
  -- sockets, context and clock
  | rtpConn (leg : Leg)
  | setReadDeadline (leg : Leg) (poll : ℤ)
  | read (leg : Leg)
  | write (leg : Leg) (bytes : List UInt8) (target : AddrPort)
  | ctxDone
  | now

abbrev mediaSig : Sig where
  Op := MediaOp
  Ans
    | .loadRemote _ _ => Option RemoteConfig
    | .loadLearned _ _ _ => UInt32
    | .casLearned _ _ _ _ => Bool
    | .loadStarted => Int64
    | .rtpConn _ => Bool
    | .setReadDeadline _ _ => Bool
    | .read _ => ReadResult
    | .write _ _ _ => WriteResult
    | .ctxDone => Bool
    | .now => ℤ
    | _ => Unit

abbrev op (e : MediaOp) : Prog mediaSig (mediaSig.Ans e) := .call (S := mediaSig) e

instance answerDecidable : (e : MediaOp) → DecidableEq (mediaSig.Ans e)
  | .loadRemote _ _ => inferInstanceAs (DecidableEq (Option RemoteConfig))
  | .storeRemote _ _ => inferInstanceAs (DecidableEq Unit)
  | .loadLearned _ _ _ => inferInstanceAs (DecidableEq UInt32)
  | .storeLearned _ _ _ => inferInstanceAs (DecidableEq Unit)
  | .casLearned _ _ _ _ => inferInstanceAs (DecidableEq Bool)
  | .addInvalid _ => inferInstanceAs (DecidableEq Unit)
  | .addDtmfEvent _ => inferInstanceAs (DecidableEq Unit)
  | .storeTimedOut _ _ => inferInstanceAs (DecidableEq Unit)
  | .storeMapping _ => inferInstanceAs (DecidableEq Unit)
  | .loadStarted => inferInstanceAs (DecidableEq Int64)
  | .rtpConn _ => inferInstanceAs (DecidableEq Bool)
  | .setReadDeadline _ _ => inferInstanceAs (DecidableEq Bool)
  | .read _ => inferInstanceAs (DecidableEq ReadResult)
  | .write _ _ _ => inferInstanceAs (DecidableEq WriteResult)
  | .ctxDone => inferInstanceAs (DecidableEq Bool)
  | .now => inferInstanceAs (DecidableEq ℤ)

/-! ## The atomic fields -/

structure Endpoints where
  remote : Leg → Option RemoteConfig
  learned : Leg → Channel → UInt32
  mapping : Option Mapping

def Endpoints.initial : Endpoints := ⟨fun _ => none, fun _ _ => 0, none⟩

namespace Endpoints

def setRemote (m : Endpoints) (leg : Leg) (remote : RemoteConfig) : Endpoints :=
  { m with remote := Function.update m.remote leg (some remote) }

def setLearned (m : Endpoints) (leg : Leg) (channel : Channel) (port : UInt32) : Endpoints :=
  { m with learned := Function.update m.learned leg (Function.update (m.learned leg) channel port) }

@[simp] theorem remote_setRemote (m : Endpoints) (leg : Leg) (remote : RemoteConfig) :
    (m.setRemote leg remote).remote leg = some remote := by simp [setRemote]

@[simp] theorem learned_setLearned (m : Endpoints) (leg : Leg) (channel : Channel) (port : UInt32) :
    (m.setLearned leg channel port).learned leg = Function.update (m.learned leg) channel port := by
  simp [setLearned]

/-- The operations on the atomic fields; the others touch none of them. -/
def handle (m : Endpoints) : (e : MediaOp) → mediaSig.Ans e × Endpoints
  | .loadRemote _ leg => (m.remote leg, m)
  | .storeRemote leg remote => ((), m.setRemote leg remote)
  | .loadLearned _ leg channel => (m.learned leg channel, m)
  | .storeLearned leg channel port => ((), m.setLearned leg channel port)
  | .casLearned leg channel old new =>
    if m.learned leg channel = old then (true, m.setLearned leg channel new) else (false, m)
  | .storeMapping mapping => ((), { m with mapping := some mapping })
  | .addInvalid _ => ((), m)
  | .addDtmfEvent _ => ((), m)
  | .storeTimedOut _ _ => ((), m)
  | .loadStarted => (0, m)
  | .rtpConn _ => (true, m)
  | .setReadDeadline _ _ => (true, m)
  | .read _ => (.timeout, m)
  | .write _ _ _ => (.written, m)
  | .ctxDone => (false, m)
  | .now => (0, m)

end Endpoints

/-- The operations that the fields themselves answer. -/
def MediaOp.onFields : MediaOp → Bool
  | .loadRemote .. | .storeRemote .. | .loadLearned .. | .storeLearned .. | .casLearned .. => true
  | .storeMapping _ => true
  | _ => false

/-! ## Configuring -/

/-- The addresses change: the learned ports are forgotten. -/
def moved (current : Option RemoteConfig) (remote : Sdp.Endpoint) : Bool :=
  current.all fun c => c.rtp ≠ remote.rtp || c.rtcp ≠ remote.rtcp

def Leg.configure (leg : Leg) (remote : Sdp.Endpoint) (audioPT dtmfPT : UInt8) (hasDTMF : Bool) :
    Prog mediaSig Unit := do
  let current ← op (.loadRemote .configure leg)
  Prog.when (moved current remote) (do
    op (.storeLearned leg .rtp 0)
    op (.storeLearned leg .rtcp 0))
  op (.storeRemote leg ⟨remote.rtp, remote.rtcp, audioPT, dtmfPT, hasDTMF, remote.direction⟩)

/-- `Session.Configure`; false is an error. -/
def configure (caller callee : Sdp.Endpoint) (mapping : Mapping) : Prog mediaSig Bool := do
  if mapping.name = "" ∨ mapping.clockRate = 0 then return false
  Leg.caller.configure caller mapping.callerPT mapping.callerDTMFPT mapping.hasDTMF
  Leg.callee.configure callee mapping.calleePT mapping.calleeDTMFPT mapping.hasDTMF
  op (.storeMapping mapping)
  return true

/-! ## What packets are accepted, and where they go -/

def RemoteConfig.address (remote : RemoteConfig) : Channel → AddrPort
  | .rtp => remote.rtp
  | .rtcp => remote.rtcp

def Leg.accepts (leg : Leg) (channel : Channel) (source : AddrPort) : Prog mediaSig Bool := do
  let some remote ← op (.loadRemote .accepts leg)
    | return false
  if source.addr ≠ (remote.address channel).addr then return false
  let learned ← op (.loadLearned .accepts leg channel)
  if learned = 0 then
    let _ ← op (.casLearned leg channel 0 source.port.toUInt32)
    let learned ← op (.loadLearned .confirm leg channel)
    return learned = source.port.toUInt32
  return learned = source.port.toUInt32

def Leg.acceptsRTP (leg : Leg) (source : AddrPort) : Prog mediaSig Bool := leg.accepts .rtp source
def Leg.acceptsRTCP (leg : Leg) (source : AddrPort) : Prog mediaSig Bool := leg.accepts .rtcp source

def Leg.targetOf (leg : Leg) (channel : Channel) : Prog mediaSig (Option AddrPort) := do
  let some remote ← op (.loadRemote .target leg)
    | return none
  let port ← op (.loadLearned .target leg channel)
  if port = 0 then return some (remote.address channel)
  return some ⟨(remote.address channel).addr, port.toUInt16⟩

def Leg.rtpTarget (leg : Leg) : Prog mediaSig (Option AddrPort) := leg.targetOf .rtp
def Leg.rtcpTarget (leg : Leg) : Prog mediaSig (Option AddrPort) := leg.targetOf .rtcp

def RemoteConfig.sends (remote : RemoteConfig) : Bool :=
  remote.direction = .sendRecv || remote.direction = .sendOnly

def RemoteConfig.receives (remote : RemoteConfig) : Bool :=
  remote.direction = .sendRecv || remote.direction = .recvOnly

def Leg.canSend (leg : Leg) : Prog mediaSig Bool := do
  let remote ← op (.loadRemote .canSend leg)
  return remote.any RemoteConfig.sends

def Leg.canReceive (leg : Leg) : Prog mediaSig Bool := do
  let remote ← op (.loadRemote .canReceive leg)
  return remote.any RemoteConfig.receives

end AixvolinkPbx.Media
