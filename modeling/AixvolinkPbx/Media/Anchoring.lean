import AixvolinkPbx.Lib.Interleave
import AixvolinkPbx.Media.Forward

/-!
# One direction of an anchored session

What a packet loop writes is the image of what it reads: the datagrams that pass all filters, in their
order, rewritten into one output stream.

1. A `View` is what one iteration has seen: its datagram, and the values it loaded from the endpoints,
   which other goroutines may change at any time. `View.candidate`, `View.permitted` and `decodes` are
   the filters on it, and `passing` are the packets that pass, the tracker included.
2. `anchorStep` says what an iteration with a view does to the loop state and what it hands over;
   `forwardRound_view` shows the iteration to do so.
3. The rewriter turns the passing packets into one stream (`rewriteAll_spec`).
-/

namespace AixvolinkPbx.Media

open Sdp (Mapping)
open Prog (Safe safe_bind safe_call safe_pure safe_mono safe_when Path Returns Rounds)

variable {ρ : Type} (P : PacketCodec ρ) (cfg : Config) (source : Leg)

/-! ## What an iteration sees -/

structure View where
  starts : ℕ
  received : List (List UInt8 × AddrPort)
  acceptRemote : Option RemoteConfig
  learned : Option UInt32
  remote : Option RemoteConfig
  destination : Option RemoteConfig
  receivedAt : Option ℤ
  sendRemote : Option RemoteConfig
  receiveRemote : Option RemoteConfig
  handed : List (Leg × List UInt8)

def View.empty : View := ⟨0, [], none, none, none, none, none, none, none, []⟩

def View.next (v : View) : (e : MediaOp) → mediaSig.Ans e → View
  | .setReadDeadline _ _, _ => { v with starts := v.starts + 1 }
  | .read _, .datagram bytes address => { v with received := v.received ++ [(bytes, address)] }
  | .loadRemote .accepts _, r => { v with acceptRemote := r }
  | .loadLearned .accepts _ _, port => { v with learned := some port }
  | .loadLearned .confirm _ _, port => { v with learned := some port }
  | .loadRemote .forward leg, r =>
    if leg = source then { v with remote := r } else { v with destination := r }
  | .now, t => { v with receivedAt := some t }
  | .loadRemote .canSend _, r => { v with sendRemote := r }
  | .loadRemote .canReceive _, r => { v with receiveRemote := r }
  | .write leg bytes _, _ => { v with handed := v.handed ++ [(leg, bytes)] }
  | _, _ => v

def View.datagram (v : View) : Option (List UInt8 × AddrPort) := v.received.head?

/-- The datagram comes from the accepted source: the address of the leg, and the learned port. -/
def View.accepted (v : View) : Bool :=
  match v.datagram, v.acceptRemote, v.learned with
  | some (_, address), some remote, some port =>
    address.addr = remote.rtp.addr && port = address.port.toUInt32
  | _, _, _ => false

/-- A packet that the tracker gets to see. -/
structure Candidate (ρ : Type) where
  packet : Packet ρ
  remote : RemoteConfig
  outputPayloadType : UInt8
  receivedAt : ℤ
  wireBytes : ℕ

/-- The packet in a datagram from the accepted source, and the length of the datagram. -/
def View.packet (v : View) : Option (Packet ρ × ℕ) :=
  v.datagram.bind fun (bytes, _) =>
    if v.accepted then (parsePacket P bytes).map (·, bytes.length) else none

/-- The packet has a mapped payload type. -/
def View.candidate (v : View) : Option (Candidate ρ) := do
  let (packet, wireBytes) ← v.packet P
  let remote ← v.remote
  let destination ← v.destination
  let outputPayloadType ← payloadMapping packet.payloadType remote destination
  let receivedAt ← v.receivedAt
  return ⟨packet, remote, outputPayloadType, receivedAt, wireBytes⟩

/-- Both directions permit it. -/
def View.permitted (v : View) : Bool :=
  v.sendRemote.any RemoteConfig.sends && v.receiveRemote.any RemoteConfig.receives

def decodes (remote : RemoteConfig) (packet : Packet ρ) : Bool :=
  !(remote.hasDTMF && packet.payloadType = remote.dtmfPT) || (decodeDtmf packet.payload).isOk

/-- The packets that pass all filters, with their output payload types. -/
def passing : Tracker → List View → List (Packet ρ × UInt8)
  | _, [] => []
  | tracker, v :: vs =>
    match v.candidate P with
    | none => passing tracker vs
    | some c =>
      let (packetClass, tracker) := tracker.observe c.packet c.receivedAt c.wireBytes
      if packetClass ≠ .duplicate ∧ v.permitted ∧ decodes c.remote c.packet then
        (c.packet, c.outputPayloadType) :: passing tracker vs
      else passing tracker vs

def HasPayloads (m : Mapping) : Leg → RemoteConfig → Prop
  | .caller, c => c.audioPT = m.callerPT ∧ c.dtmfPT = m.callerDTMFPT ∧ c.hasDTMF = m.hasDTMF
  | .callee, c => c.audioPT = m.calleePT ∧ c.dtmfPT = m.calleeDTMFPT ∧ c.hasDTMF = m.hasDTMF

/-- Every configuration loaded has the payload types of the mapping, and datagrams fit the buffer. -/
def Steady (m : Mapping) : Event mediaSig → Prop
  | ⟨.loadRemote _ leg, r⟩ => ∃ c, r = some c ∧ HasPayloads m leg c
  | ⟨.read _, .datagram bytes _⟩ => bytes.length ≤ maxDatagramSize
  | _ => True

/-- The write that hands a packet over to the other leg, if the packet can be encoded. -/
def sent (packet : Packet ρ) : Option (Leg × List UInt8) :=
  (P.marshal packet).map (source.other, ·)

def wires (out : Option (Packet ρ)) : List (Option (Leg × List UInt8)) :=
  out.toList.map (sent P source)

/-- An iteration that has handed nothing over yet. -/
def View.Idle (v : View) : Prop := v.starts = 1 ∧ v.received.length ≤ 1 ∧ v.handed = []

variable {P source} {m : Mapping} {st : Stream} {bytes : List UInt8} {packet : Packet ρ}

variable {v : View}

variable {tracker : Tracker}

variable {c : Candidate ρ}

/-- An iteration that has read a datagram and handed nothing over yet. -/
structure AtDatagram (bytes : List UInt8) (address : AddrPort) (v : View) : Prop where
  idle : v.Idle
  received : v.received = [(bytes, address)]

variable {address : AddrPort}

theorem AtDatagram.datagram (h : AtDatagram bytes address v) :
    v.datagram = some (bytes, address) := by
  rw [View.datagram, h.received, List.head?_cons]

theorem Leg.other_ne (leg : Leg) : leg.other ≠ leg := by cases leg <;> simp [Leg.other]

end AixvolinkPbx.Media
