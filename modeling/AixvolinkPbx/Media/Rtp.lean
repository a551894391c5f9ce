import AixvolinkPbx.Base
import Mathlib.Logic.Function.Basic

/-!
# RTP streams (`internal/media/rtp`, `internal/media/dtmf`)

The accounting of received packets (`Tracker.observe`), the rewriting of an output stream
(`Rewriter.rewrite`) and the telephone-event payload. Packets are those of another package: `ρ` is the
type of the header fields no function here reads, and the encoding is a parameter (`PacketCodec`).
-/

namespace AixvolinkPbx.Media

variable {ρ : Type}

structure Packet (ρ : Type) where
  version : UInt8
  payloadType : UInt8
  sequenceNumber : UInt16
  timestamp : UInt32
  ssrc : UInt32
  payload : List UInt8
  header : ρ
  deriving DecidableEq, Repr

/-- `Unmarshal` and `MarshalTo` of the RTP package. -/
structure PacketCodec (ρ : Type) where
  unmarshal : List UInt8 → Option (Packet ρ)
  marshal : Packet ρ → Option (List UInt8)

/-! ## Output streams -/

structure Rewriter where
  ssrc : UInt32
  sequence : UInt16
  timestamp : UInt32
  inputBase : UInt32
  outputBase : UInt32
  initialized : Bool
  packets : UInt64
  bytes : UInt64
  lastTimestamp : UInt32
  deriving DecidableEq, Repr

/-- `NewRewriter`, on its random numbers. -/
def newRewriter (ssrc : UInt32) (sequence : UInt16) (timestamp : UInt32) : Rewriter :=
  ⟨ssrc, sequence, timestamp, 0, timestamp, false, 0, 0, 0⟩

def Rewriter.rewrite (r : Rewriter) (input : Packet ρ) (outputPayloadType : UInt8) :
    Packet ρ × Rewriter :=
  let r :=
    if r.initialized then { r with sequence := r.sequence + 1 }
    else { r with initialized := true, inputBase := input.timestamp }
  let r := { r with timestamp := r.outputBase + input.timestamp - r.inputBase }
  let output := { input with
    payloadType := outputPayloadType
    ssrc := r.ssrc
    sequenceNumber := r.sequence
    timestamp := r.timestamp }
  (output, { r with
    packets := r.packets + 1
    bytes := r.bytes + UInt64.ofNat input.payload.length
    lastTimestamp := r.timestamp })

structure SenderStats where
  ssrc : UInt32
  packets : UInt64
  bytes : UInt64
  lastTimestamp : UInt32
  deriving DecidableEq, Repr

def Rewriter.snapshot (r : Rewriter) : SenderStats := ⟨r.ssrc, r.packets, r.bytes, r.lastTimestamp⟩

/-! ## Input streams -/

def sequenceWindow : ℕ := 128

inductive PacketClass
  | new
  | reordered
  | duplicate
  deriving DecidableEq, Repr

/-- `publishedStats`, of which the read loop is the only writer. -/
structure PublishedStats where
  packets : UInt64
  bytes : UInt64
  lost : UInt64
  duplicates : UInt64
  reordered : UInt64
  ssrcChanges : UInt64
  jitterBits : UInt64
  ssrc : UInt32
  lastSequence : UInt32
  lastPacketNanos : Int64

structure Tracker where
  clockRate : UInt32
  started : Bool
  ssrc : UInt32
  maxSeq : UInt16
  cycles : UInt32
  seen : Fin sequenceWindow → UInt16
  seenValid : Fin sequenceWindow → Bool
  transit : Int64
  jitter : Float
  published : PublishedStats

def newTracker (clockRate : UInt32) : Tracker where
  clockRate := clockRate
  started := false
  ssrc := 0
  maxSeq := 0
  cycles := 0
  seen _ := 0
  seenValid _ := false
  transit := 0
  jitter := 0
  published := ⟨0, 0, 0, 0, 0, 0, 0, 0, 0, 0⟩

/-- The place of a sequence number in the window. -/
def windowIndex (sequenceNumber : UInt16) : Fin sequenceWindow :=
  ⟨sequenceNumber.toNat % sequenceWindow, Nat.mod_lt _ (by decide)⟩

def Tracker.publishArrival (t : Tracker) (packet : Packet ρ) (receivedAt : ℤ) (wireBytes : ℕ) :
    Tracker :=
  { t with published := { t.published with
      packets := t.published.packets + 1
      bytes := t.published.bytes + UInt64.ofNat wireBytes
      ssrc := packet.ssrc
      lastSequence := t.cycles + packet.sequenceNumber.toUInt32
      lastPacketNanos := Int64.ofInt receivedAt } }

def decrement (value : UInt64) : UInt64 := if value = 0 then 0 else value - 1

/-- The two writes of `Observe` to the window. -/
def Tracker.remember (t : Tracker) (sequenceNumber : UInt16) : Tracker :=
  { t with
    seenValid := Function.update t.seenValid (windowIndex sequenceNumber) true
    seen := Function.update t.seen (windowIndex sequenceNumber) sequenceNumber }

/-- A change of source is counted. -/
def Tracker.switch (t : Tracker) (packet : Packet ρ) : Tracker :=
  if packet.ssrc ≠ t.ssrc then
    { t with
      ssrc := packet.ssrc
      published := { t.published with ssrcChanges := t.published.ssrcChanges + 1 } }
  else t

/-- The class of a packet by its distance from the highest sequence number. -/
def Tracker.place (t : Tracker) (packet : Packet ρ) : PacketClass × Tracker :=
  let delta := (packet.sequenceNumber - t.maxSeq).toInt16.toInt
  if 0 < delta then
    let cycles := if packet.sequenceNumber < t.maxSeq then t.cycles + 65536 else t.cycles
    let lost :=
      if 1 < delta then t.published.lost + UInt64.ofNat (delta - 1).toNat else t.published.lost
    (.new, { t with
      cycles := cycles
      maxSeq := packet.sequenceNumber
      published := { t.published with lost := lost } })
  else if delta < 0 then
    (.reordered, { t with published := { t.published with
      reordered := t.published.reordered + 1
      lost := decrement t.published.lost } })
  else (.new, t)

def Tracker.advance (t : Tracker) (packet : Packet ρ) : PacketClass × Tracker :=
  if !t.started then
    (.new, { t with started := true, maxSeq := packet.sequenceNumber, ssrc := packet.ssrc })
  else (t.switch packet).place packet

/-- The arrival in clock samples less the timestamp. -/
def transitOf (clockRate : UInt32) (packet : Packet ρ) (receivedAt : ℤ) : Int64 :=
  Int64.ofInt receivedAt * Int64.ofNat clockRate.toNat / Int64.ofInt Time.second -
    Int64.ofNat packet.timestamp.toNat

def transitDifference (transit previous : Int64) : Int64 :=
  if transit - previous < 0 then -(transit - previous) else transit - previous

def jitterFilter (jitter : Float) (difference : Int64) : Float :=
  jitter + (difference.toFloat - jitter) / 16

/-- The interarrival jitter. -/
def Tracker.measure (t : Tracker) (packet : Packet ρ) (receivedAt : ℤ) : Tracker :=
  let transit := transitOf t.clockRate packet receivedAt
  let jitter :=
    if 0 < t.published.packets then jitterFilter t.jitter (transitDifference transit t.transit)
    else t.jitter
  { t with
    transit := transit
    jitter := jitter
    published := { t.published with jitterBits := jitter.toBits } }

def Tracker.observe (t : Tracker) (packet : Packet ρ) (receivedAt : ℤ) (wireBytes : ℕ) :
    PacketClass × Tracker :=
  let index := windowIndex packet.sequenceNumber
  if t.seenValid index && t.seen index = packet.sequenceNumber then
    let t := { t with
      published := { t.published with duplicates := t.published.duplicates + 1 } }
    (.duplicate, t.publishArrival packet receivedAt wireBytes)
  else
    let (packetClass, t) := (t.remember packet.sequenceNumber).advance packet
    (packetClass, (t.measure packet receivedAt).publishArrival packet receivedAt wireBytes)

/-! ## Telephone events -/

structure DtmfEvent where
  code : UInt8
  endBit : Bool
  volume : UInt8
  duration : UInt16
  deriving DecidableEq, Repr

inductive DtmfError
  | short
  | unsupportedCode (code : UInt8)
  deriving DecidableEq, Repr

def decodeDtmf : List UInt8 → Except DtmfError DtmfEvent
  | b₀ :: b₁ :: b₂ :: b₃ :: _ =>
    if 16 < b₀ then .error (.unsupportedCode b₀)
    else .ok ⟨b₀, b₁ &&& 0x80 ≠ 0, b₁ &&& 0x3f, b₂.toUInt16 <<< 8 ||| b₃.toUInt16⟩
  | _ => .error .short

end AixvolinkPbx.Media
