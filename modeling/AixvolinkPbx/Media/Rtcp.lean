import AixvolinkPbx.Lib.Interp
import AixvolinkPbx.Media.Forward

/-!
# RTCP reports (`internal/media/session/rtcp.go`, `endpoint.go`)

One goroutine of a session writes a report to each leg at every tick (`writeRTCP`), two others read
those of the legs (`readRTCP`). They share the report fields of the endpoints, each field an atomic of
its own, and read the counters the packet loops publish. The encoding of RTCP packets is that of
another package and a parameter (`RtcpCodec`).
-/

namespace AixvolinkPbx.Media

/-! ## Snapshots -/

/-- `rtp.Stats`; a missing time is the zero one. -/
structure Stats where
  packets : UInt64
  bytes : UInt64
  lost : UInt64
  duplicates : UInt64
  reordered : UInt64
  ssrcChanges : UInt64
  jitterSamples : Float
  ssrc : UInt32
  lastSequence : UInt32
  lastPacketAt : Option ℤ

def Tracker.snapshot (t : Tracker) : Stats where
  packets := t.published.packets
  bytes := t.published.bytes
  lost := t.published.lost
  duplicates := t.published.duplicates
  reordered := t.published.reordered
  ssrcChanges := t.published.ssrcChanges
  jitterSamples := Float.ofBits t.published.jitterBits
  ssrc := t.published.ssrc
  lastSequence := t.published.lastSequence
  lastPacketAt := t.lastPacketAt

/-! ## Packets -/

structure ReceptionReport where
  ssrc : UInt32
  fractionLost : UInt8
  totalLost : UInt32
  lastSequenceNumber : UInt32
  jitter : UInt32
  lastSenderReport : UInt32
  delay : UInt32
  deriving DecidableEq, Repr

structure SenderReport where
  ssrc : UInt32
  ntpTime : UInt64
  rtpTime : UInt32
  packetCount : UInt32
  octetCount : UInt32
  reports : List ReceptionReport
  deriving DecidableEq, Repr

/-- The packets that are written, and the other ones that may be read. -/
inductive RtcpPacket
  | sender (report : SenderReport)
  | receiver (ssrc : UInt32) (reports : List ReceptionReport)
  | other
  deriving DecidableEq, Repr

/-- `Unmarshal` and `Marshal` of the RTCP package, and the conversion of a `float64` to `uint32`. -/
structure RtcpCodec where
  unmarshal : List UInt8 → Option (List RtcpPacket)
  marshal : RtcpPacket → Option (List UInt8)
  convert : Float → UInt32

/-! ## Timestamps -/

def ntpEpochOffset : Int64 := 2208988800

/-- `ntpTimestamp`: 32 bits of seconds and 32 bits of their fractions. -/
def ntpTimestamp (value : ℤ) : UInt64 :=
  let seconds := (Int64.ofInt (value / Time.second) + ntpEpochOffset).toUInt64
  let fraction := UInt64.ofInt (value % Time.second) * 0x100000000 / UInt64.ofInt Time.second
  seconds <<< 32 ||| fraction

/-- `compactNTP`: the middle 32 bits. -/
def compactNTP (value : UInt64) : UInt32 := (value >>> 16).toUInt32

/-- `now.Sub(earlier)`, which is held within the range of a `Duration`. -/
def durationSince (earlier now : ℤ) : Int64 :=
  Int64.ofInt (max (-2 ^ 63) (min (2 ^ 63 - 1) (now - earlier)))

/-! ## Operations -/

inductive ReportOp
  -- the report fields of an endpoint
  | loadLastRemoteSR (leg : Leg)
  | storeLastRemoteSR (leg : Leg) (value : UInt32)
  | loadLastRemoteSRNanos (leg : Leg)
  | storeLastRemoteSRNanos (leg : Leg) (value : Int64)
  | loadLastSentSR (leg : Leg)
  | storeLastSentSR (leg : Leg) (value : UInt32)
  | storeRemoteFractionLost (leg : Leg) (value : UInt32)
  | storeRemoteTotalLost (leg : Leg) (value : UInt32)
  | storeRemoteJitter (leg : Leg) (value : UInt32)
  | storeRttNanos (leg : Leg) (value : Int64)
  -- the counters of the stream from a leg, and of the one to it
  | inbound (leg : Leg)
  | outbound (leg : Leg)
  -- the RTCP socket of a leg
  | rtcpConn (leg : Leg)
  | setRTCPDeadline (leg : Leg) (poll : ℤ)
  | readRTCP (leg : Leg)
  | writeRTCP (leg : Leg) (bytes : List UInt8) (target : AddrPort)

abbrev reportSig : Sig where
  Op := ReportOp
  Ans
    | .loadLastRemoteSR _ => UInt32
    | .loadLastRemoteSRNanos _ => Int64
    | .loadLastSentSR _ => UInt32
    | .inbound _ => Stats
    | .outbound _ => SenderStats
    | .rtcpConn _ => Bool
    | .setRTCPDeadline _ _ => Bool
    | .readRTCP _ => ReadResult
    | .writeRTCP _ _ _ => WriteResult
    | _ => Unit

/-- The operations on reports beside those of the packet loops. -/
abbrev rtcpSig : Sig := mediaSig.sum reportSig

abbrev reportOp (e : ReportOp) : Prog rtcpSig (reportSig.Ans e) := Prog.inr (.call (S := reportSig) e)

/-! ## Writing reports -/

/-- The `FractionLost` of a report. -/
def lostFraction (packets lost : UInt64) : UInt8 :=
  let expected := packets + lost
  if 0 < expected then (min (lost * 256 / expected) 255).toUInt8 else 0

/-- The `Delay` of a report, from what is loaded for it. -/
def reportDelay (lastSR : UInt32) (receivedNanos : Int64) (now : ℤ) : UInt32 :=
  let elapsed := durationSince receivedNanos.toInt now
  if lastSR ≠ 0 ∧ receivedNanos ≠ 0 ∧ 0 < elapsed then
    (min (elapsed * 65536 / Int64.ofInt Time.second).toUInt64 0xffffffff).toUInt32
  else 0

/-- `receptionReport`; the conversion of a `float64` to `uint32` is up to the implementation where the
value does not fit. -/
def receptionReport (convert : Float → UInt32) (destination : Leg) (inbound : Stats) (now : ℤ) :
    Prog rtcpSig ReceptionReport := do
  let lastSR ← reportOp (.loadLastRemoteSR destination)
  let receivedNanos ← reportOp (.loadLastRemoteSRNanos destination)
  return ⟨inbound.ssrc, lostFraction inbound.packets inbound.lost,
    (min inbound.lost 0xffffff).toUInt32, inbound.lastSequence, convert (max 0 inbound.jitterSamples),
    lastSR, reportDelay lastSR receivedNanos now⟩

/-- The reports of a packet: none while the source of the inbound stream is 0. -/
def receptionReports (convert : Float → UInt32) (destination : Leg) (inbound : Stats) (now : ℤ) :
    Prog rtcpSig (List ReceptionReport) := do
  if inbound.ssrc ≠ 0 then
    let report ← receptionReport convert destination inbound now
    return [report]
  else return []

inductive ReportError
  | released
  | deadline
  | marshal
  | read
  | write
  deriving DecidableEq, Repr

/-- The packet of a report: the `lastSentSR` of the leg follows the sender reports. -/
def reportPacket (destination : Leg) (sender : SenderStats) (reports : List ReceptionReport)
    (now : ℤ) : Prog rtcpSig RtcpPacket := do
  if 0 < sender.packets then
    let ntp := ntpTimestamp now
    reportOp (.storeLastSentSR destination (compactNTP ntp))
    return .sender ⟨sender.ssrc, ntp, sender.lastTimestamp, (min sender.packets 0xffffffff).toUInt32,
      (min sender.bytes 0xffffffff).toUInt32, reports⟩
  else return .receiver sender.ssrc reports

/-- `writeRTCP`; none is success. -/
def writeRTCP (C : RtcpCodec) (destination : Leg) (now : ℤ) : Prog rtcpSig (Option ReportError) := do
  let some target ← Prog.inl destination.rtcpTarget
    | return none
  let inbound ← reportOp (.inbound destination)
  let sender ← reportOp (.outbound destination)
  let reports ← receptionReports C.convert destination inbound now
  let packet ← reportPacket destination sender reports now
  let some wire := C.marshal packet
    | return some .marshal
  if !(← reportOp (.rtcpConn destination)) then return some .released
  match ← reportOp (.writeRTCP destination wire target) with
  | .failed => return some .write
  | _ => return none

/-! ## Reading reports -/

/-- `updateRemoteReport`: the first report on the stream to the leg. -/
def updateRemoteReport (leg : Leg) (senderSSRC : UInt32) (receivedAt : ℤ) :
    List ReceptionReport → Prog rtcpSig Unit
  | [] => return ()
  | report :: reports => do
    if report.ssrc ≠ senderSSRC then updateRemoteReport leg senderSSRC receivedAt reports
    else
      reportOp (.storeRemoteFractionLost leg report.fractionLost.toUInt32)
      reportOp (.storeRemoteTotalLost leg report.totalLost)
      reportOp (.storeRemoteJitter leg report.jitter)
      Prog.when (report.lastSenderReport ≠ 0) do
        let lastSent ← reportOp (.loadLastSentSR leg)
        let arrival := compactNTP (ntpTimestamp receivedAt)
        Prog.when (report.lastSenderReport = lastSent ∧
            report.lastSenderReport + report.delay < arrival) do
          let rttUnits := arrival - report.lastSenderReport - report.delay
          reportOp (.storeRttNanos leg
            (Int64.ofNat rttUnits.toNat * Int64.ofInt Time.second / 65536))

/-- The loop of `readRTCP` over the packets of a datagram. -/
def applyReports (leg : Leg) (senderSSRC : UInt32) (now : ℤ) : List RtcpPacket → Prog rtcpSig Unit
  | [] => return ()
  | packet :: packets => do
    match packet with
    | .sender report =>
      reportOp (.storeLastRemoteSR leg (compactNTP report.ntpTime))
      reportOp (.storeLastRemoteSRNanos leg (Int64.ofInt now))
      updateRemoteReport leg senderSSRC now report.reports
    | .receiver _ reports => updateRemoteReport leg senderSSRC now reports
    | .other => return ()
    applyReports leg senderSSRC now packets

/-- The steps of an iteration of `readRTCP` on a datagram. -/
def readReports (C : RtcpCodec) (source : Leg) (bytes : List UInt8) (address : AddrPort) :
    Prog rtcpSig Unit := do
  if !(← Prog.inl (source.acceptsRTCP address)) then Prog.inl (op (.addInvalid source))
  else
    match C.unmarshal bytes with
    | none => Prog.inl (op (.addInvalid source))
    | some packets =>
      let now ← Prog.inl (op .now)
      let sender ← reportOp (.outbound source)
      applyReports source sender.ssrc now packets

def readRTCPRound (C : RtcpCodec) (cfg : Config) (source : Leg) :
    Prog rtcpSig (Unit ⊕ Option ReportError) := do
  if !(← reportOp (.setRTCPDeadline source cfg.readPollInterval)) then return .inr (some .deadline)
  match ← reportOp (.readRTCP source) with
  | .datagram bytes address =>
    readReports C source bytes address
    return .inl ()
  | .closed =>
    let _ ← Prog.inl (op .ctxDone)
    return .inr none
  | .timeout =>
    if ← Prog.inl (op .ctxDone) then return .inr none
    return .inl ()
  | .failed =>
    if ← Prog.inl (op .ctxDone) then return .inr none
    return .inr (some .read)

/-- `readRTCP`, looked at for at most `n` iterations; none is success. -/
def readRTCP (C : RtcpCodec) (cfg : Config) (n : ℕ) (source : Leg) :
    Prog rtcpSig (Option ReportError) := do
  if !(← reportOp (.rtcpConn source)) then return some .released
  Prog.loop (fun _ => readRTCPRound C cfg source) n ()

/-! ## What a reception report is made of -/

theorem returns_reportOp {e : ReportOp} {t : List (Event rtcpSig)} {r : reportSig.Ans e}
    (h : Prog.Returns (reportOp e) t r) : t = [⟨.inr e, r⟩] := by
  obtain ⟨u, rfl, hu⟩ := Prog.returns_inr h
  rw [Prog.returns_call hu]
  rfl

/-- `receptionReport` loads the last sender report and its arrival, and reports on the snapshot. -/
theorem returns_receptionReport {convert : Float → UInt32} {destination : Leg} {inbound : Stats}
    {now : ℤ} {events : List (Event rtcpSig)} {report : ReceptionReport}
    (h : Prog.Returns (receptionReport convert destination inbound now) events report) :
    ∃ (lastSR : UInt32) (receivedNanos : Int64),
      events = [⟨.inr (.loadLastRemoteSR destination), lastSR⟩,
        ⟨.inr (.loadLastRemoteSRNanos destination), receivedNanos⟩] ∧
      report = ⟨inbound.ssrc, lostFraction inbound.packets inbound.lost,
        (min inbound.lost 0xffffff).toUInt32, inbound.lastSequence,
        convert (max 0 inbound.jitterSamples), lastSR, reportDelay lastSR receivedNanos now⟩ := by
  unfold receptionReport at h
  obtain ⟨lastSR, t, u, rfl, hlastSR, hrest⟩ := Prog.returns_bind h
  obtain ⟨receivedNanos, v, w, rfl, hnanos, hreport⟩ := Prog.returns_bind hrest
  obtain rfl := returns_reportOp hlastSR
  obtain rfl := returns_reportOp hnanos
  obtain ⟨rfl, rfl⟩ := Prog.returns_pure.mp hreport
  exact ⟨lastSR, receivedNanos, rfl, rfl⟩

end AixvolinkPbx.Media
