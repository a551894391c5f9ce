import AixvolinkPbx.Media.Rtcp

/-!
# Round-trip times (`internal/media/session/endpoint.go`, `rtcp.go`)

A compact timestamp counts the 65536ths of a second modulo `2 ^ 32` (`toNat_compactNTP`). The peer
echoes the timestamp of our last sender report and the delay `d` until it answered; if `u` units have
passed since, the round trip took `u - d`. `updateRemoteReport` compares the arrival with the sum of
timestamp and delay in 32 bits, which is the comparison of `d` with `u` only if both have passed the
same number of wraps (`wraps_iff`). Otherwise it drops a round trip, or stores one for a delay that is
longer than the time that has passed (`rtt_across_wrap`).
-/

namespace AixvolinkPbx.Media

open Prog (Returns Only)

/-! ## Compact timestamps -/

theorem toNat_ntpSeconds (seconds : ℤ) :
    ((Int64.ofInt seconds + ntpEpochOffset).toUInt64.toNat : ℤ) = (seconds + 2208988800) % 2 ^ 64 := by
  have hconst : ntpEpochOffset.toBitVec.toNat = 2208988800 := rfl
  show ((Int64.ofInt seconds + ntpEpochOffset).toBitVec.toNat : ℤ) = _
  rw [Int64.toBitVec_add, BitVec.toNat_add, Int64.toBitVec_ofInt, BitVec.toNat_ofInt, hconst]
  omega

theorem toNat_ntpFraction {nanos : ℕ} (h : nanos < 1000000000) :
    (UInt64.ofInt nanos * 0x100000000 / UInt64.ofInt Time.second).toNat =
      nanos * 4294967296 / 1000000000 := by
  have hnanos : (UInt64.ofInt nanos).toNat = nanos := by
    rw [UInt64.ofInt, UInt64.toNat_ofNat']
    omega
  have hsecond : (UInt64.ofInt Time.second).toNat = 1000000000 := rfl
  have hconst : (0x100000000 : UInt64).toNat = 4294967296 := rfl
  rw [UInt64.toNat_div, UInt64.toNat_mul, hnanos, hsecond, hconst, Nat.mod_eq_of_lt (by omega)]

/-- The middle of the two halves of a timestamp. -/
theorem middle_bits (seconds : ℕ) {fraction : ℕ} (h : fraction < 2 ^ 32) :
    (seconds <<< 32 % 2 ^ 64 ||| fraction) >>> 16 % 2 ^ 32 =
      (seconds * 65536 + fraction / 65536) % 2 ^ 32 := by
  have hshift : seconds <<< 32 % 2 ^ 64 = (seconds % 2 ^ 32) <<< 32 := by
    rw [Nat.shiftLeft_eq, Nat.shiftLeft_eq]
    omega
  rw [hshift, ← Nat.shiftLeft_add_eq_or_of_lt h, Nat.shiftLeft_eq, Nat.shiftRight_eq_div_pow]
  omega

/-- The units of a compact timestamp since the Unix epoch. -/
def compactUnits (value : ℤ) : ℤ := 65536 * value / Time.second

theorem toNat_compactNTP (value : ℤ) :
    ((compactNTP (ntpTimestamp value)).toNat : ℤ) =
      (compactUnits value + 65536 * 2208988800) % 2 ^ 32 := by
  obtain ⟨nanos, hnanos⟩ := Int.eq_ofNat_of_zero_le
    (Int.emod_nonneg value (show Time.second ≠ 0 by decide))
  have hlt : nanos < 1000000000 := by
    rw [Time.second_eq] at hnanos
    omega
  have hseconds := toNat_ntpSeconds (value / Time.second)
  have hsixteen : (16 : UInt64).toNat % 64 = 16 := rfl
  have hthirtytwo : (32 : UInt64).toNat % 64 = 32 := rfl
  unfold compactNTP ntpTimestamp compactUnits
  rw [hnanos, UInt64.toNat_toUInt32, UInt64.toNat_shiftRight, UInt64.toNat_or, UInt64.toNat_shiftLeft,
    toNat_ntpFraction hlt, hsixteen, hthirtytwo, middle_bits _ (by omega)]
  have hunits : 65536 * value / Time.second =
      65536 * (value / Time.second) + (nanos * 4294967296 / 1000000000 / 65536 : ℕ) := by
    rw [Time.second_eq] at hnanos ⊢
    omega
  rw [hunits]
  generalize (Int64.ofInt (value / Time.second) + ntpEpochOffset).toUInt64.toNat = seconds at *
  generalize value / Time.second = q at *
  omega

/-! ## Counting units across wraps -/

/-- The comparison of the two sums in 32 bits is that of the summands exactly if they wrap equally. -/
theorem wraps_iff (sent : ℤ) {units delay : ℤ} (hunits : 0 ≤ units ∧ units ≤ 2 ^ 32)
    (hdelay : 0 ≤ delay ∧ delay < 2 ^ 32) :
    ((sent + delay) % 2 ^ 32 < (sent + units) % 2 ^ 32 ↔ delay < units) ↔
      (sent + units) / 2 ^ 32 = (sent + delay) / 2 ^ 32 := by
  omega

section Units

variable {sentAt receivedAt : ℤ}

theorem elapsedUnits_range (hle : sentAt ≤ receivedAt)
    (hlt : receivedAt - sentAt < 65536 * Time.second) :
    0 ≤ compactUnits receivedAt - compactUnits sentAt ∧
      compactUnits receivedAt - compactUnits sentAt ≤ 2 ^ 32 := by
  unfold compactUnits
  rw [Time.second_eq] at hlt ⊢
  omega

theorem toNat_arrival (sentAt receivedAt : ℤ) :
    ((compactNTP (ntpTimestamp receivedAt)).toNat : ℤ) =
      ((compactNTP (ntpTimestamp sentAt)).toNat + (compactUnits receivedAt - compactUnits sentAt)) %
        2 ^ 32 := by
  rw [toNat_compactNTP, toNat_compactNTP]
  omega

theorem toNat_rttUnits (sentAt receivedAt : ℤ) (delay : UInt32) :
    ((compactNTP (ntpTimestamp receivedAt) - compactNTP (ntpTimestamp sentAt) - delay).toNat : ℤ) =
      (compactUnits receivedAt - compactUnits sentAt - delay.toNat) % 2 ^ 32 := by
  have harrival := toNat_arrival sentAt receivedAt
  have hsent := (compactNTP (ntpTimestamp sentAt)).toNat_lt
  have hdelay := delay.toNat_lt
  rw [UInt32.toNat_sub, UInt32.toNat_sub]
  omega

end Units

theorem toInt_rttNanos {units : ℕ} (h : units < 2 ^ 32) :
    (Int64.ofNat units * Int64.ofInt Time.second / 65536).toInt = units * 1000000000 / 65536 := by
  have hunits : (Int64.ofNat units).toInt = units := by
    rw [← Int64.ofInt_eq_ofNat]
    exact Int64.toInt_ofInt_of_le (by omega) (by omega)
  have hsecond : (Int64.ofInt Time.second).toInt = 1000000000 := rfl
  have hconst : (65536 : Int64).toInt = 65536 := rfl
  have hproduct : (Int64.ofNat units * Int64.ofInt Time.second).toInt = units * 1000000000 := by
    rw [Int64.toInt_mul, hunits, hsecond]
    exact Int.bmod_eq_of_le (by omega) (by omega)
  rw [Int64.toInt_div, hproduct, hconst, Int.tdiv_eq_ediv_of_nonneg (by omega)]
  exact Int.bmod_eq_of_le (by omega) (by omega)

/-! ## The events of reports -/

def rttStores (t : List (Event rtcpSig)) : List Int64 :=
  t.filterMap fun ev => match ev.op with
    | .inr (.storeRttNanos _ value) => some value
    | _ => none

def sentStores (t : List (Event rtcpSig)) : List UInt32 :=
  t.filterMap fun ev => match ev.op with
    | .inr (.storeLastSentSR _ value) => some value
    | _ => none

/-- The report on the stream to the leg: its timestamp is compared with the one loaded. -/
theorem returns_updateRemoteReport {leg : Leg} {senderSSRC : UInt32} {receivedAt : ℤ}
    {before after : List ReceptionReport} {report : ReceptionReport} {t : List (Event rtcpSig)}
    (hbefore : ∀ x ∈ before, x.ssrc ≠ senderSSRC) (hssrc : report.ssrc = senderSSRC)
    (hne : report.lastSenderReport ≠ 0)
    (h : Returns (updateRemoteReport leg senderSSRC receivedAt (before ++ report :: after)) t ()) :
    ∃ lastSent : UInt32, ⟨.inr (.loadLastSentSR leg), lastSent⟩ ∈ t ∧
      rttStores t =
        if report.lastSenderReport = lastSent ∧
            report.lastSenderReport + report.delay < compactNTP (ntpTimestamp receivedAt) then
          [Int64.ofNat (compactNTP (ntpTimestamp receivedAt) - report.lastSenderReport -
            report.delay).toNat * Int64.ofInt Time.second / 65536]
        else [] := by
  induction before with
  | cons x before ih =>
    rw [List.cons_append, updateRemoteReport, if_pos (hbefore x List.mem_cons_self)] at h
    exact ih (fun y hy => hbefore y (List.mem_cons_of_mem _ hy)) h
  | nil =>
    rw [List.nil_append, updateRemoteReport, if_neg (not_not.mpr hssrc)] at h
    obtain ⟨_, t₁, u₁, rfl, hfraction, h₁⟩ := Prog.returns_bind h
    obtain ⟨_, t₂, u₂, rfl, hlost, h₂⟩ := Prog.returns_bind h₁
    obtain ⟨_, t₃, u₃, rfl, hjitter, h₃⟩ := Prog.returns_bind h₂
    rw [Prog.when, if_pos hne] at h₃
    obtain ⟨lastSent, t₄, u₄, rfl, hload, h₄⟩ := Prog.returns_bind h₃
    obtain rfl := returns_reportOp hfraction
    obtain rfl := returns_reportOp hlost
    obtain rfl := returns_reportOp hjitter
    obtain rfl := returns_reportOp hload
    refine ⟨lastSent, by simp, ?_⟩
    dsimp only at h₄
    unfold Prog.when at h₄
    split_ifs at h₄ with hstore
    · obtain rfl := returns_reportOp h₄
      rw [if_pos hstore]
      rfl
    · cases h₄
      rw [if_neg hstore]
      rfl

/-- An operation that stores no timestamp of a sender report but `value`. -/
def SendsOnly (value : UInt32) : rtcpSig.Op → Prop
  | .inr (.storeLastSentSR _ v) => v = value
  | _ => True

theorem sendsOnly_reportOp {value : UInt32} {e : ReportOp} (h : SendsOnly value (.inr e)) :
    Only (SendsOnly value) (reportOp e) := Prog.only_inr (Prog.only_call.mpr h)

/-- A timestamp that `writeRTCP` stores is that of its own report. -/
theorem sendsOnly_writeRTCP (C : RtcpCodec) (destination : Leg) (now : ℤ) :
    Only (SendsOnly (compactNTP (ntpTimestamp now))) (writeRTCP C destination now) := by
  unfold writeRTCP
  refine Prog.only_bind (Prog.only_inl (Prog.only_of_forall (fun _ => trivial) _)) ?_
  rintro (_ | target)
  · exact Prog.only_pure
  refine Prog.only_bind (sendsOnly_reportOp trivial) fun inbound => ?_
  refine Prog.only_bind (sendsOnly_reportOp trivial) fun sender => ?_
  refine Prog.only_bind ?_ fun reports => Prog.only_bind ?_ fun packet => ?_
  · unfold receptionReports
    split_ifs
    · refine Prog.only_bind ?_ fun report => Prog.only_pure
      exact Prog.only_bind (sendsOnly_reportOp trivial) fun lastSR =>
        Prog.only_bind (sendsOnly_reportOp trivial) fun receivedNanos => Prog.only_pure
    · exact Prog.only_pure
  · unfold reportPacket
    split_ifs
    · exact Prog.only_bind (sendsOnly_reportOp rfl) fun _ => Prog.only_pure
    · exact Prog.only_pure
  · dsimp only
    split
    · refine Prog.only_bind (sendsOnly_reportOp trivial) fun connected => ?_
      split_ifs
      · exact Prog.only_pure
      · refine Prog.only_bind (sendsOnly_reportOp trivial) fun result => ?_
        split
        · exact Prog.only_pure
        · exact Prog.only_pure
    · exact Prog.only_pure

theorem eq_of_mem_sentStores {C : RtcpCodec} {destination : Leg} {now : ℤ}
    {t : List (Event rtcpSig)} {q : Prog rtcpSig (Option ReportError)} {value : UInt32}
    (h : Prog.Path (writeRTCP C destination now) t q) (hvalue : value ∈ sentStores t) :
    value = compactNTP (ntpTimestamp now) := by
  obtain ⟨ev, hev, hop⟩ := List.mem_filterMap.mp hvalue
  have honly := (sendsOnly_writeRTCP C destination now).of_path h ev hev
  split at hop
  · next leg v hstore =>
    rw [hstore] at honly
    exact (Option.some.inj hop).symm.trans honly
  · cases hop

/-! ## The round trip -/

/-- **Round-trip times.** `writeRTCP` sent a sender report to the leg at `sentAt`, and it is the last
one when a report that echoes its timestamp, on the stream to the leg, arrives less than 65536 seconds
later. With `u` units passed and the delay `d` of the report, the round trip of `u - d` units is stored
if `d < u`, and none otherwise, exactly if the sums of the timestamp with `u` and with `d` wrap
equally. -/
theorem rtt_exact_iff (C : RtcpCodec) (leg : Leg) {sentAt receivedAt : ℤ}
    {sent t : List (Event rtcpSig)} {r : Option ReportError} {senderSSRC : UInt32}
    (before after : List ReceptionReport) {report : ReceptionReport}
    (hsent : Returns (writeRTCP C leg sentAt) sent r)
    (hle : sentAt ≤ receivedAt) (hlt : receivedAt - sentAt < 65536 * Time.second)
    (hbefore : ∀ x ∈ before, x.ssrc ≠ senderSSRC) (hssrc : report.ssrc = senderSSRC)
    (hecho : report.lastSenderReport = compactNTP (ntpTimestamp sentAt))
    (hne : report.lastSenderReport ≠ 0)
    (hupdate : Returns (updateRemoteReport leg senderSSRC receivedAt (before ++ report :: after)) t ())
    (hlast : ∀ lastSent : UInt32, ⟨.inr (.loadLastSentSR leg), lastSent⟩ ∈ t →
      lastSent ∈ sentStores sent) :
    let u := 65536 * receivedAt / Time.second - 65536 * sentAt / Time.second
    let d : ℤ := report.delay.toNat
    ((rttStores t).map Int64.toInt = if d < u then [(u - d) * 1000000000 / 65536] else []) ↔
      (report.lastSenderReport.toNat + u) / 2 ^ 32 = (report.lastSenderReport.toNat + d) / 2 ^ 32 := by
  intro u d
  have hu : compactUnits receivedAt - compactUnits sentAt = u := rfl
  have hunits := elapsedUnits_range hle hlt
  have hdelay : 0 ≤ d ∧ d < 2 ^ 32 := by
    have hbound := report.delay.toNat_lt
    omega
  rw [hu] at hunits
  obtain ⟨lastSent, hload, hstores⟩ := returns_updateRemoteReport hbefore hssrc hne hupdate
  obtain rfl := eq_of_mem_sentStores hsent (hlast lastSent hload)
  have hcompare : report.lastSenderReport + report.delay < compactNTP (ntpTimestamp receivedAt) ↔
      (report.lastSenderReport.toNat + d) % 2 ^ 32 < (report.lastSenderReport.toNat + u) % 2 ^ 32 := by
    have harrival := toNat_arrival sentAt receivedAt
    rw [hu, ← hecho] at harrival
    rw [UInt32.lt_iff_toNat_lt, UInt32.toNat_add]
    omega
  have hvalue := toNat_rttUnits sentAt receivedAt report.delay
  rw [hu, ← hecho] at hvalue
  have hnanos := toInt_rttNanos
    (compactNTP (ntpTimestamp receivedAt) - report.lastSenderReport - report.delay).toNat_lt
  rw [hvalue] at hnanos
  rw [← wraps_iff _ hunits hdelay, ← hcompare, hstores]
  by_cases hstore : report.lastSenderReport + report.delay < compactNTP (ntpTimestamp receivedAt)
  · rw [if_pos ⟨hecho, hstore⟩, List.map_singleton, hnanos]
    by_cases hd : d < u
    · -- a round trip of a whole wrap would not have been stored
      have hmod : (u - d) % 2 ^ 32 = u - d := by
        have hsums := hcompare.mp hstore
        omega
      rw [if_pos hd]
      exact iff_of_true (congrArg (fun n => [n * 1000000000 / 65536]) hmod) (iff_of_true hstore hd)
    · rw [if_neg hd]
      exact iff_of_false (List.cons_ne_nil _ _) fun hiff => hd (hiff.mp hstore)
  · rw [if_neg fun hboth => hstore hboth.2]
    by_cases hd : d < u
    · rw [if_pos hd]
      exact iff_of_false (List.cons_ne_nil _ _).symm fun hiff => hstore (hiff.mpr hd)
    · rw [if_neg hd]
      exact iff_of_true rfl (iff_of_false hstore hd)

/-! ## Runs -/

def noBytes : RtcpCodec := ⟨fun _ => none, fun _ => some [], Float.toUInt32⟩

def aliceRtcp : AddrPort := ⟨.v4 0xC0000201, 4001⟩

/-- A sender report to the caller: packets have been sent to it and none has come from it. -/
def sentRun (now : ℤ) : List (Event rtcpSig) :=
  [⟨.inl (.loadRemote .target .caller), some ⟨aliceRtcp, aliceRtcp, 0, 101, true, .sendRecv⟩⟩,
    ⟨.inl (.loadLearned .target .caller .rtcp), (0 : UInt32)⟩,
    ⟨.inr (.inbound .caller), (newTracker 8000).snapshot⟩,
    ⟨.inr (.outbound .caller), (⟨7, 1, 160, 0⟩ : SenderStats)⟩,
    ⟨.inr (.storeLastSentSR .caller (compactNTP (ntpTimestamp now))), ()⟩,
    ⟨.inr (.rtcpConn .caller), true⟩,
    ⟨.inr (.writeRTCP .caller [] aliceRtcp), WriteResult.written⟩]

theorem returns_sentRun (now : ℤ) : Returns (writeRTCP noBytes .caller now) (sentRun now) none :=
  .cons (.cons (.cons (.cons (.cons (.cons (.cons (.nil _)))))))

def echoReport (sentAt : ℤ) (delay : UInt32) : ReceptionReport :=
  ⟨7, 0, 0, 0, 0, compactNTP (ntpTimestamp sentAt), delay⟩

/-- The events on a report of the caller, with what is stored for the round trip. -/
def echoRun (report : ReceptionReport) (stores : List Int64) : List (Event rtcpSig) :=
  [⟨.inr (.storeRemoteFractionLost .caller report.fractionLost.toUInt32), ()⟩] ++
    ([⟨.inr (.storeRemoteTotalLost .caller report.totalLost), ()⟩] ++
      ([⟨.inr (.storeRemoteJitter .caller report.jitter), ()⟩] ++
        ([⟨.inr (.loadLastSentSR .caller), report.lastSenderReport⟩] ++
          stores.map fun nanos => ⟨.inr (.storeRttNanos .caller nanos), ()⟩)))

theorem returns_echoRun (receivedAt : ℤ) {report : ReceptionReport} (hssrc : report.ssrc = 7)
    (hne : report.lastSenderReport ≠ 0) :
    Returns (updateRemoteReport .caller 7 receivedAt [report])
      (echoRun report
        (if report.lastSenderReport + report.delay < compactNTP (ntpTimestamp receivedAt) then
          [Int64.ofNat (compactNTP (ntpTimestamp receivedAt) - report.lastSenderReport -
            report.delay).toNat * Int64.ofInt Time.second / 65536]
        else [])) () := by
  have hop : ∀ (e : ReportOp) (r : reportSig.Ans e), Returns (reportOp e) [⟨.inr e, r⟩] r :=
    fun e r => .cons (.nil _)
  rw [updateRemoteReport, if_neg (not_not.mpr hssrc)]
  refine (hop _ _).bind ((hop _ _).bind ((hop _ _).bind ?_))
  rw [Prog.when, if_pos hne]
  refine (hop (.loadLastSentSR .caller) report.lastSenderReport).bind ?_
  dsimp only
  by_cases hstore : report.lastSenderReport + report.delay < compactNTP (ntpTimestamp receivedAt)
  · rw [Prog.when, if_pos ⟨rfl, hstore⟩, if_pos hstore]
    exact hop _ _
  · rw [Prog.when, if_neg fun hboth => hstore hboth.2, if_neg hstore]
    exact .nil _

theorem mem_sentStores_of_echoRun {sentAt : ℤ} {delay lastSent : UInt32} {stores : List Int64}
    (h : (⟨.inr (.loadLastSentSR .caller), lastSent⟩ : Event rtcpSig) ∈
      echoRun (echoReport sentAt delay) stores) : lastSent ∈ sentStores (sentRun sentAt) := by
  have hmem : lastSent = compactNTP (ntpTimestamp sentAt) := by
    simpa [echoRun, echoReport] using h
  rw [hmem]
  exact List.mem_singleton_self _

theorem compactNTP_ntpTimestamp (value : ℤ) : compactNTP (ntpTimestamp value) =
    UInt32.ofNat ((compactUnits value + 65536 * 2208988800) % 2 ^ 32).toNat := by
  rw [← toNat_compactNTP, Int.toNat_natCast, UInt32.ofNat_toNat]

/-- A report that comes three seconds after the sender report and was held back for one. -/
theorem rtt_exact_twoSeconds :
    ∃ t, Returns (updateRemoteReport .caller 7 (3 * Time.second) [echoReport 0 65536]) t () ∧
      (rttStores t).map Int64.toInt = [2000000000] := by
  have hsent : compactNTP (ntpTimestamp 0) = 0x7e800000 := by
    rw [compactNTP_ntpTimestamp]
    rfl
  have hne : (echoReport 0 65536).lastSenderReport ≠ 0 := by
    rw [show (echoReport 0 65536).lastSenderReport = 0x7e800000 from hsent]
    decide
  have hupdate := returns_echoRun (3 * Time.second) rfl hne
  have hiff := rtt_exact_iff noBytes .caller [] [] (returns_sentRun 0)
    (show (0 : ℤ) ≤ 3 * Time.second by decide) (by decide) (by simp) rfl rfl hne hupdate
    (fun _ => mem_sentStores_of_echoRun)
  refine ⟨_, hupdate, (hiff.mpr ?_).trans ?_⟩
  · rw [show (echoReport 0 65536).lastSenderReport = 0x7e800000 from hsent]
    rfl
  · have hdelay : ((echoReport 0 65536).delay.toNat : ℤ) = 65536 := rfl
    rw [hdelay]
    decide

/-- The timestamp wraps between a sender report and its echo. A round trip of two seconds is not
stored; and a delay of one second, half a second after the sender report, is stored as a round trip of
more than 18 hours. -/
theorem rtt_across_wrap :
    Returns (writeRTCP noBytes .caller (33151 * Time.second)) (sentRun (33151 * Time.second)) none ∧
    (∃ t, Returns (updateRemoteReport .caller 7 (33153 * Time.second)
          [echoReport (33151 * Time.second) 0]) t () ∧
        (∀ lastSent : UInt32, ⟨.inr (.loadLastSentSR .caller), lastSent⟩ ∈ t →
          lastSent ∈ sentStores (sentRun (33151 * Time.second))) ∧
        rttStores t = []) ∧
    ∃ t, Returns (updateRemoteReport .caller 7 (33151 * Time.second + 500000000)
          [echoReport (33151 * Time.second) 65536]) t () ∧
        (∀ lastSent : UInt32, ⟨.inr (.loadLastSentSR .caller), lastSent⟩ ∈ t →
          lastSent ∈ sentStores (sentRun (33151 * Time.second))) ∧
        (rttStores t).map Int64.toInt = [65535500000000] := by
  have hsent : compactNTP (ntpTimestamp (33151 * Time.second)) = 0xffff0000 := by
    rw [compactNTP_ntpTimestamp]
    rfl
  have hlater : compactNTP (ntpTimestamp (33153 * Time.second)) = 0x10000 := by
    rw [compactNTP_ntpTimestamp]
    rfl
  have hsoon : compactNTP (ntpTimestamp (33151 * Time.second + 500000000)) = 0xffff8000 := by
    rw [compactNTP_ntpTimestamp]
    rfl
  have hecho : ∀ delay, (echoReport (33151 * Time.second) delay).lastSenderReport = 0xffff0000 :=
    fun _ => hsent
  have hne : ∀ delay, (echoReport (33151 * Time.second) delay).lastSenderReport ≠ 0 := by
    intro delay
    rw [hecho]
    decide
  refine ⟨returns_sentRun _, ⟨_, returns_echoRun _ rfl (hne 0), fun _ => mem_sentStores_of_echoRun, ?_⟩,
    _, returns_echoRun _ rfl (hne 65536), fun _ => mem_sentStores_of_echoRun, ?_⟩
  · rw [hecho, hlater, if_neg (by decide)]
    rfl
  · rw [hecho, hsoon, if_pos (by decide)]
    exact congrArg (fun n => [n]) (toInt_rttNanos (UInt32.toNat_lt _))

end AixvolinkPbx.Media
