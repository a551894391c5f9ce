import AixvolinkPbx.Media.Rtcp

/-!
# The numbers of a reception report (`internal/media/session/rtcp.go`)

`receptionReport` fits the loss and the delay of a leg into the fields of a report. The fraction and the
total of lost packets are held at the top of their fields. The delay is held there as well, but after the
nanoseconds have been scaled in 64 bits: from `2 ^ 47` nanoseconds on the product overflows, and around
the multiples of `2 ^ 48`, which is every 78 hours, what is left of it is small (`scaledDelay_eq_iff`).

A sender report with the timestamp 0 counts as none, and so does one that came at the Unix epoch: their
delay is reported as 0.
-/

namespace AixvolinkPbx.Media

open Prog (Returns)

/-! ## Loss -/

theorem toNat_lostFraction {packets lost : UInt64} (h : lost.toNat + packets.toNat < 2 ^ 56) :
    (lostFraction packets lost).toNat =
      if packets.toNat + lost.toNat = 0 then 0
      else min 255 (256 * lost.toNat / (packets.toNat + lost.toNat)) := by
  have hexpected : (packets + lost).toNat = packets.toNat + lost.toNat := by
    rw [UInt64.toNat_add, Nat.mod_eq_of_lt (by omega)]
  have hscaled : (lost * 256).toNat = 256 * lost.toNat := by
    rw [UInt64.toNat_mul, show (256 : UInt64).toNat = 256 from rfl, Nat.mod_eq_of_lt (by omega)]
    omega
  have hpos : 0 < packets + lost ↔ ¬packets.toNat + lost.toNat = 0 := by
    rw [UInt64.lt_iff_toNat_lt, hexpected, UInt64.toNat_zero]
    omega
  unfold lostFraction
  by_cases hzero : packets.toNat + lost.toNat = 0
  · rw [if_pos hzero, if_neg fun hlt => hpos.mp hlt hzero]
    rfl
  · rw [if_neg hzero, if_pos (hpos.mpr hzero)]
    have htop : (255 : UInt64).toNat = 255 := rfl
    rw [UInt64.toNat_toUInt8, UInt64.toNat_min, UInt64.toNat_div, hscaled, hexpected, htop, min_comm,
      Nat.mod_eq_of_lt (by omega)]

theorem toNat_min_toUInt32 (value : UInt64) {top : UInt64} (h : top.toNat < 2 ^ 32) :
    (min value top).toUInt32.toNat = min value.toNat top.toNat := by
  rw [UInt64.toNat_toUInt32, UInt64.toNat_min, Nat.mod_eq_of_lt (by omega)]

/-! ## Delay -/

/-- The delay in units of 1/65536 of a second, held within 32 bits. -/
def exactDelay (elapsed : ℤ) : ℤ := min (elapsed * 65536 / Time.second) (2 ^ 32 - 1)

/-- The same with the product in 64 bits, and its quotient, cut off, as an unsigned number. -/
def scaledDelay (elapsed : ℤ) : ℤ :=
  min (((elapsed * 65536).bmod (2 ^ 64)).tdiv Time.second % 2 ^ 64) (2 ^ 32 - 1)

/-- The product does not overflow, or what is left of it is still held at the top. -/
def KeepsScale (elapsed : ℤ) : Prop :=
  elapsed < 2 ^ 47 ∨
    (2 ^ 32 - 1) * Time.second ≤ elapsed % 2 ^ 48 * 65536 ∧
      elapsed % 2 ^ 48 * 65536 ≤ 2 ^ 64 - Time.second

instance (elapsed : ℤ) : Decidable (KeepsScale elapsed) := inferInstanceAs (Decidable (_ ∨ _))

variable {elapsed : ℤ}

theorem exactDelay_mono {elapsed' : ℤ} (h : elapsed ≤ elapsed') :
    exactDelay elapsed ≤ exactDelay elapsed' := by
  unfold exactDelay
  rw [Time.second_eq]
  omega

theorem keepsScale_of_le (h : elapsed * 65536 ≤ 2 ^ 64 - Time.second) :
    KeepsScale elapsed := by
  unfold KeepsScale
  rw [Time.second_eq] at h ⊢
  omega

/-- A product that has overflowed is long past the top. -/
theorem exactDelay_of_le (h : 2 ^ 47 ≤ elapsed) : exactDelay elapsed = 2 ^ 32 - 1 := by
  have hlarge : 2 ^ 32 - 1 ≤ elapsed * 65536 / 1000000000 := by omega
  rw [exactDelay, Time.second_eq, min_eq_right hlarge]

/-- In the lower half of the range the product left is scaled as it is. -/
theorem scaledDelay_of_lt (h : elapsed % 2 ^ 48 < 2 ^ 47) :
    scaledDelay elapsed = exactDelay (elapsed % 2 ^ 48) := by
  have hbmod : (elapsed * 65536).bmod (2 ^ 64) = elapsed % 2 ^ 48 * 65536 := by
    rw [Int.bmod, if_pos (by omega)]
    omega
  have hnonneg : 0 ≤ elapsed % 2 ^ 48 := Int.emod_nonneg _ (by decide)
  generalize elapsed % 2 ^ 48 = left at h hbmod hnonneg
  unfold scaledDelay exactDelay
  rw [hbmod, Time.second_eq, Int.tdiv_eq_ediv_of_nonneg (by omega), Int.emod_eq_of_lt (by omega) (by omega)]

/-- In the upper half it is negative, so it is held at the top unless the quotient is 0. -/
theorem scaledDelay_of_le (h : 2 ^ 47 ≤ elapsed % 2 ^ 48) :
    scaledDelay elapsed =
      if elapsed % 2 ^ 48 * 65536 ≤ 2 ^ 64 - Time.second then 2 ^ 32 - 1 else 0 := by
  have hbmod : (elapsed * 65536).bmod (2 ^ 64) = -(2 ^ 64 - elapsed % 2 ^ 48 * 65536) := by
    rw [Int.bmod, if_neg (by omega)]
    omega
  have hlt : elapsed % 2 ^ 48 < 2 ^ 48 := Int.emod_lt_of_pos _ (by decide)
  generalize elapsed % 2 ^ 48 = left at h hbmod hlt
  unfold scaledDelay
  rw [hbmod, Time.second_eq, Int.neg_tdiv, Int.tdiv_eq_ediv_of_nonneg (by omega)]
  split_ifs with hlarge
  · have hquotient : 1 ≤ (2 ^ 64 - left * 65536) / 1000000000 ∧
        (2 ^ 64 - left * 65536) / 1000000000 < 2 ^ 63 := by omega
    generalize (2 ^ 64 - left * 65536) / 1000000000 = quotient at hquotient
    omega
  · rw [Int.ediv_eq_zero_of_lt (by omega) (by omega)]
    rfl

theorem scaledDelay_eq_iff (h : 0 ≤ elapsed) :
    scaledDelay elapsed = exactDelay elapsed ↔ KeepsScale elapsed := by
  unfold KeepsScale
  by_cases hfits : elapsed < 2 ^ 47
  · have hself : elapsed % 2 ^ 48 = elapsed := Int.emod_eq_of_lt h (by omega)
    rw [scaledDelay_of_lt (by rwa [hself]), hself]
    exact iff_of_true rfl (.inl hfits)
  · rw [exactDelay_of_le (by omega)]
    by_cases hhalf : elapsed % 2 ^ 48 < 2 ^ 47
    · rw [scaledDelay_of_lt hhalf, exactDelay, Time.second_eq]
      omega
    · rw [scaledDelay_of_le (by omega), Time.second_eq]
      split_ifs <;> omega

section Delay

variable {lastSR : UInt32} {receivedNanos : Int64} {now : ℤ}

theorem toInt_durationSince (hlow : 0 ≤ now - receivedNanos.toInt)
    (hhigh : now - receivedNanos.toInt < 2 ^ 63) :
    (durationSince receivedNanos.toInt now).toInt = now - receivedNanos.toInt := by
  unfold durationSince
  rw [Int64.toInt_ofInt_of_le (by omega) (by omega)]
  omega

theorem toNat_toUInt64 (value : Int64) : (value.toUInt64.toNat : ℤ) = value.toInt % 2 ^ 64 := by
  have hlt : (value.toBitVec.toNat : ℤ) < 2 ^ 64 := by exact_mod_cast value.toBitVec.isLt
  show (value.toBitVec.toNat : ℤ) = value.toBitVec.toInt % 2 ^ 64
  rw [BitVec.toInt_eq_toNat_bmod]
  exact ((Int.bmod_emod ..).trans (Int.emod_eq_of_lt (by omega) hlt)).symm

theorem toNat_reportDelay (hlow : 0 ≤ now - receivedNanos.toInt)
    (hhigh : now - receivedNanos.toInt < 2 ^ 63) (hseen : lastSR ≠ 0 ∧ receivedNanos ≠ 0) :
    ((reportDelay lastSR receivedNanos now).toNat : ℤ) = scaledDelay (now - receivedNanos.toInt) := by
  have helapsed := toInt_durationSince hlow hhigh
  have hpos : 0 < durationSince receivedNanos.toInt now ↔ 0 < now - receivedNanos.toInt := by
    rw [Int64.lt_iff_toInt_lt, helapsed]
    rfl
  unfold reportDelay
  dsimp only
  by_cases hzero : 0 < now - receivedNanos.toInt
  · rw [if_pos ⟨hseen.1, hseen.2, hpos.mpr hzero⟩]
    have hscale : (65536 : Int64).toInt = 65536 := rfl
    have hsecond : (Int64.ofInt Time.second).toInt = Time.second := rfl
    have hunits := toNat_toUInt64
      (durationSince receivedNanos.toInt now * 65536 / Int64.ofInt Time.second)
    rw [Int64.toInt_div_of_ne_right _ _ (by decide), Int64.toInt_mul, helapsed, hscale,
      hsecond] at hunits
    rw [scaledDelay, ← hunits]
    generalize (durationSince receivedNanos.toInt now * 65536 /
      Int64.ofInt Time.second).toUInt64 = units
    have htop : (0xffffffff : UInt64).toNat = 4294967295 := rfl
    rw [toNat_min_toUInt32 units (by decide), htop]
    omega
  · rw [if_neg fun h => hzero (hpos.mp h.2.2), show now - receivedNanos.toInt = 0 by omega]
    rfl

/-- The delays that are reported as they are. -/
def DelayKept (lastSR : UInt32) (receivedNanos : Int64) (elapsed : ℤ) : Prop :=
  elapsed * 65536 < Time.second ∨ (lastSR ≠ 0 ∧ receivedNanos ≠ 0) ∧ KeepsScale elapsed

theorem reportDelay_eq_iff (hlow : 0 ≤ now - receivedNanos.toInt)
    (hhigh : now - receivedNanos.toInt < 2 ^ 63) :
    ((reportDelay lastSR receivedNanos now).toNat : ℤ) = exactDelay (now - receivedNanos.toInt) ↔
      DelayKept lastSR receivedNanos (now - receivedNanos.toInt) := by
  unfold DelayKept
  by_cases hseen : lastSR ≠ 0 ∧ receivedNanos ≠ 0
  · rw [toNat_reportDelay hlow hhigh hseen, scaledDelay_eq_iff hlow]
    constructor
    · exact fun hkeeps => .inr ⟨hseen, hkeeps⟩
    · rintro (hsmall | ⟨-, hkeeps⟩)
      · exact keepsScale_of_le (by rw [Time.second_eq] at hsmall ⊢; omega)
      · exact hkeeps
  · have hnone : reportDelay lastSR receivedNanos now = 0 :=
      if_neg fun h => hseen ⟨h.1, h.2.1⟩
    have hzero : ((0 : UInt32).toNat : ℤ) = 0 := rfl
    rw [hnone, hzero, exactDelay, Time.second_eq]
    constructor
    · intro heq
      exact .inl (by omega)
    · rintro (hsmall | ⟨hcounted, -⟩)
      · omega
      · exact absurd hcounted hseen

end Delay

/-! ## The report -/

def reportLoads (destination : Leg) (lastSR : UInt32) (receivedNanos : Int64) : List (Event rtcpSig) :=
  [⟨.inr (.loadLastRemoteSR destination), lastSR⟩,
    ⟨.inr (.loadLastRemoteSRNanos destination), receivedNanos⟩]

theorem delay_of_returns {convert : Float → UInt32} {destination : Leg} {inbound : Stats} {now : ℤ}
    {lastSR : UInt32} {receivedNanos : Int64} {report : ReceptionReport}
    (h : Returns (receptionReport convert destination inbound now)
      (reportLoads destination lastSR receivedNanos) report) :
    report.delay = reportDelay lastSR receivedNanos now := by
  obtain ⟨lastSR', receivedNanos', hevents, rfl⟩ := returns_receptionReport h
  cases hevents
  rfl

/-- **Reception reports saturate.** With fewer than `2 ^ 56` packets received and lost, the fraction and
the total of lost packets are the exact ones, held within their fields. A non-negative time since the
last sender report, in the range of a `Duration`, is reported as the exact delay, held within its field,
exactly if it is less than a unit, or the sender report counts as one and the scaled time keeps clear of
what overflows leave; and among such times the delay does not fall. -/
theorem receptionReport_saturates_iff {convert : Float → UInt32} {destination : Leg}
    {inbound : Stats} {now : ℤ} {lastSR : UInt32} {receivedNanos : Int64} {report : ReceptionReport}
    (hloss : inbound.lost.toNat + inbound.packets.toNat < 2 ^ 56)
    (hlow : 0 ≤ now - receivedNanos.toInt) (hhigh : now - receivedNanos.toInt < 2 ^ 63)
    (h : Returns (receptionReport convert destination inbound now)
      (reportLoads destination lastSR receivedNanos) report) :
    report.fractionLost.toNat =
        (if inbound.packets.toNat + inbound.lost.toNat = 0 then 0
        else min 255 (256 * inbound.lost.toNat / (inbound.packets.toNat + inbound.lost.toNat))) ∧
      report.totalLost.toNat = min inbound.lost.toNat (2 ^ 24 - 1) ∧
      ((report.delay.toNat : ℤ) = exactDelay (now - receivedNanos.toInt) ↔
        DelayKept lastSR receivedNanos (now - receivedNanos.toInt)) ∧
      ∀ (inbound' : Stats) (now' : ℤ) (lastSR' : UInt32) (receivedNanos' : Int64)
        (report' : ReceptionReport),
        Returns (receptionReport convert destination inbound' now')
          (reportLoads destination lastSR' receivedNanos') report' →
        now - receivedNanos.toInt ≤ now' - receivedNanos'.toInt →
        now' - receivedNanos'.toInt < 2 ^ 63 →
        DelayKept lastSR receivedNanos (now - receivedNanos.toInt) →
        DelayKept lastSR' receivedNanos' (now' - receivedNanos'.toInt) →
        report.delay ≤ report'.delay := by
  have hdelay := delay_of_returns h
  obtain ⟨_, _, -, hreport⟩ := returns_receptionReport h
  refine ⟨?_, ?_, ?_, ?_⟩
  · rw [hreport]
    exact toNat_lostFraction hloss
  · rw [hreport]
    exact toNat_min_toUInt32 _ (by decide)
  · rw [hdelay]
    exact reportDelay_eq_iff hlow hhigh
  · intro inbound' now' lastSR' receivedNanos' report' h' hle hhigh' hkept hkept'
    have hexact := (reportDelay_eq_iff hlow hhigh).mpr hkept
    have hexact' := (reportDelay_eq_iff (hlow.trans hle) hhigh').mpr hkept'
    have hmono := exactDelay_mono hle
    rw [hdelay, delay_of_returns h', UInt32.le_iff_toNat_le]
    omega

def lossStats (packets lost : UInt64) : Stats :=
  ⟨packets, 0, lost, 0, 0, 0, 0, 7, 0, none⟩

/-- The report on a snapshot, `elapsed` after a sender report of November 2026. -/
def reportAfter (inbound : Stats) (elapsed : ℤ) : ReceptionReport :=
  ⟨7, lostFraction inbound.packets inbound.lost, (min inbound.lost 0xffffff).toUInt32, 0,
    Float.toUInt32 (max 0 inbound.jitterSamples), 1,
    reportDelay 1 1795000000000000000 (1795000000000000000 + elapsed)⟩

theorem returns_reportAfter (packets lost : UInt64) (elapsed : ℤ) :
    Returns (receptionReport Float.toUInt32 .caller (lossStats packets lost)
        (1795000000000000000 + elapsed))
      (reportLoads .caller 1 1795000000000000000) (reportAfter (lossStats packets lost) elapsed) :=
  .cons (.cons (.nil _))

/-- One packet of four is lost, and the sender report came a second ago. -/
theorem receptionReport_saturates_aSecond :
    (reportAfter (lossStats 3 1) Time.second).fractionLost.toNat = 64 ∧
      (reportAfter (lossStats 3 1) Time.second).totalLost.toNat = 1 ∧
      ((reportAfter (lossStats 3 1) Time.second).delay.toNat : ℤ) = 65536 := by
  obtain ⟨hfraction, htotal, hdelay, -⟩ := receptionReport_saturates_iff
    (show (lossStats 3 1).lost.toNat + (lossStats 3 1).packets.toNat < 2 ^ 56 by decide)
    (by decide) (by decide) (returns_reportAfter 3 1 Time.second)
  refine ⟨hfraction.trans ?_, htotal.trans ?_, (hdelay.mpr (.inr ⟨by decide, ?_⟩)).trans ?_⟩
  · rfl
  · rfl
  · exact keepsScale_of_le (by decide)
  · rfl

/-- The delay is at the top 78 hours after a sender report, and at nine minutes 16 minutes later. -/
theorem receptionReport_wraps :
    Returns (receptionReport Float.toUInt32 .caller (lossStats 3 1)
          (1795000000000000000 + 281000 * Time.second))
        (reportLoads .caller 1 1795000000000000000)
        (reportAfter (lossStats 3 1) (281000 * Time.second)) ∧
      Returns (receptionReport Float.toUInt32 .caller (lossStats 3 1)
          (1795000000000000000 + 282000 * Time.second))
        (reportLoads .caller 1 1795000000000000000)
        (reportAfter (lossStats 3 1) (282000 * Time.second)) ∧
      exactDelay (281000 * Time.second) = 4294967295 ∧
      exactDelay (282000 * Time.second) = 4294967295 ∧
      (reportAfter (lossStats 3 1) (281000 * Time.second)).delay = 4294967295 ∧
      (reportAfter (lossStats 3 1) (282000 * Time.second)).delay = 34407926 := by
  refine ⟨returns_reportAfter _ _ _, returns_reportAfter _ _ _, ?_, ?_, ?_, ?_⟩
  · decide
  · decide
  · rfl
  · rfl

end AixvolinkPbx.Media
