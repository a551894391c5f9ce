import AixvolinkPbx.Media.Window

/-!
# The input of the jitter filter (`internal/media/rtp/stats.go`)

`Observe` feeds its jitter filter with the difference of two transit times, each the arrival of a packet
in clock samples less its RTP timestamp. Both parts wrap. The nanoseconds since the epoch are multiplied
by the clock rate in 64 bits, which overflow every 26 days; what is left is divided, so the samples lost
(`lostSamples`) jump at an overflow and waver in between (`lostSamples_bounds`). The timestamp is
subtracted as a number of 64 bits, so its own wrap counts in full.

1. `observe_transit` and `observeAll_repeated`: what `Observe` keeps from one packet to the next one that
   is no repetition.
2. `toInt_transitDifference`: what is fed to the filter, in integers.
3. `jitter_input_exact_iff`: it is the exact difference exactly if both packets lose equally many samples
   and their timestamps do not wrap, or if the two differences are opposite.
-/

namespace AixvolinkPbx.Media

variable {ρ : Type}

/-! ## What `Observe` keeps for the next packet -/

/-- What a packet feeds to the filter: nothing, if none has been counted. -/
def Tracker.fed (t : Tracker) (packet : Packet ρ) (receivedAt : ℤ) : Option Int64 :=
  if 0 < t.published.packets then
    some (transitDifference (transitOf t.clockRate packet receivedAt) t.transit)
  else none

theorem Tracker.measure_jitter (t : Tracker) (packet : Packet ρ) (receivedAt : ℤ) :
    (t.measure packet receivedAt).jitter =
      (t.fed packet receivedAt).elim t.jitter (jitterFilter t.jitter) := by
  unfold measure fed
  by_cases hcounted : 0 < t.published.packets
  · rw [if_pos hcounted]
    dsimp only
    rw [if_pos hcounted]
    rfl
  · rw [if_neg hcounted]
    dsimp only
    rw [if_neg hcounted]
    rfl

/-- The fields the transit times rest on. -/
structure SameTiming (t t' : Tracker) : Prop where
  clockRate : t'.clockRate = t.clockRate
  transit : t'.transit = t.transit
  jitter : t'.jitter = t.jitter
  packets : t'.published.packets = t.published.packets

theorem SameTiming.fed {t t' : Tracker} (h : SameTiming t t') (packet : Packet ρ) (receivedAt : ℤ) :
    t'.fed packet receivedAt = t.fed packet receivedAt := by
  unfold Tracker.fed
  rw [h.packets, h.clockRate, h.transit]

theorem Tracker.sameTiming_advance (t : Tracker) (packet : Packet ρ) :
    SameTiming t (t.advance packet).2 := by
  by_cases hs : t.started = true
  · rw [t.advance_eq hs]
    unfold place switch
    dsimp only
    split_ifs <;> exact ⟨rfl, rfl, rfl, rfl⟩
  · unfold advance
    rw [if_pos (by simpa using hs)]
    exact ⟨rfl, rfl, rfl, rfl⟩

section Observe

variable (t : Tracker) (packet : Packet ρ) (receivedAt : ℤ) (wireBytes : ℕ)

theorem Tracker.observe_packets :
    (t.observe packet receivedAt wireBytes).2.published.packets = t.published.packets + 1 ∧
      (t.observe packet receivedAt wireBytes).2.clockRate = t.clockRate := by
  by_cases hslot : t.slot (windowIndex packet.sequenceNumber) = some packet.sequenceNumber
  · rw [observe_of_slot hslot]
    exact ⟨rfl, rfl⟩
  · have hsame := (t.remember packet.sequenceNumber).sameTiming_advance packet
    rw [observe_of_not_slot hslot]
    exact ⟨congrArg (· + 1) hsame.packets, hsame.clockRate⟩

variable {t packet receivedAt wireBytes}

/-- A packet that is no repetition leaves its transit time, and its difference in the jitter. -/
theorem Tracker.observe_transit (h : (t.observe packet receivedAt wireBytes).1 ≠ .duplicate) :
    (t.observe packet receivedAt wireBytes).2.transit = transitOf t.clockRate packet receivedAt ∧
      (t.observe packet receivedAt wireBytes).2.jitter =
        (t.fed packet receivedAt).elim t.jitter (jitterFilter t.jitter) := by
  have hsame : SameTiming t ((t.remember packet.sequenceNumber).advance packet).2 := by
    obtain ⟨hrate, htransit, hjitter, hpackets⟩ :=
      (t.remember packet.sequenceNumber).sameTiming_advance packet
    exact ⟨hrate, htransit, hjitter, hpackets⟩
  rw [Ne, observe_duplicate_iff] at h
  rw [observe_of_not_slot h, ← hsame.clockRate, ← hsame.fed, ← hsame.jitter, ← measure_jitter]
  exact ⟨rfl, rfl⟩

/-- A repetition leaves both as they are. -/
theorem Tracker.observe_repeated (h : (t.observe packet receivedAt wireBytes).1 = .duplicate) :
    (t.observe packet receivedAt wireBytes).2.transit = t.transit := by
  rw [observe_duplicate_iff] at h
  rw [observe_of_slot h]
  rfl

end Observe

theorem Tracker.observeAll_packets (stream : List (Arrival ρ)) : ∀ t : Tracker,
    (t.observeAll stream).2.published.packets = t.published.packets + UInt64.ofNat stream.length ∧
      (t.observeAll stream).2.clockRate = t.clockRate := by
  induction stream with
  | nil =>
    intro t
    exact ⟨(UInt64.add_zero _).symm, rfl⟩
  | cons a rest ih =>
    intro t
    obtain ⟨hpackets, hrate⟩ := t.observe_packets a.packet a.receivedAt a.wireBytes
    obtain ⟨ihpackets, ihrate⟩ := ih (t.observe a.packet a.receivedAt a.wireBytes).2
    rw [observeAll_cons]
    dsimp only
    rw [ihpackets, ihrate, hpackets, hrate, List.length_cons, UInt64.ofNat_add]
    refine ⟨?_, rfl⟩
    rw [UInt64.add_assoc, UInt64.add_comm 1]
    rfl

theorem Tracker.observeAll_repeated (stream : List (Arrival ρ)) : ∀ t : Tracker,
    (∀ c ∈ (t.observeAll stream).1, c = .duplicate) → (t.observeAll stream).2.transit = t.transit := by
  induction stream with
  | nil =>
    intro t _
    rfl
  | cons a rest ih =>
    intro t h
    rw [observeAll_cons] at h ⊢
    obtain ⟨hfirst, hrest⟩ := List.forall_mem_cons.mp h
    exact (ih _ hrest).trans (observe_repeated hfirst)

/-! ## Samples -/

/-- The arrival in samples of 8000 Hz. -/
def samples (receivedAt : ℤ) : ℤ := receivedAt * 8000 / Time.second

/-- The same, with the product taken in 64 bits and the quotient cut off. -/
def wrappedSamples (receivedAt : ℤ) : ℤ := ((receivedAt * 8000).bmod (2 ^ 64)).tdiv Time.second

/-- The samples that an arrival loses. -/
def lostSamples (receivedAt : ℤ) : ℤ := samples receivedAt - wrappedSamples receivedAt

def overflows (receivedAt : ℤ) : ℤ := (receivedAt * 8000 + 2 ^ 63) / 2 ^ 64

theorem bmod_product (receivedAt : ℤ) :
    (receivedAt * 8000).bmod (2 ^ 64) = receivedAt * 8000 - 2 ^ 64 * overflows receivedAt := by
  unfold overflows Int.bmod
  dsimp only
  split_ifs <;> omega

/-- A quotient that is cut off is less than one away from the exact one. -/
theorem tdiv_second_bounds (n : ℤ) :
    n - Time.second < Time.second * n.tdiv Time.second ∧
      Time.second * n.tdiv Time.second < n + Time.second := by
  rw [Int.tdiv_eq_ediv, Time.second_eq]
  split_ifs
  · omega
  · rw [show Int.sign 1000000000 = 1 from rfl]
    omega

/-- An overflow loses `2 ^ 64` of the product, and a division at most two samples more or less. -/
theorem lostSamples_bounds (receivedAt : ℤ) :
    2 ^ 64 * overflows receivedAt - 2 * Time.second < Time.second * lostSamples receivedAt ∧
      Time.second * lostSamples receivedAt < 2 ^ 64 * overflows receivedAt + Time.second := by
  have hwrapped := tdiv_second_bounds ((receivedAt * 8000).bmod (2 ^ 64))
  rw [bmod_product, Time.second_eq] at hwrapped
  unfold lostSamples samples wrappedSamples
  rw [bmod_product, Time.second_eq]
  omega

theorem wrappedSamples_bounds (receivedAt : ℤ) :
    -2 ^ 34 < wrappedSamples receivedAt ∧ wrappedSamples receivedAt < 2 ^ 34 := by
  have hwrapped := tdiv_second_bounds ((receivedAt * 8000).bmod (2 ^ 64))
  have hlow := Int.le_bmod (x := receivedAt * 8000) (m := 2 ^ 64) (by decide)
  have hhigh := Int.bmod_lt (x := receivedAt * 8000) (m := 2 ^ 64) (by decide)
  unfold wrappedSamples
  rw [Time.second_eq] at hwrapped ⊢
  omega

/-! ## The difference in integers -/

theorem bmod_of_int64 {n : ℤ} (hlow : -2 ^ 63 ≤ n) (hhigh : n < 2 ^ 63) : n.bmod (2 ^ 64) = n :=
  Int.bmod_eq_of_le (by omega) (by omega)

theorem toInt_transitOf (packet : Packet ρ) (receivedAt : ℤ) :
    (transitOf 8000 packet receivedAt).toInt =
      wrappedSamples receivedAt - packet.timestamp.toNat := by
  have hrate : (Int64.ofNat (8000 : UInt32).toNat).toInt = 8000 := rfl
  have hsecond : (Int64.ofInt Time.second).toInt = Time.second := rfl
  have hproduct : (Int64.ofInt receivedAt * Int64.ofNat (8000 : UInt32).toNat).toInt =
      (receivedAt * 8000).bmod (2 ^ 64) := by
    rw [Int64.toInt_mul, hrate, Int64.toInt_ofInt]
    exact Int.bmod_mul_bmod ..
  have htimestamp : (Int64.ofNat packet.timestamp.toNat).toInt = packet.timestamp.toNat := by
    have hlt := packet.timestamp.toNat_lt
    exact Int64.toInt_ofNat_of_lt (by omega)
  have hbounds := wrappedSamples_bounds receivedAt
  have hlt := packet.timestamp.toNat_lt
  have harrival : (Int64.ofInt receivedAt * Int64.ofNat (8000 : UInt32).toNat /
      Int64.ofInt Time.second).toInt = wrappedSamples receivedAt := by
    rw [Int64.toInt_div_of_ne_right _ _ (by decide), hproduct, hsecond]
    rfl
  unfold transitOf
  rw [Int64.toInt_sub, harrival, htimestamp]
  exact bmod_of_int64 (by omega) (by omega)

/-- The difference of two transit times does not overflow. -/
theorem toInt_transitDifference (first second : Packet ρ) (firstAt secondAt : ℤ) :
    (transitDifference (transitOf 8000 second secondAt) (transitOf 8000 first firstAt)).toInt =
      |wrappedSamples secondAt - wrappedSamples firstAt -
        ((second.timestamp.toNat : ℤ) - first.timestamp.toNat)| := by
  have hfirst := wrappedSamples_bounds firstAt
  have hsecond := wrappedSamples_bounds secondAt
  have hlt := first.timestamp.toNat_lt
  have hlt' := second.timestamp.toNat_lt
  have hdifference : (transitOf 8000 second secondAt - transitOf 8000 first firstAt).toInt =
      wrappedSamples secondAt - wrappedSamples firstAt -
        ((second.timestamp.toNat : ℤ) - first.timestamp.toNat) := by
    rw [Int64.toInt_sub, toInt_transitOf, toInt_transitOf]
    rw [bmod_of_int64 (by omega) (by omega)]
    omega
  unfold transitDifference
  split_ifs with hneg
  · rw [Int64.lt_iff_toInt_lt, hdifference, Int64.toInt_zero] at hneg
    rw [Int64.toInt_neg, hdifference, abs_of_neg hneg]
    exact bmod_of_int64 (by omega) (by omega)
  · rw [Int64.lt_iff_toInt_lt, hdifference, Int64.toInt_zero] at hneg
    rw [hdifference, abs_of_nonneg (by omega)]

/-- The signed difference of two timestamps. -/
def timestampDistance (first second : UInt32) : ℤ := (second - first).toInt32.toInt

theorem timestampDistance_cases (first second : UInt32) :
    let distance : ℤ := (second.toNat : ℤ) - first.toNat
    timestampDistance first second = distance ∧ -2 ^ 31 ≤ distance ∧ distance < 2 ^ 31 ∨
      timestampDistance first second = distance - 2 ^ 32 ∧ 2 ^ 31 ≤ distance ∨
      timestampDistance first second = distance + 2 ^ 32 ∧ distance < -2 ^ 31 := by
  have hlt := first.toNat_lt
  have hlt' := second.toNat_lt
  have hbits : timestampDistance first second = (second - first).toBitVec.toInt := rfl
  rw [hbits, BitVec.toInt_eq_toNat_bmod, UInt32.toNat_toBitVec, UInt32.toNat_sub, Int.bmod]
  dsimp only
  split_ifs <;> omega

/-- An overflow of the product loses more samples than a wrap of the timestamps adds. -/
theorem lostSamples_sub_ne (firstAt secondAt : ℤ) :
    lostSamples secondAt - lostSamples firstAt ≠ 2 ^ 32 ∧
      lostSamples secondAt - lostSamples firstAt ≠ -2 ^ 32 := by
  have hfirst := lostSamples_bounds firstAt
  have hsecond' := lostSamples_bounds secondAt
  rw [Time.second_eq] at hfirst hsecond'
  rcases lt_trichotomy (overflows secondAt) (overflows firstAt) with hlt | heq | hgt
  · omega
  · omega
  · omega

/-- So the two wraps do not make up for each other. -/
theorem difference_eq_iff (firstAt secondAt : ℤ) (first second : UInt32) :
    wrappedSamples secondAt - wrappedSamples firstAt - ((second.toNat : ℤ) - first.toNat) =
        samples secondAt - samples firstAt - timestampDistance first second ↔
      lostSamples secondAt = lostSamples firstAt ∧
        -2 ^ 31 ≤ (second.toNat : ℤ) - first.toNat ∧ (second.toNat : ℤ) - first.toNat < 2 ^ 31 := by
  have hne := lostSamples_sub_ne firstAt secondAt
  unfold lostSamples at hne ⊢
  rcases timestampDistance_cases first second with ⟨heq, hfits⟩ | ⟨heq, habove⟩ | ⟨heq, hbelow⟩
  · rw [heq]
    omega
  · rw [heq]
    omega
  · rw [heq]
    omega

/-! ## The input of the filter -/

/-- The tracker of an endpoint after a stream. -/
def trackerAfter (stream : List (Arrival ρ)) : Tracker := ((newTracker 8000).observeAll stream).2

theorem packets_trackerAfter (stream : List (Arrival ρ)) :
    0 < (trackerAfter stream).published.packets ↔ ¬2 ^ 64 ∣ stream.length := by
  have hpackets : (trackerAfter stream).published.packets = 0 + UInt64.ofNat stream.length :=
    ((newTracker 8000).observeAll_packets stream).1
  rw [hpackets, UInt64.zero_add, UInt64.lt_iff_toNat_lt, UInt64.toNat_ofNat', UInt64.toNat_zero]
  omega

section Consecutive

variable {before between : List (Arrival ρ)} {a : Arrival ρ}

theorem transit_trackerAfter
    (ha : ((trackerAfter before).observe a.packet a.receivedAt a.wireBytes).1 ≠ .duplicate)
    (hbetween : ∀ c ∈ ((trackerAfter (before ++ [a])).observeAll between).1, c = .duplicate) :
    (trackerAfter (before ++ a :: between)).transit = transitOf 8000 a.packet a.receivedAt := by
  have hrate : (trackerAfter before).clockRate = 8000 :=
    ((newTracker 8000).observeAll_packets before).2
  have hlast : trackerAfter (before ++ [a]) =
      ((trackerAfter before).observe a.packet a.receivedAt a.wireBytes).2 :=
    Tracker.observeAll_append before [a] (newTracker 8000)
  have hsplit : trackerAfter (before ++ a :: between) =
      ((trackerAfter (before ++ [a])).observeAll between).2 := by
    rw [List.append_cons]
    exact Tracker.observeAll_append (before ++ [a]) between (newTracker 8000)
  rw [hsplit, Tracker.observeAll_repeated between _ hbetween, hlast, (Tracker.observe_transit ha).1,
    hrate]

theorem fed_trackerAfter
    (ha : ((trackerAfter before).observe a.packet a.receivedAt a.wireBytes).1 ≠ .duplicate)
    (hbetween : ∀ c ∈ ((trackerAfter (before ++ [a])).observeAll between).1, c = .duplicate)
    (packet : Packet ρ) (receivedAt : ℤ) :
    ((trackerAfter (before ++ a :: between)).fed packet receivedAt).map Int64.toInt =
      if 2 ^ 64 ∣ (before ++ a :: between).length then none
      else some |wrappedSamples receivedAt - wrappedSamples a.receivedAt -
        ((packet.timestamp.toNat : ℤ) - a.packet.timestamp.toNat)| := by
  have hrate : (trackerAfter (before ++ a :: between)).clockRate = 8000 :=
    ((newTracker 8000).observeAll_packets _).2
  unfold Tracker.fed
  rw [transit_trackerAfter ha hbetween, hrate]
  by_cases hcounted : 2 ^ 64 ∣ (before ++ a :: between).length
  · rw [if_pos hcounted, if_neg fun hpos => (packets_trackerAfter _).mp hpos hcounted]
    rfl
  · rw [if_neg hcounted, if_pos ((packets_trackerAfter _).mpr hcounted), Option.map_some,
      toInt_transitDifference]

end Consecutive

/-- The distance of two arrivals in samples less that of their timestamps. -/
def exactDifference (a b : Arrival ρ) : ℤ :=
  samples b.receivedAt - samples a.receivedAt -
    timestampDistance a.packet.timestamp b.packet.timestamp

/-- **The input of the jitter filter.** For two packets with nothing but repetitions between them, the
filter gets the distance of their arrivals in samples less the signed distance of their timestamps
exactly if the packet counter has not just come round to 0 and one of these holds: both arrivals lose
equally many samples and the timestamps do not wrap, or the computed difference is the opposite of the
exact one. -/
theorem jitter_input_exact_iff (before between : List (Arrival ρ)) (a b : Arrival ρ)
    (ha : ((trackerAfter before).observe a.packet a.receivedAt a.wireBytes).1 ≠ .duplicate)
    (hbetween : ∀ c ∈ ((trackerAfter (before ++ [a])).observeAll between).1, c = .duplicate)
    (hb : ((trackerAfter (before ++ a :: between)).observe b.packet b.receivedAt b.wireBytes).1 ≠
      .duplicate) :
    let t := trackerAfter (before ++ a :: between)
    let distance : ℤ := (b.packet.timestamp.toNat : ℤ) - a.packet.timestamp.toNat
    (t.observe b.packet b.receivedAt b.wireBytes).2.jitter =
        (t.fed b.packet b.receivedAt).elim t.jitter (jitterFilter t.jitter) ∧
      ((t.fed b.packet b.receivedAt).map Int64.toInt = some |exactDifference a b| ↔
        ¬2 ^ 64 ∣ (before ++ a :: between).length ∧
          (lostSamples b.receivedAt = lostSamples a.receivedAt ∧
              -2 ^ 31 ≤ distance ∧ distance < 2 ^ 31 ∨
            wrappedSamples b.receivedAt - wrappedSamples a.receivedAt - distance =
              -exactDifference a b)) := by
  intro t distance
  refine ⟨(Tracker.observe_transit hb).2, ?_⟩
  rw [fed_trackerAfter ha hbetween]
  by_cases hcounted : 2 ^ 64 ∣ (before ++ a :: between).length
  · rw [if_pos hcounted]
    exact iff_of_false (by simp) fun h => h.1 hcounted
  · rw [if_neg hcounted, Option.some_inj, abs_eq_abs, exactDifference,
      difference_eq_iff]
    exact ⟨fun h => ⟨hcounted, h⟩, fun h => h.2⟩

def arrivalAt (number : ℕ) (timestamp : UInt32) (receivedAt : ℤ) : Arrival Unit where
  number := number
  packet := ⟨2, 0, UInt16.ofNat number, timestamp, 7, [], ()⟩
  receivedAt := receivedAt
  wireBytes := 172
  carries := rfl

/-- Two packets of 20 ms, the second one 5 ms late. -/
theorem jitter_input_exact_late :
    ((trackerAfter [arrivalAt 0 0 1795000000000000000]).fed (arrivalAt 1 160 1795000000025000000).packet
      1795000000025000000).map Int64.toInt = some 40 := by
  have hiff := (jitter_input_exact_iff [] [] (arrivalAt 0 0 1795000000000000000)
    (arrivalAt 1 160 1795000000025000000) (by decide) (by simp) (by decide)).2
  refine (hiff.mpr ⟨by simp, .inl ?_⟩).trans ?_
  · decide
  · decide

/-- A packet that comes in time after another one feeds `difference` instead of 0. -/
def Disturbs (a b : Arrival Unit) (difference : ℤ) : Prop :=
  ((trackerAfter [a]).observe b.packet b.receivedAt b.wireBytes).1 = .new ∧
    exactDifference a b = 0 ∧
    ((trackerAfter [a]).fed b.packet b.receivedAt).map Int64.toInt = some difference

instance (a b : Arrival Unit) (difference : ℤ) : Decidable (Disturbs a b difference) :=
  inferInstanceAs (Decidable (_ ∧ _))

/-- Packets of 20 ms at the quotient that is cut off, at the overflow of November 19, 2026, and at a
wrap of the timestamps. -/
theorem jitter_input_wraps :
    Disturbs (arrivalAt 0 0 1795000000000000000) (arrivalAt 1 160 1795000000020005000) 1 ∧
    Disturbs (arrivalAt 0 0 1795098782670000000) (arrivalAt 1 160 1795098782690000000) 18446744072 ∧
    Disturbs (arrivalAt 0 4294967200 1795000000000000000) (arrivalAt 1 64 1795000000020000000)
      4294967296 := by
  decide

end AixvolinkPbx.Media
