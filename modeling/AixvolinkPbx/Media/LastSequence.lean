import AixvolinkPbx.Media.Rtcp
import AixvolinkPbx.Media.Window

/-!
# The extended sequence number in reception reports (`internal/media/rtp/stats.go`, `rtcp.go`)

A reception report is to carry the highest sequence number received, extended by the cycles counted.
`publishArrival` extends the number of the packet at hand instead. On a stream whose numbers stay
close to each other (`OneSpan`) the cycle counter is right (`Extends`), so the published number is the
highest one exactly after the packets that are not late (`lastSequence_eq_iff`); a late packet takes
it back, and one from before a wrap takes it forward by almost a cycle (`lastSequence_late`).
-/

namespace AixvolinkPbx.Media

open Prog (Returns)

variable {ρ : Type}

/-! ## Streams -/

/-- Numbers of which the next is at most 32767 above the highest so far and at most 127 below it. -/
def Close : ℕ → List ℕ → Prop
  | _, [] => True
  | top, number :: rest => (number ≤ top + 32767 ∧ top ≤ number + 127) ∧ Close (max top number) rest

instance Close.decidable : ∀ (top : ℕ) (numbers : List ℕ), Decidable (Close top numbers)
  | _, [] => instDecidableTrue
  | top, number :: rest =>
    haveI := Close.decidable (max top number) rest
    inferInstanceAs (Decidable (_ ∧ _))

/-- Close numbers that span less than a cycle. -/
def OneSpan (numbers : List ℕ) : Prop :=
  Close (numbers.headD 0) numbers.tail ∧ ∀ m ∈ numbers, ∀ n ∈ numbers, m < n + 65536

instance (numbers : List ℕ) : Decidable (OneSpan numbers) := inferInstanceAs (Decidable (_ ∧ _))

/-- What `Snapshot` has for `LastSequence` after a stream. -/
def lastSequence (clockRate : UInt32) (stream : List (Arrival ρ)) : UInt32 :=
  ((newTracker clockRate).observeAll stream).2.snapshot.lastSequence

/-! ## The cycle counter -/

/-- The next number of a stream, given those received. -/
structure Near (received : List ℕ) (number : ℕ) : Prop where
  up : number ≤ highest received + 32767
  down : highest received ≤ number + 127
  span : ∀ n ∈ received, n < number + 65536 ∧ number < n + 65536

/-- The tracker after the numbers `received`, of which `first` came first. -/
structure Extends (first : ℕ) (received : List ℕ) (t : Tracker) : Prop where
  started : t.started = true
  head : first ∈ received
  range : highest received < first + 65536
  cycles : t.cycles.toNat = (highest received / 65536 - first / 65536) * 65536
  maxSeq : t.maxSeq = UInt16.ofNat (highest received)
  known : ∀ i number, t.slot i = some number → ∃ n ∈ received, number = UInt16.ofNat n

section Extends

variable {first : ℕ} {received : List ℕ} {t : Tracker} {number : ℕ}

theorem Extends.again (h : Extends first received t) (hmem : number ∈ received) :
    Extends first (received ++ [number]) t := by
  have htop : highest (received ++ [number]) = highest received := by
    rw [highest_append, max_eq_left (le_highest hmem)]
  constructor
  · exact h.started
  · exact List.mem_append_left _ h.head
  · rw [htop]
    exact h.range
  · rw [htop, h.cycles]
  · rw [htop, h.maxSeq]
  · intro i s hs
    obtain ⟨n, hn, rfl⟩ := h.known i s hs
    exact ⟨n, List.mem_append_left _ hn, rfl⟩

theorem Extends.known_remember (h : Extends first received t) (number : ℕ) :
    ∀ i s, (t.remember (UInt16.ofNat number)).slot i = some s →
      ∃ n ∈ received ++ [number], s = UInt16.ofNat n := by
  intro i s hs
  rw [Tracker.slot_remember] at hs
  split_ifs at hs
  · exact ⟨number, by simp, (Option.some.inj hs).symm⟩
  · obtain ⟨n, hn, rfl⟩ := h.known i s hs
    exact ⟨n, List.mem_append_left _ hn, rfl⟩

theorem Tracker.place_fields {top : ℕ} {packet : Packet ρ} (hmax : t.maxSeq = UInt16.ofNat top)
    (hc : packet.sequenceNumber = UInt16.ofNat number) (hup : number ≤ top + 32767)
    (hdown : top ≤ number + 127) :
    (t.place packet).2.maxSeq = UInt16.ofNat (max top number) ∧
      (t.place packet).2.cycles =
        if top < number ∧ number % 65536 < top % 65536 then t.cycles + 65536 else t.cycles := by
  have hdelta := delta_eq hup hdown
  rw [← hc, ← hmax] at hdelta
  have hlt : packet.sequenceNumber < t.maxSeq ↔ number % 65536 < top % 65536 := by
    rw [hc, hmax, UInt16.lt_iff_toNat_lt, UInt16.toNat_ofNat', UInt16.toNat_ofNat']
  unfold place
  dsimp only
  rw [hdelta]
  by_cases habove : top < number
  · rw [if_pos (by omega), max_eq_right habove.le]
    refine ⟨hc, ?_⟩
    simp only [habove, true_and, hlt]
  · have hkeep : (if top < number ∧ number % 65536 < top % 65536 then t.cycles + 65536
        else t.cycles) = t.cycles := if_neg fun hwrap => habove hwrap.1
    rw [if_neg (by omega), max_eq_left (by omega), hkeep]
    by_cases hbelow : (number : ℤ) - top < 0
    · rw [if_pos hbelow]
      exact ⟨hmax, rfl⟩
    · rw [if_neg hbelow]
      exact ⟨hmax, rfl⟩

theorem Extends.place (h : Extends first received t) (hn : Near received number) (packet : Packet ρ)
    (hc : packet.sequenceNumber = UInt16.ofNat number) :
    Extends first (received ++ [number])
      ((t.remember packet.sequenceNumber).advance packet).2 := by
  obtain ⟨hstarted, hmaxSeq, hcycles, -, -, -, -, -⟩ :=
    (t.remember packet.sequenceNumber).switch_fields packet
  obtain ⟨-, hvalid, hseen⟩ := (t.remember packet.sequenceNumber).advance_window packet
  obtain ⟨hmax', hcycles'⟩ := Tracker.place_fields (hmaxSeq.trans h.maxSeq) hc hn.up hn.down
  constructor
  · rw [Tracker.advance_eq (t := t.remember packet.sequenceNumber) h.started]
    unfold Tracker.place
    dsimp only
    split_ifs <;> exact hstarted.trans h.started
  · exact List.mem_append_left _ h.head
  · rw [highest_append]
    exact max_lt h.range (hn.span first h.head).2
  · rw [Tracker.advance_eq (t := t.remember packet.sequenceNumber) h.started, hcycles', hcycles,
      highest_append]
    have hrange := h.range
    have hspan := (hn.span first h.head).2
    have hfirst := le_highest h.head
    have hup := hn.up
    have hold : (t.remember packet.sequenceNumber).cycles.toNat =
        (highest received / 65536 - first / 65536) * 65536 := h.cycles
    split_ifs with hwrap
    · rw [UInt32.toNat_add, hold]
      have hconst : (65536 : UInt32).toNat = 65536 := rfl
      omega
    · rw [hold]
      omega
  · rw [Tracker.advance_eq (t := t.remember packet.sequenceNumber) h.started, hmax', highest_append]
  · intro i s hs
    rw [Tracker.slot, hvalid, hseen] at hs
    rw [hc] at hs
    exact h.known_remember number i s hs

theorem Extends.observe (h : Extends first received t) (a : Arrival ρ) (hn : Near received a.number) :
    Extends first (received ++ [a.number]) (t.observe a.packet a.receivedAt a.wireBytes).2 := by
  by_cases hslot : t.slot (windowIndex a.packet.sequenceNumber) = some a.packet.sequenceNumber
  · -- within a cycle the 16 bits tell the number
    obtain ⟨n, hmem, hwire⟩ := h.known _ _ hslot
    have heq : n = a.number := by
      obtain ⟨hbelow, habove⟩ := hn.span n hmem
      have hnat := congrArg UInt16.toNat (a.carries.symm.trans hwire)
      simp only [UInt16.toNat_ofNat'] at hnat
      omega
    rw [Tracker.observe_of_slot hslot]
    have hagain := h.again (heq ▸ hmem)
    exact ⟨hagain.started, hagain.head, hagain.range, hagain.cycles, hagain.maxSeq, hagain.known⟩
  · rw [Tracker.observe_of_not_slot hslot]
    have hplace := h.place hn a.packet a.carries
    exact ⟨hplace.started, hplace.head, hplace.range, hplace.cycles, hplace.maxSeq, hplace.known⟩

theorem extends_first (clockRate : UInt32) (a : Arrival ρ) :
    Extends a.number [a.number]
      ((newTracker clockRate).observe a.packet a.receivedAt a.wireBytes).2 := by
  have hhigh : highest [a.number] = a.number := by simp [highest]
  constructor
  · rfl
  · simp
  · rw [hhigh]
    omega
  · rw [hhigh, Nat.sub_self]
    rfl
  · rw [hhigh]
    exact a.carries
  · intro i s hs
    rw [Tracker.observe_slot] at hs
    split_ifs at hs
    · exact ⟨a.number, by simp, (Option.some.inj hs).symm.trans a.carries⟩
    · cases hs

theorem Extends.observeAll (rest : List (Arrival ρ)) :
    ∀ {received : List ℕ} {t : Tracker}, Extends first received t →
      Close (highest received) (rest.map (·.number)) →
      (∀ m ∈ received ++ rest.map (·.number), ∀ n ∈ received ++ rest.map (·.number),
        m < n + 65536) →
      Extends first (received ++ rest.map (·.number)) (t.observeAll rest).2 := by
  induction rest with
  | nil =>
    intro received t h _ _
    simpa using h
  | cons a rest ih =>
    intro received t h hclose hspan
    obtain ⟨⟨hup, hdown⟩, hrest⟩ := hclose
    have hnear : Near received a.number := by
      refine ⟨hup, hdown, fun n hn => ⟨?_, ?_⟩⟩
      · exact hspan n (List.mem_append_left _ hn) a.number (by simp)
      · exact hspan a.number (by simp) n (List.mem_append_left _ hn)
    rw [← highest_append] at hrest
    rw [List.map_cons, List.append_cons] at hspan ⊢
    rw [Tracker.observeAll_cons]
    exact ih (h.observe a hnear) hrest hspan

end Extends

theorem extends_stream (clockRate : UInt32) (first : Arrival ρ) (rest : List (Arrival ρ))
    (h : OneSpan ((first :: rest).map (·.number))) :
    Extends first.number ((first :: rest).map (·.number))
      ((newTracker clockRate).observeAll (first :: rest)).2 := by
  obtain ⟨hclose, hspan⟩ := h
  have hhigh : highest [first.number] = first.number := by simp [highest]
  rw [Tracker.observeAll_cons]
  refine Extends.observeAll rest (extends_first clockRate first) ?_ hspan
  rw [hhigh]
  exact hclose

/-! ## The number that is published -/

/-- `publishArrival` extends the number of the packet at hand. -/
theorem Tracker.observe_lastSequence (t : Tracker) (packet : Packet ρ) (receivedAt : ℤ)
    (wireBytes : ℕ) :
    (t.observe packet receivedAt wireBytes).2.published.lastSequence =
      (t.observe packet receivedAt wireBytes).2.cycles + packet.sequenceNumber.toUInt32 := by
  unfold observe
  dsimp only
  split_ifs <;> rfl

/-- The published number is the highest one exactly after a packet that is not late, if the numbers are
counted from the cycle of the first packet. -/
theorem lastSequence_eq_iff (clockRate : UInt32) {stream before rest : List (Arrival ρ)}
    {first a : Arrival ρ} (hcons : stream = first :: rest) (hsnoc : stream = before ++ [a])
    (h : OneSpan (stream.map (·.number))) :
    (lastSequence clockRate stream).toNat = highest (stream.map (·.number)) % 2 ^ 32 ↔
      a.number = highest (stream.map (·.number)) ∧ first.number / 65536 % 65536 = 0 := by
  have hextends : Extends first.number (stream.map (·.number))
      ((newTracker clockRate).observeAll stream).2 := by
    subst hcons
    exact extends_stream clockRate first rest h
  have hlast : lastSequence clockRate stream =
      ((newTracker clockRate).observeAll stream).2.cycles + a.packet.sequenceNumber.toUInt32 := by
    subst hsnoc
    show ((newTracker clockRate).observeAll (before ++ [a])).2.published.lastSequence = _
    rw [Tracker.observeAll_append, Tracker.observeAll_cons, Tracker.observeAll_nil,
      Tracker.observe_lastSequence]
  have hmem : a.number ∈ stream.map (·.number) := by
    rw [hsnoc]
    simp
  have hle := le_highest hmem
  have hspan := h.2 _ (highest_mem (List.ne_nil_of_mem hmem)) _ hmem
  have hrange := hextends.range
  have hfirst := le_highest hextends.head
  have hwire : a.packet.sequenceNumber.toUInt32.toNat = a.number % 65536 := by
    rw [UInt16.toNat_toUInt32, a.carries, UInt16.toNat_ofNat']
  rw [hlast, UInt32.toNat_add, hwire, hextends.cycles]
  omega

/-! ## Streams in order -/

theorem close_of_isPrefix {l l' : List ℕ} (hl : l <+: l') :
    ∀ {top : ℕ}, Close top l' → Close top l := by
  obtain ⟨r, rfl⟩ := hl
  induction l with
  | nil => exact fun _ => trivial
  | cons n l ih => exact fun h => ⟨h.1, ih h.2⟩

theorem OneSpan.of_isPrefix {l l' : List ℕ} (hl : l <+: l') (h : OneSpan l') : OneSpan l := by
  refine ⟨?_, fun m hm n hn => h.2 m (hl.subset hm) n (hl.subset hn)⟩
  cases l with
  | nil => trivial
  | cons first rest =>
    obtain ⟨r, rfl⟩ := hl
    exact close_of_isPrefix (List.prefix_append rest r) h.1

/-- No packet is late exactly if each is the highest when it comes. -/
theorem inOrder_iff (stream : List (Arrival ρ)) :
    stream.Pairwise (fun a b => a.number ≤ b.number) ↔ ∀ before a, before ++ [a] <+: stream →
      a.number = highest ((before ++ [a]).map (·.number)) := by
  induction stream using List.reverseRecOn with
  | nil =>
    constructor
    · intro _ before a hinit
      simpa using hinit.length_le
    · exact fun _ => .nil
  | append_singleton stream x ih =>
    have htop : highest ((stream ++ [x]).map (·.number)) =
        max (highest (stream.map (·.number))) x.number := by
      rw [List.map_append, List.map_singleton, highest_append]
    have hall : (∀ b ∈ stream, b.number ≤ x.number) ↔
        x.number = highest ((stream ++ [x]).map (·.number)) := by
      rw [htop, eq_comm, max_eq_right_iff]
      constructor
      · intro hle
        by_cases hnil : stream.map (·.number) = []
        · rw [hnil]
          exact Nat.zero_le _
        · obtain ⟨b, hb, heq⟩ := List.mem_map.mp (highest_mem hnil)
          rw [← heq]
          exact hle b hb
      · intro hle b hb
        exact (le_highest (List.mem_map_of_mem hb)).trans hle
    rw [List.pairwise_append, ih]
    simp only [List.pairwise_singleton, List.mem_singleton, forall_eq, true_and, hall]
    constructor
    · rintro ⟨hbefore, hx⟩ before a hinit
      rcases List.prefix_concat_iff.mp hinit with heq | hinit
      · obtain ⟨rfl, hax⟩ := List.append_inj' heq rfl
        obtain rfl := List.singleton_inj.mp hax
        exact hx
      · exact hbefore before a hinit
    · intro hinits
      refine ⟨fun before a h => hinits before a (h.trans (List.prefix_append _ _)), ?_⟩
      exact hinits stream x (List.prefix_refl _)

/-- The highest number so far is within a cycle from the first one. -/
theorem highest_in_cycle {first : Arrival ρ} {rest l : List (Arrival ρ)}
    (h : OneSpan ((first :: rest).map (·.number))) (hl : l ≠ []) (hinit : l <+: first :: rest) :
    first.number ≤ highest (l.map (·.number)) ∧
      highest (l.map (·.number)) < first.number + 65536 := by
  have hnil : l.map (·.number) ≠ [] := by simpa using hl
  have hsub := (hinit.map (·.number)).subset (highest_mem hnil)
  refine ⟨?_, h.2 _ hsub _ (by simp)⟩
  cases l with
  | nil => exact absurd rfl hl
  | cons x tail =>
    obtain rfl : x = first := (List.cons_prefix_cons.mp hinit).1
    exact le_highest (by simp)

/-! ## Reception reports -/

/-- **The extended highest sequence number.** On a stream of close numbers that span less than a cycle,
`LastSequence` is the highest number modulo `2 ^ 32` after every packet, and never falls, exactly if no
packet is late and the numbers are counted from the cycle of the first one; and the reception report
carries it. -/
theorem lastSequence_highest_iff (clockRate : UInt32) (first : Arrival ρ) (rest : List (Arrival ρ))
    (h : OneSpan ((first :: rest).map (·.number))) :
    (((∀ p, p ≠ [] → p <+: first :: rest →
          (lastSequence clockRate p).toNat = highest (p.map (·.number)) % 2 ^ 32) ∧
        ∀ p q, p ≠ [] → p <+: q → q <+: first :: rest →
          lastSequence clockRate p ≤ lastSequence clockRate q) ↔
      (first :: rest).Pairwise (fun a b => a.number ≤ b.number) ∧
        first.number / 65536 % 65536 = 0) ∧
    ∀ (convert : Float → UInt32) (destination : Leg) (p : List (Arrival ρ)) (now : ℤ)
      (events : List (Event rtcpSig)) (report : ReceptionReport),
      Returns (receptionReport convert destination ((newTracker clockRate).observeAll p).2.snapshot now)
        events report →
      report.lastSequenceNumber = lastSequence clockRate p := by
  have hinit : ∀ before a, before ++ [a] <+: first :: rest →
      ((lastSequence clockRate (before ++ [a])).toNat =
          highest ((before ++ [a]).map (·.number)) % 2 ^ 32 ↔
        a.number = highest ((before ++ [a]).map (·.number)) ∧ first.number / 65536 % 65536 = 0) := by
    intro before a hp
    have hspan := h.of_isPrefix (hp.map (·.number))
    cases hlist : before ++ [a] with
    | nil => simp at hlist
    | cons x tail =>
      rw [hlist] at hp hspan
      obtain rfl : x = first := (List.cons_prefix_cons.mp hp).1
      exact lastSequence_eq_iff clockRate rfl hlist.symm hspan
  refine ⟨⟨?_, ?_⟩, ?_⟩
  · rintro ⟨hequal, -⟩
    have hiff := fun before a hp => (hinit before a hp).mp (hequal _ (by simp) hp)
    refine ⟨(inOrder_iff _).mpr fun before a hp => (hiff before a hp).1, ?_⟩
    exact (hiff [] first (by simp)).2
  · rintro ⟨horder, hcycle⟩
    have hequal : ∀ p, p ≠ [] → p <+: first :: rest →
        (lastSequence clockRate p).toNat = highest (p.map (·.number)) % 2 ^ 32 := by
      intro p hne hp
      obtain ⟨before, a, rfl⟩ := List.eq_nil_or_concat p |>.resolve_left hne
      rw [List.concat_eq_append] at hp ⊢
      exact (hinit before a hp).mpr ⟨(inOrder_iff _).mp horder before a hp, hcycle⟩
    refine ⟨hequal, fun p q hne hpq hq => ?_⟩
    have hqne : q ≠ [] := fun hnil => hne (List.prefix_nil.mp (hnil ▸ hpq))
    rw [UInt32.le_iff_toNat_le, hequal p hne (hpq.trans hq), hequal q hqne hq]
    have hp' := highest_in_cycle h hne (hpq.trans hq)
    have hq' := highest_in_cycle h hqne hq
    have hmono : highest (p.map (·.number)) ≤ highest (q.map (·.number)) :=
      le_highest ((hpq.map (·.number)).subset (highest_mem (by simpa using hne)))
    omega
  · intro convert destination p now events report hreport
    obtain ⟨lastSR, receivedNanos, -, rfl⟩ := returns_receptionReport hreport
    rfl

theorem lastSequence_highest_wrapping :
    (lastSequence 8000 ([65534, 65537, 65537].map (arrivalFrom 1))).toNat = 65537 := by
  have hspan : OneSpan (([65534, 65537, 65537].map (arrivalFrom 1)).map (·.number)) := by decide
  have horder : ([65534, 65537, 65537].map (arrivalFrom 1)).Pairwise (fun a b => a.number ≤ b.number) := by
    decide
  have hequal := ((lastSequence_highest_iff 8000 (arrivalFrom 1 65534) ([65537, 65537].map (arrivalFrom 1))
    hspan).1.mpr ⟨horder, rfl⟩).1
  exact hequal _ (by simp) (List.prefix_refl _)

/-- A late packet takes the number back, and one from before a wrap takes it forward. -/
theorem lastSequence_late :
    (OneSpan [10, 12, 11] ∧ (lastSequence 8000 ([10, 12].map (arrivalFrom 1))).toNat = 12 ∧
      (lastSequence 8000 ([10, 12, 11].map (arrivalFrom 1))).toNat = 11 ∧ highest [10, 12, 11] = 12) ∧
    OneSpan [65535, 65536, 65534] ∧
      (lastSequence 8000 ([65535, 65536, 65534].map (arrivalFrom 1))).toNat = 131070 ∧
      highest [65535, 65536, 65534] = 65536 := by
  refine ⟨⟨by decide, rfl, rfl, rfl⟩, by decide, rfl, rfl⟩

end AixvolinkPbx.Media
