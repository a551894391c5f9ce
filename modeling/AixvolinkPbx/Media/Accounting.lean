import AixvolinkPbx.Media.Rtp
import Mathlib.Data.Finset.Card
import Mathlib.Data.List.MinMax
import Mathlib.Order.Interval.Finset.Nat

/-!
# Loss, reorder and duplicate accounting within one sequence cycle (`internal/media/rtp/stats.go`)

A sender counts its packets without bound and a packet carries its number modulo `2 ^ 16`. A receiver
that remembered every number could say of each packet whether it is new, late or a repetition
(`classOf`). `Tracker.observe` remembers 128 residues and the highest number: on a stream that stays
within one cycle and one window (`OneCycle`) it says the same, and its counters are those of the stream.
-/

namespace AixvolinkPbx.Media

variable {ρ : Type}

/-! ## Streams of packets -/

/-- A call of `Observe`: the packet carries the sender's number in 16 bits. -/
structure Arrival (ρ : Type) where
  number : ℕ
  packet : Packet ρ
  receivedAt : ℤ
  wireBytes : ℕ
  carries : packet.sequenceNumber = UInt16.ofNat number

/-- The calls of one read loop: the classes returned and the tracker left. -/
def Tracker.observeAll (t : Tracker) : List (Arrival ρ) → List PacketClass × Tracker
  | [] => ([], t)
  | a :: rest =>
    let (packetClass, t) := t.observe a.packet a.receivedAt a.wireBytes
    let (packetClasses, t) := t.observeAll rest
    (packetClass :: packetClasses, t)

@[simp] theorem Tracker.observeAll_nil (t : Tracker) :
    t.observeAll ([] : List (Arrival ρ)) = ([], t) := rfl

theorem Tracker.observeAll_cons (t : Tracker) (a : Arrival ρ) (rest : List (Arrival ρ)) :
    t.observeAll (a :: rest) =
      ((t.observe a.packet a.receivedAt a.wireBytes).1 ::
        ((t.observe a.packet a.receivedAt a.wireBytes).2.observeAll rest).1,
      ((t.observe a.packet a.receivedAt a.wireBytes).2.observeAll rest).2) := rfl

theorem Tracker.observeAll_append (stream rest : List (Arrival ρ)) : ∀ t : Tracker,
    (t.observeAll (stream ++ rest)).2 = ((t.observeAll stream).2.observeAll rest).2 := by
  induction stream with
  | nil =>
    intro t
    rfl
  | cons a stream ih =>
    intro t
    rw [List.cons_append, observeAll_cons, ih, observeAll_cons]

/-- What a packet is to a receiver that remembers every number. -/
def classOf (received : List ℕ) (number : ℕ) : PacketClass :=
  if number ∈ received then .duplicate
  else if ∀ m ∈ received, m < number then .new
  else .reordered

/-- The classes of the packets that follow `received`. -/
def classes (received : List ℕ) : List ℕ → List PacketClass
  | [] => []
  | number :: rest => classOf received number :: classes (received ++ [number]) rest

def highest (numbers : List ℕ) : ℕ := numbers.foldl max 0

/-- Numbers that stay within a cycle from `first`, the next one at most 32767 above the highest so far
and at most 127 below it. -/
def WithinCycle (first : ℕ) : ℕ → List ℕ → Prop
  | _, [] => True
  | top, number :: rest =>
    (first ≤ number ∧ number ≤ first + 65535 ∧ number ≤ top + 32767 ∧ top ≤ number + 127) ∧
      WithinCycle first (max top number) rest

instance WithinCycle.decidable (first : ℕ) :
    ∀ (top : ℕ) (numbers : List ℕ), Decidable (WithinCycle first top numbers)
  | _, [] => instDecidableTrue
  | top, number :: rest =>
    haveI := WithinCycle.decidable first (max top number) rest
    inferInstanceAs (Decidable (_ ∧ _))

/-- A stream of one sequence cycle. -/
def OneCycle : List ℕ → Prop
  | [] => True
  | first :: rest => first ≤ 65535 ∧ WithinCycle first first rest

instance OneCycle.decidable : ∀ numbers : List ℕ, Decidable (OneCycle numbers)
  | [] => instDecidableTrue
  | _ :: _ => inferInstanceAs (Decidable (_ ∧ _))

/-! ## The highest number -/

@[simp] theorem highest_append (received : List ℕ) (number : ℕ) :
    highest (received ++ [number]) = max (highest received) number := by
  simp [highest]

variable {number : ℕ} {received : List ℕ}

theorem le_highest (h : number ∈ received) :
    number ≤ highest received := by
  induction received using List.reverseRecOn with
  | nil => cases h
  | append_singleton received last ih =>
    rw [highest_append]
    rcases List.mem_append.mp h with h | h
    · exact le_max_of_le_left (ih h)
    · exact le_max_of_le_right (List.mem_singleton.mp h).le

theorem highest_mem (h : received ≠ []) : highest received ∈ received := by
  induction received using List.reverseRecOn with
  | nil => exact absurd rfl h
  | append_singleton received last ih =>
    rw [highest_append]
    by_cases hr : received = []
    · subst hr
      simp [highest]
    · rcases max_choice (highest received) last with hm | hm
      · rw [hm]
        exact List.mem_append_left _ (ih hr)
      · rw [hm]
        simp

theorem classOf_eq (h : received ≠ []) (number : ℕ) :
    classOf received number =
      if number ∈ received then .duplicate
      else if highest received < number then .new else .reordered := by
  have hall : (∀ m ∈ received, m < number) ↔ highest received < number :=
    ⟨fun hm => hm _ (highest_mem h), fun ht m hm => lt_of_le_of_lt (le_highest hm) ht⟩
  simp only [classOf, hall]

/-! ## Numbers modulo `2 ^ 16` -/

theorem ofNat_injOn {m n first : ℕ} (hm : first ≤ m ∧ m ≤ first + 65535)
    (hn : first ≤ n ∧ n ≤ first + 65535) (h : UInt16.ofNat m = UInt16.ofNat n) : m = n := by
  have h' := congrArg UInt16.toNat h
  simp only [UInt16.toNat_ofNat'] at h'
  omega

theorem windowIndex_ofNat (n : ℕ) : (windowIndex (UInt16.ofNat n)).val = n % 128 := by
  simp only [windowIndex, sequenceWindow, UInt16.toNat_ofNat']
  omega

/-- The signed distance of two numbers on the wire is their distance, if it fits. -/
theorem delta_eq {top : ℕ} (hup : number ≤ top + 32767) (hdown : top ≤ number + 127) :
    (UInt16.ofNat number - UInt16.ofNat top).toInt16.toInt = (number : ℤ) - top := by
  have hnat : (UInt16.ofNat number - UInt16.ofNat top).toNat =
      (65536 - top % 65536 + number % 65536) % 65536 := by
    simp [UInt16.toNat_sub, UInt16.toNat_ofNat']
  show (UInt16.ofNat number - UInt16.ofNat top).toBitVec.toInt = _
  rw [BitVec.toInt_eq_toNat_bmod, UInt16.toNat_toBitVec, hnat, Int.bmod]
  split <;> omega

/-! ## What the tracker knows of the stream -/

/-- The next number of a stream that began with `first` and reached `top`. -/
structure Fits (first top number : ℕ) : Prop where
  above : first ≤ number
  within : number ≤ first + 65535
  up : number ≤ top + 32767
  down : top ≤ number + 127

/-- The tracker after the numbers `received`, of which `first` came first. -/
structure Tracks (first : ℕ) (received : List ℕ) (t : Tracker) : Prop where
  started : t.started = true
  head : first ∈ received
  range : ∀ n ∈ received, first ≤ n ∧ n ≤ first + 65535
  cycles : t.cycles.toNat = highest received / 65536 * 65536
  maxSeq : t.maxSeq = UInt16.ofNat (highest received)
  -- a slot of the window is not reused while its number can still come again
  kept : ∀ n ∈ received, highest received ≤ n + 127 →
    t.seenValid (windowIndex (UInt16.ofNat n)) = true ∧
      t.seen (windowIndex (UInt16.ofNat n)) = UInt16.ofNat n
  known : ∀ i, t.seenValid i = true → ∃ n ∈ received, t.seen i = UInt16.ofNat n
  lost : t.published.lost.toNat + received.toFinset.card = highest received - first + 1

section Tracks

variable {first : ℕ} {t : Tracker}

theorem Tracks.highest_range (h : Tracks first received t) :
    first ≤ highest received ∧ highest received ≤ first + 65535 :=
  h.range _ (highest_mem (List.ne_nil_of_mem h.head))

theorem Tracks.publishArrival (h : Tracks first received t) (packet : Packet ρ) (receivedAt : ℤ)
    (wireBytes : ℕ) : Tracks first received (t.publishArrival packet receivedAt wireBytes) :=
  ⟨h.started, h.head, h.range, h.cycles, h.maxSeq, h.kept, h.known, h.lost⟩

theorem Tracks.measure (h : Tracks first received t) (packet : Packet ρ) (receivedAt : ℤ) :
    Tracks first received (t.measure packet receivedAt) :=
  ⟨h.started, h.head, h.range, h.cycles, h.maxSeq, h.kept, h.known, h.lost⟩

theorem Tracks.seen_iff (h : Tracks first received t) (hn : Fits first (highest received) number) :
    (t.seenValid (windowIndex (UInt16.ofNat number)) = true ∧
      t.seen (windowIndex (UInt16.ofNat number)) = UInt16.ofNat number) ↔ number ∈ received := by
  constructor
  · rintro ⟨hvalid, hseen⟩
    obtain ⟨n, hmem, hslot⟩ := h.known _ hvalid
    have heq : n = number :=
      ofNat_injOn (h.range n hmem) ⟨hn.above, hn.within⟩ (hslot.symm.trans hseen)
    rw [← heq]
    exact hmem
  · intro hmem
    exact h.kept number hmem hn.down

theorem Tracks.again (h : Tracks first received t) (hmem : number ∈ received) :
    Tracks first (received ++ [number]) t := by
  have htop : highest (received ++ [number]) = highest received := by
    rw [highest_append, max_eq_left (le_highest hmem)]
  have hset : (received ++ [number]).toFinset = received.toFinset := by
    rw [List.toFinset_append]
    simpa using hmem
  have hiff : ∀ n, n ∈ received ++ [number] ↔ n ∈ received := by
    intro n
    simp only [List.mem_append, List.mem_singleton, or_iff_left_iff_imp]
    rintro rfl
    exact hmem
  constructor
  · exact h.started
  · exact (hiff _).mpr h.head
  · simpa only [hiff] using h.range
  · simpa only [htop] using h.cycles
  · simpa only [htop] using h.maxSeq
  · simpa only [hiff, htop] using h.kept
  · simpa only [hiff] using h.known
  · simpa only [hset, htop] using h.lost

theorem Tracks.kept_remember (h : Tracks first received t)
    (hn : Fits first (highest received) number) {n : ℕ} (hmem : n ∈ received ++ [number])
    (hlive : highest (received ++ [number]) ≤ n + 127) :
    (t.remember (UInt16.ofNat number)).seenValid (windowIndex (UInt16.ofNat n)) = true ∧
      (t.remember (UInt16.ofNat number)).seen (windowIndex (UInt16.ofNat n)) = UInt16.ofNat n := by
  rw [highest_append] at hlive
  by_cases hslot : windowIndex (UInt16.ofNat n) = windowIndex (UInt16.ofNat number)
  · -- two live numbers of one slot are less than a window apart
    have hmod : n % 128 = number % 128 := by
      rw [← windowIndex_ofNat, ← windowIndex_ofNat, hslot]
    have hdown := hn.down
    have hle : n ≤ max (highest received) number := by
      rw [← highest_append]
      exact le_highest hmem
    have heq : n = number := by omega
    subst heq
    simp [Tracker.remember]
  · have hne : n ≠ number := fun heq => hslot (by rw [heq])
    have hmem' : n ∈ received := by
      rcases List.mem_append.mp hmem with hm | hm
      · exact hm
      · exact absurd (List.mem_singleton.mp hm) hne
    have hkept := h.kept n hmem' (le_trans (le_max_left _ _) hlive)
    simpa [Tracker.remember, hslot] using hkept

theorem Tracks.known_remember (h : Tracks first received t) {i : Fin sequenceWindow}
    (hi : (t.remember (UInt16.ofNat number)).seenValid i = true) :
    ∃ n ∈ received ++ [number], (t.remember (UInt16.ofNat number)).seen i = UInt16.ofNat n := by
  by_cases hslot : i = windowIndex (UInt16.ofNat number)
  · refine ⟨number, by simp, ?_⟩
    simp [Tracker.remember, hslot]
  · have hvalid : t.seenValid i = true := by
      simpa [Tracker.remember, hslot] using hi
    obtain ⟨n, hmem, hseen⟩ := h.known i hvalid
    refine ⟨n, List.mem_append_left _ hmem, ?_⟩
    simpa [Tracker.remember, hslot] using hseen

theorem Tracker.switch_fields (t : Tracker) (packet : Packet ρ) :
    (t.switch packet).started = t.started ∧ (t.switch packet).maxSeq = t.maxSeq ∧
      (t.switch packet).cycles = t.cycles ∧ (t.switch packet).seen = t.seen ∧
      (t.switch packet).seenValid = t.seenValid ∧
      (t.switch packet).published.lost = t.published.lost ∧
      (t.switch packet).published.reordered = t.published.reordered ∧
      (t.switch packet).published.duplicates = t.published.duplicates := by
  unfold Tracker.switch
  split_ifs <;> exact ⟨rfl, rfl, rfl, rfl, rfl, rfl, rfl, rfl⟩

theorem Tracker.advance_eq (hs : t.started = true) (packet : Packet ρ) :
    t.advance packet = (t.switch packet).place packet := by
  unfold Tracker.advance
  rw [if_neg (by simp [hs])]

variable {packet : Packet ρ}

theorem Tracker.place_above {delta : ℕ}
    (hd : (packet.sequenceNumber - t.maxSeq).toInt16.toInt = delta + 1) :
    t.place packet = (.new, { t with
      cycles := if packet.sequenceNumber < t.maxSeq then t.cycles + 65536 else t.cycles
      maxSeq := packet.sequenceNumber
      published := { t.published with lost := t.published.lost + UInt64.ofNat delta } }) := by
  have hlost : (if 1 < (delta : ℤ) + 1 then t.published.lost + UInt64.ofNat ((delta : ℤ) + 1 - 1).toNat
      else t.published.lost) = t.published.lost + UInt64.ofNat delta := by
    by_cases hz : delta = 0
    · simp [hz]
    · rw [if_pos (by omega)]
      simp
  unfold Tracker.place
  simp only [hd]
  rw [if_pos (by omega), hlost]

theorem Tracker.place_below (hd : (packet.sequenceNumber - t.maxSeq).toInt16.toInt < 0) :
    t.place packet = (.reordered, { t with published := { t.published with
      reordered := t.published.reordered + 1
      lost := decrement t.published.lost } }) := by
  unfold Tracker.place
  simp only
  rw [if_neg (not_lt.mpr hd.le), if_pos hd]

/-- The tracker between its writes to the window and the classification of the number. -/
structure Holds (first : ℕ) (received : List ℕ) (number : ℕ) (t : Tracker) : Prop where
  started : t.started = true
  cycles : t.cycles.toNat = highest received / 65536 * 65536
  maxSeq : t.maxSeq = UInt16.ofNat (highest received)
  kept : ∀ n ∈ received ++ [number], highest (received ++ [number]) ≤ n + 127 →
    t.seenValid (windowIndex (UInt16.ofNat n)) = true ∧
      t.seen (windowIndex (UInt16.ofNat n)) = UInt16.ofNat n
  known : ∀ i, t.seenValid i = true → ∃ n ∈ received ++ [number], t.seen i = UInt16.ofNat n
  lost : t.published.lost.toNat + received.toFinset.card = highest received - first + 1

theorem Tracks.holds (h : Tracks first received t) (hn : Fits first (highest received) number)
    (packet : Packet ρ) :
    Holds first received number ((t.remember (UInt16.ofNat number)).switch packet) := by
  obtain ⟨hstarted, hmax, hcycles, hseen, hvalid, hlost, -, -⟩ :=
    (t.remember (UInt16.ofNat number)).switch_fields packet
  constructor
  · rw [hstarted]
    exact h.started
  · rw [hcycles]
    exact h.cycles
  · rw [hmax]
    exact h.maxSeq
  · rw [hseen, hvalid]
    exact fun n hmem hlive => h.kept_remember hn hmem hlive
  · rw [hseen, hvalid]
    exact fun i hi => h.known_remember hi
  · rw [hlost]
    exact h.lost

theorem card_append (hfresh : number ∉ received) :
    (received ++ [number]).toFinset.card = received.toFinset.card + 1 := by
  rw [List.toFinset_append, Finset.union_comm]
  simp [hfresh]

theorem Tracks.card_lt (h : Tracks first received t) (hfresh : number ∉ received)
    (habove : first ≤ number) (hbelow : number < highest received) :
    received.toFinset.card < highest received - first + 1 := by
  have hsub : received.toFinset ⊆ (Finset.Icc first (highest received)).erase number := by
    intro n hn
    have hmem : n ∈ received := List.mem_toFinset.mp hn
    refine Finset.mem_erase.mpr ⟨fun heq => hfresh (heq ▸ hmem), Finset.mem_Icc.mpr ?_⟩
    exact ⟨(h.range n hmem).1, le_highest hmem⟩
  have hcard := Finset.card_le_card hsub
  rw [Finset.card_erase_of_mem (Finset.mem_Icc.mpr ⟨habove, hbelow.le⟩), Nat.card_Icc] at hcard
  have htop := h.highest_range
  omega

theorem Tracks.range_append (h : Tracks first received t)
    (hn : Fits first (highest received) number) :
    ∀ n ∈ received ++ [number], first ≤ n ∧ n ≤ first + 65535 := by
  intro n hmem
  rcases List.mem_append.mp hmem with hm | hm
  · exact h.range n hm
  · rw [List.mem_singleton.mp hm]
    exact ⟨hn.above, hn.within⟩

/-- A number above the highest: the gap below it is lost until it is filled. -/
theorem Tracks.above (h : Tracks first received t) (hfirst : first ≤ 65535)
    (hn : Fits first (highest received) number) (htop : highest received < number) {u : Tracker}
    (hu : Holds first received number u) (hc : packet.sequenceNumber = UInt16.ofNat number) :
    (u.place packet).1 = .new ∧ Tracks first (received ++ [number]) (u.place packet).2 := by
  have hup := hn.up
  have hwithin := hn.within
  have hrange := h.highest_range
  have hfresh : number ∉ received := fun hmem => absurd (le_highest hmem) (not_le.mpr htop)
  have hmax : highest (received ++ [number]) = number := by
    rw [highest_append, max_eq_right htop.le]
  have hd : (packet.sequenceNumber - u.maxSeq).toInt16.toInt =
      ((number - highest received - 1 : ℕ) : ℤ) + 1 := by
    rw [hc, hu.maxSeq, delta_eq hup hn.down]
    omega
  rw [Tracker.place_above hd]
  refine ⟨rfl, ?_⟩
  constructor
  · exact hu.started
  · exact List.mem_append_left _ h.head
  · exact h.range_append hn
  · -- the wire number falls below the last one exactly when a cycle ends between them
    have hlt : packet.sequenceNumber < u.maxSeq ↔ number % 65536 < highest received % 65536 := by
      rw [hc, hu.maxSeq, UInt16.lt_iff_toNat_lt, UInt16.toNat_ofNat', UInt16.toNat_ofNat']
    have hcycles := hu.cycles
    show (if packet.sequenceNumber < u.maxSeq then u.cycles + 65536 else u.cycles).toNat = _
    rw [hmax]
    split_ifs with hwrap
    · rw [hlt] at hwrap
      rw [UInt32.toNat_add, hcycles]
      have hconst : (65536 : UInt32).toNat = 65536 := rfl
      omega
    · rw [hlt] at hwrap
      rw [hcycles]
      omega
  · rw [hmax]
    exact hc
  · exact hu.kept
  · exact hu.known
  · have hlost := hu.lost
    show (u.published.lost + UInt64.ofNat (number - highest received - 1)).toNat + _ = _
    rw [UInt64.toNat_add, UInt64.toNat_ofNat', card_append hfresh, hmax]
    omega

/-- A fresh number below the highest: it had been counted as lost. -/
theorem Tracks.below (h : Tracks first received t) (hn : Fits first (highest received) number)
    (hfresh : number ∉ received) (htop : ¬highest received < number) {u : Tracker}
    (hu : Holds first received number u) (hc : packet.sequenceNumber = UInt16.ofNat number) :
    (u.place packet).1 = .reordered ∧ Tracks first (received ++ [number]) (u.place packet).2 := by
  have hlt : number < highest received := by
    have hne : number ≠ highest received := fun heq =>
      hfresh (heq ▸ highest_mem (List.ne_nil_of_mem h.head))
    omega
  have hmax : highest (received ++ [number]) = highest received := by
    rw [highest_append, max_eq_left hlt.le]
  have hd : (packet.sequenceNumber - u.maxSeq).toInt16.toInt < 0 := by
    rw [hc, hu.maxSeq, delta_eq hn.up hn.down]
    omega
  have hcard := h.card_lt hfresh hn.above hlt
  have hlost := hu.lost
  rw [Tracker.place_below hd]
  refine ⟨rfl, ?_⟩
  constructor
  · exact hu.started
  · exact List.mem_append_left _ h.head
  · exact h.range_append hn
  · rw [hmax]
    exact hu.cycles
  · rw [hmax]
    exact hu.maxSeq
  · exact hu.kept
  · exact hu.known
  · have hne : u.published.lost ≠ 0 := by
      intro hz
      rw [hz] at hlost
      simp only [UInt64.toNat_zero] at hlost
      omega
    have hpos : 1 ≤ u.published.lost := by
      rw [UInt64.le_iff_toNat_le]
      have := UInt64.toNat_inj.not.mpr hne
      simp only [UInt64.toNat_zero, UInt64.toNat_one] at this ⊢
      omega
    show (decrement u.published.lost).toNat + _ = _
    rw [decrement, if_neg hne, UInt64.toNat_sub_of_le _ _ hpos, card_append hfresh, hmax]
    simp only [UInt64.toNat_one]
    have hpos' := UInt64.le_iff_toNat_le.mp hpos
    simp only [UInt64.toNat_one] at hpos'
    omega

/-- One call of `Observe` classifies the number as a receiver that remembers every number does. -/
theorem Tracks.observe (h : Tracks first received t) (hfirst : first ≤ 65535) (a : Arrival ρ)
    (hn : Fits first (highest received) a.number) :
    (t.observe a.packet a.receivedAt a.wireBytes).1 = classOf received a.number ∧
      Tracks first (received ++ [a.number]) (t.observe a.packet a.receivedAt a.wireBytes).2 := by
  have hseen := h.seen_iff hn
  rw [← a.carries] at hseen
  rw [classOf_eq (List.ne_nil_of_mem h.head)]
  by_cases hmem : a.number ∈ received
  · rw [if_pos hmem]
    unfold Tracker.observe
    rw [if_pos (by simpa using hseen.mpr hmem)]
    refine ⟨rfl, ?_⟩
    have hagain := h.again hmem
    exact ⟨hagain.started, hagain.head, hagain.range, hagain.cycles, hagain.maxSeq, hagain.kept,
      hagain.known, hagain.lost⟩
  · rw [if_neg hmem]
    unfold Tracker.observe
    rw [if_neg (by simpa using hseen.not.mpr hmem)]
    have hholds := h.holds hn a.packet
    rw [← a.carries] at hholds
    show (((t.remember a.packet.sequenceNumber).advance a.packet).1 = _) ∧ Tracks _ _
      ((((t.remember a.packet.sequenceNumber).advance a.packet).2.measure _ _).publishArrival _ _ _)
    rw [Tracker.advance_eq (t := t.remember a.packet.sequenceNumber) h.started]
    by_cases htop : highest received < a.number
    · rw [if_pos htop]
      obtain ⟨hclass, htracks⟩ := h.above hfirst hn htop hholds a.carries
      exact ⟨hclass, (htracks.measure _ _).publishArrival _ _ _⟩
    · rw [if_neg htop]
      obtain ⟨hclass, htracks⟩ := h.below hn hmem htop hholds a.carries
      exact ⟨hclass, (htracks.measure _ _).publishArrival _ _ _⟩

theorem tracks_first (clockRate : UInt32) (a : Arrival ρ) (hfirst : a.number ≤ 65535) :
    ((newTracker clockRate).observe a.packet a.receivedAt a.wireBytes).1 = .new ∧
      Tracks a.number [a.number]
        ((newTracker clockRate).observe a.packet a.receivedAt a.wireBytes).2 := by
  have hhigh : highest [a.number] = a.number := by simp [highest]
  unfold Tracker.observe
  rw [if_neg (by simp [newTracker])]
  refine ⟨rfl, ?_⟩
  constructor
  · rfl
  · simp
  · intro n hn
    rw [List.mem_singleton.mp hn]
    omega
  · rw [hhigh, Nat.div_eq_of_lt (by omega)]
    rfl
  · rw [hhigh]
    exact a.carries
  · intro n hn _
    rw [List.mem_singleton.mp hn, ← a.carries]
    exact ⟨Function.update_self .., Function.update_self ..⟩
  · intro i hi
    refine ⟨a.number, by simp, ?_⟩
    have hslot : i = windowIndex a.packet.sequenceNumber := by
      by_contra hne
      have hfalse : (newTracker clockRate).seenValid i = true :=
        (Function.update_of_ne hne _ _).symm.trans hi
      simp [newTracker] at hfalse
    rw [hslot, ← a.carries]
    exact Function.update_self ..
  · rw [hhigh]
    show 0 + _ = _
    simp

theorem Tracks.observeAll (hfirst : first ≤ 65535) (rest : List (Arrival ρ)) :
    ∀ {received : List ℕ} {t : Tracker}, Tracks first received t →
      WithinCycle first (highest received) (rest.map (·.number)) →
      (t.observeAll rest).1 = classes received (rest.map (·.number)) ∧
        Tracks first (received ++ rest.map (·.number)) (t.observeAll rest).2 := by
  induction rest with
  | nil =>
    intro received t h _
    exact ⟨rfl, by simpa using h⟩
  | cons a rest ih =>
    intro received t h hcycle
    obtain ⟨⟨habove, hwithin, hup, hdown⟩, hrest⟩ := hcycle
    obtain ⟨hclass, htracks⟩ := h.observe hfirst a ⟨habove, hwithin, hup, hdown⟩
    rw [← highest_append] at hrest
    obtain ⟨hclasses, hend⟩ := ih htracks hrest
    rw [Tracker.observeAll_cons]
    refine ⟨?_, ?_⟩
    · rw [hclass, hclasses]
      rfl
    · simpa using hend

end Tracks

/-! ## The counters of the classes -/

/-- A call that returned the class `r.1` has counted it. -/
structure Counts (t : Tracker) (r : PacketClass × Tracker) : Prop where
  reordered : r.2.published.reordered = t.published.reordered + if r.1 = .reordered then 1 else 0
  duplicates : r.2.published.duplicates = t.published.duplicates + if r.1 = .duplicate then 1 else 0

theorem Tracker.place_counts (t : Tracker) (packet : Packet ρ) : Counts t (t.place packet) := by
  unfold Tracker.place
  simp only
  split
  · exact ⟨by simp, by simp⟩
  split
  · exact ⟨by simp, by simp⟩
  · exact ⟨by simp, by simp⟩

theorem Tracker.advance_counts (t : Tracker) (packet : Packet ρ) : Counts t (t.advance packet) := by
  by_cases hs : t.started = true
  · obtain ⟨-, -, -, -, -, -, hreordered, hduplicates⟩ := t.switch_fields packet
    obtain ⟨hplaced, hplaced'⟩ := (t.switch packet).place_counts packet
    rw [t.advance_eq hs]
    exact ⟨by rw [hplaced, hreordered], by rw [hplaced', hduplicates]⟩
  · unfold Tracker.advance
    rw [if_pos (by simpa using hs)]
    exact ⟨by simp, by simp⟩

theorem Tracker.observe_counts (t : Tracker) (packet : Packet ρ) (receivedAt : ℤ) (wireBytes : ℕ) :
    Counts t (t.observe packet receivedAt wireBytes) := by
  unfold Tracker.observe
  simp only
  split
  · exact ⟨by simp [Tracker.publishArrival], by simp [Tracker.publishArrival]⟩
  · obtain ⟨hreordered, hduplicates⟩ := (t.remember packet.sequenceNumber).advance_counts packet
    exact ⟨hreordered, hduplicates⟩

theorem Tracker.observeAll_counts (stream : List (Arrival ρ)) : ∀ t : Tracker,
    (t.observeAll stream).2.published.reordered =
        t.published.reordered + UInt64.ofNat ((t.observeAll stream).1.count .reordered) ∧
      (t.observeAll stream).2.published.duplicates =
        t.published.duplicates + UInt64.ofNat ((t.observeAll stream).1.count .duplicate) := by
  induction stream with
  | nil =>
    intro t
    simp
  | cons a rest ih =>
    intro t
    obtain ⟨hreordered, hduplicates⟩ := t.observe_counts a.packet a.receivedAt a.wireBytes
    obtain ⟨ihreordered, ihduplicates⟩ := ih (t.observe a.packet a.receivedAt a.wireBytes).2
    rw [Tracker.observeAll_cons]
    simp only [List.count_cons, beq_iff_eq, UInt64.ofNat_add]
    rw [ihreordered, ihduplicates, hreordered, hduplicates]
    constructor
    · split_ifs <;> simp [UInt64.add_assoc, UInt64.add_comm]
    · split_ifs <;> simp [UInt64.add_assoc, UInt64.add_comm]

/-- The packets that are no repetition are as many as the numbers not received before. -/
theorem countP_classes (numbers : List ℕ) : ∀ received : List ℕ,
    (classes received numbers).countP (· ≠ .duplicate) + received.toFinset.card =
      (received ++ numbers).toFinset.card := by
  induction numbers with
  | nil =>
    intro received
    simp [classes]
  | cons number rest ih =>
    intro received
    have hrest := ih (received ++ [number])
    rw [List.append_assoc, List.singleton_append] at hrest
    rw [← hrest, classes, List.countP_cons]
    by_cases hmem : number ∈ received
    · have hclass : classOf received number = .duplicate := if_pos hmem
      have hset : (received ++ [number]).toFinset = received.toFinset := by
        rw [List.toFinset_append]
        simpa using hmem
      simp [hclass, hset]
    · have hclass : classOf received number ≠ .duplicate := by
        rw [classOf, if_neg hmem]
        split_ifs <;> simp
      rw [card_append hmem]
      simp [hclass]
      omega

theorem count_reordered_le (received numbers : List ℕ) :
    (classes received numbers).count .reordered ≤ (received ++ numbers).toFinset.card := by
  have hle : (classes received numbers).count .reordered ≤
      (classes received numbers).countP (· ≠ .duplicate) := by
    refine List.countP_mono_left fun c _ hc => ?_
    rw [beq_iff_eq] at hc
    simp [hc]
  have hcount := countP_classes numbers received
  omega

theorem tracks_stream (clockRate : UInt32) (first : Arrival ρ) (rest : List (Arrival ρ))
    (h : OneCycle ((first :: rest).map (·.number))) :
    ((newTracker clockRate).observeAll (first :: rest)).1 =
        classes [] ((first :: rest).map (·.number)) ∧
      Tracks first.number ((first :: rest).map (·.number))
        ((newTracker clockRate).observeAll (first :: rest)).2 := by
  obtain ⟨hfirst, hcycle⟩ := h
  obtain ⟨hclass, htracks⟩ := tracks_first clockRate first hfirst
  have hhigh : highest [first.number] = first.number := by simp [highest]
  obtain ⟨hclasses, hend⟩ := Tracks.observeAll hfirst rest htracks (by rw [hhigh]; exact hcycle)
  rw [Tracker.observeAll_cons]
  refine ⟨?_, hend⟩
  rw [hclass, hclasses]
  simp [classes, classOf]

/-- **Exact accounting.** On a stream of one sequence cycle the classes are those of a receiver that
remembers every number, the tracker knows the highest one, `Lost` is what is missing up to it, and
`Reordered` and `Duplicates` count the packets so classified, `Duplicates` in its 64 bits. -/
theorem accounting_exact (clockRate : UInt32) (first : Arrival ρ) (rest : List (Arrival ρ))
    (h : OneCycle ((first :: rest).map (·.number))) :
    let numbers := (first :: rest).map (·.number)
    let result := (newTracker clockRate).observeAll (first :: rest)
    result.1 = classes [] numbers ∧
      result.2.cycles.toNat + result.2.maxSeq.toNat = highest numbers ∧
      result.2.published.lost.toNat + numbers.toFinset.card = highest numbers - first.number + 1 ∧
      result.2.published.reordered.toNat = result.1.count .reordered ∧
      result.2.published.duplicates.toNat = result.1.count .duplicate % 2 ^ 64 := by
  intro numbers result
  obtain ⟨hclasses, htracks⟩ :
      result.1 = classes [] numbers ∧ Tracks first.number numbers result.2 :=
    tracks_stream clockRate first rest h
  obtain ⟨hreordered, hduplicates⟩ :
      result.2.published.reordered = 0 + UInt64.ofNat (result.1.count .reordered) ∧
        result.2.published.duplicates = 0 + UInt64.ofNat (result.1.count .duplicate) :=
    (newTracker clockRate).observeAll_counts (first :: rest)
  have hrange := htracks.highest_range
  have hlost := htracks.lost
  refine ⟨hclasses, ?_, hlost, ?_, ?_⟩
  · rw [htracks.cycles, htracks.maxSeq, UInt16.toNat_ofNat']
    omega
  · -- a stream of one cycle has no room for 2 ^ 64 late packets
    have hbound := count_reordered_le [] numbers
    rw [← hclasses, List.nil_append] at hbound
    rw [hreordered, UInt64.zero_add, UInt64.toNat_ofNat', Nat.mod_eq_of_lt (by omega)]
  · rw [hduplicates, UInt64.zero_add, UInt64.toNat_ofNat']

def arrivalOf (number : ℕ) : Arrival Unit where
  number := number
  packet := ⟨2, 0, UInt16.ofNat number, 0, 0, [], ()⟩
  receivedAt := 0
  wireBytes := 12
  carries := rfl

/-- A gap, a late packet and a repetition across the wrap of the sequence numbers. -/
def wrappingStream : List (Arrival Unit) := [65534, 65537, 65535, 65537].map arrivalOf

theorem accounting_exact_wrapping :
    OneCycle (wrappingStream.map (·.number)) ∧
      ((newTracker 8000).observeAll wrappingStream).1 = [.new, .new, .reordered, .duplicate] ∧
      ((newTracker 8000).observeAll wrappingStream).2.published.lost.toNat = 1 ∧
      ((newTracker 8000).observeAll wrappingStream).2.published.reordered.toNat = 1 ∧
      ((newTracker 8000).observeAll wrappingStream).2.published.duplicates.toNat = 1 := by
  have hcycle : OneCycle (wrappingStream.map (·.number)) := by decide
  obtain ⟨hclasses, -, hlost, hreordered, hduplicates⟩ :=
    accounting_exact 8000 (arrivalOf 65534) ([65537, 65535, 65537].map arrivalOf) hcycle
  have hclasses' : ((newTracker 8000).observeAll wrappingStream).1 =
      [.new, .new, .reordered, .duplicate] := hclasses.trans (by decide)
  have hlost' : ((newTracker 8000).observeAll wrappingStream).2.published.lost.toNat + 3 =
      65537 - 65534 + 1 := hlost
  refine ⟨hcycle, hclasses', by omega, ?_, ?_⟩
  · exact hreordered.trans (congrArg (List.count .reordered) hclasses')
  · exact hduplicates.trans (congrArg (List.count .duplicate · % 2 ^ 64) hclasses')

theorem withinCycle_replicate (number n : ℕ) :
    WithinCycle number number (List.replicate n number) := by
  induction n with
  | zero => trivial
  | succ n ih =>
    rw [List.replicate_succ]
    refine ⟨by omega, ?_⟩
    rw [max_self]
    exact ih

theorem classes_replicate (number n : ℕ) : ∀ received : List ℕ, number ∈ received →
    classes received (List.replicate n number) = List.replicate n .duplicate := by
  induction n with
  | zero =>
    intro received _
    rfl
  | succ n ih =>
    intro received hmem
    rw [List.replicate_succ, List.replicate_succ, classes, classOf, if_pos hmem,
      ih _ (List.mem_append_left _ hmem)]

theorem observeAll_replicate (n : ℕ) :
    ((newTracker 8000).observeAll (List.replicate (n + 1) (arrivalOf 0))).1.count .duplicate = n ∧
      ((newTracker 8000).observeAll (List.replicate (n + 1) (arrivalOf 0))).2.published.duplicates =
        UInt64.ofNat n := by
  have hcycle : OneCycle ((arrivalOf 0 :: List.replicate n (arrivalOf 0)).map (·.number)) := by
    rw [List.map_cons, List.map_replicate]
    exact ⟨Nat.zero_le _, withinCycle_replicate 0 n⟩
  have hclasses := (tracks_stream 8000 (arrivalOf 0) (List.replicate n (arrivalOf 0)) hcycle).1
  have hcounts :=
    ((newTracker 8000).observeAll_counts (arrivalOf 0 :: List.replicate n (arrivalOf 0))).2
  have hcount : (classes [] ((arrivalOf 0 :: List.replicate n (arrivalOf 0)).map (·.number))).count
      .duplicate = n := by
    rw [List.map_cons, List.map_replicate, classes]
    show List.count _ (classOf [] 0 :: classes ([] ++ [0]) (List.replicate n 0)) = n
    rw [classes_replicate 0 n _ (by simp)]
    simp [classOf]
  rw [hclasses, hcount] at hcounts
  rw [List.replicate_succ, hclasses]
  refine ⟨hcount, ?_⟩
  rw [hcounts]
  show 0 + UInt64.ofNat n = _
  rw [UInt64.zero_add]

/-- After `2 ^ 64` repetitions of one packet `Duplicates` is back at zero. -/
theorem duplicates_wrap : ∃ stream : List (Arrival Unit),
    OneCycle (stream.map (·.number)) ∧
      ((newTracker 8000).observeAll stream).1.count .duplicate = 2 ^ 64 ∧
      ((newTracker 8000).observeAll stream).2.published.duplicates.toNat = 0 := by
  obtain ⟨hcount, hcounter⟩ := observeAll_replicate (2 ^ 64)
  refine ⟨List.replicate (2 ^ 64 + 1) (arrivalOf 0), ?_, hcount, ?_⟩
  · rw [List.map_replicate, List.replicate_succ]
    exact ⟨Nat.zero_le _, withinCycle_replicate 0 _⟩
  · rw [hcounter, UInt64.toNat_ofNat', Nat.mod_self]

end AixvolinkPbx.Media
