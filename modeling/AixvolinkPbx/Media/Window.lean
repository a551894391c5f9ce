import AixvolinkPbx.Media.Accounting
import AixvolinkPbx.Media.Forward

/-!
# Packets taken for repetitions (`internal/media/rtp/stats.go`, `internal/media/session/forward.go`)

The window of `Observe` has one slot for each residue modulo 128 of a sequence number. A slot keeps its
number until a packet of the same residue overwrites it, and knows neither the source of that packet
nor its cycle. So a packet is taken for a repetition exactly if the last packet of its slot carried the
same 16 bits (`observe_duplicate_iff`, `observeAll_slot`), and `forwardRTP` then writes nothing.

Two kinds of fresh packets are lost that way (`fresh_packet_dropped`): those of a source that takes
over the numbers of the one before it, and those that come a cycle after the last packet of their slot.
-/

namespace AixvolinkPbx.Media

open Prog (Returns)

variable {ρ : Type}

/-! ## The slots of the window -/

def Tracker.slot (t : Tracker) (i : Fin sequenceWindow) : Option UInt16 :=
  if t.seenValid i then some (t.seen i) else none

theorem Tracker.slot_remember (t : Tracker) (sequenceNumber : UInt16) (i : Fin sequenceWindow) :
    (t.remember sequenceNumber).slot i =
      if i = windowIndex sequenceNumber then some sequenceNumber else t.slot i := by
  unfold slot remember
  by_cases hi : i = windowIndex sequenceNumber
  · simp [hi]
  · simp [hi]

/-- Classifying a packet does not touch the window, and does not find a repetition. -/
theorem Tracker.advance_window (t : Tracker) (packet : Packet ρ) :
    (t.advance packet).1 ≠ .duplicate ∧ (t.advance packet).2.seenValid = t.seenValid ∧
      (t.advance packet).2.seen = t.seen := by
  by_cases hs : t.started = true
  · obtain ⟨-, -, -, hseen, hvalid, -, -, -⟩ := t.switch_fields packet
    rw [t.advance_eq hs, ← hseen, ← hvalid]
    unfold place
    dsimp only
    split_ifs <;> simp
  · unfold advance
    rw [if_pos (by simpa using hs)]
    simp

variable {t : Tracker} {packet : Packet ρ}

theorem Tracker.observe_of_slot
    (h : t.slot (windowIndex packet.sequenceNumber) = some packet.sequenceNumber) (receivedAt : ℤ)
    (wireBytes : ℕ) : t.observe packet receivedAt wireBytes =
      (.duplicate, ({ t with published := { t.published with
        duplicates := t.published.duplicates + 1 } }).publishArrival packet receivedAt wireBytes) := by
  unfold slot at h
  split_ifs at h with hvalid
  unfold observe
  rw [if_pos (by simpa [hvalid] using h)]

theorem Tracker.observe_of_not_slot
    (h : t.slot (windowIndex packet.sequenceNumber) ≠ some packet.sequenceNumber) (receivedAt : ℤ)
    (wireBytes : ℕ) : t.observe packet receivedAt wireBytes =
      (((t.remember packet.sequenceNumber).advance packet).1,
        (((t.remember packet.sequenceNumber).advance packet).2.measure packet receivedAt).publishArrival
          packet receivedAt wireBytes) := by
  have hnot : ¬(t.seenValid (windowIndex packet.sequenceNumber) = true ∧
      t.seen (windowIndex packet.sequenceNumber) = packet.sequenceNumber) := by
    rintro ⟨hvalid, hseen⟩
    exact h (by rw [slot, if_pos hvalid, hseen])
  unfold observe
  rw [if_neg (by simpa using hnot)]

theorem Tracker.observe_duplicate_iff (t : Tracker) (packet : Packet ρ) (receivedAt : ℤ)
    (wireBytes : ℕ) : (t.observe packet receivedAt wireBytes).1 = .duplicate ↔
      t.slot (windowIndex packet.sequenceNumber) = some packet.sequenceNumber := by
  by_cases hslot : t.slot (windowIndex packet.sequenceNumber) = some packet.sequenceNumber
  · simp [observe_of_slot hslot, hslot]
  · have hclass := ((t.remember packet.sequenceNumber).advance_window packet).1
    simp [observe_of_not_slot hslot, hslot, hclass]

/-- A packet leaves its number in its slot, also one that was there already. -/
theorem Tracker.observe_slot (t : Tracker) (packet : Packet ρ) (receivedAt : ℤ) (wireBytes : ℕ)
    (i : Fin sequenceWindow) : (t.observe packet receivedAt wireBytes).2.slot i =
      if i = windowIndex packet.sequenceNumber then some packet.sequenceNumber else t.slot i := by
  by_cases hslot : t.slot (windowIndex packet.sequenceNumber) = some packet.sequenceNumber
  · rw [observe_of_slot hslot]
    show t.slot i = _
    split_ifs with hi
    · rw [hi, hslot]
    · rfl
  · obtain ⟨-, hvalid, hseen⟩ := (t.remember packet.sequenceNumber).advance_window packet
    rw [observe_of_not_slot hslot, ← slot_remember]
    show (if ((t.remember packet.sequenceNumber).advance packet).2.seenValid i = true then
      some (((t.remember packet.sequenceNumber).advance packet).2.seen i) else none) = _
    rw [hvalid, hseen]
    rfl

/-! ## The slots after a stream -/

/-- The last of some sequence numbers that falls into a slot. -/
def lastNumber (numbers : List UInt16) (i : Fin sequenceWindow) : Option UInt16 :=
  (numbers.filter fun number => i = windowIndex number).getLast?

theorem lastNumber_concat (numbers : List UInt16) (number : UInt16) (i : Fin sequenceWindow) :
    lastNumber (numbers ++ [number]) i =
      if i = windowIndex number then some number else lastNumber numbers i := by
  unfold lastNumber
  split_ifs with hi
  · simp [List.filter_append, hi]
  · simp [List.filter_append, hi]

/-- A packet that is observed keeps the slots those of the numbers observed. -/
theorem Tracker.observe_slots {numbers : List UInt16} (h : ∀ i, t.slot i = lastNumber numbers i)
    (packet : Packet ρ) (receivedAt : ℤ) (wireBytes : ℕ) (i : Fin sequenceWindow) :
    (t.observe packet receivedAt wireBytes).2.slot i =
      lastNumber (numbers ++ [packet.sequenceNumber]) i := by
  rw [observe_slot, lastNumber_concat, h]

/-- The sequence number of the last packet of a slot. -/
def lastInSlot (stream : List (Arrival ρ)) (i : Fin sequenceWindow) : Option UInt16 :=
  lastNumber (stream.map (·.packet.sequenceNumber)) i

theorem Tracker.observeAll_slot (stream : List (Arrival ρ)) (i : Fin sequenceWindow)
    {numbers : List UInt16} (h : ∀ i, t.slot i = lastNumber numbers i) :
    (t.observeAll stream).2.slot i =
      lastNumber (numbers ++ stream.map (·.packet.sequenceNumber)) i := by
  induction stream generalizing t numbers with
  | nil =>
    rw [List.map_nil, List.append_nil]
    exact h i
  | cons a rest ih =>
    rw [observeAll_cons, ih (observe_slots h a.packet a.receivedAt a.wireBytes), List.append_assoc]
    rfl

/-- What a new tracker takes for a repetition after a stream. -/
theorem duplicate_iff_lastInSlot (clockRate : UInt32) (before : List (Arrival ρ)) (packet : Packet ρ)
    (receivedAt : ℤ) (wireBytes : ℕ) :
    (((newTracker clockRate).observeAll before).2.observe packet receivedAt wireBytes).1 =
        .duplicate ↔
      lastInSlot before (windowIndex packet.sequenceNumber) = some packet.sequenceNumber := by
  have hnew : ∀ i, (newTracker clockRate).slot i = lastNumber [] i := fun _ => rfl
  rw [Tracker.observe_duplicate_iff, Tracker.observeAll_slot before _ hnew, List.nil_append, lastInSlot]

/-! ## Packets that are not forwarded -/

/-- `forwardRTP` reads the clock for a packet it has mapped, and does no more for a repetition. -/
theorem returns_forwardPacket {P : PacketCodec ρ} {source : Leg} {st : Stream} {wireBytes : ℕ}
    {remote : RemoteConfig} {outputPayloadType : UInt8} {t : List (Event mediaSig)}
    {r : Stream ⊕ Option ForwardError}
    (h : Returns (forwardPacket P source st packet wireBytes remote outputPayloadType) t r) :
    ∃ now, t.head? = some ⟨.now, now⟩ ∧
      ((st.tracker.observe packet now wireBytes).1 = .duplicate ↔ t = [⟨.now, now⟩]) := by
  unfold forwardPacket forwardObserved at h
  obtain ⟨now, u, v, rfl, hnow, hrest⟩ := Prog.returns_bind h
  obtain rfl := Prog.returns_call hnow
  refine ⟨now, rfl, ?_⟩
  dsimp only at hrest
  by_cases hdup : (st.tracker.observe packet now wireBytes).1 = .duplicate
  · rw [if_pos hdup] at hrest
    cases hrest
    simp [hdup]
  · rw [if_neg hdup] at hrest
    obtain ⟨sends, u', v', rfl, hsends, -⟩ := Prog.returns_bind hrest
    -- the direction of the source is looked up before anything else
    unfold Leg.canSend at hsends
    obtain ⟨loaded, w, w', rfl, hload, -⟩ := Prog.returns_bind hsends
    obtain rfl := Prog.returns_call hload
    simp [hdup]

/-- A packet of the same source with the same number is among those observed. -/
def Observed (before : List (Arrival ρ)) (a : Arrival ρ) : Prop :=
  ∃ b ∈ before, b.packet.ssrc = a.packet.ssrc ∧ b.number = a.number

/-- **Repetitions.** A packet taken for a repetition was observed before exactly if it was whenever the
last packet of its slot carried the same 16 bits; and the packets `forwardRTP` drops right after
`Observe` are those taken for repetitions. -/
theorem duplicate_observed_iff (P : PacketCodec ρ) (clockRate : UInt32) (before : List (Arrival ρ))
    (a : Arrival ρ) :
    let t := ((newTracker clockRate).observeAll before).2
    (((t.observe a.packet a.receivedAt a.wireBytes).1 = .duplicate → Observed before a) ↔
      (lastInSlot before (windowIndex a.packet.sequenceNumber) = some a.packet.sequenceNumber →
        Observed before a)) ∧
    ∀ (source : Leg) (rewriter : Rewriter) (remote : RemoteConfig) (outputPayloadType : UInt8)
      (events : List (Event mediaSig)) (r : Stream ⊕ Option ForwardError),
      Returns (forwardPacket P source ⟨t, rewriter⟩ a.packet a.wireBytes remote outputPayloadType)
        events r →
      ∃ now, events.head? = some ⟨.now, now⟩ ∧
        ((t.observe a.packet now a.wireBytes).1 = .duplicate ↔ events = [⟨.now, now⟩]) := by
  intro t
  constructor
  · rw [duplicate_iff_lastInSlot]
  · intro source rewriter remote outputPayloadType events r h
    exact returns_forwardPacket h

def arrivalFrom (ssrc : UInt32) (number : ℕ) : Arrival Unit where
  number := number
  packet := ⟨2, 0, UInt16.ofNat number, 0, ssrc, [], ()⟩
  receivedAt := 0
  wireBytes := 12
  carries := rfl

/-- Packets out of order, of which the fourth takes the slot of the second. -/
def reordered : List (Arrival Unit) := [5, 7, 6, 135, 8].map (arrivalFrom 1)

theorem duplicate_observed_repeated :
    Observed reordered (arrivalFrom 1 135) ∧
      ∀ remote events r, Returns (forwardPacket ⟨fun _ => none, fun _ => none⟩ .caller
        ⟨((newTracker 8000).observeAll reordered).2, newRewriter 7 0 0⟩ (arrivalFrom 1 135).packet 12
        remote 0) events r → ∃ now, events = [⟨.now, now⟩] := by
  have hdup : ∀ now, (((newTracker 8000).observeAll reordered).2.observe
      (arrivalFrom 1 135).packet now 12).1 = .duplicate := by
    intro now
    rw [duplicate_iff_lastInSlot]
    decide
  obtain ⟨hiff, hdropped⟩ := duplicate_observed_iff ⟨fun _ => none, fun _ => none⟩ 8000 reordered
    (arrivalFrom 1 135)
  refine ⟨hiff.mpr (fun _ => ⟨arrivalFrom 1 135, by simp [reordered], rfl, rfl⟩) (hdup 0), ?_⟩
  intro remote events r h
  obtain ⟨now, -, honly⟩ := hdropped _ _ _ _ events r h
  exact ⟨now, honly.mp (hdup now)⟩

/-- The first packet of a second source with the number of the first one's last packet, and a packet of
one source a cycle after the last packet of its slot. -/
theorem fresh_packet_dropped :
    (¬Observed [arrivalFrom 1 7] (arrivalFrom 2 7) ∧
      (((newTracker 8000).observeAll [arrivalFrom 1 7]).2.observe (arrivalFrom 2 7).packet 0 12).1 =
        .duplicate) ∧
    ¬Observed ([0, 32767, 65534].map (arrivalFrom 1)) (arrivalFrom 1 65536) ∧
      (((newTracker 8000).observeAll ([0, 32767, 65534].map (arrivalFrom 1))).2.observe
        (arrivalFrom 1 65536).packet 0 12).1 = .duplicate := by
  refine ⟨⟨?_, ?_⟩, ?_, ?_⟩
  · simp [Observed, arrivalFrom]
  · rw [duplicate_iff_lastInSlot]
    decide
  · simp [Observed, arrivalFrom]
  · rw [duplicate_iff_lastInSlot]
    decide

end AixvolinkPbx.Media
