import AixvolinkPbx.Media.Direction
import AixvolinkPbx.Media.Window
import Mathlib.Data.Finset.Card
import Mathlib.Data.List.Dedup

/-!
# Counting telephone events (`internal/media/session/forward.go`)

The counter `dtmfEvents` of a leg is to count the keys pressed on it. `forwardRTP` counts the packets with
the end bit instead: every one of them that is no repetition by its sequence number and may be sent, in
front of the write. A sender repeats that packet under new sequence numbers, and then one key is counted
several times.

1. `Presses` reads off what the loop reads and is answered which packets with the end bit pass: they are
   no repetition in their slot, and both directions let them through. It has the counter of the leg and
   the packets with the end bit that are written.
2. The counter counts exactly the packets that pass, and what is written is part of them
   (`Presses.Sound`, `forwardRTP_sound`); the slots of the tracker are those of the numbers observed
   (`Presses.Between`).
3. The counter is the number of events exactly if of each event at most one packet passes and every
   packet that passes is written (`dtmfEvents_pressed_iff`).
-/

namespace AixvolinkPbx.Media

open Prog (Safe Only Path safe_bind safe_call safe_pure safe_mono safe_when)

variable {ρ : Type} (P : PacketCodec ρ) (cfg : Config) (source : Leg)

/-! ## What is counted and what is written -/

/-- A telephone event of a leg with the end bit. -/
def isEnd (remote : RemoteConfig) (packet : Packet ρ) : Bool :=
  remote.hasDTMF && packet.payloadType = remote.dtmfPT &&
    match decodeDtmf packet.payload with
    | .error _ => false
    | .ok event => event.endBit

/-- A packet loop as seen from what it reads and is answered. -/
structure Presses (ρ : Type) where
  /-- The packet at hand. -/
  packet : Option (Packet ρ)
  /-- The configuration it is looked at with. -/
  remote : Option RemoteConfig
  /-- The sequence numbers of the packets observed. -/
  numbers : List UInt16
  /-- The packet at hand was observed and is no repetition in its slot. -/
  fresh : Bool
  sends : Bool
  /-- The packet at hand, if the last answer let it through and it has the end bit. -/
  passing : List (Packet ρ)
  /-- The packets with the end bit that have passed before. -/
  passed : List (Packet ρ)
  forwarded : List (Packet ρ)
  dtmfEvents : UInt64

def Presses.start : Presses ρ := ⟨none, none, [], false, false, [], [], [], 0⟩

/-- The packet at hand, if it has the end bit. -/
def Presses.ended (s : Presses ρ) : List (Packet ρ) :=
  match s.packet, s.remote with
  | some packet, some remote => if isEnd remote packet then [packet] else []
  | _, _ => []

/-- No packet of the same slot came after one with the same number. -/
def Presses.unseen (s : Presses ρ) (packet : Packet ρ) : Bool :=
  lastNumber s.numbers (windowIndex packet.sequenceNumber) ≠ some packet.sequenceNumber

/-- The loop goes on after an answer. -/
def Presses.settle (s : Presses ρ) : Presses ρ :=
  { s with passing := [], passed := s.passed ++ s.passing }

def Presses.answered (s : Presses ρ) : (e : MediaOp) → mediaSig.Ans e → Presses ρ
  | .read _, .datagram bytes _ =>
    { s with packet := parsePacket P bytes, fresh := false, sends := false }
  | .read _, _ => { s with packet := none }
  | .loadRemote .forward leg, remote => if leg = source then { s with remote := remote } else s
  | .now, _ =>
    match s.packet with
    | none => s
    | some packet =>
      { s with fresh := s.unseen packet, numbers := s.numbers ++ [packet.sequenceNumber] }
  | .loadRemote .canSend _, remote => { s with sends := remote.any RemoteConfig.sends }
  | .loadRemote .canReceive _, remote =>
    { s with passing := if s.fresh && s.sends && remote.any RemoteConfig.receives then s.ended else [] }
  | .addDtmfEvent leg, _ => if leg = source then { s with dtmfEvents := s.dtmfEvents + 1 } else s
  | .write _ _ _, .written => { s with forwarded := s.forwarded ++ s.ended }
  | _, _ => s

/-- The counter of the leg and the packets with the end bit after a run. -/
def pressed (t : List (Event mediaSig)) : Presses ρ :=
  t.foldl (fun s ev => s.settle.answered P source ev.op ev.ans) .start

/-- The counter counts the packets that have passed, and what is written is part of them. -/
structure Presses.Sound (s : Presses ρ) : Prop where
  counter : s.dtmfEvents = UInt64.ofNat s.passed.length
  forwarded : s.forwarded.Sublist s.passed

def pressMonitor : Monitor mediaSig (Presses ρ) where
  next s e r := s.settle.answered P source e r
  good := Presses.Sound
  admits _ _ := True

/-- The operations that do not concern events. -/
def MediaOp.passes : MediaOp → Bool
  | .read _ | .write .. | .addDtmfEvent _ | .now => false
  | .loadRemote site _ => site = .accepts || site = .target
  | _ => true

theorem MediaOp.passes_of_locates (e : MediaOp) (h : e.locates = true) : e.passes = true := by
  cases e <;> first | exact h | rfl

theorem Presses.settle_of_nil {s : Presses ρ} (h : s.passing = []) : s.settle = s := by
  rw [settle, h, List.append_nil, ← h]

variable {e : MediaOp}

theorem Presses.answered_of_passes (h : e.passes = true) (s : Presses ρ) (r : mediaSig.Ans e) :
    s.answered P source e r = s := by
  cases e with
  | loadRemote site leg => cases site <;> first | rfl | cases h
  | read | write | addDtmfEvent | now => cases h
  | _ => rfl

theorem passes_op (h : e.passes = true) : Only (MediaOp.passes · = true) (op e) :=
  Prog.only_call.mpr h

/-! ## An iteration of the loop -/

variable {P source} {s : Presses ρ}

/-- Between two iterations, and in one until a packet passes. -/
structure Presses.Between (s : Presses ρ) : Prop extends Presses.Sound s where
  settled : s.passing = []

/-- The tracker has in its slots what the observer finds there. -/
def Presses.Tracks (tracker : Tracker) (s : Presses ρ) : Prop :=
  ∀ i, tracker.slot i = lastNumber s.numbers i

theorem Presses.Between.next_eq (h : s.Between) (e : MediaOp) (r : mediaSig.Ans e) :
    (pressMonitor P source).next s e r = s.answered P source e r := by
  show s.settle.answered P source e r = _
  rw [settle_of_nil h.settled]

theorem Presses.Between.next_of_passes (h : s.Between) (he : e.passes = true) (r : mediaSig.Ans e) :
    (pressMonitor P source).next s e r = s := by
  rw [h.next_eq, answered_of_passes P source he]

variable {β : Type} {Q : β → Presses ρ → Prop}

theorem safe_after_passes {α : Type} {p : Prog mediaSig α} {f : α → Prog mediaSig β}
    (h : Only (MediaOp.passes · = true) p) (hs : s.Between)
    (hf : ∀ a, Safe (pressMonitor P source) s (f a) Q) :
    Safe (pressMonitor P source) s (p >>= f) Q :=
  h.safe_bind hs.toSound (fun _ r he => hs.next_of_passes he r) hf

theorem safe_answered {f : mediaSig.Ans e → Prog mediaSig β} (hs : s.Between)
    (hf : ∀ r, (s.answered P source e r).Sound ∧
      Safe (pressMonitor P source) (s.answered P source e r) (f r) Q) :
    Safe (pressMonitor P source) s (op e >>= f) Q := by
  rw [safe_bind, safe_call]
  intro r _
  rw [hs.next_eq]
  exact hf r

theorem safe_canSend {f : Bool → Prog mediaSig β} (hs : s.Between)
    (hf : ∀ sends, Safe (pressMonitor P source) { s with sends := sends } (f sends) Q) :
    Safe (pressMonitor P source) s (source.canSend >>= f) Q := by
  unfold Leg.canSend
  rw [bind_assoc]
  exact safe_answered hs fun remote => ⟨⟨hs.counter, hs.forwarded⟩, hf _⟩

theorem safe_canReceive {f : Bool → Prog mediaSig β} (leg : Leg) (hs : s.Between)
    (hf : ∀ receives, Safe (pressMonitor P source)
      { s with passing := if s.fresh && s.sends && receives then s.ended else [] } (f receives) Q) :
    Safe (pressMonitor P source) s (leg.canReceive >>= f) Q := by
  unfold Leg.canReceive
  rw [bind_assoc]
  exact safe_answered hs fun remote => ⟨⟨hs.counter, hs.forwarded⟩, hf _⟩

/-- The packet and its configuration are at hand; if it has the end bit, it is the last one that has
passed, and it has been counted. -/
structure Presses.Ready (remote : RemoteConfig) (packet : Packet ρ) (s : Presses ρ) : Prop where
  atHand : s.packet = some packet ∧ s.remote = some remote
  settled : s.passing = []
  counter : s.dtmfEvents = UInt64.ofNat s.passed.length
  last : ∃ before, s.passed = before ++ s.ended ∧ s.forwarded.Sublist before

variable {remote : RemoteConfig} {packet : Packet ρ}

theorem Presses.Ready.between (h : s.Ready remote packet) :
    s.Between := by
  obtain ⟨before, hpassed, hforwarded⟩ := h.last
  refine ⟨⟨h.counter, ?_⟩, h.settled⟩
  rw [hpassed]
  exact hforwarded.trans (List.sublist_append_left _ _)

theorem Presses.Ready.write (h : s.Ready remote packet) :
    Presses.Between { s with forwarded := s.forwarded ++ s.ended } := by
  obtain ⟨before, hpassed, hforwarded⟩ := h.last
  refine ⟨⟨h.counter, ?_⟩, h.settled⟩
  show (s.forwarded ++ s.ended).Sublist s.passed
  rw [hpassed]
  exact hforwarded.append (List.Sublist.refl _)

/-- A packet that both directions let through is counted if it has the end bit, and ready to be written
then. -/
theorem countDtmf_ready (hs : s.Sound) (hpacket : s.packet = some packet)
    (hremote : s.remote = some remote) (hpassing : s.passing = s.ended) :
    Safe (pressMonitor P source) s (countDtmf source remote packet) fun decoded s' =>
      s'.Between ∧ s'.numbers = s.numbers ∧ (decoded = true → s'.Ready remote packet) := by
  have hended : s.ended = if isEnd remote packet then [packet] else [] := by
    rw [Presses.ended, hpacket, hremote]
  -- a packet without the end bit leaves nothing to be counted
  have hplain : isEnd remote packet = false → s.passing = [] ∧ s.Ready remote packet := by
    intro hend
    have hnil : s.ended = [] := by rw [hended, if_neg (by simp [hend])]
    refine ⟨hpassing.trans hnil, ⟨hpacket, hremote⟩, hpassing.trans hnil, hs.counter, s.passed, ?_,
      hs.forwarded⟩
    rw [hnil, List.append_nil]
  unfold countDtmf
  split_ifs with hdtmf
  · split
    · next err hdecode =>
      obtain ⟨hnil, -⟩ := hplain (by simp [isEnd, hdecode])
      exact safe_after_passes (passes_op rfl) ⟨hs, hnil⟩ fun _ =>
        safe_pure.mpr ⟨⟨hs, hnil⟩, rfl, by simp⟩
    · next event hdecode =>
      have hbit : isEnd remote packet = event.endBit := by
        simp only [Bool.and_eq_true, decide_eq_true_eq] at hdtmf
        simp [isEnd, hdtmf, hdecode]
      rw [safe_bind, safe_when]
      refine ⟨fun hend => ?_, fun hend => ?_⟩
      · have hone : s.ended = [packet] := by rw [hended, if_pos (hbit.trans hend)]
        have hready : (s.settle.answered P source (.addDtmfEvent source) ()).Ready remote packet := by
          rw [Presses.answered, if_pos rfl]
          refine ⟨⟨hpacket, hremote⟩, rfl, ?_, s.passed, ?_, hs.forwarded⟩
          · show s.dtmfEvents + 1 = UInt64.ofNat (s.passed ++ s.passing).length
            rw [hs.counter, hpassing, hone, List.length_append, UInt64.ofNat_add]
            rfl
          · show s.passed ++ s.passing = s.passed ++ s.ended
            rw [hpassing]
        have hnumbers : (s.settle.answered P source (.addDtmfEvent source) ()).numbers = s.numbers := by
          rw [Presses.answered, if_pos rfl]
          rfl
        rw [safe_call]
        intro _ _
        exact ⟨hready.between.toSound, safe_pure.mpr ⟨hready.between, hnumbers, fun _ => hready⟩⟩
      · obtain ⟨hnil, hready⟩ := hplain (hbit.trans (by simpa using hend))
        exact safe_pure.mpr ⟨⟨hs, hnil⟩, rfl, fun _ => hready⟩
  · obtain ⟨hnil, hready⟩ := hplain (by simp only [isEnd, hdtmf]; simp)
    exact safe_pure.mpr ⟨⟨hs, hnil⟩, rfl, fun _ => hready⟩

def Counted (st : Stream) (s : Presses ρ) : Prop := s.Between ∧ s.Tracks st.tracker

theorem deliver_sound (h : s.Ready remote packet) (st : Stream) (htracks : s.Tracks st.tracker)
    (outputPayloadType : UInt8) :
    Safe (pressMonitor P source) s (deliver P source st packet outputPayloadType)
      (Continues Counted) := by
  have hs := h.between
  have hnext : ∀ rewriter, Continues Counted (.inl { st with rewriter := rewriter }) s :=
    fun _ => continues_inl.mpr ⟨hs, htracks⟩
  unfold deliver
  dsimp only
  split
  · exact safe_after_passes (passes_op rfl) hs fun _ => safe_pure.mpr (hnext _)
  refine safe_after_passes ((locates_rtpTarget _).mono MediaOp.passes_of_locates) hs fun target => ?_
  cases target with
  | none => exact safe_pure.mpr (hnext _)
  | some target =>
    refine safe_answered hs fun r => ?_
    cases r with
    | written => exact ⟨h.write.toSound, safe_pure.mpr (continues_inl.mpr ⟨h.write, htracks⟩)⟩
    | closed =>
      exact ⟨hs.toSound, safe_after_passes (passes_op rfl) hs fun _ => safe_pure.mpr (continues_inr _)⟩
    | failed =>
      refine ⟨hs.toSound, safe_after_passes (passes_op rfl) hs fun done => ?_⟩
      split_ifs
      · exact safe_pure.mpr (continues_inr _)
      · exact safe_pure.mpr (continues_inr _)

variable {st : Stream}

/-- The steps on a packet the observer has found fresh or not as the tracker did. -/
theorem forwardPacket_sound (hs : s.Between) (hpacket : s.packet = some packet)
    (hremote : s.remote = some remote) (htracks : s.Tracks st.tracker) (wireBytes : ℕ)
    (outputPayloadType : UInt8) :
    Safe (pressMonitor P source) s
      (forwardPacket P source st packet wireBytes remote outputPayloadType) (Continues Counted) := by
  unfold forwardPacket
  refine safe_answered hs fun now => ?_
  have hobserved : s.answered P source .now now =
      { s with fresh := s.unseen packet, numbers := s.numbers ++ [packet.sequenceNumber] } := by
    simp only [Presses.answered, hpacket]
  have htracks' := Tracker.observe_slots htracks packet now wireBytes
  have hduplicate := st.tracker.observe_duplicate_iff packet now wireBytes
  rw [hobserved]
  refine ⟨⟨hs.counter, hs.forwarded⟩, ?_⟩
  unfold forwardObserved
  dsimp only
  split_ifs with hdup
  · exact safe_pure.mpr (continues_inl.mpr ⟨⟨⟨hs.counter, hs.forwarded⟩, hs.settled⟩, htracks'⟩)
  have hfresh : s.unseen packet = true := by
    rw [hduplicate, htracks] at hdup
    simpa [Presses.unseen] using hdup
  rw [hfresh]
  refine safe_canSend ⟨⟨hs.counter, hs.forwarded⟩, hs.settled⟩ fun sends => ?_
  cases sends with
  | false =>
    exact safe_pure.mpr (continues_inl.mpr ⟨⟨⟨hs.counter, hs.forwarded⟩, hs.settled⟩, htracks'⟩)
  | true =>
  refine safe_canReceive _ ⟨⟨hs.counter, hs.forwarded⟩, hs.settled⟩ fun receives => ?_
  cases receives with
  | false => exact safe_pure.mpr (continues_inl.mpr ⟨⟨⟨hs.counter, hs.forwarded⟩, rfl⟩, htracks'⟩)
  | true =>
  -- the packet has passed
  refine .bind
    (countDtmf_ready ⟨hs.counter, hs.forwarded⟩ hpacket hremote rfl) ?_
  rintro decoded s' ⟨hs', hnumbers, hready⟩
  have htracks'' : s'.Tracks (st.tracker.observe packet now wireBytes).2 := by
    rw [Presses.Tracks, hnumbers]
    exact htracks'
  cases decoded with
  | false => exact safe_pure.mpr (continues_inl.mpr ⟨hs', htracks''⟩)
  | true => exact deliver_sound (hready rfl) _ htracks'' _

theorem forwardDatagram_sound {bytes : List UInt8} (hs : s.Between)
    (hpacket : s.packet = parsePacket P bytes) (htracks : s.Tracks st.tracker)
    (address : AddrPort) :
    Safe (pressMonitor P source) s (forwardDatagram P source st bytes address) (Continues Counted) := by
  have hinvalid : ∀ {s' : Presses ρ}, s'.Between → s'.Tracks st.tracker →
      Safe (pressMonitor P source) s'
        (do op (.addInvalid source); return .inl st : Prog mediaSig (Stream ⊕ Option ForwardError))
        (Continues Counted) :=
    fun hs' htracks' => safe_after_passes (passes_op rfl) hs' fun _ =>
      safe_pure.mpr (continues_inl.mpr ⟨hs', htracks'⟩)
  unfold forwardDatagram
  refine safe_after_passes ((locates_acceptsRTP _ _).mono MediaOp.passes_of_locates) hs
    fun accepted => ?_
  split_ifs
  · exact hinvalid hs htracks
  split
  · exact hinvalid hs htracks
  next packet hparse =>
  refine safe_answered hs fun remote => ?_
  have hloaded : s.answered P source (.loadRemote .forward source) remote = { s with remote := remote } :=
    if_pos rfl
  have hs' : Presses.Between { s with remote := remote } := ⟨⟨hs.counter, hs.forwarded⟩, hs.settled⟩
  rw [hloaded]
  refine ⟨hs'.toSound, safe_answered hs' fun destination => ?_⟩
  have hother : Presses.answered P source { s with remote := remote }
      (.loadRemote .forward source.other) destination = { s with remote := remote } :=
    if_neg source.other_ne
  rw [hother]
  refine ⟨hs'.toSound, ?_⟩
  split
  · split
    · exact hinvalid hs' htracks
    · exact forwardPacket_sound hs' (hpacket.trans hparse) rfl htracks _ _
  · exact safe_pure.mpr (continues_inl.mpr ⟨hs', htracks⟩)

/-- A poll reads the clock with no packet at hand. -/
theorem updateTimeout_between (hs : s.Between) (hnone : s.packet = none) (tracker : Tracker) :
    Safe (pressMonitor P source) s (updateTimeout cfg source tracker) fun _ s' => s' = s := by
  unfold updateTimeout
  refine safe_answered hs fun now => ?_
  rw [show s.answered P source .now now = s by simp only [Presses.answered, hnone]]
  refine ⟨hs.toSound, safe_after_passes (passes_op rfl) hs fun started => ?_⟩
  exact (passes_op rfl).safe hs.toSound fun _ r he => hs.next_of_passes he r

theorem rests_pressMonitor (hs : s.Between) : Rests (pressMonitor P source) s := by
  refine ⟨hs.toSound, fun e r he => hs.next_of_passes ?_ r⟩
  cases e <;> first | rfl | cases he

theorem forwardRound_sound (h : Counted st s) :
    Safe (pressMonitor P source) s (forwardRound P cfg source st) (Continues Counted) := by
  obtain ⟨hs, htracks⟩ := h
  have hread : ∀ r, (s.answered P source (.read source) r).Between := by
    intro r
    cases r <;> exact ⟨⟨hs.counter, hs.forwarded⟩, hs.settled⟩
  refine safe_forwardRound (rests_pressMonitor hs) ?_ ?_ ?_
  · intro r
    rw [hs.next_eq]
    exact rests_pressMonitor (hread r)
  · intro bytes address
    rw [hs.next_eq]
    exact forwardDatagram_sound (hread _) rfl htracks address
  · rw [hs.next_eq]
    refine safe_mono (updateTimeout_between cfg (hread _) rfl _) ?_
    rintro _ _ rfl
    exact ⟨hread _, htracks⟩

theorem forwardRTP_sound (h : Counted st s) (n : ℕ) :
    Safe (pressMonitor P source) s (forwardRTP P cfg n source st) fun _ _ => True :=
  safe_forwardRTP (fun _ _ h => rests_pressMonitor h.1) (fun _ _ h => forwardRound_sound cfg h) n h

/-! ## The counter and the events -/

/-- The values of a sublist are as many as the list is long exactly if it is the whole list and no value
is there twice. -/
theorem card_toFinset_map_eq_iff {α : Type} [DecidableEq β] (f : α → β) {l l' : List α}
    (h : l.Sublist l') :
    (l.map f).toFinset.card = l'.length ↔ (l'.map f).Nodup ∧ l = l' := by
  have hcard : (l.map f).toFinset.card ≤ l.length := by
    simpa using List.toFinset_card_le (l.map f)
  constructor
  · intro heq
    obtain rfl := h.eq_of_length_le (by omega)
    refine ⟨?_, rfl⟩
    rw [← Multiset.coe_nodup, ← Multiset.toFinset_card_eq_card_iff_nodup]
    simpa using heq
  · rintro ⟨hnodup, rfl⟩
    rw [List.toFinset_card_of_nodup hnodup, List.length_map]

/-- RFC 4733: the packets of one event have one timestamp, those of different events different ones. -/
def Timestamped {ε : Type} (event : Packet ρ → ε) (packets : List (Packet ρ)) : Prop :=
  ∀ p ∈ packets, ∀ q ∈ packets, event p = event q ↔ p.timestamp = q.timestamp

theorem Timestamped.length_le {ε : Type} {event : Packet ρ → ε} {packets : List (Packet ρ)}
    (h : Timestamped event packets) (hnodup : (packets.map event).Nodup) :
    packets.length ≤ 2 ^ 32 := by
  have htimestamps : (packets.map (·.timestamp.toNat)).Nodup := by
    rw [List.Nodup, List.pairwise_map] at hnodup ⊢
    refine hnodup.imp_of_mem fun hp hq hne heq => hne ?_
    exact (h _ hp _ hq).mpr (UInt32.toNat_inj.mp heq)
  have hsub : (packets.map (·.timestamp.toNat)).toFinset ⊆ Finset.range (2 ^ 32) := by
    intro n hn
    obtain ⟨p, -, rfl⟩ := List.mem_map.mp (List.mem_toFinset.mp hn)
    exact Finset.mem_range.mpr p.timestamp.toNat_lt
  calc packets.length = (packets.map (·.timestamp.toNat)).toFinset.card := by
        rw [List.toFinset_card_of_nodup htimestamps, List.length_map]
    _ ≤ (Finset.range (2 ^ 32)).card := Finset.card_le_card hsub
    _ = 2 ^ 32 := Finset.card_range _

theorem sound_pressed {n : ℕ} {rewriter : Rewriter} {t : List (Event mediaSig)}
    {q : Prog mediaSig (Option ForwardError)}
    (hpath : Path (forwardRTP P cfg n source (.new rewriter)) t q) : (pressed P source t).Sound := by
  have hstart : Counted (.new rewriter) (Presses.start : Presses ρ) :=
    ⟨⟨⟨rfl, List.Sublist.refl _⟩, rfl⟩, fun _ => rfl⟩
  exact Prog.good_of_path (forwardRTP_sound cfg hstart n) hstart.1.toSound hpath fun _ _ => trivial

/-- **Key presses.** Whatever a packet loop reads and is answered: the counter of its leg is the number of
events of which a packet with the end bit was written, if of each event at most one packet with the end
bit passes the slots and both directions, and every one that passes is written; and only then, as long as
fewer than `2 ^ 64` packets pass. -/
theorem dtmfEvents_pressed_iff {ε : Type} [DecidableEq ε] (event : Packet ρ → ε) {n : ℕ}
    {rewriter : Rewriter} {t : List (Event mediaSig)} {q : Prog mediaSig (Option ForwardError)}
    (hpath : Path (forwardRTP P cfg n source (.new rewriter)) t q)
    (hevents : Timestamped event (pressed P source t).passed) :
    let s := pressed P source t
    ((s.passed.map event).Nodup ∧ s.forwarded = s.passed →
        s.dtmfEvents.toNat = (s.forwarded.map event).toFinset.card) ∧
      (s.passed.length < 2 ^ 64 → s.dtmfEvents.toNat = (s.forwarded.map event).toFinset.card →
        (s.passed.map event).Nodup ∧ s.forwarded = s.passed) := by
  intro s
  have hsound : s.Sound := sound_pressed cfg hpath
  have hcounter : s.dtmfEvents.toNat = s.passed.length % 2 ^ 64 := by
    rw [hsound.counter, UInt64.toNat_ofNat']
  rw [← card_toFinset_map_eq_iff event hsound.forwarded]
  constructor
  · intro hcard
    have hnodup := ((card_toFinset_map_eq_iff event hsound.forwarded).mp hcard).1
    have hlength : s.passed.length ≤ 2 ^ 32 := hevents.length_le hnodup
    rw [hcounter, hcard, Nat.mod_eq_of_lt (by omega)]
  · intro hlength heq
    rw [← heq, hcounter, Nat.mod_eq_of_lt hlength]

/-! ## Runs -/

/-- Telephone events with the end bit that come one after another, with sequence numbers and timestamps
by the number of the operation. -/
def keyAnswer (number timestamp : ℕ → UInt8) (result : WriteResult) (i : ℕ) :
    (e : MediaOp) → mediaSig.Ans e
  | .loadRemote .. => some ⟨aliceMedia.rtp, aliceMedia.rtcp, 0, 101, true, .sendRecv⟩
  | .loadLearned .. => 4000
  | .read _ => .datagram [2, 101, number i, timestamp i, 1, 5, 0x80, 0, 160] aliceMedia.rtp
  | .write .. => result
  | .now | .loadStarted => 0
  | .rtpConn _ | .setReadDeadline .. | .casLearned .. => true
  | .ctxDone => false
  | .storeRemote .. | .storeLearned .. | .storeMapping _ => ()
  | .addInvalid _ | .addDtmfEvent _ | .storeTimedOut .. => ()

def keyLoop : Prog mediaSig (Option ForwardError) :=
  forwardRTP plainCodec mediaConfig 9 .caller (.new (newRewriter 7 0 0))

def keyRun (number timestamp : ℕ → UInt8) (result : WriteResult) (k : ℕ) : List (Event mediaSig) :=
  (Prog.play (keyAnswer number timestamp result) k 0 keyLoop).1

theorem path_keyRun (number timestamp : ℕ → UInt8) (result : WriteResult) (k : ℕ) :
    ∃ q, Path keyLoop (keyRun number timestamp result k) q :=
  ⟨_, Prog.play_path (S := mediaSig) (keyAnswer number timestamp result) k 0 keyLoop⟩

/-- A key, its packet once more, and another key. -/
def duplicatedKey (i : ℕ) : UInt8 := if i < 20 then 3 else 29

theorem dtmfEvents_pressed_once :
    (pressed plainCodec .caller (keyRun duplicatedKey duplicatedKey .written 41)).numbers =
        [3, 3, 29] ∧
      (pressed plainCodec .caller (keyRun duplicatedKey duplicatedKey .written 41)).dtmfEvents.toNat =
        ((pressed plainCodec .caller (keyRun duplicatedKey duplicatedKey .written 41)).forwarded.map
          (·.timestamp)).toFinset.card := by
  obtain ⟨q, hpath⟩ := path_keyRun duplicatedKey duplicatedKey .written 41
  refine ⟨by decide +kernel, ?_⟩
  exact (dtmfEvents_pressed_iff mediaConfig (·.timestamp) hpath fun _ _ _ _ => Iff.rfl).1
    (by decide +kernel)

/-- One key, whose last packet comes again and again. -/
def repeatedKey (result : WriteResult) (k : ℕ) : Presses Unit :=
  pressed plainCodec .caller (keyRun Nat.toUInt8 (fun _ => 50) result k)

/-- The last packet of a key is sent three times under new sequence numbers; and one is counted though
the write fails. -/
theorem dtmfEvents_repeated :
    ((∃ q, Path keyLoop (keyRun Nat.toUInt8 (fun _ => 50) .written 41) q) ∧
      (repeatedKey .written 41).forwarded.map (fun p => (p.sequenceNumber, p.timestamp)) =
        [(3, 50), (16, 50), (29, 50)] ∧
      ((repeatedKey .written 41).forwarded.map (·.timestamp)).toFinset.card = 1 ∧
      (repeatedKey .written 41).dtmfEvents = 3) ∧
    (∃ q, Path keyLoop (keyRun Nat.toUInt8 (fun _ => 50) .failed 15) q) ∧
      (repeatedKey .failed 15).forwarded = [] ∧ (repeatedKey .failed 15).dtmfEvents = 1 := by
  refine ⟨⟨path_keyRun _ _ _ _, ?_⟩, path_keyRun _ _ _ _, ?_⟩
  · decide +kernel
  · decide +kernel

end AixvolinkPbx.Media
