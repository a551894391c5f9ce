import AixvolinkPbx.Media.Direction
import Mathlib.Data.List.Induction

/-!
# The inactivity of a leg (`internal/media/session/forward.go`)

The flag `timedOut` of an endpoint is to say that nothing has come from the leg for
`InactivityTimeout`. `forwardRTP` stores it only when a read runs into the poll interval: as long as
packets come closer than that, it stays as the last poll left it.

1. `Watch` reads off the events of the loop what is observed and polled, and the flag.
2. The flag is what the last poll found: whether it came `InactivityTimeout` after the last packet
   before it, or after the start of the session (`Overdue`). The time of the tracker is that of the last
   packet (`Watch.Follows`), which every iteration keeps (`forwardRound_follows`).
3. So the flag is wrong exactly while packets have come since a poll that was overdue
   (`timedOut_inactive_iff`), as after a pause (`timedOut_resumed`).
-/

namespace AixvolinkPbx.Media

open Prog (Safe Only Ensures Path safe_bind safe_call safe_pure safe_mono)

variable {ρ : Type}

/-! ## What the loop observes -/

inductive Activity
  | packet (observedAt : ℤ)
  /-- A poll, and what it read as the start of the session. -/
  | poll (polledAt startedAt : ℤ)
  deriving DecidableEq, Repr

def Activity.observedAt : Activity → Option ℤ
  | .packet observedAt => some observedAt
  | .poll .. => none

def lastPacket (activity : List Activity) : Option ℤ :=
  (activity.filterMap Activity.observedAt).getLast?

/-- The last poll came `timeout` or more after the last packet before it, or after the start of the
session if there was none. -/
def Overdue (timeout : ℤ) (activity : List Activity) : Prop :=
  ∃ before polledAt startedAt packets,
    activity = before ++ .poll polledAt startedAt :: List.map Activity.packet packets ∧
      timeout ≤ polledAt - (lastPacket before).getD startedAt

/-- If packets have come since the last poll, then it came less than `timeout` after the last packet
before it, or after the start of the session if there was none. -/
def Prompt (timeout : ℤ) (activity : List Activity) : Prop :=
  ∀ before polledAt startedAt packets,
    activity = before ++ .poll polledAt startedAt :: List.map Activity.packet packets →
      packets ≠ [] → polledAt - (lastPacket before).getD startedAt < timeout

/-- A packet loop as seen from its events. -/
structure Watch where
  /-- The last read ran into the poll interval. -/
  polling : Bool
  readings : List ℤ
  startedAt : ℤ
  activity : List Activity
  timedOut : Bool
  deriving DecidableEq, Repr

def Watch.start : Watch := ⟨false, [], 0, [], false⟩

/-- The clock is read for a packet that is observed, or for a poll, which ends with the store. -/
def Watch.next (w : Watch) : (e : MediaOp) → mediaSig.Ans e → Watch
  | .read _, r => { w with polling := r = .timeout }
  | .now, now =>
    { w with
      readings := w.readings ++ [now]
      activity := if w.polling then w.activity else w.activity ++ [.packet now] }
  | .loadStarted, started => { w with startedAt := Int64.toInt started }
  | .storeTimedOut _ timedOut, _ =>
    { w with
      timedOut := timedOut
      activity := w.activity ++ [.poll (w.readings.getLastD 0) w.startedAt] }
  | _, _ => w

def watched (t : List (Event mediaSig)) : Watch :=
  t.foldl (fun w ev => w.next ev.op ev.ans) .start

/-- The flag is what the last poll found. -/
def Watch.Exact (timeout : ℤ) (w : Watch) : Prop := w.timedOut = true ↔ Overdue timeout w.activity

/-- The times whose nanoseconds are those of a packet: positive, and in 64 bits. -/
def watchMonitor (timeout : ℤ) : Monitor mediaSig Watch where
  next := Watch.next
  good := Watch.Exact timeout
  admits
    | .now, now => 0 < now ∧ now < 2 ^ 63
    | _, _ => True

/-! ## The last poll -/

section Activities

variable {timeout : ℤ} {activity : List Activity}

theorem lastPacket_packet (activity : List Activity) (a : ℤ) :
    lastPacket (activity ++ [.packet a]) = some a := by
  simp [lastPacket, Activity.observedAt]

theorem observed_poll (activity : List Activity) (p s : ℤ) :
    (activity ++ [Activity.poll p s]).filterMap Activity.observedAt =
      activity.filterMap Activity.observedAt := by
  rw [List.filterMap_append]
  exact List.append_nil _

theorem lastPacket_poll (activity : List Activity) (p s : ℤ) :
    lastPacket (activity ++ [.poll p s]) = lastPacket activity := by
  rw [lastPacket, observed_poll, lastPacket]

theorem not_overdue_nil : ¬ Overdue timeout [] := by
  rintro ⟨before, p, s, packets, hsplit, -⟩
  simp at hsplit

theorem overdue_packet (a : ℤ) : Overdue timeout (activity ++ [.packet a]) ↔
    Overdue timeout activity := by
  constructor
  · rintro ⟨before, p, s, packets, hsplit, hdue⟩
    rcases List.eq_nil_or_concat packets with rfl | ⟨packets, b, rfl⟩
    · cases (List.append_inj' hsplit rfl).2
    · rw [List.concat_eq_append, List.map_append, ← List.cons_append, ← List.append_assoc] at hsplit
      exact ⟨before, p, s, packets, (List.append_inj' hsplit rfl).1, hdue⟩
  · rintro ⟨before, p, s, packets, rfl, hdue⟩
    exact ⟨before, p, s, packets ++ [a], by simp, hdue⟩

theorem overdue_poll (p s : ℤ) : Overdue timeout (activity ++ [.poll p s]) ↔
    timeout ≤ p - (lastPacket activity).getD s := by
  constructor
  · rintro ⟨before, p', s', packets, hsplit, hdue⟩
    rcases List.eq_nil_or_concat packets with rfl | ⟨packets, b, rfl⟩
    · obtain ⟨rfl, hlast⟩ := List.append_inj' hsplit rfl
      cases hlast
      exact hdue
    · rw [List.concat_eq_append, List.map_append, ← List.cons_append, ← List.append_assoc] at hsplit
      cases (List.append_inj' hsplit rfl).2
  · intro hdue
    exact ⟨activity, p, s, [], rfl, hdue⟩

theorem prompt_poll (activity : List Activity) (p s : ℤ) : Prompt timeout (activity ++ [.poll p s]) := by
  intro before p' s' packets hsplit hne
  obtain ⟨packets, b, rfl⟩ := (List.eq_nil_or_concat packets).resolve_left hne
  rw [List.concat_eq_append, List.map_append, ← List.cons_append, ← List.append_assoc] at hsplit
  cases (List.append_inj' hsplit rfl).2

/-- At times that do not fall no packet came later than the last. -/
theorem le_lastPacket (h : (activity.filterMap Activity.observedAt).Pairwise (· ≤ ·)) {a : ℤ}
    (ha : .packet a ∈ activity) : ∃ b, lastPacket activity = some b ∧ a ≤ b := by
  have hmem : a ∈ activity.filterMap Activity.observedAt := List.mem_filterMap.mpr ⟨_, ha, rfl⟩
  rcases List.eq_nil_or_concat (activity.filterMap Activity.observedAt) with hnil | ⟨times, b, hlast⟩
  · rw [hnil] at hmem
    cases hmem
  · rw [List.concat_eq_append] at hlast
    rw [hlast, List.pairwise_append] at h
    rw [hlast] at hmem
    refine ⟨b, by rw [lastPacket, hlast, List.getLast?_concat], ?_⟩
    rcases List.mem_append.mp hmem with hmem | hmem
    · exact h.2.2 a hmem b (by simp)
    · exact (List.mem_singleton.mp hmem).le

end Activities

theorem observed_sublist (t : List (Event mediaSig)) :
    ((watched t).activity.filterMap Activity.observedAt).Sublist (watched t).readings := by
  induction t using List.reverseRecOn with
  | nil => exact List.Sublist.slnil
  | append_singleton t ev ih =>
    rw [watched, List.foldl_append]
    obtain ⟨e, r⟩ := ev
    show (((watched t).next e r).activity.filterMap _).Sublist ((watched t).next e r).readings
    cases e with
    | now =>
      cases hpolling : (watched t).polling with
      | false => simpa [Watch.next, hpolling, Activity.observedAt] using ih
      | true =>
        simp only [Watch.next, hpolling, if_true]
        exact ih.trans (List.sublist_append_left ..)
    | storeTimedOut leg timedOut =>
      rw [Watch.next, observed_poll]
      exact ih
    | _ => exact ih

/-! ## The tracker and the activity -/

theorem observe_lastPacketAt (t : Tracker) (packet : Packet ρ) {now : ℤ}
    (h : 0 < now ∧ now < 2 ^ 63) (wireBytes : ℕ) :
    (t.observe packet now wireBytes).2.lastPacketAt = some now := by
  have hnanos : (t.observe packet now wireBytes).2.published.lastPacketNanos = Int64.ofInt now := by
    unfold Tracker.observe
    dsimp only
    split_ifs <;> rfl
  have htoInt : (Int64.ofInt now).toInt = now := Int64.toInt_ofInt_of_le (by omega) h.2
  have hne : Int64.ofInt now ≠ 0 := by
    intro hzero
    rw [hzero] at htoInt
    have : (0 : ℤ) = now := htoInt
    omega
  rw [Tracker.lastPacketAt, hnanos, if_neg hne, htoInt]

/-- The flag is what the last poll found, and the tracker has the time of the last packet. -/
structure Watch.Follows (timeout : ℤ) (w : Watch) (tracker : Tracker) : Prop where
  exact : w.Exact timeout
  last : tracker.lastPacketAt = lastPacket w.activity

theorem follows_start (timeout : ℤ) (rewriter : Rewriter) :
    Watch.start.Follows timeout (Stream.new rewriter).tracker :=
  ⟨iff_of_false (by simp [Watch.start]) not_overdue_nil, rfl⟩

section Steps

variable {timeout : ℤ} {w : Watch} {tracker : Tracker}

theorem Watch.Follows.reading (h : w.Follows timeout tracker) (polling : Bool) :
    Watch.Follows timeout { w with polling := polling } tracker := ⟨h.exact, h.last⟩

theorem Watch.Follows.packet (h : w.Follows timeout tracker) (hpolling : w.polling = false) {now : ℤ}
    {tracker' : Tracker} (htracker : tracker'.lastPacketAt = some now) :
    (w.next .now now).Follows timeout tracker' := by
  have hactivity : (w.next .now now).activity = w.activity ++ [.packet now] := by
    simp [Watch.next, hpolling]
  constructor
  · rw [Watch.Exact, hactivity, overdue_packet]
    exact h.exact
  · rw [htracker, hactivity, lastPacket_packet]

theorem Watch.Follows.clock (h : w.Follows timeout tracker) (hpolling : w.polling = true) (now : ℤ) :
    (w.next .now now).Follows timeout tracker := by
  have hactivity : (w.next .now now).activity = w.activity := by
    simp [Watch.next, hpolling]
  exact ⟨by rw [Watch.Exact, hactivity]; exact h.exact, by rw [hactivity]; exact h.last⟩

/-- A poll stores the flag, from the time of the last packet if there is one. -/
theorem Watch.Follows.store (h : w.Follows timeout tracker) (leg : Leg) {now : ℤ}
    (hnow : w.readings.getLastD 0 = now) :
    (w.next (.storeTimedOut leg (decide (timeout ≤ now - tracker.lastPacketAt.getD w.startedAt)))
      ()).Follows timeout tracker := by
  constructor
  · show decide _ = true ↔ Overdue timeout (w.activity ++ [.poll (w.readings.getLastD 0) w.startedAt])
    rw [decide_eq_true_iff, overdue_poll, h.last, hnow]
  · exact h.last.trans (lastPacket_poll ..).symm

end Steps

theorem Watch.next_of_handles {e : MediaOp} (h : e.handles = true) (w : Watch) (r : mediaSig.Ans e) :
    w.next e r = w := by
  cases e <;> first | rfl | cases h

/-! ## An iteration of the loop -/

section Rounds

variable (P : PacketCodec ρ) (cfg : Config) (source : Leg)

theorem ensures_deliver (st : Stream) (packet : Packet ρ) (outputPayloadType : UInt8) :
    Ensures (fun x => ∀ st', x = .inl st' → st'.tracker = st.tracker)
      (deliver P source st packet outputPayloadType) := by
  unfold deliver
  dsimp only
  split
  · refine Prog.ensures_after fun _ => ?_
    simp
  refine Prog.ensures_after fun target => ?_
  cases target with
  | none => simp
  | some target =>
    refine Prog.ensures_after fun r => ?_
    cases r with
    | written => simp
    | closed => exact Prog.ensures_after fun _ => by simp
    | failed =>
      refine Prog.ensures_after fun done => ?_
      split_ifs
      · simp
      · simp

/-- A packet that is mapped is observed, whatever becomes of it then. -/
theorem ensures_forwardObserved (st : Stream) (packet : Packet ρ) (wireBytes : ℕ)
    (remote : RemoteConfig) (outputPayloadType : UInt8) (now : ℤ) :
    Ensures (fun x => ∀ st', x = .inl st' → st'.tracker = (st.tracker.observe packet now wireBytes).2)
      (forwardObserved P source st packet wireBytes remote outputPayloadType now) := by
  unfold forwardObserved
  dsimp only
  split_ifs
  · simp
  refine Prog.ensures_after fun sends => ?_
  split_ifs
  · simp
  refine Prog.ensures_after fun receives => ?_
  split_ifs
  · simp
  refine Prog.ensures_after fun decodes => ?_
  split_ifs
  · simp
  · exact ensures_deliver P source
      ⟨(st.tracker.observe packet now wireBytes).2, st.rewriter⟩ packet outputPayloadType

variable {source} {timeout : ℤ} {w : Watch}

/-- Operations that are not watched, and what follows them. -/
theorem safe_after_handles {α β : Type} {p : Prog mediaSig α} {f : α → Prog mediaSig β}
    {Q : β → Watch → Prop} (h : Only (MediaOp.handles · = true) p) (hw : w.Exact timeout)
    (hf : ∀ a, Safe (watchMonitor timeout) w (f a) Q) : Safe (watchMonitor timeout) w (p >>= f) Q := by
  exact h.safe_bind hw (fun e r he => w.next_of_handles he r) hf

def GoesOn (timeout : ℤ) : Stream ⊕ Option ForwardError → Watch → Prop :=
  Continues fun st w => w.Follows timeout st.tracker

theorem forwardPacket_follows {st : Stream} (h : w.Follows timeout st.tracker)
    (hpolling : w.polling = false) (packet : Packet ρ) (wireBytes : ℕ) (remote : RemoteConfig)
    (outputPayloadType : UInt8) :
    Safe (watchMonitor timeout) w
      (forwardPacket P source st packet wireBytes remote outputPayloadType) (GoesOn timeout) := by
  rw [forwardPacket, safe_bind, safe_call]
  intro (now : ℤ) hnow
  have hfollows := h.packet hpolling (observe_lastPacketAt st.tracker packet hnow wireBytes)
  refine ⟨hfollows.exact, ?_⟩
  have hsafe := (handles_forwardObserved P source st packet wireBytes remote outputPayloadType now).safe
    (M := watchMonitor timeout) hfollows.exact fun e r he => Watch.next_of_handles he _ r
  refine safe_mono (hsafe.and_ensures (ensures_forwardObserved P source _ _ _ _ _ _)) ?_
  rintro x _ ⟨rfl, hx⟩ st' heq
  rw [hx st' heq]
  exact hfollows

theorem forwardDatagram_follows {st : Stream} (h : w.Follows timeout st.tracker)
    (hpolling : w.polling = false) (bytes : List UInt8) (address : AddrPort) :
    Safe (watchMonitor timeout) w (forwardDatagram P source st bytes address) (GoesOn timeout) := by
  have hsame : GoesOn timeout (.inl st) w := by
    rintro _ ⟨⟩
    exact h
  have hinvalid : Safe (watchMonitor timeout) w (do op (.addInvalid source); return .inl st)
      (GoesOn timeout) := safe_after_handles (handles_op rfl) h.exact fun _ => safe_pure.mpr hsame
  unfold forwardDatagram
  refine safe_after_handles
    ((looksUp_acceptsRTP _ _).mono MediaOp.handles_of_looksUp) h.exact fun accepted => ?_
  split_ifs
  · exact hinvalid
  split
  · exact hinvalid
  · refine safe_after_handles (handles_op rfl) h.exact fun remote => ?_
    refine safe_after_handles (handles_op rfl) h.exact fun destination => ?_
    split
    · split
      · exact hinvalid
      · exact forwardPacket_follows P h hpolling _ _ _ _
    · exact safe_pure.mpr hsame

theorem updateTimeout_follows {tracker : Tracker} (h : w.Follows cfg.inactivityTimeout tracker)
    (hpolling : w.polling = true) :
    Safe (watchMonitor cfg.inactivityTimeout) w (updateTimeout cfg source tracker) fun _ w' =>
      w'.Follows cfg.inactivityTimeout tracker := by
  unfold updateTimeout
  rw [safe_bind, safe_call]
  intro (now : ℤ) _
  have hclock := h.clock hpolling now
  refine ⟨hclock.exact, ?_⟩
  rw [safe_bind, safe_call]
  intro started _
  have hstarted : ((w.next .now now).next .loadStarted started).Follows cfg.inactivityTimeout tracker :=
    ⟨hclock.exact, hclock.last⟩
  refine ⟨hstarted.exact, ?_⟩
  rw [safe_call]
  intro _ _
  have hlast : ((w.next .now now).next .loadStarted started).readings.getLastD 0 = now := by
    simp [Watch.next]
  have hstore := hstarted.store source hlast
  exact ⟨hstore.exact, hstore⟩

theorem rests_watchMonitor (h : w.Exact timeout) : Rests (watchMonitor timeout) w := by
  refine ⟨h, fun e r he => ?_⟩
  cases e <;> first | rfl | cases he

theorem forwardRound_follows {st : Stream} (h : w.Follows cfg.inactivityTimeout st.tracker) :
    Safe (watchMonitor cfg.inactivityTimeout) w (forwardRound P cfg source st)
      (GoesOn cfg.inactivityTimeout) := by
  refine safe_forwardRound (rests_watchMonitor h.exact) ?_ ?_ ?_
  · exact fun r => rests_watchMonitor (h.reading _).exact
  · exact fun bytes address => forwardDatagram_follows P (h.reading _) rfl bytes address
  · exact updateTimeout_follows cfg (h.reading _) rfl

theorem forwardRTP_exact (n : ℕ) (rewriter : Rewriter) :
    Safe (watchMonitor cfg.inactivityTimeout) .start (forwardRTP P cfg n source (.new rewriter))
      fun _ _ => True :=
  safe_forwardRTP (I := fun st w => w.Follows cfg.inactivityTimeout st.tracker)
    (fun _ _ h => rests_watchMonitor h.exact)
    (fun _ _ h => forwardRound_follows P cfg h) n (follows_start _ _)

/-! ## The flag -/

/-- **Inactivity.** In a run at times that do not fall, the flag is true after a packet only if a poll
has come `InactivityTimeout` or more after it, exactly if no packet came since the last poll or that
poll was not overdue. -/
theorem timedOut_inactive_iff {n : ℕ} {rewriter : Rewriter} {t : List (Event mediaSig)}
    {q : Prog mediaSig (Option ForwardError)}
    (hpath : Path (forwardRTP P cfg n source (.new rewriter)) t q)
    (hordered : (watched t).readings.Pairwise (· ≤ ·))
    (hrange : ∀ now : ℤ, (⟨.now, now⟩ : Event mediaSig) ∈ t → 0 < now ∧ now < 2 ^ 63) :
    (∀ before a after, (watched t).activity = before ++ .packet a :: after →
        (watched t).timedOut = true → ∃ p s, .poll p s ∈ after ∧ a + cfg.inactivityTimeout ≤ p) ↔
      Prompt cfg.inactivityTimeout (watched t).activity := by
  have hadmitted : Prog.Admitted (watchMonitor cfg.inactivityTimeout) t := by
    rintro ⟨e, r⟩ hev
    cases e with
    | now => exact hrange r hev
    | _ => trivial
  have hexact : (watched t).Exact cfg.inactivityTimeout :=
    Prog.good_of_path (forwardRTP_exact P cfg n rewriter) (follows_start _ rewriter).exact hpath
      hadmitted
  constructor
  · intro hclaim before p s packets hsplit hne
    by_contra hdue
    have hflag := hexact.mpr ⟨before, p, s, packets, hsplit, not_lt.mp hdue⟩
    -- the last packet has no poll after it
    obtain ⟨packets, a, rfl⟩ := (List.eq_nil_or_concat packets).resolve_left hne
    rw [List.concat_eq_append, List.map_append, ← List.cons_append, ← List.append_assoc] at hsplit
    obtain ⟨p, s, hp, -⟩ := hclaim _ a [] hsplit hflag
    cases hp
  · intro hprompt before a after hsplit hflag
    obtain ⟨earlier, p, s, packets, hpoll, hdue⟩ := hexact.mp hflag
    obtain rfl : packets = [] := by
      by_contra hne
      exact absurd hdue (not_le.mpr (hprompt earlier p s packets hpoll hne))
    -- the poll is the last thing that happened, so the packet came before it
    have hne : after ≠ [] := by
      rintro rfl
      cases (List.append_inj' (hsplit.symm.trans hpoll) rfl).2
    obtain ⟨rest, x, rfl⟩ := (List.eq_nil_or_concat after).resolve_left hne
    rw [List.concat_eq_append, ← List.cons_append, ← List.append_assoc] at hsplit
    obtain ⟨rfl, hx⟩ := List.append_inj' (hsplit.symm.trans hpoll) rfl
    cases hx
    have htimes := hordered.sublist (observed_sublist t)
    rw [hpoll, List.filterMap_append] at htimes
    obtain ⟨b, hb, hle⟩ := le_lastPacket (List.pairwise_append.mp htimes).1
      (List.mem_append_right before (List.mem_cons_self (a := Activity.packet a)))
    rw [hb, Option.getD_some] at hdue
    exact ⟨p, s, by simp, by omega⟩

end Rounds

/-- A packet, a pause of one poll, and packets again; the clock follows the operations. -/
def pausedAnswer (i : ℕ) : (e : MediaOp) → mediaSig.Ans e
  | .loadRemote .. => some ⟨aliceMedia.rtp, aliceMedia.rtcp, 0, 101, true, .sendRecv⟩
  | .loadLearned .. => 4000
  | .read _ =>
    if i = 15 then .timeout else .datagram [2, 0, i.toUInt8, 50, 1, 170, 187] aliceMedia.rtp
  | .write .. => .written
  | .now => (20 * i : ℕ)
  | .loadStarted => 0
  | .rtpConn _ | .setReadDeadline .. | .casLearned .. => true
  | .ctxDone => false
  | .storeRemote .. | .storeLearned .. | .storeMapping _ => ()
  | .addInvalid _ | .addDtmfEvent _ | .storeTimedOut .. => ()

def pausedLoop : Prog mediaSig (Option ForwardError) :=
  forwardRTP plainCodec mediaConfig 9 .caller (.new (newRewriter 7 0 0))

def pausedRun (k : ℕ) : List (Event mediaSig) := (Prog.play pausedAnswer k 0 pausedLoop).1

theorem path_pausedRun (k : ℕ) : ∃ q, Path pausedLoop (pausedRun k) q :=
  ⟨_, Prog.play_path (S := mediaSig) pausedAnswer k 0 pausedLoop⟩

def readsInRange : Event mediaSig → Bool
  | ⟨.now, now⟩ => decide (0 < (now : ℤ)) && decide ((now : ℤ) < 2 ^ 63)
  | _ => true

theorem pausedRun_inRange {k : ℕ} (h : (pausedRun k).all readsInRange = true) (now : ℤ)
    (hnow : (⟨.now, now⟩ : Event mediaSig) ∈ pausedRun k) : 0 < now ∧ now < 2 ^ 63 := by
  simpa [readsInRange] using List.all_eq_true.mp h _ hnow

/-- The poll after the packet. -/
theorem timedOut_inactive_paused :
    (watched (pausedRun 20)).timedOut = true ∧
      ∃ p s, .poll p s ∈ [Activity.poll 340 0] ∧ 160 + mediaConfig.inactivityTimeout ≤ p := by
  have hactivity : (watched (pausedRun 20)).activity = [.packet 160, .poll 340 0] := by decide +kernel
  have hflag : (watched (pausedRun 20)).timedOut = true := by decide +kernel
  obtain ⟨q, hpath⟩ := path_pausedRun 20
  have hiff := timedOut_inactive_iff plainCodec mediaConfig hpath (by decide +kernel)
    (pausedRun_inRange (by decide +kernel))
  refine ⟨hflag, hiff.mpr ?_ [] 160 [.poll 340 0] hactivity hflag⟩
  rw [hactivity]
  exact prompt_poll [.packet 160] 340 0

/-- Packets that come again after the pause do not clear the flag. -/
theorem timedOut_resumed :
    (∃ q, Path pausedLoop (pausedRun 40) q) ∧
      (watched (pausedRun 40)).readings = [160, 340, 520, 760] ∧
      (watched (pausedRun 40)).activity = [.packet 160, .poll 340 0, .packet 520, .packet 760] ∧
      (watched (pausedRun 40)).timedOut = true ∧
      ¬∃ p s, .poll p s ∈ [Activity.packet 760] ∧ 520 + mediaConfig.inactivityTimeout ≤ p := by
  refine ⟨path_pausedRun 40, ?_, ?_, ?_, by simp⟩
  · decide +kernel
  · decide +kernel
  · decide +kernel

end AixvolinkPbx.Media
