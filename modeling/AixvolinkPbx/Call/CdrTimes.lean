import AixvolinkPbx.Call.Cdr

/-!
# Answer and end times of a call and of its record

The actor stamps the answer of a call whenever it enters `answered`, so again when a held call is
resumed; the row of the call keeps the first time. The end is stamped once. The row has the times as
its columns keep them.

1. `timesMonitor` observes publisher, clock and snapshot; with a clock that stands still during a
   transition and a publisher that accepts everything the snapshot has the last answer and the last end
   among the accepted events (`Stamped`).
2. `answer_times_agree_iff`: the end times agree exactly if the column keeps the end as it was stamped,
   the answer times exactly if the first answer, as the column keeps it, is the last.
   `resumed_answer_differs` is a call that is held and resumed.
-/

namespace AixvolinkPbx.Calls

open Prog (Safe safe_bind safe_call safe_pure safe_mono safe_loop Path)

/-! ## The observer -/

/-- Two operations in a row do not read different times. -/
def sameReading : Event actorSig → Event actorSig → Bool
  | ⟨.now, time⟩, ⟨.now, time'⟩ => decide (time = time')
  | _, _ => true

/-- The clock stands still while a transition is applied. -/
def SteadyClock (t : List (Event actorSig)) : Prop :=
  t.IsChain fun ev ev' => sameReading ev ev' = true

structure Clocked where
  /-- What the last operation read from the clock. -/
  reading : Option ℤ
  steady : Bool
  accepted : List CallEvent
  snapshot : Call
  /-- An accepted transition has not reached the snapshot yet. -/
  storing : Bool

def nextClocked (g : Clocked) : (e : ActorOp) → actorSig.Ans e → Clocked
  | .now, time =>
    { g with reading := some time, steady := g.steady && g.reading.all (· = time), storing := false }
  | .publish event, .ok _ =>
    { g with reading := none, accepted := g.accepted ++ [event], storing := event.newState ≠ .empty }
  | .store snapshot, _ => { g with reading := none, snapshot := snapshot, storing := false }
  | _, _ => { g with reading := none, storing := false }

/-- The call has the times of the last answer and the last end among the events; `call` is the one of
`NewActor`. -/
structure Stamped (call : Call) (events : List CallEvent) (current : Call) : Prop where
  answeredAt : current.answeredAt = (answerTimes events).getLast?.getD call.answeredAt
  endedAt : current.endedAt = (endTimes events).getLast?.getD call.endedAt
  id : current.id = call.id
  ids : ∀ e ∈ events, e.callID = call.id

def timesMonitor (call : Call) : Monitor actorSig Clocked where
  next := nextClocked
  good g := g.steady = true → g.storing = false → Stamped call g.accepted g.snapshot
  admits
    | .publish _, res => res = .ok ()
    | _, _ => True

def Clocked.start (call : Call) : Clocked := ⟨none, true, [], call, false⟩

/-- Between two commands. -/
structure Paused (call : Call) (a : Actor) (g : Clocked) : Prop where
  reading : g.reading = none
  storing : g.storing = false
  snapshot : g.steady = true → Stamped call g.accepted g.snapshot
  current : g.steady = true → Stamped call g.accepted a.call

/-! ## The actor under the observer -/

section Actor

variable {call : Call}

theorem stamped_start (call : Call) : Stamped call [] call := ⟨rfl, rfl, rfl, by simp⟩

theorem advance_id (current : Call) (transition : Transition) (time : ℤ) :
    (advance current transition time).id = current.id := by
  unfold advance
  split_ifs <;> rfl

variable {events : List CallEvent}

theorem Stamped.quiet {current : Call} {event : CallEvent} (h : Stamped call events current)
    (hanswered : answeredValue event = none) (hended : endedValue event = none)
    (hid : event.callID = call.id) :
    Stamped call (events ++ [event]) current := by
  refine ⟨?_, ?_, h.id, ?_⟩
  · rw [h.answeredAt, answerTimes_concat, hanswered, Option.toList_none, List.append_nil]
  · rw [h.endedAt, endTimes_concat, hended, Option.toList_none, List.append_nil]
  · intro e he
    rcases List.mem_append.mp he with he | he
    · exact h.ids e he
    · rwa [List.mem_singleton.mp he]

/-- A transition at the time of its event keeps the stamps. -/
theorem Stamped.advance {current : Call} {event : CallEvent} {transition : Transition}
    (h : Stamped call events current) (hstate : event.newState = transition.state)
    (hid : event.callID = call.id) :
    Stamped call (events ++ [event]) (advance current transition event.occurredAt) := by
  have hanswered : (Calls.advance current transition event.occurredAt).answeredAt =
      (answeredValue event).getD current.answeredAt := by
    rw [Calls.advance, answeredValue, hstate]
    split_ifs <;> rfl
  have hended : (Calls.advance current transition event.occurredAt).endedAt =
      (endedValue event).getD current.endedAt := by
    rw [Calls.advance, endedValue, hstate]
    by_cases hterminal : transition.state = .terminated ∨ transition.state = .failed
    · rw [if_pos (by simpa [isTerminal] using hterminal), if_pos hterminal]
      rfl
    · rw [if_neg (by simpa [isTerminal] using hterminal), if_neg hterminal]
      split_ifs <;> rfl
  refine ⟨?_, ?_, ?_, ?_⟩
  · rw [hanswered, h.answeredAt, answerTimes_concat, List.getLast?_append]
    cases answeredValue event <;> simp
  · rw [hended, h.endedAt, endTimes_concat, List.getLast?_append]
    cases endedValue event <;> simp
  · rw [advance_id, h.id]
  · intro e he
    rcases List.mem_append.mp he with he | he
    · exact h.ids e he
    · rwa [List.mem_singleton.mp he]

theorem apply_paused {a : Actor} {g : Clocked} (h : Paused call a g) (transition : Transition) :
    Safe (timesMonitor call) g (apply a transition) fun res g' => Paused call res.2 g' := by
  unfold apply
  split_ifs with hsame hbad
  · exact safe_pure.mpr h
  · exact safe_pure.mpr h
  · have hallowed : allowedTransition a.call.state transition.state = true := by simpa using hbad
    have hnonempty : transition.state ≠ .empty := by
      intro hempty
      rw [hempty, not_allowedTransition_empty] at hallowed
      cases hallowed
    simp only [now, publish, publisherPublish, safe_bind, safe_call]
    intro (time : ℤ) _
    have hfirst : (nextClocked g .now time).steady = true → g.steady = true :=
      fun hs => (Bool.and_eq_true_iff.mp hs).1
    refine ⟨fun hs _ => h.snapshot (hfirst hs), fun (time' : ℤ) _ => ?_⟩
    -- a steady clock has shown one time to the transition and to its event
    have hsecond : (nextClocked (nextClocked g .now time) .now time').steady = true →
        g.steady = true ∧ time = time' := by
      intro hs
      obtain ⟨hs, htime⟩ := Bool.and_eq_true_iff.mp hs
      exact ⟨hfirst hs, by simpa [nextClocked] using htime⟩
    refine ⟨fun hs _ => h.snapshot (hsecond hs).1, ?_⟩
    rintro (err | _) hok
    · cases hok
    · refine ⟨fun _ hst => ?_, ?_⟩
      · have hst : decide (transition.state ≠ .empty) = false := hst
        exact absurd hnonempty (of_decide_eq_false hst)
      · simp only [safe_pure, storeSnapshot, safe_bind, safe_call]
        intro _ _
        have hstamped : (nextClocked (nextClocked g .now time) .now time').steady = true →
            Stamped call (g.accepted ++ [eventOf ⟨advance a.call transition time, a.sequence + 1⟩
              transition.protocolEvent transition.reason a.call.state transition.state transition.legID
              time']) (advance a.call transition time) := by
          intro hs
          obtain ⟨hsteady, rfl⟩ := hsecond hs
          have hcurrent := h.current hsteady
          exact hcurrent.advance rfl ((advance_id ..).trans hcurrent.id)
        exact ⟨fun hs _ => hstamped hs, rfl, rfl, hstamped, hstamped⟩

theorem loopInvariant_paused : LoopInvariant (timesMonitor call) (Paused call) where
  select h _ := ⟨fun hs _ => h.snapshot hs, rfl, rfl, h.snapshot, h.current⟩
  apply h transition := apply_paused h transition
  reply h _ _ _ := ⟨fun hs _ => h.snapshot hs, rfl, rfl, h.snapshot, h.current⟩

theorem run_paused (call : Call) (n : ℕ) :
    Safe (timesMonitor call) (.start call) (run n ⟨call, 0⟩) fun _ g => ∃ a, Paused call a g := by
  have hstart := stamped_start call
  have hbody : Safe (timesMonitor call) (.start call) (body n ⟨call, 0⟩) fun _ g =>
      ∃ a, Paused call a g := by
    refine loopInvariant_paused.body (fun h => ⟨_, h⟩) ?_ n
    simp only [publish, now, publisherPublish, safe_bind, safe_call]
    refine fun (time : ℤ) _ => ⟨fun _ _ => hstart, ?_⟩
    rintro (err | _) hok
    · cases hok
    · -- the first event neither answers nor ends the call
      have hcreated : Stamped call
          ([] ++ [eventOf ⟨call, 0 + 1⟩ "created" "" call.state .empty "" time]) call :=
        hstart.quiet rfl rfl rfl
      refine ⟨fun _ _ => hcreated, safe_pure.mpr ⟨by simp, fun _ => ?_⟩⟩
      exact ⟨rfl, rfl, fun _ => hcreated, fun _ => hcreated⟩
  unfold run
  refine .bind hbody ?_
  rintro err g ⟨a, h⟩
  simp only [close, safe_bind, safe_call]
  exact fun _ _ => ⟨fun hs _ => h.snapshot hs, safe_pure.mpr ⟨a, rfl, rfl, h.snapshot, h.current⟩⟩

end Actor

/-! ## Event sequences -/

theorem run_timesMonitor (call : Call) (g : Clocked) (t : List (Event actorSig)) :
    ((timesMonitor call).run g t).accepted = g.accepted ++ accepted t ∧
      ((timesMonitor call).run g t).snapshot = snapshot g.snapshot t := by
  induction t generalizing g with
  | nil => simp [accepted, snapshot]
  | cons ev t ih =>
    obtain ⟨haccepted, hsnapshot⟩ := ih ((timesMonitor call).next g ev.op ev.ans)
    rw [Monitor.run_cons, haccepted, hsnapshot]
    obtain ⟨op, ans⟩ := ev
    cases op with
    | publish event =>
      cases ans with
      | error err => exact ⟨rfl, rfl⟩
      | ok _ => exact ⟨List.append_assoc .., rfl⟩
    | _ => exact ⟨rfl, rfl⟩

theorem storing_timesMonitor (call : Call) (t : List (Event actorSig)) :
    ((timesMonitor call).run (.start call) t).storing = storing t := by
  rcases List.eq_nil_or_concat t with rfl | ⟨u, ⟨op, ans⟩, rfl⟩
  · rfl
  · rw [List.concat_eq_append, Monitor.run_append, Monitor.run_cons, Monitor.run_nil, storing,
      List.getLast?_concat]
    cases op with
    | publish event => cases ans <;> rfl
    | _ => rfl

theorem steady_timesMonitor (call : Call) {g : Clocked} {t : List (Event actorSig)}
    (hg : g.steady = true)
    (hnext : ∀ time ∈ g.reading, ∀ ev ∈ t.head?, sameReading ⟨.now, time⟩ ev = true)
    (ht : SteadyClock t) : ((timesMonitor call).run g t).steady = true := by
  induction t generalizing g with
  | nil => exact hg
  | cons ev t ih =>
    have hchain : ∀ ev' ∈ t.head?, sameReading ev ev' = true := by
      intro ev' hev'
      cases t with
      | nil => cases hev'
      | cons ev'' t =>
        cases hev'
        exact (List.isChain_cons_cons.mp ht).1
    have hrest : SteadyClock t := ht.of_cons
    obtain ⟨op, ans⟩ := ev
    rw [Monitor.run_cons]
    cases op with
    | now =>
      refine ih ?_ ?_ hrest
      · refine Bool.and_eq_true_iff.mpr ⟨hg, ?_⟩
        cases hreading : g.reading with
        | none => rfl
        | some time =>
          exact hnext time hreading _ rfl
      · intro time htime
        cases htime
        exact hchain
    | publish event =>
      cases ans with
      | error err => exact ih hg (by simp [timesMonitor, nextClocked]) hrest
      | ok _ => exact ih hg (by simp [timesMonitor, nextClocked]) hrest
    | _ => exact ih hg (by simp [timesMonitor, nextClocked]) hrest

/-! ## The times of the record -/

def nullable (time : ℤ) : Option ℤ := if time = Time.zero then none else some time

theorem nullable_getLast {times : List ℤ} (h : ∀ time ∈ times, time ≠ Time.zero) :
    nullable (times.getLast?.getD Time.zero) = times.getLast? := by
  cases hlast : times.getLast? with
  | none => rfl
  | some time => exact if_neg (h time (List.mem_of_getLast? hlast))

theorem mem_answerTimes {time : ℤ} (h : time ∈ answerTimes events) :
    ∃ e ∈ events, e.occurredAt = time := by
  obtain ⟨e, he, hvalue⟩ := List.mem_filterMap.mp h
  unfold answeredValue at hvalue
  split_ifs at hvalue
  exact ⟨e, he, Option.some.inj hvalue⟩

theorem mem_endTimes {time : ℤ} (h : time ∈ endTimes events) :
    ∃ e ∈ events, e.occurredAt = time := by
  obtain ⟨e, he, hvalue⟩ := List.mem_filterMap.mp h
  unfold endedValue at hvalue
  split_ifs at hvalue
  exact ⟨e, he, Option.some.inj hvalue⟩

/-- The row of a call has the end time of its snapshot exactly if the column keeps that time, and its
answer time exactly if the column makes the time of the first answer the one of the last. -/
theorem answer_times_agree_iff (capacity : ℤ) (call : Call) (a : Actor)
    (hactor : newActor capacity call = .ok a) (hanswered : call.answeredAt = Time.zero)
    (hended : call.endedAt = Time.zero) (n : ℕ) (t : List (Event actorSig))
    (p : Prog actorSig (Option ActorError)) (h : Path (run n a) t p)
    (hpublish : ∀ ev ∈ t, refusal ev = false) (hclock : SteadyClock t)
    (hzero : ∀ e ∈ accepted t, e.occurredAt ≠ Time.zero) (hstored : storing t = false)
    (hsome : accepted t ≠ []) (columns : Columns) (db db' : CallTables)
    (hnone : db.calls.lookup call.id = none)
    (hwrite : writeCallEvents columns db (accepted t) = .ok db') :
    ∃ row, db'.calls.lookup call.id = some row ∧
      (row.endedAt = nullable (snapshot call t).endedAt ↔
        ∀ time ∈ (endTimes (accepted t)).getLast?, columns.time time = time) ∧
      (row.answeredAt = nullable (snapshot call t).answeredAt ↔
        (answerTimes (accepted t)).head?.map columns.time = (answerTimes (accepted t)).getLast?) := by
  obtain rfl := eq_of_newActor hactor
  have hadmitted : Prog.Admitted (timesMonitor call) t := by
    rintro ⟨op, ans⟩ hev
    cases op with
    | publish event =>
      cases ans with
      | error err => cases hpublish _ hev
      | ok _ => rfl
    | _ => trivial
  have hgood := Prog.good_of_path (run_paused call n) (fun _ _ => stamped_start call) h hadmitted
  have hstamped := hgood (steady_timesMonitor call rfl (by simp [Clocked.start]) hclock)
    ((storing_timesMonitor call t).trans hstored)
  obtain ⟨haccepted, hsnapshot⟩ := run_timesMonitor call (.start call) t
  rw [hsnapshot, haccepted] at hstamped
  have hstamped : Stamped call (accepted t) (snapshot call t) := hstamped
  obtain ⟨row, hrow, hanswer, hend⟩ := written_times hstamped.ids hsome hnone hwrite
  refine ⟨row, hrow, ?_, ?_⟩
  · rw [hend, hstamped.endedAt, hended, nullable_getLast fun time htime => ?_]
    · cases (endTimes (accepted t)).getLast? <;> simp
    · obtain ⟨e, he, rfl⟩ := mem_endTimes htime
      exact hzero e he
  · rw [hanswer, hstamped.answeredAt, hanswered, nullable_getLast fun time htime => ?_]
    obtain ⟨e, he, rfl⟩ := mem_answerTimes htime
    exact hzero e he

/-! ## A call that is held and resumed -/

def freshCall : Call := { callIn .new with answeredAt := Time.zero, endedAt := Time.zero }

/-- The states the call is asked to enter, and the clock, by the number of the operation. -/
def resumingAnswer (i : ℕ) : (e : ActorOp) → actorSig.Ans e
  | .now => ((i + 4) / 6 : ℕ) * Time.second
  | .select => .command ⟨⟨match i with
      | 2 => .routing
      | 8 => .answered
      | 14 => .held
      | _ => .answered, "", "", "INVITE"⟩, 0⟩
  | e => answering .new (.ok ()) e

/-- The call is answered at 2 s, held at 3 s and resumed at 4 s, up to the first `n` operations. -/
def resuming (n : ℕ) : List (Event actorSig) :=
  (Prog.play resumingAnswer n 0 (run 4 ⟨freshCall, 0⟩)).1

/-- The record of the resumed call has its first answer, the snapshot the resumption. -/
theorem resumed_answer_differs : ∃ p db' row, Path (run 4 ⟨freshCall, 0⟩) (resuming 26) p ∧
    (∀ ev ∈ resuming 26, refusal ev = false) ∧ SteadyClock (resuming 26) ∧
    storing (resuming 26) = false ∧
    writeCallEvents roundingColumns noCalls (accepted (resuming 26)) = .ok db' ∧
    db'.calls.lookup freshCall.id = some row ∧ row.answeredAt = some (2 * Time.second) ∧
    (snapshot freshCall (resuming 26)).answeredAt = 4 * Time.second := by
  have hpath := Prog.play_path (S := actorSig) resumingAnswer 26 0 (run 4 ⟨freshCall, 0⟩)
  have hsteady : SteadyClock (resuming 26) := by
    unfold SteadyClock
    decide
  exact ⟨_, _, _, hpath, by decide, hsteady, rfl, rfl, rfl, rfl, rfl⟩

theorem answer_times_agree_answered : ∃ db' row,
    writeCallEvents roundingColumns noCalls (accepted (resuming 14)) = .ok db' ∧
    db'.calls.lookup freshCall.id = some row ∧
    (snapshot freshCall (resuming 14)).answeredAt = 2 * Time.second ∧
    row.answeredAt = nullable (snapshot freshCall (resuming 14)).answeredAt := by
  have hpath := Prog.play_path (S := actorSig) resumingAnswer 14 0 (run 4 ⟨freshCall, 0⟩)
  have hsteady : SteadyClock (resuming 14) := by
    unfold SteadyClock
    decide
  obtain ⟨row, hrow, -, hagree⟩ := answer_times_agree_iff 1 freshCall _ rfl rfl rfl 4 (resuming 14) _
    hpath (by decide) hsteady (by decide) rfl (by decide) roundingColumns noCalls _ rfl rfl
  exact ⟨_, row, rfl, hrow, rfl, hagree.mpr rfl⟩

end AixvolinkPbx.Calls
