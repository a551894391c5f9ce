import AixvolinkPbx.Call.Traced
import AixvolinkPbx.Call.History
import AixvolinkPbx.Lib.Table
import Mathlib.Data.List.Induction

/-!
# Call records on MySQL (`internal/platform/mysql/store.go`, `WriteCallEvent`)

Every event an actor publishes is written to MySQL: as a row of `call_events`, and into the row of its
call in `calls`, an `INSERT … ON DUPLICATE KEY UPDATE`. The transaction of an event takes effect as a
whole or not at all. What the columns hold is a parameter: a `DATETIME(6)` keeps microseconds.

1. After some events of a call its row has the state of the last one (`written_states`), the first time
   of an answer and the last time of an end (`written_times`).
2. `row_follows_iff` compares it with the call of the actor when the event is published. They agree on
   every event but the first, which says that the call left the state it is in.
-/

namespace AixvolinkPbx.Calls

open Prog (Safe safe_bind safe_pure safe_mono safe_loop safe_plain_call safe_note Path)

/-! ## Tables -/

structure CallRow where
  callID : String
  tenantID : String
  nodeID : String
  direction : String
  callerLegID : String
  calleeLegID : String
  state : State
  startedAt : ℤ
  answeredAt : Option ℤ
  endedAt : Option ℤ
  cause : String
  updatedAt : ℤ
  deriving DecidableEq, Repr

structure EventRow where
  callID : String
  sequence : UInt64
  tenantID : String
  legID : String
  nodeID : String
  oldState : State
  newState : State
  reason : String
  protocolEvent : String
  occurredAt : ℤ
  deriving DecidableEq, Repr

/-- The two tables, by their primary keys. -/
structure CallTables where
  calls : Table String CallRow
  callEvents : Table (String × UInt64) EventRow

inductive WriteError
  | columns
  | duplicateEvent
  deriving DecidableEq, Repr

/-! ## WriteCallEvent -/

def answeredValue (event : CallEvent) : Option ℤ :=
  if event.newState = .answered then some event.occurredAt else none

def endedValue (event : CallEvent) : Option ℤ :=
  if event.newState = .terminated ∨ event.newState = .failed then some event.occurredAt else none

/-- What the columns of the two tables keep. -/
structure Columns where
  /-- Whether they can hold the values of an event. -/
  fits : CallEvent → Bool
  /-- The time a `DATETIME(6)` holds when it is given this one. -/
  time : ℤ → ℤ

/-- The values of the `INSERT INTO calls`. -/
def callRow (columns : Columns) (event : CallEvent) : CallRow where
  callID := event.callID
  tenantID := event.tenantID
  nodeID := event.nodeID
  direction := event.direction
  callerLegID := event.callerLeg
  calleeLegID := event.calleeLeg
  state := event.newState
  startedAt := columns.time event.occurredAt
  answeredAt := (answeredValue event).map columns.time
  endedAt := (endedValue event).map columns.time
  cause := event.reason
  updatedAt := columns.time event.occurredAt

/-- Its `ON DUPLICATE KEY UPDATE`. -/
def updateCall (values old : CallRow) : CallRow :=
  { old with
    state := values.state
    answeredAt := old.answeredAt.or values.answeredAt
    endedAt := values.endedAt.or old.endedAt
    cause := if values.cause = "" then old.cause else values.cause
    updatedAt := values.updatedAt }

/-- The values of the `INSERT INTO call_events`. -/
def eventRow (columns : Columns) (event : CallEvent) : EventRow where
  callID := event.callID
  sequence := event.sequence
  tenantID := event.tenantID
  legID := event.legID
  nodeID := event.nodeID
  oldState := event.oldState
  newState := event.newState
  reason := event.reason
  protocolEvent := event.protocolEvent
  occurredAt := columns.time event.occurredAt

/-- `WriteCallEvent`. -/
def writeCallEvent (columns : Columns) (db : CallTables) (event : CallEvent) :
    Except WriteError CallTables :=
  if !columns.fits event then .error .columns
  else if (db.callEvents.lookup (event.callID, event.sequence)).isSome then .error .duplicateEvent
  else .ok
    { calls := db.calls.insert event.callID
        (match db.calls.lookup event.callID with
        | none => callRow columns event
        | some old => updateCall (callRow columns event) old)
      callEvents := db.callEvents.insert (event.callID, event.sequence) (eventRow columns event) }

def writeCallEvents (columns : Columns) (db : CallTables) (events : List CallEvent) :
    Except WriteError CallTables :=
  events.foldlM (writeCallEvent columns) db

/-! ## The row of a call -/

def answerTimes (events : List CallEvent) : List ℤ := events.filterMap answeredValue

def endTimes (events : List CallEvent) : List ℤ := events.filterMap endedValue

theorem answerTimes_concat (events : List CallEvent) (event : CallEvent) :
    answerTimes (events ++ [event]) = answerTimes events ++ (answeredValue event).toList := by
  rw [answerTimes, answerTimes, List.filterMap_append]
  cases hv : answeredValue event <;> simp [hv]

theorem endTimes_concat (events : List CallEvent) (event : CallEvent) :
    endTimes (events ++ [event]) = endTimes events ++ (endedValue event).toList := by
  rw [endTimes, endTimes, List.filterMap_append]
  cases hv : endedValue event <;> simp [hv]

section Written

variable {columns : Columns} {db db' : CallTables} {event : CallEvent} {events : List CallEvent}

theorem writeCallEvent_eq_ok (h : writeCallEvent columns db event = .ok db') :
    db'.calls.lookup event.callID = some (match db.calls.lookup event.callID with
      | none => callRow columns event
      | some old => updateCall (callRow columns event) old) ∧
    db'.callEvents.lookup (event.callID, event.sequence) = some (eventRow columns event) := by
  unfold writeCallEvent at h
  split_ifs at h
  cases h
  exact ⟨AList.lookup_insert .., AList.lookup_insert ..⟩

theorem writeCallEvents_concat (h : writeCallEvents columns db (events ++ [event]) = .ok db') :
    ∃ db₁, writeCallEvents columns db events = .ok db₁ ∧
      writeCallEvent columns db₁ event = .ok db' := by
  rw [writeCallEvents, List.foldlM_append] at h
  cases hfirst : List.foldlM (writeCallEvent columns) db events with
  | error e =>
    rw [hfirst] at h
    cases h
  | ok db₁ =>
    rw [hfirst] at h
    have hrest : List.foldlM (writeCallEvent columns) db₁ [event] = .ok db' := h
    refine ⟨db₁, hfirst, ?_⟩
    simpa using hrest

theorem written_states (h : writeCallEvents columns db (events ++ [event]) = .ok db') :
    (∃ row, db'.calls.lookup event.callID = some row ∧ row.state = event.newState) ∧
      ∃ row, db'.callEvents.lookup (event.callID, event.sequence) = some row ∧
        row.newState = event.newState := by
  obtain ⟨db₁, -, hwrite⟩ := writeCallEvents_concat h
  obtain ⟨hcalls, hevents⟩ := writeCallEvent_eq_ok hwrite
  refine ⟨⟨_, hcalls, ?_⟩, _, hevents, rfl⟩
  cases db₁.calls.lookup event.callID <;> rfl

/-- The times in the row of a call that had none before: the first answer, the last end. -/
theorem written_times {id : String} (hid : ∀ e ∈ events, e.callID = id) (hnil : events ≠ [])
    (hnone : db.calls.lookup id = none) (h : writeCallEvents columns db events = .ok db') :
    ∃ row, db'.calls.lookup id = some row ∧
      row.answeredAt = (answerTimes events).head?.map columns.time ∧
      row.endedAt = (endTimes events).getLast?.map columns.time := by
  induction events using List.reverseRecOn generalizing db' with
  | nil => exact absurd rfl hnil
  | append_singleton events event ih =>
    obtain ⟨db₁, hfirst, hwrite⟩ := writeCallEvents_concat h
    obtain rfl : event.callID = id := hid event (by simp)
    obtain ⟨hrow, -⟩ := writeCallEvent_eq_ok hwrite
    rw [answerTimes_concat, endTimes_concat, List.head?_append, List.getLast?_append]
    by_cases hempty : events = []
    · subst hempty
      cases hfirst
      rw [hnone] at hrow
      refine ⟨_, hrow, ?_, ?_⟩
      · show (answeredValue event).map columns.time = _
        cases answeredValue event <;> rfl
      · show (endedValue event).map columns.time = _
        cases endedValue event <;> rfl
    · obtain ⟨old, hold, hanswered, hended⟩ :=
        ih (fun e he => hid e (List.mem_append_left _ he)) hempty hfirst
      rw [hold] at hrow
      refine ⟨_, hrow, ?_, ?_⟩
      · show old.answeredAt.or ((answeredValue event).map columns.time) = _
        rw [hanswered]
        cases (answerTimes events).head? <;> cases answeredValue event <;> rfl
      · show ((endedValue event).map columns.time).or old.endedAt = _
        rw [hended]
        cases endedValue event <;> rfl

end Written

/-! ## The state of the actor's call -/

structure Published where
  /-- The call of the last note. -/
  noted : Call
  /-- The accepted events, each with the call of the actor when it was published. -/
  events : List (CallEvent × Call)

def nextPublished (g : Published) : (e : tracedSig.Op) → tracedSig.Ans e → Published
  | .inr (.publishing call), _ => { g with noted := call }
  | .inl (.publish event), .ok _ => { g with events := g.events ++ [(event, g.noted)] }
  | _, _ => g

/-- Every event but the first carries the state of the call. -/
structure Carried (events : List (CallEvent × Call)) : Prop where
  created : ∀ p ∈ events.head?, p.1.newState = .empty ∧ p.2.state = .new
  entered : ∀ p ∈ events.tail, p.1.newState = p.2.state

def publishedMonitor : Monitor tracedSig Published where
  next := nextPublished
  good g := Carried g.events
  admits _ _ := True

/-- The accepted events of a run, with the call when they were published; `call` is the one of
`NewActor`. -/
def published (call : Call) (t : List (Event tracedSig)) : List (CallEvent × Call) :=
  (publishedMonitor.run ⟨call, []⟩ t).events

theorem map_fst_published (call : Call) (t : List (Event tracedSig)) :
    (published call t).map Prod.fst = accepted (Prog.eraseEvents t) := by
  have key : ∀ g : Published, (publishedMonitor.run g t).events.map Prod.fst =
      g.events.map Prod.fst ++ accepted (Prog.eraseEvents t) := by
    induction t with
    | nil => simp [Prog.eraseEvents, accepted]
    | cons ev t ih =>
      intro g
      rw [Monitor.run_cons, ih]
      obtain ⟨op, ans⟩ := ev
      cases op with
      | inl op =>
        cases op with
        | publish event =>
          cases ans with
          | error err => rfl
          | ok _ =>
            show (g.events ++ [(event, g.noted)]).map Prod.fst ++ _ =
              g.events.map Prod.fst ++ event :: accepted (Prog.eraseEvents t)
            simp
        | _ => rfl
      | inr n => cases n <;> rfl
  exact key _

theorem Carried.concat {events : List (CallEvent × Call)} (h : Carried events) (hne : events ≠ [])
    {event : CallEvent} {call : Call} (hstate : event.newState = call.state) :
    Carried (events ++ [(event, call)]) := by
  constructor
  · rw [List.head?_append_of_ne_nil _ hne]
    exact h.created
  · rw [List.tail_append_of_ne_nil hne]
    intro p hp
    rcases List.mem_append.mp hp with hp | hp
    · exact h.entered p hp
    · rwa [List.mem_singleton.mp hp]

variable {g : Published}

theorem tracedPublish_carried {a : Actor} {protocolEvent reason legID : String}
    {oldState newState : State} (h : Carried g.events)
    (haccept : ∀ event : CallEvent, event.newState = newState →
      Carried (g.events ++ [(event, a.call)])) :
    Safe publishedMonitor g (tracedPublish a protocolEvent reason oldState newState legID)
      fun res g' => Carried g'.events ∧ (g.events ≠ [] ∨ res.1 = .ok () → g'.events ≠ []) := by
  simp only [tracedPublish, now, publisherPublish, safe_bind, safe_plain_call, safe_note]
  intro time _
  refine ⟨h, fun _ => ⟨h, ?_⟩⟩
  rintro (err | _) _
  · exact ⟨h, safe_pure.mpr ⟨h, fun hne => hne.resolve_right (by simp)⟩⟩
  · have hcarried := haccept (eventOf { a with sequence := a.sequence + 1 } protocolEvent reason
      oldState newState legID time) rfl
    exact ⟨hcarried, safe_pure.mpr ⟨hcarried, fun _ => List.concat_ne_nil _ _⟩⟩

theorem tracedApply_carried (a : Actor) (transition : Transition) (h : Carried g.events)
    (hne : g.events ≠ []) :
    Safe publishedMonitor g (tracedApply a transition) fun _ g' =>
      Carried g'.events ∧ g'.events ≠ [] := by
  unfold tracedApply
  split_ifs
  · exact safe_pure.mpr ⟨h, hne⟩
  · exact safe_pure.mpr ⟨h, hne⟩
  · simp only [now, safe_bind, safe_plain_call]
    intro (time : ℤ) _
    refine ⟨h, safe_mono (tracedPublish_carried h fun event hnew => h.concat hne ?_) ?_⟩
    · rw [hnew, advance_state]
    · rintro ⟨_ | _, a'⟩ g' ⟨h', hne'⟩
      · exact safe_pure.mpr ⟨h', hne' (.inl hne)⟩
      · simp only [storeSnapshot, safe_bind, safe_plain_call]
        exact fun _ _ => ⟨h', safe_pure.mpr ⟨h', hne' (.inl hne)⟩⟩

theorem tracedRound_carried (a : Actor) (h : Carried g.events) (hne : g.events ≠ []) :
    Safe publishedMonitor g (tracedRound a) fun _ g' =>
      Carried g'.events ∧ g'.events ≠ [] := by
  simp only [tracedRound, select, safe_bind, safe_plain_call]
  intro sel _
  refine ⟨h, ?_⟩
  cases sel with
  | done =>
    dsimp only
    split_ifs
    · refine .bind (tracedApply_carried a _ h hne) ?_
      rintro ⟨_ | err, a'⟩ g' ⟨h', hne'⟩
      · refine .bind (tracedApply_carried a' _ h' hne') ?_
        rintro ⟨_ | err, a''⟩ g'' h''
        · exact safe_pure.mpr h''
        · exact safe_pure.mpr h''
      · exact safe_pure.mpr ⟨h', hne'⟩
    · exact safe_pure.mpr ⟨h, hne⟩
  | command c =>
    simp only [safe_bind, safe_note]
    refine fun _ => ⟨h, safe_mono (tracedApply_carried a c.transition h hne) ?_⟩
    rintro ⟨err, a'⟩ g' ⟨h', hne'⟩
    simp only [reply, safe_plain_call]
    refine fun _ => ⟨h', fun _ _ => ⟨h', ?_⟩⟩
    split_ifs
    · exact safe_pure.mpr ⟨h', hne'⟩
    · exact safe_pure.mpr ⟨h', hne'⟩

theorem tracedRun_carried {call : Call} (hnew : call.state = .new) (n : ℕ) :
    Safe publishedMonitor ⟨call, []⟩ (tracedRun n ⟨call, 0⟩) fun _ g' => Carried g'.events := by
  have hbody : Safe publishedMonitor ⟨call, []⟩ (tracedBody n ⟨call, 0⟩) fun _ g' =>
      Carried g'.events := by
    have hnil : Carried [] := ⟨by simp, by simp⟩
    unfold tracedBody
    refine .bind (tracedPublish_carried hnil fun event hempty => ?_) ?_
    · refine ⟨fun p hp => ?_, by simp⟩
      cases hp
      exact ⟨hempty, hnew⟩
    · rintro ⟨_ | _, a⟩ g ⟨h, hne⟩
      · exact safe_pure.mpr h
      · refine safe_loop (I := fun _ g => Carried g.events ∧ g.events ≠ [])
          (fun a g h => safe_mono (tracedRound_carried a h.1 h.2) ?_) n ⟨h, hne (.inr rfl)⟩
        rintro (a' | err) g' h'
        · exact h'
        · exact h'.1
  unfold tracedRun
  refine .bind hbody fun err g h => ?_
  simp only [close, safe_bind, safe_plain_call]
  exact fun _ _ => ⟨h, safe_pure.mpr h⟩

/-- After an event of an actor over a new call is written, `calls.state` and `call_events.new_state` are
the state of the actor's call at the moment the event was published exactly if it is not the first
event. -/
theorem row_follows_iff (capacity : ℤ) (call : Call) (a : Actor)
    (hactor : newActor capacity call = .ok a) (hnew : call.state = .new) (n : ℕ)
    (t : List (Event tracedSig)) (p : Prog tracedSig (Option ActorError))
    (h : Path (tracedRun n a) t p) (pre post : List (CallEvent × Call)) (event : CallEvent)
    (current : Call) (hevent : published call t = pre ++ (event, current) :: post)
    (columns : Columns) (db db' : CallTables)
    (hwrite : writeCallEvents columns db (pre.map Prod.fst ++ [event]) = .ok db') :
    ((∃ row, db'.calls.lookup event.callID = some row ∧ row.state = current.state) ∧
      ∃ row, db'.callEvents.lookup (event.callID, event.sequence) = some row ∧
        row.newState = current.state) ↔ pre ≠ [] := by
  obtain rfl := eq_of_newActor hactor
  have hcarried : Carried (published call t) :=
    Prog.good_of_path (tracedRun_carried hnew n) ⟨by simp, by simp⟩ h fun _ _ => trivial
  rw [hevent] at hcarried
  obtain ⟨⟨row, hrow, hstate⟩, erow, herow, hnewState⟩ := written_states hwrite
  constructor
  · rintro ⟨⟨row', hrow', hstate'⟩, -⟩ rfl
    obtain ⟨hempty, hcurrent⟩ := hcarried.created (event, current) rfl
    cases hrow.symm.trans hrow'
    rw [hstate, hempty, hcurrent] at hstate'
    cases hstate'
  · intro hne
    have hmem : (event, current) ∈ (pre ++ (event, current) :: post).tail := by
      rw [List.tail_append_of_ne_nil hne]
      simp
    have hentered := hcarried.entered _ hmem
    exact ⟨⟨row, hrow, hstate.trans hentered⟩, erow, herow, hnewState.trans hentered⟩

/-! ## The first event -/

/-- Answers for an actor that gets a transition to routing accepted. -/
def tracedAnswer : (e : tracedSig.Op) → tracedSig.Ans e
  | .inl e => answering .routing (.ok ()) e
  | .inr _ => ()

def tracedRouting : List (Event tracedSig) :=
  (Prog.play (fun _ => tracedAnswer) 12 0 (tracedRun 1 ⟨callIn .new, 0⟩)).1

def noCalls : CallTables := ⟨∅, ∅⟩

/-- Columns that hold every event and round its times to microseconds. -/
def roundingColumns : Columns := ⟨fun _ => true, fun time => (time + 500) / 1000 * 1000⟩

/-- The call is new when its first event is published, and the row written says that it has no state. -/
theorem created_row_empty : ∃ n t p event current db',
    Path (tracedRun n ⟨callIn .new, 0⟩) t p ∧ published (callIn .new) t = [(event, current)] ∧
      writeCallEvents roundingColumns noCalls [event] = .ok db' ∧ current.state = .new ∧
      (db'.calls.lookup event.callID).map (·.state) = some .empty ∧
      (db'.callEvents.lookup (event.callID, event.sequence)).map (·.newState) = some .empty := by
  have hpath := Prog.play_path (S := tracedSig) (fun _ => tracedAnswer) 3 0
    (tracedRun 1 ⟨callIn .new, 0⟩)
  exact ⟨1, _, _, _, _, _, hpath, rfl, rfl, rfl, rfl, rfl⟩

theorem row_follows_iff_routing : ∃ event current db',
    published (callIn .new) tracedRouting = published (callIn .new) (tracedRouting.take 3) ++
      [(event, current)] ∧ current.state = .routing ∧
    writeCallEvents roundingColumns noCalls (accepted (Prog.eraseEvents tracedRouting)) = .ok db' ∧
    ∃ row, db'.calls.lookup event.callID = some row ∧ row.state = current.state := by
  have hpath := Prog.play_path (S := tracedSig) (fun _ => tracedAnswer) 12 0
    (tracedRun 1 ⟨callIn .new, 0⟩)
  have h := row_follows_iff 1 (callIn .new) _ rfl rfl 1 tracedRouting _ hpath
    (published (callIn .new) (tracedRouting.take 3)) [] _ _ rfl roundingColumns noCalls _ rfl
  exact ⟨_, _, _, rfl, rfl, rfl, (h.mpr (by decide)).1⟩

end AixvolinkPbx.Calls
