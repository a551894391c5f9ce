import AixvolinkPbx.Call.History

/-!
# What a failed transition leaves behind (`internal/core/call/actor.go`, `apply`)

`apply` stamps the call before it publishes, and restores only its state when the publisher refuses.
A refused transition into `answered`, `terminated` or `failed` thus leaves its times and its cause in
the call, and the next accepted transition puts them into the snapshot (`stamps_kept`).

1. `apply_error_cases` says what an `apply` that fails has done, and `restored_iff` when that is nothing.
2. `stampMonitor` observes the times of the accepted transitions. In the runs in which no such
   transition is refused (`stampMonitor.admits`), the snapshot is the call of the actor, and its stamps
   are those of the accepted transitions.
-/

namespace AixvolinkPbx.Calls

open Prog (Safe safe_bind safe_call safe_pure safe_mono safe_loop Path Returns)

/-! ## One failed transition -/

/-- A state whose entry is stamped with a time. -/
def stamps (state : State) : Bool := state = .answered || isTerminal state

variable {transition : Transition} {call : Call}

theorem advance_of_not_stamps {now : ℤ} (h : stamps transition.state = false) :
    advance call transition now = { call with state := transition.state } := by
  simp only [stamps, Bool.or_eq_false_iff, decide_eq_false_iff_not] at h
  unfold advance
  simp [h.1, h.2]

/-- The stamps of a transition are those the call has. -/
def AlreadyStamped (call : Call) (transition : Transition) (now : ℤ) : Prop :=
  (transition.state = .answered → call.answeredAt = now) ∧
    (isTerminal transition.state = true → call.endedAt = now ∧ call.cause = transition.reason)

/-- The call after the rollback is the one before exactly if the stamps were there. -/
theorem restored_iff (call : Call) (transition : Transition) (now : ℤ) :
    { advance call transition now with state := call.state } = call ↔
      AlreadyStamped call transition now := by
  obtain ⟨id, tenantID, nodeID, direction, callerLeg, calleeLeg, state, startedAt, answeredAt, endedAt,
    cause⟩ := call
  unfold advance AlreadyStamped
  by_cases hanswered : transition.state = .answered
  · simp [hanswered, isTerminal, eq_comm]
  · by_cases hterminal : isTerminal transition.state = true
    · simp [hanswered, hterminal, eq_comm]
    · simp [hanswered, hterminal]

theorem publish_returns {a a' : Actor} {protocolEvent reason legID : String} {oldState newState : State}
    {t : List (Event actorSig)} {result : Except String Unit}
    (h : Returns (publish a protocolEvent reason oldState newState legID) t (result, a')) :
    ∃ occurredAt event, t = [⟨.now, occurredAt⟩, ⟨.publish event, result⟩] ∧
      a'.call = a.call := by
  unfold publish at h
  obtain ⟨occurredAt, u, v, rfl, hnow, hrest⟩ := Prog.returns_bind h
  obtain ⟨result', w, x, rfl, hpublish, hpure⟩ := Prog.returns_bind hrest
  rw [Prog.returns_call hnow, Prog.returns_call hpublish]
  cases hpure
  exact ⟨occurredAt, _, rfl, rfl⟩

/-- What an `apply` that fails has done. -/
theorem apply_error_cases {a a' : Actor} {err : ActorError} {t : List (Event actorSig)}
    (h : Returns (apply a transition) t (some err, a')) :
    (t = [] ∧ a' = a) ∨ ∃ now occurredAt text event,
      t = [⟨.now, now⟩, ⟨.now, occurredAt⟩, ⟨.publish event, .error text⟩] ∧
        a'.call = { advance a.call transition now with state := a.call.state } := by
  unfold apply at h
  split_ifs at h with hsame hbad
  · cases h
  · cases h
    exact .inl ⟨rfl, rfl⟩
  · obtain ⟨now, u, v, rfl, hnow, hrest⟩ := Prog.returns_bind h
    obtain ⟨⟨result, a₁⟩, w, x, rfl, hpublish, hlast⟩ := Prog.returns_bind hrest
    obtain ⟨occurredAt, event, rfl, hcall⟩ := publish_returns hpublish
    rw [Prog.returns_call hnow]
    cases result with
    | error text =>
      cases hlast
      refine .inr ⟨now, occurredAt, text, event, rfl, ?_⟩
      rw [hcall]
    | ok _ =>
      obtain ⟨stored, y, z, rfl, -, hpure⟩ := Prog.returns_bind hlast
      cases hpure

/-! ## The stamps of a run -/

/-- What the observer keeps: the clock readings since the last other operation, the time of the last
accepted transition into `answered`, and the snapshot. -/
structure Stamps where
  readings : List ℤ
  answered : Option ℤ
  snapshot : Call
  /-- An accepted transition has not reached the snapshot yet. -/
  storing : Bool

/-- The first reading is that of `apply`, the second one that of `publish`. -/
def nextStamps (s : Stamps) : (e : ActorOp) → actorSig.Ans e → Stamps
  | .now, time => { s with readings := s.readings ++ [time], storing := false }
  | .publish event, .ok _ =>
    { s with
      readings := []
      answered := if event.newState = .answered then s.readings.head? else s.answered
      storing := event.newState ≠ .empty }
  | .publish _, .error _ => { s with readings := [], storing := false }
  | .store snapshot, _ => { s with readings := [], snapshot := snapshot, storing := false }
  | .select, _ => { s with readings := [], storing := false }
  | .reply _ _, _ => { s with readings := [], storing := false }
  | .close, _ => { s with readings := [], storing := false }

/-- The stamps of a call: an end only in a terminal state, and the time it was last answered. -/
structure Dated (call : Call) (answered : Option ℤ) : Prop where
  ended : isTerminal call.state = false → call.endedAt = Time.zero ∧ call.cause = ""
  answered : call.answeredAt = answered.getD Time.zero

/-- The publisher refuses no transition that is stamped. -/
def refusesUnstamped : (e : ActorOp) → actorSig.Ans e → Prop
  | .publish event, .error _ => stamps event.newState = false
  | _, _ => True

instance refusesUnstamped.decidable :
    ∀ (e : ActorOp) (r : actorSig.Ans e), Decidable (refusesUnstamped e r)
  | .publish event, .error _ => inferInstanceAs (Decidable (stamps event.newState = false))
  | .publish _, .ok _ => instDecidableTrue
  | .now, _ => instDecidableTrue
  | .store _, _ => instDecidableTrue
  | .select, _ => instDecidableTrue
  | .reply _ _, _ => instDecidableTrue
  | .close, _ => instDecidableTrue

def stampMonitor : Monitor actorSig Stamps where
  next := nextStamps
  good s := s.storing = false → Dated s.snapshot s.answered
  admits := refusesUnstamped

/-- Between two commands: the snapshot is the call of the actor. -/
structure Settled (a : Actor) (s : Stamps) : Prop where
  readings : s.readings = []
  storing : s.storing = false
  snapshot : s.snapshot = a.call
  dated : Dated a.call s.answered

theorem Settled.good {a : Actor} {s : Stamps} (h : Settled a s) : Dated s.snapshot s.answered := by
  rw [h.snapshot]
  exact h.dated

theorem Dated.advance {answered : Option ℤ} (h : Dated call answered)
    (hallowed : allowedTransition call.state transition.state = true) (now : ℤ) :
    Dated (advance call transition now)
      (if transition.state = .answered then some now else answered) := by
  have hopen : isTerminal call.state = false := by
    by_contra hterminal
    rw [Bool.not_eq_false] at hterminal
    rw [not_allowedTransition_of_isTerminal hterminal] at hallowed
    cases hallowed
  obtain ⟨hended, hcause⟩ := h.ended hopen
  have hanswered := h.answered
  unfold Calls.advance
  by_cases htarget : transition.state = .answered
  · simp only [htarget, if_true, isTerminal]
    exact ⟨fun _ => ⟨hended, hcause⟩, rfl⟩
  · by_cases hterminal : isTerminal transition.state = true
    · simp only [htarget, if_false, hterminal, if_true]
      exact ⟨fun hfalse => by simp [hterminal] at hfalse, hanswered⟩
    · simp only [htarget, if_false, hterminal]
      exact ⟨fun _ => ⟨hended, hcause⟩, hanswered⟩

theorem apply_settled {a : Actor} {s : Stamps} (h : Settled a s) (transition : Transition) :
    Safe stampMonitor s (apply a transition) fun res s' => Settled res.2 s' := by
  unfold apply
  split_ifs with hsame hbad
  · exact safe_pure.mpr h
  · exact safe_pure.mpr h
  · have hallowed : allowedTransition a.call.state transition.state = true := by simpa using hbad
    have hempty : transition.state ≠ .empty := by
      intro hempty
      rw [hempty, not_allowedTransition_empty] at hallowed
      cases hallowed
    simp only [publish, now, publisherPublish, safe_bind, safe_call]
    intro (time : ℤ) _
    refine ⟨fun _ => h.good, ?_⟩
    intro (occurredAt : ℤ) _
    refine ⟨fun _ => h.good, ?_⟩
    rintro (text | _) hadmits
    · -- refused: the transition is not stamped, and its state is taken back
      refine ⟨fun _ => h.good, ?_⟩
      have hrestored : { advance a.call transition time with state := a.call.state } = a.call := by
        rw [advance_of_not_stamps hadmits]
      rw [safe_pure, safe_pure]
      refine ⟨rfl, rfl, ?_, ?_⟩
      · show s.snapshot = { advance a.call transition time with state := a.call.state }
        rw [hrestored, h.snapshot]
      · show Dated { advance a.call transition time with state := a.call.state } s.answered
        rw [hrestored]
        exact h.dated
    · have hdated := h.dated.advance hallowed time
      have hfirst : (s.readings ++ [time] ++ [occurredAt]).head? = some time := by
        rw [h.readings]
        rfl
      rw [← hfirst] at hdated
      refine ⟨fun hstoring => ?_, ?_⟩
      · simp [stampMonitor, nextStamps, eventOf, hempty] at hstoring
      · simp only [storeSnapshot, safe_pure, safe_bind, safe_call]
        intro _ _
        exact ⟨fun _ => hdated, ⟨rfl, rfl, rfl, hdated⟩⟩

theorem loopInvariant_settled : LoopInvariant stampMonitor Settled where
  select h _ := ⟨fun _ => h.good, rfl, rfl, h.snapshot, h.dated⟩
  apply h transition := apply_settled h transition
  reply h _ _ _ := ⟨fun _ => h.good, rfl, rfl, h.snapshot, h.dated⟩

/-- A call as `New` makes it. -/
structure Fresh (call : Call) : Prop where
  state : call.state = .new
  answeredAt : call.answeredAt = Time.zero
  endedAt : call.endedAt = Time.zero
  cause : call.cause = ""

theorem Fresh.dated (h : Fresh call) : Dated call none :=
  ⟨fun _ => ⟨h.endedAt, h.cause⟩, h.answeredAt⟩

def Stamps.start (call : Call) : Stamps := ⟨[], none, call, false⟩

theorem run_settled (h : Fresh call) (n : ℕ) :
    Safe stampMonitor (.start call) (run n ⟨call, 0⟩) fun _ _ => True := by
  have hbody : Safe stampMonitor (.start call) (body n ⟨call, 0⟩) fun _ s' =>
      s'.storing = false ∧ Dated s'.snapshot s'.answered := by
    refine loopInvariant_settled.body (fun h => ⟨h.storing, h.good⟩) ?_ n
    simp only [publish, now, publisherPublish, safe_bind, safe_call]
    intro (occurredAt : ℤ) _
    refine ⟨fun _ => h.dated, ?_⟩
    rintro (text | _) _
    · exact ⟨fun _ => h.dated, safe_pure.mpr ⟨fun _ _ => ⟨rfl, h.dated⟩, by simp⟩⟩
    · refine ⟨fun _ => h.dated, safe_pure.mpr ⟨by simp, fun _ => ⟨rfl, ?_, rfl, h.dated⟩⟩⟩
      simp [stampMonitor, nextStamps, eventOf]
  unfold run
  refine .bind hbody ?_
  rintro err s ⟨hstoring, hdated⟩
  simp only [close, safe_bind, safe_call]
  intro _ _
  exact ⟨fun _ => hdated, safe_pure.mpr trivial⟩

/-! ## Runs -/

/-- The clock readings since the last other operation, and the time of the last accepted transition
into `answered`: the reading `apply` made for it. -/
def nextAnswered (s : List ℤ × Option ℤ) : Event actorSig → List ℤ × Option ℤ
  | ⟨.now, time⟩ => (s.1 ++ [time], s.2)
  | ⟨.publish event, .ok _⟩ => ([], if event.newState = .answered then s.1.head? else s.2)
  | _ => ([], s.2)

/-- The time of the last accepted transition into `answered`. -/
def answeredTime (t : List (Event actorSig)) : Option ℤ := (t.foldl nextAnswered ([], none)).2

theorem nextStamps_eq (s : Stamps) (ev : Event actorSig) :
    ((nextStamps s ev.op ev.ans).readings, (nextStamps s ev.op ev.ans).answered) =
        nextAnswered (s.readings, s.answered) ev ∧
      (nextStamps s ev.op ev.ans).snapshot = snapshot s.snapshot [ev] ∧
      (nextStamps s ev.op ev.ans).storing = storing [ev] := by
  obtain ⟨op, ans⟩ := ev
  cases op with
  | publish event => cases ans <;> simp [nextStamps, nextAnswered, snapshot, storing, acceptedBy]
  | store c => simp [nextStamps, nextAnswered, snapshot, storing, acceptedBy]
  | _ => simp [nextStamps, nextAnswered, snapshot, storing, acceptedBy]

theorem run_stamps (s : Stamps) (t : List (Event actorSig)) :
    ((stampMonitor.run s t).readings, (stampMonitor.run s t).answered) =
        t.foldl nextAnswered (s.readings, s.answered) ∧
      (stampMonitor.run s t).snapshot = snapshot s.snapshot t := by
  induction t generalizing s with
  | nil => exact ⟨rfl, rfl⟩
  | cons ev t ih =>
    obtain ⟨hanswered, hsnapshot⟩ := ih (stampMonitor.next s ev.op ev.ans)
    obtain ⟨hanswered', hsnapshot', -⟩ := nextStamps_eq s ev
    rw [Monitor.run_cons, hanswered, hsnapshot]
    constructor
    · show t.foldl nextAnswered
        ((nextStamps s ev.op ev.ans).readings, (nextStamps s ev.op ev.ans).answered) = _
      rw [hanswered']
      rfl
    · show snapshot (nextStamps s ev.op ev.ans).snapshot t = _
      rw [hsnapshot']
      rfl

theorem run_stamps_storing (call : Call) (t : List (Event actorSig)) :
    (stampMonitor.run (.start call) t).storing = storing t := by
  rcases List.eq_nil_or_concat t with rfl | ⟨u, ev, rfl⟩
  · rfl
  · rw [List.concat_eq_append, Monitor.run_append, Monitor.run_cons, Monitor.run_nil]
    show (nextStamps _ ev.op ev.ans).storing = _
    rw [(nextStamps_eq _ ev).2.2, storing, storing, List.getLast?_concat]
    rfl

/-- **Failed transitions.** An `apply` that fails stores no snapshot, and leaves the call as it was
exactly if the refused transition would have stamped it with what it has. In a run of a new actor in
which no transition into `answered`, `terminated` or `failed` is refused, every snapshot has an end and
a cause only in a terminal state, and the time of the last accepted transition into `answered`. -/
theorem failed_transition_restores (call : Call) :
    (∀ (a a' : Actor) (transition : Transition) (err : ActorError) (t : List (Event actorSig)),
      Returns (apply a transition) t (some err, a') →
        snapshot call t = call ∧
        (a'.call = a.call ↔
          ∀ now, t.head? = some ⟨.now, now⟩ → AlreadyStamped a.call transition now)) ∧
    ∀ (capacity : ℤ) (a : Actor) (n : ℕ) (t : List (Event actorSig))
      (p : Prog actorSig (Option ActorError)), newActor capacity call = .ok a → Fresh call →
      Path (run n a) t p → (∀ ev ∈ t, refusesUnstamped ev.op ev.ans) → storing t = false →
        Dated (snapshot call t) (answeredTime t) := by
  constructor
  · intro a a' transition err t h
    rcases apply_error_cases h with ⟨rfl, rfl⟩ | ⟨now, occurredAt, text, event, rfl, hcall⟩
    · exact ⟨rfl, by simp⟩
    · refine ⟨rfl, ?_⟩
      rw [hcall, restored_iff]
      constructor
      · intro hstamped now' hhead
        cases hhead
        exact hstamped
      · intro hall
        exact hall now rfl
  · intro capacity a n t p hnew hfresh hpath hrefused hstoring
    obtain rfl := eq_of_newActor hnew
    have hgood := Prog.good_of_path (run_settled hfresh n) (fun _ => hfresh.dated) hpath hrefused
    obtain ⟨hanswered, hsnapshot⟩ := run_stamps (.start call) t
    have hdated := hgood ((run_stamps_storing call t).trans hstoring)
    have htime : (stampMonitor.run (.start call) t).answered = answeredTime t :=
      congrArg Prod.snd hanswered
    rw [hsnapshot, htime] at hdated
    exact hdated

/-- A publisher that refuses some states, and an actor asked to enter the states in turn. -/
def refusing (refused : State → Bool) (states : ℕ → State) (i : ℕ) : (e : ActorOp) → actorSig.Ans e
  | .now => 5
  | .publish event => if refused event.newState then .error "unavailable" else .ok ()
  | .store _ => ()
  | .select => .command ⟨⟨states i, "", "busy", "486"⟩, 0⟩
  | .reply _ _ => ()
  | .close => ()

def newCall : Call :=
  ⟨"call", "tenant", "node", "internal", "caller", "callee", .new, 0, Time.zero, Time.zero, ""⟩

/-- The transition into `failed` is refused; the next one stores a snapshot in `routing` that has ended. -/
theorem stamps_kept : ∃ t p, newActor 1 newCall = .ok ⟨newCall, 0⟩ ∧ Fresh newCall ∧
    Path (run 2 ⟨newCall, 0⟩) t p ∧ storing t = false ∧ (snapshot newCall t).state = .routing ∧
      (snapshot newCall t).endedAt = 5 ∧ (snapshot newCall t).cause = "busy" := by
  have hplay := Prog.play_path (S := actorSig)
    (refusing isTerminal fun i => if i = 2 then .failed else .routing) 12 0 (run 2 ⟨newCall, 0⟩)
  exact ⟨_, _, rfl, ⟨rfl, rfl, rfl, rfl⟩, hplay, rfl, rfl, rfl, rfl⟩

/-- The states in turn: `ringing` is refused, and a call in `routing` cannot be held. -/
def heldStates : ℕ → State
  | 2 => .routing
  | 8 => .ringing
  | 15 => .answered
  | _ => .held

/-- The events of a call that is answered and held after two transitions that fail. -/
def heldPath : List (Event actorSig) :=
  (Prog.play (refusing (· = .ringing) heldStates) 27 0 (run 5 ⟨newCall, 0⟩)).1

def routedActor : Actor := ⟨{ newCall with state := .routing }, 2⟩

theorem failed_transition_restores_held :
    (⟨.reply 0 (some (.publish "unavailable")), ()⟩ ∈ heldPath ∧
      ∃ t a', Returns (apply routedActor ⟨.ringing, "", "busy", "486"⟩) t
        (some (.publish "unavailable"), a') ∧ a'.call = routedActor.call) ∧
    (⟨.reply 0 (some (.invalidTransition .routing .held)), ()⟩ ∈ heldPath ∧
      ∃ t a', Returns (apply routedActor ⟨.held, "", "busy", "486"⟩) t
        (some (.invalidTransition .routing .held), a') ∧ a'.call = routedActor.call) ∧
    (snapshot newCall heldPath).state = .held ∧ (snapshot newCall heldPath).answeredAt = 5 ∧
      (snapshot newCall heldPath).endedAt = Time.zero := by
  obtain ⟨hfailed, hrun⟩ := failed_transition_restores newCall
  have hringing : Returns (apply routedActor ⟨.ringing, "", "busy", "486"⟩)
      (Prog.play (refusing (· = .ringing) heldStates) 3 9 (apply routedActor _)).1
      (some (.publish "unavailable"), ⟨routedActor.call, 3⟩) := Prog.play_path _ _ _ _
  have hheld : Returns (apply routedActor ⟨.held, "", "busy", "486"⟩) []
      (some (.invalidTransition .routing .held), routedActor) := .nil _
  have hrefused : ∀ ev ∈ heldPath, refusesUnstamped ev.op ev.ans := by decide
  have hdated := hrun 1 ⟨newCall, 0⟩ 5 heldPath _ rfl ⟨rfl, rfl, rfl, rfl⟩ (Prog.play_path _ _ _ _)
    hrefused rfl
  refine ⟨⟨List.mem_of_getElem? (i := 12) rfl, _, _, hringing, ?_⟩,
    ⟨List.mem_of_getElem? (i := 14) rfl, _, _, hheld, ?_⟩, rfl, hdated.answered, (hdated.ended rfl).1⟩
  · exact (hfailed _ _ _ _ _ hringing).2.mpr fun now _ => ⟨nofun, nofun⟩
  · exact (hfailed _ _ _ _ _ hheld).2.mpr nofun

end AixvolinkPbx.Calls
