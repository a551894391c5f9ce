import AixvolinkPbx.Call.History

/-!
# The end of an actor

An actor whose `Run` returns nil leaves a call that is terminated or failed, and a canceled context
brings every call there (`finished_terminated`).

1. `endingMonitor` keeps what the last accepted event and the snapshot are, the clock readings, and
   whether the context was canceled and a publish refused since then (`Ending`).
2. `apply_ending` is the specification of one transition; between two commands the call is `Open`: it
   can still be terminated.
3. A round that has seen the cancellation leaves the loop, so `Run` returns then
   (`not_canceled_of_diverge`).
-/

namespace AixvolinkPbx.Calls

open Prog (Safe safe_bind safe_call safe_pure safe_mono safe_loop Path Returns Rounds Ends)

/-! ## The observer -/

structure Ending where
  readings : List ℤ
  last : Option CallEvent
  snapshot : Call
  canceled : Bool
  /-- A publish was refused, after the cancellation if there was one. -/
  refused : Bool

def nextEnding (g : Ending) : (e : ActorOp) → actorSig.Ans e → Ending
  | .now, time => { g with readings := g.readings ++ [time] }
  | .publish event, .ok _ => { g with last := some event }
  | .publish _, .error _ => { g with refused := true }
  | .store snapshot, _ => { g with snapshot := snapshot }
  | .select, .done => { g with canceled := true, refused := false }
  | .select, .command _ => g
  | .reply _ _, _ => g
  | .close, _ => g

/-- The first event is out when the context is found canceled. -/
def endingMonitor : Monitor actorSig Ending where
  next := nextEnding
  good g := g.canceled = true → g.last ≠ none
  admits _ _ := True

def Ending.start (call : Call) : Ending := ⟨[], none, call, false, false⟩

/-- The last accepted event is `e`, it ended the call, and the snapshot shows this. -/
structure Ended (g : Ending) (e : CallEvent) : Prop where
  last : g.last = some e
  terminal : isTerminal e.newState = true
  state : g.snapshot.state = e.newState
  cause : g.snapshot.cause = e.reason
  endedAt : g.snapshot.endedAt ∈ g.readings

/-- A call in this state can be terminated. -/
def Open (state : State) : Prop := state = .terminating ∨ allowedTransition state .terminating = true

theorem Open.not_isTerminal {s : State} (h : Open s) : isTerminal s = false := by
  rcases h with rfl | h
  · rfl
  · by_contra ht
    rw [not_allowedTransition_of_isTerminal (by simpa using ht)] at h
    cases h

theorem open_of_allowedTransition {s s' : State} (h : allowedTransition s s' = true)
    (ht : isTerminal s' = false) : Open s' := by
  cases s <;> cases s' <;> simp_all [allowedTransition, isTerminal, Open]

/-! ## The actor under the observer -/

/-- What `apply` does: it enters the requested state, or leaves the call where it was and reports an
error, which for a legal transition is a refused publish. -/
structure Applied (a : Actor) (transition : Transition) (g : Ending) (err : Option ActorError)
    (a' : Actor) (g' : Ending) : Prop where
  canceled : g'.canceled = g.canceled
  last : g'.last ≠ none
  refused : g'.refused = false → g.refused = false
  entered : err = none → a'.call.state = transition.state
  kept : err ≠ none → a'.call.state = a.call.state
  failed : err ≠ none → Open a.call.state → allowedTransition a.call.state transition.state = true ∨
    transition.state = a.call.state → g'.refused = true
  ended : err = none → isTerminal transition.state = true → isTerminal a.call.state = false →
    ∃ e, Ended g' e ∧ e.newState = transition.state
  opened : err = none → isTerminal transition.state = false → Open a.call.state →
    Open transition.state

theorem advance_ended (call : Call) {transition : Transition} (time : ℤ)
    (h : isTerminal transition.state = true) :
    (advance call transition time).endedAt = time ∧
      (advance call transition time).cause = transition.reason := by
  unfold advance
  rw [if_pos h]
  exact ⟨rfl, rfl⟩

variable {g : Ending}

theorem apply_ending (a : Actor) (transition : Transition) (hlast : g.last ≠ none) :
    Safe endingMonitor g (apply a transition) fun res g' => Applied a transition g res.1 res.2 g' := by
  unfold apply
  split_ifs with hsame hbad
  · rw [safe_pure]
    refine ⟨rfl, hlast, id, fun _ => hsame.symm, fun _ => rfl, fun h => absurd rfl h, ?_, ?_⟩
    · intro _ ht hopen
      rw [hsame, hopen] at ht
      cases ht
    · intro _ _ hopen
      rwa [hsame]
  · have hnot : allowedTransition a.call.state transition.state = false := by simpa using hbad
    rw [safe_pure]
    refine ⟨rfl, hlast, id, nofun, fun _ => rfl, ?_, nofun, nofun⟩
    rintro - - (hallowed | heq)
    · rw [hnot] at hallowed
      cases hallowed
    · exact absurd heq hsame
  · have hallowed : allowedTransition a.call.state transition.state = true := by simpa using hbad
    simp only [now, publish, publisherPublish, safe_bind, safe_call]
    intro (time : ℤ) _
    refine ⟨fun _ => hlast, fun (time' : ℤ) _ => ⟨fun _ => hlast, ?_⟩⟩
    rintro (err | _) _
    · refine ⟨fun _ => hlast, ?_⟩
      simp only [safe_pure]
      exact ⟨rfl, hlast, nofun, nofun, fun _ => rfl, fun _ _ _ => rfl, nofun, nofun⟩
    · refine ⟨fun _ => Option.some_ne_none _, ?_⟩
      simp only [safe_pure, storeSnapshot, safe_bind, safe_call]
      refine fun _ _ => ⟨fun _ => Option.some_ne_none _, rfl, Option.some_ne_none _, id,
        fun _ => advance_state .., fun h => absurd rfl h, fun h => absurd rfl h, ?_,
        fun _ ht _ => open_of_allowedTransition hallowed ht⟩
      intro _ ht _
      obtain ⟨hended, hcause⟩ := advance_ended a.call time ht
      refine ⟨_, ⟨rfl, ht, advance_state .., hcause, ?_⟩, rfl⟩
      show (advance a.call transition time).endedAt ∈ g.readings ++ [time] ++ [time']
      rw [hended]
      simp

/-- Between two commands: the call can be terminated, and nobody has canceled it. -/
structure Between (a : Actor) (g : Ending) : Prop where
  opened : Open a.call.state
  canceled : g.canceled = false
  last : g.last ≠ none

/-- What the end of the loop leaves behind. -/
structure Left (err : Option ActorError) (g : Ending) : Prop where
  last : err = none → ∃ e, Ended g e
  canceled : g.canceled = true → g.last ≠ none
  terminated : g.canceled = true → g.refused = false →
    err = none ∧ ∃ e, Ended g e ∧ e.newState = .terminated

theorem round_ending {a : Actor} (h : Between a g) :
    Safe endingMonitor g (round a) fun res g' => res.elim (Between · g') (Left · g') := by
  simp only [round, select, safe_bind, safe_call]
  intro sel _
  refine ⟨fun _ => ?_, ?_⟩
  · cases sel <;> exact h.last
  cases sel with
  | done =>
    have hlive : (!isTerminal a.call.state) = true := by simp [h.opened.not_isTerminal]
    rw [if_pos hlive]
    refine .bind (apply_ending a (shutdown .terminating) h.last) ?_
    rintro ⟨_ | err, a'⟩ g' happlied
    · have hstate : a'.call.state = .terminating := happlied.entered rfl
      refine .bind (apply_ending a' (shutdown .terminated) happlied.last) ?_
      rintro ⟨_ | err, a''⟩ g'' happlied'
      · have hended := happlied'.ended rfl rfl (by rw [hstate]; rfl)
        refine safe_pure.mpr ⟨fun _ => ?_, fun _ => happlied'.last, fun _ _ => ⟨rfl, hended⟩⟩
        exact hended.imp fun e he => he.1
      · have hrefused := happlied'.failed nofun (.inl hstate) (.inl (by rw [hstate]; rfl))
        refine safe_pure.mpr ⟨nofun, fun _ => happlied'.last, fun _ hnot => ?_⟩
        rw [hrefused] at hnot
        cases hnot
    · have hrefused := happlied.failed nofun h.opened (h.opened.symm.imp_right Eq.symm)
      refine safe_pure.mpr ⟨nofun, fun _ => happlied.last, fun _ hnot => ?_⟩
      rw [hrefused] at hnot
      cases hnot
  | command c =>
    refine .bind (apply_ending a c.transition h.last) ?_
    rintro ⟨err, a'⟩ g' happlied
    have hcanceled : g'.canceled = false := happlied.canceled.trans h.canceled
    simp only [reply, safe_bind, safe_call]
    refine fun _ _ => ⟨fun _ => happlied.last, ?_⟩
    split_ifs with hterminal
    · obtain ⟨rfl, hterminal⟩ := hterminal
      rw [happlied.entered rfl] at hterminal
      have hended := happlied.ended rfl hterminal h.opened.not_isTerminal
      refine safe_pure.mpr ⟨fun _ => hended.imp fun e he => he.1, fun _ => happlied.last, fun hc => ?_⟩
      rw [show g'.canceled = true from hc] at hcanceled
      cases hcanceled
    · refine safe_pure.mpr ⟨?_, hcanceled, happlied.last⟩
      by_cases herr : err = none
      · have hstate := happlied.entered herr
        rw [hstate]
        refine happlied.opened herr ?_ h.opened
        rw [← hstate]
        simpa [herr] using hterminal
      · rw [happlied.kept herr]
        exact h.opened

variable {call : Call}

theorem body_ending (hnew : call.state = .new) :
    Safe endingMonitor (.start call) (publish ⟨call, 0⟩ "created" "" call.state .empty "")
      fun res g => match res.1 with
        | .ok _ => Between res.2 g
        | .error _ => g.canceled = false := by
  simp only [publish, now, publisherPublish, safe_bind, safe_call]
  refine fun _ _ => ⟨by rintro ⟨⟩, ?_⟩
  rintro (err | _) _
  · exact ⟨by rintro ⟨⟩, safe_pure.mpr rfl⟩
  · exact ⟨by rintro ⟨⟩, safe_pure.mpr ⟨.inr (by rw [hnew]; rfl), rfl, Option.some_ne_none _⟩⟩

theorem run_ending (hnew : call.state = .new) (n : ℕ) :
    Safe endingMonitor (.start call) (run n ⟨call, 0⟩) Left := by
  have hbody : Safe endingMonitor (.start call) (body n ⟨call, 0⟩) Left := by
    unfold body
    refine .bind (body_ending hnew) ?_
    rintro ⟨_ | _, a⟩ g hg
    · refine safe_pure.mpr ⟨nofun, ?_, ?_⟩
      all_goals
        intro hc
        rw [show g.canceled = false from hg] at hc
        cases hc
    · exact safe_loop (fun a g h => round_ending h) n hg
  unfold run
  refine .bind hbody ?_
  intro err g hleft
  simp only [close, safe_bind, safe_call]
  exact fun _ _ => ⟨hleft.canceled, safe_pure.mpr hleft⟩

/-! ## The end of event sequences -/

def readings (t : List (Event actorSig)) : List ℤ :=
  t.filterMap fun
    | ⟨.now, time⟩ => some time
    | _ => none

def canceling : Event actorSig := ⟨.select, .done⟩

theorem run_endingMonitor (g : Ending) (t : List (Event actorSig)) :
    (endingMonitor.run g t).readings = g.readings ++ readings t ∧
      (endingMonitor.run g t).last = (accepted t).getLast?.or g.last ∧
      (endingMonitor.run g t).snapshot = snapshot g.snapshot t := by
  induction t generalizing g with
  | nil => simp [readings, accepted, snapshot]
  | cons ev t ih =>
    obtain ⟨hreadings, hlast, hsnapshot⟩ := ih (endingMonitor.next g ev.op ev.ans)
    rw [Monitor.run_cons, hreadings, hlast, hsnapshot]
    obtain ⟨op, ans⟩ := ev
    cases op with
    | publish event =>
      cases ans with
      | error err => exact ⟨rfl, rfl, rfl⟩
      | ok _ =>
        refine ⟨rfl, ?_, rfl⟩
        show (accepted t).getLast?.or (some event) = ((event :: accepted t).getLast?).or g.last
        rw [List.getLast?_cons]
        cases (accepted t).getLast? <;> rfl
    | now => exact ⟨List.append_assoc .., rfl, rfl⟩
    | select => cases ans <;> exact ⟨rfl, rfl, rfl⟩
    | _ => exact ⟨rfl, rfl, rfl⟩

theorem run_start (call : Call) (t : List (Event actorSig)) :
    (endingMonitor.run (.start call) t).readings = readings t ∧
      (endingMonitor.run (.start call) t).last = (accepted t).getLast? ∧
      (endingMonitor.run (.start call) t).snapshot = snapshot call t := by
  simpa [Ending.start] using run_endingMonitor (.start call) t

theorem canceled_run_iff (g : Ending) (t : List (Event actorSig)) :
    (endingMonitor.run g t).canceled = true ↔ g.canceled = true ∨ canceling ∈ t := by
  induction t generalizing g with
  | nil => simp
  | cons ev t ih =>
    rw [Monitor.run_cons, ih, List.mem_cons, ← or_assoc]
    refine or_congr_left ?_
    obtain ⟨op, ans⟩ := ev
    cases op with
    | publish event => cases ans <;> simp [endingMonitor, nextEnding, canceling]
    | select => cases ans <;> simp [endingMonitor, nextEnding, canceling]
    | _ => simp [endingMonitor, nextEnding, canceling]

theorem refused_run {t : List (Event actorSig)} (hg : g.refused = false)
    (ht : ∀ ev ∈ t, refusal ev = false) : (endingMonitor.run g t).refused = false := by
  induction t generalizing g with
  | nil => exact hg
  | cons ev t ih =>
    obtain ⟨hev, ht⟩ := List.forall_mem_cons.mp ht
    refine ih ?_ ht
    obtain ⟨op, ans⟩ := ev
    cases op with
    | publish event =>
      cases ans with
      | error err => cases hev
      | ok _ => exact hg
    | select => cases ans <;> first | rfl | exact hg
    | _ => exact hg

/-! ### A canceled actor returns -/

theorem apply_ends (a : Actor) (transition : Transition) : Ends (fun _ => True) (apply a transition) := by
  unfold apply
  split_ifs
  · exact Prog.ends_pure
  · exact Prog.ends_pure
  · refine Prog.ends_bind (Prog.ends_call trivial) fun time => ?_
    have hpublish : Ends (fun _ => True) (publish { a with call := advance a.call transition time }
        transition.protocolEvent transition.reason a.call.state transition.state transition.legID) :=
      Prog.ends_bind (Prog.ends_call trivial) fun _ =>
        Prog.ends_bind (Prog.ends_call trivial) fun _ => Prog.ends_pure
    refine Prog.ends_bind hpublish ?_
    rintro ⟨_ | _, a'⟩
    · exact Prog.ends_pure
    · exact Prog.ends_bind (Prog.ends_call trivial) fun _ => Prog.ends_pure

theorem round_ends (a : Actor) : Ends (fun _ => True) (round a) := by
  refine Prog.ends_bind (Prog.ends_call trivial) fun sel => ?_
  cases sel with
  | done =>
    dsimp only
    split_ifs
    · refine Prog.ends_bind (apply_ends _ _) ?_
      rintro ⟨_ | err, a'⟩
      · refine Prog.ends_bind (apply_ends _ _) ?_
        rintro ⟨_ | err, a''⟩ <;> exact Prog.ends_pure
      · exact Prog.ends_pure
    · exact Prog.ends_pure
  | command c =>
    refine Prog.ends_bind (apply_ends _ _) ?_
    rintro ⟨err, a'⟩
    refine Prog.ends_bind (Prog.ends_call trivial) fun _ => ?_
    split_ifs <;> exact Prog.ends_pure

theorem admitted (t : List (Event actorSig)) : Prog.Admitted endingMonitor t := fun _ _ => trivial

theorem Between.rounds {a a' : Actor} {ts : List (List (Event actorSig))} (h : Between a g)
    (hts : Rounds round a ts a') :
    Between a' (endingMonitor.run g ts.flatten) := by
  induction hts generalizing g with
  | nil => exact h
  | cons hround _ ih =>
    have hbetween := Prog.safe_returns (round_ending h) hround (admitted _)
    rw [List.flatten_cons, Monitor.run_append]
    exact ih hbetween

/-- Only an actor that has not been canceled goes on forever. -/
theorem not_canceled_of_diverge (hnew : call.state = .new) {n : ℕ} {t : List (Event actorSig)}
    (h : Path (run n ⟨call, 0⟩) t .diverge) : canceling ∉ t := by
  intro hmem
  have hcanceled : (endingMonitor.run (.start call) t).canceled = true :=
    (canceled_run_iff _ t).mpr (.inr hmem)
  have hclose : ∀ err : Option ActorError, Ends (fun _ => True) (close >>= fun _ => Pure.pure err) :=
    fun err => Prog.ends_bind (Prog.ends_call trivial) fun _ => Prog.ends_pure
  rcases Prog.path_bind_diverge h with hbody | ⟨err, u, v, rfl, -, hv⟩
  · have hpublish : Ends (fun _ => True) (publish ⟨call, 0⟩ "created" "" call.state .empty "") :=
      Prog.ends_bind (Prog.ends_call trivial) fun _ =>
        Prog.ends_bind (Prog.ends_call trivial) fun _ => Prog.ends_pure
    rcases Prog.path_bind_diverge hbody with hp | ⟨⟨res, a⟩, u, v, rfl, hu, hv⟩
    · exact hpublish.not_diverge t hp
    · cases res with
      | error err => cases hv
      | ok _ =>
        obtain ⟨ts, a', rfl, hts⟩ :=
          Prog.path_loop_diverge (fun a t => (round_ends a).not_diverge t) hv
        have hbetween := Prog.safe_returns (body_ending hnew) hu (admitted _)
        rw [Monitor.run_append, (Between.rounds hbetween hts).canceled] at hcanceled
        cases hcanceled
  · exact (hclose err).not_diverge v hv

/-- The first event is accepted before the context is found canceled. -/
theorem accepted_ne_nil_of_canceling (hnew : call.state = .new) {n : ℕ}
    {pre post : List (Event actorSig)} {p : Prog actorSig (Option ActorError)}
    (h : Path (run n ⟨call, 0⟩) (pre ++ canceling :: post) p) : accepted pre ≠ [] := by
  intro hnil
  have h : Path (run n ⟨call, 0⟩) ((pre ++ [canceling]) ++ post) p := by simpa using h
  obtain ⟨q, hq, -⟩ := h.split
  have hgood := Prog.good_of_path (run_ending hnew n) nofun hq (admitted _)
  have hlast := hgood ((canceled_run_iff _ _).mpr (.inr (by simp)))
  rw [(run_start call _).2.1, accepted_append, hnil] at hlast
  exact hlast rfl

/-- An actor over a new call whose `Run` returns nil leaves a snapshot that is terminated or failed, with
an end time read from the clock and the reason of the last accepted event as its cause; that event ended
the call, and no earlier one did. And once the context is found canceled, `Run` returns; if no publish is
refused from then on, it returns nil with a terminated call, reached by legal transitions. -/
theorem finished_terminated (capacity : ℤ) (call : Call) (a : Actor)
    (hactor : newActor capacity call = .ok a) (hnew : call.state = .new) (n : ℕ)
    (t : List (Event actorSig)) (p : Prog actorSig (Option ActorError)) (h : Path (run n a) t p) :
    (p = Pure.pure none → ∃ pre e, accepted t = pre ++ [e] ∧ isTerminal e.newState = true ∧
      (∀ e' ∈ pre, isTerminal e'.newState = false) ∧ (snapshot call t).state = e.newState ∧
      (snapshot call t).cause = e.reason ∧ (snapshot call t).endedAt ∈ readings t) ∧
    ∀ pre post, t = pre ++ canceling :: post → Ends (fun _ => True) p ∧
      ∀ err, p = Pure.pure err → (∀ ev ∈ post, refusal ev = false) →
        err = none ∧ (snapshot call t).state = .terminated ∧
          Chain (lastState .new (accepted pre).tail) (accepted post) ∧
          ∀ e ∈ accepted post, allowedTransition e.oldState e.newState = true := by
  obtain rfl := eq_of_newActor hactor
  obtain ⟨hcreated, hchain, hallowed⟩ := history_of_path hnew h
  obtain ⟨hreadings, hlast, hsnapshot⟩ := run_start call t
  constructor
  · rintro rfl
    obtain ⟨e, hended⟩ := (Prog.safe_returns (run_ending hnew n) h (admitted _)).last rfl
    obtain ⟨pre, hpre⟩ : ∃ pre, accepted t = pre ++ [e] :=
      List.getLast?_eq_some_iff.mp (hlast.symm.trans hended.last)
    rw [← hsnapshot, ← hreadings]
    refine ⟨pre, e, hpre, hended.terminal, fun e' he' => ?_, hended.state, hended.cause,
      hended.endedAt⟩
    by_contra hterminal
    rw [Bool.not_eq_false] at hterminal
    obtain ⟨before, after, rfl⟩ := List.append_of_mem he'
    cases before with
    | nil =>
      -- the first event does not end the call
      obtain ⟨-, hempty⟩ := hcreated e' (by rw [hpre]; rfl)
      rw [hempty] at hterminal
      cases hterminal
    | cons e₀ before =>
      have htail : (accepted t).tail = before ++ e' :: (after ++ [e]) := by rw [hpre]; simp
      have := hchain.terminal_last hallowed htail hterminal
      simp at this
  · rintro pre post rfl
    constructor
    · refine Prog.ends_of_not_diverge fun u hu => ?_
      exact not_canceled_of_diverge hnew (h.append hu) (by simp)
    · rintro err rfl hpost
      have hleft := Prog.safe_returns (run_ending hnew n) h (admitted _)
      have hcanceled := (canceled_run_iff (.start call) (pre ++ canceling :: post)).mpr (by simp)
      have hrefused : (endingMonitor.run (.start call) (pre ++ canceling :: post)).refused = false := by
        rw [Monitor.run_append, Monitor.run_cons]
        exact refused_run rfl hpost
      obtain ⟨rfl, e, hended, hterminated⟩ := hleft.terminated hcanceled hrefused
      have htail : (accepted (pre ++ canceling :: post)).tail =
          (accepted pre).tail ++ accepted post := by
        rw [accepted_append, List.tail_append_of_ne_nil (accepted_ne_nil_of_canceling hnew h)]
        rfl
      rw [htail, chain_append] at hchain
      rw [htail] at hallowed
      refine ⟨rfl, ?_, hchain.2, fun e he => hallowed e (List.mem_append_right _ he)⟩
      rw [← hsnapshot, hended.state, hterminated]

/-- Answers under which the context is found canceled at once. -/
def canceledAnswer : (e : ActorOp) → actorSig.Ans e
  | .select => .done
  | e => answering .new (.ok ()) e

def canceledPath : List (Event actorSig) :=
  (Prog.play (fun _ => canceledAnswer) 12 0 (run 1 ⟨callIn .new, 0⟩)).1

theorem finished_terminated_canceled : (snapshot (callIn .new) canceledPath).state = .terminated ∧
    (snapshot (callIn .new) canceledPath).cause = "context canceled" ∧
    ∃ pre e, accepted canceledPath = pre ++ [e] ∧ isTerminal e.newState = true ∧
      ∀ e' ∈ pre, isTerminal e'.newState = false := by
  have hpath := Prog.play_path (S := actorSig) (fun _ => canceledAnswer) 12 0
    (run 1 ⟨callIn .new, 0⟩)
  have h := finished_terminated 1 (callIn .new) _ rfl rfl 1 canceledPath _ hpath
  obtain ⟨-, hcanceled⟩ := h.2 (canceledPath.take 2) (canceledPath.drop 3) rfl
  obtain ⟨pre, e, haccepted, hterminal, hpre, -⟩ := h.1 rfl
  exact ⟨(hcanceled none rfl (by decide)).2.1, rfl, pre, e, haccepted, hterminal, hpre⟩

end AixvolinkPbx.Calls
