import AixvolinkPbx.Call.Actor
import AixvolinkPbx.Lib.Interp

/-!
# The actor with notes on its call

The call of an actor is a field that only `Run` writes, so that no operation shows what is in it. This
is `Run` with notes of the call where the results speak of it: when an event is published, and before
and after a command. Without the notes it is `Run` (`erase_tracedRun`), with the same event sequences
(`path_run_iff`).
-/

namespace AixvolinkPbx.Calls

open Prog (note plain erase)

inductive ActorNote
  /-- The call when an event is handed to the publisher. -/
  | publishing (call : Call)
  /-- The call when a command is taken from the mailbox. -/
  | begun (c : Command) (call : Call)
  /-- The call when the command has been applied, with its result. -/
  | finished (c : Command) (err : Option ActorError) (call : Call)

abbrev tracedSig : Sig := actorSig.noted ActorNote

def tracedPublish (a : Actor) (protocolEvent reason : String) (oldState newState : State)
    (legID : String) : Prog tracedSig (Except String Unit × Actor) := do
  let a := { a with sequence := a.sequence + 1 }
  let occurredAt ← plain now
  note (.publishing a.call)
  let res ← plain (publisherPublish
    (eventOf a protocolEvent reason oldState newState legID occurredAt))
  return (res, a)

def tracedApply (a : Actor) (transition : Transition) :
    Prog tracedSig (Option ActorError × Actor) := do
  if transition.state = a.call.state then return (none, a)
  else if !allowedTransition a.call.state transition.state then
    return (some (.invalidTransition a.call.state transition.state), a)
  else
    let oldState := a.call.state
    let now ← plain now
    let a := { a with call := advance a.call transition now }
    match ← tracedPublish a transition.protocolEvent transition.reason oldState transition.state
        transition.legID with
    | (.error err, a) => return (some (.publish err), { a with call.state := oldState })
    | (.ok (), a) =>
      plain (storeSnapshot a.call)
      return (none, a)

def tracedRound (a : Actor) : Prog tracedSig (Actor ⊕ Option ActorError) := do
  match ← plain select with
  | .done =>
    if !isTerminal a.call.state then
      match ← tracedApply a (shutdown .terminating) with
      | (some err, _) => return .inr (some err)
      | (none, a) =>
        match ← tracedApply a (shutdown .terminated) with
        | (some err, _) => return .inr (some err)
        | (none, _) => return .inr none
    else return .inr none
  | .command c =>
    note (.begun c a.call)
    let (err, a) ← tracedApply a c.transition
    note (.finished c err a.call)
    plain (reply c.result err)
    if err = none ∧ isTerminal a.call.state then return .inr none
    else return .inl a

def tracedBody (n : ℕ) (a : Actor) : Prog tracedSig (Option ActorError) := do
  match ← tracedPublish a "created" "" a.call.state .empty "" with
  | (.error err, _) => return some (.publishInitial err)
  | (.ok (), a) => Prog.loop tracedRound n a

def tracedRun (n : ℕ) (a : Actor) : Prog tracedSig (Option ActorError) := do
  let err ← tracedBody n a
  plain close
  return err

/-! ## Without the notes -/

theorem erase_tracedPublish (a : Actor) (protocolEvent reason : String) (oldState newState : State)
    (legID : String) : (tracedPublish a protocolEvent reason oldState newState legID).erase =
      publish a protocolEvent reason oldState newState legID := by
  simp only [tracedPublish, publish, Prog.erase_bind, Prog.erase_plain, Prog.erase_note,
    Prog.erase_pure, pure_bind]

theorem erase_tracedApply (a : Actor) (transition : Transition) :
    (tracedApply a transition).erase = apply a transition := by
  unfold tracedApply apply
  split_ifs
  · rfl
  · rfl
  · rw [Prog.erase_bind, Prog.erase_plain]
    refine congrArg _ (funext fun time => ?_)
    rw [Prog.erase_bind, erase_tracedPublish]
    refine congrArg _ (funext fun res => ?_)
    obtain ⟨_ | _, a'⟩ := res
    · rfl
    · simp only [Prog.erase_bind, Prog.erase_plain, Prog.erase_pure]

theorem erase_tracedRound (a : Actor) : (tracedRound a).erase = round a := by
  unfold tracedRound round
  rw [Prog.erase_bind, Prog.erase_plain]
  refine congrArg _ (funext fun sel => ?_)
  cases sel with
  | done =>
    dsimp only
    split_ifs
    · rw [Prog.erase_bind, erase_tracedApply]
      refine congrArg _ (funext fun res => ?_)
      obtain ⟨_ | err, a'⟩ := res
      · rw [Prog.erase_bind, erase_tracedApply]
        refine congrArg _ (funext fun res => ?_)
        obtain ⟨_ | err, a''⟩ := res <;> rfl
      · rfl
    · rfl
  | command c =>
    simp only [Prog.erase_bind, Prog.erase_note, erase_tracedApply, pure_bind, Prog.erase_plain]
    refine congrArg _ (funext fun res => ?_)
    refine congrArg _ (funext fun _ => ?_)
    split_ifs <;> rfl

theorem erase_tracedRun (n : ℕ) (a : Actor) : (tracedRun n a).erase = run n a := by
  have hbody : (tracedBody n a).erase = body n a := by
    unfold tracedBody body
    rw [Prog.erase_bind, erase_tracedPublish]
    refine congrArg _ (funext fun res => ?_)
    obtain ⟨_ | _, a'⟩ := res
    · rfl
    · refine (Prog.interp_loop _ tracedRound n a').trans ?_
      rw [← funext erase_tracedRound]
      rfl
  simp only [tracedRun, run, Prog.erase_bind, Prog.erase_plain, Prog.erase_pure, hbody]

/-- The event sequences of `Run` are those of the actor with notes, without the notes. -/
theorem path_run_iff {n : ℕ} {a : Actor} {t : List (Event actorSig)}
    {q : Prog actorSig (Option ActorError)} : Prog.Path (run n a) t q ↔
      ∃ t' q', Prog.Path (tracedRun n a) t' q' ∧ Prog.eraseEvents t' = t ∧ q'.erase = q := by
  rw [← erase_tracedRun]
  constructor
  · exact Prog.path_erase
  · rintro ⟨t', q', hpath, rfl, rfl⟩
    exact hpath.erase

end AixvolinkPbx.Calls
