import AixvolinkPbx.Base
import AixvolinkPbx.Lib.Prog

/-!
# Calls and their actor (`internal/core/call`)

An actor is the only writer of its call. `Actor.Run` is a program over the operations the actor
shares with others: the select over its context and mailbox, clock readings, publishing an event,
storing the snapshot, replying to a command and closing `done`. The call and the sequence number are
local to it. What holds of the actor and an observer between two commands is a `LoopInvariant`.
-/

namespace AixvolinkPbx.Calls

/-! ## Calls and events -/

/-- `State`, a text: the nine named states and every other text. -/
inductive State
  | new
  | routing
  | ringing
  | earlyMedia
  | answered
  | held
  | terminating
  | terminated
  | failed
  | other (text : String)
  deriving DecidableEq, Repr

/-- The zero value of `State`. -/
def State.empty : State := .other ""

def isTerminal (state : State) : Bool := state = .terminated || state = .failed

def allowedTransition (current target : State) : Bool :=
  match current with
  | .new => target = .routing || target = .failed || target = .terminating
  | .routing =>
    target = .ringing || target = .earlyMedia || target = .answered || target = .failed ||
      target = .terminating
  | .ringing => target = .earlyMedia || target = .answered || target = .failed || target = .terminating
  | .earlyMedia => target = .answered || target = .failed || target = .terminating
  | .answered => target = .held || target = .terminating
  | .held => target = .answered || target = .terminating
  | .terminating => target = .terminated || target = .failed
  | .terminated => false
  | .failed => false
  | .other _ => false

/-- `Call`, and `Snapshot` of the same fields. -/
structure Call where
  id : String
  tenantID : String
  nodeID : String
  direction : String
  callerLeg : String
  calleeLeg : String
  state : State
  startedAt : ℤ
  answeredAt : ℤ
  endedAt : ℤ
  cause : String
  deriving DecidableEq, Repr

structure CallEvent where
  sequence : UInt64
  tenantID : String
  callID : String
  legID : String
  nodeID : String
  callerLeg : String
  calleeLeg : String
  direction : String
  oldState : State
  newState : State
  reason : String
  protocolEvent : String
  occurredAt : ℤ
  deriving DecidableEq, Repr

structure Transition where
  state : State
  legID : String
  reason : String
  protocolEvent : String
  deriving DecidableEq, Repr

/-- The errors of `Run` and `Transition`; `publish` and `publishInitial` wrap the publisher's. -/
inductive ActorError
  | closed
  | context
  | invalidTransition (current target : State)
  | publish (err : String)
  | publishInitial (err : String)
  deriving DecidableEq, Repr

/-! ## Construction -/

def maxMailboxCapacity : ℤ := 1024

/-- What `Run` keeps to itself. -/
structure Actor where
  call : Call
  sequence : UInt64
  deriving DecidableEq, Repr

/-- `NewActor`: the actor, whose snapshot is then `current`, or the error on the capacity. -/
def newActor (mailboxCapacity : ℤ) (current : Call) : Except String Actor :=
  if mailboxCapacity ≤ 0 ∨ maxMailboxCapacity < mailboxCapacity then
    .error "mailbox capacity must be between 1 and 1024"
  else .ok ⟨current, 0⟩

theorem eq_of_newActor {mailboxCapacity : ℤ} {current : Call} {a : Actor}
    (h : newActor mailboxCapacity current = .ok a) : a = ⟨current, 0⟩ := by
  unfold newActor at h
  split_ifs at h
  exact (Except.ok.inj h).symm

/-! ## Operations -/

/-- A command of the mailbox; `result` names the channel of its reply. -/
structure Command where
  transition : Transition
  result : ℕ
  deriving DecidableEq

inductive Selected
  | done
  | command (c : Command)

inductive ActorOp
  | now
  | publish (event : CallEvent)
  | store (snapshot : Call)
  | select
  | reply (result : ℕ) (err : Option ActorError)
  | close

abbrev actorSig : Sig where
  Op := ActorOp
  Ans
    | .now => ℤ
    | .publish _ => Except String Unit
    | .store _ => Unit
    | .select => Selected
    | .reply _ _ => Unit
    | .close => Unit

def now : Prog actorSig ℤ := .call (S := actorSig) .now
def publisherPublish (event : CallEvent) : Prog actorSig (Except String Unit) :=
  .call (S := actorSig) (.publish event)
def storeSnapshot (snapshot : Call) : Prog actorSig Unit := .call (S := actorSig) (.store snapshot)
def select : Prog actorSig Selected := .call (S := actorSig) .select
def reply (result : ℕ) (err : Option ActorError) : Prog actorSig Unit :=
  .call (S := actorSig) (.reply result err)
def close : Prog actorSig Unit := .call (S := actorSig) .close

/-! ## Run -/

/-- The event `publish` builds at the time `occurredAt`. -/
def eventOf (a : Actor) (protocolEvent reason : String) (oldState newState : State) (legID : String)
    (occurredAt : ℤ) : CallEvent where
  sequence := a.sequence
  tenantID := a.call.tenantID
  callID := a.call.id
  legID := legID
  nodeID := a.call.nodeID
  callerLeg := a.call.callerLeg
  calleeLeg := a.call.calleeLeg
  direction := a.call.direction
  oldState := oldState
  newState := newState
  reason := reason
  protocolEvent := protocolEvent
  occurredAt := occurredAt

def publish (a : Actor) (protocolEvent reason : String) (oldState newState : State)
    (legID : String) : Prog actorSig (Except String Unit × Actor) := do
  let a := { a with sequence := a.sequence + 1 }
  let occurredAt ← now
  let res ← publisherPublish (eventOf a protocolEvent reason oldState newState legID occurredAt)
  return (res, a)

/-- The call as `apply` has it before it publishes. -/
def advance (call : Call) (transition : Transition) (now : ℤ) : Call :=
  let call := { call with state := transition.state }
  let call := if transition.state = .answered then { call with answeredAt := now } else call
  if isTerminal transition.state then { call with endedAt := now, cause := transition.reason }
  else call

/-- `apply`: the error, if there is one, and the actor after it. -/
def apply (a : Actor) (transition : Transition) : Prog actorSig (Option ActorError × Actor) := do
  if transition.state = a.call.state then return (none, a)
  else if !allowedTransition a.call.state transition.state then
    return (some (.invalidTransition a.call.state transition.state), a)
  else
    let oldState := a.call.state
    let now ← now
    let a := { a with call := advance a.call transition now }
    match ← publish a transition.protocolEvent transition.reason oldState transition.state
        transition.legID with
    | (.error err, a) => return (some (.publish err), { a with call.state := oldState })
    | (.ok (), a) =>
      storeSnapshot a.call
      return (none, a)

def shutdown (state : State) : Transition := ⟨state, "", "context canceled", "shutdown"⟩

/-- One round of the loop of `Run`: the actor of the next round, or the result of `Run`. -/
def round (a : Actor) : Prog actorSig (Actor ⊕ Option ActorError) := do
  match ← select with
  | .done =>
    if !isTerminal a.call.state then
      match ← apply a (shutdown .terminating) with
      | (some err, _) => return .inr (some err)
      | (none, a) =>
        match ← apply a (shutdown .terminated) with
        | (some err, _) => return .inr (some err)
        | (none, _) => return .inr none
    else return .inr none
  | .command c =>
    let (err, a) ← apply a c.transition
    reply c.result err
    if err = none ∧ isTerminal a.call.state then return .inr none
    else return .inl a

/-- The body of `Run`, without the deferred close. -/
def body (n : ℕ) (a : Actor) : Prog actorSig (Option ActorError) := do
  match ← publish a "created" "" a.call.state .empty "" with
  | (.error err, _) => return some (.publishInitial err)
  | (.ok (), a) => Prog.loop round n a

/-- `Run`, looked at for at most `n` rounds of its loop. -/
def run (n : ℕ) (a : Actor) : Prog actorSig (Option ActorError) := do
  let err ← body n a
  close
  return err

/-! ## Invariants of the loop -/

section Invariants

open Prog (Safe safe_bind safe_call safe_pure safe_mono safe_loop)

variable {φ : Type}

/-- `I` holds of the actor and an observer between two commands: the operations of the loop keep it, and
so does `apply`, whatever comes of it. -/
structure LoopInvariant (M : Monitor actorSig φ) (I : Actor → φ → Prop) : Prop where
  select : ∀ {a g}, I a g → ∀ sel, M.good (M.next g .select sel) ∧ I a (M.next g .select sel)
  apply : ∀ {a g}, I a g → ∀ transition, Safe M g (apply a transition) fun res g' => I res.2 g'
  reply : ∀ {a g}, I a g → ∀ result err r,
    M.good (M.next g (.reply result err) r) ∧ I a (M.next g (.reply result err) r)

variable {M : Monitor actorSig φ} {I : Actor → φ → Prop} {a : Actor} {g : φ}

theorem LoopInvariant.round (hI : LoopInvariant M I) (h : I a g) :
    Safe M g (round a) fun res g' => res.elim (I · g') fun _ => ∃ a', I a' g' := by
  have finish : ∀ {a : Actor} {g : φ} (err : Option ActorError), I a g →
      Safe M g (Pure.pure (Sum.inr err)) fun res g' => res.elim
        (fun a : Actor => I a g') fun _ : Option ActorError => ∃ a', I a' g' :=
    fun _ h => safe_pure.mpr ⟨_, h⟩
  simp only [Calls.round, Calls.select, safe_bind, safe_call]
  intro sel _
  obtain ⟨hgood, h⟩ := hI.select h sel
  refine ⟨hgood, ?_⟩
  cases sel with
  | done =>
    dsimp only
    split_ifs
    · refine .bind (hI.apply h _) ?_
      rintro ⟨_ | err, a'⟩ g' h'
      · refine .bind (hI.apply h' _) ?_
        rintro ⟨_ | err, a''⟩ g'' h''
        · exact finish _ h''
        · exact finish _ h''
      · exact finish _ h'
    · exact finish _ h
  | command c =>
    refine .bind (hI.apply h c.transition) ?_
    rintro ⟨err, a'⟩ g' h'
    simp only [Calls.reply, safe_bind, safe_call]
    intro r _
    obtain ⟨hgood, h'⟩ := hI.reply h' c.result err r
    refine ⟨hgood, ?_⟩
    split_ifs
    · exact finish _ h'
    · exact safe_pure.mpr h'

/-- What the first event brings about if it is refused, and the invariant at any time, holds when the
loop has ended. -/
theorem LoopInvariant.body (hI : LoopInvariant M I) {F : φ → Prop} (hF : ∀ {a g}, I a g → F g)
    (hcreated : Safe M g (publish a "created" "" a.call.state .empty "") fun res g' =>
      (∀ err, res.1 = .error err → F g') ∧ (res.1 = .ok () → I res.2 g')) (n : ℕ) :
    Safe M g (body n a) fun _ g' => F g' := by
  unfold Calls.body
  refine .bind hcreated ?_
  rintro ⟨err | _, a'⟩ g' ⟨hrefused, haccepted⟩
  · exact safe_pure.mpr (hrefused err rfl)
  · refine safe_mono (safe_loop (fun _ _ h => hI.round h) n (haccepted rfl)) ?_
    rintro _ g'' ⟨a'', h⟩
    exact hF h

end Invariants

end AixvolinkPbx.Calls
