import AixvolinkPbx.Call.Traced
import AixvolinkPbx.Call.History
import AixvolinkPbx.Lib.Interleave

/-!
# An actor and its clients (`internal/core/call/actor.go`, `Actor.Transition`)

Any number of clients ask one actor for transitions. Each call of `Transition` has a reply channel of
its own; a select takes any case that is ready.

`partyMonitor` follows a client through its two selects and the actor through its commands: the actor
answers each command with what `apply` returned, and the result fits the call before and after it
(`tracedRun_stage`).
-/

namespace AixvolinkPbx.Calls

open Prog (Safe safe_bind safe_call safe_pure safe_mono safe_loop safe_plain_call safe_note)

/-! ## Transition -/

/-- The outcome of the first select of `Transition`. -/
inductive Sending
  | closed
  | context
  | sent

/-- The outcome of the second one. -/
inductive Awaiting
  | reply (err : Option ActorError)
  | closed
  | context

inductive ClientOp
  | send (c : Command)
  | await (result : ℕ)

abbrev clientSig : Sig where
  Op := ClientOp
  Ans
    | .send _ => Sending
    | .await _ => Awaiting

/-- `Transition`; the command names the channel made for its reply. -/
def transition (c : Command) : Prog clientSig (Option ActorError) := do
  match ← .call (S := clientSig) (.send c) with
  | .closed => return some .closed
  | .context => return some .context
  | .sent =>
    match ← .call (S := clientSig) (.await c.result) with
    | .reply err => return err
    | .closed => return some .closed
    | .context => return some .context

/-! ## The system -/

abbrev partySig : Sig := tracedSig.sum clientSig

structure ActorShared where
  mailbox : List Command
  /-- The buffers of the reply channels. -/
  replies : ℕ → Option (Option ActorError)
  /-- `done` is closed. -/
  closed : Bool

def ActorShared.initial : ActorShared := ⟨[], fun _ => none, false⟩

inductive Party
  | actor
  | client (c : Command)
  deriving DecidableEq

def Party.command : Party → Option Command
  | .actor => none
  | .client c => some c

def Party.channel (x : Party) : Option ℕ := x.command.map Command.result

/-- Whether an operation may be answered so, and what it does then. What does not concern the channels
is answered freely. -/
def handleParty (capacity : ℕ) (sh : ActorShared) : (e : partySig.Op) → partySig.Ans e →
    Option ActorShared
  | .inl (.inl .select), .command c =>
    match sh.mailbox with
    | [] => none
    | head :: rest => if head = c then some { sh with mailbox := rest } else none
  | .inl (.inl (.reply result err)), _ =>
    if sh.replies result = none then
      some { sh with replies := Function.update sh.replies result (some err) }
    else none
  | .inl (.inl .close), _ => some { sh with closed := true }
  | .inr (.send c), .sent =>
    if sh.mailbox.length < capacity then some { sh with mailbox := sh.mailbox ++ [c] } else none
  | .inr (.send _), .closed => if sh.closed then some sh else none
  | .inr (.await result), .reply err =>
    if sh.replies result = some err then
      some { sh with replies := Function.update sh.replies result none }
    else none
  | .inr (.await _), .closed => if sh.closed then some sh else none
  | _, _ => some sh

section Handle

variable {capacity : ℕ} {sh sh' : ActorShared} {result : ℕ} {err : Option ActorError} {c : Command}

theorem handle_command (h : handleParty capacity sh (.inl (.inl .select)) (.command c) = some sh') :
    ∃ rest, sh.mailbox = c :: rest ∧ sh' = { sh with mailbox := rest } := by
  replace h : (match sh.mailbox with
    | [] => none
    | head :: rest => if head = c then some { sh with mailbox := rest } else none) = some sh' := h
  split at h
  · cases h
  · next head rest hmailbox =>
    split_ifs at h with hhead
    exact ⟨rest, hhead ▸ hmailbox, (Option.some.inj h).symm⟩

theorem handle_ite {p : Prop} {inst : Decidable p} {sh₁ : ActorShared}
    (h : (if p then some sh₁ else none) = some sh') : p ∧ sh' = sh₁ := by
  split_ifs at h with hp
  exact ⟨hp, (Option.some.inj h).symm⟩

end Handle

/-- The actor of `call`, looked at for at most `n` rounds, and its clients. -/
def actorSystem (capacity : ℕ) (call : Call) (n : ℕ) :
    System partySig Party (Option ActorError) ActorShared Empty where
  prog
    | .actor => (tracedRun n ⟨call, 0⟩).inl
    | .client c => (transition c).inr
  spawns _ _ := True
  perform sh _ e r sh' := handleParty capacity sh e r = some sh'
  env _ l _ := l.elim

abbrev PartyLabel := System.Label partySig Party Empty

/-! ## The parties under the observer -/

inductive Stage
  -- the actor
  | idle
  | taken (c : Command)
  | begun (c : Command) (before : Call)
  | finished (c : Command) (err : Option ActorError)
  | closed
  -- a client
  | fresh (c : Command)
  | sent (c : Command)
  | returned (c : Command) (err : Option ActorError)
  | bad
  deriving DecidableEq

def Stage.command : Stage → Option Command
  | .fresh c => some c
  | .sent c => some c
  | .returned c _ => some c
  | _ => none

/-- The command the actor is at. -/
def Stage.held : Stage → Option Command
  | .taken c => some c
  | .begun c _ => some c
  | .finished c _ => some c
  | _ => none

theorem Stage.command_of_held {g : Stage} {c : Command} (h : g.held = some c) : g.command = none := by
  cases g with
  | fresh _ => cases h
  | sent _ => cases h
  | returned _ _ => cases h
  | _ => rfl

theorem Stage.held_of_command {g : Stage} {c : Command} (h : g.command = some c) : g.held = none := by
  cases hheld : g.held with
  | none => rfl
  | some c' =>
    rw [Stage.command_of_held hheld] at h
    cases h

/-- The result of a transition fits the call before and after it. -/
structure Fits (t : Transition) (err : Option ActorError) (before after : Call) : Prop where
  applied : err = none → after.state = t.state
  refused : ∀ s s', err = some (.invalidTransition s s') → after = before
  not_closed : err ≠ some .closed

def Sending.stage (c : Command) : Sending → Stage
  | .sent => .sent c
  | .closed => .returned c (some .closed)
  | .context => .returned c (some .context)

def Awaiting.stage (c : Command) : Awaiting → Stage
  | .reply err => .returned c err
  | .closed => .returned c (some .closed)
  | .context => .returned c (some .context)

open Classical in
noncomputable def nextStage (x : Stage) : (e : partySig.Op) → partySig.Ans e → Stage
  | .inl (.inl .select), .command c => if x = .idle then .taken c else .bad
  | .inl (.inr (.begun c before)), _ => if x = .taken c then .begun c before else .bad
  | .inl (.inr (.finished c err after)), _ =>
    if ∃ before, x = .begun c before ∧ Fits c.transition err before after then .finished c err
    else .bad
  | .inl (.inl (.reply result err)), _ =>
    if ∃ c, x = .finished c err ∧ c.result = result then .idle else .bad
  | .inl (.inl .close), _ => if x = .idle then .closed else .bad
  | .inl _, _ => if x.command = none then x else .bad
  | .inr (.send c), answer => if x = .fresh c then Sending.stage c answer else .bad
  | .inr (.await result), answer =>
    match x with
    | .sent c => if c.result = result then Awaiting.stage c answer else .bad
    | _ => .bad

noncomputable abbrev partyMonitor : Monitor partySig Stage where
  next := nextStage
  good x := x ≠ .bad
  admits _ _ := True

def Party.stage : Party → Stage
  | .actor => .idle
  | .client c => .fresh c

section Programs

variable {g : Stage}

theorem tracedPublish_stage (a : Actor) (protocolEvent reason legID : String)
    (oldState newState : State) (hbad : g ≠ .bad) (hg : g.command = none) :
    Safe partyMonitor.left g (tracedPublish a protocolEvent reason oldState newState legID)
      fun res g' => g' = g ∧ res.2.call = a.call := by
  have hnext : (if g.command = none then g else .bad) = g := if_pos hg
  simp only [tracedPublish, now, publisherPublish, safe_bind, safe_plain_call, safe_note,
    Monitor.left, nextStage, hnext]
  exact fun _ _ => ⟨hbad, fun _ => ⟨hbad, fun _ _ => ⟨hbad, safe_pure.mpr ⟨rfl, rfl⟩⟩⟩⟩

theorem tracedApply_stage (a : Actor) (t : Transition) (hbad : g ≠ .bad) (hg : g.command = none) :
    Safe partyMonitor.left g (tracedApply a t) fun res g' =>
      g' = g ∧ Fits t res.1 a.call res.2.call := by
  have hnext : (if g.command = none then g else .bad) = g := if_pos hg
  unfold tracedApply
  split_ifs with hsame
  · exact safe_pure.mpr ⟨rfl, fun _ => hsame.symm, nofun, nofun⟩
  · exact safe_pure.mpr ⟨rfl, nofun, fun _ _ _ => rfl, nofun⟩
  · simp only [now, safe_bind, safe_plain_call, Monitor.left, nextStage, hnext]
    intro (time : ℤ) _
    refine ⟨hbad, safe_mono (tracedPublish_stage _ _ _ _ _ _ hbad hg) ?_⟩
    rintro ⟨_ | _, a'⟩ g' ⟨rfl, hcall⟩
    · exact safe_pure.mpr ⟨rfl, nofun, nofun, nofun⟩
    · simp only [storeSnapshot, safe_bind, safe_plain_call, hnext]
      refine fun _ _ => ⟨hbad, safe_pure.mpr ⟨rfl, fun _ => ?_, nofun, nofun⟩⟩
      show a'.call.state = t.state
      rw [hcall, advance_state]

theorem tracedRound_stage (a : Actor) :
    Safe partyMonitor.left .idle (tracedRound a) fun _ g' => g' = .idle := by
  simp only [tracedRound, select, safe_bind, safe_plain_call, Monitor.left]
  intro sel _
  cases sel with
  | done =>
    refine ⟨by rintro ⟨⟩, ?_⟩
    dsimp only
    split_ifs
    · refine .bind (tracedApply_stage a _ (by rintro ⟨⟩) rfl) ?_
      rintro ⟨_ | err, a'⟩ g' ⟨rfl, -⟩
      · refine .bind (tracedApply_stage a' _ (by rintro ⟨⟩) rfl) ?_
        rintro ⟨_ | err, a''⟩ g' ⟨rfl, -⟩
        · exact safe_pure.mpr rfl
        · exact safe_pure.mpr rfl
      · exact safe_pure.mpr rfl
    · exact safe_pure.mpr rfl
  | command c =>
    simp only [nextStage, if_true, safe_bind, safe_note]
    refine ⟨by simp, fun _ => ⟨by simp,
      safe_mono (tracedApply_stage a c.transition (by simp) rfl) ?_⟩⟩
    rintro ⟨err, a'⟩ g' ⟨rfl, hfits⟩
    have hfinished : ∃ before, Stage.begun c a.call = .begun c before ∧
        Fits c.transition err before a'.call := ⟨_, rfl, hfits⟩
    have hreplied : ∃ c', Stage.finished c err = .finished c' err ∧ c'.result = c.result :=
      ⟨_, rfl, rfl⟩
    simp only [reply, safe_plain_call, if_pos hfinished, if_pos hreplied]
    refine fun _ => ⟨by simp, fun _ _ => ⟨by simp, ?_⟩⟩
    split_ifs
    · exact safe_pure.mpr rfl
    · exact safe_pure.mpr rfl

theorem tracedRun_stage (n : ℕ) (a : Actor) :
    Safe partyMonitor.left .idle (tracedRun n a) fun _ g' => g' = .closed := by
  have hbody : Safe partyMonitor.left .idle (tracedBody n a) fun _ g' => g' = .idle := by
    unfold tracedBody
    refine .bind (tracedPublish_stage a _ _ _ _ _ nofun rfl) ?_
    rintro ⟨_ | _, a'⟩ g' ⟨rfl, -⟩
    · exact safe_pure.mpr rfl
    · refine safe_loop (I := fun _ g => g = .idle) ?_ n rfl
      rintro a _ rfl
      refine safe_mono (tracedRound_stage a) ?_
      rintro (_ | _) g' rfl
      · rfl
      · rfl
  unfold tracedRun
  refine .bind hbody ?_
  rintro err g' rfl
  simp only [close, safe_bind, safe_plain_call, Monitor.left, nextStage, if_true]
  exact fun _ _ => ⟨nofun, safe_pure.mpr rfl⟩

theorem transition_stage (c : Command) :
    Safe partyMonitor.right (.fresh c) (transition c) fun err g' => g' = .returned c err := by
  simp only [transition, safe_bind, safe_call, Monitor.right, nextStage, if_true]
  rintro (_ | _ | _) _
  · exact ⟨by rintro ⟨⟩, safe_pure.mpr rfl⟩
  · exact ⟨by rintro ⟨⟩, safe_pure.mpr rfl⟩
  · refine ⟨by rintro ⟨⟩, ?_⟩
    simp only [Sending.stage, safe_bind, safe_call, if_true]
    rintro (_ | _ | _) _
    · exact ⟨by rintro ⟨⟩, safe_pure.mpr rfl⟩
    · exact ⟨by rintro ⟨⟩, safe_pure.mpr rfl⟩
    · exact ⟨by rintro ⟨⟩, safe_pure.mpr rfl⟩

end Programs

theorem party_stage (capacity : ℕ) (call : Call) (n : ℕ) (x : Party) :
    Safe partyMonitor x.stage ((actorSystem capacity call n).prog x) fun err g' =>
      g' = .closed ∨ ∃ c, g' = .returned c err := by
  cases x with
  | actor => exact Prog.safe_inl (safe_mono (tracedRun_stage n _) fun _ _ h => .inl h)
  | client c => exact Prog.safe_inr (safe_mono (transition_stage c) fun _ _ h => .inr ⟨c, h⟩)

end AixvolinkPbx.Calls
