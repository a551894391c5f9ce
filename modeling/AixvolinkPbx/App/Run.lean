import AixvolinkPbx.Lib.Interleave
import Mathlib.Data.List.Induction

/-!
# The application (`internal/app/app.go`)

`Run` binds two sockets, starts a server on each of them, and serves until its context ends, a server
stops or the cleanup of registrations fails; then it closes the sockets, waits for both servers and for
the calls, and closes the user agent. The servers and the calls are not its own goroutines: they move
with the environment. Any number of goroutines may call `Run`.

1. `Caller` follows one call of `Run`: how far it got, and what it has bound, started and received.
2. `Matches` says that the shared state is what the one call that got in has made of it; `matches_perform`
   and `matches_move` are its steps.
3. `run_leaves_nothing` and `run_result` are what a caller of `Run` relies on.
-/

namespace AixvolinkPbx.App

open Prog (Path Returns Safe safe_bind safe_call safe_pure safe_mono safe_loop)

/-! ## Operations -/

inductive Socket
  | udp
  | tcp
  deriving DecidableEq, Repr

/-- Errors, as far as they are told apart. -/
inductive NetError
  | closed
  | canceled
  | other (text : String)
  deriving DecidableEq, Repr

/-- The parts of the error of `Run`; what `errors.Join` puts together is a list of them. -/
inductive RunError
  | ranBefore
  | listen (socket : Socket) (err : NetError)
  | unexpectedType
  | serve (err : NetError)
  | stoppedUnexpectedly
  | cleanup (err : String)
  | close (err : NetError)
  | userAgent (err : NetError)
  deriving DecidableEq, Repr

inductive Listened
  | bound
  | unexpectedType
  | failed (err : NetError)
  deriving DecidableEq, Repr

inductive Selected
  | done
  | served (err : Option NetError)
  | tick
  deriving DecidableEq, Repr

inductive AppOp
  -- the critical section at the beginning: true for the first call
  | enter
  | listenUDP
  | listenTCP
  | closeReady
  -- the `go` statement that starts a server
  | serve (socket : Socket)
  | select
  | expire
  | ctxErr
  | close (socket : Socket)
  | receive
  -- the two steps of the engine's `Wait`
  | stopCalls
  | waitCalls
  | closeUserAgent
  deriving DecidableEq, Repr

abbrev appSig : Sig where
  Op := AppOp
  Ans
    | .enter => Bool
    | .listenUDP => Listened
    | .listenTCP => Option NetError
    | .select => Selected
    | .expire => Option String
    | .ctxErr => Bool
    | .close _ => Option NetError
    | .receive => Option NetError
    | .closeUserAgent => Option NetError
    | _ => Unit

abbrev op (e : AppOp) : Prog appSig (appSig.Ans e) := .call (S := appSig) e

/-! ## `Run` -/

def normalizeServeError : Option NetError → Option NetError
  | some .closed => none
  | some .canceled => none
  | err => err

def joined (part : NetError → RunError) (err : Option NetError) : List RunError :=
  ((normalizeServeError err).map part).toList

/-- One iteration of the loop: how it ends, the error so far and how many servers have reported. -/
def round (_ : Unit) : Prog appSig (Unit ⊕ List RunError × ℕ) := do
  match ← op .select with
  | .done => return .inr ([], 0)
  | .served err =>
    match normalizeServeError err with
    | some err => return .inr ([.serve err], 1)
    | none => return .inr ([.stoppedUnexpectedly], 1)
  | .tick =>
    match ← op .expire with
    | none => return .inl ()
    | some err =>
      if ← op .ctxErr then return .inl ()
      else return .inr ([.cleanup err], 0)

/-- The servers that have not reported yet. -/
def collect : ℕ → List RunError → Prog appSig (List RunError)
  | 0, errs => return errs
  | n + 1, errs => do
    let err ← op .receive
    collect n (errs ++ joined .serve err)

def shutDown (errs : List RunError) (received : ℕ) : Prog appSig (List RunError) := do
  let udp ← op (.close .udp)
  let tcp ← op (.close .tcp)
  let errs ← collect (2 - received) (errs ++ joined .close udp ++ joined .close tcp)
  op .stopCalls
  op .waitCalls
  return errs

/-- `Run` once both sockets are bound; at most `n` iterations of the loop are looked at. -/
def serve (n : ℕ) : Prog appSig (List RunError) := do
  op .closeReady
  op (.serve .udp)
  op (.serve .tcp)
  let (errs, received) ← Prog.loop round n ()
  shutDown errs received

def listen (n : ℕ) : Prog appSig (List RunError) := do
  match ← op .listenUDP with
  | .failed err => return [.listen .udp err]
  | .unexpectedType =>
    let _ ← op (.close .udp)
    return [.unexpectedType]
  | .bound =>
    match ← op .listenTCP with
    | some err =>
      let _ ← op (.close .udp)
      return [.listen .tcp err]
    | none => serve n

def run (n : ℕ) : Prog appSig (List RunError) := do
  if !(← op .enter) then return [.ranBefore]
  let errs ← listen n
  let err ← op .closeUserAgent
  return errs ++ (err.map .userAgent).toList

/-! ## The shared state -/

structure Shared where
  ran : Bool
  bound : Socket → Bool
  ready : Bool
  /-- The servers that have been started and have not returned. -/
  serving : Socket → Bool
  /-- The channel of the servers' errors. -/
  queue : List (Option NetError)
  /-- The engine admits no more calls. -/
  stopping : Bool
  /-- The calls that are admitted. -/
  calls : ℕ
  agentClosed : Bool

def Shared.initial : Shared := ⟨false, fun _ => false, false, fun _ => false, [], false, 0, false⟩

inductive Move
  | returns (socket : Socket) (err : Option NetError)
  | arrive
  | leave

/-- The state after an operation of `Run`, if it may be answered so; `canceled` says whether the context
of `Run` has ended. -/
def Shared.perform (canceled : Bool) (sh : Shared) : (e : AppOp) → appSig.Ans e → Option Shared
  | .enter, first => if first = !sh.ran then some { sh with ran := true } else none
  | .listenUDP, .failed _ => some sh
  | .listenUDP, _ => some { sh with bound := Function.update sh.bound .udp true }
  | .listenTCP, some _ => some sh
  | .listenTCP, none => some { sh with bound := Function.update sh.bound .tcp true }
  | .closeReady, _ => some { sh with ready := true }
  | .serve socket, _ => some { sh with serving := Function.update sh.serving socket true }
  | .select, .done => if canceled then some sh else none
  | .select, .served err =>
    if sh.queue.head? = some err then some { sh with queue := sh.queue.tail } else none
  | .select, .tick => some sh
  | .expire, _ => some sh
  | .ctxErr, err => if err = canceled then some sh else none
  | .close socket, _ => some { sh with bound := Function.update sh.bound socket false }
  | .receive, err => if sh.queue.head? = some err then some { sh with queue := sh.queue.tail } else none
  | .stopCalls, _ => some { sh with stopping := true }
  | .waitCalls, _ => if sh.calls = 0 then some sh else none
  | .closeUserAgent, _ => some { sh with agentClosed := true }

/-- The state after a move, if it is possible: a server returns and sends its error, for which the channel
has to have room; a call is admitted until the engine stops; a call ends. -/
def Shared.move (sh : Shared) : Move → Option Shared
  | .returns socket err =>
    if sh.serving socket ∧ sh.queue.length < 2 then
      some { sh with serving := Function.update sh.serving socket false, queue := sh.queue ++ [err] }
    else none
  | .arrive => if sh.ready ∧ !sh.stopping then some { sh with calls := sh.calls + 1 } else none
  | .leave => if sh.calls = 0 then none else some { sh with calls := sh.calls - 1 }

/-! ## One call of `Run` -/

def count (f : Socket → Bool) : ℕ := (f .udp).toNat + (f .tcp).toNat

variable {socket : Socket}

theorem count_update_true {f : Socket → Bool} (h : f socket = false) :
    count (Function.update f socket true) = count f + 1 := by
  cases socket with
  | udp => simp [count, h, Nat.add_comm]
  | tcp => simp [count, h]

theorem count_update_false {f : Socket → Bool} (h : f socket = true) :
    count (Function.update f socket false) + 1 = count f := by
  cases socket with
  | udp => simp [count, h, Nat.add_comm]
  | tcp => simp [count, h]

/-- What the call that got in has done. -/
structure Progress where
  bound : Socket → Bool
  ready : Bool
  started : Socket → Bool
  received : ℕ
  stopping : Bool
  waited : Bool
  agentClosed : Bool

def Progress.start : Progress := ⟨fun _ => false, false, fun _ => false, 0, false, false, false⟩

/-- The progress after an operation; none if it may not come here. -/
def Progress.next (p : Progress) : (e : AppOp) → appSig.Ans e → Option Progress
  | .enter, _ => none
  | .listenUDP, .failed _ => some p
  | .listenUDP, _ => some { p with bound := Function.update p.bound .udp true }
  | .listenTCP, some _ => some p
  | .listenTCP, none => some { p with bound := Function.update p.bound .tcp true }
  | .closeReady, _ => some { p with ready := true }
  | .serve socket, _ =>
    if p.started socket then none
    else some { p with started := Function.update p.started socket true }
  | .select, .served _ => some { p with received := p.received + 1 }
  | .close socket, _ => some { p with bound := Function.update p.bound socket false }
  | .receive, _ => some { p with received := p.received + 1 }
  | .stopCalls, _ => some { p with stopping := true }
  | .waitCalls, _ => if p.stopping then some { p with waited := true } else none
  | .closeUserAgent, _ => some { p with agentClosed := true }
  | _, _ => some p

def fails : Event appSig → Bool
  | ⟨.enter, first⟩ => !first
  | ⟨.listenUDP, .bound⟩ => false
  | ⟨.listenUDP, _⟩ => true
  | ⟨.listenTCP, err⟩ => err.isSome
  | ⟨.select, .served _⟩ => true
  | ⟨.expire, err⟩ => err.isSome
  | ⟨.close _, err⟩ => (normalizeServeError err).isSome
  | ⟨.receive, err⟩ => (normalizeServeError err).isSome
  | ⟨.closeUserAgent, err⟩ => err.isSome
  | _ => false

/-- Without an error the context has ended, and an error has a cause. -/
structure Explained (errs : List RunError) (t : List (Event appSig)) : Prop where
  done : errs = [] → ⟨.select, .done⟩ ∈ t
  failed : errs ≠ [] → ∃ ev ∈ t, fails ev = true

variable {t : List (Event appSig)} {errs : List RunError}

theorem Explained.of_failed {err : RunError} (ev : Event appSig) (hmem : ev ∈ t)
    (hfails : fails ev = true) : Explained (err :: errs) t :=
  ⟨fun h => absurd h (List.cons_ne_nil _ _), fun _ => ⟨ev, hmem, hfails⟩⟩

theorem Explained.snoc {more : List RunError} (h : Explained errs t) (ev : Event appSig)
    (hmore : more ≠ [] → fails ev = true) :
    Explained (errs ++ more) (t ++ [ev]) := by
  refine ⟨fun hnil => List.mem_append_left _ (h.done (List.append_eq_nil_iff.mp hnil).1), fun hne => ?_⟩
  by_cases hnil : more = []
  · rw [hnil, List.append_nil] at hne
    obtain ⟨ev', hmem, hfails⟩ := h.failed hne
    exact ⟨ev', List.mem_append_left _ hmem, hfails⟩
  · exact ⟨ev, List.mem_append_right _ List.mem_cons_self, hmore hnil⟩

theorem Explained.quiet (h : Explained errs t) (ev : Event appSig) :
    Explained errs (t ++ [ev]) := by
  rw [← List.append_nil errs]
  exact h.snoc ev fun hne => absurd rfl hne

theorem joined_ne_nil {part : NetError → RunError} {err : Option NetError} (h : joined part err ≠ []) :
    (normalizeServeError err).isSome = true := by
  cases hnormal : normalizeServeError err with
  | none =>
    rw [joined, hnormal] at h
    exact absurd rfl h
  | some _ => rfl

/-- A call of `Run`; the one that got in with its progress and its events. -/
inductive Caller
  | fresh
  | refused
  | running (p : Progress) (t : List (Event appSig))
  | broken

def Caller.next : Caller → (e : AppOp) → appSig.Ans e → Caller
  | .fresh, .enter, true => .running .start [⟨.enter, true⟩]
  | .fresh, .enter, false => .refused
  | .running p t, e, r => (p.next e r).elim .broken (.running · (t ++ [⟨e, r⟩]))
  | _, _, _ => .broken

def callerMonitor : Monitor appSig Caller where
  next := Caller.next
  good c := c ≠ .broken
  admits _ _ := True

/-- Nothing is left: the sockets are closed, every server has reported, and if calls could be admitted,
no more are, and all have ended. -/
structure Progress.Finished (p : Progress) : Prop where
  bound : p.bound = fun _ => false
  received : p.received = count p.started
  calls : p.ready = true → p.stopping = true ∧ p.waited = true

/-- Nothing is left, and the error so far has its reasons. -/
def Winds (errs : List RunError) (c : Caller) : Prop :=
  ∃ p t, c = .running p t ∧ p.Finished ∧ Explained errs t

section Caller

variable {p : Progress} {e : AppOp}

theorem safe_step {α : Type} {f : appSig.Ans e → Prog appSig α} {Q : α → Caller → Prop}
    (h : ∀ r, ∃ p', p.next e r = some p' ∧
      Safe callerMonitor (.running p' (t ++ [⟨e, r⟩])) (f r) Q) :
    Safe callerMonitor (.running p t) (op e >>= f) Q := by
  refine safe_bind.mpr (safe_call.mpr fun r _ => ?_)
  obtain ⟨p', hp', hsafe⟩ := h r
  have hnext : callerMonitor.next (.running p t) e r = .running p' (t ++ [⟨e, r⟩]) := by
    show (p.next e r).elim Caller.broken _ = _
    rw [hp']
    rfl
  rw [hnext]
  exact ⟨Caller.noConfusion, hsafe⟩

theorem mem_last (ev : Event appSig) : ev ∈ t ++ [ev] := List.mem_append_right _ List.mem_cons_self

theorem round_safe : Safe callerMonitor (.running p t) (round ()) fun x c =>
    x.elim (fun _ => ∃ t', c = .running p t') fun res => res.2 ≤ 1 ∧
      ∃ t', c = .running { p with received := p.received + res.2 } t' ∧ Explained res.1 t' := by
  unfold round
  refine safe_step fun selected => ?_
  cases selected with
  | done =>
    refine ⟨p, rfl, safe_pure.mpr ⟨by simp, _, rfl, fun _ => mem_last _, fun hne => absurd rfl hne⟩⟩
  | served err =>
    refine ⟨_, rfl, ?_⟩
    dsimp only
    split
    · exact safe_pure.mpr ⟨le_rfl, _, rfl, .of_failed _ (mem_last _) rfl⟩
    · exact safe_pure.mpr ⟨le_rfl, _, rfl, .of_failed _ (mem_last _) rfl⟩
  | tick =>
    refine ⟨p, rfl, safe_step fun err => ⟨p, rfl, ?_⟩⟩
    cases err with
    | none => exact safe_pure.mpr ⟨_, rfl⟩
    | some err =>
      refine safe_step fun canceled => ⟨p, rfl, ?_⟩
      cases canceled with
      | true => exact safe_pure.mpr ⟨_, rfl⟩
      | false =>
        refine safe_pure.mpr ⟨by simp, _, rfl, ?_⟩
        exact .of_failed ⟨.expire, some err⟩ (List.mem_append_left _ (mem_last _)) rfl

theorem loop_safe (n : ℕ) : Safe callerMonitor (.running p t) (Prog.loop round n ()) fun res c =>
    res.2 ≤ 1 ∧ ∃ t', c = .running { p with received := p.received + res.2 } t' ∧
      Explained res.1 t' := by
  refine safe_loop (I := fun _ c => ∃ t', c = .running p t') ?_ n ⟨t, rfl⟩
  rintro _ c ⟨t', rfl⟩
  exact round_safe

theorem collect_safe (k : ℕ) (h : Explained errs t) :
    Safe callerMonitor (.running p t) (collect k errs) fun errs' c =>
      ∃ t', c = .running { p with received := p.received + k } t' ∧ Explained errs' t' := by
  induction k generalizing errs p t with
  | zero => exact safe_pure.mpr ⟨t, rfl, h⟩
  | succ k ih =>
    refine safe_step fun err => ⟨_, rfl, safe_mono (ih (h.snoc _ joined_ne_nil)) ?_⟩
    rintro errs' c ⟨t', rfl, h'⟩
    exact ⟨t', by rw [Nat.add_right_comm]; rfl, h'⟩

theorem shutDown_safe (received : ℕ) (h : Explained errs t)
    (hservers : p.received + (2 - received) = count p.started) :
    Safe callerMonitor (.running p t) (shutDown errs received) Winds := by
  refine safe_step fun udp => ⟨_, rfl, safe_step fun tcp => ⟨_, rfl, safe_bind.mpr ?_⟩⟩
  have hudp : Explained (errs ++ joined .close udp) _ := h.snoc ⟨.close .udp, udp⟩ joined_ne_nil
  have htcp : Explained (_ ++ joined .close tcp) _ := hudp.snoc ⟨.close .tcp, tcp⟩ joined_ne_nil
  refine safe_mono (collect_safe _ htcp) ?_
  rintro errs' c ⟨t', rfl, h'⟩
  refine safe_step fun _ => ⟨_, rfl, safe_step fun _ => ⟨_, rfl, safe_pure.mpr ?_⟩⟩
  refine ⟨_, _, rfl, ⟨?_, hservers, fun _ => ⟨rfl, rfl⟩⟩, (h'.quiet _).quiet _⟩
  funext socket
  cases socket <;> rfl

/-- Once the servers are started, both report and the calls are waited for. -/
theorem serve_safe (n : ℕ) (hstarted : p.started = fun _ => false) (hreceived : p.received = 0) :
    Safe callerMonitor (.running p t) (serve n) Winds := by
  refine safe_step fun _ => ⟨_, rfl, ?_⟩
  refine safe_step fun _ => ⟨_, if_neg (by simp [hstarted]), ?_⟩
  refine safe_step fun _ => ⟨_, if_neg (by simp [hstarted]), ?_⟩
  refine .bind (loop_safe n) ?_
  rintro ⟨errs, received⟩ c ⟨hle, t', rfl, h⟩
  refine shutDown_safe received h ?_
  have hservers : count (Function.update (Function.update p.started .udp true) .tcp true) = 2 := rfl
  show p.received + received + (2 - received) = count _
  rw [hservers]
  have hle : received ≤ 1 := hle
  omega

theorem listen_safe (n : ℕ) : Safe callerMonitor (.running .start t) (listen n) Winds := by
  have closed : ∀ {p : Progress}, p.started = (fun _ => false) → p.received = 0 → p.ready = false →
      p.bound .tcp = false → Progress.Finished { p with bound := Function.update p.bound .udp false } := by
    intro p hstarted hreceived hready htcp
    refine ⟨?_, ?_, fun h => by simp [hready] at h⟩
    · funext socket
      cases socket with
      | udp => rfl
      | tcp => exact htcp
    · simp [count, hstarted, hreceived]
  refine safe_step fun udp => ?_
  cases udp with
  | failed err =>
    refine ⟨_, rfl, safe_pure.mpr ⟨_, _, rfl, ⟨rfl, rfl, fun h => by cases h⟩, ?_⟩⟩
    exact .of_failed _ (mem_last _) rfl
  | unexpectedType =>
    refine ⟨_, rfl, safe_step fun _ => ⟨_, rfl,
      safe_pure.mpr ⟨_, _, rfl, closed rfl rfl rfl rfl, ?_⟩⟩⟩
    exact .of_failed ⟨.listenUDP, .unexpectedType⟩ (List.mem_append_left _ (mem_last _)) rfl
  | bound =>
    refine ⟨_, rfl, safe_step fun tcp => ?_⟩
    cases tcp with
    | some err =>
      refine ⟨_, rfl, safe_step fun _ => ⟨_, rfl,
        safe_pure.mpr ⟨_, _, rfl, closed rfl rfl rfl rfl, ?_⟩⟩⟩
      exact .of_failed ⟨.listenTCP, some err⟩ (List.mem_append_left _ (mem_last _)) rfl
    | none => exact ⟨_, rfl, serve_safe n rfl rfl⟩

def Caller.Ends : List RunError → Caller → Prop
  | errs, .refused => errs = [.ranBefore]
  | errs, .running p t => p.Finished ∧ p.agentClosed = true ∧ Explained errs t
  | _, _ => False

theorem run_safe (n : ℕ) : Safe callerMonitor .fresh (run n) Caller.Ends := by
  refine safe_bind.mpr (safe_call.mpr fun first _ => ?_)
  cases first with
  | false => exact ⟨by simp [callerMonitor, Caller.next], safe_pure.mpr rfl⟩
  | true =>
    refine ⟨by simp [callerMonitor, Caller.next], .bind (listen_safe n) ?_⟩
    rintro errs c ⟨p, t, rfl, hfinished, h⟩
    refine safe_step fun err => ⟨_, rfl, safe_pure.mpr ⟨⟨?_, ?_, ?_⟩, rfl, h.snoc _
      fun hne => ?_⟩⟩
    · exact hfinished.bound
    · exact hfinished.received
    · exact hfinished.calls
    · cases err with
      | none => exact absurd rfl hne
      | some err => rfl

end Caller

/-! ## The call that got in and the shared state -/

structure Matches (sh : Shared) (p : Progress) : Prop where
  ran : sh.ran = true
  bound : sh.bound = p.bound
  ready : sh.ready = p.ready
  serving : ∀ socket, sh.serving socket = true → p.started socket = true
  reports : count sh.serving + sh.queue.length + p.received = count p.started
  stopping : sh.stopping = p.stopping
  waited : p.waited = true → p.stopping = true ∧ sh.calls = 0
  calls : sh.calls ≠ 0 → sh.ready = true
  agentClosed : sh.agentClosed = p.agentClosed

section Matches

variable {canceled : Bool} {sh sh' : Shared} {p p' : Progress}

theorem matches_move {l : Move} (h : Matches sh p) (hmove : sh.move l = some sh') : Matches sh' p := by
  cases l with
  | returns socket err =>
    obtain ⟨⟨hserving, -⟩, ⟨⟩⟩ := Option.ite_none_right_eq_some.mp hmove
    refine { h with serving := fun s hs => ?_, reports := ?_ }
    · by_cases heq : s = socket
      · rw [heq]
        exact h.serving socket hserving
      · exact h.serving s ((Function.update_of_ne heq false sh.serving).symm.trans hs)
    · have hcount := count_update_false hserving
      have hreports := h.reports
      show count (Function.update sh.serving socket false) + (sh.queue ++ [err]).length + p.received = _
      rw [List.length_append, List.length_singleton]
      omega
  | arrive =>
    obtain ⟨⟨hready, hstopping⟩, ⟨⟩⟩ := Option.ite_none_right_eq_some.mp hmove
    refine { h with waited := fun hw => ?_, calls := fun _ => hready }
    rw [h.stopping, (h.waited hw).1] at hstopping
    cases hstopping
  | leave =>
    obtain ⟨hcalls, ⟨⟩⟩ := Option.ite_none_left_eq_some.mp hmove
    exact { h with waited := fun hw => absurd (h.waited hw).2 hcalls, calls := fun _ => h.calls hcalls }

theorem Matches.received (h : Matches sh p) {err : Option NetError} (hqueue : sh.queue.head? = some err) :
    Matches { sh with queue := sh.queue.tail } { p with received := p.received + 1 } := by
  obtain ⟨rest, hqueue⟩ := List.head?_eq_some_iff.mp hqueue
  refine { h with reports := ?_ }
  have hreports := h.reports
  rw [hqueue, List.length_cons] at hreports
  show count sh.serving + sh.queue.tail.length + (p.received + 1) = count p.started
  rw [hqueue, List.tail_cons]
  omega

theorem Matches.started (h : Matches sh p) (hstarted : ¬ p.started socket = true) :
    Matches { sh with serving := Function.update sh.serving socket true }
      { p with started := Function.update p.started socket true } := by
  have hfree : sh.serving socket = false :=
    Bool.eq_false_iff.mpr fun hserving => hstarted (h.serving socket hserving)
  refine { h with serving := fun s hs => ?_, reports := ?_ }
  · by_cases heq : s = socket
    · rw [heq]
      exact Function.update_self socket true p.started
    · have hs : sh.serving s = true := (Function.update_of_ne heq true sh.serving).symm.trans hs
      exact (Function.update_of_ne heq true p.started).trans (h.serving s hs)
  · have hreports := h.reports
    show count (Function.update sh.serving socket true) + sh.queue.length + p.received =
      count (Function.update p.started socket true)
    rw [count_update_true hfree, count_update_true (Bool.eq_false_iff.mpr hstarted)]
    omega

variable {r : appSig.Ans e}

theorem matches_perform (h : Matches sh p) (hperf : sh.perform canceled e r = some sh')
    (hp : p.next e r = some p') : Matches sh' p' := by
  cases e with
  | enter => cases hp
  | listenUDP =>
    cases r <;> cases hperf <;> cases hp
    · exact { h with bound := by rw [h.bound] }
    · exact { h with bound := by rw [h.bound] }
    · exact h
  | listenTCP =>
    cases r <;> cases hperf <;> cases hp
    · exact { h with bound := by rw [h.bound] }
    · exact h
  | closeReady =>
    cases hperf
    cases hp
    exact { h with ready := rfl, calls := fun _ => rfl }
  | serve socket =>
    obtain ⟨hstarted, ⟨⟩⟩ := Option.ite_none_left_eq_some.mp hp
    cases hperf
    exact h.started hstarted
  | select =>
    cases r with
    | done =>
      obtain ⟨-, ⟨⟩⟩ := Option.ite_none_right_eq_some.mp hperf
      cases hp
      exact h
    | served err =>
      obtain ⟨hqueue, ⟨⟩⟩ := Option.ite_none_right_eq_some.mp hperf
      cases hp
      exact h.received hqueue
    | tick =>
      cases hperf
      cases hp
      exact h
  | expire =>
    cases hperf
    cases hp
    exact h
  | ctxErr =>
    obtain ⟨-, ⟨⟩⟩ := Option.ite_none_right_eq_some.mp hperf
    cases hp
    exact h
  | close socket =>
    cases hperf
    cases hp
    exact { h with bound := by rw [h.bound] }
  | receive =>
    obtain ⟨hqueue, ⟨⟩⟩ := Option.ite_none_right_eq_some.mp hperf
    cases hp
    exact h.received hqueue
  | stopCalls =>
    cases hperf
    cases hp
    exact { h with stopping := rfl, waited := fun hw => ⟨rfl, (h.waited hw).2⟩ }
  | waitCalls =>
    obtain ⟨hcalls, ⟨⟩⟩ := Option.ite_none_right_eq_some.mp hperf
    obtain ⟨hstopping, ⟨⟩⟩ := Option.ite_none_right_eq_some.mp hp
    exact { h with waited := fun _ => ⟨hstopping, hcalls⟩ }
  | closeUserAgent =>
    cases hperf
    cases hp
    exact { h with agentClosed := rfl }

end Matches

/-! ## Any number of calls -/

structure World where
  canceled : Bool
  app : Shared

def World.perform (w : World) (_ : Unit) (e : AppOp) (r : appSig.Ans e) : Option World :=
  (w.app.perform w.canceled e r).map fun sh => { w with app := sh }

/-- The context ends, or the rest of the process moves. -/
def World.move (w : World) : Option Move → Option World
  | none => some { w with canceled := true }
  | some l => (w.app.move l).map fun sh => { w with app := sh }

def appSystem (n : ℕ) : System appSig Unit (List RunError) World (Option Move) where
  prog _ := run n
  spawns _ _ := True
  perform w x e r w' := w.perform x e r = some w'
  env w l w' := w.move l = some w'

abbrev AppState := System.State appSig Unit (List RunError) World

abbrev AppLabel := System.Label appSig Unit (Option Move)

abbrev AppThread := Thread appSig Unit (List RunError)

variable {n : ℕ} {ls : List AppLabel} {st : AppState}

structure Shared.Stopped (sh : Shared) : Prop where
  bound : ∀ socket, sh.bound socket = false
  serving : ∀ socket, sh.serving socket = false
  queue : sh.queue = []
  calls : sh.calls = 0
  stopping : sh.ready = true → sh.stopping = true
  agentClosed : sh.agentClosed = true

theorem Matches.stopped {sh : Shared} {p : Progress} (h : Matches sh p) (hfinished : p.Finished)
    (hagent : p.agentClosed = true) : sh.Stopped := by
  have hreports := h.reports
  rw [hfinished.received] at hreports
  have hserving : count sh.serving = 0 := by omega
  refine ⟨fun socket => ?_, fun socket => ?_, ?_, ?_, fun hready => ?_, h.agentClosed.trans hagent⟩
  · rw [h.bound, hfinished.bound]
  · rw [count, Nat.add_eq_zero_iff, Bool.toNat_eq_zero, Bool.toNat_eq_zero] at hserving
    cases socket with
    | udp => exact hserving.1
    | tcp => exact hserving.2
  · exact List.length_eq_zero_iff.mp (by omega)
  · by_contra hne
    have hready := h.calls hne
    rw [h.ready] at hready
    exact hne (h.waited (hfinished.calls hready).2).2
  · rw [h.stopping]
    exact (hfinished.calls (h.ready.symm.trans hready)).1

/-- Either nobody has got in yet, or exactly one call has, and the state is what it made of it. -/
def Exclusive {X : Type} (sh : Shared) (vs : List (System.Seen X Caller)) : Prop :=
  (sh = .initial ∧ ∀ v ∈ vs, v.ghost = .fresh) ∨
    ∃ (i : ℕ) (v : System.Seen X Caller) (p : Progress) (t : List (Event appSig)),
      vs[i]? = some v ∧ v.ghost = .running p t ∧ Matches sh p ∧
        ∀ (j : ℕ) (v' : System.Seen X Caller),
          vs[j]? = some v' → j ≠ i → v'.ghost = .fresh ∨ v'.ghost = .refused

theorem enter_of_fresh {canceled : Bool} {sh sh' : Shared} (h : sh.perform canceled e r = some sh')
    (hgood : Caller.next .fresh e r ≠ .broken) :
    sh' = { sh with ran := true } ∧
      Caller.next .fresh e r = if sh.ran then .refused else .running .start [⟨.enter, true⟩] := by
  cases e with
  | enter =>
    obtain ⟨rfl, ⟨⟩⟩ := Option.ite_none_right_eq_some.mp h
    refine ⟨rfl, ?_⟩
    cases sh.ran <;> rfl
  | _ => exact absurd rfl hgood

section Exclusive

variable {X : Type} {canceled : Bool} {sh sh' : Shared} {vs : List (System.Seen X Caller)} {i : ℕ}
  {v v' : System.Seen X Caller}

theorem Exclusive.spawn (h : Exclusive sh vs) (hghost : v.ghost = .fresh) : Exclusive sh (vs ++ [v]) := by
  rcases h with ⟨hinitial, hfresh⟩ | ⟨i, v₀, p, t, hget, hghost₀, hmatches, hothers⟩
  · refine .inl ⟨hinitial, fun v' hv' => ?_⟩
    rcases List.mem_append.mp hv' with hv' | hv'
    · exact hfresh v' hv'
    · rw [List.mem_singleton.mp hv', hghost]
  · have hlt := (List.getElem?_eq_some_iff.mp hget).1
    refine .inr ⟨i, v₀, p, t, (List.getElem?_append_left hlt).trans hget, hghost₀, hmatches, ?_⟩
    intro j v' hj hne
    rcases Nat.lt_or_ge j vs.length with hlt | hge
    · exact hothers j v' ((List.getElem?_append_left hlt).symm.trans hj) hne
    · rw [List.getElem?_append_right hge] at hj
      rw [List.mem_singleton.mp (List.mem_of_getElem? hj)]
      exact .inl hghost

theorem Exclusive.act (h : Exclusive sh vs) (hget : vs[i]? = some v)
    (hgood : v.ghost.next e r ≠ .broken) (hperf : sh.perform canceled e r = some sh')
    (hv' : v'.ghost = v.ghost.next e r) : Exclusive sh' (vs.set i v') := by
  have hself : (vs.set i v')[i]? = some v' :=
    List.getElem?_set_self (List.getElem?_eq_some_iff.mp hget).1
  rcases h with ⟨rfl, hfresh⟩ | ⟨i₀, v₀, p, t, hget₀, hghost, hmatches, hothers⟩
  · -- the first call gets in
    rw [hfresh v (List.mem_of_getElem? hget)] at hgood hv'
    obtain ⟨rfl, hnext⟩ := enter_of_fresh hperf hgood
    refine .inr ⟨i, v', .start, _, hself, hv'.trans hnext,
      ⟨rfl, rfl, rfl, ?_, rfl, rfl, ?_, ?_, rfl⟩, ?_⟩
    · exact fun socket hs => by cases hs
    · exact fun hw => by cases hw
    · exact fun hne => absurd rfl hne
    · intro j v hj hne
      rw [List.getElem?_set_ne (Ne.symm hne)] at hj
      exact .inl (hfresh v (List.mem_of_getElem? hj))
  refine .inr ⟨i₀, ?_⟩
  by_cases hi : i = i₀
  · subst hi
    cases hget₀.symm.trans hget
    rw [hghost] at hgood hv'
    cases hp : p.next e r with
    | none =>
      have hbroken : (Caller.running p t).next e r = .broken := congrArg (Option.elim · _ _) hp
      exact absurd hbroken hgood
    | some p' =>
      have hnext : (Caller.running p t).next e r = .running p' _ := congrArg (Option.elim · _ _) hp
      refine ⟨v', p', _, hself, hv'.trans hnext, matches_perform hmatches hperf hp, fun j v hj hne => ?_⟩
      rw [List.getElem?_set_ne (Ne.symm hne)] at hj
      exact hothers j v hj hne
  · -- another call may only be refused
    have hv : v.ghost = .fresh := by
      rcases hothers i v hget hi with hv | hv
      · exact hv
      · rw [hv] at hgood
        exact absurd rfl hgood
    rw [hv] at hgood hv'
    obtain ⟨rfl, hnext⟩ := enter_of_fresh hperf hgood
    refine ⟨v₀, p, t, ?_, hghost, { hmatches with ran := rfl }, fun j v'' hj hne => ?_⟩
    · rw [List.getElem?_set_ne hi]
      exact hget₀
    · rcases getElem?_set_cases hj with ⟨-, hj⟩ | ⟨-, rfl⟩
      · exact hothers j v'' hj hne
      · right
        rw [hv', hnext, if_pos hmatches.ran]

theorem Exclusive.move {l : Move} (h : Exclusive sh vs) (hmove : sh.move l = some sh') :
    Exclusive sh' vs := by
  rcases h with ⟨rfl, -⟩ | ⟨i, v, p, t, hget, hghost, hmatches, hothers⟩
  · cases l <;> cases hmove
  · exact .inr ⟨i, v, p, t, hget, hghost, matches_move hmatches hmove, hothers⟩

/-- A call that has returned was refused after another one got in, or it is the one that got in, and
nothing is left. -/
theorem Exclusive.returned (h : Exclusive sh vs) (hget : vs[i]? = some v)
    (hends : Caller.Ends errs v.ghost) :
    (v.ghost = .refused ∧ errs = [.ranBefore] ∧ ∃ v' ∈ vs, ∃ p t, v'.ghost = .running p t) ∨
      (∃ p t, v.ghost = .running p t) ∧ sh.Stopped ∧ ∀ (j : ℕ) (v' : System.Seen X Caller),
        vs[j]? = some v' → j ≠ i → v'.ghost = .fresh ∨ v'.ghost = .refused := by
  rcases h with ⟨-, hfresh⟩ | ⟨i₀, v₀, p, t, hget₀, hghost, hmatches, hothers⟩
  · rw [hfresh v (List.mem_of_getElem? hget)] at hends
    exact hends.elim
  by_cases hi : i = i₀
  · subst hi
    cases hget₀.symm.trans hget
    rw [hghost] at hends
    exact .inr ⟨⟨p, t, hghost⟩, hmatches.stopped hends.1 hends.2.1, hothers⟩
  · rcases hothers i v hget hi with hv | hv
    · rw [hv] at hends
      exact hends.elim
    · rw [hv] at hends
      exact .inl ⟨hv, hends, v₀, List.mem_of_getElem? hget₀, p, t, hghost⟩

end Exclusive

theorem exclusive_of_reaches (h : (appSystem n).Reaches ⟨false, .initial⟩ ls st) :
    System.Tracked callerMonitor (fun _ => .fresh) Caller.Ends st ∧
      Exclusive st.shared.app (System.view callerMonitor (fun _ => .fresh) st) := by
  refine System.invariant (C := fun _ _ => True) (I := fun _ w vs => Exclusive w.app vs)
    (fun _ => run_safe n) (fun _ _ _ _ _ _ => trivial) ?_ ?_ ?_ h.under (Or.inl ⟨rfl, by simp⟩)
  · rintro ls st x live hI -
    exact hI.spawn rfl
  · rintro ls st i th e r w live - hI - hget - hgood hperf
    obtain ⟨sh, hsh, rfl⟩ := Option.map_eq_some_iff.mp hperf
    exact hI.act (System.view_getElem? hget) hgood hsh rfl
  · intro ls st l w hI hl
    cases l with
    | none =>
      cases hl
      exact hI
    | some l =>
      obtain ⟨sh, hsh, rfl⟩ := Option.map_eq_some_iff.mp hl
      exact hI.move hsh

/-! ## What a call of `Run` has done -/

/-- What a state of the monitor says about the events before it. -/
def Caller.Follows : Caller → List (Event appSig) → Prop
  | .fresh, t => t = []
  | .refused, t => t = [⟨.enter, false⟩]
  | .running _ u, t => u = t ∧ t.head? = some ⟨.enter, true⟩
  | .broken, _ => True

theorem Caller.Follows.snoc {c : Caller} (h : c.Follows t) (e : AppOp) (r : appSig.Ans e) :
    (c.next e r).Follows (t ++ [⟨e, r⟩]) := by
  cases c with
  | fresh =>
    obtain rfl : t = [] := h
    cases e with
    | enter =>
      cases r with
      | true => exact ⟨rfl, rfl⟩
      | false => rfl
    | _ => trivial
  | refused => trivial
  | running p u =>
    obtain ⟨rfl, hhead⟩ := h
    show Caller.Follows ((p.next e r).elim .broken (.running · _)) _
    cases p.next e r with
    | none => trivial
    | some p' =>
      refine ⟨rfl, ?_⟩
      rw [List.head?_append, hhead]
      rfl
  | broken => trivial

theorem follows_past (t : List (Event appSig)) : (callerMonitor.run .fresh t).Follows t := by
  induction t using List.reverseRecOn with
  | nil => rfl
  | append_singleton t ev ih =>
    rw [Monitor.run_append]
    exact ih.snoc ev.op ev.ans

theorem past_of_ghost {th : AppThread} {c : Caller}
    (h : (System.see callerMonitor (fun _ => .fresh) th).ghost = c) : c.Follows th.past :=
  h ▸ follows_past th.past

/-! A run: one call of `Run` serves a call until its context ends, and a second one comes too late. -/

/-- The answers: everything succeeds, and the servers report that their sockets were closed. -/
def answers (first : Bool) : (e : AppOp) → appSig.Ans e
  | .enter => first
  | .listenUDP => .bound
  | .listenTCP => none
  | .closeReady => ()
  | .serve _ => ()
  | .select => .done
  | .expire => none
  | .ctxErr => true
  | .close _ => none
  | .receive => some .closed
  | .stopCalls => ()
  | .waitCalls => ()
  | .closeUserAgent => none

def schedule : List (System.Choice appSig Unit (Option Move)) :=
  [.spawn (), .spawn ()] ++ List.replicate 6 (.act 0 (answers true)) ++
    [.env (some .arrive), .act 1 (answers false), .env none] ++ List.replicate 3 (.act 0 (answers true)) ++
    [.env (some (.returns .tcp (some .closed))), .env (some (.returns .udp (some .closed)))] ++
    List.replicate 3 (.act 0 (answers true)) ++ [.env (some .leave)] ++
    List.replicate 2 (.act 0 (answers true))

def stopped := System.follow (appSystem 1) World.perform World.move schedule ⟨⟨false, .initial⟩, []⟩

theorem stopped_reaches : (appSystem 1).Reaches ⟨false, .initial⟩ (System.labels stopped) stopped.2 :=
  System.ReachesUnder.reaches (C := fun _ _ => True) (System.follow_steps (fun _ _ _ _ _ h => h)
    (fun _ _ _ h => h) schedule _ fun _ _ => ⟨fun _ _ => trivial, trivial⟩)

/-- Whatever else calls `Run` and however the servers and the calls move: a call of `Run` that returns was
refused because another one got in, and did nothing, or it is the only one that got in, and behind it both
sockets are closed, no server runs, every server's error was received, no call is left or admitted any
more, and the user agent is closed. -/
theorem run_leaves_nothing (h : (appSystem n).Reaches ⟨false, .initial⟩ ls st) {i : ℕ}
    {th : AppThread} (hget : st.threads[i]? = some th) {errs : List RunError}
    (hrest : th.rest = .pure errs) :
    (errs = [.ranBefore] ∧ th.past = [⟨.enter, false⟩] ∧
        ∃ th' ∈ st.threads, th'.past.head? = some ⟨.enter, true⟩) ∨
      th.past.head? = some ⟨.enter, true⟩ ∧ st.shared.app.Stopped ∧
        ∀ (j : ℕ) (th' : AppThread), st.threads[j]? = some th' → j ≠ i →
          th'.past = [] ∨ th'.past = [⟨.enter, false⟩] := by
  obtain ⟨htracked, hexclusive⟩ := exclusive_of_reaches h
  have hsafe := htracked th (List.mem_of_getElem? hget)
  rw [hrest] at hsafe
  rcases hexclusive.returned (System.view_getElem? hget) (Prog.safe_pure.mp hsafe) with
    ⟨hghost, herrs, v, hv, p, t, hrunning⟩ | ⟨⟨p, t, hghost⟩, hstopped, hothers⟩
  · obtain ⟨th', hth', rfl⟩ := List.mem_map.mp hv
    exact .inl ⟨herrs, past_of_ghost hghost, th', hth', (past_of_ghost hrunning).2⟩
  · refine .inr ⟨(past_of_ghost hghost).2, hstopped, fun j th' hj hne => ?_⟩
    rcases hothers j _ (System.view_getElem? hj) hne with hfresh | hrefused
    · exact .inl (past_of_ghost hfresh)
    · exact .inr (past_of_ghost hrefused)

theorem run_leaves_nothing_stopped :
    stopped.2.shared.app.Stopped ∧ ∃ th, stopped.2.threads[1]? = some th ∧
      th.rest = .pure [.ranBefore] ∧ th.past = [⟨.enter, false⟩] := by
  constructor
  · obtain ⟨th, hget, hrest⟩ : ∃ th, stopped.2.threads[0]? = some th ∧ th.rest = .pure [] :=
      ⟨_, rfl, rfl⟩
    rcases run_leaves_nothing stopped_reaches hget hrest with ⟨herrs, -⟩ | ⟨-, hstopped, -⟩
    · cases herrs
    · exact hstopped
  · refine ⟨_, rfl, rfl, ?_⟩
    rcases run_leaves_nothing stopped_reaches (i := 1) rfl rfl with ⟨-, hpast, -⟩ | ⟨hpast, -⟩
    · exact hpast
    · cases hpast

/-! ## The result of `Run` -/

theorem canceled_of_done (h : (appSystem n).Reaches ⟨false, .initial⟩ ls st) {i : ℕ}
    (hdone : .act i ⟨.select, .done⟩ ∈ ls) : st.shared.canceled = true := by
  revert i
  refine Steps.invariant (I := fun ls st => ∀ {i : ℕ}, .act i ⟨.select, .done⟩ ∈ ls →
    st.shared.canceled = true) ?_ h (fun hmem => absurd hmem List.not_mem_nil)
  intro ls st l st' hI hstep i hmem
  rw [List.mem_append, List.mem_singleton] at hmem
  cases hstep with
  | spawn x _ => exact hI (hmem.resolve_right (by simp))
  | act j th e k r w hget hrest hperf =>
    obtain ⟨sh, hsh, rfl⟩ := Option.map_eq_some_iff.mp hperf
    rcases hmem with hmem | ⟨⟨⟩⟩
    · exact hI hmem
    · exact (Option.ite_none_right_eq_some.mp hsh).1
  | env l w hl =>
    cases l with
    | none =>
      cases hl
      rfl
    | some l =>
      obtain ⟨sh, -, rfl⟩ := Option.map_eq_some_iff.mp hl
      exact hI (hmem.resolve_right (by simp))

theorem Caller.Ends.explained {c : Caller} (h : Caller.Ends errs c) (hfollows : c.Follows t) :
    Explained errs t := by
  cases c with
  | fresh => exact h.elim
  | refused =>
    rw [show errs = _ from h, show t = _ from hfollows]
    exact .of_failed _ List.mem_cons_self rfl
  | running p u =>
    obtain ⟨rfl, -⟩ := hfollows
    exact h.2.2
  | broken => exact h.elim

/-- `Run` returns without an error only because its context has ended, and with one only because
something it did went wrong or a server stopped. -/
theorem run_result (h : (appSystem n).Reaches ⟨false, .initial⟩ ls st) {i : ℕ} {th : AppThread}
    (hget : st.threads[i]? = some th) {errs : List RunError} (hrest : th.rest = .pure errs) :
    (errs = [] → st.shared.canceled = true) ∧ (errs ≠ [] → ∃ ev ∈ th.past, fails ev = true) := by
  have hsafe := (exclusive_of_reaches h).1 th (List.mem_of_getElem? hget)
  rw [hrest] at hsafe
  have hexplained := (safe_pure.mp hsafe).explained (follows_past th.past)
  refine ⟨fun hnil => ?_, hexplained.failed⟩
  have hdone := hexplained.done hnil
  rw [System.past_eq_eventsOf h hget] at hdone
  exact canceled_of_done h (System.mem_eventsOf.mp hdone)

theorem run_result_stopped : stopped.2.shared.canceled = true ∧
    ∃ th, stopped.2.threads[1]? = some th ∧ ∃ ev ∈ th.past, fails ev = true :=
  ⟨(run_result stopped_reaches (i := 0) rfl rfl).1 rfl, _, rfl,
    (run_result stopped_reaches (i := 1) rfl rfl).2 (List.cons_ne_nil _ _)⟩

end AixvolinkPbx.App
