import AixvolinkPbx.Call.Actor

/-!
# The history an actor publishes

Whatever the commands, the outcomes of the publisher and the moment of cancellation, the events an
actor gets accepted after its first one form one legal history of the call (`history_legal`).

1. `historyMonitor` is an observer of the publisher and the snapshot: it counts the attempts to
   publish and keeps the accepted events (`Log`).
2. `Legal` says what the log is at every moment, and `Ready` what ties it to the actor between two
   commands; `apply` keeps it whether the transition is a no-op, rejected, rolled back or accepted
   (`apply_safe`), and so do the rounds of `Run`.

The sequence number is an unsigned 64-bit counter of attempts: it grows until it wraps
(`sequence_repeats`).
-/

namespace AixvolinkPbx.Calls

open Prog (Safe safe_bind safe_call safe_pure safe_mono safe_loop Path Returns)

/-! ## Histories -/

/-- Each event leaves the state the one before entered, the first one the state `s`. -/
def Chain : State → List CallEvent → Prop
  | _, [] => True
  | s, e :: es => e.oldState = s ∧ Chain e.newState es

def lastState (s : State) (es : List CallEvent) : State := (es.getLast?.map (·.newState)).getD s

@[simp] theorem lastState_nil (s : State) : lastState s [] = s := rfl

@[simp] theorem lastState_concat (s : State) (es : List CallEvent) (e : CallEvent) :
    lastState s (es ++ [e]) = e.newState := by simp [lastState]

theorem lastState_cons (s : State) (e : CallEvent) (es : List CallEvent) :
    lastState s (e :: es) = lastState e.newState es := by
  rw [lastState, lastState, List.getLast?_cons]
  cases es.getLast? <;> rfl

variable {es : List CallEvent} {s : State}

theorem chain_append {es' : List CallEvent} :
    Chain s (es ++ es') ↔ Chain s es ∧ Chain (lastState s es) es' := by
  induction es generalizing s with
  | nil => simp [Chain]
  | cons e es ih => rw [List.cons_append, Chain, Chain, ih, lastState_cons, and_assoc]

variable {e : CallEvent}

theorem chain_concat :
    Chain s (es ++ [e]) ↔ Chain s es ∧ e.oldState = lastState s es := by
  rw [chain_append, Chain, Chain, and_true]

theorem not_allowedTransition_of_isTerminal {s' : State} (h : isTerminal s = true) :
    allowedTransition s s' = false := by
  cases s <;> simp_all [isTerminal, allowedTransition]

theorem not_allowedTransition_empty (s : State) : allowedTransition s .empty = false := by
  cases s <;> rfl

/-- No event of a legal chain follows one that enters a terminal state. -/
theorem Chain.terminal_last (hc : Chain s es)
    (ha : ∀ e ∈ es, allowedTransition e.oldState e.newState = true) {pre post : List CallEvent}
    (hes : es = pre ++ e :: post) (ht : isTerminal e.newState = true) :
    post = [] := by
  subst hes
  induction pre generalizing s with
  | nil =>
    cases post with
    | nil => rfl
    | cons e' post =>
      have hallowed := ha e' (by simp)
      rw [hc.2.1, not_allowedTransition_of_isTerminal ht] at hallowed
      cases hallowed
  | cons e' pre ih => exact ih hc.2 fun x hx => ha x (List.mem_cons_of_mem _ hx)

/-! ## The observer -/

structure Log where
  /-- How often the actor tried to publish. -/
  attempts : ℕ
  accepted : List CallEvent
  /-- The attempts that were accepted. -/
  numbers : List ℕ
  snapshot : Call
  /-- An accepted transition has not reached the snapshot yet. -/
  storing : Bool

namespace Log

def start (call : Call) : Log := ⟨0, [], [], call, false⟩

def accept (log : Log) (e : CallEvent) : Log where
  attempts := log.attempts + 1
  accepted := log.accepted ++ [e]
  numbers := log.numbers ++ [log.attempts + 1]
  snapshot := log.snapshot
  storing := e.newState ≠ .empty

def reject (log : Log) : Log := { log with attempts := log.attempts + 1, storing := false }

def store (log : Log) (snapshot : Call) : Log := { log with snapshot := snapshot, storing := false }

/-- The accepted events after the first one. -/
def transitions (log : Log) : List CallEvent := log.accepted.tail

end Log

def nextLog (log : Log) : (e : ActorOp) → actorSig.Ans e → Log
  | .publish event, .ok _ => log.accept event
  | .publish _, .error _ => log.reject
  | .store snapshot, _ => log.store snapshot
  | .now, _ => { log with storing := false }
  | .select, _ => { log with storing := false }
  | .reply _ _, _ => { log with storing := false }
  | .close, _ => { log with storing := false }

structure Legal (log : Log) : Prop where
  created : ∀ e, log.accepted.head? = some e → e.protocolEvent = "created" ∧ e.newState = .empty
  chain : Chain .new log.transitions
  allowed : ∀ e ∈ log.transitions, allowedTransition e.oldState e.newState = true
  sequence : log.accepted.map (·.sequence) = log.numbers.map UInt64.ofNat
  increasing : log.numbers.Pairwise (· < ·)
  bounded : ∀ k ∈ log.numbers, k ≤ log.attempts
  snapshot : log.storing = false → log.snapshot.state = lastState .new log.transitions

def historyMonitor : Monitor actorSig Log where
  next := nextLog
  good := Legal
  admits _ _ := True

theorem legal_start {call : Call} (h : call.state = .new) : Legal (.start call) := by
  refine ⟨?_, trivial, ?_, rfl, .nil, ?_, fun _ => h⟩
  all_goals simp [Log.start, Log.transitions]

variable {log : Log}

theorem Legal.quiet (h : Legal log) (hs : log.storing = false) :
    Legal { log with storing := false } :=
  ⟨h.created, h.chain, h.allowed, h.sequence, h.increasing, h.bounded, fun _ => h.snapshot hs⟩

theorem Legal.reject (h : Legal log) (hs : log.storing = false) : Legal log.reject :=
  ⟨h.created, h.chain, h.allowed, h.sequence, h.increasing,
    fun k hk => Nat.le_succ_of_le (h.bounded k hk), fun _ => h.snapshot hs⟩

theorem Legal.store (h : Legal log) {snapshot : Call}
    (hs : snapshot.state = lastState .new log.transitions) : Legal (log.store snapshot) :=
  ⟨h.created, h.chain, h.allowed, h.sequence, h.increasing, h.bounded, fun _ => hs⟩

theorem Legal.accept_created (h : Legal log) (hnil : log.accepted = []) (hs : log.storing = false)
    (he : e.protocolEvent = "created") (hnew : e.newState = .empty)
    (hseq : e.sequence = UInt64.ofNat (log.attempts + 1)) :
    Legal (log.accept e) := by
  have hsnap := h.snapshot hs
  have hnum : log.numbers = [] := by
    have := h.sequence
    rw [hnil] at this
    simpa using this.symm
  refine ⟨?_, ?_, ?_, ?_, ?_, ?_, fun _ => ?_⟩
  · intro e' he'
    obtain rfl : e = e' := by simpa [Log.accept, hnil] using he'
    exact ⟨he, hnew⟩
  · simp [Log.accept, Log.transitions, hnil, Chain]
  · simp [Log.accept, Log.transitions, hnil]
  · simp [Log.accept, hnil, hnum, hseq]
  · simp [Log.accept, hnum]
  · simp [Log.accept, hnum]
  · simpa [Log.accept, Log.transitions, hnil] using hsnap

/-- A later event: an allowed transition out of the state last entered. -/
theorem Legal.accept (h : Legal log) (hne : log.accepted ≠ [])
    (hold : e.oldState = lastState .new log.transitions)
    (hallowed : allowedTransition e.oldState e.newState = true)
    (hseq : e.sequence = UInt64.ofNat (log.attempts + 1)) : Legal (log.accept e) := by
  have htail : (log.accept e).transitions = log.transitions ++ [e] :=
    List.tail_append_of_ne_nil hne
  refine ⟨?_, ?_, ?_, ?_, ?_, ?_, fun hst => ?_⟩
  · intro e' he'
    refine h.created e' ?_
    rwa [Log.accept, List.head?_append_of_ne_nil _ hne] at he'
  · rw [htail, chain_concat]
    exact ⟨h.chain, hold⟩
  · rw [htail]
    intro e' he'
    rcases List.mem_append.mp he' with he' | he'
    · exact h.allowed e' he'
    · rwa [List.mem_singleton.mp he']
  · simp [Log.accept, h.sequence, hseq]
  · refine List.pairwise_append.mpr ⟨h.increasing, by simp, fun k hk m hm => ?_⟩
    rw [List.mem_singleton.mp hm]
    exact Nat.lt_succ_of_le (h.bounded k hk)
  · intro k hk
    rcases List.mem_append.mp hk with hk | hk
    · exact Nat.le_succ_of_le (h.bounded k hk)
    · rw [List.mem_singleton.mp hk]
      exact Nat.le_refl _
  · -- no allowed transition enters the empty state
    rw [show e.newState = .empty by simpa [Log.accept] using hst,
      not_allowedTransition_empty] at hallowed
    cases hallowed

/-! ## The actor under the observer -/

/-- Between two commands: the observer has seen what the actor has done. -/
structure Ready (a : Actor) (log : Log) : Prop where
  legal : Legal log
  created : log.accepted ≠ []
  stored : log.storing = false
  sequence : a.sequence = UInt64.ofNat log.attempts
  state : a.call.state = lastState .new log.transitions

theorem ofNat_succ (n : ℕ) : UInt64.ofNat (n + 1) = UInt64.ofNat n + 1 := UInt64.ofNat_add n 1

theorem publish_safe {a : Actor} {protocolEvent reason legID : String} {oldState newState : State}
    (hlegal : Legal log) (hst : log.storing = false) (hseq : a.sequence = UInt64.ofNat log.attempts)
    (haccept : ∀ e : CallEvent, e.protocolEvent = protocolEvent → e.oldState = oldState →
      e.newState = newState → e.sequence = UInt64.ofNat (log.attempts + 1) →
      Legal (log.accept e)) :
    Safe historyMonitor log (publish a protocolEvent reason oldState newState legID)
      fun res log' => res.2 = { a with sequence := a.sequence + 1 } ∧
        match res.1 with
        | .ok _ => ∃ e : CallEvent, e.newState = newState ∧ log' = log.accept e ∧ Legal log'
        | .error _ => log' = log.reject ∧ Legal log' := by
  have hlog : { log with storing := false } = log := by rw [← hst]
  simp only [publish, now, publisherPublish, safe_bind, safe_call]
  intro (t : ℤ) _
  refine ⟨hlegal.quiet hst, ?_⟩
  rw [show historyMonitor.next log .now t = log from hlog]
  rintro (err | _) _
  · exact ⟨hlegal.reject hst, by simp [historyMonitor, nextLog, hlegal.reject hst]⟩
  · have h := haccept (eventOf { a with sequence := a.sequence + 1 } protocolEvent reason oldState
      newState legID t) rfl rfl rfl (by rw [ofNat_succ, ← hseq]; rfl)
    refine ⟨h, ?_⟩
    rw [safe_pure]
    exact ⟨rfl, _, rfl, rfl, h⟩

@[simp] theorem advance_state (call : Call) (transition : Transition) (now : ℤ) :
    (advance call transition now).state = transition.state := by
  unfold advance
  split_ifs <;> rfl

/-- `apply` keeps the observer and the actor together, whatever comes of it. -/
theorem apply_safe {a : Actor} (h : Ready a log) (transition : Transition) :
    Safe historyMonitor log (apply a transition) fun res log' => Ready res.2 log' := by
  have hlog : { log with storing := false } = log := by rw [← h.stored]
  unfold apply
  split_ifs with hsame hbad
  · exact safe_pure.mpr h
  · exact safe_pure.mpr h
  · have hallowed : allowedTransition a.call.state transition.state = true := by simpa using hbad
    simp only [now, safe_bind, safe_call]
    intro (t : ℤ) _
    refine ⟨h.legal.quiet h.stored, ?_⟩
    rw [show historyMonitor.next log .now t = log from hlog]
    refine safe_mono (publish_safe h.legal h.stored h.sequence ?_) ?_
    · intro e _ hold hnew hseq
      refine h.legal.accept h.created ?_ ?_ hseq
      · rw [hold, h.state]
      · rwa [hold, hnew]
    · rintro ⟨res, a'⟩ log' ⟨rfl, hres⟩
      cases res with
      | error err =>
        obtain ⟨rfl, hlegal⟩ := hres
        exact safe_pure.mpr ⟨hlegal, h.created, rfl, by rw [Log.reject, ofNat_succ, ← h.sequence],
          h.state⟩
      | ok _ =>
        obtain ⟨e, hnew, rfl, hlegal⟩ := hres
        have hlast : lastState .new (log.accept e).transitions = transition.state := by
          rw [Log.transitions, Log.accept, List.tail_append_of_ne_nil h.created, lastState_concat,
            hnew]
        have hstore : (advance a.call transition t).state =
            lastState .new (log.accept e).transitions := by rw [hlast, advance_state]
        simp only [storeSnapshot, safe_bind, safe_call]
        refine fun _ _ => ⟨hlegal.store hstore, safe_pure.mpr ⟨hlegal.store hstore, ?_, rfl, ?_, ?_⟩⟩
        · simp [Log.accept, Log.store, historyMonitor, nextLog]
        · simp [Log.accept, Log.store, historyMonitor, nextLog, ofNat_succ, ← h.sequence]
        · exact hstore

theorem loopInvariant_ready : LoopInvariant historyMonitor Ready where
  select h _ :=
    ⟨h.legal.quiet h.stored, h.legal.quiet h.stored, h.created, rfl, h.sequence, h.state⟩
  apply h transition := apply_safe h transition
  reply h _ _ _ :=
    ⟨h.legal.quiet h.stored, h.legal.quiet h.stored, h.created, rfl, h.sequence, h.state⟩

theorem run_safe {call : Call} (hnew : call.state = .new) (n : ℕ) :
    Safe historyMonitor (.start call) (run n ⟨call, 0⟩) fun _ log' => Legal log' := by
  have hbody : Safe historyMonitor (.start call) (body n ⟨call, 0⟩) fun _ log' =>
      Legal log' ∧ log'.storing = false := by
    refine loopInvariant_ready.body (fun h => ⟨h.legal, h.stored⟩)
      (safe_mono (publish_safe (legal_start hnew) rfl rfl ?_) ?_) n
    · intro e hcreated _ hempty hseq
      exact (legal_start hnew).accept_created rfl rfl hcreated hempty hseq
    rintro ⟨err | _, a⟩ log ⟨rfl, hres⟩
    · obtain ⟨rfl, hlegal⟩ := hres
      exact ⟨fun _ _ => ⟨hlegal, rfl⟩, by simp⟩
    · obtain ⟨e, hempty, rfl, hlegal⟩ := hres
      refine ⟨by simp, fun _ => ⟨hlegal, ?_, ?_, rfl, ?_⟩⟩
      · simp [Log.accept]
      · simp [Log.accept, hempty]
      · simp [Log.accept, Log.start, Log.transitions, hnew]
  unfold run
  refine .bind hbody ?_
  rintro err log ⟨hlegal, hst⟩
  simp only [close, safe_bind, safe_call]
  exact fun _ _ => ⟨hlegal.quiet hst, safe_pure.mpr (hlegal.quiet hst)⟩

/-! ## Histories of event sequences -/

def acceptedBy : Event actorSig → Option CallEvent
  | ⟨.publish event, .ok _⟩ => some event
  | _ => none

def refusal : Event actorSig → Bool
  | ⟨.publish _, .error _⟩ => true
  | _ => false

def isPublish : Event actorSig → Bool
  | ⟨.publish _, _⟩ => true
  | _ => false

/-- The events the publisher accepted. -/
def accepted (t : List (Event actorSig)) : List CallEvent := t.filterMap acceptedBy

def attempts (t : List (Event actorSig)) : ℕ := t.countP isPublish

/-- What `Snapshot()` returns: the last snapshot stored, at first the call of `NewActor`. -/
def snapshot (call : Call) (t : List (Event actorSig)) : Call :=
  t.foldl (fun c ev => match ev.op with | .store s => s | _ => c) call

/-- The last operation got a transition accepted, whose snapshot is stored next. -/
def storing (t : List (Event actorSig)) : Bool :=
  (t.getLast?.bind acceptedBy).any (·.newState ≠ .empty)

theorem nextLog_eq (log : Log) (ev : Event actorSig) :
    (nextLog log ev.op ev.ans).attempts = log.attempts + (if isPublish ev then 1 else 0) ∧
      (nextLog log ev.op ev.ans).accepted = log.accepted ++ (acceptedBy ev).toList ∧
      (nextLog log ev.op ev.ans).snapshot = snapshot log.snapshot [ev] ∧
      (nextLog log ev.op ev.ans).storing = storing [ev] := by
  obtain ⟨op, ans⟩ := ev
  cases op with
  | publish event =>
    cases ans <;> simp [nextLog, Log.accept, Log.reject, acceptedBy, isPublish, snapshot, storing]
  | store c => simp [nextLog, Log.store, acceptedBy, isPublish, snapshot, storing]
  | _ => simp [nextLog, acceptedBy, isPublish, snapshot, storing]

theorem run_log (log : Log) (t : List (Event actorSig)) :
    (historyMonitor.run log t).attempts = log.attempts + attempts t ∧
      (historyMonitor.run log t).accepted = log.accepted ++ accepted t ∧
      (historyMonitor.run log t).snapshot = snapshot log.snapshot t := by
  induction t generalizing log with
  | nil => simp [attempts, accepted, snapshot]
  | cons ev t ih =>
    obtain ⟨h1, h2, h3⟩ := ih (historyMonitor.next log ev.op ev.ans)
    obtain ⟨g1, g2, g3, -⟩ := nextLog_eq log ev
    rw [Monitor.run_cons]
    refine ⟨?_, ?_, ?_⟩
    · rw [h1, historyMonitor, g1, attempts, attempts, List.countP_cons]
      omega
    · rw [h2, historyMonitor, g2, accepted, accepted, List.filterMap_cons, List.append_assoc]
      cases acceptedBy ev <;> rfl
    · rw [h3, historyMonitor, g3]
      rfl

theorem run_storing (call : Call) (t : List (Event actorSig)) :
    (historyMonitor.run (.start call) t).storing = storing t := by
  rcases List.eq_nil_or_concat t with rfl | ⟨u, ev, rfl⟩
  · rfl
  · rw [List.concat_eq_append, Monitor.run_append, Monitor.run_cons, Monitor.run_nil]
    rw [historyMonitor, (nextLog_eq _ ev).2.2.2, storing, storing, List.getLast?_concat]
    rfl

/-- Below the wrap the sequence numbers grow with the attempts. -/
theorem Legal.sequence_increasing (h : Legal log) (hlt : log.attempts < 2 ^ 64) :
    log.accepted.Pairwise fun e e' => e.sequence < e'.sequence := by
  have hpair : (log.numbers.map UInt64.ofNat).Pairwise (· < ·) := by
    rw [List.pairwise_map]
    refine h.increasing.imp_of_mem fun {k m} hk hm hkm => ?_
    have hk' := h.bounded k hk
    have hm' := h.bounded m hm
    rw [UInt64.lt_iff_toNat_lt, UInt64.toNat_ofNat', UInt64.toNat_ofNat',
      Nat.mod_eq_of_lt (by omega), Nat.mod_eq_of_lt (by omega)]
    exact hkm
  rwa [← h.sequence, List.pairwise_map] at hpair

/-- The accepted events of a run are one legal history. -/
theorem history_of_path {call : Call} (hnew : call.state = .new) {n : ℕ} {t : List (Event actorSig)}
    {p : Prog actorSig (Option ActorError)} (h : Path (run n ⟨call, 0⟩) t p) :
    (∀ e, (accepted t).head? = some e → e.protocolEvent = "created" ∧ e.newState = .empty) ∧
      Chain .new (accepted t).tail ∧
      ∀ e ∈ (accepted t).tail, allowedTransition e.oldState e.newState = true := by
  have hlegal : Legal (historyMonitor.run (.start call) t) :=
    Prog.good_of_path (run_safe hnew n) (legal_start hnew) h fun _ _ => trivial
  have haccepted : (historyMonitor.run (.start call) t).accepted = accepted t :=
    (run_log (.start call) t).2.1
  rw [← haccepted]
  exact ⟨hlegal.created, hlegal.chain, hlegal.allowed⟩

def callIn (state : State) : Call :=
  ⟨"call", "tenant", "node", "internal", "caller", "callee", state, 0, 0, 0, ""⟩

/-- Answers of a mailbox with commands for `state` only and of a publisher with the outcome `res`. -/
def answering (state : State) (res : Except String Unit) : (e : ActorOp) → actorSig.Ans e
  | .now => (0 : ℤ)
  | .publish _ => res
  | .store _ => ()
  | .select => .command ⟨⟨state, "", "", "INVITE"⟩, 0⟩
  | .reply _ _ => ()
  | .close => ()

/-- Every event sequence of an actor over a new call publishes one legal history: after the first
event, (a) each accepted event leaves the state the one before entered, (b) by an allowed
transition, (c) with growing sequence numbers as long as the 64-bit counter has not wrapped, (d)
none follows one into a terminal state, and (e) the snapshot shows the state last entered. -/
theorem history_legal (capacity : ℤ) (call : Call) (a : Actor)
    (hactor : newActor capacity call = .ok a) (hnew : call.state = .new) (n : ℕ)
    (t : List (Event actorSig)) (p : Prog actorSig (Option ActorError)) (h : Path (run n a) t p) :
    (∀ e, (accepted t).head? = some e → e.protocolEvent = "created" ∧ e.newState = .empty) ∧
      Chain .new (accepted t).tail ∧
      (∀ e ∈ (accepted t).tail, allowedTransition e.oldState e.newState = true) ∧
      (attempts t < 2 ^ 64 → (accepted t).Pairwise fun e e' => e.sequence < e'.sequence) ∧
      (∀ pre e post, (accepted t).tail = pre ++ e :: post → isTerminal e.newState = true →
        post = []) ∧
      (storing t = false → (snapshot call t).state = lastState .new (accepted t).tail) := by
  obtain rfl := eq_of_newActor hactor
  have hlegal : Legal (historyMonitor.run (.start call) t) :=
    Prog.good_of_path (run_safe hnew n) (legal_start hnew) h fun _ _ => trivial
  obtain ⟨hatt, hacc, hsnap⟩ := run_log (.start call) t
  have hst := run_storing call t
  generalize historyMonitor.run (.start call) t = log at *
  simp only [Log.start, Nat.zero_add, List.nil_append] at hatt hacc hsnap
  rw [← hatt, ← hacc, ← hsnap, ← hst]
  exact ⟨hlegal.created, hlegal.chain, hlegal.allowed, hlegal.sequence_increasing,
    fun _ _ _ => hlegal.chain.terminal_last hlegal.allowed, hlegal.snapshot⟩

/-- An actor that is created and gets a transition to routing accepted. -/
def routingPath : List (Event actorSig) :=
  (Prog.play (fun _ => answering .routing (.ok ())) 8 0 (run 1 ⟨callIn .new, 0⟩)).1

theorem history_legal_routing : (accepted routingPath).length = 2 ∧
    Chain .new (accepted routingPath).tail ∧
      (snapshot (callIn .new) routingPath).state = lastState .new (accepted routingPath).tail := by
  have h := history_legal 1 (callIn .new) _ rfl rfl 1 routingPath _ (Prog.play_path _ _ _ _)
  exact ⟨rfl, h.2.1, h.2.2.2.2.2 rfl⟩

/-! ## The wrap of the sequence number -/

theorem accepted_append (t u : List (Event actorSig)) :
    accepted (t ++ u) = accepted t ++ accepted u := List.filterMap_append

/-- A round whose transition the publisher refuses only uses up a sequence number. -/
theorem returns_refused (seq : UInt64) :
    ∃ u, accepted u = [] ∧
      Returns (round ⟨callIn .routing, seq⟩) u (.inl ⟨callIn .routing, seq + 1⟩) := by
  have h := Prog.play_path (S := actorSig) (fun _ => answering .ringing (.error "")) 5 0
    (round ⟨callIn .routing, seq⟩)
  exact ⟨_, rfl, h⟩

theorem path_refused (k n : ℕ) (seq : UInt64) :
    ∃ u, accepted u = [] ∧ Path (Prog.loop round (n + k) ⟨callIn .routing, seq⟩) u
      (Prog.loop round n ⟨callIn .routing, seq + UInt64.ofNat k⟩) := by
  induction k generalizing seq with
  | zero => exact ⟨[], rfl, by simpa using Path.nil _⟩
  | succ k ih =>
    obtain ⟨u, hu, hround⟩ := returns_refused seq
    obtain ⟨v, hv, hpath⟩ := ih (seq + 1)
    refine ⟨u ++ v, by rw [accepted_append, hu, hv]; rfl, ?_⟩
    rw [ofNat_succ, UInt64.add_comm (UInt64.ofNat k), ← UInt64.add_assoc]
    exact hround.loop hpath

/-- A round whose transition is accepted, with the next sequence number. -/
theorem returns_accepted (s s' : State) (h : (s, s') ∈ [(.new, .routing), (.routing, .ringing)])
    (seq : UInt64) : ∃ u e, accepted u = [e] ∧ e.callID = "call" ∧ e.sequence = seq + 1 ∧
      Returns (round ⟨callIn s, seq⟩) u (.inl ⟨callIn s', seq + 1⟩) := by
  have hplay := Prog.play_path (S := actorSig) (fun _ => answering s' (.ok ())) 6 0
    (round ⟨callIn s, seq⟩)
  simp only [List.mem_cons, Prod.mk.injEq, List.not_mem_nil, or_false] at h
  rcases h with ⟨rfl, rfl⟩ | ⟨rfl, rfl⟩
  · exact ⟨_, _, rfl, rfl, rfl, hplay⟩
  · exact ⟨_, _, rfl, rfl, rfl, hplay⟩

/-- After `2 ^ 64 - 1` refused attempts the next accepted transition has the number of the one
before them. -/
theorem sequence_repeats : ∃ capacity call a n t p, newActor capacity call = .ok a ∧
    call.state = .new ∧ Path (run n a) t p ∧ ∃ e e' : CallEvent, (accepted t).tail = [e, e'] ∧
      e.callID = e'.callID ∧ e.sequence = e'.sequence := by
  obtain ⟨u₀, e₀, hu₀, h₀⟩ : ∃ u e, accepted u = [e] ∧
      Returns (publish ⟨callIn .new, 0⟩ "created" "" .new .empty "") u
        (.ok (), ⟨callIn .new, 1⟩) := by
    have h := Prog.play_path (S := actorSig) (fun _ => answering .new (.ok ())) 2 0
      (publish ⟨callIn .new, 0⟩ "created" "" .new .empty "")
    exact ⟨_, _, rfl, h⟩
  obtain ⟨u₁, e₁, hu₁, hid₁, hseq₁, hr₁⟩ := returns_accepted .new .routing (by simp) 1
  obtain ⟨u₂, hu₂, hr₂⟩ := path_refused (2 ^ 64 - 1) 1 2
  obtain ⟨u₃, e₃, hu₃, hid₃, hseq₃, hr₃⟩ := returns_accepted .routing .ringing (by simp) 1
  have hloop := hr₁.loop (hr₂.append (hr₃.loop (.nil (Prog.loop round 0 _))))
  have hbody : Path (body (1 + (2 ^ 64 - 1) + 1) ⟨callIn .new, 0⟩)
    (u₀ ++ (u₁ ++ (u₂ ++ (u₃ ++ []))))
      (Prog.loop round 0 ⟨callIn .ringing, 1 + 1⟩) := by
    unfold body
    exact Returns.bind h₀ hloop
  refine ⟨1, callIn .new, ⟨callIn .new, 0⟩, 1 + (2 ^ 64 - 1) + 1, _, _, rfl, rfl,
    Path.bind hbody _, e₁, e₃, ?_, ?_, ?_⟩
  · simp only [accepted_append, hu₀, hu₁, hu₂, hu₃]
    rfl
  · rw [hid₁, hid₃]
  · rw [hseq₁, hseq₃]

end AixvolinkPbx.Calls
