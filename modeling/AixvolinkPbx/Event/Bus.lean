import AixvolinkPbx.Lib.Channel

/-!
# Event buses (`internal/event`)

A bus is a bounded channel with one consumer. Any number of producers publish into it, each of them
blocking while it is full until its context ends; `Run` takes the events out one at a time and writes
each of them before it takes the next. `CallBus` and `MediaBus` are the same code over different events.

1. `busSystem` runs any producers against one consumer. A write that reports an error may have taken
   effect or not.
2. `bus_channel` brings a run down to the channel, and `busRun_served` says what the consumer does with
   the events it receives.
3. `delivery` puts the two together: at any moment what was sent is what was stored, at most one event
   in hand and what waits, in this order, and the database holds what was stored and perhaps the event
   in hand.
-/

namespace AixvolinkPbx.Events

open Prog (Safe safe_bind safe_call safe_pure safe_mono safe_loop Path)

variable {E : Type}

/-! ## The bus -/

inductive Received (E : Type)
  | event (e : E)
  | done

inductive BusOp (E : Type)
  | receive
  | write (e : E)

abbrev busSig (E : Type) : Sig where
  Op := BusOp E
  Ans
    | .receive => Received E
    | .write _ => Option String

def receive : Prog (busSig E) (Received E) := .call (S := busSig E) .receive
def write (e : E) : Prog (busSig E) (Option String) := .call (S := busSig E) (.write e)

def busRound (what : String) (_ : Unit) : Prog (busSig E) (Unit ⊕ Option String) := do
  match ← receive with
  | .event e =>
    match ← write e with
    | some err => return .inr (some ("write " ++ what ++ ": " ++ err))
    | none => return .inl ()
  | .done => return .inr none

/-- `Run`, looked at for at most `n` rounds of its loop; `writer` says whether there is one. -/
def busRun (what : String) (writer : Bool) (n : ℕ) : Prog (busSig E) (Option String) :=
  if !writer then return some (what ++ " writer is required") else Prog.loop (busRound what) n ()

def callBusRun : Bool → ℕ → Prog (busSig E) (Option String) := busRun "call event"

/-! ## The consumer under an observer -/

structure Served (E : Type) where
  received : List E
  /-- The events whose write succeeded. -/
  stored : List E
  /-- The events whose write reported an error. -/
  refused : List E
  /-- The context ended. -/
  done : Bool

namespace Served

def start : Served E := ⟨[], [], [], false⟩

def next (s : Served E) : (e : BusOp E) → (busSig E).Ans e → Served E
  | .receive, .event e => { s with received := s.received ++ [e] }
  | .receive, .done => { s with done := true }
  | .write e, none => { s with stored := s.stored ++ [e] }
  | .write e, some _ => { s with refused := s.refused ++ [e] }

/-- All events received were stored, or all but the last one. Only that one may have been refused. -/
structure Orderly (s : Served E) : Prop where
  hand : s.received = s.stored ∨ ∃ e, s.received = s.stored ++ [e]
  refused : s.refused = [] ∨ ∃ e, s.refused = [e] ∧ s.received = s.stored ++ [e]

/-- Every event received was stored. -/
structure Idle (s : Served E) : Prop where
  stored : s.received = s.stored
  refused : s.refused = []

variable {s : Served E}

theorem Idle.orderly (h : s.Idle) : s.Orderly := ⟨.inl h.stored, .inl h.refused⟩

theorem Orderly.length_le (h : s.Orderly) : s.received.length ≤ s.stored.length + 1 := by
  rcases h.hand with heq | ⟨e, heq⟩
  · rw [heq]
    omega
  · rw [heq, List.length_append, List.length_singleton]

variable {e : E}

theorem Orderly.of_stored (h : s.Orderly) (h' : (s.next (.write e) none).Orderly) :
    s.received = s.stored ++ [e] ∧ s.refused = [] := by
  have hstored : s.received = s.stored ++ [e] := by
    rcases h'.hand with heq | ⟨e', heq⟩
    · exact heq
    · have hlength := h.length_le
      rw [show s.received = s.stored ++ [e] ++ [e'] from heq] at hlength
      simp at hlength
  refine ⟨hstored, ?_⟩
  rcases h'.refused with hnil | ⟨e', -, heq⟩
  · exact hnil
  · have hlength := congrArg List.length
      ((show s.received = s.stored ++ [e] ++ [e'] from heq).symm.trans hstored)
    simp at hlength

theorem Orderly.of_refused {err : String} (h' : (s.next (.write e) (some err)).Orderly) :
    s.received = s.stored ++ [e] ∧ s.refused = [] := by
  rcases h'.refused with hnil | ⟨e', hrefused, heq⟩
  · exact absurd (show s.refused ++ [e] = [] from hnil) (by simp)
  · have hsame : s.refused ++ [e] = [] ++ [e'] := hrefused
    obtain ⟨hnil, hlast⟩ := List.append_inj' hsame rfl
    obtain rfl : e = e' := by simpa using hlast
    exact ⟨heq, hnil⟩

end Served

def servedMonitor (E : Type) : Monitor (busSig E) (Served E) where
  next := Served.next
  good := Served.Orderly
  admits _ _ := True

/-- Why `Run` returned: its context ended, or a write failed. -/
def Stopped (err : Option String) (s : Served E) : Prop :=
  s.Orderly ∧ (err = none → s.done = true) ∧ (err ≠ none → s.refused ≠ [])

theorem busRound_served (what : String) (h : s.Idle) :
    Safe (servedMonitor E) s (busRound what ()) fun res s' =>
      res.elim (fun _ => s'.Idle) fun err => Stopped err s' := by
  simp only [busRound, receive, write, safe_bind, safe_call]
  rintro (e | _) _
  · have hhand : s.received ++ [e] = s.stored ++ [e] := congrArg (· ++ [e]) h.stored
    refine ⟨⟨.inr ⟨e, hhand⟩, .inl h.refused⟩, ?_⟩
    simp only [safe_bind, safe_call]
    rintro (_ | err) _
    · have hidle : ((s.next .receive (.event e)).next (.write e) none).Idle := ⟨hhand, h.refused⟩
      exact ⟨hidle.orderly, safe_pure.mpr hidle⟩
    · have hrefused : s.refused ++ [e] = [e] := by rw [h.refused]; rfl
      have horderly : ((s.next .receive (.event e)).next (.write e) (some err)).Orderly :=
        ⟨.inr ⟨e, hhand⟩, .inr ⟨e, hrefused, hhand⟩⟩
      refine ⟨horderly, safe_pure.mpr ⟨horderly, by simp, fun _ => ?_⟩⟩
      exact List.concat_ne_nil _ _
  · have horderly : (s.next .receive .done).Orderly := ⟨.inl h.stored, .inl h.refused⟩
    exact ⟨horderly, safe_pure.mpr ⟨horderly, fun _ => rfl, by simp⟩⟩

/-- The consumer writes what it receives, one event after the other, until its context ends or a write
fails. -/
theorem busRun_served (what : String) (n : ℕ) :
    Safe (servedMonitor E) .start (busRun what true n) fun err s => Stopped err s :=
  safe_loop (I := fun _ s => s.Idle) (fun _ _ h => busRound_served what h) n ⟨rfl, rfl⟩

/-! ## Producers and the consumer -/

/-- What a bus connects: `sent` says which answers of a producer's operations put an event into the
channel, `write` is the transaction of the writer. -/
structure Bus (P : Sig) (E D W : Type) where
  capacity : ℕ
  sent : (e : P.Op) → P.Ans e → Option E
  write : D → E → Except W D

structure BusShared (E D : Type) where
  queue : List E
  db : D
  canceled : Bool
  /-- What is left of the consumer's program. -/
  consumer : Prog (busSig E) (Option String)

def BusShared.initial {D : Type} (db : D) (consumer : Prog (busSig E) (Option String)) : BusShared E D :=
  ⟨[], db, false, consumer⟩

inductive BusMove (E : Type)
  | consumer (ev : Event (busSig E))
  | cancel

section System

variable {P : Sig} {X α D W : Type} (bus : Bus P E D W)

/-- An operation of the consumer. -/
inductive Serves : BusShared E D → (e : BusOp E) → (busSig E).Ans e → BusShared E D → Prop
  | receive {sh : BusShared E D} {e : E} {rest : List E} (h : sh.queue = e :: rest) :
      Serves sh .receive (.event e) { sh with queue := rest }
  | done {sh : BusShared E D} (h : sh.canceled = true) : Serves sh .receive .done sh
  | stored {sh : BusShared E D} {e : E} {db : D} (h : bus.write sh.db e = .ok db) :
      Serves sh (.write e) none { sh with db := db }
  | refused {sh : BusShared E D} {e : E} (err : String) : Serves sh (.write e) (some err) sh
  | unconfirmed {sh : BusShared E D} {e : E} {db : D} (err : String) (h : bus.write sh.db e = .ok db) :
      Serves sh (.write e) (some err) { sh with db := db }

inductive BusEnv : BusShared E D → BusMove E → BusShared E D → Prop
  | cancel {sh : BusShared E D} : BusEnv sh .cancel { sh with canceled := true }
  | consumer {sh sh' : BusShared E D} {e : BusOp E} {k : (busSig E).Ans e → Prog (busSig E) (Option String)}
      {r : (busSig E).Ans e} (hrest : sh.consumer = .op e k) (h : Serves bus sh e r sh') :
      BusEnv sh (.consumer ⟨e, r⟩) { sh' with consumer := k r }

/-- A send needs room; whatever else producers do is answered freely. -/
def Bus.publish (sh : BusShared E D) : Option E → Option (BusShared E D)
  | some e => if sh.queue.length < bus.capacity then some { sh with queue := sh.queue ++ [e] } else none
  | none => some sh

/-- Any number of producers and the consumer. -/
def busSystem (prog : X → Prog P α) : System P X α (BusShared E D) (BusMove E) where
  prog := prog
  spawns _ _ := True
  perform sh _ e r sh' := bus.publish sh (bus.sent e r) = some sh'
  env := BusEnv bus

/-- The next step of a consumer whose writes succeed. -/
def Bus.serve (sh : BusShared E D) : Option (BusMove E × BusShared E D) :=
  match sh.consumer with
  | .op .receive k =>
    match sh.queue with
    | [] => none
    | e :: rest => some (.consumer ⟨.receive, .event e⟩,
      { sh with queue := rest, consumer := k (.event e) })
  | .op (.write e) k =>
    match bus.write sh.db e with
    | .error _ => none
    | .ok db =>
      some (.consumer ⟨.write e, (none : Option String)⟩,
        { sh with db := db, consumer := k (none : Option String) })
  | _ => none

def Bus.drain : ℕ → BusShared E D → List (BusMove E) × BusShared E D
  | 0, sh => ([], sh)
  | n + 1, sh =>
    match bus.serve sh with
    | none => ([], sh)
    | some (l, sh') =>
      let rest := Bus.drain n sh'
      (l :: rest.1, rest.2)

abbrev BusLabel (P : Sig) (X E : Type) := System.Label P X (BusMove E)

/-- The event a step sends. -/
def Bus.sentBy : BusLabel P X E → Option E
  | .act _ ev => bus.sent ev.op ev.ans
  | _ => none

def servedBy : BusLabel P X E → Option (Event (busSig E))
  | .env (.consumer ev) => some ev
  | _ => none

def Bus.sentIn (ls : List (BusLabel P X E)) : List E := ls.filterMap bus.sentBy

def consumed (ls : List (BusLabel P X E)) : Served E :=
  (servedMonitor E).run .start (ls.filterMap servedBy)

/-! ## A run of the bus -/

def receivedBy : Event (busSig E) → Option E
  | ⟨.receive, .event e⟩ => some e
  | _ => none

/-- What a step does to the channel. -/
def Bus.moveOf (l : BusLabel P X E) : Option (Channel.Move E) :=
  ((bus.sentBy l).map .send).or (((servedBy l).bind receivedBy).map .receive)

variable {bus} {prog : X → Prog P α} {sh sh' : BusShared E D} {ls : List (BusLabel P X E)}
  {st st' : System.State P X α (BusShared E D)}

theorem Bus.publish_some (h : bus.publish sh (some e) = some sh') :
    sh.queue.length < bus.capacity ∧ sh' = { sh with queue := sh.queue ++ [e] } := by
  obtain ⟨hroom, ⟨⟩⟩ := Option.ite_none_right_eq_some.mp h
  exact ⟨hroom, rfl⟩

theorem Bus.env_of_serve {l : BusMove E} (h : bus.serve sh = some (l, sh')) :
    BusEnv bus sh l sh' := by
  unfold Bus.serve at h
  split at h
  · next k hconsumer =>
    split at h
    · cases h
    · next e rest hqueue =>
      cases h
      exact .consumer (k := k) hconsumer (.receive hqueue)
  · next e k hconsumer =>
    split at h
    · cases h
    · next db hwrite =>
      cases h
      exact .consumer (k := k) hconsumer (.stored hwrite)
  · cases h

theorem Bus.drain_steps (n : ℕ) (st : System.State P X α (BusShared E D)) :
    Steps (busSystem bus prog).Step st ((bus.drain n st.shared).1.map .env)
      ⟨(bus.drain n st.shared).2, st.threads⟩ := by
  induction n generalizing st with
  | zero => exact .nil
  | succ n ih =>
    rw [Bus.drain]
    split
    · exact .nil
    · next l sh' hserve =>
      have hstep : (busSystem bus prog).Step st (.env l) ⟨sh', st.threads⟩ :=
        .env st l sh' (Bus.env_of_serve hserve)
      exact (Steps.single hstep).trans (ih ⟨sh', st.threads⟩)

theorem bus_channel (h : (busSystem bus prog).Reaches sh ls st) :
    Steps (Channel.Step bus.capacity) sh.queue (ls.filterMap bus.moveOf) st.shared.queue := by
  refine Steps.project (fun st => st.shared.queue) bus.moveOf (fun st l st' hstep => ?_) h
  cases hstep with
  | spawn x _ => rfl
  | act i th e k r sh' hget hrest hperf =>
    replace hperf : bus.publish st.shared (bus.sent e r) = some sh' := hperf
    show (((bus.sent e r).map Channel.Move.send).or none).elim _ _
    cases hsent : bus.sent e r with
    | none =>
      rw [hsent] at hperf
      exact congrArg BusShared.queue (Option.some.inj hperf).symm
    | some x =>
      rw [hsent] at hperf
      obtain ⟨hroom, rfl⟩ := Bus.publish_some hperf
      exact .send hroom
  | env l sh' hl =>
    cases hl with
    | cancel => rfl
    | consumer hrest hserves =>
      cases hserves with
      | @receive e rest hqueue =>
        show Channel.Step bus.capacity st.shared.queue (.receive e) rest
        rw [hqueue]
        exact .receive
      | _ => rfl

theorem sent_moves (ls : List (BusLabel P X E)) :
    Channel.sent (ls.filterMap bus.moveOf) = bus.sentIn ls := by
  rw [Channel.sent, Bus.sentIn, List.filterMap_filterMap]
  refine List.filterMap_congr fun l _ => ?_
  rw [Bus.moveOf]
  cases bus.sentBy l <;> cases (servedBy l).bind receivedBy <;> rfl

end System

theorem received_run (t : List (Event (busSig E))) (s : Served E) :
    ((servedMonitor E).run s t).received = s.received ++ t.filterMap receivedBy := by
  induction t generalizing s with
  | nil => simp
  | cons ev t ih =>
    rw [Monitor.run_cons, ih]
    obtain ⟨op, ans⟩ := ev
    cases op with
    | receive =>
      cases ans with
      | event e =>
        show s.received ++ [e] ++ _ = s.received ++ e :: _
        rw [List.append_assoc, List.singleton_append]
      | done => rfl
    | write e => cases ans <;> rfl

section Delivery

variable {P : Sig} {X α D W : Type} {bus : Bus P E D W} {prog : X → Prog P α} {what : String} {n : ℕ}
  {db₀ : D} {ls : List (BusLabel P X E)} {st : System.State P X α (BusShared E D)}

theorem received_moves (ls : List (BusLabel P X E)) :
    Channel.received (ls.filterMap bus.moveOf) = (consumed ls).received := by
  rw [consumed, received_run]
  show _ = [] ++ _
  rw [List.nil_append, Channel.received, List.filterMap_filterMap, List.filterMap_filterMap]
  refine List.filterMap_congr fun l _ => ?_
  cases l with
  | spawn x => rfl
  | act i ev =>
    show ((bus.sent ev.op ev.ans).map Channel.Move.send |>.or none).bind Channel.Move.received = none
    cases bus.sent ev.op ev.ans <;> rfl
  | env l =>
    rw [Bus.moveOf, show bus.sentBy (.env l) = none from rfl]
    cases (servedBy (.env l)).bind receivedBy <;> rfl

def Bus.writeAll (bus : Bus P E D W) (db : D) (events : List E) : Except W D := events.foldlM bus.write db

/-- What the consumer has done and what is in the database. -/
structure Kept (bus : Bus P E D W) (db₀ : D) (s : Served E) (sh : BusShared E D) : Prop where
  safe : Safe (servedMonitor E) s sh.consumer Stopped
  orderly : s.Orderly
  canceled : s.done = true → sh.canceled = true
  db : ∃ written, bus.writeAll db₀ written = .ok sh.db ∧
    (written = s.stored ∨ ∃ e, s.refused = [e] ∧ written = s.stored ++ [e])

theorem writeAll_concat {db db' : D} {events : List E} (h : bus.writeAll db₀ events = .ok db)
    (he : bus.write db e = .ok db') : bus.writeAll db₀ (events ++ [e]) = .ok db' := by
  rw [Bus.writeAll, List.foldlM_append, show events.foldlM bus.write db₀ = .ok db from h]
  show bus.write db e >>= Pure.pure = .ok db'
  rw [he]
  rfl

variable {sh : BusShared E D}

theorem Kept.serve {e : BusOp E} {k : (busSig E).Ans e → Prog (busSig E) (Option String)}
    {r : (busSig E).Ans e} (h : Kept bus db₀ s sh) (hrest : sh.consumer = .op e k)
    (hserves : Serves bus sh e r sh') :
    Kept bus db₀ (s.next e r) { sh' with consumer := k r } := by
  have hsafe := h.safe
  rw [hrest, Prog.safe_op] at hsafe
  obtain ⟨horderly, hsafe⟩ := hsafe r trivial
  obtain ⟨written, hwritten, hwhich⟩ := h.db
  cases hserves with
  | receive hqueue => exact ⟨hsafe, horderly, h.canceled, written, hwritten, hwhich⟩
  | done hcanceled => exact ⟨hsafe, horderly, fun _ => hcanceled, written, hwritten, hwhich⟩
  | @stored x db hwrite =>
    have hnil := (h.orderly.of_stored horderly).2
    obtain rfl : written = s.stored := hwhich.resolve_right (by simp [hnil])
    exact ⟨hsafe, horderly, h.canceled, _, writeAll_concat hwritten hwrite, .inl rfl⟩
  | @refused x err =>
    have hrefused : (s.next (.write x) (some err)).Orderly := horderly
    have hnil := hrefused.of_refused.2
    obtain rfl : written = s.stored := hwhich.resolve_right (by simp [hnil])
    exact ⟨hsafe, horderly, h.canceled, _, hwritten, .inl rfl⟩
  | @unconfirmed x db err hwrite =>
    have hrefused : (s.next (.write x) (some err)).Orderly := horderly
    have hnil := hrefused.of_refused.2
    obtain rfl : written = s.stored := hwhich.resolve_right (by simp [hnil])
    refine ⟨hsafe, horderly, h.canceled, _, writeAll_concat hwritten hwrite, .inr ⟨x, ?_, rfl⟩⟩
    show s.refused ++ [x] = [x]
    rw [hnil]
    rfl

theorem Kept.of_publish {sent : Option E} (h : Kept bus db₀ s sh)
    (hsent : bus.publish sh sent = some sh') : Kept bus db₀ s sh' := by
  cases sent with
  | none =>
    cases hsent
    exact h
  | some x =>
    obtain ⟨-, rfl⟩ := Bus.publish_some hsent
    exact ⟨h.safe, h.orderly, h.canceled, h.db⟩

theorem consumed_concat (ls : List (BusLabel P X E)) (l : BusLabel P X E) :
    consumed (ls ++ [l]) = match servedBy l with
      | some ev => (consumed ls).next ev.op ev.ans
      | none => consumed ls := by
  rw [consumed, List.filterMap_append, Monitor.run_append]
  cases hl : servedBy l with
  | none => simp [hl, consumed]
  | some ev => simp [hl, consumed, servedMonitor]

theorem kept_of_reaches
    (h : (busSystem bus prog).Reaches (.initial db₀ (busRun what true n)) ls st) :
    Kept bus db₀ (consumed ls) st.shared := by
  refine Steps.invariant (I := fun ls st => Kept bus db₀ (consumed ls) st.shared) ?_ h ?_
  · intro ls st l st' hI hstep
    rw [consumed_concat]
    cases hstep with
    | spawn x _ => exact hI
    | act i th e k r sh' hget hrest hperf => exact hI.of_publish hperf
    | env l sh' hl =>
      cases hl with
      | cancel => exact ⟨hI.safe, hI.orderly, fun _ => rfl, hI.db⟩
      | consumer hrest hserves => exact hI.serve hrest hserves
  · exact ⟨busRun_served what n, ⟨.inl rfl, .inl rfl⟩, fun hdone => Bool.noConfusion hdone, [], rfl,
      .inl rfl⟩

/-- The consumer is about to write the event it received last. -/
theorem Kept.received_of_write {k : Option String → Prog (busSig E) (Option String)}
    (h : Kept bus db₀ s sh) (hwrite : sh.consumer = .op (.write e) k) :
    s.received = s.stored ++ [e] ∧ s.refused = [] := by
  have hsafe := h.safe
  rw [hwrite, Prog.safe_op] at hsafe
  exact h.orderly.of_stored (hsafe (none : Option String) trivial).1

/-- The consumer waits in its select only after it has stored everything it received. -/
theorem Kept.idle_of_receive {k : Received E → Prog (busSig E) (Option String)}
    (h : Kept bus db₀ s sh) (hreceive : sh.consumer = .op .receive k) : s.Idle := by
  have hsafe := h.safe
  rw [hreceive, Prog.safe_op] at hsafe
  -- one more event would be the second in hand
  have hnone : ∀ e, s.received ≠ s.stored ++ [e] := by
    intro e heq
    have hlength := (hsafe (.event e) trivial).1.length_le
    rw [show ((servedMonitor E).next s .receive (.event e)).received = s.stored ++ [e] ++ [e] from
      congrArg (· ++ [e]) heq] at hlength
    have hstored : ((servedMonitor E).next s .receive (.event e)).stored = s.stored := rfl
    simp [hstored] at hlength
  refine ⟨h.orderly.hand.resolve_right fun ⟨e, heq⟩ => hnone e heq, ?_⟩
  exact h.orderly.refused.resolve_right fun ⟨e, _, heq⟩ => hnone e heq

/-- What holds of a bus at every moment. -/
structure Delivered (bus : Bus P E D W) (db₀ : D) (ls : List (BusLabel P X E)) (sh : BusShared E D)
    (hand written : List E) : Prop where
  /-- Nothing is lost, repeated or reordered on the way. -/
  sent : bus.sentIn ls = (consumed ls).stored ++ hand ++ sh.queue
  oneInHand : hand.length ≤ 1
  bounded : sh.queue.length ≤ bus.capacity
  storedWritten : (consumed ls).stored <+: written
  writtenReceived : written <+: (consumed ls).stored ++ hand
  db : bus.writeAll db₀ written = .ok sh.db
  /-- The consumer stops only because its context ended or a write failed. -/
  stopped : sh.consumer.result.isSome = true → sh.canceled = true ∨ (consumed ls).refused ≠ []

theorem Kept.stopped (h : Kept bus db₀ s sh) (hresult : sh.consumer.result.isSome = true) :
    sh.canceled = true ∨ s.refused ≠ [] := by
  have hsafe := h.safe
  cases hconsumer : sh.consumer with
  | op e k =>
    rw [hconsumer] at hresult
    cases hresult
  | diverge =>
    rw [hconsumer] at hresult
    cases hresult
  | pure err =>
    rw [hconsumer] at hsafe
    obtain ⟨-, hdone, hrefused⟩ := safe_pure.mp hsafe
    cases err with
    | none => exact .inl (h.canceled (hdone rfl))
    | some err => exact .inr (hrefused (by simp))

/-- The database holds what was stored, and perhaps the event in hand. -/
theorem Kept.exists_written (h : Kept bus db₀ s sh) :
    ∃ written, bus.writeAll db₀ written = .ok sh.db ∧ s.stored <+: written ∧
      written <+: s.received := by
  obtain ⟨written, hwritten, rfl | ⟨e, hrefused, rfl⟩⟩ := h.db
  · refine ⟨_, hwritten, List.prefix_rfl, ?_⟩
    rcases h.orderly.hand with heq | ⟨e, heq⟩
    · exact ⟨[], by rw [List.append_nil, heq]⟩
    · exact ⟨[e], heq.symm⟩
  · refine ⟨_, hwritten, List.prefix_append .., ?_⟩
    -- a refused event is the one in hand
    rcases h.orderly.refused with hnil | ⟨e', hrefused', heq⟩
    · simp [hnil] at hrefused
    · obtain rfl : e = e' := by simpa using hrefused.symm.trans hrefused'
      exact ⟨[], by rw [List.append_nil, heq]⟩

theorem sent_eq_received
    (h : (busSystem bus prog).Reaches (.initial db₀ (busRun what true n)) ls st) :
    bus.sentIn ls = (consumed ls).received ++ st.shared.queue := by
  have hfifo := Channel.sent_eq (bus_channel h)
  rw [sent_moves, received_moves] at hfifo
  exact hfifo

theorem delivery (h : (busSystem bus prog).Reaches (.initial db₀ (busRun what true n)) ls st) :
    ∃ hand written, Delivered bus db₀ ls st.shared hand written := by
  have hkept := kept_of_reaches h
  have hfifo := sent_eq_received h
  obtain ⟨hand, hhand, hone⟩ : ∃ hand, (consumed ls).received = (consumed ls).stored ++ hand ∧
      hand.length ≤ 1 := by
    rcases hkept.orderly.hand with heq | ⟨e, heq⟩
    · exact ⟨[], by rw [heq, List.append_nil], by simp⟩
    · exact ⟨[e], heq, by simp⟩
  obtain ⟨written, hwritten, hstored, hreceived⟩ := hkept.exists_written
  rw [hhand] at hfifo hreceived
  exact ⟨hand, written, hfifo, hone, Channel.length_le (bus_channel h) (Nat.zero_le _), hstored, hreceived,
    hwritten, hkept.stopped⟩

end Delivery

end AixvolinkPbx.Events
