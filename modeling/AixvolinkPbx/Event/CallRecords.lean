import AixvolinkPbx.Event.Bus
import AixvolinkPbx.Call.CdrTimes

/-!
# Call records through the bus (`internal/event/call_bus.go` and its users)

Every call has an actor of its own, all of them publish into one `CallBus`, and one `Run` writes the
events to MySQL. Here the actors of any number of calls, the bus and the writer run together.

1. `actor_own`: an actor publishes events of its own call only.
2. `SameCall` compares two databases as far as one call goes; writing the events of many calls is, for
   each of them, writing its own (`SameCall.writeCallEvents`).
3. `call_events_delivered`: what the actors got accepted is stored in this order, up to one event in
   hand and those that wait. `call_rows_own`: the rows of a call come from the first part of its own
   history. `write_never_conflicts`: no event repeats a key. `drained_row_current`: when the bus is
   drained, the row of a call has the state of its actor's snapshot.
-/

namespace AixvolinkPbx.Events

open Calls
open Prog (Safe safe_bind safe_call safe_pure safe_mono Path)

/-! ## Events of one call -/

def ownMonitor (id : String) : Monitor actorSig (List CallEvent) where
  next es
    | .publish e, .ok _ => es ++ [e]
    | _, _ => es
  good es := ∀ e ∈ es, e.callID = id
  admits _ _ := True

section Own

variable {id : String} {es : List CallEvent}

theorem publish_own {a : Actor} (h : a.call.id = id) (hes : ∀ e ∈ es, e.callID = id)
    (protocolEvent reason legID : String) (oldState newState : State) :
    Safe (ownMonitor id) es (publish a protocolEvent reason oldState newState legID)
      fun res es' => res.2.call.id = id ∧ ∀ e ∈ es', e.callID = id := by
  simp only [publish, now, publisherPublish, safe_bind, safe_call]
  refine fun (time : ℤ) _ => ⟨hes, fun (res : Except String Unit) _ => ?_⟩
  have hes' : ∀ e ∈ (ownMonitor id).next es (.publish (eventOf { a with sequence := a.sequence + 1 }
      protocolEvent reason oldState newState legID time)) res, e.callID = id := by
    cases res with
    | error err => exact hes
    | ok _ => exact List.forall_mem_append.mpr ⟨hes, List.forall_mem_singleton.mpr h⟩
  exact ⟨hes', safe_pure.mpr ⟨h, hes'⟩⟩

theorem apply_own {a : Actor} (h : a.call.id = id) (hes : ∀ e ∈ es, e.callID = id)
    (transition : Transition) : Safe (ownMonitor id) es (apply a transition) fun res es' =>
      res.2.call.id = id ∧ ∀ e ∈ es', e.callID = id := by
  unfold Calls.apply
  split_ifs
  · exact safe_pure.mpr ⟨h, hes⟩
  · exact safe_pure.mpr ⟨h, hes⟩
  · simp only [now, safe_bind, safe_call]
    refine fun (time : ℤ) _ =>
      ⟨hes, safe_mono (publish_own ((advance_id a.call transition time).trans h) hes ..) ?_⟩
    rintro ⟨_ | _, a'⟩ es' ⟨h', hes'⟩
    · exact safe_pure.mpr ⟨h', hes'⟩
    · simp only [storeSnapshot, safe_bind, safe_call]
      exact fun _ _ => ⟨hes', safe_pure.mpr ⟨h', hes'⟩⟩

theorem loopInvariant_own (id : String) : LoopInvariant (ownMonitor id) fun a es =>
    a.call.id = id ∧ ∀ e ∈ es, e.callID = id where
  select h _ := ⟨h.2, h⟩
  apply h transition := apply_own h.1 h.2 transition
  reply h _ _ _ := ⟨h.2, h⟩

theorem run_own (call : Call) (n : ℕ) :
    Safe (ownMonitor call.id) [] (run n ⟨call, 0⟩) fun _ es => ∀ e ∈ es, e.callID = call.id := by
  have hbody : Safe (ownMonitor call.id) [] (body n ⟨call, 0⟩) fun _ es =>
      ∀ e ∈ es, e.callID = call.id := by
    refine (loopInvariant_own call.id).body (fun h => h.2)
      (safe_mono (publish_own (a := ⟨call, 0⟩) rfl (by simp) ..) ?_) n
    rintro res es ⟨h, hes⟩
    exact ⟨fun _ _ => hes, fun _ => ⟨h, hes⟩⟩
  unfold Calls.run
  refine .bind hbody fun err es hes => ?_
  simp only [close, safe_bind, safe_call]
  exact fun _ _ => ⟨hes, safe_pure.mpr hes⟩

theorem run_ownMonitor (t : List (Event actorSig)) (es : List CallEvent) :
    (ownMonitor id).run es t = es ++ accepted t := by
  induction t generalizing es with
  | nil => simp [accepted]
  | cons ev t ih =>
    rw [Monitor.run_cons, ih]
    obtain ⟨op, ans⟩ := ev
    cases op with
    | publish e =>
      cases ans with
      | error err => rfl
      | ok _ => exact List.append_assoc ..
    | _ => rfl

theorem actor_own {call : Call} {n : ℕ} {t : List (Event actorSig)}
    {p : Prog actorSig (Option ActorError)} (h : Path (run n ⟨call, 0⟩) t p) :
    ∀ e ∈ accepted t, e.callID = call.id := by
  have hgood : ∀ e ∈ (ownMonitor call.id).run [] t, e.callID = call.id :=
    Prog.good_of_path (run_own call n) (by simp [ownMonitor]) h fun _ _ => trivial
  rwa [run_ownMonitor, List.nil_append] at hgood

end Own

/-! ## The rows of one call -/

/-- Two databases hold the same of the call `id`. -/
structure SameCall (id : String) (db own : CallTables) : Prop where
  row : db.calls.lookup id = own.calls.lookup id
  events : ∀ sequence, db.callEvents.lookup (id, sequence) = own.callEvents.lookup (id, sequence)

section Rows

variable {columns : Columns} {id : String} {db db' own : CallTables} {e : CallEvent}
  {events : List CallEvent}

def rowAfter (columns : Columns) (e : CallEvent) (old : Option CallRow) : CallRow :=
  old.elim (callRow columns e) (updateCall (callRow columns e))

def tablesAfter (columns : Columns) (db : CallTables) (e : CallEvent) : CallTables where
  calls := db.calls.insert e.callID (rowAfter columns e (db.calls.lookup e.callID))
  callEvents := db.callEvents.insert (e.callID, e.sequence) (eventRow columns e)

theorem writeCallEvent_ok_iff : writeCallEvent columns db e = .ok db' ↔ columns.fits e = true ∧
    db.callEvents.lookup (e.callID, e.sequence) = none ∧ db' = tablesAfter columns db e := by
  unfold writeCallEvent
  by_cases hfits : columns.fits e = true
  · cases hlookup : db.callEvents.lookup (e.callID, e.sequence) with
    | none =>
      rw [if_neg (by simp [hfits]), if_neg (by simp)]
      refine ⟨fun h => ⟨hfits, rfl, ?_⟩, ?_⟩
      · cases h
        cases hrow : db.calls.lookup e.callID <;> simp [tablesAfter, rowAfter, hrow]
      · rintro ⟨-, -, rfl⟩
        cases hrow : db.calls.lookup e.callID <;> simp [tablesAfter, rowAfter, hrow]
    | some row => simp [hfits]
  · simp [hfits]

theorem SameCall.other (h : SameCall id db own) (hne : e.callID ≠ id)
    (hwrite : writeCallEvent columns db e = .ok db') : SameCall id db' own := by
  obtain ⟨-, -, rfl⟩ := writeCallEvent_ok_iff.mp hwrite
  refine ⟨?_, fun sequence => ?_⟩
  · exact (AList.lookup_insert_ne (Ne.symm hne)).trans h.row
  · refine (AList.lookup_insert_ne fun heq => hne ?_).trans (h.events sequence)
    exact (congrArg Prod.fst heq).symm

theorem SameCall.same (h : SameCall id db own) (hid : e.callID = id)
    (hwrite : writeCallEvent columns db e = .ok db') :
    ∃ own', writeCallEvent columns own e = .ok own' ∧ SameCall id db' own' := by
  subst hid
  obtain ⟨hfits, hnone, rfl⟩ := writeCallEvent_ok_iff.mp hwrite
  refine ⟨_, writeCallEvent_ok_iff.mpr ⟨hfits, (h.events _).symm.trans hnone, rfl⟩, ?_, ?_⟩
  · show AList.lookup _ (AList.insert _ _ _) = AList.lookup _ (AList.insert _ _ _)
    rw [AList.lookup_insert, AList.lookup_insert, h.row]
  · intro sequence
    by_cases hseq : sequence = e.sequence
    · subst hseq
      exact (AList.lookup_insert db.callEvents).trans (AList.lookup_insert own.callEvents).symm
    · have hkey : (e.callID, sequence) ≠ (e.callID, e.sequence) := fun heq =>
        hseq (congrArg Prod.snd heq)
      exact (AList.lookup_insert_ne hkey).trans
        ((h.events sequence).trans (AList.lookup_insert_ne hkey).symm)

theorem writeCallEvents_cons (columns : Columns) (db : CallTables) (e : CallEvent)
    (events : List CallEvent) : writeCallEvents columns db (e :: events) =
      writeCallEvent columns db e >>= fun db₁ => writeCallEvents columns db₁ events := rfl

/-- Writing the events of many calls is, for each of them, writing its own. -/
theorem SameCall.writeCallEvents (h : SameCall id db own)
    (hwrite : writeCallEvents columns db events = .ok db') :
    ∃ own', writeCallEvents columns own (events.filter (·.callID = id)) = .ok own' ∧
      SameCall id db' own' := by
  induction events generalizing db own with
  | nil =>
    cases hwrite
    exact ⟨own, rfl, h⟩
  | cons e events ih =>
    rw [writeCallEvents_cons] at hwrite
    cases hfirst : writeCallEvent columns db e with
    | error err =>
      rw [hfirst] at hwrite
      cases hwrite
    | ok db₁ =>
      rw [hfirst] at hwrite
      by_cases hid : e.callID = id
      · obtain ⟨own₁, hown, hsame⟩ := h.same hid hfirst
        rw [List.filter_cons_of_pos (by simpa using hid), writeCallEvents_cons, hown]
        exact ih hsame hwrite
      · rw [List.filter_cons_of_neg (by simpa using hid)]
        exact ih (h.other hid hfirst) hwrite

/-- The keys of `call_events` are those of the events written. -/
theorem callEvents_written (hwrite : writeCallEvents columns noCalls events = .ok db)
    {sequence : UInt64} (hsome : db.callEvents.lookup (id, sequence) ≠ none) :
    ∃ e ∈ events, e.callID = id ∧ e.sequence = sequence := by
  induction events using List.reverseRecOn generalizing db with
  | nil =>
    cases hwrite
    exact absurd rfl hsome
  | append_singleton events e ih =>
    obtain ⟨db₁, hfirst, hlast⟩ := writeCallEvents_concat hwrite
    obtain ⟨-, -, rfl⟩ := writeCallEvent_ok_iff.mp hlast
    by_cases hkey : (id, sequence) = (e.callID, e.sequence)
    · exact ⟨e, by simp, (congrArg Prod.fst hkey).symm, (congrArg Prod.snd hkey).symm⟩
    · replace hsome : AList.lookup (id, sequence) (AList.insert (e.callID, e.sequence)
        (eventRow columns e) db₁.callEvents) ≠ none := hsome
      rw [AList.lookup_insert_ne hkey] at hsome
      obtain ⟨e', he', hboth⟩ := ih hfirst hsome
      exact ⟨e', List.mem_append_left _ he', hboth⟩

end Rows

/-! ## The history of one call -/

section History

variable {call : Call} {n : ℕ} {t : List (Event actorSig)} {p : Prog actorSig (Option ActorError)}

theorem legal_of_path (hnew : call.state = .new) (h : Path (run n ⟨call, 0⟩) t p) :
    Legal (historyMonitor.run (.start call) t) :=
  Prog.good_of_path (run_safe hnew n) (legal_start hnew) h fun _ _ => trivial

theorem accepted_increasing (hnew : call.state = .new) (h : Path (run n ⟨call, 0⟩) t p)
    (hattempts : attempts t < 2 ^ 64) :
    (accepted t).Pairwise fun e e' => e.sequence < e'.sequence := by
  obtain ⟨htried, haccepted, -⟩ := run_log (.start call) t
  have hincreasing := (legal_of_path hnew h).sequence_increasing
  rw [htried, haccepted] at hincreasing
  exact hincreasing (by simpa [Log.start] using hattempts)

/-- The snapshot shows the state the last accepted event entered. -/
theorem snapshot_state (hnew : call.state = .new) (h : Path (run n ⟨call, 0⟩) t p)
    (hstored : storing t = false) :
    (snapshot call t).state = lastState .new (accepted t).tail := by
  obtain ⟨-, haccepted, hsnapshot⟩ := run_log (.start call) t
  have hstate := (legal_of_path hnew h).snapshot (by rw [run_storing, hstored])
  rw [Log.transitions, haccepted, hsnapshot] at hstate
  exact hstate

end History

/-! ## The system -/

/-- A call as `New` makes it. -/
abbrev NewCall := { call : Call // call.state = .new }

def NewCall.id (c : NewCall) : String := c.1.id

/-- The bus of the call events: the operation that sends is the `Publish` of an actor. -/
def callBus (columns : Columns) (capacity : ℕ) :
    Bus actorSig CallEvent CallTables WriteError where
  capacity := capacity
  sent e r := acceptedBy ⟨e, r⟩
  write := writeCallEvent columns

/-- The actors of any number of calls, each looked at for at most `n` rounds, the bus and the writer. -/
def recordSystem (columns : Columns) (capacity n : ℕ) :
    System actorSig NewCall (Option ActorError) (BusShared CallEvent CallTables) (BusMove CallEvent) :=
  busSystem (callBus columns capacity) fun c => run n ⟨c.1, 0⟩

def noRecords (m : ℕ) : BusShared CallEvent CallTables := .initial noCalls (callBusRun true m)

abbrev RecordLabel := BusLabel actorSig NewCall CallEvent

abbrev RecordState := System.State actorSig NewCall (Option ActorError) (BusShared CallEvent CallTables)

abbrev RecordThread := Thread actorSig NewCall (Option ActorError)

/-- The events the actors got accepted, in the order of the run. -/
def publishedIn (ls : List RecordLabel) : List CallEvent := (callBus ⟨fun _ => true, id⟩ 0).sentIn ls

section Runs

variable {columns : Columns} {capacity n m : ℕ} {ls : List RecordLabel} {st : RecordState}
  (h : (recordSystem columns capacity n).Reaches (noRecords m) ls st)
include h

variable {th : RecordThread}

theorem callID_of_mem_past (hth : th ∈ st.threads) {ev : Event actorSig} (hev : ev ∈ th.past)
    {e : CallEvent} (he : acceptedBy ev = some e) : e.callID = th.arg.id :=
  actor_own (h.path hth) e (List.mem_filterMap.mpr ⟨ev, hev, he⟩)

theorem published_of_call (hids : (st.threads.map (·.arg.id)).Nodup) {i : ℕ}
    (hget : st.threads[i]? = some th) :
    (publishedIn ls).filter (·.callID = th.arg.id) = accepted th.past := by
  rw [System.past_eq_eventsOf h hget, publishedIn, Bus.sentIn, List.filter_filterMap, accepted,
    System.eventsOf, List.filterMap_filterMap]
  refine List.filterMap_congr fun l hl => ?_
  cases l with
  | spawn x => rfl
  | env l => rfl
  | act j ev =>
    show (acceptedBy ev).filter _ = (if j = i then some ev else none).bind acceptedBy
    obtain ⟨th', hget', hev⟩ := System.exists_of_act h hl
    cases he : acceptedBy ev with
    | none =>
      split_ifs
      · exact he.symm
      · rfl
    | some e =>
      have hid := callID_of_mem_past h (List.mem_of_getElem? hget') hev he
      split_ifs with hji
      · subst hji
        cases hget.symm.trans hget'
        simp [he, hid]
      · have hne : th'.arg.id ≠ th.arg.id := by
          intro heq
          have hlt : j < (st.threads.map (·.arg.id)).length := by
            simpa using (List.getElem?_eq_some_iff.mp hget').1
          exact hji ((List.getElem?_inj hlt hids).mp (by simp [hget, hget', heq]))
        simp [hid, hne]

/-- What was written of one call is the first part of its history. -/
theorem written_of_call (hids : (st.threads.map (·.arg.id)).Nodup) {i : ℕ}
    (hget : st.threads[i]? = some th) {events : List CallEvent}
    (hevents : events <+: publishedIn ls) :
    events.filter (·.callID = th.arg.id) <+: accepted th.past := by
  rw [← published_of_call h hids hget]
  exact hevents.filter _

/-- In every run of any number of calls, whatever their commands, clocks and contexts: what the actors
got accepted is, in this order, what was stored, at most one event that the writer has in hand, and
what waits on the bus, which holds at most `capacity` events; so at most `capacity + 1` accepted events
are not stored. The stored events of a call are the first ones it published. The writer stops only
because the process was canceled or a write failed. -/
theorem call_events_delivered :
    (∃ hand, hand.length ≤ 1 ∧ st.shared.queue.length ≤ capacity ∧
      publishedIn ls = (consumed ls).stored ++ hand ++ st.shared.queue) ∧
    (publishedIn ls).length ≤ (consumed ls).stored.length + (capacity + 1) ∧
    ((st.threads.map (·.arg.id)).Nodup → ∀ (i : ℕ) (th : RecordThread), st.threads[i]? = some th →
      (publishedIn ls).filter (·.callID = th.arg.id) = accepted th.past ∧
      (consumed ls).stored.filter (·.callID = th.arg.id) <+: accepted th.past) ∧
    (st.shared.consumer.result.isSome = true →
      st.shared.canceled = true ∨ (consumed ls).refused ≠ []) := by
  obtain ⟨hand, written, hd⟩ := delivery h
  have hsent : publishedIn ls = (consumed ls).stored ++ hand ++ st.shared.queue := hd.sent
  have hbounded : st.shared.queue.length ≤ capacity := hd.bounded
  have hone := hd.oneInHand
  refine ⟨⟨hand, hone, hbounded, hsent⟩, ?_, fun hids i th hget => ?_, hd.stopped⟩
  · rw [hsent, List.length_append, List.length_append]
    omega
  · refine ⟨published_of_call h hids hget, written_of_call h hids hget ?_⟩
    rw [hsent, List.append_assoc]
    exact List.prefix_append ..

/-- Whatever other calls do, the database holds of a call exactly what writing the first `k` events of
its own history to empty tables gives, where `k` is at least the number of its stored events. -/
theorem call_rows_own (hids : (st.threads.map (·.arg.id)).Nodup) (i : ℕ) (th : RecordThread)
    (hget : st.threads[i]? = some th) :
    ∃ k own, ((consumed ls).stored.filter (·.callID = th.arg.id)).length ≤ k ∧
      writeCallEvents columns noCalls ((accepted th.past).take k) = .ok own ∧
      SameCall th.arg.id st.shared.db own := by
  obtain ⟨hand, written, hd⟩ := delivery h
  have hwritten : written <+: publishedIn ls := by
    refine hd.writtenReceived.trans ?_
    rw [show publishedIn ls = _ from hd.sent]
    exact List.prefix_append ..
  have hfirst := written_of_call h hids hget hwritten
  have hstart : SameCall th.arg.id noCalls noCalls := ⟨rfl, fun _ => rfl⟩
  have hwrites : writeCallEvents columns noCalls written = .ok st.shared.db := hd.db
  obtain ⟨own, hown, hsame⟩ := hstart.writeCallEvents hwrites
  refine ⟨(written.filter (·.callID = th.arg.id)).length, own, ?_, ?_, hsame⟩
  · exact (hd.storedWritten.filter _).length_le
  · rw [← List.prefix_iff_eq_take.mp hfirst]
    exact hown

/-- The keys of the stored events and of the one in hand are all different, so no event is refused for
its key; `attempts` is how often the actor of a call tried to publish. -/
theorem write_never_conflicts (hids : (st.threads.map (·.arg.id)).Nodup)
    (hattempts : ∀ th ∈ st.threads, attempts th.past < 2 ^ 64) (e : CallEvent)
    (k : Option String → Prog (busSig CallEvent) (Option String))
    (hwrite : st.shared.consumer = .op (.write e) k) (hfits : columns.fits e = true) :
    ∃ db, writeCallEvent columns st.shared.db e = .ok db := by
  refine ⟨_, writeCallEvent_ok_iff.mpr ⟨hfits, ?_, rfl⟩⟩
  have hkept := kept_of_reaches h
  obtain ⟨hreceived, hrefused⟩ := hkept.received_of_write hwrite
  obtain ⟨written, hwritten, hwhich⟩ := hkept.db
  obtain rfl : written = (consumed ls).stored := hwhich.resolve_right (by simp [hrefused])
  by_contra hsome
  -- an event stored before with this key, and the actor both come from
  obtain ⟨e', he', hid, hseq⟩ := callEvents_written hwritten hsome
  have hall : (consumed ls).stored ++ [e] <+: publishedIn ls := by
    rw [← hreceived]
    exact ⟨_, (sent_eq_received h).symm⟩
  obtain ⟨l, hl, hsent⟩ := List.mem_filterMap.mp (hall.subset (by simp : e ∈ _))
  cases l with
  | spawn x => cases hsent
  | env l => cases hsent
  | act i ev =>
    obtain ⟨th, hget, hev⟩ := System.exists_of_act h hl
    have hth := List.mem_of_getElem? hget
    have hown := callID_of_mem_past h hth hev hsent
    have hfirst := written_of_call h hids hget hall
    have hincreasing := accepted_increasing th.arg.2 (h.path hth) (hattempts th hth)
    rw [List.filter_append, List.filter_cons_of_pos (by simpa using hown), List.filter_nil] at hfirst
    have hlt := List.pairwise_append.mp (hincreasing.sublist hfirst.sublist) |>.2.2 e'
      (List.mem_filter.mpr ⟨he', by simp [hid, hown]⟩) e (by simp)
    rw [hseq] at hlt
    exact UInt64.lt_irrefl _ hlt

/-- When the bus is empty and the writer waits for the next event, the row of every call that has left
the state `new` has the state of its actor's snapshot. -/
theorem drained_row_current (hids : (st.threads.map (·.arg.id)).Nodup)
    (hempty : st.shared.queue = [])
    (k : Received CallEvent → Prog (busSig CallEvent) (Option String))
    (hwaits : st.shared.consumer = .op .receive k) (i : ℕ) (th : RecordThread)
    (hget : st.threads[i]? = some th) (hmoved : (accepted th.past).tail ≠ [])
    (hstored : storing th.past = false) :
    ∃ row, st.shared.db.calls.lookup th.arg.id = some row ∧
      row.state = (snapshot th.arg.1 th.past).state := by
  have hkept := kept_of_reaches h
  have hidle := hkept.idle_of_receive hwaits
  obtain ⟨written, hwritten, hwhich⟩ := hkept.db
  obtain rfl : written = (consumed ls).stored := hwhich.resolve_right (by simp [hidle.refused])
  have hall : (consumed ls).stored = publishedIn ls := by
    have hsent := sent_eq_received h
    rw [hempty, List.append_nil, hidle.stored] at hsent
    exact hsent.symm
  have hstart : SameCall th.arg.id noCalls noCalls := ⟨rfl, fun _ => rfl⟩
  have hwrites : writeCallEvents columns noCalls (consumed ls).stored = .ok st.shared.db := hwritten
  obtain ⟨own, hown, hsame⟩ := hstart.writeCallEvents hwrites
  rw [hall, published_of_call h hids hget] at hown
  -- the last event of the call wrote its row
  obtain ⟨before, last, hlast⟩ := (List.eq_nil_or_concat (accepted th.past)).resolve_left
    (by rintro hnil; simp [hnil] at hmoved)
  rw [List.concat_eq_append] at hlast
  rw [hlast] at hown hmoved
  obtain ⟨⟨row, hrow, hstate⟩, -⟩ := written_states hown
  have hth := List.mem_of_getElem? hget
  have hid := actor_own (h.path hth) last (by rw [hlast]; simp)
  refine ⟨row, ?_, ?_⟩
  · rw [hsame.row, ← hrow]
    exact congrArg (AList.lookup · own.calls) hid.symm
  · have hbefore : before ≠ [] := by
      rintro rfl
      exact hmoved rfl
    rw [hstate, snapshot_state th.arg.2 (h.path hth) hstored, hlast,
      List.tail_append_of_ne_nil hbefore, lastState_concat]

end Runs

/-! ## A run -/

/-- Two calls that are created and routed, one step of one after one of the other. -/
def twoRouted : List (System.Choice actorSig NewCall (BusMove CallEvent)) :=
  .spawn ⟨callIn .new, rfl⟩ :: .spawn ⟨{ callIn .new with id := "other" }, rfl⟩ ::
    (List.replicate 8 [.act 0 (answering .routing (.ok ())), .act 1 (answering .routing (.ok ()))]).flatten

/-- The run of the two actors, and what the writer does after it in `k` steps. -/
def routedRun (k : ℕ) : List RecordLabel × RecordState :=
  let sys := recordSystem roundingColumns 4 1
  let routed := sys.follow (fun sh _ e r => (callBus roundingColumns 4).publish sh (acceptedBy ⟨e, r⟩))
    (fun _ _ => none) twoRouted ⟨noRecords 5, []⟩
  let written := (callBus roundingColumns 4).drain k routed.2.shared
  (System.labels routed ++ written.1.map .env, ⟨written.2, routed.2.threads⟩)

theorem routedRun_reaches (k : ℕ) : (recordSystem roundingColumns 4 1).Reaches (noRecords 5)
    (routedRun k).1 (routedRun k).2 := by
  refine Steps.trans (System.ReachesUnder.reaches (C := fun _ _ => True) ?_) (Bus.drain_steps k _)
  exact System.follow_steps (fun _ _ _ _ _ h => h) (by simp) twoRouted
    ⟨noRecords 5, []⟩ fun _ _ => ⟨fun _ _ => trivial, trivial⟩

theorem call_events_delivered_routed : (publishedIn (routedRun 5).1).length = 4 ∧
    (consumed (routedRun 5).1).stored.length = 2 ∧
    ∃ hand, hand.length ≤ 1 ∧ (routedRun 5).2.shared.queue.length ≤ 4 ∧
      publishedIn (routedRun 5).1 = (consumed (routedRun 5).1).stored ++ hand ++
        (routedRun 5).2.shared.queue :=
  ⟨rfl, rfl, (call_events_delivered (routedRun_reaches 5)).1⟩

theorem call_rows_own_routed : ∃ k own,
    ((consumed (routedRun 5).1).stored.filter (·.callID = "call")).length ≤ k ∧
      writeCallEvents roundingColumns noCalls ((accepted (routingPath)).take k) = .ok own ∧
      SameCall "call" (routedRun 5).2.shared.db own :=
  call_rows_own (routedRun_reaches 5) (by decide) 0 _ rfl

theorem write_never_conflicts_routed : ∃ e k db, (routedRun 5).2.shared.consumer = .op (.write e) k ∧
    writeCallEvent roundingColumns (routedRun 5).2.shared.db e = .ok db := by
  obtain ⟨db, hdb⟩ := write_never_conflicts (routedRun_reaches 5) (by decide) (by decide) _ _
    rfl rfl
  exact ⟨_, _, db, rfl, hdb⟩

theorem drained_row_current_routed : ∃ row,
    (routedRun 8).2.shared.db.calls.lookup "other" = some row ∧ row.state = .routing :=
  drained_row_current (routedRun_reaches 8) (by decide) rfl _ rfl 1 _ rfl (by decide) rfl

end AixvolinkPbx.Events
