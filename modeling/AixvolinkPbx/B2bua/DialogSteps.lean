import AixvolinkPbx.B2bua.Answering
import AixvolinkPbx.B2bua.Handlers

/-!
# What a step of the dialog system can do

The operations of the sessions and of the handlers that change a session, one constructor each
(`SessionStep`, `HandlerStep`). The invariants of the system are shown by cases on these.
-/

namespace AixvolinkPbx.B2bua

/-! ## Changing one session -/

section Effects

variable {sh sh' : DialogShared} {k : ℕ}

@[simp] theorem update_same (sh : DialogShared) (k : ℕ) (s : SessionShared) :
    (sh.update k s).sessions k = s := Function.update_self ..

theorem update_ne {j : ℕ} (h : j ≠ k) (sh : DialogShared) (s : SessionShared) :
    (sh.update k s).sessions j = sh.sessions j := Function.update_of_ne h ..

variable {s : SessionShared}

theorem update_field {β : Type} (f : SessionShared → β) (h : f s = f (sh.sessions k)) (j : ℕ) :
    f ((sh.update k s).sessions j) = f (sh.sessions j) := by
  by_cases hj : j = k
  · rw [hj, update_same, h]
  · rw [update_ne hj]

theorem answerIs_eq {α : Type} [DecidableEq α] {r actual : α} {sh₁ : DialogShared}
    (h : answerIs r actual sh₁ = some sh') : r = actual ∧ sh' = sh₁ := by
  unfold answerIs at h
  split_ifs at h with hr
  exact ⟨hr, (Option.some.inj h).symm⟩

theorem some_of_ite {p : Prop} {inst : Decidable p} {sh₁ : DialogShared}
    (h : (if p then some sh₁ else none) = some sh') : p ∧ sh' = sh₁ := by
  split_ifs at h with hp
  exact ⟨hp, (Option.some.inj h).symm⟩

theorem handle_select {c : SessionCommand} (h : handleSession sh k .select (.command c) = some sh') :
    ∃ rest, (sh.sessions k).mailbox = c :: rest ∧
      sh' = sh.update k { sh.sessions k with mailbox := rest } := by
  cases hmailbox : (sh.sessions k).mailbox with
  | nil =>
    simp only [handleSession, hmailbox] at h
    cases h
  | cons head rest =>
    simp only [handleSession, hmailbox] at h
    obtain ⟨rfl, rfl⟩ := some_of_ite h
    exact ⟨rest, rfl, rfl⟩

/-! ## The goroutine of a session -/

/-- The operations of the command loop: commands, their results, and the pending re-INVITE. -/
def commandOp : EngineOp → Bool
  | .select => true
  | .request .. => true
  | .respondTo _ _ => true
  | .closeResult _ => true
  | .closeDone => true
  | .readPending => true
  | .pollAcks _ => true
  | .clearPending _ => true
  | .setPending _ _ => true
  | .takePending => true
  | _ => false

/-- What the goroutine of a session does to the sessions and the results of commands. -/
inductive SessionStep (sh : DialogShared) (k : ℕ) : (e : EngineOp) → engineSig.Ans e → DialogShared →
    Prop
  | take {c : SessionCommand} {rest : List SessionCommand} (h : (sh.sessions k).mailbox = c :: rest) :
      SessionStep sh k .select (.command c) (sh.update k { sh.sessions k with mailbox := rest })
  | parentDone : SessionStep sh k .select .parentDone sh
  | mediaDone (failed : Bool) : SessionStep sh k .select (.mediaDone failed) sh
  | unanswered (leg : Leg) (method : String) (body : Sdp.Body) (headers : List Header) :
      SessionStep sh k (.request leg method body headers) none sh
  | answered (leg : Leg) (method : String) (body : Sdp.Body) (headers : List Header)
      {response : Response} (h : response.isFinal = true) :
      SessionStep sh k (.request leg method body headers) (some response) sh
  | respondTo (t : ℕ) (response : Response) (r : Bool) :
      SessionStep sh k (.respondTo t response) r sh
  | closeResult (t : ℕ) :
      SessionStep sh k (.closeResult t) () { sh with results := Function.update sh.results t true }
  | closeDone : SessionStep sh k .closeDone () (sh.update k { sh.sessions k with done := true })
  | readPending : SessionStep sh k .readPending (sh.sessions k).pendingReInvite sh
  | pollAcks (t : ℕ) (r : Bool) : SessionStep sh k (.pollAcks t) r sh
  | clear {t : ℕ} (h : (sh.sessions k).pendingReInvite = some t) :
      SessionStep sh k (.clearPending t) true (sh.update k { sh.sessions k with pending := none })
  | keep {t : ℕ} (h : (sh.sessions k).pendingReInvite ≠ some t) :
      SessionStep sh k (.clearPending t) false sh
  | set (t : ℕ) (cseq : UInt32) : SessionStep sh k (.setPending t cseq) ()
      { sh.update k { sh.sessions k with pending := some (t, cseq) } with
        watchers := (k, t) :: sh.watchers }
  | takePending : SessionStep sh k .takePending (sh.sessions k).pendingReInvite
      (sh.update k { sh.sessions k with pending := none })
  | other {e : EngineOp} {r : engineSig.Ans e} {sh' : DialogShared} (he : commandOp e = false)
      (hsessions : ∀ j, ∃ outbound, sh'.sessions j = { sh.sessions j with outbound := outbound })
      (hresults : sh'.results = sh.results) (hwatchers : sh'.watchers = sh.watchers) :
      SessionStep sh k e r sh'

theorem sessionStep {e : EngineOp} {r : engineSig.Ans e} (h : handleSession sh k e r = some sh') :
    SessionStep sh k e r sh' := by
  have other : commandOp e = false → sh'.sessions = sh.sessions → sh'.results = sh.results →
      sh'.watchers = sh.watchers → SessionStep sh k e r sh' :=
    fun he hsessions hresults hwatchers =>
      .other he (fun j => ⟨(sh.sessions j).outbound, congrFun hsessions j⟩) hresults hwatchers
  cases e with
  | select =>
    cases r with
    | command c =>
      obtain ⟨rest, hmailbox, rfl⟩ := handle_select h
      exact .take hmailbox
    | parentDone =>
      cases h
      exact .parentDone
    | mediaDone failed =>
      cases h
      exact .mediaDone failed
  | request =>
    cases r with
    | none =>
      cases h
      exact .unanswered ..
    | some response =>
      obtain ⟨hfinal, rfl⟩ := some_of_ite h
      exact .answered _ _ _ _ hfinal
  | respondTo t response =>
    cases h
    exact .respondTo ..
  | closeResult t =>
    cases h
    exact .closeResult t
  | closeDone =>
    cases h
    exact .closeDone
  | readPending =>
    obtain ⟨rfl, rfl⟩ := answerIs_eq h
    exact .readPending
  | pollAcks t =>
    cases h
    exact .pollAcks ..
  | clearPending t =>
    obtain ⟨hr, rfl⟩ := some_of_ite h
    cases r with
    | false => exact .keep (of_decide_eq_false hr.symm)
    | true => exact .clear (of_decide_eq_true hr.symm)
  | setPending t cseq =>
    cases h
    exact .set t cseq
  | takePending =>
    obtain ⟨rfl, rfl⟩ := answerIs_eq h
    exact .takePending
  | createOutbound binding offer =>
    cases r with
    | none =>
      cases h
      exact other rfl rfl rfl rfl
    | some id =>
      replace h : (if id ∈ sh.dialogs then none
        else some (DialogShared.update { sh with dialogs := id :: sh.dialogs } k
          { sh.sessions k with outbound := true })) = some sh' := h
      split_ifs at h
      cases h
      refine .other rfl (fun j => ?_) rfl rfl
      by_cases hj : j = k
      · subst hj
        exact ⟨true, update_same ..⟩
      · exact ⟨_, update_ne hj ..⟩
  | registerInbound id =>
    cases h
    exact other rfl rfl rfl rfl
  | registerOutbound id =>
    cases h
    exact other rfl rfl rfl rfl
  | remove inbound outbound =>
    cases h
    exact other rfl rfl rfl rfl
  | _ =>
    cases h
    exact other rfl rfl rfl rfl

/-! ## The handlers -/

/-- What a handler does to the sessions. -/
inductive HandlerStep (capacity : ℕ) (sh : DialogShared) : (e : HandlerOp) → handlerSig.Ans e →
    DialogShared → Prop
  | lookupCaller (id : String) :
      HandlerStep capacity sh (.lookup .caller id) (sh.byInbound.lookup id) sh
  | lookupCallee (id : String) :
      HandlerStep capacity sh (.lookup .callee id) (sh.byOutbound.lookup id) sh
  | sent (k : ℕ) (c : SessionCommand) (h : (sh.sessions k).mailbox.length < capacity) :
      HandlerStep capacity sh (.enqueue k c) .sent
        (sh.update k { sh.sessions k with mailbox := (sh.sessions k).mailbox ++ [c] })
  | closed (k : ℕ) (c : SessionCommand) (h : (sh.sessions k).done = true) :
      HandlerStep capacity sh (.enqueue k c) .done sh
  | dropped (k : ℕ) (c : SessionCommand) : HandlerStep capacity sh (.enqueue k c) .timeout sh
  | result (k t : ℕ) (h : sh.results t = true) : HandlerStep capacity sh (.awaitResult k t) .result sh
  | over (k t : ℕ) (h : (sh.sessions k).done = true) :
      HandlerStep capacity sh (.awaitResult k t) .done sh
  | timer (k t : ℕ) : HandlerStep capacity sh (.awaitResult k t) .timer sh
  | begun (k : ℕ) (hbusy : (sh.sessions k).reInviteBusy = false)
      (hpending : (sh.sessions k).pending = none) :
      HandlerStep capacity sh (.beginReInvite k) true
        (sh.update k { sh.sessions k with reInviteBusy := true })
  | refused (k : ℕ) (h : (sh.sessions k).reInviteBusy = true ∨ (sh.sessions k).pending ≠ none) :
      HandlerStep capacity sh (.beginReInvite k) false sh
  | finished (k : ℕ) : HandlerStep capacity sh (.finishReInvite k) ()
      (sh.update k { sh.sessions k with reInviteBusy := false })
  | acknowledged (k t : ℕ) (cseq : UInt32) (h : (sh.sessions k).pending = some (t, cseq)) :
      HandlerStep capacity sh (.clearPendingCSeq k cseq) (some t)
        (sh.update k { sh.sessions k with pending := none })
  | ignored (k : ℕ) (cseq : UInt32) (h : ∀ t, (sh.sessions k).pending ≠ some (t, cseq)) :
      HandlerStep capacity sh (.clearPendingCSeq k cseq) none sh
  | clear (k t : ℕ) (h : (sh.sessions k).pendingReInvite = some t) :
      HandlerStep capacity sh (.clearPending k t) true
        (sh.update k { sh.sessions k with pending := none })
  | keep (k t : ℕ) (h : (sh.sessions k).pendingReInvite ≠ some t) :
      HandlerStep capacity sh (.clearPending k t) false sh
  | watched (k t : ℕ) (r : Watched) (h : r = .sessionDone → (sh.sessions k).done = true) :
      HandlerStep capacity sh (.awaitPending k t) r sh
  | respond (t : ℕ) (response : Response) : HandlerStep capacity sh (.respond t response) () sh
  | hasDialog (k : ℕ) (leg : Leg) (r : Bool) : HandlerStep capacity sh (.hasDialog k leg) r sh
  | readBye (leg : Leg) (r : Bool) : HandlerStep capacity sh (.readBye leg) r sh
  | readRequest (leg : Leg) (r : Bool) : HandlerStep capacity sh (.readRequest leg) r sh
  | readAck (r : Bool) : HandlerStep capacity sh .readAck r sh
  | terminate (t : ℕ) : HandlerStep capacity sh (.terminate t) () sh

variable {e : HandlerOp} {r : handlerSig.Ans e} {capacity : ℕ}

theorem handlerStep (h : handleHandler capacity sh e r = some sh') :
    HandlerStep capacity sh e r sh' := by
  cases e with
  | lookup leg id =>
    cases leg with
    | caller =>
      obtain ⟨rfl, rfl⟩ := answerIs_eq h
      exact .lookupCaller id
    | callee =>
      obtain ⟨rfl, rfl⟩ := answerIs_eq h
      exact .lookupCallee id
  | hasDialog k leg =>
    cases leg with
    | caller =>
      obtain ⟨rfl, rfl⟩ := answerIs_eq h
      exact .hasDialog ..
    | callee =>
      obtain ⟨rfl, rfl⟩ := answerIs_eq h
      exact .hasDialog ..
  | enqueue k c =>
    cases r with
    | sent =>
      obtain ⟨hroom, rfl⟩ := some_of_ite h
      exact .sent k c hroom
    | done =>
      obtain ⟨hdone, rfl⟩ := some_of_ite h
      exact .closed k c hdone
    | timeout =>
      cases h
      exact .dropped k c
  | awaitResult k t =>
    cases r with
    | result =>
      obtain ⟨hresult, rfl⟩ := some_of_ite h
      exact .result k t hresult
    | done =>
      obtain ⟨hdone, rfl⟩ := some_of_ite h
      exact .over k t hdone
    | timer =>
      cases h
      exact .timer k t
  | beginReInvite k =>
    obtain ⟨hr, rfl⟩ := some_of_ite h
    cases r with
    | false =>
      refine .refused k ?_
      by_cases hbusy : (sh.sessions k).reInviteBusy = true
      · exact .inl hbusy
      · refine .inr (Option.isSome_iff_ne_none.mp ?_)
        simpa [hbusy] using hr
    | true =>
      obtain ⟨hbusy, hpending⟩ : (sh.sessions k).reInviteBusy = false ∧
        (sh.sessions k).pending = none := by
        simpa using hr
      exact .begun k hbusy hpending
  | finishReInvite k =>
    cases h
    exact .finished k
  | clearPendingCSeq k cseq =>
    obtain ⟨hr, rfl⟩ := some_of_ite h
    cases hpending : (sh.sessions k).pending with
    | none =>
      rw [hpending] at hr
      obtain rfl : r = none := hr
      exact .ignored k cseq fun t ht => by rw [hpending] at ht; cases ht
    | some p =>
      obtain ⟨t, cseq'⟩ := p
      rw [hpending] at hr
      by_cases hcseq : cseq' = cseq
      · subst hcseq
        obtain rfl : r = some t := by simpa [Option.filter] using hr
        exact .acknowledged k t cseq' hpending
      · obtain rfl : r = none := by simpa [Option.filter, hcseq] using hr
        refine .ignored k cseq fun t' ht' => ?_
        rw [hpending] at ht'
        exact hcseq (Prod.mk.inj (Option.some.inj ht')).2
  | clearPending k t =>
    obtain ⟨hr, rfl⟩ := some_of_ite h
    cases r with
    | false => exact .keep k t (of_decide_eq_false hr.symm)
    | true => exact .clear k t (of_decide_eq_true hr.symm)
  | awaitPending k t =>
    cases r with
    | sessionDone =>
      obtain ⟨hdone, rfl⟩ := some_of_ite h
      exact .watched k t _ fun _ => hdone
    | acks =>
      cases h
      exact .watched k t _ nofun
    | transactionDone =>
      cases h
      exact .watched k t _ nofun
  | readBye leg =>
    cases h
    exact .readBye ..
  | readRequest leg =>
    cases h
    exact .readRequest ..
  | readAck =>
    cases h
    exact .readAck r
  | respond t response =>
    cases h
    exact .respond ..
  | terminate t =>
    cases h
    exact .terminate t

/-! ## Mailboxes and ends of sessions -/

theorem mailbox_update (hs : s.mailbox = (sh.sessions k).mailbox) (j : ℕ) :
    ((sh.update k s).sessions j).mailbox = (sh.sessions j).mailbox := update_field (·.mailbox) hs j

theorem done_update (hs : s.done = (sh.sessions k).done) (j : ℕ) :
    ((sh.update k s).sessions j).done = (sh.sessions j).done := update_field (·.done) hs j

theorem SessionStep.mailbox {e : EngineOp} {r : engineSig.Ans e} (h : SessionStep sh k e r sh') (j : ℕ) :
    (sh'.sessions j).mailbox = (sh.sessions j).mailbox ∨
      j = k ∧ ∃ c, (⟨e, r⟩ : Event engineSig) = ⟨.select, .command c⟩ ∧
        (sh.sessions j).mailbox = c :: (sh'.sessions j).mailbox := by
  cases h with
  | @take c rest hmailbox =>
    by_cases hj : j = k
    · subst hj
      rw [update_same]
      exact .inr ⟨rfl, c, rfl, hmailbox⟩
    · rw [update_ne hj]
      exact .inl rfl
  | closeDone => exact .inl (mailbox_update (by rfl) j)
  | clear _ => exact .inl (mailbox_update (by rfl) j)
  | set t cseq =>
    exact .inl (mailbox_update (s := { sh.sessions k with pending := some (t, cseq) }) (by rfl) j)
  | takePending => exact .inl (mailbox_update (by rfl) j)
  | other he hsessions =>
    obtain ⟨outbound, hj⟩ := hsessions j
    rw [hj]
    exact .inl rfl
  | _ => exact .inl rfl

theorem HandlerStep.mailbox (h : HandlerStep capacity sh e r sh') (j : ℕ) :
    (sh'.sessions j).mailbox = (sh.sessions j).mailbox ∨
      ∃ c, (⟨e, r⟩ : Event handlerSig) = ⟨.enqueue j c, .sent⟩ ∧
        (sh'.sessions j).mailbox = (sh.sessions j).mailbox ++ [c] := by
  cases h with
  | sent k c hroom =>
    by_cases hj : j = k
    · subst hj
      rw [update_same]
      exact .inr ⟨c, rfl, rfl⟩
    · rw [update_ne hj]
      exact .inl rfl
  | begun => exact .inl (mailbox_update (by rfl) j)
  | finished k => exact .inl (mailbox_update (by rfl) j)
  | acknowledged => exact .inl (mailbox_update (by rfl) j)
  | clear => exact .inl (mailbox_update (by rfl) j)
  | _ => exact .inl rfl

theorem SessionStep.done {e : EngineOp} {r : engineSig.Ans e} (h : SessionStep sh k e r sh') (j : ℕ) :
    (sh'.sessions j).done = (sh.sessions j).done ∨
      j = k ∧ e = .closeDone ∧ (sh'.sessions j).done = true := by
  cases h with
  | closeDone =>
    by_cases hj : j = k
    · subst hj
      rw [update_same]
      exact .inr ⟨rfl, rfl, rfl⟩
    · rw [update_ne hj]
      exact .inl rfl
  | take _ => exact .inl (done_update (by rfl) j)
  | clear _ => exact .inl (done_update (by rfl) j)
  | set t cseq => exact .inl (done_update (s := { sh.sessions k with pending := some (t, cseq) }) rfl j)
  | takePending => exact .inl (done_update (by rfl) j)
  | other he hsessions =>
    obtain ⟨outbound, hj⟩ := hsessions j
    rw [hj]
    exact .inl rfl
  | _ => exact .inl rfl

theorem HandlerStep.done (h : HandlerStep capacity sh e r sh') (j : ℕ) :
    (sh'.sessions j).done = (sh.sessions j).done := by
  cases h with
  | sent => exact done_update (by rfl) j
  | begun => exact done_update (by rfl) j
  | finished k => exact done_update (by rfl) j
  | acknowledged => exact done_update (by rfl) j
  | clear => exact done_update (by rfl) j
  | _ => rfl

end Effects

/-! ## The threads of the system -/

section Threads

variable {cfg : Config} {C : Sdp.Codecs} {n : ℕ} {ls : List DialogLabel} {st : DialogState}
  {th : DialogThread}

theorem handler_path (h : (dialogSystem cfg C n).Reaches .initial ls st) (hth : th ∈ st.threads)
    {p : Prog handlerSig Unit} (hprog : (dialogSystem cfg C n).prog th.arg = p.inr) :
    ∃ q, th.rest = q.inr ∧ Prog.Path p (Event.rights th.past) q ∧ Event.lefts th.past = [] := by
  have hpath := h.path hth
  rw [hprog] at hpath
  obtain ⟨u, q, hu, hrest, hq⟩ := Prog.path_inr hpath
  rw [hu, Event.rights_map_inr, Event.lefts_map_inr]
  exact ⟨q, hrest, hq, rfl⟩

end Threads

/-! ## Runs of a call from Alice to Bob -/

section Call

instance (sh : DialogShared) : (x : DialogParty) → Decidable (x.started sh)
  | .session _ _ => .isTrue trivial
  | .bye _ => .isTrue trivial
  | .reInvite m => inferInstanceAs (Decidable (m.request.method = "INVITE"))
  | .refer m => inferInstanceAs (Decidable (m.request.method = "REFER"))
  | .notify m => inferInstanceAs (Decidable (m.request.method = "NOTIFY"))
  | .ack _ => .isTrue trivial
  | .watch k transaction => inferInstanceAs (Decidable ((k, transaction) ∈ sh.watchers))

def startsWell (p : DialogState × DialogLabel) : Bool :=
  match p.2 with
  | .spawn x => x.started p.1.shared
  | _ => true

def dialogRun (cfg : Config) (choices : List (System.Choice dialogSig DialogParty Empty)) :
    List (DialogState × DialogLabel) × DialogState :=
  (dialogSystem cfg phoneCodecs 2).follow (handleDialog cfg.mailboxSize.toNat) (fun _ l => l.elim)
    choices ⟨.initial, []⟩

theorem dialogRun_reaches {cfg : Config} {choices : List (System.Choice dialogSig DialogParty Empty)}
    {P : DialogState → DialogLabel → Prop} (hstarts : (dialogRun cfg choices).1.all startsWell = true)
    (hP : ∀ p ∈ (dialogRun cfg choices).1, P p.1 p.2) :
    (dialogSystem cfg phoneCodecs 2).ReachesUnder P .initial (System.labels (dialogRun cfg choices))
      (dialogRun cfg choices).2 := by
  refine System.follow_steps (fun _ _ _ _ _ h => h) (fun _ l => l.elim) _ _ fun p hp => ⟨?_, hP p hp⟩
  intro x hx
  have hwell := List.all_eq_true.mp hstarts p hp
  unfold startsWell at hwell
  rw [hx] at hwell
  exact (of_decide_eq_true hwell : x.started p.1.shared)

/-- Answers with which the calls of a handler go through: the session found, and the outcomes of its two
selects. -/
def handlerAnswer (found : Option ℕ) (put : Enqueued) (finished : Finished) :
    (e : HandlerOp) → handlerSig.Ans e
  | .lookup _ _ => found
  | .hasDialog _ _ => true
  | .enqueue _ _ => put
  | .awaitResult _ _ => finished
  | .beginReInvite _ => true
  | .finishReInvite _ => ()
  | .clearPendingCSeq _ _ => none
  | .clearPending _ _ => true
  | .awaitPending _ _ => .acks
  | .readBye _ => true
  | .readRequest _ => true
  | .readAck => true
  | .respond _ _ => ()
  | .terminate _ => ()

def sessionMove (i : ℕ) (selected : Selected) : System.Choice dialogSig DialogParty Empty :=
  .act i fun
    | .inl e => succeeding (fun _ => .response bobAnswers) (fun _ => selected) 0 e
    | .inr e => handlerAnswer none .timeout .timer e

def handlerMove (i : ℕ) (found : Option ℕ) (put : Enqueued) (finished : Finished) :
    System.Choice dialogSig DialogParty Empty :=
  .act i fun
    | .inl e => succeeding (fun _ => .response bobAnswers) (fun _ => .parentDone) 0 e
    | .inr e => handlerAnswer found put finished e

end Call

end AixvolinkPbx.B2bua
