import AixvolinkPbx.B2bua.Byes
import AixvolinkPbx.B2bua.Requests

/-!
# Final responses to the requests of a dialog

A re-INVITE, REFER or NOTIFY is answered by the session that takes its command, or by its handler. The
handler answers when it refuses the request, and when it gives up waiting for its command. It may give up
on a command that a session still takes, or that the session has just answered; the request then gets two
final responses (`both_answer`). Otherwise it gets exactly one (`one_final_response`).
-/

namespace AixvolinkPbx.B2bua

open Sdp (Codecs)
open Prog (Ends)

def respondsFinally (t : ℕ) : DialogLabel → Bool
  | .act _ ⟨.inl (.respondTo t' response), _⟩ => t' = t && response.isFinal
  | .act _ ⟨.inr (.respond t' response), _⟩ => t' = t && response.isFinal
  | _ => false

def refusesFinally (t : ℕ) : DialogLabel → Bool
  | .act _ ⟨.inr (.respond t' response), _⟩ => t' = t && response.isFinal
  | _ => false

/-- The final responses to a transaction are those of the sessions and those of the handlers. -/
theorem countP_respondsFinally (t : ℕ) (ls : List DialogLabel) :
    ls.countP (respondsFinally t) = ls.countP (answersFinally t) + ls.countP (refusesFinally t) := by
  induction ls with
  | nil => rfl
  | cons l ls ih =>
    have hl : (if respondsFinally t l then 1 else 0) =
        (if answersFinally t l then 1 else 0) + if refusesFinally t l then 1 else 0 := by
      cases l with
      | spawn x => rfl
      | env l => exact l.elim
      | act i ev =>
        obtain ⟨e | e, r⟩ := ev
        · cases e <;> rfl
        · cases e <;> simp [respondsFinally, answersFinally, refusesFinally]
    rw [List.countP_cons, List.countP_cons, List.countP_cons, ih]
    omega

/-! ## Commands that no session takes -/

/-- The command of transaction `t` is in no mailbox, or in one whose session is done. -/
def Dead (t : ℕ) (ph : Phase) (sh : DialogShared) : Prop :=
  ph = .nowhere ∨ ph = .queued ∧ ∀ k, 0 < (sh.sessions k).mailbox.countP (concerns t) →
    (sh.sessions k).done = true

section Steps

variable {t i k capacity refused : ℕ} {ph : Phase} {sh sh' : DialogShared} {p : Progress}

theorem phaseStep_nowhere {e : EngineOp} {r : engineSig.Ans e} :
    phaseStep t .nowhere (.act i ⟨.inl e, r⟩) = .nowhere := by
  cases e with
  | select => cases r <;> simp [phaseStep]
  | _ => simp [phaseStep]

theorem phaseStep_completed {e : EngineOp} {r : engineSig.Ans e} :
    phaseStep t .completed (.act i ⟨.inl e, r⟩) = .completed := by
  cases e with
  | select => cases r <;> simp [phaseStep]
  | _ => simp [phaseStep]

theorem phaseStep_queued {e : EngineOp} {r : engineSig.Ans e}
    (h : ∀ c, concerns t c = true → (⟨e, r⟩ : Event engineSig) ≠ ⟨.select, .command c⟩) :
    phaseStep t .queued (.act i ⟨.inl e, r⟩) = .queued := by
  cases e with
  | select =>
    cases r with
    | command c => exact if_neg fun hc => h c hc.1 rfl
    | _ => rfl
  | _ => simp [phaseStep]

theorem Dead.finals (h : Dead t ph sh) : ph.finals = 0 := by
  rcases h with rfl | ⟨rfl, -⟩ <;> rfl

/-- No session takes a dead command: one that is done has left its loop. -/
theorem Dead.session {e : EngineOp} {r : engineSig.Ans e} (h : Dead t ph sh)
    (hperf : SessionStep sh k e r sh') (hdone : (sh.sessions k).done = true → e ≠ .select) :
    Dead t (phaseStep t ph (.act i ⟨.inl e, r⟩)) sh' := by
  rcases h with rfl | ⟨rfl, hall⟩
  · exact .inl phaseStep_nowhere
  · refine .inr ⟨phaseStep_queued fun c hc hev => ?_, fun j hpos => ?_⟩
    · obtain ⟨rfl, hr⟩ := Event.mk.inj hev
      obtain rfl := eq_of_heq hr
      cases hperf with
      | take hmailbox =>
        refine hdone (hall k ?_) rfl
        rw [hmailbox, List.countP_cons_of_pos hc]
        omega
      | other he => cases he
    · have hold : (sh.sessions j).done = true := by
        apply hall
        rcases hperf.mailbox j with hkept | ⟨-, c, -, htaken⟩
        · rwa [← hkept]
        · rw [htaken, List.countP_cons]
          omega
      rcases hperf.done j with hkept | ⟨-, -, hclosed⟩
      · rwa [hkept]
      · exact hclosed

variable {e : HandlerOp}

theorem Dead.handler {r : handlerSig.Ans e} (h : Dead t ph sh)
    (hperf : HandlerStep capacity sh e r sh')
    (hother : ∀ k c, concerns t c = true →
      (⟨e, r⟩ : Event handlerSig) ≠ ⟨.enqueue k c, .sent⟩) :
    Dead t ph sh' := by
  refine h.imp_right fun ⟨hqueued, hall⟩ => ⟨hqueued, fun j hpos => ?_⟩
  rw [hperf.done j]
  apply hall
  rcases hperf.mailbox j with hkept | ⟨c, hev, hput⟩
  · rwa [← hkept]
  · rw [hput, List.countP_append, List.countP_singleton, if_neg fun hc => hother j c hc hev] at hpos
    exact hpos

/-! ## The account of a handler -/

/-- What a handler with the progress `p` knows of its command, after `refused` final responses of its
own. -/
def Account (t : ℕ) (ph : Phase) (refused : ℕ) (sh : DialogShared) : Progress → Prop
  | .fresh => ph = .nowhere ∧ refused = 0
  | .lost => ph = .nowhere ∧ refused = 0
  | .waiting => refused = 0
  | .givingUp => refused = 0 ∧ Dead t ph sh
  | .settled => refused = 1 ∧ Dead t ph sh ∨ refused = 0 ∧ ph = .completed
  | _ => False

theorem Account.session {e : EngineOp} {r : engineSig.Ans e} (h : Account t ph refused sh p)
    (hperf : SessionStep sh k e r sh') (hdone : (sh.sessions k).done = true → e ≠ .select) :
    Account t (phaseStep t ph (.act i ⟨.inl e, r⟩)) refused sh' p := by
  cases p with
  | fresh =>
    obtain ⟨rfl, hrefused⟩ := h
    exact ⟨phaseStep_nowhere, hrefused⟩
  | lost =>
    obtain ⟨rfl, hrefused⟩ := h
    exact ⟨phaseStep_nowhere, hrefused⟩
  | waiting => exact h
  | givingUp => exact ⟨h.1, h.2.session hperf hdone⟩
  | settled =>
    rcases h with ⟨hrefused, hdead⟩ | ⟨hrefused, rfl⟩
    · exact .inl ⟨hrefused, hdead.session hperf hdone⟩
    · exact .inr ⟨hrefused, phaseStep_completed⟩
  | observed => exact h
  | bad => exact h

theorem Account.handler {r : handlerSig.Ans e} (h : Account t ph refused sh p)
    (hperf : HandlerStep capacity sh e r sh')
    (hother : ∀ k c, concerns t c = true →
      (⟨e, r⟩ : Event handlerSig) ≠ ⟨.enqueue k c, .sent⟩) :
    Account t ph refused sh' p := by
  cases p with
  | givingUp => exact ⟨h.1, h.2.handler hperf hother⟩
  | settled => exact h.imp_left fun ⟨hrefused, hdead⟩ => ⟨hrefused, hdead.handler hperf hother⟩
  | _ => exact h

theorem Account.finals (h : Account t ph refused sh p) :
    ph.finals + refused ≤ 1 ∧ (p = .settled → ph.finals + refused = 1) := by
  have hle : ph.finals ≤ 1 := by cases ph <;> decide
  cases p with
  | fresh =>
    obtain ⟨rfl, rfl⟩ := h
    exact ⟨Nat.zero_le 1, nofun⟩
  | lost =>
    obtain ⟨rfl, rfl⟩ := h
    exact ⟨Nat.zero_le 1, nofun⟩
  | waiting =>
    obtain rfl : refused = 0 := h
    exact ⟨hle, nofun⟩
  | givingUp =>
    obtain ⟨rfl, hdead⟩ := h
    exact ⟨hle, nofun⟩
  | settled =>
    have hone : ph.finals + refused = 1 := by
      rcases h with ⟨rfl, hdead⟩ | ⟨rfl, rfl⟩
      · rw [hdead.finals]
      · rfl
    exact ⟨hone.le, fun _ => hone⟩
  | observed => cases h
  | bad => cases h

end Steps

/-! ## Giving up -/

/-- No session took the command of transaction `t`, and one that has it in its mailbox is done. -/
def Unreached (st : DialogState) (t : ℕ) : Prop :=
  (∀ th ∈ st.threads, ∀ c, concerns t c = true →
    ⟨.select, .command c⟩ ∉ Event.lefts th.past) ∧
    ∀ k, 0 < (st.shared.sessions k).mailbox.countP (concerns t) → (st.shared.sessions k).done = true

/-- The transaction whose handler stops waiting for its command. -/
def givesUp : DialogLabel → Option ℕ
  | .act _ ⟨.inr (.awaitResult _ t), .done⟩ => some t
  | .act _ ⟨.inr (.awaitResult _ t), .timer⟩ => some t
  | _ => none

/-- A handler gives up only on a command that no session took or will take. -/
def Patient (st : DialogState) (l : DialogLabel) : Prop := ∀ t, givesUp l = some t → Unreached st t

section Run

variable {cfg : Config} {C : Codecs} {n t : ℕ} {ls : List DialogLabel} {st st' : DialogState}

theorem Unreached.dead (h : (dialogSystem cfg C n).Reaches .initial ls st) (hun : Unreached st t) :
    Dead t (phase t ls) st.shared := by
  cases htaken : (phase t ls).taken with
  | true =>
    obtain ⟨i, c, hc, hmem⟩ := taken_of_phase htaken
    obtain ⟨th, hget, hev⟩ := System.exists_of_act h hmem
    exact absurd (Event.mem_lefts.mpr hev) (hun.1 th (List.mem_of_getElem? hget) c hc)
  | false =>
    cases hph : phase t ls with
    | nowhere => exact .inl rfl
    | queued => exact .inr ⟨rfl, hun.2⟩
    | _ =>
      rw [hph] at htaken
      cases htaken

variable {hs : HandlerStage}

theorem ProgressStep.responds {p : Progress} {t' : ℕ} {response : Response} {r : Unit}
    (h : ProgressStep hs (.respond t' response) r p) : hs.party.transaction = some t' := by
  cases h with
  | respond r hanswers ht hfinal => exact ht
  | other r he => cases he

variable {x : DialogParty}

theorem transaction_of_command (h : x.command.any (concerns t) = true) :
    x.transaction = some t := by
  cases x with
  | reInvite m => exact of_decide_eq_true h
  | refer m => exact of_decide_eq_true h
  | notify m => exact of_decide_eq_true h
  | _ => cases h

theorem key_of_transaction (h : x.transaction = some t) :
    x.key = some (true, t) := by
  cases x with
  | session k invite => cases h
  | ack m => cases h
  | watch k t => cases h
  | _ => rw [← Option.some.inj h]; rfl

theorem Account.own {i capacity refused : ℕ} {p : Progress} {r : handlerSig.Ans e}
    {sh : DialogShared} (h : Account t (phase t ls) refused st.shared hs.progress)
    (hrun : (dialogSystem cfg C n).Reaches .initial ls st)
    (hresults : st.shared.results t = decide (phase t ls = .completed))
    (hmine : hs.party.command.any (concerns t) = true) (hmove : ProgressStep hs e r p)
    (hperf : HandlerStep capacity st.shared e r sh) (hpatient : Patient st (.act i ⟨.inr e, r⟩)) :
    Account t (phase t (ls ++ [.act i ⟨.inr e, r⟩]))
      (refused + if refusesFinally t (.act i ⟨.inr e, r⟩) then 1 else 0) sh p := by
  have htransaction := transaction_of_command hmine
  have waited : hs.progress = .waiting ∨ hs.progress = .lost → refused = 0 := by
    rintro (hp | hp)
    · rw [hp] at h
      exact h
    · rw [hp] at h
      exact h.2
  rw [phase_concat]
  cases hmove with
  | put k hfresh hcommand =>
    rw [hfresh] at h
    exact h.2
  | lose k hfresh hcommand hr =>
    rw [hfresh] at h
    cases hperf with
    | sent => exact absurd rfl hr
    | closed => exact h
    | dropped k c => exact h
  | hangup k r hfresh hcommand hc =>
    rw [hcommand] at hmine
    cases hmine
  | result k hwaits ht =>
    cases ht.symm.trans htransaction
    cases hperf with
    | result k t hresult =>
      rw [hresults] at hresult
      exact .inr ⟨waited hwaits, of_decide_eq_true hresult⟩
  | giveUp k hwaits ht hr =>
    cases ht.symm.trans htransaction
    cases hperf with
    | result => exact absurd rfl hr
    | «over» k t hdone => exact ⟨waited hwaits, Unreached.dead hrun (hpatient _ rfl)⟩
    | timer k t => exact ⟨waited hwaits, Unreached.dead hrun (hpatient _ rfl)⟩
  | @respond t' response r hanswers ht hfinal =>
    obtain rfl := Option.some.inj (ht.symm.trans htransaction)
    have hone : refusesFinally t' (.act i ⟨.inr (.respond t' response), r⟩) = true := by
      simp [refusesFinally, hfinal]
    rw [hone]
    cases hperf
    rcases hanswers with hp | hp
    · rw [hp] at h
      obtain ⟨hnowhere, rfl⟩ := h
      exact .inl ⟨rfl, .inl hnowhere⟩
    · rw [hp] at h
      obtain ⟨rfl, hdead⟩ := h
      exact .inl ⟨rfl, hdead⟩
  | enter => exact h.handler hperf nofun
  | leave r hgate => exact h.handler hperf nofun
  | observe hparty hr =>
    rw [hparty] at hmine
    cases hmine
  | ended hparty =>
    rw [hparty] at hmine
    cases hmine
  | clear r hparty hobserved =>
    rw [hparty] at hmine
    cases hmine
  | acknowledge k r hparty =>
    rw [hparty] at hmine
    cases hmine
  | other r he =>
    have hnot : ∀ k c, concerns t c = true →
        (⟨e, r⟩ : Event handlerSig) ≠ ⟨.enqueue k c, .sent⟩ := by
      intro k c _ hev
      rw [(Event.mk.inj hev).1] at he
      cases he
    have hfinally : refusesFinally t (.act i ⟨.inr e, r⟩) = false := by
      cases e <;> first | rfl | cases he
    rw [phaseStep_inr hnot, hfinally]
    exact h.handler hperf hnot

theorem Account.elsewhere {i capacity refused : ℕ} {p q : Progress} {r : handlerSig.Ans e}
    {sh : DialogShared} (h : Account t (phase t ls) refused st.shared q)
    (hother : hs.party.key ≠ some (true, t)) (hmove : ProgressStep hs e r p)
    (hperf : HandlerStep capacity st.shared e r sh) :
    Account t (phase t (ls ++ [.act i ⟨.inr e, r⟩]))
      (refused + if refusesFinally t (.act i ⟨.inr e, r⟩) then 1 else 0) sh q := by
  have hnot : ∀ k c, concerns t c = true →
      (⟨e, r⟩ : Event handlerSig) ≠ ⟨.enqueue k c, .sent⟩ := by
    intro k c hc hev
    obtain ⟨rfl, hr⟩ := Event.mk.inj hev
    obtain rfl := eq_of_heq hr
    obtain ⟨-, ⟨hcommand, -⟩ | hnone⟩ := hmove.sent
    · refine hother (key_of_command ?_)
      rw [hcommand]
      exact hc
    · simp [concerns, hnone] at hc
  have hfinally : refusesFinally t (.act i ⟨.inr e, r⟩) = false := by
    cases e with
    | respond t' response =>
      have hne : t' ≠ t := by
        rintro rfl
        exact hother (key_of_transaction hmove.responds)
      simp [refusesFinally, hne]
    | _ => rfl
  rw [phase_concat, phaseStep_inr hnot, hfinally]
  exact h.handler hperf hnot

theorem exists_of_refused (h : (dialogSystem cfg C n).Reaches .initial ls st)
    (hpos : ls.countP (refusesFinally t) ≠ 0) : ∃ th ∈ st.threads, th.arg.key = some (true, t) := by
  revert hpos
  refine Steps.invariant_of_run (I := fun ls (st : DialogState) => ls.countP (refusesFinally t) ≠ 0 →
    ∃ th ∈ st.threads, th.arg.key = some (true, t)) ?_ h (fun hpos => absurd rfl hpos)
  intro ls st l st' hrun hI hstep hpos
  rw [List.countP_append, List.countP_singleton] at hpos
  cases dialogStep hrun hstep with
  | spawn =>
    obtain ⟨th, hth, hkey⟩ := hI hpos
    exact ⟨th, List.mem_append_left _ hth, hkey⟩
  | @session i k invite th th' g g' e r sh hget harg harg' hstage hstage' hloop hperf =>
    obtain ⟨th₀, hth₀, hkey⟩ := hI hpos
    rcases mem_set_or_eq th' hget hth₀ with hth₀ | rfl
    · exact ⟨th₀, hth₀, hkey⟩
    · rw [harg] at hkey
      cases hkey
  | @handler i th th' hs p e r sh hget harg harg' hstage hstage' hmove hperf =>
    have hmem : th' ∈ st.threads.set i th' := List.mem_set (List.getElem?_eq_some_iff.mp hget).1 _
    by_cases hbefore : ls.countP (refusesFinally t) = 0
    · cases e with
      | respond t' response =>
        have htransaction := hmove.responds
        obtain rfl : t' = t := by
          by_contra hne
          simp [hbefore, refusesFinally, hne] at hpos
        rw [harg, ← harg'] at htransaction
        exact ⟨th', hmem, key_of_transaction htransaction⟩
      | _ => simp [hbefore, refusesFinally] at hpos
    · obtain ⟨th₀, hth₀, hkey⟩ := hI hbefore
      rcases mem_set_or_eq th' hget hth₀ with hth₀ | rfl
      · exact ⟨th₀, hth₀, hkey⟩
      · exact ⟨th', hmem, harg' ▸ hkey⟩

theorem account_spawned {p : Prog dialogSig Unit}
    (hrun : (dialogSystem cfg C n).Reaches .initial ls st)
    (hplaced : Placed t (phase t ls) st.shared st.threads)
    (hmine : x.command.any (concerns t) = true)
    (hothers : ∀ th ∈ st.threads, th.arg.key ≠ some (true, t)) :
    ∃ hs, stageOf ⟨x, [], p⟩ = .handler hs ∧
      Account t (phase t ls) (ls.countP (refusesFinally t)) st.shared hs.progress := by
  have hnowhere : phase t ls = .nowhere := by
    apply hplaced.fresh
    intro th hth hcommand
    exact absurd (key_of_command hcommand) (hothers th hth)
  have hzero : ls.countP (refusesFinally t) = 0 := by
    by_contra hpos
    obtain ⟨th, hth, hkey⟩ := exists_of_refused hrun hpos
    exact hothers th hth hkey
  have hstage : stageOf ⟨x, [], p⟩ = .handler ⟨x, .fresh, none⟩ := by
    cases x with
    | session k invite => cases hmine
    | _ => rfl
  exact ⟨_, hstage, hnowhere, hzero⟩

/-- In a run in which handlers give up on dead commands only, every handler has its account. -/
theorem account_of_reaches (h : (dialogSystem cfg C n).ReachesUnder Patient .initial ls st)
    (hsep : Separate st.threads) {i : ℕ} {th : DialogThread} (hget : st.threads[i]? = some th)
    (hmine : th.arg.command.any (concerns t) = true) :
    ∃ hs, stageOf th = .handler hs ∧
      Account t (phase t ls) (ls.countP (refusesFinally t)) st.shared hs.progress := by
  revert i th
  revert hsep
  refine Steps.invariant_of_run (I := fun ls (st : DialogState) => Separate st.threads →
    ∀ {i : ℕ} {th : DialogThread}, st.threads[i]? = some th →
      th.arg.command.any (concerns t) = true → ∃ hs, stageOf th = .handler hs ∧
        Account t (phase t ls) (ls.countP (refusesFinally t)) st.shared hs.progress) ?_ h
    (fun _ _ _ hget => by simp at hget)
  intro ls st l st' hrun hI ⟨hstep, hpatient⟩ hsep j th₀ hj hmine
  have hreaches := System.ReachesUnder.reaches hrun
  have hinv := dialogStep hreaches hstep
  have hsep₀ := hsep.of_step hinv
  obtain ⟨hplaced, -⟩ := placed_of_reaches hreaches hsep₀ t
  rw [List.countP_append, List.countP_singleton]
  cases hinv with
  | spawn x p hx =>
    rw [phase_concat]
    by_cases hold : j < st.threads.length
    · rw [List.getElem?_append_left hold] at hj
      exact hI hsep₀ hj hmine
    · -- the new handler is the only one for its transaction
      have hnew := hj
      rw [List.getElem?_append_right (by omega)] at hj
      obtain rfl := List.mem_singleton.mp (List.mem_of_getElem? hj)
      have hothers : ∀ th ∈ st.threads, th.arg.key ≠ some (true, t) := by
        intro th hth hkey
        obtain ⟨i, hi⟩ := List.mem_iff_getElem?.mp hth
        have hlt := (List.getElem?_eq_some_iff.mp hi).1
        have hi' : (st.threads ++ [⟨x, [], p⟩])[i]? = some th :=
          (List.getElem?_append_left hlt).trans hi
        have := hsep.eq_index hi' hnew hkey (key_of_command hmine)
        omega
      have hspawned := account_spawned (p := p) hreaches hplaced hmine hothers
      exact hspawned
  | @session i k invite th th' g g' e r sh hget harg harg' hstage hstage' hloop hperf =>
    rcases getElem?_set_cases hj with ⟨-, hj⟩ | ⟨-, rfl⟩
    · obtain ⟨hs, hhs, haccount⟩ := hI hsep₀ hj hmine
      rw [phase_concat]
      refine ⟨hs, hhs, haccount.session hperf fun hdone he => ?_⟩
      subst he
      obtain rfl := stage_of_done hreaches hsep₀ hget harg hstage hdone
      cases hloop with
      | other r he => cases he
    · rw [harg', harg] at hmine
      cases hmine
  | @handler i th th' hs p e r sh hget harg harg' hstage hstage' hmove hperf =>
    rcases getElem?_set_cases hj with ⟨hji, hj⟩ | ⟨-, rfl⟩
    · obtain ⟨hs₀, hhs₀, haccount⟩ := hI hsep₀ hj hmine
      refine ⟨hs₀, hhs₀, haccount.elsewhere (fun hkey => ?_) hmove hperf⟩
      rw [harg] at hkey
      exact hji (hsep₀.eq_index hj hget (key_of_command hmine) hkey)
    · rw [harg'] at hmine
      obtain ⟨hs₀, hhs₀, haccount⟩ := hI hsep₀ hget hmine
      obtain rfl := DialogStage.handler.inj (hstage.symm.trans hhs₀)
      rw [← harg] at hmine
      exact ⟨_, hstage', haccount.own hreaches hplaced.results hmine hmove hperf hpatient⟩

theorem handler_enabled (capacity : ℕ) (sh : DialogShared) (e : HandlerOp) :
    ∃ r sh', handleHandler capacity sh e r = some sh' := by
  cases e with
  | lookup leg id => cases leg <;> exact ⟨_, sh, if_pos rfl⟩
  | hasDialog k leg => cases leg <;> exact ⟨_, sh, if_pos rfl⟩
  | enqueue k c => exact ⟨.timeout, sh, rfl⟩
  | awaitResult k t => exact ⟨.timer, sh, rfl⟩
  | beginReInvite k => exact ⟨_, _, if_pos rfl⟩
  | clearPendingCSeq k cseq => exact ⟨_, _, if_pos rfl⟩
  | clearPending k t => exact ⟨_, _, if_pos rfl⟩
  | awaitPending k t => exact ⟨.acks, sh, rfl⟩
  | finishReInvite k => exact ⟨(), _, rfl⟩
  | readBye leg => exact ⟨true, sh, rfl⟩
  | readRequest leg => exact ⟨true, sh, rfl⟩
  | readAck => exact ⟨true, sh, rfl⟩
  | respond t response => exact ⟨(), sh, rfl⟩
  | terminate t => exact ⟨(), sh, rfl⟩

/-! ## The handlers come to an end -/

theorem hop_ends : Ends (fun _ => True) (hop e) := Prog.ends_call trivial

theorem findSession_ends (leg : Leg) (m : Incoming) : Ends (fun _ => True) (findSession leg m) := by
  unfold findSession
  split
  · exact Prog.ends_pure
  · exact hop_ends

theorem dispatch_ends (k : ℕ) (leg : Leg) (c : SessionCommand) (m : Incoming) :
    Ends (fun _ => True) (dispatch k leg c m) := by
  refine Prog.ends_bind hop_ends fun read => ?_
  split
  · exact hop_ends
  · refine Prog.ends_bind (Prog.ends_bind (Prog.ends_bind hop_ends fun _ => Prog.ends_pure) fun _ => ?_)
      fun result => ?_
    · refine Prog.ends_bind hop_ends fun finished => ?_
      cases finished <;> exact Prog.ends_pure
    · split
      · exact hop_ends
      · exact Prog.ends_pure

theorem inDialog_ends {leg other : Leg} {m : Incoming} {p : ℕ → Prog handlerSig Unit}
    (hp : ∀ k, Ends (fun _ => True) (p k)) : Ends (fun _ => True) (do
      let some session ← findSession leg m
        | refuseUnknown m
      if !(← hop (.hasDialog session other)) then refuseUnknown m else p session) := by
  refine Prog.ends_bind (findSession_ends leg m) fun found => ?_
  cases found with
  | none => exact hop_ends
  | some k =>
    refine Prog.ends_bind hop_ends fun dialog => ?_
    split
    · exact hop_ends
    · exact hp k

theorem command_ends (h : x.command.isSome = true) :
    ∃ p, (dialogSystem cfg C n).prog x = Prog.inr p ∧ Ends (fun _ => True) p := by
  cases x with
  | reInvite m =>
    refine ⟨handleReInvite m, rfl, inDialog_ends fun k => Prog.ends_bind hop_ends fun begun => ?_⟩
    split
    · exact hop_ends
    · exact Prog.ends_bind (dispatch_ends ..) fun _ => hop_ends
  | refer m =>
    refine ⟨handleRefer m, rfl, inDialog_ends fun k => ?_⟩
    split
    · exact hop_ends
    · exact dispatch_ends ..
  | notify m => exact ⟨handleNotify m, rfl, inDialog_ends fun k => dispatch_ends ..⟩
  | _ => cases h

theorem command_moves (h : (dialogSystem cfg C n).Reaches .initial ls st) {i : ℕ} {th : DialogThread}
    (hget : st.threads[i]? = some th) (hcommand : th.arg.command.isSome = true)
    (hlive : th.live = true) : ∃ ev st', (dialogSystem cfg C n).Step st (.act i ev) st' := by
  obtain ⟨p, hprog, hends⟩ : ∃ p, (dialogSystem cfg C n).prog th.arg = Prog.inr p ∧
    Ends (fun _ => True) p :=
    command_ends hcommand
  obtain ⟨q, hrest, hpath, -⟩ := handler_path h (List.mem_of_getElem? hget) hprog
  cases q with
  | pure a =>
    rw [Thread.live, hrest] at hlive
    cases hlive
  | diverge => exact absurd hpath (hends.not_diverge _)
  | op e k =>
    obtain ⟨r, sh, hperf⟩ := handler_enabled cfg.mailboxSize.toNat st.shared e
    exact ⟨_, _, .act st i th (.inr e) _ r sh hget hrest hperf⟩

theorem concerns_of_transaction (hcommand : x.command.isSome = true) (ht : x.transaction = some t) :
    x.command.any (concerns t) = true := by
  cases x with
  | reInvite m => exact decide_eq_true ht
  | refer m => exact decide_eq_true ht
  | notify m => exact decide_eq_true ht
  | _ => cases hcommand

end Run

/-- A re-INVITE, REFER or NOTIFY gets at most one final response, and has got it when its handler has
returned, if no handler gives up on a command that a session took or may still take. The handler always
has a next step until it returns. -/
theorem one_final_response (cfg : Config) (C : Codecs) (n : ℕ) (ls : List DialogLabel) (st : DialogState)
    (h : (dialogSystem cfg C n).ReachesUnder Patient .initial ls st) (hsep : Separate st.threads)
    (i : ℕ) (th : DialogThread) (hget : st.threads[i]? = some th)
    (hcommand : th.arg.command.isSome = true) (t : ℕ) (ht : th.arg.transaction = some t) :
    ls.countP (respondsFinally t) ≤ 1 ∧
      (th.live = false → ls.countP (respondsFinally t) = 1) ∧
      (th.live = true → ∃ ev st', (dialogSystem cfg C n).Step st (.act i ev) st') := by
  have hmem := List.mem_of_getElem? hget
  obtain ⟨hs, hstage, haccount⟩ :=
    account_of_reaches h hsep hget (concerns_of_transaction hcommand ht)
  obtain ⟨hle, hone⟩ := haccount.finals
  obtain ⟨-, hfinals⟩ := placed_of_reaches h.reaches hsep t
  rw [countP_respondsFinally, hfinals]
  refine ⟨hle, fun hlive => hone ?_, command_moves h.reaches hget hcommand⟩
  obtain ⟨-, -, hreturned⟩ := (tracked_of_reaches h.reaches).returned hmem hlive
  replace hreturned : (stageOf th).returned := hreturned
  have hfits := fits_of_reaches h.reaches hmem
  rw [hstage] at hreturned hfits
  apply hreturned.2
  rwa [hfits.party]

section Call

/-- Alice's REFER waits behind the loop until its handler gives up; then the loop takes it. -/
def impatientRun : List (DialogState × DialogLabel) × DialogState :=
  dialogRun smallConfig (callMoves 20 ++
    .spawn (.refer aliceRefer) :: List.replicate 6 (handlerMove 1 (some 0) .sent .timer) ++
    List.replicate 3 (sessionMove 0 (.command (.refer aliceRefer.request))))

/-- The loop takes Alice's REFER while its handler waits. -/
def patientRun : List (DialogState × DialogLabel) × DialogState :=
  dialogRun smallConfig (callMoves 20 ++
    .spawn (.refer aliceRefer) :: List.replicate 4 (handlerMove 1 (some 0) .sent .timer) ++
    List.replicate 4 (sessionMove 0 (.command (.refer aliceRefer.request))) ++
    [handlerMove 1 (some 0) .sent .result])

/-- A handler that gives up on its command answers the request, and so does the session that takes the
command later. -/
theorem both_answer : newEngine smallConfig = .ok () ∧
    ∃ ls st, (dialogSystem smallConfig phoneCodecs 2).Reaches .initial ls st ∧ Separate st.threads ∧
      (∃ th ∈ st.threads, th.arg = .refer aliceRefer ∧ th.live = false) ∧
      ls.countP (respondsFinally aliceRefer.request.transaction) = 2 := by
  obtain ⟨hstarts, hseparate, hreturned, htwo⟩ : impatientRun.1.all startsWell = true ∧
      (impatientRun.2.threads.map (·.arg.key)).Pairwise (fun x y => x = none ∨ x ≠ y) ∧
      (∃ th ∈ impatientRun.2.threads, th.arg = .refer aliceRefer ∧ th.live = false) ∧
      (System.labels impatientRun).countP (respondsFinally aliceRefer.request.transaction) = 2 := by
    decide +kernel
  have hrun := dialogRun_reaches (P := fun _ _ => True) hstarts fun _ _ => trivial
  exact ⟨by decide, _, _, hrun.reaches, hseparate, hreturned, htwo⟩

theorem one_final_response_refer : (∃ th ∈ patientRun.2.threads, th.arg = .refer aliceRefer ∧
      th.live = false) ∧
    (System.labels patientRun).countP (respondsFinally aliceRefer.request.transaction) = 1 := by
  obtain ⟨hstarts, hpatient, hseparate, th, hmem, harg, hlive⟩ :
      patientRun.1.all startsWell = true ∧ (∀ p ∈ patientRun.1, givesUp p.2 = none) ∧
      (patientRun.2.threads.map (·.arg.key)).Pairwise (fun x y => x = none ∨ x ≠ y) ∧
      ∃ th ∈ patientRun.2.threads, th.arg = .refer aliceRefer ∧ th.live = false := by
    decide +kernel
  have hrun := dialogRun_reaches (P := Patient) hstarts fun p hp t ht => by
    rw [hpatient p hp] at ht
    cases ht
  obtain ⟨i, hget⟩ := List.mem_iff_getElem?.mp hmem
  obtain ⟨-, hone, -⟩ := one_final_response smallConfig phoneCodecs 2 _ _ hrun hseparate i th hget
    (by rw [harg]; rfl) aliceRefer.request.transaction (by rw [harg]; rfl)
  exact ⟨⟨th, hmem, harg, hlive⟩, hone hlive⟩

end Call

end AixvolinkPbx.B2bua
