import AixvolinkPbx.B2bua.Requests

/-!
# The pending re-INVITE of a session

The fields that `pendingMu` guards are written by the goroutine of the session, by handlers of
re-INVITEs and ACKs, and by watchers. Only the goroutine of a session makes a re-INVITE the pending one,
so from the moment it found none pending to the moment it sets its own there is none (`Pends`). Every
command of a session, and every pending re-INVITE, comes from the handler of its request (`Routed`,
`owner_of_pending`).
-/

namespace AixvolinkPbx.B2bua

open Sdp (Codecs)

/-! ## What steps do to the guarded fields -/

section Effects

variable {sh sh' : DialogShared} {k capacity : ℕ}

theorem pending_update {s : SessionShared} (hs : s.pending = (sh.sessions k).pending) (j : ℕ) :
    ((sh.update k s).sessions j).pending = (sh.sessions j).pending := update_field (·.pending) hs j

theorem busy_update {s : SessionShared} (hs : s.reInviteBusy = (sh.sessions k).reInviteBusy) (j : ℕ) :
    ((sh.update k s).sessions j).reInviteBusy = (sh.sessions j).reInviteBusy :=
  update_field (·.reInviteBusy) hs j

variable {e : EngineOp} {r : engineSig.Ans e}

theorem SessionStep.pending (h : SessionStep sh k e r sh') (j : ℕ) :
    (sh'.sessions j).pending = (sh.sessions j).pending ∨ j = k ∧
      ((∃ t, e = .clearPending t ∧ (sh.sessions j).pendingReInvite = some t ∧
          (sh'.sessions j).pending = none) ∨
        (e = .takePending ∧ (sh'.sessions j).pending = none) ∨
        ∃ t cseq, e = .setPending t cseq ∧ (sh'.sessions j).pending = some (t, cseq)) := by
  cases h with
  | take _ => exact .inl (pending_update (by rfl) j)
  | closeDone => exact .inl (pending_update (by rfl) j)
  | @clear t hpending =>
    by_cases hj : j = k
    · subst hj
      rw [update_same]
      exact .inr ⟨rfl, .inl ⟨t, rfl, hpending, rfl⟩⟩
    · rw [update_ne hj]
      exact .inl rfl
  | set t cseq =>
    by_cases hj : j = k
    · subst hj
      refine .inr ⟨rfl, .inr (.inr ⟨t, cseq, rfl, ?_⟩)⟩
      show ((sh.update j _).sessions j).pending = _
      rw [update_same]
    · refine .inl ?_
      show ((sh.update k _).sessions j).pending = _
      rw [update_ne hj]
  | takePending =>
    by_cases hj : j = k
    · subst hj
      rw [update_same]
      exact .inr ⟨rfl, .inr (.inl ⟨rfl, rfl⟩)⟩
    · rw [update_ne hj]
      exact .inl rfl
  | other he hsessions =>
    obtain ⟨outbound, hj⟩ := hsessions j
    rw [hj]
    exact .inl rfl
  | _ => exact .inl rfl

/-- A handler can only end a pending re-INVITE: the one with the CSeq of an ACK, or the one that a watcher
was started for. -/
theorem HandlerStep.pending {e : HandlerOp} {r : handlerSig.Ans e} (h : HandlerStep capacity sh e r sh')
    (j : ℕ) :
    (sh'.sessions j).pending = (sh.sessions j).pending ∨ (sh'.sessions j).pending = none ∧
      ((∃ t cseq, e = .clearPendingCSeq j cseq ∧ (sh.sessions j).pending = some (t, cseq)) ∨
        ∃ t, e = .clearPending j t ∧ (sh.sessions j).pendingReInvite = some t) := by
  cases h with
  | sent => exact .inl (pending_update (by rfl) j)
  | begun => exact .inl (pending_update (by rfl) j)
  | finished k => exact .inl (pending_update (by rfl) j)
  | acknowledged k t cseq hpending =>
    by_cases hj : j = k
    · subst hj
      rw [update_same]
      exact .inr ⟨rfl, .inl ⟨t, cseq, rfl, hpending⟩⟩
    · rw [update_ne hj]
      exact .inl rfl
  | clear k t hpending =>
    by_cases hj : j = k
    · subst hj
      rw [update_same]
      exact .inr ⟨rfl, .inr ⟨t, rfl, hpending⟩⟩
    · rw [update_ne hj]
      exact .inl rfl
  | _ => exact .inl rfl

theorem SessionStep.busy (h : SessionStep sh k e r sh') (j : ℕ) :
    (sh'.sessions j).reInviteBusy = (sh.sessions j).reInviteBusy := by
  cases h with
  | take _ => exact busy_update (by rfl) j
  | closeDone => exact busy_update (by rfl) j
  | clear _ => exact busy_update (by rfl) j
  | set t cseq => exact busy_update (s := { sh.sessions k with pending := some (t, cseq) }) (by rfl) j
  | takePending => exact busy_update (by rfl) j
  | other he hsessions =>
    obtain ⟨outbound, hj⟩ := hsessions j
    rw [hj]
  | _ => rfl

theorem HandlerStep.busy {e : HandlerOp} {r : handlerSig.Ans e} (h : HandlerStep capacity sh e r sh')
    (j : ℕ) :
    ((sh'.sessions j).reInviteBusy = (sh.sessions j).reInviteBusy ∧
        (⟨e, r⟩ : Event handlerSig) ≠ ⟨.beginReInvite j, true⟩ ∧ e ≠ .finishReInvite j) ∨
      ((⟨e, r⟩ : Event handlerSig) = ⟨.beginReInvite j, true⟩ ∧
        (sh.sessions j).reInviteBusy = false ∧ (sh'.sessions j).reInviteBusy = true) ∨
      (e = .finishReInvite j ∧ (sh'.sessions j).reInviteBusy = false) := by
  cases h with
  | sent => exact .inl ⟨busy_update (by rfl) j, nofun, nofun⟩
  | begun k hbusy hpending =>
    by_cases hj : j = k
    · subst hj
      rw [update_same]
      exact .inr (.inl ⟨rfl, hbusy, rfl⟩)
    · rw [update_ne hj]
      refine .inl ⟨rfl, fun hev => ?_, nofun⟩
      exact hj (HandlerOp.beginReInvite.inj (Event.mk.inj hev).1).symm
  | finished k =>
    by_cases hj : j = k
    · subst hj
      rw [update_same]
      exact .inr (.inr ⟨rfl, rfl⟩)
    · rw [update_ne hj]
      exact .inl ⟨rfl, nofun, fun he => hj (HandlerOp.finishReInvite.inj he).symm⟩
  | refused k _ =>
    refine .inl ⟨rfl, fun hev => ?_, nofun⟩
    obtain ⟨hop, hans⟩ := Event.mk.inj hev
    obtain rfl := HandlerOp.beginReInvite.inj hop
    cases eq_of_heq hans
  | acknowledged => exact .inl ⟨busy_update (by rfl) j, nofun, nofun⟩
  | clear => exact .inl ⟨busy_update (by rfl) j, nofun, nofun⟩
  | _ => exact .inl ⟨rfl, nofun, nofun⟩

theorem SessionStep.watchers (h : SessionStep sh k e r sh') {w : ℕ × ℕ} (hw : w ∈ sh.watchers) :
    w ∈ sh'.watchers := by
  cases h with
  | set t cseq => exact List.mem_cons_of_mem _ hw
  | other he hsessions hresults hwatchers => rwa [hwatchers]
  | _ => exact hw

theorem HandlerStep.watchers {e : HandlerOp} {r : handlerSig.Ans e}
    (h : HandlerStep capacity sh e r sh') : sh'.watchers = sh.watchers := by
  cases h <;> rfl

end Effects

/-! ## Where commands come from -/

section Run

variable {cfg : Config} {C : Codecs} {n : ℕ} {ls : List DialogLabel} {st st' : DialogState}
  {l : DialogLabel} {capacity : ℕ}

theorem DialogStep.thread (h : DialogStep capacity st l st') {P : Prop} {th : DialogThread}
    (hth : th ∈ st'.threads) (hold : th ∈ st.threads → P)
    (hmoved : ∀ th₀ ∈ st.threads, th.arg = th₀.arg → P)
    (hspawn : ∀ x p, th = ⟨x, [], p⟩ → x.started st.shared → P) : P := by
  cases h with
  | spawn x p hx =>
    rcases List.mem_append.mp hth with hth | hth
    · exact hold hth
    · exact hspawn x p (List.mem_singleton.mp hth) hx
  | session hget harg harg' =>
    rcases List.mem_or_eq_of_mem_set hth with hth | rfl
    · exact hold hth
    · exact hmoved _ (List.mem_of_getElem? hget) harg'
  | handler hget harg harg' =>
    rcases List.mem_or_eq_of_mem_set hth with hth | rfl
    · exact hold hth
    · exact hmoved _ (List.mem_of_getElem? hget) harg'

theorem DialogStep.stays (h : DialogStep capacity st l st') {th : DialogThread}
    (hth : th ∈ st.threads) : ∃ th' ∈ st'.threads, th'.arg = th.arg := by
  cases h with
  | spawn => exact ⟨th, List.mem_append_left _ hth, rfl⟩
  | @session i k invite th₀ th' g g' e r sh hget harg harg' =>
    rcases mem_set_or_eq th' hget hth with hth | rfl
    · exact ⟨th, hth, rfl⟩
    · exact ⟨th', List.mem_set (List.getElem?_eq_some_iff.mp hget).1 _, harg'⟩
  | @handler i th₀ th' hs p e r sh hget harg harg' =>
    rcases mem_set_or_eq th' hget hth with hth | rfl
    · exact ⟨th, hth, rfl⟩
    · exact ⟨th', List.mem_set (List.getElem?_eq_some_iff.mp hget).1 _, harg'⟩

theorem DialogStep.watchers (h : DialogStep capacity st l st') {w : ℕ × ℕ}
    (hw : w ∈ st.shared.watchers) : w ∈ st'.shared.watchers := by
  cases h with
  | spawn => exact hw
  | session hget harg harg' hstage hstage' hloop hperf => exact hperf.watchers hw
  | handler hget harg harg' hstage hstage' hmove hperf =>
    show w ∈ DialogShared.watchers _
    rwa [hperf.watchers]

theorem started_of_reaches (h : (dialogSystem cfg C n).Reaches .initial ls st) {th : DialogThread}
    (hth : th ∈ st.threads) : th.arg.started st.shared := by
  revert th
  refine Steps.invariant_of_run (I := fun _ (st : DialogState) => ∀ {th : DialogThread},
    th ∈ st.threads → th.arg.started st.shared) ?_ h (fun hth => absurd hth List.not_mem_nil)
  intro ls st l st' hrun hI hstep th hth
  have hinv := dialogStep hrun hstep
  have later : ∀ {x : DialogParty}, x.started st.shared → x.started st'.shared := by
    intro x hx
    cases x with
    | watch k t => exact hinv.watchers hx
    | _ => exact hx
  refine hinv.thread hth (fun hold => later (hI hold)) (fun th₀ hth₀ harg => ?_) fun x p hnew hx => ?_
  · rw [harg]
    exact later (hI hth₀)
  · rw [hnew]
    exact later hx

def Sent (threads : List DialogThread) (c : SessionCommand) : Prop :=
  ∃ th ∈ threads, th.arg.command = some c

theorem Sent.step {c : SessionCommand} (h : Sent st.threads c)
    (hstep : DialogStep capacity st l st') : Sent st'.threads c := by
  obtain ⟨th, hth, hc⟩ := h
  obtain ⟨th', hth', harg⟩ := hstep.stays hth
  exact ⟨th', hth', harg ▸ hc⟩

/-- The commands in the mailboxes and with the sessions are those of handlers. -/
structure Routed (st : DialogState) : Prop where
  queued : ∀ k, ∀ c ∈ (st.shared.sessions k).mailbox, c.transaction ≠ none → Sent st.threads c
  held : ∀ th ∈ st.threads, ∀ c, (stageOf th).command = some c → Sent st.threads c

theorem LoopStep.command {g g' : LoopStage} {c : SessionCommand} (h : LoopStep g e r g')
    (hc : g'.command = some c) :
    g.command = some c ∨
      (⟨e, r⟩ : Event engineSig) = ⟨.select, .command c⟩ ∧ c.transaction ≠ none := by
  cases h with
  | select r =>
    cases r with
    | command c' =>
      cases c' with
      | hangup origin => cases hc
      | _ =>
        cases hc
        exact .inr ⟨rfl, nofun⟩
    | _ => cases hc
  | answer r hcommand => exact .inl (hcommand.trans hc)
  | close htransaction => cases hc
  | take r hg => cases hc
  | _ => exact .inl hc

theorem routed_step (hstep : DialogStep capacity st l st') (h : Routed st) : Routed st' := by
  have hsent : ∀ {c : SessionCommand}, Sent st.threads c → Sent st'.threads c :=
    fun hc => hc.step hstep
  cases hstep with
  | spawn x p hx =>
    refine ⟨fun k c hc ht => hsent (h.queued k c hc ht), fun th hth c hc => ?_⟩
    rcases List.mem_append.mp hth with hth | hth
    · exact hsent (h.held th hth c hc)
    · rw [List.mem_singleton.mp hth] at hc
      cases x <;> cases hc
  | @session i k invite th th' g g' e r sh hget harg harg' hstage hstage' hloop hperf =>
    refine ⟨fun j c hc ht => hsent (h.queued j c ?_ ht), fun th₀ hth₀ c hc => hsent ?_⟩
    · rcases hperf.mailbox j with hkept | ⟨-, c', -, htaken⟩
      · rwa [← hkept]
      · rw [htaken]
        exact List.mem_cons_of_mem _ hc
    · rcases List.mem_or_eq_of_mem_set hth₀ with hth₀ | rfl
      · exact h.held th₀ hth₀ c hc
      · rw [hstage'] at hc
        rcases hloop.command hc with hc | ⟨hev, ht⟩
        · exact h.held th (List.mem_of_getElem? hget) c (by rw [hstage]; exact hc)
        · obtain ⟨rfl, hr⟩ := Event.mk.inj hev
          obtain rfl := eq_of_heq hr
          cases hperf with
          | take hmailbox => exact h.queued k c (by rw [hmailbox]; exact List.mem_cons_self) ht
          | other he => cases he
  | @handler i th th' hs p e r sh hget harg harg' hstage hstage' hmove hperf =>
    refine ⟨fun j c hc ht => ?_, fun th₀ hth₀ c hc => ?_⟩
    · rcases hperf.mailbox j with hkept | ⟨c', hev, hput⟩
      · exact hsent (h.queued j c (hkept ▸ hc) ht)
      · replace hc : c ∈ (sh.sessions j).mailbox := hc
        rw [hput] at hc
        rcases List.mem_append.mp hc with hc | hc
        · exact hsent (h.queued j c hc ht)
        · obtain rfl := List.mem_singleton.mp hc
          obtain ⟨rfl, hr⟩ := Event.mk.inj hev
          obtain rfl := eq_of_heq hr
          obtain ⟨-, ⟨hcommand, -⟩ | hnone⟩ := hmove.sent
          · rw [harg] at hcommand
            exact hsent ⟨th, List.mem_of_getElem? hget, hcommand⟩
          · exact absurd hnone ht
    · rcases List.mem_or_eq_of_mem_set hth₀ with hth₀ | rfl
      · exact hsent (h.held th₀ hth₀ c hc)
      · rw [hstage'] at hc
        cases hc

theorem routed_of_reaches (h : (dialogSystem cfg C n).Reaches .initial ls st) : Routed st := by
  refine Steps.invariant_of_run (I := fun _ (st : DialogState) => Routed st) ?_ h
    ⟨fun _ _ hc => absurd hc List.not_mem_nil, fun _ hth => absurd hth List.not_mem_nil⟩
  intro ls st l st' hrun hI hstep
  exact routed_step (dialogStep hrun hstep) hI

theorem reInvite_of_command {x : DialogParty} {request : Request}
    (h : x.command = some (.reInvite request)) : ∃ m, x = .reInvite m ∧ m.request = request := by
  cases x with
  | reInvite m => exact ⟨m, rfl, SessionCommand.reInvite.inj (Option.some.inj h)⟩
  | refer m => cases h
  | notify m => cases h
  | _ => cases h

/-- The pending re-INVITE of a session is the one of a handler, with its CSeq. -/
theorem owner_of_pending (h : (dialogSystem cfg C n).Reaches .initial ls st) {k t : ℕ} {cseq : UInt32}
    (hpending : (st.shared.sessions k).pending = some (t, cseq)) :
    ∃ th ∈ st.threads, ∃ m, th.arg = .reInvite m ∧ m.request.transaction = t ∧
      m.request.cseq = cseq := by
  revert hpending
  refine Steps.invariant_of_run (I := fun _ (st : DialogState) =>
    (st.shared.sessions k).pending = some (t, cseq) → ∃ th ∈ st.threads, ∃ m, th.arg = .reInvite m ∧
      m.request.transaction = t ∧ m.request.cseq = cseq) ?_ h nofun
  intro ls st l st' hrun hI hstep hpending
  have hinv := dialogStep hrun hstep
  have later : (∃ th ∈ st.threads, ∃ m, th.arg = .reInvite m ∧ m.request.transaction = t ∧
      m.request.cseq = cseq) → ∃ th ∈ st'.threads, ∃ m, th.arg = .reInvite m ∧
        m.request.transaction = t ∧ m.request.cseq = cseq := by
    rintro ⟨th, hth, m, harg, hm⟩
    obtain ⟨th', hth', harg'⟩ := hinv.stays hth
    exact ⟨th', hth', m, harg'.trans harg, hm⟩
  apply later
  cases hinv with
  | spawn => exact hI hpending
  | @session i k' invite th th' g g' e r sh hget harg harg' hstage hstage' hloop hperf =>
    replace hpending : (sh.sessions k).pending = some (t, cseq) := hpending
    rcases hperf.pending k with hkept | ⟨-, ⟨-, -, -, hnone⟩ | ⟨-, hnone⟩
      | ⟨t', cseq', rfl, hset⟩⟩
    · exact hI (hkept.symm.trans hpending)
    · cases hnone.symm.trans hpending
    · cases hnone.symm.trans hpending
    · obtain ⟨rfl, rfl⟩ := Prod.mk.inj (Option.some.inj (hset.symm.trans hpending))
      cases hloop with
      | set request =>
        obtain ⟨th₀, hth₀, hc⟩ := (routed_of_reaches hrun).held th (List.mem_of_getElem? hget)
          (.reInvite request) (by rw [hstage]; rfl)
        obtain ⟨m, hm, rfl⟩ := reInvite_of_command hc
        exact ⟨th₀, hth₀, m, hm, rfl, rfl⟩
      | other r he => cases he
  | handler hget harg harg' hstage hstage' hmove hperf =>
    rcases hperf.pending k with hkept | ⟨hnone, -⟩
    · exact hI (hkept.symm.trans hpending)
    · cases hnone.symm.trans hpending

/-! ## No re-INVITE pending -/

/-- What a session knows of its pending re-INVITE. -/
def Pends (s : SessionShared) : LoopStage → Prop
  | .polling _ t => s.pending = none ∨ s.pendingReInvite = some t
  | .acked _ t => s.pending = none ∨ s.pendingReInvite = some t
  | .free _ => s.pending = none
  | _ => True

theorem Pends.mono {s s' : SessionShared} {g : LoopStage} (h : Pends s g)
    (hs : s'.pending = s.pending ∨ s'.pending = none) : Pends s' g := by
  rcases hs with hs | hs
  · have hre : s'.pendingReInvite = s.pendingReInvite := congrArg (Option.map Prod.fst) hs
    cases g with
    | polling request t => rwa [Pends, hs, hre]
    | acked request t => rwa [Pends, hs, hre]
    | free request => exact hs.trans h
    | _ => trivial
  · cases g with
    | polling request t => exact .inl hs
    | acked request t => exact .inl hs
    | free request => exact hs
    | _ => trivial

theorem pending_eq_none {s : SessionShared} : s.pendingReInvite = none ↔ s.pending = none :=
  Option.map_eq_none_iff

theorem Pends.next {sh sh' : DialogShared} {k : ℕ} {g g' : LoopStage} (h : Pends (sh.sessions k) g)
    (hloop : LoopStep g e r g') (hperf : SessionStep sh k e r sh') : Pends (sh'.sessions k) g' := by
  cases hloop with
  | select r =>
    cases r with
    | command c => cases c <;> trivial
    | _ => trivial
  | found request t =>
    generalize hr : some t = found at hperf
    cases hperf with
    | readPending => exact .inr hr.symm
    | other he => cases he
  | unfound request =>
    generalize hr : none = found at hperf
    cases hperf with
    | readPending => exact pending_eq_none.mp hr.symm
    | other he => cases he
  | unacked request t =>
    cases hperf with
    | pollAcks t r => exact h
    | other he => cases he
  | acked request t =>
    cases hperf with
    | pollAcks t r => exact h
    | other he => cases he
  | clear =>
    cases hperf with
    | clear hpending =>
      rw [update_same]
      rfl
    | keep hpending => exact h.resolve_right hpending
    | other he => cases he
  | relay body headers r hrelays =>
    cases hperf with
    | unanswered => exact h
    | answered => exact h
    | other he => cases he
  | other r he =>
    refine h.mono (.inl ((hperf.pending k).resolve_right ?_))
    rintro ⟨-, ⟨t, rfl, -⟩ | ⟨rfl, -⟩ | ⟨t, cseq, rfl, -⟩⟩ <;> cases he
  | _ => trivial

theorem pends_of_reaches (h : (dialogSystem cfg C n).Reaches .initial ls st)
    (hsep : Separate st.threads) {i k : ℕ} {invite : Invite} {th : DialogThread} {g : LoopStage}
    (hget : st.threads[i]? = some th) (harg : th.arg = .session k invite)
    (hstage : stageOf th = .session g) : Pends (st.shared.sessions k) g := by
  revert i th g
  revert hsep
  refine Steps.invariant_of_run (I := fun _ (st : DialogState) => Separate st.threads →
    ∀ {i : ℕ} {th : DialogThread} {g : LoopStage}, st.threads[i]? = some th →
      th.arg = .session k invite → stageOf th = .session g → Pends (st.shared.sessions k) g) ?_ h
    (fun _ _ _ _ hget => by simp at hget)
  intro ls st l st' hrun hI hstep hsep j th₀ g₀ hj harg₀ hstage₀
  have hinv := dialogStep hrun hstep
  have hsep₀ := hsep.of_step hinv
  cases hinv with
  | spawn x p hx =>
    by_cases hold : j < st.threads.length
    · rw [List.getElem?_append_left hold] at hj
      exact hI hsep₀ hj harg₀ hstage₀
    · rw [List.getElem?_append_right (by omega)] at hj
      obtain rfl := List.mem_singleton.mp (List.mem_of_getElem? hj)
      obtain rfl : x = .session k invite := harg₀
      obtain rfl := DialogStage.session.inj hstage₀
      trivial
  | @session i k' invite' th th' g g' e r sh hget harg harg' hstage hstage' hloop hperf =>
    rcases getElem?_set_cases hj with ⟨hji, hj⟩ | ⟨rfl, rfl⟩
    · -- another session
      have hk : k ≠ k' := by
        rintro rfl
        exact hji (hsep₀.session hj hget harg₀ harg)
      refine (hI hsep₀ hj harg₀ hstage₀).mono (.inl ?_)
      exact (hperf.pending k).resolve_right fun hown => hk hown.1
    · obtain ⟨rfl, rfl⟩ := DialogParty.session.inj (harg.symm.trans (harg'.symm.trans harg₀))
      obtain rfl := DialogStage.session.inj (hstage'.symm.trans hstage₀)
      exact (hI hsep₀ hget harg hstage).next hloop hperf
  | @handler i th th' hs p e r sh hget harg harg' hstage hstage' hmove hperf =>
    rcases getElem?_set_cases hj with ⟨-, hj⟩ | ⟨-, rfl⟩
    · exact (hI hsep₀ hj harg₀ hstage₀).mono ((hperf.pending k).imp_right And.left)
    · cases hstage'.symm.trans hstage₀

end Run

end AixvolinkPbx.B2bua
