import AixvolinkPbx.B2bua.Pending
import AixvolinkPbx.B2bua.Responses

/-!
# The gate of the re-INVITEs

1. From the moment a session has made a re-INVITE its pending one until the end of it is observed, it
   stays the pending one, and the session sends no other re-INVITE on (`Kept`).
2. ACKs and ends of other re-INVITEs leave it alone.
3. `reInviteBusy` is set exactly while a handler of a re-INVITE is between `beginReInvite` and
   `finishReInvite` (`gate_account`), so that the next re-INVITE is let in when there is none and none
   is pending.
-/

namespace AixvolinkPbx.B2bua

open Sdp (Codecs)

/-! ## The pending re-INVITE is kept -/

/-- The end of the pending re-INVITE `(t, cseq)` of session `k` is observed: its ACK, by the loop, a
watcher or the handler of ACKs, the end of its transaction, or the end of the session, whose goroutine is
thread `i`. -/
def observes (i k t : ℕ) (cseq : UInt32) : DialogLabel → Bool
  | .act _ ⟨.inl (.pollAcks t'), true⟩ => t' = t
  | .act j ⟨.inl .takePending, _⟩ => j = i
  | .act _ ⟨.inr (.clearPendingCSeq k' cseq'), _⟩ => k' = k && cseq' = cseq
  | .act _ ⟨.inr (.awaitPending k' t'), .acks⟩ => k' = k && t' = t
  | .act _ ⟨.inr (.awaitPending k' t'), .transactionDone⟩ => k' = k && t' = t
  | _ => false

def relaysInvite (i : ℕ) : DialogLabel → Bool
  | .act j ⟨.inl (.request .callee method _ _), _⟩ => j = i && method = "INVITE"
  | _ => false

/-- Session `k` keeps its pending re-INVITE: its loop is not about to clear it, and no watcher is. -/
structure Kept (i k t : ℕ) (cseq : UInt32) (st : DialogState) : Prop where
  pending : (st.shared.sessions k).pending = some (t, cseq)
  loop : ∃ th invite g, st.threads[i]? = some th ∧ th.arg = .session k invite ∧
    stageOf th = .session g ∧ ∀ request, g ≠ .acked request t
  watcher : ∀ th ∈ st.threads, ∀ hs, stageOf th = .handler hs → hs.party = .watch k t →
    hs.progress ≠ .observed

section Kept

variable {cfg : Config} {C : Codecs} {n i k t : ℕ} {cseq : UInt32} {ls : List DialogLabel}
  {st st' : DialogState} {request : Request} {g' : LoopStage}

theorem LoopStep.of_acked {g : LoopStage} {e : EngineOp} {r : engineSig.Ans e}
    (h : LoopStep g e r g') (hg' : g' = .acked request t) :
    g = .acked request t ∨ (⟨e, r⟩ : Event engineSig) = ⟨.pollAcks t, true⟩ := by
  cases h with
  | select r =>
    cases r with
    | command c => cases c <;> cases hg'
    | _ => cases hg'
  | acked request' t' =>
    obtain ⟨-, rfl⟩ := LoopStage.acked.inj hg'
    exact .inr rfl
  | relay => exact .inl hg'
  | other r he => exact .inl hg'
  | _ => cases hg'

theorem LoopStep.relayed {g : LoopStage} {leg : Leg} {method : String} {body : Sdp.Body}
    {headers : List Header} {r : Option Response}
    (h : LoopStep g (.request leg method body headers) r g') : g.relays leg method = true := by
  cases h with
  | relay body headers r hrelays => exact hrelays
  | other r he => cases he

variable {th : DialogThread} {invite : Invite}

theorem free_of_relay (hrun : (dialogSystem cfg C n).Reaches .initial ls st)
    (hsep : Separate st.threads) {g : LoopStage} (hget : st.threads[i]? = some th)
    (harg : th.arg = .session k invite) (hstage : stageOf th = .session g)
    (hrelays : g.relays .callee "INVITE" = true) :
    (st.shared.sessions k).pending = none := by
  cases g with
  | free request => exact pends_of_reaches hrun hsep hget harg hstage
  | held c =>
    -- a REFER is not an INVITE
    cases c with
    | refer request =>
      have hmethod : "INVITE" = request.method := by simpa [LoopStage.relays] using hrelays
      obtain ⟨th₀, hth₀, hc⟩ := (routed_of_reaches hrun).held th (List.mem_of_getElem? hget)
        (.refer request) (by rw [hstage]; rfl)
      have hstarted := started_of_reaches hrun hth₀
      cases harg₀ : th₀.arg with
      | refer m =>
        rw [harg₀] at hc hstarted
        obtain rfl := SessionCommand.refer.inj (Option.some.inj hc)
        replace hstarted : m.request.method = "REFER" := hstarted
        rw [hstarted] at hmethod
        exact absurd hmethod (by decide)
      | _ =>
        rw [harg₀] at hc
        cases hc
    | notify request => cases hrelays
    | _ => cases hrelays
  | _ => cases hrelays

variable {e : HandlerOp} {r : handlerSig.Ans e} {p : Progress}

theorem ProgressStep.of_observed {hs : HandlerStage} (h : ProgressStep hs e r p)
    (hp : p = .observed) :
    hs.progress = .observed ∨ ∃ k t, hs.party = .watch k t ∧ e = .awaitPending k t ∧
      ((⟨e, r⟩ : Event handlerSig) = ⟨.awaitPending k t, .acks⟩ ∨
        (⟨e, r⟩ : Event handlerSig) = ⟨.awaitPending k t, .transactionDone⟩) := by
  cases h with
  | @observe k t r hparty hr =>
    cases r with
    | acks => exact .inr ⟨k, t, hparty, rfl, .inl rfl⟩
    | transactionDone => exact .inr ⟨k, t, hparty, rfl, .inr rfl⟩
    | sessionDone => exact absurd rfl hr
  | clear r hparty hobserved => exact .inl hobserved
  | enter => exact .inl hp
  | leave r hgate => exact .inl hp
  | ended hparty => exact .inl hp
  | acknowledge => exact .inl hp
  | other r he => exact .inl hp
  | _ => cases hp

theorem pendingReInvite_of_pending {s : SessionShared} (h : s.pending = some (t, cseq)) :
    s.pendingReInvite = some t := by
  unfold SessionShared.pendingReInvite
  rw [h]
  rfl

theorem Kept.spawned (h : Kept i k t cseq st) (x : DialogParty) (p : Prog dialogSig Unit) :
    Kept i k t cseq ⟨st.shared, st.threads ++ [⟨x, [], p⟩]⟩ := by
  obtain ⟨th₀, invite₀, g₀, hget₀, harg₀, hstage₀, hacked⟩ := h.loop
  refine ⟨h.pending, ⟨th₀, invite₀, g₀, ?_, harg₀, hstage₀, hacked⟩,
    fun th hth hs hhs hparty => ?_⟩
  · rw [List.getElem?_append_left (List.getElem?_eq_some_iff.mp hget₀).1]
    exact hget₀
  · rcases List.mem_append.mp hth with hth | hth
    · exact h.watcher th hth hs hhs hparty
    · rw [List.mem_singleton.mp hth] at hhs
      have hstage : stageOf ⟨x, [], p⟩ = x.stage := rfl
      rw [hstage] at hhs
      cases x with
      | session k invite => cases hhs
      | _ =>
        obtain rfl := DialogStage.handler.inj hhs
        simp

variable {sh : DialogShared} {th' : DialogThread}

theorem Kept.elsewhere {j : ℕ} (h : Kept i k t cseq st) (hji : j ≠ i)
    (hpending : (sh.sessions k).pending = (st.shared.sessions k).pending)
    (hwatcher : ∀ hs, stageOf th' = .handler hs → hs.party = .watch k t → hs.progress ≠ .observed) :
    Kept i k t cseq ⟨sh, st.threads.set j th'⟩ := by
  obtain ⟨th₀, invite₀, g₀, hget₀, harg₀, hstage₀, hacked⟩ := h.loop
  refine ⟨hpending.trans h.pending, ⟨th₀, invite₀, g₀, ?_, harg₀, hstage₀, hacked⟩, ?_⟩
  · rw [List.getElem?_set_ne hji]
    exact hget₀
  · intro th hth hs hhs hparty
    rcases List.mem_or_eq_of_mem_set hth with hth | rfl
    · exact h.watcher th hth hs hhs hparty
    · exact hwatcher hs hhs hparty

/-- The session itself can neither clear its pending re-INVITE nor replace it. -/
theorem Kept.own {g : LoopStage} {e : EngineOp} {r : engineSig.Ans e} (h : Kept i k t cseq st)
    (hrun : (dialogSystem cfg C n).Reaches .initial ls st) (hsep : Separate st.threads)
    (hget : st.threads[i]? = some th) (harg : th.arg = .session k invite) (harg' : th'.arg = th.arg)
    (hstage : stageOf th = .session g) (hstage' : stageOf th' = .session g')
    (hloop : LoopStep g e r g') (hperf : SessionStep st.shared k e r sh)
    (hobs : observes i k t cseq (.act i ⟨.inl e, r⟩) = false) :
    Kept i k t cseq ⟨sh, st.threads.set i th'⟩ ∧ relaysInvite i (.act i ⟨.inl e, r⟩) = false := by
  obtain ⟨th₀, invite₀, g₀, hget₀, harg₀, hstage₀, hacked⟩ := h.loop
  cases hget.symm.trans hget₀
  obtain rfl := DialogStage.session.inj (hstage.symm.trans hstage₀)
  refine ⟨⟨?_, ⟨th', invite, g', ?_, harg'.trans harg, hstage', fun request hg' => ?_⟩, ?_⟩, ?_⟩
  · rcases hperf.pending k with hkept | ⟨-, ⟨t', rfl, hp, -⟩ | ⟨rfl, -⟩
      | ⟨t', cseq', rfl, -⟩⟩
    · exact hkept.trans h.pending
    · cases hp.symm.trans (pendingReInvite_of_pending h.pending)
      cases hloop with
      | clear request t r => exact absurd rfl (hacked request)
      | other r he => cases he
    · simp [observes] at hobs
    · cases hloop with
      | set request => cases h.pending.symm.trans (pends_of_reaches hrun hsep hget harg hstage)
      | other r he => cases he
  · exact List.getElem?_set_self (List.getElem?_eq_some_iff.mp hget).1
  · rcases hloop.of_acked hg' with hg | hev
    · exact hacked request hg
    · obtain ⟨rfl, hr⟩ := Event.mk.inj hev
      obtain rfl := eq_of_heq hr
      simp [observes] at hobs
  · intro th₁ hth₁ hs hhs hparty
    rcases List.mem_or_eq_of_mem_set hth₁ with hth₁ | rfl
    · exact h.watcher th₁ hth₁ hs hhs hparty
    · cases hstage'.symm.trans hhs
  · cases hrelays : relaysInvite i (.act i ⟨.inl e, r⟩) with
    | false => rfl
    | true =>
      cases e with
      | request leg method body headers =>
        cases leg with
        | caller => cases hrelays
        | callee =>
          obtain rfl : method = "INVITE" := of_decide_eq_true (Bool.and_eq_true_iff.mp hrelays).2
          have hnone := free_of_relay hrun hsep hget harg hstage hloop.relayed
          cases h.pending.symm.trans hnone
      | _ => cases hrelays

/-- No handler has observed the end of the pending re-INVITE, so that none clears it. -/
theorem Kept.handled {capacity j : ℕ} {hs : HandlerStage} (h : Kept i k t cseq st)
    (hget : st.threads[j]? = some th) (hstage : stageOf th = .handler hs)
    (hstage' : stageOf th' = .handler ⟨hs.party, p, nextGate hs.gate e r⟩)
    (hmove : ProgressStep hs e r p) (hperf : HandlerStep capacity st.shared e r sh)
    (hobs : observes i k t cseq (.act j ⟨.inr e, r⟩) = false) :
    Kept i k t cseq ⟨sh, st.threads.set j th'⟩ := by
  obtain ⟨th₀, invite₀, g₀, hget₀, -, hstage₀, -⟩ := h.loop
  have hmem := List.mem_of_getElem? hget
  have hji : j ≠ i := by
    rintro rfl
    cases hget.symm.trans hget₀
    cases hstage.symm.trans hstage₀
  refine h.elsewhere hji ?_ fun hs₁ hhs₁ hparty hobserved => ?_
  · rcases hperf.pending k with hkept | ⟨-, ⟨t', cseq', rfl, hp⟩ | ⟨t', rfl, hp⟩⟩
    · exact hkept
    · obtain ⟨-, rfl⟩ := Prod.mk.inj (Option.some.inj (hp.symm.trans h.pending))
      simp [observes] at hobs
    · cases hp.symm.trans (pendingReInvite_of_pending h.pending)
      cases hmove with
      | clear r hparty hobserved => exact absurd hobserved (h.watcher th hmem hs hstage hparty)
      | other r he => cases he
  · obtain rfl := DialogStage.handler.inj (hstage'.symm.trans hhs₁)
    replace hparty : hs.party = .watch k t := hparty
    rcases hmove.of_observed hobserved with hold | ⟨k', t', hparty', -, hev⟩
    · exact h.watcher th hmem hs hstage hparty hold
    · obtain ⟨rfl, rfl⟩ := DialogParty.watch.inj (hparty'.symm.trans hparty)
      rcases hev with hev | hev
      · obtain ⟨rfl, hr⟩ := Event.mk.inj hev
        obtain rfl := eq_of_heq hr
        simp [observes] at hobs
      · obtain ⟨rfl, hr⟩ := Event.mk.inj hev
        obtain rfl := eq_of_heq hr
        simp [observes] at hobs

/-- A step in which the end of the pending re-INVITE is not observed keeps it. -/
theorem Kept.step {capacity : ℕ} {l : DialogLabel} (h : Kept i k t cseq st)
    (hrun : (dialogSystem cfg C n).Reaches .initial ls st) (hsep : Separate st.threads)
    (hstep : DialogStep capacity st l st') (hobs : observes i k t cseq l = false) :
    Kept i k t cseq st' ∧ relaysInvite i l = false := by
  obtain ⟨th₀, invite₀, g₀, hget₀, harg₀, -, -⟩ := h.loop
  cases hstep with
  | spawn x p hx => exact ⟨h.spawned x p, rfl⟩
  | @session j k' invite th th' g g' e r sh hget harg harg' hstage hstage' hloop hperf =>
    by_cases hji : j = i
    · subst hji
      cases hget.symm.trans hget₀
      obtain ⟨rfl, rfl⟩ := DialogParty.session.inj (harg.symm.trans harg₀)
      exact h.own hrun hsep hget harg harg' hstage hstage' hloop hperf hobs
    · have hk : k ≠ k' := by
        rintro rfl
        exact hji (hsep.session hget hget₀ harg harg₀)
      constructor
      · refine h.elsewhere hji ((hperf.pending k).resolve_right fun hown => hk hown.1) ?_
        intro hs hhs
        cases hstage'.symm.trans hhs
      · cases e with
        | request leg =>
          cases leg with
          | caller => rfl
          | callee => simp [relaysInvite, hji]
        | _ => rfl
  | handler hget harg harg' hstage hstage' hmove hperf =>
    exact ⟨h.handled hget hstage hstage' hmove hperf hobs, rfl⟩

variable {after : List DialogLabel}

/-- As long as its end is not observed, the pending re-INVITE is kept and no other one is sent on. -/
theorem Kept.run {before : List DialogLabel} (h : Kept i k t cseq st)
    (hrun : (dialogSystem cfg C n).Reaches .initial before st)
    (hafter : Steps (dialogSystem cfg C n).Step st after st') (hsep : Separate st'.threads)
    (hobs : ∀ l ∈ after, observes i k t cseq l = false) :
    Kept i k t cseq st' ∧ ∀ l ∈ after, relaysInvite i l = false := by
  induction hafter with
  | nil => exact ⟨h, fun l hl => absurd hl List.not_mem_nil⟩
  | @snoc ls l st₁ st₂ hls hl ih =>
    have hrun₁ : (dialogSystem cfg C n).Reaches .initial (before ++ ls) st₁ := Steps.trans hrun hls
    have hinv := dialogStep hrun₁ hl
    have hsep₁ := hsep.of_step hinv
    obtain ⟨hkept, hrelays⟩ := ih hsep₁ fun l hl => hobs l (List.mem_append_left _ hl)
    obtain ⟨hkept', hrelay⟩ :=
      hkept.step hrun₁ hsep₁ hinv (hobs l (List.mem_append_right _ List.mem_cons_self))
    refine ⟨hkept', fun l' hl' => ?_⟩
    rcases List.mem_append.mp hl' with hl' | hl'
    · exact hrelays l' hl'
    · rw [List.mem_singleton.mp hl']
      exact hrelay

theorem kept_of_set (hrun : (dialogSystem cfg C n).Reaches .initial ls st)
    (hsep : Separate st.threads)
    (hstep : (dialogSystem cfg C n).Step st (.act i ⟨.inl (.setPending t cseq), ()⟩) st')
    (hget : st'.threads[i]? = some th) (harg : th.arg = .session k invite) :
    Kept i k t cseq st' := by
  cases dialogStep hrun hstep with
  | @session _ k' invite' th₀ th' g g' _ _ sh hget₀ harg₀ harg' hstage hstage' hloop hperf =>
    have hlt := (List.getElem?_eq_some_iff.mp hget₀).1
    obtain rfl : th' = th := by
      rw [List.getElem?_set_self hlt] at hget
      exact Option.some.inj hget
    obtain ⟨rfl, rfl⟩ := DialogParty.session.inj (harg₀.symm.trans (harg'.symm.trans harg))
    cases hloop with
    | other r he => cases he
    | set request =>
      -- no watcher was started for the transaction before
      obtain ⟨hplaced, -⟩ := placed_of_reaches hrun hsep request.transaction
      have hheld := (hplaced.phase_eq hget₀ hstage rfl (decide_eq_true rfl)).2
      have hnowatch : ∀ th ∈ st.threads, th.arg ≠ .watch k' request.transaction := by
        intro th hth hwatch
        have hstarted := started_of_reaches hrun hth
        rw [hwatch] at hstarted
        have hlate := hplaced.watched k' hstarted
        rw [hheld] at hlate
        cases hlate
      refine ⟨?_, ⟨th', invite', _, hget, harg, hstage', nofun⟩, fun th hth hs hhs hparty => ?_⟩
      · cases hperf with
        | set t cseq =>
          show ((st.shared.update k' _).sessions k').pending = _
          rw [update_same]
        | other he => cases he
      · rcases List.mem_or_eq_of_mem_set hth with hth | rfl
        · have hfits := fits_of_reaches hrun hth
          rw [hhs] at hfits
          exact absurd (hfits.party.symm.trans hparty) (hnowatch th hth)
        · cases hstage'.symm.trans hhs

theorem LoopStep.of_set {g : LoopStage} {e : EngineOp} {r : engineSig.Ans e} (h : LoopStep g e r g')
    (hg' : g' = .set request) : g = .set request ∨
      (⟨e, r⟩ : Event engineSig) = ⟨.setPending request.transaction request.cseq, ()⟩ := by
  cases h with
  | select r =>
    cases r with
    | command c => cases c <;> cases hg'
    | _ => cases hg'
  | set request' =>
    obtain rfl := LoopStage.set.inj hg'
    exact .inr rfl
  | relay => exact .inl hg'
  | other r he => exact .inl hg'
  | _ => cases hg'

theorem set_mem_past (h : (dialogSystem cfg C n).Reaches .initial ls st) (hth : th ∈ st.threads)
    (hstage : stageOf th = .session (.set request)) :
    ⟨.inl (.setPending request.transaction request.cseq), ()⟩ ∈ th.past := by
  revert th
  refine Steps.invariant_of_run (I := fun _ (st : DialogState) => ∀ {th : DialogThread},
    th ∈ st.threads → stageOf th = .session (.set request) →
      ⟨.inl (.setPending request.transaction request.cseq), ()⟩ ∈ th.past) ?_ h
    (fun hth _ => absurd hth List.not_mem_nil)
  intro ls st l st' hrun hI hstep th hth hset
  cases dialogStep hrun hstep with
  | spawn x p hx =>
    rcases List.mem_append.mp hth with hth | hth
    · exact hI hth hset
    · rw [List.mem_singleton.mp hth] at hset
      have hstage : stageOf ⟨x, [], p⟩ = x.stage := rfl
      rw [hstage] at hset
      cases x <;> cases hset
  | @session i k invite th₀ th' g g' e r sh hget harg harg' hstage hstage' hloop hperf hpast =>
    rcases List.mem_or_eq_of_mem_set hth with hth | rfl
    · exact hI hth hset
    rw [hpast]
    rcases hloop.of_set (DialogStage.session.inj (hstage'.symm.trans hset)) with rfl | hev
    · exact List.mem_append_left _ (hI (List.mem_of_getElem? hget) hstage)
    · obtain ⟨rfl, hr⟩ := Event.mk.inj hev
      obtain rfl := eq_of_heq hr
      exact List.mem_append_right _ List.mem_cons_self
  | @handler i th₀ th' hs p e r sh hget harg harg' hstage hstage' hmove hperf hpast =>
    rcases List.mem_or_eq_of_mem_set hth with hth | rfl
    · exact hI hth hset
    · cases hstage'.symm.trans hset

end Kept

/-! ## The flag of the handlers -/

section Flag

variable {cfg : Config} {C : Codecs} {n k t : ℕ} {ls : List DialogLabel} {st : DialogState}

def gateShare (k : ℕ) (th : DialogThread) : ℕ :=
  match stageOf th with
  | .handler h => if h.gate = some k then 1 else 0
  | _ => 0

theorem gateShare_handler {hs : HandlerStage} (h : stageOf th = .handler hs) :
    gateShare k th = if hs.gate = some k then 1 else 0 := by
  unfold gateShare
  rw [h]

theorem gateShare_session {g : LoopStage} (h : stageOf th = .session g) : gateShare k th = 0 := by
  unfold gateShare
  rw [h]

theorem gateShare_spawn (k : ℕ) (x : DialogParty) (p : Prog dialogSig Unit) :
    gateShare k ⟨x, [], p⟩ = 0 := by
  cases x <;> rfl

/-- An operation that neither sets nor clears the flag of session `k` leaves its gate where it is. -/
theorem ProgressStep.gate {hs : HandlerStage} (h : ProgressStep hs e r p)
    (hbegin : (⟨e, r⟩ : Event handlerSig) ≠ ⟨.beginReInvite k, true⟩)
    (hfinish : e ≠ .finishReInvite k) : nextGate hs.gate e r = some k ↔ hs.gate = some k := by
  cases h with
  | enter k' r hgate hparty =>
    rw [hgate]
    cases r with
    | false => exact Iff.rfl
    | true =>
      show some k' = some k ↔ _
      have hne : k' ≠ k := by
        rintro rfl
        exact hbegin rfl
      simp [hne]
  | @leave k' r hgate =>
    have hne : k' ≠ k := by
      rintro rfl
      exact hfinish rfl
    rw [hgate]
    show none = some k ↔ _
    simp [hne]
  | other r he => cases e <;> first | exact Iff.rfl | cases he
  | _ => exact Iff.rfl

/-- The flag of a session is set exactly while one handler has entered its gate. -/
theorem gate_account (h : (dialogSystem cfg C n).Reaches .initial ls st) (k : ℕ) :
    (st.threads.map (gateShare k)).sum = if (st.shared.sessions k).reInviteBusy then 1 else 0 := by
  refine Steps.invariant_of_run (I := fun _ (st : DialogState) => (st.threads.map (gateShare k)).sum =
    if (st.shared.sessions k).reInviteBusy then 1 else 0) ?_ h rfl
  intro ls st l st' hrun hI hstep
  cases dialogStep hrun hstep with
  | spawn =>
    show ((st.threads ++ [_]).map (gateShare k)).sum = _
    rw [List.map_append, List.sum_append, hI, List.map_singleton, List.sum_singleton, gateShare_spawn]
    rfl
  | @session i k' invite th th' g g' e r sh hget harg harg' hstage hstage' hloop hperf =>
    have hsum := sum_map_set (gateShare k) th' hget
    rw [gateShare_session hstage, gateShare_session hstage', hI] at hsum
    show ((st.threads.set i th').map (gateShare k)).sum = if (sh.sessions k).reInviteBusy then 1 else 0
    rw [hperf.busy k]
    exact hsum
  | @handler i th th' hs p e r sh hget harg harg' hstage hstage' hmove hperf =>
    have hsum := sum_map_set (gateShare k) th' hget
    have hshare := gateShare_handler (k := k) hstage
    have hshare' := gateShare_handler (k := k) hstage'
    show ((st.threads.set i th').map (gateShare k)).sum = if (sh.sessions k).reInviteBusy then 1 else 0
    rcases hperf.busy k with ⟨hkept, hbegin, hfinish⟩ | ⟨hev, hfree, hbusy⟩ | ⟨rfl, hfree⟩
    · have hsame : gateShare k th' = gateShare k th := by
        rw [hshare, hshare']
        exact if_congr (hmove.gate hbegin hfinish) rfl rfl
      rw [hkept]
      omega
    · obtain ⟨rfl, hr⟩ := Event.mk.inj hev
      obtain rfl := eq_of_heq hr
      cases hmove with
      | enter k r hgate hparty =>
        rw [hgate] at hshare
        replace hshare : gateShare k th = 0 := hshare
        replace hshare' : gateShare k th' = 1 := hshare'.trans (if_pos rfl)
        rw [hfree] at hI
        replace hI : (st.threads.map (gateShare k)).sum = 0 := hI
        rw [hbusy, if_pos rfl]
        omega
      | other r he => cases he
    · cases hmove with
      | leave r hgate =>
        replace hshare : gateShare k th = 1 := hshare.trans (if_pos hgate)
        replace hshare' : gateShare k th' = 0 := hshare'
        have hle : (st.threads.map (gateShare k)).sum ≤ 1 := by
          rw [hI]
          split_ifs <;> omega
        rw [hfree]
        show _ = 0
        omega
      | other r he => cases he

/-- A handler of a re-INVITE that has entered the gate of session `k` and has not returned. -/
def InProgress (k : ℕ) (th : DialogThread) : Prop :=
  th.live = true ∧ (∃ m, th.arg = .reInvite m) ∧ ⟨.beginReInvite k, true⟩ ∈ Event.rights th.past

theorem entered_of_gate (h : (dialogSystem cfg C n).Reaches .initial ls st) (hth : th ∈ st.threads)
    {hs : HandlerStage} (hstage : stageOf th = .handler hs) (hgate : hs.gate = some k) :
    (∃ m, th.arg = .reInvite m) ∧ ⟨.beginReInvite k, true⟩ ∈ Event.rights th.past := by
  revert th hs
  refine Steps.invariant_of_run (I := fun _ (st : DialogState) => ∀ {th : DialogThread}
    (_ : th ∈ st.threads)
    {hs : HandlerStage}, stageOf th = .handler hs → hs.gate = some k →
      (∃ m, th.arg = .reInvite m) ∧ ⟨.beginReInvite k, true⟩ ∈ Event.rights th.past) ?_ h
    (fun hth => absurd hth List.not_mem_nil)
  intro ls st l st' hrun hI hstep th₀ hth₀ hs₀ hstage₀ hgate₀
  cases dialogStep hrun hstep with
  | spawn x p hx =>
    rcases List.mem_append.mp hth₀ with hth₀ | hth₀
    · exact hI hth₀ hstage₀ hgate₀
    · rw [List.mem_singleton.mp hth₀] at hstage₀
      have hstage : stageOf ⟨x, [], p⟩ = x.stage := rfl
      rw [hstage] at hstage₀
      cases x with
      | session k invite => cases hstage₀
      | _ =>
        obtain rfl := DialogStage.handler.inj hstage₀
        cases hgate₀
  | @session i k' invite th th' g g' e r sh hget harg harg' hstage hstage' hloop hperf hpast =>
    rcases List.mem_or_eq_of_mem_set hth₀ with hth₀ | rfl
    · exact hI hth₀ hstage₀ hgate₀
    · cases hstage'.symm.trans hstage₀
  | @handler i th th' hs p e r sh hget harg harg' hstage hstage' hmove hperf hpast =>
    rcases List.mem_or_eq_of_mem_set hth₀ with hth₀ | rfl
    · exact hI hth₀ hstage₀ hgate₀
    obtain rfl := DialogStage.handler.inj (hstage'.symm.trans hstage₀)
    rw [hpast, harg', Event.rights_append]
    by_cases hbegin : (⟨e, r⟩ : Event handlerSig) = ⟨.beginReInvite k, true⟩
    · obtain ⟨rfl, hr⟩ := Event.mk.inj hbegin
      obtain rfl := eq_of_heq hr
      refine ⟨?_, List.mem_append_right _ List.mem_cons_self⟩
      cases hmove with
      | enter k r hgate hparty =>
        rw [harg] at hparty
        cases harg₀ : th.arg with
        | reInvite m => exact ⟨m, rfl⟩
        | _ =>
          rw [harg₀] at hparty
          cases hparty
      | other r he => cases he
    · have hfinish : e ≠ .finishReInvite k := by
        rintro rfl
        cases hgate₀
      obtain ⟨hparty, hmem⟩ :=
        hI (List.mem_of_getElem? hget) hstage ((hmove.gate hbegin hfinish).mp hgate₀)
      exact ⟨hparty, List.mem_append_left _ hmem⟩

theorem inProgress_of_busy (h : (dialogSystem cfg C n).Reaches .initial ls st)
    (hbusy : (st.shared.sessions k).reInviteBusy = true) : ∃ th ∈ st.threads, InProgress k th := by
  have hsum := gate_account h k
  rw [hbusy] at hsum
  obtain ⟨share, hmem, hshare⟩ := List.exists_mem_ne_zero_of_sum_ne_zero
    (show (st.threads.map (gateShare k)).sum ≠ 0 by rw [hsum]; decide)
  obtain ⟨th, hth, rfl⟩ := List.mem_map.mp hmem
  cases hstage : stageOf th with
  | session g => exact absurd (gateShare_session hstage) hshare
  | bad =>
    unfold gateShare at hshare
    rw [hstage] at hshare
    exact absurd rfl hshare
  | handler hs =>
    have hgate : hs.gate = some k := by
      by_contra hne
      exact hshare ((gateShare_handler hstage).trans (if_neg hne))
    obtain ⟨hparty, hentered⟩ := entered_of_gate h hth hstage hgate
    refine ⟨th, hth, ?_, hparty, hentered⟩
    cases hlive : th.live with
    | true => rfl
    | false =>
      obtain ⟨-, -, hreturned⟩ := (tracked_of_reaches h).returned hth hlive
      replace hreturned : (stageOf th).returned := hreturned
      rw [hstage] at hreturned
      cases hgate.symm.trans hreturned.1

end Flag

/-! ## The watchers -/

section Watch

variable {cfg : Config} {C : Codecs} {n k t : ℕ} {ls : List DialogLabel} {st : DialogState}

/-- A watcher returns when the session is done, or after it has cleared the pending re-INVITE. -/
theorem watch_returns {u : List (Event handlerSig)}
    (h : Prog.Returns (watchPendingReInvite k t) u ()) :
    ⟨.awaitPending k t, .sessionDone⟩ ∈ u ∨ ∃ r, ⟨.clearPending k t, r⟩ ∈ u := by
  obtain ⟨watched, v, w, rfl, hv, hw⟩ := Prog.returns_bind h
  obtain rfl := Prog.returns_call hv
  have observed : Prog.Returns (do
      let cleared ← hop (.clearPending k t)
      Prog.when cleared (hop (.terminate t))) w () → ∃ r, ⟨.clearPending k t, r⟩ ∈ w := by
    intro hw
    obtain ⟨r, v, w, rfl, hv, -⟩ := Prog.returns_bind hw
    obtain rfl := Prog.returns_call hv
    exact ⟨r, List.mem_cons_self⟩
  cases watched with
  | sessionDone => exact .inl List.mem_cons_self
  | acks =>
    obtain ⟨r, hr⟩ := observed hw
    exact .inr ⟨r, List.mem_append_right _ hr⟩
  | transactionDone =>
    obtain ⟨r, hr⟩ := observed hw
    exact .inr ⟨r, List.mem_append_right _ hr⟩

/-- The pending re-INVITE a watcher has cleared does not come back. -/
theorem cleared_of_reaches (h : (dialogSystem cfg C n).Reaches .initial ls st)
    (hsep : Separate st.threads) (hth : th ∈ st.threads) (harg : th.arg = .watch k t) {r : Bool}
    (hev : ⟨.clearPending k t, r⟩ ∈ Event.rights th.past) :
    (st.shared.sessions k).pendingReInvite ≠ some t := by
  revert th
  revert hsep
  refine Steps.invariant_of_run (I := fun _ (st : DialogState) => Separate st.threads →
    ∀ {th : DialogThread}, th ∈ st.threads → th.arg = .watch k t →
      ⟨.clearPending k t, r⟩ ∈ Event.rights th.past →
        (st.shared.sessions k).pendingReInvite ≠ some t) ?_ h
    (fun _ _ hth => absurd hth List.not_mem_nil)
  intro ls st l st' hrun hI hstep hsep th₀ hth₀ harg₀ hev₀
  have hinv := dialogStep hrun hstep
  have hsep₀ := hsep.of_step hinv
  have cleared : ∀ {s : SessionShared}, s.pending = none → s.pendingReInvite ≠ some t := by
    intro s hs hsome
    cases (pending_eq_none.mpr hs).symm.trans hsome
  have kept : ∀ {s s' : SessionShared}, s'.pending = s.pending → s.pendingReInvite ≠ some t →
      s'.pendingReInvite ≠ some t := by
    intro s s' hs hne hsome
    exact hne ((congrArg (Option.map Prod.fst) hs).symm.trans hsome)
  cases hinv with
  | spawn =>
    rcases List.mem_append.mp hth₀ with hth₀ | hth₀
    · exact hI hsep₀ hth₀ harg₀ hev₀
    · rw [List.mem_singleton.mp hth₀] at hev₀
      cases hev₀
  | @session i k' invite th th' g g' e r' sh hget harg harg' hstage hstage' hloop hperf hpast =>
    rcases List.mem_or_eq_of_mem_set hth₀ with hth₀ | rfl
    · rcases hperf.pending k with hkept | ⟨rfl, ⟨-, -, -, hnone⟩ | ⟨-, hnone⟩
        | ⟨t', cseq, rfl, hset⟩⟩
      · exact kept hkept (hI hsep₀ hth₀ harg₀ hev₀)
      · exact cleared hnone
      · exact cleared hnone
      · -- its transaction was the pending one before, and is not set twice
        intro hsome
        obtain rfl := Option.some.inj ((pendingReInvite_of_pending hset).symm.trans hsome)
        have hstarted := started_of_reaches hrun hth₀
        rw [harg₀] at hstarted
        obtain ⟨hplaced, -⟩ := placed_of_reaches hrun hsep₀ t'
        have hlate := hplaced.watched k hstarted
        cases hloop with
        | set request =>
          rw [(hplaced.phase_eq hget hstage rfl (decide_eq_true rfl)).2] at hlate
          cases hlate
        | other r he => cases he
    · cases harg.symm.trans (harg'.symm.trans harg₀)
  | @handler i th th' hs p e r' sh hget harg harg' hstage hstage' hmove hperf hpast =>
    have later : (st.shared.sessions k).pendingReInvite ≠ some t →
        (sh.sessions k).pendingReInvite ≠ some t := by
      intro hne
      rcases hperf.pending k with hkept | ⟨hnone, -⟩
      · exact kept hkept hne
      · exact cleared hnone
    rcases List.mem_or_eq_of_mem_set hth₀ with hth₀ | rfl
    · exact later (hI hsep₀ hth₀ harg₀ hev₀)
    rw [hpast, Event.rights_append] at hev₀
    rcases List.mem_append.mp hev₀ with hev₀ | hev₀
    · exact later (hI hsep₀ (List.mem_of_getElem? hget) (harg' ▸ harg₀) hev₀)
    · obtain ⟨rfl, hr⟩ := Event.mk.inj (List.mem_singleton.mp hev₀)
      obtain rfl := eq_of_heq hr
      cases hperf with
      | clear k t hpending =>
        refine cleared ?_
        show ((st.shared.update k _).sessions k).pending = none
        rw [update_same]
      | keep k t hpending => exact hpending

theorem done_of_watched (h : (dialogSystem cfg C n).Reaches .initial ls st) (hth : th ∈ st.threads)
    (hev : ⟨.awaitPending k t, .sessionDone⟩ ∈ Event.rights th.past) :
    (st.shared.sessions k).done = true := by
  revert th
  refine Steps.invariant_of_run (I := fun _ (st : DialogState) => ∀ {th : DialogThread},
    th ∈ st.threads → ⟨.awaitPending k t, .sessionDone⟩ ∈ Event.rights th.past →
      (st.shared.sessions k).done = true) ?_ h (fun hth => absurd hth List.not_mem_nil)
  intro ls st l st' hrun hI hstep th₀ hth₀ hev₀
  cases dialogStep hrun hstep with
  | spawn =>
    rcases List.mem_append.mp hth₀ with hth₀ | hth₀
    · exact hI hth₀ hev₀
    · rw [List.mem_singleton.mp hth₀] at hev₀
      cases hev₀
  | @session i k' invite th th' g g' e r sh hget harg harg' hstage hstage' hloop hperf hpast =>
    have hbefore : (st.shared.sessions k).done = true := by
      rcases List.mem_or_eq_of_mem_set hth₀ with hth₀ | rfl
      · exact hI hth₀ hev₀
      · rw [hpast, Event.rights_append] at hev₀
        rcases List.mem_append.mp hev₀ with hev₀ | hev₀
        · exact hI (List.mem_of_getElem? hget) hev₀
        · cases hev₀
    rcases hperf.done k with hkept | ⟨-, -, hclosed⟩
    · exact hkept.trans hbefore
    · exact hclosed
  | @handler i th th' hs p e r sh hget harg harg' hstage hstage' hmove hperf hpast =>
    refine (hperf.done k).trans ?_
    rcases List.mem_or_eq_of_mem_set hth₀ with hth₀ | rfl
    · exact hI hth₀ hev₀
    rw [hpast, Event.rights_append] at hev₀
    rcases List.mem_append.mp hev₀ with hev₀ | hev₀
    · exact hI (List.mem_of_getElem? hget) hev₀
    · obtain ⟨rfl, hr⟩ := Event.mk.inj (List.mem_singleton.mp hev₀)
      obtain rfl := eq_of_heq hr
      cases hperf with
      | watched k t r hdone => exact hdone rfl

/-- A watcher that has returned left another re-INVITE pending than its own, or the session is done. -/
theorem not_pending_of_returned (h : (dialogSystem cfg C n).Reaches .initial ls st)
    (hsep : Separate st.threads) (hth : th ∈ st.threads) (harg : th.arg = .watch k t)
    (hlive : th.live = false) :
    (st.shared.sessions k).pendingReInvite ≠ some t ∨ (st.shared.sessions k).done = true := by
  obtain ⟨q, hrest, hpath, -⟩ := handler_path (p := watchPendingReInvite k t) h hth (by rw [harg]; rfl)
  obtain rfl : q = Pure.pure () := by
    unfold Thread.live at hlive
    rw [hrest] at hlive
    cases q with
    | pure a => rfl
    | diverge => cases hlive
    | op e rest => cases hlive
  rcases watch_returns hpath with hended | ⟨r, hcleared⟩
  · exact .inr (done_of_watched h hth hended)
  · exact .inl (cleared_of_reaches h hsep hth harg hcleared)

end Watch

/-! ## The gate -/

def Increasing (threads : List DialogThread) : Prop :=
  ∀ (a b : ℕ) (th th' : DialogThread) (m m' : Incoming), a < b → threads[a]? = some th →
    threads[b]? = some th' → th.arg = .reInvite m → th'.arg = .reInvite m' → m.uas = m'.uas →
      m.request.cseq < m'.request.cseq

section Gate

variable {cfg : Config} {C : Codecs} {n : ℕ} {ls : List DialogLabel}
  {st st' : DialogState}

theorem Separate.of_steps (h : Separate st'.threads)
    (hsteps : Steps (dialogSystem cfg C n).Step st ls st') : Separate st.threads := by
  have hkeys : ∀ threads : List DialogThread,
      threads.map (·.arg.key) = (threads.map (·.arg)).map DialogParty.key := by
    intro threads
    rw [List.map_map]
    rfl
  unfold Separate at h ⊢
  rw [hkeys] at h ⊢
  exact h.sublist ((System.args_prefix hsteps).sublist.map _)

theorem set_of_answers {g : LoopStage} {response : Response}
    (hcommand : g.command = some (.reInvite request)) (hanswers : g.answers response = true)
    (hstatus : response.status < 300) : g = .set request := by
  have refused : decide (300 ≤ response.status) = true → g = .set request := by
    intro h
    have := of_decide_eq_true h
    omega
  cases g with
  | held c =>
    cases hcommand
    exact refused hanswers
  | polling request' t => exact refused hanswers
  | free request' => exact refused hanswers
  | set request' =>
    obtain rfl := SessionCommand.reInvite.inj (Option.some.inj hcommand)
    rfl
  | _ => cases hanswers

theorem command_eq (h : (dialogSystem cfg C n).Reaches .initial ls st)
    (hafter : Steps (dialogSystem cfg C n).Step st after st') (hsep : Separate st'.threads)
    {x : DialogThread} {c : SessionCommand} {m : Incoming} (hth : th ∈ st.threads)
    (hc : (stageOf th).command = some c) (ht : c.transaction = some m.request.transaction)
    (hx : x ∈ st'.threads) (hm : x.arg = .reInvite m) : c = .reInvite m.request := by
  obtain ⟨th₀, hth₀, hc₀⟩ := (routed_of_reaches h).held th hth c hc
  obtain ⟨a, ha⟩ := List.mem_iff_getElem?.mp hth₀
  obtain ⟨b, hb⟩ := List.mem_iff_getElem?.mp hx
  obtain ⟨th₁, ha₁, harg₁⟩ := System.arg_of_steps hafter ha
  have hkey : th₁.arg.key = some (true, m.request.transaction) := by
    rw [harg₁]
    apply key_of_command
    rw [hc₀]
    exact decide_eq_true ht
  obtain rfl := hsep.eq_index ha₁ hb hkey (by rw [hm]; rfl)
  cases ha₁.symm.trans hb
  rw [← harg₁, hm] at hc₀
  exact (Option.some.inj hc₀).symm

/-- A re-INVITE that a session answers with success was made its pending one before, and is kept. -/
theorem kept_of_answered (h : (dialogSystem cfg C n).Reaches .initial ls st)
    (hsep : Separate st.threads) {before : List DialogLabel} {i k : ℕ} {x : DialogThread}
    {m : Incoming} {response : Response} {sent : Bool} (hget : st.threads[i]? = some th)
    (harg : th.arg = .session k invite) (hx : x ∈ st.threads) (hm : x.arg = .reInvite m)
    (hls : ls = before ++ .act i ⟨.inl (.respondTo m.request.transaction response), sent⟩ :: after)
    (hstatus : response.status < 300) :
    ∃ earlier since, before = earlier ++
        .act i ⟨.inl (.setPending m.request.transaction m.request.cseq), ()⟩ :: since ∧
      ((∀ l ∈ since ++ after, observes i k m.request.transaction m.request.cseq l = false) →
        (st.shared.sessions k).pending = some (m.request.transaction, m.request.cseq) ∧
        ∀ l ∈ since ++ after, relaysInvite i l = false) := by
  rw [hls] at h
  obtain ⟨st₁, st₂, hbefore, hstep, hafter⟩ := Steps.split_cons h
  have hlast : Steps (dialogSystem cfg C n).Step st₁
      (.act i ⟨.inl (.respondTo m.request.transaction response), sent⟩ :: after) st :=
    Steps.trans (Steps.nil.snoc hstep) hafter
  -- the session answers from the stage in which the re-INVITE is its pending one
  have hset : .act i ⟨.inl (.setPending m.request.transaction m.request.cseq), ()⟩ ∈ before := by
    cases dialogStep hbefore hstep with
    | @session _ _ _ th₁ _ g _ _ _ _ hget₁ _ _ hstage _ hloop _ =>
      cases hloop with
      | @answer _ c _ _ _ hcommand hanswers htransaction hfinal =>
        have hmem := List.mem_of_getElem? hget₁
        obtain rfl := command_eq hbefore hlast hsep hmem (by rw [hstage]; exact hcommand) htransaction hx hm
        obtain rfl := set_of_answers hcommand hanswers hstatus
        have hpast := set_mem_past hbefore hmem hstage
        rw [System.past_eq_eventsOf hbefore hget₁] at hpast
        exact System.mem_eventsOf.mp hpast
      | other r he => cases he
  obtain ⟨earlier, since, rfl⟩ := List.append_of_mem hset
  refine ⟨earlier, since, rfl, fun hobs => ?_⟩
  obtain ⟨st₃, st₄, hearlier, hset, hsince⟩ := Steps.split_cons hbefore
  have hrest' := Steps.trans hsince hlast
  have hsep₄ := hsep.of_steps hrest'
  have hreach₄ : (dialogSystem cfg C n).Reaches .initial _ st₄ := Steps.snoc hearlier hset
  obtain ⟨th₄, hget₄, harg₄⟩ : ∃ th₄, st₄.threads[i]? = some th₄ ∧
    th₄.arg = .session k invite := by
    cases hset with
    | act _ th₃ e rest r sh hget₃ =>
      have hget₄ := List.getElem?_set_self (a := th₃.advance
        ⟨.inl (.setPending m.request.transaction m.request.cseq), ()⟩ (rest ()))
        (List.getElem?_eq_some_iff.mp hget₃).1
      obtain ⟨th', hget', harg'⟩ := System.arg_of_steps hrest' hget₄
      cases hget'.symm.trans hget
      exact ⟨_, hget₄, harg'.symm.trans harg⟩
  have hkept := kept_of_set hearlier (hsep₄.of_step (dialogStep hearlier hset)) hset hget₄ harg₄
  obtain ⟨hfinal, hrelays⟩ := hkept.run hreach₄ hrest' hsep fun l hl => by
    rcases List.mem_append.mp hl with hl | hl
    · exact hobs l (List.mem_append_left _ hl)
    · rcases List.mem_cons.mp hl with rfl | hl
      · rfl
      · exact hobs l (List.mem_append_right _ hl)
  refine ⟨hfinal.pending, fun l hl => hrelays l ?_⟩
  rcases List.mem_append.mp hl with hl | hl
  · exact List.mem_append_left _ hl
  · exact List.mem_append_right _ (List.mem_cons_of_mem _ hl)

/-- The ACK of an older re-INVITE of the dialog, and its watcher, leave the pending one alone. -/
theorem pending_of_older (h : (dialogSystem cfg C n).Reaches .initial ls st)
    (hsep : Separate st.threads) (hincreasing : Increasing st.threads) {k a b j : ℕ}
    {x : DialogThread} {m m' : Incoming} {ev : Event dialogSig} (hab : a < b)
    (ha : st.threads[a]? = some th) (hb : st.threads[b]? = some th') (hm : th.arg = .reInvite m)
    (hm' : th'.arg = .reInvite m') (hdialog : m.uas = m'.uas)
    (hpending : (st.shared.sessions k).pendingReInvite = some m'.request.transaction)
    (hj : st.threads[j]? = some x) (hstep : (dialogSystem cfg C n).Step st (.act j ev) st')
    (hx : (∃ ack, x.arg = .ack ack ∧ ack.request.cseq = m.request.cseq) ∨
      ∃ k', x.arg = .watch k' m.request.transaction) :
    (st'.shared.sessions k).pending = (st.shared.sessions k).pending := by
  obtain ⟨⟨t, cseq⟩, hp, ht⟩ := Option.map_eq_some_iff.mp hpending
  replace ht : t = m'.request.transaction := ht
  have hcseq : cseq = m'.request.cseq := by
    obtain ⟨th₀, hth₀, m₀, harg₀, ht₀, hcseq₀⟩ := owner_of_pending h hp
    obtain ⟨c, hc⟩ := List.mem_iff_getElem?.mp hth₀
    have hkey : th₀.arg.key = some (true, t) := by rw [harg₀, ← ht₀]; rfl
    obtain rfl := hsep.eq_index hc hb hkey (by rw [hm', ht]; rfl)
    cases hc.symm.trans hb
    cases harg₀.symm.trans hm'
    exact hcseq₀.symm
  have holder : m.request.cseq ≠ m'.request.cseq := by
    intro heq
    have hlt := hincreasing a b th th' m m' hab ha hb hm hm' hdialog
    rw [heq] at hlt
    exact absurd hlt (UInt32.lt_irrefl _)
  have hother : m.request.transaction ≠ m'.request.transaction := by
    intro heq
    have hkey : th.arg.key = some (true, m.request.transaction) := by rw [hm]; rfl
    have := hsep.eq_index ha hb hkey (by rw [hm', heq]; rfl)
    omega
  cases dialogStep h hstep with
  | session hget harg =>
    cases hj.symm.trans hget
    rcases hx with ⟨ack, hack, -⟩ | ⟨k', hwatch⟩
    · cases harg.symm.trans hack
    · cases harg.symm.trans hwatch
  | handler hget harg harg' hstage hstage' hmove hperf =>
    cases hj.symm.trans hget
    refine (hperf.pending k).resolve_right ?_
    rintro ⟨-, ⟨t₁, cseq₁, rfl, hp₁⟩ | ⟨t₁, rfl, hp₁⟩⟩
    · obtain ⟨-, rfl⟩ := Prod.mk.inj (Option.some.inj (hp₁.symm.trans hp))
      cases hmove with
      | acknowledge k r hparty =>
        rw [harg] at hparty
        rcases hx with ⟨ack, hack, hcseq'⟩ | ⟨k', hwatch⟩
        · cases hparty.symm.trans hack
          exact holder (hcseq'.symm.trans hcseq)
        · cases hparty.symm.trans hwatch
      | other r he => cases he
    · cases hp₁.symm.trans hpending
      cases hmove with
      | clear r hparty hobserved =>
        rw [harg] at hparty
        rcases hx with ⟨ack, hack, -⟩ | ⟨k', hwatch⟩
        · cases hparty.symm.trans hack
        · exact hother (DialogParty.watch.inj (hparty.symm.trans hwatch)).2.symm
      | other r he => cases he

/-- Without a pending re-INVITE and a handler in progress, the next one is let in. -/
theorem admitted_of_free (h : (dialogSystem cfg C n).Reaches .initial ls st) {k j : ℕ} {r : Bool}
    (hpending : (st.shared.sessions k).pending = none)
    (hidle : ∀ th ∈ st.threads, ¬ InProgress k th)
    (hstep : (dialogSystem cfg C n).Step st (.act j ⟨.inr (.beginReInvite k), r⟩) st') :
    r = true := by
  cases dialogStep h hstep with
  | handler hget harg harg' hstage hstage' hmove hperf =>
    cases hperf with
    | begun => rfl
    | refused k hrefused =>
      rcases hrefused with hbusy | hne
      · obtain ⟨th, hth, hprogress⟩ := inProgress_of_busy h hbusy
        exact absurd hprogress (hidle th hth)
      · exact absurd hpending hne

end Gate

/-- The gate of the re-INVITEs, in every run:

1. A re-INVITE that a session answers with success was made its pending one before. Until its ACK, the
   end of its transaction or the end of the session is observed, it stays the pending one, and the session
   sends no re-INVITE on.
2. ACKs and watchers of older re-INVITEs of the dialog leave the pending one alone.
3. `reInviteBusy` is set only while a handler is in progress, and that handler has a next step.
4. With no re-INVITE pending and no handler in progress the next one is let in.
5. A watcher that has returned left another re-INVITE pending than its own, or the session is done. -/
theorem reInvite_gate (cfg : Config) (C : Codecs) (n : ℕ) (ls : List DialogLabel) (st : DialogState)
    (h : (dialogSystem cfg C n).Reaches .initial ls st) (hsep : Separate st.threads)
    (hincreasing : Increasing st.threads) :
    (∀ (before after : List DialogLabel) (i k : ℕ) (th x : DialogThread) (invite : Invite) (m : Incoming)
        (response : Response) (sent : Bool), st.threads[i]? = some th → th.arg = .session k invite →
      x ∈ st.threads → x.arg = .reInvite m →
      ls = before ++ .act i ⟨.inl (.respondTo m.request.transaction response), sent⟩ :: after →
      response.status < 300 →
      ∃ earlier since, before = earlier ++
          .act i ⟨.inl (.setPending m.request.transaction m.request.cseq), ()⟩ :: since ∧
        ((∀ l ∈ since ++ after, observes i k m.request.transaction m.request.cseq l = false) →
          (st.shared.sessions k).pending = some (m.request.transaction, m.request.cseq) ∧
          ∀ l ∈ since ++ after, relaysInvite i l = false)) ∧
    (∀ (k a b j : ℕ) (th th' x : DialogThread) (m m' : Incoming) (ev : Event dialogSig)
        (st' : DialogState), a < b → st.threads[a]? = some th → st.threads[b]? = some th' →
      th.arg = .reInvite m → th'.arg = .reInvite m' → m.uas = m'.uas →
      (st.shared.sessions k).pendingReInvite = some m'.request.transaction →
      st.threads[j]? = some x → (dialogSystem cfg C n).Step st (.act j ev) st' →
      ((∃ ack, x.arg = .ack ack ∧ ack.request.cseq = m.request.cseq) ∨
        ∃ k', x.arg = .watch k' m.request.transaction) →
      (st'.shared.sessions k).pending = (st.shared.sessions k).pending) ∧
    (∀ k, (st.shared.sessions k).reInviteBusy = true → ∃ j th, st.threads[j]? = some th ∧
      InProgress k th ∧ ∃ ev st', (dialogSystem cfg C n).Step st (.act j ev) st') ∧
    (∀ (k j : ℕ) (r : Bool) (st' : DialogState), (st.shared.sessions k).pending = none →
      (∀ th ∈ st.threads, ¬ InProgress k th) →
      (dialogSystem cfg C n).Step st (.act j ⟨.inr (.beginReInvite k), r⟩) st' → r = true) ∧
    (∀ (k t : ℕ), ∀ th ∈ st.threads, th.arg = .watch k t → th.live = false →
      (st.shared.sessions k).pendingReInvite ≠ some t ∨ (st.shared.sessions k).done = true) := by
  refine ⟨?_, ?_, fun k hbusy => ?_, ?_, ?_⟩
  · intro before after i k th x invite m response sent hget harg hx hm hls hstatus
    exact kept_of_answered h hsep hget harg hx hm hls hstatus
  · intro k a b j th th' x m m' ev st' hab ha hb hm hm' hdialog hpending hj hstep hx
    exact pending_of_older h hsep hincreasing hab ha hb hm hm' hdialog hpending hj hstep hx
  · obtain ⟨th, hth, hprogress⟩ := inProgress_of_busy h hbusy
    obtain ⟨j, hj⟩ := List.mem_iff_getElem?.mp hth
    obtain ⟨m, hm⟩ := hprogress.2.1
    exact ⟨j, th, hj, hprogress, command_moves h hj (by rw [hm]; rfl) hprogress.1⟩
  · intro k j r st' hpending hidle hstep
    exact admitted_of_free h hpending hidle hstep
  · intro k t th hth harg hlive
    exact not_pending_of_returned h hsep hth harg hlive

section Call

/-- A re-INVITE with which Alice offers the description of her INVITE again. -/
def aliceReInvite (cseq : UInt32) (transaction : ℕ) : Incoming :=
  ⟨⟨"INVITE", phoneBody 1 4000, [], cseq, transaction⟩, some "inbound", none⟩

def aliceAck (cseq : UInt32) : Incoming := ⟨⟨"ACK", [], [], cseq, 0⟩, some "inbound", none⟩

/-- The next operation of Alice's session, whose loop takes her re-INVITE and Bob answers it. -/
def renegotiates (m : Incoming) : System.Choice dialogSig DialogParty Empty :=
  .act 0 fun
    | .inl (.request ..) => some bobAnswers
    | .inl e => succeeding (fun _ => .response bobAnswers) (fun _ => .command (.reInvite m.request)) 0 e
    | .inr e => handlerAnswer none .timeout .timer e

/-- The next operation of a handler; an ACK finds the transaction 1, and its watcher does not. -/
def confirms (i : ℕ) : System.Choice dialogSig DialogParty Empty :=
  .act i fun
    | .inl e => succeeding (fun _ => .response bobAnswers) (fun _ => .parentDone) 0 e
    | .inr (.clearPendingCSeq ..) => some 1
    | .inr (.clearPending ..) => false
    | .inr e => handlerAnswer (some 0) .sent .result e

/-- A re-INVITE of Alice's is answered and confirmed; its watcher returns, and the next one is there. -/
def confirmedMoves : List (System.Choice dialogSig DialogParty Empty) :=
  callMoves 20 ++
    .spawn (.reInvite (aliceReInvite 2 1)) :: List.replicate 5 (confirms 1) ++
    List.replicate 20 (renegotiates (aliceReInvite 2 1)) ++ List.replicate 2 (confirms 1) ++
    .spawn (.ack (aliceAck 2)) :: List.replicate 4 (confirms 2) ++
    .spawn (.watch 0 1) :: List.replicate 2 (confirms 3) ++
    .spawn (.reInvite (aliceReInvite 3 2)) :: List.replicate 2 (confirms 4)

def confirmedRun : List (DialogState × DialogLabel) × DialogState := dialogRun smallConfig confirmedMoves

/-- The second re-INVITE is answered and its handler is not done, when the first ACK comes again. -/
def pendingRun : List (DialogState × DialogLabel) × DialogState :=
  dialogRun smallConfig (confirmedMoves ++ List.replicate 3 (confirms 4) ++
    List.replicate 20 (renegotiates (aliceReInvite 3 2)) ++
    .spawn (.ack (aliceAck 2)) :: List.replicate 2 (confirms 5))

def accepts : DialogLabel → Bool
  | .act i ⟨.inl (.respondTo t response), _⟩ => i = 0 && t = 2 && response.status < 300
  | _ => false

theorem respondTo_of_accepts {l : DialogLabel} (h : accepts l = true) : ∃ response sent,
    l = .act 0 ⟨.inl (.respondTo 2 response), sent⟩ ∧ response.status < 300 := by
  unfold accepts at h
  split at h
  · next i t response sent =>
    simp only [Bool.and_eq_true, decide_eq_true_eq] at h
    obtain ⟨⟨rfl, rfl⟩, hstatus⟩ := h
    exact ⟨response, sent, rfl, hstatus⟩
  · cases h

def DialogParty.reInviteCSeq : DialogParty → Option UInt32
  | .reInvite m => some m.request.cseq
  | _ => none

theorem increasing_of_pairwise {threads : List DialogThread}
    (h : (threads.map (·.arg.reInviteCSeq)).Pairwise fun x y => x.all fun a => y.all (a < ·)) :
    Increasing threads := by
  intro a b th th' m m' hab ha hb hm hm' _
  obtain ⟨hlt, rfl⟩ := List.getElem?_eq_some_iff.mp ha
  obtain ⟨hlt', rfl⟩ := List.getElem?_eq_some_iff.mp hb
  have hpair := List.pairwise_iff_getElem.mp h a b (by simpa using hlt) (by simpa using hlt') hab
  rw [List.getElem_map, List.getElem_map, hm, hm'] at hpair
  exact of_decide_eq_true hpair

def nextOp (th : DialogThread) : Option dialogSig.Op :=
  match th.rest with
  | .op e _ => some e
  | _ => none

theorem step_of_nextOp (cfg : Config) (C : Codecs) (n : ℕ) {st : DialogState} {i : ℕ}
    (h : st.threads[i]?.bind nextOp = some (.inr e)) :
    ∃ ev st', (dialogSystem cfg C n).Step st (.act i ev) st' := by
  obtain ⟨th, hget, hnext⟩ := Option.bind_eq_some_iff.mp h
  obtain ⟨r, sh, hperf⟩ := handler_enabled cfg.mailboxSize.toNat st.shared e
  unfold nextOp at hnext
  split at hnext
  · next hrest =>
    cases hnext
    exact ⟨_, _, .act st i th (.inr e) _ r sh hget hrest hperf⟩
  · cases hnext

theorem exists_thread {threads : List DialogThread} {parties : List (DialogParty × Bool)}
    (h : threads.map (fun th => (th.arg, th.live)) = parties) {i : ℕ} {x : DialogParty}
    {live : Bool} (hx : parties[i]? = some (x, live)) :
    ∃ th, threads[i]? = some th ∧ th.arg = x ∧ th.live = live := by
  rw [← h, List.getElem?_map] at hx
  obtain ⟨th, hget, ⟨⟩⟩ := Option.map_eq_some_iff.mp hx
  exact ⟨th, hget, rfl, rfl⟩

theorem dialogRun_gate (run : List (DialogState × DialogLabel) × DialogState)
    {choices : List (System.Choice dialogSig DialogParty Empty)} (hrun : run = dialogRun smallConfig choices)
    (h : run.1.all startsWell = true ∧
      (run.2.threads.map (·.arg.key)).Pairwise (fun x y => x = none ∨ x ≠ y) ∧
      (run.2.threads.map (·.arg.reInviteCSeq)).Pairwise (fun x y => x.all fun a => y.all (a < ·))) :
    (dialogSystem smallConfig phoneCodecs 2).Reaches .initial (System.labels run) run.2 ∧
      Separate run.2.threads ∧ Increasing run.2.threads := by
  subst hrun
  exact ⟨(dialogRun_reaches (P := fun _ _ => True) h.1 fun _ _ => trivial).reaches, h.2.1,
    increasing_of_pairwise h.2.2⟩

/-- The pending re-INVITE of Alice's session is her second one; the ACK of the first one comes again and
leaves it so. When the first one had been confirmed the next was let in, and its watcher had returned. -/
theorem reInvite_gate_alice :
    (pendingRun.2.shared.sessions 0).pending = some (2, 3) ∧
    (∃ ev st', (dialogSystem smallConfig phoneCodecs 2).Step pendingRun.2 (.act 5 ev) st' ∧
      (st'.shared.sessions 0).pending = some (2, 3)) ∧
    (∃ (j : ℕ) (th : DialogThread), pendingRun.2.threads[j]? = some th ∧ InProgress 0 th) ∧
    (∀ r st', (dialogSystem smallConfig phoneCodecs 2).Step confirmedRun.2
      (.act 4 ⟨.inr (.beginReInvite 0), r⟩) st' → r = true) ∧
    ((pendingRun.2.shared.sessions 0).pendingReInvite ≠ some 1 ∨
      (pendingRun.2.shared.sessions 0).done = true) := by
  obtain ⟨hrun, hseparate, hincreasing⟩ := dialogRun_gate pendingRun rfl (by decide +kernel)
  obtain ⟨hrun', hseparate', hincreasing'⟩ := dialogRun_gate confirmedRun rfl (by decide +kernel)
  obtain ⟨hanswered, holder, hprogress, -, hwatcher⟩ :=
    reInvite_gate smallConfig phoneCodecs 2 _ _ hrun hseparate hincreasing
  obtain ⟨-, -, -, hadmitted, -⟩ :=
    reInvite_gate smallConfig phoneCodecs 2 _ _ hrun' hseparate' hincreasing'
  obtain ⟨hparties, haccepts, hobserves, hbusy, hnext⟩ :
      pendingRun.2.threads.map (fun th => (th.arg, th.live)) =
        [(.session 0 aliceInvite, true), (.reInvite (aliceReInvite 2 1), false),
          (.ack (aliceAck 2), false), (.watch 0 1, false), (.reInvite (aliceReInvite 3 2), true),
          (.ack (aliceAck 2), true)] ∧
      (System.labels pendingRun).any accepts = true ∧
      (∀ l ∈ System.labels pendingRun, observes 0 0 2 3 l = false) ∧
      (pendingRun.2.shared.sessions 0).reInviteBusy = true ∧
      pendingRun.2.threads[5]?.bind nextOp = some (.inr (.clearPendingCSeq 0 2)) := by decide +kernel
  obtain ⟨hfree, hidle⟩ : (confirmedRun.2.shared.sessions 0).pending = none ∧
      ∀ th ∈ confirmedRun.2.threads, th.live = true →
        ⟨.beginReInvite 0, true⟩ ∉ Event.rights th.past := by decide +kernel
  obtain ⟨session, hsession, hsession', -⟩ := exists_thread (i := 0) hparties rfl
  obtain ⟨first, hfirst, hfirst', -⟩ := exists_thread (i := 1) hparties rfl
  obtain ⟨watch, hwatch, hwatch', hended⟩ := exists_thread (i := 3) hparties rfl
  obtain ⟨second, hsecond, hsecond', -⟩ := exists_thread (i := 4) hparties rfl
  obtain ⟨ack, hack, hack', -⟩ := exists_thread (i := 5) hparties rfl
  have hpending : (pendingRun.2.shared.sessions 0).pending = some (2, 3) := by
    obtain ⟨l, hl, haccepts⟩ := List.any_eq_true.mp haccepts
    obtain ⟨response, sent, rfl, hstatus⟩ := respondTo_of_accepts haccepts
    obtain ⟨before, after, hls⟩ := List.append_of_mem hl
    obtain ⟨earlier, since, rfl, hkept⟩ := hanswered before after 0 0 session second
      aliceInvite (aliceReInvite 3 2) response sent hsession hsession' (List.mem_of_getElem? hsecond)
      hsecond' hls hstatus
    refine (hkept fun l hl => hobserves l ?_).1
    rw [hls]
    rcases List.mem_append.mp hl with hl | hl
    · simp [hl]
    · simp [hl]
  refine ⟨hpending, ?_, ?_, ?_, ?_⟩
  · obtain ⟨ev, st', hstep⟩ := step_of_nextOp smallConfig phoneCodecs 2 hnext
    refine ⟨ev, st', hstep, ?_⟩
    rw [← hpending]
    exact holder 0 1 4 5 first second ack _ _ ev st' (by decide) hfirst hsecond hfirst' hsecond' rfl
      (by rw [SessionShared.pendingReInvite, hpending]; rfl) hack hstep (.inl ⟨_, hack', rfl⟩)
  · obtain ⟨j, th, hget, hth, -⟩ := hprogress 0 hbusy
    exact ⟨j, th, hget, hth⟩
  · exact fun r st' => hadmitted 0 4 r st' hfree fun th hth hprogress =>
      hidle th hth hprogress.1 hprogress.2.2
  · exact hwatcher 0 1 watch (List.mem_of_getElem? hwatch) hwatch' hended

end Call

end AixvolinkPbx.B2bua
