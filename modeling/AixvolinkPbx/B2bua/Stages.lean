import AixvolinkPbx.B2bua.DialogSteps

/-!
# Stages of sessions and handlers

How far the goroutine of a session is with the command it took, and how far a handler is with its
request. Each is followed by a monitor, and the programs keep to the order of the stages:

1. A session answers a command with one final response before it closes its result and takes the next
   one (`handleInvite_stage`). It sends a re-INVITE on only after it found no other one pending.
2. A handler refuses its request or puts one command to a session; it answers the request itself only if
   it refused it or gave up waiting (`party_stage`).
-/

namespace AixvolinkPbx.B2bua

open Calls (Actor)
open Sdp (Body Codecs)
open Prog (Safe Only safe_bind safe_call safe_pure safe_mono safe_when safe_loop only_bind only_pure)

/-- The transaction of the request behind a command. -/
def SessionCommand.transaction : SessionCommand → Option ℕ
  | .hangup _ => none
  | .reInvite request => some request.transaction
  | .refer request => some request.transaction
  | .notify request => some request.transaction

/-! ## The command loop -/

/-- How far a session is with its commands. -/
inductive LoopStage
  /-- Before the loop, or between two commands. -/
  | idle
  /-- It took the command. -/
  | held (command : SessionCommand)
  /-- For a re-INVITE it read that another one is pending. -/
  | polling (request : Request) (pending : ℕ)
  /-- That one has its ACK. -/
  | acked (request : Request) (pending : ℕ)
  /-- No re-INVITE is pending. -/
  | free (request : Request)
  /-- The re-INVITE is the pending one, and not answered yet. -/
  | set (request : Request)
  /-- The command is answered. -/
  | answered (command : SessionCommand)
  /-- The loop is left, or was not entered. -/
  | over
  | bad
  deriving DecidableEq

def LoopStage.command : LoopStage → Option SessionCommand
  | .held command => some command
  | .polling request _ => some (.reInvite request)
  | .acked request _ => some (.reInvite request)
  | .free request => some (.reInvite request)
  | .set request => some (.reInvite request)
  | .answered command => some command
  | _ => none

/-- The final responses a session may answer its command with: a re-INVITE that is not the pending one is
refused. -/
def LoopStage.answers (response : Response) : LoopStage → Bool
  | .held (.reInvite _) => 300 ≤ response.status
  | .held _ => true
  | .polling _ _ => 300 ≤ response.status
  | .free _ => 300 ≤ response.status
  | .set _ => response.status = 200
  | _ => false

def LoopStage.relays (leg : Leg) (method : String) : LoopStage → Bool
  | .held (.refer request) => leg = .callee && method = request.method
  | .held (.notify request) => leg = .caller && method = request.method
  | .free _ => leg = .callee && method = "INVITE"
  | _ => false

def afterSelect : Selected → LoopStage
  | .command (.hangup _) => .over
  | .command c => .held c
  | _ => .over

def nextLoop (g : LoopStage) : (e : EngineOp) → engineSig.Ans e → LoopStage
  | .select, r => if g = .idle then afterSelect r else .bad
  | .readPending, r =>
    match g with
    | .held (.reInvite request) =>
      match r with
      | none => .free request
      | some t => .polling request t
    | _ => .bad
  | .pollAcks t, r =>
    match g with
    | .polling request t' => if t = t' then (if r then .acked request t else g) else .bad
    | _ => .bad
  | .clearPending t, _ =>
    match g with
    | .acked request t' => if t = t' then .free request else .bad
    | _ => .bad
  | .setPending t cseq, _ =>
    match g with
    | .free request => if t = request.transaction ∧ cseq = request.cseq then .set request else .bad
    | _ => .bad
  | .request leg method _ _, _ => if g.relays leg method then g else .bad
  | .respondTo t response, _ =>
    match g.command with
    | some c => if g.answers response ∧ c.transaction = some t ∧ response.isFinal then .answered c
      else .bad
    | none => .bad
  | .closeResult t, _ =>
    match g with
    | .answered c => if c.transaction = some t then .idle else .bad
    | _ => .bad
  | .takePending, _ => if g = .idle ∨ g = .over then .over else .bad
  | .closeDone, _ => if g = .over then .over else .bad
  | _, _ => g

/-- `Do` returns final responses. -/
def finalOnly : (e : EngineOp) → engineSig.Ans e → Prop
  | .request .., r => ∀ response, r = some response → response.isFinal = true
  | _, _ => True

def loopMonitor : Monitor engineSig LoopStage where
  next := nextLoop
  good g := g ≠ .bad
  admits := finalOnly

variable {g : LoopStage} {e : EngineOp}

theorem nextLoop_of_not_command (he : commandOp e = false) (r : engineSig.Ans e) :
    nextLoop g e r = g := by
  cases e <;> first | rfl | cases he

section NextLoop

variable {c : SessionCommand} {t : ℕ}

theorem nextLoop_pollAcks (request : Request) (t : ℕ) (r : Bool) :
    nextLoop (.polling request t) (.pollAcks t) r =
      if r then .acked request t else .polling request t := if_pos rfl

theorem nextLoop_clearPending (request : Request) (t : ℕ) (r : Bool) :
    nextLoop (.acked request t) (.clearPending t) r = .free request := if_pos rfl

theorem nextLoop_setPending (request : Request) (r : Unit) :
    nextLoop (.free request) (.setPending request.transaction request.cseq) r = .set request :=
  if_pos ⟨rfl, rfl⟩

theorem nextLoop_request {leg : Leg} {method : String} (h : g.relays leg method = true) (body : Body)
    (headers : List Header) (r : Option Response) :
    nextLoop g (.request leg method body headers) r = g := if_pos h

theorem nextLoop_respondTo (g : LoopStage) (t : ℕ) (response : Response) (r : Bool) :
    nextLoop g (.respondTo t response) r = g.command.elim .bad fun c =>
      if g.answers response ∧ c.transaction = some t ∧ response.isFinal then .answered c else .bad := by
  cases hcommand : g.command <;> simp [nextLoop, hcommand]

theorem nextLoop_closeResult (h : c.transaction = some t) (r : Unit) :
    nextLoop (.answered c) (.closeResult t) r = .idle := if_pos h

theorem nextLoop_takePending (h : g = .idle ∨ g = .over) (r : Option ℕ) :
    nextLoop g .takePending r = .over := if_pos h

end NextLoop

/-- The moves between the stages of a session. -/
inductive LoopStep : LoopStage → (e : EngineOp) → engineSig.Ans e → LoopStage → Prop
  | select (r : Selected) : LoopStep .idle .select r (afterSelect r)
  | found (request : Request) (t : ℕ) :
      LoopStep (.held (.reInvite request)) .readPending (some t) (.polling request t)
  | unfound (request : Request) : LoopStep (.held (.reInvite request)) .readPending none (.free request)
  | unacked (request : Request) (t : ℕ) :
      LoopStep (.polling request t) (.pollAcks t) false (.polling request t)
  | acked (request : Request) (t : ℕ) :
      LoopStep (.polling request t) (.pollAcks t) true (.acked request t)
  | clear (request : Request) (t : ℕ) (r : Bool) :
      LoopStep (.acked request t) (.clearPending t) r (.free request)
  | set (request : Request) :
      LoopStep (.free request) (.setPending request.transaction request.cseq) () (.set request)
  | relay {g : LoopStage} {leg : Leg} {method : String} (body : Body) (headers : List Header)
      (r : Option Response) (h : g.relays leg method = true) :
      LoopStep g (.request leg method body headers) r g
  | answer {g : LoopStage} {c : SessionCommand} {t : ℕ} {response : Response} (r : Bool)
      (hcommand : g.command = some c) (hanswers : g.answers response = true)
      (htransaction : c.transaction = some t) (hfinal : response.isFinal = true) :
      LoopStep g (.respondTo t response) r (.answered c)
  | close {c : SessionCommand} {t : ℕ} (htransaction : c.transaction = some t) :
      LoopStep (.answered c) (.closeResult t) () .idle
  | take {g : LoopStage} (r : Option ℕ) (h : g = .idle ∨ g = .over) : LoopStep g .takePending r .over
  | done : LoopStep .over .closeDone () .over
  | other {g : LoopStage} {e : EngineOp} (r : engineSig.Ans e) (he : commandOp e = false) :
      LoopStep g e r g

theorem loopStep {r : engineSig.Ans e} (hgood : nextLoop g e r ≠ .bad) :
    LoopStep g e r (nextLoop g e r) := by
  by_cases hcommand : commandOp e = true
  · cases e with
    | select =>
      by_cases h : g = .idle
      · subst h
        exact .select r
      · exact absurd (if_neg h) hgood
    | readPending =>
      cases g with
      | held c =>
        cases c with
        | reInvite request =>
          cases r with
          | none => exact .unfound request
          | some t => exact .found request t
        | _ => exact absurd rfl hgood
      | _ => exact absurd rfl hgood
    | pollAcks t =>
      cases g with
      | polling request t' =>
        by_cases h : t = t'
        · subst h
          rw [nextLoop_pollAcks]
          cases r with
          | false => exact .unacked request t
          | true => exact .acked request t
        · exact absurd (if_neg h) hgood
      | _ => exact absurd rfl hgood
    | clearPending t =>
      cases g with
      | acked request t' =>
        by_cases h : t = t'
        · subst h
          rw [nextLoop_clearPending]
          exact .clear request t r
        · exact absurd (if_neg h) hgood
      | _ => exact absurd rfl hgood
    | setPending t cseq =>
      cases g with
      | free request =>
        by_cases h : t = request.transaction ∧ cseq = request.cseq
        · obtain ⟨rfl, rfl⟩ := h
          rw [nextLoop_setPending]
          exact .set request
        · exact absurd (if_neg h) hgood
      | _ => exact absurd rfl hgood
    | request leg method body headers =>
      by_cases h : g.relays leg method = true
      · rw [nextLoop_request h]
        exact .relay body headers r h
      · exact absurd (if_neg h) hgood
    | respondTo t response =>
      rw [nextLoop_respondTo] at hgood ⊢
      cases hcommand : g.command with
      | none =>
        rw [hcommand] at hgood
        exact absurd rfl hgood
      | some c =>
        rw [hcommand, Option.elim_some] at hgood
        by_cases h : g.answers response = true ∧ c.transaction = some t ∧ response.isFinal = true
        · rw [Option.elim_some, if_pos h]
          exact .answer r hcommand h.1 h.2.1 h.2.2
        · exact absurd (if_neg h) hgood
    | closeResult t =>
      cases g with
      | answered c =>
        by_cases h : c.transaction = some t
        · rw [nextLoop_closeResult h]
          exact .close h
        · exact absurd (if_neg h) hgood
      | _ => exact absurd rfl hgood
    | takePending =>
      by_cases h : g = .idle ∨ g = .over
      · rw [nextLoop_takePending h]
        exact .take r h
      · exact absurd (if_neg h) hgood
    | closeDone =>
      by_cases h : g = .over
      · subst h
        exact .done
      · exact absurd (if_neg h) hgood
    | _ => cases hcommand
  · have hother : commandOp e = false := by simpa using hcommand
    rw [nextLoop_of_not_command hother]
    exact .other r hother

/-! ### Parts of a session that take no command -/

/-- The operations the stage of a session does not depend on. -/
def OffLoop (e : EngineOp) : Prop := commandOp e = false

theorem offLoop_op (h : commandOp e = false) : Only OffLoop (op e) := Prog.only_call.mpr h

theorem only_offLoop {α : Type} {kinds : List Kind} {p : Prog engineSig α} (hp : Only (Among kinds) p)
    (hkinds : ∀ k ∈ [Kind.select, .inDialog, .cleanup], k ∉ kinds) : Only OffLoop p := by
  refine hp.mono fun e he => ?_
  have hkind : ∀ k ∈ [Kind.select, .inDialog, .cleanup], kind e ≠ k :=
    fun k hk heq => hkinds k hk (heq ▸ he)
  cases e <;> first | rfl | exact absurd rfl (hkind _ (of_decide_eq_true rfl))

theorem offLoop_safe {α : Type} {p : Prog engineSig α} (hp : Only OffLoop p) (hg : g ≠ .bad) :
    Safe loopMonitor g p fun _ g' => g' = g :=
  hp.safe hg fun _ r he => nextLoop_of_not_command he r

theorem loop_op_safe {Q : engineSig.Ans e → LoopStage → Prop}
    (h : ∀ r, finalOnly e r → nextLoop g e r ≠ .bad ∧ Q r (nextLoop g e r)) :
    Safe loopMonitor g (op e) Q := safe_call.mpr h

/-! ### Commands -/

section Commands

variable (C : Codecs) (s : Session) {c : SessionCommand}

theorem answerRequest_stage {request : Request} {status : ℕ} {reason : String} {body : Body}
    {headers : List Header} (hcommand : g.command = some c)
    (hanswers : g.answers ⟨status, reason, body, headers⟩ = true)
    (ht : c.transaction = some request.transaction) (hstatus : 200 ≤ status) :
    Safe loopMonitor g (answerRequest request status reason body headers) fun _ g' =>
      g' = .answered c := by
  have hnext : ∀ r : Bool, nextLoop g (.respondTo request.transaction
    ⟨status, reason, body, headers⟩) r =
      .answered c := by
    intro r
    rw [nextLoop_respondTo, hcommand]
    exact if_pos ⟨hanswers, ht, decide_eq_true hstatus⟩
  unfold answerRequest
  rw [safe_bind]
  refine loop_op_safe fun r _ => ?_
  rw [hnext]
  exact ⟨by simp, safe_pure.mpr rfl⟩

theorem hasPendingReInvite_stage (request : Request) :
    Safe loopMonitor (.held (.reInvite request)) hasPendingReInvite fun pending g =>
      if pending then ∃ t, g = .polling request t else g = .free request := by
  unfold hasPendingReInvite
  rw [safe_bind]
  refine loop_op_safe fun r _ => ?_
  cases r with
  | none => exact ⟨nofun, safe_pure.mpr rfl⟩
  | some t =>
    refine ⟨nofun, safe_bind.mpr (loop_op_safe fun acked _ => ?_)⟩
    have hread : nextLoop (.held (.reInvite request)) .readPending (some t) =
        .polling request t := rfl
    rw [hread, nextLoop_pollAcks]
    cases acked with
    | false => exact ⟨nofun, safe_pure.mpr ⟨t, rfl⟩⟩
    | true =>
      refine ⟨nofun, safe_bind.mpr ?_⟩
      unfold completePendingReInviteTransaction
      refine safe_bind.mpr (loop_op_safe fun cleared _ => ?_)
      rw [if_pos rfl, nextLoop_clearPending]
      refine ⟨nofun, safe_when.mpr ⟨fun _ => ?_, fun _ => safe_pure.mpr rfl⟩⟩
      refine safe_mono (offLoop_safe (offLoop_op rfl) nofun) fun _ g hg => ?_
      exact safe_pure.mpr hg

theorem handleReInviteCommand_stage (request : Request) :
    Safe loopMonitor (.held (.reInvite request)) (handleReInviteCommand C s request) fun _ g =>
      g = .answered (.reInvite request) := by
  have answered : ∀ {g : LoopStage} {status : ℕ} {reason : String} {body : Body} {s' : Session},
      g.command = some (.reInvite request) → g.answers ⟨status, reason, body, []⟩ = true →
      200 ≤ status → Safe loopMonitor g (do
        answerRequest request status reason body []
        return s') fun _ g' => g' = .answered (.reInvite request) := by
    intro g status reason body s' hcommand hanswers hstatus
    exact .bind (answerRequest_stage hcommand hanswers rfl hstatus) fun _ _ h =>
      safe_pure.mpr h
  have free : ∀ {status : ℕ} {reason : String} {body : Body} {s' : Session}, 300 ≤ status →
      Safe loopMonitor (.free request) (do
        answerRequest request status reason body []
        return s') fun _ g' => g' = .answered (.reInvite request) :=
    fun hstatus => answered rfl (decide_eq_true hstatus) (by omega)
  unfold handleReInviteCommand
  rw [safe_bind]
  refine safe_mono (hasPendingReInvite_stage request) fun pending g hg => ?_
  cases pending with
  | true =>
    obtain ⟨t, rfl⟩ := hg
    exact answered rfl rfl (by decide)
  | false =>
    obtain rfl : g = .free request := hg
    dsimp only
    split
    · next h => cases h
    split
    · exact free (by decide)
    split
    · exact free (by decide)
    rw [safe_bind]
    refine safe_mono (offLoop_safe (offLoop_op rfl) (by simp)) fun sessionID g hg => ?_
    subst hg
    split
    · exact free (by decide)
    rw [safe_bind]
    refine loop_op_safe fun response hfinal => ?_
    have hrelays : (LoopStage.free request).relays .callee "INVITE" = true := rfl
    rw [nextLoop_request hrelays]
    refine ⟨by simp, ?_⟩
    cases response with
    | none => exact free (by decide)
    | some response =>
      have hstatus : 200 ≤ response.status := of_decide_eq_true (hfinal response rfl)
      dsimp only
      split
      · next hrefused =>
        simp only [Response.isSuccess, Bool.not_eq_true', Bool.and_eq_false_iff,
          decide_eq_false_iff_not] at hrefused
        exact free (by omega)
      rw [safe_bind]
      refine safe_mono (offLoop_safe (offLoop_op rfl) (by simp)) fun acked g hg => ?_
      subst hg
      split
      · exact free (by decide)
      rw [safe_bind]
      refine safe_mono (offLoop_safe (only_offLoop (only_applyMediaAnswer ..) (by simp)) (by simp))
        fun answered g hg => ?_
      subst hg
      obtain ⟨err | answer, s'⟩ := answered
      · exact free (by decide)
      dsimp only
      rw [safe_bind]
      refine safe_mono (offLoop_safe (only_offLoop (only_transition ..) (by simp)) (by simp))
        fun err g hg => ?_
      subst hg
      split
      · exact free (by decide)
      rw [safe_bind]
      refine loop_op_safe fun r _ => ?_
      rw [nextLoop_setPending]
      refine ⟨by simp, safe_bind.mpr ?_⟩
      exact safe_mono (answerRequest_stage rfl rfl rfl (by decide)) fun _ _ h => safe_pure.mpr h

theorem relay_stage {leg : Leg} {request : Request}
    (hrelays : (LoopStage.held c).relays leg request.method = true)
    (hanswers : ∀ response, (LoopStage.held c).answers response = true)
    (ht : c.transaction = some request.transaction) :
    Safe loopMonitor (.held c) (relay leg request) fun _ g => g = .answered c := by
  unfold relay
  rw [safe_bind]
  refine loop_op_safe fun response hfinal => ?_
  rw [nextLoop_request hrelays]
  refine ⟨nofun, ?_⟩
  cases response with
  | none => exact answerRequest_stage rfl (hanswers _) ht (by decide)
  | some response =>
    exact answerRequest_stage rfl (hanswers _) ht (of_decide_eq_true (hfinal response rfl))

theorem handleCommand_stage (c : SessionCommand) :
    Safe loopMonitor (afterSelect (.command c)) (handleCommand C s c) fun res g =>
      g = if res.1 then .over else .idle := by
  have close : ∀ {c : SessionCommand} {request : Request} {s' : Session},
      c.transaction = some request.transaction → Safe loopMonitor (.answered c) (do
        op (.closeResult request.transaction)
        return (false, s')) fun res g => g = if res.1 then .over else .idle := by
    intro c request s' ht
    rw [safe_bind]
    refine loop_op_safe fun r _ => ?_
    rw [nextLoop_closeResult ht]
    exact ⟨nofun, safe_pure.mpr rfl⟩
  cases c with
  | hangup origin =>
    refine .bind (offLoop_safe (only_offLoop (only_handleHangup ..) (by simp)) nofun) ?_
    intro _ g hg
    exact safe_pure.mpr hg
  | reInvite request =>
    refine .bind (handleReInviteCommand_stage C s request) fun _ g hg => ?_
    rw [hg]
    exact close rfl
  | refer request =>
    refine .bind (relay_stage (by simp [LoopStage.relays]) (fun _ => rfl) rfl)
      fun _ g hg => ?_
    rw [hg]
    exact close rfl
  | notify request =>
    refine .bind (relay_stage (by simp [LoopStage.relays]) (fun _ => rfl) rfl)
      fun _ g hg => ?_
    rw [hg]
    exact close rfl

theorem commandLoop_stage (n : ℕ) :
    Safe loopMonitor .idle (commandLoop C n s) fun _ g => g = .over := by
  refine safe_loop (I := fun _ g => g = .idle) (fun s g hg => ?_) n rfl
  rw [hg]
  unfold loopRound
  rw [safe_bind]
  refine loop_op_safe fun sel _ => ?_
  have hnext : nextLoop .idle .select sel = afterSelect sel := rfl
  have hhangup : ∀ s' : Session, Safe loopMonitor .over (do
      handleHangup .detached s' .caller
      return (.inr s' : Session ⊕ Session)) fun x g => x.elim (fun _ => g = .idle) fun _ => g = .over := by
    intro s'
    refine .bind (offLoop_safe (only_offLoop (only_handleHangup ..) (by simp)) nofun) ?_
    intro _ g hg
    exact safe_pure.mpr hg
  rw [hnext]
  cases sel with
  | command c =>
    refine ⟨by cases c <;> nofun, .bind (handleCommand_stage C s c) ?_⟩
    rintro ⟨ended, s'⟩ g hg
    cases ended with
    | false => exact safe_pure.mpr hg
    | true => exact safe_pure.mpr hg
  | parentDone => exact ⟨nofun, hhangup s⟩
  | mediaDone failed => exact ⟨nofun, hhangup _⟩

theorem only_offLoop_answer (response : Response) : Only OffLoop (answer C s response) :=
  only_offLoop (only_answer C s response) (by simp [setupKinds])

theorem finish_stage (hg : g = .idle ∨ g = .over) :
    Safe loopMonitor g (finish s) fun _ g' => g' = .over := by
  have hbad : g ≠ .bad := by rcases hg with rfl | rfl <;> simp
  have hmedia : Only OffLoop (stopMedia s) := by
    unfold stopMedia
    split
    · exact only_pure
    · refine only_bind (Prog.only_when (offLoop_op rfl)) fun _ => only_bind (offLoop_op rfl) fun _ => ?_
      exact only_bind (Prog.only_when (only_bind (offLoop_op rfl) fun _ => only_pure)) fun _ => offLoop_op rfl
  have hremove : Only OffLoop (remove s) :=
    only_bind (offLoop_op rfl) fun _ => Prog.only_when (offLoop_op rfl)
  have hpending : Safe loopMonitor g completePendingReInvite fun _ g' => g' = .over := by
    unfold completePendingReInvite
    rw [safe_bind]
    refine loop_op_safe fun r _ => ?_
    rw [nextLoop_takePending hg]
    cases r with
    | none => exact ⟨by simp, safe_pure.mpr rfl⟩
    | some t => exact ⟨by simp, offLoop_safe (offLoop_op rfl) (by simp)⟩
  unfold finish
  rw [safe_bind]
  refine safe_mono (offLoop_safe (offLoop_op rfl) hbad) fun _ g₁ h₁ => ?_
  rw [h₁, safe_bind]
  refine safe_mono hpending fun _ g₂ h₂ => ?_
  rw [h₂, safe_bind]
  refine safe_mono (offLoop_safe hmedia (by simp)) fun _ g₃ h₃ => ?_
  rw [h₃, safe_bind]
  refine safe_mono (offLoop_safe (offLoop_op rfl) (by simp)) fun _ g₄ h₄ => ?_
  rw [h₄, safe_bind]
  refine safe_mono (offLoop_safe hremove (by simp)) fun _ g₅ h₅ => ?_
  rw [h₅, safe_bind]
  refine loop_op_safe fun _ _ => ⟨by rintro ⟨⟩, ?_⟩
  exact offLoop_safe (offLoop_op rfl) (by rintro ⟨⟩)

/-- A session answers each command it takes with one final response, and leaves its loop for good. -/
theorem handleInvite_stage (cfg : Config) (n : ℕ) (invite : Invite) :
    Safe loopMonitor .idle (handleInvite cfg C n invite) fun _ g => g ≠ .bad := by
  have hadmission : Only OffLoop (admission cfg invite) :=
    only_offLoop (only_admission cfg invite) (by simp [admissionKinds])
  have hsetup : ∀ (s : Session) (actor : Actor), Only OffLoop (setup cfg C n s actor invite) := by
    intro s actor
    unfold setup
    apply only_bind (offLoop_op rfl)
    intro _
    apply only_bind (only_offLoop (only_prepare cfg C s invite) (by simp [prepareKinds, setupKinds]))
    rintro ⟨s₁, prepared⟩
    cases prepared with
    | none => exact only_pure
    | some prepared =>
      apply only_bind (only_offLoop (only_dial C s₁ n _ _) (by simp [setupKinds]))
      rintro ⟨s₂, response⟩
      cases response with
      | none => exact only_pure
      | some response => exact only_offLoop_answer C s₂ response
  have hfinish : ∀ {s : Session} {g : LoopStage}, g = .idle ∨ g = .over →
      Safe loopMonitor g (finish s) fun _ g' => g' ≠ .bad := by
    intro s g hg
    refine safe_mono (finish_stage s hg) fun _ g' hg' => ?_
    rw [hg']
    simp
  unfold handleInvite answerInvite
  rw [safe_bind, safe_bind]
  refine safe_mono (offLoop_safe hadmission (by simp)) fun admitted g hg => ?_
  subst hg
  cases admitted with
  | none => exact safe_pure.mpr (safe_pure.mpr (by simp))
  | some admitted =>
    obtain ⟨s, actor⟩ := admitted
    refine .bind (offLoop_safe (hsetup s actor) (by simp)) ?_
    rintro ⟨s', entered⟩ g hg
    subst hg
    apply safe_pure.mpr
    cases entered with
    | false => exact hfinish (.inl rfl)
    | true =>
      refine .bind (commandLoop_stage C s' n) fun s'' g hg => ?_
      exact hfinish (.inr hg)

end Commands

/-! ## The handlers -/

/-- The command a handler puts to the session of its request. -/
def DialogParty.command : DialogParty → Option SessionCommand
  | .reInvite m => some (.reInvite m.request)
  | .refer m => some (.refer m.request)
  | .notify m => some (.notify m.request)
  | _ => none

def DialogParty.transaction : DialogParty → Option ℕ
  | .bye m => some m.request.transaction
  | .reInvite m => some m.request.transaction
  | .refer m => some m.request.transaction
  | .notify m => some m.request.transaction
  | _ => none

def DialogParty.reInvites : DialogParty → Bool
  | .reInvite _ => true
  | _ => false

/-- How far a handler is. -/
inductive Progress
  /-- It has neither answered its request nor put its command to a session. -/
  | fresh
  /-- Its command is in a mailbox. -/
  | waiting
  /-- Its command did not get into the mailbox. -/
  | lost
  /-- It stopped waiting for its command. -/
  | givingUp
  /-- Nothing is left to do for the request. -/
  | settled
  /-- A watcher saw the ACK or the end of its transaction. -/
  | observed
  | bad
  deriving DecidableEq

structure HandlerStage where
  party : DialogParty
  progress : Progress
  /-- The session whose `reInviteBusy` the handler has set. -/
  gate : Option ℕ
  deriving DecidableEq

def afterEnqueue (party : DialogParty) (c : SessionCommand) (r : Enqueued) : Progress :=
  if party.command = some c then (if r = .sent then .waiting else .lost)
  else if party.command = none ∧ c.transaction = none then .settled
  else .bad

def nextProgress (h : HandlerStage) : (e : HandlerOp) → handlerSig.Ans e → Progress
  | .enqueue _ c, r => if h.progress = .fresh then afterEnqueue h.party c r else .bad
  | .awaitResult _ t, r =>
    if (h.progress = .waiting ∨ h.progress = .lost) ∧ h.party.transaction = some t then
      (if r = .result then .settled else .givingUp)
    else .bad
  | .respond t response, _ =>
    if (h.progress = .fresh ∨ h.progress = .givingUp) ∧ h.party.transaction = some t ∧
      response.isFinal then .settled
    else .bad
  | .beginReInvite _, _ => if h.gate = none ∧ h.party.reInvites then h.progress else .bad
  | .finishReInvite k, _ => if h.gate = some k then h.progress else .bad
  | .awaitPending k t, r =>
    if h.party = .watch k t then (if r = .sessionDone then h.progress else .observed) else .bad
  | .clearPending k t, _ => if h.party = .watch k t ∧ h.progress = .observed then .observed else .bad
  | .clearPendingCSeq _ cseq, _ =>
    match h.party with
    | .ack m => if cseq = m.request.cseq then h.progress else .bad
    | _ => .bad
  | _, _ => h.progress

def nextGate (gate : Option ℕ) : (e : HandlerOp) → handlerSig.Ans e → Option ℕ
  | .beginReInvite k, r => if r then some k else gate
  | .finishReInvite _, _ => none
  | _, _ => gate

def nextHandler (h : HandlerStage) (e : HandlerOp) (r : handlerSig.Ans e) : HandlerStage :=
  ⟨h.party, nextProgress h e r, nextGate h.gate e r⟩

def handlerMonitor : Monitor handlerSig HandlerStage where
  next := nextHandler
  good h := h.progress ≠ .bad
  admits _ _ := True

/-- The operations that the progress of a handler does not depend on. -/
def aside : HandlerOp → Bool
  | .lookup _ _ => true
  | .hasDialog _ _ => true
  | .readBye _ => true
  | .readRequest _ => true
  | .readAck => true
  | .terminate _ => true
  | _ => false

/-- The moves of a handler. -/
inductive ProgressStep (h : HandlerStage) : (e : HandlerOp) → handlerSig.Ans e → Progress → Prop
  | put (k : ℕ) {c : SessionCommand} (hfresh : h.progress = .fresh) (hcommand : h.party.command = some c) :
      ProgressStep h (.enqueue k c) .sent .waiting
  | lose (k : ℕ) {c : SessionCommand} {r : Enqueued} (hfresh : h.progress = .fresh)
      (hcommand : h.party.command = some c) (hr : r ≠ .sent) : ProgressStep h (.enqueue k c) r .lost
  | hangup (k : ℕ) {c : SessionCommand} (r : Enqueued) (hfresh : h.progress = .fresh)
      (hcommand : h.party.command = none) (hc : c.transaction = none) :
      ProgressStep h (.enqueue k c) r .settled
  | result (k : ℕ) {t : ℕ} (hwaits : h.progress = .waiting ∨ h.progress = .lost)
      (ht : h.party.transaction = some t) : ProgressStep h (.awaitResult k t) .result .settled
  | giveUp (k : ℕ) {t : ℕ} {r : Finished} (hwaits : h.progress = .waiting ∨ h.progress = .lost)
      (ht : h.party.transaction = some t) (hr : r ≠ .result) :
      ProgressStep h (.awaitResult k t) r .givingUp
  | respond {t : ℕ} {response : Response} (r : Unit)
      (hanswers : h.progress = .fresh ∨ h.progress = .givingUp) (ht : h.party.transaction = some t)
      (hfinal : response.isFinal = true) : ProgressStep h (.respond t response) r .settled
  | enter (k : ℕ) (r : Bool) (hgate : h.gate = none) (hparty : h.party.reInvites = true) :
      ProgressStep h (.beginReInvite k) r h.progress
  | leave {k : ℕ} (r : Unit) (hgate : h.gate = some k) :
      ProgressStep h (.finishReInvite k) r h.progress
  | observe {k t : ℕ} {r : Watched} (hparty : h.party = .watch k t) (hr : r ≠ .sessionDone) :
      ProgressStep h (.awaitPending k t) r .observed
  | ended {k t : ℕ} (hparty : h.party = .watch k t) :
      ProgressStep h (.awaitPending k t) .sessionDone h.progress
  | clear {k t : ℕ} (r : Bool) (hparty : h.party = .watch k t) (hobserved : h.progress = .observed) :
      ProgressStep h (.clearPending k t) r .observed
  | acknowledge (k : ℕ) {m : Incoming} (r : Option ℕ) (hparty : h.party = .ack m) :
      ProgressStep h (.clearPendingCSeq k m.request.cseq) r h.progress
  | other {e : HandlerOp} (r : handlerSig.Ans e) (he : aside e = true) : ProgressStep h e r h.progress

section NextProgress

variable {h : HandlerStage} {k t : ℕ}

theorem nextProgress_enqueue (hfresh : h.progress = .fresh) (r : Enqueued) :
    nextProgress h (.enqueue k c) r = afterEnqueue h.party c r := if_pos hfresh

theorem nextProgress_awaitResult (hwaits : h.progress = .waiting ∨ h.progress = .lost)
    (ht : h.party.transaction = some t) (r : Finished) :
    nextProgress h (.awaitResult k t) r = if r = .result then .settled else .givingUp :=
  if_pos ⟨hwaits, ht⟩

theorem nextProgress_respond {response : Response}
    (hanswers : h.progress = .fresh ∨ h.progress = .givingUp) (ht : h.party.transaction = some t)
    (hfinal : response.isFinal = true) (r : Unit) :
    nextProgress h (.respond t response) r = .settled := if_pos ⟨hanswers, ht, hfinal⟩

theorem nextProgress_finishReInvite (hgate : h.gate = some k) (r : Unit) :
    nextProgress h (.finishReInvite k) r = h.progress := if_pos hgate

theorem nextProgress_awaitPending (hparty : h.party = .watch k t) (r : Watched) :
    nextProgress h (.awaitPending k t) r = if r = .sessionDone then h.progress else .observed :=
  if_pos hparty

theorem nextProgress_clearPending (hparty : h.party = .watch k t) (hobserved : h.progress = .observed)
    (r : Bool) : nextProgress h (.clearPending k t) r = .observed := if_pos ⟨hparty, hobserved⟩

end NextProgress

variable {h : HandlerStage}

theorem progressStep {e : HandlerOp} {r : handlerSig.Ans e} (hgood : nextProgress h e r ≠ .bad) :
    ProgressStep h e r (nextProgress h e r) := by
  cases e with
  | enqueue k c =>
    by_cases hfresh : h.progress = .fresh
    · rw [nextProgress_enqueue hfresh] at hgood ⊢
      unfold afterEnqueue at hgood ⊢
      by_cases hcommand : h.party.command = some c
      · rw [if_pos hcommand]
        cases r with
        | sent => exact .put k hfresh hcommand
        | _ => exact .lose k hfresh hcommand nofun
      · rw [if_neg hcommand] at hgood ⊢
        by_cases hnone : h.party.command = none ∧ c.transaction = none
        · rw [if_pos hnone]
          exact .hangup k r hfresh hnone.1 hnone.2
        · exact absurd (if_neg hnone) hgood
    · exact absurd (if_neg hfresh) hgood
  | awaitResult k t =>
    by_cases h' : (h.progress = .waiting ∨ h.progress = .lost) ∧ h.party.transaction = some t
    · rw [nextProgress_awaitResult h'.1 h'.2]
      cases r with
      | result => exact .result k h'.1 h'.2
      | _ => exact .giveUp k h'.1 h'.2 nofun
    · exact absurd (if_neg h') hgood
  | respond t response =>
    by_cases h' : (h.progress = .fresh ∨ h.progress = .givingUp) ∧ h.party.transaction = some t ∧
        response.isFinal = true
    · rw [nextProgress_respond h'.1 h'.2.1 h'.2.2]
      exact .respond r h'.1 h'.2.1 h'.2.2
    · exact absurd (if_neg h') hgood
  | beginReInvite k =>
    by_cases h' : h.gate = none ∧ h.party.reInvites = true
    · have hnext : nextProgress h (.beginReInvite k) r = h.progress := if_pos h'
      rw [hnext]
      exact .enter k r h'.1 h'.2
    · exact absurd (if_neg h') hgood
  | finishReInvite k =>
    by_cases h' : h.gate = some k
    · rw [nextProgress_finishReInvite h']
      exact .leave r h'
    · exact absurd (if_neg h') hgood
  | awaitPending k t =>
    by_cases h' : h.party = .watch k t
    · rw [nextProgress_awaitPending h']
      cases r with
      | sessionDone => exact .ended h'
      | _ => exact .observe h' nofun
    · exact absurd (if_neg h') hgood
  | clearPending k t =>
    by_cases h' : h.party = .watch k t ∧ h.progress = .observed
    · rw [nextProgress_clearPending h'.1 h'.2]
      exact .clear r h'.1 h'.2
    · exact absurd (if_neg h') hgood
  | clearPendingCSeq k cseq =>
    cases hparty : h.party with
    | ack m =>
      by_cases h' : cseq = m.request.cseq
      · subst h'
        have hnext : nextProgress h (.clearPendingCSeq k m.request.cseq) r = h.progress := by
          simp [nextProgress, hparty]
        rw [hnext]
        exact .acknowledge k r hparty
      · simp [nextProgress, hparty, h'] at hgood
    | _ => simp [nextProgress, hparty] at hgood
  | _ => exact .other r rfl

section Handlers

variable {x : DialogParty} {m : Incoming}

theorem skip_op_safe {e : HandlerOp} (hnext : ∀ r, nextHandler h e r = h)
    (hgood : h.progress ≠ .bad) : Safe handlerMonitor h (hop e) fun _ h' => h' = h := by
  rw [safe_call]
  intro r _
  have heq : handlerMonitor.next h e r = h := hnext r
  rw [heq]
  exact ⟨hgood, rfl⟩

theorem findSession_stage (leg : Leg) (hgood : h.progress ≠ .bad) :
    Safe handlerMonitor h (findSession leg m) fun _ h' => h' = h := by
  unfold findSession
  split
  · exact safe_pure.mpr rfl
  · exact skip_op_safe (fun _ => rfl) hgood

theorem refuse_stage {p : Progress} {gate : Option ℕ} {status : ℕ} {reason : String}
    (hx : x.transaction = some m.request.transaction) (hp : p = .fresh ∨ p = .givingUp)
    (hstatus : 200 ≤ status) :
    Safe handlerMonitor ⟨x, p, gate⟩ (refuse m status reason) fun _ h => h = ⟨x, .settled, gate⟩ := by
  have hnext : ∀ r, nextHandler ⟨x, p, gate⟩
      (.respond m.request.transaction ⟨status, reason, [], []⟩) r = ⟨x, .settled, gate⟩ := by
    intro r
    exact congrArg (HandlerStage.mk x · gate) (nextProgress_respond hp hx (decide_eq_true hstatus) r)
  unfold refuse
  rw [safe_call]
  intro r _
  have heq : handlerMonitor.next ⟨x, p, gate⟩
      (.respond m.request.transaction ⟨status, reason, [], []⟩) r = ⟨x, .settled, gate⟩ := hnext r
  rw [heq]
  exact ⟨by rintro ⟨⟩, rfl⟩

/-- A handler puts its command to the session, and answers the request itself if it gives up on it. -/
theorem dispatch_stage (k : ℕ) (leg : Leg) {gate : Option ℕ} (hc : x.command = some c)
    (hx : x.transaction = some m.request.transaction) :
    Safe handlerMonitor ⟨x, .fresh, gate⟩ (dispatch k leg c m) fun _ h =>
      h = ⟨x, .settled, gate⟩ := by
  have hput : ∀ r, nextHandler ⟨x, .fresh, gate⟩ (.enqueue k c) r =
      ⟨x, if r = .sent then .waiting else .lost, gate⟩ := by
    intro r
    refine congrArg (HandlerStage.mk x · gate) ((nextProgress_enqueue rfl r).trans ?_)
    exact if_pos hc
  have hawait : ∀ {p : Progress} (r : Finished), p = .waiting ∨ p = .lost →
      nextHandler ⟨x, p, gate⟩ (.awaitResult k m.request.transaction) r =
        ⟨x, if r = .result then .settled else .givingUp, gate⟩ := by
    intro p r hp
    exact congrArg (HandlerStage.mk x · gate) (nextProgress_awaitResult hp hx r)
  unfold dispatch
  rw [safe_bind]
  refine safe_mono (skip_op_safe (fun _ => rfl) nofun) fun read h hh => ?_
  rw [hh]
  cases read with
  | false => exact refuse_stage hx (.inl rfl) (by decide)
  | true =>
    unfold enqueueAndWait enqueue
    refine safe_bind.mpr (safe_bind.mpr (safe_bind.mpr (safe_call.mpr fun r _ => ?_)))
    have hnext : handlerMonitor.next ⟨x, .fresh, gate⟩ (.enqueue k c) r =
        ⟨x, if r = .sent then .waiting else .lost, gate⟩ := hput r
    rw [hnext]
    have hwaits : (if r = .sent then Progress.waiting else .lost) = .waiting ∨
        (if r = .sent then Progress.waiting else .lost) = .lost := by
      by_cases hr : r = .sent
      · exact .inl (if_pos hr)
      · exact .inr (if_neg hr)
    generalize (if r = .sent then Progress.waiting else .lost) = p at hwaits
    refine ⟨by rcases hwaits with rfl | rfl <;> nofun, safe_pure.mpr (safe_bind.mpr ?_)⟩
    refine safe_call.mpr fun finished _ => ?_
    have hnext' : handlerMonitor.next ⟨x, p, gate⟩ (.awaitResult k m.request.transaction) finished =
        ⟨x, if finished = .result then .settled else .givingUp, gate⟩ := hawait finished hwaits
    rw [hnext']
    cases finished with
    | result => exact ⟨nofun, safe_pure.mpr (safe_pure.mpr rfl)⟩
    | done => exact ⟨nofun, safe_pure.mpr (refuse_stage hx (.inr rfl) (by decide))⟩
    | timer => exact ⟨nofun, safe_pure.mpr (refuse_stage hx (.inr rfl) (by decide))⟩

theorem inDialog_stage {leg other : Leg} {p : ℕ → Prog handlerSig Unit}
    (hx : x.transaction = some m.request.transaction)
    (hp : ∀ k, Safe handlerMonitor ⟨x, .fresh, none⟩ (p k) fun _ h => h = ⟨x, .settled, none⟩) :
    Safe handlerMonitor ⟨x, .fresh, none⟩ (do
      let some session ← findSession leg m
        | refuseUnknown m
      if !(← hop (.hasDialog session other)) then refuseUnknown m else p session)
      fun _ h => h = ⟨x, .settled, none⟩ := by
  have unknown : Safe handlerMonitor ⟨x, .fresh, none⟩ (refuseUnknown m) fun _ h =>
      h = ⟨x, .settled, none⟩ := refuse_stage hx (.inl rfl) (by decide)
  rw [safe_bind]
  refine safe_mono (findSession_stage leg nofun) fun found h hh => ?_
  rw [hh]
  cases found with
  | none => exact unknown
  | some k =>
    refine .bind (skip_op_safe (fun _ => rfl) nofun) fun dialog h hh => ?_
    rw [hh]
    cases dialog with
    | false => exact unknown
    | true => exact hp k

theorem handleReInvite_stage :
    Safe handlerMonitor ⟨.reInvite m, .fresh, none⟩ (handleReInvite m) fun _ h =>
      h = ⟨.reInvite m, .settled, none⟩ := by
  refine inDialog_stage rfl fun k => safe_bind.mpr (safe_call.mpr fun begun _ => ?_)
  cases begun with
  | false => exact ⟨nofun, refuse_stage rfl (.inl rfl) (by decide)⟩
  | true =>
    have hbegun : handlerMonitor.next ⟨.reInvite m, .fresh, none⟩ (.beginReInvite k) true =
        ⟨.reInvite m, .fresh, some k⟩ := rfl
    rw [hbegun]
    refine ⟨nofun, .bind (dispatch_stage k .caller rfl rfl) fun _ h hh => ?_⟩
    rw [hh]
    refine safe_call.mpr fun _ _ => ?_
    have hfinish : handlerMonitor.next ⟨.reInvite m, .settled, some k⟩ (.finishReInvite k) () =
        ⟨.reInvite m, .settled, none⟩ :=
      congrArg (HandlerStage.mk (.reInvite m) · none) (nextProgress_finishReInvite rfl ())
    rw [hfinish]
    exact ⟨nofun, rfl⟩

theorem handleRefer_stage :
    Safe handlerMonitor ⟨.refer m, .fresh, none⟩ (handleRefer m) fun _ h =>
      h = ⟨.refer m, .settled, none⟩ := by
  refine inDialog_stage rfl fun k => ?_
  split
  · exact refuse_stage rfl (.inl rfl) (by decide)
  · exact dispatch_stage k .caller rfl rfl

theorem handleNotify_stage :
    Safe handlerMonitor ⟨.notify m, .fresh, none⟩ (handleNotify m) fun _ h =>
      h = ⟨.notify m, .settled, none⟩ :=
  inDialog_stage rfl fun k => dispatch_stage k .callee rfl rfl

theorem acceptBye_stage (leg : Leg) :
    Safe handlerMonitor ⟨.bye m, .fresh, none⟩ (acceptBye leg m) fun accepted h =>
      h = ⟨.bye m, if accepted then .settled else .fresh, none⟩ := by
  unfold acceptBye
  rw [safe_bind]
  refine safe_mono (findSession_stage leg nofun) fun found h hh => ?_
  rw [hh]
  cases found with
  | none => exact safe_pure.mpr rfl
  | some k =>
    refine .bind (skip_op_safe (fun _ => rfl) nofun) fun accepted h hh => ?_
    rw [hh]
    cases accepted with
    | false => exact safe_pure.mpr rfl
    | true =>
      unfold enqueue
      refine safe_bind.mpr (safe_bind.mpr (safe_call.mpr fun r _ => ⟨nofun, ?_⟩))
      exact safe_pure.mpr (safe_pure.mpr rfl)

theorem handleBye_stage :
    Safe handlerMonitor ⟨.bye m, .fresh, none⟩ (handleBye m) fun _ h =>
      h = ⟨.bye m, .settled, none⟩ := by
  unfold handleBye
  rw [safe_bind]
  refine safe_mono (acceptBye_stage .caller) fun accepted h hh => ?_
  rw [hh]
  cases accepted with
  | true => exact safe_pure.mpr rfl
  | false =>
    refine .bind (acceptBye_stage .callee) fun accepted h hh => ?_
    rw [hh]
    cases accepted with
    | true => exact safe_pure.mpr rfl
    | false => exact refuse_stage rfl (.inl rfl) (by decide)

theorem onAck_stage :
    Safe handlerMonitor ⟨.ack m, .fresh, none⟩ (onAck m) fun _ h => h = ⟨.ack m, .fresh, none⟩ := by
  unfold onAck
  rw [safe_bind]
  refine safe_mono (skip_op_safe (fun _ => rfl) nofun) fun read h hh => ?_
  rw [hh]
  cases read with
  | false => exact safe_pure.mpr rfl
  | true =>
    refine .bind (findSession_stage .caller nofun) fun found h hh => ?_
    rw [hh]
    cases found with
    | none => exact safe_pure.mpr rfl
    | some k =>
      have hclear : ∀ r, nextHandler ⟨.ack m, .fresh, none⟩ (.clearPendingCSeq k m.request.cseq) r =
          ⟨.ack m, .fresh, none⟩ := by
        intro r
        exact congrArg (HandlerStage.mk (.ack m) · none) (if_pos rfl)
      refine .bind (skip_op_safe hclear nofun) fun cleared h hh => ?_
      rw [hh]
      cases cleared with
      | none => exact safe_pure.mpr rfl
      | some t => exact skip_op_safe (fun _ => rfl) nofun

theorem watchPendingReInvite_stage (k t : ℕ) :
    Safe handlerMonitor ⟨.watch k t, .fresh, none⟩ (watchPendingReInvite k t) fun _ h =>
      h.gate = none ∧ h.party = .watch k t := by
  unfold watchPendingReInvite
  refine safe_bind.mpr (safe_call.mpr fun watched _ => ?_)
  have hawait : handlerMonitor.next ⟨.watch k t, .fresh, none⟩ (.awaitPending k t) watched =
      ⟨.watch k t, if watched = .sessionDone then .fresh else .observed, none⟩ :=
    congrArg (HandlerStage.mk (.watch k t) · none) (nextProgress_awaitPending rfl watched)
  rw [hawait]
  have observed : Safe handlerMonitor ⟨.watch k t, .observed, none⟩ (do
      let cleared ← hop (.clearPending k t)
      Prog.when cleared (hop (.terminate t))) fun _ h => h.gate = none ∧ h.party = .watch k t := by
    have hclear : ∀ r, nextHandler ⟨.watch k t, .observed, none⟩ (.clearPending k t) r =
        ⟨.watch k t, .observed, none⟩ := by
      intro r
      exact congrArg (HandlerStage.mk (.watch k t) · none) (nextProgress_clearPending rfl rfl r)
    refine .bind (skip_op_safe hclear nofun) fun cleared h hh => ?_
    rw [hh, safe_when]
    refine ⟨fun _ => ?_, fun _ => ⟨rfl, rfl⟩⟩
    refine safe_mono (skip_op_safe (fun _ => rfl) nofun) fun _ h hh => ?_
    rw [hh]
    exact ⟨rfl, rfl⟩
  cases watched with
  | sessionDone => exact ⟨nofun, safe_pure.mpr ⟨rfl, rfl⟩⟩
  | acks => exact ⟨nofun, observed⟩
  | transactionDone => exact ⟨nofun, observed⟩

end Handlers

/-! ## The threads of the system -/

inductive DialogStage
  | session (g : LoopStage)
  | handler (h : HandlerStage)
  | bad
  deriving DecidableEq

def DialogStage.ok : DialogStage → Prop
  | .session g => g ≠ .bad
  | .handler h => h.progress ≠ .bad
  | .bad => False

def nextDialog : DialogStage → (e : dialogSig.Op) → dialogSig.Ans e → DialogStage
  | .session g, .inl e, r => .session (nextLoop g e r)
  | .handler h, .inr e, r => .handler (nextHandler h e r)
  | _, _, _ => .bad

def dialogMonitor : Monitor dialogSig DialogStage where
  next := nextDialog
  good := DialogStage.ok
  admits
    | .inl e, r => finalOnly e r
    | .inr _, _ => True

def DialogParty.stage : DialogParty → DialogStage
  | .session _ _ => .session .idle
  | x => .handler ⟨x, .fresh, none⟩

/-- What is left of a handler when it has returned: it holds no gate, and its request is settled. -/
def DialogStage.returned : DialogStage → Prop
  | .handler h => h.gate = none ∧ (h.party.command.isSome = true → h.progress = .settled)
  | _ => True

theorem session_stage_inl {p : Prog engineSig Unit} {Q : Unit → LoopStage → Prop}
    (h : Safe loopMonitor g p Q) :
    Safe dialogMonitor (.session g) p.inl fun _ g' => g'.returned := by
  have hmap : Safe dialogMonitor.left (.session g) p fun a g' => ∃ g₀, g' = .session g₀ ∧ Q a g₀ :=
    Safe.map (f := DialogStage.session) (fun _ _ _ => rfl) (fun _ hg => hg) (fun _ _ hr => hr) h
  refine Prog.safe_inl (safe_mono hmap ?_)
  rintro _ _ ⟨g', rfl, -⟩
  trivial

theorem handler_stage_inr {p : Prog handlerSig Unit}
    (hp : Safe handlerMonitor h p fun _ h' => (DialogStage.handler h').returned) :
    Safe dialogMonitor (.handler h) p.inr fun _ g => g.returned := by
  have hmap : Safe dialogMonitor.right (.handler h) p fun _ g => ∃ h₀, g = .handler h₀ ∧
      (DialogStage.handler h₀).returned :=
    Safe.map (f := DialogStage.handler) (fun _ _ _ => rfl) (fun _ hg => hg) (fun _ _ _ => trivial) hp
  refine Prog.safe_inr (safe_mono hmap ?_)
  rintro _ _ ⟨h', rfl, hreturned⟩
  exact hreturned

theorem party_stage (cfg : Config) (C : Codecs) (n : ℕ) (x : DialogParty) :
    Safe dialogMonitor x.stage ((dialogSystem cfg C n).prog x) fun _ g => g.returned := by
  have settled : ∀ {x : DialogParty} {p : Prog handlerSig Unit},
      Safe handlerMonitor ⟨x, .fresh, none⟩ p (fun _ h => h = ⟨x, .settled, none⟩) →
      Safe dialogMonitor (.handler ⟨x, .fresh, none⟩) p.inr fun _ g => g.returned := by
    intro x p hp
    refine handler_stage_inr (safe_mono hp fun _ h hh => ?_)
    rw [hh]
    exact ⟨rfl, fun _ => rfl⟩
  cases x with
  | session k invite => exact session_stage_inl (handleInvite_stage C cfg n invite)
  | bye m => exact settled handleBye_stage
  | reInvite m => exact settled handleReInvite_stage
  | refer m => exact settled handleRefer_stage
  | notify m => exact settled handleNotify_stage
  | ack m =>
    refine handler_stage_inr (safe_mono onAck_stage fun _ h hh => ?_)
    rw [hh]
    exact ⟨rfl, nofun⟩
  | watch k t =>
    refine handler_stage_inr (safe_mono (watchPendingReInvite_stage k t) fun _ h hh => ?_)
    exact ⟨hh.1, fun hcommand => by rw [hh.2] at hcommand; cases hcommand⟩

def stageOf (th : DialogThread) : DialogStage := (System.see dialogMonitor DialogParty.stage th).ghost

theorem stageOf_advance (th : DialogThread) (e : dialogSig.Op) (r : dialogSig.Ans e)
    (rest : Prog dialogSig Unit) :
    stageOf (th.advance ⟨e, r⟩ rest) = nextDialog (stageOf th) e r := by
  unfold stageOf
  rw [System.see_advance]
  rfl

theorem finalOnly_of_step {sh sh' : DialogShared} {k : ℕ} {r : engineSig.Ans e}
    (h : SessionStep sh k e r sh') : finalOnly e r := by
  cases h with
  | unanswered => exact nofun
  | answered leg method body headers hfinal =>
    rintro _ ⟨⟩
    exact hfinal
  | other => cases e <;> trivial
  | _ => trivial

/-- A step of the system: a new thread, or the next operation of a session or a handler, with the stages
before and after it. -/
inductive DialogStep (capacity : ℕ) (st : DialogState) : DialogLabel → DialogState → Prop
  | spawn (x : DialogParty) (p : Prog dialogSig Unit) (hstarted : x.started st.shared) :
      DialogStep capacity st (.spawn x) ⟨st.shared, st.threads ++ [⟨x, [], p⟩]⟩
  | session {i k : ℕ} {invite : Invite} {th th' : DialogThread} {g g' : LoopStage} {e : EngineOp}
      {r : engineSig.Ans e} {sh : DialogShared} (hget : st.threads[i]? = some th)
      (harg : th.arg = .session k invite) (harg' : th'.arg = th.arg) (hstage : stageOf th = .session g)
      (hstage' : stageOf th' = .session g') (hloop : LoopStep g e r g')
      (hperf : SessionStep st.shared k e r sh) (hpast : th'.past = th.past ++ [⟨.inl e, r⟩]) :
      DialogStep capacity st (.act i ⟨.inl e, r⟩) ⟨sh, st.threads.set i th'⟩
  | handler {i : ℕ} {th th' : DialogThread} {h : HandlerStage} {p : Progress} {e : HandlerOp}
      {r : handlerSig.Ans e} {sh : DialogShared} (hget : st.threads[i]? = some th)
      (harg : h.party = th.arg) (harg' : th'.arg = th.arg) (hstage : stageOf th = .handler h)
      (hstage' : stageOf th' = .handler ⟨h.party, p, nextGate h.gate e r⟩)
      (hmove : ProgressStep h e r p) (hperf : HandlerStep capacity st.shared e r sh)
      (hpast : th'.past = th.past ++ [⟨.inr e, r⟩]) :
      DialogStep capacity st (.act i ⟨.inr e, r⟩) ⟨sh, st.threads.set i th'⟩

section Run

variable {cfg : Config} {C : Codecs} {n : ℕ} {ls : List DialogLabel} {st st' : DialogState}

def Fits : DialogParty → DialogStage → Prop
  | .session _ _, .session _ => True
  | .session _ _, _ => False
  | x, .handler h => h.party = x
  | _, _ => False

theorem fits_stage (x : DialogParty) : Fits x x.stage := by
  cases x <;> trivial

theorem Fits.next {x : DialogParty} {g : DialogStage} (h : Fits x g) {e : dialogSig.Op}
    {r : dialogSig.Ans e} (hok : (nextDialog g e r).ok) : Fits x (nextDialog g e r) := by
  cases g with
  | bad => cases hok
  | session g =>
    cases e with
    | inl e => cases x <;> trivial
    | inr e => cases hok
  | handler g =>
    cases e with
    | inl e => cases hok
    | inr e => cases x <;> exact h

theorem Fits.party {x : DialogParty} (hfits : Fits x (.handler h)) :
    h.party = x := by
  cases x with
  | session k invite => cases hfits
  | _ => exact hfits

theorem tracked_of_reaches (h : (dialogSystem cfg C n).Reaches .initial ls st) :
    System.Tracked dialogMonitor DialogParty.stage (fun _ g => g.returned) st := by
  refine (System.invariant (C := fun _ _ => True) (I := fun _ _ _ => True) (party_stage cfg C n) ?_
    (fun _ _ _ _ _ _ => trivial) (fun _ _ _ _ _ _ _ _ _ _ _ _ _ _ _ => trivial)
    (fun _ _ _ _ _ _ => trivial) h.under trivial).1
  intro sh x e r sh' hperf
  cases e with
  | inl e => exact finalOnly_of_step (sessionStep hperf)
  | inr e => trivial

theorem fits_of_reaches (h : (dialogSystem cfg C n).Reaches .initial ls st) {th : DialogThread}
    (hth : th ∈ st.threads) : Fits th.arg (stageOf th) := by
  revert th
  refine Steps.invariant_of_run (I := fun _ st => ∀ {th : DialogThread}, th ∈ st.threads →
    Fits th.arg (stageOf th)) ?_ h (fun hth => absurd hth List.not_mem_nil)
  intro ls st l st' hrun hI hstep th hth
  cases hstep with
  | spawn x _ =>
    rcases List.mem_append.mp hth with hth | hth
    · exact hI hth
    · rw [List.mem_singleton.mp hth]
      exact fits_stage x
  | act i th₀ e rest r sh hget hrest hperf =>
    rcases List.mem_or_eq_of_mem_set hth with hth | rfl
    · exact hI hth
    · have hsafe := tracked_of_reaches hrun th₀ (List.mem_of_getElem? hget)
      rw [hrest, Prog.safe_op] at hsafe
      have hadmits : dialogMonitor.admits e r := by
        cases e with
        | inl e => exact finalOnly_of_step (sessionStep hperf)
        | inr e => trivial
      rw [stageOf_advance]
      exact (hI (List.mem_of_getElem? hget)).next (hsafe r hadmits).1
  | env l _ _ => exact l.elim

theorem dialogStep (h : (dialogSystem cfg C n).Reaches .initial ls st) {l : DialogLabel}
    (hstep : (dialogSystem cfg C n).Step st l st') :
    DialogStep cfg.mailboxSize.toNat st l st' := by
  cases hstep with
  | spawn x hx => exact .spawn x _ hx
  | act i th e rest r sh hget hrest hperf =>
    have hmem := List.mem_of_getElem? hget
    have hfits := fits_of_reaches h hmem
    have hsafe := tracked_of_reaches h th hmem
    rw [hrest, Prog.safe_op] at hsafe
    cases e with
    | inl e =>
      obtain ⟨hok, -⟩ := hsafe r (finalOnly_of_step (sessionStep hperf))
      replace hok : (nextDialog (stageOf th) (.inl e) r).ok := hok
      have hnext := stageOf_advance th (.inl e) r (rest r)
      cases hstage : stageOf th with
      | session g =>
        rw [hstage] at hok hfits hnext
        cases harg : th.arg with
        | session k invite =>
          have hperf' := sessionStep hperf
          rw [harg] at hperf'
          have harg' : (th.advance ⟨.inl e, r⟩ (rest r)).arg = th.arg := rfl
          exact .session hget harg harg' hstage hnext (loopStep hok) hperf' rfl
        | _ =>
          rw [harg] at hfits
          cases hfits
      | handler h' =>
        rw [hstage] at hok
        cases hok
      | bad =>
        rw [hstage] at hok
        cases hok
    | inr e =>
      obtain ⟨hok, -⟩ := hsafe r trivial
      replace hok : (nextDialog (stageOf th) (.inr e) r).ok := hok
      have hnext := stageOf_advance th (.inr e) r (rest r)
      cases hstage : stageOf th with
      | session g =>
        rw [hstage] at hok
        cases hok
      | handler h' =>
        rw [hstage] at hok hfits hnext
        have harg' : (th.advance ⟨.inr e, r⟩ (rest r)).arg = th.arg := rfl
        exact .handler hget hfits.party harg' hstage hnext (progressStep hok) (handlerStep hperf) rfl
      | bad =>
        rw [hstage] at hok
        cases hok
  | env l _ _ => exact l.elim

end Run

end AixvolinkPbx.B2bua
