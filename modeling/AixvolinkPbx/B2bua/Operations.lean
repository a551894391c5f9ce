import AixvolinkPbx.B2bua.Engine

/-!
# What each part of a session performs and returns

Every operation has a kind, and each part of `handleInvite` keeps to a few kinds. An observer of some
kinds may skip the parts without them (`Prog.Only.safe`). What a part returns without a look at its
operations (`Prog.Ensures`): a session keeps its dialogs once it has them, and a response that rejects
the INVITE is a final one and no success.
-/

namespace AixvolinkPbx.B2bua

open Calls (Actor)
open Registration (Binding)
open Sdp (Body Codecs)
open Prog (Only only_bind only_call only_pure only_when only_loop Ensures ensures_pure ensures_bind
  ensures_after ensures_loop)

inductive Kind
  | admission
  | wiring
  | registration
  | actor
  | transition
  | ending
  | lease
  | media
  | respond
  | callee
  | bye
  | select
  | inDialog
  | cleanup
  deriving DecidableEq

def kind : EngineOp → Kind
  | .reserve => .admission
  | .release => .admission
  | .wgDone => .admission
  | .registerInbound _ => .admission
  | .registerOutbound _ => .wiring
  | .remove _ _ => .wiring
  | .listBindings _ _ => .registration
  | .resolve _ _ => .registration
  | .newCall _ _ => .actor
  | .startActor _ => .actor
  | .stopActor => .actor
  | .transition _ t => if t.state = .terminating then .ending else .transition
  | .newMedia => .lease
  | .configure _ _ _ => .media
  | .startMedia => .media
  | .now => .media
  | .cancelMedia => .cleanup
  | .closeMedia => .cleanup
  | .awaitMedia => .cleanup
  | .publishSummary => .cleanup
  | .readInvite => .registration
  | .respond _ _ => .respond
  | .closeInbound => .cleanup
  | .createOutbound _ _ => .callee
  | .nextResponse => .callee
  | .ack => .callee
  | .closeOutbound => .cleanup
  | .bye _ _ => .bye
  | .request .. => .inDialog
  | .select => .select
  | .respondTo _ _ => .inDialog
  | .closeResult _ => .inDialog
  | .closeDone => .cleanup
  | .readPending => .inDialog
  | .pollAcks _ => .inDialog
  | .clearPending _ => .inDialog
  | .setPending _ _ => .inDialog
  | .takePending => .inDialog
  | .terminate _ => .inDialog

theorem kind_transition (ctx : Ctx) (t : Calls.Transition) :
    kind (.transition ctx t) = if t.state = .terminating then .ending else .transition := rfl

def Among (kinds : List Kind) (e : EngineOp) : Prop := kind e ∈ kinds

instance (kinds : List Kind) (e : EngineOp) : Decidable (Among kinds e) :=
  inferInstanceAs (Decidable (kind e ∈ kinds))

theorem Among.mono {kinds kinds' : List Kind} (h : kinds ⊆ kinds') (e : EngineOp)
    (he : Among kinds e) : Among kinds' e := h he

theorem only_op {kinds : List Kind} {e : EngineOp} (h : decide (Among kinds e) = true) :
    Only (Among kinds) (op e) :=
  only_call.mpr (of_decide_eq_true h)

theorem only_weaken {α : Type} {kinds kinds' : List Kind} {p : Prog engineSig α}
    (h : Only (Among kinds) p) (hle : kinds ⊆ kinds') : Only (Among kinds') p :=
  h.mono (Among.mono hle)

variable (cfg : Config) (C : Codecs) (s : Session)

/-! ## Shared functions -/

theorem only_transition (ctx : Ctx) (state : Calls.State) (legID protocolEvent reason : String) :
    Only (Among [.transition, .ending]) (transition ctx state legID protocolEvent reason) := by
  refine only_op (decide_eq_true ?_)
  rw [Among, kind_transition]
  split_ifs <;> simp

theorem only_transition_of_ne {ctx : Ctx} {state : Calls.State} {legID protocolEvent reason : String}
    (h : state ≠ .terminating) :
    Only (Among [.transition]) (transition ctx state legID protocolEvent reason) := by
  refine only_op (decide_eq_true ?_)
  rw [Among, kind_transition, if_neg h]
  exact List.mem_singleton_self _

theorem only_fail (reason protocolEvent : String) :
    Only (Among [.transition]) (fail s reason protocolEvent) :=
  only_bind (only_transition_of_ne (by simp)) fun _ => only_pure

theorem only_terminate (reason protocolEvent legID : String) :
    Only (Among [.transition, .ending]) (terminate reason protocolEvent legID) :=
  only_bind (only_transition ..) fun _ => only_bind (only_transition ..) fun _ => only_pure

theorem only_startMedia : Only (Among [.media]) (startMedia s) := by
  unfold startMedia
  split_ifs
  · exact only_pure
  · exact only_bind (only_op rfl) fun _ => only_pure

theorem only_configure (caller callee : Sdp.Endpoint) (mapping : Sdp.Mapping) :
    Only (Among [.media]) (configure caller callee mapping) := by
  unfold configure
  split_ifs
  · exact only_pure
  · exact only_bind (only_op rfl) fun _ => only_pure

theorem only_applyMediaAnswer (body : Body) : Only (Among [.media]) (applyMediaAnswer C s body) := by
  unfold applyMediaAnswer
  split
  · exact only_pure
  split
  · exact only_pure
  split_ifs
  · exact only_pure
  refine only_bind (only_configure ..) fun err => ?_
  split
  · exact only_pure
  dsimp only
  split
  · exact only_pure
  refine only_bind (only_op rfl) fun _ => ?_
  split
  · exact only_pure
  · exact only_bind (only_startMedia _) fun _ => only_pure

theorem only_handleHangup (ctx : Ctx) (origin : Leg) :
    Only (Among [.transition, .ending, .bye]) (handleHangup ctx s origin) := by
  have htransition : ∀ state legID protocolEvent reason,
      Only (Among [.transition, .ending, .bye]) (transition ctx state legID protocolEvent reason) :=
    fun _ _ _ _ => only_weaken (only_transition ..) (by simp)
  have hbye : ∀ c [Decidable c] leg,
      Only (Among [.transition, .ending, .bye]) (Prog.when c (op (.bye ctx leg))) :=
    fun _ _ _ => only_when (only_op rfl)
  unfold handleHangup
  refine only_bind (htransition ..) fun err => ?_
  split
  · exact only_pure
  · exact only_bind (hbye ..) fun _ => only_bind (hbye ..) fun _ =>
      only_bind (htransition ..) fun _ => only_pure

theorem only_sourceIsRegistered (aor source transport : String) :
    Only (Among [.registration]) (sourceIsRegistered cfg aor source transport) := by
  unfold sourceIsRegistered
  refine only_bind (only_op rfl) fun bindings => ?_
  split
  · exact only_pure
  · exact only_pure

theorem only_release : Only (Among [.admission]) release :=
  only_bind (only_op rfl) fun _ => only_op rfl

/-! ## Admission -/

def admissionKinds : List Kind := [.admission, .registration, .actor, .respond]

theorem only_openSession : Only (Among admissionKinds) (openSession cfg) := by
  have released : ∀ {p : Prog engineSig (Option (Session × Actor))},
      Only (Among admissionKinds) p → Only (Among admissionKinds) (do release; p) :=
    fun hp => only_bind (only_bind (only_op rfl) fun _ => only_op rfl) fun _ => hp
  have failed : Only (Among admissionKinds) (do
      release
      let _ ← respond 500 "Server Internal Error" [] []
      return (none : Option (Session × Actor))) :=
    released (only_bind (only_op rfl) fun _ => only_pure)
  unfold openSession
  apply only_bind (only_op rfl)
  intro inbound
  split
  swap
  · exact released (only_bind (only_bind (only_op rfl) fun _ => only_pure) fun _ => only_pure)
  apply only_bind (only_op rfl)
  intro current
  split
  swap
  · exact failed
  split
  · exact failed
  · exact only_bind (only_op rfl) fun _ => only_pure

theorem only_admission (invite : Invite) : Only (Among admissionKinds) (admission cfg invite) := by
  have rejected : ∀ {status : ℕ} {reason : String} {headers : List Header},
      Only (Among admissionKinds) (do
        reject status reason headers
        return (none : Option (Session × Actor))) :=
    only_bind (only_bind (only_op rfl) fun _ => only_pure) fun _ => only_pure
  have released : ∀ {status : ℕ} {reason : String}, Only (Among admissionKinds) (do
      release
      reject status reason []
      return (none : Option (Session × Actor))) :=
    only_bind (only_bind (only_op rfl) fun _ => only_op rfl) fun _ => rejected
  unfold admission
  apply only_bind (only_op rfl)
  intro reserved
  split
  · exact rejected
  dsimp only
  split
  · exact released
  refine only_bind (only_weaken (only_sourceIsRegistered ..) (by simp [admissionKinds])) fun registered => ?_
  split
  · exact released
  · exact only_openSession cfg

/-- A new session has neither dialog with a callee nor media. -/
def Fresh : Option (Session × Actor) → Prop
  | none => True
  | some (s, _) => s.outbound = none ∧ s.media = none

theorem ensures_admission_fresh (invite : Invite) : Ensures Fresh (admission cfg invite) := by
  have refused : ∀ {p : Prog engineSig Unit}, Ensures Fresh (do
      p
      return none) := ensures_after fun _ => ensures_pure.mpr trivial
  have hopen : Ensures Fresh (openSession cfg) := by
    unfold openSession
    apply ensures_after
    intro inbound
    split
    swap
    · exact ensures_after fun _ => refused
    apply ensures_after
    intro current
    split
    swap
    · exact ensures_after fun _ => ensures_after fun _ => ensures_pure.mpr trivial
    split
    · exact ensures_after fun _ => ensures_after fun _ => ensures_pure.mpr trivial
    · exact ensures_after fun _ => ensures_pure.mpr ⟨rfl, rfl⟩
  unfold admission
  apply ensures_after
  intro reserved
  split
  · exact refused
  dsimp only
  split
  · exact ensures_after fun _ => refused
  apply ensures_after
  intro registered
  split
  · exact ensures_after fun _ => refused
  · exact hopen

/-- The kinds of operations of the setup, without those of the admission. -/
def setupKinds : List Kind := [.registration, .transition, .ending, .media, .respond, .callee, .bye]

theorem only_respond (status : ℕ) (reason : String) (body : Body) (headers : List Header) :
    Only (Among setupKinds) (respond status reason body headers) :=
  only_op rfl

theorem only_refuse {α : Type} {status : ℕ} {reason : String} {body : Body} {headers : List Header}
    {text protocolEvent : String} {a : α} : Only (Among setupKinds) (do
      let _ ← respond status reason body headers
      fail s text protocolEvent
      return a) :=
  only_bind (only_respond ..) fun _ =>
    only_bind (only_weaken (only_fail ..) (by simp [setupKinds])) fun _ => only_pure

def prepareKinds : List Kind := .lease :: setupKinds

theorem only_prepare (invite : Invite) : Only (Among prepareKinds) (prepare cfg C s invite) := by
  have refused : ∀ {status : ℕ} {reason text protocolEvent : String} {s : Session},
      Only (Among prepareKinds) (do
        let _ ← respond status reason [] []
        fail s text protocolEvent
        return (s, (none : Option (Binding × Body)))) :=
    only_weaken (only_refuse _) (by simp [prepareKinds])
  unfold prepare
  refine only_bind (only_weaken (only_transition ..) (by simp [prepareKinds, setupKinds])) fun err => ?_
  split
  · exact only_pure
  refine only_bind (only_weaken (only_respond ..) (by simp [prepareKinds])) fun sent => ?_
  split
  · refine only_bind (only_weaken (only_fail ..) ?_) fun _ => only_pure
    simp [prepareKinds, setupKinds]
  refine only_bind (only_op rfl) fun binding => ?_
  split
  swap
  · exact refused
  split
  · exact refused
  refine only_bind (only_op rfl) fun media => ?_
  split
  swap
  · exact refused
  dsimp only
  split
  · exact refused
  refine only_bind (only_op rfl) fun sessionID => ?_
  split
  · exact refused
  · exact only_pure

theorem only_onResponse (response : Response) : Only (Among setupKinds) (onResponse C s response) := by
  have relay : ∀ (s : Session) (body : Body) (headers : List Header), Only (Among setupKinds) (do
      if ← respond response.status response.reason body headers then
        return ((none : Option WaitError), s)
      else return (some .respond, s)) := by
    intro s body headers
    refine only_bind (only_respond ..) fun sent => ?_
    split
    · exact only_pure
    · exact only_pure
  unfold onResponse
  split
  · exact only_pure
  dsimp only
  split
  · refine only_bind (only_weaken (only_applyMediaAnswer ..) (by simp [setupKinds])) fun res => ?_
    obtain ⟨_ | body, s⟩ := res
    · exact only_pure
    refine only_bind (only_weaken (only_transition ..) (by simp [setupKinds])) fun err => ?_
    cases err with
    | some err => exact only_pure
    | none => exact relay ..
  · have hring : Only (Among setupKinds) (ring s response) := by
      unfold ring
      split
      · exact only_weaken (only_transition ..) (by simp [setupKinds])
      · exact only_pure
    refine only_bind hring fun err => ?_
    cases err with
    | some err => exact only_pure
    | none => exact relay ..

theorem only_waitAnswer (n : ℕ) : Only (Among setupKinds) (waitAnswer C n s) := by
  refine only_loop (fun s => ?_) n s
  refine only_bind (only_op rfl) fun waited => ?_
  cases waited with
  | failed cause => exact only_pure
  | response response =>
    refine only_bind (only_onResponse C s response) fun res => ?_
    obtain ⟨_ | err, s⟩ := res
    · dsimp only
      split_ifs
      · exact only_pure
      · exact only_pure
      · exact only_pure
    · exact only_pure

theorem only_dial (n : ℕ) (binding : Binding) (offer : Body) :
    Only (Among setupKinds) (dial C n s binding offer) := by
  have silent : ∀ (s : Session) (text protocolEvent : String), Only (Among setupKinds) (do
      fail s text protocolEvent
      return (s, (none : Option Response))) :=
    fun _ _ _ => only_bind (only_weaken (only_fail ..) (by simp [setupKinds])) fun _ => only_pure
  unfold dial
  refine only_bind (only_op rfl) fun outbound => ?_
  split
  swap
  · exact only_refuse s
  refine only_bind (only_waitAnswer C _ n) fun res => ?_
  obtain ⟨err | response, s⟩ := res
  · cases err with
    | rejected response => exact only_refuse s
    | mediaNegotiation err => exact only_refuse s
    | failed cause => exact silent ..
    | transition err => exact silent ..
    | respond => exact silent ..
  · exact only_pure

theorem only_answerMedia (response : Response) :
    Only (Among setupKinds) (answerMedia C s response) := by
  unfold answerMedia
  split
  · exact only_pure
  · exact only_bind (only_weaken (only_applyMediaAnswer ..) (by simp [setupKinds])) fun _ => only_pure

theorem only_rejectAnswer (reason : String) : Only (Among setupKinds) (rejectAnswer s reason) :=
  only_bind (only_op rfl) fun _ =>
    only_bind (only_op rfl) fun _ =>
      only_bind (only_respond ..) fun _ => only_weaken (only_fail ..) (by simp [setupKinds])

theorem only_conclude : Only (Among setupKinds) (do
    if (← transition .parent .answered s.call.calleeLeg "200" "").isSome then
      op (.bye .parent .callee)
      return (s, false)
    if !(← respond 200 "OK" s.callerAnswer [sdpContentType]) then
      op (.bye .parent .callee)
      terminate "caller answer transaction failed" "CANCEL" s.call.callerLeg
      return (s, false)
    return (s, true)) := by
  refine only_bind (only_weaken (only_transition ..) (by simp [setupKinds])) fun err => ?_
  split
  · exact only_bind (only_op rfl) fun _ => only_pure
  refine only_bind (only_respond ..) fun sent => ?_
  split
  · refine only_bind (only_op rfl) fun _ => ?_
    exact only_bind (only_weaken (only_terminate ..) (by simp [setupKinds])) fun _ => only_pure
  · exact only_pure

theorem only_answer (response : Response) :
    Only (Among (.wiring :: setupKinds)) (answer C s response) := by
  have hweaken : ∀ {α : Type} {p : Prog engineSig α}, Only (Among setupKinds) p →
      Only (Among (.wiring :: setupKinds)) p := fun hp => only_weaken hp (by simp)
  have rejected : ∀ (s' : Session) (reason : String), Only (Among (.wiring :: setupKinds)) (do
      rejectAnswer s' reason
      return (s', false)) :=
    fun _ _ => only_bind (hweaken (only_rejectAnswer ..)) fun _ => only_pure
  unfold answer
  refine only_bind (hweaken (only_answerMedia C s response)) fun res => ?_
  obtain ⟨negotiated, s'⟩ := res
  dsimp only
  split_ifs
  · exact rejected ..
  · exact rejected ..
  refine only_bind (only_op rfl) fun acked => ?_
  split
  · exact hweaken (only_refuse s')
  · exact only_bind (only_op rfl) fun _ => hweaken (only_conclude s')

/-! ## Commands and the end of a session -/

def requestKinds : List Kind := [.transition, .media, .callee, .inDialog]

theorem only_answerRequest (request : Request) (status : ℕ) (reason : String) (body : Body)
    (headers : List Header) :
    Only (Among requestKinds) (answerRequest request status reason body headers) :=
  only_bind (only_op rfl) fun _ => only_pure

theorem only_hasPendingReInvite : Only (Among requestKinds) hasPendingReInvite := by
  unfold hasPendingReInvite completePendingReInviteTransaction
  refine only_bind (only_op rfl) fun pending => ?_
  split
  · refine only_bind (only_op rfl) fun acked => ?_
    split
    · refine only_bind (only_bind (only_op rfl) fun _ => ?_)
        fun _ => only_pure
      exact only_when (only_op rfl)
    · exact only_pure
  · exact only_pure

theorem only_handleReInviteCommand (request : Request) :
    Only (Among requestKinds) (handleReInviteCommand C s request) := by
  have refused : ∀ {status : ℕ} {reason : String} {body : Body} {s : Session},
      Only (Among requestKinds) (do
        answerRequest request status reason body []
        return s) :=
    only_bind (only_answerRequest ..) fun _ => only_pure
  unfold handleReInviteCommand
  refine only_bind only_hasPendingReInvite fun pending => ?_
  split
  · exact refused
  split
  · exact refused
  split
  · exact refused
  refine only_bind (only_op rfl) fun sessionID => ?_
  split
  · exact refused
  refine only_bind (only_op rfl) fun response => ?_
  split
  swap
  · exact refused
  split
  · exact refused
  refine only_bind (only_op rfl) fun acked => ?_
  split
  · exact refused
  refine only_bind (only_weaken (only_applyMediaAnswer ..) (by simp [requestKinds])) fun answered => ?_
  split
  · exact refused
  have hstate : ∀ direction : Sdp.Direction,
      (if direction ≠ .sendRecv then Calls.State.held else .answered) ≠ .terminating := by
    intro direction
    split_ifs <;> simp
  refine only_bind (only_weaken (only_transition_of_ne (hstate _)) (by simp [requestKinds]))
    fun err => ?_
  split
  · exact refused
  · exact only_bind (only_op rfl) fun _ =>
      only_bind (only_answerRequest ..) fun _ => only_pure

theorem only_relay (leg : Leg) (request : Request) : Only (Among requestKinds) (relay leg request) := by
  refine only_bind (only_op rfl) fun response => ?_
  cases response with
  | none => exact only_answerRequest ..
  | some response => exact only_answerRequest ..

/-- A command other than a hangup leaves the session in its loop. -/
theorem only_handleCommand_of_ne {command : SessionCommand} (h : ∀ origin, command ≠ .hangup origin) :
    Only (Among requestKinds) (handleCommand C s command) := by
  have close : ∀ (request : Request) (s : Session), Only (Among requestKinds) (do
      op (.closeResult request.transaction)
      return (false, s)) :=
    fun _ _ => only_bind (only_op rfl) fun _ => only_pure
  cases command with
  | hangup origin => exact absurd rfl (h origin)
  | reInvite request =>
    exact only_bind (only_handleReInviteCommand C s request) fun _ => close ..
  | refer request => exact only_bind (only_relay ..) fun _ => close ..
  | notify request => exact only_bind (only_relay ..) fun _ => close ..

def commandKinds : List Kind := .ending :: .bye :: requestKinds

theorem only_handleCommand (command : SessionCommand) :
    Only (Among commandKinds) (handleCommand C s command) := by
  by_cases h : ∃ origin, command = .hangup origin
  · obtain ⟨origin, rfl⟩ := h
    exact only_bind (only_weaken (only_handleHangup ..) (by simp [commandKinds, requestKinds]))
      fun _ => only_pure
  · exact only_weaken (only_handleCommand_of_ne C s fun origin heq => h ⟨origin, heq⟩)
      (by simp [commandKinds])

theorem only_loopRound : Only (Among (.select :: commandKinds)) (loopRound C s) := by
  have hangup : ∀ s : Session, Only (Among (.select :: commandKinds)) (do
      handleHangup .detached s .caller
      return (.inr s : Session ⊕ Session)) :=
    fun _ => only_bind (only_weaken (only_handleHangup ..) (by simp [commandKinds, requestKinds]))
      fun _ => only_pure
  refine only_bind (only_op rfl) fun sel => ?_
  cases sel with
  | command c =>
    refine only_bind (only_weaken (only_handleCommand C s c) (by simp)) fun res => ?_
    obtain ⟨ended, s'⟩ := res
    cases ended
    · exact only_pure
    · exact only_pure
  | parentDone => exact hangup s
  | mediaDone failed => exact hangup _

theorem only_commandLoop (n : ℕ) : Only (Among (.select :: commandKinds)) (commandLoop C n s) :=
  only_loop (only_loopRound C) n s

theorem only_stopMedia : Only (Among [.cleanup]) (stopMedia s) := by
  unfold stopMedia
  split
  · exact only_pure
  · refine only_bind (only_when (only_op rfl)) fun _ => ?_
    refine only_bind (only_op rfl) fun _ => ?_
    refine only_bind (only_when (only_bind (only_op rfl) fun _ => only_pure)) fun _ => ?_
    exact only_op rfl

theorem only_completePendingReInvite : Only (Among [.inDialog]) completePendingReInvite := by
  refine only_bind (only_op rfl) fun transaction => ?_
  cases transaction with
  | none => exact only_pure
  | some transaction => exact only_op rfl

theorem only_finish : Only (Among [.admission, .wiring, .actor, .cleanup, .inDialog]) (finish s) := by
  unfold finish remove
  refine only_bind (only_op rfl) fun _ => ?_
  refine only_bind (only_weaken only_completePendingReInvite (by simp)) fun _ => ?_
  refine only_bind (only_weaken (only_stopMedia s) (by simp)) fun _ => ?_
  refine only_bind (only_op rfl) fun _ => ?_
  refine only_bind (only_bind (only_op rfl) fun _ => only_when ?_) fun _ => ?_
  · exact only_op rfl
  · exact only_bind (only_op rfl) fun _ => only_op rfl

theorem only_serve (n : ℕ) (res : Option (Session × Bool)) :
    Only (Among (.select :: .admission :: .wiring :: .actor :: .cleanup :: commandKinds))
      (serve C n res) := by
  have hfinish : ∀ s, Only (Among (.select :: .admission :: .wiring :: .actor :: .cleanup :: commandKinds))
      (finish s) := fun s => only_weaken (only_finish s) (by simp [commandKinds, requestKinds])
  match res with
  | none => exact only_pure
  | some (s, true) =>
    exact only_bind (only_weaken (only_commandLoop C s n) (by simp [commandKinds, requestKinds]))
      fun s => hfinish s
  | some (s, false) => exact hfinish s

/-! ## Dialogs of a session -/

/-- The dialogs and the call of a session are still the same. -/
structure Session.SameDialogs (s s' : Session) : Prop where
  inbound : s'.inbound = s.inbound
  outbound : s'.outbound = s.outbound
  call : s'.call = s.call

variable {s}

theorem Session.SameDialogs.refl (s : Session) : s.SameDialogs s := ⟨rfl, rfl, rfl⟩

/-- The media session is still the same, too. -/
structure Session.SameMedia (s s' : Session) : Prop extends s.SameDialogs s' where
  media : s'.media = s.media

theorem Session.SameMedia.refl (s : Session) : s.SameMedia s := ⟨.refl s, rfl⟩

variable {s₀ : Session}

theorem ensures_startMedia (h : s₀.SameMedia s) :
    Ensures (fun s' => s₀.SameMedia s') (startMedia s) := by
  unfold startMedia
  split_ifs
  · exact ensures_pure.mpr h
  · exact ensures_after fun _ => ensures_pure.mpr ⟨⟨h.inbound, h.outbound, h.call⟩, h.media⟩

theorem ensures_applyMediaAnswer (h : s₀.SameMedia s) (body : Body) :
    Ensures (fun res => s₀.SameMedia res.2) (applyMediaAnswer C s body) := by
  unfold applyMediaAnswer
  split
  · exact ensures_pure.mpr h
  split
  · exact ensures_pure.mpr h
  split_ifs
  · exact ensures_pure.mpr h
  refine ensures_after fun err => ?_
  split
  · exact ensures_pure.mpr h
  dsimp only
  split
  · exact ensures_pure.mpr ⟨⟨h.inbound, h.outbound, h.call⟩, h.media⟩
  refine ensures_after fun sessionID => ?_
  split
  · exact ensures_pure.mpr ⟨⟨h.inbound, h.outbound, h.call⟩, h.media⟩
  · refine ensures_bind (ensures_startMedia ⟨⟨h.inbound, h.outbound, h.call⟩, h.media⟩)
      fun s' hs' => ?_
    exact ensures_pure.mpr hs'

theorem ensures_prepare (invite : Invite) :
    Ensures (fun res => s.SameDialogs res.1) (prepare cfg C s invite) := by
  have refused : ∀ {status : ℕ} {reason text protocolEvent : String} {s' : Session},
      s.SameDialogs s' → Ensures (fun res => s.SameDialogs res.1) (do
        let _ ← respond status reason [] []
        fail s' text protocolEvent
        return (s', (none : Option (Binding × Body)))) :=
    fun h => ensures_after fun _ => ensures_after fun _ => ensures_pure.mpr h
  have h := Session.SameDialogs.refl s
  unfold prepare
  refine ensures_after fun err => ?_
  split
  · exact ensures_pure.mpr h
  refine ensures_after fun sent => ?_
  split
  · exact ensures_after fun _ => ensures_pure.mpr h
  refine ensures_after fun binding => ?_
  split
  swap
  · exact refused h
  split
  · exact refused h
  refine ensures_after fun media => ?_
  split
  swap
  · exact refused ⟨rfl, rfl, rfl⟩
  dsimp only
  split
  · exact refused ⟨rfl, rfl, rfl⟩
  refine ensures_after fun sessionID => ?_
  split
  · exact refused ⟨rfl, rfl, rfl⟩
  · exact ensures_pure.mpr ⟨rfl, rfl, rfl⟩

theorem ensures_onResponse (h : s₀.SameMedia s) (response : Response) :
    Ensures (fun res => s₀.SameMedia res.2 ∧ ∀ r, res.1 ≠ some (.rejected r))
      (onResponse C s response) := by
  have relay : ∀ {s' : Session} {body : Body} {headers : List Header}, s₀.SameMedia s' →
      Ensures (fun res => s₀.SameMedia res.2 ∧ ∀ r, res.1 ≠ some (.rejected r)) (do
        if ← respond response.status response.reason body headers then
          return ((none : Option WaitError), s')
        else return (some .respond, s')) := by
    intro s' body headers h'
    refine ensures_after fun sent => ?_
    split
    · exact ensures_pure.mpr ⟨h', by simp⟩
    · exact ensures_pure.mpr ⟨h', by simp⟩
  unfold onResponse
  split
  · exact ensures_pure.mpr ⟨h, by simp⟩
  dsimp only
  split
  · refine ensures_bind (ensures_applyMediaAnswer C h response.body) fun res hres => ?_
    obtain ⟨_ | body, s'⟩ := res
    · exact ensures_pure.mpr ⟨hres, by simp⟩
    refine ensures_after fun err => ?_
    cases err with
    | some err => exact ensures_pure.mpr ⟨hres, by simp⟩
    | none => exact relay hres
  · refine ensures_after fun err => ?_
    cases err with
    | some err => exact ensures_pure.mpr ⟨h, by simp⟩
    | none => exact relay h

theorem ensures_waitAnswer (n : ℕ) (h : s₀.SameMedia s) :
    Ensures (fun res => s₀.SameMedia res.2 ∧ ∀ r, res.1 = .error (.rejected r) → 300 ≤ r.status)
      (waitAnswer C n s) := by
  refine ensures_loop (I := s₀.SameMedia) (fun s h => ?_) n h
  refine ensures_after fun waited => ?_
  cases waited with
  | failed cause => exact ensures_pure.mpr ⟨h, by simp⟩
  | response response =>
    refine ensures_bind (ensures_onResponse C h response) fun res hres => ?_
    obtain ⟨err, s'⟩ := res
    obtain ⟨h', herr⟩ := hres
    cases err with
    | some err =>
      refine ensures_pure.mpr ⟨h', ?_⟩
      rintro r ⟨rfl⟩
      exact absurd rfl (herr r)
    | none =>
      dsimp only
      split_ifs with hsuccess hprov
      · exact ensures_pure.mpr ⟨h', by simp⟩
      · exact ensures_pure.mpr h'
      · refine ensures_pure.mpr ⟨h', ?_⟩
        rintro _ ⟨rfl⟩
        simp only [Response.isSuccess, Response.isProvisional, Bool.and_eq_true,
          decide_eq_true_eq] at hsuccess hprov
        omega

theorem ensures_dial (n : ℕ) (binding : Binding) (offer : Body) :
    Ensures (fun res => (res.1.inbound = s.inbound ∧ res.1.media = s.media) ∧
        (res.2.isSome = true → res.1.outbound.isSome = true))
      (dial C n s binding offer) := by
  have ended : ∀ {s' : Session} {p : Prog engineSig Unit}, s'.inbound = s.inbound ∧ s'.media = s.media →
      Ensures (fun res => (res.1.inbound = s.inbound ∧ res.1.media = s.media) ∧
        (res.2.isSome = true → res.1.outbound.isSome = true)) (do
        p
        return (s', (none : Option Response))) :=
    fun h => ensures_after fun _ => ensures_pure.mpr ⟨h, by simp⟩
  unfold dial
  refine ensures_after fun outbound => ?_
  cases outbound with
  | none => exact ensures_after fun _ => ended ⟨rfl, rfl⟩
  | some outbound =>
    refine ensures_bind (ensures_waitAnswer C n (Session.SameMedia.refl _)) fun res hres => ?_
    obtain ⟨err | response, s'⟩ := res
    · have h := And.intro hres.1.inbound hres.1.media
      cases err with
      | rejected response => exact ensures_after fun _ => ended h
      | mediaNegotiation err => exact ensures_after fun _ => ended h
      | failed cause => exact ended h
      | transition err => exact ended h
      | respond => exact ended h
    · refine ensures_pure.mpr ⟨⟨hres.1.inbound, hres.1.media⟩, fun _ => ?_⟩
      rw [hres.1.outbound]
      rfl

theorem ensures_answerMedia (response : Response) :
    Ensures (fun res => s.SameMedia res.2) (answerMedia C s response) := by
  unfold answerMedia
  split
  · exact ensures_pure.mpr (.refl s)
  · exact ensures_bind (ensures_applyMediaAnswer C (.refl s) response.body) fun _ h =>
      ensures_pure.mpr h

theorem ensures_answer (response : Response) :
    Ensures (fun res => s.SameMedia res.1) (answer C s response) := by
  unfold answer
  refine ensures_bind (ensures_answerMedia C response) fun res h => ?_
  obtain ⟨negotiated, s'⟩ := res
  dsimp only
  split_ifs
  · exact ensures_after fun _ => ensures_pure.mpr h
  · exact ensures_after fun _ => ensures_pure.mpr h
  refine ensures_after fun acked => ?_
  split
  · exact ensures_after fun _ => ensures_after fun _ => ensures_pure.mpr h
  refine ensures_after fun _ => ensures_after fun err => ?_
  split
  · exact ensures_after fun _ => ensures_pure.mpr h
  refine ensures_after fun sent => ?_
  split
  · exact ensures_after fun _ => ensures_after fun _ => ensures_pure.mpr h
  · exact ensures_pure.mpr h

theorem ensures_handleReInviteCommand (h : s₀.SameMedia s) (request : Request) :
    Ensures (fun s' => s₀.SameMedia s') (handleReInviteCommand C s request) := by
  have refused : ∀ {s' : Session} {status : ℕ} {reason : String} {body : Body} {headers : List Header},
      s₀.SameMedia s' → Ensures (fun s' => s₀.SameMedia s') (do
        answerRequest request status reason body headers
        return s') :=
    fun h => ensures_after fun _ => ensures_pure.mpr h
  unfold handleReInviteCommand
  refine ensures_after fun pending => ?_
  split
  · exact refused h
  split
  · exact refused h
  split
  · exact refused h
  refine ensures_after fun sessionID => ?_
  split
  · exact refused h
  refine ensures_after fun response => ?_
  split
  swap
  · exact refused h
  split
  · exact refused h
  refine ensures_after fun acked => ?_
  split
  · exact refused h
  have hoffer : ∀ offer, s₀.SameMedia { s with callerOffer := offer } :=
    fun _ => ⟨⟨h.inbound, h.outbound, h.call⟩, h.media⟩
  refine ensures_bind (ensures_applyMediaAnswer C (hoffer _) _) fun res hres => ?_
  obtain ⟨_ | body, s'⟩ := res
  · exact refused ⟨⟨hres.inbound, hres.outbound, hres.call⟩, hres.media⟩
  refine ensures_after fun err => ?_
  split
  · exact refused hres
  · exact ensures_after fun _ => refused hres

theorem ensures_handleCommand (h : s₀.SameMedia s) (command : SessionCommand) :
    Ensures (fun res => s₀.SameMedia res.2 ∧ (res.1 = true → ∃ origin, command = .hangup origin))
      (handleCommand C s command) := by
  cases command with
  | hangup origin => exact ensures_after fun _ => ensures_pure.mpr ⟨h, fun _ => ⟨origin, rfl⟩⟩
  | reInvite request =>
    exact ensures_bind (ensures_handleReInviteCommand C h request) fun _ h' =>
      ensures_after fun _ => ensures_pure.mpr ⟨h', by simp⟩
  | refer request => exact ensures_after fun _ => ensures_after fun _ => ensures_pure.mpr ⟨h, by simp⟩
  | notify request => exact ensures_after fun _ => ensures_after fun _ => ensures_pure.mpr ⟨h, by simp⟩

theorem ensures_commandLoop (n : ℕ) : Ensures (fun s' => s.SameMedia s') (commandLoop C n s) := by
  refine ensures_loop (I := s.SameMedia) (fun s' h => ?_) n (.refl s)
  refine ensures_after fun sel => ?_
  cases sel with
  | command c =>
    refine ensures_bind (ensures_handleCommand C h c) fun res hres => ?_
    obtain ⟨ended, s''⟩ := res
    cases ended
    · exact ensures_pure.mpr hres.1
    · exact ensures_pure.mpr hres.1
  | parentDone => exact ensures_after fun _ => ensures_pure.mpr h
  | mediaDone failed =>
    exact ensures_after fun _ => ensures_pure.mpr ⟨⟨h.inbound, h.outbound, h.call⟩, h.media⟩

end AixvolinkPbx.B2bua
