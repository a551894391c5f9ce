import AixvolinkPbx.B2bua.Answering
import AixvolinkPbx.B2bua.Operations
import AixvolinkPbx.Lib.Guard
import AixvolinkPbx.Sdp.Accepted
import AixvolinkPbx.Sdp.Relay
import Mathlib.Data.List.Induction

/-!
# What is said in the dialogs of a call

A session speaks to the callee with an offer of its own making: in the INVITE and in every re-INVITE it
puts its callee-facing addresses in the place of the caller's and keeps the caller's codecs and
direction. REFER and NOTIFY go to the other leg as they are, and whoever sent a request is answered on
the transaction of that request, with what the other leg said.

1. `Scene` is what the session has to go by: the bindings it looked up, its media, the command it has
   taken, and the answer to its last request. `Scene.allows` says what it may send then, and to whom.
2. `handleInvite_scene`: a session sends nothing else.
3. `offers_read_back`: what `ParseAudio` of the callee finds in an offer is the session's addresses with
   what the caller asked for. `reInvite_answers_read_back` and `relays_faithful`: answers and requests
   inside the dialogs.
-/

namespace AixvolinkPbx.B2bua

open Calls (Actor)
open Registration (Binding)
open Sdp (Body Codecs Endpoint)
open Prog (Guarded guarded_pure guarded_call guarded_bind guarded_loop Only only_bind only_call only_pure
  only_loop Path)

variable (cfg : Config) (C : Codecs)

/-! ## Descriptions -/

/-- The offer describes the callee-facing addresses, with the codecs and the direction that the caller
asks for. -/
def Offered (media : Media) (caller offer : Body) : Prop :=
  ∃ endpoint sessionID rtp rtcp, Sdp.parseAudio C caller = .ok endpoint ∧
    media.localEndpoint .callee = some (rtp, rtcp) ∧
      Sdp.buildAudio C sessionID rtp rtcp (Sdp.codecListForOffer endpoint) endpoint.direction = .ok offer

/-- The answer describes the caller-facing addresses, with the codecs negotiated and the direction of
the callee's answer. -/
def Answered (media : Media) (caller callee answer : Body) : Prop :=
  ∃ offered answered mapping sessionID rtp rtcp, Sdp.parseAudio C caller = .ok offered ∧
    Sdp.parseAudio C callee = .ok answered ∧ Sdp.negotiate offered answered = .ok mapping ∧
      media.localEndpoint .caller = some (rtp, rtcp) ∧
        Sdp.buildAudio C sessionID rtp rtcp (Sdp.codecListForAnswer mapping) answered.direction =
          .ok answer

def relayedHeaders (request : Request) : List Header :=
  headersNamed ["Refer-To", "Referred-By", "Event", "Subscription-State", "Content-Type"] request.headers

def relayedReply : Option Response → Response
  | none => ⟨408, "Request Timeout", [], []⟩
  | some reply => ⟨reply.status, reply.reason, reply.body,
      headersNamed ["Event", "Subscription-State", "Content-Type"] reply.headers⟩

/-! ## The scene -/

structure Scene where
  /-- The bindings that were listed, and the one that was resolved, with the address they are for. -/
  listed : Option (String × String × List Binding)
  resolved : Option (String × String × Binding)
  media : Option Media
  command : Option SessionCommand
  /-- The answer to the last request since the command was taken. -/
  reply : Option Response

def Selected.taken : Selected → Option SessionCommand
  | .command c => some c
  | .parentDone => none
  | .mediaDone _ => none

/-- The leg a command is relayed to, and the request to relay. -/
def SessionCommand.relays : SessionCommand → Option (Leg × Request)
  | .refer request => some (.callee, request)
  | .notify request => some (.caller, request)
  | _ => none

namespace Scene

def start : Scene := ⟨none, none, none, none, none⟩

def next (v : Scene) : Event engineSig → Scene
  | ⟨.listBindings tenantID aor, found⟩ => { v with listed := found.map (tenantID, aor, ·) }
  | ⟨.resolve tenantID aor, found⟩ => { v with resolved := found.map (tenantID, aor, ·) }
  | ⟨.newMedia, media⟩ => { v with media := media }
  | ⟨.select, selected⟩ => { v with command := selected.taken, reply := none }
  | ⟨.request _ _ _ _, reply⟩ => { v with reply := reply }
  | _ => v

end Scene

/-- The requests a session may send: the offer of the re-INVITE it has taken, or a REFER or NOTIFY. -/
inductive Requests (v : Scene) : Leg → String → Body → List Header → Prop
  | reInvite {request : Request} {media : Media} {offer : Body}
      (hcommand : v.command = some (.reInvite request)) (hmedia : v.media = some media)
      (hoffer : Offered C media request.body offer) :
      Requests v .callee "INVITE" offer [sdpContentType]
  | relayed {leg : Leg} {request : Request}
      (hcommand : v.command.bind SessionCommand.relays = some (leg, request)) :
      Requests v leg request.method request.body (relayedHeaders request)

/-- The answers a session may give. A re-INVITE is refused without a body, or rejected as the callee
rejects it, or answered from the callee's answer. -/
inductive Replies (v : Scene) : ℕ → Response → Prop
  | refused {request : Request} {status : ℕ} {reason : String}
      (hcommand : v.command = some (.reInvite request)) (hstatus : 400 ≤ status) :
      Replies v request.transaction ⟨status, reason, [], []⟩
  | rejected {request : Request} {reply : Response} (hcommand : v.command = some (.reInvite request))
      (hreply : v.reply = some reply) (hrejects : reply.isSuccess = false) :
      Replies v request.transaction ⟨reply.status, reply.reason, reply.body, []⟩
  | answered {request : Request} {media : Media} {reply : Response} {answer : Body}
      (hcommand : v.command = some (.reInvite request)) (hmedia : v.media = some media)
      (hreply : v.reply = some reply) (hsuccess : reply.isSuccess = true)
      (hanswer : Answered C media request.body reply.body answer) :
      Replies v request.transaction ⟨200, "OK", answer, [sdpContentType]⟩
  | relayed {leg : Leg} {request : Request}
      (hcommand : v.command.bind SessionCommand.relays = some (leg, request)) :
      Replies v request.transaction (relayedReply v.reply)

/-- The caller's bindings were listed, and the INVITE comes from the address and transport of one. -/
def Scene.SourceListed (invite : Invite) (v : Scene) : Prop :=
  ∃ bindings, v.listed = some (cfg.tenantID, addressOfRecord cfg (invite.fromUser.getD ""), bindings) ∧
    ∃ b ∈ bindings, b.routeTarget = invite.source ∧ b.transport.text = Text.toLower invite.transport

/-- The callee's binding was resolved, and the offer is for the session's media. -/
structure Scene.Prepared (invite : Invite) (v : Scene) (binding : Binding) (offer : Body) : Prop where
  resolved : v.resolved = some (cfg.tenantID, addressOfRecord cfg (invite.toUser.getD ""), binding)
  offered : ∃ media, v.media = some media ∧ Offered C media invite.body offer

def Scene.allows (invite : Invite) (v : Scene) : EngineOp → Prop
  | .createOutbound binding offer => v.SourceListed cfg invite ∧ v.Prepared cfg C invite binding offer
  | .request leg method body headers => Requests C v leg method body headers
  | .respondTo transaction response => Replies C v transaction response
  | _ => True

/-- From the scene `v`, a part of a session sends only what it may. -/
abbrev Proper {α : Type} (invite : Invite) (v : Scene) (p : Prog engineSig α)
    (Q : α → Scene → Prop) : Prop :=
  Guarded Scene.next (Scene.allows cfg C invite) v p Q

/-! ## Operations that are not part of the scene -/

def plain : EngineOp → Bool
  | .listBindings _ _ => false
  | .resolve _ _ => false
  | .newMedia => false
  | .select => false
  | .createOutbound _ _ => false
  | .request _ _ _ _ => false
  | .respondTo _ _ => false
  | _ => true

def PlainOp (e : EngineOp) : Prop := plain e = true

variable {cfg C} {invite : Invite} {v : Scene} {e : EngineOp}

theorem Scene.next_of_plain (h : PlainOp e) (r : engineSig.Ans e) : v.next ⟨e, r⟩ = v := by
  cases e with
  | listBindings | resolve | newMedia | select | request => cases h
  | _ => rfl

theorem Scene.allows_of_plain (h : PlainOp e) : v.allows cfg C invite e := by
  cases e with
  | createOutbound | request | respondTo => cases h
  | _ => exact trivial

theorem plain_of_among {α : Type} {kinds : List Kind} {p : Prog engineSig α}
    (h : Only (Among kinds) p)
    (hkinds : ∀ k ∈ kinds, k ∉ [Kind.registration, .lease, .select, .callee, .inDialog]) :
    Only PlainOp p := by
  refine h.mono fun e he => ?_
  have hkind := hkinds _ he
  cases e <;> first | rfl | exact absurd (by simp [kind]) hkind

theorem plain_op (h : plain e = true) : Only PlainOp (op e) := only_call.mpr h

theorem plain_scene {α : Type} {p : Prog engineSig α} (hp : Only PlainOp p) :
    Proper cfg C invite v p fun _ v' => v' = v :=
  hp.guarded (fun _ _ => Scene.allows_of_plain) fun _ _ r he => Scene.next_of_plain he r

theorem plain_before {α β : Type} {p : Prog engineSig α} {f : α → Prog engineSig β}
    {Q : β → Scene → Prop} (hp : Only PlainOp p) (hf : ∀ a, Proper cfg C invite v (f a) Q) :
    Proper cfg C invite v (p >>= f) Q := by
  refine (plain_scene hp).bind ?_
  rintro a _ rfl
  exact hf a

theorem plain_fail (s : Session) (reason protocolEvent : String) :
    Only PlainOp (fail s reason protocolEvent) :=
  only_bind (plain_op rfl) fun _ => only_pure

variable {body : Body}

theorem plain_refuse {α : Type} {status : ℕ} {reason : String} {headers : List Header} {s : Session}
    {text protocolEvent : String} {a : α} : Only PlainOp (do
      let _ ← respond status reason body headers
      fail s text protocolEvent
      return a) :=
  only_bind (plain_op rfl) fun _ => only_bind (plain_fail ..) fun _ => only_pure

theorem plain_applyMediaAnswer (C : Codecs) (s : Session) (body : Body) :
    Only PlainOp (applyMediaAnswer C s body) :=
  plain_of_among (only_applyMediaAnswer C s body) (by simp)

theorem plain_onResponse (C : Codecs) (s : Session) (response : Response) :
    Only PlainOp (onResponse C s response) := by
  have relay : ∀ (s : Session) (body : Body) (headers : List Header), Only PlainOp (do
      if ← respond response.status response.reason body headers then
        return ((none : Option WaitError), s)
      else return (some .respond, s)) := by
    intro s body headers
    refine only_bind (plain_op rfl) fun sent => ?_
    split
    · exact only_pure
    · exact only_pure
  unfold onResponse
  split
  · exact only_pure
  dsimp only
  split
  · refine only_bind (plain_applyMediaAnswer C s _) fun res => ?_
    obtain ⟨_ | body, s⟩ := res
    · exact only_pure
    refine only_bind (plain_op rfl) fun err => ?_
    cases err with
    | some err => exact only_pure
    | none => exact relay ..
  · have hring : Only PlainOp (ring s response) := by
      unfold ring
      split
      · exact plain_op rfl
      · exact only_pure
    refine only_bind hring fun err => ?_
    cases err with
    | some err => exact only_pure
    | none => exact relay ..

theorem plain_waitAnswer (C : Codecs) (n : ℕ) (s : Session) : Only PlainOp (waitAnswer C n s) := by
  refine only_loop (fun s => ?_) n s
  refine only_bind (plain_op rfl) fun waited => ?_
  cases waited with
  | failed cause => exact only_pure
  | response response =>
    refine only_bind (plain_onResponse C s response) fun res => ?_
    obtain ⟨_ | err, s⟩ := res
    · dsimp only
      split_ifs
      · exact only_pure
      · exact only_pure
      · exact only_pure
    · exact only_pure

theorem plain_answer (C : Codecs) (s : Session) (response : Response) :
    Only PlainOp (answer C s response) := by
  have hmedia : Only PlainOp (answerMedia C s response) := by
    unfold answerMedia
    split
    · exact only_pure
    · exact only_bind (plain_applyMediaAnswer ..) fun _ => only_pure
  have rejected : ∀ {s : Session} {reason : String}, Only PlainOp (do
      rejectAnswer s reason
      return (s, false)) :=
    only_bind (only_bind (plain_op rfl) fun _ => only_bind (plain_op rfl) fun _ =>
      only_bind (plain_op rfl) fun _ => plain_fail ..) fun _ => only_pure
  unfold answer
  refine only_bind hmedia fun res => ?_
  obtain ⟨negotiated, s⟩ := res
  dsimp only
  split_ifs
  · exact rejected
  · exact rejected
  refine only_bind (plain_op rfl) fun acked => ?_
  split
  · exact plain_refuse
  refine only_bind (plain_op rfl) fun _ => only_bind (plain_op rfl) fun err => ?_
  split
  · exact only_bind (plain_op rfl) fun _ => only_pure
  refine only_bind (plain_op rfl) fun sent => ?_
  split
  · refine only_bind (plain_op rfl) fun _ => only_bind ?_ fun _ => only_pure
    exact plain_of_among (only_terminate ..) (by simp)
  · exact only_pure

/-! ## The parts of a session -/

theorem sourceIsRegistered_scene : Proper cfg C invite v (sourceIsRegistered cfg
    (addressOfRecord cfg (invite.fromUser.getD "")) invite.source invite.transport) fun res v' =>
      res = some true → v'.SourceListed cfg invite := by
  unfold sourceIsRegistered
  refine guarded_bind (guarded_call trivial fun (bindings : Option (List Binding)) => ?_)
  cases bindings with
  | none => exact guarded_pure (by simp)
  | some bindings =>
    refine guarded_pure fun hfound => ?_
    obtain ⟨b, hb, hfits⟩ := List.any_eq_true.mp (Option.some.inj hfound)
    rw [Bool.and_eq_true, decide_eq_true_eq, decide_eq_true_eq] at hfits
    exact ⟨bindings, rfl, b, hb, hfits⟩

theorem plain_openSession : Only PlainOp (openSession cfg) := by
  have released : ∀ {p : Prog engineSig (Option (Session × Actor))}, Only PlainOp p →
      Only PlainOp (do release; p) :=
    fun hp => only_bind (only_bind (plain_op rfl) fun _ => plain_op rfl) fun _ => hp
  unfold openSession
  refine only_bind (plain_op rfl) fun inbound => ?_
  split
  swap
  · exact released (only_bind (only_bind (plain_op rfl) fun _ => only_pure) fun _ => only_pure)
  refine only_bind (plain_op rfl) fun current => ?_
  split
  swap
  · exact released (only_bind (plain_op rfl) fun _ => only_pure)
  split
  · exact released (only_bind (plain_op rfl) fun _ => only_pure)
  · exact only_bind (plain_op rfl) fun _ => only_pure

theorem admission_scene : Proper cfg C invite v (admission cfg invite) fun res v' =>
    res ≠ none → v'.SourceListed cfg invite := by
  have rejected : ∀ {status : ℕ} {reason : String} {headers : List Header} {v : Scene},
      Proper cfg C invite v (do
        reject status reason headers
        return (none : Option (Session × Actor))) fun res v' => res ≠ none →
          v'.SourceListed cfg invite :=
    plain_before (only_bind (plain_op rfl) fun _ => only_pure) fun _ => guarded_pure fun h => absurd rfl h
  have released : ∀ {status : ℕ} {reason : String} {v : Scene}, Proper cfg C invite v (do
      release
      reject status reason []
      return (none : Option (Session × Actor))) fun res v' => res ≠ none → v'.SourceListed cfg invite :=
    plain_before (plain_of_among only_release (by simp)) fun _ => rejected
  unfold admission
  refine plain_before (plain_op rfl) fun reserved => ?_
  split
  · exact rejected
  dsimp only
  split
  · exact released
  refine sourceIsRegistered_scene.bind fun found v' hlisted => ?_
  split
  · exact released
  next hfound =>
  refine (plain_scene plain_openSession).mono fun _ _ h _ => ?_
  rw [h]
  exact hlisted (not_not.mp hfound)

/-- The offer that `prepare` returns is for the binding it resolved and for the session's media. -/
theorem prepare_scene (s : Session) : Proper cfg C invite v (prepare cfg C s invite) fun res v' =>
    ∀ binding offer, res.2 = some (binding, offer) → v'.listed = v.listed ∧ v'.media = res.1.media ∧
      v'.Prepared cfg C invite binding offer := by
  have refused : ∀ {status : ℕ} {reason text protocolEvent : String} {s : Session} {v' : Scene},
      Proper cfg C invite v' (do
        let _ ← respond status reason [] []
        fail s text protocolEvent
        return (s, (none : Option (Binding × Body)))) fun res v' =>
          ∀ binding offer, res.2 = some (binding, offer) → v'.listed = v.listed ∧
            v'.media = res.1.media ∧ v'.Prepared cfg C invite binding offer :=
    plain_before (plain_op rfl) fun _ => plain_before (plain_fail ..) fun _ => guarded_pure (by simp)
  unfold prepare
  refine plain_before (plain_op rfl) fun err => ?_
  split
  · exact guarded_pure (by simp)
  refine plain_before (plain_op rfl) fun sent => ?_
  split
  · exact plain_before (plain_fail ..) fun _ => guarded_pure (by simp)
  refine guarded_bind (guarded_call trivial fun (found : Option Binding) => ?_)
  split
  swap
  · exact refused
  split
  · exact refused
  next callerOffer hoffer =>
  refine guarded_bind (guarded_call trivial fun (media : Option Media) => ?_)
  split
  swap
  · exact refused
  next media =>
  dsimp only
  split
  · exact refused
  next rtp rtcp hlocal =>
  refine plain_before (plain_op rfl) fun sessionID => ?_
  split
  · exact refused
  next built hbuild =>
  refine guarded_pure ?_
  rintro _ _ ⟨rfl, rfl⟩
  exact ⟨rfl, rfl, rfl, media, rfl, callerOffer, sessionID, rtp, rtcp, hoffer, hlocal, hbuild⟩

theorem dial_scene (n : ℕ) (s : Session) {binding : Binding} {offer : Body}
    (hdial : v.allows cfg C invite (.createOutbound binding offer)) :
    Proper cfg C invite v (dial C n s binding offer) fun _ v' => v' = v := by
  have failed : ∀ {text protocolEvent : String} {s : Session}, Proper cfg C invite v (do
      fail s text protocolEvent
      return (s, (none : Option Response))) fun _ v' => v' = v :=
    plain_scene (only_bind (plain_fail ..) fun _ => only_pure)
  unfold dial
  refine guarded_bind (guarded_call hdial fun (outbound : Option String) => ?_)
  cases outbound with
  | none => exact plain_scene plain_refuse
  | some outbound =>
    refine plain_before (plain_waitAnswer C n _) fun res => ?_
    obtain ⟨err | response, s'⟩ := res
    · cases err with
      | rejected response => exact plain_scene plain_refuse
      | mediaNegotiation err => exact plain_scene plain_refuse
      | failed cause => exact failed
      | transition err => exact failed
      | respond => exact failed
    · exact guarded_pure rfl

theorem setup_scene (n : ℕ) (s : Session) (actor : Actor) (hlisted : v.SourceListed cfg invite) :
    Proper cfg C invite v (setup cfg C n s actor invite) fun res v' =>
      res.2 = true → v'.media = res.1.media := by
  unfold setup
  refine plain_before (plain_op rfl) fun _ => (prepare_scene s).bind ?_
  rintro ⟨s', _ | ⟨binding, offer⟩⟩ v' hafter
  · exact guarded_pure (by simp)
  obtain ⟨hsame, hmedia, hprepared⟩ := hafter binding offer rfl
  rw [Scene.SourceListed, ← hsame] at hlisted
  refine ((dial_scene n s' ⟨hlisted, hprepared⟩).and_ensures (ensures_dial C n binding offer)).bind ?_
  rintro ⟨s'', _ | response⟩ _ ⟨rfl, ⟨-, hkept⟩, -⟩
  · exact guarded_pure (by simp)
  refine ((plain_scene (plain_answer C s'' response)).and_ensures (ensures_answer C response)).mono ?_
  rintro ⟨s₃, ended⟩ _ ⟨rfl, hkept'⟩ -
  exact hmedia.trans (hkept.symm.trans hkept'.media.symm)

/-! ## Commands -/

theorem plain_hasPendingReInvite : Only PlainOp hasPendingReInvite := by
  unfold hasPendingReInvite completePendingReInviteTransaction
  refine only_bind (plain_op rfl) fun pending => ?_
  split
  · refine only_bind (plain_op rfl) fun acked => ?_
    split
    · refine only_bind (only_bind (plain_op rfl) fun _ => ?_) fun _ => only_pure
      exact Prog.only_when (plain_op rfl)
    · exact only_pure
  · exact only_pure

variable {request : Request}

theorem answerRequest_scene {status : ℕ} {reason : String} {headers : List Header}
    (h : Replies C v request.transaction ⟨status, reason, body, headers⟩) :
    Proper cfg C invite v (answerRequest request status reason body headers)
      fun _ v' => v' = v :=
  guarded_bind (guarded_call h fun _ => guarded_pure rfl)

theorem ensures_answered (s : Session) {media : Media} (hmedia : s.media = some media) {caller : Body}
    (hoffer : Sdp.parseAudio C caller = .ok s.callerOffer) (callee : Body) :
    Prog.Ensures (fun res => ∀ answer, res.1 = .ok answer → Answered C media caller callee answer)
      (applyMediaAnswer C s callee) := by
  unfold applyMediaAnswer
  split
  · exact Prog.ensures_pure.mpr (by simp)
  next calleeAnswer hanswer =>
  split
  · exact Prog.ensures_pure.mpr (by simp)
  next mapping hmapping =>
  split_ifs
  · exact Prog.ensures_pure.mpr (by simp)
  refine Prog.ensures_after fun err => ?_
  split
  · exact Prog.ensures_pure.mpr (by simp)
  dsimp only
  split
  · exact Prog.ensures_pure.mpr (by simp)
  next rtp rtcp hlocal =>
  refine Prog.ensures_after fun sessionID => ?_
  split
  · exact Prog.ensures_pure.mpr (by simp)
  next built hbuild =>
  refine Prog.ensures_after fun s' => Prog.ensures_pure.mpr ?_
  rintro _ ⟨rfl⟩
  have hlocal : media.localEndpoint .caller = some (rtp, rtcp) := by
    simpa [localEndpoint, hmedia] using hlocal
  exact ⟨s.callerOffer, calleeAnswer, mapping, sessionID, rtp, rtcp, hoffer, hanswer, hmapping, hlocal,
    hbuild⟩

theorem handleReInviteCommand_scene (s : Session) (hs : v.media = s.media)
    (hcommand : v.command = some (.reInvite request)) :
    Proper cfg C invite v (handleReInviteCommand C s request) fun _ v' =>
      v'.media = v.media := by
  -- the reply changes with the request, the media and the command do not
  have replied : ∀ {v' : Scene} {s' : Session} {status : ℕ} {reason : String} {body : Body}
      {headers : List Header}, v'.media = v.media →
      Replies C v' request.transaction ⟨status, reason, body, headers⟩ →
      Proper cfg C invite v' (do
        answerRequest request status reason body headers
        return s') fun _ v'' => v''.media = v.media := by
    intro v' s' status reason body headers hmedia hreply
    refine (answerRequest_scene hreply).bind ?_
    rintro _ _ rfl
    exact guarded_pure hmedia
  unfold handleReInviteCommand
  refine plain_before plain_hasPendingReInvite fun pending => ?_
  split
  · exact replied rfl (.refused hcommand (by simp))
  split
  · exact replied rfl (.refused hcommand (by simp))
  next offer hoffer =>
  split
  · exact replied rfl (.refused hcommand (by simp))
  next rtp rtcp hlocal =>
  obtain ⟨media, hmedia, hlocal⟩ := Option.bind_eq_some_iff.mp hlocal
  refine plain_before (plain_op rfl) fun sessionID => ?_
  split
  · exact replied rfl (.refused hcommand (by simp))
  next outboundOffer hbuild =>
  have hrequest : Requests C v .callee "INVITE" outboundOffer [sdpContentType] :=
    .reInvite hcommand (hs.trans hmedia) ⟨offer, sessionID, rtp, rtcp, hoffer, hlocal, hbuild⟩
  refine guarded_bind (guarded_call hrequest fun (reply : Option Response) => ?_)
  split
  swap
  · exact replied rfl (.refused hcommand (by simp))
  next reply =>
  split
  next hrejects => exact replied rfl (.rejected hcommand rfl (by simpa using hrejects))
  next hsuccess =>
  refine plain_before (plain_op rfl) fun acked => ?_
  split
  · exact replied rfl (.refused hcommand (by simp))
  refine ((plain_scene (plain_applyMediaAnswer ..)).and_ensures
    (ensures_answered { s with callerOffer := offer } hmedia hoffer reply.body)).bind ?_
  rintro ⟨_ | answer, s'⟩ _ ⟨rfl, hanswered⟩
  · exact replied rfl (.refused hcommand (by simp))
  refine plain_before (plain_op rfl) fun err => ?_
  split
  · exact replied rfl (.refused hcommand (by simp))
  refine plain_before (plain_op rfl) fun _ => ?_
  exact replied rfl
    (.answered hcommand (hs.trans hmedia) rfl (by simpa using hsuccess) (hanswered answer rfl))

theorem relay_scene {leg : Leg}
    (hcommand : v.command.bind SessionCommand.relays = some (leg, request)) :
    Proper cfg C invite v (relay leg request) fun _ v' => v'.media = v.media := by
  have replied : ∀ reply : Option Response,
      Proper cfg C invite { v with reply := reply } (respondRelayed request reply)
        fun _ v' => v'.media = v.media := by
    intro reply
    have hreply : Replies C { v with reply := reply } request.transaction (relayedReply reply) :=
      .relayed hcommand
    cases reply with
    | none => exact (answerRequest_scene hreply).mono fun _ _ h => by rw [h]
    | some reply => exact (answerRequest_scene hreply).mono fun _ _ h => by rw [h]
  exact guarded_bind (guarded_call (Requests.relayed hcommand) replied)

theorem handleCommand_scene (s : Session) (hs : v.media = s.media) {command : SessionCommand}
    (hcommand : v.command = some command) :
    Proper cfg C invite v (handleCommand C s command) fun _ v' =>
      v'.media = v.media := by
  have close : ∀ {transaction : ℕ} {s : Session} {v' : Scene}, v'.media = v.media →
      Proper cfg C invite v' (do
        op (.closeResult transaction)
        return (false, s)) fun _ v'' => v''.media = v.media :=
    fun h => plain_before (plain_op rfl) fun _ => guarded_pure h
  cases command with
  | hangup origin =>
    exact plain_before (plain_of_among (only_handleHangup ..) (by simp)) fun _ => guarded_pure rfl
  | reInvite request =>
    exact (handleReInviteCommand_scene s hs hcommand).bind fun _ _ h => close h
  | refer request =>
    exact (relay_scene (by rw [hcommand]; rfl)).bind fun _ _ h => close h
  | notify request =>
    exact (relay_scene (by rw [hcommand]; rfl)).bind fun _ _ h => close h

theorem commandLoop_scene (n : ℕ) (s : Session) (hs : v.media = s.media) :
    Proper cfg C invite v (commandLoop C n s) fun _ _ => True := by
  refine guarded_loop (I := fun s v => v.media = s.media) (fun s v hs => ?_) n hs
  have hangup : ∀ {s : Session} {v : Scene}, Proper cfg C invite v (do
      handleHangup .detached s .caller
      return (.inr s : Session ⊕ Session)) fun x v' => x.elim (fun s => v'.media = s.media) fun _ => True :=
    plain_before (plain_of_among (only_handleHangup ..) (by simp)) fun _ => guarded_pure trivial
  unfold loopRound
  refine guarded_bind (guarded_call trivial fun (selected : Selected) => ?_)
  cases selected with
  | parentDone => exact hangup
  | mediaDone failed => exact hangup
  | command command =>
    have hscene : Proper cfg C invite (v.next ⟨.select, .command command⟩)
        (handleCommand C s command) fun _ v' => v'.media = v.media :=
      handleCommand_scene (v := v.next ⟨.select, .command command⟩) s hs rfl
    refine (hscene.and_ensures (ensures_handleCommand C (.refl s) command)).bind ?_
    rintro ⟨ended, s'⟩ v' ⟨hv, hkept, -⟩
    have hmedia : v'.media = s'.media := (hv.trans hs).trans hkept.media.symm
    cases ended with
    | true => exact guarded_pure trivial
    | false => exact guarded_pure hmedia

theorem plain_finish (s : Session) : Only PlainOp (finish s) := by
  unfold finish remove
  refine only_bind (plain_op rfl) fun _ => only_bind ?_ fun _ => ?_
  · refine only_bind (plain_op rfl) fun transaction => ?_
    cases transaction with
    | none => exact only_pure
    | some transaction => exact plain_op rfl
  refine only_bind (plain_of_among (only_stopMedia s) (by simp)) fun _ => ?_
  refine only_bind (plain_op rfl) fun _ => ?_
  refine only_bind (only_bind (plain_op rfl) fun _ => Prog.only_when (plain_op rfl)) fun _ => ?_
  exact only_bind (plain_op rfl) fun _ => plain_op rfl

variable (cfg C invite) in
theorem handleInvite_scene (n : ℕ) :
    Proper cfg C invite .start (handleInvite cfg C n invite) fun _ _ => True := by
  have hserve : ∀ {v : Scene} (res : Session × Bool), (res.2 = true → v.media = res.1.media) →
      Proper cfg C invite v (serve C n (some res)) fun _ _ => True := by
    rintro v ⟨s, _ | _⟩ hmedia
    · exact (plain_scene (plain_finish s)).mono fun _ _ _ => trivial
    · refine (commandLoop_scene n s (hmedia rfl)).bind fun s' v' _ => ?_
      exact (plain_scene (plain_finish s')).mono fun _ _ _ => trivial
  unfold handleInvite answerInvite
  refine guarded_bind (guarded_bind (admission_scene.mono ?_))
  rintro (_ | ⟨s, actor⟩) v hlisted
  · exact guarded_pure (guarded_pure trivial)
  · exact (setup_scene n s actor (hlisted (by simp))).bind fun res v h => guarded_pure (hserve res h)

/-- What the scene holds was said in an event. -/
structure Scene.Sourced (v : Scene) (t : List (Event engineSig)) : Prop where
  listed : ∀ tenantID aor bindings, v.listed = some (tenantID, aor, bindings) →
    ⟨.listBindings tenantID aor, some bindings⟩ ∈ t
  resolved : ∀ tenantID aor binding, v.resolved = some (tenantID, aor, binding) →
    ⟨.resolve tenantID aor, some binding⟩ ∈ t
  media : ∀ media, v.media = some media → ⟨.newMedia, some media⟩ ∈ t

theorem Scene.Sourced.snoc {t : List (Event engineSig)} (h : v.Sourced t) (ev : Event engineSig) :
    (v.next ev).Sourced (t ++ [ev]) := by
  have hlisted := fun tenantID aor bindings hv =>
    List.mem_append_left [ev] (h.listed tenantID aor bindings hv)
  have hresolved := fun tenantID aor binding hv =>
    List.mem_append_left [ev] (h.resolved tenantID aor binding hv)
  have hmedia := fun media hv => List.mem_append_left [ev] (h.media media hv)
  obtain ⟨e, r⟩ := ev
  cases e with
  | listBindings tenantID aor =>
    refine ⟨fun _ _ bindings hv => ?_, hresolved, hmedia⟩
    obtain ⟨_, rfl, ⟨⟩⟩ := Option.map_eq_some_iff.mp hv
    exact List.mem_append_right _ List.mem_cons_self
  | resolve tenantID aor =>
    refine ⟨hlisted, fun _ _ binding hv => ?_, hmedia⟩
    obtain ⟨_, rfl, ⟨⟩⟩ := Option.map_eq_some_iff.mp hv
    exact List.mem_append_right _ List.mem_cons_self
  | newMedia =>
    refine ⟨hlisted, hresolved, fun media hv => ?_⟩
    obtain rfl : r = some media := hv
    exact List.mem_append_right _ List.mem_cons_self
  | _ => exact ⟨hlisted, hresolved, hmedia⟩

theorem sourced_past (t : List (Event engineSig)) : (t.foldl Scene.next .start).Sourced t := by
  induction t using List.reverseRecOn with
  | nil => exact ⟨fun _ _ _ h => (by cases h), fun _ _ _ h => (by cases h), fun _ h => (by cases h)⟩
  | append_singleton t ev ih =>
    rw [List.foldl_append]
    exact ih.snoc ev

/-! ## What the other side reads -/

/-- The addresses of the media session can be described and are read as they are written, and so are the
descriptions that `BuildAudio` writes of them. -/
structure Media.Describable (C : Codecs) (media : Media) : Prop where
  specified : media.advertisedIP.isUnspecified = false
  text : C.parseAddr (C.addrString media.advertisedIP) = some media.advertisedIP
  caller : media.callerPort ≠ 0 ∧ media.callerPort + 1 ≠ 0
  callee : media.calleePort ≠ 0 ∧ media.calleePort + 1 ≠ 0
  reads : ∀ leg rtp rtcp, media.localEndpoint leg = some (rtp, rtcp) →
    ∀ sessionID codecs direction body, Sdp.Relayable codecs →
      Sdp.buildAudio C sessionID rtp rtcp codecs direction = .ok body →
        C.unmarshal body = some (Sdp.describe C sessionID rtp rtcp codecs direction)

theorem marshal_of_buildAudio {sessionID : ℤ} {rtp rtcp : AddrPort} {codecs : List Sdp.Codec}
    {direction : Sdp.Direction}
    (h : Sdp.buildAudio C sessionID rtp rtcp codecs direction = .ok body) :
    C.marshal (Sdp.describe C sessionID rtp rtcp codecs direction) = some body := by
  unfold Sdp.buildAudio at h
  split_ifs at h
  split at h
  · cases h
  next hmarshal =>
    cases h
    exact hmarshal

theorem direction_ne_unset {endpoint : Endpoint} (h : Sdp.parseAudio C body = .ok endpoint) :
    endpoint.direction ≠ .unset := by
  obtain ⟨description, media, -, hparses⟩ := Sdp.parses_of_parseAudio h
  have hmem := Sdp.mediaDirection_mem description media
  rw [← hparses.direction] at hmem
  intro hunset
  rw [hunset] at hmem
  exact absurd hmem (by decide)

/-- A description that faces a leg is read as the addresses, the direction and the codecs written. -/
theorem Media.Describable.parseAudio {media : Media} (hmedia : media.Describable C) {leg : Leg}
    {rtp rtcp : AddrPort} (hlocal : media.localEndpoint leg = some (rtp, rtcp)) {sessionID : ℤ}
    {codecs : List Sdp.Codec} (hcodecs : Sdp.Relayable codecs) {direction : Sdp.Direction}
    (hdirection : direction ≠ .unset)
    (h : Sdp.buildAudio C sessionID rtp rtcp codecs direction = .ok body) :
    Sdp.parseAudio C body = .ok ⟨rtp, rtcp, direction, codecs⟩ := by
  have hbody := hmedia.reads leg rtp rtcp hlocal sessionID codecs direction body hcodecs h
  cases leg with
  | caller =>
    obtain ⟨rfl, rfl⟩ := Prod.mk.inj (Option.some.inj hlocal)
    exact Sdp.parseAudio_describe hcodecs hdirection rfl hmedia.specified hmedia.caller.1
      hmedia.caller.2 hmedia.text hbody
  | callee =>
    obtain ⟨rfl, rfl⟩ := Prod.mk.inj (Option.some.inj hlocal)
    exact Sdp.parseAudio_describe hcodecs hdirection rfl hmedia.specified hmedia.callee.1
      hmedia.callee.2 hmedia.text hbody

/-! ### Alice changes the call and refers Bob -/

def relayMedia : Media := ⟨.v4 0x0A000009, 20000, 20002⟩

def pcmu : List Sdp.Codec := [⟨"PCMU", 0, 8000⟩]

/-- What is described in the call: the phones, and the two legs of the media. -/
def relayDescriptions : List Sdp.SessionDescription :=
  [phoneDescription 1 4000, phoneDescription 2 5000,
    Sdp.describe (Sdp.encodingOf [] []) 0 ⟨relayMedia.advertisedIP, 20002⟩
      ⟨relayMedia.advertisedIP, 20003⟩
      pcmu .sendRecv,
    Sdp.describe (Sdp.encodingOf [] []) 0 ⟨relayMedia.advertisedIP, 20000⟩
      ⟨relayMedia.advertisedIP, 20001⟩
      pcmu .sendRecv]

/-- An encoding that writes only these. -/
def relayCodecs : Codecs where
  unmarshal body := relayDescriptions.find? fun d => Sdp.ascii (Sdp.lines d) = body
  marshal d := if d ∈ relayDescriptions then some (Sdp.ascii (Sdp.lines d)) else none
  parseAddr text :=
    ([0x0A000001, 0x0A000002, 0x0A000009].find? fun a => Sdp.dotted a = text).map Addr.v4
  addrString := (Sdp.encodingOf [] []).addrString

theorem relayCodecs_reads (d : Sdp.SessionDescription) (body : Body)
    (h : relayCodecs.marshal d = some body) : relayCodecs.unmarshal body = some d := by
  have hall : ∀ d ∈ relayDescriptions,
      relayCodecs.unmarshal (Sdp.ascii (Sdp.lines d)) = some d := by decide +kernel
  obtain ⟨hd, rfl⟩ : d ∈ relayDescriptions ∧ Sdp.ascii (Sdp.lines d) = body := by
    simpa [relayCodecs] using h
  exact hall d hd

theorem relayMedia_describable : relayMedia.Describable relayCodecs :=
  ⟨by decide, by decide +kernel, by decide, by decide,
    fun _ _ _ _ _ _ _ _ _ h => relayCodecs_reads _ _ (marshal_of_buildAudio h)⟩

def aliceRequest (method : String) (transaction : ℕ) : Request :=
  ⟨method, phoneBody 1 4000, [⟨"Refer-To", "sip:carol@pbx"⟩], 2, transaction⟩

/-- Alice sends a re-INVITE and a REFER, and Bob's phone says yes to everything. -/
def relaying (i : ℕ) : (e : EngineOp) → engineSig.Ans e
  | .request _ _ _ _ => some bobAnswers
  | e => succeeding (fun _ => .response bobAnswers) (fun i =>
      if i < 21 then .command (.reInvite (aliceRequest "INVITE" 7))
      else if i < 33 then .command (.refer (aliceRequest "REFER" 8)) else .parentDone) i e

def relayRun : List (Event engineSig) × Prog engineSig Unit :=
  Prog.play relaying 80 0 (handleInvite smallConfig relayCodecs 4 aliceInvite)

def broughtMedia : Event engineSig → Option Media
  | ⟨.newMedia, media⟩ => media
  | _ => none

theorem relayRun_media (media : Media) (h : ⟨.newMedia, some media⟩ ∈ relayRun.1) :
    media.Describable relayCodecs := by
  have hall : relayRun.1.all (fun ev => (broughtMedia ev).all (· = relayMedia)) = true := by
    decide +kernel
  have hmedia := List.all_eq_true.mp hall _ h
  obtain rfl : media = relayMedia := by simpa [broughtMedia] using hmedia
  exact relayMedia_describable

/-- The transaction and the status of an answer to a request. -/
def answerOf : EngineOp → Option (ℕ × ℕ)
  | .respondTo transaction response => some (transaction, response.status)
  | _ => none

theorem answerOf_eq_some {transaction status : ℕ} (h : answerOf e = some (transaction, status)) :
    ∃ response, e = .respondTo transaction response ∧ response.status = status := by
  cases e with
  | respondTo transaction' response =>
    obtain ⟨rfl, rfl⟩ := Prod.mk.inj (Option.some.inj h)
    exact ⟨response, rfl, rfl⟩
  | _ => cases h

theorem split_at {t : List (Event engineSig)} {k : ℕ} {ev : Event engineSig} (h : t[k]? = some ev) :
    t = t.take k ++ ev :: t.drop (k + 1) := by
  obtain ⟨hlt, rfl⟩ := List.getElem?_eq_some_iff.mp h
  rw [List.getElem_cons_drop, List.take_append_drop]

/-! ### Offers and answers -/

/-- The description an operation offers the callee, and the one of the caller it stands for. -/
def Scene.offer (invite : Invite) (v : Scene) : EngineOp → Option (Body × Body)
  | .createOutbound _ offer => some (invite.body, offer)
  | .request _ _ offer _ =>
    match v.command with
    | some (.reInvite request) => some (request.body, offer)
    | _ => none
  | _ => none

theorem Scene.offered (h : v.allows cfg C invite e) {caller offer : Body}
    (hoffer : v.offer invite e = some (caller, offer)) :
    ∃ media, v.media = some media ∧ Offered C media caller offer := by
  cases e with
  | createOutbound binding made =>
    obtain ⟨rfl, rfl⟩ := Prod.mk.inj (Option.some.inj hoffer)
    exact h.2.offered
  | request =>
    cases h with
    | reInvite hcommand hmedia hoffered =>
      simp only [Scene.offer, hcommand, Option.some.injEq, Prod.mk.injEq] at hoffer
      obtain ⟨rfl, rfl⟩ := hoffer
      exact ⟨_, hmedia, hoffered⟩
    | relayed hcommand =>
      obtain ⟨command, hcommand, hrelays⟩ := Option.bind_eq_some_iff.mp hcommand
      cases command with
      | hangup | refer | notify => simp [Scene.offer, hcommand] at hoffer
      | reInvite => cases hrelays
  | _ => cases hoffer

/-- Every offer to the callee, in the INVITE and in every re-INVITE, is read as the session's own
callee-facing addresses with the codecs and the direction the caller asked for, if these addresses can
be described. -/
theorem offers_read_back (n : ℕ) (t : List (Event engineSig)) (p : Prog engineSig Unit)
    (hpath : Path (handleInvite cfg C n invite) t p)
    (hmedia : ∀ media, ⟨.newMedia, some media⟩ ∈ t → media.Describable C)
    (pre post : List (Event engineSig)) (ev : Event engineSig) (ht : t = pre ++ ev :: post)
    (caller offer : Body) (hoffer : (pre.foldl Scene.next .start).offer invite ev.op = some (caller, offer)) :
    ∃ media endpoint rtp rtcp, ⟨.newMedia, some media⟩ ∈ pre ∧
      Sdp.parseAudio C caller = .ok endpoint ∧ media.localEndpoint .callee = some (rtp, rtcp) ∧
        Sdp.parseAudio C offer = .ok ⟨rtp, rtcp, endpoint.direction, endpoint.codecs⟩ := by
  subst ht
  have hallows := (handleInvite_scene cfg C invite n).of_path hpath
  obtain ⟨media, hscene, endpoint, sessionID, rtp, rtcp, hcaller, hlocal, hbuild⟩ :=
    Scene.offered hallows hoffer
  have hnew : ⟨.newMedia, some media⟩ ∈ pre := (sourced_past pre).media media hscene
  refine ⟨media, endpoint, rtp, rtcp, hnew, hcaller, hlocal, ?_⟩
  exact (hmedia media (List.mem_append_left _ hnew)).parseAudio hlocal
    (Sdp.relayable_of_parseAudio hcaller) (direction_ne_unset hcaller) hbuild

theorem offers_read_back_bob : ∃ (media : Media) (endpoint : Endpoint) (rtp rtcp : AddrPort) (offer : Body),
    ((relayRun.1[23]?).bind fun ev =>
      ((relayRun.1.take 23).foldl Scene.next .start).offer aliceInvite ev.op) =
      some (phoneBody 1 4000, offer) ∧ media.localEndpoint .callee = some (rtp, rtcp) ∧
        Sdp.parseAudio relayCodecs offer = .ok ⟨rtp, rtcp, endpoint.direction, endpoint.codecs⟩ := by
  have hoffer : ((relayRun.1[23]?).bind fun ev =>
      ((relayRun.1.take 23).foldl Scene.next .start).offer aliceInvite ev.op).map (·.1) =
        some (phoneBody 1 4000) := by decide +kernel
  obtain ⟨⟨caller, offer⟩, hmade, rfl⟩ := Option.map_eq_some_iff.mp hoffer
  obtain ⟨ev, hev, hop⟩ := Option.bind_eq_some_iff.mp hmade
  obtain ⟨media, endpoint, rtp, rtcp, -, -, hlocal, hread⟩ := offers_read_back 4 relayRun.1 _
    (Prog.play_path _ _ _ _) relayRun_media _ _ ev (split_at hev) _ offer hop
  exact ⟨media, endpoint, rtp, rtcp, offer, hmade, hlocal, hread⟩

/-- Every re-INVITE that is answered with 200 was answered with success by the callee, and what the
caller reads in the 200 is the session's caller-facing addresses with the direction of the callee and
with codecs of the caller's own offer. -/
theorem reInvite_answers_read_back (n : ℕ) (t : List (Event engineSig)) (p : Prog engineSig Unit)
    (hpath : Path (handleInvite cfg C n invite) t p)
    (hmedia : ∀ media, ⟨.newMedia, some media⟩ ∈ t → media.Describable C)
    (pre post : List (Event engineSig)) (transaction : ℕ) (response : Response) (sent : Bool)
    (ht : t = pre ++ ⟨.respondTo transaction response, sent⟩ :: post) (request : Request)
    (hcommand : (pre.foldl Scene.next .start).command = some (.reInvite request))
    (hok : response.status = 200) :
    transaction = request.transaction ∧ ∃ media reply offered answered rtp rtcp codecs,
      ⟨.newMedia, some media⟩ ∈ pre ∧ (pre.foldl Scene.next .start).reply = some reply ∧
        reply.isSuccess = true ∧ Sdp.parseAudio C request.body = .ok offered ∧
          Sdp.parseAudio C reply.body = .ok answered ∧ media.localEndpoint .caller = some (rtp, rtcp) ∧
            Sdp.parseAudio C response.body = .ok ⟨rtp, rtcp, answered.direction, codecs⟩ ∧
              codecs ⊆ offered.codecs := by
  subst ht
  have hreplies : Replies C (pre.foldl Scene.next .start) transaction response :=
    (handleInvite_scene cfg C invite n).of_path hpath
  cases hreplies with
  | refused => simp at hok; omega
  | rejected hcommand' hreply hrejects =>
    rw [Response.isSuccess, show _ = 200 from hok] at hrejects
    cases hrejects
  | relayed hcommand' =>
    rw [hcommand] at hcommand'
    cases hcommand'
  | answered hcommand' hscene hreply hsuccess hanswer =>
    obtain rfl := SessionCommand.reInvite.inj (Option.some.inj (hcommand.symm.trans hcommand'))
    obtain ⟨offered, answered, mapping, sessionID, rtp, rtcp, hoffered, hanswered, hmapping, hlocal,
      hbuild⟩ := hanswer
    have hnew : ⟨.newMedia, some _⟩ ∈ pre := (sourced_past pre).media _ hscene
    have hoffer := Sdp.relayable_of_parseAudio hoffered
    have hagreed := Sdp.agreed_of_negotiate hoffer (Sdp.relayable_of_parseAudio hanswered) hmapping
    refine ⟨rfl, _, _, offered, answered, rtp, rtcp, _, hnew, hreply, hsuccess, hoffered, hanswered,
      hlocal, ?_, hagreed.codecListForAnswer_subset⟩
    exact (hmedia _ (List.mem_append_left _ hnew)).parseAudio hlocal (hagreed.relayable hoffer)
      (direction_ne_unset hanswered) hbuild

theorem reInvite_answers_read_back_alice : ∃ response sent rtp rtcp direction codecs,
    relayRun.1[29]? = some ⟨.respondTo 7 response, sent⟩ ∧ response.status = 200 ∧
      Sdp.parseAudio relayCodecs response.body = .ok ⟨rtp, rtcp, direction, codecs⟩ := by
  have hcommand : ((relayRun.1.take 29).foldl Scene.next .start).command =
      some (.reInvite (aliceRequest "INVITE" 7)) := by decide +kernel
  have hanswer : (relayRun.1[29]?).map (answerOf ·.op) = some (some (7, 200)) := by decide +kernel
  obtain ⟨⟨op, sent⟩, hev, hop⟩ := Option.map_eq_some_iff.mp hanswer
  obtain ⟨response, rfl, hstatus⟩ := answerOf_eq_some hop
  obtain ⟨-, media, reply, offered, answered, rtp, rtcp, codecs, -, -, -, -, -, -, hread, -⟩ :=
    reInvite_answers_read_back 4 relayRun.1 _ (Prog.play_path _ _ _ _)
      relayRun_media _ _ 7 response sent (split_at hev) _ hcommand hstatus
  exact ⟨response, sent, rtp, rtcp, answered.direction, codecs, hev, hstatus, hread⟩

/-- A REFER goes to the callee and a NOTIFY to the caller, with the method, the body and the headers of
the request, and its sender gets what the other leg answered, or a timeout, on its own transaction. -/
theorem relays_faithful (n : ℕ) (t : List (Event engineSig)) (p : Prog engineSig Unit)
    (hpath : Path (handleInvite cfg C n invite) t p) (pre post : List (Event engineSig))
    (ev : Event engineSig) (ht : t = pre ++ ev :: post) (leg : Leg) (request : Request)
    (hcommand : (pre.foldl Scene.next .start).command.bind SessionCommand.relays = some (leg, request)) :
    (∀ leg' method body headers, ev.op = .request leg' method body headers →
      leg' = leg ∧ method = request.method ∧ body = request.body ∧ headers = relayedHeaders request) ∧
    (∀ transaction response, ev.op = .respondTo transaction response →
      transaction = request.transaction ∧
        response = relayedReply (pre.foldl Scene.next .start).reply) := by
  subst ht
  have hallows := (handleInvite_scene cfg C invite n).of_path hpath
  refine ⟨fun leg' method body headers hop => ?_, fun transaction response hop => ?_⟩
  · rw [hop] at hallows
    cases hallows with
    | reInvite h _ _ =>
      rw [h] at hcommand
      cases hcommand
    | relayed h =>
      cases hcommand.symm.trans h
      exact ⟨rfl, rfl, rfl, rfl⟩
  · rw [hop] at hallows
    cases hallows with
    | refused h _ | rejected h _ _ | answered h _ _ _ _ =>
      rw [h] at hcommand
      cases hcommand
    | relayed h =>
      cases hcommand.symm.trans h
      exact ⟨rfl, rfl⟩

theorem relays_faithful_refer : ∃ response sent,
    relayRun.1[33]? = some ⟨.respondTo 8 response, sent⟩ ∧
    response = relayedReply ((relayRun.1.take 33).foldl Scene.next .start).reply := by
  have hcommand : ((relayRun.1.take 33).foldl Scene.next .start).command.bind SessionCommand.relays =
      some (.callee, aliceRequest "REFER" 8) := by decide +kernel
  have hanswer : (relayRun.1[33]?).map (answerOf ·.op) = some (some (8, 200)) := by decide +kernel
  obtain ⟨⟨op, sent⟩, hev, hop⟩ := Option.map_eq_some_iff.mp hanswer
  obtain ⟨response, rfl, -⟩ := answerOf_eq_some hop
  have h := relays_faithful 4 relayRun.1 _ (Prog.play_path _ _ _ _) _ _ _ (split_at hev) _ _ hcommand
  exact ⟨response, sent, hev, (h.2 8 response rfl).2⟩

end AixvolinkPbx.B2bua
