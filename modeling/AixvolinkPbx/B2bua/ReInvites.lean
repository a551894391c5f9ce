import AixvolinkPbx.B2bua.Negotiated
import AixvolinkPbx.Call.History
import Mathlib.Data.List.Induction

/-!
# Rejected re-INVITEs

A re-INVITE of the caller is offered to the callee, the callee's answer is applied to the media session,
and the call moves to answered or held. When one of the steps fails the caller gets an error. Only the
saved offer is put back, and only when `applyMediaAnswer` fails.

1. `Environment` is what a re-INVITE meets with. `Configures` says when that lets it configure the media
   session, `InPlace` when all it then writes is there already.
2. `ReInviteRun` are the runs of `handleReInviteCommand`, by how far they get (`reInviteRun_of_returns`).
3. `rejected_reInvite_iff`: a rejected re-INVITE leaves everything as it was exactly if what it gets to
   write is in place. `rejected_hold_kept` is a hold whose transition is not published.
-/

namespace AixvolinkPbx.B2bua

open Calls (ActorError)
open AixvolinkPbx.Media (Endpoints remoteOf)
open Prog (Only Returns returns_bind returns_call only_bind only_call only_pure only_when)
open Sdp (Body Codecs Endpoint Mapping)

variable {C : Codecs} {s s' : Session} {request : Request} {t : List (Event engineSig)}

/-! ## What a re-INVITE meets with -/

/-- The callee's response, whether its ACK is sent, the last reading of the clock, and the error of the
transition. -/
structure Environment where
  response : Option Response
  acked : Bool
  clock : ℤ
  err : Option ActorError

def Environment.next (env : Environment) : Event engineSig → Environment
  | ⟨.request _ _ _ _, response⟩ => { env with response := response }
  | ⟨.ack, acked⟩ => { env with acked := acked }
  | ⟨.now, clock⟩ => { env with clock := clock }
  | ⟨.transition _ _, err⟩ => { env with err := err }
  | _ => env

def environment (t : List (Event engineSig)) : Environment :=
  t.foldl Environment.next ⟨none, false, 0, none⟩

/-- The operations that tell a re-INVITE nothing. -/
def unheard : EngineOp → Bool
  | .request _ _ _ _ | .ack | .now | .transition _ _ => false
  | _ => true

theorem environment_snoc (t : List (Event engineSig)) (ev : Event engineSig) :
    environment (t ++ [ev]) = (environment t).next ev := List.foldl_append

theorem Environment.next_of_unheard {ev : Event engineSig} (h : unheard ev.op = true)
    (env : Environment) : env.next ev = env := by
  obtain ⟨e, r⟩ := ev
  cases e <;> first | rfl | cases h

theorem environment_append_unheard {u : List (Event engineSig)} (h : ∀ ev ∈ u, unheard ev.op = true) :
    environment (t ++ u) = environment t := by
  induction u using List.reverseRecOn with
  | nil => rw [List.append_nil]
  | append_singleton u ev ih =>
    rw [← List.append_assoc, environment_snoc, Environment.next_of_unheard (h ev (by simp)),
      ih fun ev' hev' => h ev' (List.mem_append_left _ hev')]

/-! ## What it then writes -/

/-- The callee takes the offer, and its answer to it can be negotiated. -/
structure Configures (C : Codecs) (s : Session) (request : Request) (env : Environment)
    (offer callee : Endpoint) (mapping : Mapping) : Prop where
  offered : Sdp.parseAudio C request.body = .ok offer
  acked : env.acked = true
  answered : ∃ response, env.response = some response ∧ response.isSuccess = true ∧
    Accepts C { s with callerOffer := offer } response.body callee mapping

/-- The endpoints are already configured like this. -/
def InForce (m : Endpoints) (offer callee : Endpoint) (mapping : Mapping) : Prop :=
  m.remote .caller = some (remoteOf offer mapping .caller) ∧
    m.remote .callee = some (remoteOf callee mapping .callee)

def targetState (offer : Endpoint) : Calls.State :=
  if offer.direction ≠ .sendRecv then .held else .answered

/-- The mapping and the endpoints are those of the offer and the callee's answer. If the answer to the
caller can be built, then so are the session's offer and answer, and a transition whose result is lost
does not move the call. -/
structure InPlace (C : Codecs) (s : Session) (w : Parts) (lost : Bool) (env : Environment)
    (offer callee : Endpoint) (mapping : Mapping) : Prop where
  mapped : s.mediaMapping = mapping
  remote : InForce w.endpoints offer callee mapping
  answer : ∀ answer, Describes C s env.clock callee mapping answer →
    s.callerOffer = offer ∧ s.callerAnswer = answer ∧
      (lost = true → (∃ err ∈ env.err, isLost err = true) → w.state = targetState offer)

theorem Configures.unique {env env' : Environment} {offer offer' callee callee' : Endpoint}
    {mapping mapping' : Mapping} (h : Configures C s request env offer callee mapping)
    (h' : Configures C s request env' offer' callee' mapping') (henv : env.response = env'.response) :
    offer = offer' ∧ callee = callee' ∧ mapping = mapping' := by
  obtain ⟨response, hresponse, -, haccepts⟩ := h.answered
  obtain ⟨response', hresponse', -, haccepts'⟩ := h'.answered
  cases h.offered.symm.trans h'.offered
  cases hresponse.symm.trans (henv.trans hresponse')
  exact ⟨rfl, haccepts.unique haccepts'⟩

theorem Configures.of_environment {env env' : Environment} {offer callee : Endpoint}
    {mapping : Mapping} (h : Configures C s request env offer callee mapping)
    (hresponse : env'.response = env.response) (hacked : env'.acked = env.acked) :
    Configures C s request env' offer callee mapping :=
  ⟨h.offered, hacked.trans h.acked, by rw [hresponse]; exact h.answered⟩

/-! ## How far a re-INVITE gets -/

def moving (s : Session) (offer : Endpoint) (err : Option ActorError) : Event engineSig :=
  ⟨.transition .parent ⟨targetState offer, s.call.callerLeg, "", "re-INVITE"⟩, err⟩

def replying (request : Request) (response : Response) (ok : Bool) : Event engineSig :=
  ⟨.respondTo request.transaction response, ok⟩

/-- Operations on other things than the parts of the session and the caller's transaction. -/
def Preparing (e : EngineOp) : Prop :=
  Aside e = true ∧ ∀ transaction response, e ≠ .respondTo transaction response

/-- The session with a new offer, its mapping and the answer to the caller. -/
def Session.renegotiated (s : Session) (offer : Endpoint) (mapping : Mapping) (answer : Body) : Session :=
  { s with callerOffer := offer, mediaMapping := mapping, callerAnswer := answer }.started

theorem Session.renegotiated_fields (s : Session) (offer : Endpoint) (mapping : Mapping) (answer : Body) :
    (s.renegotiated offer mapping answer).call = s.call ∧
      (s.renegotiated offer mapping answer).callerOffer = offer ∧
      (s.renegotiated offer mapping answer).mediaMapping = mapping ∧
      (s.renegotiated offer mapping answer).callerAnswer = answer := by
  unfold Session.renegotiated Session.started
  split_ifs <;> exact ⟨rfl, rfl, rfl, rfl⟩

/-- The runs of `handleReInviteCommand`: nothing is configured; the media session is configured, but the
answer to the caller cannot be built; or it is built, and the actor is asked for the transition. -/
inductive ReInviteRun (C : Codecs) (s : Session) (request : Request) :
    List (Event engineSig) → Session → Prop
  | refused (before : List (Event engineSig)) (hbefore : ∀ ev ∈ before, Preparing ev.op)
      (hrefused : ∀ offer callee mapping,
        ¬ Configures C s request (environment before) offer callee mapping)
      (response : Response) (ok : Bool) :
      ReInviteRun C s request (before ++ [replying request response ok]) s
  | configured (before : List (Event engineSig)) (hbefore : ∀ ev ∈ before, Preparing ev.op)
      (offer callee : Endpoint) (mapping : Mapping)
      (h : Configures C s request (environment before) offer callee mapping)
      (reading : Option ℤ) (hunbuilt : ∀ clock answer, (∀ time ∈ reading, time = clock) →
        ¬ Describes C s clock callee mapping answer) (response : Response) (ok : Bool) :
      ReInviteRun C s request
        (before ++ configuring { s with callerOffer := offer } callee mapping :: readings reading ++
          [replying request response ok])
        { s with mediaMapping := mapping }
  | answered (before : List (Event engineSig)) (hbefore : ∀ ev ∈ before, Preparing ev.op)
      (offer callee : Endpoint) (mapping : Mapping)
      (h : Configures C s request (environment before) offer callee mapping)
      (sessionID : ℤ) (answer : Body) (hbuilt : Describes C s sessionID callee mapping answer)
      (err : Option ActorError) (after : List (Event engineSig))
      (hreplies : ∀ response ok, replying request response ok ∈ after → response.isSuccess = err.isNone)
      (hafter : ∀ ev ∈ after, Aside ev.op = true ∧ unheard ev.op = true) :
      ReInviteRun C s request
        (before ++ configuring { s with callerOffer := offer } callee mapping :: ⟨.now, sessionID⟩ ::
          starting s ++ moving s offer err :: after)
        (s.renegotiated offer mapping answer)

theorem preparing_hasPendingReInvite :
    Only (fun e => Preparing e ∧ unheard e = true) hasPendingReInvite := by
  have haside : ∀ e : EngineOp, Aside e = true → unheard e = true → (∀ n r, e ≠ .respondTo n r) →
      Only (fun e => Preparing e ∧ unheard e = true) (op e) :=
    fun e h hunheard h' => only_call.mpr ⟨⟨h, h'⟩, hunheard⟩
  refine only_bind (haside _ rfl rfl nofun) fun pending => ?_
  cases pending with
  | none => exact only_pure
  | some transaction =>
    refine only_bind (haside _ rfl rfl nofun) fun acked => ?_
    split_ifs
    · refine only_bind (only_bind (haside _ rfl rfl nofun) fun cleared => ?_) fun _ => only_pure
      exact only_when (haside _ rfl rfl nofun)
    · exact only_pure

theorem answerRequest_returns {status : ℕ} {reason : String} {body : Body} {headers : List Header}
    {u : Unit} (h : Returns (answerRequest request status reason body headers) t u) :
    ∃ ok, t = [replying request ⟨status, reason, body, headers⟩ ok] := by
  obtain ⟨ok, u, v, rfl, hu, hv⟩ := returns_bind h
  obtain rfl := returns_call hu
  cases hv
  exact ⟨ok, rfl⟩

variable {before : List (Event engineSig)}

theorem reInviteRun_reply (hbefore : ∀ ev ∈ before, Preparing ev.op)
    (hrefused : ∀ offer callee mapping,
      ¬ Configures C s request (environment before) offer callee mapping) {status : ℕ}
    {reason : String} {body : Body} {headers : List Header}
    (h : Returns (do answerRequest request status reason body headers; return s) t s') :
    ReInviteRun C s request (before ++ t) s' := by
  obtain ⟨_, u, v, rfl, hu, hv⟩ := returns_bind h
  obtain ⟨ok, rfl⟩ := answerRequest_returns hu
  cases hv
  rw [List.append_nil]
  exact .refused before hbefore hrefused _ ok

theorem preparing_snoc (hbefore : ∀ ev ∈ before, Preparing ev.op) (ev : Event engineSig)
    (hev : Preparing ev.op) : ∀ ev' ∈ before ++ [ev], Preparing ev'.op := by
  intro ev' hev'
  rcases List.mem_append.mp hev' with hev' | hev'
  · exact hbefore ev' hev'
  · rw [List.mem_singleton.mp hev']
    exact hev

theorem reInviteRun_answered {u v : List (Event engineSig)}
    (hbefore : ∀ ev ∈ before, Preparing ev.op) {offer : Endpoint} {response : Response}
    {result : Except MediaError Body} {s₁ : Session}
    (hoffer : Sdp.parseAudio C request.body = .ok offer) (hsuccess : response.isSuccess = true)
    (hresponse : (environment before).response = some response)
    (hacked : (environment before).acked = true)
    (hu : Returns (applyMediaAnswer C { s with callerOffer := offer } response.body) u (result, s₁))
    (hv : Returns (match (result, s₁) with
      | (.error _, s') => do
        answerRequest request 488 "Not Acceptable Here" [] []
        return { s' with callerOffer := s.callerOffer }
      | (.ok answer, s') => do
        let state := if offer.direction ≠ .sendRecv then .held else .answered
        if (← transition .parent state s'.call.callerLeg "re-INVITE" "").isSome then
          answerRequest request 500 "Server Internal Error" [] []
          return s'
        op (.setPending request.transaction request.cseq)
        answerRequest request 200 "OK" answer [sdpContentType]
        return s') v s') :
    ReInviteRun C s request (before ++ (u ++ v)) s' := by
  have hconfigures : ∀ {callee mapping}, Accepts C { s with callerOffer := offer } response.body callee
      mapping → Configures C s request (environment before) offer callee mapping :=
    fun haccepts => ⟨hoffer, hacked, response, hresponse, hsuccess, haccepts⟩
  cases answerRun_of_returns hu with
  | refused err hrefused =>
    rw [List.nil_append]
    refine reInviteRun_reply hbefore (fun offer' callee mapping h => ?_) hv
    obtain ⟨response', hresponse', -, haccepts⟩ := h.answered
    cases hoffer.symm.trans h.offered
    cases hresponse.symm.trans hresponse'
    exact hrefused callee mapping haccepts
  | unanswerable callee mapping haccepts reading hunbuilt err =>
    obtain ⟨_, v, w, rfl, hv, hw⟩ := returns_bind hv
    obtain ⟨ok, rfl⟩ := answerRequest_returns hv
    cases hw
    rw [List.append_nil, ← List.append_assoc]
    exact .configured before hbefore offer callee mapping (hconfigures haccepts) reading hunbuilt _ ok
  | answered callee mapping haccepts sessionID answer hbuilt =>
    obtain ⟨err, v, w, rfl, hv, hw⟩ := returns_bind hv
    obtain rfl := returns_call hv
    have hmoving : (⟨.transition .parent ⟨targetState offer,
        (s.renegotiated offer mapping answer).call.callerLeg, "", "re-INVITE"⟩, err⟩ :
        Event engineSig) = moving s offer err := by
      rw [(s.renegotiated_fields offer mapping answer).1]
      rfl
    have hrun := ReInviteRun.answered before hbefore offer callee mapping (hconfigures haccepts)
      sessionID answer hbuilt err
    simp only [← hmoving, List.append_assoc] at hrun
    cases err with
    | some err =>
      obtain ⟨_, v, x, rfl, hv, hx⟩ := returns_bind hw
      obtain ⟨ok, rfl⟩ := answerRequest_returns hv
      cases hx
      refine hrun [replying request ⟨500, "Server Internal Error", [], []⟩ ok] ?_ ?_
      · intro response ok' hmem
        cases List.mem_singleton.mp hmem
        rfl
      · intro ev hev
        rw [List.mem_singleton.mp hev]
        exact ⟨rfl, rfl⟩
    | none =>
      obtain ⟨_, v, x, rfl, hv, hx⟩ := returns_bind hw
      obtain rfl := returns_call hv
      obtain ⟨_, v, y, rfl, hv, hy⟩ := returns_bind hx
      obtain ⟨ok, rfl⟩ := answerRequest_returns hv
      cases hy
      refine hrun [⟨.setPending request.transaction request.cseq, ()⟩,
        replying request ⟨200, "OK", answer, [sdpContentType]⟩ ok] ?_ ?_
      · intro response ok' hmem
        rcases List.mem_cons.mp hmem with hmem | hmem
        · cases hmem
        · cases List.mem_singleton.mp hmem
          rfl
      · intro ev hev
        rcases List.mem_cons.mp hev with rfl | hev
        · exact ⟨rfl, rfl⟩
        · rw [List.mem_singleton.mp hev]
          exact ⟨rfl, rfl⟩

theorem reInviteRun_of_returns (h : Returns (handleReInviteCommand C s request) t s') :
    ReInviteRun C s request t s' := by
  unfold handleReInviteCommand at h
  obtain ⟨pending, before, v, rfl, hpending, hv⟩ := returns_bind h
  have hboth := preparing_hasPendingReInvite.of_path hpending
  have hbefore : ∀ ev ∈ before, Preparing ev.op := fun ev hev => (hboth ev hev).1
  -- as long as the callee has not answered nothing can be configured
  have hnone : (environment before).response = none := by
    rw [← List.nil_append before, environment_append_unheard fun ev hev => (hboth ev hev).2]
    rfl
  have hunanswered : ∀ {before : List (Event engineSig)}, (environment before).response = none →
      ∀ offer callee mapping, ¬ Configures C s request (environment before) offer callee mapping := by
    intro before hnone offer callee mapping h
    obtain ⟨response, hresponse, -⟩ := h.answered
    cases hnone.symm.trans hresponse
  cases pending with
  | true => exact reInviteRun_reply hbefore (hunanswered hnone) hv
  | false =>
    rw [if_neg Bool.false_ne_true] at hv
    split at hv
    · exact reInviteRun_reply hbefore (hunanswered hnone) hv
    next offer hoffer =>
    split at hv
    · exact reInviteRun_reply hbefore (hunanswered hnone) hv
    obtain ⟨sessionID, u, w, rfl, hu, hw⟩ := returns_bind hv
    obtain rfl := returns_call hu
    rw [← List.append_assoc]
    replace hbefore := preparing_snoc hbefore ⟨.now, sessionID⟩ ⟨rfl, nofun⟩
    replace hnone : (environment (before ++ [⟨.now, sessionID⟩])).response = none := by
      rw [environment_snoc]
      exact hnone
    split at hw
    · exact reInviteRun_reply hbefore (hunanswered hnone) hw
    next outboundOffer _ =>
    obtain ⟨response, u, x, rfl, hu, hx⟩ := returns_bind hw
    obtain rfl := returns_call hu
    rw [← List.append_assoc]
    replace hbefore := preparing_snoc hbefore
      ⟨.request .callee "INVITE" outboundOffer [sdpContentType], response⟩ ⟨rfl, nofun⟩
    have hresponse := congrArg Environment.response (environment_snoc (before ++ [⟨.now, sessionID⟩])
      ⟨.request .callee "INVITE" outboundOffer [sdpContentType], response⟩)
    cases response with
    | none => exact reInviteRun_reply hbefore (hunanswered hresponse) hx
    | some response =>
      dsimp only at hx
      by_cases hsuccess : (!response.isSuccess) = true
      · rw [if_pos hsuccess] at hx
        refine reInviteRun_reply hbefore (fun offer' callee mapping h => ?_) hx
        obtain ⟨response', hresponse', hsuccess', -⟩ := h.answered
        cases hresponse.symm.trans hresponse'
        simp [hsuccess'] at hsuccess
      rw [if_neg hsuccess] at hx
      obtain ⟨acked, u, y, rfl, hu, hy⟩ := returns_bind hx
      obtain rfl := returns_call hu
      rw [← List.append_assoc]
      replace hbefore := preparing_snoc hbefore ⟨.ack, acked⟩ ⟨rfl, nofun⟩
      have hacked := congrArg Environment.acked (environment_snoc (before ++ [⟨.now, sessionID⟩] ++
        [⟨.request .callee "INVITE" outboundOffer [sdpContentType], some response⟩]) ⟨.ack, acked⟩)
      cases acked with
      | false =>
        refine reInviteRun_reply hbefore (fun offer' callee mapping h => ?_) hy
        cases hacked.symm.trans h.acked
      | true =>
        obtain ⟨⟨result, s₁⟩, u, z, rfl, hu, hz⟩ := returns_bind hy
        refine reInviteRun_answered hbefore hoffer (by simpa using hsuccess) ?_ hacked hu hz
        rw [environment_snoc]
        exact hresponse

/-! ## What a rejected re-INVITE leaves -/

/-- The caller's offer, the mapping, the answer, the configuration of both endpoints and the state of the
call are the same. -/
structure Unchanged (s : Session) (w : Parts) (s' : Session) (w' : Parts) : Prop where
  offer : s'.callerOffer = s.callerOffer
  mapping : s'.mediaMapping = s.mediaMapping
  answer : s'.callerAnswer = s.callerAnswer
  remote : w'.endpoints.remote = w.endpoints.remote
  state : w'.state = w.state

theorem configured_eq_iff (m : Endpoints) (offer callee : Endpoint) (mapping : Mapping) :
    (m.configured offer callee mapping).remote = m.remote ↔ InForce m offer callee mapping := by
  obtain ⟨hcaller, hcallee⟩ := Media.configured_remote m offer callee mapping
  constructor
  · intro h
    rw [h] at hcaller hcallee
    exact ⟨hcaller, hcallee⟩
  · rintro ⟨hcaller', hcallee'⟩
    funext leg
    cases leg with
    | caller => rw [hcaller, hcaller']
    | callee => rw [hcallee, hcallee']

variable {w : Parts} {lost : Bool}

theorem after_before (hbefore : ∀ ev ∈ before, Preparing ev.op) :
    w.after lost before = w :=
  Parts.after_of_aside fun ev hev => (hbefore ev hev).1

theorem after_starting (lost : Bool) (w : Parts) (s : Session) :
    ∃ starts, w.after lost (starting s) = { w with starts := starts } := by
  unfold starting
  split_ifs
  · exact ⟨_, rfl⟩
  · exact ⟨_, rfl⟩

theorem unheard_starting (s : Session) : ∀ ev ∈ starting s, unheard ev.op = true := by
  unfold starting
  split_ifs
  · simp
  · intro ev hev
    rw [List.mem_singleton.mp hev]
    rfl

section Runs

variable {after : List (Event engineSig)} {offer callee : Endpoint} {mapping : Mapping}
  {answer : Body} {err : ActorError} {sessionID : ℤ}

/-- A run that configures the media session without an answer for the caller changes nothing exactly if
the mapping and the endpoints were like that. -/
theorem unchanged_configured_iff (hbefore : ∀ ev ∈ before, Preparing ev.op)
    (h : Configures C s request (environment before) offer callee mapping) (reading : Option ℤ)
    (response : Response) (ok : Bool) :
    Unchanged s w { s with mediaMapping := mapping } (w.after lost
        (before ++ configuring { s with callerOffer := offer } callee mapping :: readings reading ++
          [replying request response ok])) ↔
      s.mediaMapping = mapping ∧ InForce w.endpoints offer callee mapping := by
  obtain ⟨answer, -, -, haccepts⟩ := h.answered
  simp only [Parts.after_append, Parts.after_cons, Parts.after_nil, after_before hbefore,
    Parts.next_configuring haccepts, Parts.after_readings,
    Parts.next_of_aside (show Aside (replying request response ok).op = true from rfl)]
  constructor
  · exact fun hsame => ⟨hsame.mapping.symm, (configured_eq_iff ..).mp hsame.remote⟩
  · exact fun hplace => ⟨rfl, hplace.1.symm, rfl, (configured_eq_iff ..).mpr hplace.2, rfl⟩

/-- A run with an answer for the caller, whose transition fails, changes nothing exactly if all it
writes was there. -/
theorem unchanged_answered_iff (hbefore : ∀ ev ∈ before, Preparing ev.op)
    (h : Configures C s request (environment before) offer callee mapping)
    (hafter : ∀ ev ∈ after, Aside ev.op = true) :
    Unchanged s w (s.renegotiated offer mapping answer) (w.after lost
        (before ++ configuring { s with callerOffer := offer } callee mapping :: ⟨.now, sessionID⟩ ::
          starting s ++ moving s offer (some err) :: after)) ↔
      s.mediaMapping = mapping ∧ InForce w.endpoints offer callee mapping ∧ s.callerOffer = offer ∧
        s.callerAnswer = answer ∧ (lost = true → isLost err = true → w.state = targetState offer) := by
  obtain ⟨response, -, -, haccepts⟩ := h.answered
  obtain ⟨starts, hstarts⟩ := after_starting lost
    { w with endpoints := w.endpoints.configured offer callee mapping } s
  have hmoving : ∀ w : Parts, w.next lost (moving s offer (some err)) =
      if lost && isLost err then { w with state := targetState offer } else w := fun _ => rfl
  obtain ⟨-, hoffer, hmapping, hanswer⟩ := s.renegotiated_fields offer mapping answer
  simp only [Parts.after_append, Parts.after_cons, after_before hbefore,
    Parts.next_configuring haccepts, hstarts, hmoving, Parts.after_of_aside hafter,
    Parts.next_of_aside (show Aside (Event.mk (S := engineSig) .now sessionID).op = true from rfl)]
  constructor
  · intro hsame
    refine ⟨hsame.mapping.symm.trans hmapping, ?_, hsame.offer.symm.trans hoffer,
      hsame.answer.symm.trans hanswer, fun hlost herr => ?_⟩
    · have hremote := hsame.remote
      split_ifs at hremote <;> exact (configured_eq_iff ..).mp hremote
    · have hstate := hsame.state
      rw [if_pos (by rw [hlost, herr]; rfl)] at hstate
      exact hstate.symm
  · rintro ⟨hmapping', hremote, hoffer', hanswer', hstate⟩
    have hkept := (configured_eq_iff ..).mpr hremote
    refine ⟨hoffer.trans hoffer'.symm, hmapping.trans hmapping'.symm, hanswer.trans hanswer'.symm,
      ?_, ?_⟩
    · split_ifs <;> exact hkept
    · split_ifs with hmoved
      · obtain ⟨hlost, herr⟩ := Bool.and_eq_true_iff.mp hmoved
        exact (hstate hlost herr).symm
      · rfl

theorem environment_configured (reading : Option ℤ) (response : Response) (ok : Bool) (e : Event engineSig)
    (he : unheard e.op = true) :
    environment (before ++ e :: readings reading ++ [replying request response ok]) =
      { environment before with clock := reading.getD (environment before).clock } := by
  rw [environment_append_unheard (by simp [replying, unheard]), List.append_cons]
  cases reading with
  | none =>
    show environment (before ++ [e] ++ []) = _
    rw [List.append_nil, environment_append_unheard (by simpa using he)]
    rfl
  | some time =>
    show environment (before ++ [e] ++ [⟨.now, time⟩]) = _
    rw [environment_snoc, environment_append_unheard (by simpa using he)]
    rfl

theorem environment_answered (e : Event engineSig) (he : unheard e.op = true) (err : Option ActorError)
    (hafter : ∀ ev ∈ after, unheard ev.op = true) :
    environment (before ++ e :: ⟨.now, sessionID⟩ :: starting s ++ moving s offer err :: after) =
      ⟨(environment before).response, (environment before).acked, sessionID, err⟩ := by
  have hsplit : before ++ e :: ⟨.now, sessionID⟩ :: starting s ++ moving s offer err :: after =
      before ++ [e] ++ [⟨.now, sessionID⟩] ++ starting s ++ [moving s offer err] ++ after := by simp
  rw [hsplit, environment_append_unheard hafter, environment_snoc,
    environment_append_unheard (unheard_starting s), environment_snoc,
    environment_append_unheard (by simpa using he)]
  rfl

end Runs

/-- **Rejected re-INVITEs.** A re-INVITE that the caller gets an error for has left everything as it was
exactly if what it wants is in place whenever the callee's answer lets it configure the media session. -/
theorem rejected_reInvite_iff (C : Codecs) (s s' : Session) (request : Request)
    (t : List (Event engineSig)) (w : Parts) (lost : Bool)
    (h : Returns (handleReInviteCommand C s request) t s') (response : Response) (ok : Bool)
    (hreply : replying request response ok ∈ t) (hrejected : response.isSuccess = false) :
    Unchanged s w s' (w.after lost t) ↔
      ∀ offer callee mapping, Configures C s request (environment t) offer callee mapping →
        InPlace C s w lost (environment t) offer callee mapping := by
  cases reInviteRun_of_returns h with
  | refused before hbefore hrefused response' ok' =>
    have henv : environment (before ++ [replying request response' ok']) = environment before :=
      environment_append_unheard (by simp [replying, unheard])
    rw [henv, Parts.after_append, after_before hbefore]
    exact iff_of_true ⟨rfl, rfl, rfl, rfl, rfl⟩ fun offer callee mapping hc =>
      absurd hc (hrefused offer callee mapping)
  | configured before hbefore offer callee mapping hc reading hunbuilt response' ok' =>
    rw [environment_configured reading response' ok' _ rfl,
      unchanged_configured_iff hbefore hc reading response' ok']
    constructor
    · rintro ⟨hmapping, hremote⟩ offer' callee' mapping' hc'
      obtain ⟨rfl, rfl, rfl⟩ := hc.unique hc' rfl
      refine ⟨hmapping, hremote, fun answer hdescribes => absurd hdescribes (hunbuilt _ answer ?_)⟩
      rintro time ⟨⟩
      rfl
    · intro hplace
      obtain ⟨hmapping, hremote, -⟩ := hplace offer callee mapping (hc.of_environment rfl rfl)
      exact ⟨hmapping, hremote⟩
  | answered before hbefore offer callee mapping hc sessionID answer hbuilt err after hreplies hafter =>
    -- the transition has failed, since the caller is given an error
    obtain ⟨err, rfl⟩ : ∃ e, err = some e := by
      cases err with
      | some err => exact ⟨err, rfl⟩
      | none =>
        simp only [List.mem_append, List.mem_cons] at hreply
        rcases hreply with (hreply | hreply | hreply | hreply) | hreply | hreply
        · exact absurd rfl ((hbefore _ hreply).2 _ _)
        · cases hreply
        · cases hreply
        · unfold starting at hreply
          split_ifs at hreply
          · cases hreply
          · cases List.mem_singleton.mp hreply
        · cases hreply
        · rw [hreplies response ok hreply] at hrejected
          cases hrejected
    rw [environment_answered _ rfl _ fun ev hev => (hafter ev hev).2,
      unchanged_answered_iff hbefore hc fun ev hev => (hafter ev hev).1]
    constructor
    · rintro ⟨hmapping, hremote, hoffer, hanswer, hstate⟩ offer' callee' mapping' hc'
      obtain ⟨rfl, rfl, rfl⟩ := hc.unique hc' rfl
      refine ⟨hmapping, hremote, fun answer' hbuilt' => ⟨hoffer, ?_, ?_⟩⟩
      · rw [hanswer, hbuilt.unique hbuilt']
      · rintro hlost ⟨_, ⟨⟩, herr⟩
        exact hstate hlost herr
    · intro hplace
      obtain ⟨hmapping, hremote, hrest⟩ := hplace offer callee mapping (hc.of_environment rfl rfl)
      obtain ⟨hoffer, hanswer, hstate⟩ := hrest answer hbuilt
      exact ⟨hmapping, hremote, hoffer, hanswer, fun hlost herr => hstate hlost ⟨err, rfl, herr⟩⟩

/-! ## A hold and a refresh -/

def directedHandset (direction : String) : Sdp.SessionDescription :=
  { Sdp.handset with attributes := [⟨direction, ""⟩] }

def holdEncoding : Codecs :=
  Sdp.encodingOf [Sdp.handset, directedHandset "sendonly", directedHandset "recvonly"]
    [0x0A000009, 0x0A000001]

def handsetMapping : Mapping := ⟨"PCMA", 8000, 8, 8, 101, 101, true⟩

def handsetAnswer : Body :=
  (Sdp.buildAudio holdEncoding 0 Sdp.pbxRTP Sdp.pbxRTCP (Sdp.codecListForAnswer handsetMapping)
    .sendRecv).toOption.getD []

def answeredSession : Session :=
  { handsetSession with
    mediaMapping := handsetMapping
    callerAnswer := handsetAnswer
    mediaStarted := true
    mediaRunning := true }

def answeredParts : Parts where
  endpoints := Endpoints.initial.configured Sdp.handsetEndpoint Sdp.handsetEndpoint handsetMapping
  state := .answered
  starts := 1

def reInviteWith (offer : Sdp.SessionDescription) : Request :=
  ⟨"INVITE", Sdp.ascii (Sdp.lines offer), [], 2, 1⟩

/-- The callee answers with a description, and the transition ends with `err`. -/
def reInviteAnswers (answer : Sdp.SessionDescription) (err : ActorError) :
    (e : EngineOp) → engineSig.Ans e
  | .request _ _ _ _ => some ⟨200, "OK", Sdp.ascii (Sdp.lines answer), []⟩
  | .transition _ _ => some err
  | e => succeeding (fun _ => .failed .timeout) (fun _ => .parentDone) 0 e

def rejectedRun (offer answer : Sdp.SessionDescription) (err : ActorError) :
    List (Event engineSig) × Option Session × Unit :=
  Prog.trace (fun _ e => (reInviteAnswers answer err e, ()))
    (handleReInviteCommand holdEncoding answeredSession (reInviteWith offer)) ()

def heldRun : List (Event engineSig) × Option Session × Unit :=
  rejectedRun (directedHandset "sendonly") (directedHandset "recvonly") (.publish "refused")

set_option maxRecDepth 4000 in
theorem heldRun_events :
    heldRun.1[6]? = some (moving answeredSession { Sdp.handsetEndpoint with direction := .sendOnly }
      (some (.publish "refused"))) ∧
    heldRun.1[7]? = some (replying (reInviteWith (directedHandset "sendonly"))
      ⟨500, "Server Internal Error", [], []⟩ true) := ⟨rfl, rfl⟩

/-- The actor of a call that is to be held, with a publisher that refuses the event. -/
def refusedHold : List (Event Calls.actorSig) × Option (Option ActorError × Calls.Actor) × Unit :=
  Prog.trace (fun _ e => (Calls.answering .held (.error "refused") e, ()))
    (Calls.apply ⟨Calls.callIn .answered, 4⟩ ⟨.held, "caller", "", "re-INVITE"⟩) ()

/-- The caller puts the call on hold and the callee agrees, but the event is not published. The actor
leaves the call answered and the caller gets a 500, with the media on hold. -/
theorem rejected_hold_kept :
    (∃ u a, Returns (Calls.apply ⟨Calls.callIn .answered, 4⟩ ⟨.held, "caller", "", "re-INVITE"⟩) u
      (some (.publish "refused"), a) ∧ a.call.state = .answered) ∧
    ∃ t s', Returns (handleReInviteCommand holdEncoding answeredSession
        (reInviteWith (directedHandset "sendonly"))) t s' ∧
      replying (reInviteWith (directedHandset "sendonly")) ⟨500, "Server Internal Error", [], []⟩
        true ∈ t ∧
      moving answeredSession { Sdp.handsetEndpoint with direction := .sendOnly }
        (some (.publish "refused")) ∈ t ∧
      answeredSession.callerOffer.direction = .sendRecv ∧ s'.callerOffer.direction = .sendOnly ∧
      (answeredParts.after false t).state = .answered ∧
      (answeredParts.endpoints.remote .caller).map (·.direction) = some .sendRecv ∧
      ((answeredParts.after false t).endpoints.remote .caller).map (·.direction) = some .sendOnly := by
  have hactor : refusedHold.2.1.map (fun r => (r.1, r.2.call.state)) =
      some (some (.publish "refused"), .answered) := by decide +kernel
  obtain ⟨⟨err, a⟩, hrefused, hboth⟩ := Option.map_eq_some_iff.mp hactor
  obtain ⟨rfl, hstate⟩ := Prod.mk.inj hboth
  have hresult : heldRun.2.1.map (·.callerOffer.direction) = some .sendOnly := by decide +kernel
  obtain ⟨s', hrun, hoffer⟩ := Option.map_eq_some_iff.mp hresult
  refine ⟨⟨_, a, Prog.returns_trace hrefused, hstate⟩, heldRun.1, s', Prog.returns_trace hrun,
    List.mem_of_getElem? heldRun_events.2, List.mem_of_getElem? heldRun_events.1, rfl, hoffer, ?_, rfl,
    ?_⟩
  · decide +kernel
  · decide +kernel

/-- A re-INVITE with the media in force, in a context that ends before the actor has answered: the caller
gets an error, whether the transition is made or not, and nothing has changed. -/
theorem rejected_reInvite_iff_refresh : ∃ t s',
    Returns (handleReInviteCommand holdEncoding answeredSession (reInviteWith Sdp.handset)) t s' ∧
      replying (reInviteWith Sdp.handset) ⟨500, "Server Internal Error", [], []⟩ true ∈ t ∧
      configuring answeredSession Sdp.handsetEndpoint handsetMapping ∈ t ∧
      Unchanged answeredSession answeredParts s' (answeredParts.after true t) := by
  have hsome : (rejectedRun Sdp.handset Sdp.handset .context).2.1.isSome = true := by decide +kernel
  obtain ⟨s', hrun⟩ := Option.isSome_iff_exists.mp hsome
  have hreturns : Returns (handleReInviteCommand holdEncoding answeredSession
      (reInviteWith Sdp.handset)) (rejectedRun Sdp.handset Sdp.handset .context).1 s' :=
    Prog.returns_trace hrun
  have hreply : replying (reInviteWith Sdp.handset) ⟨500, "Server Internal Error", [], []⟩ true ∈
      (rejectedRun Sdp.handset Sdp.handset .context).1 := List.mem_of_getElem? (i := 7) rfl
  have hiff := rejected_reInvite_iff holdEncoding answeredSession s' (reInviteWith Sdp.handset) _
    answeredParts true hreturns _ true hreply rfl
  refine ⟨_, s', hreturns, hreply, List.mem_of_getElem? (i := 4) rfl, hiff.mpr ?_⟩
  have hc : Configures holdEncoding answeredSession (reInviteWith Sdp.handset)
      (environment (rejectedRun Sdp.handset Sdp.handset .context).1) Sdp.handsetEndpoint
      Sdp.handsetEndpoint handsetMapping := by
    refine ⟨by decide +kernel, by decide +kernel, _, rfl, by decide +kernel, ?_, ?_, .inr rfl⟩
    · decide +kernel
    · decide +kernel
  intro offer callee mapping hc'
  obtain ⟨rfl, rfl, rfl⟩ := hc.unique hc' rfl
  refine ⟨rfl, ⟨rfl, rfl⟩, fun answer hanswer => ⟨rfl, ?_, fun _ _ => rfl⟩⟩
  exact Describes.unique ⟨Sdp.pbxRTP, Sdp.pbxRTCP, rfl, by decide +kernel⟩ hanswer

end AixvolinkPbx.B2bua
