import AixvolinkPbx.B2bua.Answering
import AixvolinkPbx.Lib.History
import AixvolinkPbx.Media.Configured

/-!
# The negotiated mapping of a call

`applyMediaAnswer` is called for every description of the callee: in early media, in the answer and in
the answer to a re-INVITE. It writes the endpoints of the media session, the mapping, the cached answer
and starts the workers, in this order, with failures in between.

1. `AnswerRun` are the three ways a call ends (`answerRun_of_returns`): nothing is written, the
   description for the caller cannot be built after the endpoints are configured, or all is written.
2. `Parts` are what the session acts on: the endpoints, the state of the call, the started workers.
3. `mapping_fixed`: over any sequence of calls the mapping is set once and all copies of it agree.
-/

namespace AixvolinkPbx.B2bua

open Calls (ActorError)
open AixvolinkPbx.Media (Endpoints remoteOf)
open Prog (Returns returns_bind returns_call)
open Sdp (Body Codecs Endpoint Mapping)

variable {C : Codecs} {s s' : Session} {body : Body} {t : List (Event engineSig)}
  {result : Except MediaError Body}

/-! ## One call of `applyMediaAnswer` -/

/-- The callee's answer is accepted for the session. -/
structure Accepts (C : Codecs) (s : Session) (body : Body) (callee : Endpoint) (mapping : Mapping) :
    Prop where
  parsed : Sdp.parseAudio C body = .ok callee
  negotiated : Sdp.negotiate s.callerOffer callee = .ok mapping
  same : s.mediaMapping.name = "" ∨ s.mediaMapping = mapping

variable {mapping : Mapping} {callee : Endpoint}

theorem Accepts.valid (h : Accepts C s body callee mapping) :
    mapping.name ≠ "" ∧ mapping.clockRate ≠ 0 := by
  obtain ⟨hname, hrate⟩ := Sdp.negotiate_valid h.parsed h.negotiated
  refine ⟨hname, ?_⟩
  rw [hrate]
  decide

/-- The description for the caller is one of the mapping. -/
def BuiltFrom (C : Codecs) (mapping : Mapping) (body : Body) : Prop :=
  ∃ sessionID rtp rtcp direction,
    Sdp.buildAudio C sessionID rtp rtcp (Sdp.codecListForAnswer mapping) direction = .ok body

/-- The description for the caller that is built at a time: the caller-facing addresses, the codecs of
the mapping and the direction of the callee. -/
def Describes (C : Codecs) (s : Session) (clock : ℤ) (callee : Endpoint) (mapping : Mapping)
    (answer : Body) : Prop :=
  ∃ rtp rtcp, localEndpoint s .caller = some (rtp, rtcp) ∧
    Sdp.buildAudio C clock rtp rtcp (Sdp.codecListForAnswer mapping) callee.direction = .ok answer

theorem Describes.builtFrom {clock : ℤ} {answer : Body}
    (h : Describes C s clock callee mapping answer) : BuiltFrom C mapping answer := by
  obtain ⟨rtp, rtcp, -, hbuild⟩ := h
  exact ⟨clock, rtp, rtcp, callee.direction, hbuild⟩

theorem Describes.unique {clock : ℤ} {answer answer' : Body}
    (h : Describes C s clock callee mapping answer)
    (h' : Describes C s clock callee mapping answer') :
    answer = answer' := by
  obtain ⟨rtp, rtcp, hlocal, hbuild⟩ := h
  obtain ⟨rtp', rtcp', hlocal', hbuild'⟩ := h'
  obtain ⟨rfl, rfl⟩ := Prod.mk.inj (Option.some.inj (hlocal.symm.trans hlocal'))
  exact Except.ok.inj (hbuild.symm.trans hbuild')

def configuring (s : Session) (callee : Endpoint) (mapping : Mapping) : Event engineSig :=
  ⟨.configure s.callerOffer callee mapping, ()⟩

def readings (reading : Option ℤ) : List (Event engineSig) :=
  reading.toList.map fun time => ⟨.now, time⟩

def starting (s : Session) : List (Event engineSig) :=
  if s.mediaRunning then [] else [⟨.startMedia, ()⟩]

def Session.started (s : Session) : Session :=
  if s.mediaRunning then s else { s with mediaStarted := true, mediaRunning := true }

/-- The ways a call of `applyMediaAnswer` ends. -/
inductive AnswerRun (C : Codecs) (s : Session) (body : Body) :
    List (Event engineSig) → Except MediaError Body → Session → Prop
  | refused (err : MediaError) (h : ∀ callee mapping, ¬ Accepts C s body callee mapping) :
      AnswerRun C s body [] (.error err) s
  | unanswerable (callee : Endpoint) (mapping : Mapping) (h : Accepts C s body callee mapping)
      (reading : Option ℤ) (hunbuilt : ∀ clock answer, (∀ time ∈ reading, time = clock) →
        ¬ Describes C s clock callee mapping answer) (err : MediaError) :
      AnswerRun C s body (configuring s callee mapping :: readings reading) (.error err)
        { s with mediaMapping := mapping }
  | answered (callee : Endpoint) (mapping : Mapping) (h : Accepts C s body callee mapping)
      (sessionID : ℤ) (answer : Body) (hbuilt : Describes C s sessionID callee mapping answer) :
      AnswerRun C s body (configuring s callee mapping :: ⟨.now, sessionID⟩ :: starting s) (.ok answer)
        { s with mediaMapping := mapping, callerAnswer := answer }.started

theorem startMedia_returns (h : Returns (startMedia s) t s') : t = starting s ∧ s' = s.started := by
  unfold startMedia at h
  unfold starting Session.started
  split_ifs at h ⊢
  · cases h
    exact ⟨rfl, rfl⟩
  · obtain ⟨_, u, v, rfl, hu, hv⟩ := returns_bind h
    obtain rfl := returns_call hu
    cases hv
    exact ⟨rfl, rfl⟩

theorem Accepts.unique {callee' : Endpoint} {mapping' : Mapping}
    (h : Accepts C s body callee mapping) (h' : Accepts C s body callee' mapping') :
    callee = callee' ∧ mapping = mapping' := by
  cases h.parsed.symm.trans h'.parsed
  exact ⟨rfl, Except.ok.inj (h.negotiated.symm.trans h'.negotiated)⟩

theorem answerRun_of_returns (h : Returns (applyMediaAnswer C s body) t (result, s')) :
    AnswerRun C s body t result s' := by
  unfold applyMediaAnswer at h
  split at h
  · next err hparsed =>
    cases h
    refine .refused _ fun callee mapping haccepts => ?_
    cases hparsed.symm.trans haccepts.parsed
  next callee hparsed =>
  split at h
  · next err hnegotiated =>
    cases h
    refine .refused _ fun callee' mapping haccepts => ?_
    cases hparsed.symm.trans haccepts.parsed
    cases hnegotiated.symm.trans haccepts.negotiated
  next mapping hnegotiated =>
  split_ifs at h with hchanged
  · cases h
    refine .refused _ fun callee' mapping' haccepts => ?_
    cases hparsed.symm.trans haccepts.parsed
    cases hnegotiated.symm.trans haccepts.negotiated
    exact haccepts.same.elim hchanged.1 hchanged.2
  have haccepts : Accepts C s body callee mapping := by
    refine ⟨hparsed, hnegotiated, ?_⟩
    rw [not_and_or, not_not, not_not] at hchanged
    exact hchanged
  obtain ⟨refusal, u, v, rfl, hu, hv⟩ := returns_bind h
  unfold configure at hu
  rw [if_neg (by have := haccepts.valid; tauto)] at hu
  obtain ⟨_, u, w, rfl, hu, hw⟩ := returns_bind hu
  obtain rfl := returns_call hu
  cases hw
  dsimp only at hv
  split at hv
  · next hlocal =>
    cases hv
    refine .unanswerable callee mapping haccepts none ?_ _
    rintro clock answer - ⟨rtp, rtcp, hlocal', -⟩
    cases hlocal.symm.trans hlocal'
  next rtp rtcp hlocal =>
  obtain ⟨sessionID, u, w, rfl, hu, hw⟩ := returns_bind hv
  obtain rfl := returns_call hu
  split at hw
  · next err hbuild =>
    cases hw
    refine .unanswerable callee mapping haccepts (some sessionID) ?_ _
    rintro clock answer hclock ⟨rtp', rtcp', hlocal', hbuild'⟩
    obtain rfl := hclock sessionID rfl
    obtain ⟨rfl, rfl⟩ := Prod.mk.inj (Option.some.inj (hlocal.symm.trans hlocal'))
    cases hbuild.symm.trans hbuild'
  next answer hbuilt =>
  obtain ⟨started, u, x, rfl, hu, hx⟩ := returns_bind hw
  obtain ⟨rfl, rfl⟩ := startMedia_returns hu
  cases hx
  simp only [List.append_nil]
  exact .answered callee mapping haccepts sessionID answer ⟨rtp, rtcp, hlocal, hbuilt⟩

/-! ## What the session acts on -/

/-- The endpoints of the media session, the state of the call, and how often the workers were
started. -/
structure Parts where
  endpoints : Endpoints
  state : Calls.State
  starts : ℕ

/-- The transition has no answer of the actor: it may have been made. -/
def isLost (err : ActorError) : Bool := err = .closed || err = .context

/-- The effect of an event. A transition the actor refuses leaves the state as it is; `lost` says what
becomes of one whose answer is lost. -/
def Parts.next (lost : Bool) (w : Parts) : Event engineSig → Parts
  | ⟨.configure caller callee mapping, _⟩ =>
    match Prog.eval Endpoints.handle (Media.configure caller callee mapping) w.endpoints with
    | some (_, endpoints) => { w with endpoints := endpoints }
    | none => w
  | ⟨.startMedia, _⟩ => { w with starts := w.starts + 1 }
  | ⟨.transition _ t, none⟩ => { w with state := t.state }
  | ⟨.transition _ t, some err⟩ => if lost && isLost err then { w with state := t.state } else w
  | _ => w

def Parts.after (lost : Bool) (w : Parts) (t : List (Event engineSig)) : Parts := t.foldl (next lost) w

variable {lost : Bool} {w : Parts}

@[simp] theorem Parts.after_nil : w.after lost [] = w := rfl

@[simp] theorem Parts.after_cons (ev : Event engineSig) (t : List (Event engineSig)) :
    w.after lost (ev :: t) = (w.next lost ev).after lost t := rfl

@[simp] theorem Parts.after_append (t u : List (Event engineSig)) :
    w.after lost (t ++ u) = (w.after lost t).after lost u := List.foldl_append

def Aside : EngineOp → Bool
  | .configure _ _ _ => false
  | .startMedia => false
  | .transition _ _ => false
  | _ => true

theorem Parts.next_of_aside {ev : Event engineSig} (h : Aside ev.op = true) : w.next lost ev = w := by
  unfold next
  split
  · cases h
  · cases h
  · cases h
  · cases h
  · rfl

theorem Parts.after_of_aside (h : ∀ ev ∈ t, Aside ev.op = true) : w.after lost t = w := by
  induction t with
  | nil => rfl
  | cons ev t ih =>
    obtain ⟨hev, ht⟩ := List.forall_mem_cons.mp h
    rw [after_cons, next_of_aside hev, ih ht]

theorem Parts.after_readings (reading : Option ℤ) : w.after lost (readings reading) = w := by
  cases reading <;> rfl

theorem Parts.next_configuring (h : Accepts C s body callee mapping) :
    w.next lost (configuring s callee mapping) =
      { w with endpoints := w.endpoints.configured s.callerOffer callee mapping } := by
  obtain ⟨hname, hrate⟩ := h.valid
  show (match Prog.eval Endpoints.handle (Media.configure s.callerOffer callee mapping) w.endpoints with
    | some (_, endpoints) => { w with endpoints := endpoints }
    | none => w) = _
  rw [Media.eval_configure w.endpoints s.callerOffer callee hname hrate]

theorem AnswerRun.after (h : AnswerRun C s body t result s') (w : Parts) (lost : Bool) :
    (w.after lost t).state = w.state ∧
    ((∃ err, result = .error err) ∧ s' = s ∧ w.after lost t = w ∨
      ∃ callee mapping, Accepts C s body callee mapping ∧ s'.mediaMapping = mapping ∧
        (w.after lost t).endpoints = w.endpoints.configured s.callerOffer callee mapping ∧
        ((∃ err, result = .error err) ∧ s' = { s with mediaMapping := mapping } ∧
            (w.after lost t).starts = w.starts ∨
          ∃ answer, result = .ok answer ∧ BuiltFrom C mapping answer ∧
            s' = { s with mediaMapping := mapping, callerAnswer := answer }.started ∧
            (w.after lost t).starts = w.starts + if s.mediaRunning then 0 else 1)) := by
  cases h with
  | refused err => exact ⟨rfl, .inl ⟨⟨err, rfl⟩, rfl, rfl⟩⟩
  | unanswerable callee mapping haccepts reading hunbuilt err =>
    rw [Parts.after_cons, Parts.next_configuring haccepts, Parts.after_readings]
    exact ⟨rfl, .inr ⟨callee, mapping, haccepts, rfl, rfl, .inl ⟨⟨err, rfl⟩, rfl, rfl⟩⟩⟩
  | answered callee mapping haccepts sessionID answer hbuilt =>
    rw [Parts.after_cons, Parts.next_configuring haccepts]
    have hmapping : { s with mediaMapping := mapping, callerAnswer := answer }.started.mediaMapping =
        mapping := by
      unfold Session.started
      split_ifs <;> rfl
    by_cases hrunning : s.mediaRunning = true
    · rw [starting, if_pos hrunning]
      exact ⟨rfl, .inr ⟨callee, mapping, haccepts, hmapping, rfl,
        .inr ⟨answer, rfl, hbuilt.builtFrom, rfl,
        by rw [if_pos hrunning]; rfl⟩⟩⟩
    · rw [starting, if_neg hrunning]
      exact ⟨rfl, .inr ⟨callee, mapping, haccepts, hmapping, rfl,
        .inr ⟨answer, rfl, hbuilt.builtFrom, rfl,
        by rw [if_neg hrunning]; rfl⟩⟩⟩

/-! ## Sequences of calls -/

/-- The mapping and the payload types of the media session are those of the mapping, if it is set. -/
def Agrees (m : Endpoints) (mapping : Mapping) : Prop :=
  if mapping.name = "" then m.mapping = none ∧ ∀ leg, m.remote leg = none
  else m.mapping = some mapping ∧
    (∃ caller, m.remote .caller = some caller ∧ caller.audioPT = mapping.callerPT ∧
      caller.dtmfPT = mapping.callerDTMFPT ∧ caller.hasDTMF = mapping.hasDTMF) ∧
    ∃ callee, m.remote .callee = some callee ∧ callee.audioPT = mapping.calleePT ∧
      callee.dtmfPT = mapping.calleeDTMFPT ∧ callee.hasDTMF = mapping.hasDTMF

theorem agrees_initial (h : mapping.name = "") : Agrees .initial mapping := by
  rw [Agrees, if_pos h]
  exact ⟨rfl, fun _ => rfl⟩

theorem agrees_configured (m : Endpoints) (caller callee : Endpoint) (h : mapping.name ≠ "") :
    Agrees (m.configured caller callee mapping) mapping := by
  obtain ⟨hcaller, hcallee⟩ := Media.configured_remote m caller callee mapping
  rw [Agrees, if_neg h]
  exact ⟨rfl, ⟨_, hcaller, rfl, rfl, rfl⟩, ⟨_, hcallee, rfl, rfl, rfl⟩⟩

/-- The session and what it acts on. -/
structure Point where
  session : Session
  parts : Parts

/-- Between two calls the offer of the caller, the learned ports and the state of the call may change;
what `applyMediaAnswer` writes stays. -/
structure Carries (p p' : Point) : Prop where
  mapping : p'.session.mediaMapping = p.session.mediaMapping
  answer : p'.session.callerAnswer = p.session.callerAnswer
  running : p'.session.mediaRunning = p.session.mediaRunning
  remote : p'.parts.endpoints.remote = p.parts.endpoints.remote
  negotiated : p'.parts.endpoints.mapping = p.parts.endpoints.mapping
  starts : p'.parts.starts = p.parts.starts

theorem Agrees.carries {p p' : Point} (h : Carries p p')
    (hagrees : Agrees p.parts.endpoints p.session.mediaMapping) :
    Agrees p'.parts.endpoints p'.session.mediaMapping := by
  unfold Agrees at hagrees ⊢
  rwa [h.mapping, h.remote, h.negotiated]

/-- A call of `applyMediaAnswer`: the point it is made at, the callee's description and the result. -/
structure AnswerCall where
  start : Point
  body : Body
  result : Except MediaError Body

def AnswerCall.succeeded (c : AnswerCall) : Bool := c.result.isOk

def AnswerStep (C : Codecs) (p : Point) (c : AnswerCall) (p' : Point) : Prop :=
  Carries p c.start ∧ ∃ t,
    Returns (applyMediaAnswer C c.start.session c.body) t (c.result, p'.session) ∧
    p'.parts = c.start.parts.after false t

/-- All that the calls so far have written fits together. -/
structure Consistent (C : Codecs) (calls : List AnswerCall) (p : Point) : Prop where
  agrees : Agrees p.parts.endpoints p.session.mediaMapping
  running : p.session.mediaRunning = calls.any (·.succeeded)
  starts : p.parts.starts = if p.session.mediaRunning then 1 else 0
  answer : if p.session.mediaRunning then BuiltFrom C p.session.mediaMapping p.session.callerAnswer
    else p.session.callerAnswer = []
  set : p.session.mediaRunning = true → p.session.mediaMapping.name ≠ ""

theorem Consistent.carries {calls : List AnswerCall} {p p' : Point} (h : Consistent C calls p)
    (hcarries : Carries p p') : Consistent C calls p' where
  agrees := h.agrees.carries hcarries
  running := by rw [hcarries.running, h.running]
  starts := by rw [hcarries.starts, hcarries.running, h.starts]
  answer := by
    rw [hcarries.running, hcarries.mapping, hcarries.answer]
    exact h.answer
  set := by
    rw [hcarries.running, hcarries.mapping]
    exact h.set

/-- A call keeps what is written consistent, and the mapping once it is set. -/
theorem Consistent.call {calls : List AnswerCall} {p p' : Point} {c : AnswerCall}
    (h : Consistent C calls p) (hstep : AnswerStep C p c p') :
    Consistent C (calls ++ [c]) p' ∧
      (p.session.mediaMapping.name ≠ "" → p'.session.mediaMapping = p.session.mediaMapping) := by
  obtain ⟨hcarries, t, hreturns, hparts⟩ := hstep
  rw [← hcarries.mapping]
  replace h := h.carries hcarries
  have hany : (calls ++ [c]).any (·.succeeded) = (calls.any (·.succeeded) || c.result.isOk) := by
    rw [List.any_append]
    simp [AnswerCall.succeeded]
  obtain ⟨-, hafter⟩ := (answerRun_of_returns hreturns).after c.start.parts false
  rw [← hparts] at hafter
  rcases hafter with ⟨⟨err, hresult⟩, hsession, hw⟩
    | ⟨callee, mapping, haccepts, hmapping, hendpoints, hend⟩
  · -- nothing is written
    refine ⟨⟨?_, ?_, ?_, ?_, ?_⟩, fun _ => by rw [hsession]⟩
    · rw [hsession, hw]
      exact h.agrees
    · rw [hany, hsession, hresult, h.running]
      exact (Bool.or_false _).symm
    · rw [hsession, hw]
      exact h.starts
    · rw [hsession]
      exact h.answer
    · rw [hsession]
      exact h.set
  · have hfixed : c.start.session.mediaMapping.name ≠ "" → c.start.session.mediaMapping = mapping :=
      fun hset => haccepts.same.resolve_left hset
    have hagrees : Agrees p'.parts.endpoints p'.session.mediaMapping := by
      rw [hendpoints, hmapping]
      exact agrees_configured _ _ _ haccepts.valid.1
    refine ⟨?_, fun hset => hmapping.trans (hfixed hset).symm⟩
    rcases hend with ⟨⟨err, hresult⟩, hsession, hstarts⟩
      | ⟨answer, hresult, hbuilt, hsession, hstarts⟩
    · -- the endpoints are configured, the answer is not built
      have hrunning : p'.session.mediaRunning = c.start.session.mediaRunning := by rw [hsession]
      refine ⟨hagrees, ?_, ?_, ?_, ?_⟩
      · rw [hany, hrunning, hresult, h.running]
        exact (Bool.or_false _).symm
      · rw [hstarts, hrunning]
        exact h.starts
      · have hanswer := h.answer
        rw [hrunning]
        split_ifs at hanswer ⊢ with hrun
        · rw [hmapping, ← hfixed (h.set hrun), hsession]
          exact hanswer
        · rw [hsession]
          exact hanswer
      · intro _
        rw [hmapping]
        exact haccepts.valid.1
    · have hrunning : p'.session.mediaRunning = true := by
        rw [hsession, Session.started]
        split_ifs with hrun
        · exact hrun
        · rfl
      have hanswer : p'.session.callerAnswer = answer := by
        rw [hsession, Session.started]
        split_ifs <;> rfl
      refine ⟨hagrees, ?_, ?_, ?_, ?_⟩
      · rw [hany, hrunning, hresult]
        exact (Bool.or_true _).symm
      · rw [hrunning, if_pos rfl, hstarts, h.starts]
        split_ifs <;> rfl
      · rw [hrunning, if_pos rfl, hmapping, hanswer]
        exact hbuilt
      · intro _
        rw [hmapping]
        exact haccepts.valid.1

/-- **The mapping of a call.** Over every sequence of calls of `applyMediaAnswer` on a new session, with
any offers of the caller, any descriptions of the callee and any results: once the mapping is set it
never changes; the media session's mapping and the payload types of both endpoints are those of the
mapping; the answer to the caller is one of the mapping, and the workers were started once, if a call
has succeeded, else there is neither. -/
theorem mapping_fixed (C : Codecs) (p₀ : Point) (hmapping : p₀.session.mediaMapping.name = "")
    (hanswer : p₀.session.callerAnswer = []) (hrunning : p₀.session.mediaRunning = false)
    (hendpoints : p₀.parts.endpoints = .initial) (hstarts : p₀.parts.starts = 0)
    (calls : List AnswerCall) (p : Point) (h : Steps (AnswerStep C) p₀ calls p) :
    (∀ calls' p', Steps (AnswerStep C) p calls' p' → p.session.mediaMapping.name ≠ "" →
      p'.session.mediaMapping = p.session.mediaMapping) ∧
    Agrees p.parts.endpoints p.session.mediaMapping ∧
    if calls.any (·.succeeded) then
      BuiltFrom C p.session.mediaMapping p.session.callerAnswer ∧ p.parts.starts = 1
    else p.session.callerAnswer = [] ∧ p.parts.starts = 0 := by
  have hnew : Consistent C [] p₀ := by
    refine ⟨?_, hrunning, ?_, ?_, ?_⟩
    · rw [hendpoints]
      exact agrees_initial hmapping
    · rw [hstarts, hrunning]
      rfl
    · rw [hrunning]
      exact hanswer
    · rw [hrunning]
      exact nofun
  have hp : Consistent C calls p :=
    h.invariant (I := Consistent C) (fun _ _ _ _ hI hstep => (hI.call hstep).1) hnew
  refine ⟨?_, hp.agrees, ?_⟩
  · intro calls' p' h' hset
    have hall := h'.invariant
      (I := fun ls q => Consistent C (calls ++ ls) q ∧
        q.session.mediaMapping = p.session.mediaMapping) ?_ ⟨by rwa [List.append_nil], rfl⟩
    · exact hall.2
    · rintro ls q c q' ⟨hq, hsame⟩ hstep
      obtain ⟨hq', hkept⟩ := hq.call hstep
      rw [← List.append_assoc]
      exact ⟨hq', (hkept (hsame ▸ hset)).trans hsame⟩
  · have hstarted := hp.starts
    have hbuilt := hp.answer
    rw [hp.running] at hstarted hbuilt
    split_ifs at hstarted hbuilt ⊢
    · exact ⟨hbuilt, hstarted⟩
    · exact ⟨hbuilt, hstarted⟩

/-- A call between two handsets, before its media are negotiated. -/
def handsetSession : Session :=
  ⟨⟨"call", "home", "node", "", "caller", "callee", .ringing, 0, 0, 0, ""⟩, "inbound", some "outbound",
    some ⟨Sdp.pbxRTP.addr, 20000, 20002⟩, Sdp.handsetEndpoint, .zero, [], false, false⟩

def tonelessHandset : Sdp.SessionDescription :=
  { Sdp.handset with
    mediaDescriptions := Sdp.handset.mediaDescriptions.map ({ · with formats := ["8"] }) }

def handsetsEncoding : Codecs :=
  Sdp.encodingOf [Sdp.handset, tonelessHandset] [0x0A000009, 0x0A000001]

def describedRun (p : Point) (d : Sdp.SessionDescription) :
    List (Event engineSig) × Option (Except MediaError Body × Session) × Unit :=
  Prog.trace (fun _ e => (succeeding (fun _ => .failed .timeout) (fun _ => .parentDone) 0 e, ()))
    (applyMediaAnswer handsetsEncoding p.session (Sdp.ascii (Sdp.lines d))) ()

def describedCall (p : Point) (d : Sdp.SessionDescription) : AnswerCall :=
  ⟨p, Sdp.ascii (Sdp.lines d), (describedRun p d).2.1.elim (.error .endpoint) (·.1)⟩

def describedPoint (p : Point) (d : Sdp.SessionDescription) : Point :=
  ⟨(describedRun p d).2.1.elim p.session (·.2), p.parts.after false (describedRun p d).1⟩

theorem describedStep {p : Point} {d : Sdp.SessionDescription}
    (h : (describedRun p d).2.1.isSome = true) :
    AnswerStep handsetsEncoding p (describedCall p d) (describedPoint p d) := by
  obtain ⟨⟨result, s'⟩, hrun⟩ := Option.isSome_iff_exists.mp h
  refine ⟨⟨rfl, rfl, rfl, rfl, rfl, rfl⟩, (describedRun p d).1, ?_, rfl⟩
  rw [describedCall, describedPoint, hrun]
  exact Prog.returns_trace hrun

def handsetPoint : Point := ⟨handsetSession, ⟨.initial, .ringing, 0⟩⟩

/-- The callee describes its media twice, the second time without telephone events: the second
description is refused, and the mapping stays that of the first. -/
theorem mapping_fixed_handset :
    ∃ c c' p p', Steps (AnswerStep handsetsEncoding) handsetPoint [c] p ∧ c.succeeded = true ∧
      p.session.mediaMapping = ⟨"PCMA", 8000, 8, 8, 101, 101, true⟩ ∧
      Steps (AnswerStep handsetsEncoding) p [c'] p' ∧ c'.succeeded = false ∧
      p'.session.mediaMapping = p.session.mediaMapping ∧
      Agrees p'.parts.endpoints p'.session.mediaMapping ∧ p'.parts.starts = 1 := by
  have hfirst := Steps.single (describedStep (p := handsetPoint) (d := Sdp.handset) (by decide +kernel))
  have hsecond := Steps.single (describedStep (p := describedPoint handsetPoint Sdp.handset)
    (d := tonelessHandset) (by decide +kernel))
  have hok : (describedCall handsetPoint Sdp.handset).succeeded = true := by decide +kernel
  have hrefused : (describedCall (describedPoint handsetPoint Sdp.handset)
      tonelessHandset).succeeded = false := by decide +kernel
  have hmapping : (describedPoint handsetPoint Sdp.handset).session.mediaMapping =
      ⟨"PCMA", 8000, 8, 8, 101, 101, true⟩ := by decide +kernel
  have hfixed := (mapping_fixed handsetsEncoding _ rfl rfl rfl rfl rfl _ _ hfirst).1 _ _ hsecond
    (by rw [hmapping]; decide)
  obtain ⟨-, hagrees, hstarted⟩ :=
    mapping_fixed handsetsEncoding _ rfl rfl rfl rfl rfl _ _ (hfirst.trans hsecond)
  rw [if_pos (by simp [hok])] at hstarted
  exact ⟨_, _, _, _, hfirst, hok, hmapping, hsecond, hrefused, hfixed, hagrees, hstarted.2⟩

end AixvolinkPbx.B2bua
