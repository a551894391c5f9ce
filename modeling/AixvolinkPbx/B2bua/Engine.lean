import AixvolinkPbx.B2bua.InDialog

/-!
# The B2BUA engine (`internal/sip/b2bua/engine.go`)

`handleInvite` admits an initial INVITE (`admission`) and runs its session: `session.run` prepares the
offer to the callee (`prepare`), dials and waits for the answer (`dial`), answers the caller
(`answer`), serves commands (`commandLoop`), and leaves through its deferred calls (`finish`).
-/

namespace AixvolinkPbx.B2bua

open Calls (Actor newActor)
open Registration (Binding)
open Sdp (Body Codecs Endpoint Mapping)

variable (cfg : Config) (C : Codecs)

/-! ## Setting up a call -/

def addressOfRecord (user : String) : String := "sip:" ++ user ++ "@" ++ cfg.realm

/-- The part of `session.run` up to the offer to the callee; none ends the session. -/
def prepare (s : Session) (invite : Invite) :
    Prog engineSig (Session × Option (Binding × Body)) := do
  if (← transition .parent .routing s.call.callerLeg "INVITE" "").isSome then return (s, none)
  if !(← respond 100 "Trying" [] []) then
    fail s "caller transaction failed" "INVITE"
    return (s, none)
  let some binding ← op (.resolve cfg.tenantID (addressOfRecord cfg (invite.toUser.getD "")))
    | do
      let _ ← respond 404 "Not Found" [] []
      fail s "callee not registered" "404"
      return (s, none)
  match Sdp.parseAudio C invite.body with
  | .error _ =>
    let _ ← respond 488 "Not Acceptable Here" [] []
    fail s "invalid or unsupported caller SDP" "488"
    return (s, none)
  | .ok callerOffer =>
    let s := { s with callerOffer := callerOffer }
    let some media ← op .newMedia
      | do
        let _ ← respond 503 "Media Resources Unavailable" [] []
        fail s "media resources unavailable" "503"
        return (s, none)
    let s := { s with media := some media }
    match media.localEndpoint .callee with
    | none =>
      let _ ← respond 500 "Server Internal Error" [] []
      fail s "media endpoint unavailable" "500"
      return (s, none)
    | some (calleeRTP, calleeRTCP) =>
      let sessionID ← op .now
      match Sdp.buildAudio C sessionID calleeRTP calleeRTCP (Sdp.codecListForOffer callerOffer)
          callerOffer.direction with
      | .error _ =>
        let _ ← respond 488 "Not Acceptable Here" [] []
        fail s "unable to build callee SDP" "488"
        return (s, none)
      | .ok outboundOffer => return (s, some (binding, outboundOffer))

/-! ## Waiting for the answer -/

def statusSessionProgress : ℕ := 183

def contentTypeHeaders (response : Response) : List Header :=
  if response.body = [] then []
  else
    match response.headers.find? fun h => Text.toLower h.name = "content-type" with
    | some contentType => [contentType]
    | none => [sdpContentType]

/-- The errors `WaitAnswer` returns. -/
inductive WaitError
  | failed (cause : WaitFailure)
  | rejected (response : Response)
  | mediaNegotiation (err : MediaError)
  | transition (err : Calls.ActorError)
  | respond

/-- The transition to ringing, for 180 and for 183 without a body. -/
def ring (s : Session) (response : Response) : Prog engineSig (Option Calls.ActorError) :=
  if response.status = 180 ∨ response.status = statusSessionProgress then
    transition .parent .ringing s.call.calleeLeg (Text.itoa response.status) ""
  else pure none

/-- The `OnResponse` of `session.run`. -/
def onResponse (s : Session) (response : Response) :
    Prog engineSig (Option WaitError × Session) := do
  if !response.isProvisional || response.status = 100 then return (none, s)
  let headers := contentTypeHeaders response
  if response.status = statusSessionProgress ∧ response.body ≠ [] then
    match ← applyMediaAnswer C s response.body with
    | (.error err, s) => return (some (.mediaNegotiation err), s)
    | (.ok body, s) =>
      if let some err ← transition .parent .earlyMedia s.call.calleeLeg
          (Text.itoa response.status) "" then
        return (some (.transition err), s)
      if ← respond response.status response.reason body headers then return (none, s)
      else return (some .respond, s)
  else
    if let some err ← ring s response then return (some (.transition err), s)
    if ← respond response.status response.reason response.body headers then return (none, s)
    else return (some .respond, s)

/-- One round of `WaitAnswer`, a function of the SIP library. Assumed of it is that it hands the
responses it reads to `OnResponse` and returns the error of that, that it returns at a success, and with
a rejection at any other final response. It may give up before every response, with any error. -/
def waitRound (s : Session) :
    Prog engineSig (Session ⊕ Except WaitError Response × Session) := do
  match ← op .nextResponse with
  | .failed cause => return .inr (.error (.failed cause), s)
  | .response response =>
    match ← onResponse C s response with
    | (some err, s) => return .inr (.error err, s)
    | (none, s) =>
      if response.isSuccess then return .inr (.ok response, s)
      else if response.isProvisional then return .inl s
      else return .inr (.error (.rejected response), s)

/-- `WaitAnswer`, looked at for at most `n` rounds. -/
def waitAnswer (n : ℕ) (s : Session) : Prog engineSig (Except WaitError Response × Session) :=
  Prog.loop (waitRound C) n s

/-- The INVITE to the callee and its answer; none ends the session. -/
def dial (n : ℕ) (s : Session) (binding : Binding) (offer : Body) :
    Prog engineSig (Session × Option Response) := do
  let some outbound ← op (.createOutbound binding offer)
    | do
      let _ ← respond 503 "Service Unavailable" [] []
      fail s "outbound invite failed" "INVITE"
      return (s, none)
  match ← waitAnswer C n { s with outbound := some outbound } with
  | (.ok response, s) => return (s, some response)
  | (.error (.rejected response), s) =>
    let _ ← respond response.status response.reason response.body []
    fail s response.reason (Text.itoa response.status)
    return (s, none)
  | (.error (.mediaNegotiation _), s) =>
    let _ ← respond 488 "Not Acceptable Here" [] []
    fail s "callee early media negotiation failed" "488"
    return (s, none)
  | (.error _, s) =>
    fail s "outbound invite canceled or timed out" "CANCEL"
    return (s, none)

/-! ## Answering the caller -/

def rejectAnswer (s : Session) (reason : String) : Prog engineSig Unit := do
  let _ ← op .ack
  op (.bye .parent .callee)
  let _ ← respond 488 "Not Acceptable Here" [] []
  fail s reason "488"

/-- The media answer in the body of the callee's answer, if it has one; false is a failure. -/
def answerMedia (s : Session) (inviteResponse : Response) : Prog engineSig (Bool × Session) :=
  if inviteResponse.body = [] then pure (true, s)
  else do
    let (res, s) ← applyMediaAnswer C s inviteResponse.body
    return (res.isOk, s)

/-- The part of `session.run` from the callee's answer to the command loop; false ends the
session. -/
def answer (s : Session) (inviteResponse : Response) : Prog engineSig (Session × Bool) := do
  let (negotiated, s) ← answerMedia C s inviteResponse
  if !negotiated then
    rejectAnswer s "callee SDP negotiation failed"
    return (s, false)
  if s.callerAnswer = [] then
    rejectAnswer s "callee answer contained no usable SDP"
    return (s, false)
  if !(← op .ack) then
    let _ ← respond 503 "Service Unavailable" [] []
    fail s "outbound ACK failed" "ACK"
    return (s, false)
  op (.registerOutbound (s.outbound.getD ""))
  if (← transition .parent .answered s.call.calleeLeg "200" "").isSome then
    op (.bye .parent .callee)
    return (s, false)
  if !(← respond 200 "OK" s.callerAnswer [sdpContentType]) then
    op (.bye .parent .callee)
    terminate "caller answer transaction failed" "CANCEL" s.call.callerLeg
    return (s, false)
  return (s, true)

/-! ## The command loop and the end -/

def loopRound (s : Session) : Prog engineSig (Session ⊕ Session) := do
  match ← op .select with
  | .command command =>
    let (ended, s) ← handleCommand C s command
    if ended then return .inr s else return .inl s
  | .parentDone =>
    handleHangup .detached s .caller
    return .inr s
  | .mediaDone _ =>
    let s := { s with mediaRunning := false }
    handleHangup .detached s .caller
    return .inr s

def commandLoop (n : ℕ) (s : Session) : Prog engineSig Session := Prog.loop (loopRound C) n s

def stopMedia (s : Session) : Prog engineSig Unit := do
  if s.media.isNone then return
  Prog.when s.mediaStarted (op .cancelMedia)
  op .closeMedia
  Prog.when s.mediaRunning (do let _ ← op .awaitMedia)
  op .publishSummary

def remove (s : Session) : Prog engineSig Unit := do
  op (.remove s.inbound s.outbound)
  Prog.when s.outbound.isSome (op .closeOutbound)

/-- The deferred calls of `session.run`, the last one first. -/
def finish (s : Session) : Prog engineSig Unit := do
  op .stopActor
  completePendingReInvite
  stopMedia s
  op .closeInbound
  remove s
  op .closeDone
  op .wgDone

/-! ## Admission -/

def release : Prog engineSig Unit := do
  op .release
  op .wgDone

def reject (status : ℕ) (reason : String) (headers : List Header) : Prog engineSig Unit := do
  let _ ← op (.respond .transaction ⟨status, reason, [], headers⟩)

/-- `e.sourceIsRegistered`; none is an error. -/
def sourceIsRegistered (aor source transport : String) : Prog engineSig (Option Bool) := do
  let some bindings ← op (.listBindings cfg.tenantID aor)
    | return none
  return some (bindings.any fun b =>
    b.routeTarget = source && b.transport.text = Text.toLower transport)

/-- The last steps of the admission: the dialog, the call and its actor. -/
def openSession : Prog engineSig (Option (Session × Actor)) := do
  let some inbound ← op .readInvite
    | do
      release
      reject 400 "Bad Dialog" []
      return none
  let some current ← op (.newCall cfg.tenantID cfg.nodeID)
    | do
      release
      let _ ← respond 500 "Server Internal Error" [] []
      return none
  match newActor cfg.mailboxSize current with
  | .error _ =>
    release
    let _ ← respond 500 "Server Internal Error" [] []
    return none
  | .ok actor =>
    op (.registerInbound inbound)
    return some (⟨current, inbound, none, none, .zero, .zero, [], false, false⟩, actor)

/-- The admission of `handleInvite`: the session and its actor, or none once it has refused. -/
def admission (invite : Invite) : Prog engineSig (Option (Session × Actor)) := do
  if !(← op .reserve) then
    reject 503 "Service Unavailable" [⟨"Retry-After", "1"⟩]
    return none
  let fromUser := invite.fromUser.getD ""
  let toUser := invite.toUser.getD ""
  if fromUser = "" ∨ toUser = "" then
    release
    reject 400 "Bad Request" []
    return none
  if (← sourceIsRegistered cfg (addressOfRecord cfg fromUser) invite.source invite.transport) ≠
      some true then
    release
    reject 403 "Forbidden" []
    return none
  openSession cfg

/-! ## Handling an INVITE -/

/-- What `session.run` does before its command loop: the session, and whether it gets there. -/
def setup (n : ℕ) (s : Session) (actor : Actor) (invite : Invite) :
    Prog engineSig (Session × Bool) := do
  op (.startActor actor)
  match ← prepare cfg C s invite with
  | (s, none) => return (s, false)
  | (s, some (binding, offer)) =>
    match ← dial C n s binding offer with
    | (s, none) => return (s, false)
    | (s, some response) => answer C s response

/-- `e.handleInvite` until it returns or its session enters the command loop: none if there is no
session, else the session and whether it enters the loop. -/
def answerInvite (n : ℕ) (invite : Invite) : Prog engineSig (Option (Session × Bool)) := do
  match ← admission cfg invite with
  | none => return none
  | some (s, actor) =>
    let res ← setup cfg C n s actor invite
    return some res

/-- The rest of `session.run`. -/
def serve (n : ℕ) : Option (Session × Bool) → Prog engineSig Unit
  | none => pure ()
  | some (s, true) => do
    let s ← commandLoop C n s
    finish s
  | some (s, false) => finish s

/-- `e.handleInvite`, looked at for at most `n` responses of the callee and `n` commands. -/
def handleInvite (n : ℕ) (invite : Invite) : Prog engineSig Unit := do
  let res ← answerInvite cfg C n invite
  serve C n res

end AixvolinkPbx.B2bua
