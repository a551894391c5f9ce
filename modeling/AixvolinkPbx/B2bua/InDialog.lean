import AixvolinkPbx.B2bua.Session

/-!
# In-dialog commands (`internal/sip/b2bua/in_dialog.go`)

What the session goroutine does with a command of its mailbox: a hangup ends the session, a re-INVITE
is offered to the callee, and REFER and NOTIFY are relayed to the other leg.
-/

namespace AixvolinkPbx.B2bua

open Sdp (Body Codecs)

/-! ## The pending re-INVITE -/

def completePendingReInviteTransaction (transaction : ℕ) : Prog engineSig Unit := do
  let cleared ← op (.clearPending transaction)
  Prog.when cleared (op (.terminate transaction))

def completePendingReInvite : Prog engineSig Unit := do
  match ← op .takePending with
  | none => return
  | some transaction => op (.terminate transaction)

def hasPendingReInvite : Prog engineSig Bool := do
  let some transaction ← op .readPending
    | return false
  if ← op (.pollAcks transaction) then
    completePendingReInviteTransaction transaction
    return false
  return true

/-! ## Commands -/

def answerRequest (request : Request) (status : ℕ) (reason : String) (body : Body)
    (headers : List Header) : Prog engineSig Unit := do
  let _ ← op (.respondTo request.transaction ⟨status, reason, body, headers⟩)

def sdpContentType : Header := ⟨"Content-Type", "application/sdp"⟩

def handleReInviteCommand (C : Codecs) (s : Session) (request : Request) :
    Prog engineSig Session := do
  if ← hasPendingReInvite then
    answerRequest request 491 "Request Pending" [] []
    return s
  match Sdp.parseAudio C request.body with
  | .error _ =>
    answerRequest request 488 "Not Acceptable Here" [] []
    return s
  | .ok offer =>
    match localEndpoint s .callee with
    | none =>
      answerRequest request 500 "Server Internal Error" [] []
      return s
    | some (calleeRTP, calleeRTCP) =>
      let sessionID ← op .now
      match Sdp.buildAudio C sessionID calleeRTP calleeRTCP (Sdp.codecListForOffer offer)
          offer.direction with
      | .error _ =>
        answerRequest request 488 "Not Acceptable Here" [] []
        return s
      | .ok outboundOffer =>
        let some response ← op (.request .callee "INVITE" outboundOffer [sdpContentType])
          | do
            answerRequest request 408 "Request Timeout" [] []
            return s
        if !response.isSuccess then
          answerRequest request response.status response.reason response.body []
          return s
        if !(← op .ack) then
          answerRequest request 503 "Service Unavailable" [] []
          return s
        match ← applyMediaAnswer C { s with callerOffer := offer } response.body with
        | (.error _, s') =>
          answerRequest request 488 "Not Acceptable Here" [] []
          return { s' with callerOffer := s.callerOffer }
        | (.ok answer, s') =>
          let state := if offer.direction ≠ .sendRecv then .held else .answered
          if (← transition .parent state s'.call.callerLeg "re-INVITE" "").isSome then
            answerRequest request 500 "Server Internal Error" [] []
            return s'
          op (.setPending request.transaction request.cseq)
          answerRequest request 200 "OK" answer [sdpContentType]
          return s'

/-- The headers with one of the names, in the order of the names. -/
def headersNamed (names : List String) (headers : List Header) : List Header :=
  names.flatMap fun name => headers.filter fun h => Text.toLower h.name = Text.toLower name

def respondRelayed (request : Request) : Option Response → Prog engineSig Unit
  | none => answerRequest request 408 "Request Timeout" [] []
  | some response =>
    answerRequest request response.status response.reason response.body
      (headersNamed ["Event", "Subscription-State", "Content-Type"] response.headers)

/-- `s.relayToCallee` and `s.relayToCaller`: the request as `cloneInDialogRequest` makes it. -/
def relay (leg : Leg) (request : Request) : Prog engineSig Unit := do
  let response ← op (.request leg request.method request.body
    (headersNamed ["Refer-To", "Referred-By", "Event", "Subscription-State", "Content-Type"]
      request.headers))
  respondRelayed request response

def relayToCallee (request : Request) : Prog engineSig Unit := relay .callee request
def relayToCaller (request : Request) : Prog engineSig Unit := relay .caller request

/-- `s.handleCommand`: whether the session ends, and the session after the command. -/
def handleCommand (C : Codecs) (s : Session) : SessionCommand → Prog engineSig (Bool × Session)
  | .hangup origin => do
    handleHangup .parent s origin
    return (true, s)
  | .reInvite request => do
    let s ← handleReInviteCommand C s request
    op (.closeResult request.transaction)
    return (false, s)
  | .refer request => do
    relayToCallee request
    op (.closeResult request.transaction)
    return (false, s)
  | .notify request => do
    relayToCaller request
    op (.closeResult request.transaction)
    return (false, s)

end AixvolinkPbx.B2bua
