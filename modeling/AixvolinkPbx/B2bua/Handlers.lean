import AixvolinkPbx.B2bua.Engine
import AixvolinkPbx.Lib.Interleave
import AixvolinkPbx.Lib.Interp
import AixvolinkPbx.Lib.Table

/-!
# Requests inside a dialog and the sessions they go to

The SIP stack calls a handler for every request in a goroutine of its own. A handler finds the session
of the dialog, hands its command to the session's mailbox and, except for a BYE, waits for the command
to be done. The handlers and the goroutines of the sessions run in one system (`dialogSystem`) over the
engine's maps, the mailboxes and the fields that `pendingMu` guards.

Timers may expire at any time, and a select takes any case that is ready. Dialog IDs, the checks of the
SIP stack on a request and what happens on a transaction are the environment's.
-/

namespace AixvolinkPbx.B2bua

open Sdp (Codecs)

/-! ## Operations of the handlers -/

/-- A request, with the dialog IDs read off it as a server and as a client. -/
structure Incoming where
  request : Request
  uas : Option String
  uac : Option String
  deriving DecidableEq

inductive Enqueued
  | sent
  | done
  | timeout
  deriving DecidableEq, Repr

inductive Finished
  | result
  | done
  | timer
  deriving DecidableEq, Repr

inductive Watched
  | acks
  | transactionDone
  | sessionDone
  deriving DecidableEq, Repr

inductive HandlerOp
  -- the engine's maps: sessions by the dialog of a leg
  | lookup (leg : Leg) (id : String)
  -- the session
  | hasDialog (session : ℕ) (leg : Leg)
  | enqueue (session : ℕ) (command : SessionCommand)
  | awaitResult (session transaction : ℕ)
  | beginReInvite (session : ℕ)
  | finishReInvite (session : ℕ)
  | clearPendingCSeq (session : ℕ) (cseq : UInt32)
  | clearPending (session transaction : ℕ)
  | awaitPending (session transaction : ℕ)
  -- the SIP stack
  | readBye (leg : Leg)
  | readRequest (leg : Leg)
  | readAck
  | respond (transaction : ℕ) (response : Response)
  | terminate (transaction : ℕ)
  deriving DecidableEq

abbrev handlerSig : Sig where
  Op := HandlerOp
  Ans
    | .lookup _ _ => Option ℕ
    | .hasDialog _ _ => Bool
    | .enqueue _ _ => Enqueued
    | .awaitResult _ _ => Finished
    | .beginReInvite _ => Bool
    | .clearPendingCSeq _ _ => Option ℕ
    | .clearPending _ _ => Bool
    | .awaitPending _ _ => Watched
    | .readBye _ => Bool
    | .readRequest _ => Bool
    | .readAck => Bool
    | _ => Unit

instance (e : HandlerOp) : DecidableEq (handlerSig.Ans e) := by
  cases e <;> exact inferInstance

abbrev hop (e : HandlerOp) : Prog handlerSig (handlerSig.Ans e) := .call (S := handlerSig) e

/-! ## Handlers -/

def Incoming.dialogID (m : Incoming) : Leg → Option String
  | .caller => m.uas
  | .callee => m.uac

/-- `e.findInboundSession` and `e.findOutboundSession`, and the same lookups of `e.handleBye`. -/
def findSession (leg : Leg) (m : Incoming) : Prog handlerSig (Option ℕ) :=
  match m.dialogID leg with
  | none => pure none
  | some id => hop (.lookup leg id)

def refuse (m : Incoming) (status : ℕ) (reason : String) : Prog handlerSig Unit :=
  hop (.respond m.request.transaction ⟨status, reason, [], []⟩)

def refuseUnknown (m : Incoming) : Prog handlerSig Unit :=
  refuse m 481 "Call/Transaction Does Not Exist"

def enqueue (session : ℕ) (command : SessionCommand) : Prog handlerSig Unit := do
  let _ ← hop (.enqueue session command)

/-- `s.enqueueAndWait`; the command's result channel has the name of its transaction. -/
def enqueueAndWait (session : ℕ) (command : SessionCommand) (transaction : ℕ) :
    Prog handlerSig Bool := do
  enqueue session command
  match ← hop (.awaitResult session transaction) with
  | .result => return true
  | .done => return false
  | .timer => return false

/-- One half of `e.handleBye`: whether the BYE belongs to a dialog of the leg. -/
def acceptBye (leg : Leg) (m : Incoming) : Prog handlerSig Bool := do
  let some session ← findSession leg m
    | return false
  if ← hop (.readBye leg) then
    enqueue session (.hangup leg)
    return true
  return false

def handleBye (m : Incoming) : Prog handlerSig Unit := do
  if ← acceptBye .caller m then return
  if ← acceptBye .callee m then return
  refuseUnknown m

/-- The end of the handlers of commands: `ReadRequest`, and then the command. -/
def dispatch (session : ℕ) (leg : Leg) (command : SessionCommand) (m : Incoming) :
    Prog handlerSig Unit := do
  if !(← hop (.readRequest leg)) then refuse m 400 "Bad Dialog Request"
  else if !(← enqueueAndWait session command m.request.transaction) then
    refuse m 408 "Request Timeout"

def handleReInvite (m : Incoming) : Prog handlerSig Unit := do
  let some session ← findSession .caller m
    | refuseUnknown m
  if !(← hop (.hasDialog session .callee)) then refuseUnknown m
  else if !(← hop (.beginReInvite session)) then refuse m 491 "Request Pending"
  else
    dispatch session .caller (.reInvite m.request) m
    hop (.finishReInvite session)

def handleRefer (m : Incoming) : Prog handlerSig Unit := do
  let some session ← findSession .caller m
    | refuseUnknown m
  if !(← hop (.hasDialog session .callee)) then refuseUnknown m
  else if headersNamed ["Refer-To"] m.request.headers = [] then refuse m 400 "Missing Refer-To"
  else dispatch session .caller (.refer m.request) m

def handleNotify (m : Incoming) : Prog handlerSig Unit := do
  let some session ← findSession .callee m
    | refuseUnknown m
  if !(← hop (.hasDialog session .caller)) then refuseUnknown m
  else dispatch session .callee (.notify m.request) m

/-- The `OnAck` of `e.RegisterHandlers`, with `s.completePendingReInviteCSeq`. -/
def onAck (m : Incoming) : Prog handlerSig Unit := do
  if !(← hop .readAck) then return
  let some session ← findSession .caller m
    | return
  match ← hop (.clearPendingCSeq session m.request.cseq) with
  | none => return
  | some transaction => hop (.terminate transaction)

def watchPendingReInvite (session transaction : ℕ) : Prog handlerSig Unit := do
  match ← hop (.awaitPending session transaction) with
  | .sessionDone => return
  | _ =>
    let cleared ← hop (.clearPending session transaction)
    Prog.when cleared (hop (.terminate transaction))

/-! ## The system -/

abbrev dialogSig : Sig := engineSig.sum handlerSig

/-- What the goroutine of a session shares with the handlers. -/
structure SessionShared where
  mailbox : List SessionCommand
  /-- `done` is closed. -/
  done : Bool
  /-- `outbound` is not nil. -/
  outbound : Bool
  /-- `pendingReInvite` and `pendingCSeq`. -/
  pending : Option (ℕ × UInt32)
  reInviteBusy : Bool

def SessionShared.initial : SessionShared := ⟨[], false, false, none, false⟩

def SessionShared.pendingReInvite (s : SessionShared) : Option ℕ := s.pending.map Prod.fst

structure DialogShared where
  byInbound : Table String ℕ
  byOutbound : Table String ℕ
  sessions : ℕ → SessionShared
  /-- The commands whose result channel is closed, by their transactions. -/
  results : ℕ → Bool
  /-- The dialog IDs given to INVITEs sent so far. -/
  dialogs : List String
  /-- The watchers started for a pending re-INVITE. -/
  watchers : List (ℕ × ℕ)

def DialogShared.initial : DialogShared :=
  ⟨∅, ∅, fun _ => .initial, fun _ => false, [], []⟩

def DialogShared.update (sh : DialogShared) (k : ℕ) (s : SessionShared) : DialogShared :=
  { sh with sessions := Function.update sh.sessions k s }

inductive DialogParty
  /-- An initial INVITE, with the number of the session it makes. -/
  | session (number : ℕ) (invite : Invite)
  | bye (m : Incoming)
  | reInvite (m : Incoming)
  | refer (m : Incoming)
  | notify (m : Incoming)
  | ack (m : Incoming)
  | watch (session transaction : ℕ)
  deriving DecidableEq

def DialogParty.number : DialogParty → ℕ
  | .session number _ => number
  | _ => 0

/-- The state after an operation whose answer the shared state gives. -/
def answerIs {α : Type} [DecidableEq α] (r actual : α) (sh : DialogShared) : Option DialogShared :=
  if r = actual then some sh else none

/-- What the goroutine of session `k` does to the shared state. `Do` returns final responses, and the
stack gives every INVITE it sends a dialog ID of its own. -/
def handleSession (sh : DialogShared) (k : ℕ) : (e : EngineOp) → engineSig.Ans e → Option DialogShared
  | .registerInbound id, _ => some { sh with byInbound := sh.byInbound.insert id k }
  | .registerOutbound id, _ => some { sh with byOutbound := sh.byOutbound.insert id k }
  | .remove inbound outbound, _ =>
    some { sh with
      byInbound := sh.byInbound.erase inbound
      byOutbound := match outbound with
        | some id => sh.byOutbound.erase id
        | none => sh.byOutbound }
  | .createOutbound _ _, some id =>
    if id ∈ sh.dialogs then none
    else
      let sh := { sh with dialogs := id :: sh.dialogs }
      some (sh.update k { sh.sessions k with outbound := true })
  | .select, .command c =>
    match (sh.sessions k).mailbox with
    | [] => none
    | head :: rest =>
      if head = c then some (sh.update k { sh.sessions k with mailbox := rest }) else none
  | .request .., some response => if response.isFinal then some sh else none
  | .closeResult transaction, _ =>
    some { sh with results := Function.update sh.results transaction true }
  | .closeDone, _ => some (sh.update k { sh.sessions k with done := true })
  | .readPending, r => answerIs r (sh.sessions k).pendingReInvite sh
  | .clearPending transaction, r =>
    if r = decide ((sh.sessions k).pendingReInvite = some transaction) then
      some (if r then sh.update k { sh.sessions k with pending := none } else sh)
    else none
  | .setPending transaction cseq, _ =>
    some { sh.update k { sh.sessions k with pending := some (transaction, cseq) } with
      watchers := (k, transaction) :: sh.watchers }
  | .takePending, r =>
    answerIs r (sh.sessions k).pendingReInvite (sh.update k { sh.sessions k with pending := none })
  | _, _ => some sh

def handleHandler (capacity : ℕ) (sh : DialogShared) :
    (e : HandlerOp) → handlerSig.Ans e → Option DialogShared
  | .lookup .caller id, r => answerIs r (sh.byInbound.lookup id) sh
  | .lookup .callee id, r => answerIs r (sh.byOutbound.lookup id) sh
  | .hasDialog _ .caller, r => answerIs r true sh
  | .hasDialog k .callee, r => answerIs r (sh.sessions k).outbound sh
  | .enqueue k command, .sent =>
    if (sh.sessions k).mailbox.length < capacity then
      some (sh.update k { sh.sessions k with mailbox := (sh.sessions k).mailbox ++ [command] })
    else none
  | .enqueue k _, .done => if (sh.sessions k).done then some sh else none
  | .awaitResult _ transaction, .result => if sh.results transaction then some sh else none
  | .awaitResult k _, .done => if (sh.sessions k).done then some sh else none
  | .beginReInvite k, r =>
    let s := sh.sessions k
    if r = !(s.reInviteBusy || s.pending.isSome) then
      some (if r then sh.update k { s with reInviteBusy := true } else sh)
    else none
  | .finishReInvite k, _ => some (sh.update k { sh.sessions k with reInviteBusy := false })
  | .clearPendingCSeq k cseq, r =>
    let s := sh.sessions k
    if r = (s.pending.filter fun p => p.2 = cseq).map Prod.fst then
      some (if r.isSome then sh.update k { s with pending := none } else sh)
    else none
  | .clearPending k transaction, r =>
    if r = decide ((sh.sessions k).pendingReInvite = some transaction) then
      some (if r then sh.update k { sh.sessions k with pending := none } else sh)
    else none
  | .awaitPending k _, .sessionDone => if (sh.sessions k).done then some sh else none
  | _, _ => some sh

def handleDialog (capacity : ℕ) (sh : DialogShared) (x : DialogParty) :
    (e : dialogSig.Op) → dialogSig.Ans e → Option DialogShared
  | .inl e, r => handleSession sh x.number e r
  | .inr e, r => handleHandler capacity sh e r

/-- The handler a request goes to, by its method; a watcher is started by its session. -/
def DialogParty.started (sh : DialogShared) : DialogParty → Prop
  | .reInvite m => m.request.method = "INVITE"
  | .refer m => m.request.method = "REFER"
  | .notify m => m.request.method = "NOTIFY"
  | .watch k transaction => (k, transaction) ∈ sh.watchers
  | _ => True

/-- The sessions and handlers of an engine. -/
def dialogSystem (cfg : Config) (C : Codecs) (n : ℕ) :
    System dialogSig DialogParty Unit DialogShared Empty where
  prog
    | .session _ invite => (handleInvite cfg C n invite).inl
    | .bye m => (handleBye m).inr
    | .reInvite m => (handleReInvite m).inr
    | .refer m => (handleRefer m).inr
    | .notify m => (handleNotify m).inr
    | .ack m => (onAck m).inr
    | .watch session transaction => (watchPendingReInvite session transaction).inr
  spawns := DialogParty.started
  perform sh x e r sh' := handleDialog cfg.mailboxSize.toNat sh x e r = some sh'
  env _ l _ := l.elim

abbrev DialogState := System.State dialogSig DialogParty Unit DialogShared
abbrev DialogLabel := System.Label dialogSig DialogParty Empty
abbrev DialogThread := Thread dialogSig DialogParty Unit

end AixvolinkPbx.B2bua
