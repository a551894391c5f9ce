import AixvolinkPbx.Lib.Interp
import AixvolinkPbx.Media.Endpoint
import AixvolinkPbx.Media.Portalloc

/-!
# Making, running and closing media sessions (`internal/media/session/session.go`)

`New` takes two leases from the pool, one after the other, and gives them back when a later step fails.
`Close` releases both leases in a `sync.Once`; `Run` calls it once its packet loops have ended. The
functions are programs over the operations of the pool, those on sessions, and those of a signature `E`
that is left open: programs of other packages that call `New` and `Close` run in the same system.
-/

namespace AixvolinkPbx.Factory

open Media (Leg)
open Portalloc (AcquireError Lease Once PoolOp Pool acquire poolSig release)

/-! ## Operations -/

/-- A session: its number stands for the pointer, its leases never change. -/
structure MediaSession where
  id : ℕ
  caller : Lease
  callee : Lease
  deriving DecidableEq, Repr

/-- `LocalEndpoint`: the advertised RTP and RTCP addresses that face a leg. -/
def MediaSession.localEndpoint (advertisedIP : Addr) (m : MediaSession) : Leg → AddrPort × AddrPort
  | .caller => (⟨advertisedIP, m.caller.rtpPort⟩, ⟨advertisedIP, m.caller.rtcpPort⟩)
  | .callee => (⟨advertisedIP, m.callee.rtpPort⟩, ⟨advertisedIP, m.callee.rtcpPort⟩)

/-- What `group.Wait` returns. -/
inductive GroupResult
  | ok
  | canceled
  | closed
  | failed
  deriving DecidableEq, Repr

/-- The errors of `Run`: the session is not configured, or those of the packet loops and of `Close`,
joined. -/
inductive RunError
  | notConfigured
  | joined (group close : Bool)
  deriving DecidableEq, Repr

inductive SessionOp
  -- the call of `New` and its return, which do nothing
  | newCalled
  | newReturned (m : Option MediaSession)
  -- random numbers
  | newRewriter
  | newV7
  | make (caller callee : Lease)
  -- `Run`: the two ends of `runOnce.Do`, and what is inside
  | runEnter (m : MediaSession)
  | isConfigured (m : MediaSession)
  | groupWait (m : MediaSession)
  | storeRunErr (m : MediaSession) (err : Option RunError)
  | runExit (m : MediaSession)
  | loadRunErr (m : MediaSession)
  -- `Close`: the two ends of `closeOnce.Do`, and closing the channel
  | closeEnter (m : MediaSession)
  | closeDone (m : MediaSession)
  | closeExit (m : MediaSession)
  deriving DecidableEq, Repr

abbrev sessionSig : Sig where
  Op := SessionOp
  Ans
    | .newRewriter => Bool
    | .newV7 => Bool
    | .make _ _ => ℕ
    | .runEnter _ => Bool
    | .isConfigured _ => Bool
    | .groupWait _ => GroupResult
    | .loadRunErr _ => Option RunError
    | .closeEnter _ => Bool
    | _ => Unit

/-- The operations of the pool, on sessions, and of other packages. -/
abbrev leaseSig (E : Sig) : Sig := poolSig.sum (sessionSig.sum E)

variable {E : Sig}

abbrev pooled {α : Type} (p : Prog poolSig α) : Prog (leaseSig E) α := p.inl

abbrev op (e : SessionOp) : Prog (leaseSig E) (sessionSig.Ans e) :=
  .call (S := leaseSig E) (.inr (.inl e))

/-! ## The functions -/

inductive NewError
  | callerPorts (err : AcquireError)
  | calleePorts (err : AcquireError)
  | rewriter
  | mediaID
  deriving DecidableEq, Repr

/-- Both leases are given back. -/
def giveUp (bindIP : Addr) (caller callee : Lease) : Prog (leaseSig E) Unit := do
  let _ ← pooled (release bindIP caller)
  let _ ← pooled (release bindIP callee)

def new (pool : Pool) : Prog (leaseSig E) (Except NewError MediaSession) := do
  match ← pooled (acquire pool) with
  | .error err => return .error (.callerPorts err)
  | .ok caller =>
    match ← pooled (acquire pool) with
    | .error err =>
      let _ ← pooled (release pool.bindIP caller)
      return .error (.calleePorts err)
    | .ok callee =>
      if !(← op .newRewriter) then
        giveUp pool.bindIP caller callee
        return .error .rewriter
      if !(← op .newRewriter) then
        giveUp pool.bindIP caller callee
        return .error .rewriter
      if !(← op .newV7) then
        giveUp pool.bindIP caller callee
        return .error .mediaID
      let id ← op (.make caller callee)
      return .ok ⟨id, caller, callee⟩

/-- A call of `New`, from its beginning to its return. -/
def callNew (pool : Pool) : Prog (leaseSig E) (Except NewError MediaSession) := do
  op .newCalled
  let result ← new pool
  op (.newReturned result.toOption)
  return result

/-- `Session.Close`; false is an error. -/
def close (bindIP : Addr) (m : MediaSession) : Prog (leaseSig E) Bool := do
  if !(← op (.closeEnter m)) then return true
  let callerClosed ← pooled (release bindIP m.caller)
  let calleeClosed ← pooled (release bindIP m.callee)
  op (.closeDone m)
  op (.closeExit m)
  return callerClosed && calleeClosed

/-- `errors.Join` of the error of the packet loops and that of `Close`. -/
def joinErrors (group : GroupResult) (closed : Bool) : Option RunError :=
  let groupFailed : Bool := group = .failed
  if groupFailed || !closed then some (.joined groupFailed !closed) else none

def runBody (bindIP : Addr) (m : MediaSession) : Prog (leaseSig E) (Option RunError) := do
  if !(← op (.isConfigured m)) then return some .notConfigured
  let group ← op (.groupWait m)
  let closed ← close bindIP m
  return joinErrors group closed

def run (bindIP : Addr) (m : MediaSession) : Prog (leaseSig E) (Option RunError) := do
  if ← op (.runEnter m) then
    let err ← runBody bindIP m
    op (.storeRunErr m err)
    op (.runExit m)
    op (.loadRunErr m)
  else op (.loadRunErr m)

/-! ## The calls on one factory -/

/-- The fields of a session that change here, and its leases. -/
structure SessionState where
  caller : Lease
  callee : Lease
  runOnce : Once
  runErr : Option RunError
  closeOnce : Once
  done : Bool
  deriving DecidableEq, Repr

/-- The pool, and all sessions ever made. -/
structure Shared where
  pool : Portalloc.Shared
  sessions : List SessionState

def initial (pool : Pool) : Shared := ⟨pool.initial, []⟩

def Shared.setSession (sh : Shared) (m : MediaSession) (f : SessionState → SessionState) : Shared :=
  { sh with sessions := sh.sessions.modify m.id f }

/-- Entering a `sync.Once` of a session: the first call runs the function, later ones wait for it. -/
def enters (once : SessionState → Once) (start : SessionState → SessionState) (sh : Shared)
    (m : MediaSession) (r : Bool) (sh' : Shared) : Prop :=
  match (sh.sessions[m.id]?).map once with
  | some .idle => r = true ∧ sh' = sh.setSession m start
  | some .done => r = false ∧ sh' = sh
  | _ => False

def performSession (sh : Shared) : (e : SessionOp) → sessionSig.Ans e → Shared → Prop
  | .make caller callee, id, sh' => id = sh.sessions.length ∧
    sh' = { sh with sessions := sh.sessions ++ [⟨caller, callee, .idle, none, .idle, false⟩] }
  | .runEnter m, r, sh' =>
    enters SessionState.runOnce (fun s => { s with runOnce := .running }) sh m r sh'
  | .storeRunErr m err, _, sh' => sh' = sh.setSession m fun s => { s with runErr := err }
  | .runExit m, _, sh' => sh' = sh.setSession m fun s => { s with runOnce := .done }
  | .loadRunErr m, r, sh' => r = (sh.sessions[m.id]?).bind SessionState.runErr ∧ sh' = sh
  | .closeEnter m, r, sh' =>
    enters SessionState.closeOnce (fun s => { s with closeOnce := .running }) sh m r sh'
  | .closeDone m, _, sh' => sh' = sh.setSession m fun s => { s with done := true }
  | .closeExit m, _, sh' => sh' = sh.setSession m fun s => { s with closeOnce := .done }
  | _, _, sh' => sh' = sh

/-- How an operation answers and what it changes; other packages answer as they like. -/
def perform (capacity : ℕ) (sh : Shared) : (e : (leaseSig E).Op) → (leaseSig E).Ans e → Shared → Prop
  | .inl e, r, sh' =>
    Portalloc.perform capacity sh.pool e r sh'.pool ∧ sh'.sessions = sh.sessions
  | .inr (.inl e), r, sh' => performSession sh e r sh'
  | .inr (.inr _), _, sh' => sh' = sh

/-- The calls: the functions of this package, and programs of others. -/
inductive Call (X : Type)
  | new
  | run (m : MediaSession)
  | close (m : MediaSession)
  | client (x : X)

inductive Outcome
  | made (result : Except NewError MediaSession)
  | ran (err : Option RunError)
  | closed (ok : Bool)
  | finished

/-- The session of this pointer, with its leases. -/
def Shared.has (sh : Shared) (m : MediaSession) : Prop :=
  ∃ s, sh.sessions[m.id]? = some s ∧ s.caller = m.caller ∧ s.callee = m.callee

/-- Calls on one factory: `Run` and `Close` may be called on any session there is, any number of times. -/
def factorySystem {X : Type} (pool : Pool) (client : X → Prog (leaseSig E) Unit) :
    System (leaseSig E) (Call X) Outcome Shared Empty where
  prog
    | .new => do
      let result ← callNew pool
      return .made result
    | .run m => do
      let err ← run pool.bindIP m
      return .ran err
    | .close m => do
      let ok ← close pool.bindIP m
      return .closed ok
    | .client x => do
      client x
      return .finished
  spawns sh
    | .new => True
    | .run m => sh.has m
    | .close m => sh.has m
    | .client _ => True
  perform sh _ := perform pool.capacity sh
  env _ l _ := nomatch l

end AixvolinkPbx.Factory
