import AixvolinkPbx.Lib.Prog
import AixvolinkPbx.Registration.Memory

/-!
# The registration manager (`internal/core/registration/manager.go`)

The manager turns registration requests into calls of its store. Its clock, the generator of binding IDs
and the store are its operations; a call of the store has no answer when its context has ended.
-/

namespace AixvolinkPbx.Registration

/-! ## Operations -/

inductive ManagerOp
  | now
  | newV7
  | store (call : StoreCall)
  deriving DecidableEq

/-- An ID is missing when its generation fails. -/
abbrev managerSig : Sig where
  Op := ManagerOp
  Ans
    | .now => ℤ
    | .newV7 => Option String
    | .store _ => Option StoreResult

abbrev managerOp (e : ManagerOp) : Prog managerSig (managerSig.Ans e) := .call (S := managerSig) e

/-! ## The functions -/

structure Request where
  tenantID : String
  aor : String
  contact : String
  routeTarget : String
  transport : Transport
  received : AddrPort
  userAgent : String
  q : Q
  expires : ℤ
  maxBindings : ℤ
  deriving DecidableEq, Repr

inductive ManagerError
  | negativeExpires
  | maxBindings
  | received
  | newV7
  | validate (err : ValidateError)
  | store (err : StoreError)
  | context
  | notFound
  deriving DecidableEq, Repr

def update (call : StoreCall) : Prog managerSig (Except ManagerError Unit) := do
  match ← managerOp (.store call) with
  | some (.done (.ok ())) => return .ok ()
  | some (.done (.error err)) => return .error (.store err)
  | _ => return .error .context

def Request.binding (request : Request) (id : String) (now : ℤ) : Binding where
  id := id
  tenantID := request.tenantID
  aor := request.aor
  contact := request.contact
  routeTarget := request.routeTarget
  transport := request.transport
  received := request.received
  userAgent := request.userAgent
  q := request.q
  expiresAt := now + request.expires
  updatedAt := now

/-- `Apply`; a removal returns no binding. -/
def apply (request : Request) : Prog managerSig (Except ManagerError (Option Binding)) := do
  if request.expires < 0 then return .error .negativeExpires
  else if request.expires = 0 then
    let call :=
      if request.contact = "*" then StoreCall.deleteAll request.tenantID request.aor
      else .delete request.tenantID request.aor request.contact
    return (← update call).map fun _ => none
  else if request.maxBindings ≤ 0 then return .error .maxBindings
  else
    let now ← managerOp .now
    if !request.received.isValid then return .error .received
    match ← managerOp .newV7 with
    | none => return .error .newV7
    | some id =>
      let binding := request.binding id now
      match binding.validate now with
      | .error err => return .error (.validate err)
      | .ok () => return (← update (.upsert binding request.maxBindings)).map fun _ => some binding

def list (tenantID aor : String) : Prog managerSig (Except ManagerError (List Binding)) := do
  let now ← managerOp .now
  match ← managerOp (.store (.listActive tenantID aor now)) with
  | some (.listed (.ok bindings)) => return .ok bindings
  | some (.listed (.error err)) => return .error (.store err)
  | _ => return .error .context

/-- The order of `Resolve`: by falling preference, then by falling time. -/
def compareBindings (left right : Binding) : ℤ :=
  if right.q.lt left.q then -1
  else if left.q.lt right.q then 1
  else if right.updatedAt < left.updatedAt then -1
  else if left.updatedAt < right.updatedAt then 1
  else 0

/-- `Resolve`; `sort` is `slices.SortFunc`. -/
def resolve (sort : (Binding → Binding → ℤ) → List Binding → List Binding) (tenantID aor : String) :
    Prog managerSig (Except ManagerError Binding) := do
  match ← list tenantID aor with
  | .error err => return .error err
  | .ok bindings =>
    match sort compareBindings bindings with
    | [] => return .error .notFound
    | binding :: _ => return .ok binding

def expire : Prog managerSig (Except ManagerError ℕ) := do
  let now ← managerOp .now
  match ← managerOp (.store (.deleteExpired now)) with
  | some (.count deleted) => return .ok deleted
  | _ => return .error .context

end AixvolinkPbx.Registration
