import AixvolinkPbx.Lib.Table
import AixvolinkPbx.Registration.Binding

/-!
# The registration store (`internal/core/registration/manager.go`, `internal/platform/memory`)

The operations of a registration store, and the store in memory: a map from tenant, address of record
and contact to bindings. Contexts are live.
-/

namespace AixvolinkPbx.Registration

inductive StoreError
  | bindingLimit
  | database
  deriving DecidableEq, Repr

/-- The calls of the `Store` interface. -/
inductive StoreCall
  | upsert (binding : Binding) (maxBindings : ℤ)
  | delete (tenantID aor contact : String)
  | deleteAll (tenantID aor : String)
  | listActive (tenantID aor : String) (now : ℤ)
  | deleteExpired (now : ℤ)
  deriving DecidableEq, Repr

inductive StoreResult
  | done (result : Except StoreError Unit)
  | listed (result : Except StoreError (List Binding))
  | count (deleted : ℕ)
  deriving DecidableEq

/-- The same result; the order in which bindings are listed does not count. -/
def StoreResult.Same : StoreResult → StoreResult → Prop
  | .done r, .done r' => r = r'
  | .listed (.ok bindings), .listed (.ok bindings') => bindings.Perm bindings'
  | .listed (.error e), .listed (.error e') => e = e'
  | .count n, .count n' => n = n'
  | _, _ => False

theorem StoreResult.Same.refl (result : StoreResult) : result.Same result := by
  match result with
  | .done _ => rfl
  | .listed (.ok _) => exact List.Perm.refl _
  | .listed (.error _) => rfl
  | .count _ => rfl

def StoreCall.time : StoreCall → Option ℤ
  | .upsert binding _ => some binding.updatedAt
  | .listActive _ _ now => some now
  | .deleteExpired now => some now
  | _ => none

structure BindingKey where
  tenantID : String
  aor : String
  contact : String
  deriving DecidableEq, Repr

def Binding.key (b : Binding) : BindingKey := ⟨b.tenantID, b.aor, b.contact⟩

/-- The address of record is this one, and the binding has not expired. -/
def Binding.activeFor (b : Binding) (tenantID aor : String) (now : ℤ) : Bool :=
  b.tenantID = tenantID && b.aor = aor && now < b.expiresAt

abbrev MemoryStore := Table BindingKey Binding

namespace MemoryStore

/-- The entry belongs to the address of record, and its binding has not expired. -/
def active (tenantID aor : String) (now : ℤ) (key : BindingKey) (stored : Binding) : Bool :=
  key.tenantID = tenantID && key.aor = aor && now < stored.expiresAt

def activeCount (s : MemoryStore) (tenantID aor : String) (now : ℤ) : ℕ :=
  s.entries.countP fun e => active tenantID aor now e.1 e.2

def upsert (s : MemoryStore) (binding : Binding) (maxBindings : ℤ) :
    Except StoreError Unit × MemoryStore :=
  if (s.lookup binding.key).isNone ∧
      maxBindings ≤ s.activeCount binding.tenantID binding.aor binding.updatedAt then
    (.error .bindingLimit, s)
  else (.ok (), s.insert binding.key binding)

def delete (s : MemoryStore) (tenantID aor contact : String) : MemoryStore :=
  s.erase ⟨tenantID, aor, contact⟩

def deleteAll (s : MemoryStore) (tenantID aor : String) : MemoryStore :=
  s.deleteIf fun key _ => key.tenantID = tenantID && key.aor = aor

def listActive (s : MemoryStore) (tenantID aor : String) (now : ℤ) : List Binding :=
  (s.entries.filter fun e => active tenantID aor now e.1 e.2).map Sigma.snd

def deleteExpired (s : MemoryStore) (now : ℤ) : ℕ × MemoryStore :=
  let expired (_ : BindingKey) (b : Binding) : Bool := !(now < b.expiresAt)
  (s.entries.countP fun e => expired e.1 e.2, s.deleteIf expired)

def call (s : MemoryStore) : StoreCall → StoreResult × MemoryStore
  | .upsert binding maxBindings =>
    (.done (s.upsert binding maxBindings).1, (s.upsert binding maxBindings).2)
  | .delete tenantID aor contact => (.done (.ok ()), s.delete tenantID aor contact)
  | .deleteAll tenantID aor => (.done (.ok ()), s.deleteAll tenantID aor)
  | .listActive tenantID aor now => (.listed (.ok (s.listActive tenantID aor now)), s)
  | .deleteExpired now => (.count (s.deleteExpired now).1, (s.deleteExpired now).2)

def run : MemoryStore → List StoreCall → List StoreResult
  | _, [] => []
  | s, c :: calls => (s.call c).1 :: run (s.call c).2 calls

def after (s : MemoryStore) (calls : List StoreCall) : MemoryStore :=
  calls.foldl (fun s c => (s.call c).2) s

end MemoryStore

end AixvolinkPbx.Registration
