import AixvolinkPbx.Registration.Memory

/-!
# The registration store on MySQL (`internal/platform/mysql/store.go`)

The table `registrations` is a list of rows with the primary key `registration_id` and the unique key of
tenant, address of record and hash of the contact. Statements and transactions run one after another.
The hash, the text of an address and the rows the columns can hold belong to other software and are
parameters (`Database`).
-/

namespace AixvolinkPbx.Registration

/-- A row of `registrations`; `H` are the hashes of contacts, `T` the texts of addresses. -/
structure Row (H T : Type) where
  registrationID : String
  tenantID : String
  aor : String
  contact : String
  contactHash : H
  routeTarget : String
  transport : Transport
  receivedIP : T
  receivedPort : UInt16
  userAgent : String
  q : Q
  expiresAt : ℤ
  updatedAt : ℤ

structure Database (H T : Type) where
  hash : String → H
  addrText : Addr → T
  parseAddr : T → Option Addr
  holds : Row H T → Bool

/-- What is assumed of the database and of `net/netip`: contact hashes do not collide, and the text of
a valid address denotes it. -/
structure Database.Sound {H T : Type} (D : Database H T) : Prop where
  hash_injective : Function.Injective D.hash
  parse_text : ∀ a : Addr, a.isValid = true → D.parseAddr (D.addrText a) = some a

namespace Database

variable {H T : Type} [DecidableEq H] (D : Database H T)

def row (b : Binding) : Row H T where
  registrationID := b.id
  tenantID := b.tenantID
  aor := b.aor
  contact := b.contact
  contactHash := D.hash b.contact
  routeTarget := b.routeTarget
  transport := b.transport
  receivedIP := D.addrText b.received.addr
  receivedPort := b.received.port
  userAgent := b.userAgent
  q := b.q
  expiresAt := b.expiresAt
  updatedAt := b.updatedAt

/-- The columns of `ON DUPLICATE KEY UPDATE`. -/
def update (values old : Row H T) : Row H T :=
  { values with
    tenantID := old.tenantID
    aor := old.aor
    contact := old.contact
    contactHash := old.contactHash }

def samePrimary (values r : Row H T) : Bool := r.registrationID = values.registrationID

def sameUnique (values r : Row H T) : Bool :=
  r.tenantID = values.tenantID && r.aor = values.aor && r.contactHash = values.contactHash

/-- `INSERT … ON DUPLICATE KEY UPDATE`: one row that has a key of the new one is updated. -/
def insertRow (rows : List (Row H T)) (values : Row H T) : List (Row H T) :=
  ((updateFirst (samePrimary values) (update values) rows).or
    (updateFirst (sameUnique values) (update values) rows)).getD (rows ++ [values])

/-- The condition of the queries for active bindings. -/
def active (tenantID aor : String) (now : ℤ) (r : Row H T) : Bool :=
  r.tenantID = tenantID && r.aor = aor && now < r.expiresAt

/-- The rows the transaction of `Upsert` locks. -/
def locked (rows : List (Row H T)) (binding : Binding) : List (Row H T) :=
  rows.filter (active binding.tenantID binding.aor binding.updatedAt)

def upsert (rows : List (Row H T)) (binding : Binding) (maxBindings : ℤ) :
    Except StoreError Unit × List (Row H T) :=
  let activeCount := (locked rows binding).length
  let contactExists := (locked rows binding).any fun r => r.contact = binding.contact
  if !contactExists ∧ maxBindings ≤ activeCount then (.error .bindingLimit, rows)
  else if D.holds (D.row binding) then (.ok (), insertRow rows (D.row binding))
  else (.error .database, rows)

def delete (rows : List (Row H T)) (tenantID aor contact : String) : List (Row H T) :=
  rows.filter fun r => !(r.tenantID = tenantID && r.aor = aor && r.contact = contact)

def deleteAll (rows : List (Row H T)) (tenantID aor : String) : List (Row H T) :=
  rows.filter fun r => !(r.tenantID = tenantID && r.aor = aor)

/-- A row as `ListActive` reads it. -/
def scan (r : Row H T) : Except StoreError Binding :=
  match D.parseAddr r.receivedIP with
  | none => .error .database
  | some address => .ok
    ⟨r.registrationID, r.tenantID, r.aor, r.contact, r.routeTarget, r.transport,
      ⟨address, r.receivedPort⟩, r.userAgent, r.q, r.expiresAt, r.updatedAt⟩

def listActive (rows : List (Row H T)) (tenantID aor : String) (now : ℤ) :
    Except StoreError (List Binding) :=
  (rows.filter (active tenantID aor now)).mapM D.scan

def deleteExpired (rows : List (Row H T)) (now : ℤ) : ℕ × List (Row H T) :=
  (rows.countP fun r => r.expiresAt ≤ now, rows.filter fun r => !(r.expiresAt ≤ now))

def call (rows : List (Row H T)) : StoreCall → StoreResult × List (Row H T)
  | .upsert binding maxBindings =>
    (.done (D.upsert rows binding maxBindings).1, (D.upsert rows binding maxBindings).2)
  | .delete tenantID aor contact => (.done (.ok ()), delete rows tenantID aor contact)
  | .deleteAll tenantID aor => (.done (.ok ()), deleteAll rows tenantID aor)
  | .listActive tenantID aor now => (.listed (D.listActive rows tenantID aor now), rows)
  | .deleteExpired now => (.count (deleteExpired rows now).1, (deleteExpired rows now).2)

def run : List (Row H T) → List StoreCall → List StoreResult
  | _, [] => []
  | rows, c :: calls => (D.call rows c).1 :: run (D.call rows c).2 calls

def after (rows : List (Row H T)) (calls : List StoreCall) : List (Row H T) :=
  calls.foldl (fun rows c => (D.call rows c).2) rows

end Database

end AixvolinkPbx.Registration
