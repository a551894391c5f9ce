import AixvolinkPbx.Base
import Mathlib.Algebra.Order.Field.Rat

/-!
# Registration bindings (`internal/core/registration/binding.go`)

A binding is one routable contact of an address of record. Tenants, addresses of record, contacts and
route targets are texts.
-/

namespace AixvolinkPbx.Registration

/-- `Transport`, a text: the two named transports and every other text. -/
inductive Transport
  | udp
  | tcp
  | other (text : String)
  deriving DecidableEq, Repr

def Transport.text : Transport → String
  | .udp => "udp"
  | .tcp => "tcp"
  | .other text => text

/-- A preference value: a number, or the NaN for which every comparison is false. -/
inductive Q
  | nan
  | num (q : ℚ)
  deriving DecidableEq, Repr

def Q.lt : Q → Q → Bool
  | .num a, .num b => a < b
  | _, _ => false

structure Binding where
  id : String
  tenantID : String
  aor : String
  contact : String
  routeTarget : String
  transport : Transport
  received : AddrPort
  userAgent : String
  q : Q
  expiresAt : ℤ
  updatedAt : ℤ
  deriving DecidableEq, Repr

inductive ValidateError
  | id
  | tenantID
  | aor
  | contact
  | routeTarget
  | transport (text : String)
  | received
  | q
  | expiresAt
  | updatedAt
  deriving DecidableEq, Repr

/-- `Validate`, its checks in their order. -/
def Binding.validate (b : Binding) (now : ℤ) : Except ValidateError Unit :=
  if b.id = "" then .error .id
  else if b.tenantID = "" then .error .tenantID
  else if b.aor = "" then .error .aor
  else if b.contact = "" then .error .contact
  else if b.routeTarget = "" then .error .routeTarget
  else if b.transport ≠ .udp ∧ b.transport ≠ .tcp then .error (.transport b.transport.text)
  else if !b.received.isValid then .error .received
  else if b.q.lt (.num 0) || (Q.num 1).lt b.q then .error .q
  else if ¬ now < b.expiresAt then .error .expiresAt
  else if b.updatedAt = Time.zero then .error .updatedAt
  else .ok ()

end AixvolinkPbx.Registration
