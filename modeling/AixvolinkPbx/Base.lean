import Mathlib.Algebra.Order.Ring.Int

/-!
# Times and network addresses

The values of the Go standard library the components exchange. A `time.Time` is an integer, the
nanoseconds since the Unix epoch, and a `time.Duration` one as well; addresses are those of
`net/netip`.
-/

namespace AixvolinkPbx

namespace Time

def second : ℤ := 1000000000

theorem second_eq : second = 1000000000 := rfl

def minute : ℤ := 60 * second

/-- The zero `time.Time`: January 1, year 1. -/
def zero : ℤ := -62135596800 * second

def unix (seconds : ℤ) : ℤ := seconds * second

end Time

def int64OfUint64 (value : ℕ) : ℤ := Int.bmod value (2 ^ 64)

inductive Addr
  | invalid
  | v4 (bits : BitVec 32)
  | v6 (bits : BitVec 128) (zone : String)
  deriving DecidableEq, Repr

namespace Addr

def isValid : Addr → Bool
  | .invalid => false
  | _ => true

def isUnspecified (a : Addr) : Bool := a = .v4 0 || a = .v6 0 ""

def is6 : Addr → Bool
  | .v6 _ _ => true
  | _ => false

end Addr

structure AddrPort where
  addr : Addr
  port : UInt16
  deriving DecidableEq, Repr

def AddrPort.isValid (a : AddrPort) : Bool := a.addr.isValid

end AixvolinkPbx
