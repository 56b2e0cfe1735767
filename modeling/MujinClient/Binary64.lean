import Mathlib

/-! IEEE 754 binary64, the representation of the C++ type `double`. Only the
operations the client performs on doubles are defined; not-a-number has no payload. -/
namespace MujinClient

/-- Mantissa and exponent of a finite double: 53 bits, normal unless the exponent is least. -/
def Canonical (mantissa : Nat) (exponent : Int) : Prop :=
  mantissa < 2 ^ 53 ∧ -1074 ≤ exponent ∧ exponent ≤ 971 ∧ (2 ^ 52 ≤ mantissa ∨ exponent = -1074)

instance : Decidable (Canonical mantissa exponent) := by
  unfold Canonical; infer_instance

/-- The value is `mantissa * 2 ^ exponent`, negated where `negative` is set. -/
structure Finite64 where
  negative : Bool
  mantissa : Nat
  exponent : Int
  canonical : Canonical mantissa exponent
  deriving DecidableEq

inductive Double where
  | nan
  | infinite (negative : Bool)
  | finite (x : Finite64)
  deriving DecidableEq

namespace Double

def isNan : Double → Bool
  | .nan => true
  | _ => false

def isFinite : Double → Bool
  | .finite _ => true
  | _ => false

def zero : Double := .finite ⟨false, 0, -1074, by decide⟩

instance : Inhabited Double := ⟨zero⟩

/-- Beyond the largest exponent a value overflows to an infinity. -/
def pack (negative : Bool) (mantissa : Nat) (exponent : Int) : Double :=
  if h : Canonical mantissa exponent then .finite ⟨negative, mantissa, exponent, h⟩
  else .infinite negative

/-- The double nearest to `n / d`, ties to the even mantissa. -/
def nearest (negative : Bool) (n d : Nat) : Double :=
  if n = 0 then pack negative 0 (-1074) else
  let guess : Int := (Nat.log2 n : Int) - Nat.log2 d
  -- the power of two at or below n / d is `guess` or the one under it
  let power := if n * 2 ^ (-guess).toNat < d * 2 ^ guess.toNat then guess - 1 else guess
  let exponent := max (-1074) (power - 52)
  let num := n * 2 ^ (-exponent).toNat
  let den := d * 2 ^ exponent.toNat
  let down := num / den
  let rest := num % den
  let mantissa := if den < 2 * rest ∨ (2 * rest = den ∧ down % 2 = 1) then down + 1 else down
  if mantissa = 2 ^ 53 then pack negative (2 ^ 52) (exponent + 1) else pack negative mantissa exponent

def ofInt (z : Int) : Double := nearest (z < 0) z.natAbs 1

def ofDecimal (negative : Bool) (digits : Nat) (exponent : Int) : Double :=
  nearest negative (digits * 10 ^ exponent.toNat) (10 ^ (-exponent).toNat)

def mul : Double → Double → Double
  | .finite x, .finite y =>
    let e := x.exponent + y.exponent
    nearest (x.negative != y.negative) (x.mantissa * y.mantissa * 2 ^ e.toNat) (2 ^ (-e).toNat)
  | .infinite s, .infinite t => .infinite (s != t)
  | .infinite s, .finite x | .finite x, .infinite s =>
    if x.mantissa = 0 then .nan else .infinite (s != x.negative)
  | .nan, _ | _, .nan => .nan

/-- The value as an integer multiple of `2 ^ exponent`, for an exponent not above its own. -/
def scaled (x : Finite64) (exponent : Int) : Int :=
  (if x.negative then -1 else 1) * (x.mantissa * 2 ^ (x.exponent - exponent).toNat : Nat)

/-- The comparison `<=`: false as soon as one side is not a number. -/
def le : Double → Double → Bool
  | .nan, _ | _, .nan => false
  | .infinite true, _ | _, .infinite false => true
  | .infinite false, _ | _, .infinite true => false
  | .finite x, .finite y =>
    let e := min x.exponent y.exponent
    scaled x e ≤ scaled y e

def lt (a b : Double) : Bool := le a b && !le b a

/-- `a >= b && a <= b`, the test `a == b` of IEEE doubles. -/
def equal (a b : Double) : Bool := le b a && le a b

theorem le_refl (a : Double) (number : a.isNan = false) : le a a = true := by
  cases a with
  | nan => simp [isNan] at number
  | infinite negative => cases negative <;> rfl
  | finite x => simp [le]

theorem equal_refl (a : Double) (number : a.isNan = false) : equal a a = true := by
  simp [equal, le_refl a number]

/-- The integer part, where the value has one that fits in 64 unsigned bits. -/
def toUInt64? : Double → Option Nat
  | .finite x =>
    let magnitude := x.mantissa * 2 ^ x.exponent.toNat / 2 ^ (-x.exponent).toNat
    if (x.negative && magnitude != 0) || 2 ^ 64 ≤ magnitude then none else some magnitude
  | _ => none

example : mul (ofInt 5) (ofInt 1000) = ofInt 5000 ∧ lt (ofInt 5000) (ofInt 5001) = true := by
  decide +kernel

end Double
end MujinClient
