import MujinClient.Text
import MujinClient.Binary64

/-! What `operator<<` of a C++ stream in its default notation prints for a double:
the shorter of fixed and scientific notation, without trailing zeros. And what the fixed
notation of `boost::format` prints. -/
namespace MujinClient

/-- A positive `n / d` rounded to `precision` digits, ties to even, as the digits and
the decimal exponent of the first one. -/
def roundDecimal (precision n d : Nat) : Nat × Int :=
  let guess : Int := (Nat.log 10 n : Int) - Nat.log 10 d
  -- the power of ten at or below n / d is `guess` or the one under it
  let exponent := if n * 10 ^ (-guess).toNat < d * 10 ^ guess.toNat then guess - 1 else guess
  let shift := exponent - (precision - 1)
  let num := n * 10 ^ (-shift).toNat
  let den := d * 10 ^ shift.toNat
  let down := num / den
  let rest := num % den
  let digits := if den < 2 * rest ∨ (2 * rest = den ∧ down % 2 = 1) then down + 1 else down
  if digits = 10 ^ precision then (10 ^ (precision - 1), exponent + 1) else (digits, exponent)

def trimZeros (t : Text) : Text := (t.reverse.dropWhile (· = digit 0)).reverse

/-- The point is dropped with the last zero after it. -/
def pointed (whole fraction : Text) : Text :=
  if trimZeros fraction = [] then whole else whole ++ byte '.' :: trimZeros fraction

def exponentText (x : Int) : Text :=
  byte 'e' :: (if x < 0 then byte '-' else byte '+') ::
    (if x.natAbs < 10 then digit 0 :: natText x.natAbs else natText x.natAbs)

def printMagnitude (precision n d : Nat) : Text :=
  if n = 0 then [digit 0] else
  let (digits, exponent) := roundDecimal precision n d
  let text := natText digits
  if exponent < -4 ∨ precision ≤ exponent then
    pointed (text.take 1) (text.drop 1) ++ exponentText exponent
  else if exponent < 0 then pointed [digit 0] (List.replicate (-exponent - 1).toNat (digit 0) ++ text)
  else pointed (text.take (exponent.toNat + 1)) (text.drop (exponent.toNat + 1))

/-- `std::setprecision(precision) << d`. -/
def printDouble (precision : Nat) : Double → Text
  | .nan => lit "nan"
  | .infinite negative => if negative then lit "-inf" else lit "inf"
  | .finite x =>
    let magnitude := printMagnitude precision (x.mantissa * 2 ^ x.exponent.toNat) (2 ^ (-x.exponent).toNat)
    if x.negative then byte '-' :: magnitude else magnitude

example : printDouble 6 (Double.ofDecimal true 25 (-1)) = lit "-2.5" ∧
    printDouble 16 (Double.ofDecimal false 1 (-5)) = lit "1e-05" ∧
    printDouble 6 (Double.ofInt 100000) = lit "100000" ∧
    printDouble 6 (Double.ofInt 1000000) = lit "1e+06" := by
  decide +kernel

def padded (width n : Nat) : Text := List.replicate (width - (natText n).length) (digit 0) ++ natText n

/-- `n / d` with `precision` digits after the point, ties to even. -/
def fixedMagnitude (precision n d : Nat) : Text :=
  let num := n * 10 ^ precision
  let down := num / d
  let rest := num % d
  let digits := if d < 2 * rest ∨ (2 * rest = d ∧ down % 2 = 1) then down + 1 else down
  natText (digits / 10 ^ precision) ++ byte '.' :: padded precision (digits % 10 ^ precision)

/-- `%.nf`, where `n` is the precision. -/
def printFixed (precision : Nat) : Double → Text
  | .nan => lit "nan"
  | .infinite negative => if negative then lit "-inf" else lit "inf"
  | .finite x =>
    let magnitude := fixedMagnitude precision (x.mantissa * 2 ^ x.exponent.toNat) (2 ^ (-x.exponent).toNat)
    if x.negative then byte '-' :: magnitude else magnitude

example : printFixed 6 (Double.ofDecimal true 25 (-1)) = lit "-2.500000" := by
  decide +kernel

end MujinClient
