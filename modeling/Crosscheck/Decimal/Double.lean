namespace Crosscheck.Decimal

/-- A binary floating point number of 53 significant bits: a sign and the magnitude
`mant * 2 ^ exp`, an infinity, or no number. -/
inductive Double where
  | finite (negative : Bool) (mant : Nat) (exp : Int)
  | infinite (negative : Bool)
  | nan
  deriving DecidableEq, Repr

namespace Double

def leastExp : Int := -1074

def greatestExp : Int := 971

/-- `num / den` to the nearest natural number, a half going to the even neighbour. -/
def roundDiv (num den : Nat) : Nat :=
  let q := num / den
  let r := num % den
  if 2 * r < den then q
  else if 2 * r = den then q + q % 2
  else q + 1

def roundAt (num den : Nat) (e : Int) : Nat :=
  if 0 ≤ e then roundDiv num (den * Nat.pow 2 e.toNat) else roundDiv (num * Nat.pow 2 (-e).toNat) den

/-- The exponent at which `num / den` has 53 bits before the point, or the least one. -/
def exponentFor (num den : Nat) : Int :=
  let e : Int := (num.log2 : Int) - (den.log2 : Int) - 53
  let wide := if 0 ≤ e then num ≥ den * Nat.pow 2 e.toNat * Nat.pow 2 53
    else num * Nat.pow 2 (-e).toNat ≥ den * Nat.pow 2 53
  max leastExp (if wide then e + 1 else e)

/-- The double nearest to `num / den`, ties to even; magnitudes past the greatest one are
infinite. -/
def nearest (negative : Bool) (num den : Nat) : Double :=
  if num = 0 then .finite negative 0 leastExp
  else
    let e := exponentFor num den
    let m := roundAt num den e
    let (m, e) := if m = Nat.pow 2 53 then (Nat.pow 2 52, e + 1) else (m, e)
    if e > greatestExp then .infinite negative else .finite negative m e

def ofDecimal (negative : Bool) (digits : Nat) (exp10 : Int) : Double :=
  let size : Int := (Nat.toDigits 10 digits).length + exp10
  if digits = 0 ∨ size < -400 then .finite negative 0 leastExp
  else if size > 400 then .infinite negative
  else if 0 ≤ exp10 then nearest negative (digits * Nat.pow 10 exp10.toNat) 1
  else nearest negative digits (Nat.pow 10 (-exp10).toNat)

def ofInt (i : Int) : Double := nearest (i < 0) i.natAbs 1

def isZero : Double → Bool
  | .finite _ m _ => m = 0
  | _ => false

def isFinite : Double → Bool
  | .finite .. => true
  | _ => false

def wholePart (mant : Nat) (exp : Int) : Nat :=
  if 0 ≤ exp then mant * Nat.pow 2 exp.toNat else mant / Nat.pow 2 (-exp).toNat

/-- The number with its fraction dropped; what does not fit 64 bits is the least integer. -/
def toInt64 : Double → Int64
  | .finite negative m e =>
    let n := wholePart m e
    let i : Int := if negative then -n else n
    if -(Nat.pow 2 63 : Int) ≤ i ∧ i < (Nat.pow 2 63 : Int) then Int64.ofInt i else Int64.minValue
  | _ => Int64.minValue

end Double

end Crosscheck.Decimal
