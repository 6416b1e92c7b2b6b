import Crosscheck.Decimal.Double
import Crosscheck.Text.Digits

namespace Crosscheck.Decimal

/-- Decimal digits with the point in front of them, moved `point` places to the right. -/
structure Digits where
  digits : List Char
  point : Int
  deriving DecidableEq, Repr

/-- The reals that round to `mant * 2 ^ exp`, over the common denominator `den`: their least and
greatest bounds, which belong to them when the significand is even. -/
structure Reach where
  low : Nat
  mid : Nat
  high : Nat
  den : Nat
  closed : Bool

def Reach.of (mant : Nat) (exp : Int) : Reach :=
  let below := if mant = Nat.pow 2 52 ∧ exp > Double.leastExp then 1 else 2
  let scale := if 0 ≤ exp then Nat.pow 2 exp.toNat else 1
  { low := (4 * mant - below) * scale
    mid := 4 * mant * scale
    high := (4 * mant + 2) * scale
    den := 4 * if 0 ≤ exp then 1 else Nat.pow 2 (-exp).toNat
    closed := mant % 2 = 0 }

def Reach.holds (r : Reach) (n unitNum unitDen : Nat) : Bool :=
  let x := n * unitNum * r.den
  if r.closed then r.low * unitDen ≤ x && x ≤ r.high * unitDen
  else r.low * unitDen < x && x < r.high * unitDen

def Reach.nearestMultiple? (r : Reach) (unitNum unitDen : Nat) : Option Nat :=
  let num := r.mid * unitDen
  let den := r.den * unitNum
  let q := num / den
  let rest := num % den
  let down := r.holds q unitNum unitDen
  let up := r.holds (q + 1) unitNum unitDen
  if down && up then some (if 2 * rest ≤ den then q else q + 1)
  else if down then some q
  else if up then some (q + 1)
  else none

def magnitudeFrom (num den : Nat) : Nat → Int → Int
  | 0, p => p
  | fuel + 1, p =>
    let fits := if 0 ≤ p then num < den * Nat.pow 10 p.toNat else num * Nat.pow 10 (-p).toNat < den
    if fits then p else magnitudeFrom num den fuel (p + 1)

/-- The number of digits before the point of `num / den`, negative if zeros follow the point. -/
def magnitude (num den : Nat) : Int :=
  let bits : Int := (num.log2 : Int) - (den.log2 : Int)
  magnitudeFrom num den 4 ((bits - 1) * 30103 / 100000 - 1)

def shortestFrom (r : Reach) (p : Int) : Nat → Nat → Nat × Int
  | 0, count => (0, p - count)
  | fuel + 1, count =>
    let place := p - count
    let unitNum := if 0 ≤ place then Nat.pow 10 place.toNat else 1
    let unitDen := if 0 ≤ place then 1 else Nat.pow 10 (-place).toNat
    match r.nearestMultiple? unitNum unitDen with
    | some n => (n, place)
    | none => shortestFrom r p fuel (count + 1)

def dropTrailingZeros (cs : List Char) : List Char :=
  (cs.reverse.dropWhile (· == '0')).reverse

/-- The fewest digits that read back as `mant * 2 ^ exp`, and of those the nearest. -/
def shortest (mant : Nat) (exp : Int) : Digits :=
  if mant = 0 then ⟨[], 0⟩
  else
    let r := Reach.of mant exp
    let (n, place) := shortestFrom r (magnitude r.mid r.den) 17 1
    let ds := Nat.toDigits 10 n
    ⟨dropTrailingZeros ds, ds.length + place⟩

def Digits.positional (d : Digits) : List Char :=
  let whole :=
    if 0 < d.point then
      let k := d.point.toNat
      d.digits.take k ++ List.replicate (k - d.digits.length) '0'
    else ['0']
  let fraction :=
    if 0 < d.point then d.digits.drop d.point.toNat
    else if d.digits.isEmpty then []
    else List.replicate (-d.point).toNat '0' ++ d.digits
  if fraction.isEmpty then whole else whole ++ '.' :: fraction

def Digits.scientific (d : Digits) : List Char :=
  let first := d.digits.headD '0'
  let rest := d.digits.tail
  let e : Int := if d.digits.isEmpty then 0 else d.point - 1
  let mark := if e < 0 then '-' else '+'
  let mantissa := if rest.isEmpty then [first] else first :: '.' :: rest
  mantissa ++ 'e' :: mark :: Text.padded 10 2 e.natAbs

def signed (negative : Bool) (cs : List Char) : List Char := if negative then '-' :: cs else cs

def written (write : Digits → List Char) : Double → String
  | .nan => "NaN"
  | .infinite false => "+Inf"
  | .infinite true => "-Inf"
  | .finite negative m e => String.ofList (signed negative (write (shortest m e)))

def positional : Double → String := written Digits.positional

/-- The shortest text, with an exponent for more than six digits before the point or more than
three zeros after it. -/
def general : Double → String :=
  written fun d =>
    let e : Int := if d.digits.isEmpty then 0 else d.point - 1
    if e < -4 ∨ 6 ≤ e then d.scientific else d.positional

/-- Reads digits with an optional point among them: their value, how many stand after the point,
and what follows. -/
def readMantissa (cs : List Char) : Option (Nat × Nat × List Char) :=
  let whole := cs.takeWhile Char.isDigit
  let rest := cs.dropWhile Char.isDigit
  let (fraction, rest) := match rest with
    | '.' :: tail => (tail.takeWhile Char.isDigit, tail.dropWhile Char.isDigit)
    | _ => ([], rest)
  match Text.value? 10 (whole ++ fraction) with
  | some n => some (n, fraction.length, rest)
  | none => none

def readExponent : List Char → Option Int
  | [] => some 0
  | c :: rest =>
    if c = 'e' ∨ c = 'E' then
      let (negative, ds) := Text.unsign rest
      (Text.value? 10 ds).map fun n => if negative then -(n : Int) else n
    else none

def read? (cs : List Char) : Option Double :=
  let (negative, rest) := Text.unsign cs
  match readMantissa rest with
  | none => none
  | some (n, places, tail) =>
    match readExponent tail with
    | none => none
    | some e => some (Double.ofDecimal negative n (e - places))

end Crosscheck.Decimal
