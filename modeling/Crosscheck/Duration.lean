import Crosscheck.Decimal.Double
import Crosscheck.Text.Digits

namespace Crosscheck

structure Duration where
  ns : Int64
  deriving DecidableEq, Repr, Inhabited

namespace Duration

def zero : Duration := ⟨0⟩

def ofNat (n : Nat) : Duration := ⟨Int64.ofInt n⟩

def nanosecond : Nat := 1

def microsecond : Nat := 1000

def millisecond : Nat := 1000000

def second : Nat := 1000000000

def minute : Nat := 60 * second

def hour : Nat := 60 * minute

def toInt (d : Duration) : Int := d.ns.toInt

def isPositive (d : Duration) : Bool := 0 < d.ns

def dropZeros (cs : List Char) : List Char := (cs.reverse.dropWhile (· == '0')).reverse

def mixed (n places : Nat) : List Char :=
  let fraction := dropZeros (Text.padded 10 places (n % Nat.pow 10 places))
  let whole := Nat.toDigits 10 (n / Nat.pow 10 places)
  if fraction.isEmpty then whole else whole ++ '.' :: fraction

/-- A length of time: below a second in the largest unit of which there is at least one, else
in seconds with minutes in front from one minute on and hours from one hour on. -/
def magnitudeText (n : Nat) : List Char :=
  if n = 0 then ['0', 's']
  else if n < microsecond then Nat.toDigits 10 n ++ ['n', 's']
  else if n < millisecond then mixed n 3 ++ ['µ', 's']
  else if n < second then mixed n 6 ++ ['m', 's']
  else
    let seconds := mixed (n % minute) 9 ++ ['s']
    if n < minute then seconds
    else if n < hour then Nat.toDigits 10 (n / minute) ++ 'm' :: seconds
    else Nat.toDigits 10 (n / hour) ++ 'h' :: Nat.toDigits 10 (n / minute % 60) ++ 'm' :: seconds

def chars (d : Duration) : List Char :=
  if d.toInt < 0 then '-' :: magnitudeText d.toInt.natAbs else magnitudeText d.toInt.natAbs

def render (d : Duration) : String := String.ofList d.chars

inductive Fault where
  | invalid
  | missingUnit
  | unknownUnit (name : String)
  deriving DecidableEq, Repr

/-- Text between double quotes, where every byte of what is not printable ASCII is escaped. -/
def quotedBytes (s : String) : String :=
  let one (c : Char) : List Char :=
    if c.toNat < 0x20 ∨ 0x80 ≤ c.toNat then
      (String.singleton c).toUTF8.toList.flatMap fun b => '\\' :: 'x' :: Text.hex 2 b.toNat
    else if c = '"' ∨ c = '\\' then ['\\', c]
    else [c]
  String.ofList ('"' :: s.toList.flatMap one ++ ['"'])

def Fault.message (text : String) : Fault → String
  | .invalid => "time: invalid duration " ++ quotedBytes text
  | .missingUnit => "time: missing unit in duration " ++ quotedBytes text
  | .unknownUnit u =>
    "time: unknown unit " ++ quotedBytes u ++ " in duration " ++ quotedBytes text

def unit? (cs : List Char) : Option Nat :=
  match String.ofList cs with
  | "ns" => some nanosecond
  | "us" => some microsecond
  | "µs" => some microsecond
  | "μs" => some microsecond
  | "ms" => some millisecond
  | "s" => some second
  | "m" => some minute
  | "h" => some hour
  | _ => none

def isNumberChar (c : Char) : Bool := c = '.' || c.isDigit

def runs : List Char → List (Bool × List Char)
  | [] => []
  | c :: rest =>
    match runs rest with
    | (kind, run) :: more =>
      if kind = isNumberChar c then (kind, c :: run) :: more
      else (isNumberChar c, [c]) :: (kind, run) :: more
    | [] => [(isNumberChar c, [c])]

/-- The digits of a fraction as a number over a power of ten; digits are dropped from the first
on that would take the number past `2 ^ 63`. -/
def fractionFrom (value scale : Nat) : List Char → Nat × Nat
  | [] => (value, scale)
  | c :: rest =>
    let next := value * 10 + (c.toNat - '0'.toNat)
    if next > Nat.pow 2 63 then (value, scale) else fractionFrom next (scale * 10) rest

structure Amount where
  whole : Nat
  part : Nat
  scale : Nat

def amount (run : List Char) : Except Fault Amount :=
  let digits := run.takeWhile Char.isDigit
  let rest := run.dropWhile Char.isDigit
  let whole := (Text.value? 10 digits).getD 0
  if whole > Nat.pow 2 63 then .error .invalid
  else
    match rest with
    | [] => .ok ⟨whole, 0, 1⟩
    | _ :: tail =>
      let after := tail.takeWhile Char.isDigit
      if digits.isEmpty && after.isEmpty then .error .invalid
      else if (tail.dropWhile Char.isDigit).isEmpty then
        let (part, scale) := fractionFrom 0 1 after
        .ok ⟨whole, part, scale⟩
      else .error .missingUnit

/-- `part / scale` units with the fraction dropped, computed in binary floating point. -/
def fractionOf (part scale unit : Nat) : Nat :=
  match Decimal.Double.nearest false part 1, Decimal.Double.nearest false unit scale with
  | .finite _ m e, .finite _ m' e' =>
    let exp := e + e'
    let product :=
      if 0 ≤ exp then Decimal.Double.nearest false (m * m' * Nat.pow 2 exp.toNat) 1
      else Decimal.Double.nearest false (m * m') (Nat.pow 2 (-exp).toNat)
    match product with
    | .finite _ m e => Decimal.Double.wholePart m e
    | _ => 0
  | _, _ => 0

def Amount.times (a : Amount) (unit : Nat) : Except Fault Nat :=
  if a.whole > Nat.pow 2 63 / unit then .error .invalid
  else
    let n := a.whole * unit + (if a.part = 0 then 0 else fractionOf a.part a.scale unit)
    if n > Nat.pow 2 63 then .error .invalid else .ok n

def total (sum : Nat) : List (Bool × List Char) → Except Fault Nat
  | [] => .ok sum
  | (false, _) :: _ => .error .invalid
  | (true, run) :: rest =>
    match amount run with
    | .error e => .error e
    | .ok a =>
      match rest with
      | [] => .error .missingUnit
      | (_, name) :: more =>
        match unit? name with
        | none => .error (.unknownUnit (String.ofList name))
        | some unit =>
          match a.times unit with
          | .error e => .error e
          | .ok n =>
            let next := (sum + n) % Nat.pow 2 64
            if next > Nat.pow 2 63 then .error .invalid else total next more

def parseChars (cs : List Char) : Except Fault Duration :=
  let (negative, rest) := Text.unsign cs
  if rest = ['0'] then .ok zero
  else if rest.isEmpty then .error .invalid
  else
    match total 0 (runs rest) with
    | .error e => .error e
    | .ok n =>
      match Text.signedInRange negative n with
      | some ns => .ok ⟨ns⟩
      | none => .error .invalid

/-- Reads a sum of decimal amounts, each with its unit, and a sign in front of all. -/
def parse (s : String) : Except Fault Duration := parseChars s.toList

end Duration

end Crosscheck
