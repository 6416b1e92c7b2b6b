import Crosscheck.Text.Digits

namespace Crosscheck.Yaml

structure Timestamp where
  year : Nat
  month : Nat
  day : Nat
  hour : Nat := 0
  minute : Nat := 0
  second : Nat := 0
  fraction : List Char := []
  offset : Int := 0
  deriving DecidableEq, Repr

namespace Timestamp

def isLeap (year : Nat) : Bool := year % 4 = 0 && (year % 100 ≠ 0 || year % 400 = 0)

def daysIn (year month : Nat) : Nat :=
  if month = 2 then (if isLeap year then 29 else 28)
  else if month = 4 ∨ month = 6 ∨ month = 9 ∨ month = 11 then 30
  else 31

def number? : List Char → Option (Nat × List Char)
  | a :: b :: rest =>
    if b.isDigit then (Text.value? 10 [a, b]).map (·, rest)
    else (Text.value? 10 [a]).map (·, b :: rest)
  | [a] => (Text.value? 10 [a]).map (·, [])
  | [] => none

def expect? (c : Char) : List Char → Option (List Char)
  | x :: rest => if x = c then some rest else none
  | [] => none

def date? (cs : List Char) : Option (Timestamp × List Char) := do
  let year ← Text.value? 10 (cs.take 4)
  if cs.length < 4 then none
  let rest ← expect? '-' (cs.drop 4)
  let (month, rest) ← number? rest
  let rest ← expect? '-' rest
  let (day, rest) ← number? rest
  if 1 ≤ month ∧ month ≤ 12 ∧ 1 ≤ day ∧ day ≤ daysIn year month then
    some ({ year, month, day }, rest)
  else none

def fractionDigits (cs : List Char) : List Char × List Char :=
  match cs with
  | p :: d :: rest =>
    if (p = '.' ∨ p = ',') ∧ d.isDigit then
      ((d :: rest).takeWhile Char.isDigit, (d :: rest).dropWhile Char.isDigit)
    else ([], cs)
  | _ => ([], cs)

def time? (t : Timestamp) (cs : List Char) : Option (Timestamp × List Char) := do
  let (hour, rest) ← number? cs
  let rest ← expect? ':' rest
  let (minute, rest) ← number? rest
  let rest ← expect? ':' rest
  let (second, rest) ← number? rest
  if hour < 24 ∧ minute < 60 ∧ second < 60 then
    let (digits, rest) := fractionDigits rest
    some ({ t with hour, minute, second, fraction := digits.take 9 }, rest)
  else none

/-- A zone is the letter `Z`, or hours and minutes with a sign. -/
def zone? : List Char → Option (Int × List Char)
  | 'Z' :: rest => some (0, rest)
  | s :: h₁ :: h₂ :: ':' :: m₁ :: m₂ :: rest => do
    let h ← Text.value? 10 [h₁, h₂]
    let m ← Text.value? 10 [m₁, m₂]
    if 24 < h ∨ 60 < m then none
    else if s = '+' then some (((h * 60 + m : Nat) : Int), rest)
    else if s = '-' then some (-((h * 60 + m : Nat) : Int), rest)
    else none
  | _ => none

/-- The date alone, the date and the time after a space, or both around a `T` with a zone. -/
def read? (cs : List Char) : Option Timestamp := do
  if (cs.takeWhile Char.isDigit).length ≠ 4 then none
  let (t, rest) ← date? cs
  match rest with
  | [] => some t
  | ' ' :: rest =>
    let (t, rest) ← time? t rest
    if rest.isEmpty then some t else none
  | c :: rest =>
    if c = 'T' ∨ c = 't' then
      let (t, rest) ← time? t rest
      let (offset, rest) ← zone? rest
      if rest.isEmpty then some { t with offset } else none
    else none

def two (n : Nat) : String := String.ofList (Text.padded 10 2 n)

def render (t : Timestamp) : String :=
  let frac := (t.fraction.reverse.dropWhile (· = '0')).reverse
  let minutes := t.offset.natAbs
  let offset := (if t.offset < 0 then "-" else "+") ++ two (minutes / 60) ++ two (minutes % 60)
  String.ofList (Text.padded 10 4 t.year) ++ "-" ++ two t.month ++ "-" ++ two t.day ++ " " ++
    two t.hour ++ ":" ++ two t.minute ++ ":" ++ two t.second ++
    (if frac.isEmpty then "" else "." ++ String.ofList frac) ++ " " ++ offset ++ " " ++
    (if t.offset = 0 then "UTC" else offset)

end Timestamp

end Crosscheck.Yaml
