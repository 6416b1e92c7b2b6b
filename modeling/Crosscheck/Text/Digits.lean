namespace Crosscheck.Text

def padded (base width n : Nat) : List Char := (Nat.toDigits base n).leftpad width '0'

def hex (width n : Nat) : List Char := padded 16 width n

def digitValue? (c : Char) : Option Nat :=
  if c.isDigit then some (c.toNat - '0'.toNat)
  else if 'a' ≤ c ∧ c ≤ 'z' then some (c.toNat - 'a'.toNat + 10)
  else if 'A' ≤ c ∧ c ≤ 'Z' then some (c.toNat - 'A'.toNat + 10)
  else none

def digitIn? (base : Nat) (c : Char) : Option Nat :=
  match digitValue? c with
  | some d => if d < base then some d else none
  | none => none

def valueFrom? (base acc : Nat) : List Char → Option Nat
  | [] => some acc
  | c :: rest =>
    match digitIn? base c with
    | some d => valueFrom? base (acc * base + d) rest
    | none => none

def value? (base : Nat) (cs : List Char) : Option Nat :=
  if cs.isEmpty then none else valueFrom? base 0 cs

def unsign : List Char → Bool × List Char
  | '-' :: rest => (true, rest)
  | '+' :: rest => (false, rest)
  | cs => (false, cs)

def signedInRange (negative : Bool) (n : Nat) : Option Int64 :=
  if negative then
    if n ≤ Nat.pow 2 63 then some (Int64.ofInt (-n)) else none
  else if n < Nat.pow 2 63 then some (Int64.ofInt n) else none

def int64? (cs : List Char) : Option Int64 :=
  let (negative, rest) := unsign cs
  match value? 10 rest with
  | some n => signedInRange negative n
  | none => none

def int (i : Int) : List Char :=
  if i < 0 then '-' :: Nat.toDigits 10 i.natAbs else Nat.toDigits 10 i.natAbs

end Crosscheck.Text
