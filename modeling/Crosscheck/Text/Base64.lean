namespace Crosscheck.Text

def sextet? (c : Char) : Option Nat :=
  if 'A' ≤ c ∧ c ≤ 'Z' then some (c.toNat - 'A'.toNat)
  else if 'a' ≤ c ∧ c ≤ 'z' then some (c.toNat - 'a'.toNat + 26)
  else if c.isDigit then some (c.toNat - '0'.toNat + 52)
  else if c = '+' then some 62
  else if c = '/' then some 63
  else none

/-- Three octets for each group of four characters; the last group may be filled up with equals
signs. -/
def base64Groups (acc : List UInt8) : List Char → Option (List UInt8)
  | [] => some acc.reverse
  | [a, b, '=', '='] => do
    let n := (← sextet? a) * 64 + (← sextet? b)
    some ((n / 16).toUInt8 :: acc).reverse
  | [a, b, c, '='] => do
    let n := ((← sextet? a) * 64 + (← sextet? b)) * 64 + (← sextet? c)
    some ((n / 4).toUInt8 :: (n / 1024).toUInt8 :: acc).reverse
  | a :: b :: c :: d :: rest =>
    match sextet? a, sextet? b, sextet? c, sextet? d with
    | some a, some b, some c, some d =>
      let n := ((a * 64 + b) * 64 + c) * 64 + d
      base64Groups (n.toUInt8 :: (n / 256).toUInt8 :: (n / 65536).toUInt8 :: acc) rest
    | _, _, _, _ => none
  | _ => none

def base64? (cs : List Char) : Option ByteArray :=
  (base64Groups [] (cs.filter fun c => c ≠ '\r' ∧ c ≠ '\n')).map fun bs => ByteArray.mk bs.toArray

end Crosscheck.Text
