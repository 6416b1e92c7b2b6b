import Crosscheck.Yaml.Fault

namespace Crosscheck.Yaml

def isBlank (c : Char) : Bool := c = ' ' || c = '\t'

def isBreak (c : Char) : Bool :=
  c = '\n' || c = '\r' || c.toNat = 0x85 || c.toNat = 0x2028 || c.toNat = 0x2029

def isWordChar (c : Char) : Bool := c.isAlphanum || c = '_' || c = '-'

def isAllowed (n : Nat) : Bool :=
  n = 0x09 || n = 0x0a || n = 0x0d || (0x20 ≤ n && n ≤ 0x7e) || n = 0x85 ||
    (0xa0 ≤ n && n ≤ 0xd7ff) || (0xe000 ≤ n && n ≤ 0xfffd) || (0x10000 ≤ n && n ≤ 0x10ffff)

def octetCount (b : UInt8) : Nat :=
  if b < 0x80 then 1
  else if b &&& 0xe0 = 0xc0 then 2
  else if b &&& 0xf0 = 0xe0 then 3
  else if b &&& 0xf8 = 0xf0 then 4
  else 0

def leadingBits (count : Nat) (b : UInt8) : Nat :=
  match count with
  | 1 => b.toNat
  | 2 => b.toNat % 32
  | 3 => b.toNat % 16
  | _ => b.toNat % 8

def octetsChar (count : Nat) (lead : UInt8) (tail : List UInt8) : Except Problem Char :=
  if tail.length + 1 < count then .error .incompleteOctets
  else if tail.any fun b => b &&& 0xc0 ≠ 0x80 then .error .trailingOctet
  else
    let n := tail.foldl (fun acc b => acc * 64 + b.toNat % 64) (leadingBits count lead)
    if (count = 2 ∧ n < 0x80) ∨ (count = 3 ∧ n < 0x800) ∨ (count = 4 ∧ n < 0x10000) then
      .error .overlongOctets
    else if (0xd800 ≤ n ∧ n ≤ 0xdfff) ∨ 0x10ffff < n then .error .badCharacter
    else if isAllowed n then .ok (Char.ofNat n)
    else .error .controlCharacter

def charsAfter (acc : List Char) : Nat → List UInt8 → Except Problem (List Char)
  | _, [] => .ok acc.reverse
  | skip + 1, _ :: rest => charsAfter acc skip rest
  | 0, b :: rest =>
    let count := octetCount b
    if count = 0 then .error .leadingOctet
    else
      match octetsChar count b (rest.take (count - 1)) with
      | .ok c => charsAfter (c :: acc) (count - 1) rest
      | .error p => .error p

def byteOrderMark : Char := Char.ofNat 0xfeff

def charsOf (bytes : ByteArray) : Except Fault (List Char) :=
  match charsAfter [] 0 bytes.toList with
  | .error p => .error (.malformed none p)
  | .ok cs => .ok (if cs.head? = some byteOrderMark then cs.tail else cs)

/-- What is left of a text, and where. A line is fresh while it holds blanks only. -/
structure Cursor where
  rest : List Char
  mark : Mark := {}
  fresh : Bool := false

namespace Cursor

def peek (c : Cursor) (n : Nat) : Option Char := c.rest[n]?

def sees (c : Cursor) (n : Nat) (x : Char) : Bool := c.peek n == some x

def atEnd (c : Cursor) : Bool := c.rest.isEmpty

def blankAt (c : Cursor) (n : Nat) : Bool := (c.peek n).any isBlank

def breakAt (c : Cursor) (n : Nat) : Bool := (c.peek n).any isBreak

def lineEndAt (c : Cursor) (n : Nat) : Bool := (c.peek n).all isBreak

def gapAt (c : Cursor) (n : Nat) : Bool := (c.peek n).all fun x => isBlank x || isBreak x

def skip (c : Cursor) (n : Nat) : Cursor where
  rest := c.rest.drop n
  mark := { c.mark with index := c.mark.index + n, column := c.mark.column + n }
  fresh := c.fresh && (c.rest.take n).all isBlank

def span (c : Cursor) (p : Char → Bool) : List Char × Cursor :=
  let found := c.rest.takeWhile p
  (found, c.skip found.length)

def skipWhile (c : Cursor) (p : Char → Bool) : Cursor := (c.span p).2

def nextLine (c : Cursor) (n : Nat) : Cursor where
  rest := c.rest.drop n
  mark := ⟨c.mark.index + n, c.mark.line + 1, 0⟩
  fresh := true

/-- Reads a line break. All kinds are read as one, but for the two that only separate. -/
def lineBreak (c : Cursor) : List Char × Cursor :=
  match c.rest with
  | '\r' :: '\n' :: _ => (['\n'], c.nextLine 2)
  | x :: _ =>
    if x.toNat = 0x2028 ∨ x.toNat = 0x2029 then ([x], c.nextLine 1)
    else if isBreak x then (['\n'], c.nextLine 1)
    else ([], c)
  | [] => ([], c)

def skipLine (c : Cursor) : Cursor := c.lineBreak.2

/-- Three hyphens or three dots at the start of a line, with a gap after them. -/
def atDocumentMark (c : Cursor) (x : Char) : Bool :=
  c.mark.column = 0 && c.sees 0 x && c.sees 1 x && c.sees 2 x && c.gapAt 3

def atDocumentEdge (c : Cursor) : Bool := c.atDocumentMark '-' || c.atDocumentMark '.'

end Cursor

abbrev Step (α : Type) := Cursor → Except Fault (α × Cursor)

end Crosscheck.Yaml
