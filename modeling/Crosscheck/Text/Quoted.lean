import Crosscheck.Text.Utf8
import Crosscheck.Text.Printable
import Crosscheck.Text.Digits

namespace Crosscheck.Text

def shortEscape? (c : Char) : Option Char :=
  match c.toNat with
  | 7 => some 'a'
  | 8 => some 'b'
  | 9 => some 't'
  | 10 => some 'n'
  | 11 => some 'v'
  | 12 => some 'f'
  | 13 => some 'r'
  | _ => none

def numericEscape (n : Nat) : List Char :=
  if n < 0x20 ∨ n = 0x7f then '\\' :: 'x' :: hex 2 n
  else if n < 0x10000 then '\\' :: 'u' :: hex 4 n
  else '\\' :: 'U' :: hex 8 n

/-- A character between quotes `q`: printable ones stand for themselves, unless only ASCII is
allowed and they lie beyond it. -/
def escaped (q : Char) (asciiOnly : Bool) (c : Char) : List Char :=
  if c = q ∨ c = '\\' then ['\\', c]
  else if isPrintable c ∧ (asciiOnly = false ∨ c.toNat < 0x80) then [c]
  else match shortEscape? c with
    | some e => ['\\', e]
    | none => numericEscape c.toNat

def Piece.escaped (q : Char) (asciiOnly : Bool) : Piece → List Char
  | .char c => Text.escaped q asciiOnly c
  | .stray b => '\\' :: 'x' :: hex 2 b.toNat

def quotedWith (q : Char) (asciiOnly : Bool) (ps : List Piece) : List Char :=
  q :: ps.flatMap (·.escaped q asciiOnly) ++ [q]

def quoted (s : String) : String := String.ofList (quotedWith '"' false (piecesOf s))

/-- Text may stand between backquotes if it has no backquote, control character or byte order
mark, the tab apart. -/
def canBackquote (s : String) : Bool :=
  s.toList.all fun c =>
    (c = '\t' || 0x20 ≤ c.toNat) && c != '\x60' && c.toNat != 0x7f && c.toNat != 0xfeff

end Crosscheck.Text
