namespace Crosscheck.Text

/-- A piece of a byte string read as UTF-8: a character, or a byte that belongs to none. -/
inductive Piece where
  | char (c : Char)
  | stray (b : UInt8)
  deriving DecidableEq, Repr

def isContinuation (b : UInt8) : Bool := 0x80 ≤ b && b ≤ 0xbf

def tailBits (b : UInt8) : Nat := b.toNat % 64

/-- The character that starts with the byte `b`, and how many of the following bytes it takes.
Overlong forms, surrogates and code points past the last plane are no characters. -/
def leading? (b : UInt8) (rest : List UInt8) : Option (Char × Nat) :=
  if b < 0x80 then some (Char.ofNat b.toNat, 0)
  else if b < 0xc2 then none
  else if b < 0xe0 then
    match rest with
    | x :: _ =>
      if isContinuation x then some (Char.ofNat ((b.toNat % 32) * 64 + tailBits x), 1) else none
    | _ => none
  else if b < 0xf0 then
    match rest with
    | x :: y :: _ =>
      if isContinuation x && isContinuation y && (b != 0xe0 || 0xa0 ≤ x) && (b != 0xed || x ≤ 0x9f)
      then some (Char.ofNat ((b.toNat % 16) * 4096 + tailBits x * 64 + tailBits y), 2) else none
    | _ => none
  else if b < 0xf5 then
    match rest with
    | x :: y :: z :: _ =>
      if isContinuation x && isContinuation y && isContinuation z
          && (b != 0xf0 || 0x90 ≤ x) && (b != 0xf4 || x ≤ 0x8f)
      then some (Char.ofNat ((b.toNat % 8) * 262144 + tailBits x * 4096 + tailBits y * 64
        + tailBits z), 3) else none
    | _ => none
  else none

/-- Reads the bytes after the first `skip`, in front of the pieces found so far, last first. -/
def piecesAfter (acc : List Piece) : Nat → List UInt8 → List Piece
  | _, [] => acc.reverse
  | skip + 1, _ :: rest => piecesAfter acc skip rest
  | 0, b :: rest =>
    match leading? b rest with
    | some (c, n) => piecesAfter (.char c :: acc) n rest
    | none => piecesAfter (.stray b :: acc) 0 rest

def pieces (bytes : ByteArray) : List Piece := piecesAfter [] 0 bytes.toList

def piecesOf (s : String) : List Piece := s.toList.map .char

def Piece.toChar : Piece → Char
  | .char c => c
  | .stray _ => Char.ofNat 0xfffd

end Crosscheck.Text
