import Crosscheck.Yaml.Cursor
import Crosscheck.Yaml.Scalar

/-!
Settings are written as yaml.v3 (3.0.1) writes them with an indentation of two: maps and lists in block
style, text plain where it is read back as the same text, between quotes otherwise, and as a literal
block where it has several lines. What readers of YAML 1.1 would take for a truth value or a number to
the base sixty is put between quotes as well.
-/

namespace Crosscheck.Yaml

open Settings (Value Fields)

def isWritable (c : Char) : Bool :=
  let n := c.toNat
  n = 0x0a || (0x20 ≤ n && n ≤ 0x7e) || (0xa0 ≤ n && n ≤ 0xd7ff) ||
    (0xe000 ≤ n && n ≤ 0xfffd && n != 0xfeff)

def isOldBool (s : String) : Bool :=
  ["y", "Y", "yes", "Yes", "YES", "on", "On", "ON",
    "n", "N", "no", "No", "NO", "off", "Off", "OFF"].contains s

def isSixtiesTail : List Char → Bool
  | [] => true
  | ':' :: a :: b :: rest =>
    if b.isDigit then '0' ≤ a && a ≤ '5' && isSixtiesTail rest
    else a.isDigit && isSixtiesTail (b :: rest)
  | [':', a] => a.isDigit
  | '.' :: rest => rest.all fun c => c.isDigit || c = '_'
  | _ => false

def isSixties (cs : List Char) : Bool :=
  match (Text.unsign cs).2 with
  | d :: rest =>
    let tail := rest.dropWhile fun c => c.isDigit || c = '_'
    d.isDigit && tail.head? = some ':' && isSixtiesTail tail
  | [] => false

def readsAsText (s : String) : Bool :=
  (resolve true s).1 = Tag.str && !isSixties s.toList && !isOldBool s

def follows (p q : Char → Bool) (cs : List Char) : Bool :=
  (cs.zip cs.tail).any fun (a, b) => p a && q b

def isSpace (c : Char) : Bool := c = ' '

def endsAsKey (cs : List Char) : Bool :=
  follows (· = ':') isBlank cs || cs.getLast? = some ':'

def startsWithMark : List Char → Bool
  | [] => false
  | c :: rest =>
    "#,[]\x7b\x7d&*!|>'\"%@\x60".toList.contains c ||
      ((c = '?' || c = ':' || c = '-') && (rest.head?).all isBlank)

def hasBlockMarks (cs : List Char) : Bool :=
  "---".toList.isPrefixOf cs || "...".toList.isPrefixOf cs || startsWithMark cs || endsAsKey cs ||
    follows (fun a => isBlank a || isBreak a) (· = '#') cs

def edgesAre (p : Char → Bool) (cs : List Char) : Bool := cs.head?.any p || cs.getLast?.any p

def allowsSingleQuotes (cs : List Char) : Bool :=
  !follows isBreak isSpace cs && !follows isSpace isBreak cs &&
    cs.all fun c => c != '\t' && isWritable c

def allowsPlain (cs : List Char) : Bool :=
  allowsSingleQuotes cs && !edgesAre isSpace cs && !cs.any isBreak && !hasBlockMarks cs

def allowsBlock (cs : List Char) : Bool :=
  !follows isSpace isBreak cs && !cs.getLast?.any isSpace &&
    cs.all fun c => c = '\t' || isWritable c

inductive WrittenStyle where
  | plain
  | single
  | double
  | literal
  deriving DecidableEq, Repr

/-- Text with line breaks is a block where it can be one. Other text is plain if that is read
back as the same text. -/
def writtenStyle (s : String) : WrittenStyle :=
  let cs := s.toList
  if cs.contains '\n' then (if allowsBlock cs then .literal else .double)
  else if !readsAsText s then .double
  else if allowsPlain cs then .plain
  else if allowsSingleQuotes cs then .single
  else .double

def upperHex (width n : Nat) : List Char := (Text.hex width n).map Char.toUpper

def escapedForm (c : Char) : List Char :=
  match c.toNat with
  | 0x00 => ['0']
  | 0x07 => ['a']
  | 0x08 => ['b']
  | 0x09 => ['t']
  | 0x0a => ['n']
  | 0x0b => ['v']
  | 0x0c => ['f']
  | 0x0d => ['r']
  | 0x1b => ['e']
  | 0x22 => ['"']
  | 0x5c => ['\\']
  | 0x85 => ['N']
  | 0xa0 => ['_']
  | 0x2028 => ['L']
  | 0x2029 => ['P']
  | n =>
    if n ≤ 0xff then 'x' :: upperHex 2 n
    else if n ≤ 0xffff then 'u' :: upperHex 4 n
    else 'U' :: upperHex 8 n

/-- Text between double quotes. After a byte order mark at its start every character is
escaped. -/
def doubleQuoted (cs : List Char) : List Char :=
  let marked := cs.head? = some byteOrderMark
  let body := cs.flatMap fun c =>
    if marked || !isWritable c || isBreak c || c = '"' || c = '\\' then '\\' :: escapedForm c
    else [c]
  '"' :: body ++ ['"']

def pad (n : Nat) : List Char := List.replicate n ' '

def indentedAfterBreaks (indent : Nat) : Bool → List Char → List Char
  | _, [] => []
  | fresh, c :: rest =>
    if isBreak c then c :: indentedAfterBreaks indent true rest
    else if fresh then pad indent ++ c :: indentedAfterBreaks indent false rest
    else c :: indentedAfterBreaks indent false rest

def singleQuoted (indent : Nat) (cs : List Char) : List Char :=
  let doubled := cs.flatMap fun c => if c = '\'' then ['\'', '\''] else [c]
  '\'' :: indentedAfterBreaks indent false doubled ++ ['\'']

def chompMark (cs : List Char) : List Char :=
  match cs.reverse with
  | [] => ['-']
  | last :: before =>
    if !isBreak last then ['-']
    else
      match before with
      | [] => ['+']
      | c :: _ => if isBreak c then ['+'] else []

def indentStep : Nat := 2

/-- A block of lines. It begins on the line after its mark, unless it starts with a line break of
its own, and ends its last line. -/
def literalBlock (indent : Nat) (cs : List Char) : List Char :=
  let startsBlank := cs.head?.any fun c => isSpace c || isBreak c
  let digit := if startsBlank then Nat.toDigits 10 indentStep else []
  let opening := if cs.head?.any isBreak then [] else ['\n']
  let closing := if cs.getLast?.any isBreak then [] else ['\n']
  '|' :: digit ++ chompMark cs ++ opening ++ indentedAfterBreaks indent true cs ++ closing

def writtenText (indent : Nat) (s : String) : List Char :=
  let cs := s.toList
  match writtenStyle s with
  | .plain => cs ++ ['\n']
  | .single => singleQuoted indent cs ++ ['\n']
  | .double => doubleQuoted cs ++ ['\n']
  | .literal => literalBlock indent cs

def writtenScalar (indent : Nat) : Value → List Char
  | .text s => writtenText indent s
  | .null => "null\n".toList
  | v => v.plainText.toList ++ ['\n']

mutual

def writtenAfterKey (indent : Nat) : Value → List Char
  | .list [] => " []\n".toList
  | .list items => '\n' :: writtenItems (indent + indentStep) items
  | .map [] => " \x7b\x7d\n".toList
  | .map fields => '\n' :: writtenFields (indent + indentStep) true fields
  | v => ' ' :: writtenScalar (indent + indentStep) v

def writtenItems (indent : Nat) : List Value → List Char
  | [] => []
  | v :: rest => pad indent ++ '-' :: writtenItem indent v ++ writtenItems indent rest

def writtenItem (indent : Nat) : Value → List Char
  | .list [] => " []\n".toList
  | .list items => '\n' :: writtenItems (indent + indentStep) items
  | .map [] => " \x7b\x7d\n".toList
  | .map fields => ' ' :: writtenFields (indent + indentStep) false fields
  | v => ' ' :: writtenScalar (indent + indentStep) v

def writtenFields (indent : Nat) (padFirst : Bool) : List (String × Value) → List Char
  | [] => []
  | (k, v) :: rest =>
    (if padFirst then pad indent else []) ++ k.toList ++ ':' :: writtenAfterKey indent v ++
      writtenFields indent true rest

end

def written (fs : Fields) : String := String.ofList (writtenFields 0 true fs)

end Crosscheck.Yaml
