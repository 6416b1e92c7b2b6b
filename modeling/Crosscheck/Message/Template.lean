import Crosscheck.Text.Digits

namespace Crosscheck.Message

structure Flags where
  sharp : Bool := false
  zero : Bool := false
  plus : Bool := false
  minus : Bool := false
  space : Bool := false
  deriving DecidableEq, Repr

inductive Index where
  | absent
  | at (n : Nat)
  | malformed
  deriving DecidableEq, Repr

inductive Size where
  | absent
  | literal (n : Nat)
  | operand
  deriving DecidableEq, Repr

/-- What stands after a percent sign. `misplaced` says that a size follows an operand number
that it cannot follow; without a verb the template ends here. -/
structure Directive where
  flags : Flags
  index : Index
  width : Size
  precisionIndex : Index
  precision : Option Size
  verbIndex : Index
  misplaced : Bool
  verb : Option Char
  deriving DecidableEq, Repr

inductive Segment where
  | literal (c : Char)
  | directive (d : Directive)
  deriving DecidableEq, Repr

/-- Reads a number. One that grows past a million is none, and nothing after it is read. -/
def numberFrom (seen : Option Nat) : List Char → Option Nat × List Char
  | [] => (seen, [])
  | c :: rest =>
    if c.isDigit then
      if seen.getD 0 > 1000000 then (none, [])
      else numberFrom (some (seen.getD 0 * 10 + (c.toNat - '0'.toNat))) rest
    else (seen, c :: rest)

def readIndex : List Char → Index × List Char
  | '[' :: rest =>
    if rest.length < 2 ∨ rest.contains ']' = false then (.malformed, rest)
    else
      let after := (rest.dropWhile (· != ']')).tail
      match numberFrom none (rest.takeWhile (· != ']')) with
      | (some n, []) => (.at n, after)
      | _ => (.malformed, after)
  | cs => (.absent, cs)

def Index.isGiven : Index → Bool
  | .at _ => true
  | _ => false

def readFlags (f : Flags) : List Char → Flags × List Char
  | [] => (f, [])
  | c :: rest =>
    match c with
    | '#' => readFlags { f with sharp := true } rest
    | '0' => readFlags { f with zero := true } rest
    | '+' => readFlags { f with plus := true } rest
    | '-' => readFlags { f with minus := true } rest
    | ' ' => readFlags { f with space := true } rest
    | _ => (f, c :: rest)

def readSize : List Char → Size × List Char
  | '*' :: rest => (.operand, rest)
  | cs =>
    match numberFrom none cs with
    | (some n, rest) => (.literal n, rest)
    | (none, rest) => (.absent, rest)

def readPrecision : List Char → Option (Index × Size × List Char)
  | '.' :: rest =>
    let (index, rest) := readIndex rest
    match readSize rest with
    | (.absent, rest) => some (index, .literal 0, rest)
    | (size, rest) => some (index, size, rest)
  | _ => none

def readDirective (cs : List Char) : Directive × List Char :=
  let (flags, cs) := readFlags {} cs
  let (index, cs) := readIndex cs
  let (width, cs) := readSize cs
  let misplacedWidth := match width with
    | .literal _ => index.isGiven
    | _ => false
  let indexed := index.isGiven && width != .operand
  let (precisionIndex, precision, indexed', cs) := match readPrecision cs with
    | some (i, size, rest) => (i, some size, i.isGiven && size != Size.operand, rest)
    | none => (Index.absent, none, indexed, cs)
  let misplaced := misplacedWidth || precision.isSome && indexed
  let (verbIndex, cs) := if indexed' then (Index.absent, cs) else readIndex cs
  ({ flags, index, width, precisionIndex, precision, verbIndex, misplaced, verb := cs.head? },
    cs.tail)

def segmentsFrom : Nat → List Char → List Segment
  | 0, _ => []
  | _ + 1, [] => []
  | fuel + 1, c :: rest =>
    if c = '%' then
      let (d, after) := readDirective rest
      .directive d :: segmentsFrom fuel after
    else .literal c :: segmentsFrom fuel rest

def segments (template : String) : List Segment :=
  segmentsFrom template.toList.length template.toList

end Crosscheck.Message
