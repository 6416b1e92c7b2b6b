import Crosscheck.Text.Digits
import Crosscheck.Yaml.Cursor

namespace Crosscheck.Yaml

/-- A run of blanks and line breaks: the blanks of its first line, its first break and the
further ones. Once the line is left, blanks are dropped. -/
structure Gap where
  blanks : List Char := []
  first : List Char := []
  further : List Char := []
  left : Bool := false

def Gap.folded (g : Gap) : List Char :=
  if g.left then
    if g.first.head? = some '\n' then
      if g.further.isEmpty then [' '] else g.further
    else g.first ++ g.further
  else g.blanks

/-- Reads on over blanks and line breaks. With a width, a tab to the left of it is refused once
the first line is left. -/
def gapFrom (start : Mark) (width : Option Nat) : Nat → Gap → Step Gap
  | 0, g, c => .ok (g, c)
  | fuel + 1, g, c =>
    if c.blankAt 0 then
      if g.left && c.sees 0 '\t' && width.any (c.mark.column < ·) then
        .error (.inToken start c.mark .tabInPlain)
      else if g.left then gapFrom start width fuel g (c.skip 1)
      else gapFrom start width fuel { g with blanks := g.blanks ++ c.rest.take 1 } (c.skip 1)
    else if c.breakAt 0 then
      let (br, next) := c.lineBreak
      if g.left then gapFrom start width fuel { g with further := g.further ++ br } next
      else gapFrom start width fuel { g with blanks := [], first := br, left := true } next
    else .ok (g, c)

def gap (start : Mark) (width : Option Nat) (g : Gap) (c : Cursor) : Except Fault (Gap × Cursor) :=
  gapFrom start width (c.rest.length + 1) g c

def isFlowMark (c : Char) : Bool :=
  c = ',' || c = '?' || c = '[' || c = ']' || c = '\x7b' || c = '\x7d'

def endsPlain (inFlow : Bool) : List Char → Bool
  | ':' :: x :: _ => isBlank x || isBreak x
  | [':'] => true
  | x :: _ => inFlow && isFlowMark x
  | [] => true

def plainWord (inFlow : Bool) : List Char → List Char
  | [] => []
  | x :: rest =>
    if isBlank x || isBreak x || endsPlain inFlow (x :: rest) then []
    else x :: plainWord inFlow rest

/-- Reads the words of a plain scalar and the gaps between them. The text so far is kept last
character first. -/
def plainFrom (start : Mark) (inFlow : Bool) (width : Nat) :
    Nat → List Char → Gap → Step (List Char × Bool)
  | 0, acc, g, c => .ok ((acc, g.left), c)
  | fuel + 1, acc, g, c =>
    if c.atDocumentEdge || c.sees 0 '#' then .ok ((acc, g.left), c)
    else
      let word := plainWord inFlow c.rest
      let here := c.skip word.length
      let acc := if word.isEmpty then acc else word.reverse ++ g.folded.reverse ++ acc
      let g := if word.isEmpty then g else {}
      if here.blankAt 0 || here.breakAt 0 then
        match gap start (some width) g here with
        | .error f => .error f
        | .ok (g, next) =>
          if !inFlow && next.mark.column < width then .ok ((acc, g.left), next)
          else plainFrom start inFlow width fuel acc g next
      else .ok ((acc, g.left), here)

def plainScalar (inFlow : Bool) (width : Nat) : Step (String × Bool) := fun c =>
  match plainFrom c.mark inFlow width (c.rest.length + 1) [] {} c with
  | .error f => .error f
  | .ok ((acc, left), next) => .ok ((String.ofList acc.reverse, left), next)

def escapeChar? : Char → Option Char
  | '0' => some (Char.ofNat 0)
  | 'a' => some (Char.ofNat 7)
  | 'b' => some (Char.ofNat 8)
  | 't' => some '\t'
  | '\t' => some '\t'
  | 'n' => some '\n'
  | 'v' => some (Char.ofNat 11)
  | 'f' => some (Char.ofNat 12)
  | 'r' => some '\r'
  | 'e' => some (Char.ofNat 27)
  | ' ' => some ' '
  | '"' => some '"'
  | '\'' => some '\''
  | '\\' => some '\\'
  | 'N' => some (Char.ofNat 0x85)
  | '_' => some (Char.ofNat 0xa0)
  | 'L' => some (Char.ofNat 0x2028)
  | 'P' => some (Char.ofNat 0x2029)
  | _ => none

def escapeDigits? : Char → Option Nat
  | 'x' => some 2
  | 'u' => some 4
  | 'U' => some 8
  | _ => none

def escape (start : Mark) : Step Char := fun c =>
  let fault (p : Problem) : Except Fault (Char × Cursor) := .error (.inToken start c.mark p)
  match c.peek 1 with
  | none => fault .unknownEscape
  | some x =>
    match escapeChar? x, escapeDigits? x with
    | some y, _ => .ok (y, c.skip 2)
    | none, some n =>
      let here := c.skip 2
      let digits := here.rest.take n
      match Text.value? 16 digits with
      | none => .error (.inToken start here.mark .noHexDigit)
      | some v =>
        if digits.length < n then .error (.inToken start here.mark .noHexDigit)
        else if (0xd800 ≤ v ∧ v ≤ 0xdfff) ∨ 0x10ffff < v then
          .error (.inToken start here.mark .badCodePoint)
        else .ok (Char.ofNat v, here.skip n)
    | none, none => fault .unknownEscape

/-- The characters of a quoted scalar up to the next gap or the closing quote, put in front of
the text so far. The flag says that an escaped line break ended them. -/
def quotedWord (single : Bool) (start : Mark) : Nat → List Char → Step (List Char × Bool)
  | 0, acc, c => .ok ((acc, false), c)
  | fuel + 1, acc, c =>
    if c.gapAt 0 then .ok ((acc, false), c)
    else if single then
      if c.sees 0 '\'' then
        if c.sees 1 '\'' then quotedWord single start fuel ('\'' :: acc) (c.skip 2)
        else .ok ((acc, false), c)
      else quotedWord single start fuel (c.rest.take 1 ++ acc) (c.skip 1)
    else if c.sees 0 '"' then .ok ((acc, false), c)
    else if c.sees 0 '\\' then
      if c.breakAt 1 then .ok ((acc, true), (c.skip 1).skipLine)
      else
        match escape start c with
        | .error f => .error f
        | .ok (x, next) => quotedWord single start fuel (x :: acc) next
    else quotedWord single start fuel (c.rest.take 1 ++ acc) (c.skip 1)

def quotedFrom (single : Bool) (start : Mark) : Nat → List Char → Step (List Char)
  | 0, acc, c => .ok (acc, c)
  | fuel + 1, acc, c =>
    if c.atDocumentEdge then .error (.inToken start c.mark .documentInQuotes)
    else if c.atEnd then .error (.inToken start c.mark .endInQuotes)
    else
      match quotedWord single start (c.rest.length + 1) acc c with
      | .error f => .error f
      | .ok ((acc, escapedBreak), here) =>
        if here.sees 0 (if single then '\'' else '"') then .ok (acc, here.skip 1)
        else
          match gap start none { left := escapedBreak } here with
          | .error f => .error f
          | .ok (g, next) => quotedFrom single start fuel (g.folded.reverse ++ acc) next

def quotedScalar (single : Bool) : Step String := fun c =>
  match quotedFrom single c.mark (c.rest.length + 1) [] (c.skip 1) with
  | .error f => .error f
  | .ok (acc, next) => .ok (String.ofList acc.reverse, next)

inductive Chomp where
  | strip
  | clip
  | keep
  deriving DecidableEq, Repr

def chomp? (c : Cursor) : Option Chomp :=
  if c.sees 0 '+' then some .keep else if c.sees 0 '-' then some .strip else none

def indentDigit (start : Mark) : Step Nat := fun c =>
  match c.peek 0 with
  | some x =>
    if x = '0' then .error (.inToken start c.mark .zeroIndent)
    else if x.isDigit then .ok (x.toNat - '0'.toNat, c.skip 1)
    else .ok (0, c)
  | none => .ok (0, c)

def blockHeader (start : Mark) : Step (Chomp × Nat) := fun c =>
  match chomp? c with
  | some m =>
    match indentDigit start (c.skip 1) with
    | .error f => .error f
    | .ok (n, next) => .ok ((m, n), next)
  | none =>
    match indentDigit start c with
    | .error f => .error f
    | .ok (0, next) => .ok ((.clip, 0), next)
    | .ok (n, next) =>
      match chomp? next with
      | some m => .ok ((m, n), next.skip 1)
      | none => .ok ((.clip, n), next)

/-- Reads empty lines and the indentation of the line after them. An indentation that is not
known yet is the deepest one seen. -/
def blockBreaksFrom (start : Mark) (width : Option Nat) :
    Nat → Nat → List Char → Step (Nat × List Char)
  | 0, deepest, acc, c => .ok ((deepest, acc), c)
  | fuel + 1, deepest, acc, c =>
    let room := match width with
      | none => c.rest.length
      | some w => w - c.mark.column
    let c := c.skip ((c.rest.take room).takeWhile (· = ' ')).length
    let deepest := max deepest c.mark.column
    if width.all (c.mark.column < ·) && c.sees 0 '\t' then
      .error (.inToken start c.mark .tabInIndent)
    else if c.breakAt 0 then
      let (br, next) := c.lineBreak
      blockBreaksFrom start width fuel deepest (acc ++ br) next
    else .ok ((deepest, acc), c)

def blockBreaks (start : Mark) (width : Option Nat) (c : Cursor) :
    Except Fault ((Nat × List Char) × Cursor) :=
  blockBreaksFrom start width (c.rest.length + 1) 0 [] c

/-- The lines of a block scalar read so far, last character first, the break after the last of
them and the breaks of the empty lines that follow. -/
structure BlockText where
  acc : List Char := []
  leading : List Char := []
  trailing : List Char := []

/-- Reads lines that are indented enough. Between two lines that do not start with a blank, a
folded scalar turns a single break into a space. -/
def blockLines (start : Mark) (literal : Bool) (width : Nat) :
    Nat → Bool → BlockText → Step BlockText
  | 0, _, t, c => .ok (t, c)
  | fuel + 1, blankBefore, t, c =>
    if c.mark.column = width ∧ c.atEnd = false then
      let blankHere := c.blankAt 0
      let joined := !literal && !blankBefore && !blankHere && t.leading.head? = some '\n'
      let glue := if joined then (if t.trailing.isEmpty then [' '] else []) else t.leading
      let (line, here) := c.span fun x => !isBreak x
      let acc := line.reverse ++ t.trailing.reverse ++ glue.reverse ++ t.acc
      let (br, next) := here.lineBreak
      match blockBreaks start (some width) next with
      | .error f => .error f
      | .ok ((_, trailing), next) =>
        blockLines start literal width fuel blankHere ⟨acc, br, trailing⟩ next
    else .ok (t, c)

def blockScalar (literal : Bool) (indent : Int) : Step String := fun c =>
  let start := c.mark
  match blockHeader start (c.skip 1) with
  | .error f => .error f
  | .ok ((chomp, digit), here) =>
    let here := here.skipWhile isBlank
    let here := if here.sees 0 '#' then here.skipWhile fun x => !isBreak x else here
    if !here.lineEndAt 0 then .error (.inToken start here.mark .noCommentOrBreak)
    else
      let here := here.skipLine
      let given := if digit = 0 then none else some ((max indent 0).toNat + digit)
      match blockBreaks start given here with
      | .error f => .error f
      | .ok ((deepest, trailing), body) =>
        let width := given.getD (max (max deepest (indent + 1).toNat) 1)
        match blockLines start literal width (body.rest.length + 1) false { trailing } body with
        | .error f => .error f
        | .ok (t, next) =>
          let tail := match chomp with
            | .strip => []
            | .clip => t.leading
            | .keep => t.leading ++ t.trailing
          .ok (String.ofList (tail.reverse ++ t.acc).reverse, next)

end Crosscheck.Yaml
