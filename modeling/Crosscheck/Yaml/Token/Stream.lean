import Crosscheck.Yaml.Token.Basic
import Crosscheck.Yaml.Token.Scalar
import Crosscheck.Yaml.Token.Tag

/-!
The tokens of a text. A key is only known by the colon behind it, so that tokens are held back as long
as one of them may turn out to be the start of a key. A key is on one line and has at most 1024
characters, as YAML 1.2 asks for; a comment is looked for no farther than yaml.v3 looks for it.
-/

namespace Crosscheck.Yaml

/-- A place that becomes a key if a colon follows on the same line. The number counts the tokens
in front of it. -/
structure PendingKey where
  required : Bool
  number : Nat
  mark : Mark
  deriving DecidableEq, Repr

/-- The tokens that are read but not taken, and what decides how to read on. There is one place
for a pending key for each level of brackets, and a list of the indentations that are open. -/
structure Tokens where
  cursor : Cursor
  started : Bool := false
  queue : List Token := []
  taken : Nat := 0
  flow : Nat := 0
  indent : Int := -1
  indents : List Int := []
  keyAllowed : Bool := true
  keys : List (Option PendingKey) := [none]

namespace Tokens

def maxDepth : Nat := 10000

def maxLook : Nat := 512

def maxKey : Nat := 1024

def here (t : Tokens) : Mark := t.cursor.mark

def push (t : Tokens) (kind : TokenKind) (mark : Mark) : Tokens :=
  { t with queue := t.queue ++ [⟨kind, mark⟩] }

def insertAt (t : Tokens) (i : Nat) (kind : TokenKind) (mark : Mark) : Tokens :=
  { t with queue := t.queue.take i ++ ⟨kind, mark⟩ :: t.queue.drop i }

def pending (t : Tokens) : Option PendingKey := t.keys.head?.join

def setPending (t : Tokens) (k : Option PendingKey) : Tokens := { t with keys := k :: t.keys.tail }

def faultHere (t : Tokens) (start : Mark) (p : Problem) : Fault := .inToken start t.here p

/-- Gives up the pending key. One that has to be a key may not be given up. -/
def dropKey (t : Tokens) : Except Fault Tokens :=
  match t.pending with
  | none => .ok t
  | some k =>
    if k.required then .error (t.faultHere k.mark .noColon) else .ok (t.setPending none)

def isOpen (t : Tokens) (k : PendingKey) : Except Fault Bool :=
  if k.mark.line < t.here.line ∨ k.mark.index + maxKey < t.here.index then
    if k.required then .error (t.faultHere k.mark .noColon) else .ok false
  else .ok true

def saveKey (t : Tokens) : Except Fault Tokens :=
  if t.keyAllowed then
    let k : PendingKey :=
      { required := t.flow = 0 && t.indent = t.here.column
        number := t.taken + t.queue.length
        mark := t.here }
    match t.dropKey with
    | .error f => .error f
    | .ok t => .ok (t.setPending (some k))
  else .ok t

def openBlock (t : Tokens) (column : Nat) (number : Option Nat) (kind : TokenKind) (mark : Mark) :
    Except Fault Tokens :=
  if t.flow = 0 ∧ t.indent < column then
    let t := { t with indents := t.indent :: t.indents, indent := column }
    if maxDepth < t.indents.length then
      .error (t.faultHere ((t.pending.map (·.mark)).getD {}) .tooDeep)
    else
      .ok (match number with
        | some n => t.insertAt (n - t.taken) kind mark
        | none => t.push kind mark)
  else .ok t

def closeBlocks (t : Tokens) (column : Int) (mark : Mark) : Tokens :=
  if t.flow = 0 then
    let levels := t.indent :: t.indents
    let kept := levels.dropWhile (column < ·)
    let ends := List.replicate (levels.length - kept.length) ⟨TokenKind.blockEnd, mark⟩
    { t with queue := t.queue ++ ends, indent := kept.headD (-1), indents := kept.tail }
  else t

def goTo (index : Nat) : Nat → Cursor → Cursor
  | 0, c => c
  | fuel + 1, c =>
    if c.mark.index < index then
      goTo index fuel (if c.breakAt 0 then c.skipLine else c.skip 1)
    else c

def skipComments : Nat → Cursor → Cursor
  | 0, c => c
  | fuel + 1, c =>
    let c := c.skipWhile fun x => !isBreak x
    let ahead := 1 + ((c.rest.drop 1).takeWhile fun x => isBlank x || isBreak x).length
    if ahead < maxLook && c.sees ahead '#' then skipComments fuel (goTo (c.mark.index + ahead) ahead c)
    else c

/-- Goes on to the next token. A new line in a block allows a key, and a tab may not stand where
a key may. -/
def toNext (inFlow : Bool) : Nat → Bool → Cursor → Bool × Cursor
  | 0, keyAllowed, c => (keyAllowed, c)
  | fuel + 1, keyAllowed, c =>
    let c := if c.mark.column = 0 ∧ c.sees 0 byteOrderMark then c.skip 1 else c
    let c := c.skipWhile fun x => x = ' ' || ((inFlow || !keyAllowed) && x = '\t')
    let c := if c.sees 0 '#' then skipComments (c.rest.length + 1) c else c
    if c.breakAt 0 then toNext inFlow fuel (keyAllowed || !inFlow) c.skipLine
    else (keyAllowed, c)

def skipLineComment (c : Cursor) : Cursor :=
  if c.fresh then c
  else
    let blanks := (c.rest.takeWhile isBlank).length
    if blanks < maxLook && c.sees blanks '#' then (c.skip blanks).skipWhile fun x => !isBreak x
    else c

def take (t : Tokens) (n : Nat) (kind : TokenKind) : Tokens :=
  { t.push kind t.here with cursor := t.cursor.skip n }

def streamEnd (t : Tokens) : Except Fault Tokens :=
  let m := t.here
  let m := if m.column = 0 then m else { m with column := 0, line := m.line + 1 }
  let t := { t with cursor := { t.cursor with mark := m } }
  match (t.closeBlocks (-1) m).dropKey with
  | .error f => .error f
  | .ok t => .ok ({ t with keyAllowed := false }.push .streamEnd m)

def closeAll (t : Tokens) : Except Fault Tokens :=
  match (t.closeBlocks (-1) t.here).dropKey with
  | .error f => .error f
  | .ok t => .ok { t with keyAllowed := false }

def takeStep {α : Type} (t : Tokens) (step : Step α) (kind : α → TokenKind) : Except Fault Tokens :=
  match step t.cursor with
  | .error f => .error f
  | .ok (a, next) => .ok { t.push (kind a) t.here with cursor := next }

def takeKeyed {α : Type} (t : Tokens) (step : Step α) (kind : α → TokenKind) :
    Except Fault Tokens := do
  let t ← t.saveKey
  { t with keyAllowed := false }.takeStep step kind

def openFlow (t : Tokens) (kind : TokenKind) : Except Fault Tokens := do
  let t ← t.saveKey
  if maxDepth ≤ t.flow then throw (t.faultHere {} .tooDeep)
  return { t with keys := none :: t.keys, flow := t.flow + 1, keyAllowed := true }.take 1 kind

def closeFlow (t : Tokens) (kind : TokenKind) : Except Fault Tokens := do
  let t ← t.dropKey
  let t := if 0 < t.flow then { t with keys := t.keys.tail, flow := t.flow - 1 } else t
  return { t with keyAllowed := false }.take 1 kind

def flowEntry (t : Tokens) : Except Fault Tokens := do
  let t ← t.dropKey
  return { t with keyAllowed := true }.take 1 .flowEntry

def blockEntry (t : Tokens) : Except Fault Tokens := do
  if t.flow = 0 ∧ t.keyAllowed = false then throw (t.faultHere t.here .entryNotAllowed)
  let t ← t.openBlock t.here.column none .blockSequenceStart t.here
  let t ← t.dropKey
  return { t with keyAllowed := true }.take 1 .blockEntry

def explicitKey (t : Tokens) : Except Fault Tokens := do
  if t.flow = 0 ∧ t.keyAllowed = false then throw (t.faultHere t.here .keyNotAllowed)
  let t ← t.openBlock t.here.column none .blockMappingStart t.here
  let t ← t.dropKey
  return { t with keyAllowed := t.flow = 0 }.take 1 .key

def openKey? (t : Tokens) : Except Fault (Option PendingKey) := do
  match t.pending with
  | none => return none
  | some k => return if ← t.isOpen k then some k else none

/-- A colon makes the pending key one, or follows a key that was written out. -/
def mappingValue (t : Tokens) : Except Fault Tokens := do
  match ← t.openKey? with
  | some k =>
    let t := t.insertAt (k.number - t.taken) .key k.mark
    let t ← t.openBlock k.mark.column (some k.number) .blockMappingStart k.mark
    return { t.setPending none with keyAllowed := false }.take 1 .value
  | none =>
    let t := t.setPending none
    if t.flow = 0 ∧ t.keyAllowed = false then throw (t.faultHere t.here .valueNotAllowed)
    let t ← t.openBlock t.here.column none .blockMappingStart t.here
    return { t with keyAllowed := t.flow = 0 }.take 1 .value

def blockText (t : Tokens) (literal : Bool) : Except Fault Tokens := do
  let t ← t.dropKey
  { t with keyAllowed := true }.takeStep (blockScalar literal t.indent) (.scalar · .block)

def plainText (t : Tokens) : Except Fault Tokens := do
  let t ← t.saveKey
  let ((s, left), next) ← plainScalar (0 < t.flow) (t.indent + 1).toNat t.cursor
  return { t.push (.scalar s .plain) t.here with cursor := next, keyAllowed := left }

def indicators : List Char := "-?:,[]\x7b\x7d#&*!|>'\"%@\x60".toList

def startsPlain (t : Tokens) (x : Char) : Bool :=
  !(t.cursor.gapAt 0 || indicators.contains x) || (x = '-' && !t.cursor.blankAt 1) ||
    (t.flow = 0 && (x = '?' || x = ':') && !t.cursor.gapAt 1)

def token (t : Tokens) (x : Char) : Except Fault Tokens :=
  let inFlow := 0 < t.flow
  let gapNext := t.cursor.gapAt 1
  match x with
  | '[' => t.openFlow .flowSequenceStart
  | '\x7b' => t.openFlow .flowMappingStart
  | ']' => t.closeFlow .flowSequenceEnd
  | '\x7d' => t.closeFlow .flowMappingEnd
  | ',' => t.flowEntry
  | '*' => t.takeKeyed anchorName .shared
  | '&' => t.takeKeyed anchorName .anchor
  | '!' => t.takeKeyed tagToken id
  | '\'' => t.takeKeyed (quotedScalar true) (.scalar · .quoted)
  | '"' => t.takeKeyed (quotedScalar false) (.scalar · .quoted)
  | x =>
    if x = '-' ∧ gapNext then t.blockEntry
    else if x = '?' ∧ (inFlow ∨ gapNext) then t.explicitKey
    else if x = ':' ∧ (inFlow ∨ gapNext) then t.mappingValue
    else if (x = '|' ∨ x = '>') ∧ ¬inFlow then t.blockText (x = '|')
    else if t.startsPlain x then t.plainText
    else .error (t.faultHere t.here .noToken)

/-- A comment after a token belongs to its line, but not after the mark of an entry. -/
def dropLineComment (t : Tokens) : Tokens :=
  if t.queue.getLast?.any (·.kind = .blockEntry) then t
  else { t with cursor := skipLineComment t.cursor }

def fetch (t : Tokens) : Except Fault Tokens :=
  if t.started then
    let before := t.here
    let (keyAllowed, c) := toNext (0 < t.flow) (t.cursor.rest.length + 1) t.keyAllowed t.cursor
    let t := { t with cursor := c, keyAllowed }.closeBlocks c.mark.column before
    match c.peek 0 with
    | none => t.streamEnd
    | some x =>
      if c.mark.column = 0 ∧ x = '%' then do (← t.closeAll).takeStep directive id
      else if c.atDocumentMark '-' then t.closeAll.map (·.take 3 .documentStart)
      else if c.atDocumentMark '.' then t.closeAll.map (·.take 3 .documentEnd)
      else (t.token x).map dropLineComment
  else .ok ({ t with started := true }.push .streamStart t.here)

/-- Whether the first token may still have to make room for a key. -/
def headUnsettled (t : Tokens) : Except Fault Bool :=
  match (t.keys.filterMap id).find? fun k => k.number = t.taken with
  | none => .ok false
  | some k => t.isOpen k

/-- Reads ahead until three tokens are there and the first of them is settled. -/
def fill : Nat → Tokens → Except Fault Tokens
  | 0, t => .ok t
  | fuel + 1, t =>
    if t.queue.length ≤ 2 then do fill fuel (← t.fetch)
    else
      match t.headUnsettled with
      | .error f => .error f
      | .ok false => .ok t
      | .ok true => do fill fuel (← t.fetch)

end Tokens

end Crosscheck.Yaml
