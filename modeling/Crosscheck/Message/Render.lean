import Crosscheck.Message.Operand

namespace Crosscheck.Message

/-- The next operand, whether operands were named by number, whether the number named in this
directive is one of an operand, and which operands were wrapped, by their positions. -/
structure Cursor where
  next : Nat
  reordered : Bool
  good : Bool
  wraps : List Nat
  deriving DecidableEq, Repr

def Cursor.start : Cursor := ⟨0, false, true, []⟩

def Cursor.follow (count : Nat) (c : Cursor) : Index → Cursor
  | .absent => c
  | .malformed => { c with reordered := true, good := false }
  | .at n =>
    if 0 < n ∧ n ≤ count then { c with next := n - 1, reordered := true }
    else { c with reordered := true, good := false }

/-- A size taken from the next operand, if that is a number of at most a million. -/
def Cursor.takeSize (operands : List Operand) (c : Cursor) : Option Int × Cursor :=
  match operands[c.next]? with
  | none => (none, c)
  | some (.number i) =>
    let n := i.toInt
    (if n.natAbs ≤ 1000000 then some n else none, { c with next := c.next + 1 })
  | some _ => (none, { c with next := c.next + 1 })

def Cursor.width (operands : List Operand) (c : Cursor) (st : Style) :
    Size → List Char × Style × Cursor
  | .absent => ([], st, c)
  | .literal n => ([], { st with width := some n }, c)
  | .operand =>
    match c.takeSize operands with
    | (none, c) => ("%!(BADWIDTH)".toList, st, c)
    | (some n, c) =>
      if n < 0 then ([], { st with width := some n.natAbs, minus := true, zero := false }, c)
      else ([], { st with width := some n.toNat }, c)

def Cursor.precision (operands : List Operand) (c : Cursor) (st : Style) :
    Option Size → List Char × Style × Cursor
  | none => ([], st, c)
  | some .absent => ([], st, c)
  | some (.literal n) => ([], { st with precision := some n }, c)
  | some .operand =>
    match c.takeSize operands with
    | (some n, c) =>
      if n < 0 then ("%!(BADPREC)".toList, st, c)
      else ([], { st with precision := some n.toNat }, c)
    | (none, c) => ("%!(BADPREC)".toList, st, c)

def Style.ofFlags (f : Flags) : Style :=
  { sharp := f.sharp, zero := f.zero, plus := f.plus, minus := f.minus, space := f.space }

/-- The verbs `v` and `w` read the sharp flag as a wish for the source form. -/
def Style.forVerb (st : Style) (verb : Char) : Style :=
  if verb = 'v' ∨ verb = 'w' then { st with sourceForm := st.sharp, sharp := false, plus := false }
  else st

def Cursor.verb (operands : List Operand) (c : Cursor) (st : Style) (verb : Char) :
    List Char × Cursor :=
  if verb = '%' then (['%'], c)
  else if c.good = false then ('%' :: '!' :: verb :: "(BADINDEX)".toList, c)
  else
    match operands[c.next]? with
    | none => ('%' :: '!' :: verb :: "(MISSING)".toList, c)
    | some o =>
      (o.show (st.forVerb verb) verb,
        { c with next := c.next + 1, wraps := if verb = 'w' then c.wraps ++ [c.next] else c.wraps })

def Cursor.directive (operands : List Operand) (c : Cursor) (d : Directive) :
    List Char × Cursor :=
  let c := Cursor.follow operands.length { c with good := true } d.index
  let (out, st, c) := c.width operands (Style.ofFlags d.flags) d.width
  let c := if d.misplaced then { c with good := false } else c
  let c := c.follow operands.length d.precisionIndex
  let (out', st, c) := c.precision operands st d.precision
  let c := c.follow operands.length d.verbIndex
  match d.verb with
  | none => (out ++ out' ++ "%!(NOVERB)".toList, c)
  | some v =>
    let (shown, c) := c.verb operands st v
    (out ++ out' ++ shown, c)

def renderFrom (operands : List Operand) (c : Cursor) : List Segment → List Char × Cursor
  | [] => ([], c)
  | .literal ch :: rest =>
    let (out, c) := renderFrom operands c rest
    (ch :: out, c)
  | .directive d :: rest =>
    let (shown, c) := c.directive operands d
    let (out, c) := renderFrom operands c rest
    (shown ++ out, c)

def Operand.extra : Operand → List Char
  | .absent => "<nil>".toList
  | o => o.typeName.toList ++ '=' :: o.show {} 'v'

/-- Operands that no directive used are listed at the end, unless operands were named by
number. -/
def extras (operands : List Operand) (c : Cursor) : List Char :=
  if c.reordered then []
  else
    match operands.drop c.next with
    | [] => []
    | left =>
      "%!(EXTRA ".toList ++ [',', ' '].intercalate (left.map Operand.extra) ++ [')']

/-- A finished message and the positions of the operands it wraps, as often as it does. -/
structure Rendered where
  text : String
  wraps : List Nat
  deriving DecidableEq, Repr

def render (template : String) (operands : List Operand) : Rendered :=
  let (out, c) := renderFrom operands Cursor.start (segments template)
  ⟨String.ofList (out ++ extras operands c), c.wraps⟩

end Crosscheck.Message
