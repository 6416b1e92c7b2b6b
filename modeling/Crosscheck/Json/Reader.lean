import Crosscheck.Text.Quoted

namespace Crosscheck

/-- A JSON document. Numbers keep the text they were written in, and objects their fields in
order. -/
inductive Json where
  | null
  | bool (b : Bool)
  | number (text : String)
  | string (s : String)
  | array (items : List Json)
  | object (fields : List (String × Json))
  deriving Inhabited

namespace Json

inductive Place where
  | topLevel
  | value
  | objectKey
  | afterKey
  | afterPair
  | afterElement
  | inString
  | inEscape
  | inHexEscape
  | inNumber
  | afterPoint
  | inExponent
  | inLiteral (word : String) (expected : Char)
  deriving DecidableEq, Repr

inductive Fault where
  | unexpectedEnd
  | tooDeep
  | unexpected (c : Char) (place : Place)
  deriving DecidableEq, Repr

def Place.text : Place → String
  | .topLevel => "after top-level value"
  | .value => "looking for beginning of value"
  | .objectKey => "looking for beginning of object key string"
  | .afterKey => "after object key"
  | .afterPair => "after object key:value pair"
  | .afterElement => "after array element"
  | .inString => "in string literal"
  | .inEscape => "in string escape code"
  | .inHexEscape => "in \\u hexadecimal character escape"
  | .inNumber => "in numeric literal"
  | .afterPoint => "after decimal point in numeric literal"
  | .inExponent => "in exponent of numeric literal"
  | .inLiteral word expected =>
    "in literal " ++ word ++ " (expecting '" ++ String.singleton expected ++ "')"

def shownByte (c : Char) : String :=
  let b := (String.singleton c).toUTF8.toList.headD 0
  let c := Char.ofNat b.toNat
  if c = '\'' then "'\\''"
  else if c = '"' then "'\"'"
  else "'" ++ String.ofList (Text.escaped '"' false c) ++ "'"

def Fault.message : Fault → String
  | .unexpectedEnd => "unexpected end of JSON input"
  | .tooDeep => "exceeded max depth"
  | .unexpected c place => "invalid character " ++ shownByte c ++ " " ++ place.text

def isSpace (c : Char) : Bool := c = ' ' || c = '\t' || c = '\r' || c = '\n'

def skipSpace (cs : List Char) : List Char := cs.dropWhile isSpace

def refuse {α : Type} (place : Place) : List Char → Except Fault α
  | [] => .error .unexpectedEnd
  | c :: _ => .error (.unexpected c place)

/-- A half of a surrogate pair without its partner. -/
def loneHalf : Char := Char.ofNat 0xfffd

def flush (acc : List Char) : Option Nat → List Char
  | none => acc
  | some _ => loneHalf :: acc

/-- Adds one 16-bit unit after a first half that may be waiting for its partner. -/
def addUnit (acc : List Char) (high : Option Nat) (unit : Nat) : List Char × Option Nat :=
  if 0xd800 ≤ unit ∧ unit < 0xdc00 then (flush acc high, some unit)
  else if 0xdc00 ≤ unit ∧ unit < 0xe000 then
    match high with
    | some h => (Char.ofNat (0x10000 + (h - 0xd800) * 1024 + (unit - 0xdc00)) :: acc, none)
    | none => (loneHalf :: acc, none)
  else (Char.ofNat unit :: flush acc high, none)

def escapeOf? : Char → Option Char
  | '"' => some '"'
  | '\\' => some '\\'
  | '/' => some '/'
  | 'b' => some '\x08'
  | 'f' => some '\x0c'
  | 'n' => some '\n'
  | 'r' => some '\r'
  | 't' => some '\t'
  | _ => none

def isHex (c : Char) : Bool := (Text.digitIn? 16 c).isSome

def stringFrom (acc : List Char) (high : Option Nat) :
    List Char → Except Fault (String × List Char)
  | [] => .error .unexpectedEnd
  | '"' :: rest => .ok (String.ofList (flush acc high).reverse, rest)
  | '\\' :: 'u' :: a :: b :: c :: d :: rest =>
    match [a, b, c, d].find? fun x => !isHex x with
    | some x => .error (.unexpected x .inHexEscape)
    | none =>
      let (acc, high) := addUnit acc high ((Text.value? 16 [a, b, c, d]).getD 0)
      stringFrom acc high rest
  | '\\' :: 'u' :: rest =>
    match rest.find? fun x => !isHex x with
    | some x => .error (.unexpected x .inHexEscape)
    | none => .error .unexpectedEnd
  | '\\' :: c :: rest =>
    match escapeOf? c with
    | some e => stringFrom (e :: flush acc high) none rest
    | none => .error (.unexpected c .inEscape)
  | ['\\'] => .error .unexpectedEnd
  | c :: rest =>
    if c.toNat < 0x20 then .error (.unexpected c .inString)
    else stringFrom (c :: flush acc high) none rest

def literal (word : String) : List Char → List Char → Except Fault (List Char)
  | [], rest => .ok rest
  | _ :: _, [] => .error .unexpectedEnd
  | e :: expected, c :: rest =>
    if c = e then literal word expected rest else .error (.unexpected c (.inLiteral word e))

def digits (cs : List Char) : List Char × List Char :=
  (cs.takeWhile Char.isDigit, cs.dropWhile Char.isDigit)

def digits1 (place : Place) (cs : List Char) : Except Fault (List Char × List Char) :=
  match digits cs with
  | ([], rest) => refuse place rest
  | found => .ok found

def exponent : List Char → Except Fault (List Char × List Char)
  | c :: rest =>
    if c = 'e' ∨ c = 'E' then
      let (mark, rest) := match rest with
        | '+' :: tail => (['+'], tail)
        | '-' :: tail => (['-'], tail)
        | _ => ([], rest)
      (digits1 .inExponent rest).map fun (ds, rest) => (c :: mark ++ ds, rest)
    else .ok ([], c :: rest)
  | [] => .ok ([], [])

def fraction : List Char → Except Fault (List Char × List Char)
  | '.' :: rest => (digits1 .afterPoint rest).map fun (ds, rest) => ('.' :: ds, rest)
  | cs => .ok ([], cs)

def whole : List Char → Except Fault (List Char × List Char)
  | '0' :: rest => .ok (['0'], rest)
  | cs => digits1 .inNumber cs

def numberFrom (cs : List Char) : Except Fault (String × List Char) := do
  let (mark, cs) := match cs with
    | '-' :: rest => (['-'], rest)
    | _ => ([], cs)
  let (w, cs) ← whole cs
  let (f, cs) ← fraction cs
  let (e, cs) ← exponent cs
  return (String.ofList (mark ++ w ++ f ++ e), cs)

mutual

def valueFrom : Nat → Nat → List Char → Except Fault (Json × List Char)
  | 0, _, _ => .error .tooDeep
  | fuel + 1, depth, cs =>
    match skipSpace cs with
    | '\x7b' :: rest =>
      if depth = 0 then .error .tooDeep
      else
        match skipSpace rest with
        | '\x7d' :: rest => .ok (.object [], rest)
        | rest => fieldsFrom fuel (depth - 1) [] rest
    | '[' :: rest =>
      if depth = 0 then .error .tooDeep
      else
        match skipSpace rest with
        | ']' :: rest => .ok (.array [], rest)
        | rest => itemsFrom fuel (depth - 1) [] rest
    | '"' :: rest => (stringFrom [] none rest).map fun (s, rest) => (.string s, rest)
    | 't' :: rest => (literal "true" "rue".toList rest).map fun rest => (.bool true, rest)
    | 'f' :: rest => (literal "false" "alse".toList rest).map fun rest => (.bool false, rest)
    | 'n' :: rest => (literal "null" "ull".toList rest).map fun rest => (.null, rest)
    | c :: rest =>
      if c = '-' ∨ c.isDigit then
        (numberFrom (c :: rest)).map fun (text, rest) => (.number text, rest)
      else .error (.unexpected c .value)
    | [] => .error .unexpectedEnd

def itemsFrom : Nat → Nat → List Json → List Char → Except Fault (Json × List Char)
  | 0, _, _, _ => .error .tooDeep
  | fuel + 1, depth, acc, cs =>
    match valueFrom fuel depth cs with
    | .error e => .error e
    | .ok (v, rest) =>
      match skipSpace rest with
      | ',' :: rest => itemsFrom fuel depth (v :: acc) rest
      | ']' :: rest => .ok (.array (v :: acc).reverse, rest)
      | rest => refuse .afterElement rest

def fieldsFrom : Nat → Nat → List (String × Json) → List Char → Except Fault (Json × List Char)
  | 0, _, _, _ => .error .tooDeep
  | fuel + 1, depth, acc, cs =>
    match skipSpace cs with
    | '"' :: rest =>
      match stringFrom [] none rest with
      | .error e => .error e
      | .ok (key, rest) =>
        match skipSpace rest with
        | ':' :: rest =>
          match valueFrom fuel depth rest with
          | .error e => .error e
          | .ok (v, rest) =>
            match skipSpace rest with
            | ',' :: rest => fieldsFrom fuel depth ((key, v) :: acc) rest
            | '\x7d' :: rest => .ok (.object ((key, v) :: acc).reverse, rest)
            | rest => refuse .afterPair rest
        | rest => refuse .afterKey rest
    | rest => refuse .objectKey rest

end

def maxDepth : Nat := 10000

def read (cs : List Char) : Except Fault Json :=
  match valueFrom (cs.length + 2) maxDepth cs with
  | .error e => .error e
  | .ok (v, rest) =>
    match skipSpace rest with
    | [] => .ok v
    | c :: _ => .error (.unexpected c .topLevel)

end Json

end Crosscheck
