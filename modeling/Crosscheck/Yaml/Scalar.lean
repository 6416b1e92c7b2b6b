import Crosscheck.Settings.Value
import Crosscheck.Yaml.Fault
import Crosscheck.Yaml.Timestamp

/-!
What a scalar without quotes stands for: the tags of the core schema of YAML 1.2, and of 1.1 the
numbers with underscores or in base two, which yaml.v3 documents to keep.
-/

namespace Crosscheck.Yaml

open Settings (Value)

namespace Tag

def str : String := "!!str"
def bool : String := "!!bool"
def int : String := "!!int"
def float : String := "!!float"
def null : String := "!!null"
def time : String := "!!timestamp"
def binary : String := "!!binary"
def merge : String := "!!merge"
def map : String := "!!map"
def seq : String := "!!seq"

def longStart : String := "tag:yaml.org,2002:"

def short (tag : String) : String :=
  if tag.startsWith longStart then "!!" ++ (tag.drop longStart.length).toString else tag

def isResolvable (tag : String) : Bool :=
  tag = "" || [str, bool, int, float, null, time].contains tag

end Tag

def word? (s : String) : Option (String × Value) :=
  if ["true", "True", "TRUE"].contains s then some (Tag.bool, .bool true)
  else if ["false", "False", "FALSE"].contains s then some (Tag.bool, .bool false)
  else if ["", "~", "null", "Null", "NULL"].contains s then some (Tag.null, .null)
  else if [".nan", ".NaN", ".NAN"].contains s then some (Tag.float, .float .nan)
  else if [".inf", ".Inf", ".INF", "+.inf", "+.Inf", "+.INF"].contains s then
    some (Tag.float, .float (.infinite false))
  else if ["-.inf", "-.Inf", "-.INF"].contains s then some (Tag.float, .float (.infinite true))
  else none

def natural? : List Char → Option Nat
  | '0' :: x :: y :: rest =>
    if x = 'b' ∨ x = 'B' then Text.value? 2 (y :: rest)
    else if x = 'o' ∨ x = 'O' then Text.value? 8 (y :: rest)
    else if x = 'x' ∨ x = 'X' then Text.value? 16 (y :: rest)
    else Text.value? 8 (x :: y :: rest)
  | ['0', x] => Text.value? 8 [x]
  | cs => Text.value? 10 cs

def integer? (cs : List Char) : Option Value :=
  let (negative, rest) := Text.unsign cs
  match natural? rest with
  | none => none
  | some n =>
    match Text.signedInRange negative n with
    | some i => some (.int i)
    | none =>
      if rest.length = cs.length ∧ n < Nat.pow 2 64 then some (.uint n.toUInt64) else none

/-- A sign may also stand between the mark of the base and the digits. -/
def markedInteger? : List Char → Option Value
  | '0' :: x :: rest =>
    if x = 'b' ∨ x = 'o' then
      let (negative, digits) := Text.unsign rest
      match Text.value? (if x = 'b' then 2 else 8) digits with
      | some n => (Text.signedInRange negative n).map .int
      | none => none
    else none
  | _ => none

def dropDigits (cs : List Char) : List Char := cs.dropWhile Char.isDigit

def isExponent : List Char → Bool
  | [] => true
  | x :: rest =>
    let digits := (Text.unsign rest).2
    (x = 'e' || x = 'E') && !digits.isEmpty && digits.all Char.isDigit

def isDecimal (cs : List Char) : Bool :=
  match (Text.unsign cs).2 with
  | '.' :: d :: rest => d.isDigit && isExponent (dropDigits rest)
  | d :: rest =>
    d.isDigit &&
      match dropDigits rest with
      | '.' :: rest => isExponent (dropDigits rest)
      | rest => isExponent rest
  | [] => false

def decimal? (cs : List Char) : Option Value :=
  if isDecimal cs then
    match Decimal.read? cs with
    | some d => if d.isFinite then some (.float d) else none
    | none => none
  else none

def number? (cs : List Char) : Option (String × Value) :=
  let plain := cs.filter (· ≠ '_')
  match integer? plain with
  | some v => some (Tag.int, v)
  | none =>
    match decimal? plain with
    | some v => some (Tag.float, v)
    | none => (markedInteger? plain).map (Tag.int, ·)

/-- Reads a scalar that carries no quotes. The first character decides what it may be. -/
def resolve (mayBeTime : Bool) (s : String) : String × Value :=
  let asText : String × Value := (Tag.str, .text s)
  match s.toList with
  | [] => (Tag.null, .null)
  | c :: cs =>
    if "yYnNtTfFoO~".toList.contains c then (word? s).getD asText
    else if c = '.' then
      match word? s with
      | some r => r
      | none => ((decimal? (c :: cs)).map fun v => (Tag.float, v)).getD asText
    else if c = '+' ∨ c = '-' ∨ c.isDigit then
      match word? s with
      | some r => r
      | none =>
        match if mayBeTime then Timestamp.read? (c :: cs) else none with
        | some t => (Tag.time, .time t.render)
        | none => (number? (c :: cs)).getD asText
    else asText

/-- Reads a scalar as its tag says. An integer may stand for a decimal number; tags of other
schemas leave the text as it is. -/
def resolveAs (tag s : String) : Except Fault (String × Value) :=
  if !Tag.isResolvable tag then .ok (tag, .text s)
  else if tag = Tag.str then .ok (Tag.str, .text s)
  else
    let (found, v) := resolve (tag = "" || tag = Tag.time) s
    if tag = "" ∨ found = tag then .ok (found, v)
    else
      match v with
      | .int i =>
        if tag = Tag.float then .ok (tag, .float (.ofInt i.toInt))
        else .error (.notOfTag found s tag)
      | _ => .error (.notOfTag found s tag)

end Crosscheck.Yaml
