import Crosscheck.Text.Base64
import Crosscheck.Yaml.Node

/-!
Documents as yaml.v3 (3.0.1) reads them. The text is cut into tokens (`Token`), these are put together
to the tree of a document (`Node`), and here the tree becomes settings.

This is YAML 1.2 with what that library documents to keep of 1.1: merge keys, points in time,
underscores in numbers, and octal numbers behind a zero alone. Words such as `yes` and `on` are text.
Only the first document of a text is read. A key that occurs twice is an error, and so is a value of
the wrong type, but reading goes on after one.

Left out are texts in UTF-16 and the bound on how often aliases may be expanded. Characters that no
document may hold are looked for in the whole text first.
-/

namespace Crosscheck.Yaml

open Settings (Value Fields)

/-- Decoding goes on after a value of the wrong type, and notes it. -/
abbrev Decode := StateT (List Mismatch) (Except Fault)

def note (m : Mismatch) : Decode Unit := modify (· ++ [m])

def textOf (bytes : ByteArray) : String :=
  String.ofList ((Text.pieces bytes).map Text.Piece.toChar)

def shownValue (s : String) : String :=
  let bytes := s.toUTF8
  " \x60" ++ (if 10 < bytes.size then textOf (bytes.extract 0 7) ++ "..." else s) ++ "\x60"

def wrongType (n : Node) (wanted : String) : Mismatch :=
  let shown := match n with
    | .scalar _ _ text => shownValue text
    | n => if n.tag = Tag.map ∨ n.tag = Tag.seq then "" else shownValue ""
  .wrongType n.line n.tag shown wanted

def detailed : Value → String
  | .null => "interface \x7b\x7d(nil)"
  | .text s => Text.quoted s
  | .uint n => "0x" ++ String.ofList (Nat.toDigits 16 n.toNat)
  | .list items => "[]interface \x7b\x7d\x7b" ++ ", ".intercalate (detailedAll items) ++ "\x7d"
  | .map fields =>
    let sorted := (detailedFields fields).mergeSort fun a b => decide (a.1 ≤ b.1)
    "map[string]interface \x7b\x7d\x7b" ++
      ", ".intercalate (sorted.map fun f => Text.quoted f.1 ++ ":" ++ f.2) ++ "\x7d"
  | v => v.shown
where
  detailedAll : List Value → List String
    | [] => []
    | v :: rest => detailed v :: detailedAll rest
  detailedFields : List (String × Value) → List (String × String)
    | [] => []
    | (k, v) :: rest => (k, detailed v) :: detailedFields rest

def duplicates : List Node → List Mismatch
  | [] => []
  | k :: rest =>
    (rest.filter fun other => other.keyMark = k.keyMark).map
      (fun other => .duplicateKey other.line k.keyMark.2 k.line) ++ duplicates rest

def hasDuplicates (pairs : List (Node × Node)) : Decode Bool := do
  let found := duplicates (pairs.map (·.1))
  modify (· ++ found)
  return !found.isEmpty

def keysAreText (pairs : List (Node × Node)) : Bool :=
  pairs.all fun p => p.1.tag = Tag.str || p.1.tag = Tag.merge

def scalarValue (tag text : String) : Except Fault Value := do
  let (found, v) ← resolveAs tag text
  if found = Tag.binary then
    match Text.base64? text.toList with
    | some bytes => return .text (textOf bytes)
    | none => throw .badBinary
  else return v

/-- A key that has to be text: its text as it is written. Without one the pair is left out. -/
def textKey : Node → Decode (Option String)
  | .scalar _ tag text => do
    match ← scalarValue tag text with
    | .null => return none
    | v => return some (if tag = Tag.binary then v.plainText else text)
  | .shared _ _ target => textKey target
  | .within _ name => throw (.selfContained name)
  | n => do
    note (wrongType n "string")
    return none

mutual

def value : Node → Decode (Option Value)
  | .scalar _ tag text => do return some (← scalarValue tag text)
  | .sequence _ _ items => do return some (.list (← values items))
  | .mapping _ _ pairs => do
    if ← hasDuplicates pairs then return none
    return some (.map (← fields (keysAreText pairs) [] pairs))
  | .shared _ _ target => value target
  | .within _ name => throw (.selfContained name)

def values : List Node → Decode (List Value)
  | [] => return []
  | n :: rest => do
    let v ← value n
    let vs ← values rest
    return v.toList ++ vs

/-- Adds the pairs of a mapping to fields that win over them. What is merged comes last. -/
def fields (asText : Bool) (acc : Fields) : List (Node × Node) → Decode Fields
  | [] => return acc
  | (k, v) :: rest => do
    if k.isMergeKey then
      let acc ← fields asText acc rest
      merged asText acc v
    else
      let key ← if asText then textKey k else do
        match ← value k with
        | none => pure none
        | some (.list items) => throw (.badKey (detailed (.list items)))
        | some (.map fs) => throw (.badKey (detailed (.map fs)))
        | some v => pure (some v.plainText)
      match key with
      | none => fields asText acc rest
      | some key =>
        if (acc.get? key).isSome then fields asText acc rest
        else
          match ← value v with
          | some v => fields asText (acc.set key v) rest
          | none => fields asText acc rest

def merged (asText : Bool) (acc : Fields) : Node → Decode Fields
  | .mapping _ _ pairs => do
    if ← hasDuplicates pairs then return acc
    fields asText acc pairs
  | .shared _ _ target =>
    if target.isMapping then merged asText acc target else throw .mergeOfNoMap
  | .sequence _ _ items => mergedAll asText acc items
  | .within _ name => throw (.selfContained name)
  | .scalar _ _ _ => throw .mergeOfNoMap

def mergedAll (asText : Bool) (acc : Fields) : List Node → Decode Fields
  | [] => return acc
  | n :: rest => do
    if !n.isMapping then throw .mergeOfNoMap
    let acc ← merged asText acc n
    mergedAll asText acc rest

end

/-- What was read of a document. Where something is wrong, the settings before it may remain. -/
structure Reading where
  fields : Fields := []
  fault : Option Fault := none

/-- Reads pair after pair, so that those before a fault remain. -/
def topFields (acc : Fields) (noted : List Mismatch) : List (Node × Node) → Reading
  | [] => ⟨acc, if noted.isEmpty then none else some (.mismatched noted)⟩
  | (k, v) :: rest =>
    if k.isMergeKey then
      let others := topFields acc noted rest
      match others.fault with
      | some (.mismatched ms) => finish others.fields (merged true others.fields v ms)
      | some f => ⟨others.fields, some f⟩
      | none => finish others.fields (merged true others.fields v [])
    else
      match fields true acc [(k, v)] noted with
      | .error f => ⟨acc, some f⟩
      | .ok (acc, noted) => topFields acc noted rest
where
  finish (before : Fields) : Except Fault (Fields × List Mismatch) → Reading
    | .error f => ⟨before, some f⟩
    | .ok (fs, []) => ⟨fs, none⟩
    | .ok (fs, ms) => ⟨fs, some (.mismatched ms)⟩

def wantedMap : String := "map[string]interface \x7b\x7d"

def Node.settings : Node → Reading
  | .mapping _ _ pairs =>
    match duplicates (pairs.map (·.1)) with
    | [] => topFields [] [] pairs
    | ms => ⟨[], some (.mismatched ms)⟩
  | .scalar line tag text =>
    match scalarValue tag text with
    | .error f => ⟨[], some f⟩
    | .ok .null => {}
    | .ok _ => ⟨[], some (.mismatched [wrongType (.scalar line tag text) wantedMap])⟩
  | n => ⟨[], some (.mismatched [wrongType n wantedMap])⟩

def read (bytes : ByteArray) : Reading :=
  match charsOf bytes with
  | .error f => ⟨[], some f⟩
  | .ok cs =>
    match Node.read cs with
    | .error f => ⟨[], some f⟩
    | .ok none => {}
    | .ok (some n) => n.settings

end Crosscheck.Yaml
