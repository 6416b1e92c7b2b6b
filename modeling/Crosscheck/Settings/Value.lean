import Crosscheck.Decimal.Shortest
import Crosscheck.Duration
import Crosscheck.Text.LowerCase

/-!
Settings as they come from a file, before they have a type. Keys are put in lower case as viper 1.19
does it: all the way down through maps, but not through lists, when a single value is set; for a file
also in the maps of a list.
-/

namespace Crosscheck.Settings

inductive Value where
  | null
  | bool (b : Bool)
  | int (i : Int64)
  | uint (n : UInt64)
  | float (d : Decimal.Double)
  | text (s : String)
  | duration (d : Duration)
  | time (shown : String)
  | list (items : List Value)
  | map (fields : List (String × Value))
  deriving Inhabited

abbrev Fields := List (String × Value)

def Fields.get? (fs : Fields) (key : String) : Option Value :=
  (fs.find? fun f => f.1 = key).map (·.2)

def Fields.set (fs : Fields) (key : String) (v : Value) : Fields :=
  (key, v) :: fs.filter fun f => f.1 ≠ key

namespace Value

def isNull : Value → Bool
  | null => true
  | _ => false

def decimal (i : Int) : String := String.ofList (Text.int i)

/-- The value as it is shown inside a message; the fields of a map are in order of their
keys. -/
def shown : Value → String
  | null => "<nil>"
  | bool b => toString b
  | int i => decimal i.toInt
  | uint n => decimal n.toNat
  | float d => Decimal.general d
  | text s => s
  | duration d => d.render
  | time s => s
  | list items => "[" ++ " ".intercalate (shownAll items) ++ "]"
  | map fields =>
    let sorted := (shownFields fields).mergeSort fun a b => decide (a.1 ≤ b.1)
    "map[" ++ " ".intercalate (sorted.map fun f => f.1 ++ ":" ++ f.2) ++ "]"
where
  shownAll : List Value → List String
    | [] => []
    | v :: rest => shown v :: shownAll rest
  shownFields : List (String × Value) → List (String × String)
    | [] => []
    | (k, v) :: rest => (k, shown v) :: shownFields rest

def kind : Value → String
  | null => "invalid"
  | bool _ => "bool"
  | int _ => "int"
  | uint _ => "uint64"
  | float _ => "float64"
  | text _ => "string"
  | duration _ => "int64"
  | time _ => "struct"
  | list _ => "slice"
  | map _ => "map"

def typeName : Value → String
  | null => "<nil>"
  | bool _ => "bool"
  | int _ => "int"
  | uint _ => "uint64"
  | float _ => "float64"
  | text _ => "string"
  | duration _ => "time.Duration"
  | time _ => "time.Time"
  | list _ => "[]interface \x7b\x7d"
  | map _ => "map[string]interface \x7b\x7d"

def plainText : Value → String
  | null => ""
  | bool b => toString b
  | int i => decimal i.toInt
  | uint n => decimal n.toNat
  | float d => Decimal.positional d
  | text s => s
  | duration d => d.render
  | time s => s
  | list _ => ""
  | map _ => ""

/-- Lower-cases the keys of a map and of the maps in it, but not below lists. -/
def lowerMaps : Value → Value
  | map fields => map (lowerFields fields)
  | v => v
where
  lowerFields : List (String × Value) → List (String × Value)
    | [] => []
    | (k, v) :: rest => (Text.lowered k, lowerMaps v) :: lowerFields rest

/-- Lower-cases keys. Where two keys become the same, one that was not in lower case counts. -/
def mergedLower (fields : Fields) : Fields :=
  let (same, changed) := fields.partition fun f => Text.lowered f.1 = f.1
  changed.foldl (fun fs f => fs.set (Text.lowered f.1) f.2) same

def lowerAll : Value → Value
  | map fields => map (mergedLower (lowerAllFields fields))
  | list items => list (lowerAllItems items)
  | v => v
where
  lowerAllFields : List (String × Value) → List (String × Value)
    | [] => []
    | (k, v) :: rest => (k, lowerAll v) :: lowerAllFields rest
  lowerAllItems : List Value → List Value
    | [] => []
    | v :: rest => lowerAll v :: lowerAllItems rest

end Value

end Crosscheck.Settings
