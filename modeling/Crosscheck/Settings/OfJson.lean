import Crosscheck.Json.Reader
import Crosscheck.Settings.Value

namespace Crosscheck.Settings

def numberExact (text : String) : Option Value :=
  match Text.int64? text.toList with
  | some i => some (.int i)
  | none => (Decimal.read? text.toList).map .float

def numberDecimal (text : String) : Option Value :=
  match Decimal.read? text.toList with
  | some d => if d.isFinite then some (.float d) else none
  | none => none

mutual

/-- The value a document stands for, or the first number in it that is none. Of two fields with
the same name the later counts. -/
def Value.ofJson (number : String → Option Value) : Json → Except String Value
  | .null => .ok .null
  | .bool b => .ok (.bool b)
  | .number t =>
    match number t with
    | some v => .ok v
    | none => .error t
  | .string s => .ok (.text s)
  | .array items => (Value.ofItems number items).map .list
  | .object fields => (Value.ofFields number [] fields).map .map

def Value.ofItems (number : String → Option Value) : List Json → Except String (List Value)
  | [] => .ok []
  | j :: rest => do
    let v ← Value.ofJson number j
    let vs ← Value.ofItems number rest
    return v :: vs

def Value.ofFields (number : String → Option Value) (acc : Fields) :
    List (String × Json) → Except String Fields
  | [] => .ok acc
  | (k, j) :: rest => do
    let v ← Value.ofJson number j
    Value.ofFields number (acc.set k v) rest

end

end Crosscheck.Settings
