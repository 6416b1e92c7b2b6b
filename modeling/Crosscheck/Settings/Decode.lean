import Crosscheck.Config
import Crosscheck.Settings.Value
import Crosscheck.Text.Quoted

/-!
Settings are given their types by the rules that mapstructure 1.5 documents for weakly typed input,
with the two conversions that viper puts in front of them: text becomes a duration where one is asked
for, and text becomes a list by its commas.

Truth values and numbers become text, numbers and some words become truth values, nothing becomes the
zero of its type, and a single value becomes a list of one. The names of fields are compared without
regard to case; a field that is not known is passed over. What is wrong is collected from all fields
and told at once.
-/

namespace Crosscheck.Settings

inductive DecodeFault where
  | duration (field text : String) (f : Duration.Fault)
  | flag (field text : String)
  | notMap (field kind : String)
  | unconvertible (field wanted got shown : String)
  deriving DecidableEq, Repr

def DecodeFault.message : DecodeFault → String
  | .duration field text f => "error decoding '" ++ field ++ "': " ++ f.message text
  | .flag field text =>
    "cannot parse '" ++ field ++ "' as bool: strconv.ParseBool: parsing " ++ Text.quoted text ++
      ": invalid syntax"
  | .notMap field kind => "'" ++ field ++ "' expected a map, got '" ++ kind ++ "'"
  | .unconvertible field wanted got shown =>
    "'" ++ field ++ "' expected type '" ++ wanted ++ "', got unconvertible type '" ++ got ++
      "', value: '" ++ shown ++ "'"

structure Decoded (α : Type) where
  value : α
  faults : List DecodeFault := []

def unconvertible {α : Type} (zero : α) (field wanted : String) (v : Value) : Decoded α :=
  ⟨zero, [.unconvertible field wanted v.typeName v.shown]⟩

/-- Single values become text; truth values become digits. -/
def decodeText (wanted field : String) (v : Value) : Decoded String :=
  match v with
  | .null => ⟨"", []⟩
  | .text s => ⟨s, []⟩
  | .bool b => ⟨if b then "1" else "0", []⟩
  | .int i => ⟨Value.decimal i.toInt, []⟩
  | .uint n => ⟨Value.decimal n.toNat, []⟩
  | .float d => ⟨Decimal.positional d, []⟩
  | .duration d => ⟨Value.decimal d.toInt, []⟩
  | v => unconvertible "" field wanted v

def truth? (s : String) : Option Bool :=
  if ["1", "t", "T", "TRUE", "true", "True"].contains s then some true
  else if ["0", "f", "F", "FALSE", "false", "False"].contains s then some false
  else none

def decodeFlag (field : String) (v : Value) : Decoded Bool :=
  match v with
  | .null => ⟨false, []⟩
  | .bool b => ⟨b, []⟩
  | .int i => ⟨i != 0, []⟩
  | .uint n => ⟨n != 0, []⟩
  | .float d => ⟨!d.isZero, []⟩
  | .duration d => ⟨d.ns != 0, []⟩
  | .text s =>
    match truth? s with
    | some b => ⟨b, []⟩
    | none => if s = "" then ⟨false, []⟩ else ⟨false, [.flag field s]⟩
  | v => unconvertible false field "bool" v

/-- Text is read as a duration; numbers are nanoseconds. -/
def decodeDuration (field : String) (v : Value) : Decoded Duration :=
  match v with
  | .null => ⟨.zero, []⟩
  | .duration d => ⟨d, []⟩
  | .int i => ⟨⟨i⟩, []⟩
  | .uint n => ⟨⟨n.toInt64⟩, []⟩
  | .float d => ⟨⟨d.toInt64⟩, []⟩
  | .bool b => ⟨⟨if b then 1 else 0⟩, []⟩
  | .text s =>
    match Duration.parse s with
    | .ok d => ⟨d, []⟩
    | .error f => ⟨.zero, [.duration field s f]⟩
  | v => unconvertible .zero field "time.Duration" v

/-- Text is split at commas, and any other single value becomes a list of one. -/
def listItems? : Value → Option (List Value)
  | .null => none
  | .list items => some items
  | .text s =>
    if s = "" then some []
    else some ((Path.splitAt ',' s.toList).map fun cs => .text (String.ofList cs))
  | .map [] => some []
  | v => some [v]

def decodeEach {α : Type} (field : String) (decode : String → Value → Decoded α) :
    Nat → List Value → Decoded (List α)
  | _, [] => ⟨[], []⟩
  | i, v :: rest =>
    let d := decode (field ++ "[" ++ String.ofList (Nat.toDigits 10 i) ++ "]") v
    let ds := decodeEach field decode (i + 1) rest
    ⟨d.value :: ds.value, d.faults ++ ds.faults⟩

/-- A list that is not given is told from an empty one. -/
def decodeList {α : Type} (field : String) (decode : String → Value → Decoded α) (v : Value) :
    Decoded (Option (List α)) :=
  match listItems? v with
  | none => ⟨none, []⟩
  | some items =>
    let ds := decodeEach field decode 0 items
    ⟨some ds.value, ds.faults⟩

/-- The fields of a part. A point in time counts as a part without fields. -/
def decodeFields (field : String) (v : Value) : Decoded Fields :=
  match v with
  | .null => ⟨[], []⟩
  | .map fs => ⟨fs, []⟩
  | .time _ => ⟨[], []⟩
  | v => ⟨[], [.notMap field v.kind]⟩

/-- The field with a name, or with one that differs only in case. -/
def fieldNamed (fs : Fields) (name : String) : Value :=
  match fs.get? name with
  | some v => v
  | none => ((fs.find? fun f => Text.sameFolded f.1 name).map (·.2)).getD .null

structure ToolDraft where
  tool : Tool
  byproducts : Option (List String)

def decodeTool (field : String) (v : Value) : Decoded ToolDraft :=
  let fs := decodeFields field v
  let at_ (name : String) : String := field ++ "." ++ name
  let text (name : String) : Decoded String := decodeText "string" (at_ name) (fieldNamed fs.value name)
  let name := text "name"
  let path := text "path"
  let role := decodeText "harness.Role" (at_ "role") (fieldNamed fs.value "role")
  let outputDir := text "output_dir"
  let dismissWindow := decodeFlag (at_ "dismiss_window") (fieldNamed fs.value "dismiss_window")
  let windowTitle := text "window_title"
  let byproducts := decodeList (at_ "byproducts") (decodeText "string") (fieldNamed fs.value "byproducts")
  { value :=
      { tool :=
          { name := name.value, path := path.value, role := ⟨role.value⟩
            outputDir := outputDir.value, dismissWindow := dismissWindow.value
            windowTitle := windowTitle.value }
        byproducts := byproducts.value }
    faults := fs.faults ++ name.faults ++ path.faults ++ role.faults ++ outputDir.faults ++
      dismissWindow.faults ++ windowTitle.faults ++ byproducts.faults }

structure Draft where
  root : String
  corpusDir : String
  corpusExt : String
  artifactExt : String
  timing : Timing
  tools : List ToolDraft
  log : Log.Options

def decodeTiming (v : Value) : Decoded Timing :=
  let fs := decodeFields "timing" v
  let span (name : String) : Decoded Duration :=
    decodeDuration ("timing." ++ name) (fieldNamed fs.value name)
  let processTimeout := span "process_timeout"
  let dismissGrace := span "dismiss_grace"
  let dismissInterval := span "dismiss_interval"
  let watcherStopTimeout := span "watcher_stop_timeout"
  { value :=
      ⟨processTimeout.value, dismissGrace.value, dismissInterval.value, watcherStopTimeout.value⟩
    faults := fs.faults ++ processTimeout.faults ++ dismissGrace.faults ++
      dismissInterval.faults ++ watcherStopTimeout.faults }

def decode (settings : Fields) : Decoded Draft :=
  let text (fs : Fields) (part name : String) : Decoded String :=
    decodeText "string" (part ++ name) (fieldNamed fs name)
  let root := text settings "" "root"
  let corpus := decodeFields "corpus" (fieldNamed settings "corpus")
  let corpusDir := text corpus.value "corpus." "dir"
  let corpusExt := text corpus.value "corpus." "extension"
  let artifact := decodeFields "artifact" (fieldNamed settings "artifact")
  let artifactExt := text artifact.value "artifact." "extension"
  let timing := decodeTiming (fieldNamed settings "timing")
  let tools := decodeList "tools" decodeTool (fieldNamed settings "tools")
  let log := decodeFields "log" (fieldNamed settings "log")
  let level := text log.value "log." "level"
  let file := text log.value "log." "file"
  { value :=
      { root := root.value, corpusDir := corpusDir.value, corpusExt := corpusExt.value
        artifactExt := artifactExt.value, timing := timing.value
        tools := tools.value.getD [], log := { level := level.value, file := file.value } }
    faults := root.faults ++ corpus.faults ++ corpusDir.faults ++ corpusExt.faults ++
      artifact.faults ++ artifactExt.faults ++ timing.faults ++ tools.faults ++ log.faults ++
      level.faults ++ file.faults }

/-- All faults as one message, in the order of their texts. -/
def faultsMessage (fs : List DecodeFault) : String :=
  let points := (fs.map fun f => "* " ++ f.message).mergeSort fun a b => decide (a ≤ b)
  String.ofList (Nat.toDigits 10 fs.length) ++ " error(s) decoding:\n\n" ++ "\n".intercalate points

end Crosscheck.Settings
