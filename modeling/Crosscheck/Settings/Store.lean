import Crosscheck.Path
import Crosscheck.Settings.Value
import Crosscheck.Text.UpperCase

/-!
Settings from several places, in the order of precedence that viper 1.19 documents: values set by the
program, flags that were given, variables of the environment, the configuration file, defaults.

Keys are told apart without regard to case, and a dot in a key leads into a map. A value that is no
map hides in weaker places all that is below its key. Empty variables count as not set. In the
configuration file a key that is written with its dots goes before maps in one another.

Left out are aliases of keys, settings from afar, and files that are watched for changes.
-/

namespace Crosscheck.Settings

structure Flag where
  key : String
  changed : Bool
  value : String
  deriving DecidableEq, Repr

/-- The places settings come from, strongest first: those set by the program, changed flags, the
environment, the configuration file and the defaults. Without an environment none is looked at. -/
structure Store where
  override : Fields := []
  flags : List Flag := []
  env : Option (List (String × String)) := none
  config : Fields := []
  defaults : Fields := []

def keyPath (key : String) : List String := (Path.splitAt '.' key.toList).map String.ofList

def keyOf (path : List String) : String := ".".intercalate path

/-- The value at a path. Null counts as nothing. -/
def lookup : Fields → List String → Option Value
  | fs, [] => some (.map fs)
  | fs, k :: rest =>
    match fs.get? k with
    | none => none
    | some v =>
      match rest, v with
      | [], .null => none
      | [], v => some v
      | _ :: _, .map inner => lookup inner rest
      | _ :: _, _ => none

def isShadowed (fs : Fields) (path : List String) : Bool :=
  let prefixes := (List.range (path.length - 1)).map fun i => path.take (i + 1)
  match prefixes.find? (fun p =>
      match lookup fs p with
      | some (.map _) => false
      | _ => true) with
  | some p => (lookup fs p).isSome
  | none => false

def listIndex? (key : String) (items : List Value) : Option Value :=
  match Text.int64? key.toList with
  | some i => if 0 ≤ i then items[i.toInt.toNat]? else none
  | none => none

/-- The value at a path where keys may hold dots: the longest key goes first. Lists are indexed
by numbers. The fuel bounds the number of keys taken. -/
def search : Nat → Value → List String → Option Value
  | 0, _, _ => none
  | _ + 1, v, [] => some v
  | fuel + 1, v, path =>
    let lengths := (List.range path.length).map fun i => path.length - i
    lengths.findSome? fun n =>
      let key := Text.lowered (keyOf (path.take n))
      let next := match v with
        | .map fs => Fields.get? fs key
        | .list items => listIndex? key items
        | _ => none
      match next with
      | none => none
      | some .null => none
      | some found =>
        match path.drop n, found with
        | [], found => some found
        | rest, .map fs => search fuel (.map fs) rest
        | rest, .list items => search fuel (.list items) rest
        | _, _ => none

def searchConfig (fs : Fields) (path : List String) : Option Value :=
  search (path.length + 1) (.map fs) path

namespace Store

def envPrefix : String := "ASMDIFF_"

def envName (key : String) : String :=
  String.ofList ((Text.uppered (envPrefix ++ key)).toList.map fun c => if c = '.' then '_' else c)

def envValue? (s : Store) (key : String) : Option String :=
  match s.env with
  | none => none
  | some vars =>
    match vars.find? fun v => v.1 = envName key with
    | some (_, value) => if value = "" then none else some value
    | none => none

def parents (path : List String) : List String :=
  (List.range (path.length - 1)).map fun i => keyOf (path.take (i + 1))

/-- Goes on to the weaker places unless the path is hidden from them. -/
def orElse (found : Option Value) (hidden : Bool) (weaker : Unit → Option Value) : Option Value :=
  match found with
  | some v => some v
  | none => if hidden then none else weaker ()

def flag? (s : Store) (key : String) : Option Flag := s.flags.find? fun f => f.key = key

def find? (s : Store) (key : String) : Option Value :=
  let path := keyPath key
  orElse (lookup s.override path) (isShadowed s.override path) fun _ =>
  orElse
    (match s.flag? key with
      | some f => if f.changed then some (.text f.value) else none
      | none => none)
    ((parents path).any fun p => (s.flag? p).isSome) fun _ =>
  orElse ((s.envValue? key).map .text) ((parents path).any fun p => (s.envValue? p).isSome) fun _ =>
  orElse (searchConfig s.config path) (isShadowed s.config path) fun _ =>
  orElse (lookup s.defaults path) (isShadowed s.defaults path) fun _ =>
  (s.flag? key).map fun f => .text f.value

def get? (s : Store) (key : String) : Option Value := s.find? (Text.lowered key)

def getText (s : Store) (key : String) : String := ((s.get? key).map Value.plainText).getD ""

mutual

/-- The keys of the values below a map, after those of stronger places. What is below a key that
has a value in a stronger place is left out. -/
def leafKeys (seen : List String) (start : String) : Value → List String
  | .map fields => if start ≠ "" ∧ seen.contains start then seen else leafKeysIn seen start fields
  | _ => Text.lowered start :: seen

def leafKeysIn (seen : List String) (start : String) : List (String × Value) → List String
  | [] => seen
  | (k, v) :: rest =>
    let full := if start = "" then k else start ++ "." ++ k
    leafKeysIn (leafKeys seen full v) start rest

end

def flagKeys (seen : List String) (flags : List Flag) : List String :=
  flags.foldl
    (fun seen f =>
      if (parents (keyPath f.key)).any seen.contains then seen else Text.lowered f.key :: seen)
    seen

def keys (s : Store) : List String :=
  let seen := leafKeysIn [] "" s.override
  let seen := flagKeys seen s.flags
  let seen := leafKeysIn seen "" s.config
  let seen := leafKeysIn seen "" s.defaults
  seen.eraseDups.mergeSort fun a b => decide (a ≤ b)

/-- Puts a value at a path; what is no map on the way is replaced by one. -/
def putAt (fs : Fields) (v : Value) : List String → Fields
  | [] => fs
  | [k] => fs.set k v
  | k :: rest =>
    match fs.get? k with
    | some (.map inner) => fs.set k (.map (putAt inner v rest))
    | _ => fs.set k (.map (putAt [] v rest))

def settings (s : Store) : Fields :=
  s.keys.foldl
    (fun fs key =>
      match s.get? key with
      | some v => putAt fs v (keyPath key)
      | none => fs)
    []

def set (s : Store) (key : String) (v : Value) : Store :=
  { s with override := putAt s.override v.lowerMaps (keyPath (Text.lowered key)) }

def withConfig (s : Store) (fs : Fields) : Store :=
  match Value.lowerAll (.map fs) with
  | .map fs => { s with config := fs }
  | _ => s

end Store

end Crosscheck.Settings
