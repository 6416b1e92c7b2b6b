import Crosscheck.FileSystem.Access
import Crosscheck.Settings.OfJson
import Crosscheck.Settings.Value
import Crosscheck.Text.Utf8
import Crosscheck.Yaml.Document

/-!
Configuration files are looked for and told apart by their extensions as viper 1.19 documents it. YAML
and JSON are read here; the readers of other formats are given by `Decoders`.
-/

namespace Crosscheck.Cli

open Settings (Fields Value)

inductive FileFault where
  | unsupported (type : String)
  | os (e : OsError)
  | yaml (f : Yaml.Fault)
  | json (f : Json.Fault)
  | notObject (kind : String)
  | badNumber (text : String)
  | undecodable (reason : String)
  deriving DecidableEq, Repr

def FileFault.message : FileFault → String
  | .unsupported type => "Unsupported Config Type " ++ Text.quoted type
  | .os e => e.message
  | .yaml f => "While parsing config: " ++ f.message
  | .json f => "While parsing config: " ++ f.message
  | .notObject kind =>
    "While parsing config: json: cannot unmarshal " ++ kind ++
      " into Go value of type map[string]interface \x7b\x7d"
  | .badNumber text =>
    "While parsing config: json: cannot unmarshal number " ++ text ++
      " into Go value of type float64"
  | .undecodable reason => "While parsing config: " ++ reason

def jsonKind : Json → String
  | .null => "null"
  | .bool _ => "bool"
  | .number _ => "number"
  | .string _ => "string"
  | .array _ => "array"
  | .object _ => "object"

def jsonFields (bytes : ByteArray) : Except FileFault Fields :=
  match Json.read ((Text.pieces bytes).map Text.Piece.toChar) with
  | .error f => .error (.json f)
  | .ok .null => .ok []
  | .ok (.object fields) =>
    match Value.ofFields Settings.numberDecimal [] fields with
    | .ok fs => .ok fs
    | .error t => .error (.badNumber t)
  | .ok j => .error (.notObject (jsonKind j))

def yamlFields (bytes : ByteArray) : Except FileFault Fields :=
  let r := Yaml.read bytes
  match r.fault with
  | none => .ok r.fields
  | some f => .error (.yaml f)

def readWith (fs : FileSystem) (read : ByteArray → Except FileFault Fields) (path : String) :
    Except FileFault Fields :=
  match fs.readFile path with
  | .error e => .error (.os e)
  | .ok bytes => read bytes

def configExtensions : List String :=
  ["json", "toml", "yaml", "yml", "properties", "props", "prop", "hcl", "tfvars", "dotenv", "env",
    "ini"]

/-- The readers of the formats other than YAML and JSON, by the extensions that stand for them. -/
abbrev Decoders := String → ByteArray → Except String Fields

/-- Reads the configuration file that was asked for. Its extension says what is in it. -/
def readGiven (decoders : Decoders) (fs : FileSystem) (path : String) : Except FileFault Fields :=
  let type := String.ofList ((Path.ext path).toList.drop 1)
  if type = "yaml" ∨ type = "yml" then readWith fs yamlFields path
  else if type = "json" then readWith fs jsonFields path
  else if configExtensions.contains type then
    readWith fs (fun bytes => (decoders type bytes).mapError .undecodable) path
  else .error (.unsupported type)

def configName : String := "asmdiff"

def configPaths (dir : String) : List String :=
  configExtensions.map (fun ext => Path.join [dir, configName ++ "." ++ ext]) ++
    [Path.join [dir, configName]]

def locate? (fs : FileSystem) (dirs : List String) : Option String :=
  dirs.findSome? fun dir => (configPaths dir).find? fs.fileExists

end Crosscheck.Cli
