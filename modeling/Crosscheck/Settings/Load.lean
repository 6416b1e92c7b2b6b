import Crosscheck.Settings.Decode
import Crosscheck.Settings.Store

namespace Crosscheck.Settings

def toolFields (t : Tool) : Value :=
  .map [("name", .text t.name), ("path", .text t.path), ("role", .text t.role.name),
    ("output_dir", .text t.outputDir), ("dismiss_window", .bool t.dismissWindow),
    ("window_title", .text t.windowTitle), ("byproducts", .list (t.byproducts.map .text))]

def defaults : Fields :=
  [("corpus", .map [("dir", .text "testFiles"), ("extension", .text ".asm")]),
    ("artifact", .map [("extension", .text ".hex")]),
    ("timing", .map (Timing.default.fields.map fun f => (f.1, .duration f.2))),
    ("log", .map [("level", .text "warn")]),
    ("tools", .list (Config.defaultTools.map toolFields))]

inductive LoadFault where
  | undecodable (faults : List DecodeFault)
  | noProgram (reason : String)
  | noRoot (root reason : String)
  | invalid (f : ConfigFault)
  deriving DecidableEq, Repr

def LoadFault.cause (_ : LoadFault) : Cause := .invalidConfig

def LoadFault.message : LoadFault → String
  | .undecodable fs => Cause.invalidConfig.because (faultsMessage fs)
  | .noProgram reason =>
    Cause.invalidConfig.because ("cannot locate harness executable: " ++ reason)
  | .noRoot root reason =>
    Cause.invalidConfig.because ("cannot resolve root " ++ Text.quoted root ++ ": " ++ reason)
  | .invalid f => f.message

def ToolDraft.finish (root : String) (d : ToolDraft) : Tool :=
  ({ d.tool with byproducts := d.byproducts.getD Config.defaultByproducts } : Tool).resolved root

/-- The root of a configuration, which is the directory of the program unless one is given. The
system may not tell that directory, or the one that a relative root starts at, and says why. -/
def locateRoot (cwd exeDir : Except String String) (given : String) : Except LoadFault String :=
  match if given = "" then exeDir else .ok given with
  | .error reason => .error (.noProgram reason)
  | .ok root =>
    if Path.isAbs root then .ok (Path.clean root)
    else
      match cwd with
      | .error reason => .error (.noRoot root reason)
      | .ok dir => .ok (Path.abs dir root)

def Draft.finish (root : String) (d : Draft) : Config where
  root := root
  corpusDir := resolvePath root d.corpusDir
  corpusExt := d.corpusExt
  artifactExt := d.artifactExt
  timing := d.timing
  tools := d.tools.map (ToolDraft.finish root)
  log := d.log

def load (s : Store) (cwd exeDir : Except String String) : Except LoadFault Config :=
  let d := decode s.settings
  if d.faults ≠ [] then .error (.undecodable d.faults)
  else
    match locateRoot cwd exeDir d.value.root with
    | .error f => .error f
    | .ok root =>
      let c := d.value.finish root
      match c.fault? with
      | some f => .error (.invalid f)
      | none => .ok c

end Crosscheck.Settings
