import Crosscheck.Cli.Run
import Crosscheck.Program.Reader

/-!
The program itself. A call is run on a copy of the files that it looks at, and what it changed is
then changed on disk. Tools are run if they are scripts, as `Program.Script.read?` reads them; any
other file is no program that can be started from here, and a session says so of it.
-/

namespace Crosscheck.Cli

/-- The settings that the environment may give, whole sections among them. -/
def environmentKeys : List String :=
  ["root", "corpus", "corpus.dir", "corpus.extension", "artifact", "artifact.extension", "timing"] ++
    Timing.default.fields.map (fun f => "timing." ++ f.1) ++
    ["tools", "log", "log.level", "log.file"]

/-- What a call looks at: a file, a directory alone, one with what is right in it, or one with all
that is below it. -/
inductive Sight where
  | file (path : String) (mode : Nat)
  | dir (path : String)
  | listing (path : String)
  | tree (path : String)

def Sight.plainFile (path : String) : Sight := .file path FileSystem.newFileMode

def Sight.program (path : String) : Sight := .file path 0o755

def settingsSights (call : Call) (flags : Flags) (cwd : String) : List Sight :=
  .dir cwd ::
    (if flags.config ≠ "" then [flags.config]
    else (call.exeDir.toOption.toList ++ [cwd]).flatMap configPaths).map .plainFile

def sessionSights (c : Config) : List Sight :=
  [.listing c.corpusDir, .dir (Path.dir c.log.file), .plainFile c.log.file] ++
    c.tools.flatMap fun t => [.program t.path, .tree t.outputDir]

def commandSights (call : Call) (flags : Flags) (fs : FileSystem) (command : Command)
    (args : List String) : List Sight :=
  match settingsOf call flags fs with
  | .error _ => []
  | .ok (s, _) =>
    match command, args with
    | .compare, [dir₁, dir₂, name] =>
      let file := Path.trimEnd name (Path.ext name) ++ s.getText "artifact.extension"
      [.plainFile (Path.join [dir₁, file]), .plainFile (Path.join [dir₂, file])]
    | .config, _ => [.dir (Path.dir flags.output), .plainFile flags.output]
    | _, _ =>
      match loadConfig call fs s with
      | .ok c => sessionSights c
      | .error _ => []

def emptyFiles (cwd : String) : FileSystem where
  nodes := [([], .dir FileSystem.newDirMode)]
  nextId := 0
  cwd := Path.components cwd
  mounts := []
  privileged := true

def withFile (fs : FileSystem) (path : String) (mode : Nat) (bytes : ByteArray) : FileSystem :=
  let path := Path.abs (Runner.workingDir fs) path
  (fs.mkdirAll (Path.dir path)).1.addFile (Path.components path) mode bytes

def readFile (fs : FileSystem) (path : String) (mode : Nat) : IO FileSystem := do
  try return withFile fs path mode (← IO.FS.readBinFile path)
  catch _ => return fs

def readDir (fs : FileSystem) (path : String) (enters : String → Bool) : IO FileSystem := do
  let root := (← IO.currentDir) / path
  if !(← root.isDir) then return fs
  let mut fs := (fs.mkdirAll path).1
  for entry in ← root.walkDir fun dir => return enters (toString dir) do
    let found ← entry.metadata.toBaseIO
    match found.toOption.map IO.FS.Metadata.type with
    | some .dir => fs := (fs.mkdirAll (toString entry)).1
    | some .file => fs ← readFile fs (toString entry) FileSystem.newFileMode
    | _ => pure ()
  return fs

def readSight (fs : FileSystem) : Sight → IO FileSystem
  | .file path mode => readFile fs path mode
  | .dir path => readDir fs path fun _ => false
  | .listing path => readDir fs path fun dir => dir == path
  | .tree path => readDir fs path fun _ => true

def environment (keys : List String) : IO (List (String × String)) :=
  keys.filterMapM fun key => do
    let name := Settings.Store.envName key
    return (← IO.getEnv name).map fun value => (name, value)

def removeGone (before after : FileSystem) : IO Unit := do
  -- what is below a directory goes before it
  for (loc, node) in before.nodes.mergeSort fun a b => b.1.length ≤ a.1.length do
    if (after.get? loc).isNone then
      let path := "/" ++ "/".intercalate loc
      if node.isDir then IO.FS.removeDirAll path else IO.FS.removeFile path

def writeNew (before after : FileSystem) : IO Unit := do
  for (loc, node) in after.nodes do
    let path := "/" ++ "/".intercalate loc
    match node, before.get? loc with
    | .dir _, none => IO.FS.createDirAll path
    | .file _ _ bytes, some (.file _ _ old) => if bytes != old then IO.FS.writeBinFile path bytes
    | .file _ _ bytes, none =>
      IO.FS.createDirAll ("/" ++ "/".intercalate loc.dropLast)
      IO.FS.writeBinFile path bytes
    | _, _ => pure ()

def runHere (call : Call) (cwd : String) : IO Outcome := do
  let launch := Program.Script.launch Program.Script.read? []
  let (command, rest) := find call.args
  match readFlags command {} [] rest with
  | .error _ => return run launch call (emptyFiles cwd)
  | .ok (flags, args) =>
    let fs ← (settingsSights call flags cwd).foldlM readSight (emptyFiles cwd)
    let fs ← (commandSights call flags fs command args).foldlM readSight fs
    let o := run launch call fs
    removeGone fs o.fs
    writeNew fs o.fs
    return o

end Crosscheck.Cli

open Crosscheck Crosscheck.Cli in
def main (args : List String) : IO UInt32 := do
  let cwd := toString (← IO.currentDir)
  let exe := toString (← IO.appPath)
  let call : Call :=
    { args, env := ← environment environmentKeys, exeDir := .ok (Path.dir exe)
      tty := ← (← IO.getStdout).isTty, sessionId := toString (← IO.monoNanosNow) }
  let o ← runHere call cwd
  IO.print o.stdout
  IO.eprint o.stderr
  return o.exit.toUInt32
