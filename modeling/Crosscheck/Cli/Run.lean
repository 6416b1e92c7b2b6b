import Crosscheck.Cli.ConfigFile
import Crosscheck.Cli.Flags
import Crosscheck.Cli.Help
import Crosscheck.Session.Standard
import Crosscheck.Settings.Dump
import Crosscheck.Text.Columns

namespace Crosscheck.Cli

open Settings (Store)

/-- How the program was called. The system may not tell in which directory the program is, and
says why then. Each session gets an identifier for its log. -/
structure Call where
  args : List String
  env : List (String × String)
  exeDir : Except String String
  tty : Bool
  sessionId : String
  decoders : Decoders := fun _ _ => .error "decoder not found for this format"

def Call.searchDirs (call : Call) (fs : FileSystem) : List String :=
  call.exeDir.toOption.toList ++ [Runner.workingDir fs]

structure Outcome where
  exit : Nat
  stdout : String
  stderr : String
  fs : FileSystem

def Outcome.success (fs : FileSystem) (stdout : String) : Outcome := ⟨0, stdout, "", fs⟩

def Outcome.failure (fs : FileSystem) (message : String) : Outcome :=
  ⟨1, "", "Error: " ++ message ++ "\n", fs⟩

def Outcome.noted (o : Outcome) (note : String) : Outcome := { o with stderr := note ++ o.stderr }

def Flags.bound (fs : Flags) : List Settings.Flag :=
  [⟨"root", fs.root.isSome, fs.root.getD ""⟩, ⟨"log.file", fs.logFile.isSome, fs.logFile.getD ""⟩]

def startStore (call : Call) (flags : Flags) : Store :=
  { flags := flags.bound, env := some call.env, defaults := Settings.defaults }

def usingNote (path : String) : String := "Using config file: " ++ path ++ "\n"

/-- Reads the configuration file. One that was asked for has to be readable; one that was only
found is passed over if it is not. -/
def readConfig (call : Call) (flags : Flags) (fs : FileSystem) :
    Except FileFault (Settings.Fields × String) :=
  if flags.config ≠ "" then
    (readGiven call.decoders fs flags.config).map fun fields => (fields, usingNote flags.config)
  else
    match locate? fs (call.searchDirs fs) with
    | none => .ok ([], "")
    | some path =>
      match readWith fs yamlFields path with
      | .ok fields => .ok (fields, usingNote path)
      | .error _ => .ok ([], "")

def settingsOf (call : Call) (flags : Flags) (fs : FileSystem) :
    Except FileFault (Store × String) :=
  match readConfig call flags fs with
  | .error f => .error f
  | .ok (fields, note) =>
    let s := (startStore call flags).withConfig fields
    .ok (if flags.verbose then s.set "log.level" (.text "debug") else s, note)

def loadConfig (call : Call) (fs : FileSystem) (s : Store) : Except Settings.LoadFault Config :=
  Settings.load s (.ok (Runner.workingDir fs)) call.exeDir

def corpusMessage (c : Config) (f : Corpus.Fault) : String :=
  let dir := Path.base c.corpusDir
  match f.cause with
  | .corpusNotFound => "Error: " ++ dir ++ " folder not found\n"
  | _ => "No " ++ c.corpusExt ++ " files found in " ++ dir ++ " folder\n"

def linesOf (log : List String) : String := "".intercalate (log.map (· ++ "\n"))

/-- What a finished session leaves behind. A corpus without cases is told on standard output. -/
def sessionOutcome (c : Config) (result : Except Session.Fault (Report RunFault)) (w : World) :
    Outcome :=
  match result with
  | .ok r => ⟨r.exitCode, w.console, linesOf w.log, w.fs⟩
  | .error (.corpus f) => ⟨1, w.console ++ corpusMessage c f, linesOf w.log, w.fs⟩
  | .error f => ⟨1, w.console, linesOf w.log ++ "Error: " ++ f.message ++ "\n", w.fs⟩

def session (launch : Program.Launch) (call : Call) (s : Store) (fs : FileSystem) : Outcome :=
  match loadConfig call fs s with
  | .error f => .failure fs f.message
  | .ok c =>
    match Log.Logger.make fs c.log with
    | .error f => .failure fs f.message
    | .ok (fs, logger) =>
      let logger := Session.sessionLogger logger call.sessionId
      let (result, w) := Session.run (Session.standard launch false call.tty logger c) c { fs }
      sessionOutcome c result w

def toolFlags (t : Tool) : List String :=
  (if t.dismissWindow then ["dismiss-window=" ++ Text.quoted t.windowTitle] else []) ++
    (if t.byproducts.isEmpty then [] else ["discard=" ++ ",".intercalate t.byproducts])

def isFound (fs : FileSystem) (t : Tool) : Bool := fs.fileExists t.path

def toolRow (fs : FileSystem) (t : Tool) : List String :=
  [t.name, t.role.name, if isFound fs t then "yes" else "no", t.path, t.outputDir,
    " ".intercalate (toolFlags t)]

def tableRow (cells : List String) : String := "\t".intercalate cells ++ "\n"

def columnGap : Nat := 2

def toolTable (fs : FileSystem) (tools : List Tool) : String :=
  let rows := ["NAME", "ROLE", "FOUND", "PATH", "OUTPUT", "FLAGS"] :: tools.map (toolRow fs)
  Text.aligned columnGap ("".intercalate (rows.map tableRow))

def listTools (call : Call) (s : Store) (fs : FileSystem) : Outcome :=
  match loadConfig call fs s with
  | .error f => .failure fs f.message
  | .ok c => .success fs (toolTable fs c.tools)

def showConfig (call : Call) (output : String) (s : Store) (fs : FileSystem) : Outcome :=
  match loadConfig call fs s with
  | .error f => .failure fs f.message
  | .ok c =>
    if output = "" then .success fs (Settings.dump c)
    else
      match fs.writeFile output (Settings.dump c).toUTF8 with
      | .error e => .failure fs e.message
      | .ok fs => .success fs ""

/-- Compares the artifacts of one case, which may be named with or without its extension. -/
def compareCase (dir₁ dir₂ name : String) (s : Store) (fs : FileSystem) : Outcome :=
  let ext := s.getText "artifact.extension"
  let base := Path.trimEnd name (Path.ext name)
  if Artifact.same fs dir₁ dir₂ base ext then .success fs (" OK " ++ base ++ ext ++ "\n")
  else ⟨1, " X " ++ base ++ ext ++ "\n", "", fs⟩

def perform (launch : Program.Launch) (call : Call) (flags : Flags) (s : Store) (fs : FileSystem) :
    Command → List String → Outcome
  | .help, args => .success fs (find args).1.helpText
  | .compare, [dir₁, dir₂, name] => compareCase dir₁ dir₂ name s fs
  | .compare, args => .failure fs (UsageFault.wrongCount 3 args.length).message
  | .list, [] => listTools call s fs
  | .config, [] => showConfig call flags.output s fs
  | .session, [] => session launch call s fs
  | c, word :: _ => .failure fs (UsageFault.unknownCommand word c.path).message
  | c, [] => .success fs c.helpText

/-- Runs the program. Flags are read first, then help is shown if it is asked for, and only then
the configuration is read. -/
def run (launch : Program.Launch) (call : Call) (fs : FileSystem) : Outcome :=
  let (command, rest) := find call.args
  match readFlags command {} [] rest with
  | .error f => .failure fs f.message
  | .ok (flags, args) =>
    if flags.help || command.isGroup then .success fs command.helpText
    else
      match settingsOf call flags fs with
      | .error f => .failure fs f.message
      | .ok (s, note) => (perform launch call flags s fs command args).noted note

end Crosscheck.Cli
