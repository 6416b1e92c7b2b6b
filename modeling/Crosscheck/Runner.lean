import Crosscheck.Artifact
import Crosscheck.Config
import Crosscheck.Log.Logger
import Crosscheck.Program
import Crosscheck.Report

namespace Crosscheck

inductive RunFault where
  | toolNotFound (path : String)
  | inputNotFound (path : String)
  | staleArtifact (path : String) (e : OsError)
  | cancelled
  | timedOut (limit : Duration)
  | processFailed (exe : String) (ending : Program.Ending)
  | artifact (f : Artifact.Fault)
  deriving DecidableEq, Repr

namespace RunFault

def cause? : RunFault → Option Cause
  | toolNotFound _ => some .toolNotFound
  | inputNotFound _ => some .inputNotFound
  | staleArtifact .. => some .processFailed
  | cancelled => some .processFailed
  | timedOut _ => some .timeout
  | processFailed .. => some .processFailed
  | artifact f => f.cause?

def endingText (exe : String) : Program.Ending → String
  | .clean => ""
  | .status code => "exit status " ++ String.ofList (Nat.toDigits 10 code)
  | .signal s => "signal: " ++ s.text
  | .notStarted e => (OsError.mk "fork/exec" exe e).message
  | .lingering => "exec: WaitDelay expired before I/O complete"
  | .timedOut | .cancelled => Program.Signal.kill.text

def message : RunFault → String
  | toolNotFound p => Cause.toolNotFound.because p
  | inputNotFound p => Cause.inputNotFound.because p
  | staleArtifact p e => Cause.processFailed.because ("removing stale " ++ p ++ ": " ++ e.message)
  | cancelled => Cause.processFailed.because "context canceled"
  | timedOut d => Cause.timeout.because ("killed after " ++ d.render)
  | processFailed exe ending => Cause.processFailed.because (endingText exe ending)
  | artifact f => f.message

end RunFault

structure Runner where
  timing : Timing
  artifactExt : String
  canDismiss : Bool
  logger : Log.Logger

namespace Runner

/-- Answers the prompt that some tools wait at before they end. -/
def keyPress : String := "\n"

def workingDir (fs : FileSystem) : String := "/" ++ "/".intercalate fs.cwd

def command (r : Runner) (tool : Tool) (exe input : String) : Program.Command where
  exe := exe
  input := input
  dir := Path.dir input
  stdin := keyPress
  timeout := r.timing.processTimeout
  watch :=
    if tool.dismissWindow && r.canDismiss then
      some ⟨tool.windowTitle, r.timing.dismissGrace, r.timing.dismissInterval⟩
    else none

def runLogger (r : Runner) (tool : Tool) (base : String) : Log.Logger :=
  r.logger.adding [⟨"tool", .text tool.name⟩, ⟨"case", .text base⟩]

def announce (logger : Log.Logger) (c : Program.Command) (w : World) : World :=
  logger.log w
    { level := .debug, message := "running tool"
      attrs := [⟨"command", .text (c.exe ++ " " ++ c.input)⟩, ⟨"dir", .text c.dir⟩] }

def watched (r : Runner) (logger : Log.Logger) (title : String) (events : List Watcher.Event)
    (w : World) : World :=
  let s := Watcher.play title {} events
  s.entries.foldl (fun w e => logger.log w (e.record title r.timing.watcherStopTimeout))
    { w with windows := w.windows ++ s.attempts }

/-- A command is not started once the session is cancelled or its time is up. -/
def runFault? (cancelled : Bool) (c : Program.Command) (run : Program.Run) : Option RunFault :=
  if cancelled then some .cancelled
  else if c.timeout.isPositive = false then some (.timedOut c.timeout)
  else
    match run.ending with
    | .clean => none
    | .timedOut => some (.timedOut c.timeout)
    | .cancelled => some .cancelled
    | ending => some (.processFailed c.exe ending)

def execute (r : Runner) (launch : Program.Launch) (cancelled : Bool) (logger : Log.Logger)
    (c : Program.Command) (w : World) : Program.Run × Option RunFault × World :=
  let w := announce logger c w
  let run : Program.Run :=
    if cancelled || !c.timeout.isPositive then
      { fs := w.fs, ending := .clean, watcher := Watcher.eventsUntilStop [] false }
    else launch w.fs c
  let w := { w with fs := run.fs }
  let w := match c.watch with
    | some watch => r.watched logger watch.title run.watcher w
    | none => w
  (run, runFault? cancelled c run, w)

def failed (logger : Log.Logger) (result : RunResult RunFault) (f : RunFault) (w : World) :
    RunResult RunFault × World :=
  let w := logger.log w
    { level := .info, message := "run failed"
      attrs := [⟨"error", .error f.message⟩, ⟨"duration", .duration result.duration⟩] }
  let w :=
    if result.stderr.isEmpty then w
    else logger.log w
      { level := .debug, message := "tool stderr", attrs := [⟨"stderr", .raw result.stderr⟩] }
  ({ result with outcome := .error f }, w)

def succeeded (logger : Log.Logger) (result : RunResult RunFault) (path : String) (w : World) :
    RunResult RunFault × World :=
  let w := logger.log w
    { level := .debug, message := "run succeeded"
      attrs := [⟨"artifact", .text path⟩, ⟨"duration", .duration result.duration⟩] }
  ({ result with outcome := .ok path }, w)

def removeStale (fs : FileSystem) (path : String) : Except RunFault FileSystem :=
  match fs.remove path with
  | .ok fs => .ok fs
  | .error e => if e.errno = .notFound then .ok fs else .error (.staleArtifact path e)

/-- Runs a tool on a source file from the directory of that file, then collects the artifact
that it wrote there. -/
def assemble (r : Runner) (launch : Program.Launch) (cancelled : Bool) (tool : Tool)
    (input : String) (w : World) : RunResult RunFault × World :=
  let base := Path.stem input
  let logger := r.runLogger tool base
  let result : RunResult RunFault := { tool := tool.name, base, outcome := .ok "" }
  let exe := Path.abs (workingDir w.fs) tool.path
  let source := Path.abs (workingDir w.fs) input
  if w.fs.fileExists exe = false then failed logger result (.toolNotFound tool.path) w
  else if w.fs.fileExists source = false then failed logger result (.inputNotFound input) w
  else
    let dir := Path.dir source
    match removeStale w.fs (Path.join [dir, base ++ r.artifactExt]) with
    | .error f => failed logger result f w
    | .ok fs =>
      let (run, fault, w) :=
        r.execute launch cancelled logger (r.command tool exe source) { w with fs := fs }
      let result :=
        { result with duration := run.duration, stdout := run.stdout, stderr := run.stderr }
      match fault with
      | some f => failed logger result f w
      | none =>
        let got := Artifact.collect w.fs dir base tool.outputDir r.artifactExt tool.byproducts
        let w := { w with fs := got.fs }
        match got.fault, got.path with
        | some f, _ => failed logger result (.artifact f) w
        | none, some path => succeeded logger result path w
        | none, none => failed logger result (.artifact (.missing "")) w

end Runner

end Crosscheck
