import Crosscheck.Duration
import Crosscheck.Log.Options
import Crosscheck.Tool

namespace Crosscheck

structure Timing where
  processTimeout : Duration
  dismissGrace : Duration
  dismissInterval : Duration
  watcherStopTimeout : Duration
  deriving DecidableEq, Repr

namespace Timing

def default : Timing where
  processTimeout := .ofNat (10 * Duration.second)
  dismissGrace := .ofNat (3 * Duration.second)
  dismissInterval := .ofNat (100 * Duration.millisecond)
  watcherStopTimeout := .ofNat (500 * Duration.millisecond)

def fields (t : Timing) : List (String × Duration) :=
  [("process_timeout", t.processTimeout), ("dismiss_grace", t.dismissGrace),
    ("dismiss_interval", t.dismissInterval), ("watcher_stop_timeout", t.watcherStopTimeout)]

end Timing

structure Config where
  root : String
  corpusDir : String
  corpusExt : String
  artifactExt : String
  timing : Timing
  tools : List Tool
  log : Log.Options := {}
  deriving DecidableEq, Repr

inductive ConfigFault where
  | noCorpusDir
  | corpusExtension (ext : String)
  | artifactExtension (ext : String)
  | timing (name : String) (d : Duration)
  | tool (f : ToolFault)
  | references (count : Nat)
  | noCandidate
  | duplicateNames (names : List String)
  | sharedDirs (dirs : List String)
  deriving DecidableEq, Repr

def ConfigFault.remark : ConfigFault → String
  | .noCorpusDir => "corpus directory is not set"
  | .corpusExtension e => "corpus extension " ++ Text.quoted e ++ " must start with a dot"
  | .artifactExtension e => "artifact extension " ++ Text.quoted e ++ " must start with a dot"
  | .timing n d => "timing." ++ n ++ " must be positive, got " ++ d.render
  | .tool f => f.message
  | .references n =>
    "exactly one reference tool is required, got " ++ String.ofList (Nat.toDigits 10 n)
  | .noCandidate => "at least one candidate tool is required"
  | .duplicateNames ns => "duplicate tool names: " ++ ", ".intercalate ns
  | .sharedDirs ds => "tools share output directories: " ++ ", ".intercalate ds

def ConfigFault.cause (_ : ConfigFault) : Cause := .invalidConfig

def ConfigFault.message (f : ConfigFault) : String := f.cause.because f.remark

def repeated (xs : List String) : List String := xs.eraseDups.filter fun x => 2 ≤ xs.count x

namespace Config

def reference? (c : Config) : Option Tool := c.tools.find? Tool.isReference

def candidates (c : Config) : List Tool := c.tools.filter fun t => !t.isReference

/-- The first thing that keeps a configuration from driving a session, where the timings are looked
at in the order given. -/
def faultOver? (c : Config) (timings : List (String × Duration)) : Option ConfigFault :=
  if c.corpusDir = "" then some .noCorpusDir
  else if startsWithDot c.corpusExt = false then some (.corpusExtension c.corpusExt)
  else if startsWithDot c.artifactExt = false then some (.artifactExtension c.artifactExt)
  else
    match timings.find? fun f => !f.2.isPositive with
    | some (n, d) => some (.timing n d)
    | none =>
      match c.tools.findSome? Tool.fault? with
      | some f => some (.tool f)
      | none =>
        let references := c.tools.countP Tool.isReference
        if references ≠ 1 then some (.references references)
        else if c.tools.length < 2 then some .noCandidate
        else if repeated (c.tools.map (·.name)) ≠ [] then
          some (.duplicateNames (repeated (c.tools.map (·.name))))
        else if repeated (c.tools.map fun t => Path.clean t.outputDir) ≠ [] then
          some (.sharedDirs (repeated (c.tools.map fun t => Path.clean t.outputDir)))
        else none

def fault? (c : Config) : Option ConfigFault := c.faultOver? c.timing.fields

def defaultByproducts : List String := [".lst", ".bin", ".obj"]

def defaultTools : List Tool :=
  [{ name := "assembler"
     path := "assembler.exe"
     role := .candidate
     outputDir := "output_assembler"
     byproducts := defaultByproducts },
   { name := "dsm51"
     path := "Dsm51Ass.exe"
     role := .reference
     outputDir := "output_dsm51"
     dismissWindow := true
     windowTitle := "Dsm51Ass"
     byproducts := defaultByproducts }]

end Config

end Crosscheck
