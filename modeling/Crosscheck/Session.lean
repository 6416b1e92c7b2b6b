import Crosscheck.Config
import Crosscheck.Corpus
import Crosscheck.FileSystem.Remove
import Crosscheck.Log.Logger
import Crosscheck.Report

namespace Crosscheck.Session

/-- What a session drives, over a state that it does not look into: the assembler, the
comparator, the reporter, the log and the files. -/
structure Parts (σ ε : Type) where
  assemble : Tool → String → σ → RunResult ε × σ
  compare : String → String → String → String → σ → Bool × σ
  started : List TestCase → σ → σ
  caseFinished : CaseResult ε → σ → σ
  finished : Report ε → σ → σ
  note : Log.Record → σ → σ
  files : σ → FileSystem
  setFiles : FileSystem → σ → σ

inductive Fault where
  | outputDir (dir : String) (e : OsError)
  | corpus (f : Corpus.Fault)
  deriving DecidableEq, Repr

def Fault.cause : Fault → Cause
  | .outputDir .. => .outputDir
  | .corpus f => f.cause

def Fault.message : Fault → String
  | .outputDir dir e => Cause.outputDir.because (dir ++ ": " ++ e.message)
  | .corpus f => f.message

variable {σ ε : Type}

/-- Runs every tool on a source file, in order; one that fails does not stop the others. -/
def runTools (parts : Parts σ ε) (path : String) : List Tool → σ → List (RunResult ε) × σ
  | [], s => ([], s)
  | t :: rest, s =>
    let (r, s) := parts.assemble t path s
    let (rs, s) := runTools parts path rest s
    (r :: rs, s)

/-- The candidates whose artifact differs from that of the reference. -/
def compareAll (parts : Parts σ ε) (referenceDir base ext : String) :
    List Tool → σ → List String × σ
  | [], s => ([], s)
  | t :: rest, s =>
    let (equal, s) := parts.compare referenceDir t.outputDir base ext s
    let (names, s) := compareAll parts referenceDir base ext rest s
    (if equal then names else t.name :: names, s)

def runCase (parts : Parts σ ε) (c : Config) (test : TestCase) (s : σ) : CaseResult ε × σ :=
  let (runs, s) := runTools parts test.path c.tools s
  let result : CaseResult ε := { case := test, runs }
  if result.failedRuns.isEmpty = false then
    (result, parts.note
      { level := .info, message := "case not compared"
        attrs := [⟨"case", .text test.name⟩,
          ⟨"failed_tools", .names (result.failedRuns.map (·.tool))⟩] } s)
  else
    let referenceDir := (c.reference?.map (·.outputDir)).getD ""
    let (mismatches, s) := compareAll parts referenceDir test.base c.artifactExt c.candidates s
    let result := { result with compared := true, mismatches, passed := mismatches.isEmpty }
    if mismatches.isEmpty then (result, s)
    else
      (result, parts.note
        { level := .info, message := "artifacts differ"
          attrs := [⟨"case", .text test.name⟩, ⟨"tools", .names mismatches⟩] } s)

def runCases (parts : Parts σ ε) (c : Config) : List TestCase → σ → List (CaseResult ε) × σ
  | [], s => ([], s)
  | t :: rest, s =>
    let (r, s) := runCase parts c t s
    let s := parts.caseFinished r s
    let (rs, s) := runCases parts c rest s
    (r :: rs, s)

def reset (fs : FileSystem) : List Tool → FileSystem × Option Fault
  | [] => (fs, none)
  | t :: rest =>
    match fs.removeAll t.outputDir with
    | (fs, none) => reset fs rest
    | (fs, some e) => (fs, some (.outputDir t.outputDir e))

def count (n : Nat) : Log.Value := .number (Int64.ofNat n)

def runOver (parts : Parts σ ε) (c : Config) (cases : List TestCase) (s : σ) : Report ε × σ :=
  let s := parts.note
    { level := .info, message := "session started"
      attrs := [⟨"cases", count cases.length⟩, ⟨"corpus", .text c.corpusDir⟩,
        ⟨"tools", count c.tools.length⟩] } s
  let s := parts.started cases s
  let (results, s) := runCases parts c cases s
  let report : Report ε := { cases := results }
  let s := parts.note
    { level := .info, message := "session finished"
      attrs := [⟨"passed", count report.passed⟩, ⟨"total", count report.total⟩,
        ⟨"duration", .duration report.duration⟩] } s
  (report, parts.finished report s)

/-- Runs every tool over the corpus and compares what they wrote. Only what keeps the first case
from running is a fault; failed cases are in the report. -/
def run (parts : Parts σ ε) (c : Config) (s : σ) : Except Fault (Report ε) × σ :=
  let (fs, fault) := reset (parts.files s) c.tools
  let s := parts.setFiles fs s
  match fault with
  | some f => (.error f, s)
  | none =>
    match Corpus.discover (parts.files s) c.corpusDir c.corpusExt with
    | .error f => (.error (.corpus f), s)
    | .ok cases =>
      let (report, s) := runOver parts c cases s
      (.ok report, s)

end Crosscheck.Session
