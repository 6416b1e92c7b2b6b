import Crosscheck.Corpus
import Crosscheck.Duration

namespace Crosscheck

/-- The outcome of one tool on one source file: where the artifact was put, or why there is
none. -/
structure RunResult (ε : Type) where
  tool : String
  base : String
  outcome : Except ε String
  duration : Duration := .zero
  stdout : ByteArray := ByteArray.empty
  stderr : ByteArray := ByteArray.empty

namespace RunResult

variable {ε : Type}

def success (r : RunResult ε) : Bool :=
  match r.outcome with
  | .ok _ => true
  | .error _ => false

def artifact (r : RunResult ε) : String :=
  match r.outcome with
  | .ok path => path
  | .error _ => ""

end RunResult

structure CaseResult (ε : Type) where
  case : TestCase
  runs : List (RunResult ε)
  compared : Bool := false
  mismatches : List String := []
  passed : Bool := false

def CaseResult.failedRuns {ε : Type} (c : CaseResult ε) : List (RunResult ε) :=
  c.runs.filter fun r => !r.success

structure Report (ε : Type) where
  cases : List (CaseResult ε)
  duration : Duration := .zero

namespace Report

variable {ε : Type}

def total (r : Report ε) : Nat := r.cases.length

def passed (r : Report ε) : Nat := r.cases.countP (·.passed)

def failures (r : Report ε) : List (CaseResult ε) := r.cases.filter fun c => !c.passed

def allPassed (r : Report ε) : Bool := r.passed = r.total

def exitCode (r : Report ε) : Nat := if r.allPassed then 0 else 1

end Report

namespace Console

def marker (tty passed : Bool) : String :=
  let word := if passed then "OK" else "X"
  if tty then
    (if passed then "\x1b[32;1m" else "\x1b[31;1m") ++ word ++ "\x1b[0;22m"
  else word

def started : String := "Running tests\n"

def caseLine (tty : Bool) (name : String) (passed : Bool) : String :=
  " " ++ marker tty passed ++ " " ++ name ++ "\n"

def decimal (n : Nat) : String := String.ofList (Nat.toDigits 10 n)

def finished (passed total : Nat) : String :=
  "\nPassed: " ++ decimal passed ++ "/" ++ decimal total ++ "\n"

variable {ε : Type}

def caseFinished (tty : Bool) (c : CaseResult ε) : String := caseLine tty c.case.name c.passed

def sessionFinished (r : Report ε) : String := finished r.passed r.total

def text (tty : Bool) (r : Report ε) : String :=
  started ++ String.join (r.cases.map (caseFinished tty)) ++ sessionFinished r

end Console

end Crosscheck
