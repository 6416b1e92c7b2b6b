import Crosscheck.Message.Render

namespace Crosscheck

inductive Cause where
  | missingArtifact
  | invalidConfig
  | corpusNotFound
  | corpusEmpty
  | toolNotFound
  | inputNotFound
  | processFailed
  | timeout
  | outputDir
  | invalidTool
  | mismatch
  deriving DecidableEq, Repr

namespace Cause

def all : List Cause :=
  [missingArtifact, invalidConfig, corpusNotFound, corpusEmpty, toolNotFound, inputNotFound,
    processFailed, timeout, outputDir, invalidTool, mismatch]

def text : Cause → String
  | missingArtifact => "primary artifact not found"
  | invalidConfig => "invalid configuration"
  | corpusNotFound => "corpus directory not found"
  | corpusEmpty => "corpus is empty"
  | toolNotFound => "tool executable not found"
  | inputNotFound => "input file not found"
  | processFailed => "tool process failed"
  | timeout => "tool process timed out"
  | outputDir => "cannot reset output directory"
  | invalidTool => "invalid tool"
  | mismatch => "artifacts differ"

def because (c : Cause) (remark : String) : String := c.text ++ ": " ++ remark

end Cause

/-- What tells an error from all others: a known cause, or the number of an error that was made. -/
inductive Identity where
  | known (c : Cause)
  | made (id : Nat)
  deriving DecidableEq, Repr

inductive Origin where
  | known (c : Cause)
  | fresh (id : Nat) (text : String)
  deriving DecidableEq, Repr

def Origin.text : Origin → String
  | .known c => c.text
  | .fresh _ t => t

def Origin.identity : Origin → Identity
  | .known c => .known c
  | .fresh id _ => .made id

/-- An error, and the remarks that were put around it. A remark may also stand around nothing, and
makes a new error in any case. -/
inductive Fault where
  | start (o : Origin)
  | around (id : Nat) (inner : Option Fault) (message : String) (form : Message.Form)
  deriving Repr

namespace Fault

def message : Fault → String
  | start o => o.text
  | around _ _ text _ => text

def operand : Option Fault → Message.Operand
  | none => .absent
  | some (start o) => .error .plain o.text
  | some (around _ _ text form) => .error form text

/-- Puts a remark around an error, which makes a new one. The remark is a template whose first
operand is the error, and what the template wraps can be found again. Of the other operands only the
text is known, so there is nothing to find in them. -/
def wrap (id : Nat) (inner : Option Fault) (template : String)
    (operands : List Message.Operand) : Fault :=
  let r := Message.render ("%w: " ++ template) (operand inner :: operands)
  let kept := if r.wraps.contains 0 then inner else none
  match r.wraps with
  | [] => start (.fresh id r.text)
  | [_] => around id kept r.text .wrapping
  | _ => around id kept r.text .joining

def cause? : Fault → Option Cause
  | start (.known c) => some c
  | start (.fresh _ _) => none
  | around _ none _ _ => none
  | around _ (some inner) _ _ => inner.cause?

def identity : Fault → Identity
  | start o => o.identity
  | around id _ _ _ => .made id

def chain : Fault → List Identity
  | start o => [o.identity]
  | around id none _ _ => [.made id]
  | around id (some inner) _ _ => .made id :: inner.chain

/-- Whether the error is the target, or was put around it. Nothing is only nothing. -/
def matchesTarget (f target : Option Fault) : Bool :=
  match f, target with
  | none, none => true
  | some f, some target => f.chain.contains target.identity
  | _, _ => false

def matchesAny (f : Option Fault) (targets : List (Option Fault)) : Bool :=
  targets.any (matchesTarget f)

def causes (f : Option Fault) : List Cause :=
  Cause.all.filter fun c => matchesTarget f (some (start (.known c)))

end Fault

end Crosscheck
