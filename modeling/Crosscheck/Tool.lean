import Crosscheck.Fault
import Crosscheck.Path
import Crosscheck.Text.Quoted

namespace Crosscheck

structure Role where
  name : String
  deriving DecidableEq, Repr

namespace Role

def reference : Role := ⟨"reference"⟩

def candidate : Role := ⟨"candidate"⟩

def isKnown (r : Role) : Bool := r = reference || r = candidate

end Role

structure Tool where
  name : String
  path : String
  role : Role
  outputDir : String
  dismissWindow : Bool := false
  windowTitle : String := ""
  byproducts : List String := []
  deriving DecidableEq, Repr

def startsWithDot (s : String) : Bool := s.toList.head? = some '.'

def resolvePath (root p : String) : String :=
  if p = "" ∨ Path.isAbs p then p else Path.join [root, p]

inductive ToolFault where
  | noName
  | noPath (tool : String)
  | noOutputDir (tool : String)
  | unknownRole (tool role : String)
  | noWindowTitle (tool : String)
  | byproduct (tool ext : String)
  deriving DecidableEq, Repr

def ToolFault.remark : ToolFault → String
  | .noName => "tool has no name"
  | .noPath t => "tool " ++ Text.quoted t ++ " has no executable path"
  | .noOutputDir t => "tool " ++ Text.quoted t ++ " has no output directory"
  | .unknownRole t r => "tool " ++ Text.quoted t ++ " has unknown role " ++ Text.quoted r
  | .noWindowTitle t => "tool " ++ Text.quoted t ++ " dismisses windows but has no window title"
  | .byproduct t e =>
    "tool " ++ Text.quoted t ++ " by-product extension " ++ Text.quoted e ++
      " must start with a dot"

def ToolFault.cause (_ : ToolFault) : Cause := .invalidTool

def ToolFault.message (f : ToolFault) : String := f.cause.because f.remark

namespace Tool

def isReference (t : Tool) : Bool := t.role = Role.reference

def describe (t : Tool) : String := t.name ++ " (" ++ t.role.name ++ ", " ++ t.path ++ ")"

def fault? (t : Tool) : Option ToolFault :=
  if t.name = "" then some .noName
  else if t.path = "" then some (.noPath t.name)
  else if t.outputDir = "" then some (.noOutputDir t.name)
  else if t.role.isKnown = false then some (.unknownRole t.name t.role.name)
  else if t.dismissWindow ∧ t.windowTitle = "" then some (.noWindowTitle t.name)
  else (t.byproducts.find? fun e => !startsWithDot e).map (.byproduct t.name)

def resolved (root : String) (t : Tool) : Tool :=
  { t with path := resolvePath root t.path, outputDir := resolvePath root t.outputDir }

end Tool

end Crosscheck
