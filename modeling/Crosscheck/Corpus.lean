import Crosscheck.FileSystem.Access
import Crosscheck.Fault

namespace Crosscheck

structure TestCase where
  name : String
  base : String
  path : String
  deriving DecidableEq, Repr

namespace Corpus

inductive Fault where
  | notFound (dir : String)
  | unreadable (dir : String) (e : OsError)
  | empty (ext dir : String)
  deriving DecidableEq, Repr

def Fault.cause : Fault → Cause
  | .notFound _ => .corpusNotFound
  | .unreadable _ _ => .corpusNotFound
  | .empty _ _ => .corpusEmpty

def Fault.message (f : Fault) : String :=
  f.cause.because <|
    match f with
    | .notFound dir => dir
    | .unreadable dir e => dir ++ ": " ++ e.message
    | .empty ext dir => "no " ++ ext ++ " files in " ++ dir

def caseOf (dir ext name : String) : TestCase :=
  ⟨name, Path.trimEnd name ext, Path.join [dir, name]⟩

/-- The regular files with extension `ext` that stand directly in a directory, links to such
files among them, in the order of their names. -/
def discover (fs : FileSystem) (dir ext : String) : Except Fault (List TestCase) :=
  match fs.stat dir with
  | .error _ => .error (.notFound dir)
  | .ok n =>
    if n.isDir = false then .error (.notFound dir)
    else
      match fs.readDir dir with
      | .error e => .error (.unreadable dir e)
      | .ok names =>
        let chosen := names.filter fun name =>
          Path.ext name == ext && fs.isRegularFile (Path.join [dir, name])
        if chosen.isEmpty then .error (.empty ext dir)
        else .ok ((chosen.map (caseOf dir ext)).mergeSort fun a b => decide (a.name ≤ b.name))

end Corpus

end Crosscheck
