import Crosscheck.FileSystem.Access
import Crosscheck.Fault

namespace Crosscheck.Artifact

inductive Fault where
  | missing (path : String)
  | directory (path : String)
  | os (e : OsError)
  deriving DecidableEq, Repr

def Fault.cause? : Fault → Option Cause
  | .missing _ => some .missingArtifact
  | .directory _ => some .missingArtifact
  | .os _ => none

def Fault.message : Fault → String
  | .missing p => Cause.missingArtifact.because p
  | .directory p => Cause.missingArtifact.because (p ++ " is a directory")
  | .os e => e.message

def copyBytes (fs : FileSystem) (loc into : Location) (upTo : Option Nat) : FileSystem :=
  match fs.get? loc with
  | some (.file _ _ bytes) => fs.setBytes into (upTo.elim bytes (bytes.extract 0 ·))
  | _ => fs

/-- Writes what `source` holds to `target` and removes `source`. If the copy fails, `target` is
removed, as far as that can be done. -/
def copyAndDelete (fs : FileSystem) (source target : String) : FileSystem × Option OsError :=
  match fs.openRead source with
  | .error e => (fs, some e)
  | .ok (loc, _) =>
    match fs.create target with
    | .error e => (fs, some e)
    | .ok (fs, into) =>
      match fs.lapses loc into with
      | some lapse =>
        let fs := copyBytes fs loc into (some lapse.written)
        match fs.remove target with
        | .ok fs => (fs, some lapse.fault)
        | .error _ => (fs, some lapse.fault)
      | none =>
        let fs := copyBytes fs loc into none
        match fs.remove source with
        | .ok fs => (fs, none)
        | .error e => (fs, some e)

def move (fs : FileSystem) (source target : String) : FileSystem × Option OsError :=
  match fs.rename source target with
  | .ok fs => (fs, none)
  | .error _ => copyAndDelete fs source target

def discard (fs : FileSystem) (dir base primaryExt : String) :
    List String → FileSystem × Option OsError
  | [] => (fs, none)
  | ext :: rest =>
    if ext = primaryExt then discard fs dir base primaryExt rest
    else
      match fs.remove (Path.join [dir, base ++ ext]) with
      | .ok fs => discard fs dir base primaryExt rest
      | .error e =>
        if e.errno = .notFound then discard fs dir base primaryExt rest else (fs, some e)

structure Collected where
  fs : FileSystem
  path : Option String
  fault : Option Fault

/-- Moves the primary artifact of a run from the source directory to the output directory, then
removes the by-products beside the source. Without an artifact nothing is touched. -/
def collect (fs : FileSystem) (sourceDir base outputDir primaryExt : String)
    (byproducts : List String) : Collected :=
  let source := Path.join [sourceDir, base ++ primaryExt]
  match fs.stat source with
  | .error _ => ⟨fs, none, some (.missing source)⟩
  | .ok n =>
    if n.isDir then ⟨fs, none, some (.directory source)⟩
    else
      match fs.mkdirAll outputDir with
      | (fs, some e) => ⟨fs, none, some (.os e)⟩
      | (fs, none) =>
        let target := Path.join [outputDir, base ++ primaryExt]
        match move fs source target with
        | (fs, some e) => ⟨fs, none, some (.os e)⟩
        | (fs, none) =>
          let (fs, e) := discard fs sourceDir base primaryExt byproducts
          ⟨fs, some target, e.map .os⟩

/-- Whether two directories hold the same bytes under one name. A file that cannot be read
equals none. -/
def same (fs : FileSystem) (dir₁ dir₂ base ext : String) : Bool :=
  match fs.readFile (Path.join [dir₁, base ++ ext]), fs.readFile (Path.join [dir₂, base ++ ext]) with
  | .ok a, .ok b => a == b
  | _, _ => false

end Crosscheck.Artifact
