import Crosscheck.FileSystem.Access

namespace Crosscheck.FileSystem

def endsWithDot (p : String) : Bool :=
  match p.toList.reverse with
  | ['.'] => true
  | '.' :: '/' :: _ => true
  | _ => false

def trimSlashes (cs : List Char) : List Char :=
  let cs := match cs.dropWhile (· == '/') with
    | [] => cs.take 1
    | body => if cs.head? = some '/' then '/' :: body else body
  match Path.dropEndSlashes cs with
  | [] => cs.take 1
  | kept => kept

def parentAndBase (p : String) : String × String :=
  let cs := trimSlashes p.toList
  let base := Path.lastPart cs
  let front := cs.take (cs.length - base.length)
  if cs = ['/'] then (".", "/")
  else if front = [] then (".", String.ofList base)
  else if front = ['/'] then ("/", String.ofList base)
  else (String.ofList front.dropLast, String.ofList base)

/-- Whether nothing in the directories at and below a place keeps it from being cleared. -/
def isOpenBelow (fs : FileSystem) (loc : Location) : Bool :=
  fs.nodes.all fun e =>
    if e.2.isDir && loc.isPrefixOf e.1 then
      fs.canRead e.2 && fs.canWrite e.2 && fs.canSearch e.2
    else true

def below (dir : Location) (base : String) : Location :=
  if base = "/" then []
  else if base = "." then dir
  else if base = ".." then dir.dropLast
  else dir ++ [base]

def clear : Nat → FileSystem → Location → String → String → FileSystem × Option OsError
  | 0, fs, _, _, shown => (fs, some ⟨"unlinkat", shown, .notEmpty⟩)
  | fuel + 1, fs, dir, base, shown =>
    let loc := below dir base
    match fs.get? loc with
    | none => (fs, none)
    | some n =>
      let free := fs.mayChange dir
      if n.isDir = false then
        if free then (fs.erase loc, none) else (fs, some ⟨"unlinkat", shown, .denied⟩)
      else
        let (fs, first) :=
          if fs.canRead n then
            (fs.children loc).foldl
              (fun (acc : FileSystem × Option OsError) name =>
                let (fs, found) := clear fuel acc.1 loc name (shown ++ "/" ++ name)
                (fs, acc.2.or found))
              (fs, none)
          else (fs, some ⟨"openfdat", shown, .denied⟩)
        let refusal : Option Errno :=
          if base = "/" then some .busy
          else if base = "." then some .invalid
          else if base = ".." then some .notEmpty
          else if free = false then some .denied
          else if fs.isEmptyDir loc then none
          else some .notEmpty
        match refusal with
        | none => (fs.erase loc, none)
        | some e => (fs, some (first.getD ⟨"unlinkat", shown, e⟩))

def removeFrom (fs : FileSystem) (dir : Location) (base shown : String) :
    FileSystem × Option OsError :=
  let loc := below dir base
  if base ≠ "." ∧ base ≠ "/" ∧ base ≠ ".." ∧ fs.mayChange dir ∧ fs.isOpenBelow loc then
    (fs.eraseTree loc, none)
  else clear (fs.nodes.length + 1) fs dir base shown

/-- Removes a path with all below it; a path that is not there is no error. The file system that
is left also counts if this fails half way. -/
def removeAll (fs : FileSystem) (p : String) : FileSystem × Option OsError :=
  if p = "" then (fs, none)
  else if endsWithDot p then (fs, some ⟨"RemoveAll", p, .invalid⟩)
  else
    match fs.remove p with
    | .ok fs => (fs, none)
    | .error e =>
      if e.errno = .notFound then (fs, none)
      else
        let (parent, base) := parentAndBase p
        match fs.openRead parent with
        | .error e => if e.errno = .notFound then (fs, none) else (fs, some e)
        | .ok (dir, n) =>
          let shown := parent ++ "/" ++ base
          if base.toList.contains '\x00' then (fs, some ⟨"unlinkat", shown, .invalid⟩)
          else if n.isDir = false then (fs, some ⟨"unlinkat", shown, .notDirectory⟩)
          else if base.utf8ByteSize > maxName then (fs, some ⟨"unlinkat", shown, .nameTooLong⟩)
          else fs.removeFrom dir base shown

end Crosscheck.FileSystem
