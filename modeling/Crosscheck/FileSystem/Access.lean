import Crosscheck.FileSystem.Walk

namespace Crosscheck.FileSystem

def stat (fs : FileSystem) (p : String) : Except Errno Node :=
  match fs.spot true p with
  | .error e => .error e
  | .ok (.gap _ _) => .error .notFound
  | .ok (.node loc) =>
    match fs.get? loc with
    | some n => .ok n
    | none => .error .notFound

def lstat (fs : FileSystem) (p : String) : Except Errno Node :=
  match fs.spot false p with
  | .error e => .error e
  | .ok (.gap _ _) => .error .notFound
  | .ok (.node loc) =>
    match fs.get? loc with
    | some n => .ok n
    | none => .error .notFound

def fileExists (fs : FileSystem) (p : String) : Bool :=
  match fs.stat p with
  | .ok n => !n.isDir
  | .error _ => false

def isRegularFile (fs : FileSystem) (p : String) : Bool :=
  match fs.stat p with
  | .ok n => n.isRegular
  | .error _ => false

def refused {α : Type} (op p : String) (e : Errno) : Except OsError α := .error ⟨op, p, e⟩

def openRead (fs : FileSystem) (p : String) : Except OsError (Location × Node) :=
  match fs.spot true p with
  | .error e => refused "open" p e
  | .ok (.gap _ _) => refused "open" p .notFound
  | .ok (.node loc) =>
    match fs.get? loc with
    | none => refused "open" p .notFound
    | some n => if fs.canRead n then .ok (loc, n) else refused "open" p .denied

def readFile (fs : FileSystem) (p : String) : Except OsError ByteArray :=
  match fs.openRead p with
  | .error e => .error e
  | .ok (_, .file _ _ bytes) => .ok bytes
  | .ok (_, .dir _) => refused "read" p .isDirectory
  | .ok _ => .ok ByteArray.empty

def readDir (fs : FileSystem) (p : String) : Except OsError (List String) :=
  match fs.openRead p with
  | .error e => .error e
  | .ok (loc, .dir _) => .ok (fs.children loc)
  | .ok _ => refused "readdirent" p .notDirectory

def mayChange (fs : FileSystem) (dir : Location) : Bool :=
  match fs.get? dir with
  | some n => fs.canWrite n && fs.canSearch n
  | none => false

def newFileMode : Nat := 0o644

def newDirMode : Nat := 0o755

/-- Opens for writing, with a new empty file if there is none. The file that is there is kept as
it is; `access` is what must be allowed of it. -/
def openWrite (fs : FileSystem) (p : String) (access : Node → Bool) :
    Except OsError (FileSystem × Location) :=
  if p.toList.getLast? = some '/' ∧ steps p ≠ [] then refused "open" p .isDirectory
  else
    match fs.spot true p with
    | .error e => refused "open" p e
    | .ok (.gap dir name) =>
      if fs.mayChange dir then
        .ok (fs.addFile (dir ++ [name]) newFileMode ByteArray.empty, dir ++ [name])
      else refused "open" p .denied
    | .ok (.node loc) =>
      match fs.get? loc with
      | none => refused "open" p .notFound
      | some n =>
        if n.isDir then refused "open" p .isDirectory
        else if access n then .ok (fs, loc)
        else refused "open" p .denied

def setBytes (fs : FileSystem) (loc : Location) (bytes : ByteArray) : FileSystem :=
  match fs.get? loc with
  | some (.file id _ _) => fs.update id fun _ => bytes
  | _ => fs

def create (fs : FileSystem) (p : String) : Except OsError (FileSystem × Location) :=
  match fs.openWrite p (fun n => fs.canRead n && fs.canWrite n) with
  | .error e => .error e
  | .ok (fs, loc) => .ok (fs.setBytes loc ByteArray.empty, loc)

def writeFile (fs : FileSystem) (p : String) (bytes : ByteArray) : Except OsError FileSystem :=
  match fs.create p with
  | .error e => .error e
  | .ok (fs, loc) => .ok (fs.setBytes loc bytes)

/-- Opens for appending: the number of the file. What is no regular file gets a number that no
file has. -/
def openAppend (fs : FileSystem) (p : String) : Except OsError (FileSystem × Nat) :=
  match fs.openWrite p fs.canWrite with
  | .error e => .error e
  | .ok (fs, loc) =>
    match fs.get? loc with
    | some (.file id _ _) => .ok (fs, id)
    | _ => .ok ({ fs with nextId := fs.freshId + 1 }, fs.freshId)

def mkdir (fs : FileSystem) (p : String) : Except Errno FileSystem :=
  match fs.entry p with
  | .error e => .error e
  | .ok ⟨dir, .name s, _⟩ =>
    if (fs.get? (dir ++ [s])).isSome then .error .exists
    else if fs.mayChange dir then .ok (fs.set (dir ++ [s]) (.dir newDirMode))
    else .error .denied
  | .ok _ => .error .exists

def ancestors (p : String) : List String :=
  let rec go : Nat → List Char → List String
    | 0, _ => []
    | fuel + 1, cs =>
      let front := (Path.dropEndSlashes cs).reverse.dropWhile (· != '/')
      String.ofList cs ::
        match front with
        | [] => []
        | _ :: parent => if parent.isEmpty then [] else go fuel parent.reverse
  go (p.toList.length + 1) p.toList

/-- Makes the first directory of the list after those behind it, as far as they are missing. The
file system that is left also counts if this fails half way. -/
def mkdirChain (fs : FileSystem) : List String → FileSystem × Option OsError
  | [] => (fs, none)
  | p :: parents =>
    match fs.stat p with
    | .ok n => (fs, if n.isDir then none else some ⟨"mkdir", p, .notDirectory⟩)
    | .error _ =>
      match mkdirChain fs parents with
      | (fs, some e) => (fs, some e)
      | (fs, none) =>
        match fs.mkdir p with
        | .ok fs => (fs, none)
        | .error e =>
          match fs.lstat p with
          | .ok n => (fs, if n.isDir then none else some ⟨"mkdir", p, e⟩)
          | .error _ => (fs, some ⟨"mkdir", p, e⟩)

def mkdirAll (fs : FileSystem) (p : String) : FileSystem × Option OsError :=
  fs.mkdirChain (ancestors p)

def unlink (fs : FileSystem) (p : String) : Except Errno FileSystem :=
  match fs.entry p with
  | .error e => .error e
  | .ok ⟨dir, .name s, slash⟩ =>
    match fs.get? (dir ++ [s]) with
    | none => .error .notFound
    | some n =>
      if slash then .error (if n.isDir then .isDirectory else .notDirectory)
      else if fs.mayChange dir = false then .error .denied
      else if n.isDir then .error .isDirectory
      else .ok (fs.erase (dir ++ [s]))
  | .ok _ => .error .isDirectory

def rmdir (fs : FileSystem) (p : String) : Except Errno FileSystem :=
  match fs.entry p with
  | .error e => .error e
  | .ok ⟨dir, .name s, _⟩ =>
    match fs.get? (dir ++ [s]) with
    | none => .error .notFound
    | some n =>
      if fs.mayChange dir = false then .error .denied
      else if n.isDir = false then .error .notDirectory
      else if fs.isEmptyDir (dir ++ [s]) then .ok (fs.erase (dir ++ [s]))
      else .error .notEmpty
  | .ok ⟨_, .dot, _⟩ => .error .invalid
  | .ok ⟨_, .dotdot, _⟩ => .error .notEmpty
  | .ok ⟨_, .root, _⟩ => .error .busy

def remove (fs : FileSystem) (p : String) : Except OsError FileSystem :=
  match fs.unlink p with
  | .ok fs => .ok fs
  | .error e =>
    match fs.rmdir p with
    | .ok fs => .ok fs
    | .error e' => refused "remove" p (if e' = .notDirectory then e else e')

/-- Gives a file another name on the same device. What had that name is gone, unless it is a
directory. Two names of one file are both kept. -/
def rename (fs : FileSystem) (source target : String) : Except Errno FileSystem :=
  match fs.entry source, fs.entry target with
  | .error e, _ => .error e
  | _, .error e => .error e
  | .ok ⟨fromDir, .name s, _⟩, .ok ⟨toDir, .name t, _⟩ =>
    if fs.deviceOf fromDir ≠ fs.deviceOf toDir then .error .otherDevice
    else
      match fs.get? (fromDir ++ [s]) with
      | none => .error .notFound
      | some n =>
        if n.isDir then .error .invalid
        else if fromDir ++ [s] = toDir ++ [t] ∨ fs.sameFile (fromDir ++ [s]) (toDir ++ [t]) then .ok fs
        else if (fs.mayChange fromDir && fs.mayChange toDir) = false then .error .denied
        else if (fs.get? (toDir ++ [t])).any Node.isDir then .error .isDirectory
        else .ok ((fs.erase (fromDir ++ [s])).set (toDir ++ [t]) n)
  | .ok _, .ok _ => .error .busy

end Crosscheck.FileSystem
