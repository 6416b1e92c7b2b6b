import Crosscheck.FileSystem.Errno

/-!
Files as a program sees them: names in directories, links, permission bits and devices. A file can
have several names; they carry the number of the file, and what is written under one of them is
read under all.

Left out are owners other than the one who asks, the mask for new files (what is made has the modes
of `newFileMode` and `newDirMode`), times, quotas, and what other programs do meanwhile. A device
only fails where a file is copied: see `Lapse`.
-/

namespace Crosscheck

abbrev Location := List String

inductive Node where
  | dir (mode : Nat)
  | file (id : Nat) (mode : Nat) (bytes : ByteArray)
  | link (target : String)
  | fifo (mode : Nat)

namespace Node

def isDir : Node → Bool
  | dir _ => true
  | _ => false

def isRegular : Node → Bool
  | file .. => true
  | _ => false

def ownerBits : Node → Nat
  | dir mode => mode / 64 % 8
  | file _ mode _ => mode / 64 % 8
  | fifo mode => mode / 64 % 8
  | link _ => 7

def mode : Node → Nat
  | dir m => m
  | file _ m _ => m
  | fifo m => m
  | link _ => 0o777

/-- What becomes of a node when the file with the given number is written to. -/
def updated (id : Nat) (f : ByteArray → ByteArray) : Node → Node
  | file i mode bytes => if i = id then file i mode (f bytes) else file i mode bytes
  | n => n

def numbersBelow : Node → Nat
  | file i _ _ => i + 1
  | _ => 0

end Node

structure Lapse where
  written : Nat
  fault : OsError

/-- What stands where, on one or more devices. A privileged user is not held up by permission
bits; relative paths start at `cwd`. Numbers below `nextId` are those of files, also of files that
are gone. `lapses` tells of each two places whether a copy from one to the other fails. -/
structure FileSystem where
  nodes : List (Location × Node)
  nextId : Nat
  cwd : Location
  mounts : List Location
  privileged : Bool
  lapses : Location → Location → Option Lapse := fun _ _ => none

namespace FileSystem

def get? (fs : FileSystem) (loc : Location) : Option Node :=
  (fs.nodes.find? fun e => e.1 = loc).map (·.2)

def set (fs : FileSystem) (loc : Location) (node : Node) : FileSystem :=
  { fs with nodes := (loc, node) :: fs.nodes.filter fun e => e.1 ≠ loc }

def erase (fs : FileSystem) (loc : Location) : FileSystem :=
  { fs with nodes := fs.nodes.filter fun e => e.1 ≠ loc }

def sameFile (fs : FileSystem) (l l' : Location) : Bool :=
  match fs.get? l, fs.get? l' with
  | some (.file i _ _), some (.file j _ _) => i == j
  | _, _ => false

def eraseTree (fs : FileSystem) (loc : Location) : FileSystem :=
  { fs with nodes := fs.nodes.filter fun e => loc.isPrefixOf e.1 = false }

def freshId (fs : FileSystem) : Nat :=
  fs.nodes.foldr (fun e k => max k e.2.numbersBelow) fs.nextId

def addFile (fs : FileSystem) (loc : Location) (mode : Nat) (bytes : ByteArray) : FileSystem :=
  { fs.set loc (.file fs.freshId mode bytes) with nextId := fs.freshId + 1 }

def children (fs : FileSystem) (loc : Location) : List String :=
  let below := fs.nodes.filterMap fun e =>
    match e.1.getLast? with
    | some name => if e.1.dropLast = loc then some name else none
    | none => none
  below.mergeSort fun a b => decide (a ≤ b)

def isEmptyDir (fs : FileSystem) (loc : Location) : Bool := (fs.children loc).isEmpty

def canRead (fs : FileSystem) (n : Node) : Bool := fs.privileged || n.ownerBits / 4 % 2 = 1

def canWrite (fs : FileSystem) (n : Node) : Bool := fs.privileged || n.ownerBits / 2 % 2 = 1

def canSearch (fs : FileSystem) (n : Node) : Bool := fs.privileged || n.ownerBits % 2 = 1

def canRun (fs : FileSystem) (n : Node) : Bool :=
  if fs.privileged then n.mode % 2 = 1 || n.mode / 8 % 2 = 1 || n.mode / 64 % 2 = 1
  else n.ownerBits % 2 = 1

/-- The device of a place, named by where it is mounted. -/
def deviceOf (fs : FileSystem) (loc : Location) : Location :=
  (fs.mounts.find? fun m => m.isPrefixOf loc).getD []

/-- Changes what the file with the given number holds, under all names that it has now. -/
def update (fs : FileSystem) (id : Nat) (f : ByteArray → ByteArray) : FileSystem :=
  { fs with nodes := fs.nodes.map fun e => (e.1, e.2.updated id f) }

def appendTo (fs : FileSystem) (id : Nat) (bytes : ByteArray) : FileSystem :=
  fs.update id (· ++ bytes)

end FileSystem

end Crosscheck
