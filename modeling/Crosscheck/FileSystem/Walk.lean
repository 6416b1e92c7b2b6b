import Crosscheck.FileSystem.Basic
import Crosscheck.Path

namespace Crosscheck.FileSystem

/-- Where a path leads: to something that is there, or to a free name in a directory. -/
inductive Spot where
  | node (loc : Location)
  | gap (dir : Location) (name : String)
  deriving DecidableEq, Repr

def steps (p : String) : List String :=
  ((Path.splitAt '/' p.toList).map String.ofList).filter (· != "")

def start (fs : FileSystem) (p : String) : Location := if Path.isAbs p then [] else fs.cwd

def maxName : Nat := 255

def maxPath : Nat := 4095

/-- What the system says of a path before it looks at any directory. -/
def pathFault? (p : String) : Option Errno :=
  if p.toList.contains '\x00' then some .invalid
  else if p = "" then some .notFound
  else if p.utf8ByteSize > maxPath then some .nameTooLong
  else none

def enter (fs : FileSystem) (loc : Location) : Except Errno Unit :=
  match fs.get? loc with
  | none => .error .notFound
  | some node =>
    if node.isDir = false then .error .notDirectory
    else if fs.canSearch node = false then .error .denied
    else .ok ()

/-- Takes the steps one by one. `follow` says where a link in a directory leads; a link at the
end is only followed if `through` is set. -/
def walkWith (fs : FileSystem) (follow : Location → String → Except Errno Spot) (through : Bool) :
    Location → List String → Except Errno Spot
  | loc, [] => .ok (.node loc)
  | loc, s :: rest =>
    match fs.enter loc with
    | .error e => .error e
    | .ok () =>
      if s = "." then walkWith fs follow through loc rest
      else if s = ".." then walkWith fs follow through loc.dropLast rest
      else if s.utf8ByteSize > maxName then .error .nameTooLong
      else
        match fs.get? (loc ++ [s]) with
        | none => if rest.isEmpty then .ok (.gap loc s) else .error .notFound
        | some (.link target) =>
          if rest.isEmpty && !through then .ok (.node (loc ++ [s]))
          else
            match follow loc target with
            | .error e => .error e
            | .ok (.node found) => walkWith fs follow through found rest
            | .ok (.gap dir name) =>
              if rest.isEmpty then .ok (.gap dir name) else .error .notFound
        | some _ => walkWith fs follow through (loc ++ [s]) rest

/-- A slash at the end of a path asks for a directory, as a dot does. -/
def stepsThrough (p : String) : List String :=
  let ss := steps p
  if p.toList.getLast? = some '/' ∧ ss ≠ [] then ss ++ ["."] else ss

/-- Follows a link, and at most `budget` links on the way. -/
def followLink (fs : FileSystem) : Nat → Location → String → Except Errno Spot
  | 0, _, _ => .error .loop
  | budget + 1, loc, target =>
    if target = "" then .error .notFound
    else
      walkWith fs (followLink fs budget) true (if Path.isAbs target then [] else loc)
        (stepsThrough target)

def linkBudget : Nat := 40

def spot (fs : FileSystem) (through : Bool) (p : String) : Except Errno Spot :=
  match pathFault? p with
  | some e => .error e
  | none =>
    match walkWith fs (followLink fs linkBudget) through (fs.start p) (stepsThrough p) with
    | .ok (.node loc) => if (fs.get? loc).isSome then .ok (.node loc) else .error .notFound
    | found => found

inductive Last where
  | root
  | dot
  | dotdot
  | name (s : String)
  deriving DecidableEq, Repr

structure Entry where
  dir : Location
  last : Last
  slash : Bool
  deriving DecidableEq, Repr

def entry (fs : FileSystem) (p : String) : Except Errno Entry :=
  match pathFault? p with
  | some e => .error e
  | none =>
    match (steps p).reverse with
    | [] => .ok ⟨[], .root, false⟩
    | s :: front =>
      match walkWith fs (followLink fs linkBudget) true (fs.start p) front.reverse with
      | .error e => .error e
      | .ok (.gap _ _) => .error .notFound
      | .ok (.node dir) =>
        match fs.enter dir with
        | .error e => .error e
        | .ok () =>
          let slash := p.toList.getLast? = some '/'
          if s = "." then .ok ⟨dir, .dot, slash⟩
          else if s = ".." then .ok ⟨dir, .dotdot, slash⟩
          else if s.utf8ByteSize > maxName then .error .nameTooLong
          else .ok ⟨dir, .name s, slash⟩

end Crosscheck.FileSystem
