import Crosscheck.FileSystem.Remove
import Crosscheck.Program

namespace Crosscheck.Program

/-- One thing a scripted tool does. In a path, the word `base` in braces stands for the name of
the source file without its extension. -/
inductive Action where
  | write (path : String) (bytes : ByteArray)
  | append (path : String) (bytes : ByteArray)
  | copyInput (path : String)
  | stdout (bytes : ByteArray)
  | stderr (bytes : ByteArray)
  | showArgs
  | copyStdin
  | mkdir (path : String)
  | link (path target : String)
  | remove (path : String)
  | exit (code : Nat)
  | raise (s : Signal)
  | hang
  | awaitDismissal
  | ifBase (base : String) (actions : List Action)
  deriving Inhabited

namespace Script

/-- A scripted attempt to close a window; one that blocks does not end before it is given up. -/
structure Dismissal where
  attempt : Attempt
  blocks : Bool := false
  deriving DecidableEq, Repr

structure State where
  fs : FileSystem
  stdout : ByteArray := ByteArray.empty
  stderr : ByteArray := ByteArray.empty
  stdin : String
  clock : Int := 0
  ending : Option Ending := none

def beginsAt (w : Watch) (n : Nat) : Int := w.grace.toInt + n * w.interval.toInt

structure Setting where
  command : Command
  dismissals : List Dismissal

def stemOf (p : String) : String :=
  let name := Path.lastPart p.toList
  String.ofList (name.take (name.length - (Path.extOf name).length))

def Setting.base (e : Setting) : String := stemOf e.command.input

/-- Puts the name of the source file in the place of its mark. -/
def Setting.fill (e : Setting) (path : String) : String := path.replace "\x7bbase\x7d" e.base

def State.finish (s : State) (e : Ending) : State := { s with ending := some e }

def State.timeOut (e : Setting) (s : State) : State :=
  { s.finish .timedOut with clock := e.command.timeout.toInt }

def State.tryFiles {α : Type} (s : State) : Except α FileSystem → State
  | .ok fs => { s with fs }
  | .error _ => s

def appendFile (fs : FileSystem) (p : String) (bytes : ByteArray) : Except OsError FileSystem :=
  match fs.openAppend p with
  | .error e => .error e
  | .ok (fs, id) => .ok (fs.appendTo id bytes)

def addLink (fs : FileSystem) (p target : String) : Except Errno FileSystem :=
  match fs.entry p with
  | .error e => .error e
  | .ok ⟨dir, .name s, _⟩ =>
    if (fs.get? (dir ++ [s])).isSome then .error .exists
    else if fs.mayChange dir then .ok (fs.set (dir ++ [s]) (.link target))
    else .error .denied
  | .ok _ => .error .exists

/-- Copies the source file. One that is not there gives an empty copy and a complaint. -/
def copyInput (e : Setting) (s : State) (path : String) : State :=
  match s.fs.readFile e.command.input with
  | .ok bytes => s.tryFiles (s.fs.writeFile path bytes)
  | .error _ =>
    let complaint := "cat: " ++ e.command.input ++ ": No such file or directory\n"
    { s.tryFiles (s.fs.writeFile path ByteArray.empty) with
      stderr := s.stderr ++ complaint.toUTF8 }

def awaitDismissal (e : Setting) (s : State) : State :=
  match e.command.watch, e.dismissals with
  | some w, _ :: later =>
    let time := max s.clock (beginsAt w later.length)
    if time < e.command.timeout.toInt then { s with clock := time } else s.timeOut e
  | _, _ => s.timeOut e

mutual

def act (e : Setting) (s : State) : Action → State
  | .write path bytes => s.tryFiles (s.fs.writeFile (e.fill path) bytes)
  | .append path bytes => s.tryFiles (appendFile s.fs (e.fill path) bytes)
  | .copyInput path => copyInput e s (e.fill path)
  | .stdout bytes => { s with stdout := s.stdout ++ bytes }
  | .stderr bytes => { s with stderr := s.stderr ++ bytes }
  | .showArgs =>
    { s with stdout := s.stdout ++ ("1\n" ++ e.command.input ++ "\n" ++ e.command.dir ++ "\n").toUTF8 }
  | .copyStdin => { s with stdout := s.stdout ++ s.stdin.toUTF8, stdin := "" }
  | .mkdir path => { s with fs := (s.fs.mkdirAll (e.fill path)).1 }
  | .link path target => s.tryFiles (addLink s.fs (e.fill path) target)
  | .remove path => { s with fs := (s.fs.removeAll (e.fill path)).1 }
  | .exit code => s.finish (if code % 256 = 0 then .clean else .status (code % 256))
  | .raise sig => s.finish (.signal sig)
  | .hang => s.timeOut e
  | .awaitDismissal => awaitDismissal e s
  | .ifBase base actions => if base = e.base then perform e s actions else s

def perform (e : Setting) (s : State) : List Action → State
  | [] => s
  | a :: rest =>
    let s := act e s a
    if s.ending.isSome then s else perform e s rest

end

/-- How many attempts have begun when the tool ends. A tool that waited for one saw it begin. -/
def begunBy (w : Watch) (clock : Int) (count : Nat) : Nat :=
  if clock = 0 then 0
  else ((List.range count).filter fun n => beginsAt w n ≤ clock).length

def watcherEvents (dismissals : List Dismissal) (w : Watch) (clock : Int) : List Watcher.Event :=
  let begun := dismissals.take (begunBy w clock dismissals.length)
  let finished := (begun.filter fun d => !d.blocks).map (·.attempt)
  Watcher.eventsUntilStop finished (begun.any (·.blocks))

def refusal (fs : FileSystem) (bytes : ByteArray) : Errno :=
  match bytes.toList with
  | 0x23 :: 0x21 :: rest =>
    let line := rest.takeWhile (· != 0x0a)
    let word := ((line.dropWhile fun b => b = 0x20 || b = 0x09).takeWhile fun b =>
      b != 0x20 && b != 0x09).map fun b => Char.ofNat b.toNat
    if word.isEmpty then .notExecutable
    else
      match fs.stat (String.ofList word) with
      | .error e => e
      | .ok n => if n.isRegular && fs.canRun n then .notExecutable else .denied
  | _ => .notExecutable

/-- The programs outside, where `programs` tells the scripted tools by their contents. -/
def launch (programs : ByteArray → Option (List Action)) (dismissals : List Dismissal) : Launch :=
  fun fs c =>
    let events (clock : Int) : List Watcher.Event := match c.watch with
      | some w => watcherEvents dismissals w clock
      | none => []
    let refused (e : Errno) : Run := { fs, ending := .notStarted e, watcher := events 0 }
    match fs.stat c.exe with
    | .error e => refused e
    | .ok n =>
      if fs.canRun n = false then refused .denied
      else
        match n with
        | .file _ _ bytes =>
          match programs bytes, fs.spot true c.dir with
          | none, _ => refused (refusal fs bytes)
          | some actions, .ok (.node dir) =>
            let s := perform ⟨c, dismissals⟩ { fs := { fs with cwd := dir }, stdin := c.stdin } actions
            { fs := { s.fs with cwd := fs.cwd }
              ending := s.ending.getD .clean
              stdout := s.stdout
              stderr := s.stderr
              watcher := events s.clock }
          | some _, _ => refused .notFound
        | _ => refused .denied

end Script

end Crosscheck.Program
