import Crosscheck.FileSystem.Access
import Crosscheck.Log.Options
import Crosscheck.Log.Record
import Crosscheck.World

namespace Crosscheck.Log

/-- Where records go: to the shown log from a threshold on, and to a file from debug on. Every
record gets the attributes of its logger first. -/
structure Logger where
  threshold : Level
  shows : Bool := true
  file : Option Nat := none
  attrs : List Attr := []

namespace Logger

def discard : Logger := { threshold := ⟨Level.error.value + 1⟩, shows := false }

inductive Fault where
  | unknownLevel (name : String)
  | cannotOpen (e : OsError)
  deriving DecidableEq, Repr

def Fault.message : Fault → String
  | .unknownLevel name => Level.unknownMessage name
  | .cannotOpen e => "cannot open log file: " ++ e.message

def threshold? (o : Options) : Option Level :=
  if o.level = "" then some .warn else Level.parse? o.level

def make (fs : FileSystem) (o : Options) : Except Fault (FileSystem × Logger) :=
  match threshold? o with
  | none => .error (.unknownLevel o.level)
  | some threshold =>
    if o.file = "" then .ok (fs, { threshold })
    else
      match fs.openAppend o.file with
      | .error e => .error (.cannotOpen e)
      | .ok (fs, id) => .ok (fs, { threshold, file := some id })

def adding (l : Logger) (attrs : List Attr) : Logger := { l with attrs := l.attrs ++ attrs }

def showsAt (l : Logger) (level : Level) : Bool := level.atLeast l.threshold

def filesAt (l : Logger) (level : Level) : Bool := l.file.isSome && level.atLeast .debug

def enabled (l : Logger) (level : Level) : Bool := l.showsAt level || l.filesAt level

def record (l : Logger) (r : Record) : Record := { r with attrs := l.attrs ++ r.attrs }

def log (l : Logger) (w : World) (r : Record) : World :=
  let full := l.record r
  let w := if l.showsAt r.level && l.shows then w.noteLine full.textLine else w
  match l.file with
  | some id =>
    if r.level.atLeast .debug then
      { w with fs := w.fs.appendTo id (full.jsonLine ++ "\n").toUTF8 }
    else w
  | none => w

end Logger

end Crosscheck.Log
