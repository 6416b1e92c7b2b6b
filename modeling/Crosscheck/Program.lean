import Crosscheck.Duration
import Crosscheck.FileSystem.Basic
import Crosscheck.FileSystem.Errno
import Crosscheck.Watcher

namespace Crosscheck.Program

inductive Signal where
  | terminate
  | kill
  | hangup
  | interrupt
  | user1
  | brokenPipe
  | alarm
  deriving DecidableEq, Repr

def Signal.text : Signal → String
  | .terminate => "terminated"
  | .kill => "killed"
  | .hangup => "hangup"
  | .interrupt => "interrupt"
  | .user1 => "user defined signal 1"
  | .brokenPipe => "broken pipe"
  | .alarm => "alarm clock"

/-- How a process came to its end. One that ended cleanly may leave others behind that hold on to
its output (`lingering`); one that was still running may have been killed as its time was up, or as
the session was cancelled. -/
inductive Ending where
  | clean
  | status (code : Nat)
  | signal (s : Signal)
  | notStarted (e : Errno)
  | lingering
  | timedOut
  | cancelled
  deriving DecidableEq, Repr

structure Watch where
  title : String
  grace : Duration
  interval : Duration
  deriving DecidableEq, Repr

/-- A tool that is to be run on a source file. Both paths are absolute. -/
structure Command where
  exe : String
  input : String
  dir : String
  stdin : String
  timeout : Duration
  watch : Option Watch
  deriving DecidableEq, Repr

structure Run where
  fs : FileSystem
  ending : Ending
  stdout : ByteArray := ByteArray.empty
  stderr : ByteArray := ByteArray.empty
  duration : Duration := .zero
  watcher : List Watcher.Event := []

/-- The behaviour of all programs outside. -/
abbrev Launch := FileSystem → Command → Run

end Crosscheck.Program
