import Crosscheck.Log.Record

namespace Crosscheck

structure Attempt where
  found : Bool := false
  error : Option String := none
  deriving DecidableEq, Repr

structure Dismisser where
  supported : Bool
  dismiss : String → Attempt

def Dismisser.absent : Dismisser := ⟨false, fun _ => {}⟩

namespace Watcher

/-- A watcher waits for a while, then tries to close its window again and again, with a pause
after each attempt. -/
inductive Phase where
  | waiting
  | trying
  | pausing
  | gone
  deriving DecidableEq, Repr

/-- What can happen to a watcher or to the one who stops it. A timer that runs out, like a wish to
stop, is noticed only later, and of several the watcher may notice any first. -/
inductive Event where
  | graceOver
  | graceNoticed
  | returned (a : Attempt)
  | tick
  | tickNoticed
  | stopAsked
  | stopNoticed
  | patienceOver
  | stopAwaited
  | stopGivenUp
  deriving DecidableEq, Repr

inductive Entry where
  | failed (error : String)
  | requested
  | lateStop
  deriving DecidableEq, Repr

structure Call where
  title : String
  result : Option Attempt := none
  deriving DecidableEq, Repr

/-- A watcher, the timers that have run out, the one who stops it and what was told so far. -/
structure State where
  phase : Phase := .waiting
  graceOver : Bool := false
  ticked : Bool := false
  patienceOver : Bool := false
  stopping : Bool := false
  stopped : Option Bool := none
  calls : List Call := []
  entries : List Entry := []
  deriving DecidableEq, Repr

def State.attempts (s : State) : List String := s.calls.map (·.title)

/-- An error is noted even if a window was found with it. -/
def entryOf (a : Attempt) : Option Entry :=
  match a.error with
  | some e => some (.failed e)
  | none => if a.found then some .requested else none

def State.attempt (s : State) (title : String) : State :=
  { s with phase := .trying, calls := s.calls ++ [⟨title, none⟩] }

def State.conclude (s : State) (a : Attempt) : State :=
  { s with
    phase := .pausing
    calls := s.calls.dropLast ++ s.calls.getLast?.toList.map fun c => { c with result := some a }
    entries := s.entries ++ (entryOf a).toList }

/-- The next state, if the event can happen now. The timer between two calls runs from the first of
them on, and the one that limits the patience of the one who stops from the wish to stop on. -/
def step? (title : String) (s : State) : Event → Option State
  | .graceOver => if s.phase = .waiting then some { s with graceOver := true } else none
  | .graceNoticed =>
    if s.phase = .waiting ∧ s.graceOver then some (s.attempt title) else none
  | .returned a => if s.phase = .trying then some (s.conclude a) else none
  | .tick =>
    if s.phase = .trying ∨ s.phase = .pausing then some { s with ticked := true } else none
  | .tickNoticed =>
    if s.phase = .pausing ∧ s.ticked then some { s.attempt title with ticked := false } else none
  | .stopAsked => if s.stopping then none else some { s with stopping := true }
  | .stopNoticed =>
    if s.stopping ∧ (s.phase = .waiting ∨ s.phase = .pausing) then some { s with phase := .gone }
    else none
  | .patienceOver => if s.stopping then some { s with patienceOver := true } else none
  | .stopAwaited =>
    if s.stopping ∧ s.stopped = none ∧ s.phase = .gone then some { s with stopped := some true }
    else none
  | .stopGivenUp =>
    if s.stopping ∧ s.stopped = none ∧ s.patienceOver then
      some { s with stopped := some false, entries := s.entries ++ [.lateStop] }
    else none

def play (title : String) : State → List Event → State
  | s, [] => s
  | s, e :: rest => play title ((step? title s e).getD s) rest

/-- The events of a watcher that is stopped while its last attempt is under way. The attempts
that end are given in order; `stuck` says that one more has begun and does not end in time. -/
def eventsUntilStop (finished : List Attempt) (stuck : Bool) : List Event :=
  let again : List Event := [.tick, .tickNoticed]
  let tries := ((finished.map fun a => [Event.returned a]).intersperse again).flatten
  let begun := [.graceOver, .graceNoticed] ++ tries
  if stuck then
    begun ++ (if finished.isEmpty then [] else again) ++ [.stopAsked, .patienceOver, .stopGivenUp]
  else if finished.isEmpty then [.stopAsked, .stopNoticed, .stopAwaited]
  else begun ++ [.stopAsked, .stopNoticed, .stopAwaited]

def Entry.record (title : String) (stopTimeout : Duration) : Entry → Log.Record
  | .failed e =>
    { level := .debug, message := "window dismissal failed"
      attrs := [⟨"title", .text title⟩, ⟨"error", .error e⟩] }
  | .requested =>
    { level := .debug, message := "window close requested", attrs := [⟨"title", .text title⟩] }
  | .lateStop =>
    { level := .warn, message := "window watcher did not stop in time"
      attrs := [⟨"title", .text title⟩, ⟨"timeout", .duration stopTimeout⟩] }

end Watcher

end Crosscheck
