/-!
The command that arguments name, found as cobra 1.8 documents it: the words among the arguments that
are no flags and no values of flags lead from one command to the next. Help and completion come with
every program.
-/

namespace Crosscheck.Cli

/-- The commands of the program. The first runs a session; those that only group others show
their help. -/
inductive Command where
  | session
  | help
  | completion
  | tools
  | list
  | config
  | compare
  deriving DecidableEq, Repr

namespace Command

def path : Command → String
  | session => "asmdiff"
  | help => "asmdiff help"
  | completion => "asmdiff completion"
  | tools => "asmdiff tools"
  | list => "asmdiff tools list"
  | config => "asmdiff tools config"
  | compare => "asmdiff tools compare"

def child? : Command → String → Option Command
  | session, "help" => some help
  | session, "completion" => some completion
  | session, "tools" => some tools
  | tools, "list" => some list
  | tools, "config" => some config
  | tools, "compare" => some compare
  | _, _ => none

def isGroup : Command → Bool
  | tools => true
  | completion => true
  | _ => false

end Command

/-- Whether an argument is a flag whose value is the next argument. Which flags there are does
not matter yet: only the one that turns messages on is known to take none. -/
def takesNext (s : String) : Bool :=
  let cs := s.toList
  let long := "--".toList.isPrefixOf cs && s ≠ "--verbose"
  let short := cs.head? = some '-' && s.utf8ByteSize = 2 && s ≠ "-v"
  !cs.contains '=' && (long || short)

/-- The first argument that may name a command. A flag swallows the argument after it, and the
last argument of all where that is its value ends the search. -/
def commandWord? : List String → Option String
  | [] => none
  | s :: rest =>
    if s = "--" then none
    else if takesNext s then
      match rest with
      | _ :: next :: more => commandWord? (next :: more)
      | _ => none
    else if s ≠ "" ∧ s.toList.head? ≠ some '-' then some s
    else commandWord? rest

def withoutWord (word : String) : List String → List String
  | [] => []
  | s :: rest =>
    if s = "--" then s :: rest
    else if takesNext s then
      match rest with
      | v :: more => s :: v :: withoutWord word more
      | [] => [s]
    else if s = word then rest
    else s :: withoutWord word rest

def findFrom : Nat → Command → List String → Command × List String
  | 0, c, args => (c, args)
  | fuel + 1, c, args =>
    match commandWord? args with
    | none => (c, args)
    | some word =>
      match c.child? word with
      | some next => findFrom fuel next (withoutWord word args)
      | none => (c, args)

def find (args : List String) : Command × List String := findFrom args.length .session args

end Crosscheck.Cli
