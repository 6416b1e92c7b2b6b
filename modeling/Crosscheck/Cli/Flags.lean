import Crosscheck.Cli.Command
import Crosscheck.Settings.Decode
import Crosscheck.Text.Quoted

/-!
Flags in the syntax that pflag 1.0 documents: `--flag value`, `--flag=value`, and behind one hyphen
letters, of which the last may have its value right behind it, after an equals sign or as the next
argument. Flags that are on or off take a value only after an equals sign. Flags and words may stand
in any order, and after two hyphens alone there are only words.
-/

namespace Crosscheck.Cli

inductive FlagName where
  | config
  | root
  | logFile
  | output
  | verbose
  | help
  deriving DecidableEq, Repr

/-- What the flags of a call say. Text that was not given is told from empty text where a setting
hangs on it. -/
structure Flags where
  config : String := ""
  root : Option String := none
  logFile : Option String := none
  output : String := ""
  verbose : Bool := false
  help : Bool := false
  deriving DecidableEq, Repr

inductive UsageFault where
  | badSyntax (arg : String)
  | unknownFlag (name : String)
  | unknownShorthand (c : Char) (within : String)
  | noValue (arg : String)
  | noShortValue (c : Char) (within : String)
  | notBool (value flag : String)
  | unknownCommand (word path : String)
  | wrongCount (wanted got : Nat)
  deriving DecidableEq, Repr

/-- The first byte of a character, shown as the character with that number. -/
def shownByte (c : Char) : String :=
  let b := (String.singleton c).toUTF8.toList.headD 0
  String.ofList (Text.quotedWith '\'' false [.char (Char.ofNat b.toNat)])

def UsageFault.message : UsageFault → String
  | badSyntax arg => "bad flag syntax: " ++ arg
  | unknownFlag name => "unknown flag: --" ++ name
  | unknownShorthand c within => "unknown shorthand flag: " ++ shownByte c ++ " in -" ++ within
  | noValue arg => "flag needs an argument: " ++ arg
  | noShortValue c within => "flag needs an argument: " ++ shownByte c ++ " in -" ++ within
  | notBool value flag =>
    "invalid argument " ++ Text.quoted value ++ " for \"" ++ flag ++
      "\" flag: strconv.ParseBool: parsing " ++ Text.quoted value ++ ": invalid syntax"
  | unknownCommand word path =>
    "unknown command " ++ Text.quoted word ++ " for " ++ Text.quoted path
  | wrongCount wanted got =>
    "accepts " ++ toString wanted ++ " arg(s), received " ++ toString got

namespace FlagName

def long? (c : Command) : String → Option FlagName
  | "config" => some config
  | "root" => some root
  | "log-file" => some logFile
  | "verbose" => some verbose
  | "help" => some help
  | "output" => if c = .config then some output else none
  | _ => none

def short? (c : Command) : Char → Option FlagName
  | 'v' => some verbose
  | 'h' => some help
  | 'o' => if c = .config then some output else none
  | _ => none

def isSwitch : FlagName → Bool
  | verbose => true
  | help => true
  | _ => false

def shown : FlagName → String
  | verbose => "-v, --verbose"
  | help => "-h, --help"
  | output => "-o, --output"
  | config => "--config"
  | root => "--root"
  | logFile => "--log-file"

end FlagName

namespace Flags

def setSwitch (fs : Flags) (name : FlagName) (b : Bool) : Flags :=
  match name with
  | .verbose => { fs with verbose := b }
  | .help => { fs with help := b }
  | _ => fs

def set (fs : Flags) (name : FlagName) (value : String) : Except UsageFault Flags :=
  match name with
  | .config => .ok { fs with config := value }
  | .root => .ok { fs with root := some value }
  | .logFile => .ok { fs with logFile := some value }
  | .output => .ok { fs with output := value }
  | name =>
    match Settings.truth? value with
    | some b => .ok (fs.setSwitch name b)
    | none => .error (.notBool value name.shown)

end Flags

inductive Taken where
  | done (fs : Flags)
  | waiting (fs : Flags) (name : FlagName) (fault : UsageFault)

def longFlag (c : Command) (fs : Flags) (arg : String) : Except UsageFault Taken :=
  let body := arg.toList.drop 2
  let name := String.ofList (body.takeWhile (· ≠ '='))
  if name = "" ∨ body.head? = some '-' then .error (.badSyntax arg)
  else
    match FlagName.long? c name with
    | none => .error (.unknownFlag name)
    | some flag =>
      match body.dropWhile (· ≠ '=') with
      | _ :: value => (fs.set flag (String.ofList value)).map .done
      | [] =>
        if flag.isSwitch then .ok (.done (fs.setSwitch flag true))
        else .ok (.waiting fs flag (.noValue arg))

/-- Reads the letters behind one hyphen. The rest of them may be the value of one. -/
def shortFlags (c : Command) (fs : Flags) : List Char → Except UsageFault Taken
  | [] => .ok (.done fs)
  | x :: rest =>
    let all := String.ofList (x :: rest)
    if "test.".toList.isPrefixOf (x :: rest) then .ok (.done fs)
    else
      match FlagName.short? c x with
      | none => .error (.unknownShorthand x all)
      | some flag =>
        match rest with
        | '=' :: y :: value => (fs.set flag (String.ofList (y :: value))).map .done
        | rest =>
          if flag.isSwitch then shortFlags c (fs.setSwitch flag true) rest
          else if rest.isEmpty then .ok (.waiting fs flag (.noShortValue x all))
          else (fs.set flag (String.ofList rest)).map .done

def flagArg (c : Command) (fs : Flags) (arg : String) : Except UsageFault Taken :=
  if "--".toList.isPrefixOf arg.toList then longFlag c fs arg
  else shortFlags c fs (arg.toList.drop 1)

def isFlag (arg : String) : Bool := arg.toList.head? = some '-' && arg ≠ "-"

/-- Tells the flags from the other arguments, in order. After two hyphens there are no more
flags. -/
def readFlags (c : Command) (fs : Flags) (others : List String) :
    List String → Except UsageFault (Flags × List String)
  | [] => .ok (fs, others.reverse)
  | arg :: rest =>
    if !isFlag arg then readFlags c fs (arg :: others) rest
    else if arg = "--" then .ok (fs, others.reverse ++ rest)
    else
      match flagArg c fs arg with
      | .error f => .error f
      | .ok (.done fs) => readFlags c fs others rest
      | .ok (.waiting fs name fault) =>
        match rest with
        | [] => .error fault
        | value :: rest =>
          match fs.set name value with
          | .error f => .error f
          | .ok fs => readFlags c fs others rest

end Crosscheck.Cli
