import Crosscheck.Cli.Command

/-!
Help by the template that cobra 1.8 uses for every command: what the command is for, how it is called,
the commands below it, and its flags, those of all commands last.
-/

namespace Crosscheck.Cli

structure FlagHelp where
  short : Option Char := none
  name : String
  value : String := ""
  about : String

def FlagHelp.left (f : FlagHelp) : String :=
  let short := match f.short with
    | some c => "  -" ++ String.singleton c ++ ", "
    | none => "      "
  short ++ "--" ++ f.name ++ (if f.value = "" then "" else " " ++ f.value)

def flagLines (fs : List FlagHelp) : String :=
  let width := (fs.map fun f => f.left.length).foldl max 0
  "".intercalate (fs.map fun f =>
    String.ofList (f.left.toList.rightpad (width + 3) ' ') ++ f.about ++ "\n")

def globalFlags : List FlagHelp :=
  [{ name := "config", value := "string"
     about := "Config file (default: asmdiff.yaml next to the executable or in the working directory)" },
   { name := "log-file", value := "string", about := "Also write JSON logs to this file" },
   { name := "root", value := "string"
     about := "Directory the default tool, corpus and output paths are relative to (default: executable directory)" },
   { short := some 'v', name := "verbose", about := "Log every tool run to stderr" }]

namespace Command

def name : Command → String
  | session => "asmdiff"
  | help => "help"
  | completion => "completion"
  | tools => "tools"
  | list => "list"
  | config => "config"
  | compare => "compare"

def short : Command → String
  | session => "Compare the output of two assemblers over a corpus of test files"
  | help => "Help about any command"
  | completion => "Generate the autocompletion script for the specified shell"
  | tools => "asmdiff miscellaneous tools"
  | list => "List the configured assemblers"
  | config => "Show the effective configuration"
  | compare => "Compare two collected artifacts"

def long : Command → String
  | session =>
    "asmdiff runs a candidate assembler and a trusted reference assembler over every\n" ++
    ".asm file of the test corpus and checks that both produce byte-identical .hex files.\n" ++
    "\n" ++
    "Without a config file everything is found next to the asmdiff executable:\n" ++
    "\n" ++
    "  testFiles/          the test corpus (*.asm)\n" ++
    "  assembler.exe       the candidate assembler\n" ++
    "  Dsm51Ass.exe        the reference assembler\n" ++
    "  output_assembler/   collected .hex files of the candidate (recreated every run)\n" ++
    "  output_dsm51/       collected .hex files of the reference (recreated every run)\n" ++
    "\n" ++
    "The exit status is 0 if every test file passed and 1 otherwise."
  | help =>
    "Help provides help for any command in the application.\n" ++
    "Simply type asmdiff help [path to command] for full details."
  | completion =>
    "Generate the autocompletion script for asmdiff for the specified shell.\n" ++
    "See each sub-command's help for details on how to use the generated script."
  | tools => short tools
  | list =>
    "Lists every configured assembler in run order with its role, executable path and\n" ++
    "output directory, and whether the executable was found."
  | config =>
    "Dumps the configuration a session would run with, after defaults, config file,\n" ++
    "environment variables and flags are merged and every path is resolved.\n" ++
    "The output is valid YAML and can be used as a starting point for asmdiff.yaml."
  | compare =>
    "Compares <dir1>/<name>.hex with <dir2>/<name>.hex byte by byte, the same way a\n" ++
    "session does. <name> may be given with or without the source extension.\n" ++
    "\n" ++
    "Useful to re-check a single case from the output directories of a previous session.\n" ++
    "Exits with status 0 if both files exist and are identical, 1 otherwise."

def children : Command → List (String × String)
  | session => [completion, help, tools].map fun c => (c.name, c.short)
  | tools => [compare, config, list].map fun c => (c.name, c.short)
  | completion =>
    ["bash", "fish", "powershell", "zsh"].map fun shell =>
      (shell, "Generate the autocompletion script for " ++ shell)
  | _ => []

def usage? : Command → Option String
  | session => some "asmdiff"
  | help => some "asmdiff help [command]"
  | list => some list.path
  | config => some config.path
  | compare => some "asmdiff tools compare <dir1> <dir2> <name>"
  | _ => none

def ownFlags (c : Command) : List FlagHelp :=
  let help : FlagHelp := { short := some 'h', name := "help", about := "help for " ++ c.name }
  match c with
  | config =>
    [help, { short := some 'o', name := "output", value := "string"
             about := "Output file. If not specified, the configuration is dumped to stdout." }]
  | _ => [help]

/-- The flags of the first command are all its own, in order of their names. -/
def flagSections (c : Command) : String :=
  match c with
  | session =>
    let fs := (c.ownFlags ++ globalFlags).mergeSort fun a b => decide (a.name ≤ b.name)
    "\nFlags:\n" ++ flagLines fs
  | _ => "\nFlags:\n" ++ flagLines c.ownFlags ++ "\nGlobal Flags:\n" ++ flagLines globalFlags

def childSection (c : Command) : String :=
  match c.children with
  | [] => ""
  | cs =>
    "\nAvailable Commands:\n" ++ "".intercalate (cs.map fun (name, about) =>
      "  " ++ String.ofList (name.toList.rightpad 11 ' ') ++ " " ++ about ++ "\n")

def usageSection (c : Command) : String :=
  "Usage:\n" ++
    (match c.usage? with
      | some u => "  " ++ u ++ " [flags]\n"
      | none => "") ++
    (if c.children.isEmpty then "" else "  " ++ c.path ++ " [command]\n")

def helpText (c : Command) : String :=
  c.long ++ "\n\n" ++ c.usageSection ++ c.childSection ++ c.flagSections ++
    (if c.children.isEmpty then ""
      else "\nUse \"" ++ c.path ++ " [command] --help\" for more information about a command.\n")

end Command

end Crosscheck.Cli
