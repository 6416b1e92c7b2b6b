import Crosscheck.FileSystem.Basic

namespace Crosscheck

/-- What a session can change: the files, the log lines shown so far, the text on the console, and
the windows that were asked to close, by their titles. -/
structure World where
  fs : FileSystem
  log : List String := []
  console : String := ""
  windows : List String := []

namespace World

def say (w : World) (text : String) : World := { w with console := w.console ++ text }

def noteLine (w : World) (line : String) : World := { w with log := w.log ++ [line] }

end World

end Crosscheck
