import Crosscheck.Runner
import Crosscheck.Session

namespace Crosscheck.Session

variable {ε : Type}

def onConsole (tty : Bool) (logger : Log.Logger)
    (assemble : Tool → String → World → RunResult ε × World)
    (compare : String → String → String → String → World → Bool × World) : Parts World ε where
  assemble := assemble
  compare := compare
  started _ w := w.say Console.started
  caseFinished c w := w.say (Console.caseFinished tty c)
  finished r w := w.say (Console.sessionFinished r)
  note record w := logger.log w record
  files w := w.fs
  setFiles fs w := { w with fs := fs }

def sessionLogger (logger : Log.Logger) (id : String) : Log.Logger :=
  logger.adding [⟨"session", .text id⟩]

def compareFiles (dir₁ dir₂ base ext : String) (w : World) : Bool × World :=
  (Artifact.same w.fs dir₁ dir₂ base ext, w)

/-- The parts of a session that runs real tools. No windows are closed. -/
def standard (launch : Program.Launch) (cancelled tty : Bool) (logger : Log.Logger) (c : Config) :
    Parts World RunFault :=
  let runner : Runner :=
    { timing := c.timing, artifactExt := c.artifactExt, canDismiss := Dismisser.absent.supported,
      logger }
  onConsole tty logger (runner.assemble launch cancelled) compareFiles

end Crosscheck.Session
