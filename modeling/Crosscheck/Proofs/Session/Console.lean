import Crosscheck.Proofs.Corpus
import Crosscheck.Proofs.Log
import Crosscheck.Proofs.Session.Invariant

namespace Crosscheck

open Log (Shows)

theorem Log.Shows.withFiles {console : String} {w : World} (h : Shows console w) (fs : FileSystem) :
    Shows console { w with fs } := ⟨h.console, h.lines⟩

namespace Runner

variable {console : String} {w : World} (h : Shows console w)

include h

theorem watched_shows (r : Runner) (logger : Log.Logger) (title : String)
    (events : List Watcher.Event) : Shows console (r.watched logger title events w) := by
  have hfold : ∀ (entries : List Watcher.Entry) (w : World), Shows console w →
      Shows console (entries.foldl
        (fun w e => logger.log w (e.record title r.timing.watcherStopTimeout)) w) := by
    intro entries
    induction entries with
    | nil => exact fun w hw => hw
    | cons e rest ih =>
      intro w hw
      exact ih _ (logger.log_shows hw (by cases e <;> rfl))
  exact hfold _ _ ⟨h.console, h.lines⟩

theorem execute_shows (r : Runner) (launch : Program.Launch) (cancelled : Bool)
    (logger : Log.Logger) (c : Program.Command) :
    Shows console (r.execute launch cancelled logger c w).2.2 := by
  have hann : Shows console (announce logger c w) := logger.log_shows h rfl
  rw [execute]
  dsimp only
  split
  · exact watched_shows (hann.withFiles _) ..
  · exact hann.withFiles _

theorem failed_shows (logger : Log.Logger) (result : RunResult RunFault) (f : RunFault) :
    Shows console (failed logger result f w).2 := by
  have hlog := fun r : Log.Record => logger.log_shows h (r := r)
  rw [failed]
  dsimp only
  split
  · exact hlog _ rfl
  · exact logger.log_shows (hlog _ rfl) rfl

theorem assemble_shows (r : Runner) (launch : Program.Launch) (cancelled : Bool) (tool : Tool)
    (input : String) : Shows console (r.assemble launch cancelled tool input w).2 := by
  rw [assemble]
  dsimp only
  split
  · exact failed_shows h ..
  split
  · exact failed_shows h ..
  split
  · exact failed_shows h ..
  rename_i fs _
  have hrun : Shows console (r.execute launch cancelled (r.runLogger tool (Path.stem input))
      (r.command tool (Path.abs (workingDir w.fs) tool.path) (Path.abs (workingDir w.fs) input))
      { w with fs }).2.2 := execute_shows (h.withFiles fs) ..
  split
  · exact failed_shows hrun ..
  split
  · exact failed_shows (hrun.withFiles _) ..
  · exact Log.Logger.log_shows _ (hrun.withFiles _) rfl
  · exact failed_shows (hrun.withFiles _) ..

end Runner

namespace Session

theorem shows_say {console : String} {w : World} (h : Shows console w) (text : String) :
    Shows (console ++ text) (w.say text) := by
  refine ⟨?_, h.lines⟩
  rw [← h.console]
  rfl

section Standard

variable (launch : Program.Launch) (cancelled tty : Bool) (logger : Log.Logger) (c : Config)

theorem runCase_shows (test : TestCase) {console : String} {w : World} (h : Shows console w) :
    Shows console (runCase (standard launch cancelled tty logger c) c test w).2 := by
  have hnote (r : Log.Record) (hr : r.time = none) (w : World) (hw : Shows console w) :
      Shows console ((standard launch cancelled tty logger c).note r w) := logger.log_shows hw hr
  have hruns : Shows console
      (runTools (standard launch cancelled tty logger c) test.path c.tools w).2 := by
    apply runTools_keeps (P := Shows console) _ h
    intro t _ w hw
    rw [standard_assemble]
    exact Runner.assemble_shows hw ..
  have hcompare (dir₁ dir₂ base ext : String) (w : World) (hw : Shows console w) :
      Shows console ((standard launch cancelled tty logger c).compare dir₁ dir₂ base ext w).2 := hw
  have hcompared := compareAll_keeps hcompare ((c.reference?.map (·.outputDir)).getD "") test.base
    c.artifactExt c.candidates hruns
  rw [runCase]
  dsimp only
  split
  · exact hnote _ rfl _ hruns
  split
  · exact hcompared
  · exact hnote _ rfl _ hcompared

/-- A session says that it starts, then how each case went, and at last how many passed. -/
theorem runOver_shows (cases : List TestCase) {w : World} (h : Shows "" w) :
    Shows (Console.text tty (runOver (standard launch cancelled tty logger c) c cases w).1)
      (runOver (standard launch cancelled tty logger c) c cases w).2 := by
  have hnote (console : String) (r : Log.Record) (hr : r.time = none) (w : World)
      (hw : Shows console w) : Shows console ((standard launch cancelled tty logger c).note r w) :=
    logger.log_shows hw hr
  have hstep (done : List (CaseResult RunFault)) (test : TestCase) (w : World)
      (hw : Shows (Console.started ++ String.join (done.map (Console.caseFinished tty))) w) :
      Shows (Console.started ++ String.join ((done ++
          [(runCase (standard launch cancelled tty logger c) c test w).1]).map
            (Console.caseFinished tty)))
        ((standard launch cancelled tty logger c).caseFinished
          (runCase (standard launch cancelled tty logger c) c test w).1
          (runCase (standard launch cancelled tty logger c) c test w).2) := by
    rw [List.map_append, String.join_append, ← String.append_assoc, List.map_singleton,
      String.join_cons, String.join_nil, String.append_empty]
    exact shows_say (runCase_shows launch cancelled tty logger c test hw) _
  rw [runOver, Console.text]
  dsimp only
  apply shows_say
  apply hnote _ _ rfl
  refine (runCases_induct (fun done test _ w _ hw => hstep done test w hw) ?_).2
  have hstarted (w : World) (hw : Shows "" w) : Shows (Console.started ++ String.join [])
      ((standard launch cancelled tty logger c).started cases w) := by
    rw [String.join_nil, String.append_empty]
    exact shows_say hw Console.started
  apply hstarted
  apply hnote _ _ rfl
  exact h

variable {launch cancelled tty logger c} {fs : FileSystem} {w : World}

theorem run_shows {report : Report RunFault}
    (h : run (standard launch cancelled tty logger c) c { fs } = (.ok report, w)) :
    Shows (Console.text tty report) w := by
  obtain ⟨fs₁, cases, _, _, hover⟩ := run_eq_ok h
  have hshows := runOver_shows launch cancelled tty logger c cases (w := { fs := fs₁ }) ⟨rfl, nofun⟩
  rw [standard_setFiles] at hover
  rwa [hover] at hshows

theorem run_silent {f : Fault}
    (h : run (standard launch cancelled tty logger c) c { fs } = (.error f, w)) :
    w.console = "" ∧ w.log = [] := by
  rw [run] at h
  split at h
  rename_i fs₁ fault hreset
  dsimp only at h
  split at h
  · cases h
    exact ⟨rfl, rfl⟩
  split at h
  · cases h
    exact ⟨rfl, rfl⟩
  · cases h

end Standard

theorem cases_ne_nil {σ ε : Type} {parts : Parts σ ε} {c : Config} {s s' : σ} {report : Report ε}
    (h : run parts c s = (.ok report, s')) : report.cases ≠ [] := by
  obtain ⟨fs, cases, _, hcases, hover⟩ := run_eq_ok h
  have hmap : (runOver parts c cases (parts.setFiles fs s)).1.cases.map (·.case) = cases :=
    (runOver_induct (P := fun _ _ => True) (fun _ _ _ _ => trivial) (fun _ _ => trivial)
      (fun _ _ _ _ _ _ => trivial) (fun _ _ _ _ => trivial) trivial).1
  rw [hover] at hmap
  intro hnil
  rw [hnil] at hmap
  exact Corpus.discover_ne_nil hcases hmap.symm

end Session

end Crosscheck
