import Crosscheck.Proofs.Runner

namespace Crosscheck.Runner

open FileSystem

variable {r : Runner} {launch : Program.Launch} {cancelled : Bool} {tool : Tool} {input : String}

variable (r launch cancelled tool input)

/-- How a run can end, for every tool, whether its window is watched or not, and what is left then,
the last lines of the log apart. -/
inductive Ends (w : World) : Except RunFault String → FileSystem → Prop
  | unready {f : RunFault} (h : ∀ start, ¬ r.Prepared tool input w start) : Ends w (.error f) w.fs
  | held {f : RunFault} {start fs : FileSystem} (hp : r.Prepared tool input w start)
      (h : cancelled = true ∨ r.timing.processTimeout.isPositive = false)
      (hl : Logged r.logger start fs) : Ends w (.error f) fs
  | broken {f : RunFault} {start fs : FileSystem} (hp : r.Prepared tool input w start)
      (h : (launch start (r.commandFor tool input w.fs)).ending ≠ .clean)
      (hl : Logged r.logger (launch start (r.commandFor tool input w.fs)).fs fs) :
      Ends w (.error f) fs
  | failed {f : Artifact.Fault} {start fs : FileSystem} {got : Artifact.Collected}
      (hp : r.Prepared tool input w start)
      (hl : Logged r.logger (launch start (r.commandFor tool input w.fs)).fs fs)
      (hgot : Artifact.Collects fs (Path.dir (sourcePath w.fs input)) (Path.stem input)
        tool.outputDir r.artifactExt tool.byproducts got) (hf : got.fault = some f) :
      Ends w (.error (.artifact f)) got.fs
  | delivered {path : String} {start fs : FileSystem} {got : Artifact.Collected}
      (hp : r.Prepared tool input w start)
      (hl : Logged r.logger (launch start (r.commandFor tool input w.fs)).fs fs)
      (hgot : Artifact.Collects fs (Path.dir (sourcePath w.fs input)) (Path.stem input)
        tool.outputDir r.artifactExt tool.byproducts got) (hf : got.fault = none)
      (hpath : got.path = some path) : Ends w (.ok path) got.fs

variable {r launch cancelled tool input}

theorem Prepared.removeStale_ne {w : World} {start : FileSystem} {f : RunFault}
    (h : r.Prepared tool input w start) : removeStale w.fs (r.leftPath input w.fs) ≠ .error f := by
  obtain ⟨fs, hfs, _⟩ := h.stale
  rw [hfs]
  exact nofun

theorem Prepared.eq {w : World} {start start' : FileSystem} (h : r.Prepared tool input w start)
    (h' : r.Prepared tool input w start') : start' = start := by
  have heq := h'.start
  rw [h.start, Except.ok.injEq] at heq
  exact heq.symm

theorem assemble_ends (w : World) :
    ∃ fs, r.Ends launch cancelled tool input w
        (r.assemble launch cancelled tool input w).1.outcome fs ∧
      Logged r.logger fs (r.assemble launch cancelled tool input w).2.fs := by
  have hl : (r.runLogger tool (Path.stem input)).file = r.logger.file := rfl
  cases r.assemble_account launch cancelled tool input w with
  | noTool h eq =>
    rw [eq]
    refine ⟨w.fs, .unready fun start hp => ?_, failed_logged hl _ _ _⟩
    exact Bool.false_ne_true (h.symm.trans hp.exe)
  | noInput _ h eq =>
    rw [eq]
    refine ⟨w.fs, .unready fun start hp => ?_, failed_logged hl _ _ _⟩
    exact Bool.false_ne_true (h.symm.trans hp.source)
  | stuck _ _ h eq =>
    rw [eq]
    exact ⟨w.fs, .unready fun start hp => hp.removeStale_ne h, failed_logged hl _ _ _⟩
  | @broken fs run f w' hx eq =>
    obtain ⟨start, hp, hlog, _, ⟨hheld, hrun⟩ | ⟨rfl, hclean⟩⟩ := hx.broke
    · rw [hrun] at hlog
      rw [eq]
      exact ⟨w'.fs, .held hp hheld hlog, failed_logged hl _ f w'⟩
    · rw [eq]
      exact ⟨w'.fs, .broken hp hclean hlog, failed_logged hl _ f w'⟩
  | @uncollected fs run w' got f hx hgot hf eq =>
    obtain ⟨start, hp, _, _, _, hlog, _⟩ := hx.ended
    rw [eq]
    exact ⟨got.fs, .failed hp hlog (.of_eq hgot) hf, failed_logged hl _ _ { w' with fs := got.fs }⟩
  | @delivered fs run w' got path hx hgot hf hpath eq =>
    obtain ⟨start, hp, _, _, _, hlog, _⟩ := hx.ended
    rw [eq]
    exact ⟨got.fs, .delivered hp hlog (.of_eq hgot) hf hpath,
      logged_of_file_eq hl { w' with fs := got.fs } _⟩

end Crosscheck.Runner
