import Crosscheck.Proofs.Fault
import Crosscheck.Proofs.Runner.Failure

namespace Crosscheck

namespace Artifact

open FileSystem

variable (fs : FileSystem) (sourceDir base outputDir primaryExt : String) (byproducts : List String)

/-- There is an artifact, but the system refuses a step on the way to collect it. -/
inductive Refused : OsError → Prop
  | dirs {n : Node} {e : OsError}
      (h : fs.stat (Path.join [sourceDir, base ++ primaryExt]) = .ok n) (hn : n.isDir = false)
      (hdirs : (fs.mkdirAll outputDir).2 = some e) : Refused e
  | move {n : Node} {fs₁ : FileSystem} {e : OsError}
      (h : fs.stat (Path.join [sourceDir, base ++ primaryExt]) = .ok n) (hn : n.isDir = false)
      (hdirs : fs.mkdirAll outputDir = (fs₁, none))
      (hmove : (move fs₁ (Path.join [sourceDir, base ++ primaryExt])
        (Path.join [outputDir, base ++ primaryExt])).2 = some e) : Refused e
  | byproduct {n : Node} {fs₁ fs₂ : FileSystem} {e : OsError}
      (h : fs.stat (Path.join [sourceDir, base ++ primaryExt]) = .ok n) (hn : n.isDir = false)
      (hdirs : fs.mkdirAll outputDir = (fs₁, none))
      (hmove : move fs₁ (Path.join [sourceDir, base ++ primaryExt])
        (Path.join [outputDir, base ++ primaryExt]) = (fs₂, none))
      (hdiscard : (discard fs₂ sourceDir base primaryExt byproducts).2 = some e) : Refused e

variable {fs sourceDir base outputDir primaryExt byproducts}

theorem Refused.stat {e : OsError}
    (h : Refused fs sourceDir base outputDir primaryExt byproducts e) :
    ∃ n, fs.stat (Path.join [sourceDir, base ++ primaryExt]) = .ok n ∧ n.isDir = false := by
  cases h with
  | dirs h hn | move h hn | byproduct h hn => exact ⟨_, h, hn⟩

theorem Collects.fault_cases {got : Collected} {f : Fault}
    (hgot : Collects fs sourceDir base outputDir primaryExt byproducts got)
    (hf : got.fault = some f) :
    (f.cause? = some .missingArtifact ∧
      ∀ n, fs.stat (Path.join [sourceDir, base ++ primaryExt]) = .ok n → n.isDir = true) ∨
    ∃ e, f = .os e ∧ Refused fs sourceDir base outputDir primaryExt byproducts e := by
  cases hgot with
  | missing h =>
    cases hf
    refine .inl ⟨rfl, fun n hn => ?_⟩
    rw [h] at hn
    cases hn
  | directory h hdir =>
    cases hf
    refine .inl ⟨rfl, fun n hn => ?_⟩
    rw [h] at hn
    cases hn
    exact hdir
  | homeless h hn hdirs =>
    cases hf
    exact .inr ⟨_, rfl, .dirs h hn (by rw [hdirs])⟩
  | stuck h hn hdirs hmove =>
    cases hf
    exact .inr ⟨_, rfl, .move h hn hdirs (by rw [hmove])⟩
  | moved h hn hdirs hmove =>
    obtain ⟨e, he, rfl⟩ := Option.map_eq_some_iff.mp hf
    exact .inr ⟨e, rfl, .byproduct h hn hdirs hmove he⟩

end Artifact

namespace Runner

def documented : List Cause :=
  [.toolNotFound, .inputNotFound, .processFailed, .timeout, .missingArtifact]

variable (r : Runner) (launch : Program.Launch) (cancelled : Bool) (tool : Tool) (input : String)

/-- The files among which the artifact is looked for, if a run comes to that. -/
def endFiles (w : World) : FileSystem :=
  match removeStale w.fs (r.leftPath input w.fs) with
  | .error _ => w.fs
  | .ok fs =>
    (r.execute launch cancelled (r.runLogger tool (Path.stem input)) (r.commandFor tool input w.fs)
      { w with fs }).2.2.fs

structure Started (w : World) (start : FileSystem) : Prop where
  prepared : r.Prepared tool input w start
  going : cancelled = false
  time : r.timing.processTimeout.isPositive = true

def Ended (w : World) : Prop :=
  ∃ start, r.Started cancelled tool input w start ∧
    (launch start (r.commandFor tool input w.fs)).ending = .clean

/-- What makes a run fail, and the cause that it is given. -/
inductive FailsFor (w : World) : Cause → Prop
  | noTool (h : w.fs.fileExists (Path.abs (workingDir w.fs) tool.path) = false) :
      FailsFor w .toolNotFound
  | noInput (hexe : w.fs.fileExists (Path.abs (workingDir w.fs) tool.path) = true)
      (h : w.fs.fileExists (sourcePath w.fs input) = false) : FailsFor w .inputNotFound
  | leftover {f : RunFault} (hexe : w.fs.fileExists (Path.abs (workingDir w.fs) tool.path) = true)
      (hsource : w.fs.fileExists (sourcePath w.fs input) = true)
      (h : removeStale w.fs (r.leftPath input w.fs) = .error f) : FailsFor w .processFailed
  | cancelled {start : FileSystem} (hp : r.Prepared tool input w start) (h : cancelled = true) :
      FailsFor w .processFailed
  | noTime {start : FileSystem} (hp : r.Prepared tool input w start) (hgoing : cancelled = false)
      (h : r.timing.processTimeout.isPositive = false) : FailsFor w .timeout
  | overtime {start : FileSystem} (hs : r.Started cancelled tool input w start)
      (h : (launch start (r.commandFor tool input w.fs)).ending = .timedOut) : FailsFor w .timeout
  | broken {start : FileSystem} (hs : r.Started cancelled tool input w start)
      (hclean : (launch start (r.commandFor tool input w.fs)).ending ≠ .clean)
      (htime : (launch start (r.commandFor tool input w.fs)).ending ≠ .timedOut) :
      FailsFor w .processFailed
  | noArtifact (h : r.Ended launch cancelled tool input w)
      (hstat : ∀ n,
        (r.endFiles launch cancelled tool input w).stat (r.leftPath input w.fs) = .ok n →
          n.isDir = true) : FailsFor w .missingArtifact

def Uncollected (w : World) : Prop :=
  r.Ended launch cancelled tool input w ∧
    ∃ e, Artifact.Refused (r.endFiles launch cancelled tool input w)
      (Path.dir (sourcePath w.fs input)) (Path.stem input) tool.outputDir r.artifactExt
      tool.byproducts e

inductive Judged (w : World) : Except RunFault String → Prop
  | delivered : Judged w (.ok (Path.join [tool.outputDir, Path.stem input ++ r.artifactExt]))
  | caused {f : RunFault} {c : Cause} (h : r.FailsFor launch cancelled tool input w c)
      (hf : f.cause? = some c) : Judged w (.error f)
  | refused {f : RunFault} (h : r.Uncollected launch cancelled tool input w)
      (hf : f.cause? = none) : Judged w (.error f)

variable {r launch cancelled tool input} {w : World}

theorem FailsFor.mem_documented {c : Cause} (h : r.FailsFor launch cancelled tool input w c) :
    c ∈ documented := by
  cases h <;> decide

theorem FailsFor.not_uncollected {c : Cause} (h : r.FailsFor launch cancelled tool input w c) :
    ¬ r.Uncollected launch cancelled tool input w := by
  rintro ⟨⟨start, hs, hclean⟩, e, he⟩
  cases h with
  | noTool h => exact Bool.false_ne_true (h.symm.trans hs.prepared.exe)
  | noInput hexe h => exact Bool.false_ne_true (h.symm.trans hs.prepared.source)
  | leftover hexe hsource h => exact hs.prepared.removeStale_ne h
  | cancelled hp h => exact Bool.false_ne_true (hs.going.symm.trans h)
  | noTime hp hgoing h => exact Bool.false_ne_true (h.symm.trans hs.time)
  | overtime hs' h =>
    rw [hs.prepared.eq hs'.prepared, hclean] at h
    cases h
  | broken hs' h =>
    rw [hs.prepared.eq hs'.prepared] at h
    exact h hclean
  | noArtifact _ hstat =>
    obtain ⟨n, hn, hdir⟩ := he.stat
    exact Bool.false_ne_true (hdir.symm.trans (hstat n hn))

section Executed

variable {fs : FileSystem} {run : Program.Run} {w' : World}

theorem Executed.endFiles_eq {fault : Option RunFault}
    (h : r.Executed launch cancelled tool input w fs run fault w') :
    r.endFiles launch cancelled tool input w = w'.fs := by
  unfold endFiles
  rw [h.stale]
  dsimp only
  rw [h.eq]

theorem Executed.failsFor {f : RunFault}
    (h : r.Executed launch cancelled tool input w fs run (some f) w') :
    ∃ c, r.FailsFor launch cancelled tool input w c ∧ f.cause? = some c := by
  obtain ⟨start, hp, hfault, _, _, hrun⟩ := h.process
  rw [runFault?] at hfault
  split at hfault
  · rename_i hcancelled
    cases hfault
    exact ⟨_, .cancelled hp hcancelled, rfl⟩
  rename_i hgoing
  have hgoing' := Bool.eq_false_of_not_eq_true hgoing
  rw [commandFor_timeout] at hfault
  split at hfault
  · rename_i htime
    cases hfault
    exact ⟨_, .noTime hp hgoing' htime, rfl⟩
  rename_i htime
  have hs : r.Started cancelled tool input w start :=
    ⟨hp, hgoing', Bool.eq_true_of_not_eq_false htime⟩
  rw [if_neg (not_or.mpr ⟨hgoing, htime⟩)] at hrun
  rw [hrun] at hfault
  split at hfault
  · cases hfault
  · rename_i hending
    cases hfault
    exact ⟨_, .overtime hs hending, rfl⟩
  · rename_i hending
    cases hfault
    exact ⟨_, .broken hs (by rw [hending]; simp) (by rw [hending]; simp), rfl⟩
  · rename_i hclean htimedOut _
    cases hfault
    exact ⟨_, .broken hs hclean htimedOut, rfl⟩

theorem Executed.isEnded (h : r.Executed launch cancelled tool input w fs run none w') :
    r.Ended launch cancelled tool input w := by
  obtain ⟨start, hp, hgoing, htime, hclean, _⟩ := h.ended
  exact ⟨start, ⟨hp, hgoing, htime⟩, hclean⟩

end Executed

theorem cause?_of_removeStale {fs : FileSystem} {path : String} {f : RunFault}
    (h : removeStale fs path = .error f) : f.cause? = some .processFailed := by
  rw [removeStale] at h
  split at h
  · cases h
  · split at h <;> cases h
    rfl

theorem assemble_judged (w : World) :
    r.Judged launch cancelled tool input w
      (r.assemble launch cancelled tool input w).1.outcome := by
  cases r.assemble_account launch cancelled tool input w with
  | noTool h eq =>
    rw [eq]
    exact .caused (.noTool h) rfl
  | noInput hexe h eq =>
    rw [eq]
    exact .caused (.noInput hexe h) rfl
  | stuck hexe hsource h eq =>
    rw [eq]
    exact .caused (.leftover hexe hsource h) (cause?_of_removeStale h)
  | broken hx eq =>
    obtain ⟨c, hc, hcause⟩ := hx.failsFor
    rw [eq]
    exact .caused hc hcause
  | @uncollected fs run w' got f hx hgot hf eq =>
    have hcollects := Artifact.Collects.of_eq hgot
    rw [← hx.endFiles_eq] at hcollects
    rw [eq]
    obtain ⟨hcause, hstat⟩ | ⟨e, rfl, he⟩ := hcollects.fault_cases hf
    · exact .caused (.noArtifact hx.isEnded hstat) hcause
    · exact .refused ⟨hx.isEnded, e, he⟩ rfl
  | @delivered fs run w' got path hx hgot hf hpath eq =>
    have hcollects := Artifact.Collects.of_eq hgot
    rw [hcollects.path_eq hf, Option.some.injEq] at hpath
    subst path
    rw [eq]
    exact .delivered

/-- A run succeeds exactly if it has no error, and then its artifact is in the output directory.
A run that fails has no artifact, and its error has one of the documented causes, unless there is
an artifact that the system does not let be collected: that error has no known cause. -/
theorem assemble_causes (r : Runner) (launch : Program.Launch) (cancelled : Bool) (tool : Tool)
    (input : String) (w : World) :
    let result := (r.assemble launch cancelled tool input w).1
    (result.success = true ↔ ∀ f, result.outcome ≠ .error f) ∧
    (result.success = true →
      result.artifact = Path.join [tool.outputDir, Path.stem input ++ r.artifactExt]) ∧
    (result.success = false → result.artifact = "") ∧
    ∀ f, result.outcome = .error f →
      f.fault.message = f.message ∧
      (Fault.causes (some f.fault) = [] ↔ r.Uncollected launch cancelled tool input w) ∧
      (¬ r.Uncollected launch cancelled tool input w →
        ∃ c ∈ documented, r.FailsFor launch cancelled tool input w c ∧
          Fault.causes (some f.fault) = [c]) := by
  intro result
  have hjudged : r.Judged launch cancelled tool input w result.outcome := assemble_judged w
  cases houtcome : result.outcome with
  | ok path =>
    rw [houtcome] at hjudged
    cases hjudged
    refine ⟨?_, ?_, ?_, ?_⟩ <;> simp [RunResult.success, RunResult.artifact, houtcome]
  | error f =>
    rw [houtcome] at hjudged
    refine ⟨by simp [RunResult.success, houtcome], by simp [RunResult.success, houtcome],
      by simp [RunResult.artifact, houtcome], ?_⟩
    rintro f' hf'
    cases hf'
    refine ⟨f.message_fault, ?_⟩
    cases hjudged with
    | caused h hf =>
      have hcauses := Fault.causes_of_cause? (f.cause?_fault.trans hf)
      rw [hcauses]
      exact ⟨iff_of_false (List.cons_ne_nil _ _) h.not_uncollected,
        fun _ => ⟨_, h.mem_documented, h, rfl⟩⟩
    | refused h hf =>
      have hcauses := Fault.causes_of_cause?_none (f.cause?_fault.trans hf)
      exact ⟨iff_of_true hcauses h, fun hnot => absurd h hnot⟩

/-- Artifacts that are not collected, for a file stands where the output directory should be made,
a directory where the artifact should go, or a directory with something in it has the name of a
by-product. -/
theorem assemble_fails_without_cause :
    let causes (fs : FileSystem) : Option (List Cause) :=
      match (sampleRunner.assemble writes false sampleTool "/c/p.asm" { fs }).1.outcome with
      | .ok _ => none
      | .error f => some (Fault.causes (some f.fault))
    let full := { workshop with
      nodes := [(["c", "p.lst"], .dir 0o755), (["c", "p.lst", "q"], .file 2 0o644 "".toUTF8)] ++
        workshop.nodes }
    causes (workshop.set ["o"] (.file 2 0o644 "".toUTF8)) = some [] ∧
    causes occupied = some [] ∧ causes full = some [] := by
  decide +kernel

end Runner

end Crosscheck
