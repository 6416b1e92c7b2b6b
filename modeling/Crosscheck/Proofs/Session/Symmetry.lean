import Mathlib.Data.List.Basic
import Crosscheck.Proofs.Artifact
import Crosscheck.Proofs.Session.History
import Crosscheck.Proofs.Session.Invariant

namespace Crosscheck

namespace Config

variable {c : Config}

/-- The tool of this name is the reference now, and all others are candidates. -/
def withReference (c : Config) (name : String) : Config :=
  { c with tools := c.tools.map fun t =>
      { t with role := if t.name = name then .reference else .candidate } }

theorem Accepted.permute (h : c.Accepted) {tools : List Tool} (hperm : tools.Perm c.tools) :
    Accepted { c with tools } :=
  { h with
    tools := fun t ht => h.tools t (hperm.mem_iff.mp ht)
    reference := (hperm.countP_eq _).trans h.reference
    length := hperm.length_eq ▸ h.length
    names := (hperm.map _).nodup_iff.mpr h.names
    outputDirs := (hperm.map _).nodup_iff.mpr h.outputDirs }

theorem Accepted.withReference (h : c.Accepted) {t : Tool} (ht : t ∈ c.tools) :
    (c.withReference t.name).Accepted :=
  { h with
    tools := by
      intro u hu
      obtain ⟨v, hv, rfl⟩ := List.mem_map.mp hu
      refine { h.tools v hv with role := ?_ }
      dsimp only
      split <;> decide
    reference := by
      have hone : (c.tools.map (·.name)).count t.name = 1 :=
        List.count_eq_one_of_mem h.names (List.mem_map_of_mem ht)
      rw [List.count, List.countP_map] at hone
      rw [Config.withReference, List.countP_map, ← hone]
      apply List.countP_congr
      intro u _
      by_cases hu : u.name = t.name <;> simp [Tool.isReference, hu, Role.reference, Role.candidate]
    length := by simpa [Config.withReference] using h.length
    names := by simpa [Config.withReference, Function.comp_def] using h.names
    outputDirs := by simpa [Config.withReference, Function.comp_def] using h.outputDirs }

theorem Accepted.exists_candidate (h : c.Accepted) : ∃ t, t ∈ c.candidates := by
  by_contra hnone
  have hall : ∀ t ∈ c.tools, t.isReference = true := by
    intro t ht
    rw [← Bool.not_eq_false]
    exact fun hr => hnone ⟨t, mem_candidates.mpr ⟨ht, hr⟩⟩
  have hcount := List.countP_eq_length.mpr hall
  have href := h.reference
  have hlen := h.length
  omega

theorem Accepted.reference?_permute (h : c.Accepted) {tools : List Tool}
    (hperm : tools.Perm c.tools) : reference? { c with tools } = c.reference? := by
  obtain ⟨t, ht, hrt, htools⟩ := (h.permute hperm).exists_reference
  obtain ⟨u, hu, hru, hc⟩ := h.exists_reference
  rw [htools, hc, h.eq_of_isReference (hperm.mem_iff.mp ht) hu hrt hru]

end Config

namespace Session

variable {σ ε : Type}

/-- An assembler that changes no file and succeeds or fails as the tool's name and the source have
it, beside a comparator that looks at the files. -/
structure Steady (parts : Parts σ ε) (outcome : String → String → Bool) : Prop where
  files : ∀ t path s, parts.files (parts.assemble t path s).2 = parts.files s
  success : ∀ t path s, (parts.assemble t path s).1.success = outcome t.name path
  compare : ∀ dir₁ dir₂ base ext s,
    parts.compare dir₁ dir₂ base ext s = (Artifact.same (parts.files s) dir₁ dir₂ base ext, s)

theorem map_runTools {α : Type} {parts : Parts σ ε} {path : String} {view : RunResult ε → α}
    {of : Tool → α} {tools : List Tool}
    (hview : ∀ t ∈ tools, ∀ s, view (parts.assemble t path s).1 = of t) (s : σ) :
    (runTools parts path tools s).1.map view = tools.map of := by
  induction tools generalizing s with
  | nil => rfl
  | cons t rest ih =>
    rw [runTools, List.map_cons, List.map_cons, hview t (by simp),
      ih (fun u hu => hview u (by simp [hu]))]

namespace Steady

variable {parts : Parts σ ε} {outcome : String → String → Bool} (h : Steady parts outcome)

include h

theorem files_runTools (path : String) (tools : List Tool) (s : σ) :
    parts.files (runTools parts path tools s).2 = parts.files s := by
  apply runTools_keeps (P := fun s' => parts.files s' = parts.files s)
  · intro t _ s' hs'
    rw [h.files, hs']
  · rfl

theorem success_runTools (path : String) (tools : List Tool) (s : σ) :
    (∀ run ∈ (runTools parts path tools s).1, run.success = true) ↔
      ∀ t ∈ tools, outcome t.name path = true := by
  have hview : (runTools parts path tools s).1.map (·.success) = tools.map (outcome ·.name path) :=
    map_runTools (fun t _ s => h.success t path s) s
  rw [← List.forall_mem_map (P := fun b => b = true), hview, List.forall_mem_map]

theorem compare_snd (dir₁ dir₂ base ext : String) (s : σ) :
    (parts.compare dir₁ dir₂ base ext s).2 = s := by rw [h.compare]

theorem mismatches_eq {c : Config} {ref : Tool} (href : c.reference? = some ref)
    (test : TestCase) (s : σ) :
    (runCase parts c test s).1.mismatches =
      if (runCase parts c test s).1.compared then
        (c.tools.filter fun t => !t.isReference &&
          !Artifact.same (parts.files s) ref.outputDir t.outputDir test.base c.artifactExt).map
            (·.name)
      else [] := by
  by_cases hall : ∀ run ∈ (runTools parts test.path c.tools s).1, run.success = true
  · rw [(runCase_of_succeeded parts c href test s hall
      (compareAll_eq_filter h.compare_snd _ _ _ _ _)).1]
    simp only [h.compare, h.files_runTools, if_true, Config.candidates, List.filter_filter,
      Bool.and_comm]
  · rw [(runCase_of_failed parts c test s hall).1]
    rfl

variable {c : Config} (hc : c.Accepted) (test : TestCase) (s : σ)

include hc

theorem compared_iff : (runCase parts c test s).1.compared = true ↔
    ∀ t ∈ c.tools, outcome t.name test.path = true := by
  obtain ⟨ref, _, _, href⟩ := hc.exists_reference
  rw [← h.success_runTools test.path c.tools s, (runCase_traced parts c href test s).2.2.compared,
    runs_runCase]

/-- Which tool the others are compared with makes no difference: a case passes if every tool has
an artifact and all of them have the same bytes. -/
theorem passed_iff : (runCase parts c test s).1.passed = true ↔
    (∀ t ∈ c.tools, outcome t.name test.path = true) ∧ ∃ bytes, ∀ t ∈ c.tools,
      (parts.files s).readFile (Path.join [t.outputDir, test.base ++ c.artifactExt]) = .ok bytes := by
  obtain ⟨ref, hmem, hisref, href⟩ := hc.exists_reference
  rw [runCase_passed h.compare_snd href, h.success_runTools]
  simp only [h.compare, h.files_runTools, Artifact.same_eq_true_iff]
  apply and_congr_right
  intro _
  constructor
  · intro hall
    obtain ⟨u, hu⟩ := hc.exists_candidate
    obtain ⟨bytes, hbytes, _⟩ := hall u hu
    refine ⟨bytes, (hc.forall_mem_tools hmem hisref).mpr ⟨hbytes, fun t ht => ?_⟩⟩
    obtain ⟨bytes', hbytes', hread⟩ := hall t ht
    rw [hread, ← hbytes', hbytes]
  · rintro ⟨bytes, hall⟩ t ht
    exact ⟨bytes, hall ref hmem, hall t (Config.mem_candidates.mp ht).1⟩

end Steady

/-- Two results of a case that say the same of it. -/
structure SameVerdict (r r' : CaseResult ε) : Prop where
  passed : r'.passed = r.passed
  compared : r'.compared = r.compared

section Symmetry

variable {parts : Parts σ ε} {outcome : String → String → Bool} (h : Steady parts outcome)

include h

/-- The verdict depends on nothing but which tools there are and where their artifacts go. -/
theorem Steady.sameVerdict {c c' : Config} (hc : c.Accepted) (hc' : c'.Accepted)
    (hext : c'.artifactExt = c.artifactExt)
    (htools : (c'.tools.map fun t => (t.name, t.outputDir)).Perm
      (c.tools.map fun t => (t.name, t.outputDir))) (test : TestCase) {s s' : σ}
    (hfiles : parts.files s' = parts.files s) :
    SameVerdict (runCase parts c test s).1 (runCase parts c' test s').1 := by
  have hall (P : String × String → Prop) :
      (∀ t ∈ c'.tools, P (t.name, t.outputDir)) ↔ ∀ t ∈ c.tools, P (t.name, t.outputDir) := by
    rw [← List.forall_mem_map (f := fun t : Tool => (t.name, t.outputDir)),
      ← List.forall_mem_map (f := fun t : Tool => (t.name, t.outputDir))]
    simp only [htools.mem_iff]
  have hcompared := hall fun p => outcome p.1 test.path = true
  constructor
  · rw [Bool.eq_iff_iff, h.passed_iff hc', h.passed_iff hc, hcompared, hext, hfiles]
    apply and_congr_right
    intro _
    apply exists_congr
    intro bytes
    exact hall fun p =>
      (parts.files s).readFile (Path.join [p.2, test.base ++ c.artifactExt]) = .ok bytes
  · rw [Bool.eq_iff_iff, h.compared_iff hc', h.compared_iff hc, hcompared]

theorem Steady.mismatches_permute {c : Config} (hc : c.Accepted) {tools : List Tool}
    (hperm : tools.Perm c.tools) (test : TestCase) {s s' : σ}
    (hfiles : parts.files s' = parts.files s)
    (hcompared : (runCase parts { c with tools } test s').1.compared =
      (runCase parts c test s).1.compared) :
    (runCase parts { c with tools } test s').1.mismatches =
        (tools.map (·.name)).filter (· ∈ (runCase parts c test s).1.mismatches) ∧
      (runCase parts { c with tools } test s').1.mismatches.Perm
        (runCase parts c test s).1.mismatches := by
  obtain ⟨ref, _, _, href⟩ := hc.exists_reference
  rw [h.mismatches_eq href, h.mismatches_eq ((hc.reference?_permute hperm).trans href), hcompared,
    hfiles]
  split
  · generalize (fun t : Tool => !t.isReference && !Artifact.same (parts.files s) ref.outputDir
      t.outputDir test.base c.artifactExt) = differs
    refine ⟨?_, (hperm.filter differs).map _⟩
    rw [List.filter_map]
    congr 1
    apply List.filter_congr
    intro t ht
    have hname : t.name ∈ (c.tools.filter differs).map (·.name) ↔ differs t = true := by
      constructor
      · intro hmem
        obtain ⟨u, hu, hn⟩ := List.mem_map.mp hmem
        obtain ⟨hu, hd⟩ := List.mem_filter.mp hu
        rwa [hc.eq_of_name (hperm.mem_iff.mp ht) hu hn.symm]
      · intro hd
        exact List.mem_map_of_mem (List.mem_filter.mpr ⟨hperm.mem_iff.mp ht, hd⟩)
    simp only [Function.comp_apply, hname, Bool.decide_eq_true]
  · simp

/-- In whatever order the tools stand and whichever of them is the reference, the verdict on a case
is the same. If only the order is another, then the runs and the candidates found to differ are the
same in that order; of a run this is said as far as it does not depend on those before it. -/
theorem runCase_symmetric {c : Config} (hc : c.fault? = none) {tools : List Tool}
    (hperm : tools.Perm c.tools) (test : TestCase) {s s' : σ}
    (hfiles : parts.files s' = parts.files s) :
    SameVerdict (runCase parts c test s).1 (runCase parts { c with tools } test s').1 ∧
    (∀ t ∈ tools, SameVerdict (runCase parts c test s).1
      (runCase parts (Config.withReference { c with tools } t.name) test s').1) ∧
    (runCase parts { c with tools } test s').1.runs.length = tools.length ∧
    (∀ (α : Type) (view : RunResult ε → α),
      (∀ t ∈ tools, ∀ s₁ s₂, view (parts.assemble t test.path s₁).1 =
        view (parts.assemble t test.path s₂).1) →
      (tools.zip ((runCase parts { c with tools } test s').1.runs.map view)).Perm
        (c.tools.zip ((runCase parts c test s).1.runs.map view))) ∧
    (runCase parts { c with tools } test s').1.mismatches =
      (tools.map (·.name)).filter (· ∈ (runCase parts c test s).1.mismatches) ∧
    (runCase parts { c with tools } test s').1.mismatches.Perm
      (runCase parts c test s).1.mismatches := by
  have ha := Config.accepted_of_fault?_eq_none hc
  have ha' := ha.permute hperm
  have hverdict := h.sameVerdict ha ha' rfl (hperm.map _) test hfiles
  refine ⟨hverdict, fun t ht => ?_, ?_, fun α view hview => ?_,
    h.mismatches_permute ha hperm test hfiles hverdict.compared⟩
  · apply h.sameVerdict ha (ha'.withReference ht) rfl
    · simpa [Config.withReference, Function.comp_def] using hperm.map fun t => (t.name, t.outputDir)
    · exact hfiles
  · rw [runs_runCase]
    exact length_runTools ..
  · have hof : ∀ t ∈ tools, ∀ s₁, view (parts.assemble t test.path s₁).1 =
        view (parts.assemble t test.path s).1 := fun t ht s₁ => hview t ht s₁ s
    rw [runs_runCase, runs_runCase, map_runTools hof,
      map_runTools fun t ht => hof t (hperm.mem_iff.mpr ht), ← List.map_prod_left_eq_zip,
      ← List.map_prod_left_eq_zip]
    exact hperm.map _

end Symmetry

def sampleTrio : Config :=
  { sampleConfig "/o/a" ".hex" [] with
    tools :=
      [{ name := "a", path := "/x/a", role := .candidate, outputDir := "/o/a" },
        { name := "b", path := "/x/b", role := .candidate, outputDir := "/o/b" },
        { name := "r", path := "/x/r", role := .reference, outputDir := "/o/r" }] }

def sampleArtifacts : FileSystem :=
  { sampleFiles with
    nodes := sampleFiles.nodes ++
      [(["o", "a"], .dir 0o755), (["o", "a", "p.hex"], .file 3 0o644 "00".toUTF8),
        (["o", "b"], .dir 0o755), (["o", "b", "p.hex"], .file 4 0o644 "01".toUTF8),
        (["o", "r"], .dir 0o755), (["o", "r", "p.hex"], .file 5 0o644 "00".toUTF8)] }

/-- Every tool finds an artifact but `b` on the source `/c/q.asm`, and each says its name. -/
def sampleSteady : Parts World Unit :=
  onConsole false .discard
    (fun t path w =>
      let outcome := if t.name = "b" ∧ path = "/c/q.asm" then .error () else .ok t.outputDir
      ({ tool := t.name, base := path, outcome }, w.say t.name))
    compareFiles

theorem sampleSteady_steady :
    Steady sampleSteady fun name path => !decide (name = "b" ∧ path = "/c/q.asm") where
  files _ _ _ := rfl
  success t path s := by
    by_cases hq : t.name = "b" ∧ path = "/c/q.asm" <;>
      simp [sampleSteady, onConsole, RunResult.success, hq]
  compare _ _ _ _ _ := rfl

theorem runCase_symmetric_sample :
    (runCase sampleSteady sampleTrio sampleTest { fs := sampleArtifacts }).1.mismatches = ["b"] ∧
    SameVerdict (runCase sampleSteady sampleTrio sampleTest { fs := sampleArtifacts }).1
      (runCase sampleSteady
        (Config.withReference { sampleTrio with tools := sampleTrio.tools.reverse } "b") sampleTest
        { fs := sampleArtifacts, console := "again" }).1 ∧
    (runCase sampleSteady { sampleTrio with tools := sampleTrio.tools.reverse } sampleTest
      { fs := sampleArtifacts, console := "again" }).1.mismatches.Perm ["b"] := by
  have hb : (runCase sampleSteady sampleTrio sampleTest { fs := sampleArtifacts }).1.mismatches =
      ["b"] := by decide +kernel
  have hc : sampleTrio.fault? = none := by decide
  have hfiles : sampleSteady.files { fs := sampleArtifacts, console := "again" } =
      sampleSteady.files { fs := sampleArtifacts } := rfl
  have hsame := runCase_symmetric sampleSteady_steady hc (List.reverse_perm _) sampleTest hfiles
  refine ⟨hb, hsame.2.1 { name := "b", path := "/x/b", role := .candidate, outputDir := "/o/b" }
    (by decide), ?_⟩
  have hperm := hsame.2.2.2.2.2
  rwa [hb] at hperm

end Session

end Crosscheck
