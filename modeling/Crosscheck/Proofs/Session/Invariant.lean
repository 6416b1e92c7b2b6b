import Crosscheck.Proofs.FileSystem.Removal
import Crosscheck.Proofs.Runner
import Crosscheck.Session.Standard

namespace Crosscheck.Session

variable {σ ε : Type}

/-- None of the calls that a session makes for its tools and cases spoils a property. -/
structure Keeps (parts : Parts σ ε) (c : Config) (cases : List TestCase) (P : σ → Prop) : Prop where
  assemble : ∀ t ∈ c.tools, ∀ test ∈ cases, ∀ s, P s → P (parts.assemble t test.path s).2
  compare : ∀ dir₁ dir₂ base ext s, P s → P (parts.compare dir₁ dir₂ base ext s).2
  started : ∀ s, P s → P (parts.started cases s)
  caseFinished : ∀ r s, P s → P (parts.caseFinished r s)
  finished : ∀ r s, P s → P (parts.finished r s)
  note : ∀ record s, P s → P (parts.note record s)

theorem runTools_keeps {parts : Parts σ ε} {P : σ → Prop} {path : String} {tools : List Tool}
    (h : ∀ t ∈ tools, ∀ s, P s → P (parts.assemble t path s).2) {s : σ} (hs : P s) :
    P (runTools parts path tools s).2 := by
  induction tools generalizing s with
  | nil => exact hs
  | cons t rest ih => exact ih (fun u hu => h u (by simp [hu])) (h t (by simp) s hs)

section AfterTools

variable {parts : Parts σ ε} {P : σ → Prop}
  (hcompare : ∀ dir₁ dir₂ base ext s, P s → P (parts.compare dir₁ dir₂ base ext s).2)

include hcompare

theorem compareAll_keeps (referenceDir base ext : String) (tools : List Tool) {s : σ} (hs : P s) :
    P (compareAll parts referenceDir base ext tools s).2 := by
  induction tools generalizing s with
  | nil => exact hs
  | cons t rest ih => exact ih (hcompare _ _ _ _ s hs)

theorem runCase_keeps (hnote : ∀ record s, P s → P (parts.note record s)) {c : Config}
    {test : TestCase} {s : σ} (hs : P (runTools parts test.path c.tools s).2) :
    P (runCase parts c test s).2 := by
  rw [runCase]
  dsimp only
  split
  · exact hnote _ _ hs
  · have hcompared := compareAll_keeps hcompare ((c.reference?.map (·.outputDir)).getD "") test.base
      c.artifactExt c.candidates hs
    split
    · exact hcompared
    · exact hnote _ _ hcompared

end AfterTools

namespace Keeps

variable {parts : Parts σ ε} {c : Config} {cases : List TestCase} {P : σ → Prop}
  (h : Keeps parts c cases P)

include h

theorem runCase {test : TestCase} (htest : test ∈ cases) {s : σ} (hs : P s) :
    P (Session.runCase parts c test s).2 :=
  runCase_keeps h.compare h.note (runTools_keeps (fun t ht => h.assemble t ht test htest) hs)

theorem runCases {s : σ} (hs : P s) {rest : List TestCase} (hrest : ∀ test ∈ rest, test ∈ cases) :
    P (Session.runCases parts c rest s).2 := by
  induction rest generalizing s with
  | nil => exact hs
  | cons test rest ih =>
    have hcase := h.runCase (hrest test (by simp)) hs
    exact ih (h.caseFinished _ _ hcase) fun t ht => hrest t (by simp [ht])

theorem runOver {s : σ} (hs : P s) : P (Session.runOver parts c cases s).2 := by
  rw [Session.runOver]
  refine h.finished _ _ (h.note _ _ ?_)
  exact h.runCases (h.started _ (h.note _ _ hs)) fun _ ht => ht

end Keeps

section Induction

variable {parts : Parts σ ε} {c : Config}

theorem case_runCase (parts : Parts σ ε) (c : Config) (test : TestCase) (s : σ) :
    (runCase parts c test s).1.case = test := by
  rw [runCase]
  dsimp only
  split
  · rfl
  · split <;> rfl

theorem runs_runCase (parts : Parts σ ε) (c : Config) (test : TestCase) (s : σ) :
    (runCase parts c test s).1.runs = (runTools parts test.path c.tools s).1 := by
  rw [runCase]
  dsimp only
  split
  · rfl
  · split <;> rfl

theorem runCases_induct {cases : List TestCase} {P : List (CaseResult ε) → σ → Prop}
    (hstep : ∀ done test rest s, done.map (·.case) ++ test :: rest = cases → P done s →
      P (done ++ [(runCase parts c test s).1])
        (parts.caseFinished (runCase parts c test s).1 (runCase parts c test s).2))
    {s : σ} (h : P [] s) :
    (runCases parts c cases s).1.map (·.case) = cases ∧
      P (runCases parts c cases s).1 (runCases parts c cases s).2 := by
  have hgo : ∀ rest done s, done.map (·.case) ++ rest = cases → P done s →
      (done ++ (runCases parts c rest s).1).map (·.case) = cases ∧
        P (done ++ (runCases parts c rest s).1) (runCases parts c rest s).2 := by
    intro rest
    induction rest with
    | nil =>
      intro done s hd hp
      rw [List.append_nil] at hd
      simpa only [runCases, List.append_nil] using ⟨hd, hp⟩
    | cons test rest ih =>
      intro done s hd hp
      have hnext := ih _ _ (by simpa [case_runCase] using hd) (hstep done test rest s hd hp)
      simpa only [runCases, List.append_assoc, List.singleton_append] using hnext
  simpa only [List.nil_append] using hgo cases [] s rfl h

theorem run_eq_ok {s s' : σ} {report : Report ε} (h : run parts c s = (.ok report, s')) :
    ∃ fs cases, reset (parts.files s) c.tools = (fs, none) ∧
      Corpus.discover (parts.files (parts.setFiles fs s)) c.corpusDir c.corpusExt = .ok cases ∧
      runOver parts c cases (parts.setFiles fs s) = (report, s') := by
  rw [run] at h
  split at h
  rename_i fs fault hreset
  dsimp only at h
  split at h
  · cases h
  split at h
  · cases h
  · rename_i cases hcases
    cases h
    exact ⟨fs, cases, hreset, hcases, rfl⟩

theorem run_of_discover {s : σ} {fs : FileSystem} {cases : List TestCase}
    (hreset : reset (parts.files s) c.tools = (fs, none))
    (hcases : Corpus.discover (parts.files (parts.setFiles fs s)) c.corpusDir c.corpusExt = .ok cases) :
    run parts c s = (.ok (runOver parts c cases (parts.setFiles fs s)).1,
      (runOver parts c cases (parts.setFiles fs s)).2) := by
  simp only [run, hreset, hcases]

/-- What notes and reports do not spoil and each case carries on holds when a session is over. -/
theorem runOver_induct {cases : List TestCase} {P : List (CaseResult ε) → σ → Prop}
    (hnote : ∀ done record s, P done s → P done (parts.note record s))
    (hstarted : ∀ s, P [] s → P [] (parts.started cases s))
    (hstep : ∀ done test rest s, done.map (·.case) ++ test :: rest = cases → P done s →
      P (done ++ [(runCase parts c test s).1])
        (parts.caseFinished (runCase parts c test s).1 (runCase parts c test s).2))
    (hfinished : ∀ done report s, P done s → P done (parts.finished report s)) {s : σ} (h : P [] s) :
    (runOver parts c cases s).1.cases.map (·.case) = cases ∧
      P (runOver parts c cases s).1.cases (runOver parts c cases s).2 := by
  rw [runOver]
  dsimp only
  obtain ⟨hcases, hp⟩ := runCases_induct hstep (hstarted _ (hnote _ _ _ h))
  exact ⟨hcases, hfinished _ _ _ (hnote _ _ _ hp)⟩

end Induction

/-- Clearing the output directories brings nothing, and takes nothing away that none of them leads
to. -/
theorem reset_within {fs fs₀ : FileSystem} (hw : FileSystem.Within fs fs₀) (hn : fs.Named)
    (tools : List Tool) :
    FileSystem.Within (reset fs tools).1 fs ∧ (reset fs tools).1.Named ∧
      ∀ l, (∀ t ∈ tools, ∀ x, fs₀.lead false t.outputDir = some x → ¬ x <+: l) →
        (reset fs tools).1.get? l = fs.get? l := by
  induction tools generalizing fs with
  | nil => exact ⟨.refl fs, hn, fun _ _ => rfl⟩
  | cons t rest ih =>
    have hstep : FileSystem.Within (fs.removeAll t.outputDir).1 fs ∧
        (fs.removeAll t.outputDir).1.Named ∧
        ∀ l, (∀ x, fs₀.lead false t.outputDir = some x → ¬ x <+: l) →
          (fs.removeAll t.outputDir).1.get? l = fs.get? l := by
      rcases FileSystem.removeAll_pruned hw hn t.outputDir with he | ⟨x, hx, hp⟩
      · rw [he]
        exact ⟨.refl fs, hn, fun _ _ => rfl⟩
      · exact ⟨hp.within, hp.named hn, fun l hl => hp.get?_of_not_prefix (hl x hx)⟩
    rw [reset]
    split
    · rename_i fs₁ hr
      rw [hr] at hstep
      obtain ⟨hwithin, hnamed, hget⟩ := hstep
      obtain ⟨hwithin', hnamed', hget'⟩ := ih (hwithin.trans hw) hnamed
      refine ⟨hwithin'.trans hwithin, hnamed', fun l hl => ?_⟩
      rw [hget' l fun u hu => hl u (by simp [hu]), hget l (hl t (by simp))]
    · rename_i fs₁ e hr
      rw [hr] at hstep
      exact ⟨hstep.1, hstep.2.1, fun l hl => hstep.2.2 l (hl t (by simp))⟩

theorem reset_distinct {fs : FileSystem} (hn : fs.Named) (hd : fs.Distinct) (tools : List Tool) :
    (reset fs tools).1.Distinct := by
  induction tools generalizing fs with
  | nil => exact hd
  | cons t rest ih =>
    have hstep : (fs.removeAll t.outputDir).1.Named ∧ (fs.removeAll t.outputDir).1.Distinct := by
      rcases FileSystem.removeAll_pruned (.refl fs) hn t.outputDir with he | ⟨x, _, hp⟩
      · rw [he]
        exact ⟨hn, hd⟩
      · exact ⟨hp.named hn, hp.distinct hd⟩
    rw [reset]
    split
    · rename_i fs₁ hr
      rw [hr] at hstep
      exact ih hstep.1 hstep.2
    · rename_i fs₁ e hr
      rw [hr] at hstep
      exact hstep.2

def runnerOf (logger : Log.Logger) (c : Config) : Runner :=
  { timing := c.timing, artifactExt := c.artifactExt, canDismiss := Dismisser.absent.supported,
    logger }

section Standard

variable (launch : Program.Launch) (cancelled tty : Bool) (logger : Log.Logger) (c : Config)

theorem standard_assemble : (standard launch cancelled tty logger c).assemble =
    (runnerOf logger c).assemble launch cancelled := by
  rw [standard, onConsole, runnerOf]

theorem standard_compare : (standard launch cancelled tty logger c).compare = compareFiles := by
  rw [standard, onConsole]

theorem standard_files (w : World) : (standard launch cancelled tty logger c).files w = w.fs := rfl

theorem standard_setFiles (fs : FileSystem) (w : World) :
    (standard launch cancelled tty logger c).setFiles fs w = { w with fs } := rfl

end Standard

/-- With real tools the files change only while a tool runs and when something is logged. -/
theorem standard_keeps {launch : Program.Launch} {cancelled tty : Bool} {logger : Log.Logger}
    {c : Config} {cases : List TestCase} {P : FileSystem → Prop}
    (hlog : ∀ fs fs', Logged logger fs fs' → P fs → P fs')
    (hassemble : ∀ t ∈ c.tools, ∀ test ∈ cases, ∀ w : World, P w.fs →
      P ((runnerOf logger c).assemble launch cancelled t test.path w).2.fs) :
    Keeps (standard launch cancelled tty logger c) c cases fun w => P w.fs where
  assemble := hassemble
  compare _ _ _ _ _ h := h
  started _ h := h
  caseFinished _ _ h := h
  finished _ _ h := h
  note record w h := hlog _ _ (log_logged logger w record) h

end Crosscheck.Session
