import Mathlib.Data.List.Basic
import Crosscheck.Proofs.Config
import Crosscheck.Proofs.Corpus
import Crosscheck.Proofs.Session.Invariant
import Crosscheck.Session.History

namespace Crosscheck.Session

variable {σ ε : Type}

@[simp] theorem History.events_append (h g : History σ ε) :
    History.events (h ++ g) = h.events ++ g.events := List.map_append

@[simp] theorem History.events_singleton (s : σ) (e : Event ε) :
    History.events [(s, e)] = [e] := rfl

theorem History.events_flatten (hs : List (History σ ε)) :
    History.events hs.flatten = (hs.map History.events).flatten := List.map_flatten

section Traced

variable (parts : Parts σ ε) (s : σ) (h : History σ ε)

theorem traced_assemble (t : Tool) (path : String) :
    parts.traced.assemble t path (s, h) =
      ((parts.assemble t path s).1, (parts.assemble t path s).2,
        h ++ [(s, .assembled t path (parts.assemble t path s).1)]) := rfl

theorem traced_compare (d₁ d₂ base ext : String) :
    parts.traced.compare d₁ d₂ base ext (s, h) =
      ((parts.compare d₁ d₂ base ext s).1, (parts.compare d₁ d₂ base ext s).2,
        h ++ [(s, .compared d₁ d₂ base ext (parts.compare d₁ d₂ base ext s).1)]) := rfl

theorem traced_caseFinished (r : CaseResult ε) :
    parts.traced.caseFinished r (s, h) = (parts.caseFinished r s, h ++ [(s, .caseFinished r)]) := rfl

theorem traced_started (cases : List TestCase) :
    parts.traced.started cases (s, h) = (parts.started cases s, h ++ [(s, .started cases)]) := rfl

theorem traced_finished (r : Report ε) :
    parts.traced.finished r (s, h) = (parts.finished r s, h ++ [(s, .finished r)]) := rfl

theorem traced_files : parts.traced.files (s, h) = parts.files s := rfl

theorem traced_setFiles (fs : FileSystem) :
    parts.traced.setFiles fs (s, h) = (parts.setFiles fs s, h) := rfl

theorem traced_note (record : Log.Record) :
    parts.traced.note record (s, h) = (parts.note record s, h) := rfl

end Traced

def runEvents (path : String) (tools : List Tool) (runs : List (RunResult ε)) : List (Event ε) :=
  tools.zipWith (fun t r => .assembled t path r) runs

def compareEvents (referenceDir base ext : String) (tools : List Tool) (answers : List Bool) :
    List (Event ε) :=
  tools.zipWith (fun t equal => .compared referenceDir t.outputDir base ext equal) answers

def refused (tools : List Tool) (answers : List Bool) : List String :=
  ((tools.zip answers).filter fun p => !p.2).map (·.1.name)

def runHistory (parts : Parts σ ε) (path : String) : List Tool → σ → History σ ε
  | [], _ => []
  | t :: rest, s =>
    (s, .assembled t path (parts.assemble t path s).1) ::
      runHistory parts path rest (parts.assemble t path s).2

theorem runTools_traced (parts : Parts σ ε) (path : String) (tools : List Tool) (s : σ)
    (h : History σ ε) :
    runTools parts.traced path tools (s, h) =
      ((runTools parts path tools s).1, (runTools parts path tools s).2,
        h ++ runHistory parts path tools s) := by
  induction tools generalizing s h with
  | nil => simp [runTools, runHistory]
  | cons t rest ih =>
    simp only [runTools, runHistory, traced_assemble, ih]
    simp only [List.append_assoc, List.singleton_append]

theorem length_runTools (parts : Parts σ ε) (path : String) (tools : List Tool) (s : σ) :
    (runTools parts path tools s).1.length = tools.length := by
  induction tools generalizing s with
  | nil => rfl
  | cons t rest ih => simpa only [runTools, List.length_cons, Nat.add_right_cancel_iff] using ih _

theorem events_runHistory (parts : Parts σ ε) (path : String) (tools : List Tool) (s : σ) :
    (runHistory parts path tools s).events = runEvents path tools (runTools parts path tools s).1 := by
  induction tools generalizing s with
  | nil => rfl
  | cons t rest ih =>
    simpa only [History.events, runEvents, runHistory, runTools, List.map_cons,
      List.zipWith_cons_cons, List.cons.injEq, true_and] using ih _

theorem mem_runHistory {parts : Parts σ ε} {path : String} {tools : List Tool} {s s' : σ}
    {e : Event ε} (h : (s', e) ∈ runHistory parts path tools s) :
    ∃ t ∈ tools, ∃ run ∈ (runTools parts path tools s).1, e = .assembled t path run := by
  induction tools generalizing s with
  | nil => cases h
  | cons t rest ih =>
    rw [runHistory, List.mem_cons] at h
    rw [runTools]
    rcases h with h | h
    · cases h
      exact ⟨t, by simp, _, by simp, rfl⟩
    · obtain ⟨u, hu, run, hrun, he⟩ := ih h
      exact ⟨u, by simp [hu], run, by simp [hrun], he⟩

theorem exists_mem_runHistory {parts : Parts σ ε} {path : String} {tools : List Tool} {t : Tool}
    (ht : t ∈ tools) (s : σ) :
    ∃ s' run, (s', .assembled t path run) ∈ runHistory parts path tools s := by
  induction tools generalizing s with
  | nil => cases ht
  | cons u rest ih =>
    rw [runHistory]
    rcases List.mem_cons.mp ht with rfl | ht
    · exact ⟨_, _, List.mem_cons_self⟩
    · obtain ⟨s', run, h⟩ := ih ht (parts.assemble u path s).2
      exact ⟨s', run, List.mem_cons_of_mem _ h⟩

/-- What holds before the first run and is carried on by each holds of all of them. -/
theorem runHistory_induct {parts : Parts σ ε} {path : String} {tools : List Tool}
    {P : List Tool → History σ ε → σ → Prop}
    (hstep : ∀ done t rest g s, done ++ t :: rest = tools → P done g s →
      P (done ++ [t]) (g ++ [(s, .assembled t path (parts.assemble t path s).1)])
        (parts.assemble t path s).2)
    {s : σ} (h : P [] [] s) :
    P tools (runHistory parts path tools s) (runTools parts path tools s).2 := by
  have hgo : ∀ rest done g s, done ++ rest = tools → P done g s →
      P tools (g ++ runHistory parts path rest s) (runTools parts path rest s).2 := by
    intro rest
    induction rest with
    | nil =>
      intro done g s hd hp
      rw [List.append_nil] at hd
      rw [hd] at hp
      simpa only [runHistory, runTools, List.append_nil] using hp
    | cons t rest ih =>
      intro done g s hd hp
      have hnext := ih (done ++ [t]) _ _ (by simpa using hd) (hstep done t rest g s hd hp)
      simpa only [runHistory, runTools, List.append_assoc, List.singleton_append] using hnext
  exact hgo tools [] [] s rfl h

def compareHistory (parts : Parts σ ε) (dir base ext : String) : List Tool → σ → History σ ε
  | [], _ => []
  | t :: rest, s =>
    (s, .compared dir t.outputDir base ext (parts.compare dir t.outputDir base ext s).1) ::
      compareHistory parts dir base ext rest (parts.compare dir t.outputDir base ext s).2

theorem compareAll_traced (parts : Parts σ ε) (dir base ext : String) (tools : List Tool) (s : σ)
    (h : History σ ε) :
    compareAll parts.traced dir base ext tools (s, h) =
      ((compareAll parts dir base ext tools s).1, (compareAll parts dir base ext tools s).2,
        h ++ compareHistory parts dir base ext tools s) := by
  induction tools generalizing s h with
  | nil => simp [compareAll, compareHistory]
  | cons t rest ih =>
    simp only [compareAll, compareHistory, traced_compare, ih]
    simp only [List.append_assoc, List.singleton_append]

theorem events_compareHistory (parts : Parts σ ε) (dir base ext : String) (tools : List Tool)
    (s : σ) :
    ∃ answers : List Bool,
      (compareHistory parts dir base ext tools s).events = compareEvents dir base ext tools answers ∧
      answers.length = tools.length ∧
      (compareAll parts dir base ext tools s).1 = refused tools answers := by
  induction tools generalizing s with
  | nil => exact ⟨[], rfl, rfl, rfl⟩
  | cons t rest ih =>
    rcases hc : parts.compare dir t.outputDir base ext s with ⟨equal, s₁⟩
    obtain ⟨answers, he, hl, hr⟩ := ih s₁
    refine ⟨equal :: answers, ?_, ?_, ?_⟩
    · simpa only [History.events, compareHistory, compareEvents, hc, List.map_cons,
        List.zipWith_cons_cons, List.cons.injEq, true_and] using he
    · simpa only [List.length_cons, Nat.add_right_cancel_iff] using hl
    · simp only [refused] at hr
      cases equal <;> simp [compareAll, refused, hc, hr]

section Pure

variable {parts : Parts σ ε} (hpure : ∀ dir₁ dir₂ base ext s,
  (parts.compare dir₁ dir₂ base ext s).2 = s)

include hpure

theorem mem_compareHistory {dir base ext : String} {tools : List Tool} {s s' : σ} {e : Event ε}
    (h : (s', e) ∈ compareHistory parts dir base ext tools s) :
    s' = s ∧ ∃ t ∈ tools,
      e = .compared dir t.outputDir base ext (parts.compare dir t.outputDir base ext s).1 := by
  induction tools with
  | nil => cases h
  | cons t rest ih =>
    rw [compareHistory, List.mem_cons, hpure] at h
    rcases h with h | h
    · cases h
      exact ⟨rfl, t, by simp, rfl⟩
    · obtain ⟨hs, u, hu, he⟩ := ih h
      exact ⟨hs, u, by simp [hu], he⟩

/-- Comparisons that leave the state alone are independent of one another. -/
theorem compareAll_eq_filter (dir base ext : String) (tools : List Tool) (s : σ) :
    compareAll parts dir base ext tools s =
      (((tools.filter fun t => !(parts.compare dir t.outputDir base ext s).1).map (·.name)), s) := by
  induction tools with
  | nil => rfl
  | cons t rest ih =>
    have hs := hpure dir t.outputDir base ext s
    rcases hc : parts.compare dir t.outputDir base ext s with ⟨equal, s₁⟩
    have hs₁ : s₁ = s := by rwa [hc] at hs
    subst s₁
    cases equal <;> simp [compareAll, hc, ih]

end Pure

/-- The calls of one case: every tool is run, whatever became of those before it; if all of them
gave an artifact the candidates are compared with the reference, and then the result is reported. -/
structure CaseStory (c : Config) (reference : Tool) (r : CaseResult ε) (story : List (Event ε)) :
    Prop where
  runs : r.runs.length = c.tools.length
  compared : r.compared = true ↔ ∀ run ∈ r.runs, run.success = true
  passed : r.passed = true ↔ r.compared = true ∧ r.mismatches = []
  calls : ∃ answers : List Bool,
    answers.length = (if r.compared then c.candidates.length else 0) ∧
    r.mismatches = refused c.candidates answers ∧
    story = runEvents r.case.path c.tools r.runs ++
      compareEvents reference.outputDir r.case.base c.artifactExt c.candidates answers ++
      [.caseFinished r]

theorem failedRuns_isEmpty {r : CaseResult ε} :
    r.failedRuns.isEmpty = true ↔ ∀ run ∈ r.runs, run.success = true := by
  simp [CaseResult.failedRuns, List.filter_eq_nil_iff]

def caseHistory (parts : Parts σ ε) (c : Config) (reference : Tool) (test : TestCase) (s : σ) :
    History σ ε :=
  runHistory parts test.path c.tools s ++
    if (runCase parts c test s).1.compared then
      compareHistory parts reference.outputDir test.base c.artifactExt c.candidates
        (runTools parts test.path c.tools s).2
    else []

theorem runCase_of_failed (parts : Parts σ ε) (c : Config) (test : TestCase) (s : σ)
    (hf : ¬ ∀ run ∈ (runTools parts test.path c.tools s).1, run.success = true) :
    (runCase parts c test s).1 =
      { case := test, runs := (runTools parts test.path c.tools s).1 } ∧
    ∀ h, runCase parts.traced c test (s, h) =
      ((runCase parts c test s).1, (runCase parts c test s).2,
        h ++ runHistory parts test.path c.tools s) := by
  have hempty : (CaseResult.failedRuns
      { case := test, runs := (runTools parts test.path c.tools s).1 : CaseResult ε }).isEmpty =
        false := by
    rw [← Bool.not_eq_true, failedRuns_isEmpty]
    exact hf
  simp only [runCase, runTools_traced, if_pos hempty, traced_note, implies_true, and_true]

theorem runCase_of_succeeded (parts : Parts σ ε) (c : Config) {reference : Tool}
    (href : c.reference? = some reference) (test : TestCase) (s : σ)
    (hall : ∀ run ∈ (runTools parts test.path c.tools s).1, run.success = true)
    {mismatches : List String} {s₂ : σ}
    (hc : compareAll parts reference.outputDir test.base c.artifactExt c.candidates
      (runTools parts test.path c.tools s).2 = (mismatches, s₂)) :
    (runCase parts c test s).1 =
      { case := test, runs := (runTools parts test.path c.tools s).1, compared := true,
        mismatches, passed := mismatches.isEmpty } ∧
    ∀ h, runCase parts.traced c test (s, h) =
      ((runCase parts c test s).1, (runCase parts c test s).2,
        h ++ (runHistory parts test.path c.tools s ++
          compareHistory parts reference.outputDir test.base c.artifactExt c.candidates
            (runTools parts test.path c.tools s).2)) := by
  have hempty : ¬ (CaseResult.failedRuns
      { case := test, runs := (runTools parts test.path c.tools s).1 : CaseResult ε }).isEmpty =
        false := by
    rw [Bool.not_eq_false, failedRuns_isEmpty]
    exact hall
  simp only [runCase, runTools_traced, if_neg hempty, href, Option.map_some, Option.getD_some,
    compareAll_traced, hc, List.append_assoc]
  by_cases hm : mismatches.isEmpty = true
  · simp only [if_pos hm, implies_true, and_true]
  · simp only [if_neg hm, traced_note, implies_true, and_true]

theorem mem_caseHistory {parts : Parts σ ε} (hpure : ∀ dir₁ dir₂ base ext s,
    (parts.compare dir₁ dir₂ base ext s).2 = s) {c : Config} {reference : Tool} {test : TestCase}
    {s s' : σ} {e : Event ε} (h : (s', e) ∈ caseHistory parts c reference test s) :
    (s', e) ∈ runHistory parts test.path c.tools s ∨
      (∀ run ∈ (runTools parts test.path c.tools s).1, run.success = true) ∧
      s' = (runTools parts test.path c.tools s).2 ∧ ∃ t ∈ c.candidates, ∃ equal,
        e = .compared reference.outputDir t.outputDir test.base c.artifactExt equal := by
  rw [caseHistory, List.mem_append] at h
  rcases h with h | h
  · exact .inl h
  by_cases hall : ∀ run ∈ (runTools parts test.path c.tools s).1, run.success = true
  · split at h
    · obtain ⟨hs, t, ht, he⟩ := mem_compareHistory hpure h
      exact .inr ⟨hall, hs, t, ht, _, he⟩
    · cases h
  · rw [(runCase_of_failed parts c test s hall).1] at h
    cases h

/-- Where comparing changes nothing, a case passes if all runs came to an artifact and all
comparisons to yes. -/
theorem runCase_passed {parts : Parts σ ε} (hpure : ∀ dir₁ dir₂ base ext s,
    (parts.compare dir₁ dir₂ base ext s).2 = s) {c : Config} {reference : Tool}
    (href : c.reference? = some reference) (test : TestCase) (s : σ) :
    (runCase parts c test s).1.passed = true ↔
      (∀ run ∈ (runTools parts test.path c.tools s).1, run.success = true) ∧
      ∀ t ∈ c.candidates, (parts.compare reference.outputDir t.outputDir test.base c.artifactExt
        (runTools parts test.path c.tools s).2).1 = true := by
  by_cases hall : ∀ run ∈ (runTools parts test.path c.tools s).1, run.success = true
  · rw [(runCase_of_succeeded parts c href test s hall (compareAll_eq_filter hpure _ _ _ _ _)).1,
      List.isEmpty_iff, List.map_eq_nil_iff, List.filter_eq_nil_iff]
    simpa using fun _ => hall
  · rw [(runCase_of_failed parts c test s hall).1]
    exact ⟨fun h => (Bool.false_ne_true h).elim, fun h => absurd h.1 hall⟩

theorem runCase_traced (parts : Parts σ ε) (c : Config) {reference : Tool}
    (href : c.reference? = some reference) (test : TestCase) (s : σ) :
    (∀ h, runCase parts.traced c test (s, h) =
      ((runCase parts c test s).1, (runCase parts c test s).2,
        h ++ caseHistory parts c reference test s)) ∧
    (runCase parts c test s).1.case = test ∧
    CaseStory c reference (runCase parts c test s).1
      ((caseHistory parts c reference test s).events ++
        [.caseFinished (runCase parts c test s).1]) := by
  have he := events_runHistory parts test.path c.tools s
  have hl := length_runTools parts test.path c.tools s
  by_cases hall : ∀ run ∈ (runTools parts test.path c.tools s).1, run.success = true
  · obtain ⟨answers, he', hl', hm⟩ := events_compareHistory parts reference.outputDir test.base
      c.artifactExt c.candidates (runTools parts test.path c.tools s).2
    obtain ⟨hr, htraced⟩ := runCase_of_succeeded parts c href test s hall rfl
    rw [caseHistory]
    simp only [htraced, hr, if_true, implies_true, true_and]
    refine ⟨hl, by simpa using hall, by simp [List.isEmpty_iff], answers, by simpa using hl', hm, ?_⟩
    rw [History.events_append, he, he']
  · obtain ⟨hr, htraced⟩ := runCase_of_failed parts c test s hall
    rw [caseHistory]
    simp only [htraced, hr, Bool.false_eq_true, if_false, List.append_nil, implies_true, true_and]
    refine ⟨hl, by simpa using hall, by simp, [], rfl, by simp [refused], ?_⟩
    simp [he, compareEvents]

/-- From a state with the property `I`, a case leads to another such state, and its result and its
history are related by `R`. -/
def CaseKeeps (parts : Parts σ ε) (c : Config) (I : σ → Prop)
    (R : CaseResult ε → History σ ε → Prop) (test : TestCase) : Prop :=
  ∀ s, I s → ∃ g,
    (∀ h, runCase parts.traced c test (s, h) =
      ((runCase parts c test s).1, (runCase parts c test s).2, h ++ g)) ∧
    R (runCase parts c test s).1
      (g ++ [((runCase parts c test s).2, .caseFinished (runCase parts c test s).1)]) ∧
    (runCase parts c test s).1.case = test ∧
    I (parts.caseFinished (runCase parts c test s).1 (runCase parts c test s).2)

section Cases

variable {parts : Parts σ ε} {c : Config} {I : σ → Prop} {R : CaseResult ε → History σ ε → Prop}
  {cases : List TestCase} (hcase : ∀ test ∈ cases, CaseKeeps parts c I R test)

include hcase

/-- What is kept from case to case holds of all of them, and so does what follows from it for
each. -/
theorem runCases_traced (s : σ) (hs : I s) (h : History σ ε) :
    ∃ gs : List (History σ ε),
      runCases parts.traced c cases (s, h) =
        ((runCases parts c cases s).1, (runCases parts c cases s).2, h ++ gs.flatten) ∧
      (runCases parts c cases s).1.map (·.case) = cases ∧
      List.Forall₂ R (runCases parts c cases s).1 gs := by
  induction cases generalizing s h with
  | nil => exact ⟨[], by simp [runCases], rfl, .nil⟩
  | cons test rest ih =>
    obtain ⟨g, hg, hR, htest, hI⟩ := hcase test (by simp) s hs
    rcases hr : runCase parts c test s with ⟨r, s₁⟩
    rw [hr] at hR htest hI
    obtain ⟨gs, hgs, hcases, hall⟩ := ih (fun t ht => hcase t (by simp [ht]))
      (parts.caseFinished r s₁) hI (h ++ g ++ [(s₁, .caseFinished r)])
    refine ⟨(g ++ [(s₁, .caseFinished r)]) :: gs, ?_, ?_, ?_⟩
    · simp only [runCases, hg, hr, traced_caseFinished, hgs]
      simp only [List.flatten_cons, List.append_assoc]
    · simpa only [runCases, hr, List.map_cons, List.cons.injEq] using ⟨htest, hcases⟩
    · simpa only [runCases, hr] using List.Forall₂.cons hR hall

theorem runOver_traced (hnote : ∀ record s, I s → I (parts.note record s))
    (hstarted : ∀ s, I s → I (parts.started cases s))
    (s : σ) (hs : I s) (h : History σ ε) :
    ∃ (gs : List (History σ ε)) (s₀ s₁ : σ),
      runOver parts.traced c cases (s, h) =
        ((runOver parts c cases s).1, (runOver parts c cases s).2,
          h ++ ((s₀, .started cases) :: gs.flatten ++
            [(s₁, .finished (runOver parts c cases s).1)])) ∧
      (runOver parts c cases s).1.cases.map (·.case) = cases ∧
      List.Forall₂ R (runOver parts c cases s).1.cases gs := by
  have hn := fun record => hnote record s hs
  rw [runOver, runOver]
  simp only [traced_note, traced_started]
  generalize hs₁ : parts.note _ s = s₁
  have hI₁ : I s₁ := by
    rw [← hs₁]
    exact hn _
  obtain ⟨gs, hgs, hcases, hall⟩ := runCases_traced hcase (parts.started cases s₁)
    (hstarted s₁ hI₁) (h ++ [(s₁, .started cases)])
  rcases hr : runCases parts c cases (parts.started cases s₁) with ⟨results, s₂⟩
  rw [hr] at hgs hcases hall
  simp only [hgs, traced_note]
  generalize parts.note _ s₂ = s₃
  refine ⟨gs, s₁, s₃, ?_, hcases, hall⟩
  simp only [traced_finished, List.append_assoc, List.cons_append, List.nil_append]

end Cases

/-- A session whose output directories could be cleared and whose corpus was found makes these
calls and no others: it reports the cases it starts with, goes through them in the order of their
names, each with its own story, and reports the results it went by. -/
theorem run_history (parts : Parts σ ε) {c : Config} (hc : c.fault? = none) (s : σ)
    {fs : FileSystem} {cases : List TestCase}
    (hreset : reset (parts.files s) c.tools = (fs, none))
    (hcases : Corpus.discover (parts.files (parts.setFiles fs s)) c.corpusDir c.corpusExt =
      .ok cases) :
    (cases.Pairwise fun a b => a.name ≤ b.name) ∧
    ((parts.files (parts.setFiles fs s)).Distinct → (cases.map (·.name)).Nodup) ∧
    ∃ reference ∈ c.tools, reference.isReference = true ∧
      ∃ (report : Report ε) (s' : σ) (h : History σ ε) (stories : List (List (Event ε))),
        run parts c s = (.ok report, s') ∧
        run parts.traced c (s, []) = (.ok report, s', h) ∧
        h.events = .started cases :: stories.flatten ++ [.finished report] ∧
        report.cases.map (·.case) = cases ∧
        List.Forall₂ (CaseStory c reference) report.cases stories := by
  obtain ⟨reference, hmem, hisref, href⟩ :=
    (Config.accepted_of_fault?_eq_none hc).exists_reference
  refine ⟨Corpus.discover_sorted hcases, fun hd => Corpus.discover_nodup hd hcases,
    reference, hmem, hisref, ?_⟩
  have hcase : ∀ test ∈ cases, CaseKeeps parts c (fun _ => True)
      (fun r g => CaseStory c reference r (History.events g)) test := by
    intro test _ s _
    obtain ⟨hg, htest, hstory⟩ := runCase_traced parts c href test s
    refine ⟨_, hg, ?_, htest, trivial⟩
    dsimp only
    rw [History.events_append, History.events_singleton]
    exact hstory
  obtain ⟨gs, s₀, s₁, hgs, hover, hstories⟩ := runOver_traced hcase (fun _ _ _ => trivial)
    (fun _ _ => trivial) (parts.setFiles fs s) trivial []
  rcases hr : runOver parts c cases (parts.setFiles fs s) with ⟨report, s'⟩
  rw [hr] at hgs hover hstories
  refine ⟨report, s', (s₀, .started cases) :: gs.flatten ++ [(s₁, .finished report)],
    gs.map History.events, ?_, ?_, ?_, hover, ?_⟩
  · rw [run_of_discover hreset hcases, hr]
  · simp only [run, traced_files, traced_setFiles, hreset, hcases, hgs, List.nil_append]
  · rw [History.events_append, ← History.events_flatten]
    rfl
  · exact List.forall₂_map_right_iff.mpr hstories

def sampleConfig (outputDir artifactExt : String) (byproducts : List String) : Config where
  root := "/"
  corpusDir := "/c"
  corpusExt := ".asm"
  artifactExt := artifactExt
  timing := .default
  tools :=
    [{ name := "a", path := "/x/a", role := .candidate, outputDir, byproducts },
      { name := "r", path := "/x/r", role := .reference, outputDir := "/o/r" }]

def sampleFiles : FileSystem where
  nodes :=
    [([], .dir 0o755), (["c"], .dir 0o755), (["c", "p.asm"], .file 0 0o644 "nop".toUTF8),
      (["o"], .dir 0o755), (["x"], .dir 0o755), (["x", "a"], .file 1 0o755 "".toUTF8),
      (["x", "r"], .file 2 0o755 "".toUTF8)]
  nextId := 3
  cwd := []
  mounts := []
  privileged := false

def sampleLaunch : Program.Launch := fun fs cmd =>
  if fs.lead true cmd.dir = some ["c"] ∧ (fs.get? ["c", "p.hex"]).all Node.isRegular then
    { fs := fs.addFile ["c", "p.hex"] 0o644 "00".toUTF8, ending := .clean }
  else { fs, ending := .status 1 }

def sampleTest : TestCase := ⟨"p.asm", "p", "/c/p.asm"⟩

/-- A second source, which the tools come to no artifact for. -/
def pairedFiles : FileSystem :=
  { sampleFiles with
    nodes := sampleFiles.nodes ++ [(["c", "q.asm"], .file 3 0o644 "nop".toUTF8)]
    nextId := 4 }

def pairedTests : List TestCase := [sampleTest, ⟨"q.asm", "q", "/c/q.asm"⟩]

theorem discover_pairedFiles : Corpus.discover pairedFiles "/c" ".asm" = .ok pairedTests := by
  have hopens : Corpus.Opens pairedFiles "/c" ["c"] := ⟨rfl, 0o755, rfl, rfl⟩
  have hchildren : pairedFiles.children ["c"] = ["p.asm", "q.asm"] :=
    List.mergeSort_of_pairwise (by decide)
  rw [Corpus.discover_of_opens hopens, Corpus.chosen, hchildren]
  decide +kernel

theorem run_history_paired :
    ∃ reference ∈ (sampleConfig "/o/a" ".hex" []).tools, reference.isReference = true ∧
      ∃ (report : Report RunFault) (s' : World) (h : History World RunFault)
        (stories : List (List (Event RunFault))),
        run (standard sampleLaunch false false .discard (sampleConfig "/o/a" ".hex" []))
          (sampleConfig "/o/a" ".hex" []) { fs := pairedFiles } = (.ok report, s') ∧
        report.cases.map (·.runs.map (·.success)) = [[true, true], [false, false]] ∧
        report.cases.map (·.passed) = [true, false] ∧
        run (standard sampleLaunch false false .discard (sampleConfig "/o/a" ".hex" [])).traced
          (sampleConfig "/o/a" ".hex" []) ({ fs := pairedFiles }, []) = (.ok report, s', h) ∧
        h.events = .started pairedTests :: stories.flatten ++ [.finished report] ∧
        report.cases.map (·.case) = pairedTests ∧
        List.Forall₂ (CaseStory (sampleConfig "/o/a" ".hex" []) reference) report.cases stories := by
  have hc : (sampleConfig "/o/a" ".hex" []).fault? = none := by decide
  have hreset : reset pairedFiles (sampleConfig "/o/a" ".hex" []).tools = (pairedFiles, none) := rfl
  obtain ⟨reference, hmem, hisref, report, s', h, stories, hrun, hrest⟩ :=
    (run_history (standard sampleLaunch false false .discard (sampleConfig "/o/a" ".hex" []))
      hc { fs := pairedFiles } hreset discover_pairedFiles).2.2
  have hover := @run_of_discover _ _
    (standard sampleLaunch false false .discard (sampleConfig "/o/a" ".hex" [])) _ { fs := pairedFiles }
    _ _ hreset discover_pairedFiles
  obtain ⟨hreport, -⟩ := Prod.mk.inj (hrun.symm.trans hover)
  rw [Except.ok.inj hreport] at hrun hrest
  exact ⟨reference, hmem, hisref, _, s', h, stories, hrun, by decide +kernel, by decide +kernel, hrest⟩

end Crosscheck.Session
