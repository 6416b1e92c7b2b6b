import Crosscheck.Proofs.Config
import Crosscheck.Proofs.Fault
import Crosscheck.Proofs.Path.Route

namespace Crosscheck

/-- A list of all values that occur more than once in `xs`, each once, in the order in which they
first occur. -/
structure Repeats (xs rs : List String) : Prop where
  once : ∀ x, rs.count x = if 2 ≤ xs.count x then 1 else 0
  order : rs.Pairwise fun a b => xs.idxOf a < xs.idxOf b

section FirstOccurrence

variable {α : Type} [DecidableEq α]

theorem idxOf_lt_of_filter {p : α → Bool} {xs : List α} {a b : α} (hb : p b = true)
    (h : (xs.filter p).idxOf a < (xs.filter p).idxOf b) : xs.idxOf a < xs.idxOf b := by
  induction xs with
  | nil => simp at h
  | cons x xs ih =>
    by_cases hxa : x = a
    · subst x
      by_cases hab : a = b
      · simp [hab] at h
      · rw [List.idxOf_cons_self, List.idxOf_cons_ne _ hab]
        exact Nat.succ_pos _
    by_cases hxb : x = b
    · subst x
      simp [List.filter_cons_of_pos hb] at h
    rw [List.idxOf_cons_ne _ hxa, List.idxOf_cons_ne _ hxb]
    apply Nat.succ_lt_succ
    apply ih
    cases hx : p x with
    | true =>
      rw [List.filter_cons_of_pos hx, List.idxOf_cons_ne _ hxa, List.idxOf_cons_ne _ hxb] at h
      exact Nat.lt_of_succ_lt_succ h
    | false =>
      rwa [List.filter_cons_of_neg (by simp [hx])] at h

theorem eraseDups_order (xs : List α) :
    xs.eraseDups.Pairwise fun a b => xs.idxOf a < xs.idxOf b := by
  induction hn : xs.length using Nat.strong_induction_on generalizing xs with
  | _ n ih =>
    cases xs with
    | nil => simp
    | cons x xs =>
      have hmem : ∀ {a}, a ∈ (xs.filter fun b => !b == x).eraseDups → x ≠ a := by
        intro a ha
        rw [List.mem_eraseDups, List.mem_filter] at ha
        exact fun he => by simp [he] at ha
      have hrest := ih (xs.filter fun b => !b == x).length
        (by rw [← hn]; exact Nat.lt_succ_of_le (List.length_filter_le _ _)) _ rfl
      rw [List.eraseDups_cons, List.pairwise_cons]
      refine ⟨fun a ha => ?_, hrest.imp_of_mem fun {a b} ha hb h => ?_⟩
      · rw [List.idxOf_cons_self, List.idxOf_cons_ne _ (hmem ha)]
        exact Nat.succ_pos _
      · rw [List.idxOf_cons_ne _ (hmem ha), List.idxOf_cons_ne _ (hmem hb)]
        apply Nat.succ_lt_succ
        exact idxOf_lt_of_filter (by simpa using Ne.symm (hmem hb)) h

end FirstOccurrence

theorem repeats_repeated (xs : List String) : Repeats xs (repeated xs) := by
  have horder := eraseDups_order xs
  have hnodup : xs.eraseDups.Nodup := horder.imp fun h he => by simp [he] at h
  refine ⟨fun x => ?_, horder.filter _⟩
  rw [repeated]
  split
  · rename_i hx
    have hmem : x ∈ xs := List.count_pos_iff.mp (Nat.lt_of_lt_of_le Nat.zero_lt_two hx)
    rw [List.count_filter (by simpa using hx)]
    exact List.count_eq_one_of_mem hnodup (List.mem_eraseDups.mpr hmem)
  · rename_i hx
    rw [List.count_eq_zero]
    intro hmem
    exact hx (by simpa using (List.mem_filter.mp hmem).2)

theorem startsWithDot_iff (s : String) : startsWithDot s = true ↔ ∃ rest, s = "." ++ rest := by
  rw [startsWithDot, decide_eq_true_iff]
  constructor
  · intro h
    obtain ⟨tail, htail⟩ := List.head?_eq_some_iff.mp h
    refine ⟨String.ofList tail, String.ext ?_⟩
    simp [htail]
  · rintro ⟨rest, rfl⟩
    simp

structure Tool.WellFormed (t : Tool) : Prop where
  name : t.name ≠ ""
  path : t.path ≠ ""
  outputDir : t.outputDir ≠ ""
  role : t.role = .reference ∨ t.role = .candidate
  window : t.dismissWindow = true → t.windowTitle ≠ ""
  byproducts : ∀ e ∈ t.byproducts, ∃ rest, e = "." ++ rest

theorem Tool.accepted_iff_wellFormed (t : Tool) : t.Accepted ↔ t.WellFormed := by
  have hrole : t.role.isKnown = true ↔ t.role = .reference ∨ t.role = .candidate := by
    simp [Role.isKnown]
  constructor
  · intro h
    exact
      { name := h.name, path := h.path, outputDir := h.outputDir, role := hrole.mp h.role
        window := h.window
        byproducts := fun e he => (startsWithDot_iff e).mp (h.byproducts e he) }
  · intro h
    exact
      { name := h.name, path := h.path, outputDir := h.outputDir, role := hrole.mpr h.role
        window := h.window
        byproducts := fun e he => (startsWithDot_iff e).mpr (h.byproducts e he) }

theorem Tool.Accepted.fault?_eq_none {t : Tool} (h : t.Accepted) : t.fault? = none := by
  have hwindow : ¬ (t.dismissWindow = true ∧ t.windowTitle = "") := fun hw => h.window hw.1 hw.2
  have hbyproducts : (t.byproducts.find? fun e => !startsWithDot e) = none := by
    simpa using h.byproducts
  rw [Tool.fault?, if_neg h.name, if_neg h.path, if_neg h.outputDir, if_neg (by simp [h.role]),
    if_neg hwindow, hbyproducts]
  rfl

namespace Config

structure WellFormed (c : Config) : Prop where
  corpusDir : c.corpusDir ≠ ""
  corpusExt : ∃ rest, c.corpusExt = "." ++ rest
  artifactExt : ∃ rest, c.artifactExt = "." ++ rest
  processTimeout : 0 < c.timing.processTimeout.toInt
  dismissGrace : 0 < c.timing.dismissGrace.toInt
  dismissInterval : 0 < c.timing.dismissInterval.toInt
  watcherStopTimeout : 0 < c.timing.watcherStopTimeout.toInt
  tools : ∀ t ∈ c.tools, t.WellFormed
  reference : ∃ before ref after, c.tools = before ++ ref :: after ∧ ref.role = .reference ∧
    ∀ t ∈ before ++ after, t.role ≠ .reference
  length : 2 ≤ c.tools.length
  names : c.tools.Pairwise fun t u => t.name ≠ u.name
  outputDirs : c.tools.Pairwise fun t u => Path.route t.outputDir ≠ Path.route u.outputDir

theorem Accepted.faultOver?_eq_none {c : Config} {timings : List (String × Duration)}
    (hperm : timings.Perm c.timing.fields) (h : c.Accepted) : c.faultOver? timings = none := by
  have htiming : (timings.find? fun f => !f.2.isPositive) = none := by
    rw [List.find?_eq_none]
    intro f hf
    simp [h.timing f (hperm.mem_iff.mp hf)]
  have htools : c.tools.findSome? Tool.fault? = none :=
    List.findSome?_eq_none_iff.mpr fun t ht => (h.tools t ht).fault?_eq_none
  rw [faultOver?, if_neg h.corpusDir, if_neg (by simp [h.corpusExt]), if_neg (by simp [h.artifactExt]),
    htiming]
  dsimp only
  rw [htools]
  dsimp only
  rw [if_neg (not_not.mpr h.reference), if_neg (Nat.not_lt.mpr h.length),
    if_neg (not_not.mpr ((repeated_eq_nil_iff _).mpr h.names)),
    if_neg (not_not.mpr ((repeated_eq_nil_iff _).mpr h.outputDirs))]

theorem isPositive_iff (d : Duration) : d.isPositive = true ↔ 0 < d.toInt := by
  rw [Duration.isPositive, decide_eq_true_iff, Duration.toInt, Int64.lt_iff_toInt_lt]
  rfl

theorem countP_isReference_iff (tools : List Tool) :
    tools.countP Tool.isReference = 1 ↔ ∃ before ref after, tools = before ++ ref :: after ∧
      ref.role = .reference ∧ ∀ t ∈ before ++ after, t.role ≠ .reference := by
  have hzero : ∀ ts : List Tool,
      ts.countP Tool.isReference = 0 ↔ ∀ t ∈ ts, t.role ≠ .reference := by
    intro ts
    simp [List.countP_eq_zero, Tool.isReference]
  constructor
  · intro h
    obtain ⟨ref, hmem, href⟩ := List.countP_pos_iff.mp (h ▸ Nat.one_pos)
    obtain ⟨before, after, rfl⟩ := List.append_of_mem hmem
    refine ⟨before, ref, after, rfl, by simpa [Tool.isReference] using href, (hzero _).mp ?_⟩
    rw [List.countP_append, List.countP_cons_of_pos href] at h
    rw [List.countP_append]
    omega
  · rintro ⟨before, ref, after, rfl, href, hothers⟩
    have hnone := (hzero _).mpr hothers
    rw [List.countP_append] at hnone
    rw [List.countP_append, List.countP_cons_of_pos (by simp [Tool.isReference, href])]
    omega

theorem accepted_iff_wellFormed (c : Config) : c.Accepted ↔ c.WellFormed := by
  have htiming : (∀ f ∈ c.timing.fields, f.2.isPositive = true) ↔
      0 < c.timing.processTimeout.toInt ∧ 0 < c.timing.dismissGrace.toInt ∧
        0 < c.timing.dismissInterval.toInt ∧ 0 < c.timing.watcherStopTimeout.toInt := by
    simp [Timing.fields, isPositive_iff]
  have htools : (∀ t ∈ c.tools, t.Accepted) ↔ ∀ t ∈ c.tools, t.WellFormed := by
    simp only [Tool.accepted_iff_wellFormed]
  have houts : (c.tools.map fun t => Path.clean t.outputDir).Nodup ↔
      c.tools.Pairwise fun t u => Path.route t.outputDir ≠ Path.route u.outputDir := by
    simp only [List.Nodup, List.pairwise_map, ne_eq, Path.clean_eq_clean_iff]
  constructor
  · intro h
    obtain ⟨hprocess, hgrace, hinterval, hstop⟩ := htiming.mp h.timing
    exact
      { corpusDir := h.corpusDir
        corpusExt := (startsWithDot_iff _).mp h.corpusExt
        artifactExt := (startsWithDot_iff _).mp h.artifactExt
        processTimeout := hprocess, dismissGrace := hgrace, dismissInterval := hinterval
        watcherStopTimeout := hstop
        tools := htools.mp h.tools
        reference := (countP_isReference_iff _).mp h.reference
        length := h.length
        names := List.pairwise_map.mp h.names
        outputDirs := houts.mp h.outputDirs }
  · intro h
    exact
      { corpusDir := h.corpusDir
        corpusExt := (startsWithDot_iff _).mpr h.corpusExt
        artifactExt := (startsWithDot_iff _).mpr h.artifactExt
        timing := htiming.mpr
          ⟨h.processTimeout, h.dismissGrace, h.dismissInterval, h.watcherStopTimeout⟩
        tools := htools.mpr h.tools
        reference := (countP_isReference_iff _).mpr h.reference
        length := h.length
        names := List.pairwise_map.mpr h.names
        outputDirs := houts.mpr h.outputDirs }

theorem faultOver?_eq_none_iff {c : Config} {timings : List (String × Duration)}
    (hperm : timings.Perm c.timing.fields) : c.faultOver? timings = none ↔ c.WellFormed := by
  rw [← accepted_iff_wellFormed]
  exact ⟨accepted_of_faultOver?_eq_none hperm, Accepted.faultOver?_eq_none hperm⟩

theorem fault?_eq_none_iff (c : Config) : c.fault? = none ↔ c.WellFormed :=
  faultOver?_eq_none_iff (.refl _)

/-- What a fault holds about the tools taken together: how many are references, or which values
are given to more than one of them. -/
theorem faultOver?_about_tools {c : Config} {timings : List (String × Duration)} {f : ConfigFault}
    (h : c.faultOver? timings = some f) :
    (∀ n, f = .references n → n ≤ c.tools.length) ∧
    (∀ ns, f = .duplicateNames ns → ns ≠ [] ∧ Repeats (c.tools.map (·.name)) ns) ∧
    ∀ ds, f = .sharedDirs ds →
      ds ≠ [] ∧ Repeats (c.tools.map fun t => Path.clean t.outputDir) ds := by
  have hnames := repeats_repeated (c.tools.map (·.name))
  have hdirs := repeats_repeated (c.tools.map fun t => Path.clean t.outputDir)
  unfold faultOver? at h
  split at h
  · cases h; simp
  split at h
  · cases h; simp
  split at h
  · cases h; simp
  split at h
  · cases h; simp
  split at h
  · cases h; simp
  dsimp only at h
  split at h
  · cases h
    simp [List.countP_le_length]
  split at h
  · cases h; simp
  split at h
  · rename_i hne
    cases h
    refine ⟨by simp, fun ns hns => ?_, by simp⟩
    cases hns
    exact ⟨hne, hnames⟩
  split at h
  · rename_i hne
    cases h
    refine ⟨by simp, by simp, fun ds hds => ?_⟩
    cases hds
    exact ⟨hne, hdirs⟩
  · cases h

theorem WellFormed.reference?_eq {c : Config} (h : c.WellFormed) {before after : List Tool}
    {ref : Tool} (htools : c.tools = before ++ ref :: after) (href : ref.role = .reference) :
    c.reference? = some ref := by
  have hacc := (accepted_iff_wellFormed c).mpr h
  obtain ⟨first, hmem, hfirst, hfind⟩ := hacc.exists_reference
  have heq : first = ref := by
    apply hacc.eq_of_isReference hmem _ hfirst
    · simp [Tool.isReference, href]
    · simp [htools]
  rw [hfind, heq]

/-- In whatever order the timings are looked at, a configuration is accepted exactly if it is well
formed, and then the one tool that is the reference is found. Otherwise the error has one cause, and
it lists what is given more than once. -/
theorem accepts_exactly_wellFormed (c : Config) {timings : List (String × Duration)}
    (hperm : timings.Perm c.timing.fields) :
    (c.faultOver? timings = none ↔ c.WellFormed) ∧
    (∀ f, c.faultOver? timings = some f →
      Fault.causes (some f.fault) = [.invalidConfig] ∧
      (c.tools.length < 2 ^ 63 → f.fault.message = f.message) ∧
      (∀ ns, f = .duplicateNames ns →
        ns ≠ [] ∧ Repeats (c.tools.map (·.name)) ns ∧
        f.message = "invalid configuration: duplicate tool names: " ++ ", ".intercalate ns) ∧
      (∀ ds, f = .sharedDirs ds →
        ds ≠ [] ∧ Repeats (c.tools.map fun t => Path.clean t.outputDir) ds ∧
        f.message =
          "invalid configuration: tools share output directories: " ++ ", ".intercalate ds)) ∧
    (c.faultOver? timings = none → ∃ before ref after, c.tools = before ++ ref :: after ∧
      c.reference? = some ref ∧ ref.role = .reference ∧
      ∀ t ∈ before ++ after, t.role = .candidate) := by
  refine ⟨faultOver?_eq_none_iff hperm, fun f hf => ?_, fun hnone => ?_⟩
  · obtain ⟨hcount, hnames, hdirs⟩ := faultOver?_about_tools hf
    refine ⟨f.causes_fault, fun hlength => ?_, fun ns hns => ?_, fun ds hds => ?_⟩
    · exact ConfigFault.message_fault fun n hn => Nat.lt_of_le_of_lt (hcount n hn) hlength
    · refine ⟨(hnames ns hns).1, (hnames ns hns).2, ?_⟩
      rw [hns, ConfigFault.message, ConfigFault.remark.eq_def]
      simp [ConfigFault.cause, Cause.because, Cause.text, ← String.append_assoc]
    · refine ⟨(hdirs ds hds).1, (hdirs ds hds).2, ?_⟩
      rw [hds, ConfigFault.message, ConfigFault.remark.eq_def]
      simp [ConfigFault.cause, Cause.because, Cause.text, ← String.append_assoc]
  · have hwf := (faultOver?_eq_none_iff hperm).mp hnone
    obtain ⟨before, ref, after, htools, href, hothers⟩ := hwf.reference
    refine ⟨before, ref, after, htools, hwf.reference?_eq htools href, href, fun t ht => ?_⟩
    have hmem : t ∈ c.tools := by
      rw [htools, List.mem_append, List.mem_cons]
      exact (List.mem_append.mp ht).imp_right .inr
    exact (hwf.tools t hmem).role.resolve_left (hothers t ht)

/-- Two timings are not positive, and which one is named depends on the order. -/
def timelessConfig : Config where
  root := "/"
  corpusDir := "/c"
  corpusExt := ".asm"
  artifactExt := ".hex"
  timing := { Timing.default with processTimeout := .ofNat 0, dismissGrace := .ofNat 0 }
  tools := defaultTools

theorem accepts_exactly_wellFormed_reversed :
    timelessConfig.fault? = some (.timing "process_timeout" (.ofNat 0)) ∧
    timelessConfig.faultOver? timelessConfig.timing.fields.reverse =
      some (.timing "dismiss_grace" (.ofNat 0)) ∧
    ¬ timelessConfig.WellFormed := by
  have hlast : timelessConfig.faultOver? timelessConfig.timing.fields.reverse =
      some (.timing "dismiss_grace" (.ofNat 0)) := by decide
  refine ⟨by decide, hlast, fun hwf => ?_⟩
  have hnone := (accepts_exactly_wellFormed timelessConfig
    (List.reverse_perm timelessConfig.timing.fields)).1.mpr hwf
  rw [hlast] at hnone
  cases hnone

end Config

end Crosscheck
