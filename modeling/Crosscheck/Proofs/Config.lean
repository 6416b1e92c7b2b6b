import Mathlib.Data.List.Dedup
import Crosscheck.Config

namespace Crosscheck

theorem repeated_eq_nil_iff (xs : List String) : repeated xs = [] ↔ xs.Nodup := by
  have hmem : ∀ x, x ∈ xs.eraseDups ↔ x ∈ xs := fun x => List.mem_eraseDups
  rw [repeated, List.filter_eq_nil_iff, List.nodup_iff_count_le_one]
  constructor
  · intro h x
    by_cases hx : x ∈ xs
    · have hc := h x ((hmem x).mpr hx)
      simp only [decide_eq_true_eq] at hc
      omega
    · rw [List.count_eq_zero_of_not_mem hx]
      exact Nat.zero_le 1
  · intro h x _
    have hc := h x
    simp only [decide_eq_true_eq]
    omega

/-- The conditions that a tool has to meet before a session may use it. -/
structure Tool.Accepted (t : Tool) : Prop where
  name : t.name ≠ ""
  path : t.path ≠ ""
  outputDir : t.outputDir ≠ ""
  role : t.role.isKnown = true
  window : t.dismissWindow = true → t.windowTitle ≠ ""
  byproducts : ∀ e ∈ t.byproducts, startsWithDot e = true

theorem Tool.accepted_of_fault?_eq_none {t : Tool} (h : t.fault? = none) : t.Accepted := by
  unfold Tool.fault? at h
  split at h
  · cases h
  rename_i hname
  split at h
  · cases h
  rename_i hpath
  split at h
  · cases h
  rename_i hdir
  split at h
  · cases h
  rename_i hrole
  split at h
  · cases h
  rename_i hwindow
  exact
    { name := hname
      path := hpath
      outputDir := hdir
      role := by simpa using hrole
      window := fun hd ht => hwindow ⟨hd, ht⟩
      byproducts := by simpa using h }

namespace Config

/-- The conditions that a configuration has to meet before a session may use it. -/
structure Accepted (c : Config) : Prop where
  corpusDir : c.corpusDir ≠ ""
  corpusExt : startsWithDot c.corpusExt = true
  artifactExt : startsWithDot c.artifactExt = true
  timing : ∀ f ∈ c.timing.fields, f.2.isPositive = true
  tools : ∀ t ∈ c.tools, t.Accepted
  reference : c.tools.countP Tool.isReference = 1
  length : 2 ≤ c.tools.length
  names : (c.tools.map (·.name)).Nodup
  outputDirs : (c.tools.map fun t => Path.clean t.outputDir).Nodup

theorem accepted_of_faultOver?_eq_none {c : Config} {timings : List (String × Duration)}
    (hperm : timings.Perm c.timing.fields) (h : c.faultOver? timings = none) : c.Accepted := by
  unfold faultOver? at h
  split at h
  · cases h
  rename_i hdir
  split at h
  · cases h
  rename_i hext
  split at h
  · cases h
  rename_i hart
  split at h
  · cases h
  rename_i htime
  split at h
  · cases h
  rename_i htools
  dsimp only at h
  split at h
  · cases h
  rename_i href
  split at h
  · cases h
  rename_i hlen
  split at h
  · cases h
  rename_i hnames
  split at h
  · cases h
  rename_i hdirs
  exact
    { corpusDir := hdir
      corpusExt := by simpa using hext
      artifactExt := by simpa using hart
      timing := fun f hf => by simpa using List.find?_eq_none.mp htime f (hperm.mem_iff.mpr hf)
      tools := fun t ht =>
        Tool.accepted_of_fault?_eq_none (List.findSome?_eq_none_iff.mp htools t ht)
      reference := not_not.mp href
      length := Nat.le_of_not_lt hlen
      names := (repeated_eq_nil_iff _).mp (not_not.mp hnames)
      outputDirs := (repeated_eq_nil_iff _).mp (not_not.mp hdirs) }

variable {c : Config}

theorem accepted_of_fault?_eq_none (h : c.fault? = none) : c.Accepted :=
  accepted_of_faultOver?_eq_none (.refl _) h

theorem Accepted.exists_reference (h : c.Accepted) :
    ∃ ref ∈ c.tools, ref.isReference = true ∧ c.reference? = some ref := by
  have hpos : 0 < c.tools.countP Tool.isReference := by rw [h.reference]; exact Nat.one_pos
  obtain ⟨t, ht, hr⟩ := List.countP_pos_iff.mp hpos
  have hsome : (c.tools.find? Tool.isReference).isSome = true :=
    List.find?_isSome.mpr ⟨t, ht, hr⟩
  obtain ⟨ref, href⟩ := Option.isSome_iff_exists.mp hsome
  exact ⟨ref, List.mem_of_find?_eq_some href, List.find?_some href, href⟩

theorem Accepted.eq_of_isReference (h : c.Accepted) {t u : Tool} (ht : t ∈ c.tools)
    (hu : u ∈ c.tools) (hrt : t.isReference = true) (hru : u.isReference = true) : t = u := by
  have hone := h.reference
  rw [List.countP_eq_length_filter, List.length_eq_one_iff] at hone
  obtain ⟨ref, href⟩ := hone
  have hmem : ∀ {x}, x ∈ c.tools → x.isReference = true → x = ref := by
    intro x hx hr
    rw [← List.mem_singleton, ← href, List.mem_filter]
    exact ⟨hx, hr⟩
  rw [hmem ht hrt, hmem hu hru]

theorem mem_candidates {t : Tool} : t ∈ c.candidates ↔ t ∈ c.tools ∧ t.isReference = false := by
  simp [candidates]

theorem Accepted.forall_mem_tools (h : c.Accepted) {ref : Tool} (hmem : ref ∈ c.tools)
    (href : ref.isReference = true) {P : Tool → Prop} :
    (∀ t ∈ c.tools, P t) ↔ P ref ∧ ∀ t ∈ c.candidates, P t := by
  refine ⟨fun hall => ⟨hall ref hmem, fun t ht => hall t (mem_candidates.mp ht).1⟩,
    fun ⟨hr, hcandidates⟩ t ht => ?_⟩
  cases hkind : t.isReference with
  | true => rwa [h.eq_of_isReference ht hmem hkind href]
  | false => exact hcandidates t (mem_candidates.mpr ⟨ht, hkind⟩)

/-- No two tools of an accepted configuration are alike, for they differ in their names. -/
theorem Accepted.nodup (h : c.Accepted) : c.tools.Nodup := List.Nodup.of_map _ h.names

theorem Accepted.eq_of_name (h : c.Accepted) {t u : Tool} (ht : t ∈ c.tools) (hu : u ∈ c.tools)
    (hn : t.name = u.name) : t = u := List.inj_on_of_nodup_map h.names ht hu hn

theorem Accepted.eq_of_outputDir (h : c.Accepted) {t u : Tool} (ht : t ∈ c.tools)
    (hu : u ∈ c.tools) (hd : Path.clean t.outputDir = Path.clean u.outputDir) : t = u :=
  List.inj_on_of_nodup_map h.outputDirs ht hu hd

end Config

end Crosscheck
