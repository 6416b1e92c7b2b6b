import Crosscheck.Proofs.Path.Route
import Crosscheck.Tool

namespace Crosscheck

open Crosscheck.Path (isAbs clean join route)

section Relative

variable {root p : String} (hp : p ≠ "") (hrel : isAbs p = false)

include hp hrel

theorem resolvePath_of_rel : resolvePath root p = join [root, p] := by
  rw [resolvePath, if_neg]
  rintro (h | h)
  · exact hp h
  · exact Bool.false_ne_true (hrel.symm.trans h)

theorem resolvePath_below (hroot : root ≠ "") : resolvePath root p = clean (root ++ "/" ++ p) := by
  rw [resolvePath_of_rel hp hrel, Path.join_pair hroot hp]

theorem resolvePath_below_nothing : resolvePath "" p = clean p := by
  rw [resolvePath_of_rel hp hrel]
  simp [join, hp]

end Relative

theorem resolvePath_eq_empty_iff (root p : String) : resolvePath root p = "" ↔ p = "" := by
  by_cases hp : p = ""
  · rw [resolvePath, if_pos (.inl hp)]
  cases hrel : isAbs p with
  | true => rw [resolvePath, if_pos (.inr hrel)]
  | false =>
    refine iff_of_false ?_ hp
    by_cases hroot : root = ""
    · rw [hroot, resolvePath_below_nothing hp hrel]
      exact Path.clean_ne_empty p
    · rw [resolvePath_below hp hrel hroot]
      exact Path.clean_ne_empty _

section Rooted

variable {root : String} (hroot : isAbs root = true)

include hroot

theorem isAbs_resolvePath {p : String} (hp : p ≠ "") : isAbs (resolvePath root p) = true := by
  cases hrel : isAbs p with
  | true => rwa [resolvePath, if_pos (.inr hrel)]
  | false =>
    rw [resolvePath_below hp hrel (Path.ne_empty_of_isAbs hroot), Path.isAbs_clean]
    exact Path.isAbs_append_slash hroot p

/-- Below an absolute root, a second root has nothing to add. -/
theorem resolvePath_resolvePath (other p : String) :
    resolvePath other (resolvePath root p) = resolvePath root p := by
  by_cases hp : p = ""
  · rw [resolvePath, if_pos (.inl ((resolvePath_eq_empty_iff root p).mpr hp))]
  · rw [resolvePath, if_pos (.inr (isAbs_resolvePath hroot hp))]

section Relative

variable {p : String} (hp : p ≠ "") (hrel : isAbs p = false)

include hp hrel

theorem route_resolvePath : route (resolvePath root p) = (route root).follow p := by
  have hne := Path.ne_empty_of_isAbs hroot
  rw [resolvePath_below hp hrel hne, Path.route_clean, Path.route_append_slash hne]

theorem resolvePath_eq_toLocation :
    resolvePath root p = Path.toLocation ((route root).follow p).names := by
  have habs := Path.isAbs_append_slash hroot p
  rw [← route_resolvePath hroot hp hrel, resolvePath_below hp hrel (Path.ne_empty_of_isAbs hroot),
    Path.route_clean, ← Path.names_of_isAbs habs, Path.clean_of_isAbs habs]

theorem isName_of_mem_follow {s : String} (hs : s ∈ ((route root).follow p).names) :
    Path.IsName s := by
  have habs := isAbs_resolvePath hroot hp
  rw [← route_resolvePath hroot hp hrel, ← Path.names_of_isAbs habs] at hs
  exact Path.isName_of_mem_names habs hs

end Relative

end Rooted

/-- `q` stands for the path `p` below `root`. An absolute path stands for itself; in place of any
other there is a clean one, and it leads where one comes to on `p` from the root. -/
structure StandsBelow (root p q : String) : Prop where
  isAbs : isAbs q = true
  kept : Path.isAbs p = true → q = p
  clean : Path.isAbs p = false → clean q = q
  text : Path.isAbs p = false → q = "/" ++ "/".intercalate ((route root).follow p).names
  names : Path.isAbs p = false → ∀ s ∈ ((route root).follow p).names, Path.IsName s
  route : Path.isAbs p = false → route q = (route root).follow p

theorem resolvePath_standsBelow {root p : String} (hroot : isAbs root = true) (hp : p ≠ "") :
    StandsBelow root p (resolvePath root p) where
  isAbs := isAbs_resolvePath hroot hp
  kept habs := if_pos (.inr habs)
  clean hrel := by
    rw [resolvePath_below hp hrel (Path.ne_empty_of_isAbs hroot), Path.clean_clean]
  text hrel := resolvePath_eq_toLocation hroot hp hrel
  names hrel _ hs := isName_of_mem_follow hroot hp hrel hs
  route hrel := route_resolvePath hroot hp hrel

namespace Tool

theorem fault?_resolved (t : Tool) (root : String) : (t.resolved root).fault? = t.fault? := by
  have hpath : (t.resolved root).path = "" ↔ t.path = "" := resolvePath_eq_empty_iff root t.path
  have hdir : (t.resolved root).outputDir = "" ↔ t.outputDir = "" :=
    resolvePath_eq_empty_iff root t.outputDir
  rw [fault?, fault?]
  exact if_congr Iff.rfl rfl (if_congr hpath rfl (if_congr hdir rfl rfl))

/-- A root changes nothing about what is wrong with a tool, and after an absolute one no other root
changes anything. The paths of a tool that has an absolute root stand below it. -/
theorem resolved_stable (t : Tool) :
    (∀ root, (t.resolved root).fault? = t.fault?) ∧
    (∀ r s, isAbs r = true → (t.resolved r).resolved s = t.resolved r) ∧
    ∀ root, isAbs root = true →
      (t.path ≠ "" → StandsBelow root t.path (t.resolved root).path) ∧
      (t.outputDir ≠ "" → StandsBelow root t.outputDir (t.resolved root).outputDir) ∧
      ∀ p, p ≠ "" → StandsBelow root p (resolvePath root p) := by
  refine ⟨t.fault?_resolved, fun r s hr => ?_, fun root hroot => ?_⟩
  · simp only [resolved, resolvePath_resolvePath hr]
  · have hbelow : ∀ p, p ≠ "" → StandsBelow root p (resolvePath root p) :=
      fun _ hp => resolvePath_standsBelow hroot hp
    exact ⟨hbelow t.path, hbelow t.outputDir, hbelow⟩

def outlier : Tool where
  name := "a"
  path := "../../../bin//as/."
  role := .candidate
  outputDir := "o/../.."

theorem resolved_stable_outlier :
    isAbs "/w/./r" = true ∧ outlier.path ≠ "" ∧ outlier.outputDir ≠ "" ∧ isAbs outlier.path = false ∧
    (outlier.resolved "/w/./r").fault? = outlier.fault? ∧
    (outlier.resolved "/w/./r").resolved "s" = outlier.resolved "/w/./r" ∧
    StandsBelow "/w/./r" outlier.path "/bin/as" ∧ StandsBelow "/w/./r" outlier.outputDir "/w" := by
  have hroot : isAbs "/w/./r" = true := by decide
  have hpath : outlier.path ≠ "" := by decide
  have hdir : outlier.outputDir ≠ "" := by decide
  obtain ⟨hfault, hagain, hbelow⟩ := resolved_stable outlier
  obtain ⟨hstands, hstands', -⟩ := hbelow "/w/./r" hroot
  exact ⟨hroot, hpath, hdir, by decide, hfault _, hagain _ _ hroot, hstands hpath, hstands' hdir⟩

end Tool

end Crosscheck
