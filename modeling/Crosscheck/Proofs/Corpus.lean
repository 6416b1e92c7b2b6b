import Mathlib.Data.List.Nodup
import Crosscheck.Corpus
import Crosscheck.Proofs.FileSystem.Removal

namespace Crosscheck.Corpus

open FileSystem

def chosen (fs : FileSystem) (dir ext : String) (loc : Location) : List String :=
  (fs.children loc).filter fun name =>
    Path.ext name == ext && fs.isRegularFile (Path.join [dir, name])

/-- A directory lists its names in order, so that the cases need not be put in order. -/
theorem mergeSort_chosen (fs : FileSystem) (dir ext : String) (loc : Location) :
    (((chosen fs dir ext loc).map (caseOf dir ext)).mergeSort fun a b => decide (a.name ≤ b.name)) =
      (chosen fs dir ext loc).map (caseOf dir ext) := by
  apply List.mergeSort_of_pairwise
  refine List.pairwise_map.mpr (((children_pairwise fs loc).filter _).imp fun hle => ?_)
  exact decide_eq_true hle

def Opens (fs : FileSystem) (dir : String) (loc : Location) : Prop :=
  fs.spot true dir = .ok (.node loc) ∧
    ∃ mode, fs.get? loc = some (.dir mode) ∧ fs.canRead (.dir mode) = true

theorem discover_of_opens {fs : FileSystem} {dir ext : String} {loc : Location}
    (h : Opens fs dir loc) :
    discover fs dir ext =
      if (chosen fs dir ext loc).isEmpty then .error (.empty ext dir)
      else .ok ((chosen fs dir ext loc).map (caseOf dir ext)) := by
  obtain ⟨hs, mode, hg, hr⟩ := h
  have hstat : fs.stat dir = .ok (.dir mode) := by simp only [stat, hs, hg]
  have hread : fs.readDir dir = .ok (fs.children loc) := by
    simp only [readDir, openRead, hs, hg, hr, if_true]
  rw [discover, hstat]
  dsimp only
  rw [if_neg (by simp [Node.isDir]), hread]
  dsimp only
  rw [← chosen, mergeSort_chosen]

theorem discover_eq_ok {fs : FileSystem} {dir ext : String} {cases : List TestCase}
    (h : discover fs dir ext = .ok cases) :
    ∃ loc mode, fs.spot true dir = .ok (.node loc) ∧ fs.get? loc = some (.dir mode) ∧
      fs.canRead (.dir mode) = true ∧ cases = (chosen fs dir ext loc).map (caseOf dir ext) := by
  rw [discover] at h
  split at h
  · cases h
  rename_i n hn
  split at h
  · cases h
  split at h
  · cases h
  rename_i names hr
  rw [readDir] at hr
  split at hr
  · cases hr
  · rename_i loc mode ho
    cases hr
    obtain ⟨hs, hg, hc⟩ := openRead_eq_ok ho
    dsimp only at h
    split at h
    · cases h
    cases h
    exact ⟨loc, mode, hs, hg, hc, mergeSort_chosen fs dir ext loc⟩
  · cases hr

theorem discover_ne_nil {fs : FileSystem} {dir ext : String} {cases : List TestCase}
    (h : discover fs dir ext = .ok cases) : cases ≠ [] := by
  rw [discover] at h
  split at h
  · cases h
  split at h
  · cases h
  split at h
  · cases h
  dsimp only at h
  split at h
  · cases h
  · rename_i hchosen
    cases h
    rw [ne_eq, ← List.length_eq_zero_iff, List.length_mergeSort, List.length_map,
      List.length_eq_zero_iff, ← List.isEmpty_iff]
    exact hchosen

theorem mem_discover {fs : FileSystem} {dir ext : String} {cases : List TestCase}
    (h : discover fs dir ext = .ok cases) {test : TestCase} (ht : test ∈ cases) :
    ∃ loc name, fs.spot true dir = .ok (.node loc) ∧ test = caseOf dir ext name ∧
      (fs.get? (loc ++ [name])).isSome = true ∧ Path.ext name = ext ∧
      fs.isRegularFile test.path = true := by
  obtain ⟨loc, mode, hs, _, _, rfl⟩ := discover_eq_ok h
  obtain ⟨name, hname, rfl⟩ := List.mem_map.mp ht
  rw [chosen, List.mem_filter, Bool.and_eq_true, beq_iff_eq] at hname
  exact ⟨loc, name, hs, rfl, mem_children.mp hname.1, hname.2.1, hname.2.2⟩

theorem isName_of_isSome {fs : FileSystem} (hn : fs.Named) {loc : Location} {name : String}
    (h : (fs.get? (loc ++ [name])).isSome = true) : Path.IsName name := by
  obtain ⟨n, hg⟩ := Option.isSome_iff_exists.mp h
  exact hn _ n hg name (by simp)

section Named

variable {fs : FileSystem} (hn : fs.Named) {dir ext : String} {cases : List TestCase}
  (h : discover fs dir ext = .ok cases) {test : TestCase} (ht : test ∈ cases)

include hn h ht

theorem exists_isName_of_mem_discover :
    ∃ name, Path.IsName name ∧ Path.ext name = ext ∧ test = caseOf dir ext name := by
  obtain ⟨loc, name, _, htest, hsome, hext, _⟩ := mem_discover h ht
  exact ⟨name, isName_of_isSome hn hsome, hext, htest⟩

theorem stem_path_of_mem_discover : Path.stem test.path = test.base := by
  obtain ⟨name, hname, hext, rfl⟩ := exists_isName_of_mem_discover hn h ht
  rw [caseOf, Path.stem_join_name dir hname, hext]

theorem base_append_of_mem_discover : test.base ++ ext = test.name := by
  obtain ⟨name, hname, hext, rfl⟩ := exists_isName_of_mem_discover hn h ht
  change Path.trimEnd name ext ++ ext = name
  rw [← hext, Path.trimEnd_ext_append hname.no_slash]

theorem slash_not_mem_base : '/' ∉ test.base.toList := by
  obtain ⟨name, hname, _, rfl⟩ := exists_isName_of_mem_discover hn h ht
  exact fun hslash => hname.no_slash (Path.mem_trimEnd hslash)

theorem eq_of_base {test' : TestCase} (ht' : test' ∈ cases) (hb : test.base = test'.base) :
    test = test' := by
  have hname : test.name = test'.name := by
    rw [← base_append_of_mem_discover hn h ht, hb, base_append_of_mem_discover hn h ht']
  obtain ⟨_, _, _, rfl⟩ := exists_isName_of_mem_discover hn h ht
  obtain ⟨_, _, _, rfl⟩ := exists_isName_of_mem_discover hn h ht'
  exact congrArg (caseOf dir ext) hname

end Named

theorem discover_sorted {fs : FileSystem} {dir ext : String} {cases : List TestCase}
    (h : discover fs dir ext = .ok cases) : cases.Pairwise fun a b => a.name ≤ b.name := by
  obtain ⟨loc, mode, _, _, _, rfl⟩ := discover_eq_ok h
  exact List.pairwise_map.mpr ((children_pairwise fs loc).filter _)

theorem discover_nodup {fs : FileSystem} (hfs : fs.Distinct) {dir ext : String}
    {cases : List TestCase} (h : discover fs dir ext = .ok cases) : (cases.map (·.name)).Nodup := by
  obtain ⟨loc, mode, _, _, _, rfl⟩ := discover_eq_ok h
  have hn : ((chosen fs dir ext loc).map (caseOf dir ext)).map (·.name) = chosen fs dir ext loc := by
    rw [List.map_map]
    exact List.map_id'' (fun _ => rfl) _
  rw [hn]
  exact (hfs.children_nodup loc).filter _

theorem discover_nodup_base {fs : FileSystem} (hfs : fs.Distinct) (hn : fs.Named) {dir ext : String}
    {cases : List TestCase} (h : discover fs dir ext = .ok cases) : (cases.map (·.base)).Nodup := by
  have hname : cases.map (·.name) = (cases.map (·.base)).map (· ++ ext) := by
    rw [List.map_map]
    exact List.map_congr_left fun test ht => (base_append_of_mem_discover hn h ht).symm
  have hnodup := discover_nodup hfs h
  rw [hname] at hnodup
  exact List.Nodup.of_map _ hnodup

end Crosscheck.Corpus
