import Mathlib.Data.List.Basic
import Mathlib.Data.String.Basic
import Crosscheck.FileSystem.Basic

namespace Crosscheck

@[simp] theorem Node.isDir_updated (id : Nat) (f : ByteArray → ByteArray) (n : Node) :
    (n.updated id f).isDir = n.isDir := by
  cases n with
  | file i mode old => by_cases hi : i = id <;> simp [Node.updated, Node.isDir, hi]
  | dir | link | fifo => rfl

namespace FileSystem

theorem get?_set (fs : FileSystem) (loc l : Location) (n : Node) :
    (fs.set loc n).get? l = if l = loc then some n else fs.get? l := by
  by_cases h : l = loc
  · subst l; simp [get?, set]
  · have hne : ¬ loc = l := fun he => h he.symm
    simp only [get?, set, List.find?_cons, hne, decide_false, List.find?_filter, h, if_false]
    congr 2
    funext e
    by_cases he : e.1 = l <;> simp [he, h]

theorem get?_filter (fs : FileSystem) (keep : Location → Bool) (l : Location) :
    ({ fs with nodes := fs.nodes.filter fun e => keep e.1 } : FileSystem).get? l =
      if keep l then fs.get? l else none := by
  simp only [get?, List.find?_filter]
  by_cases hk : keep l = true
  · simp only [hk, if_true]
    congr 2
    funext e
    by_cases he : e.1 = l <;> simp [he, hk]
  · rw [if_neg hk, Option.map_eq_none_iff, List.find?_eq_none]
    intro e _ he
    rw [decide_eq_true_eq, decide_eq_true_eq] at he
    rw [he.2] at he
    exact hk he.1

theorem get?_erase (fs : FileSystem) (loc l : Location) :
    (fs.erase loc).get? l = if l = loc then none else fs.get? l := by
  rw [erase, get?_filter fs fun l => decide (l ≠ loc)]
  by_cases h : l = loc <;> simp [h]

theorem get?_eraseTree (fs : FileSystem) (loc l : Location) :
    (fs.eraseTree loc).get? l = if loc <+: l then none else fs.get? l := by
  rw [eraseTree, get?_filter fs fun l => decide (loc.isPrefixOf l = false)]
  by_cases h : loc <+: l
  · simp [h, List.isPrefixOf_iff_prefix.mpr h]
  · have hp : loc.isPrefixOf l = false := by
      rw [← Bool.not_eq_true, List.isPrefixOf_iff_prefix]
      exact h
    simp [h, hp]

theorem le_freshId (fs : FileSystem) : fs.nextId ≤ fs.freshId := by
  rw [freshId]
  induction fs.nodes with
  | nil => exact Nat.le_refl _
  | cons e rest ih => exact Nat.le_trans ih (Nat.le_max_left ..)

theorem numbersBelow_le_freshId {fs : FileSystem} {e : Location × Node} (h : e ∈ fs.nodes) :
    e.2.numbersBelow ≤ fs.freshId := by
  rw [freshId]
  generalize fs.nodes = nodes at h
  induction h with
  | head => exact Nat.le_max_right ..
  | tail _ _ ih => exact Nat.le_trans ih (Nat.le_max_left ..)

theorem lt_freshId {fs : FileSystem} {loc : Location} {id mode : Nat} {bytes : ByteArray}
    (h : fs.get? loc = some (.file id mode bytes)) : id < fs.freshId := by
  obtain ⟨e, he, hn⟩ := Option.map_eq_some_iff.mp h
  have hle := numbersBelow_le_freshId (List.mem_of_find?_eq_some he)
  rw [hn] at hle
  exact hle

theorem get?_addFile (fs : FileSystem) (loc l : Location) (mode : Nat) (bytes : ByteArray) :
    (fs.addFile loc mode bytes).get? l =
      if l = loc then some (.file fs.freshId mode bytes) else fs.get? l :=
  get?_set fs loc l _

theorem get?_update (fs : FileSystem) (id : Nat) (f : ByteArray → ByteArray) (l : Location) :
    (fs.update id f).get? l = (fs.get? l).map (Node.updated id f) := by
  simp only [get?, update, List.find?_map, Option.map_map]
  rfl

theorem get?_appendTo (fs : FileSystem) (id : Nat) (bytes : ByteArray) (l : Location) :
    (fs.appendTo id bytes).get? l = (fs.get? l).map (Node.updated id (· ++ bytes)) :=
  get?_update ..

/-- What holds on every path alike: where relative ones start, where the devices are, whether
permission bits count, and which copies fail. -/
def terms (fs : FileSystem) :
    Location × List Location × Bool × (Location → Location → Option Lapse) :=
  (fs.cwd, fs.mounts, fs.privileged, fs.lapses)

@[simp] theorem terms_set (fs : FileSystem) (loc : Location) (n : Node) :
    (fs.set loc n).terms = fs.terms := rfl

@[simp] theorem terms_erase (fs : FileSystem) (loc : Location) : (fs.erase loc).terms = fs.terms := rfl

@[simp] theorem terms_addFile (fs : FileSystem) (loc : Location) (mode : Nat) (bytes : ByteArray) :
    (fs.addFile loc mode bytes).terms = fs.terms := rfl

@[simp] theorem terms_update (fs : FileSystem) (id : Nat) (f : ByteArray → ByteArray) :
    (fs.update id f).terms = fs.terms := rfl

@[simp] theorem terms_appendTo (fs : FileSystem) (id : Nat) (bytes : ByteArray) :
    (fs.appendTo id bytes).terms = fs.terms := rfl

section Terms

variable {fs fs' : FileSystem} (h : fs'.terms = fs.terms)

include h

theorem cwd_of_terms : fs'.cwd = fs.cwd := congrArg (·.1) h

theorem deviceOf_of_terms (loc : Location) : fs'.deviceOf loc = fs.deviceOf loc := by
  have hm : fs'.mounts = fs.mounts := congrArg (·.2.1) h
  rw [deviceOf, deviceOf, hm]

theorem canRead_of_terms (n : Node) : fs'.canRead n = fs.canRead n := by
  have hp : fs'.privileged = fs.privileged := congrArg (·.2.2.1) h
  rw [canRead, canRead, hp]

theorem canWrite_of_terms (n : Node) : fs'.canWrite n = fs.canWrite n := by
  have hp : fs'.privileged = fs.privileged := congrArg (·.2.2.1) h
  rw [canWrite, canWrite, hp]

theorem canSearch_of_terms (n : Node) : fs'.canSearch n = fs.canSearch n := by
  have hp : fs'.privileged = fs.privileged := congrArg (·.2.2.1) h
  rw [canSearch, canSearch, hp]

theorem lapses_of_terms : fs'.lapses = fs.lapses := congrArg (·.2.2.2) h

end Terms

def Distinct (fs : FileSystem) : Prop := (fs.nodes.map (·.1)).Nodup

instance (fs : FileSystem) : Decidable fs.Distinct := inferInstanceAs (Decidable (List.Nodup _))

theorem get?_isSome_iff (fs : FileSystem) (loc : Location) :
    (fs.get? loc).isSome = true ↔ loc ∈ fs.nodes.map (·.1) := by
  simp [get?, List.find?_isSome]

theorem mem_nodes_of_get? {fs : FileSystem} {loc : Location} {n : Node} (h : fs.get? loc = some n) :
    (loc, n) ∈ fs.nodes := by
  obtain ⟨e, he, rfl⟩ := Option.map_eq_some_iff.mp h
  have hloc := List.find?_some he
  rw [decide_eq_true_iff] at hloc
  rw [← hloc]
  exact List.mem_of_find?_eq_some he

theorem child_eq_some_iff {d loc : Location} {s : String} :
    (match d.getLast? with
      | some name => if d.dropLast = loc then some name else none
      | none => none) = some s ↔ d = loc ++ [s] := by
  constructor
  · intro h
    split at h
    · rename_i last hlast
      split at h
      · rename_i hdrop
        cases h
        rw [← hdrop, List.dropLast_append_getLast? s hlast]
      · cases h
    · cases h
  · rintro rfl
    simp

theorem mem_children {fs : FileSystem} {loc : Location} {name : String} :
    name ∈ fs.children loc ↔ (fs.get? (loc ++ [name])).isSome = true := by
  rw [get?_isSome_iff, children]
  simp only [List.mem_mergeSort, List.mem_filterMap, List.mem_map]
  constructor
  · rintro ⟨e, he, hname⟩
    exact ⟨e, he, child_eq_some_iff.mp hname⟩
  · rintro ⟨e, he, hloc⟩
    exact ⟨e, he, child_eq_some_iff.mpr hloc⟩

theorem children_pairwise (fs : FileSystem) (loc : Location) :
    (fs.children loc).Pairwise (· ≤ ·) := by
  have h := @List.pairwise_mergeSort String (fun a b => decide (a ≤ b))
    (fun a b c hab hbc => by
      simp only [decide_eq_true_eq] at hab hbc ⊢
      exact le_trans hab hbc)
    (fun a b => by
      simp only [Bool.or_eq_true, decide_eq_true_eq]
      exact le_total a b)
  exact (h _).imp (by simp)

theorem Distinct.children_nodup {fs : FileSystem} (h : fs.Distinct) (loc : Location) :
    (fs.children loc).Nodup := by
  have hp : fs.nodes.Pairwise fun e e' => e.1 ≠ e'.1 := List.pairwise_map.mp h
  rw [children, (List.mergeSort_perm _ _).nodup_iff]
  apply hp.filterMap
  intro e e' hne name hn name' hn' heq
  apply hne
  rw [child_eq_some_iff.mp hn, child_eq_some_iff.mp hn', heq]

theorem isEmptyDir_iff {fs : FileSystem} {loc : Location} :
    fs.isEmptyDir loc = true ↔ ∀ name, fs.get? (loc ++ [name]) = none := by
  rw [isEmptyDir, List.isEmpty_iff, List.eq_nil_iff_forall_not_mem]
  simp [mem_children]

end FileSystem

end Crosscheck
