import Crosscheck.FileSystem.Remove
import Crosscheck.Proofs.FileSystem.Access

namespace Crosscheck.FileSystem

def Named (fs : FileSystem) : Prop :=
  ∀ l n, fs.get? l = some n → ∀ s ∈ l, Path.IsName s

theorem Named.of_nodes {fs : FileSystem} (h : ∀ e ∈ fs.nodes, ∀ s ∈ e.1, Path.IsName s) :
    fs.Named := by
  intro l n hl
  exact h (l, n) (mem_nodes_of_get? hl)

/-- From the first file system to the second, only what stands at a place and below it went. -/
def Pruned (x : Location) (fs fs' : FileSystem) : Prop :=
  ∃ keep : Location → Bool, fs' = { fs with nodes := fs.nodes.filter fun e => keep e.1 } ∧
    ∀ l, ¬ x <+: l → keep l = true

namespace Pruned

variable {x y : Location} {fs fs₁ fs' : FileSystem}

theorem refl (x : Location) (fs : FileSystem) : Pruned x fs fs :=
  ⟨fun _ => true, by simp, fun _ _ => rfl⟩

theorem trans (h : Pruned x fs fs₁) (h' : Pruned x fs₁ fs') : Pruned x fs fs' := by
  obtain ⟨keep, rfl, hk⟩ := h
  obtain ⟨keep', rfl, hk'⟩ := h'
  refine ⟨fun l => keep l && keep' l, ?_, ?_⟩
  · simp [List.filter_filter, Bool.and_comm]
  · intro l hl
    simp [hk l hl, hk' l hl]

theorem mono (h : Pruned y fs fs') (hxy : x <+: y) : Pruned x fs fs' := by
  obtain ⟨keep, rfl, hk⟩ := h
  exact ⟨keep, rfl, fun l hl => hk l fun hy => hl (hxy.trans hy)⟩

theorem terms (h : Pruned x fs fs') : fs'.terms = fs.terms := by
  obtain ⟨keep, rfl, _⟩ := h
  rfl

theorem nextId (h : Pruned x fs fs') : fs'.nextId = fs.nextId := by
  obtain ⟨keep, rfl, _⟩ := h
  rfl

theorem nodes (h : Pruned x fs fs') : List.Sublist fs'.nodes fs.nodes := by
  obtain ⟨keep, rfl, _⟩ := h
  exact List.filter_sublist

theorem get?_of_not_prefix (h : Pruned x fs fs') {l : Location} (hl : ¬ x <+: l) :
    fs'.get? l = fs.get? l := by
  obtain ⟨keep, rfl, hk⟩ := h
  rw [get?_filter, if_pos (hk l hl)]

theorem within (h : Pruned x fs fs') : Within fs' fs := by
  refine ⟨h.terms, fun l n hg => ?_⟩
  obtain ⟨keep, rfl, _⟩ := h
  rw [get?_filter] at hg
  split at hg
  · exact hg
  · cases hg

theorem named (h : Pruned x fs fs') (hn : fs.Named) : fs'.Named :=
  fun l n hg => hn l n (h.within.get? l n hg)

theorem distinct (h : Pruned x fs fs') (hd : fs.Distinct) : fs'.Distinct :=
  List.Nodup.sublist (h.nodes.map _) hd

end Pruned

theorem erase_pruned (fs : FileSystem) (loc : Location) : Pruned loc fs (fs.erase loc) := by
  refine ⟨fun l => decide (l ≠ loc), rfl, fun l hl => ?_⟩
  rw [decide_eq_true_eq]
  rintro rfl
  exact hl (List.prefix_refl _)

theorem eraseTree_pruned (fs : FileSystem) (loc : Location) : Pruned loc fs (fs.eraseTree loc) := by
  refine ⟨fun l => decide (loc.isPrefixOf l = false), rfl, fun l hl => ?_⟩
  rw [decide_eq_true_eq, ← Bool.not_eq_true, List.isPrefixOf_iff_prefix]
  exact hl

theorem below_name (dir : Location) {s : String} (h : Path.IsName s) : below dir s = dir ++ [s] := by
  have hslash : s ≠ "/" := by
    rintro rfl
    exact h.no_slash (by decide)
  rw [below, if_neg hslash, if_neg h.ne_dot, if_neg h.ne_dotdot]

/-- The ways to clear a place, and whether it is gone: what is below goes first, name by name and as
far as it can, and all of it may be held back. -/
inductive Clears : FileSystem → Location → FileSystem → Bool → Prop
  | absent {fs : FileSystem} {loc : Location} (h : fs.get? loc = none) : Clears fs loc fs true
  | held (fs : FileSystem) (loc : Location) : Clears fs loc fs false
  | file {fs : FileSystem} {loc : Location} {n : Node} (hn : fs.get? loc = some n)
      (hd : n.isDir = false) : Clears fs loc (fs.erase loc) true
  | empty {fs : FileSystem} {loc : Location} (h : fs.isEmptyDir loc = true) :
      Clears fs loc (fs.erase loc) true
  | inside {fs fs₁ fs' : FileSystem} {loc : Location} {name : String} {ok gone : Bool}
      (h : Clears fs (loc ++ [name]) fs₁ ok) (h' : Clears fs₁ loc fs' gone) :
      Clears fs loc fs' gone

theorem Clears.pruned {fs fs' : FileSystem} {loc : Location} {gone : Bool}
    (h : Clears fs loc fs' gone) : Pruned loc fs fs' := by
  induction h with
  | absent | held => exact .refl _ _
  | file | empty => exact erase_pruned _ _
  | inside _ _ ih ih' => exact (ih.mono (List.prefix_append _ _)).trans ih'

theorem foldl_clears {loc : Location} {step : FileSystem → String → FileSystem × Option OsError}
    {names : List String} (hstep : ∀ fs, fs.Named → ∀ name ∈ names,
      Clears fs (loc ++ [name]) (step fs name).1 (step fs name).2.isNone)
    (acc : FileSystem × Option OsError) (hn : acc.1.Named) {fs' : FileSystem} {gone : Bool}
    (h : Clears (names.foldl
      (fun acc name => ((step acc.1 name).1, acc.2.or (step acc.1 name).2)) acc).1 loc fs' gone) :
    Clears acc.1 loc fs' gone := by
  induction names generalizing acc with
  | nil => exact h
  | cons name rest ih =>
    have hc := hstep acc.1 hn name (by simp)
    rw [List.foldl_cons] at h
    have hrest := ih (fun fs hf s hs => hstep fs hf s (by simp [hs]))
      ((step acc.1 name).1, acc.2.or (step acc.1 name).2) (hc.pruned.named hn) h
    exact .inside hc hrest

theorem clear_clears (fuel : Nat) {fs : FileSystem} (hn : fs.Named) (dir : Location)
    (base shown : String) :
    Clears fs (below dir base) (clear fuel fs dir base shown).1
      (clear fuel fs dir base shown).2.isNone := by
  induction fuel generalizing fs dir base shown with
  | zero => exact .held fs _
  | succ fuel ih =>
    rw [clear]
    dsimp only
    split
    · rename_i hg
      exact .absent hg
    rename_i n hg
    split
    · rename_i hd
      split
      · exact .file hg hd
      · exact .held fs _
    · have hnames : ∀ name ∈ fs.children (below dir base), Path.IsName name := by
        intro name hname
        obtain ⟨m, hm⟩ := Option.isSome_iff_exists.mp (mem_children.mp hname)
        exact hn _ m hm name (by simp)
      have hstep : ∀ fs' : FileSystem, fs'.Named → ∀ name ∈ fs.children (below dir base),
          Clears fs' (below dir base ++ [name])
            (clear fuel fs' (below dir base) name (shown ++ "/" ++ name)).1
            (clear fuel fs' (below dir base) name (shown ++ "/" ++ name)).2.isNone := by
        intro fs' hf name hname
        have h := ih hf (below dir base) name (shown ++ "/" ++ name)
        rwa [below_name _ (hnames name hname)] at h
      -- what comes after the names in the directory
      have hrest : ∀ {fs₂ : FileSystem} {gone : Bool}, Clears (if fs.canRead n = true then
          (fs.children (below dir base)).foldl
            (fun (acc : FileSystem × Option OsError) name =>
              ((clear fuel acc.1 (below dir base) name (shown ++ "/" ++ name)).1,
                acc.2.or (clear fuel acc.1 (below dir base) name (shown ++ "/" ++ name)).2))
            (fs, none)
          else (fs, some ⟨"openfdat", shown, .denied⟩)).1 (below dir base) fs₂ gone →
          Clears fs (below dir base) fs₂ gone := by
        intro fs₂ gone h
        split at h
        · exact foldl_clears hstep (fs, none) hn h
        · exact h
      split
      · rename_i hempty
        refine hrest (.empty ?_)
        by_contra hfull
        rw [if_neg hfull] at hempty
        simp only [ite_eq_iff, reduceCtorEq, and_false, or_false] at hempty
      · exact hrest (.held _ _)

theorem removeFrom_pruned {fs : FileSystem} (hn : fs.Named) (dir : Location) (base shown : String) :
    Pruned (below dir base) fs (fs.removeFrom dir base shown).1 := by
  rw [removeFrom]
  split
  · exact eraseTree_pruned fs _
  · exact (clear_clears _ hn dir base shown).pruned

theorem steps_dropSlashes (cs : List Char) :
    steps (String.ofList (cs.dropWhile (· == '/'))) = steps (String.ofList cs) := by
  induction cs with
  | nil => rfl
  | cons c rest ih =>
    by_cases hc : c = '/'
    · have hs : String.ofList (c :: rest) = "/" ++ String.ofList rest := by
        apply String.toList_inj.mp
        simp [hc]
      rw [hs, Path.steps_slash_append, ← ih]
      simp [hc]
    · simp [hc]

theorem steps_dropEndSlashes (cs : List Char) :
    steps (String.ofList (Path.dropEndSlashes cs)) = steps (String.ofList cs) := by
  have hrev : ∀ r : List Char, steps (String.ofList (r.dropWhile (· == '/')).reverse) =
      steps (String.ofList r.reverse) := by
    intro r
    induction r with
    | nil => rfl
    | cons c rest ih =>
      by_cases hc : c = '/'
      · have hs : String.ofList (c :: rest).reverse = String.ofList rest.reverse ++ "/" ++ "" := by
          apply String.toList_inj.mp
          simp [hc]
        rw [hs, Path.steps_append_slash, Path.steps_empty, List.append_nil, ← ih]
        simp [hc]
      · simp [hc]
  rw [Path.dropEndSlashes, hrev, List.reverse_reverse]

theorem lastPart_cases {cs : List Char} (hne : cs ≠ []) (hlast : cs.getLast? ≠ some '/') :
    Path.lastPart cs ≠ [] ∧ '/' ∉ Path.lastPart cs ∧
      (cs = Path.lastPart cs ∨ ∃ front, cs = front ++ '/' :: Path.lastPart cs) := by
  have hsplit := @List.takeWhile_append_dropWhile _ (fun c => c != '/') cs.reverse
  have hslash : '/' ∉ cs.reverse.takeWhile (· != '/') := by
    intro h
    have := List.mem_takeWhile_imp h
    simp at this
  have hpart : cs.reverse.takeWhile (· != '/') ≠ [] := by
    intro h
    cases hc : cs.reverse with
    | nil => exact hne (List.reverse_eq_nil_iff.mp hc)
    | cons c rest =>
      rw [hc] at h
      have hhead : c = '/' := by simpa using h
      apply hlast
      rw [← List.head?_reverse, hc, hhead]
      rfl
  refine ⟨by simpa [Path.lastPart] using hpart, by simpa [Path.lastPart] using hslash, ?_⟩
  cases hd : cs.reverse.dropWhile (· != '/') with
  | nil =>
    rw [hd, List.append_nil] at hsplit
    left
    rw [Path.lastPart, hsplit, List.reverse_reverse]
  | cons c rest =>
    have hc : c = '/' := by
      have h := List.head?_dropWhile_not (fun c => c != '/') cs.reverse
      rw [hd] at h
      simpa using h
    right
    refine ⟨rest.reverse, ?_⟩
    rw [hd, hc] at hsplit
    have h := congrArg List.reverse hsplit
    simpa [Path.lastPart] using h.symm

theorem ofList_append_slash (front part : List Char) :
    String.ofList (front ++ '/' :: part) = String.ofList front ++ "/" ++ String.ofList part := by
  apply String.toList_inj.mp
  simp

theorem getLast?_dropEndSlashes (cs : List Char) :
    (Path.dropEndSlashes cs).getLast? ≠ some '/' := by
  intro h
  rw [Path.dropEndSlashes, List.getLast?_reverse] at h
  have hn := List.head?_dropWhile_not (fun c => c == '/') cs.reverse
  rw [h] at hn
  simp at hn

theorem head?_dropEndSlashes {cs : List Char} (h : Path.dropEndSlashes cs ≠ []) :
    (Path.dropEndSlashes cs).head? = cs.head? := by
  have hp : Path.dropEndSlashes cs <+: cs := by
    have hs := List.reverse_prefix.mpr (List.dropWhile_suffix (l := cs.reverse) (· == '/'))
    rwa [List.reverse_reverse] at hs
  obtain ⟨rest, hr⟩ := hp
  conv_rhs => rw [← hr]
  rw [List.head?_append_of_ne_nil _ h]

theorem trimSlashes_cases {cs : List Char} (hne : cs ≠ []) :
    (trimSlashes cs = ['/'] ∧ steps (String.ofList cs) = [] ∧ cs.head? = some '/') ∨
      (trimSlashes cs ≠ [] ∧ (trimSlashes cs).getLast? ≠ some '/' ∧
        (trimSlashes cs).head? = cs.head? ∧
        steps (String.ofList (trimSlashes cs)) = steps (String.ofList cs)) := by
  have hsteps := steps_dropSlashes cs
  cases hd : cs.dropWhile (· == '/') with
  | nil =>
    left
    cases cs with
    | nil => exact absurd rfl hne
    | cons c rest =>
      have hc : c = '/' := by
        have h := List.dropWhile_eq_nil_iff.mp hd c (by simp)
        simpa using h
      rw [hd] at hsteps
      refine ⟨?_, hsteps.symm, by simp [hc]⟩
      rw [trimSlashes, hd, hc]
      rfl
  | cons c rest =>
    right
    have hc : c ≠ '/' := by
      have h := List.head?_dropWhile_not (fun c => c == '/') cs
      rw [hd] at h
      simpa using h
    rw [hd] at hsteps
    obtain ⟨body, hbody, hmem, hhead, hs⟩ : ∃ body,
        (if cs.head? = some '/' then '/' :: c :: rest else c :: rest) = body ∧ c ∈ body ∧
          body.head? = cs.head? ∧ steps (String.ofList body) = steps (String.ofList cs) := by
      by_cases hh : cs.head? = some '/'
      · have hslash : String.ofList ('/' :: c :: rest) = "/" ++ String.ofList (c :: rest) := by
          apply String.toList_inj.mp
          simp
        refine ⟨'/' :: c :: rest, by rw [if_pos hh], by simp, by simp [hh], ?_⟩
        rw [hslash, Path.steps_slash_append, hsteps]
      · have hsame : c :: rest = cs := by
          rw [← hd]
          cases cs with
          | nil => rfl
          | cons b more =>
            have hb : b ≠ '/' := by simpa using hh
            simp [hb]
        exact ⟨c :: rest, by rw [if_neg hh], by simp, by rw [hsame], hsteps⟩
    have hkept : Path.dropEndSlashes body ≠ [] := by
      intro h
      rw [Path.dropEndSlashes, List.reverse_eq_nil_iff] at h
      have hall := List.dropWhile_eq_nil_iff.mp h c (List.mem_reverse.mpr hmem)
      exact hc (by simpa using hall)
    have htrim : trimSlashes cs = Path.dropEndSlashes body := by
      rw [trimSlashes, hd]
      dsimp only
      rw [hbody]
      split
      · contradiction
      · rfl
    rw [htrim]
    exact ⟨hkept, getLast?_dropEndSlashes body, (head?_dropEndSlashes hkept).trans hhead,
      (steps_dropEndSlashes body).trans hs⟩

theorem leadWith_below (links : Location → Option String)
    (follow : Location → String → Option Location) (loc : Location) {s : String} (h : s ≠ "/") :
    leadWith links follow false loc [s] = some (below loc s) := by
  rw [below, if_neg h]
  by_cases hdot : s = "."
  · simp [leadWith, hdot]
  by_cases hdotdot : s = ".."
  · simp [leadWith, hdotdot]
  rw [leadWith_name _ _ _ hdot hdotdot, if_neg hdot, if_neg hdotdot]

theorem parentAndBase_cases {p : String} (hne : p ≠ "") :
    (parentAndBase p = (".", "/") ∧ steps p = [] ∧ Path.isAbs p = true) ∨
      ∃ parent base, parentAndBase p = (parent, base) ∧ base ≠ "/" ∧
        ((parent = "." ∧ steps p = [base] ∧ Path.isAbs p = false) ∨
          (steps p = steps parent ++ [base] ∧ Path.isAbs p = Path.isAbs parent)) := by
  have hcs : p.toList ≠ [] := fun he => hne (String.toList_eq_nil_iff.mp he)
  rcases trimSlashes_cases hcs with ⟨ht, hs, hh⟩ | ⟨hkept, hlast, hhead, hs⟩
  · rw [String.ofList_toList] at hs
    refine .inl ⟨by rw [parentAndBase, ht, if_pos rfl], hs, by simp [Path.isAbs, hh]⟩
  rw [String.ofList_toList] at hs
  have hroot : trimSlashes p.toList ≠ ['/'] := by
    intro he
    rw [he] at hlast
    exact hlast rfl
  obtain ⟨hpart, hslash, hsplit⟩ := lastPart_cases hkept hlast
  right
  rw [parentAndBase, if_neg hroot]
  generalize trimSlashes p.toList = cs at *
  generalize Path.lastPart cs = part at *
  have habs : Path.isAbs p = Path.isAbs (String.ofList cs) := by
    rw [Path.isAbs, Path.isAbs, String.toList_ofList, hhead]
  have hbase : steps (String.ofList part) = [String.ofList part] :=
    Path.steps_of_no_slash (by simpa using hpart) (by simpa using hslash)
  have hne' : String.ofList part ≠ "/" := by
    intro he
    exact hslash (by rw [← String.toList_ofList (l := part), he]; decide)
  rcases hsplit with rfl | ⟨front, rfl⟩
  · have hrel : Path.isAbs p = false := by
      rw [habs, Path.isAbs, String.toList_ofList, decide_eq_false_iff_not]
      intro hh
      exact hslash (List.mem_of_mem_head? hh)
    rw [Nat.sub_self, List.take_zero, if_pos rfl]
    exact ⟨_, _, rfl, hne', .inl ⟨rfl, hs.symm.trans hbase, hrel⟩⟩
  · have htake : (front ++ '/' :: part).take ((front ++ '/' :: part).length - part.length) =
        front ++ ['/'] := by
      have hl : (front ++ '/' :: part).length - part.length = (front ++ ['/']).length := by
        simp only [List.length_append, List.length_cons, List.length_nil]
        omega
      rw [hl, List.append_cons front '/' part, List.take_left]
    have hnil : front ++ ['/'] ≠ [] := by simp
    rw [ofList_append_slash] at hs habs
    rw [Path.steps_append_slash, hbase] at hs
    rw [htake, if_neg hnil]
    by_cases hf : front = []
    · subst front
      rw [List.nil_append, if_pos rfl]
      exact ⟨_, _, rfl, hne', .inr ⟨hs.symm, by rw [habs]; simp [Path.isAbs]⟩⟩
    · have hf' : front ++ ['/'] ≠ ['/'] := by simpa using hf
      rw [if_neg hf', List.dropLast_concat]
      refine ⟨_, _, rfl, hne', .inr ⟨hs.symm, ?_⟩⟩
      rw [habs, String.append_assoc, Path.isAbs_append (by simpa using hf)]

/-- Splitting off the last part of a path does not change where it leads. -/
theorem lead_parentAndBase {fs : FileSystem} {p : String} (hne : p ≠ "") {d : Location}
    (h : fs.lead true (parentAndBase p).1 = some d) :
    fs.lead false p = some (below d (parentAndBase p).2) := by
  rcases parentAndBase_cases hne with ⟨hp, hs, ha⟩ | ⟨parent, base, hp, hb, hcases⟩
  · rw [hp, below, if_pos rfl, lead, hs, start, if_pos ha]
    rfl
  rw [hp] at h ⊢
  dsimp only at h ⊢
  rcases hcases with ⟨rfl, hs, ha⟩ | ⟨hs, ha⟩
  · have hdot : steps "." = ["."] := by decide
    rw [lead, hdot, start, if_neg (by decide)] at h
    have hd : fs.cwd = d := Option.some.inj h
    rw [lead, hs, start, ha, if_neg (by decide), hd]
    exact leadWith_below _ _ _ hb
  · rw [lead, leadFrom, start] at h
    rw [lead, leadFrom, hs, leadWith_append _ _ _ _ _ (by simp), start, ha, h, Option.bind_some]
    exact leadWith_below _ _ _ hb

/-- Removing a path touches nothing but the place it leads to and what is below, and this place can
also be told from before some of the file system went. -/
theorem removeAll_pruned {fs fs₀ : FileSystem} (hw : Within fs fs₀) (hn : fs.Named) (p : String) :
    (fs.removeAll p).1 = fs ∨
      ∃ x, fs₀.lead false p = some x ∧ Pruned x fs (fs.removeAll p).1 := by
  rw [removeAll]
  split
  · exact .inl rfl
  rename_i hne
  split
  · exact .inl rfl
  split
  · rename_i fs' hr
    obtain ⟨dir, s, slash, n, he, _, _, _, rfl⟩ := remove_eq_ok hr
    exact .inr ⟨dir ++ [s], hw.entry_lead he, erase_pruned fs _⟩
  split
  · exact .inl rfl
  dsimp only
  split
  · split <;> exact .inl rfl
  rename_i dir n ho
  split
  · exact .inl rfl
  split
  · exact .inl rfl
  split
  · exact .inl rfl
  have hlead := lead_parentAndBase hne (hw.spot_lead (openRead_eq_ok ho).1)
  exact .inr ⟨_, hlead, removeFrom_pruned hn dir _ _⟩

end Crosscheck.FileSystem
