import Mathlib.Data.List.Basic
import Mathlib.Data.List.TakeWhile
import Crosscheck.FileSystem.Walk

namespace Crosscheck.Path

open FileSystem (steps)

/-- A name that something in a directory can have. -/
structure IsName (s : String) : Prop where
  ne_empty : s ≠ ""
  ne_dot : s ≠ "."
  ne_dotdot : s ≠ ".."
  no_slash : '/' ∉ s.toList

instance (s : String) : Decidable (IsName s) :=
  decidable_of_iff (s ≠ "" ∧ s ≠ "." ∧ s ≠ ".." ∧ '/' ∉ s.toList)
    ⟨fun h => ⟨h.1, h.2.1, h.2.2.1, h.2.2.2⟩, fun h => ⟨h.1, h.2, h.3, h.4⟩⟩

theorem splitAt_eq_splitOn (sep : Char) (cs : List Char) : splitAt sep cs = cs.splitOn sep := by
  induction cs with
  | nil => rfl
  | cons c rest ih =>
    rw [splitAt, List.splitOn_cons_eq_if_modifyHead, ih]
    by_cases h : c = sep
    · simp [h]
    · simp only [h, if_false, beq_iff_eq]
      cases hs : rest.splitOn sep with
      | nil => exact absurd hs (List.splitOn_ne_nil sep rest)
      | cons part more => rfl

theorem steps_append_slash (a b : String) : steps (a ++ "/" ++ b) = steps a ++ steps b := by
  have hs : (a ++ "/" ++ b).toList = a.toList ++ '/' :: b.toList := by simp
  simp only [steps, splitAt_eq_splitOn, hs, List.splitOn_append_cons_self, List.map_append,
    List.filter_append]

theorem steps_empty : steps "" = [] := by decide

theorem steps_slash_append (p : String) : steps ("/" ++ p) = steps p := by
  have h := steps_append_slash "" p
  rwa [steps_empty, String.empty_append, List.nil_append] at h

theorem steps_of_no_slash {s : String} (hne : s ≠ "") (hs : '/' ∉ s.toList) : steps s = [s] := by
  simp only [steps, splitAt_eq_splitOn, List.splitOn_eq_singleton hs, List.map_cons, List.map_nil,
    String.ofList_toList]
  simp [hne]

theorem IsName.steps {s : String} (h : IsName s) : steps s = [s] :=
  steps_of_no_slash h.ne_empty h.no_slash

theorem not_mem_of_mem_splitAt {sep : Char} {cs part : List Char} (h : part ∈ splitAt sep cs) :
    sep ∉ part := by
  induction cs generalizing part with
  | nil =>
    simp only [splitAt, List.mem_singleton] at h
    simp [h]
  | cons c rest ih =>
    rw [splitAt] at h
    split at h
    · rcases List.mem_cons.mp h with rfl | h
      · simp
      · exact ih h
    · rename_i hc
      split at h
      · rename_i first more hs
        rcases List.mem_cons.mp h with rfl | h
        · have hf : sep ∉ first := ih (by simp [hs])
          simp [hf, Ne.symm hc]
        · exact ih (by simp [hs, h])
      · simp only [List.mem_singleton] at h
        simp [h, Ne.symm hc]

theorem mem_steps {p s : String} (h : s ∈ steps p) : s ≠ "" ∧ '/' ∉ s.toList := by
  simp only [steps, List.mem_filter, List.mem_map, bne_iff_ne] at h
  obtain ⟨⟨cs, hcs, rfl⟩, hne⟩ := h
  refine ⟨hne, ?_⟩
  rw [String.toList_ofList]
  exact not_mem_of_mem_splitAt hcs

theorem isAbs_of_steps_eq_nil {p : String} (hne : p ≠ "") (h : steps p = []) : isAbs p = true := by
  cases hl : p.toList with
  | nil => exact absurd (String.toList_eq_nil_iff.mp hl) hne
  | cons c rest =>
    by_cases hc : c = '/'
    · simp [isAbs, hl, hc]
    · obtain ⟨part, more, hs⟩ : ∃ part more, splitAt '/' p.toList = (c :: part) :: more := by
        rw [hl, splitAt, if_neg hc]
        split
        · exact ⟨_, _, rfl⟩
        · exact ⟨_, _, rfl⟩
      rw [steps, hs] at h
      simp at h

theorem steps_intercalate {cs : List String} (h : ∀ c ∈ cs, c ≠ "" ∧ '/' ∉ c.toList) :
    steps ("/".intercalate cs) = cs := by
  induction cs with
  | nil => exact steps_empty
  | cons c rest ih =>
    have hc := h c (by simp)
    have hr := ih fun d hd => h d (by simp [hd])
    by_cases hn : rest = []
    · subst rest
      rw [String.intercalate_singleton, steps_of_no_slash hc.1 hc.2]
    · rw [String.intercalate_cons_of_ne_nil hn, steps_append_slash, hr,
        steps_of_no_slash hc.1 hc.2, List.singleton_append]

theorem components_eq (p : String) : components p = (steps p).filter (· != ".") := by
  simp only [components, steps, List.filter_filter, Bool.and_comm]

theorem components_append_slash (a b : String) :
    components (a ++ "/" ++ b) = components a ++ components b := by
  rw [components_eq, components_eq, components_eq, steps_append_slash, List.filter_append]

theorem IsName.components {s : String} (h : IsName s) : components s = [s] := by
  rw [components_eq, h.steps]
  simp [h.ne_dot]

theorem isAbs_append {a b : String} (h : a ≠ "") : isAbs (a ++ b) = isAbs a := by
  have hl : a.toList ≠ [] := fun he => h (String.toList_eq_nil_iff.mp he)
  simp only [isAbs, String.toList_append, List.head?_append_of_ne_nil _ hl]

theorem isAbs_slash_append (p : String) : isAbs ("/" ++ p) = true := by simp [isAbs]

theorem ne_empty_of_isAbs {p : String} (h : isAbs p = true) : p ≠ "" := by
  rintro rfl
  cases h

theorem isAbs_append_slash {d : String} (hd : isAbs d = true) (p : String) :
    isAbs (d ++ "/" ++ p) = true := by
  rw [String.append_assoc, isAbs_append (ne_empty_of_isAbs hd), hd]

theorem IsName.not_isAbs {s : String} (h : IsName s) : isAbs s = false := by
  have hs := h.no_slash
  cases hl : s.toList with
  | nil => simp [isAbs, hl]
  | cons c rest =>
    have hc : c ≠ '/' := by
      rintro rfl
      simp [hl] at hs
    simp [isAbs, hl, hc]

def names (p : String) : List String := reduce (isAbs p) (components p)

theorem clean_eq (p : String) : clean p = ofComponents (isAbs p) (names p) := rfl

theorem reduce_append_name (rooted : Bool) (cs : List String) {n : String} (h : n ≠ "..") :
    reduce rooted (cs ++ [n]) = reduce rooted cs ++ [n] := by
  simp [reduce, step, h]

theorem mem_foldl_step {rooted : Bool} {cs up : List String} {s : String}
    (h : s ∈ cs.foldl (step rooted) up) : s ∈ cs ∨ s ∈ up := by
  induction cs generalizing up with
  | nil => exact Or.inr h
  | cons c rest ih =>
    rw [List.foldl_cons] at h
    rcases ih h with h | h
    · exact Or.inl (List.mem_cons_of_mem _ h)
    · unfold step at h
      grind

theorem mem_names {p s : String} (h : s ∈ names p) : s ≠ "" ∧ s ≠ "." ∧ '/' ∉ s.toList := by
  rw [names, reduce, List.mem_reverse] at h
  rcases mem_foldl_step h with h | h
  · rw [components_eq, List.mem_filter, bne_iff_ne] at h
    exact ⟨(mem_steps h.1).1, h.2, (mem_steps h.1).2⟩
  · cases h

theorem dotdot_not_mem_foldl_step {cs up : List String} (h : ".." ∉ up) :
    ".." ∉ cs.foldl (step true) up := by
  induction cs generalizing up with
  | nil => exact h
  | cons c rest ih =>
    rw [List.foldl_cons]
    apply ih
    unfold step
    grind

theorem isName_of_mem_names {p s : String} (hp : isAbs p = true) (h : s ∈ names p) : IsName s := by
  obtain ⟨hne, hdot, hslash⟩ := mem_names h
  refine ⟨hne, hdot, ?_, hslash⟩
  rintro rfl
  rw [names, hp, reduce, List.mem_reverse] at h
  exact dotdot_not_mem_foldl_step (by simp) h

theorem join_pair {d n : String} (hd : d ≠ "") (hn : n ≠ "") : join [d, n] = clean (d ++ "/" ++ n) := by
  simp [join, hd, hn, String.append_assoc]

theorem IsName.names {n : String} (h : IsName n) : names n = [n] := by
  rw [Path.names, h.components, ← List.nil_append [n], reduce_append_name _ _ h.ne_dotdot]
  rfl

theorem IsName.clean {n : String} (h : IsName n) : clean n = n := by
  rw [clean_eq, h.not_isAbs, h.names]
  simp [ofComponents]

theorem names_append_slash_name {d n : String} (hd : d ≠ "") (hn : IsName n) :
    names (d ++ "/" ++ n) = names d ++ [n] := by
  have ha : isAbs (d ++ "/" ++ n) = isAbs d := by
    rw [String.append_assoc, isAbs_append hd]
  rw [names, ha, components_append_slash, hn.components, reduce_append_name _ _ hn.ne_dotdot, names]

theorem join_name (d : String) {n : String} (hn : IsName n) :
    join [d, n] = ofComponents (isAbs d) (names d ++ [n]) := by
  by_cases hd : d = ""
  · subst d
    have hj : join ["", n] = clean n := by simp [join, hn.ne_empty]
    have hnil : names "" = [] := by decide
    rw [hj, hn.clean, hnil]
    simp [ofComponents, isAbs]
  · rw [join_pair hd hn.ne_empty, clean_eq, names_append_slash_name hd hn, String.append_assoc,
      isAbs_append hd]

theorem isAbs_ofComponents {rooted : Bool} {cs : List String}
    (h : ∀ c ∈ cs, c ≠ "" ∧ '/' ∉ c.toList) : isAbs (ofComponents rooted cs) = rooted := by
  cases rooted with
  | true => simp only [ofComponents, if_true, isAbs_slash_append]
  | false =>
    cases cs with
    | nil => decide
    | cons c rest =>
      have hc := h c (by simp)
      have hh : ("/".intercalate (c :: rest)).toList.head? = c.toList.head? := by
        have hl : c.toList ≠ [] := fun he => hc.1 (String.toList_eq_nil_iff.mp he)
        cases rest with
        | nil => simp
        | cons d more => simp [List.head?_append_of_ne_nil _ hl]
      simp only [ofComponents, Bool.false_eq_true, if_false, List.isEmpty_cons, isAbs, hh,
        decide_eq_false_iff_not]
      intro he
      exact hc.2 (List.mem_of_mem_head? he)

theorem steps_ofComponents {rooted : Bool} {cs : List String}
    (h : ∀ c ∈ cs, c ≠ "" ∧ '/' ∉ c.toList) (hne : rooted = true ∨ cs ≠ []) :
    steps (ofComponents rooted cs) = cs := by
  cases rooted with
  | true => rw [ofComponents, if_pos rfl, steps_slash_append, steps_intercalate h]
  | false =>
    have hc : cs ≠ [] := hne.resolve_left Bool.false_ne_true
    simp only [ofComponents, Bool.false_eq_true, if_false, List.isEmpty_iff, hc]
    exact steps_intercalate h

theorem mem_names_append {d n s : String} (hn : IsName n) (h : s ∈ names d ++ [n]) :
    s ≠ "" ∧ '/' ∉ s.toList := by
  rcases List.mem_append.mp h with h | h
  · exact ⟨(mem_names h).1, (mem_names h).2.2⟩
  · rw [List.mem_singleton.mp h]
    exact ⟨hn.ne_empty, hn.no_slash⟩

theorem steps_join_name (d : String) {n : String} (hn : IsName n) :
    steps (join [d, n]) = names d ++ [n] := by
  rw [join_name d hn]
  exact steps_ofComponents (fun s hs => mem_names_append hn hs) (Or.inr (by simp))

theorem isAbs_join_name (d : String) {n : String} (hn : IsName n) : isAbs (join [d, n]) = isAbs d := by
  rw [join_name d hn]
  exact isAbs_ofComponents fun s hs => mem_names_append hn hs

theorem join_name_ne_empty (d : String) {n : String} (hn : IsName n) : join [d, n] ≠ "" := by
  intro h
  have hs := steps_join_name d hn
  rw [h, steps_empty] at hs
  exact absurd hs.symm (by simp)

/-- A directory, however it is written, and a name in it can be told from where the name stands. -/
theorem join_name_inj {d e n m : String} (hn : IsName n) (hm : IsName m)
    (h : join [d, n] = join [e, m]) : clean d = clean e ∧ n = m := by
  have habs : isAbs d = isAbs e := by rw [← isAbs_join_name d hn, h, isAbs_join_name e hm]
  have hsteps : names d ++ [n] = names e ++ [m] := by
    rw [← steps_join_name d hn, h, steps_join_name e hm]
  obtain ⟨hnames, hlast⟩ := List.append_inj' hsteps rfl
  refine ⟨?_, List.head_eq_of_cons_eq hlast⟩
  rw [clean_eq, clean_eq, habs, hnames]

def toLocation (loc : Location) : String := ofComponents true loc

section Absolute

variable {loc : Location} (hloc : ∀ s ∈ loc, IsName s)

theorem isAbs_toLocation (loc : Location) : isAbs (toLocation loc) = true := isAbs_slash_append _

include hloc

theorem steps_toLocation : steps (toLocation loc) = loc :=
  steps_ofComponents (fun s hs => ⟨(hloc s hs).ne_empty, (hloc s hs).no_slash⟩) (Or.inl rfl)

theorem names_toLocation : names (toLocation loc) = loc := by
  have hc : components (toLocation loc) = loc := by
    rw [components_eq, steps_toLocation hloc, List.filter_eq_self]
    intro s hs
    simp [(hloc s hs).ne_dot]
  have hr : ∀ up : List String, loc.foldl (step true) up = loc.reverse ++ up := by
    clear hc
    induction loc with
    | nil => simp
    | cons s rest ih =>
      intro up
      have hs := (hloc s (by simp)).ne_dotdot
      rw [List.foldl_cons, ih (fun t ht => hloc t (by simp [ht]))]
      simp [step, hs]
  rw [names, isAbs_toLocation, hc, reduce, hr, List.append_nil, List.reverse_reverse]

theorem clean_toLocation : clean (toLocation loc) = toLocation loc := by
  rw [clean_eq, isAbs_toLocation, names_toLocation hloc]
  rfl

end Absolute

theorem clean_of_isAbs {p : String} (h : isAbs p = true) : clean p = toLocation (names p) := by
  rw [clean_eq, h]
  rfl

theorem join_of_isAbs {d n : String} (hd : isAbs d = true) (hn : IsName n) :
    join [d, n] = toLocation (names d ++ [n]) := by
  rw [join_name d hn, hd]
  rfl

theorem abs_of_isAbs {cwd p : String} (h : isAbs p = true) : abs cwd p = toLocation (names p) := by
  rw [abs, if_pos h, clean_of_isAbs h]

theorem exists_join_eq {d : String} (hd : isAbs d = true) (p : String) :
    ∃ loc, (∀ s ∈ loc, IsName s) ∧ join [d, p] = toLocation loc := by
  have hne := ne_empty_of_isAbs hd
  have hclean : ∀ q, isAbs q = true → ∃ loc, (∀ s ∈ loc, IsName s) ∧ clean q = toLocation loc :=
    fun q hq => ⟨names q, fun s hs => isName_of_mem_names hq hs, clean_of_isAbs hq⟩
  by_cases hp : p = ""
  · have hjoin : join [d, p] = clean d := by simp [join, hne, hp]
    rw [hjoin]
    exact hclean d hd
  · rw [join_pair hne hp]
    exact hclean _ (isAbs_append_slash hd p)

theorem exists_abs_eq {cwd : String} (hcwd : isAbs cwd = true) (p : String) :
    ∃ loc, (∀ s ∈ loc, IsName s) ∧ abs cwd p = toLocation loc := by
  by_cases hp : isAbs p = true
  · exact ⟨names p, fun s hs => isName_of_mem_names hp hs, abs_of_isAbs hp⟩
  · rw [abs, if_neg hp]
    exact exists_join_eq hcwd p

theorem toLocation_append (loc : Location) (n : String) :
    toLocation (loc ++ [n]) = (if loc = [] then "" else toLocation loc) ++ "/" ++ n := by
  by_cases h : loc = []
  · simp [h, toLocation, ofComponents]
  · simp only [h, if_false, toLocation, ofComponents, if_true]
    rw [String.intercalate_append_of_ne_nil h (by simp), String.intercalate_singleton]
    simp [String.append_assoc]

theorem toLocation_prefix {loc loc' : Location} (h : loc <+: loc') :
    (toLocation loc).toList <+: (toLocation loc').toList := by
  obtain ⟨rest, rfl⟩ := h
  induction rest generalizing loc with
  | nil => simp
  | cons n rest ih =>
    have hfirst : (toLocation loc).toList <+: (toLocation (loc ++ [n])).toList := by
      rw [toLocation_append]
      by_cases he : loc = []
      · simp [he, toLocation, ofComponents]
      · simp [he]
    rw [List.append_cons]
    exact hfirst.trans ih

section Last

variable {a n : String} (hn : '/' ∉ n.toList)

include hn

theorem bne_slash_of_mem_reverse : ∀ c ∈ n.toList.reverse, (c != '/') = true := by
  intro c hc
  rw [bne_iff_ne]
  rintro rfl
  exact hn (List.mem_reverse.mp hc)

theorem lastPart_of_no_slash : lastPart n.toList = n.toList := by
  rw [lastPart, List.takeWhile_eq_self_iff.mpr (bne_slash_of_mem_reverse hn), List.reverse_reverse]

theorem lastPart_append_slash : lastPart (a ++ "/" ++ n).toList = n.toList := by
  have hl : (a ++ "/" ++ n).toList.reverse = n.toList.reverse ++ '/' :: a.toList.reverse := by simp
  rw [lastPart, hl, List.takeWhile_append_of_pos (bne_slash_of_mem_reverse hn)]
  simp

theorem dir_append_slash : dir (a ++ "/" ++ n) = clean (a ++ "/") := by
  have hl : (a ++ "/" ++ n).toList.reverse = n.toList.reverse ++ '/' :: a.toList.reverse := by simp
  have hs : String.ofList ('/' :: a.toList.reverse).reverse = a ++ "/" := by
    apply String.toList_inj.mp
    simp
  rw [dir, hl, List.dropWhile_append_of_pos (bne_slash_of_mem_reverse hn)]
  simp only [List.dropWhile_cons, bne_self_eq_false, Bool.false_eq_true, if_false, hs]

theorem ext_of_no_slash : ext n = String.ofList (extOf n.toList) := by
  rw [ext, lastPart_of_no_slash hn]

theorem ext_append_slash : ext (a ++ "/" ++ n) = ext n := by
  rw [ext, lastPart_append_slash hn, ext_of_no_slash hn]

theorem base_append_slash (hne : n ≠ "") : base (a ++ "/" ++ n) = n := by
  have hempty : a ++ "/" ++ n ≠ "" := by
    intro he
    have h := congrArg String.toList he
    simp at h
  cases hc : n.toList.reverse with
  | nil => exact absurd (String.toList_eq_nil_iff.mp (List.reverse_eq_nil_iff.mp hc)) hne
  | cons c rest =>
    have hc' : (c == '/') = false := by
      have h := bne_slash_of_mem_reverse hn c (by simp [hc])
      simpa using h
    have hl : (a ++ "/" ++ n).toList.reverse = (c :: rest) ++ '/' :: a.toList.reverse := by
      simp [← hc]
    have hd : dropEndSlashes (a ++ "/" ++ n).toList = (a ++ "/" ++ n).toList := by
      rw [dropEndSlashes, hl, List.cons_append, List.dropWhile_cons, hc', ← List.cons_append, ← hl]
      simp
    rw [base, if_neg hempty, hd, lastPart_append_slash hn]
    cases hn' : n.toList with
    | nil => simp [hn'] at hc
    | cons d more => simp [← hn']

end Last

theorem clean_append_slash {a : String} (h : a ≠ "") : clean (a ++ "/") = clean a := by
  have hc : components (a ++ "/") = components a := by
    have h := components_append_slash a ""
    have he : components "" = [] := by decide
    rwa [String.append_empty, he, List.append_nil] at h
  rw [clean, clean, hc, isAbs_append h]

section Absolute

variable {loc : Location} {n : String} (hloc : ∀ s ∈ loc, IsName s) (hn : IsName n)

theorem toLocation_ne_empty (loc : Location) : toLocation loc ≠ "" :=
  ne_empty_of_isAbs (isAbs_toLocation loc)

include hloc hn in
theorem dir_toLocation : dir (toLocation (loc ++ [n])) = toLocation loc := by
  rw [toLocation_append, dir_append_slash hn.no_slash]
  by_cases h : loc = []
  · subst loc
    decide
  · rw [if_neg h, clean_append_slash (toLocation_ne_empty loc), clean_toLocation hloc]

include hn

theorem getLast?_toLocation (loc : Location) :
    (toLocation (loc ++ [n])).toList.getLast? ≠ some '/' := by
  have hne : n.toList ≠ [] := fun h => hn.ne_empty (String.ext h)
  rw [toLocation_append, String.toList_append, List.getLast?_append_of_ne_nil _ hne]
  exact fun h => hn.no_slash (List.mem_of_getLast? h)

theorem base_toLocation (loc : Location) : base (toLocation (loc ++ [n])) = n := by
  rw [toLocation_append, base_append_slash hn.no_slash hn.ne_empty]

theorem ext_toLocation (loc : Location) : ext (toLocation (loc ++ [n])) = ext n := by
  rw [toLocation_append, ext_append_slash hn.no_slash]

theorem stem_toLocation (loc : Location) : stem (toLocation (loc ++ [n])) = trimEnd n (ext n) := by
  rw [stem, base_toLocation hn, ext_toLocation hn]

end Absolute

theorem ext_append {b e : String} (hs : '/' ∉ (b ++ e).toList) (he : '.' ∈ e.toList) :
    ext (b ++ e) = ext e := by
  have hse : '/' ∉ e.toList := fun h => hs (by simp [h])
  have hdot : e.toList.reverse.takeWhile (· != '.') ≠ e.toList.reverse := by
    intro h
    have hall := List.takeWhile_eq_self_iff.mp h '.' (List.mem_reverse.mpr he)
    simp at hall
  have ht : (b ++ e).toList.reverse.takeWhile (· != '.') = e.toList.reverse.takeWhile (· != '.') := by
    rw [String.toList_append, List.reverse_append, List.takeWhile_append]
    rw [if_neg]
    intro hlen
    exact hdot ((List.takeWhile_prefix _).eq_of_length hlen)
  have hb : (b ++ e).toList.contains '.' = true := by simp [he]
  rw [ext_of_no_slash hs, ext_of_no_slash hse, extOf, extOf, ht, hb]
  simp [he]

section Absolute

variable {loc : Location} (hloc : ∀ s ∈ loc, IsName s)

include hloc

theorem join_toLocation {n : String} (hn : IsName n) :
    join [toLocation loc, n] = toLocation (loc ++ [n]) := by
  rw [join_of_isAbs (isAbs_toLocation loc) hn, names_toLocation hloc]

omit hloc in
theorem join_toLocation_eq (loc : Location) {n : String} (hn : n ≠ "") :
    join [toLocation loc, n] =
      toLocation (reduce true (components (toLocation loc) ++ components n)) := by
  rw [join_pair (toLocation_ne_empty loc) hn, clean_eq, names, String.append_assoc,
    isAbs_append (toLocation_ne_empty loc), ← String.append_assoc, components_append_slash,
    isAbs_toLocation]
  rfl

theorem join_toLocation_dot : join [toLocation loc, "."] = toLocation loc := by
  have hc : components "." = [] := by decide
  have hn := names_toLocation hloc
  rw [names, isAbs_toLocation] at hn
  rw [join_toLocation_eq loc (by decide), hc, List.append_nil, hn]

theorem join_toLocation_dotdot : join [toLocation loc, ".."] = toLocation loc.dropLast := by
  have hc : components ".." = [".."] := by decide
  have hn := names_toLocation hloc
  rw [names, isAbs_toLocation, reduce] at hn
  have hr := congrArg List.reverse hn
  rw [List.reverse_reverse] at hr
  rw [join_toLocation_eq loc (by decide), hc, reduce, List.foldl_append, hr,
    List.foldl_cons, List.foldl_nil]
  congr 1
  cases hl : loc.reverse with
  | nil =>
    rw [List.reverse_eq_nil_iff.mp hl]
    rfl
  | cons top rest =>
    have htop : top ≠ ".." := (hloc top (List.mem_reverse.mp (by simp [hl]))).ne_dotdot
    have hback : loc = rest.reverse ++ [top] := by
      rw [← List.reverse_reverse loc, hl, List.reverse_cons]
    simp [step, htop, hback]

/-- What is joined to a path without a slash is a name, or leads nowhere but to the place itself or
the one above it. -/
theorem join_toLocation_cases {n : String} (hne : n ≠ "") (hs : '/' ∉ n.toList) :
    IsName n ∨ ∃ as, as <+: loc ∧ join [toLocation loc, n] = toLocation as := by
  by_cases hdot : n = "."
  · exact .inr ⟨loc, List.prefix_refl _, by rw [hdot, join_toLocation_dot hloc]⟩
  by_cases hdotdot : n = ".."
  · exact .inr ⟨loc.dropLast, List.dropLast_prefix _, by rw [hdotdot, join_toLocation_dotdot hloc]⟩
  · exact .inl ⟨hne, hdot, hdotdot, hs⟩

end Absolute

theorem abs_join_name {cwd : String} (hcwd : isAbs cwd = true) (d : String) {n : String}
    (hn : IsName n) :
    ∃ loc, (∀ s ∈ loc, IsName s) ∧ abs cwd (join [d, n]) = toLocation (loc ++ [n]) := by
  by_cases hd : isAbs d = true
  · refine ⟨names d, fun s hs => isName_of_mem_names hd hs, ?_⟩
    have hall : ∀ s ∈ names d ++ [n], IsName s :=
      List.forall_mem_append.mpr ⟨fun s hs => isName_of_mem_names hd hs, List.forall_mem_singleton.mpr hn⟩
    rw [join_of_isAbs hd hn, abs_of_isAbs (isAbs_toLocation _), names_toLocation hall]
  · have hrel : isAbs (join [d, n]) = false := by
      rw [isAbs_join_name d hn]
      simpa using hd
    have hcwd' := ne_empty_of_isAbs hcwd
    have hnames : names (cwd ++ "/" ++ join [d, n]) =
        reduce true (components cwd ++ (names d).filter (· != ".")) ++ [n] := by
      have hdot : [n].filter (· != ".") = [n] := by simp [hn.ne_dot]
      rw [names, String.append_assoc, isAbs_append hcwd', ← String.append_assoc,
        components_append_slash, hcwd, components_eq (join [d, n]), steps_join_name d hn,
        List.filter_append, hdot, ← List.append_assoc,
        reduce_append_name _ _ hn.ne_dotdot]
    have habs := isAbs_append_slash hcwd (join [d, n])
    refine ⟨reduce true (components cwd ++ (names d).filter (· != ".")), ?_, ?_⟩
    · intro s hs
      refine isName_of_mem_names habs ?_
      rw [hnames]
      exact List.mem_append_left _ hs
    · rw [abs, hrel, if_neg Bool.false_ne_true, join_pair hcwd' (join_name_ne_empty d hn),
        clean_of_isAbs habs, hnames]

theorem IsName.base {n : String} (hn : IsName n) : base n = n := by
  have hne : n.toList ≠ [] := fun h => hn.ne_empty (String.toList_eq_nil_iff.mp h)
  have hd : dropEndSlashes n.toList = n.toList := by
    cases hr : n.toList.reverse with
    | nil => exact absurd (List.reverse_eq_nil_iff.mp hr) hne
    | cons c rest =>
      have hc : c ≠ '/' := by
        rintro rfl
        exact hn.no_slash (List.mem_reverse.mp (by simp [hr]))
      rw [dropEndSlashes, hr, List.dropWhile_cons_of_neg (by simpa using hc), ← hr,
        List.reverse_reverse]
  rw [Path.base, if_neg hn.ne_empty, hd, lastPart_of_no_slash hn.no_slash]
  split
  · contradiction
  · exact String.ofList_toList

theorem stem_join_name (d : String) {n : String} (hn : IsName n) :
    stem (join [d, n]) = trimEnd n (ext n) := by
  rw [join_name d hn]
  cases isAbs d with
  | true => exact stem_toLocation hn (names d)
  | false =>
    by_cases hnil : names d = []
    · have ho : ofComponents false ([] ++ [n]) = n := by simp [ofComponents]
      rw [hnil, ho, stem, hn.base]
    · have ho : ofComponents false (names d ++ [n]) = "/".intercalate (names d) ++ "/" ++ n := by
        rw [ofComponents]
        simp only [Bool.false_eq_true, if_false, List.isEmpty_iff, List.append_eq_nil_iff,
          List.cons_ne_self, and_false]
        rw [String.intercalate_append_of_ne_nil hnil (by simp), String.intercalate_singleton]
      rw [ho, stem, base_append_slash hn.no_slash hn.ne_empty, ext_append_slash hn.no_slash]

theorem IsName.append {b e : String} (he : IsName e) (hb : '/' ∉ b.toList) : IsName (b ++ e) := by
  have hne : e.toList ≠ [] := fun h => he.ne_empty (String.toList_eq_nil_iff.mp h)
  have hsuffix : ∀ s : String, b ++ e = s → e.toList <:+ s.toList := by
    rintro _ rfl
    rw [String.toList_append]
    exact List.suffix_append _ _
  refine ⟨fun h => ?_, fun h => ?_, fun h => ?_, fun h => ?_⟩
  · exact hne (List.suffix_nil.mp (hsuffix "" h))
  · rcases List.suffix_cons_iff.mp (hsuffix "." h) with h | h
    · exact he.ne_dot (String.toList_inj.mp h)
    · exact hne (List.suffix_nil.mp h)
  · rcases List.suffix_cons_iff.mp (hsuffix ".." h) with h | h
    · exact he.ne_dotdot (String.toList_inj.mp h)
    · rcases List.suffix_cons_iff.mp h with h | h
      · exact he.ne_dot (String.toList_inj.mp h)
      · exact hne (List.suffix_nil.mp h)
  · rw [String.toList_append, List.mem_append] at h
    exact h.elim hb he.no_slash

theorem mem_trimEnd {s suffix : String} {c : Char} (h : c ∈ (trimEnd s suffix).toList) :
    c ∈ s.toList := by
  rw [trimEnd] at h
  split at h
  · rw [String.toList_ofList] at h
    exact List.mem_of_mem_take h
  · exact h

theorem trimEnd_append {s suffix : String} (h : suffix.toList <:+ s.toList) :
    trimEnd s suffix ++ suffix = s := by
  obtain ⟨front, hfront⟩ := h
  have hsuffix : suffix.toList.isSuffixOf s.toList = true :=
    List.isSuffixOf_iff_suffix.mpr ⟨front, hfront⟩
  apply String.ext
  rw [trimEnd, if_pos hsuffix, String.toList_append, String.toList_ofList, ← hfront,
    List.length_append, Nat.add_sub_cancel, List.take_left]

theorem extOf_suffix (cs : List Char) : extOf cs <:+ cs := by
  rw [extOf]
  split
  · rename_i hdot
    have hsplit := List.takeWhile_append_dropWhile (p := (· != '.')) (l := cs.reverse)
    cases hrest : cs.reverse.dropWhile (· != '.') with
    | nil =>
      have hall := List.dropWhile_eq_nil_iff.mp hrest '.' (by simpa using hdot)
      simp at hall
    | cons c rest =>
      have hc : c = '.' := by
        have hhead := List.head?_dropWhile_not (p := (· != '.')) (l := cs.reverse)
        rw [hrest] at hhead
        simpa using hhead
      rw [hrest, hc] at hsplit
      refine ⟨rest.reverse, ?_⟩
      have hcs := congrArg List.reverse hsplit
      simpa using hcs
  · exact List.nil_suffix

theorem trimEnd_ext_append {n : String} (hn : '/' ∉ n.toList) : trimEnd n (ext n) ++ ext n = n := by
  apply trimEnd_append
  rw [ext_of_no_slash hn, String.toList_ofList]
  exact extOf_suffix n.toList

theorem slash_not_mem_stem (d : String) {n : String} (hn : IsName n) :
    '/' ∉ (stem (join [d, n])).toList := by
  rw [stem_join_name d hn]
  exact fun h => hn.no_slash (mem_trimEnd h)

def IsFilePath (p : String) : Prop := ∃ d n, IsName n ∧ p = join [d, n]

theorem IsFilePath.slash_not_mem_stem_append {p e : String} (hp : IsFilePath p)
    (he : '/' ∉ e.toList) : '/' ∉ (stem p ++ e).toList := by
  obtain ⟨d, n, hn, rfl⟩ := hp
  rw [String.toList_append, List.mem_append]
  exact not_or.mpr ⟨slash_not_mem_stem d hn, he⟩

theorem IsFilePath.abs {p cwd : String} (hp : IsFilePath p) (hcwd : isAbs cwd = true) :
    ∃ loc n, (∀ s ∈ loc ++ [n], IsName s) ∧ abs cwd p = toLocation (loc ++ [n]) := by
  obtain ⟨d, n, hn, rfl⟩ := hp
  obtain ⟨loc, hloc, habs⟩ := abs_join_name hcwd d hn
  exact ⟨loc, n, List.forall_mem_append.mpr ⟨hloc, List.forall_mem_singleton.mpr hn⟩, habs⟩

end Crosscheck.Path
