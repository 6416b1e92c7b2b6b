import Mathlib.Data.List.Induction
import Crosscheck.Proofs.FileSystem.Frame

namespace Crosscheck

namespace Path

open FileSystem

/-- The stack of components has its two dots at the bottom. -/
theorem foldl_step_split {rooted : Bool} {cs up : List String}
    (h : ∃ ns ups, up = ns ++ ups ∧ (∀ s ∈ ns, s ≠ "..") ∧ (∀ s ∈ ups, s = "..") ∧
      (rooted = true → ups = [])) :
    ∃ ns ups, cs.foldl (step rooted) up = ns ++ ups ∧ (∀ s ∈ ns, s ≠ "..") ∧
      (∀ s ∈ ups, s = "..") ∧ (rooted = true → ups = []) := by
  induction cs generalizing up with
  | nil => exact h
  | cons c rest ih =>
    apply ih
    obtain ⟨ns, ups, rfl, hns, hups, hroot⟩ := h
    by_cases hc : c = ".."
    · subst c
      cases ns with
      | nil =>
        cases ups with
        | nil =>
          cases rooted with
          | true => exact ⟨[], [], rfl, by simp, by simp, fun _ => rfl⟩
          | false => exact ⟨[], [".."], rfl, by simp, by simp, nofun⟩
        | cons u ups =>
          have hu : u = ".." := hups u (by simp)
          refine ⟨[], ".." :: u :: ups, by simp [step, hu], by simp, ?_, fun hr => ?_⟩
          · intro s hs
            cases List.mem_cons.mp hs with
            | inl hs => exact hs
            | inr hs => exact hups s hs
          · cases hroot hr
      | cons n ns =>
        have hn : n ≠ ".." := hns n (by simp)
        exact ⟨ns, ups, by simp [step, hn], fun s hs => hns s (by simp [hs]), hups, hroot⟩
    · refine ⟨c :: ns, ups, by simp [step, hc], fun s hs => ?_, hups, hroot⟩
      cases List.mem_cons.mp hs with
      | inl hs => exact hs ▸ hc
      | inr hs => exact hns s hs

/-- What is left of a path are steps up, unless it starts at the root, and then names. -/
theorem names_split (p : String) : ∃ ups ns, names p = ups ++ ns ∧ (∀ s ∈ ups, s = "..") ∧
    (∀ s ∈ ns, IsName s) ∧ (isAbs p = true → ups = []) := by
  obtain ⟨ns, ups, hup, hns, hups, hroot⟩ := @foldl_step_split (isAbs p) (components p) []
    ⟨[], [], rfl, by simp, by simp, fun _ => rfl⟩
  have hnames : names p = ups.reverse ++ ns.reverse := by
    rw [names, reduce, hup, List.reverse_append]
  refine ⟨ups.reverse, ns.reverse, hnames, by simpa using hups, fun s hs => ?_, fun h => ?_⟩
  · have hmem : s ∈ names p := by
      rw [hnames]
      exact List.mem_append_right _ hs
    obtain ⟨hne, hdot, hslash⟩ := mem_names hmem
    exact ⟨hne, hdot, hns s (List.mem_reverse.mp hs), hslash⟩
  · rw [hroot h, List.reverse_nil]

theorem reduce_split {rooted : Bool} {ups ns : List String} (hups : ∀ s ∈ ups, s = "..")
    (hns : ∀ s ∈ ns, s ≠ "..") (hroot : rooted = true → ups = []) :
    reduce rooted (ups ++ ns) = ups ++ ns := by
  induction ns using List.reverseRecOn with
  | append_singleton ns n ih =>
    rw [← List.append_assoc, reduce_append_name _ _ (hns n (by simp)),
      ih fun s hs => hns s (by simp [hs])]
  | nil =>
    rw [List.append_nil]
    induction ups using List.reverseRecOn with
    | nil => rfl
    | append_singleton ups u ih =>
      cases rooted with
      | true => exact absurd (hroot rfl) (by simp)
      | false =>
        have hfront : ∀ s ∈ ups, s = ".." := fun s hs => hups s (by simp [hs])
        have hfold : ups.foldl (step false) [] = ups.reverse := by
          rw [← List.reverse_eq_iff]
          exact ih hfront nofun
        rw [reduce, List.foldl_append, hfold, hups u (by simp)]
        cases hr : ups.reverse with
        | nil =>
          rw [List.reverse_eq_nil_iff.mp hr]
          rfl
        | cons v rest =>
          have hv : v = ".." := hfront v (by rw [← List.mem_reverse, hr]; simp)
          rw [← List.reverse_reverse ups, hr]
          simp [step, hv]

theorem names_ofComponents {rooted : Bool} {cs : List String}
    (hcs : ∀ c ∈ cs, c ≠ "" ∧ c ≠ "." ∧ '/' ∉ c.toList) :
    names (ofComponents rooted cs) = reduce rooted cs := by
  have hcs' : ∀ c ∈ cs, c ≠ "" ∧ '/' ∉ c.toList := fun c hc => ⟨(hcs c hc).1, (hcs c hc).2.2⟩
  rw [names, isAbs_ofComponents hcs', components_eq]
  by_cases h : rooted = true ∨ cs ≠ []
  · rw [steps_ofComponents hcs' h, List.filter_eq_self.mpr]
    intro c hc
    simpa using (hcs c hc).2.1
  · rw [not_or, Bool.not_eq_true, ne_eq, not_not] at h
    rw [h.1, h.2]
    decide

theorem isAbs_clean (p : String) : isAbs (clean p) = isAbs p :=
  isAbs_ofComponents fun _ hs => ⟨(mem_names hs).1, (mem_names hs).2.2⟩

theorem names_clean (p : String) : names (clean p) = names p := by
  obtain ⟨ups, ns, hsplit, hups, hns, hroot⟩ := names_split p
  rw [clean_eq, names_ofComponents fun _ hs => mem_names hs, hsplit]
  exact reduce_split hups (fun s hs => (hns s hs).ne_dotdot) hroot

@[simp] theorem clean_clean (p : String) : clean (clean p) = clean p := by
  rw [clean_eq (clean p), isAbs_clean, names_clean, clean_eq]

theorem clean_ne_empty (p : String) : clean p ≠ "" := by
  rw [clean_eq]
  intro h
  cases hp : isAbs p with
  | true =>
    rw [hp] at h
    exact toLocation_ne_empty _ h
  | false =>
    rw [hp] at h
    by_cases hn : names p = []
    · rw [hn] at h
      exact absurd h (by decide)
    · have hsteps := @steps_ofComponents false (names p)
        (fun s hs => ⟨(mem_names hs).1, (mem_names hs).2.2⟩) (Or.inr hn)
      rw [h, steps_empty] at hsteps
      exact hn hsteps.symm

theorem steps_clean (p : String) :
    steps (clean p) = names p ∨ names p = [] ∧ isAbs p = false ∧ steps (clean p) = ["."] := by
  by_cases h : isAbs p = true ∨ names p ≠ []
  · rw [clean_eq]
    exact .inl (steps_ofComponents (fun s hs => ⟨(mem_names hs).1, (mem_names hs).2.2⟩) h)
  · rw [not_or, Bool.not_eq_true, ne_eq, not_not] at h
    refine .inr ⟨h.2, h.1, ?_⟩
    rw [clean_eq, h.1, h.2]
    decide

theorem join_empty (d : String) (hd : d ≠ "") : join [d, ""] = clean d := by
  simp [join, hd]

@[simp] theorem clean_join_pair (d m : String) (hd : d ≠ "") :
    clean (join [d, m]) = join [d, m] := by
  by_cases hm : m = ""
  · rw [hm, join_empty d hd, clean_clean]
  · rw [join_pair hd hm, clean_clean]

end Path

namespace FileSystem

def stepTo (loc : Location) (s : String) : Location :=
  if s = "." then loc else if s = ".." then loc.dropLast else loc ++ [s]

/-- Where a path leads if it meets no link. -/
def place (fs : FileSystem) (p : String) : Location := (steps p).foldl stepTo (fs.start p)

variable {fs fs' : FileSystem} {loc : Location} {p : String}

theorem place_of_terms (ht : fs'.terms = fs.terms) (p : String) : fs'.place p = fs.place p := by
  rw [place, place, start, start, cwd_of_terms ht]

theorem stepTo_name {s : String} (hs : Path.IsName s) (loc : Location) :
    stepTo loc s = loc ++ [s] := by
  rw [stepTo, if_neg hs.ne_dot, if_neg hs.ne_dotdot]

theorem foldl_stepTo_names {ns : List String} (h : ∀ s ∈ ns, Path.IsName s) (loc : Location) :
    ns.foldl stepTo loc = loc ++ ns := by
  induction ns generalizing loc with
  | nil => exact (List.append_nil loc).symm
  | cons n ns ih =>
    rw [List.foldl_cons, stepTo_name (h n (by simp)), ih fun s hs => h s (by simp [hs]),
      ← List.append_cons]

theorem foldl_stepTo_step {rooted : Bool} {up : List String} {c : String}
    (hup : ∀ u ∈ up, u ≠ ".") (hroot : rooted = true → loc = []) :
    (Path.step rooted up c).reverse.foldl stepTo loc = stepTo (up.reverse.foldl stepTo loc) c := by
  by_cases hc : c = ".."
  · subst c
    cases up with
    | nil =>
      cases rooted with
      | true =>
        rw [hroot rfl]
        rfl
      | false => rfl
    | cons top rest =>
      by_cases htop : top = ".."
      · simp [Path.step, htop]
      · have hdot : top ≠ "." := hup top (by simp)
        simp [Path.step, htop, stepTo, hdot]
  · simp [Path.step, hc]

theorem foldl_stepTo_reduce {rooted : Bool} {cs : List String} (hcs : ∀ c ∈ cs, c ≠ ".")
    (hroot : rooted = true → loc = []) :
    (Path.reduce rooted cs).foldl stepTo loc = cs.foldl stepTo loc := by
  induction cs using List.reverseRecOn with
  | nil => rfl
  | append_singleton cs c ih =>
    have hfront : ∀ c ∈ cs, c ≠ "." := fun c hc => hcs c (by simp [hc])
    have hup : ∀ u ∈ cs.foldl (Path.step rooted) [], u ≠ "." := by
      intro u hu
      cases Path.mem_foldl_step hu with
      | inl hu => exact hfront u hu
      | inr hu => cases hu
    rw [Path.reduce, List.foldl_append, List.foldl_cons, List.foldl_nil,
      foldl_stepTo_step hup hroot, ← Path.reduce, ih hfront, List.foldl_append]
    rfl

/-- A path leads where the names lead that are left of it, if it meets no link. -/
theorem place_names (fs : FileSystem) (p : String) :
    (Path.names p).foldl stepTo (fs.start p) = fs.place p := by
  have hfilter : ∀ (ss : List String) (loc : Location),
      (ss.filter (· != ".")).foldl stepTo loc = ss.foldl stepTo loc := by
    intro ss
    induction ss with
    | nil => exact fun _ => rfl
    | cons s rest ih =>
      intro loc
      by_cases hs : s = "."
      · rw [List.filter_cons_of_neg (by simpa using hs), ih, List.foldl_cons, stepTo, if_pos hs]
      · rw [List.filter_cons_of_pos (by simpa using hs), List.foldl_cons, ih, List.foldl_cons]
  rw [Path.names, foldl_stepTo_reduce, Path.components_eq, hfilter, place]
  · rw [Path.components_eq]
    simp
  · intro hp
    rw [start, if_pos hp]

theorem place_clean (fs : FileSystem) (p : String) : fs.place (Path.clean p) = fs.place p := by
  rw [← place_names, Path.names_clean, start, Path.isAbs_clean, ← place_names fs p, start]

theorem place_join {d m : String} (hd : d ≠ "") (hm : '/' ∉ m.toList) :
    fs.place (Path.join [d, m]) = if m = "" then fs.place d else stepTo (fs.place d) m := by
  by_cases hne : m = ""
  · rw [if_pos hne, hne, Path.join_empty d hd, place_clean]
  · have habs : Path.isAbs (d ++ "/" ++ m) = Path.isAbs d := by
      rw [String.append_assoc, Path.isAbs_append hd]
    rw [if_neg hne, Path.join_pair hd hne, place_clean, place, start, habs, Path.steps_append_slash,
      Path.steps_of_no_slash hne hm, List.foldl_append, place, start]
    rfl

theorem place_join_name {d n : String} (hd : d ≠ "") (hn : Path.IsName n) :
    fs.place (Path.join [d, n]) = fs.place d ++ [n] := by
  rw [place_join hd hn.no_slash, if_neg hn.ne_empty, stepTo_name hn]

/-- A name joined to a directory stands in it; any other text without slashes leads to the directory
or to the one above. -/
theorem place_join_cases {d m : String} (hd : d ≠ "") (hm : '/' ∉ m.toList) :
    Path.IsName m ∨ fs.place (Path.join [d, m]) <+: fs.place d := by
  rw [place_join hd hm, stepTo]
  by_cases hempty : m = ""
  · rw [if_pos hempty]
    exact .inr (List.prefix_refl _)
  rw [if_neg hempty]
  by_cases hdot : m = "."
  · rw [if_pos hdot]
    exact .inr (List.prefix_refl _)
  rw [if_neg hdot]
  by_cases hdotdot : m = ".."
  · rw [if_pos hdotdot]
    exact .inr (List.dropLast_prefix _)
  · exact .inl ⟨hempty, hdot, hdotdot, hm⟩

section Lead

variable {links : Location → Option String} {follow : Location → String → Option Location}
  {through : Bool}

theorem leadWith_names {ns : List String} (hns : ∀ s ∈ ns, Path.IsName s)
    (hl : ∀ x, x <+: ns → x ≠ [] → x ≠ ns ∨ through = true → links (loc ++ x) = none) :
    leadWith links follow through loc ns = some (loc ++ ns) := by
  induction ns generalizing loc with
  | nil => rw [leadWith, List.append_nil]
  | cons n ns ih =>
    have hn := hns n (by simp)
    have hrest : ∀ s ∈ ns, Path.IsName s := fun s hs => hns s (by simp [hs])
    by_cases hlast : ns = [] ∧ through = false
    · rw [hlast.1, hlast.2]
      exact leadWith_name links follow loc hn.ne_dot hn.ne_dotdot
    · have hnone : links (loc ++ [n]) = none := by
        refine hl [n] (by simp) (by simp) ?_
        by_cases hns : ns = []
        · refine .inr ?_
          rw [← Bool.not_eq_false]
          exact fun ht => hlast ⟨hns, ht⟩
        · exact .inl fun he => hns (List.cons_injective.eq_iff.mp he.symm)
      rw [leadWith, if_neg hn.ne_dot, if_neg hn.ne_dotdot, hnone, List.append_cons loc n ns]
      refine ih hrest fun x hx hne hend => ?_
      rw [List.append_assoc]
      refine hl (n :: x) (List.cons_prefix_cons.mpr ⟨rfl, hx⟩) (by simp) ?_
      cases hend with
      | inl hend => exact .inl fun he => hend (List.cons_injective.eq_iff.mp he)
      | inr hend => exact .inr hend

theorem leadWith_ups {ups ns : List String} (hups : ∀ s ∈ ups, s = "..")
    (hns : ∀ s ∈ ns, Path.IsName s)
    (hl : ∀ x, x <+: ns → x ≠ [] → x ≠ ns ∨ through = true →
      links (ups.foldl stepTo loc ++ x) = none) :
    leadWith links follow through loc (ups ++ ns) = some ((ups ++ ns).foldl stepTo loc) := by
  induction ups generalizing loc with
  | nil =>
    rw [List.nil_append, foldl_stepTo_names hns]
    exact leadWith_names hns hl
  | cons u ups ih =>
    rw [hups u (by simp), List.cons_append, List.foldl_cons, leadWith, if_neg (by decide),
      if_pos rfl]
    rw [hups u (by simp)] at hl
    exact ih (fun s hs => hups s (by simp [hs])) hl

end Lead

/-- A clean path that meets no link leads where it says, and a link at its end need not be
followed. -/
theorem lead_place (hp : Path.clean p = p) {through : Bool}
    (hl : ∀ x, x <+: fs.place p → x ≠ fs.place p ∨ through = true → fs.linkAt x = none) :
    fs.lead through p = some (fs.place p) := by
  obtain hsteps | ⟨_, _, hsteps⟩ := Path.steps_clean p
  · rw [hp] at hsteps
    obtain ⟨ups, ns, hsplit, hups, hns, _⟩ := Path.names_split p
    have hplace : fs.place p = ups.foldl stepTo (fs.start p) ++ ns := by
      rw [place, hsteps, hsplit, List.foldl_append, foldl_stepTo_names hns]
    rw [lead, leadFrom, hsteps, hsplit, leadWith_ups hups hns, place, hsteps, hsplit]
    intro x hx _ hend
    refine hl _ (by rw [hplace]; exact (List.prefix_append_right_inj _).mpr hx) ?_
    rw [hplace]
    exact hend.imp_left fun hne he => hne (List.append_cancel_left he)
  · rw [hp] at hsteps
    rw [lead, leadFrom, place, hsteps]
    rfl

end FileSystem

end Crosscheck
