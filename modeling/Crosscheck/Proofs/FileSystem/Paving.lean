import Crosscheck.Proofs.FileSystem.Clearing
import Crosscheck.Proofs.FileSystem.Place
import Crosscheck.Proofs.FileSystem.Visits

namespace Crosscheck.FileSystem

variable {fs fs₁ fs' : FileSystem} {p : String} {rooted : Bool} {cs : List String}

theorem ancestors_go_fuel {fuel fuel' : Nat} {cs : List Char} (h : cs.length < fuel)
    (h' : cs.length < fuel') : ancestors.go fuel cs = ancestors.go fuel' cs := by
  induction fuel generalizing fuel' cs with
  | zero => cases h
  | succ fuel ih =>
    cases fuel' with
    | zero => cases h'
    | succ fuel' =>
      have hlen : ((Path.dropEndSlashes cs).reverse.dropWhile (· != '/')).length ≤ cs.length := by
        refine Nat.le_trans (List.dropWhile_sublist _).length_le ?_
        rw [Path.dropEndSlashes, List.reverse_reverse]
        exact Nat.le_trans (List.dropWhile_sublist _).length_le (by rw [List.length_reverse])
      rw [ancestors.go, ancestors.go]
      split
      · rfl
      · rename_i c parent hfront
        rw [hfront, List.length_cons] at hlen
        split
        · rfl
        · rw [@ih fuel' parent.reverse (by rw [List.length_reverse]; omega)
            (by rw [List.length_reverse]; omega)]

theorem toList_ofComponents_append (rooted : Bool) (cs : List String) (s : String) :
    (Path.ofComponents rooted (cs ++ [s])).toList =
      (if cs = [] then if rooted then ['/'] else []
        else (Path.ofComponents rooted cs).toList ++ ['/']) ++ s.toList := by
  by_cases h : cs = []
  · subst cs
    cases rooted <;> simp [Path.ofComponents]
  · have hi := String.intercalate_append_of_ne_nil (l := cs) (m := [s]) (s := "/") h (by simp)
    rw [String.intercalate_singleton] at hi
    rw [if_neg h, Path.ofComponents, hi]
    cases rooted <;> simp [Path.ofComponents, h]

theorem ancestors_ofComponents {s : String} (h : ∀ c ∈ cs ++ [s], c ≠ "" ∧ '/' ∉ c.toList) :
    ancestors (Path.ofComponents rooted (cs ++ [s])) =
      Path.ofComponents rooted (cs ++ [s]) ::
        if cs = [] then [] else ancestors (Path.ofComponents rooted cs) := by
  obtain ⟨hne, hslash⟩ := h s (by simp)
  have hs : s.toList ≠ [] := fun hnil => hne (String.ext hnil)
  have hend : ∀ front : List Char, Path.dropEndSlashes (front ++ s.toList) = front ++ s.toList := by
    intro front
    rw [Path.dropEndSlashes, List.reverse_eq_iff, List.reverse_append]
    cases hr : s.toList.reverse with
    | nil => exact absurd (List.reverse_eq_nil_iff.mp hr) hs
    | cons c rest =>
      have hc : c ≠ '/' := by
        rintro rfl
        exact hslash (by rw [← List.mem_reverse, hr]; simp)
      rw [List.cons_append, List.dropWhile_cons_of_neg (by simpa using hc)]
  have hfront : ∀ front : List Char, (front ++ s.toList).reverse.dropWhile (· != '/') =
      front.reverse.dropWhile (· != '/') := by
    intro front
    rw [List.reverse_append,
      List.dropWhile_append_of_pos (Path.bne_slash_of_mem_reverse hslash)]
  rw [ancestors, ancestors.go, toList_ofComponents_append, hend, hfront,
    ← toList_ofComponents_append, String.ofList_toList]
  by_cases hcs : cs = []
  · rw [if_pos hcs, if_pos hcs]
    cases rooted <;> rfl
  · have hbody : (Path.ofComponents rooted cs).toList ≠ [] := by
      intro hnil
      have hsteps := @Path.steps_ofComponents rooted cs (fun c hc => h c (by simp [hc])) (.inr hcs)
      rw [String.toList_eq_nil_iff.mp hnil, Path.steps_empty] at hsteps
      exact hcs hsteps.symm
    rw [if_neg hcs, if_neg hcs, List.reverse_append]
    simp only [List.reverse_singleton, List.singleton_append]
    rw [List.dropWhile_cons_of_neg (by simp)]
    simp only [List.isEmpty_reverse, List.isEmpty_iff, hbody, if_false, List.reverse_reverse]
    rw [ancestors]
    congr 1
    apply ancestors_go_fuel
    · rw [toList_ofComponents_append, if_neg hcs]
      simp only [List.length_append, List.length_singleton]
      omega
    · omega

theorem mem_ancestors {q : String} (hcs : ∀ c ∈ cs, c ≠ "" ∧ '/' ∉ c.toList)
    (hq : q ∈ ancestors (Path.ofComponents rooted cs)) :
    ∃ cs', cs' <+: cs ∧ q = Path.ofComponents rooted cs' := by
  induction cs using List.reverseRecOn with
  | nil =>
    have hself : ∀ rooted : Bool,
        ancestors (Path.ofComponents rooted []) = [Path.ofComponents rooted []] := by decide
    rw [hself, List.mem_singleton] at hq
    exact ⟨[], List.prefix_refl _, hq⟩
  | append_singleton cs s ih =>
    rw [ancestors_ofComponents hcs, List.mem_cons] at hq
    cases hq with
    | inl hq => exact ⟨cs ++ [s], List.prefix_refl _, hq⟩
    | inr hq =>
      split at hq
      · cases hq
      · obtain ⟨cs', hpre, hq'⟩ := ih (fun c hc => hcs c (by simp [hc])) hq
        exact ⟨cs', hpre.trans (List.prefix_append cs [s]), hq'⟩

theorem mem_of_steps_ofComponents {s : String} {front : List String}
    (hcs : ∀ c ∈ cs, c ≠ "" ∧ '/' ∉ c.toList)
    (h : steps (Path.ofComponents rooted cs) = front ++ [s]) (hs : Plain s) : s ∈ cs := by
  by_cases hc : rooted = true ∨ cs ≠ []
  · rw [Path.steps_ofComponents hcs hc] at h
    rw [h]
    simp
  · rw [not_or, Bool.not_eq_true, ne_eq, not_not] at hc
    have hdot : steps (Path.ofComponents false []) = [] ++ ["."] := by decide
    rw [hc.1, hc.2, hdot] at h
    exact absurd (List.append_inj_right' h rfl) (by simpa using hs.1.symm)

theorem mkdir_eq_ok (h : fs.mkdir p = .ok fs') :
    ∃ d s slash, fs.entry p = .ok ⟨d, .name s, slash⟩ ∧ fs.get? (d ++ [s]) = none ∧
      fs' = fs.set (d ++ [s]) (.dir newDirMode) := by
  rw [mkdir] at h
  split at h
  · cases h
  · rename_i d s slash he
    split at h
    · cases h
    rename_i hfree
    split at h
    · cases h
      exact ⟨d, s, slash, he, by simpa using hfree, rfl⟩
    · cases h
  · cases h

/-- Whatever is made for a list of paths stands where one of them leads, and has a name there. -/
theorem mkdirChain_made {ps : List String} {l : Location}
    (h : (fs.mkdirChain ps).1.get? l ≠ fs.get? l) :
    ∃ q ∈ ps, fs.lead false q = some l ∧ ∃ front s, steps q = front ++ [s] ∧ Plain s := by
  induction ps with
  | nil => exact absurd rfl h
  | cons p parents ih =>
    have hf := mkdirChain_furnished fs parents
    have hparents : (fs.mkdirChain parents).1.get? l ≠ fs.get? l →
        ∃ q ∈ p :: parents, fs.lead false q = some l ∧
          ∃ front s, steps q = front ++ [s] ∧ Plain s := by
      intro hne
      obtain ⟨q, hq, hrest⟩ := ih hne
      exact ⟨q, List.mem_cons_of_mem p hq, hrest⟩
    rw [mkdirChain] at h
    split at h
    · exact absurd rfl h
    split at h
    · rename_i fs₁ e hc
      rw [hc] at hparents
      exact hparents h
    rename_i fs₁ hc
    rw [hc] at hparents hf
    split at h
    · rename_i fs₂ hm
      obtain ⟨d, s, slash, he, _, rfl⟩ := mkdir_eq_ok hm
      by_cases hl : l = d ++ [s]
      · refine ⟨p, List.mem_cons_self, ?_, ?_⟩
        · rw [← lead_congr hf.terms hf.linkAt, entry_lead he, hl]
          rfl
        · obtain ⟨front, hsteps, _, _, hplain, _⟩ := entry_name he
          exact ⟨front, s, hsteps, hplain⟩
      · rw [get?_set, if_neg hl] at h
        exact hparents h
    · split at h
      · exact hparents h
      · exact hparents h

theorem place_ofComponents (hcs : ∀ c ∈ cs, c ≠ "" ∧ '/' ∉ c.toList) :
    fs.place (Path.ofComponents rooted cs) = cs.foldl stepTo (if rooted then [] else fs.cwd) := by
  have hstart : fs.start (Path.ofComponents rooted cs) = if rooted then [] else fs.cwd := by
    rw [start, Path.isAbs_ofComponents hcs]
  rw [place, hstart]
  by_cases h : rooted = true ∨ cs ≠ []
  · rw [Path.steps_ofComponents hcs h]
  · rw [not_or, Bool.not_eq_true, ne_eq, not_not] at h
    rw [h.1, h.2]
    rfl

theorem place_ancestor {q s : String} {front : List String} (hp : Path.clean p = p)
    (hq : q ∈ ancestors p) (hsteps : steps q = front ++ [s]) (hs : Plain s) :
    Path.clean q = q ∧ fs.place q <+: fs.place p := by
  have hnames : ∀ c ∈ Path.names p, c ≠ "" ∧ '/' ∉ c.toList := fun c hc =>
    ⟨(Path.mem_names hc).1, (Path.mem_names hc).2.2⟩
  rw [← hp, Path.clean_eq] at hq
  obtain ⟨cs, hcs, rfl⟩ := mem_ancestors hnames hq
  obtain ⟨ups, ns, hsplit, hups, hns, hroot⟩ := Path.names_split p
  have hparts : ∀ c ∈ cs, c ≠ "" ∧ '/' ∉ c.toList := fun c hc => hnames c (hcs.subset hc)
  -- the path ends in a name, so it goes on after the steps up
  obtain ⟨ns', rfl, hns'⟩ : ∃ ns', cs = ups ++ ns' ∧ ns' <+: ns := by
    rw [hsplit] at hcs
    cases List.prefix_or_prefix_of_prefix hcs (List.prefix_append ups ns) with
    | inl hpre =>
      have hmem := mem_of_steps_ofComponents hparts hsteps hs
      exact absurd (hups s (hpre.subset hmem)) hs.2.1
    | inr hmore =>
      obtain ⟨ns', rfl⟩ := hmore
      exact ⟨ns', rfl, (List.prefix_append_right_inj ups).mp hcs⟩
  have hnames' : ∀ s ∈ ns', Path.IsName s := fun s hs => hns s (hns'.subset hs)
  constructor
  · rw [Path.clean_eq, Path.isAbs_ofComponents hparts, Path.names_ofComponents
      (fun c hc => Path.mem_names (hcs.subset hc)),
      Path.reduce_split hups (fun s hs => (hnames' s hs).ne_dotdot) hroot]
  · rw [place_ofComponents hparts, ← place_names fs p, hsplit, List.foldl_append,
      List.foldl_append, foldl_stepTo_names hnames', foldl_stepTo_names hns, start]
    exact (List.prefix_append_right_inj _).mpr hns'

/-- Only directories on the way to a place are made for a clean path that meets no link. -/
theorem mkdirAll_made {l : Location} (hp : Path.clean p = p)
    (hl : ∀ x, x <+: fs.place p → fs.linkAt x = none)
    (h : (fs.mkdirAll p).1.get? l ≠ fs.get? l) : l <+: fs.place p := by
  obtain ⟨q, hq, hlead, front, s, hsteps, hplain⟩ := mkdirChain_made h
  obtain ⟨hclean, hpre⟩ := @place_ancestor fs p q s front hp hq hsteps hplain
  rw [lead_place hclean fun x hx _ => hl x (hx.trans hpre), Option.some.injEq] at hlead
  rw [← hlead]
  exact hpre

theorem lead_of_spot {through : Bool} {l : Location} (h : fs.spot through p = .ok (.node l)) :
    fs.lead through p = some l ∨ fs.lead true p = some l := by
  have hlead := leadFrom_of_walk (fun _ _ _ => rfl) (walk_of_spot h) trivial
  rw [stepsThrough] at hlead
  split at hlead
  · rw [leadFrom, leadWith_dot] at hlead
    exact .inr hlead
  · exact .inl hlead

theorem ancestors_cons (p : String) : ∃ parents, ancestors p = p :: parents := by
  rw [ancestors, ancestors.go, String.ofList_toList]
  exact ⟨_, rfl⟩

theorem mkdirAll_of_stat {n : Node} (h : fs.stat p = .ok n) : (fs.mkdirAll p).1 = fs := by
  obtain ⟨parents, hparents⟩ := ancestors_cons p
  rw [mkdirAll, hparents, mkdirChain, h]

theorem pathFault?_of_mkdirAll (h : fs.mkdirAll p = (fs', none)) : pathFault? p = none := by
  obtain ⟨parents, hparents⟩ := ancestors_cons p
  rw [mkdirAll, hparents, mkdirChain] at h
  split at h
  · rename_i n hstat
    obtain ⟨l, hs, _⟩ := stat_eq_ok hstat
    exact pathFault?_of_spot hs
  split at h
  · cases h
  split at h
  · rename_i fs₂ hm
    obtain ⟨d, s, slash, he, _⟩ := mkdir_eq_ok hm
    exact pathFault?_of_entry he
  split at h
  · rename_i n hlstat
    obtain ⟨l, hs, _⟩ := lstat_eq_ok hlstat
    exact pathFault?_of_spot hs
  · cases h

theorem mkdirAll_dir (h : fs.mkdirAll p = (fs', none)) :
    ∃ through l mode, fs.lead through p = some l ∧ fs'.get? l = some (.dir mode) := by
  have hdir : ∀ {n : Node}, n.isDir = true → ∃ mode, n = .dir mode := by
    intro n hn
    cases n with
    | dir mode => exact ⟨mode, rfl⟩
    | file | link | fifo => cases hn
  have hspot : ∀ {fs₁ : FileSystem} {through : Bool} {l : Location} {n : Node}, Furnished fs fs₁ →
      fs₁.spot through p = .ok (.node l) → fs₁.get? l = some n → n.isDir = true →
      ∃ through l mode, fs.lead through p = some l ∧ fs₁.get? l = some (.dir mode) := by
    intro fs₁ through l n hf hs hn hd
    obtain ⟨mode, rfl⟩ := hdir hd
    cases lead_of_spot hs with
    | inl hlead => exact ⟨through, l, mode, by rw [← lead_congr hf.terms hf.linkAt, hlead], hn⟩
    | inr hlead => exact ⟨true, l, mode, by rw [← lead_congr hf.terms hf.linkAt, hlead], hn⟩
  obtain ⟨parents, hparents⟩ := ancestors_cons p
  have hf := mkdirChain_furnished fs parents
  rw [mkdirAll, hparents, mkdirChain] at h
  split at h
  · rename_i n hstat
    obtain ⟨l, hs, hn⟩ := stat_eq_ok hstat
    split at h
    · rename_i hd
      cases h
      exact hspot (.refl fs) hs hn hd
    · cases h
  split at h
  · cases h
  rename_i fs₁ hc
  rw [hc] at hf
  split at h
  · rename_i fs₂ hm
    cases h
    obtain ⟨d, s, slash, he, _, rfl⟩ := mkdir_eq_ok hm
    refine ⟨false, d ++ [s], newDirMode, ?_, by rw [get?_set, if_pos rfl]⟩
    rw [← lead_congr hf.terms hf.linkAt, entry_lead he]
    rfl
  split at h
  · rename_i n hlstat
    obtain ⟨l, hs, hn⟩ := lstat_eq_ok hlstat
    split at h
    · rename_i hd
      cases h
      exact hspot hf hs hn hd
    · cases h
  · cases h

theorem isName_of_entry {d : Location} {s : String} {slash : Bool}
    (h : fs.entry p = .ok ⟨d, .name s, slash⟩) : Path.IsName s := by
  obtain ⟨front, hsteps, _, _, hplain, _⟩ := entry_name h
  have hs := Path.mem_steps (show s ∈ steps p by rw [hsteps]; simp)
  exact ⟨hs.1, hplain.1, hplain.2.1, hs.2⟩

theorem Sound.set_name {d : Location} {s : String} {mode : Nat} {n : Node} (h : fs.Sound)
    (hs : Path.IsName s) (hd : fs.get? d = some (.dir mode))
    (hnone : ∀ k, fs.get? (d ++ [s]) = some k → k.isDir = true → n.isDir = true) :
    (fs.set (d ++ [s]) n).Sound := by
  constructor
  · intro l m hm
    rw [get?_set] at hm
    split at hm
    · rename_i hl
      rw [hl]
      exact List.forall_mem_append.mpr ⟨h.named d _ hd, List.forall_mem_singleton.mpr hs⟩
    · exact h.named l m hm
  · intro l t m hm
    have hold : ∃ mode, fs.get? l = some (.dir mode) := by
      rw [get?_set] at hm
      split at hm
      · rename_i hl
        rw [(List.append_inj_left' hl rfl)]
        exact ⟨mode, hd⟩
      · exact h.parent l t m hm
    obtain ⟨mode', hmode'⟩ := hold
    rw [get?_set]
    split
    · rename_i hl
      have hn := hnone _ (hl ▸ hmode') rfl
      cases n with
      | dir mode => exact ⟨mode, rfl⟩
      | file | link | fifo => cases hn
    · exact ⟨mode', hmode'⟩

theorem mkdirChain_sound {ps : List String} (h : fs.Sound) : (fs.mkdirChain ps).1.Sound := by
  induction ps with
  | nil => exact h
  | cons p parents ih =>
    rw [mkdirChain]
    split
    · exact h
    split
    · rename_i fs₁ e hc
      rw [hc] at ih
      exact ih
    rename_i fs₁ hc
    rw [hc] at ih
    split
    · rename_i fs₂ hm
      obtain ⟨d, s, slash, he, _, rfl⟩ := mkdir_eq_ok hm
      obtain ⟨_, _, _, henter, _⟩ := entry_name he
      obtain ⟨mode, hmode, _⟩ := enter_eq_ok.mp henter
      exact ih.set_name (isName_of_entry he) hmode fun _ _ _ => rfl
    · split <;> exact ih

def walkAlong (fs : FileSystem) (rooted : Bool) (cs : List String) : Except Errno Spot :=
  walkWith fs (followLink fs linkBudget) true (if rooted then [] else fs.cwd) cs

theorem Retains.walkAlong {d : Location} (h : Retains fs fs')
    (hw : fs.walkAlong rooted cs = .ok (.node d)) : fs'.walkAlong rooted cs = .ok (.node d) := by
  have hcwd := cwd_of_terms h.terms
  rw [FileSystem.walkAlong] at hw ⊢
  rw [hcwd]
  exact h.walkFrom hw

section Last

variable {n : String} (hcs : ∀ c ∈ cs ++ [n], c ≠ "" ∧ '/' ∉ c.toList)

include hcs

theorem stepsThrough_ofComponents :
    steps (Path.ofComponents rooted (cs ++ [n])) = cs ++ [n] ∧
      stepsThrough (Path.ofComponents rooted (cs ++ [n])) = cs ++ [n] ∧
      (Path.ofComponents rooted (cs ++ [n])).toList.getLast? ≠ some '/' := by
  obtain ⟨hne, hslash⟩ := hcs n (by simp)
  have hsteps := @Path.steps_ofComponents rooted _ hcs (.inr (by simp))
  have hlast : (Path.ofComponents rooted (cs ++ [n])).toList.getLast? ≠ some '/' := by
    have hn : n.toList ≠ [] := fun hnil => hne (String.ext hnil)
    rw [toList_ofComponents_append, List.getLast?_append_of_ne_nil _ hn]
    exact fun h => hslash (List.mem_of_getLast? h)
  refine ⟨hsteps, ?_, hlast⟩
  rw [stepsThrough, hsteps]
  exact if_neg fun hend => hlast hend.1

theorem start_ofComponents (fs : FileSystem) :
    fs.start (Path.ofComponents rooted (cs ++ [n])) = if rooted then [] else fs.cwd := by
  rw [start, Path.isAbs_ofComponents hcs]

theorem walkWith_ofComponents (through : Bool) :
    walkWith fs (followLink fs linkBudget) through
        (fs.start (Path.ofComponents rooted (cs ++ [n])))
        (stepsThrough (Path.ofComponents rooted (cs ++ [n]))) =
      onward fs (followLink fs linkBudget) through [n] (fs.walkAlong rooted cs) := by
  rw [(stepsThrough_ofComponents hcs).2.1, start_ofComponents hcs, walkWith_onward]
  rfl

theorem ofComponents_ne_empty : Path.ofComponents rooted (cs ++ [n]) ≠ "" := by
  have hsteps := (@stepsThrough_ofComponents rooted cs n hcs).1
  intro hempty
  rw [hempty, Path.steps_empty] at hsteps
  simp at hsteps

/-- A path that the system does not take is not taken with more behind it either. -/
theorem pathFault?_ofComponents
    (h : pathFault? (Path.ofComponents rooted (cs ++ [n])) = none) :
    pathFault? (Path.ofComponents rooted cs) = none := by
  obtain rfl | ⟨front, s, rfl⟩ := List.eq_nil_or_concat cs
  · cases rooted <;> decide
  · rw [List.concat_eq_append] at *
    refine pathFault?_of_prefix h (ofComponents_ne_empty fun c hc =>
      hcs c (List.mem_append_left _ hc)) ?_
    rw [toList_ofComponents_append _ (front ++ [s]), if_neg (by simp), List.append_assoc]
    exact List.prefix_append _ _

theorem entry_ofComponents {d : Location}
    (hfault : pathFault? (Path.ofComponents rooted (cs ++ [n])) = none)
    (hw : fs.walkAlong rooted cs = .ok (.node d))
    (he : fs.enter d = .ok ()) (hdot : n ≠ ".") (hdotdot : n ≠ "..") :
    fs.entry (Path.ofComponents rooted (cs ++ [n])) =
      if n.utf8ByteSize > maxName then .error .nameTooLong else .ok ⟨d, .name n, false⟩ := by
  obtain ⟨hsteps, _, hlast⟩ := @stepsThrough_ofComponents rooted cs n hcs
  rw [walkAlong] at hw
  rw [entry, hfault, hsteps, List.reverse_append, List.reverse_singleton, List.singleton_append,
    start_ofComponents hcs]
  dsimp only
  rw [List.reverse_reverse, hw]
  dsimp only
  rw [he]
  dsimp only
  rw [if_neg hdot, if_neg hdotdot, decide_eq_false hlast]

theorem walkAlong_of_entry {d : Location} {s : String} {slash : Bool}
    (h : fs.entry (Path.ofComponents rooted (cs ++ [n])) = .ok ⟨d, .name s, slash⟩) :
    fs.walkAlong rooted cs = .ok (.node d) ∧ s = n := by
  obtain ⟨front, hsteps, hw, _⟩ := entry_name h
  rw [(stepsThrough_ofComponents hcs).1] at hsteps
  obtain ⟨rfl, hn⟩ := List.append_inj' hsteps rfl
  rw [start_ofComponents hcs] at hw
  exact ⟨hw, by simpa using hn.symm⟩

end Last

theorem entry_clean {d : Location} {s : String} {slash : Bool} (hp : Path.clean p = p)
    (h : fs.entry p = .ok ⟨d, .name s, slash⟩) : slash = false := by
  obtain ⟨front, hsteps, _, _, hplain, _⟩ := entry_name h
  have hslash : slash = decide (p.toList.getLast? = some '/') := by
    cases entry_cases h with
    | inl hroot =>
      obtain ⟨_, _, he⟩ := hroot
      cases he
    | inr hname =>
      obtain ⟨_, _, _, _, _, hslash, _⟩ := hname
      exact Bool.eq_iff_iff.mpr (by simpa using hslash)
  obtain hnames | ⟨_, _, hdot⟩ := Path.steps_clean p
  · have hparts : ∀ c ∈ front ++ [s], c ≠ "" ∧ '/' ∉ c.toList := by
      intro c hc
      rw [← hsteps, ← hp, hnames] at hc
      exact ⟨(Path.mem_names hc).1, (Path.mem_names hc).2.2⟩
    rw [hp, hsteps] at hnames
    rw [hslash, ← hp, Path.clean_eq, ← hnames]
    exact decide_eq_false (stepsThrough_ofComponents hparts).2.2
  · rw [hp, hsteps] at hdot
    have hs := List.append_inj_right' (show front ++ [s] = [] ++ ["."] from hdot) rfl
    exact absurd (List.singleton_inj.mp hs) hplain.1

/-- What making the directories of a clean path can come to: nothing is made, or a new and empty
directory stands at its end, or it leads nowhere still, or the system does not take it. -/
inductive Paves (fs : FileSystem) (rooted : Bool) (cs : List String) :
    FileSystem × Option OsError → Prop
  | kept (e : Option OsError) : Paves fs rooted cs (fs, e)
  | laid {fs' : FileSystem} {d : Location} (hw : fs'.walkAlong rooted cs = .ok (.node d))
      (hnew : fs'.get? d = some (.dir newDirMode))
      (hempty : ∀ s below, fs'.get? (d ++ s :: below) = none) : Paves fs rooted cs (fs', none)
  | broken {fs' : FileSystem} {e : OsError} {errno : Errno}
      (hw : fs'.walkAlong rooted cs = .error errno) : Paves fs rooted cs (fs', some e)
  | unnamed {fs' : FileSystem} {e : OsError} {errno : Errno}
      (h : pathFault? (Path.ofComponents rooted cs) = some errno) : Paves fs rooted cs (fs', some e)

theorem Furnished.retains (h : Furnished fs fs') : Retains fs fs' :=
  ⟨h.terms, fun _ _ hn => .of_eq (by rw [h.get?_some hn, hn])⟩

theorem retains_set_new {x : Location} {n : Node} (h : fs.get? x = none) :
    Retains fs (fs.set x n) := by
  refine ⟨rfl, fun l m hm => .of_eq ?_⟩
  rw [get?_set, if_neg]
  rintro rfl
  rw [h] at hm
  cases hm

theorem Paves.set {fs₀ : FileSystem} {d : Location} {n : String}
    (hw : fs.walkAlong rooted cs = .ok (.node d)) (he : fs.enter d = .ok ()) (hn : Plain n)
    (hnone : ∀ below, fs.get? (d ++ n :: below) = none) :
    Paves fs₀ rooted (cs ++ [n]) (fs.set (d ++ [n]) (.dir newDirMode), none) := by
  have hr : Retains fs (fs.set (d ++ [n]) (.dir newDirMode)) := retains_set_new (hnone [])
  have hd := hr.walkAlong hw
  refine .laid (d := d ++ [n]) ?_ (by rw [get?_set, if_pos rfl]) fun s below => ?_
  · rw [walkAlong] at hd ⊢
    rw [walkWith_onward, hd, onward, walkWith, hr.enter he]
    simp [hn.1, hn.2.1, Nat.not_lt.mpr hn.2.2, get?_set, walkWith]
  · rw [get?_set, if_neg, List.append_assoc]
    · exact hnone (s :: below)
    · intro h
      have hlen := congrArg List.length h
      simp at hlen

theorem mkdirChain_kept {ps : List String} (h : ∀ q ∈ ps, ∀ fs', fs.mkdir q ≠ .ok fs') :
    (fs.mkdirChain ps).1 = fs := by
  induction ps with
  | nil => rfl
  | cons p parents ih =>
    have hparents := ih fun q hq => h q (List.mem_cons_of_mem p hq)
    rw [mkdirChain]
    split
    · rfl
    split
    · rename_i fs₁ e hc
      rw [hc] at hparents
      exact hparents
    rename_i fs₁ hc
    rw [hc] at hparents
    cases hparents
    split
    · rename_i fs₂ hm
      exact absurd hm (h p List.mem_cons_self fs₂)
    · split <;> rfl

theorem mkdirChain_ups {ups : List String} (hups : ∀ s ∈ ups, s = "..") :
    (fs.mkdirChain (ancestors (Path.ofComponents rooted ups))).1 = fs := by
  have hparts : ∀ c ∈ ups, c ≠ "" ∧ '/' ∉ c.toList := by
    intro c hc
    rw [hups c hc]
    decide
  refine mkdirChain_kept fun q hq fs' hm => ?_
  obtain ⟨cs, hcs, rfl⟩ := mem_ancestors hparts hq
  obtain ⟨d, s, slash, he, _, _⟩ := mkdir_eq_ok hm
  obtain ⟨front, hsteps, _, _, hplain, _⟩ := entry_name he
  have hmem := mem_of_steps_ofComponents (fun c hc => hparts c (hcs.subset hc)) hsteps hplain
  exact hplain.2.1 (hups s (hcs.subset hmem))

theorem Paves.step {n : String} {parents : List String} (hs : fs.Sound)
    (hcs : ∀ c ∈ cs ++ [n], c ≠ "" ∧ '/' ∉ c.toList) (hn : Path.IsName n)
    (h : Paves fs rooted cs (fs.mkdirChain parents)) :
    Paves fs rooted (cs ++ [n])
      (fs.mkdirChain (Path.ofComponents rooted (cs ++ [n]) :: parents)) := by
  rw [mkdirChain]
  split
  · exact .kept _
  generalize fs.mkdirChain parents = above at h
  cases h with
  | kept e =>
    cases e with
    | some e => exact .kept _
    | none =>
      dsimp only
      split
      · rename_i fs₂ hm
        obtain ⟨d, s, slash, he, hnone, rfl⟩ := mkdir_eq_ok hm
        obtain ⟨_, _, _, henter, hplain, _⟩ := entry_name he
        obtain ⟨hw, rfl⟩ := walkAlong_of_entry hcs he
        refine Paves.set hw henter hplain fun below => ?_
        exact hs.none_below ⟨below, (List.append_cons d s below).symm⟩ hnone
      · split <;> exact .kept _
  | @laid fs₁ d hw hnew hempty =>
    have henter : fs₁.enter d = .ok () := enter_eq_ok.mpr ⟨_, hnew, canSearch_newDir fs₁⟩
    have hnone : fs₁.get? (d ++ [n]) = none := hempty n []
    dsimp only
    cases hfault : pathFault? (Path.ofComponents rooted (cs ++ [n])) with
    | some errno =>
      rw [mkdir, lstat, entry, FileSystem.spot, hfault]
      exact .unnamed hfault
    | none =>
    have hentry := entry_ofComponents hcs hfault hw henter hn.ne_dot hn.ne_dotdot
    by_cases hlong : n.utf8ByteSize > maxName
    · -- a name that is too long for the directory that was just made
      rw [if_pos hlong] at hentry
      have hwalk : ∀ through, onward fs₁ (followLink fs₁ linkBudget) through [n]
          (fs₁.walkAlong rooted cs) = .error .nameTooLong := by
        intro through
        rw [hw, onward, walkWith, henter]
        dsimp only
        rw [if_neg hn.ne_dot, if_neg hn.ne_dotdot, if_pos hlong]
      have hbroken : fs₁.walkAlong rooted (cs ++ [n]) = .error .nameTooLong := by
        rw [walkAlong, walkWith_onward]
        exact hwalk true
      obtain ⟨e, he⟩ := spot_eq_error ((walkWith_ofComponents hcs false).trans (hwalk false))
      rw [mkdir, hentry, lstat, he]
      exact .broken hbroken
    · rw [if_neg hlong] at hentry
      have hchange : fs₁.mayChange d = true :=
        mayChange_eq_true.mpr ⟨_, hnew, canWrite_newDir fs₁, canSearch_newDir fs₁⟩
      rw [mkdir, hentry]
      dsimp only
      rw [hnone, Option.isSome_none, if_neg (by simp), if_pos hchange]
      exact Paves.set hw henter ⟨hn.ne_dot, hn.ne_dotdot, Nat.le_of_not_lt hlong⟩ (hempty n)
  | @broken fs₁ e errno hw =>
    have hbroken : fs₁.walkAlong rooted (cs ++ [n]) = .error errno := by
      rw [walkAlong] at hw ⊢
      rw [walkWith_onward, hw]
      rfl
    exact .broken hbroken
  | @unnamed fs₁ e errno h =>
    cases hfault : pathFault? (Path.ofComponents rooted (cs ++ [n])) with
    | some errno => exact .unnamed hfault
    | none =>
      rw [pathFault?_ofComponents hcs hfault] at h
      cases h

theorem mkdirChain_paves {ups ns : List String} (hs : fs.Sound) (hups : ∀ s ∈ ups, s = "..")
    (hns : ∀ s ∈ ns, Path.IsName s) :
    Paves fs rooted (ups ++ ns)
      (fs.mkdirChain (ancestors (Path.ofComponents rooted (ups ++ ns)))) := by
  induction ns using List.reverseRecOn with
  | nil =>
    rw [List.append_nil]
    generalize hchain : fs.mkdirChain (ancestors (Path.ofComponents rooted ups)) = above
    obtain ⟨fs₁, e⟩ := above
    have hkept := @mkdirChain_ups fs rooted ups hups
    rw [hchain] at hkept
    cases hkept
    exact .kept e
  | append_singleton ns n ih =>
    have hn := hns n (by simp)
    have hcs : ∀ c ∈ (ups ++ ns) ++ [n], c ≠ "" ∧ '/' ∉ c.toList := by
      intro c hc
      rw [List.append_assoc, List.mem_append] at hc
      cases hc with
      | inl hc =>
        rw [hups c hc]
        decide
      | inr hc => exact ⟨(hns c hc).ne_empty, (hns c hc).no_slash⟩
    have habove : Paves fs rooted (ups ++ ns) (fs.mkdirChain
        (if ups ++ ns = [] then [] else ancestors (Path.ofComponents rooted (ups ++ ns)))) := by
      split
      · exact .kept none
      · exact ih fun s hs => hns s (by simp [hs])
    rw [← List.append_assoc, ancestors_ofComponents hcs]
    exact habove.step hs hcs hn

theorem mkdirAll_paves (hs : fs.Sound) (hp : Path.clean p = p) :
    Paves fs (Path.isAbs p) (Path.names p) (fs.mkdirAll p) := by
  obtain ⟨ups, ns, hsplit, hups, hns, _⟩ := Path.names_split p
  have hpath : p = Path.ofComponents (Path.isAbs p) (ups ++ ns) := by
    rw [← hsplit, ← Path.clean_eq, hp]
  have hpaves := @mkdirChain_paves fs (Path.isAbs p) ups ns hs hups hns
  rw [← hpath] at hpaves
  rw [hsplit, mkdirAll]
  exact hpaves

/-- Directories that cannot be made leave all that is found at the end of their path as it was. -/
theorem mkdirAll_tree {e : OsError} (hs : fs.Sound) (hp : Path.clean p = p)
    (h : fs.mkdirAll p = (fs', some e)) : fs'.tree p = fs.tree p := by
  have hpaves := mkdirAll_paves hs hp
  rw [h] at hpaves
  cases hpaves with
  | kept => rfl
  | @unnamed _ _ errno hfault =>
    rw [← Path.clean_eq, hp] at hfault
    funext below
    rw [tree, tree, spot, spot, hfault]
  | @broken _ _ errno hw =>
    have hafter : ∃ e', fs'.stat p = .error e' := by
      have hne : Path.names p ≠ [] := by
        intro hnil
        rw [hnil] at hw
        cases hw
      have hsteps : steps p = Path.names p := by
        obtain hsteps | ⟨hnil, _⟩ := Path.steps_clean p
        · rw [← hsteps, hp]
        · exact absurd hnil hne
      have hwalk : walkWith fs' (followLink fs' linkBudget) true (fs'.start p) (stepsThrough p) =
          .error errno := by
        rw [walkAlong, ← hsteps] at hw
        rw [stepsThrough]
        split
        · rw [walkWith_onward, start, hw]
          rfl
        · exact hw
      obtain ⟨e', he'⟩ := spot_eq_error hwalk
      exact ⟨e', by rw [stat, he']⟩
    have hbefore : ∃ e', fs.stat p = .error e' := by
      cases hstat : fs.stat p with
      | error e' => exact ⟨e', rfl⟩
      | ok n =>
        obtain ⟨l, hspot, hl⟩ := stat_eq_ok hstat
        have hr : Retains fs fs' := by
          have hf := mkdirAll_furnished fs p
          rw [h] at hf
          exact hf.retains
        obtain ⟨m, hm⟩ := stat_of_spot (hr.spot hspot)
        obtain ⟨e', he'⟩ := hafter
        rw [he'] at hm
        cases hm
    obtain ⟨e₁, h₁⟩ := hbefore
    obtain ⟨e₂, h₂⟩ := hafter
    rw [tree_eq_none h₁, tree_eq_none h₂]

end Crosscheck.FileSystem
