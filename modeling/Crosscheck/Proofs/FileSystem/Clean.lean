import Mathlib.Data.List.Induction
import Crosscheck.Proofs.FileSystem.Access

namespace Crosscheck.FileSystem

variable {fs : FileSystem} {follow : Location → String → Except Errno Spot} {through : Bool}

theorem walkWith_dot (loc : Location) (b : String) (bs : List String) :
    walkWith fs follow through loc ("." :: b :: bs) = walkWith fs follow through loc (b :: bs) := by
  rw [walkWith]
  cases he : fs.enter loc with
  | error e => rw [walkWith, he]
  | ok _ => rfl

theorem walkWith_dotdot {loc : Location} (he : fs.enter loc = .ok ()) (ss : List String) :
    walkWith fs follow through loc (".." :: ss) = walkWith fs follow through loc.dropLast ss := by
  rw [walkWith, he]
  rfl

/-- The names that are left of some steps from the root if they are read without a look at any
file. -/
def lexical (ss : List String) : Location := Path.reduce true (ss.filter (· != "."))

theorem lexical_dot (ss : List String) : lexical (ss ++ ["."]) = lexical ss := by
  simp [lexical]

theorem lexical_name (ss : List String) {s : String} (hdot : s ≠ ".") (hdotdot : s ≠ "..") :
    lexical (ss ++ [s]) = lexical ss ++ [s] := by
  rw [lexical, List.filter_append, List.filter_cons_of_pos (by simpa using hdot), List.filter_nil,
    Path.reduce_append_name _ _ hdotdot, lexical]

theorem lexical_dotdot (ss : List String) : lexical (ss ++ [".."]) = (lexical ss).dropLast := by
  have hclean : ".." ∉ (ss.filter (· != ".")).foldl (Path.step true) [] :=
    Path.dotdot_not_mem_foldl_step (by simp)
  rw [lexical, List.filter_append, List.filter_cons_of_pos (by decide), List.filter_nil,
    Path.reduce, List.foldl_append, lexical, Path.reduce]
  cases hup : (ss.filter (· != ".")).foldl (Path.step true) [] with
  | nil => rfl
  | cons top rest =>
    rw [hup] at hclean
    have htop : top ≠ ".." := fun h => hclean (by simp [h])
    simp [Path.step, htop]

theorem isName_of_mem_lexical {ss : List String} (hss : ∀ s ∈ ss, s ≠ "" ∧ '/' ∉ s.toList)
    {s : String} (h : s ∈ lexical ss) : Path.IsName s := by
  rw [lexical, Path.reduce, List.mem_reverse] at h
  have hdotdot : s ≠ ".." := by
    rintro rfl
    exact Path.dotdot_not_mem_foldl_step (by simp) h
  cases Path.mem_foldl_step h with
  | inl hmem =>
    rw [List.mem_filter, bne_iff_ne] at hmem
    exact ⟨(hss s hmem.1).1, hmem.2, hdotdot, (hss s hmem.1).2⟩
  | inr hnil => cases hnil

theorem names_eq_lexical {p : String} (hp : Path.isAbs p = true) :
    Path.names p = lexical (steps p) := by
  rw [Path.names, hp, Path.components_eq, lexical]

/-- A directory stands at a place itself, and not a link to one. -/
def Stands (fs : FileSystem) (loc : Location) : Prop :=
  ∃ mode, fs.lstat (Path.toLocation loc) = .ok (.dir mode) ∧ fs.canSearch (.dir mode) = true

theorem Stands.walkWith {loc : Location} (h : Stands fs loc) (hloc : ∀ s ∈ loc, Path.IsName s) :
    ∃ d, walkWith fs (followLink fs linkBudget) true [] loc = .ok (.node d) ∧
      fs.enter d = .ok () ∧
      walkWith fs (followLink fs linkBudget) true [] loc.dropLast = .ok (.node d.dropLast) := by
  obtain ⟨mode, hstat, hsearch⟩ := h
  obtain ⟨l, hspot, hl⟩ := lstat_eq_ok hstat
  have henter : fs.enter l = .ok () := enter_eq_ok.mpr ⟨mode, hl, hsearch⟩
  have hwalk := walkWith_of_spot hspot
  rw [stepsThrough_toLocation hloc, start, if_pos (Path.isAbs_toLocation loc)] at hwalk
  obtain rfl | ⟨front, y, rfl⟩ := List.eq_nil_or_concat loc
  · cases hwalk
    exact ⟨[], rfl, henter, rfl⟩
  · rw [List.concat_eq_append] at hloc hwalk ⊢
    obtain ⟨d, hfront, hlast⟩ := walkWith_append hwalk
    have hy := hloc y (by simp)
    have hnode : l = d ++ [y] ∧ fs.enter d = .ok () ∧ Plain y := by
      cases walk_of_walkWith hlast with
      | dot => exact absurd rfl hy.ne_dot
      | dotdot => exact absurd rfl hy.ne_dotdot
      | into he hs _ _ hw =>
        cases hw
        exact ⟨rfl, he, hs⟩
      | stay _ _ hg =>
        rw [hl] at hg
        cases hg
      | along _ _ _ ht => cases ht
    obtain ⟨rfl, he, hs⟩ := hnode
    refine ⟨d ++ [y], ?_, henter, by simpa using hfront⟩
    rw [walkWith_onward, hfront, onward, FileSystem.walkWith, he]
    simp [hs.1, hs.2.1, Nat.not_lt.mpr hs.2.2, hl, FileSystem.walkWith]

section Lexical

variable {ss : List String} (hss : ∀ s ∈ ss, s ≠ "" ∧ '/' ∉ s.toList)
  (hback : ∀ pre post, ss = pre ++ ".." :: post → Stands fs (lexical pre))

include hss hback

/-- If every step back is one out of a directory that stands there, then steps lead where the names
lead that are left of them. -/
theorem walkWith_lexical (b : String) (bs : List String) :
    walkWith fs (followLink fs linkBudget) true [] (ss ++ b :: bs) =
      walkWith fs (followLink fs linkBudget) true [] (lexical ss ++ b :: bs) := by
  induction ss using List.reverseRecOn generalizing b bs with
  | nil => rfl
  | append_singleton pre s ih =>
    have hpre : ∀ s ∈ pre, s ≠ "" ∧ '/' ∉ s.toList := fun s hs => hss s (by simp [hs])
    have hfront := ih hpre fun pre' post' h => hback pre' (post' ++ [s]) (by simp [h])
    rw [List.append_assoc, List.singleton_append, hfront]
    by_cases hdot : s = "."
    · subst s
      rw [lexical_dot, walkWith_onward, walkWith_onward]
      cases walkWith fs (followLink fs linkBudget) true [] (lexical pre) with
      | error e => rfl
      | ok sp =>
        cases sp with
        | gap d n => rfl
        | node d => exact walkWith_dot d b bs
    by_cases hdotdot : s = ".."
    · subst s
      obtain ⟨d, hd, henter, hlast⟩ := (hback pre [] rfl).walkWith fun s hs =>
        isName_of_mem_lexical hpre hs
      rw [lexical_dotdot, walkWith_onward, walkWith_onward, hd, hlast]
      exact walkWith_dotdot henter (b :: bs)
    · rw [lexical_name pre hdot hdotdot, List.append_assoc, List.singleton_append]

theorem walkWith_eq_lexical (hlast : ss.getLast? ≠ some ".") :
    walkWith fs (followLink fs linkBudget) true [] ss =
      walkWith fs (followLink fs linkBudget) true [] (lexical ss) := by
  obtain rfl | ⟨pre, s, rfl⟩ := List.eq_nil_or_concat ss
  · rfl
  rw [List.concat_eq_append] at *
  have hpre : ∀ s ∈ pre, s ≠ "" ∧ '/' ∉ s.toList := fun s hs => hss s (by simp [hs])
  have hdot : s ≠ "." := by simpa using hlast
  rw [walkWith_lexical hpre (fun pre' post' h => hback pre' (post' ++ [s]) (by simp [h]))]
  by_cases hdotdot : s = ".."
  · subst s
    obtain ⟨d, hd, henter, hup⟩ := (hback pre [] rfl).walkWith fun s hs =>
      isName_of_mem_lexical hpre hs
    rw [lexical_dotdot, walkWith_onward, hd, hup]
    exact walkWith_dotdot henter []
  · rw [lexical_name pre hdot hdotdot]

end Lexical

/-- A path that does not end in a slash or a dot and steps back only out of directories that stand
where they are named; if the system does not take it, then cleaning is no help. -/
structure Direct (fs : FileSystem) (p : String) : Prop where
  fault : pathFault? (Path.clean p) = pathFault? p
  ends : (stepsThrough p).getLast? ≠ some "."
  backs : ∀ pre post, steps p = pre ++ ".." :: post → Stands fs (lexical pre)

theorem Direct.fileExists_clean {p : String} (h : Direct fs p) (hp : Path.isAbs p = true) :
    fs.fileExists (Path.clean p) = fs.fileExists p := by
  have hsteps : stepsThrough p = steps p := by
    have hends := h.ends
    rw [stepsThrough] at hends ⊢
    split
    · rename_i hslash
      rw [if_pos hslash] at hends
      simp at hends
    · rfl
  have hnames : ∀ s ∈ Path.names p, Path.IsName s := fun s hs => Path.isName_of_mem_names hp hs
  have hwalk : walkWith fs (followLink fs linkBudget) true [] (steps p) =
      walkWith fs (followLink fs linkBudget) true [] (Path.names p) := by
    rw [names_eq_lexical hp]
    exact walkWith_eq_lexical (fun s hs => Path.mem_steps hs) h.backs (hsteps ▸ h.ends)
  have hspot : fs.spot true (Path.clean p) = fs.spot true p := by
    rw [spot, spot, h.fault, Path.clean_of_isAbs hp, stepsThrough_toLocation hnames, hsteps, start,
      start, if_pos (Path.isAbs_toLocation _), if_pos hp, hwalk]
  rw [fileExists, fileExists, stat, stat, hspot]

theorem direct_of_clean {p : String} (hp : Path.isAbs p = true) (h : Path.clean p = p) :
    Direct fs p := by
  have hnames : ∀ s ∈ Path.names p, Path.IsName s := fun s hs => Path.isName_of_mem_names hp hs
  rw [Path.clean_of_isAbs hp] at h
  rw [← h]
  refine ⟨by rw [Path.clean_toLocation hnames], ?_, ?_⟩
  · rw [stepsThrough_toLocation hnames]
    intro hlast
    exact (hnames "." (List.mem_of_getLast? hlast)).ne_dot rfl
  · intro pre post hpost
    rw [Path.steps_toLocation hnames] at hpost
    exact absurd rfl (hnames ".." (by simp [hpost])).ne_dotdot

end Crosscheck.FileSystem
