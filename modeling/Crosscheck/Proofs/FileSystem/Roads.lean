import Mathlib.Data.List.Induction
import Crosscheck.Proofs.FileSystem.Straight

namespace Crosscheck.FileSystem

variable {fs fs' : FileSystem} {loc : Location}

theorem toList_toLocation_append (loc : Location) (n : String) :
    (Path.toLocation (loc ++ [n])).toList =
      (if loc = [] then [] else (Path.toLocation loc).toList) ++ '/' :: n.toList := by
  rw [Path.toLocation_append]
  split <;> simp

theorem length_le_toLocation (loc : Location) :
    loc.length ≤ (Path.toLocation loc).toList.length := by
  induction loc using List.reverseRecOn with
  | nil => exact Nat.zero_le _
  | append_singleton loc n ih =>
    rw [toList_toLocation_append]
    by_cases h : loc = []
    · simp [h]
    · simp only [if_neg h, List.length_append, List.length_cons, List.length_nil]
      omega

theorem dropEndSlashes_toLocation (loc : Location) {n : String} (hn : Path.IsName n) :
    Path.dropEndSlashes (Path.toLocation (loc ++ [n])).toList =
      (Path.toLocation (loc ++ [n])).toList := by
  have hlast := Path.getLast?_toLocation hn loc
  rw [Path.dropEndSlashes, List.reverse_eq_iff]
  cases hr : (Path.toLocation (loc ++ [n])).toList.reverse with
  | nil => rfl
  | cons c rest =>
    rw [← List.head?_reverse, hr, List.head?_cons, ne_eq, Option.some.injEq] at hlast
    rw [List.dropWhile_cons_of_neg (by simpa using hlast)]

theorem ancestors_go_toLocation (fuel : Nat) (loc : Location) {n : String} (hn : Path.IsName n) :
    ancestors.go (fuel + 1) (Path.toLocation (loc ++ [n])).toList =
      Path.toLocation (loc ++ [n]) ::
        if loc = [] then [] else ancestors.go fuel (Path.toLocation loc).toList := by
  have hfront : (Path.toLocation (loc ++ [n])).toList.reverse.dropWhile (· != '/') =
      '/' :: (if loc = [] then [] else (Path.toLocation loc).toList).reverse := by
    rw [toList_toLocation_append, List.reverse_append, List.reverse_cons, List.append_assoc,
      List.dropWhile_append_of_pos (Path.bne_slash_of_mem_reverse hn.no_slash)]
    rfl
  rw [ancestors.go, dropEndSlashes_toLocation loc hn, hfront, String.ofList_toList]
  by_cases hl : loc = []
  · simp [hl]
  · have hne : (Path.toLocation loc).toList.reverse.isEmpty = false := by
      rw [List.isEmpty_reverse, List.isEmpty_eq_false_iff]
      exact fun he => Path.toLocation_ne_empty loc (String.ext he)
    simp only [if_neg hl, hne, Bool.false_eq_true, if_false, List.reverse_reverse]

/-- All that is missing on the way to a place can be made: what is there are directories that may be
searched, and the last of them may be written to. -/
structure Road (fs : FileSystem) (loc : Location) : Prop where
  root : (fs.get? []).isSome = true
  dirs : ∀ x, x <+: loc → fs.Only x fun n => n.isDir = true ∧ fs.canSearch n = true
  closed : ∀ x s, x ++ [s] <+: loc → fs.get? x = none → fs.get? (x ++ [s]) = none
  wide : ∀ x s, x ++ [s] <+: loc → fs.get? (x ++ [s]) = none → fs.Only x (fs.canWrite · = true)
  last : fs.Only loc (fs.canWrite · = true)

namespace Road

theorem straight (h : fs.Road loc) : fs.Straight loc := by
  intro x hx
  rw [linkAt_eq_none]
  intro target ht
  exact Bool.false_ne_true (h.dirs x hx _ ht).1

theorem above {s : String} (h : fs.Road (loc ++ [s])) (hnone : fs.get? (loc ++ [s]) = none) :
    fs.Road loc where
  root := h.root
  dirs x hx := h.dirs x (hx.trans (List.prefix_append loc [s]))
  closed x t hx := h.closed x t (hx.trans (List.prefix_append loc [s]))
  wide x t hx := h.wide x t (hx.trans (List.prefix_append loc [s]))
  last := h.wide loc s (List.prefix_refl _) hnone

theorem isSome_of_prefix (h : fs.Road loc) (hsome : (fs.get? loc).isSome = true) {x : Location}
    (hx : x <+: loc) : (fs.get? x).isSome = true := by
  obtain ⟨rest, rfl⟩ := hx
  by_contra hnone
  rw [Bool.not_eq_true, Option.isSome_eq_false_iff, Option.isNone_iff_eq_none] at hnone
  -- nothing can stand below a place where nothing is
  have hbelow : ∀ r, r <+: rest → fs.get? (x ++ r) = none := by
    intro r
    induction r using List.reverseRecOn with
    | nil =>
      intro _
      rwa [List.append_nil]
    | append_singleton r s ih =>
      intro hr
      rw [← List.append_assoc]
      refine h.closed (x ++ r) s ?_ (ih ((List.prefix_append r [s]).trans hr))
      rw [List.append_assoc]
      exact (List.prefix_append_right_inj x).mpr hr
  rw [hbelow rest (List.prefix_refl rest)] at hsome
  cases hsome

theorem passable (h : fs.Road loc) (hsome : (fs.get? loc).isSome = true) :
    fs.Passable loc ∧ fs.mayChange loc = true := by
  have hdir : ∀ x, x <+: loc → ∃ n, fs.get? x = some n ∧ n.isDir = true ∧ fs.canSearch n = true := by
    intro x hx
    obtain ⟨n, hn⟩ := Option.isSome_iff_exists.mp (h.isSome_of_prefix hsome hx)
    exact ⟨n, hn, h.dirs x hx n hn⟩
  refine ⟨fun x hx => ?_, ?_⟩
  · obtain ⟨n, hn, hd, hs⟩ := hdir x hx
    cases n with
    | dir mode => exact enter_eq_ok.mpr ⟨mode, hn, hs⟩
    | file | link | fifo => cases hd
  · obtain ⟨n, hn, _, hs⟩ := hdir loc (List.prefix_refl loc)
    exact mayChange_eq_true.mpr ⟨n, hn, h.last n hn, hs⟩

theorem congr (h : fs.Road loc) (ht : fs'.terms = fs.terms)
    (hg : ∀ x, x <+: loc → fs'.get? x = fs.get? x) : fs'.Road loc := by
  have honly : ∀ {x Q}, x <+: loc → fs.Only x Q → fs'.Only x Q := by
    intro x Q hx ho m hm
    rw [hg x hx] at hm
    exact ho m hm
  refine ⟨?_, fun x hx => ?_, fun x s hx hnone => ?_, fun x s hx hnone => ?_, ?_⟩
  · rw [hg [] (List.nil_prefix)]
    exact h.root
  · simp only [canSearch_of_terms ht]
    exact honly hx (h.dirs x hx)
  · have hx' : x <+: loc := (List.prefix_append x [s]).trans hx
    rw [hg _ hx]
    rw [hg x hx'] at hnone
    exact h.closed x s hx hnone
  · simp only [canWrite_of_terms ht]
    rw [hg _ hx] at hnone
    exact honly ((List.prefix_append x [s]).trans hx) (h.wide x s hx hnone)
  · simp only [canWrite_of_terms ht]
    exact honly (List.prefix_refl loc) h.last

end Road

theorem canSearch_newDir (fs : FileSystem) : fs.canSearch (.dir newDirMode) = true := by
  simp [canSearch, Node.ownerBits, newDirMode]

theorem canWrite_newDir (fs : FileSystem) : fs.canWrite (.dir newDirMode) = true := by
  simp [canWrite, Node.ownerBits, newDirMode]

/-- From the first file system to the second, the directories on a way were made. -/
structure Built (loc : Location) (fs fs' : FileSystem) : Prop extends Furnished fs fs' where
  way : ∀ x, x <+: loc → (fs'.get? x).isSome = true
  rest : ∀ l, ¬ l <+: loc → fs'.get? l = fs.get? l

/-- Making the directories on one way leaves every other way open. -/
theorem Built.road {way : Location} (hb : Built way fs fs') (h : fs.Road loc) : fs'.Road loc := by
  have hf := hb.toFurnished
  have hnone : ∀ l, fs'.get? l = none → fs.get? l = none := by
    intro l hl
    rcases hf.get? l with he | ⟨hn, _⟩
    · rw [← he, hl]
    · exact hn
  refine ⟨?_, fun x hx => ?_, fun x s hx hg => ?_, fun x s hx hg => ?_, ?_⟩
  · obtain ⟨n, hn⟩ := Option.isSome_iff_exists.mp h.root
    rw [hf.get?_some hn]
    rfl
  · simp only [canSearch_of_terms hf.terms]
    exact (h.dirs x hx).furnished hf ⟨rfl, canSearch_newDir fs⟩
  · have hoff : ¬ x ++ [s] <+: way := by
      intro hp
      have hx := hb.way x ((List.prefix_append x [s]).trans hp)
      rw [hg] at hx
      cases hx
    rw [hb.rest _ hoff]
    exact h.closed x s hx (hnone x hg)
  · simp only [canWrite_of_terms hf.terms]
    exact (h.wide x s hx (hnone _ hg)).furnished hf (canWrite_newDir fs)
  · simp only [canWrite_of_terms hf.terms]
    exact h.last.furnished hf (canWrite_newDir fs)

theorem Built.passable (hb : Built loc fs fs') (h : fs.Road loc) :
    fs'.Passable loc ∧ fs'.mayChange loc = true :=
  (hb.road h).passable (hb.way loc (List.prefix_refl loc))

theorem Built.append {s : String} (hb : Built loc fs fs')
    (hnone : fs.get? (loc ++ [s]) = none) :
    Built (loc ++ [s]) fs (fs'.set (loc ++ [s]) (.dir newDirMode)) := by
  have hlast : fs'.get? (loc ++ [s]) = none := by
    rw [hb.rest _ (not_prefix_of_append loc s), hnone]
  have hset : Furnished fs' (fs'.set (loc ++ [s]) (.dir newDirMode)) := by
    refine ⟨rfl, rfl, fun l => ?_⟩
    rw [get?_set]
    by_cases hl : l = loc ++ [s]
    · subst l
      exact .inr ⟨hlast, if_pos rfl⟩
    · exact .inl (if_neg hl)
  refine ⟨hb.toFurnished.trans hset, fun x hx => ?_, fun l hl => ?_⟩
  · rw [get?_set]
    split
    · rfl
    · rename_i hne
      exact hb.way x ((List.prefix_concat_iff.mp hx).resolve_left hne)
  · have hne : l ≠ loc ++ [s] := by
      rintro rfl
      exact hl (List.prefix_refl _)
    rw [get?_set, if_neg hne]
    exact hb.rest l fun hp => hl (hp.trans (List.prefix_append loc [s]))

theorem mkdirChain_built {fuel : Nat} (hfuel : loc.length < fuel) (hne : loc ≠ [])
    (hloc : Nameable loc) (hr : fs.Road loc) :
    ∃ fs', fs.mkdirChain (ancestors.go fuel (Path.toLocation loc).toList) = (fs', none) ∧
      Built loc fs fs' := by
  induction loc using List.reverseRecOn generalizing fuel with
  | nil => exact absurd rfl hne
  | append_singleton loc n ih =>
    cases fuel with
    | zero => cases hfuel
    | succ fuel =>
    rw [ancestors_go_toLocation fuel loc hloc.last.1, mkdirChain]
    by_cases hsome : (fs.get? (loc ++ [n])).isSome = true
    · have hp := (hr.passable hsome).1
      obtain ⟨mode, hmode, _⟩ := hp.dir
      have hlink := hr.straight (loc ++ [n]) (List.prefix_refl _)
      rw [hp.of_append.stat hloc hlink, hmode]
      exact ⟨fs, rfl, .refl fs, fun x hx => hr.isSome_of_prefix hsome hx, fun _ _ => rfl⟩
    have hnone : fs.get? (loc ++ [n]) = none := by simpa using hsome
    -- a path to nothing, so the directories above it come first
    obtain ⟨e, he⟩ : ∃ e, fs.stat (Path.toLocation (loc ++ [n])) = .error e := by
      cases hst : fs.stat (Path.toLocation (loc ++ [n])) with
      | error e => exact ⟨e, rfl⟩
      | ok m =>
        obtain ⟨l, hspot, hm⟩ := stat_eq_ok hst
        rw [(hr.straight.spot_node hloc.isName hspot).1, hnone] at hm
        cases hm
    obtain ⟨fs₁, hchain, hb⟩ : ∃ fs₁, fs.mkdirChain
        (if loc = [] then [] else ancestors.go fuel (Path.toLocation loc).toList) = (fs₁, none) ∧
        Built loc fs fs₁ := by
      by_cases hl : loc = []
      · subst loc
        refine ⟨fs, rfl, .refl fs, fun x hx => ?_, fun _ _ => rfl⟩
        rw [List.prefix_nil.mp hx]
        exact hr.root
      · rw [if_neg hl]
        exact ih (by simpa using hfuel) hl hloc.init (hr.above hnone)
    obtain ⟨hp, hc⟩ := hb.passable (hr.above hnone)
    have hnone₁ : fs₁.get? (loc ++ [n]) = none := by
      rw [hb.rest _ (not_prefix_of_append loc n), hnone]
    rw [he, hchain]
    dsimp only
    rw [hp.mkdir hloc hc hnone₁]
    exact ⟨_, rfl, hb.append hnone⟩

theorem mkdirAll_built (hne : loc ≠ []) (hloc : Nameable loc) (hr : fs.Road loc) :
    ∃ fs', fs.mkdirAll (Path.toLocation loc) = (fs', none) ∧ Built loc fs fs' := by
  rw [mkdirAll, ancestors]
  exact mkdirChain_built (Nat.lt_succ_of_le (length_le_toLocation loc)) hne hloc hr

end Crosscheck.FileSystem
