import Crosscheck.Proofs.FileSystem.Clearing

namespace Crosscheck.FileSystem

variable {fs fs₁ : FileSystem} {loc : Location} {n : String}

/-- What making the directories on a way comes to: all of them are there, or only some above the
last. -/
inductive Makes (loc : Location) (fs : FileSystem) : FileSystem × Option OsError → Prop
  | made {fs' : FileSystem} (hb : Built loc fs fs') (hloc : Nameable loc)
      (henter : ∀ x, x <+: loc → x ≠ loc → fs'.enter x = .ok ()) : Makes loc fs (fs', none)
  | short {fs' : FileSystem} {e : OsError} (hf : Furnished fs fs')
      (hrest : ∀ l, (l <+: loc → l = loc) → fs'.get? l = fs.get? l) : Makes loc fs (fs', some e)

theorem straight_of_dirs (hdirs : ∀ x, x <+: loc → fs.Only x fun m => m.isDir = true) :
    fs.Straight loc := fun x hx =>
  linkAt_eq_none.mpr fun _ ht => Bool.false_ne_true (hdirs x hx _ ht)

theorem Makes.of_spot {through : Bool} {l : Location} {m : Node} (hf : Furnished fs fs₁)
    (hrest : ∀ l, ¬ l <+: loc → fs₁.get? l = fs.get? l)
    (hdirs : ∀ x, x <+: loc → fs₁.Only x fun m => m.isDir = true)
    (hloc : ∀ s ∈ loc, Path.IsName s)
    (hspot : fs₁.spot through (Path.toLocation loc) = .ok (.node l)) (hm : fs₁.get? l = some m) :
    m.isDir = true ∧ Makes loc fs (fs₁, none) := by
  obtain ⟨rfl, henter, hnameable⟩ := (straight_of_dirs hdirs).spot_node hloc hspot
  refine ⟨hdirs _ (List.prefix_refl _) m hm, .made ⟨hf, fun x hx => ?_, hrest⟩ hnameable henter⟩
  by_cases hx' : x = l
  · rw [hx', hm]
    rfl
  · obtain ⟨mode, hmode, _⟩ := enter_eq_ok.mp (henter x hx hx')
    rw [hmode]
    rfl

section Step

variable (hloc : Nameable loc) (hn : Path.IsName n) (hb : Built loc fs fs₁)
  (hdirs : ∀ x, x <+: loc ++ [n] → fs₁.Only x fun m => m.isDir = true)

include hloc hn hb hdirs

theorem mkdir_makes {fs₂ : FileSystem} (h : fs₁.mkdir (Path.toLocation (loc ++ [n])) = .ok fs₂) :
    Makes (loc ++ [n]) fs (fs₂, none) := by
  have hnames : ∀ s ∈ loc ++ [n], Path.IsName s :=
    List.forall_mem_append.mpr ⟨hloc.isName, List.forall_mem_singleton.mpr hn⟩
  rcases (straight_of_dirs hdirs).entry_cases hnames with ⟨he, hp⟩ | ⟨e, he, _⟩
  · have hfault := pathFault?_of_entry he
    have hshort : ShortName n := by
      refine ⟨hn, Nat.le_of_not_lt fun hlong => ?_⟩
      have hentry := (hp.reaches hloc.names).entry hloc.isName hn hfault
      rw [he, if_pos hlong] at hentry
      cases hentry
    have hnameable : Nameable (loc ++ [n]) :=
      ⟨List.forall_mem_append.mpr ⟨hloc.names, List.forall_mem_singleton.mpr hshort⟩, hfault⟩
    rw [mkdir, he] at h
    dsimp only at h
    split at h
    · cases h
    rename_i hnone
    rw [Bool.not_eq_true, Option.isSome_eq_false_iff, Option.isNone_iff_eq_none] at hnone
    split at h
    · cases h
      have hnone' : fs.get? (loc ++ [n]) = none := by
        rw [← hb.rest _ (not_prefix_of_append loc n), hnone]
      refine .made (hb.append hnone') hnameable fun x hx hne => ?_
      have hx' := (List.prefix_concat_iff.mp hx).resolve_left hne
      obtain ⟨mode, hmode, hsearch⟩ := enter_eq_ok.mp (hp x hx')
      exact enter_eq_ok.mpr ⟨mode, by rw [get?_set, if_neg hne, hmode], hsearch⟩
    · cases h
  · rw [mkdir, he] at h
    cases h

end Step

theorem mkdirChain_makes {fuel : Nat} (hfuel : loc.length < fuel) (hne : loc ≠ [])
    (hloc : ∀ s ∈ loc, Path.IsName s) (hroot : (fs.get? []).isSome = true)
    (hdirs : ∀ x, x <+: loc → fs.Only x fun m => m.isDir = true) :
    Makes loc fs (fs.mkdirChain (ancestors.go fuel (Path.toLocation loc).toList)) := by
  induction loc using List.reverseRecOn generalizing fuel with
  | nil => exact absurd rfl hne
  | append_singleton loc n ih =>
    have hn := hloc n (by simp)
    cases fuel with
    | zero => cases hfuel
    | succ fuel =>
    rw [ancestors_go_toLocation fuel loc hn, mkdirChain]
    split
    · rename_i m hstat
      obtain ⟨l, hspot, hm⟩ := stat_eq_ok hstat
      obtain ⟨hdir, hmakes⟩ := Makes.of_spot (.refl fs) (fun _ _ => rfl) hdirs hloc hspot hm
      rw [if_pos hdir]
      exact hmakes
    have habove : Makes loc fs (fs.mkdirChain
        (if loc = [] then [] else ancestors.go fuel (Path.toLocation loc).toList)) := by
      by_cases hl : loc = []
      · subst loc
        refine .made ⟨.refl fs, fun x hx => ?_, fun _ _ => rfl⟩ ⟨by simp, by decide⟩
          fun x hx hx' => ?_
        · rw [List.prefix_nil.mp hx]
          exact hroot
        · exact absurd (List.prefix_nil.mp hx) hx'
      · rw [if_neg hl]
        exact ih (by simpa using hfuel) hl (fun s hs => hloc s (by simp [hs]))
          fun x hx => hdirs x (hx.trans (List.prefix_append loc [n]))
    generalize fs.mkdirChain
      (if loc = [] then [] else ancestors.go fuel (Path.toLocation loc).toList) = above at habove
    cases habove with
    | @short fs₁ e hf hrest =>
      refine .short hf fun l hl => hrest l fun hp => ?_
      have hlast := hl (hp.trans (List.prefix_append loc [n]))
      rw [hlast] at hp
      exact absurd hp (not_prefix_of_append loc n)
    | @made fs₁ hb hnameable henter =>
      have hf := hb.toFurnished
      have hdirs₁ : ∀ x, x <+: loc ++ [n] → fs₁.Only x fun m => m.isDir = true :=
        fun x hx => (hdirs x hx).furnished hf rfl
      have hrest : ∀ l, ¬ l <+: loc ++ [n] → fs₁.get? l = fs.get? l :=
        fun l hl => hb.rest l fun hp => hl (hp.trans (List.prefix_append loc [n]))
      dsimp only
      split
      · rename_i fs₂ hmkdir
        exact mkdir_makes hnameable hn hb hdirs₁ hmkdir
      split
      · rename_i m hlstat
        obtain ⟨l, hspot, hm⟩ := lstat_eq_ok hlstat
        obtain ⟨hdir, hmakes⟩ := Makes.of_spot hf hrest hdirs₁ hloc hspot hm
        rw [if_pos hdir]
        exact hmakes
      · refine .short hf fun l hl => hb.rest l fun hp => ?_
        have hlast := hl (hp.trans (List.prefix_append loc [n]))
        rw [hlast] at hp
        exact absurd hp (not_prefix_of_append loc n)

theorem mkdirAll_makes (hne : loc ≠ []) (hloc : ∀ s ∈ loc, Path.IsName s)
    (hroot : (fs.get? []).isSome = true)
    (hdirs : ∀ x, x <+: loc → fs.Only x fun m => m.isDir = true) :
    Makes loc fs (fs.mkdirAll (Path.toLocation loc)) := by
  rw [mkdirAll, ancestors]
  exact mkdirChain_makes (Nat.lt_succ_of_le (length_le_toLocation loc)) hne hloc hroot hdirs

end Crosscheck.FileSystem
