import Crosscheck.Proofs.FileSystem.Removal
import Crosscheck.Proofs.FileSystem.Roads

namespace Crosscheck.FileSystem

variable {fs fs' : FileSystem} {loc : Location} {n : String}

/-- Everything stands in a directory, under a name that can be one. -/
structure Sound (fs : FileSystem) : Prop where
  named : fs.Named
  parent : ∀ l s n, fs.get? (l ++ [s]) = some n → ∃ mode, fs.get? l = some (.dir mode)

namespace Sound

theorem of_nodes (h : ∀ e ∈ fs.nodes, (∀ s ∈ e.1, Path.IsName s) ∧
    (e.1 ≠ [] → (fs.get? e.1.dropLast).any Node.isDir = true)) : fs.Sound := by
  refine ⟨fun l n hn => (h _ (mem_nodes_of_get? hn)).1, fun l s n hn => ?_⟩
  have hdir := (h _ (mem_nodes_of_get? hn)).2 (by simp)
  rw [List.dropLast_concat, Option.any_eq_true] at hdir
  obtain ⟨m, hm, hdir⟩ := hdir
  cases m with
  | dir mode => exact ⟨mode, hm⟩
  | file | link | fifo => cases hdir

theorem dir_of_prefix (h : fs.Sound) {x l : Location} {n : Node} (hx : x <+: l) (hne : x ≠ l)
    (hn : fs.get? l = some n) : ∃ mode, fs.get? x = some (.dir mode) := by
  obtain ⟨rest, rfl⟩ := hx
  induction rest using List.reverseRecOn generalizing n with
  | nil => exact absurd (List.append_nil x).symm hne
  | append_singleton r s ih =>
    rw [← List.append_assoc] at hn
    obtain ⟨mode, hmode⟩ := h.parent _ s n hn
    by_cases hr : r = []
    · subst r
      rw [List.append_nil] at hmode
      exact ⟨mode, hmode⟩
    · exact ih (by simpa using hr) hmode

theorem none_below (h : fs.Sound) {x l : Location} (hx : x <+: l) (hnone : fs.get? x = none) :
    fs.get? l = none := by
  rw [Option.eq_none_iff_forall_ne_some]
  intro n hn
  by_cases hl : x = l
  · rw [← hl, hnone] at hn
    cases hn
  · obtain ⟨mode, hmode⟩ := h.dir_of_prefix hx hl hn
    rw [hnone] at hmode
    cases hmode

theorem leaf_of_not_dir (h : fs.Sound) {m : Node} (hm : fs.get? loc = some m)
    (hd : m.isDir = false) (s : String) : fs.get? (loc ++ [s]) = none := by
  rw [Option.eq_none_iff_forall_ne_some]
  intro k hk
  obtain ⟨mode, hmode⟩ := h.parent loc s k hk
  rw [hm, Option.some.injEq] at hmode
  rw [hmode] at hd
  cases hd

section Leaf

variable (h : fs.Sound) (hleaf : ∀ s, fs.get? (loc ++ [s]) = none)

include h hleaf

theorem erase : (fs.erase loc).Sound := by
  refine ⟨fun l m hm => h.named l m ((erase_within fs loc).get? l m hm), fun l s m hm => ?_⟩
  obtain ⟨mode, hmode⟩ := h.parent l s m ((erase_within fs loc).get? _ m hm)
  refine ⟨mode, ?_⟩
  rw [get?_erase, if_neg, hmode]
  rintro rfl
  have hs := (erase_within fs l).get? _ m hm
  rw [hleaf s] at hs
  cases hs

theorem gone_erase {l : Location} (hl : loc <+: l) : (fs.erase loc).get? l = none := by
  rw [get?_erase]
  split
  · rfl
  rename_i hne
  obtain ⟨rest, rfl⟩ := hl
  cases rest with
  | nil => exact absurd (List.append_nil loc) hne
  | cons s rest =>
    rw [List.append_cons]
    exact h.none_below (List.prefix_append _ rest) (hleaf s)

end Leaf

end Sound

theorem Clears.sound {gone : Bool} (h : Clears fs loc fs' gone) (hs : fs.Sound) : fs'.Sound := by
  induction h with
  | absent | held => exact hs
  | file hn hd => exact hs.erase (hs.leaf_of_not_dir hn hd)
  | empty he => exact hs.erase (isEmptyDir_iff.mp he)
  | inside _ _ ih ih' => exact ih' (ih hs)

theorem Clears.gone (h : Clears fs loc fs' true) (hs : fs.Sound) {l : Location} (hl : loc <+: l) :
    fs'.get? l = none := by
  generalize hg : true = gone at h
  induction h with
  | absent hn => exact hs.none_below hl hn
  | held => cases hg
  | file hn hd => exact hs.gone_erase (hs.leaf_of_not_dir hn hd) hl
  | empty he => exact hs.gone_erase (isEmptyDir_iff.mp he) hl
  | inside h _ _ ih' => exact ih' (h.sound hs) hl hg

theorem removeFrom_gone (hs : fs.Sound) {dir : Location} {base shown : String}
    (hb : Path.IsName base) (h : fs.removeFrom dir base shown = (fs', none)) {l : Location}
    (hl : dir ++ [base] <+: l) : fs'.get? l = none := by
  rw [removeFrom, below_name dir hb] at h
  split at h
  · cases h
    rw [get?_eraseTree, if_pos hl]
  · have hc := clear_clears (fs.nodes.length + 1) hs.named dir base shown
    rw [below_name dir hb, h] at hc
    exact hc.gone hs hl

/-- On the way to a place, and below directories that may be searched, something is missing. -/
def Missing (fs : FileSystem) (loc : Location) : Prop :=
  ∃ x, x <+: loc ∧ fs.get? x = none ∧ ∀ y, y <+: x → y ≠ x → fs.enter y = .ok ()

theorem Missing.gone (h : fs.Missing loc) (hs : fs.Sound) {l : Location} (hl : loc <+: l) :
    fs.get? l = none := by
  obtain ⟨x, hx, hnone, _⟩ := h
  exact hs.none_below (hx.trans hl) hnone

theorem Missing.dirs (h : fs.Missing loc) (hs : fs.Sound) {y : Location} (hy : y <+: loc) :
    fs.Only y (·.isDir = true) := by
  obtain ⟨x, hx, hnone, henter⟩ := h
  intro m hm
  rcases List.prefix_or_prefix_of_prefix hx hy with hxy | hyx
  · rw [hs.none_below hxy hnone] at hm
    cases hm
  · have hne : y ≠ x := by
      rintro rfl
      rw [hnone] at hm
      cases hm
    exact isDir_of_enter (henter y hyx hne) hm

section Straight

variable (h : fs.Straight loc) (hloc : ∀ s ∈ loc, Path.IsName s)

include h hloc

theorem Straight.missing_of_walk (hw :
    walkWith fs (followLink fs linkBudget) true [] loc = .error .notFound ∨
      ∃ d s, walkWith fs (followLink fs linkBudget) true [] loc = .ok (.gap d s)) :
    fs.Missing loc := by
  obtain ⟨x, hx, hnone, henter⟩ := walkWith_missing (fun x hx => h x hx) hloc hw
  exact ⟨x, hx, hnone, henter⟩

theorem Straight.missing_of_none {l : Location}
    (hw : walkWith fs (followLink fs linkBudget) true [] loc = .ok (.node l))
    (hnone : fs.get? l = none) : fs.Missing loc := by
  obtain ⟨hl, henter, _⟩ := (walk_of_walkWith hw).straight (fun x hx => h x hx) hloc
  have hl' : l = loc := hl
  rw [hl'] at hnone
  exact ⟨loc, List.prefix_refl loc, hnone, henter⟩

theorem Straight.missing_of_spot
    (hs : fs.spot true (Path.toLocation loc) = .error .notFound ∨
      ∃ d s, fs.spot true (Path.toLocation loc) = .ok (.gap d s)) : fs.Missing loc := by
  have hfault : pathFault? (Path.toLocation loc) = none := by
    rcases hs with hs | ⟨d, s, hs⟩
    · rw [spot] at hs
      split at hs
      · rename_i e he
        cases hs
        exact absurd he (pathFault?_ne_notFound (Path.toLocation_ne_empty loc))
      · assumption
    · exact pathFault?_of_spot hs
  rw [spot_of_pathFault? hfault, stepsThrough_toLocation hloc, start, Path.isAbs_toLocation,
    if_pos rfl] at hs
  cases hw : walkWith fs (followLink fs linkBudget) true [] loc with
  | error e =>
    rw [hw] at hs
    rcases hs with hs | ⟨d, s, hs⟩
    · exact h.missing_of_walk hloc (.inl (hw.trans hs))
    · cases hs
  | ok sp =>
    cases sp with
    | gap d s => exact h.missing_of_walk hloc (.inr ⟨d, s, hw⟩)
    | node l =>
      refine h.missing_of_none hloc hw ?_
      rw [hw] at hs
      dsimp only at hs
      split at hs
      · rcases hs with hs | ⟨d, s, hs⟩ <;> cases hs
      · rename_i hnone
        simpa using hnone

theorem Straight.missing_of_openRead {e : OsError}
    (ho : fs.openRead (Path.toLocation loc) = .error e) (he : e.errno = .notFound) :
    fs.Missing loc := by
  rw [openRead] at ho
  split at ho
  · rename_i e' hs
    cases ho
    refine h.missing_of_spot hloc (.inl (hs.trans ?_))
    exact congrArg Except.error he
  · rename_i d s hs
    exact h.missing_of_spot hloc (.inr ⟨d, s, hs⟩)
  · rename_i l hs
    obtain ⟨m, hm⟩ := FileSystem.spot_node hs
    rw [hm] at ho
    dsimp only at ho
    split at ho
    · cases ho
    · cases ho
      cases he

end Straight

section Entry

variable (h : fs.Straight (loc ++ [n])) (hloc : ∀ s ∈ loc ++ [n], Path.IsName s)

include h hloc

theorem Straight.entry_cases :
    (fs.entry (Path.toLocation (loc ++ [n])) = .ok ⟨loc, .name n, false⟩ ∧ fs.Passable loc) ∨
      ∃ e, fs.entry (Path.toLocation (loc ++ [n])) = .error e ∧ (e = .notFound → fs.Missing loc) := by
  have hfront : ∀ s ∈ loc, Path.IsName s := fun s hs => hloc s (by simp [hs])
  have hn : Path.IsName n := hloc n (by simp)
  have hstraight : fs.Straight loc := fun x hx => h x (hx.trans (List.prefix_append loc [n]))
  rw [entry]
  cases hfault : pathFault? (Path.toLocation (loc ++ [n])) with
  | some e =>
    refine .inr ⟨e, rfl, ?_⟩
    rintro rfl
    exact absurd hfault (pathFault?_ne_notFound (Path.toLocation_ne_empty _))
  | none =>
  rw [Path.steps_toLocation hloc, List.reverse_append, List.reverse_singleton,
    List.singleton_append, start, Path.isAbs_toLocation, if_pos rfl]
  dsimp only
  rw [List.reverse_reverse]
  cases hw : walkWith fs (followLink fs linkBudget) true [] loc with
  | error e =>
    refine .inr ⟨e, rfl, ?_⟩
    rintro rfl
    exact hstraight.missing_of_walk hfront (.inl hw)
  | ok sp =>
    cases sp with
    | gap d s => exact .inr ⟨_, rfl, fun _ => hstraight.missing_of_walk hfront (.inr ⟨d, s, hw⟩)⟩
    | node d =>
      obtain ⟨hd, henter, _⟩ := (walk_of_walkWith hw).straight (fun x hx => hstraight x hx) hfront
      have hd' : d = loc := hd
      subst d
      dsimp only
      cases he : fs.enter loc with
      | error e =>
        refine .inr ⟨e, rfl, ?_⟩
        rintro rfl
        exact hstraight.missing_of_none hfront hw (enter_eq_notFound he)
      | ok _ =>
        dsimp only
        rw [if_neg hn.ne_dot, if_neg hn.ne_dotdot]
        split
        · exact .inr ⟨_, rfl, by simp⟩
        · refine .inl ⟨by rw [decide_eq_false (Path.getLast?_toLocation hn loc)], fun x hx => ?_⟩
          by_cases hx' : x = loc
          · rw [hx']
            exact he
          · exact henter x hx hx'

theorem Straight.remove_cases :
    (fs.Passable loc ∧ (∃ m, fs.get? (loc ++ [n]) = some m ∧
      (m.isDir = true → fs.isEmptyDir (loc ++ [n]) = true)) ∧
      fs.remove (Path.toLocation (loc ++ [n])) = .ok (fs.erase (loc ++ [n]))) ∨
    ∃ e, fs.remove (Path.toLocation (loc ++ [n])) = .error e ∧ (e.errno = .notFound →
      fs.Missing loc ∨ fs.Passable loc ∧ fs.get? (loc ++ [n]) = none) := by
  rcases h.entry_cases hloc with ⟨he, hp⟩ | ⟨e, he, hmissing⟩
  · rw [remove_of_entry he]
    cases hg : fs.get? (loc ++ [n]) with
    | none => exact .inr ⟨_, rfl, fun _ => .inr ⟨hp, rfl⟩⟩
    | some m =>
      dsimp only
      split
      · exact .inr ⟨_, rfl, nofun⟩
      split
      · exact .inr ⟨_, rfl, nofun⟩
      · rename_i hfull
        refine .inl ⟨hp, ⟨m, rfl, fun hd => ?_⟩, rfl⟩
        simpa using fun hempty => hfull ⟨hd, hempty⟩
  · refine .inr ⟨⟨"remove", Path.toLocation (loc ++ [n]), e⟩, ?_, fun hnot => .inl (hmissing hnot)⟩
    rw [remove, unlink, rmdir, he]
    simp [refused]

end Entry

theorem trimSlashes_toLocation (hloc : ∀ s ∈ loc ++ [n], Path.IsName s) :
    trimSlashes (Path.toLocation (loc ++ [n])).toList = (Path.toLocation (loc ++ [n])).toList := by
  obtain ⟨c, rest, hcs, hc⟩ : ∃ c rest,
      (Path.toLocation (loc ++ [n])).toList = '/' :: c :: rest ∧ c ≠ '/' := by
    obtain ⟨a, as, has⟩ : ∃ a as, loc ++ [n] = a :: as := by
      cases loc with
      | nil => exact ⟨n, [], rfl⟩
      | cons a as => exact ⟨a, as ++ [n], rfl⟩
    have ha : Path.IsName a := hloc a (by simp [has])
    have hhead : ∃ tail, (Path.toLocation (a :: as)).toList = '/' :: (a.toList ++ tail) := by
      by_cases h : as = []
      · exact ⟨[], by simp [h, Path.toLocation, Path.ofComponents]⟩
      · refine ⟨'/' :: ("/".intercalate as).toList, ?_⟩
        have hi := String.intercalate_append_of_ne_nil (l := [a]) (m := as) (s := "/") (by simp) h
        rw [List.singleton_append, String.intercalate_singleton] at hi
        rw [Path.toLocation, Path.ofComponents, hi]
        simp
    obtain ⟨tail, htail⟩ := hhead
    cases hl : a.toList with
    | nil => exact absurd (String.ext hl) ha.ne_empty
    | cons c cs =>
      refine ⟨c, cs ++ tail, by rw [has, htail, hl]; rfl, ?_⟩
      rintro rfl
      exact ha.no_slash (by simp [hl])
  have hend := dropEndSlashes_toLocation loc (hloc n (by simp))
  rw [hcs] at hend ⊢
  rw [trimSlashes, List.dropWhile_cons_of_pos (by rfl),
    List.dropWhile_cons_of_neg (by simpa using hc)]
  simp only [List.head?_cons, if_true, hend]

theorem parentAndBase_toLocation (hloc : ∀ s ∈ loc ++ [n], Path.IsName s) :
    parentAndBase (Path.toLocation (loc ++ [n])) = (Path.toLocation loc, n) := by
  have hn : Path.IsName n := hloc n (by simp)
  rw [parentAndBase, trimSlashes_toLocation hloc]
  have hlast : Path.lastPart (Path.toLocation (loc ++ [n])).toList = n.toList := by
    rw [Path.toLocation_append, Path.lastPart_append_slash hn.no_slash]
  have htake : (Path.toLocation (loc ++ [n])).toList.take
      ((Path.toLocation (loc ++ [n])).toList.length - n.toList.length) =
        (if loc = [] then [] else (Path.toLocation loc).toList) ++ ['/'] := by
    rw [toList_toLocation_append, List.append_cons, List.length_append, Nat.add_sub_cancel,
      List.take_left]
  have hroot : (Path.toLocation (loc ++ [n])).toList ≠ ['/'] := by
    intro he
    have hend := Path.getLast?_toLocation hn loc
    rw [he] at hend
    exact hend rfl
  simp only [hlast, htake, if_neg hroot, String.ofList_toList]
  by_cases hl : loc = []
  · subst loc
    simp [Path.toLocation, Path.ofComponents]
  · have hloc' : (Path.toLocation loc).toList ≠ [] :=
      fun h => Path.toLocation_ne_empty loc (String.ext h)
    simp [hl, hloc']

theorem Straight.lead (h : fs.Straight loc) (hloc : ∀ s ∈ loc, Path.IsName s) (through : Bool) :
    fs.lead through (Path.toLocation loc) = some loc := by
  have hlead : ∀ {a ss : Location} {follow : Location → String → Option Location},
      (∀ x, x <+: ss → fs.linkAt (a ++ x) = none) → (∀ s ∈ ss, Path.IsName s) →
      leadWith fs.linkAt follow through a ss = some (a ++ ss) := by
    intro a ss follow hl hs
    induction ss generalizing a with
    | nil => rw [leadWith, List.append_nil]
    | cons s rest ih =>
      have hname := hs s (by simp)
      rw [leadWith, if_neg hname.ne_dot, if_neg hname.ne_dotdot, hl [s] (by simp), List.append_cons a s rest]
      refine ih (fun x hx => ?_) fun t ht => hs t (by simp [ht])
      rw [List.append_assoc]
      exact hl (s :: x) (List.cons_prefix_cons.mpr ⟨rfl, hx⟩)
  rw [FileSystem.lead, start, Path.isAbs_toLocation, if_pos rfl, Path.steps_toLocation hloc]
  exact hlead (fun x hx => h x hx) hloc

/-- What removing a path without links comes to, if it comes to an end: nothing is left at the place
and below it, and all that is there above it are directories. -/
structure Cleared (loc : Location) (fs fs' : FileSystem) : Prop where
  pruned : Pruned loc fs fs'
  gone : ∀ l, loc <+: l → fs'.get? l = none
  above : ∀ x, x <+: loc.dropLast → fs.Only x (·.isDir = true)

theorem Cleared.sound (h : Cleared loc fs fs') (hs : fs.Sound) : fs'.Sound := by
  refine ⟨h.pruned.named hs.named, fun l s m hm => ?_⟩
  obtain ⟨mode, hmode⟩ := hs.parent l s m (h.pruned.within.get? _ m hm)
  refine ⟨mode, ?_⟩
  rw [h.pruned.get?_of_not_prefix, hmode]
  intro hl
  rw [h.gone _ (hl.trans (List.prefix_append l [s]))] at hm
  cases hm

theorem Straight.within (h : fs.Straight loc) (hw : Within fs' fs) : fs'.Straight loc := by
  intro x hx
  rw [linkAt_eq_none]
  intro target ht
  exact linkAt_eq_none.mp (h x hx) target (hw.get? _ _ ht)

theorem removeAll_cleared (hs : fs.Sound) (h : fs.Straight (loc ++ [n]))
    (hloc : ∀ s ∈ loc ++ [n], Path.IsName s)
    (hr : fs.removeAll (Path.toLocation (loc ++ [n])) = (fs', none)) :
    Cleared (loc ++ [n]) fs fs' := by
  have hfront : ∀ s ∈ loc, Path.IsName s := fun s hs => hloc s (by simp [hs])
  have hstraight : fs.Straight loc := fun x hx => h x (hx.trans (List.prefix_append loc [n]))
  have hdirs : fs.Passable loc → ∀ x, x <+: loc → fs.Only x (·.isDir = true) := by
    intro hp x hx m hm
    exact isDir_of_enter (hp x hx) hm
  have hpruned : Pruned (loc ++ [n]) fs fs' := by
    have hp := removeAll_pruned (.refl fs) hs.named (Path.toLocation (loc ++ [n]))
    rw [hr] at hp
    rcases hp with rfl | ⟨x, hx, hp⟩
    · exact .refl _ _
    · rw [h.lead hloc, Option.some.injEq] at hx
      rw [hx]
      exact hp
  have hmissing : fs.Missing loc → Cleared (loc ++ [n]) fs fs := by
    intro hm
    refine ⟨.refl _ _, fun l hl => hm.gone hs ((List.prefix_append loc [n]).trans hl), fun x hx => ?_⟩
    rw [List.dropLast_concat] at hx
    exact hm.dirs hs hx
  rw [removeAll, if_neg (Path.toLocation_ne_empty _)] at hr
  split at hr
  · cases hr
  rcases h.remove_cases hloc with ⟨hp, ⟨m, hm, hempty⟩, hremove⟩ | ⟨e, hremove, hnot⟩
  · rw [hremove] at hr
    cases hr
    refine ⟨hpruned, fun l hl => hs.gone_erase ?_ hl, fun x hx => ?_⟩
    · cases hd : m.isDir with
      | true => exact isEmptyDir_iff.mp (hempty hd)
      | false => exact hs.leaf_of_not_dir hm hd
    · rw [List.dropLast_concat] at hx
      exact hdirs hp x hx
  rw [hremove, parentAndBase_toLocation hloc] at hr
  dsimp only at hr
  split at hr
  · rename_i hnotFound
    cases hr
    rcases hnot hnotFound with hm | ⟨hp, hnone⟩
    · exact hmissing hm
    · refine ⟨hpruned, fun l hl => hs.none_below hl hnone, fun x hx => ?_⟩
      rw [List.dropLast_concat] at hx
      exact hdirs hp x hx
  split at hr
  · rename_i e' ho
    split at hr
    · rename_i hnotFound
      cases hr
      exact hmissing (hstraight.missing_of_openRead hfront ho hnotFound)
    · cases hr
  rename_i d m ho
  obtain ⟨hspot, hm, _⟩ := openRead_eq_ok ho
  obtain ⟨rfl, henter, _⟩ := hstraight.spot_node hfront hspot
  split at hr
  · cases hr
  split at hr
  · cases hr
  rename_i hd
  split at hr
  · cases hr
  refine ⟨hpruned, fun l hl => removeFrom_gone hs (hloc n (by simp)) hr hl, fun x hx => ?_⟩
  rw [List.dropLast_concat] at hx
  by_cases hx' : x = d
  · subst x
    intro k hk
    rw [hm, Option.some.injEq] at hk
    rw [← hk]
    simpa using hd
  · intro k hk
    exact isDir_of_enter (henter x hx hx') hk

end Crosscheck.FileSystem
