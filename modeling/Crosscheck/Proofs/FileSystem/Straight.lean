import Crosscheck.Proofs.FileSystem.Frame

namespace Crosscheck.FileSystem

variable {fs fs' : FileSystem} {loc : Location} {n : String}

def ShortName (s : String) : Prop := Path.IsName s ∧ s.utf8ByteSize ≤ maxName

instance (s : String) : Decidable (ShortName s) := inferInstanceAs (Decidable (_ ∧ _))

theorem ShortName.plain {s : String} (h : ShortName s) : Plain s := ⟨h.1.ne_dot, h.1.ne_dotdot, h.2⟩

/-- A place that has a path which the system takes. -/
structure Nameable (loc : Location) : Prop where
  names : ∀ s ∈ loc, ShortName s
  path : pathFault? (Path.toLocation loc) = none

namespace Nameable

theorem isName (h : Nameable loc) : ∀ s ∈ loc, Path.IsName s := fun s hs => (h.names s hs).1

theorem plain (h : Nameable loc) : ∀ s ∈ loc, Plain s := fun s hs => (h.names s hs).plain

theorem of_prefix {loc' : Location} (h : Nameable loc') (hp : loc <+: loc') : Nameable loc :=
  ⟨fun s hs => h.names s (hp.subset hs), pathFault?_toLocation hp h.path⟩

theorem init (h : Nameable (loc ++ [n])) : Nameable loc := h.of_prefix (List.prefix_append loc [n])

theorem last (h : Nameable (loc ++ [n])) : ShortName n := h.names n (by simp)

end Nameable

theorem not_prefix_of_append (loc : Location) (s : String) : ¬ loc ++ [s] <+: loc := by
  intro h
  have hlen := h.length_le
  simp at hlen

/-- A place and all above it are directories that may be searched. -/
def Passable (fs : FileSystem) (loc : Location) : Prop := ∀ x, x <+: loc → fs.enter x = .ok ()

theorem Passable.of_append {rest : Location} (h : fs.Passable (loc ++ rest)) : fs.Passable loc :=
  fun x hx => h x (hx.trans (List.prefix_append loc rest))

theorem Passable.dir (h : fs.Passable loc) :
    ∃ mode, fs.get? loc = some (.dir mode) ∧ fs.canSearch (.dir mode) = true :=
  enter_eq_ok.mp (h loc (List.prefix_refl loc))

theorem isDir_of_enter {m : Node} (h : fs.enter loc = .ok ()) (hm : fs.get? loc = some m) :
    m.isDir = true := by
  obtain ⟨mode, hmode, _⟩ := enter_eq_ok.mp h
  rw [hm, Option.some.injEq] at hmode
  rw [hmode]
  rfl

theorem walkWith_passable {follow : Location → String → Except Errno Spot} {through : Bool}
    {ss rest : List String} (h : fs.Passable (loc ++ ss)) (hs : ∀ s ∈ ss, Plain s) :
    walkWith fs follow through loc (ss ++ rest) = walkWith fs follow through (loc ++ ss) rest := by
  induction ss generalizing loc with
  | nil => rw [List.nil_append, List.append_nil]
  | cons s ss ih =>
    rw [List.append_cons loc s ss] at h ⊢
    obtain ⟨hdot, hdotdot, hlen⟩ := hs s (by simp)
    obtain ⟨mode, hmode, _⟩ := h.of_append.dir
    rw [List.cons_append, walkWith, h.of_append.of_append loc (List.prefix_refl loc)]
    dsimp only
    rw [if_neg hdot, if_neg hdotdot, if_neg (Nat.not_lt.mpr hlen), hmode]
    exact ih h fun t ht => hs t (by simp [ht])

section Passable

variable (h : fs.Passable loc)

include h

theorem Passable.reaches (hloc : ∀ s ∈ loc, ShortName s) : fs.Reaches (Path.toLocation loc) loc := by
  refine ⟨?_, h loc (List.prefix_refl loc)⟩
  have hw := @walkWith_passable fs [] (followLink fs linkBudget) true loc [] h
    fun s hs => (hloc s hs).plain
  rw [List.append_nil] at hw
  rw [Path.steps_toLocation fun s hs => (hloc s hs).1, start, Path.isAbs_toLocation, if_pos rfl, hw]
  rfl

variable (hn : Nameable (loc ++ [n]))

include hn

theorem Passable.entry : fs.entry (Path.toLocation (loc ++ [n])) = .ok ⟨loc, .name n, false⟩ := by
  rw [(h.reaches hn.init.names).entry hn.init.isName hn.last.1 hn.path,
    if_neg (Nat.not_lt.mpr hn.last.2)]

theorem Passable.spot (hlink : fs.linkAt (loc ++ [n]) = none) (through : Bool) :
    fs.spot through (Path.toLocation (loc ++ [n])) =
      .ok (if (fs.get? (loc ++ [n])).isSome then .node (loc ++ [n]) else .gap loc n) := by
  obtain ⟨hdot, hdotdot, hlen⟩ := hn.last.plain
  have hw := @walkWith_passable fs [] (followLink fs linkBudget) through loc [n] h hn.init.plain
  rw [List.nil_append, walkWith, h loc (List.prefix_refl loc)] at hw
  dsimp only at hw
  rw [if_neg hdot, if_neg hdotdot, if_neg (Nat.not_lt.mpr hlen)] at hw
  rw [spot_of_pathFault? hn.path, stepsThrough_toLocation hn.isName, start, Path.isAbs_toLocation,
    if_pos rfl, hw]
  cases hg : fs.get? (loc ++ [n]) with
  | none => rfl
  | some m =>
    cases m with
    | link target => exact absurd hg (linkAt_eq_none.mp hlink target)
    | dir | file | fifo =>
      simp only [walkWith, hg, Option.isSome_some, if_true]

theorem Passable.stat (hlink : fs.linkAt (loc ++ [n]) = none) :
    fs.stat (Path.toLocation (loc ++ [n])) =
      match fs.get? (loc ++ [n]) with
      | some m => .ok m
      | none => .error .notFound := by
  rw [FileSystem.stat, h.spot hn hlink]
  cases hg : fs.get? (loc ++ [n]) with
  | none => rfl
  | some m =>
    simp only [Option.isSome_some, if_true]
    rw [hg]

end Passable

/-- No link stands at a place or on the way to it. -/
def Straight (fs : FileSystem) (loc : Location) : Prop := ∀ x, x <+: loc → fs.linkAt x = none

theorem Walk.straight {follow : Location → String → Except Errno Spot} {through : Bool}
    {ss : List String} {sp : Spot} (h : Walk fs follow through loc ss sp)
    (hlinks : ∀ x, x <+: ss → fs.linkAt (loc ++ x) = none) (hs : ∀ s ∈ ss, Path.IsName s) :
    sp.loc = loc ++ ss ∧ (∀ x, x <+: ss → x ≠ ss → fs.enter (loc ++ x) = .ok ()) ∧
      ∀ s ∈ ss, ShortName s := by
  have hnotLink : ∀ {loc : Location} {s target : String} {rest : List String},
      (∀ x, x <+: s :: rest → fs.linkAt (loc ++ x) = none) →
      fs.get? (loc ++ [s]) ≠ some (.link target) := by
    intro loc s target rest hl
    exact linkAt_eq_none.mp (hl [s] (by simp)) target
  induction h with
  | done loc =>
    refine ⟨(List.append_nil loc).symm, fun x hx hne => ?_, by simp⟩
    exact absurd (List.prefix_nil.mp hx) hne
  | dot => exact absurd rfl (hs "." (by simp)).ne_dot
  | dotdot => exact absurd rfl (hs ".." (by simp)).ne_dotdot
  | stay _ _ hg | along _ _ hg | alongGap _ _ hg => exact absurd hg (hnotLink hlinks)
  | @gap loc s he hp hg =>
    refine ⟨rfl, fun x hx hne => ?_, fun t ht => ?_⟩
    · rcases List.prefix_cons_iff.mp hx with rfl | ⟨y, rfl, hy⟩
      · rwa [List.append_nil]
      · exact absurd (by rw [List.prefix_nil.mp hy]) hne
    · rw [List.mem_singleton.mp ht]
      exact ⟨hs s (by simp), hp.2.2⟩
  | @into loc s rest sp n he hp hg hn hw ih =>
    obtain ⟨hloc, henter, hshort⟩ := ih
      (fun x hx => by
        rw [List.append_assoc]
        exact hlinks (s :: x) (List.cons_prefix_cons.mpr ⟨rfl, hx⟩))
      fun t ht => hs t (by simp [ht])
    refine ⟨by rw [hloc, List.append_assoc, List.singleton_append], fun x hx hne => ?_,
      fun t ht => ?_⟩
    · rcases List.prefix_cons_iff.mp hx with rfl | ⟨y, rfl, hy⟩
      · rwa [List.append_nil]
      · rw [List.append_cons]
        exact henter y hy fun he => hne (by rw [he])
    · rcases List.mem_cons.mp ht with rfl | ht
      · exact ⟨hs t (by simp), hp.2.2⟩
      · exact hshort t ht

theorem Straight.spot_node {through : Bool} {l : Location} (h : fs.Straight loc)
    (hloc : ∀ s ∈ loc, Path.IsName s)
    (hs : fs.spot through (Path.toLocation loc) = .ok (.node l)) :
    l = loc ∧ (∀ x, x <+: loc → x ≠ loc → fs.enter x = .ok ()) ∧ Nameable loc := by
  have hw := walk_of_spot hs
  rw [stepsThrough_toLocation hloc, start, Path.isAbs_toLocation, if_pos rfl] at hw
  obtain ⟨hl, henter, hshort⟩ := hw.straight (fun x hx => h x hx) hloc
  exact ⟨hl, henter, hshort, pathFault?_of_spot hs⟩

theorem Passable.straight (h : fs.Passable loc) : fs.Straight loc := fun x hx =>
  linkAt_eq_none.mpr fun _ ht => Bool.false_ne_true (isDir_of_enter (h x hx) ht)

theorem passable_of_proper
    (h : ∀ x, x <+: loc ++ [n] → x ≠ loc ++ [n] → fs.enter x = .ok ()) : fs.Passable loc := by
  intro x hx
  refine h x (hx.trans (List.prefix_append loc [n])) ?_
  rintro rfl
  exact not_prefix_of_append loc n hx

theorem enter_eq_notFound (h : fs.enter loc = .error .notFound) : fs.get? loc = none := by
  rw [enter] at h
  split at h
  · assumption
  · split at h
    · cases h
    · split at h <;> cases h

/-- A walk without links that comes to nothing has met a place where nothing is, below directories
that may be searched. -/
theorem walkWith_missing {follow : Location → String → Except Errno Spot} {through : Bool}
    {ss : List String} (hlinks : ∀ x, x <+: ss → fs.linkAt (loc ++ x) = none)
    (hs : ∀ s ∈ ss, Path.IsName s)
    (h : walkWith fs follow through loc ss = .error .notFound ∨
      ∃ d s, walkWith fs follow through loc ss = .ok (.gap d s)) :
    ∃ x, x <+: ss ∧ fs.get? (loc ++ x) = none ∧
      ∀ y, y <+: x → y ≠ x → fs.enter (loc ++ y) = .ok () := by
  induction ss generalizing loc with
  | nil => rcases h with h | ⟨d, s, h⟩ <;> cases h
  | cons s rest ih =>
    have hname := hs s (by simp)
    rw [walkWith] at h
    cases he : fs.enter loc with
    | error e =>
      rw [he] at h
      refine ⟨[], by simp, ?_, fun y hy hne => absurd (List.prefix_nil.mp hy) hne⟩
      rcases h with h | ⟨d, s, h⟩
      · cases h
        rw [List.append_nil]
        exact enter_eq_notFound he
      · cases h
    | ok _ =>
    rw [he] at h
    dsimp only at h
    rw [if_neg hname.ne_dot, if_neg hname.ne_dotdot] at h
    have hroot : ∀ y : Location, y <+: [s] → y ≠ [s] → fs.enter (loc ++ y) = .ok () := by
      intro y hy hne
      rcases List.prefix_cons_iff.mp hy with rfl | ⟨z, rfl, hz⟩
      · rwa [List.append_nil]
      · exact absurd (by rw [List.prefix_nil.mp hz]) hne
    split at h
    · rcases h with h | ⟨d, s, h⟩ <;> cases h
    cases hg : fs.get? (loc ++ [s]) with
    | none => exact ⟨[s], by simp, hg, hroot⟩
    | some m =>
      rw [hg] at h
      cases m with
      | link target => exact absurd hg (linkAt_eq_none.mp (hlinks [s] (by simp)) target)
      | dir | file | fifo =>
        obtain ⟨x, hx, hnone, hx'⟩ := ih
          (fun x hx => by
            rw [List.append_assoc]
            exact hlinks (s :: x) (List.cons_prefix_cons.mpr ⟨rfl, hx⟩))
          (fun t ht => hs t (by simp [ht])) h
        refine ⟨s :: x, List.cons_prefix_cons.mpr ⟨rfl, hx⟩, by rwa [List.append_cons], ?_⟩
        intro y hy hne
        rcases List.prefix_cons_iff.mp hy with rfl | ⟨z, rfl, hz⟩
        · rwa [List.append_nil]
        · rw [List.append_cons]
          exact hx' z hz fun he => hne (by rw [he])

theorem isDir_of_isRegular {m : Node} (h : m.isRegular = true) : m.isDir = false := by
  cases m <;> first | rfl | cases h

theorem Only.linkAt {l : Location} (h : fs.Only l fun m => m.isRegular = true) :
    fs.linkAt l = none :=
  linkAt_eq_none.mpr fun _ ht => Bool.false_ne_true (h _ ht)

section Operations

variable (h : fs.Passable loc) (hn : Nameable (loc ++ [n]))

include h hn

theorem Passable.remove (hc : fs.mayChange loc = true)
    (ho : fs.Only (loc ++ [n]) fun m => m.isDir = false) :
    fs.remove (Path.toLocation (loc ++ [n])) =
      if (fs.get? (loc ++ [n])).isSome then .ok (fs.erase (loc ++ [n]))
      else refused "remove" (Path.toLocation (loc ++ [n])) .notFound := by
  rw [remove_of_entry (h.entry hn)]
  cases hg : fs.get? (loc ++ [n]) with
  | none => rfl
  | some m => simp [hc, ho m hg]

theorem Passable.openRead {m : Node} (hlink : fs.linkAt (loc ++ [n]) = none)
    (hg : fs.get? (loc ++ [n]) = some m) (hr : fs.canRead m = true) :
    fs.openRead (Path.toLocation (loc ++ [n])) = .ok (loc ++ [n], m) := by
  have hs := h.spot hn hlink true
  rw [hg, Option.isSome_some, if_pos rfl] at hs
  rw [FileSystem.openRead, hs]
  dsimp only
  rw [hg]
  dsimp only
  rw [if_pos hr]

theorem Passable.readFile {id mode : Nat} {bytes : ByteArray}
    (hg : fs.get? (loc ++ [n]) = some (.file id mode bytes))
    (hr : fs.canRead (.file id mode bytes) = true) :
    fs.readFile (Path.toLocation (loc ++ [n])) = .ok bytes := by
  have hlink : fs.linkAt (loc ++ [n]) = none := by rw [FileSystem.linkAt, hg]
  rw [FileSystem.readFile, h.openRead hn hlink hg hr]

theorem Passable.create (hc : fs.mayChange loc = true)
    (ho : fs.Only (loc ++ [n]) fun m =>
      m.isRegular = true ∧ fs.canRead m = true ∧ fs.canWrite m = true) :
    ∃ fs', fs.create (Path.toLocation (loc ++ [n])) = .ok (fs', loc ++ [n]) := by
  have hlink : fs.linkAt (loc ++ [n]) = none := Only.linkAt fun m hm => (ho m hm).1
  have hs := h.spot hn hlink true
  have hslash : ¬ ((Path.toLocation (loc ++ [n])).toList.getLast? = some '/' ∧
      steps (Path.toLocation (loc ++ [n])) ≠ []) :=
    fun hslash => Path.getLast?_toLocation hn.last.1 loc hslash.1
  rw [FileSystem.create, openWrite, if_neg hslash, hs]
  cases hg : fs.get? (loc ++ [n]) with
  | none =>
    simp only [Option.isSome_none, Bool.false_eq_true, if_false, hc, if_true]
    exact ⟨_, rfl⟩
  | some m =>
    obtain ⟨hreg, hread, hwrite⟩ := ho m hg
    simp only [Option.isSome_some, if_true, hg, isDir_of_isRegular hreg, Bool.false_eq_true,
      if_false, hread, hwrite, Bool.and_self]
    exact ⟨_, rfl⟩

theorem Passable.mkdir (hc : fs.mayChange loc = true) (hg : fs.get? (loc ++ [n]) = none) :
    fs.mkdir (Path.toLocation (loc ++ [n])) = .ok (fs.set (loc ++ [n]) (.dir newDirMode)) := by
  rw [FileSystem.mkdir, h.entry hn]
  simp only [hg, Option.isSome_none, Bool.false_eq_true, if_false, hc, if_true]

theorem Passable.rename {b : Location} {t : String} {m : Node} (hb : fs.Passable b)
    (ht : Nameable (b ++ [t])) (hc : fs.mayChange loc = true)
    (hcb : fs.mayChange b = true) (hg : fs.get? (loc ++ [n]) = some m) (hm : m.isRegular = true)
    (ho : fs.Only (b ++ [t]) fun m => m.isRegular = true) (hne : loc ++ [n] ≠ b ++ [t])
    (hother : fs.sameFile (loc ++ [n]) (b ++ [t]) = false) :
    fs.rename (Path.toLocation (loc ++ [n])) (Path.toLocation (b ++ [t])) =
      if fs.deviceOf loc = fs.deviceOf b then .ok ((fs.erase (loc ++ [n])).set (b ++ [t]) m)
      else .error .otherDevice := by
  rw [FileSystem.rename, h.entry hn, hb.entry ht]
  dsimp only
  by_cases hd : fs.deviceOf loc = fs.deviceOf b
  · have hnot : (fs.get? (b ++ [t])).any Node.isDir = false := by
      cases hgb : fs.get? (b ++ [t]) with
      | none => rfl
      | some k => exact isDir_of_isRegular (ho k hgb)
    rw [if_neg (not_not.mpr hd), if_pos hd, hg]
    simp only [isDir_of_isRegular hm, hne, hother, hc, hcb, hnot, Bool.and_self, Bool.true_eq_false,
      Bool.false_eq_true, or_self, if_false]
  · rw [if_pos hd, if_neg hd]

end Operations

theorem Passable.congr (h : fs.Passable loc) (ht : fs'.terms = fs.terms)
    (hg : ∀ x, x <+: loc → fs'.get? x = fs.get? x) : fs'.Passable loc := by
  intro x hx
  obtain ⟨mode, hmode, hs⟩ := enter_eq_ok.mp (h x hx)
  exact enter_eq_ok.mpr ⟨mode, (hg x hx).trans hmode, by rw [canSearch_of_terms ht, hs]⟩

structure OpenDir (fs : FileSystem) (loc : Location) : Prop where
  passable : fs.Passable loc
  change : fs.mayChange loc = true

theorem mayChange_congr (ht : fs'.terms = fs.terms) (hg : fs'.get? loc = fs.get? loc) :
    fs'.mayChange loc = fs.mayChange loc := by
  rw [mayChange, mayChange, hg]
  split
  · rw [canWrite_of_terms ht, canSearch_of_terms ht]
  · rfl

theorem OpenDir.congr (h : fs.OpenDir loc) (ht : fs'.terms = fs.terms)
    (hg : ∀ x, x <+: loc → fs'.get? x = fs.get? x) : fs'.OpenDir loc := by
  refine ⟨h.passable.congr ht hg, ?_⟩
  rw [mayChange_congr ht (hg loc (List.prefix_refl loc))]
  exact h.change

/-- Something that is no directory can be found at a place without following a link. -/
structure HasFile (fs : FileSystem) (loc : Location) : Prop where
  nameable : Nameable loc
  split : ∃ x s, loc = x ++ [s] ∧ fs.Passable x
  node : ∃ m, fs.get? loc = some m ∧ m.isDir = false
  link : fs.linkAt loc = none

theorem HasFile.congr (h : fs.HasFile loc) (ht : fs'.terms = fs.terms)
    (hg : ∀ x, x <+: loc → fs'.get? x = fs.get? x) : fs'.HasFile loc := by
  obtain ⟨x, s, hsplit, hp⟩ := h.split
  have hloc := hg loc (List.prefix_refl loc)
  refine ⟨h.nameable, ⟨x, s, hsplit, hp.congr ht fun y hy => hg y ?_⟩, by rw [hloc]; exact h.node, ?_⟩
  · rw [hsplit]
    exact hy.trans (List.prefix_append x [s])
  · rw [FileSystem.linkAt, hloc]
    exact h.link

theorem HasFile.fileExists (h : fs.HasFile loc) : fs.fileExists (Path.toLocation loc) = true := by
  obtain ⟨x, s, rfl, hp⟩ := h.split
  obtain ⟨m, hm, hd⟩ := h.node
  have hstat := hp.stat h.nameable h.link
  rw [hm] at hstat
  exact fileExists_eq_true.mpr ⟨m, hstat, hd⟩

theorem Straight.hasFile (h : fs.Straight loc) (hloc : ∀ s ∈ loc, Path.IsName s)
    (hroot : fs.enter [] = .ok ()) (he : fs.fileExists (Path.toLocation loc) = true) :
    fs.HasFile loc := by
  obtain ⟨m, hstat, hd⟩ := fileExists_eq_true.mp he
  obtain ⟨l, hspot, hm⟩ := stat_eq_ok hstat
  obtain ⟨rfl, henter, hnameable⟩ := h.spot_node hloc hspot
  refine ⟨hnameable, ?_, ⟨m, hm, hd⟩, h l (List.prefix_refl l)⟩
  rcases List.eq_nil_or_concat l with rfl | ⟨x, s, rfl⟩
  · rw [isDir_of_enter hroot hm] at hd
    cases hd
  · rw [List.concat_eq_append] at henter
    exact ⟨x, s, List.concat_eq_append, passable_of_proper henter⟩

end Crosscheck.FileSystem
