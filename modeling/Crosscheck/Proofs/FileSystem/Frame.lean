import Crosscheck.Proofs.FileSystem.Access

namespace Crosscheck.FileSystem

variable {X Y : Location → Prop} {fs fs₁ fs' : FileSystem} {p : String}

/-- Nothing happened but at the given places, directories that are new apart, and no link is new. -/
structure Touches (X : Location → Prop) (fs fs' : FileSystem) : Prop where
  terms : fs'.terms = fs.terms
  nextId : fs.nextId ≤ fs'.nextId
  links : ∀ l target, fs'.linkAt l = some target → fs.linkAt l = some target
  get? : ∀ l, ¬ X l → fs'.get? l = fs.get? l ∨
    (fs.get? l = none ∧ fs'.get? l = some (.dir newDirMode))

namespace Touches

theorem refl (X : Location → Prop) (fs : FileSystem) : Touches X fs fs :=
  ⟨rfl, Nat.le_refl _, fun _ _ h => h, fun _ _ => .inl rfl⟩

theorem get?_some (h : Touches X fs fs') {l : Location} {n : Node} (hl : ¬ X l)
    (hn : fs.get? l = some n) : fs'.get? l = some n := by
  rcases h.get? l hl with hs | ⟨hnone, _⟩
  · rw [hs, hn]
  · rw [hn] at hnone
    cases hnone

theorem trans (h : Touches X fs fs₁) (h' : Touches X fs₁ fs') : Touches X fs fs' := by
  refine ⟨h'.terms.trans h.terms, Nat.le_trans h.nextId h'.nextId,
    fun l target hl => h.links l target (h'.links l target hl), fun l hl => ?_⟩
  rcases h.get? l hl with hs | ⟨hnone, hdir⟩
  · rw [← hs]
    exact h'.get? l hl
  · exact .inr ⟨hnone, h'.get?_some hl hdir⟩

theorem mono (h : Touches X fs fs') (hXY : ∀ l, X l → Y l) : Touches Y fs fs' :=
  ⟨h.terms, h.nextId, h.links, fun l hl => h.get? l fun hx => hl (hXY l hx)⟩

theorem linkAt (h : Touches X fs fs') (hX : ∀ l, X l → fs.linkAt l = none) :
    fs'.linkAt = fs.linkAt := by
  funext l
  by_cases hl : X l
  · rw [hX l hl, Option.eq_none_iff_forall_ne_some]
    intro target ht
    have hold := h.links l target ht
    rw [hX l hl] at hold
    cases hold
  · rcases h.get? l hl with hs | ⟨hnone, hdir⟩
    · rw [FileSystem.linkAt, FileSystem.linkAt, hs]
    · rw [FileSystem.linkAt, FileSystem.linkAt, hnone, hdir]

end Touches

theorem Furnished.touches (h : Furnished fs fs') : Touches X fs fs' := by
  refine ⟨h.terms, Nat.le_of_eq h.nextId.symm, fun l target hl => ?_, fun l _ => h.get? l⟩
  rwa [h.linkAt] at hl

/-- Where a path leads depends on the links alone. -/
theorem lead_congr (ht : fs'.terms = fs.terms) (hl : fs'.linkAt = fs.linkAt) (through : Bool)
    (p : String) : fs'.lead through p = fs.lead through p := by
  rw [lead, lead, hl, start, start, cwd_of_terms ht]

theorem erase_touches {loc : Location} (hX : X loc) : Touches X fs (fs.erase loc) := by
  refine ⟨rfl, Nat.le_refl _, fun l target hl => ?_, fun l hl => .inl ?_⟩
  · rw [linkAt_eq_some, get?_erase] at hl
    split at hl
    · cases hl
    · exact linkAt_eq_some.mpr hl
  · rw [get?_erase, if_neg]
    rintro rfl
    exact hl hX

theorem erase_within (fs : FileSystem) (loc : Location) : Within (fs.erase loc) fs := by
  refine ⟨rfl, fun l n hn => ?_⟩
  rw [get?_erase] at hn
  split at hn
  · cases hn
  · exact hn

def Unlinked (fs : FileSystem) (p : String) : Prop :=
  ∀ l, fs.lead false p = some l → fs.linkAt l = none

theorem Unlinked.congr (h : Unlinked fs p) (ht : fs'.terms = fs.terms)
    (hl : fs'.linkAt = fs.linkAt) : Unlinked fs' p := by
  intro l hlead
  rw [lead_congr ht hl] at hlead
  rw [hl]
  exact h l hlead

theorem leadWith_false_isSome {links : Location → Option String}
    {follow : Location → String → Option Location} {loc l : Location} {ss : List String}
    (h : leadWith links follow true loc ss = some l) :
    ∃ l', leadWith links follow false loc ss = some l' := by
  induction ss generalizing loc with
  | nil => exact ⟨loc, rfl⟩
  | cons s rest ih =>
    rw [leadWith] at h ⊢
    split
    · rename_i hs
      rw [if_pos hs] at h
      exact ih h
    rename_i hdot
    rw [if_neg hdot] at h
    split
    · rename_i hs
      rw [if_pos hs] at h
      exact ih h
    rename_i hdotdot
    rw [if_neg hdotdot] at h
    split at h
    · exact ih h
    · split
      · exact ⟨_, rfl⟩
      · simp only [Bool.not_true, Bool.and_false, Bool.false_eq_true, if_false] at h
        obtain ⟨found, hf, hr⟩ := Option.bind_eq_some_iff.mp h
        rw [hf, Option.bind_some]
        exact ih hr

theorem Unlinked.lead_eq (h : Unlinked fs p) {l : Location} (hl : fs.lead true p = some l) :
    fs.lead false p = some l := by
  obtain ⟨l', hl'⟩ := leadWith_false_isSome hl
  have ht : fs.lead true p = some l' := leadWith_through _ _ hl' (h l' hl')
  rw [hl, Option.some.injEq] at ht
  rw [ht]
  exact hl'

theorem remove_touches (h : fs.remove p = .ok fs') (hX : ∀ l, fs.lead false p = some l → X l) :
    Touches X fs fs' := by
  obtain ⟨dir, s, slash, n, he, _, _, _, rfl⟩ := remove_eq_ok h
  exact erase_touches (hX _ (entry_lead he))

theorem Unlinked.not_link {l : Location} {n : Node} (h : Unlinked fs p)
    (hl : fs.lead false p = some l) (hn : fs.get? l = some n) (aim : String) : n ≠ .link aim := by
  rintro rfl
  exact linkAt_eq_none.mp (h l hl) aim hn

theorem remove_of_pathFault? {e : Errno} (h : pathFault? p = some e) :
    fs.remove p = refused "remove" p e := by
  have hentry : fs.entry p = .error e := by rw [entry, h]
  rw [remove, unlink, rmdir, hentry]
  simp

theorem remove_reached {as x : Location} (has : ∀ s ∈ as, Path.IsName s)
    (hreach : fs.Reaches (Path.toLocation as) x) (hun : Unlinked fs (Path.toLocation as))
    (hfull : fs.isEmptyDir x = false) :
    ∃ e, fs.remove (Path.toLocation as) = .error e ∧ e.errno ≠ .notFound := by
  cases hfault : pathFault? (Path.toLocation as) with
  | some e =>
    refine ⟨_, remove_of_pathFault? hfault, ?_⟩
    rintro rfl
    exact pathFault?_ne_notFound (Path.toLocation_ne_empty as) hfault
  | none =>
  rcases List.eq_nil_or_concat as with rfl | ⟨front, s, hsplit⟩
  · have hentry : fs.entry (Path.toLocation []) = .ok ⟨[], .root, false⟩ := by
      rw [entry, hfault, Path.steps_toLocation has]
      rfl
    refine ⟨⟨"remove", Path.toLocation [], .busy⟩, ?_, by simp⟩
    rw [remove, unlink, rmdir, hentry]
    rfl
  · rw [List.concat_eq_append] at hsplit
    subst as
    have hfront : ∀ s ∈ front, Path.IsName s := fun t ht => has t (by simp [ht])
    have hs : Path.IsName s := has s (by simp)
    obtain ⟨hwalk, henter⟩ := hreach
    rw [Path.steps_toLocation has] at hwalk
    obtain ⟨d, hd, hlast⟩ := walkWith_append hwalk
    obtain ⟨he, hplain⟩ : fs.enter d = .ok () ∧ Plain s := by
      cases walk_of_walkWith hlast with
      | dot => exact absurd rfl hs.ne_dot
      | dotdot => exact absurd rfl hs.ne_dotdot
      | into he hp | stay he hp | along he hp => exact ⟨he, hp⟩
    have hreach' : fs.Reaches (Path.toLocation front) d := by
      refine ⟨?_, he⟩
      rw [Path.steps_toLocation hfront]
      simpa only [start, Path.isAbs_toLocation, if_true] using hd
    have hentry := hreach'.entry hfront hs hfault
    rw [if_neg (Nat.not_lt.mpr hplain.2.2)] at hentry
    have hx : d ++ [s] = x := by
      have hlead : fs.lead true (Path.toLocation (front ++ [s])) = some (d ++ [s]) :=
        leadWith_through _ _ (entry_lead hentry) (hun _ (entry_lead hentry))
      rw [Reaches.lead ⟨by rw [Path.steps_toLocation has]; exact hwalk, henter⟩,
        Option.some.injEq] at hlead
      exact hlead.symm
    obtain ⟨mode, hmode, _⟩ := enter_eq_ok.mp henter
    rw [← hx] at hmode hfull
    rw [remove_of_entry hentry, hmode]
    dsimp only
    split
    · exact ⟨_, rfl, by simp⟩
    · rw [if_pos ⟨rfl, hfull⟩]
      exact ⟨_, rfl, by simp⟩

def Only (fs : FileSystem) (l : Location) (Q : Node → Prop) : Prop := ∀ n, fs.get? l = some n → Q n

theorem Only.within {l : Location} {Q : Node → Prop} (h : fs.Only l Q) (hw : Within fs' fs) :
    fs'.Only l Q := fun n hn => h n (hw.get? l n hn)

theorem Only.furnished {l : Location} {Q : Node → Prop} (h : fs.Only l Q) (hf : Furnished fs fs')
    (hdir : Q (.dir newDirMode)) : fs'.Only l Q := by
  intro n hn
  rcases hf.get? l with hl | ⟨_, hl⟩
  · exact h n (hl ▸ hn)
  · rw [hl, Option.some.injEq] at hn
    rwa [← hn]

theorem remove_within (h : fs.remove p = .ok fs') : Within fs' fs := by
  obtain ⟨dir, s, slash, n, _, _, _, _, rfl⟩ := remove_eq_ok h
  exact erase_within fs _

theorem set_touches {loc : Location} {n : Node} (hX : X loc) (hn : ∀ aim, n ≠ .link aim) :
    Touches X fs (fs.set loc n) := by
  refine ⟨rfl, Nat.le_refl _, fun l aim hl => ?_, fun l hl => .inl ?_⟩
  · rw [linkAt_eq_some, get?_set] at hl
    split at hl
    · rw [Option.some.injEq] at hl
      exact absurd hl (hn aim)
    · exact linkAt_eq_some.mpr hl
  · rw [get?_set, if_neg]
    rintro rfl
    exact hl hX

theorem rename_touches {source target : String} (h : fs.rename source target = .ok fs')
    (hs : Unlinked fs source) (hXs : ∀ l, fs.lead false source = some l → X l)
    (hXt : ∀ l, fs.lead false target = some l → X l) : Touches X fs fs' := by
  obtain ⟨a, s, slash, b, t, slash', n, he, he', hn, _, _, rfl⟩ := rename_eq_ok h
  have ha : X (a ++ [s]) := hXs _ (entry_lead he)
  have hb : X (b ++ [t]) := hXt _ (entry_lead he')
  split
  · exact .refl X fs
  · exact (erase_touches ha).trans (set_touches hb (hs.not_link (entry_lead he) hn))

/-- The names of what stands at a place: the place, and where there is a file, its other names. -/
def Alias (fs : FileSystem) (loc l : Location) : Prop := l = loc ∨ fs.sameFile l loc = true

instance (fs : FileSystem) (loc l : Location) : Decidable (fs.Alias loc l) :=
  inferInstanceAs (Decidable (_ ∨ _))

theorem Alias.linkAt {loc l : Location} (h : fs.Alias loc l) (hloc : fs.linkAt loc = none) :
    fs.linkAt l = none := by
  rcases h with rfl | h
  · exact hloc
  · obtain ⟨_, _, _, _, _, hl, _⟩ := sameFile_eq_true.mp h
    rw [FileSystem.linkAt, hl]

theorem Furnished.alias (h : Furnished fs fs') {loc l : Location} (ha : fs'.Alias loc l) :
    fs.Alias loc l := by
  refine ha.imp_right fun hsame => ?_
  have hfile : ∀ {x id mode bytes}, fs'.get? x = some (.file id mode bytes) →
      fs.get? x = some (.file id mode bytes) := by
    intro x id mode bytes hx
    rcases h.get? x with he | ⟨_, hdir⟩
    · rw [← he, hx]
    · rw [hdir] at hx
      cases hx
  obtain ⟨id, mode, bytes, mode', bytes', hl, hloc⟩ := sameFile_eq_true.mp hsame
  exact sameFile_eq_true.mpr ⟨id, mode, bytes, mode', bytes', hfile hl, hfile hloc⟩

theorem setBytes_touches {loc : Location} {bytes : ByteArray}
    (hX : ∀ l, fs.sameFile l loc = true → X l) : Touches X fs (fs.setBytes loc bytes) := by
  refine ⟨terms_setBytes .., by rw [nextId_setBytes], fun l aim hl => ?_, fun l hl => .inl ?_⟩
  · rw [linkAt_eq_some, get?_setBytes] at hl
    split at hl
    · obtain ⟨n, hn, hw⟩ := Option.map_eq_some_iff.mp hl
      rw [linkAt_eq_some, hn, Node.eq_link_of_withBytes hw]
    · exact linkAt_eq_some.mpr hl
  · rw [get?_setBytes, if_neg fun hsame => hl (hX l hsame)]

theorem create_touches {loc : Location} (h : fs.create p = .ok (fs', loc)) (hp : Unlinked fs p) :
    fs.lead false p = some loc ∧ Touches (fs.Alias loc) fs fs' ∧
      ∀ l, fs'.sameFile l loc = true → fs.Alias loc l := by
  obtain ⟨hl, hterms, hid, hloc, hdir, helse⟩ := create_eq_ok h
  have hlead := hp.lead_eq hl
  refine ⟨hlead, ⟨hterms, hid, fun l aim hto => ?_, fun l hnot => .inl ?_⟩, fun l hsame => ?_⟩
  · by_cases he : l = loc
    · subst l
      rw [linkAt_eq_some, hloc, Option.some.injEq] at hto
      have hlink := Node.eq_link_of_withBytes hto
      cases hn : fs.get? loc with
      | none =>
        rw [hn] at hlink
        cases hlink
      | some n =>
        rw [hn] at hlink
        exact absurd hlink (hp.not_link hlead hn aim)
    · rw [linkAt_eq_some, helse l he] at hto
      split at hto
      · obtain ⟨n, hn, hw⟩ := Option.map_eq_some_iff.mp hto
        rw [linkAt_eq_some, hn, Node.eq_link_of_withBytes hw]
      · exact linkAt_eq_some.mpr hto
  · rw [Alias, not_or] at hnot
    rw [helse l hnot.1, if_neg hnot.2]
  · by_cases he : l = loc
    · exact .inl he
    · refine .inr ?_
      obtain ⟨id, mode, bytes, mode', bytes', hl', hloc'⟩ := sameFile_eq_true.mp hsame
      rw [helse l he] at hl'
      split at hl'
      · assumption
      rw [hloc, Option.some.injEq] at hloc'
      cases hg : fs.get? loc with
      | none =>
        rw [hg] at hloc'
        cases hloc'
        exact absurd (lt_freshId hl') (Nat.lt_irrefl _)
      | some n =>
        rw [hg] at hloc'
        cases n with
        | file i m b =>
          cases hloc'
          exact sameFile_eq_true.mpr ⟨_, _, _, _, _, hl', hg⟩
        | dir | link | fifo => cases hloc'

def Sole (S : Location → Prop) (fs : FileSystem) : Prop :=
  ∀ l, S l → ∀ k, fs.sameFile k l = true → k = l

def KeepsNames (fs fs' : FileSystem) : Prop :=
  ∀ k l, fs'.sameFile k l = true → k = l ∨ fs.sameFile k l = true

theorem KeepsNames.refl (fs : FileSystem) : KeepsNames fs fs := fun _ _ h => .inr h

theorem KeepsNames.trans (h : KeepsNames fs fs₁) (h' : KeepsNames fs₁ fs') : KeepsNames fs fs' :=
  fun k l hsame => (h' k l hsame).elim .inl (h k l)

theorem Sole.keepsNames {S : Location → Prop} (h : Sole S fs) (hk : KeepsNames fs fs') :
    Sole S fs' := fun l hl k hsame => (hk k l hsame).elim id (h l hl k)

/-- Two places hold one file only if they did where the files have the numbers that they had. -/
theorem KeepsNames.of_files (h : ∀ l id mode bytes, fs'.get? l = some (.file id mode bytes) →
    ∃ mode' bytes', fs.get? l = some (.file id mode' bytes')) : KeepsNames fs fs' := by
  intro k l hsame
  obtain ⟨id, _, _, _, _, hk, hl⟩ := sameFile_eq_true.mp hsame
  obtain ⟨_, _, hk⟩ := h k _ _ _ hk
  obtain ⟨_, _, hl⟩ := h l _ _ _ hl
  exact .inr (sameFile_eq_true.mpr ⟨id, _, _, _, _, hk, hl⟩)

theorem Sole.of_nodes {S : Location → Prop}
    (h : ∀ e ∈ fs.nodes, ∀ e' ∈ fs.nodes, fs.sameFile e.1 e'.1 = true → e.1 = e'.1) : Sole S fs := by
  intro l _ k hsame
  obtain ⟨_, _, _, _, _, hk, hl⟩ := sameFile_eq_true.mp hsame
  exact h _ (mem_nodes_of_get? hk) _ (mem_nodes_of_get? hl) hsame

theorem Within.keepsNames (h : Within fs' fs) : KeepsNames fs fs' :=
  .of_files fun l _ mode bytes hl => ⟨mode, bytes, h.get? l _ hl⟩

theorem Furnished.keepsNames (h : Furnished fs fs') : KeepsNames fs fs' :=
  fun _ _ hsame => h.alias (.inr hsame)

theorem setBytes_keepsNames (fs : FileSystem) (loc : Location) (bytes : ByteArray) :
    KeepsNames fs (fs.setBytes loc bytes) := by
  refine .of_files fun l id mode b hl => ?_
  rw [get?_setBytes] at hl
  split at hl
  · obtain ⟨n, hn, hw⟩ := Option.map_eq_some_iff.mp hl
    cases n with
    | file => cases hw; exact ⟨_, _, hn⟩
    | dir | link | fifo => cases hw
  · exact ⟨_, _, hl⟩

theorem addFile_keepsNames (fs : FileSystem) (loc : Location) (mode : Nat) (bytes : ByteArray) :
    KeepsNames fs (fs.addFile loc mode bytes) := by
  have hfresh : ∀ l, l ≠ loc → (fs.addFile loc mode bytes).sameFile l loc ≠ true := by
    intro l hne
    rw [sameFile_addFile hne]
    exact Bool.false_ne_true
  intro k l hsame
  by_cases hk : k = loc
  · by_cases hl : l = loc
    · exact .inl (hk.trans hl.symm)
    · rw [hk, sameFile_comm] at hsame
      exact absurd hsame (hfresh l hl)
  by_cases hl : l = loc
  · rw [hl] at hsame
    exact absurd hsame (hfresh k hk)
  refine .inr ?_
  rw [sameFile_eq_true, get?_addFile, get?_addFile, if_neg hk, if_neg hl] at hsame
  exact sameFile_eq_true.mpr hsame

theorem create_keepsNames {loc : Location} (h : fs.create p = .ok (fs', loc)) :
    KeepsNames fs fs' := by
  rw [create] at h
  split at h
  · cases h
  rename_i fs₁ l ho
  cases h
  obtain ⟨_, ⟨_, rfl⟩ | ⟨_, _, _, rfl⟩⟩ := openWrite_eq_ok ho
  · exact (addFile_keepsNames _ _ _ _).trans (setBytes_keepsNames _ _ _)
  · exact setBytes_keepsNames _ _ _

/-- What is renamed takes a name of a file that had no other to a place of its own. -/
theorem rename_sole {S : Location → Prop} {source target : String}
    (h : fs.rename source target = .ok fs') (hs : Sole S fs)
    (hS : ∀ a b, fs.lead false source = some a → fs.lead false target = some b → S b → S a) :
    Sole S fs' := by
  obtain ⟨d, s, _, d', t, _, n, he, he', hn, _, _, rfl⟩ := rename_eq_ok h
  split
  · exact hs
  rename_i hne
  have hget : ∀ l, l ≠ d' ++ [t] → ∀ {m}, ((fs.erase (d ++ [s])).set (d' ++ [t]) n).get? l = some m →
      l ≠ d ++ [s] ∧ fs.get? l = some m := by
    intro l hl m hm
    rw [get?_set, if_neg hl, get?_erase] at hm
    split at hm
    · cases hm
    · exact ⟨‹_›, hm⟩
  have hplace : ((fs.erase (d ++ [s])).set (d' ++ [t]) n).get? (d' ++ [t]) = some n := by
    rw [get?_set, if_pos rfl]
  intro l hl k hsame
  obtain ⟨id, _, _, _, _, hk, hl'⟩ := sameFile_eq_true.mp hsame
  by_cases hlt : l = d' ++ [t]
  · subst l
    by_cases hkt : k = d' ++ [t]
    · exact hkt
    · obtain ⟨hks, hk⟩ := hget k hkt hk
      rw [hplace, Option.some.injEq] at hl'
      rw [hl'] at hn
      refine absurd (hs _ (hS _ _ (entry_lead he) (entry_lead he') hl) k ?_) hks
      exact sameFile_eq_true.mpr ⟨id, _, _, _, _, hk, hn⟩
  · obtain ⟨hls, hl'⟩ := hget l hlt hl'
    by_cases hkt : k = d' ++ [t]
    · rw [hkt, hplace, Option.some.injEq] at hk
      rw [hk] at hn
      exact absurd (hs l hl _ (sameFile_eq_true.mpr ⟨id, _, _, _, _, hn, hl'⟩)).symm hls
    · obtain ⟨_, hk⟩ := hget k hkt hk
      exact hs l hl k (sameFile_eq_true.mpr ⟨id, _, _, _, _, hk, hl'⟩)

end Crosscheck.FileSystem
