import Crosscheck.Proofs.Artifact
import Crosscheck.Proofs.FileSystem.Making

namespace Crosscheck.Artifact

open FileSystem

variable {fs fs' : FileSystem} {source target : Location} {n : String}

/-- From the first file system to the second, a file was moved to a directory that had none of its
name. On one device it is the same file; on another its bytes are those of a new one. -/
structure Moved (source target : Location) (n : String) (fs fs' : FileSystem) : Prop where
  terms : fs'.terms = fs.terms
  nextId : fs.nextId ≤ fs'.nextId
  left : fs'.get? (source ++ [n]) = none
  arrived : ∀ id mode bytes, fs.get? (source ++ [n]) = some (.file id mode bytes) →
    fs'.get? (target ++ [n]) = some (if fs.deviceOf source = fs.deviceOf target
      then .file id mode bytes else .file fs.freshId newFileMode bytes)
  rest : ∀ l, l ≠ source ++ [n] → l ≠ target ++ [n] → fs'.get? l = fs.get? l

theorem concat_ne_concat (h : ¬ source <+: target) (m n : String) :
    source ++ [m] ≠ target ++ [n] := by
  intro he
  rw [(List.append_inj' he rfl).1] at h
  exact h (List.prefix_refl target)

section Move

variable (hs : fs.OpenDir source) (ht : fs.OpenDir target) (hst : ¬ source <+: target)
  (hts : ¬ target <+: source) (hsn : Nameable (source ++ [n])) (htn : Nameable (target ++ [n]))
  {id mode : Nat} {bytes : ByteArray}
  (hg : fs.get? (source ++ [n]) = some (.file id mode bytes))
  (hnone : fs.get? (target ++ [n]) = none)
  (hcopy : ∀ loc into, fs.lapses loc into = none)

include hs ht hst hts hsn htn hg hnone hcopy

theorem copyAndDelete_openDir (hr : fs.canRead (.file id mode bytes) = true)
    (hd : fs.deviceOf source ≠ fs.deviceOf target) :
    ∃ fs', copyAndDelete fs (Path.toLocation (source ++ [n])) (Path.toLocation (target ++ [n])) =
      (fs', none) ∧ Moved source target n fs fs' := by
  have hlink : fs.linkAt (source ++ [n]) = none := by rw [FileSystem.linkAt, hg]
  obtain ⟨fs₁, hc⟩ := ht.passable.create htn ht.change fun m hm => by
    rw [hnone] at hm
    cases hm
  obtain ⟨_, hterms, hid, hinto, _, helse⟩ := create_eq_ok hc
  have hother : ∀ l, fs.sameFile l (target ++ [n]) = false := fun l => sameFile_of_get?_none hnone
  -- the copy is a new file, so that nothing else changes with its bytes
  have hrest : ∀ l, l ≠ target ++ [n] →
      (fs₁.setBytes (target ++ [n]) bytes).get? l = fs.get? l := by
    intro l hl
    have hold := helse l hl
    rw [hother l, if_neg Bool.false_ne_true] at hold
    have hsame : fs₁.sameFile l (target ++ [n]) = false := by
      rw [← Bool.not_eq_true, sameFile_eq_true]
      rintro ⟨i, m, b, m', b', hl', hnew⟩
      rw [hold] at hl'
      rw [hinto, hnone, Option.some.injEq] at hnew
      cases hnew
      exact Nat.lt_irrefl _ (lt_freshId hl')
    rw [get?_setBytes, hsame, if_neg Bool.false_ne_true, hold]
  have hne := concat_ne_concat hst n n
  have hsource : fs₁.get? (source ++ [n]) = some (.file id mode bytes) := by
    rw [helse _ hne, hother, if_neg Bool.false_ne_true, hg]
  -- the directory of the source is as it was when the source is removed
  have hopen : (fs₁.setBytes (target ++ [n]) bytes).OpenDir source := by
    refine hs.congr ((terms_setBytes _ _ _).trans hterms) fun x hx => hrest x ?_
    rintro rfl
    exact hts ((List.prefix_append target [n]).trans hx)
  have hremove := hopen.passable.remove hsn hopen.change (fun m hm => by
    rw [hrest _ hne, hg, Option.some.injEq] at hm
    rw [← hm]
    rfl)
  rw [hrest _ hne, hg, Option.isSome_some, if_pos rfl] at hremove
  rw [copyAndDelete, hs.passable.openRead hsn hlink hg hr]
  dsimp only
  rw [hc]
  dsimp only
  rw [lapses_of_terms hterms, hcopy]
  dsimp only
  rw [copyBytes, hsource]
  dsimp only [Option.elim_none]
  rw [hremove]
  refine ⟨_, rfl, by simpa using hterms, ?_, ?_, ?_, ?_⟩
  · rw [← nextId_setBytes fs₁ (target ++ [n]) bytes] at hid
    exact hid
  · rw [get?_erase, if_pos rfl]
  · intro id' mode' bytes' hg'
    rw [hg, Option.some.injEq, Node.file.injEq] at hg'
    rw [get?_erase, if_neg hne.symm, get?_setBytes_self, hinto, hnone, if_neg hd, hg'.2.2]
    rfl
  · intro l hl hl'
    rw [get?_erase, if_neg hl, hrest l hl']

theorem move_openDir
    (hr : fs.deviceOf source ≠ fs.deviceOf target → fs.canRead (.file id mode bytes) = true) :
    ∃ fs', move fs (Path.toLocation (source ++ [n])) (Path.toLocation (target ++ [n])) =
      (fs', none) ∧ Moved source target n fs fs' := by
  have hne := concat_ne_concat hst n n
  have ho : fs.Only (target ++ [n]) fun m => m.isRegular = true := by
    intro m hm
    rw [hnone] at hm
    cases hm
  rw [move, hs.passable.rename hsn ht.passable htn hs.change ht.change hg rfl ho hne
    (sameFile_of_get?_none hnone)]
  by_cases hd : fs.deviceOf source = fs.deviceOf target
  · rw [if_pos hd]
    refine ⟨_, rfl, rfl, Nat.le_refl _, ?_, ?_, ?_⟩
    · rw [get?_set, if_neg hne, get?_erase, if_pos rfl]
    · intro id' mode' bytes' hg'
      rw [get?_set, if_pos rfl, if_pos hd, ← hg, hg']
    · intro l hl hl'
      rw [get?_set, if_neg hl', get?_erase, if_neg hl]
  · rw [if_neg hd]
    exact copyAndDelete_openDir hs ht hst hts hsn htn hg hnone hcopy (hr hd) hd

end Move

structure Discarded (source : Location) (base : String) (exts : List String)
    (fs fs' : FileSystem) : Prop extends Within fs' fs where
  nextId : fs'.nextId = fs.nextId
  rest : ∀ l, (∀ e ∈ exts, l ≠ source ++ [base ++ e]) → fs'.get? l = fs.get? l

theorem discard_openDir {base primaryExt : String} {exts : List String} (hs : fs.OpenDir source)
    (hnames : ∀ e ∈ exts, Nameable (source ++ [base ++ e]))
    (ho : ∀ e ∈ exts, fs.Only (source ++ [base ++ e]) fun m => m.isDir = false) :
    ∃ fs', discard fs (Path.toLocation source) base primaryExt exts = (fs', none) ∧
      Discarded source base exts fs fs' := by
  induction exts generalizing fs with
  | nil => exact ⟨fs, rfl, .refl fs, rfl, fun _ _ => rfl⟩
  | cons e rest ih =>
    have hrest : ∀ {fs₁ : FileSystem}, fs₁.OpenDir source → Discarded source base [e] fs fs₁ →
        ∃ fs', discard fs₁ (Path.toLocation source) base primaryExt rest = (fs', none) ∧
          Discarded source base (e :: rest) fs fs' := by
      intro fs₁ hs₁ hd₁
      obtain ⟨fs', hd, hd'⟩ := ih hs₁ (fun e' he' => hnames e' (by simp [he']))
        fun e' he' => (ho e' (by simp [he'])).within hd₁.toWithin
      refine ⟨fs', hd, hd'.toWithin.trans hd₁.toWithin, hd'.nextId.trans hd₁.nextId, fun l hl => ?_⟩
      rw [hd'.rest l fun e' he' => hl e' (by simp [he']), hd₁.rest l fun e' he' => hl e' ?_]
      rw [List.mem_singleton.mp he']
      exact List.mem_cons_self
    have hsame : Discarded source base [e] fs fs := ⟨.refl fs, rfl, fun _ _ => rfl⟩
    rw [discard]
    split
    · exact hrest hs hsame
    have hn := hnames e (by simp)
    rw [Path.join_toLocation hn.init.isName hn.last.1,
      hs.passable.remove hn hs.change (ho e (by simp))]
    by_cases hg : (fs.get? (source ++ [base ++ e])).isSome = true
    · rw [if_pos hg]
      refine hrest (hs.congr rfl fun x hx => ?_) ⟨erase_within fs _, rfl, fun l hl => ?_⟩
      · rw [get?_erase, if_neg]
        rintro rfl
        exact not_prefix_of_append _ _ hx
      · rw [get?_erase, if_neg (hl e (by simp))]
    · rw [if_neg hg]
      exact hrest hs hsame

section Collect

variable {base ext : String} {byproducts : List String} {fs₁ : FileSystem} (hs : fs.OpenDir source)
  (hst : ¬ source <+: target) (hts : ¬ target <+: source)
  (hsn : Nameable (source ++ [base ++ ext])) (htn : Nameable (target ++ [base ++ ext]))
  (hnames : ∀ e ∈ byproducts, Nameable (source ++ [base ++ e]))
  (hby : ∀ e ∈ byproducts, fs.Only (source ++ [base ++ e]) fun m => m.isDir = false)
  {id mode : Nat} {bytes : ByteArray}
  (hg : fs.get? (source ++ [base ++ ext]) = some (.file id mode bytes))
  (hr : fs.deviceOf source ≠ fs.deviceOf target → fs.canRead (.file id mode bytes) = true)
  (hplace : fs.get? (target ++ [base ++ ext]) = none)
  (hcopy : ∀ loc into, fs.lapses loc into = none)

include hs hst hts hsn htn hnames hby hg hr hplace hcopy

/-- An artifact that is there is collected once the directories on the way to its place are made: it
is moved there, and the by-products go. -/
theorem collect_built (hdirs : fs.mkdirAll (Path.toLocation target) = (fs₁, none))
    (hb : Built target fs fs₁) (ht : fs₁.OpenDir target) :
    ∃ fs₂ fs₃, Moved source target (base ++ ext) fs₁ fs₂ ∧
      Discarded source base byproducts fs₂ fs₃ ∧
      collect fs (Path.toLocation source) base (Path.toLocation target) ext byproducts =
        ⟨fs₃, some (Path.toLocation (target ++ [base ++ ext])), none⟩ := by
  have hf := hb.toFurnished
  have hbeside : ∀ s, fs₁.get? (source ++ [s]) = fs.get? (source ++ [s]) := fun s =>
    hb.rest _ fun h => hst ((List.prefix_append source [s]).trans h)
  have hs₁ : fs₁.OpenDir source := by
    refine hs.congr hf.terms fun x hx => ?_
    obtain ⟨mode, hmode, _⟩ := enter_eq_ok.mp (hs.passable x hx)
    rw [hmode]
    exact hf.get?_some hmode
  obtain ⟨fs₂, hmove, hm⟩ := move_openDir hs₁ ht hst hts hsn htn ((hbeside _).trans hg)
    ((hb.rest _ (not_prefix_of_append _ _)).trans hplace)
    (by rwa [lapses_of_terms hf.terms])
    (by rwa [canRead_of_terms hf.terms, deviceOf_of_terms hf.terms, deviceOf_of_terms hf.terms])
  have hs₂ : fs₂.OpenDir source := by
    refine hs₁.congr hm.terms fun x hx => hm.rest x ?_ ?_
    · rintro rfl
      exact not_prefix_of_append _ _ hx
    · rintro rfl
      exact hts ((List.prefix_append target _).trans hx)
  have hby₂ : ∀ e ∈ byproducts, fs₂.Only (source ++ [base ++ e]) fun m => m.isDir = false := by
    intro e he m hm'
    by_cases hsame : source ++ [base ++ e] = source ++ [base ++ ext]
    · rw [hsame, hm.left] at hm'
      cases hm'
    · rw [hm.rest _ hsame (concat_ne_concat hst _ _), hbeside] at hm'
      exact hby e he m hm'
  obtain ⟨fs₃, hdiscard, hd⟩ := @discard_openDir fs₂ source base ext byproducts hs₂ hnames hby₂
  have hstat := hs.passable.stat hsn (by rw [FileSystem.linkAt, hg])
  rw [hg] at hstat
  refine ⟨fs₂, fs₃, hm, hd, ?_⟩
  rw [collect, Path.join_toLocation hsn.init.isName hsn.last.1,
    Path.join_toLocation htn.init.isName htn.last.1, hstat]
  dsimp only
  rw [if_neg (show ¬ (Node.file id mode bytes).isDir = true from Bool.false_ne_true), hdirs]
  dsimp only
  rw [hmove]
  dsimp only
  rw [hdiscard]
  rfl

theorem collect_delivers (hroad : fs.Road target) (hne : target ≠ []) :
    ∃ fs₁ fs₂ fs₃, Built target fs fs₁ ∧ Moved source target (base ++ ext) fs₁ fs₂ ∧
      Discarded source base byproducts fs₂ fs₃ ∧
      collect fs (Path.toLocation source) base (Path.toLocation target) ext byproducts =
        ⟨fs₃, some (Path.toLocation (target ++ [base ++ ext])), none⟩ := by
  obtain ⟨fs₁, hdirs, hb⟩ := mkdirAll_built hne htn.init hroad
  obtain ⟨hp, hc⟩ := hb.passable hroad
  obtain ⟨fs₂, fs₃, hm, hd, hgot⟩ := collect_built hs hst hts hsn htn hnames hby hg hr hplace hcopy
    hdirs hb ⟨hp, hc⟩
  exact ⟨fs₁, fs₂, fs₃, hb, hm, hd, hgot⟩

end Collect

/-- What collecting comes to as far as a directory for artifacts can tell: it is not even made, or an
artifact is delivered to it. -/
inductive Delivers (fs : FileSystem) (source target : Location) (base ext : String)
    (byproducts : List String) : Collected → Prop
  | none {got : Collected} (hok : (got.fault.isNone && got.path.isSome) = false)
      (hf : Furnished fs got.fs) (hrest : ∀ l, (l <+: target → l = target) → got.fs.get? l = fs.get? l) :
      Delivers fs source target base ext byproducts got
  | one {got : Collected} {fs₁ fs₂ : FileSystem}
      (hok : (got.fault.isNone && got.path.isSome) = true) (hb : Built target fs fs₁)
      (hnew : fs₁.get? target = some (.dir newDirMode))
      (hm : Moved source target (base ++ ext) fs₁ fs₂)
      (harrived : (fs₂.get? (target ++ [base ++ ext])).any Node.isRegular = true)
      (hd : Discarded source base byproducts fs₂ got.fs) :
      Delivers fs source target base ext byproducts got

/-- Directories that were made for an artifact are open, if the last of them was there before as it
is made, or was not there. -/
theorem openDir_of_built {fs₁ : FileSystem} (hb : Built target fs fs₁)
    (henter : ∀ x, x <+: target → x ≠ target → fs₁.enter x = .ok ())
    (hlast : fs.Only target (· = .dir newDirMode)) :
    fs₁.get? target = some (.dir newDirMode) ∧ fs₁.OpenDir target := by
  have hnew : fs₁.get? target = some (.dir newDirMode) := by
    obtain ⟨m, hm⟩ := Option.isSome_iff_exists.mp (hb.way target (List.prefix_refl _))
    rcases hb.toFurnished.get? target with he | ⟨_, he⟩
    · rw [hm, hlast m (by rw [← he, hm])]
    · exact he
  refine ⟨hnew, fun x hx => ?_,
    mayChange_eq_true.mpr ⟨_, hnew, canWrite_newDir fs₁, canSearch_newDir fs₁⟩⟩
  by_cases hx' : x = target
  · rw [hx']
    exact enter_eq_ok.mpr ⟨_, hnew, canSearch_newDir fs₁⟩
  · exact henter x hx hx'

/-- From an open directory to one that holds nothing but what was delivered, an artifact is moved
whole or not at all. -/
theorem collect_all_or_none {base ext : String} {byproducts : List String} (hs : fs.OpenDir source)
    (hne : target ≠ []) (htn : Nameable (target ++ [base ++ ext]))
    (hdirs : ∀ x, x <+: target → fs.Only x fun m => m.isDir = true)
    (hlast : fs.Only target (· = .dir newDirMode)) (hst : ¬ source <+: target)
    (hts : ¬ target <+: source) (hsn : ∀ s ∈ source, Path.IsName s)
    (hnames : ∀ e ∈ byproducts, Nameable (source ++ [base ++ e]))
    (hby : ∀ e ∈ byproducts, fs.Only (source ++ [base ++ e]) fun m => m.isDir = false)
    (hleft : fs.Only (source ++ [base ++ ext]) fun m => m.isRegular = true ∧
      (fs.deviceOf source ≠ fs.deviceOf target → fs.canRead m = true))
    (hplace : fs.get? (target ++ [base ++ ext]) = none)
    (hcopy : ∀ loc into, fs.lapses loc into = none) :
    Delivers fs source target base ext byproducts
      (collect fs (Path.toLocation source) base (Path.toLocation target) ext byproducts) := by
  have hn : Path.IsName (base ++ ext) := htn.last.1
  have hpath := Path.join_toLocation hsn hn
  cases hstat : fs.stat (Path.toLocation (source ++ [base ++ ext])) with
  | error e =>
    have hgot : collect fs (Path.toLocation source) base (Path.toLocation target) ext byproducts =
        ⟨fs, none, some (.missing (Path.toLocation (source ++ [base ++ ext])))⟩ := by
      rw [collect, hpath, hstat]
    rw [hgot]
    exact .none rfl (.refl fs) fun _ _ => rfl
  | ok n =>
    obtain ⟨l, hspot, hm⟩ := stat_eq_ok hstat
    have hstraight : fs.Straight (source ++ [base ++ ext]) := by
      intro x hx
      rcases List.prefix_concat_iff.mp hx with rfl | hx
      · exact Only.linkAt fun m hm => (hleft m hm).1
      · exact hs.passable.straight x hx
    obtain ⟨rfl, _, hsource⟩ := hstraight.spot_node (fun s hmem => by
      rcases List.mem_append.mp hmem with hmem | hmem
      · exact hsn s hmem
      · rw [List.mem_singleton.mp hmem]
        exact hn) hspot
    obtain ⟨hregular, hread⟩ := hleft n hm
    have hroot : (fs.get? []).isSome = true := by
      obtain ⟨mode, hmode, _⟩ := enter_eq_ok.mp (hs.passable [] List.nil_prefix)
      rw [hmode]
      rfl
    have hmakes := mkdirAll_makes hne htn.init.isName hroot hdirs
    rcases hall : fs.mkdirAll (Path.toLocation target) with ⟨fs₁, _ | e⟩
    · rw [hall] at hmakes
      cases hmakes with
      | made hb _ henter =>
      obtain ⟨hnew, hopen⟩ := openDir_of_built hb henter hlast
      cases n with
      | dir | link | fifo => cases hregular
      | file id mode bytes =>
      obtain ⟨fs₂, fs₃, hmoved, hdiscarded, hgot⟩ := collect_built hs hst hts hsource htn hnames hby
        hm hread hplace hcopy hall hb hopen
      rw [hgot]
      refine .one rfl hb hnew hmoved ?_ hdiscarded
      rw [hmoved.arrived id mode bytes (hb.toFurnished.get?_some hm)]
      split <;> rfl
    · rw [hall] at hmakes
      cases hmakes with
      | short hf hrest =>
      have hgot : collect fs (Path.toLocation source) base (Path.toLocation target) ext byproducts =
          ⟨fs₁, none, some (.os e)⟩ := by
        rw [collect, hpath, hstat]
        dsimp only
        rw [if_neg (by rw [isDir_of_isRegular hregular]; exact Bool.false_ne_true), hall]
      rw [hgot]
      exact .none rfl hf hrest

end Crosscheck.Artifact
