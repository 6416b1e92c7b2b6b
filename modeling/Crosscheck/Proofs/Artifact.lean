import Crosscheck.Artifact
import Crosscheck.Proofs.FileSystem.Frame

namespace Crosscheck.Artifact

open FileSystem

variable {X : Location → Prop} {fs fs' : FileSystem} {source target : String}

theorem copyBytes_touches {loc into : Location} {upTo : Option Nat}
    (hX : ∀ l, fs.sameFile l into = true → X l) : Touches X fs (copyBytes fs loc into upTo) := by
  rw [copyBytes]
  split
  · exact setBytes_touches hX
  · exact .refl X fs

section Copies

variable (fs) (source target)

/-- The ways in which copying a file and removing it can end: it is not read, no file is made for
it, the copy comes to a halt, the file is kept where it was, or it is gone. -/
inductive Copies : FileSystem × Option OsError → Prop
  | unread {e : OsError} (h : fs.openRead source = .error e) : Copies (fs, some e)
  | unmade {e : OsError} (h : fs.create target = .error e) : Copies (fs, some e)
  | halted {loc into : Location} {n : Node} {fs₁ fs' : FileSystem} {lapse : Lapse}
      (ho : fs.openRead source = .ok (loc, n)) (hc : fs.create target = .ok (fs₁, into))
      (hl : fs₁.lapses loc into = some lapse)
      (hr : fs' = copyBytes fs₁ loc into (some lapse.written) ∨
        (copyBytes fs₁ loc into (some lapse.written)).remove target = .ok fs') :
      Copies (fs', some lapse.fault)
  | kept {loc into : Location} {n : Node} {fs₁ : FileSystem} {e : OsError}
      (ho : fs.openRead source = .ok (loc, n)) (hc : fs.create target = .ok (fs₁, into))
      (hr : (copyBytes fs₁ loc into none).remove source = .error e) :
      Copies (copyBytes fs₁ loc into none, some e)
  | done {loc into : Location} {n : Node} {fs₁ fs' : FileSystem}
      (ho : fs.openRead source = .ok (loc, n)) (hc : fs.create target = .ok (fs₁, into))
      (hr : (copyBytes fs₁ loc into none).remove source = .ok fs') : Copies (fs', none)

theorem copyAndDelete_copies : Copies fs source target (copyAndDelete fs source target) := by
  rw [copyAndDelete]
  split
  · rename_i e ho
    exact .unread ho
  rename_i loc n ho
  split
  · rename_i e hc
    exact .unmade hc
  rename_i fs₁ into hc
  split
  · rename_i lapse hl
    dsimp only
    split
    · rename_i fs' hr
      exact .halted ho hc hl (.inr hr)
    · exact .halted ho hc hl (.inl rfl)
  · dsimp only
    split
    · rename_i fs' hr
      exact .done ho hc hr
    · rename_i e hr
      exact .kept ho hc hr

end Copies

section Move

variable (ht : Unlinked fs target) (hXs : ∀ l, fs.lead false source = some l → X l)
  (hXt : ∀ d, fs.lead false target = some d → ∀ l, fs.Alias d l → X l)

include ht

theorem copy_touches {fs₁ : FileSystem} {into : Location} (hc : fs.create target = .ok (fs₁, into))
    (loc : Location) (upTo : Option Nat) :
    fs.lead false target = some into ∧
      Touches (fs.Alias into) fs (copyBytes fs₁ loc into upTo) ∧
      (copyBytes fs₁ loc into upTo).linkAt = fs.linkAt := by
  obtain ⟨hlead, hcreate, hnames⟩ := create_touches hc ht
  have hcopy : Touches (fs.Alias into) fs (copyBytes fs₁ loc into upTo) :=
    hcreate.trans (copyBytes_touches hnames)
  exact ⟨hlead, hcopy, hcopy.linkAt fun l hl => hl.linkAt (ht into hlead)⟩

include hXs hXt

theorem copyAndDelete_touches : Touches X fs (copyAndDelete fs source target).1 := by
  -- what is removed afterwards is found through the links that were there before
  have hcopies : ∀ {fs₁ : FileSystem} {into : Location}, fs.create target = .ok (fs₁, into) →
      ∀ (loc : Location) (upTo : Option Nat), Touches X fs (copyBytes fs₁ loc into upTo) ∧
        ∀ {fs' : FileSystem} {p : String}, (copyBytes fs₁ loc into upTo).remove p = .ok fs' →
          (∀ l, fs.lead false p = some l → X l) → Touches X fs fs' := by
    intro fs₁ into hc loc upTo
    obtain ⟨hlead, htouches, hlinks⟩ := copy_touches ht hc loc upTo
    have hX := htouches.mono (hXt into hlead)
    refine ⟨hX, fun {fs' p} hr hp => hX.trans (remove_touches hr fun l hl => hp l ?_)⟩
    rw [← lead_congr htouches.terms hlinks]
    exact hl
  have h := copyAndDelete_copies fs source target
  generalize copyAndDelete fs source target = ended at h
  cases h with
  | unread | unmade => exact .refl X fs
  | halted _ hc _ hr =>
    obtain ⟨hcopy, hremove⟩ := hcopies hc _ _
    rcases hr with rfl | hr
    · exact hcopy
    · exact hremove hr fun l hl => hXt l hl l (.inl rfl)
  | kept _ hc _ => exact (hcopies hc _ _).1
  | done _ hc hr => exact (hcopies hc _ _).2 hr hXs

theorem move_touches (hs : Unlinked fs source) : Touches X fs (move fs source target).1 := by
  rw [move]
  split
  · rename_i fs₁ hr
    exact rename_touches hr hs hXs fun l hl => hXt l hl l (.inl rfl)
  · exact copyAndDelete_touches ht hXs hXt

end Move

theorem copyBytes_keepsNames (fs : FileSystem) (loc into : Location) (upTo : Option Nat) :
    KeepsNames fs (copyBytes fs loc into upTo) := by
  rw [copyBytes]
  split
  · exact setBytes_keepsNames fs into _
  · exact .refl fs

theorem copyAndDelete_keepsNames (fs : FileSystem) (source target : String) :
    KeepsNames fs (copyAndDelete fs source target).1 := by
  have h := copyAndDelete_copies fs source target
  generalize copyAndDelete fs source target = ended at h
  cases h with
  | unread | unmade => exact .refl fs
  | @halted loc into _ _ _ lapse _ hc _ hr =>
    have hcopy := (create_keepsNames hc).trans (copyBytes_keepsNames _ loc into (some lapse.written))
    rcases hr with rfl | hr
    · exact hcopy
    · exact hcopy.trans (remove_within hr).keepsNames
  | kept _ hc => exact (create_keepsNames hc).trans (copyBytes_keepsNames _ _ _ none)
  | @done loc into _ _ _ _ hc hr =>
    have hcopy := (create_keepsNames hc).trans (copyBytes_keepsNames _ loc into none)
    exact hcopy.trans (remove_within hr).keepsNames

theorem move_sole {S : Location → Prop} (h : Sole S fs)
    (hS : ∀ a b, fs.lead false source = some a → fs.lead false target = some b → S b → S a) :
    Sole S (move fs source target).1 := by
  rw [move]
  split
  · rename_i hr
    exact rename_sole hr h hS
  · exact h.keepsNames (copyAndDelete_keepsNames fs source target)

theorem discard_touches {fs₀ : FileSystem} (hw : Within fs fs₀) {dir base primaryExt : String}
    {exts : List String}
    (hX : ∀ e ∈ exts, e ≠ primaryExt → ∀ l, fs₀.lead false (Path.join [dir, base ++ e]) = some l → X l) :
    Touches X fs (discard fs dir base primaryExt exts).1 := by
  induction exts generalizing fs with
  | nil => exact .refl X fs
  | cons e rest ih =>
    have hrest : ∀ e' ∈ rest, e' ≠ primaryExt → ∀ l,
        fs₀.lead false (Path.join [dir, base ++ e']) = some l → X l :=
      fun e' he' => hX e' (by simp [he'])
    rw [discard]
    split
    · exact ih hw hrest
    rename_i hne
    split
    · rename_i fs₁ hr
      obtain ⟨d, s, slash, n, hentry, _, _, _, rfl⟩ := remove_eq_ok hr
      have hx : X (d ++ [s]) := hX e (by simp) hne _ (hw.entry_lead hentry)
      have hw₁ : Within (fs.erase (d ++ [s])) fs₀ := (erase_within fs _).trans hw
      exact (erase_touches hx).trans (ih hw₁ hrest)
    · split
      · exact ih hw hrest
      · exact .refl X fs

section Only

variable {Q : Node → Prop} (hbytes : ∀ bytes n, Q n → Q (n.withBytes bytes))

include hbytes

theorem copyBytes_only {loc into l : Location} {upTo : Option Nat} (h : fs.Only l Q) :
    (copyBytes fs loc into upTo).Only l Q := by
  intro n hn
  rw [copyBytes] at hn
  split at hn
  · rw [get?_setBytes] at hn
    split at hn
    · obtain ⟨m, hm, rfl⟩ := Option.map_eq_some_iff.mp hn
      exact hbytes _ m (h m hm)
    · exact h n hn
  · exact h n hn

variable (hnew : ∀ id, fs.nextId ≤ id → Q (.file id newFileMode ByteArray.empty))

include hnew

theorem create_only {into l : Location} (h : fs.Only l Q) (hc : fs.create target = .ok (fs', into)) :
    fs'.Only l Q := by
  obtain ⟨_, _, _, hinto, _, helse⟩ := create_eq_ok hc
  intro m hm
  by_cases hl : l = into
  · subst l
    rw [hinto, Option.some.injEq] at hm
    rw [← hm]
    apply hbytes
    cases hg : fs.get? into with
    | none => exact hnew fs.freshId fs.le_freshId
    | some n => exact h n hg
  · rw [helse l hl] at hm
    split at hm
    · obtain ⟨n, hn, rfl⟩ := Option.map_eq_some_iff.mp hm
      exact hbytes _ n (h n hn)
    · exact h m hm

theorem copyAndDelete_only {l : Location} (h : fs.Only l Q) :
    (copyAndDelete fs source target).1.Only l Q := by
  have hcopy : ∀ {fs₁ : FileSystem} {into : Location}, fs.create target = .ok (fs₁, into) →
      ∀ {loc : Location} {upTo : Option Nat}, (copyBytes fs₁ loc into upTo).Only l Q :=
    fun hc => copyBytes_only hbytes (create_only hbytes hnew h hc)
  have hends := copyAndDelete_copies fs source target
  generalize copyAndDelete fs source target = ended at hends
  cases hends with
  | unread | unmade => exact h
  | halted _ hc _ hr =>
    rcases hr with rfl | hr
    · exact hcopy hc
    · exact (hcopy hc).within (remove_within hr)
  | kept _ hc _ => exact hcopy hc
  | done _ hc hr => exact (hcopy hc).within (remove_within hr)

theorem move_only {l : Location} (h : fs.Only l Q)
    (hs : ∀ a, fs.lead false source = some a → fs.Only a Q) :
    (move fs source target).1.Only l Q := by
  rw [move]
  split
  · rename_i fs₁ hr
    obtain ⟨a, s, _, b, t, _, n, he, _, hn, _, _, rfl⟩ := rename_eq_ok hr
    split
    · exact h
    intro m hm
    rw [get?_set] at hm
    split at hm
    · cases hm
      exact hs _ (entry_lead he) n hn
    · exact h.within (erase_within fs _) m hm
  · exact copyAndDelete_only hbytes hnew h

end Only

theorem discard_within (fs : FileSystem) (dir base primaryExt : String) (exts : List String) :
    Within (discard fs dir base primaryExt exts).1 fs := by
  induction exts generalizing fs with
  | nil => exact .refl fs
  | cons e rest ih =>
    rw [discard]
    split
    · exact ih fs
    split
    · rename_i fs₁ hr
      exact (ih fs₁).trans (remove_within hr)
    · split
      · exact ih fs
      · exact .refl fs

section Moved

variable (hs : Unlinked fs source) (ht : Unlinked fs target) {a : Location} {id mode : Nat}
  {bytes : ByteArray} (ha : fs.lead false source = some a)
  (hg : fs.get? a = some (.file id mode bytes))

include hs ht ha hg

theorem copyAndDelete_moved (h : copyAndDelete fs source target = (fs', none)) :
    ∃ b, fs.lead false target = some b ∧ fs'.get? a = none ∧
      (¬ fs.Alias b a → fs'.get? b = some (((fs.get? b).getD
        (.file fs.freshId newFileMode ByteArray.empty)).withBytes bytes)) := by
  have hends := copyAndDelete_copies fs source target
  rw [h] at hends
  cases hends with
  | @done loc b n fs₁ _ ho hc hr =>
  have hloc : loc = a := by
    have hlead := hs.lead_eq (spot_lead (openRead_eq_ok ho).1)
    rw [ha, Option.some.injEq] at hlead
    exact hlead.symm
  subst loc
  obtain ⟨hb, htouches, hlinks⟩ := copy_touches ht hc a none
  obtain ⟨_, _, _, hinto, _, helse⟩ := create_eq_ok hc
  obtain ⟨d, s, _, _, he, _, _, _, rfl⟩ := remove_eq_ok hr
  have hds : d ++ [s] = a := by
    have hlead := entry_lead he
    rw [lead_congr htouches.terms hlinks, ha, Option.some.injEq] at hlead
    exact hlead.symm
  refine ⟨b, hb, by rw [get?_erase, if_pos hds.symm], fun hne => ?_⟩
  obtain ⟨hab, hother⟩ := not_or.mp hne
  rw [get?_erase, if_neg fun he => hab (he.trans hds).symm, copyBytes, helse a hab, if_neg hother, hg]
  dsimp only
  rw [get?_setBytes_self, hinto, Option.map_some, Node.withBytes_withBytes, Option.elim_none]

/-- A file that was moved is where it was to go. If it had that name before, under which it is the
same file, then it is only not found under the other as something else. -/
theorem move_moved (h : move fs source target = (fs', none)) :
    ∃ b, fs.lead false target = some b ∧
      (fs.Alias b a → ∀ n, fs'.get? a = some n → n = .file id mode bytes) ∧
      (¬ fs.Alias b a → fs'.get? a = none ∧
        (fs'.get? b = some (.file id mode bytes) ∨
          fs'.get? b = some (((fs.get? b).getD
            (.file fs.freshId newFileMode ByteArray.empty)).withBytes bytes))) := by
  rw [move] at h
  split at h
  · rename_i fs₁ hr
    cases h
    obtain ⟨d, s, _, d', t, _, n, he, he', hn, _, _, rfl⟩ := rename_eq_ok hr
    have hda : d ++ [s] = a := by
      have hlead := entry_lead he
      rw [ha, Option.some.injEq] at hlead
      exact hlead.symm
    rw [hda] at hn ⊢
    have hnode : n = .file id mode bytes := by
      rw [hg, Option.some.injEq] at hn
      exact hn.symm
    refine ⟨d' ++ [t], entry_lead he', fun hab m hm => ?_, fun hab => ?_⟩
    · rw [Alias] at hab
      rw [if_pos hab, hg, Option.some.injEq] at hm
      exact hm.symm
    · rw [Alias] at hab
      rw [if_neg hab]
      obtain ⟨hne, _⟩ := not_or.mp hab
      refine ⟨?_, .inl ?_⟩
      · rw [get?_set, if_neg hne, get?_erase, if_pos rfl]
      · rw [get?_set, if_pos rfl, hnode]
  · obtain ⟨b, hb, hgone, hthere⟩ := copyAndDelete_moved hs ht ha hg h
    refine ⟨b, hb, fun _ n hn => ?_, fun hab => ⟨hgone, .inr (hthere hab)⟩⟩
    rw [hgone] at hn
    cases hn

end Moved

section Collect

variable (fs) (sourceDir base outputDir primaryExt : String) (byproducts : List String)

inductive Collects : Collected → Prop
  | missing {e : Errno} (h : fs.stat (Path.join [sourceDir, base ++ primaryExt]) = .error e) :
      Collects ⟨fs, none, some (.missing (Path.join [sourceDir, base ++ primaryExt]))⟩
  | directory {n : Node} (h : fs.stat (Path.join [sourceDir, base ++ primaryExt]) = .ok n)
      (hn : n.isDir = true) :
      Collects ⟨fs, none, some (.directory (Path.join [sourceDir, base ++ primaryExt]))⟩
  | homeless {n : Node} {fs₁ : FileSystem} {e : OsError}
      (h : fs.stat (Path.join [sourceDir, base ++ primaryExt]) = .ok n) (hn : n.isDir = false)
      (hdirs : fs.mkdirAll outputDir = (fs₁, some e)) : Collects ⟨fs₁, none, some (.os e)⟩
  | stuck {n : Node} {fs₁ fs₂ : FileSystem} {e : OsError}
      (h : fs.stat (Path.join [sourceDir, base ++ primaryExt]) = .ok n) (hn : n.isDir = false)
      (hdirs : fs.mkdirAll outputDir = (fs₁, none))
      (hmove : move fs₁ (Path.join [sourceDir, base ++ primaryExt])
        (Path.join [outputDir, base ++ primaryExt]) = (fs₂, some e)) :
      Collects ⟨fs₂, none, some (.os e)⟩
  | moved {n : Node} {fs₁ fs₂ : FileSystem}
      (h : fs.stat (Path.join [sourceDir, base ++ primaryExt]) = .ok n) (hn : n.isDir = false)
      (hdirs : fs.mkdirAll outputDir = (fs₁, none))
      (hmove : move fs₁ (Path.join [sourceDir, base ++ primaryExt])
        (Path.join [outputDir, base ++ primaryExt]) = (fs₂, none)) :
      Collects ⟨(discard fs₂ sourceDir base primaryExt byproducts).1,
        some (Path.join [outputDir, base ++ primaryExt]),
        (discard fs₂ sourceDir base primaryExt byproducts).2.map .os⟩

theorem collect_collects : Collects fs sourceDir base outputDir primaryExt byproducts
    (collect fs sourceDir base outputDir primaryExt byproducts) := by
  rw [collect]
  dsimp only
  split
  · rename_i e h
    exact .missing h
  rename_i n h
  split
  · rename_i hn
    exact .directory h hn
  rename_i hn
  rw [Bool.not_eq_true] at hn
  split
  · rename_i fs₁ e hdirs
    exact .homeless h hn hdirs
  rename_i fs₁ hdirs
  split
  · rename_i fs₂ e hmove
    exact .stuck h hn hdirs hmove
  · rename_i fs₂ hmove
    exact .moved h hn hdirs hmove

variable {fs sourceDir base outputDir primaryExt byproducts} {got : Collected}

theorem Collects.of_eq (h : collect fs sourceDir base outputDir primaryExt byproducts = got) :
    Collects fs sourceDir base outputDir primaryExt byproducts got := by
  rw [← h]
  exact collect_collects ..

variable (hgot : Collects fs sourceDir base outputDir primaryExt byproducts got)

include hgot

theorem Collects.path_eq (hf : got.fault = none) :
    got.path = some (Path.join [outputDir, base ++ primaryExt]) := by
  cases hgot with
  | missing | directory | homeless | stuck => cases hf
  | moved => rfl

/-- Collecting touches the artifact, the place it goes to and the by-products, if there is an
artifact at all. -/
theorem Collects.touches
    (hs : ∀ n, fs.stat (Path.join [sourceDir, base ++ primaryExt]) = .ok n →
      Unlinked fs (Path.join [sourceDir, base ++ primaryExt]) ∧
      Unlinked fs (Path.join [outputDir, base ++ primaryExt]) ∧
      (∀ l, fs.lead false (Path.join [sourceDir, base ++ primaryExt]) = some l → X l) ∧
      (∀ d, fs.lead false (Path.join [outputDir, base ++ primaryExt]) = some d →
        ∀ l, fs.Alias d l → X l) ∧
      ∀ e ∈ byproducts, e ≠ primaryExt → ∀ l,
        fs.lead false (Path.join [sourceDir, base ++ e]) = some l → X l) :
    Touches X fs got.fs := by
  have hdirs := mkdirAll_furnished fs outputDir
  -- What is moved is found through the links that were there before.
  have hmoves : ∀ {fs₁ n}, fs.stat (Path.join [sourceDir, base ++ primaryExt]) = .ok n →
      Furnished fs fs₁ →
      Touches (fun l => fs.lead false (Path.join [sourceDir, base ++ primaryExt]) = some l ∨
          ∃ d, fs.lead false (Path.join [outputDir, base ++ primaryExt]) = some d ∧ fs.Alias d l) fs₁
        (move fs₁ (Path.join [sourceDir, base ++ primaryExt])
          (Path.join [outputDir, base ++ primaryExt])).1 := by
    intro fs₁ n h hf
    obtain ⟨hus, hut, _⟩ := hs n h
    have hlead := lead_congr hf.terms hf.linkAt false
    refine move_touches (hut.congr hf.terms hf.linkAt) (fun l hl => .inl ?_)
      (fun d hd l hl => .inr ⟨d, ?_, hf.alias hl⟩) (hus.congr hf.terms hf.linkAt)
    · rw [← hlead]
      exact hl
    · rw [← hlead]
      exact hd
  cases hgot with
  | missing | directory => exact .refl X fs
  | homeless h hn hd =>
    rw [hd] at hdirs
    exact hdirs.touches
  | stuck h hn hd hmove =>
    rw [hd] at hdirs
    obtain ⟨_, _, hXs, hXt, _⟩ := hs _ h
    have hm := hmoves h hdirs
    rw [hmove] at hm
    exact hdirs.touches.trans (hm.mono fun l hl => hl.elim (hXs l) fun ⟨d, hd, ha⟩ => hXt d hd l ha)
  | moved h hn hd hmove =>
    rw [hd] at hdirs
    obtain ⟨hus, hut, hXs, hXt, hXb⟩ := hs _ h
    have hm := hmoves h hdirs
    rw [hmove] at hm
    have hlinks := hm.linkAt fun l hl => by
      rw [hdirs.linkAt]
      exact hl.elim (hus l) fun ⟨d, hd, ha⟩ => ha.linkAt (hut d hd)
    have hlead := lead_congr hdirs.terms hdirs.linkAt false
    have hlead₂ := lead_congr hm.terms hlinks false
    refine hdirs.touches.trans ((hm.mono fun l hl => hl.elim (hXs l) fun ⟨d, hd, ha⟩ =>
      hXt d hd l ha).trans (discard_touches (.refl _) ?_))
    intro e he hne l hl
    rw [hlead₂, hlead] at hl
    exact hXb e he hne l hl

theorem Collects.sole {S : Location → Prop} (h : Sole S fs)
    (hS : ∀ a b, fs.lead false (Path.join [sourceDir, base ++ primaryExt]) = some a →
      fs.lead false (Path.join [outputDir, base ++ primaryExt]) = some b → S b → S a) :
    Sole S got.fs := by
  have hdirs := mkdirAll_furnished fs outputDir
  have hmoves : ∀ {fs₁}, Furnished fs fs₁ →
      Sole S (move fs₁ (Path.join [sourceDir, base ++ primaryExt])
        (Path.join [outputDir, base ++ primaryExt])).1 := by
    intro fs₁ hf
    have hlead := lead_congr hf.terms hf.linkAt false
    refine move_sole (h.keepsNames hf.keepsNames) fun a b ha hb => hS a b ?_ ?_
    · rw [← hlead]
      exact ha
    · rw [← hlead]
      exact hb
  cases hgot with
  | missing | directory => exact h
  | homeless _ _ hd =>
    rw [hd] at hdirs
    exact h.keepsNames hdirs.keepsNames
  | stuck _ _ hd hmove =>
    rw [hd] at hdirs
    have hm := hmoves hdirs
    rw [hmove] at hm
    exact hm
  | moved _ _ hd hmove =>
    rw [hd] at hdirs
    have hm := hmoves hdirs
    rw [hmove] at hm
    exact hm.keepsNames (discard_within ..).keepsNames

theorem Collects.only {Q : Node → Prop} (hdir : Q (.dir newDirMode))
    (hbytes : ∀ bytes n, Q n → Q (n.withBytes bytes))
    (hnew : ∀ id, fs.nextId ≤ id → Q (.file id newFileMode ByteArray.empty))
    (hs : ∀ a, fs.lead false (Path.join [sourceDir, base ++ primaryExt]) = some a → fs.Only a Q)
    {l : Location} (h : fs.Only l Q) : got.fs.Only l Q := by
  have hdirs := mkdirAll_furnished fs outputDir
  have hmoves : ∀ {fs₁}, Furnished fs fs₁ →
      (move fs₁ (Path.join [sourceDir, base ++ primaryExt])
        (Path.join [outputDir, base ++ primaryExt])).1.Only l Q := by
    intro fs₁ hf
    refine move_only hbytes ?_ (h.furnished hf hdir) fun a ha => ?_
    · rw [hf.nextId]
      exact hnew
    · rw [lead_congr hf.terms hf.linkAt] at ha
      exact (hs a ha).furnished hf hdir
  cases hgot with
  | missing | directory => exact h
  | homeless hstat hn hd =>
    rw [hd] at hdirs
    exact h.furnished hdirs hdir
  | stuck hstat hn hd hmove =>
    rw [hd] at hdirs
    have hm := hmoves hdirs
    rw [hmove] at hm
    exact hm
  | moved hstat hn hd hmove =>
    rw [hd] at hdirs
    have hm := hmoves hdirs
    rw [hmove] at hm
    exact hm.within (discard_within ..)

/-- If an artifact was collected, then it was a file beside the source. It is gone from there, and
only its bytes can be read where it was to go, if what was there had no other name; all else is as
it was or less. -/
theorem Collects.collected (hok : (got.fault.isNone && got.path.isSome) = true)
    (hs : Unlinked fs (Path.join [sourceDir, base ++ primaryExt]))
    (ht : Unlinked fs (Path.join [outputDir, base ++ primaryExt])) {a : Location}
    (ha : fs.lead false (Path.join [sourceDir, base ++ primaryExt]) = some a)
    (hreg : fs.Only a fun n => n.isRegular = true)
    (hsole : ∀ b, fs.lead false (Path.join [outputDir, base ++ primaryExt]) = some b →
      ∀ l, fs.Alias b l → l = b) :
    ∃ b id mode bytes, fs.lead false (Path.join [outputDir, base ++ primaryExt]) = some b ∧
      fs.stat (Path.join [sourceDir, base ++ primaryExt]) = .ok (.file id mode bytes) ∧
      (∀ id' mode' bytes', got.fs.get? b = some (.file id' mode' bytes') → bytes' = bytes) ∧
      ∀ l n, l ≠ b → got.fs.get? l = some n →
        l ≠ a ∧ (fs.get? l = some n ∨ n = .dir newDirMode) := by
  cases hgot with
  | missing | directory | homeless | stuck => cases hok
  | @moved n fs₁ fs₂ hstat hn hd hmove =>
  have hdirs := mkdirAll_furnished fs outputDir
  rw [hd] at hdirs
  obtain ⟨loc, hspot, hloc⟩ := stat_eq_ok hstat
  have hla : loc = a := by
    have hlead := hs.lead_eq (spot_lead hspot)
    rw [ha, Option.some.injEq] at hlead
    exact hlead.symm
  subst loc
  have hregular := hreg n hloc
  cases n with
  | dir | link | fifo => cases hregular
  | file id mode bytes =>
  have hs₁ := hs.congr hdirs.terms hdirs.linkAt
  have ht₁ := ht.congr hdirs.terms hdirs.linkAt
  have hlead := lead_congr hdirs.terms hdirs.linkAt false
  obtain ⟨b, hb, hsame, hother⟩ := move_moved hs₁ ht₁ (by rw [hlead]; exact ha)
    (hdirs.get?_some hloc) hmove
  have hone : ∀ l, fs₁.Alias b l → l = b := fun l hl =>
    hsole b (hlead _ ▸ hb) l (hdirs.alias hl)
  have htouches := move_touches (X := fun l => l = a ∨ l = b) ht₁
    (fun l hl => .inl (Option.some.inj ((hlead _ ▸ hl).symm.trans ha)))
    (fun d hd l hl => .inr (hone l (Option.some.inj (hd.symm.trans hb) ▸ hl))) hs₁
  rw [hmove] at htouches
  have hdiscard := discard_within fs₂ sourceDir base primaryExt byproducts
  refine ⟨b, id, mode, bytes, hlead _ ▸ hb, hstat, fun id' mode' bytes' hg => ?_,
    fun l n hl hg => ?_⟩
  · have hg₂ := hdiscard.get? _ _ hg
    by_cases hab : a = b
    · subst b
      have hfile := hsame (.inl rfl) _ hg₂
      simp only [Node.file.injEq] at hfile
      exact hfile.2.2
    · rcases (hother fun hl => hab (hone a hl)).2 with hfile | hfile
      · rw [hg₂, Option.some.injEq, Node.file.injEq] at hfile
        exact hfile.2.2
      · rw [hg₂, Option.some.injEq] at hfile
        exact Node.eq_of_withBytes_eq_file hfile.symm
  · have hg₂ := hdiscard.get? _ _ hg
    have hla : l ≠ a := by
      rintro rfl
      rw [(hother fun ha => hl (hone l ha)).1] at hg₂
      cases hg₂
    refine ⟨hla, ?_⟩
    rcases htouches.get? l (not_or.mpr ⟨hla, hl⟩) with hl₁ | ⟨_, hl₁⟩
    · rw [hl₁] at hg₂
      rcases hdirs.get? l with hl₀ | ⟨_, hl₀⟩
      · exact .inl (hl₀ ▸ hg₂)
      · rw [hl₀, Option.some.injEq] at hg₂
        exact .inr hg₂.symm
    · rw [hl₁, Option.some.injEq] at hg₂
      exact .inr hg₂.symm

end Collect

instance lawfulBEqByteArray : LawfulBEq ByteArray where
  eq_of_beq {a b} h := ByteArray.ext (eq_of_beq (show (a.data == b.data) = true from h))
  rfl {a} := beq_self_eq_true a.data

theorem same_eq_true_iff {dir₁ dir₂ base ext : String} :
    same fs dir₁ dir₂ base ext = true ↔
      ∃ bytes, fs.readFile (Path.join [dir₁, base ++ ext]) = .ok bytes ∧
        fs.readFile (Path.join [dir₂, base ++ ext]) = .ok bytes := by
  rw [same]
  split
  · rename_i a b ha hb
    rw [beq_iff_eq, ha, hb]
    simp [eq_comm]
  · rename_i h
    refine ⟨fun hf => (Bool.false_ne_true hf).elim, fun ⟨bytes, ha, hb⟩ => ?_⟩
    exact (h bytes bytes ha hb).elim

end Crosscheck.Artifact
