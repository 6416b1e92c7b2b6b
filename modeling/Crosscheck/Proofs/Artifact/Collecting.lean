import Crosscheck.Proofs.Artifact.Moving
import Crosscheck.Proofs.FileSystem.Paving

namespace Crosscheck

namespace FileSystem

variable {fs fs' : FileSystem} {p dir m : String}

/-- A clean path to a place that has no link on the way to it. -/
structure Unbent (fs : FileSystem) (dir : String) : Prop where
  clean : Path.clean dir = dir
  straight : fs.Straight (fs.place dir)

namespace Unbent

theorem ne_empty (h : fs.Unbent dir) : dir ≠ "" := h.clean ▸ Path.clean_ne_empty dir

theorem congr (h : fs.Unbent dir) (ht : fs'.terms = fs.terms)
    (hg : ∀ x, x <+: fs.place dir → fs'.linkAt x = fs.linkAt x) : fs'.Unbent dir := by
  refine ⟨h.clean, fun x hx => ?_⟩
  rw [place_of_terms ht] at hx
  rw [hg x hx]
  exact h.straight x hx

/-- What is joined to a directory leads where it says, up to a link that stands there. -/
theorem lead_join (h : fs.Unbent dir) (hm : '/' ∉ m.toList) {through : Bool}
    (hlink : through = true → fs.linkAt (fs.place (Path.join [dir, m])) = none) :
    fs.lead through (Path.join [dir, m]) = some (fs.place (Path.join [dir, m])) := by
  refine lead_place (Path.clean_join_pair dir m h.ne_empty) fun x hx hend => ?_
  by_cases hne : x = fs.place (Path.join [dir, m])
  · rw [hne]
    exact hlink (hend.resolve_left fun hn => hn hne)
  · refine h.straight x ?_
    cases @place_join_cases fs dir m h.ne_empty hm with
    | inr hpre => exact hx.trans hpre
    | inl hname =>
      rw [place_join_name h.ne_empty hname] at hx hne
      exact (List.prefix_concat_iff.mp hx).resolve_left hne

end Unbent

theorem lstat_of_remove {e : OsError} (hp : Path.clean p = p) (h : fs.remove p = .error e)
    (he : e.errno = .notFound) : fs.lstat p = .error .notFound := by
  cases hentry : fs.entry p with
  | error e' =>
    rw [remove, unlink, rmdir, hentry] at h
    cases h
    rw [← he, lstat_of_entry_error hentry]
    simp
  | ok found =>
    obtain ⟨d, last, slash⟩ := found
    cases last with
    | root | dot | dotdot =>
      rw [remove, unlink, rmdir, hentry] at h
      cases h
      cases he
    | name s =>
      have hslash := entry_clean hp hentry
      subst slash
      rw [remove_of_entry hentry] at h
      split at h
      · rename_i hnone
        exact lstat_entry_none hentry hnone
      · split at h
        · cases h
          cases he
        split at h
        · cases h
          cases he
        · cases h

end FileSystem

namespace Artifact

open FileSystem

section Discard

variable {fs fs' : FileSystem} {dir base primaryExt ext : String} {exts : List String}

theorem discard_gone (hdir : dir ≠ "") (h : discard fs dir base primaryExt exts = (fs', none))
    (hext : ext ∈ exts) (hne : ext ≠ primaryExt) :
    fs'.lstat (Path.join [dir, base ++ ext]) = .error .notFound := by
  induction exts generalizing fs with
  | nil => cases hext
  | cons e rest ih =>
    have hwithin : ∀ {g : FileSystem}, discard g dir base primaryExt rest = (fs', none) →
        Within fs' g := by
      intro g hg
      have hw := discard_within g dir base primaryExt rest
      rw [hg] at hw
      exact hw
    rw [discard] at h
    split at h
    · rename_i he
      exact ih h ((List.mem_cons.mp hext).resolve_left fun heq => hne (heq.trans he))
    have hclean := Path.clean_join_pair dir (base ++ e) hdir
    split at h
    · rename_i fs₁ hr
      cases List.mem_cons.mp hext with
      | inr hmem => exact ih h hmem
      | inl heq =>
        obtain ⟨d, s, slash, n, hentry, _, _, _, rfl⟩ := remove_eq_ok hr
        have hslash := entry_clean hclean hentry
        subst slash
        rw [heq]
        exact lstat_within (hwithin h) (lstat_erase hentry)
    · rename_i e' hr
      split at h
      · rename_i hnot
        cases List.mem_cons.mp hext with
        | inr hmem => exact ih h hmem
        | inl heq =>
          rw [heq]
          exact lstat_within (hwithin h) (lstat_of_remove hclean hr hnot)
      · cases h

theorem discard_frame (hdir : fs.Unbent dir) (hexts : ∀ e ∈ exts, '/' ∉ (base ++ e).toList)
    {l : Location} (hl : ∀ e ∈ exts, e ≠ primaryExt → l ≠ fs.place (Path.join [dir, base ++ e])) :
    (discard fs dir base primaryExt exts).1.get? l = fs.get? l := by
  have htouches : Touches
      (fun l => ∃ e ∈ exts, e ≠ primaryExt ∧ l = fs.place (Path.join [dir, base ++ e])) fs
      (discard fs dir base primaryExt exts).1 := by
    refine discard_touches (.refl fs) fun e he hne x hx => ⟨e, he, hne, ?_⟩
    exact Option.some.inj (hx.symm.trans (hdir.lead_join (hexts e he) nofun))
  have hnot : ¬ ∃ e ∈ exts, e ≠ primaryExt ∧ l = fs.place (Path.join [dir, base ++ e]) := by
    rintro ⟨e, he, hne, heq⟩
    exact hl e he hne heq
  cases htouches.get? l hnot with
  | inl hsame => exact hsame
  | inr hnew =>
    have hold := (discard_within fs dir base primaryExt exts).get? l _ hnew.2
    rw [hnew.1] at hold
    cases hold

end Discard

section Move

variable {fs fs' : FileSystem} {source target : String} {src dst : Location}
  (hsrc : fs.lead false source = some src) (hdst : ∀ through, fs.lead through target = some dst)

include hdst

theorem move_not_dir (h : move fs source target = (fs', none)) (mode : Nat) :
    fs.get? dst ≠ some (.dir mode) := by
  intro hdir
  rw [move] at h
  split at h
  · rename_i fs₁ hr
    obtain ⟨_, _, _, b, t, _, _, _, ht, _, _, hnot, _⟩ := rename_eq_ok hr
    have hlead := entry_lead ht
    rw [hdst, Option.some.injEq] at hlead
    refine hnot mode ?_
    rw [← hdir, hlead]
    rfl
  · obtain ⟨_, _, _, into, _, hc, _⟩ := copyAndDelete_eq_none h
    obtain ⟨hlead, _, _, _, hnot, _⟩ := create_eq_ok hc
    rw [hdst, Option.some.injEq] at hlead
    subst into
    cases hnot _ hdir

include hsrc

/-- Moving a file changes the two places alone between which it is moved, and what is read under
other names of a file that was there. -/
theorem move_frame (hlink : fs.linkAt dst = none) :
    (move fs source target).1.terms = fs.terms ∧
      (∀ l, l ≠ src → ¬ fs.Alias dst l → (move fs source target).1.get? l = fs.get? l) ∧
      ∀ l, l ≠ src → l ≠ dst → Agree fs (move fs source target).1 l := by
  have hunlinked : Unlinked fs target := by
    intro x hx
    rw [hdst, Option.some.injEq] at hx
    rwa [← hx]
  rw [move]
  split
  · rename_i fs₁ hr
    obtain ⟨a, s, _, b, t, _, n, hs, ht, _, _, _, rfl⟩ := rename_eq_ok hr
    have ha : src = a ++ [s] := Option.some.inj (hsrc.symm.trans (entry_lead hs))
    have hb : dst = b ++ [t] := Option.some.inj ((hdst false).symm.trans (entry_lead ht))
    rw [← ha, ← hb]
    split
    · exact ⟨rfl, fun _ _ _ => rfl, fun _ _ _ => rfl⟩
    · have hsame : ∀ l, l ≠ src → l ≠ dst → ((fs.erase src).set dst n).get? l = fs.get? l := by
        intro l hls hld
        rw [get?_set, if_neg hld, get?_erase, if_neg hls]
      exact ⟨rfl, fun l hls hld => hsame l hls fun he => hld (.inl he),
        fun l hls hld => .of_eq (hsame l hls hld)⟩
  · have htouches : Touches (fun l => l = src ∨ fs.Alias dst l) fs
        (copyAndDelete fs source target).1 := by
      refine copyAndDelete_touches hunlinked (fun x hx => .inl ?_) fun x hx l hl => .inr ?_
      · exact Option.some.inj (hx.symm.trans hsrc)
      · rwa [← Option.some.inj (hx.symm.trans (hdst false))]
    have hsame : ∀ l, l ≠ src → ¬ fs.Alias dst l →
        (copyAndDelete fs source target).1.get? l = fs.get? l := by
      intro l hls hld
      cases htouches.get? l (not_or.mpr ⟨hls, hld⟩) with
      | inl hsame => exact hsame
      | inr hnew =>
        -- no directory is made where a file is copied
        have honly : (copyAndDelete fs source target).1.Only l fun n => n.isDir = false := by
          refine copyAndDelete_only (fun bytes n hn => ?_) (fun _ _ => rfl) fun n hn => ?_
          · cases n <;> exact hn
          · rw [hnew.1] at hn
            cases hn
        cases honly _ hnew.2
    refine ⟨htouches.terms, hsame, fun l hls hld => ?_⟩
    by_cases halias : fs.Alias dst l
    · obtain ⟨id, mode, bytes, _, _, hl, _⟩ := sameFile_eq_true.mp (halias.resolve_left hld)
      refine copyAndDelete_agree hunlinked (fun hx => hls ?_) (fun hx => hld ?_) hl
      · exact Option.some.inj (hx.symm.trans hsrc)
      · exact Option.some.inj (hx.symm.trans (hdst false))
    · exact .of_eq (hsame l hls halias)

theorem move_gone (hclean : Path.clean source = source) (hlink : fs.linkAt dst = none)
    (hfile : fs.Only src fun n => n.isRegular = true) (hne : ¬ fs.Alias dst src)
    (h : move fs source target = (fs', none)) : fs'.lstat source = .error .notFound := by
  rw [move] at h
  split at h
  · rename_i fs₁ hr
    cases h
    obtain ⟨a, s, _, b, t, _, n, hs, ht, hn, hdir, hnot, rfl⟩ := rename_eq_ok hr
    have ha : src = a ++ [s] := Option.some.inj (hsrc.symm.trans (entry_lead hs))
    have hb : dst = b ++ [t] := Option.some.inj ((hdst false).symm.trans (entry_lead ht))
    rw [← ha] at hn
    rw [← hb] at hnot
    rw [Alias] at hne
    obtain ⟨hplaces, _⟩ := not_or.mp hne
    rw [← ha, ← hb, if_neg hne]
    have hslash := entry_clean hclean hs
    have hentry : ((fs.erase src).set dst n).entry source = .ok ⟨a, .name s, false⟩ := by
      rw [← hslash]
      refine entry_of_changed hs rfl (fun x (hx : x ∈ [src, dst]) => ?_) fun x hx => ?_
      · obtain rfl | rfl := List.mem_pair.mp hx
        · refine ⟨fun mode hmode => ?_, fun hl => absurd hfile.linkAt hl⟩
          cases hfile _ hmode
        · exact ⟨hnot, fun hl => absurd hlink hl⟩
      · rw [List.mem_pair, not_or] at hx
        rw [get?_set, if_neg hx.2, get?_erase, if_neg hx.1]
    refine lstat_entry_none hentry ?_
    rw [← ha, get?_set, if_neg hplaces, get?_erase, if_pos rfl]
  · obtain ⟨_, _, _, _, _, _, hr⟩ := copyAndDelete_eq_none h
    obtain ⟨d, s, slash, _, he, _, _, _, rfl⟩ := remove_eq_ok hr
    have hslash := entry_clean hclean he
    subst slash
    exact lstat_erase he

end Move

theorem isSome_of_stat {fs : FileSystem} {p : String} {n : Node} {l : Location}
    (h : fs.stat p = .ok n) (hlead : fs.lead false p = some l) : ∃ k, fs.get? l = some k := by
  obtain ⟨loc, hspot, hloc⟩ := stat_eq_ok h
  cases hl : fs.get? l with
  | some k => exact ⟨k, rfl⟩
  | none =>
    have hthrough : fs.lead true p = some l := leadWith_through _ _ hlead (linkAt_of_get?_none hl)
    rw [spot_lead hspot, Option.some.injEq] at hthrough
    rw [Spot.loc] at hthrough
    rw [← hthrough, hloc] at hl
    cases hl

section Collect

variable {fs fs₁ fs₂ : FileSystem} {sourceDir outputDir name : String}

/-- What is left to be done for an artifact once the directories for it have been made: it is moved
from the place it was at to the place it was to go to. -/
structure Staged (fs fs₁ : FileSystem) (sourceDir outputDir name : String) : Prop where
  sound : fs₁.Sound
  furnished : Furnished fs fs₁
  made : ∀ l, ¬ l <+: fs.place outputDir → fs₁.get? l = fs.get? l
  source : fs₁.lead false (Path.join [sourceDir, name]) =
    some (fs.place (Path.join [sourceDir, name]))
  target : ∀ through, fs₁.lead through (Path.join [outputDir, name]) =
    some (fs.place (Path.join [outputDir, name]))
  unlinked : fs₁.linkAt (fs.place (Path.join [outputDir, name])) = none

theorem staged_of_mkdirAll (hsound : fs.Sound) (hs : fs.Unbent sourceDir) (ho : fs.Unbent outputDir)
    (hm : '/' ∉ name.toList) (hlink : fs.linkAt (fs.place (Path.join [outputDir, name])) = none)
    {e : Option OsError} (h : fs.mkdirAll outputDir = (fs₁, e)) :
    Staged fs fs₁ sourceDir outputDir name := by
  have hf := mkdirAll_furnished fs outputDir
  have hsound₁ : (fs.mkdirAll outputDir).1.Sound := mkdirChain_sound hsound
  have hmade : ∀ l, ¬ l <+: fs.place outputDir → (fs.mkdirAll outputDir).1.get? l = fs.get? l :=
    fun l hl => Classical.byContradiction fun hne => hl (mkdirAll_made ho.clean ho.straight hne)
  rw [h] at hf hsound₁ hmade
  refine ⟨hsound₁, hf, hmade, ?_, fun through => ?_, by rw [hf.linkAt, hlink]⟩
  · rw [lead_congr hf.terms hf.linkAt]
    exact hs.lead_join hm nofun
  · rw [lead_congr hf.terms hf.linkAt]
    exact ho.lead_join hm fun _ => hlink

namespace Staged

theorem only_source (h : Staged fs fs₁ sourceDir outputDir name) {id mode : Nat} {bytes : ByteArray}
    (hfile : fs.get? (fs.place (Path.join [sourceDir, name])) = some (.file id mode bytes)) :
    fs₁.Only (fs.place (Path.join [sourceDir, name])) fun n => n.isRegular = true := by
  intro n hn
  rw [h.furnished.get?_some hfile, Option.some.injEq] at hn
  rw [← hn]
  rfl

variable (h : Staged fs fs₁ sourceDir outputDir name) (hs : fs.Unbent sourceDir)
  (ho : fs.Unbent outputDir) (hm : '/' ∉ name.toList)
  (hd : fs.mkdirAll outputDir = (fs₁, none))
  (hmove : move fs₁ (Path.join [sourceDir, name]) (Path.join [outputDir, name]) = (fs₂, none))

include h ho hm hd hmove

/-- An artifact is moved under a name only, since the output directory and those above it are
directories. -/
theorem isName : Path.IsName name := by
  cases @place_join_cases fs outputDir name ho.ne_empty hm with
  | inl hname => exact hname
  | inr hpre =>
    obtain ⟨through, l, mode, hlead, hl⟩ := mkdirAll_dir hd
    rw [lead_place ho.clean fun x hx _ => ho.straight x hx, Option.some.injEq] at hlead
    subst l
    have hdir : ∃ mode, fs₁.get? (fs.place (Path.join [outputDir, name])) = some (.dir mode) := by
      by_cases heq : fs.place (Path.join [outputDir, name]) = fs.place outputDir
      · exact ⟨mode, heq ▸ hl⟩
      · exact h.sound.dir_of_prefix hpre heq hl
    obtain ⟨mode', hmode'⟩ := hdir
    exact absurd hmode' (move_not_dir h.target hmove mode')

theorem arrived {id mode : Nat} {bytes : ByteArray}
    (hfile : fs.get? (fs.place (Path.join [sourceDir, name])) = some (.file id mode bytes))
    (hne : ¬ fs.Alias (fs.place (Path.join [outputDir, name]))
      (fs.place (Path.join [sourceDir, name])))
    (hregular : fs.Only (fs.place (Path.join [outputDir, name])) fun n => n.isRegular = true) :
    ∃ id mode, fs₂.get? (fs.place (Path.join [outputDir, name])) = some (.file id mode bytes) := by
  have hplace := @place_join_name fs outputDir name ho.ne_empty (h.isName ho hm hd hmove)
  have hregular₁ : fs₁.Only (fs.place (Path.join [outputDir, name])) fun n =>
      n.isRegular = true := by
    intro k hk
    rw [h.made _ (by rw [hplace]; exact not_prefix_of_append _ _)] at hk
    exact hregular k hk
  obtain ⟨b, hb, _, hother⟩ := move_moved
    (fun l hl => Option.some.inj (h.source.symm.trans hl) ▸ (h.only_source hfile).linkAt)
    (fun l hl => Option.some.inj ((h.target false).symm.trans hl) ▸ hregular₁.linkAt)
    h.source (h.furnished.get?_some hfile) hmove
  have hb' := Option.some.inj ((h.target false).symm.trans hb)
  subst b
  cases (hother fun ha => hne (h.furnished.alias ha)).2 with
  | inl hrenamed => exact ⟨id, mode, hrenamed⟩
  | inr hcopied =>
    rw [hcopied]
    cases hg : fs₁.get? (fs.place (Path.join [outputDir, name])) with
    | none => exact ⟨_, _, rfl⟩
    | some k =>
      have hk := hregular₁ k hg
      cases k with
      | file id mode old => exact ⟨id, mode, rfl⟩
      | dir | link | fifo => cases hk

include hs

theorem apart {n : Node} (hstat : fs.stat (Path.join [sourceDir, name]) = .ok n) {x : Location}
    (hx : x <+: fs.place sourceDir) : x ≠ fs.place (Path.join [sourceDir, name]) ∧
      x ≠ fs.place (Path.join [outputDir, name]) := by
  have hname := h.isName ho hm hd hmove
  have hsource := @place_join_name fs sourceDir name hs.ne_empty hname
  have hne : x ≠ fs.place (Path.join [sourceDir, name]) := by
    rintro rfl
    rw [hsource] at hx
    exact not_prefix_of_append _ _ hx
  refine ⟨hne, ?_⟩
  rintro rfl
  obtain ⟨k, hk⟩ := isSome_of_stat hstat (hs.lead_join hm nofun)
  have hpre : fs.place (Path.join [outputDir, name]) <+:
      fs.place (Path.join [sourceDir, name]) := by
    rw [hsource]
    exact hx.trans (List.prefix_append _ _)
  obtain ⟨mode, hmode⟩ := h.sound.dir_of_prefix hpre hne (h.furnished.get?_some hk)
  exact move_not_dir h.target hmove mode hmode

theorem unbent {n : Node} (hstat : fs.stat (Path.join [sourceDir, name]) = .ok n) :
    fs₂.Unbent sourceDir := by
  obtain ⟨hterms, _, hagree⟩ := move_frame h.source h.target h.unlinked
  rw [hmove] at hterms hagree
  refine hs.congr (hterms.trans h.furnished.terms) fun x hx => ?_
  obtain ⟨hxs, hxt⟩ := h.apart hs ho hm hd hmove hstat hx
  rw [← h.furnished.linkAt]
  exact Agree.linkAt (hagree x hxs hxt)

end Staged

/-- By-products are none of what is moved, so they can be removed without it. -/
theorem Staged.kept {base primaryExt : String} {byproducts : List String} {n : Node}
    (h : Staged fs fs₁ sourceDir outputDir (base ++ primaryExt)) (hs : fs.Unbent sourceDir)
    (ho : fs.Unbent outputDir) (hm : '/' ∉ (base ++ primaryExt).toList)
    (hd : fs.mkdirAll outputDir = (fs₁, none))
    (hmove : move fs₁ (Path.join [sourceDir, base ++ primaryExt])
      (Path.join [outputDir, base ++ primaryExt]) = (fs₂, none))
    (hstat : fs.stat (Path.join [sourceDir, base ++ primaryExt]) = .ok n)
    (hexts : ∀ ext ∈ byproducts, '/' ∉ (base ++ ext).toList) :
    (discard fs₂ sourceDir base primaryExt byproducts).1.get?
      (fs.place (Path.join [outputDir, base ++ primaryExt])) =
      fs₂.get? (fs.place (Path.join [outputDir, base ++ primaryExt])) := by
  have hterms := (move_frame h.source h.target h.unlinked).1
  rw [hmove] at hterms
  refine discard_frame (h.unbent hs ho hm hd hmove hstat) hexts fun ext hext hne heq => ?_
  rw [place_of_terms (hterms.trans h.furnished.terms)] at heq
  cases @place_join_cases fs sourceDir (base ++ ext) hs.ne_empty (hexts ext hext) with
  | inr hpre => exact (h.apart hs ho hm hd hmove hstat hpre).2 heq.symm
  | inl hname =>
    rw [place_join_name ho.ne_empty (h.isName ho hm hd hmove),
      place_join_name hs.ne_empty hname] at heq
    have hlast := List.singleton_inj.mp (List.append_inj_right' heq rfl)
    exact hne ((String.append_right_inj base).mp hlast).symm

variable {base primaryExt : String} {byproducts : List String} {got : Collected}
  (hgot : Collects fs sourceDir base outputDir primaryExt byproducts got)
  (hsound : fs.Sound) (hs : fs.Unbent sourceDir) (ho : fs.Unbent outputDir)
  (hm : '/' ∉ (base ++ primaryExt).toList)
  (hexts : ∀ ext ∈ byproducts, '/' ∉ (base ++ ext).toList)

include hgot

theorem Collects.untouched {f : Fault} (hf : got.fault = some f)
    (hcause : f.cause? = some .missingArtifact) : got.fs = fs := by
  cases hgot with
  | missing | directory => rfl
  | homeless | stuck =>
    cases hf
    cases hcause
  | moved =>
    obtain ⟨e, _, rfl⟩ := Option.map_eq_some_iff.mp hf
    cases hcause

include hsound hs ho hm hexts

/-- All that collecting can change is the artifact, the place it goes to, the directories on the way
there, and the by-products; and of a file that had another name at that place, the bytes. -/
theorem Collects.frame
    (hlink : fs.linkAt (fs.place (Path.join [outputDir, base ++ primaryExt])) = none) {l : Location}
    (hsource : l ≠ fs.place (Path.join [sourceDir, base ++ primaryExt]))
    (htarget : l ≠ fs.place (Path.join [outputDir, base ++ primaryExt]))
    (hway : ¬ l <+: fs.place outputDir)
    (hby : ∀ ext ∈ byproducts, ext ≠ primaryExt →
      l ≠ fs.place (Path.join [sourceDir, base ++ ext])) :
    (fs.sameFile l (fs.place (Path.join [outputDir, base ++ primaryExt])) = false →
      got.fs.get? l = fs.get? l) ∧ Agree fs got.fs l := by
  have hstaged : ∀ {fs₁ e}, fs.mkdirAll outputDir = (fs₁, e) →
      Staged fs fs₁ sourceDir outputDir (base ++ primaryExt) :=
    staged_of_mkdirAll hsound hs ho hm hlink
  -- what moving the artifact does elsewhere, told of the state before any directory was made
  have hmoves : ∀ {fs₁ fs₂ e}, Staged fs fs₁ sourceDir outputDir (base ++ primaryExt) →
      move fs₁ (Path.join [sourceDir, base ++ primaryExt])
        (Path.join [outputDir, base ++ primaryExt]) = (fs₂, e) →
      (fs.sameFile l (fs.place (Path.join [outputDir, base ++ primaryExt])) = false →
        fs₂.get? l = fs.get? l) ∧ Agree fs fs₂ l := by
    intro fs₁ fs₂ e h hmove
    obtain ⟨_, hframe, hagree⟩ := move_frame h.source h.target h.unlinked
    rw [hmove] at hframe hagree
    refine ⟨fun hother => (hframe l hsource fun ha => ?_).trans (h.made l hway), ?_⟩
    · rcases h.furnished.alias ha with he | hsame
      · exact htarget he
      · rw [hother] at hsame
        cases hsame
    · have h₂ := hagree l hsource htarget
      rw [Agree, h.made l hway] at h₂
      exact h₂
  cases hgot with
  | missing | directory => exact ⟨fun _ => rfl, rfl⟩
  | homeless _ _ hd => exact ⟨fun _ => (hstaged hd).made l hway, .of_eq ((hstaged hd).made l hway)⟩
  | stuck _ _ hd hmove => exact hmoves (hstaged hd) hmove
  | @moved _ fs₁ fs₂ hstat _ hd hmove =>
    have h := hstaged hd
    have hterms := (move_frame h.source h.target h.unlinked).1
    rw [hmove] at hterms
    have hdiscard : (discard fs₂ sourceDir base primaryExt byproducts).1.get? l = fs₂.get? l := by
      refine discard_frame (h.unbent hs ho hm hd hmove hstat) hexts fun e he hne => ?_
      rw [place_of_terms (hterms.trans h.furnished.terms)]
      exact hby e he hne
    rw [Agree, hdiscard]
    exact hmoves h hmove

theorem Collects.brought (hnone : got.fault = none) {id mode : Nat} {bytes : ByteArray}
    (hfile : fs.get? (fs.place (Path.join [sourceDir, base ++ primaryExt])) =
      some (.file id mode bytes))
    (hne : ¬ fs.Alias (fs.place (Path.join [outputDir, base ++ primaryExt]))
      (fs.place (Path.join [sourceDir, base ++ primaryExt])))
    (hregular : fs.Only (fs.place (Path.join [outputDir, base ++ primaryExt])) fun n =>
      n.isRegular = true) :
    got.path = some (Path.join [outputDir, base ++ primaryExt]) ∧
      (∃ id mode, got.fs.get? (fs.place (Path.join [outputDir, base ++ primaryExt])) =
        some (.file id mode bytes)) ∧
      got.fs.lstat (Path.join [sourceDir, base ++ primaryExt]) = .error .notFound ∧
      ∀ ext ∈ byproducts, ext ≠ primaryExt →
        got.fs.lstat (Path.join [sourceDir, base ++ ext]) = .error .notFound := by
  cases hgot with
  | missing | directory | homeless | stuck => cases hnone
  | @moved n fs₁ fs₂ hstat hn hd hmove =>
  have h := staged_of_mkdirAll hsound hs ho hm hregular.linkAt hd
  have hkept := h.kept hs ho hm hd hmove hstat hexts
  have hend : discard fs₂ sourceDir base primaryExt byproducts =
      ((discard fs₂ sourceDir base primaryExt byproducts).1, none) :=
    Prod.ext rfl (Option.map_eq_none_iff.mp hnone)
  refine ⟨rfl, ?_, ?_, fun ext hext hne => ?_⟩
  · rw [hkept]
    exact h.arrived ho hm hd hmove hfile hne hregular
  · exact lstat_within (discard_within ..) (move_gone h.source h.target
      (Path.clean_join_pair _ _ hs.ne_empty) h.unlinked (h.only_source hfile)
      (fun ha => hne (h.furnished.alias ha)) hmove)
  · exact discard_gone hs.ne_empty hend hext hne

end Collect

/-- An artifact with a by-product, another file beside them, and a second device with an artifact of
that name, which has another name there. -/
def bench : FileSystem where
  nodes :=
    [([], .dir 0o755), (["c"], .dir 0o755), (["c", "p.hex"], .file 0 0o644 "00".toUTF8),
      (["c", "p.lst"], .file 1 0o644 "nop".toUTF8), (["c", "q.hex"], .file 2 0o644 "01".toUTF8),
      (["o"], .dir 0o755), (["o", "p.hex"], .file 3 0o644 "02".toUTF8),
      (["o", "keep.hex"], .file 3 0o644 "02".toUTF8)]
  nextId := 4
  cwd := ["c"]
  mounts := [["o"]]
  privileged := false

example : (collect bench "." "p" "/o" ".hex" []).fs.readFile "/o/keep.hex" = .ok "00".toUTF8 := rfl

end Artifact

end Crosscheck
