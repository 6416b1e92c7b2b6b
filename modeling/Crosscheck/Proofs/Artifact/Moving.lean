import Crosscheck.Proofs.Artifact
import Crosscheck.Proofs.FileSystem.Absence

namespace Crosscheck

namespace FileSystem

variable {fs fs' : FileSystem} {p : String}

theorem canRead_newFile (fs : FileSystem) (id : Nat) (bytes : ByteArray) :
    fs.canRead (.file id newFileMode bytes) = true := by
  simp [canRead, Node.ownerBits, newFileMode]

theorem readFile_of_spot {l : Location} {id mode : Nat} {bytes : ByteArray}
    (hs : fs.spot true p = .ok (.node l)) (hg : fs.get? l = some (.file id mode bytes))
    (hr : fs.canRead (.file id mode bytes) = true) : fs.readFile p = .ok bytes := by
  rw [readFile, openRead, hs]
  simp only [hg, hr, if_true]

theorem create_spot {into : Location} (h : fs.create p = .ok (fs', into)) :
    ∃ sp, fs.spot true p = .ok sp ∧ sp.loc = into ∧
      fs.canRead ((fs.get? into).getD (.file fs.freshId newFileMode ByteArray.empty)) = true := by
  rw [create] at h
  split at h
  · cases h
  rename_i fs₁ l ho
  cases h
  rw [openWrite] at ho
  split at ho
  · cases ho
  split at ho
  · cases ho
  · rename_i d s hs
    split at ho
    · cases ho
      refine ⟨_, hs, rfl, ?_⟩
      rw [(spot_gap hs).2.1]
      exact canRead_newFile ..
    · cases ho
  · rename_i l' hs
    split at ho
    · cases ho
    rename_i n hn
    split at ho
    · cases ho
    split at ho
    · rename_i haccess
      cases ho
      refine ⟨_, hs, rfl, ?_⟩
      rw [hn]
      exact (Bool.and_eq_true_iff.mp haccess).1
    · cases ho

theorem setBytes_retains (fs : FileSystem) (loc : Location) (bytes : ByteArray) :
    Retains fs (fs.setBytes loc bytes) := by
  refine ⟨terms_setBytes .., fun x n hn => ?_⟩
  rw [Agree, get?_setBytes, hn]
  split
  · rw [Option.map_some, Option.map_some, Option.map_some, Node.outline_withBytes]
  · rfl

theorem create_retains {into : Location} (h : fs.create p = .ok (fs', into)) : Retains fs fs' := by
  obtain ⟨_, hterms, _, hinto, _, helse⟩ := create_eq_ok h
  refine ⟨hterms, fun x n hn => ?_⟩
  by_cases hx : x = into
  · subst x
    rw [Agree, hinto, hn, Option.getD_some, Option.map_some, Option.map_some,
      Node.outline_withBytes]
  · rw [Agree, helse x hx, hn]
    split
    · rw [Option.map_some, Option.map_some, Option.map_some, Node.outline_withBytes]
    · rfl

theorem followLink_abs {budget : Nat} {aim : String} (h : Path.isAbs aim = true) (d d' : Location) :
    followLink fs budget d aim = followLink fs budget d' aim := by
  cases budget with
  | zero => rfl
  | succ budget => rw [followLink, followLink, if_pos h, if_pos h]

end FileSystem

namespace Artifact

open FileSystem

variable {fs fs' : FileSystem} {source target : String} {bytes : ByteArray} {a b : Location}
  {s t : String}

/-- A path leads to a file that can be read, and another path has a name in a directory that the
file may be moved to: it leads to no pipe and not to the file itself, be it under another name. Where
one of the two names is a link, no way leads through it. -/
structure Movable (fs : FileSystem) (source target : String) (bytes : ByteArray) (a : Location)
    (s : String) (b : Location) (t : String) : Prop where
  here : fs.entry source = .ok ⟨a, .name s, false⟩
  there : fs.entry target = .ok ⟨b, .name t, false⟩
  file : ∃ id mode, fs.stat source = .ok (.file id mode bytes) ∧
    fs.canRead (.file id mode bytes) = true
  apart : ∀ f l, fs.spot true source = .ok (.node f) → fs.spot true target = .ok (.node l) →
    ¬ fs.Alias f l
  storage : ∀ n, fs.stat target = .ok n → n.isRegular = true ∨ n.isDir = true
  ways : ∀ x ∈ [a ++ [s], b ++ [t]], fs.linkAt x ≠ none →
    x ∉ fs.visitsAbove source ∧ x ∉ fs.visitsAbove target
  beyond : ∀ aim, fs.linkAt (a ++ [s]) = some aim →
    a ++ [s] ∉ fs.visits true target ∧
      ∀ x ∈ [a ++ [s], b ++ [t]], x ∉ fs.visitsLink linkBudget a aim

structure Arrived (fs : FileSystem) (source target : String) (bytes : ByteArray) : Prop where
  read : fs.readFile target = .ok bytes
  gone : fs.lstat source = .error .notFound

namespace Movable

variable (h : Movable fs source target bytes a s b t)

include h

theorem found : ∃ f id mode, fs.spot true source = .ok (.node f) ∧
    fs.get? f = some (.file id mode bytes) ∧ fs.canRead (.file id mode bytes) = true ∧
    (f = a ++ [s] ∨ ∃ aim, fs.get? (a ++ [s]) = some (.link aim) ∧
      followLink fs linkBudget a aim = .ok (.node f)) := by
  obtain ⟨id, mode, hstat, hread⟩ := h.file
  obtain ⟨f, hspot, hf⟩ := stat_eq_ok hstat
  refine ⟨f, id, mode, hspot, hf, hread, ?_⟩
  cases spot_entry_cases h.here hspot with
  | inl hname => exact .inl hname.1
  | inr hlink => exact .inr hlink

theorem names_ne : a ++ [s] ≠ b ++ [t] := by
  intro heq
  obtain ⟨rfl, hst⟩ := List.append_inj' heq rfl
  cases hst
  obtain ⟨f, _, _, hspot, hf, _⟩ := h.found
  refine h.apart f f hspot ?_ (.inl rfl)
  refine spot_of_walk (pathFault?_of_entry h.there) hf ?_
  rw [walkWith_entry h.there, ← walkWith_entry h.here]
  exact walkWith_of_spot hspot

theorem target_ne {f : Location} {id mode : Nat} (hspot : fs.spot true source = .ok (.node f))
    (hf : fs.get? f = some (.file id mode bytes)) : f ≠ b ++ [t] := by
  rintro rfl
  refine h.apart _ _ hspot ?_ (.inl rfl)
  refine spot_entry_node h.there hf (linkAt_eq_none.mpr fun aim hl => ?_) true
  rw [hf] at hl
  cases hl

theorem not_alias {f : Location} {sp : Spot} {n : Node} (hspot : fs.spot true source = .ok (.node f))
    (hf : fs.get? f = some n) (hsp : fs.spot true target = .ok sp) : ¬ fs.Alias f sp.loc := by
  cases sp with
  | node l => exact h.apart f l hspot hsp
  | gap d m =>
    have hnone : fs.get? (d ++ [m]) = none := (spot_gap hsp).2.1
    rintro (heq | hsame)
    · rw [← heq, Spot.loc, hnone] at hf
      cases hf
    · rw [Spot.loc, sameFile_comm, sameFile_of_get?_none hnone] at hsame
      cases hsame

theorem loc_ne {f : Location} {sp : Spot} {n : Node} (hspot : fs.spot true source = .ok (.node f))
    (hf : fs.get? f = some n) (hsp : fs.spot true target = .ok sp) : sp.loc ≠ f :=
  fun heq => h.not_alias hspot hf hsp (.inl heq)

theorem source_not_dir (mode : Nat) : fs.get? (a ++ [s]) ≠ some (.dir mode) := by
  intro hdir
  obtain ⟨f, _, _, _, hf, _, rfl | ⟨aim, hlink, _⟩⟩ := h.found
  · rw [hdir] at hf
    cases hf
  · rw [hdir] at hlink
    cases hlink

end Movable

section Rename

/-- Neither way is changed when the names at their ends are. -/
theorem Movable.entries (h : Movable fs source target bytes a s b t)
    (ht : ∀ mode, fs.get? (b ++ [t]) ≠ some (.dir mode)) (hterms : fs'.terms = fs.terms)
    (hg : ∀ x, x ∉ [a ++ [s], b ++ [t]] → fs'.get? x = fs.get? x) :
    fs'.entry source = .ok ⟨a, .name s, false⟩ ∧ fs'.entry target = .ok ⟨b, .name t, false⟩ := by
  have hnames : ∀ x ∈ [a ++ [s], b ++ [t]], ∀ mode, fs.get? x ≠ some (.dir mode) := by
    intro x hx
    obtain rfl | rfl := List.mem_pair.mp hx
    · exact h.source_not_dir
    · exact ht
  exact ⟨entry_of_changed h.here hterms
      (fun x hx => ⟨hnames x hx, fun hl => (h.ways x hx hl).1⟩) hg,
    entry_of_changed h.there hterms
      (fun x hx => ⟨hnames x hx, fun hl => (h.ways x hx hl).2⟩) hg⟩

theorem Movable.rename (h : Movable fs source target bytes a s b t)
    (haim : ∀ aim, fs.linkAt (a ++ [s]) = some aim → Path.isAbs aim = true ∨ a = b)
    (hr : fs.rename source target = .ok fs') : Arrived fs' source target bytes := by
  obtain ⟨a', s', _, b', t', _, n, hs, ht, hn, _, hdir, hfs⟩ := rename_eq_ok hr
  rw [h.here] at hs
  rw [h.there] at ht
  cases hs
  cases ht
  have hne := h.names_ne
  obtain ⟨f, id, mode, hspot, hf, hread, hname⟩ := h.found
  have hother : fs.sameFile (a ++ [s]) (b ++ [t]) = false := by
    rw [← Bool.not_eq_true]
    intro hsame
    obtain ⟨_, _, _, _, _, hs, ht⟩ := sameFile_eq_true.mp hsame
    rcases hname with rfl | ⟨aim, hl, _⟩
    · refine h.apart _ _ hspot (spot_entry_node h.there ht ?_ true) (.inr ?_)
      · rw [linkAt, ht]
      · rw [sameFile_comm, hsame]
    · rw [hs] at hl
      cases hl
  rw [if_neg (by simp [hne, hother])] at hfs
  have hterms : fs'.terms = fs.terms := by rw [hfs, terms_set, terms_erase]
  have hnew : fs'.get? (b ++ [t]) = some n := by rw [hfs, get?_set, if_pos rfl]
  have hold : fs'.get? (a ++ [s]) = none := by
    rw [hfs, get?_set, if_neg hne, get?_erase, if_pos rfl]
  have hg : ∀ x, x ∉ [a ++ [s], b ++ [t]] → fs'.get? x = fs.get? x := by
    intro x hx
    rw [List.mem_pair, not_or] at hx
    rw [hfs, get?_set, if_neg hx.2, get?_erase, if_neg hx.1]
  obtain ⟨hsource, htarget⟩ := h.entries hdir hterms hg
  refine ⟨?_, lstat_entry_none hsource hold⟩
  have hread' : fs'.canRead (.file id mode bytes) = true := (canRead_of_terms hterms _).trans hread
  cases hname with
  | inl hfile =>
    subst f
    rw [hn, Option.some.injEq] at hf
    subst n
    have hlink : fs'.linkAt (b ++ [t]) = none := linkAt_eq_none.mpr fun aim hl => by
      rw [hnew] at hl
      cases hl
    exact readFile_of_spot (spot_entry_node htarget hnew hlink true) hnew hread'
  | inr hlink =>
    -- the link leads from its new directory to where it led from the old one
    obtain ⟨aim, hl, hfollow⟩ := hlink
    rw [hn, Option.some.injEq] at hl
    subst n
    have hlinkAt := linkAt_eq_some.mpr hn
    have hvisits := (h.beyond aim hlinkAt).2
    have hfollow' : followLink fs' linkBudget b aim = .ok (.node f) := by
      have hsame : followLink fs' linkBudget a aim = .ok (.node f) := by
        rw [← hfollow]
        exact followLink_congr hterms fun x hx => .of_eq (hg x fun hmem => hvisits x hmem hx)
      cases haim aim hlinkAt with
      | inl habs => rw [followLink_abs habs b a, hsame]
      | inr hab => exact hab ▸ hsame
    have hf' : fs'.get? f = some (.file id mode bytes) := by
      rw [hg f, hf]
      rw [List.mem_pair, not_or]
      refine ⟨?_, h.target_ne hspot hf⟩
      rintro rfl
      rw [hn] at hf
      cases hf
    exact readFile_of_spot (spot_entry_link htarget hnew hfollow' hf') hf' hread'

end Rename

section Copy

theorem copyAndDelete_eq_none (h : copyAndDelete fs source target = (fs', none)) :
    ∃ loc n fs₁ into, fs.openRead source = .ok (loc, n) ∧ fs.create target = .ok (fs₁, into) ∧
      (copyBytes fs₁ loc into none).remove source = .ok fs' := by
  have hends := copyAndDelete_copies fs source target
  rw [h] at hends
  cases hends with
  | done ho hc hr => exact ⟨_, _, _, _, ho, hc, hr⟩

variable {fs₁ : FileSystem} {f into : Location} {id mode : Nat}
  (hc : fs.create target = .ok (fs₁, into))

include hc

theorem get?_copyBytes (hf : fs.get? f = some (.file id mode bytes)) (hne : ¬ fs.Alias f into) :
    (copyBytes fs₁ f into none).get? into =
      some (((fs.get? into).getD (.file fs.freshId newFileMode ByteArray.empty)).withBytes bytes) := by
  obtain ⟨_, _, _, hinto, _, helse⟩ := create_eq_ok hc
  obtain ⟨hother, hsame⟩ := not_or.mp hne
  rw [sameFile_comm] at hsame
  rw [copyBytes, helse f (Ne.symm hother), if_neg hsame, hf]
  dsimp only
  rw [get?_setBytes_self, hinto, Option.map_some, Node.withBytes_withBytes, Option.elim_none]

theorem copyBytes_retains (loc : Location) (upTo : Option Nat) :
    Retains fs (copyBytes fs₁ loc into upTo) := by
  refine (create_retains hc).trans ?_
  rw [copyBytes]
  split
  · exact setBytes_retains ..
  · exact .refl fs₁

end Copy

theorem copyAndDelete_agree {l : Location} {n : Node} (ht : Unlinked fs target)
    (hls : fs.lead false source ≠ some l) (hlt : fs.lead false target ≠ some l)
    (hn : fs.get? l = some n) : Agree fs (Artifact.copyAndDelete fs source target).1 l := by
  have hcopies : ∀ {fs₁ : FileSystem} {into : Location}, fs.create target = .ok (fs₁, into) →
      ∀ (loc : Location) (upTo : Option Nat), Agree fs (copyBytes fs₁ loc into upTo) l ∧
        ∀ {fs' : FileSystem} {p : String}, (copyBytes fs₁ loc into upTo).remove p = .ok fs' →
          fs.lead false p ≠ some l → Agree fs fs' l := by
    intro fs₁ into hc loc upTo
    have hagree := (copyBytes_retains hc loc upTo).agree l n hn
    obtain ⟨_, htouches, hlinks⟩ := copy_touches ht hc loc upTo
    refine ⟨hagree, fun {fs' p} hr hp => ?_⟩
    obtain ⟨d, s, slash, _, he, _, _, _, rfl⟩ := remove_eq_ok hr
    rw [Agree, get?_erase, if_neg, hagree]
    rintro rfl
    rw [← lead_congr htouches.terms hlinks] at hp
    exact hp (entry_lead he)
  have h := copyAndDelete_copies fs source target
  generalize Artifact.copyAndDelete fs source target = ended at h
  cases h with
  | unread | unmade => rfl
  | halted _ hc _ hr =>
    obtain ⟨hcopy, hremove⟩ := hcopies hc _ _
    rcases hr with rfl | hr
    · exact hcopy
    · exact hremove hr hlt
  | kept _ hc _ => exact (hcopies hc _ _).1
  | done _ hc hr => exact (hcopies hc _ _).2 hr hls

namespace Movable

variable (h : Movable fs source target bytes a s b t) {sp : Spot}
  (hsp : fs.spot true target = .ok sp)

include h hsp

theorem spot_erase : (fs.erase (a ++ [s])).spot true target = .ok sp := by
  obtain ⟨f, _, _, hspot, hf, _, hname⟩ := h.found
  rw [← hsp]
  refine spot_congr (terms_erase ..) fun x hx => .of_eq ?_
  rw [get?_erase, if_neg]
  rintro rfl
  cases hname with
  | inr hlink =>
    obtain ⟨aim, hl, _⟩ := hlink
    exact (h.beyond aim (linkAt_eq_some.mpr hl)).1 hx
  | inl hfile =>
    -- a way leads through no file, and this one does not end at the one that is moved
    subst f
    cases walkFrom_visited (walkWith_of_spot hsp) _ hx with
    | inl hend => exact h.loc_ne hspot hf hsp hend.symm
    | inr hpassage =>
      obtain ⟨n, hn, hdir | ⟨aim, rfl⟩⟩ := hpassage
      · rw [hf, Option.some.injEq] at hn
        rw [← hn] at hdir
        cases hdir
      · rw [hf] at hn
        cases hn

theorem written {fs₁ : FileSystem} (hc : fs.create target = .ok (fs₁, sp.loc)) :
    sp.loc ≠ a ++ [s] ∧
      ∃ id mode old, (fs.get? sp.loc).getD (.file fs.freshId newFileMode ByteArray.empty) =
        .file id mode old := by
  obtain ⟨f, _, _, hspot, hf, _, hname⟩ := h.found
  have hold : ∀ n, fs.get? sp.loc = some n → n.isRegular = true := by
    intro n hn
    cases sp with
    | gap d m =>
      rw [Spot.loc, (spot_gap hsp).2.1] at hn
      cases hn
    | node l =>
      have hn' : fs.get? l = some n := hn
      obtain ⟨_, _, _, _, hdir, _⟩ := create_eq_ok hc
      refine (h.storage n ?_).resolve_right (by rw [hdir n hn]; exact Bool.false_ne_true)
      rw [stat, hsp]
      dsimp only
      rw [hn']
  refine ⟨fun heq => ?_, ?_⟩
  · cases hname with
    | inl hfile => exact h.loc_ne hspot hf hsp (heq.trans hfile.symm)
    | inr hlink =>
      obtain ⟨aim, hl, _⟩ := hlink
      rw [heq] at hold
      exact Bool.false_ne_true (hold _ hl)
  · cases hg : fs.get? sp.loc with
    | none => exact ⟨_, _, _, rfl⟩
    | some n =>
      have hregular := hold n hg
      cases n with
      | file id mode old => exact ⟨id, mode, old, rfl⟩
      | dir | link | fifo => cases hregular

end Movable

theorem Movable.copyAndDelete (h : Movable fs source target bytes a s b t)
    (hcopy : copyAndDelete fs source target = (fs', none)) : Arrived fs' source target bytes := by
  obtain ⟨loc, n, fs₁, into, ho, hc, hr⟩ := copyAndDelete_eq_none hcopy
  obtain ⟨f, _, _, hspot, hf, _⟩ := h.found
  have hloc : loc = f := by
    have hs := (openRead_eq_ok ho).1
    rw [hspot, Except.ok.injEq, Spot.node.injEq] at hs
    exact hs.symm
  subst loc
  obtain ⟨sp, hsp, rfl, haccess⟩ := create_spot hc
  have hretains := copyBytes_retains hc f none
  have hbytes := get?_copyBytes hc hf (h.not_alias hspot hf hsp)
  obtain ⟨hnot, id, mode, old, hfile⟩ := h.written hsp hc
  rw [hfile] at haccess hbytes
  -- the copy stands where the target leads to, and the name of the source is erased after that
  obtain ⟨_, _, _, _, he, _, _, _, hfs⟩ := remove_eq_ok hr
  have hhere := hretains.entry h.here
  rw [hhere] at he
  cases he
  have herase : Retains (fs.erase (a ++ [s])) fs' := hfs ▸ hretains.erase (a ++ [s])
  have hcopied : fs'.get? sp.loc = some (.file id mode bytes) := by
    rw [hfs, get?_erase, if_neg hnot, hbytes]
    rfl
  have hread : fs'.canRead (.file id mode bytes) = true := by
    rw [canRead_of_terms herase.terms]
    exact haccess
  refine ⟨readFile_of_spot ?_ hcopied hread, ?_⟩
  · have hway := h.spot_erase hsp
    cases sp with
    | node l => exact herase.spot hway
    | gap d m =>
      refine herase.spot_filled hway hcopied (linkAt_eq_none.mpr fun aim hl => ?_)
      rw [show fs'.get? (d ++ [m]) = _ from hcopied] at hl
      cases hl
  · rw [hfs]
    exact lstat_erase hhere

/-- A link that stands at a name leads to the same place from another directory. -/
def Portable (fs : FileSystem) (a : Location) (s : String) (b : Location) : Prop :=
  ∀ aim, fs.linkAt (a ++ [s]) = some aim → Path.isAbs aim = true ∨ a = b

theorem move_arrives (h : Movable fs source target bytes a s b t) :
    (∀ fs', Artifact.copyAndDelete fs source target = (fs', none) →
      Arrived fs' source target bytes) ∧
    (Portable fs a s b → ∀ fs', fs.rename source target = .ok fs' →
      Arrived fs' source target bytes) ∧
    (Portable fs a s b ∨ (∃ e, fs.rename source target = .error e) →
      ∀ fs', move fs source target = (fs', none) → Arrived fs' source target bytes) := by
  refine ⟨fun fs' => h.copyAndDelete, fun haim fs' => h.rename haim, fun haim fs' hm => ?_⟩
  rw [move] at hm
  split at hm
  · rename_i fs₁ hr
    cases hm
    refine h.rename ?_ hr
    cases haim with
    | inl haim => exact haim
    | inr herror =>
      obtain ⟨e, he⟩ := herror
      rw [hr] at he
      cases he
  · exact h.copyAndDelete hm

def linked (aim : String) : FileSystem where
  nodes :=
    [([], .dir 0o755), (["c"], .dir 0o755), (["c", "p.hex"], .link aim),
      (["c", "q"], .file 0 0o644 "00".toUTF8), (["o"], .dir 0o755),
      (["o", "p.hex"], .file 1 0o644 "old".toUTF8)]
  nextId := 2
  cwd := []
  mounts := []
  privileged := false

theorem linked_movable {aim : String} (h : aim ∈ ["/c/q", "q"]) :
    Movable (linked aim) "/c/p.hex" "/o/p.hex" "00".toUTF8 ["c"] "p.hex" ["o"] "p.hex" := by
  have hregular : (linked aim).isRegularFile "/o/p.hex" = true := by
    revert aim
    decide +kernel
  have hlink : (linked aim).linkAt (["c"] ++ ["p.hex"]) = some aim := by
    revert aim
    decide +kernel
  have hspots : (linked aim).spot true "/c/p.hex" = .ok (.node ["c", "q"]) ∧
      (linked aim).spot true "/o/p.hex" = .ok (.node ["o", "p.hex"]) ∧
      (linked aim).sameFile ["o", "p.hex"] ["c", "q"] = false := by
    revert aim
    decide +kernel
  refine ⟨?_, ?_, ⟨0, 0o644, ?_, by rfl⟩, fun f l hf hl => ?_, fun n hn => .inl ?_, ?_,
    fun aim' haim => ?_⟩
  · revert aim
    decide +kernel
  · revert aim
    decide +kernel
  · obtain rfl | rfl := List.mem_pair.mp h <;> rfl
  · obtain ⟨hsource, htarget, hother⟩ := hspots
    rw [hsource] at hf
    rw [htarget] at hl
    cases hf
    cases hl
    exact not_or.mpr ⟨by decide, by simp [hother]⟩
  · rw [isRegularFile, hn] at hregular
    exact hregular
  · revert aim
    decide +kernel
  · rw [hlink] at haim
    cases haim
    revert aim
    decide +kernel

theorem move_arrives_linked :
    (∃ fs', (linked "/c/q").rename "/c/p.hex" "/o/p.hex" = .ok fs' ∧
      move (linked "/c/q") "/c/p.hex" "/o/p.hex" = (fs', none) ∧
      Arrived fs' "/c/p.hex" "/o/p.hex" "00".toUTF8) ∧
    ∃ fs', Artifact.copyAndDelete (linked "/c/q") "/c/p.hex" "/o/p.hex" = (fs', none) ∧
      Arrived fs' "/c/p.hex" "/o/p.hex" "00".toUTF8 := by
  obtain ⟨hcopy, hrename, _⟩ := move_arrives (@linked_movable "/c/q" (by simp))
  have haim : Portable (linked "/c/q") ["c"] "p.hex" ["o"] := by
    intro aim haim
    have hlink : (linked "/c/q").linkAt (["c"] ++ ["p.hex"]) = some "/c/q" := by decide +kernel
    rw [hlink, Option.some.injEq] at haim
    subst aim
    exact .inl (by decide +kernel)
  exact ⟨⟨_, rfl, rfl, hrename haim _ rfl⟩, _, rfl, hcopy _ rfl⟩

/-- A link into its own directory that gets a name in another leads nowhere there, where a copy of
what it led to is the file. A file is lost as well where it is copied to a name that leads to itself
or to a pipe, and cannot be read where the name was a link on its own way or on that of the source.
-/
theorem move_loses_file :
    Movable (linked "q") "/c/p.hex" "/o/p.hex" "00".toUTF8 ["c"] "p.hex" ["o"] "p.hex" ∧
    (∃ fs', (linked "q").rename "/c/p.hex" "/o/p.hex" = .ok fs' ∧
      move (linked "q") "/c/p.hex" "/o/p.hex" = (fs', none) ∧
      fs'.readFile "/o/p.hex" = .error ⟨"open", "/o/p.hex", .notFound⟩) ∧
    (∃ fs', Artifact.copyAndDelete (linked "q") "/c/p.hex" "/o/p.hex" = (fs', none) ∧
      fs'.readFile "/o/p.hex" = .ok "00".toUTF8) ∧
    let moved (fs : FileSystem) (source target : String) :
        Option OsError × Except OsError ByteArray :=
      let (fs', e) := move fs source target
      (e, fs'.readFile target)
    let itself := { linked "/o/p.hex" with mounts := [["o"]] }
    let pipe := { (linked "/c/q").set ["o", "p.hex"] (.fifo 0o644) with mounts := [["o"]] }
    let round := ((linked "q").set ["c", "k"] (.file 2 0o644 "00".toUTF8)).set ["k"] (.link ".")
    let across := (linked "/k/q").set ["k"] (.link "/c")
    moved itself "/c/p.hex" "/o/p.hex" = (none, .ok ByteArray.empty) ∧
      moved pipe "/c/p.hex" "/o/p.hex" = (none, .ok ByteArray.empty) ∧
      moved round "/c/k" "/k/k" = (none, .error ⟨"open", "/k/k", .notDirectory⟩) ∧
      moved across "/c/p.hex" "/k" = (none, .error ⟨"open", "/k", .loop⟩) :=
  ⟨linked_movable (by simp), ⟨_, rfl, rfl, rfl⟩, ⟨_, rfl, rfl⟩, rfl, rfl, rfl, rfl⟩

end Artifact

end Crosscheck
