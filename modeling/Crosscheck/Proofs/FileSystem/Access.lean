import Crosscheck.FileSystem.Access
import Crosscheck.Proofs.FileSystem.Lead

namespace Crosscheck

def Node.withBytes (bytes : ByteArray) : Node → Node
  | .file id mode _ => .file id mode bytes
  | n => n

@[simp] theorem Node.withBytes_withBytes (n : Node) (a b : ByteArray) :
    (n.withBytes a).withBytes b = n.withBytes b := by
  cases n <;> rfl

theorem Node.eq_of_withBytes_eq_file {n : Node} {bytes bytes' : ByteArray} {id mode : Nat}
    (h : n.withBytes bytes = .file id mode bytes') : bytes' = bytes := by
  cases n with
  | file =>
    simp only [Node.withBytes, Node.file.injEq] at h
    exact h.2.2.symm
  | dir | link | fifo => cases h

theorem Node.eq_link_of_withBytes {n : Node} {bytes : ByteArray} {aim : String}
    (h : n.withBytes bytes = .link aim) : n = .link aim := by
  cases n with
  | link t => exact h
  | dir | file | fifo => cases h

def Node.contents? : Node → Option ByteArray
  | .file _ _ bytes => some bytes
  | .dir _ => none
  | _ => some ByteArray.empty

namespace FileSystem

variable {fs fs' : FileSystem} {p : String}

theorem stat_eq_ok {n : Node} (h : fs.stat p = .ok n) :
    ∃ loc, fs.spot true p = .ok (.node loc) ∧ fs.get? loc = some n := by
  rw [stat] at h
  split at h
  · cases h
  · cases h
  rename_i loc hs
  split at h
  · rename_i m hm
    cases h
    exact ⟨loc, hs, hm⟩
  · cases h

theorem lstat_eq_ok {n : Node} (h : fs.lstat p = .ok n) :
    ∃ loc, fs.spot false p = .ok (.node loc) ∧ fs.get? loc = some n := by
  rw [lstat] at h
  split at h
  · cases h
  · cases h
  rename_i loc hs
  split at h
  · rename_i m hm
    cases h
    exact ⟨loc, hs, hm⟩
  · cases h

theorem fileExists_eq_true : fs.fileExists p = true ↔ ∃ n, fs.stat p = .ok n ∧ n.isDir = false := by
  rw [fileExists]
  split
  · rename_i n hn
    simp [hn]
  · rename_i hn
    simp [hn]

def bytesAt? (fs : FileSystem) (p : String) : Option ByteArray :=
  (fs.stat p).toOption.bind Node.contents?

theorem bytesAt?_of_stat {n : Node} (h : fs.stat p = .ok n) : fs.bytesAt? p = n.contents? := by
  rw [bytesAt?, h]
  rfl

theorem openRead_eq_ok {loc : Location} {n : Node} (h : fs.openRead p = .ok (loc, n)) :
    fs.spot true p = .ok (.node loc) ∧ fs.get? loc = some n ∧ fs.canRead n = true := by
  rw [openRead] at h
  split at h
  · cases h
  · cases h
  rename_i found hs
  split at h
  · cases h
  rename_i m hm
  split at h
  · rename_i hr
    cases h
    exact ⟨hs, hm, hr⟩
  · cases h

theorem readFile_eq_ok {bytes : ByteArray} (h : fs.readFile p = .ok bytes) :
    ∃ loc n, fs.spot true p = .ok (.node loc) ∧ fs.get? loc = some n ∧
      n.contents? = some bytes := by
  rw [readFile] at h
  split at h
  · cases h
  · rename_i loc id mode old ho
    cases h
    obtain ⟨hs, hg, _⟩ := openRead_eq_ok ho
    exact ⟨loc, _, hs, hg, rfl⟩
  · cases h
  · rename_i found hfile hdir ho
    obtain ⟨loc, n⟩ := found
    cases h
    obtain ⟨hs, hg, _⟩ := openRead_eq_ok ho
    refine ⟨loc, n, hs, hg, ?_⟩
    cases n with
    | file id mode old => exact absurd rfl (hfile loc id mode old)
    | dir mode => exact absurd rfl (hdir loc mode)
    | link | fifo => rfl

theorem mayChange_eq_true {dir : Location} :
    fs.mayChange dir = true ↔
      ∃ n, fs.get? dir = some n ∧ fs.canWrite n = true ∧ fs.canSearch n = true := by
  unfold mayChange
  split
  · rename_i n hn
    simp [hn]
  · rename_i hn
    simp [hn]

theorem unlink_eq_ok (h : fs.unlink p = .ok fs') :
    ∃ dir s n, fs.entry p = .ok ⟨dir, .name s, false⟩ ∧ fs.get? (dir ++ [s]) = some n ∧
      fs.mayChange dir = true ∧ n.isDir = false ∧ fs' = fs.erase (dir ++ [s]) := by
  rw [unlink] at h
  split at h
  · cases h
  · rename_i dir s slash he
    split at h
    · cases h
    rename_i n hn
    split at h
    · cases h
    rename_i hslash
    rw [Bool.not_eq_true] at hslash
    subst slash
    split at h
    · cases h
    rename_i hchange
    split at h
    · cases h
    rename_i hdir
    cases h
    exact ⟨dir, s, n, he, hn, by simpa using hchange, by simpa using hdir, rfl⟩
  · cases h

theorem rmdir_eq_ok (h : fs.rmdir p = .ok fs') :
    ∃ dir s slash n, fs.entry p = .ok ⟨dir, .name s, slash⟩ ∧ fs.get? (dir ++ [s]) = some n ∧
      fs.mayChange dir = true ∧ n.isDir = true ∧ fs.isEmptyDir (dir ++ [s]) = true ∧
      fs' = fs.erase (dir ++ [s]) := by
  rw [rmdir] at h
  split at h
  · cases h
  · rename_i dir s slash he
    split at h
    · cases h
    rename_i n hn
    split at h
    · cases h
    rename_i hchange
    split at h
    · cases h
    rename_i hdir
    split at h
    · rename_i hempty
      cases h
      exact ⟨dir, s, slash, n, he, hn, by simpa using hchange, by simpa using hdir, hempty, rfl⟩
    · cases h
  · cases h
  · cases h
  · cases h

theorem remove_eq_ok (h : fs.remove p = .ok fs') :
    ∃ dir s slash n, fs.entry p = .ok ⟨dir, .name s, slash⟩ ∧ fs.get? (dir ++ [s]) = some n ∧
      fs.mayChange dir = true ∧ (n.isDir = true → fs.isEmptyDir (dir ++ [s]) = true) ∧
      fs' = fs.erase (dir ++ [s]) := by
  rw [remove] at h
  split at h
  · rename_i g hu
    cases h
    obtain ⟨dir, s, n, he, hn, hc, hd, rfl⟩ := unlink_eq_ok hu
    exact ⟨dir, s, false, n, he, hn, hc, by simp [hd], rfl⟩
  · split at h
    · rename_i g hr
      cases h
      obtain ⟨dir, s, slash, n, he, hn, hc, _, hempty, rfl⟩ := rmdir_eq_ok hr
      exact ⟨dir, s, slash, n, he, hn, hc, fun _ => hempty, rfl⟩
    · cases h

theorem remove_of_entry {dir : Location} {s : String}
    (h : fs.entry p = .ok ⟨dir, .name s, false⟩) :
    fs.remove p =
      match fs.get? (dir ++ [s]) with
      | none => refused "remove" p .notFound
      | some n =>
        if fs.mayChange dir = false then refused "remove" p .denied
        else if n.isDir = true ∧ fs.isEmptyDir (dir ++ [s]) = false then
          refused "remove" p .notEmpty
        else .ok (fs.erase (dir ++ [s])) := by
  rw [remove, unlink, rmdir, h]
  dsimp only
  cases fs.get? (dir ++ [s]) with
  | none => rfl
  | some n =>
    by_cases hc : fs.mayChange dir = false
    · simp [hc]
    cases hd : n.isDir with
    | false => simp [hc, hd]
    | true => cases fs.isEmptyDir (dir ++ [s]) <;> simp [hc, hd]

theorem sameFile_eq_true {l l' : Location} :
    fs.sameFile l l' = true ↔ ∃ id mode bytes mode' bytes',
      fs.get? l = some (.file id mode bytes) ∧ fs.get? l' = some (.file id mode' bytes') := by
  unfold sameFile
  split
  · rename_i i mode bytes j mode' bytes' hl hl'
    rw [hl, hl', beq_iff_eq]
    constructor
    · rintro rfl
      exact ⟨i, mode, bytes, mode', bytes', rfl, rfl⟩
    · rintro ⟨id, _, _, _, _, h, h'⟩
      cases h
      cases h'
      rfl
  · rename_i hno
    refine iff_of_false Bool.false_ne_true ?_
    rintro ⟨id, mode, bytes, mode', bytes', h, h'⟩
    exact hno id mode bytes id mode' bytes' h h'

theorem sameFile_of_get?_none {l l' : Location} (h : fs.get? l' = none) :
    fs.sameFile l l' = false := by
  rw [← Bool.not_eq_true, sameFile_eq_true]
  rintro ⟨_, _, _, _, _, _, h'⟩
  rw [h] at h'
  cases h'

theorem sameFile_comm (l l' : Location) : fs.sameFile l l' = fs.sameFile l' l := by
  rw [Bool.eq_iff_iff, sameFile_eq_true, sameFile_eq_true]
  constructor <;> rintro ⟨id, mode, bytes, mode', bytes', h, h'⟩ <;>
    exact ⟨id, mode', bytes', mode, bytes, h', h⟩

theorem rename_eq_ok {source target : String} (h : fs.rename source target = .ok fs') :
    ∃ a s slash b t slash' n, fs.entry source = .ok ⟨a, .name s, slash⟩ ∧
      fs.entry target = .ok ⟨b, .name t, slash'⟩ ∧ fs.get? (a ++ [s]) = some n ∧
      n.isDir = false ∧ (∀ mode, fs.get? (b ++ [t]) ≠ some (.dir mode)) ∧
      fs' = if a ++ [s] = b ++ [t] ∨ fs.sameFile (a ++ [s]) (b ++ [t]) then fs
        else (fs.erase (a ++ [s])).set (b ++ [t]) n := by
  rw [rename] at h
  split at h
  · cases h
  · cases h
  · rename_i a s slash b t slash' hs ht
    split at h
    · cases h
    split at h
    · cases h
    rename_i n hn
    split at h
    · cases h
    rename_i hdir
    rw [Bool.not_eq_true] at hdir
    refine ⟨a, s, slash, b, t, slash', n, hs, ht, hn, hdir, ?_⟩
    split at h
    · rename_i hsame
      cases h
      refine ⟨?_, (if_pos hsame).symm⟩
      rintro mode hm
      rcases hsame with heq | hsame
      · rw [← heq, hn, Option.some.injEq] at hm
        rw [hm] at hdir
        cases hdir
      · obtain ⟨_, _, _, _, _, _, hfile⟩ := sameFile_eq_true.mp hsame
        rw [hm] at hfile
        cases hfile
    · rename_i hother
      split at h
      · cases h
      split at h
      · cases h
      rename_i hb
      cases h
      refine ⟨?_, (if_neg hother).symm⟩
      rintro mode hm
      exact hb (by rw [hm]; rfl)
  · cases h

theorem updated_eq_withBytes {id mode : Nat} {old bytes : ByteArray} :
    (Node.file id mode old).updated id (fun _ => bytes) = (Node.file id mode old).withBytes bytes := by
  simp [Node.updated, Node.withBytes]

theorem get?_setBytes (loc l : Location) (bytes : ByteArray) :
    (fs.setBytes loc bytes).get? l =
      if fs.sameFile l loc then (fs.get? l).map (Node.withBytes bytes) else fs.get? l := by
  by_cases hsame : fs.sameFile l loc = true
  · obtain ⟨id, mode, old, _, _, hl, hloc⟩ := sameFile_eq_true.mp hsame
    rw [if_pos hsame, setBytes, hloc]
    dsimp only
    rw [get?_update, hl, Option.map_some, Option.map_some, updated_eq_withBytes]
  · rw [if_neg hsame]
    unfold setBytes
    split
    · rename_i id mode old hloc
      rw [get?_update]
      cases hl : fs.get? l with
      | none => rfl
      | some n =>
        cases n with
        | file i m b =>
          have hi : i ≠ id := by
            rintro rfl
            exact hsame (sameFile_eq_true.mpr ⟨i, m, b, mode, old, hl, hloc⟩)
          simp [Node.updated, hi]
        | dir | link | fifo => rfl
    · rfl

theorem get?_setBytes_self (loc : Location) (bytes : ByteArray) :
    (fs.setBytes loc bytes).get? loc = (fs.get? loc).map (Node.withBytes bytes) := by
  rw [get?_setBytes]
  split
  · rfl
  · rename_i hsame
    cases hg : fs.get? loc with
    | none => rfl
    | some n =>
      cases n with
      | file id mode old =>
        exact absurd (sameFile_eq_true.mpr ⟨id, mode, old, mode, old, hg, hg⟩) hsame
      | dir | link | fifo => rfl

theorem sameFile_addFile {loc l : Location} {mode : Nat} {bytes : ByteArray} (hl : l ≠ loc) :
    (fs.addFile loc mode bytes).sameFile l loc = false := by
  rw [← Bool.not_eq_true, sameFile_eq_true]
  rintro ⟨id, m, b, m', b', h, h'⟩
  rw [get?_addFile, if_neg hl] at h
  rw [get?_addFile, if_pos rfl, Option.some.injEq, Node.file.injEq] at h'
  exact Nat.lt_irrefl _ (h'.1 ▸ lt_freshId h)

@[simp] theorem terms_setBytes (fs : FileSystem) (loc : Location) (bytes : ByteArray) :
    (fs.setBytes loc bytes).terms = fs.terms := by
  unfold setBytes
  split <;> rfl

@[simp] theorem nextId_setBytes (fs : FileSystem) (loc : Location) (bytes : ByteArray) :
    (fs.setBytes loc bytes).nextId = fs.nextId := by
  unfold setBytes
  split <;> rfl

theorem openWrite_eq_ok {access : Node → Bool} {loc : Location}
    (h : fs.openWrite p access = .ok (fs', loc)) :
    fs.lead true p = some loc ∧
      ((fs.get? loc = none ∧ fs' = fs.addFile loc newFileMode ByteArray.empty) ∨
        ∃ n, fs.get? loc = some n ∧ n.isDir = false ∧ fs' = fs) := by
  rw [openWrite] at h
  split at h
  · cases h
  split at h
  · cases h
  · rename_i dir name hs
    split at h
    · cases h
      exact ⟨spot_lead hs, .inl ⟨(spot_gap hs).2.1, rfl⟩⟩
    · cases h
  · rename_i l hs
    split at h
    · cases h
    rename_i n hn
    split at h
    · cases h
    rename_i hdir
    split at h
    · cases h
      exact ⟨spot_lead hs, .inr ⟨n, hn, by simpa using hdir, rfl⟩⟩
    · cases h

/-- What a path leads to is emptied, under all its names, or made as an empty file. -/
theorem create_eq_ok {loc : Location} (h : fs.create p = .ok (fs', loc)) :
    fs.lead true p = some loc ∧ fs'.terms = fs.terms ∧ fs.nextId ≤ fs'.nextId ∧
      fs'.get? loc = some (((fs.get? loc).getD
        (.file fs.freshId newFileMode ByteArray.empty)).withBytes ByteArray.empty) ∧
      (∀ n, fs.get? loc = some n → n.isDir = false) ∧
      ∀ l, l ≠ loc → fs'.get? l =
        if fs.sameFile l loc then (fs.get? l).map (Node.withBytes ByteArray.empty) else fs.get? l := by
  rw [create] at h
  split at h
  · cases h
  rename_i fs₁ l ho
  cases h
  obtain ⟨hlead, ⟨hnone, rfl⟩ | ⟨n, hn, hdir, rfl⟩⟩ := openWrite_eq_ok ho
  · refine ⟨hlead, by simp, ?_, ?_, by simp [hnone], ?_⟩
    · rw [nextId_setBytes]
      exact Nat.le_succ_of_le fs.le_freshId
    · rw [get?_setBytes_self, get?_addFile, if_pos rfl, hnone]
      rfl
    · intro l' hne
      rw [get?_setBytes, sameFile_addFile hne, sameFile_of_get?_none hnone, get?_addFile, if_neg hne]
  · refine ⟨hlead, by simp, by simp, ?_, ?_, ?_⟩
    · rw [get?_setBytes_self, hn]
      rfl
    · rintro m hm
      rw [hn, Option.some.injEq] at hm
      rw [← hm]
      exact hdir
    · intro l' _
      exact get?_setBytes ..

structure Furnished (fs fs' : FileSystem) : Prop where
  terms : fs'.terms = fs.terms
  nextId : fs'.nextId = fs.nextId
  get? : ∀ l, fs'.get? l = fs.get? l ∨
    (fs.get? l = none ∧ fs'.get? l = some (.dir newDirMode))

theorem Furnished.refl (fs : FileSystem) : Furnished fs fs := ⟨rfl, rfl, fun _ => .inl rfl⟩

theorem Furnished.trans {fs₁ : FileSystem} (h : Furnished fs fs₁) (h' : Furnished fs₁ fs') :
    Furnished fs fs' := by
  refine ⟨h'.terms.trans h.terms, h'.nextId.trans h.nextId, fun l => ?_⟩
  rcases h.get? l with hl | ⟨hnone, hdir⟩
  · rw [← hl]
    exact h'.get? l
  · rcases h'.get? l with hl' | ⟨hnone', _⟩
    · exact .inr ⟨hnone, hl'.trans hdir⟩
    · rw [hdir] at hnone'
      cases hnone'

theorem Furnished.get?_some (h : Furnished fs fs') {l : Location} {n : Node}
    (hn : fs.get? l = some n) : fs'.get? l = some n := by
  rcases h.get? l with hl | ⟨hnone, _⟩
  · rw [hl, hn]
  · rw [hn] at hnone
    cases hnone

theorem Furnished.linkAt (h : Furnished fs fs') : fs'.linkAt = fs.linkAt := by
  funext l
  rcases h.get? l with hl | ⟨hnone, hdir⟩
  · rw [FileSystem.linkAt, FileSystem.linkAt, hl]
  · rw [FileSystem.linkAt, FileSystem.linkAt, hnone, hdir]

theorem mkdir_furnished (h : fs.mkdir p = .ok fs') : Furnished fs fs' := by
  rw [mkdir] at h
  split at h
  · cases h
  · split at h
    · cases h
    rename_i dir s slash he hfree
    split at h
    · cases h
      refine ⟨rfl, rfl, fun l => ?_⟩
      rw [get?_set]
      by_cases hl : l = dir ++ [s]
      · subst l
        exact .inr ⟨by simpa using hfree, if_pos rfl⟩
      · exact .inl (if_neg hl)
    · cases h
  · cases h

theorem mkdirChain_furnished (fs : FileSystem) (ps : List String) :
    Furnished fs (fs.mkdirChain ps).1 := by
  induction ps with
  | nil => exact Furnished.refl fs
  | cons p parents ih =>
    rw [mkdirChain]
    split
    · exact Furnished.refl fs
    split
    · rename_i fs₁ e hc
      rw [hc] at ih
      exact ih
    · rename_i fs₁ hc
      rw [hc] at ih
      split
      · rename_i fs₂ hm
        exact ih.trans (mkdir_furnished hm)
      · split <;> exact ih

theorem mkdirAll_furnished (fs : FileSystem) (p : String) : Furnished fs (fs.mkdirAll p).1 :=
  mkdirChain_furnished fs (ancestors p)

end FileSystem

end Crosscheck
