import Crosscheck.Proofs.Artifact.Moving
import Crosscheck.Proofs.FileSystem.Paving

namespace Crosscheck

namespace FileSystem

variable {fs : FileSystem} {p dir s : String} {d : Location} {n : Node} {e : OsError}

theorem entry_join_of_spot {through : Bool} {sp : Spot} (hs : Path.IsName s)
    (h : fs.spot through (Path.join [dir, s]) = .ok sp) :
    ∃ a, fs.entry (Path.join [dir, s]) = .ok ⟨a, .name s, false⟩ := by
  have hw := walkWith_of_spot h
  have hparts : ∀ c ∈ Path.names dir ++ [s], c ≠ "" ∧ '/' ∉ c.toList :=
    fun c hc => Path.mem_names_append hs hc
  rw [Path.join_name dir hs, walkWith_ofComponents hparts] at hw
  rw [Path.join_name dir hs]
  cases ha : fs.walkAlong (Path.isAbs dir) (Path.names dir) with
  | error e =>
    rw [ha] at hw
    cases hw
  | ok found =>
    rw [ha] at hw
    cases found with
    | gap => cases hw
    | node a =>
      rw [onward, walkWith] at hw
      split at hw
      · cases hw
      rename_i he
      rw [if_neg hs.ne_dot, if_neg hs.ne_dotdot] at hw
      split at hw
      · cases hw
      rename_i hlen
      refine ⟨a, ?_⟩
      have hfault := pathFault?_of_spot h
      rw [Path.join_name dir hs] at hfault
      rw [entry_ofComponents hparts hfault ha he hs.ne_dot hs.ne_dotdot, if_neg hlen]

theorem openRead_denied (hstat : fs.stat p = .ok n) (h : fs.openRead p = .error e) :
    e = ⟨"open", p, .denied⟩ := by
  obtain ⟨l, hspot, hl⟩ := stat_eq_ok hstat
  rw [openRead, hspot] at h
  dsimp only at h
  rw [hl] at h
  dsimp only at h
  split at h
  · cases h
  · cases h
    rfl

section Entry

variable (he : fs.entry p = .ok ⟨d, .name s, false⟩)

include he

theorem create_of_entry (hg : fs.get? (d ++ [s]) = none) (hc : fs.mayChange d = true) :
    ∃ fs' into, fs.create p = .ok (fs', into) := by
  obtain ⟨front, hsteps, _, _, _, hthrough⟩ := entry_name he
  have hslash : ¬ (p.toList.getLast? = some '/' ∧ steps p ≠ []) := by
    intro hend
    have hlen := congrArg List.length (hthrough rfl)
    rw [stepsThrough, if_pos hend, hsteps] at hlen
    simp at hlen
  rw [create, openWrite, if_neg hslash, spot_entry_none he hg]
  dsimp only
  rw [if_pos hc]
  exact ⟨_, _, rfl⟩

theorem remove_denied (hn : fs.get? (d ++ [s]) = some n) (hd : n.isDir = false)
    (h : fs.remove p = .error e) : e = ⟨"remove", p, .denied⟩ := by
  rw [remove_of_entry he, hn] at h
  dsimp only at h
  split at h
  · cases h
    rfl
  rw [hd, if_neg (by simp)] at h
  cases h

theorem not_dir_of_stat (hstat : fs.stat p = .ok n) (hn : n.isDir = false) :
    ∃ k, fs.get? (d ++ [s]) = some k ∧ k.isDir = false := by
  obtain ⟨l, hspot, hl⟩ := stat_eq_ok hstat
  cases spot_entry_cases he hspot with
  | inl hname =>
    rw [hname.1] at hl
    exact ⟨n, hl, hn⟩
  | inr hlink =>
    obtain ⟨aim, hg, _⟩ := hlink
    exact ⟨_, hg, rfl⟩

end Entry

end FileSystem

namespace Artifact

open FileSystem

variable {fs fs₁ fs₂ : FileSystem} {source target : String} {n : Node} {e : OsError}

/-- A file that could not be moved is still all there is of it, unless it was copied and its
directory does not let go of it, or the copy came to a halt. -/
theorem move_stuck {d : Location} {s : String} (he : fs.entry source = .ok ⟨d, .name s, false⟩)
    (hstat : fs.stat source = .ok n) (hn : n.isDir = false)
    (h : move fs source target = (fs₁, some e)) :
    e = ⟨"remove", source, .denied⟩ ∨
      (∃ loc into lapse, fs.lapses loc into = some lapse ∧ e = lapse.fault) ∨
      (fs₁ = fs ∧ (e = ⟨"open", source, .denied⟩ ∨ fs.create target = .error e)) := by
  rw [move] at h
  split at h
  · cases h
  have hends := copyAndDelete_copies fs source target
  rw [h] at hends
  cases hends with
  | unread ho => exact .inr (.inr ⟨rfl, .inl (openRead_denied hstat ho)⟩)
  | unmade hc => exact .inr (.inr ⟨rfl, .inr hc⟩)
  | halted _ hc hl _ =>
    rw [lapses_of_terms (create_retains hc).terms] at hl
    exact .inr (.inl ⟨_, _, _, hl, rfl⟩)
  | @kept loc _ _ _ _ _ hc hr =>
    obtain ⟨k, hk, hdir⟩ := not_dir_of_stat he hstat hn
    have hretains := copyBytes_retains hc loc none
    obtain ⟨m, hm, hout⟩ := (hretains.agree _ k hk).some hk
    exact .inl (remove_denied (hretains.entry he) hm ((Node.isDir_of_outline hout).trans hdir) hr)

theorem discard_error {dir base primaryExt : String} {exts : List String}
    (h : (discard fs dir base primaryExt exts).2 = some e) :
    ∃ ext ∈ exts, ext ≠ primaryExt ∧
      ∃ errno, e = ⟨"remove", Path.join [dir, base ++ ext], errno⟩ := by
  induction exts generalizing fs with
  | nil => cases h
  | cons ext rest ih =>
    have hrest : ∀ {g : FileSystem}, (discard g dir base primaryExt rest).2 = some e →
        ∃ ext' ∈ ext :: rest, ext' ≠ primaryExt ∧
          ∃ errno, e = ⟨"remove", Path.join [dir, base ++ ext'], errno⟩ := by
      intro g hg
      obtain ⟨ext', hmem, hext'⟩ := ih hg
      exact ⟨ext', List.mem_cons_of_mem ext hmem, hext'⟩
    rw [discard] at h
    split at h
    · exact hrest h
    rename_i hne
    split at h
    · exact hrest h
    rename_i e' hr
    split at h
    · exact hrest h
    cases h
    refine ⟨ext, List.mem_cons_self, hne, ?_⟩
    rw [remove] at hr
    split at hr
    · cases hr
    split at hr
    · cases hr
    · cases hr
      exact ⟨_, rfl⟩

/-- The faults after which an output directory may be other than it was: an artifact that was copied
there may not be removed, the directory was made for one that may not be read or has too long a path
there, the copy came to a halt, or the artifact is there but a by-product of it was not removed. -/
inductive Strands (dir base outputDir primaryExt : String) (byproducts : List String)
    (lapses : Location → Location → Option Lapse) (before : Location → Option Node) : OsError → Prop
  | copied : Strands dir base outputDir primaryExt byproducts lapses before
      ⟨"remove", Path.join [dir, base ++ primaryExt], .denied⟩
  | closed (h : before = fun _ => none) :
      Strands dir base outputDir primaryExt byproducts lapses before
        ⟨"open", Path.join [dir, base ++ primaryExt], .denied⟩
  | overlong (h : before = fun _ => none) :
      Strands dir base outputDir primaryExt byproducts lapses before
        ⟨"open", Path.join [outputDir, base ++ primaryExt], .nameTooLong⟩
  | halted {loc into : Location} {lapse : Lapse} (h : lapses loc into = some lapse) :
      Strands dir base outputDir primaryExt byproducts lapses before lapse.fault
  | byproduct {ext : String} {errno : Errno} (hext : ext ∈ byproducts) (hne : ext ≠ primaryExt) :
      Strands dir base outputDir primaryExt byproducts lapses before
        ⟨"remove", Path.join [dir, base ++ ext], errno⟩

theorem nul_not_mem_join {dir outputDir name : String} (hname : Path.IsName name)
    (hout : Path.clean outputDir = outputDir) (hdir : pathFault? outputDir = none)
    (hsource : pathFault? (Path.join [dir, name]) = none) :
    '\x00' ∉ (Path.join [outputDir, name]).toList := by
  have hlast : '\x00' ∉ name.toList := by
    have hnul := (pathFault?_eq_none.mp hsource).1
    rw [Path.join_name dir hname, toList_ofComponents_append] at hnul
    exact fun h => hnul (List.mem_append_right _ h)
  have hfront := (pathFault?_eq_none.mp hdir).1
  rw [← hout, Path.clean_eq] at hfront
  rw [Path.join_name outputDir hname, toList_ofComponents_append]
  split
  · split <;> simpa using hlast
  · simpa using ⟨hfront, hlast⟩

/-- What keeps a file from being made in a new directory is the length of its path. -/
theorem create_in_new {d : Location} {outputDir name : String} (hname : Path.IsName name)
    (hlen : name.utf8ByteSize ≤ maxName) (hnul : '\x00' ∉ (Path.join [outputDir, name]).toList)
    (hw : fs.walkAlong (Path.isAbs outputDir) (Path.names outputDir) = .ok (.node d))
    (hnew : fs.get? d = some (.dir newDirMode)) (hnone : fs.get? (d ++ [name]) = none)
    (h : fs.create (Path.join [outputDir, name]) = .error e) :
    e = ⟨"open", Path.join [outputDir, name], .nameTooLong⟩ := by
  have hparts : ∀ c ∈ Path.names outputDir ++ [name], c ≠ "" ∧ '/' ∉ c.toList :=
    fun c hc => Path.mem_names_append hname hc
  have hjoin := Path.join_name outputDir hname
  have henter : fs.enter d = .ok () := enter_eq_ok.mpr ⟨_, hnew, canSearch_newDir fs⟩
  cases hfault : pathFault? (Path.join [outputDir, name]) with
  | none =>
    rw [hjoin] at hfault
    have htarget := entry_ofComponents hparts hfault hw henter hname.ne_dot hname.ne_dotdot
    rw [if_neg (Nat.not_lt.mpr hlen), ← hjoin] at htarget
    obtain ⟨fs', into, hmade⟩ := create_of_entry htarget hnone
      (mayChange_eq_true.mpr ⟨_, hnew, canWrite_newDir fs, canSearch_newDir fs⟩)
    rw [h] at hmade
    cases hmade
  | some errno =>
    have hlong : errno = .nameTooLong := by
      rw [pathFault?, if_neg (by simpa using hnul), if_neg (by
        rw [hjoin]
        exact ofComponents_ne_empty hparts)] at hfault
      split at hfault
      · exact (Option.some.inj hfault).symm
      · cases hfault
    have hslash : ¬ ((Path.join [outputDir, name]).toList.getLast? = some '/' ∧
        steps (Path.join [outputDir, name]) ≠ []) := by
      rw [hjoin]
      exact fun hend => (stepsThrough_ofComponents hparts).2.2 hend.1
    rw [create, openWrite, if_neg hslash, spot, hfault, hlong] at h
    cases h
    rfl

/-- When an artifact cannot be collected, what is found at the end of the output path is as it was,
unless one of those faults is the reason. -/
theorem Collects.tree {dir base outputDir primaryExt : String} {byproducts : List String}
    {got : Collected} {f : Fault} (hgot : Collects fs dir base outputDir primaryExt byproducts got)
    (hf : got.fault = some f) (hs : fs.Sound) (hout : Path.clean outputDir = outputDir)
    (hname : Path.IsName (base ++ primaryExt)) :
    got.fs.tree outputDir = fs.tree outputDir ∨
      ∃ e, f = .os e ∧ Strands dir base outputDir primaryExt byproducts fs.lapses
        (fs.tree outputDir) e := by
  cases hgot with
  | missing | directory => exact .inl rfl
  | homeless _ _ hd => exact .inl (mkdirAll_tree hs hout hd)
  | moved =>
    obtain ⟨e, he, rfl⟩ := Option.map_eq_some_iff.mp hf
    obtain ⟨ext, hext, hne, errno, rfl⟩ := discard_error he
    exact .inr ⟨_, rfl, .byproduct hext hne⟩
  | @stuck n fs₁ fs₂ e hstat hn hd hmove =>
    cases hf
    have hf := mkdirAll_furnished fs outputDir
    have hpaves := mkdirAll_paves hs hout
    rw [hd] at hf hpaves
    obtain ⟨l, hspot, hl⟩ := stat_eq_ok hstat
    obtain ⟨a, hentry⟩ := entry_join_of_spot hname hspot
    have hstat₁ : fs₁.stat (Path.join [dir, base ++ primaryExt]) = .ok n := by
      rw [stat, hf.retains.spot hspot]
      dsimp only
      rw [hf.get?_some hl]
    -- a directory that was made for nothing stands where nothing was
    have hbefore : fs₁.tree outputDir = fs.tree outputDir ∨ fs.tree outputDir = fun _ => none := by
      cases hroot : fs.stat outputDir with
      | error e => exact .inr (tree_eq_none hroot)
      | ok k =>
        have hkept := mkdirAll_of_stat hroot
        rw [hd] at hkept
        exact .inl (congrFun (congrArg FileSystem.tree hkept) outputDir)
    obtain rfl | ⟨_, _, _, hlapse, rfl⟩ | ⟨rfl, rfl | hc⟩ :=
      move_stuck (hf.retains.entry hentry) hstat₁ hn hmove
    · exact .inr ⟨_, rfl, .copied⟩
    · rw [lapses_of_terms hf.terms] at hlapse
      exact .inr ⟨_, rfl, .halted hlapse⟩
    · exact hbefore.imp_right fun hnone => ⟨_, rfl, .closed hnone⟩
    · cases hpaves with
      | kept => exact .inl rfl
      | @laid _ d hw hnew hempty =>
        obtain ⟨_, _, _, _, hplain, _⟩ := entry_name hentry
        have hnul := nul_not_mem_join hname hout (pathFault?_of_mkdirAll hd)
          (pathFault?_of_spot hspot)
        refine hbefore.imp_right fun hnone => ⟨_, rfl, ?_⟩
        rw [create_in_new hname hplain.2.2 hnul hw hnew (hempty _ []) hc]
        exact .overlong hnone

end Artifact

end Crosscheck
