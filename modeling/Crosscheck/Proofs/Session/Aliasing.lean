import Crosscheck.Proofs.Session.Sources
import Crosscheck.Settings.Load

namespace Crosscheck

open FileSystem

def Node.Holds (logger : Log.Logger) (P : ByteArray → Prop) : Node → Prop
  | .dir _ => True
  | .file id _ bytes => logger.file ≠ some id ∧ P bytes
  | _ => False

theorem Node.Holds.withBytes {logger : Log.Logger} {bytes : ByteArray} {n : Node}
    (h : n.Holds logger fun _ => True) : (n.withBytes bytes).Holds logger fun _ => True := by
  cases n with
  | dir => trivial
  | file => exact h
  | link | fifo => exact h.elim

/-- All that is written is regular files in one directory, if it is known, and no file gets another
name. -/
structure Program.WritesIn (dir : Option Location) (fs fs' : FileSystem) : Prop where
  terms : fs'.terms = fs.terms
  nextId : fs.nextId ≤ fs'.nextId
  get? : ∀ l, fs'.get? l = fs.get? l ∨
    ∃ d s id mode bytes, dir = some d ∧ l = d ++ [s] ∧ fs.Only l (·.isRegular = true) ∧
      fs'.get? l = some (.file id mode bytes) ∧
      (fs.nextId ≤ id ∨ ∃ mode' bytes', fs.get? l = some (.file id mode' bytes'))
  names : KeepsNames fs fs'

def EndsIn (ext : String) (l : Location) : Prop :=
  ∃ x name, l = x ++ [name] ∧ ext.toList <:+ name.toList

theorem endsIn_append (x : Location) (base ext : String) : EndsIn ext (x ++ [base ++ ext]) := by
  refine ⟨x, _, rfl, ?_⟩
  rw [String.toList_append]
  exact List.suffix_append _ _

/-- All paths lead where they led, a place that holds no log still holds none, and files under names
with the given end still have no others. -/
structure Quiet (logger : Log.Logger) (ext : String) (fs fs' : FileSystem) : Prop where
  terms : fs'.terms = fs.terms
  linkAt : fs'.linkAt = fs.linkAt
  nextId : fs.nextId ≤ fs'.nextId
  only : ∀ l, fs.Only l (Node.Holds logger fun _ => True) →
    fs'.Only l (Node.Holds logger fun _ => True)
  sole : Sole (EndsIn ext) fs → Sole (EndsIn ext) fs'

section Quiet

variable {logger : Log.Logger} {ext : String} {fs fs₁ fs' : FileSystem} {P : ByteArray → Prop}

theorem Quiet.refl (logger : Log.Logger) (ext : String) (fs : FileSystem) :
    Quiet logger ext fs fs := ⟨rfl, rfl, Nat.le_refl _, fun _ h => h, id⟩

theorem Quiet.trans (h : Quiet logger ext fs fs₁) (h' : Quiet logger ext fs₁ fs') : Quiet logger ext fs fs' :=
  ⟨h'.terms.trans h.terms, h'.linkAt.trans h.linkAt, Nat.le_trans h.nextId h'.nextId,
    fun l hl => h'.only l (h.only l hl), fun hs => h'.sole (h.sole hs)⟩

theorem Quiet.lead (h : Quiet logger ext fs fs') (through : Bool) (p : String) :
    fs'.lead through p = fs.lead through p := lead_congr h.terms h.linkAt through p

theorem Quiet.sourcePath (h : Quiet logger ext fs fs') (input : String) :
    Runner.sourcePath fs' input = Runner.sourcePath fs input := by
  rw [Runner.sourcePath, Runner.sourcePath, Runner.workingDir, Runner.workingDir,
    cwd_of_terms h.terms]

theorem Logged.only (h : Logged logger fs fs') {l : Location}
    (hl : fs.Only l (Node.Holds logger P)) : fs'.Only l (Node.Holds logger P) := by
  have hget : fs'.get? l = fs.get? l := h.get?_eq fun id mode bytes hg => (hl _ hg).1
  intro n hn
  exact hl n (hget ▸ hn)

theorem Logged.quiet (h : Logged logger fs fs') : Quiet logger ext fs fs' :=
  ⟨h.terms, h.linkAt, Nat.le_of_eq h.nextId.symm, fun _ hl => h.only hl,
    fun hs => hs.keepsNames h.keepsNames⟩

theorem removeStale_quiet {p : String} (h : Runner.removeStale fs p = .ok fs')
    (hp : fs.Unlinked p) : Quiet logger ext fs fs' := by
  have ht := Runner.removeStale_touches h fun l (hl : fs.lead false p = some l) => hl
  have hw := Runner.removeStale_within h
  exact ⟨ht.terms, ht.linkAt hp, ht.nextId, fun l hl => hl.within hw,
    fun hs => hs.keepsNames hw.keepsNames⟩

theorem Program.WritesIn.quiet {dir : Option Location} (h : WritesIn dir fs fs')
    (hlog : ∀ id, logger.file = some id → id < fs.nextId) : Quiet logger ext fs fs' := by
  refine ⟨h.terms, ?_, h.nextId, fun l hl n hn => ?_, fun hs => hs.keepsNames h.names⟩
  · funext l
    rcases h.get? l with hl | ⟨d, s, id, mode, bytes, _, _, hold, hnew, _⟩
    · rw [FileSystem.linkAt, FileSystem.linkAt, hl]
    · have hnone : fs.linkAt l = none := linkAt_eq_none.mpr fun target ht => by cases hold _ ht
      rw [hnone, FileSystem.linkAt, hnew]
  · rcases h.get? l with hsame | ⟨d, s, id, mode, bytes, _, _, _, hnew, hid⟩
    · exact hl n (hsame ▸ hn)
    · rw [hnew, Option.some.injEq] at hn
      rw [← hn]
      refine ⟨fun hfile => ?_, trivial⟩
      rcases hid with hid | ⟨mode', bytes', hold⟩
      · exact absurd (hlog id hfile) (Nat.not_lt.mpr hid)
      · exact (hl _ hold).1 hfile

end Quiet

namespace Runner

def targetPath (r : Runner) (tool : Tool) (input : String) : String :=
  Path.join [tool.outputDir, Path.stem input ++ r.artifactExt]

/-- No link stands where a tool leaves its files, or in place of its artifact; nor does the log. A
file with a name like that of an artifact has no other. -/
structure Clear (r : Runner) (tool : Tool) (input : String) (fs : FileSystem) : Prop where
  beside : ∀ e ∈ r.artifactExt :: tool.byproducts,
    fs.Unlinked (Path.join [Path.dir (sourcePath fs input), Path.stem input ++ e])
  target : ∀ l, fs.lead false (r.targetPath tool input) = some l →
    fs.Only l (Node.Holds r.logger fun _ => True)
  log : ∀ id, r.logger.file = some id → id < fs.nextId
  sole : Sole (EndsIn r.artifactExt) fs

variable {r : Runner} {launch : Program.Launch} {cancelled : Bool} {tool : Tool} {input : String}
  {fs fs' : FileSystem}

theorem Clear.quiet (h : r.Clear tool input fs) (hq : Quiet r.logger r.artifactExt fs fs') :
    r.Clear tool input fs' := by
  refine ⟨fun e he => ?_, fun l hl => ?_, fun id hid => ?_, hq.sole h.sole⟩
  · rw [hq.sourcePath]
    exact (h.beside e he).congr hq.terms hq.linkAt
  · rw [hq.lead] at hl
    exact hq.only l (h.target l hl)
  · exact Nat.lt_of_lt_of_le (h.log id hid) hq.nextId

theorem Clear.unlinked_target (h : r.Clear tool input fs) : fs.Unlinked (r.targetPath tool input) := by
  intro l hl
  rw [linkAt_eq_none]
  exact fun target ht => h.target l hl _ ht

theorem Clear.prepared {w : World} (h : r.Clear tool input w.fs) (hp : r.Prepared tool input w fs) :
    Quiet r.logger r.artifactExt w.fs fs := by
  obtain ⟨fs₁, hstale, hstart⟩ := hp.stale
  exact (removeStale_quiet hstale (h.beside _ (by simp))).trans hstart.quiet

theorem Clear.sole_target (h : r.Clear tool input fs)
    (hn : Path.IsName (Path.stem input ++ r.artifactExt)) {b l : Location}
    (hb : fs.lead false (r.targetPath tool input) = some b) (hl : fs.Alias b l) : l = b := by
  obtain ⟨x, rfl⟩ := lead_join_name hn hb
  exact hl.elim id (h.sole _ (endsIn_append x _ _) l)

theorem Clear.collects (h : r.Clear tool input fs) {got : Artifact.Collected}
    (hn : Path.IsName (Path.stem input ++ r.artifactExt))
    (hleft : ∀ a, fs.lead false (Path.join [Path.dir (sourcePath fs input),
      Path.stem input ++ r.artifactExt]) = some a → fs.Only a (Node.Holds r.logger fun _ => True))
    (hgot : Artifact.Collects fs (Path.dir (sourcePath fs input)) (Path.stem input) tool.outputDir
      r.artifactExt tool.byproducts got) : Quiet r.logger r.artifactExt fs got.fs := by
  have htouches : Touches (fun l => fs.linkAt l = none) fs got.fs := by
    refine hgot.touches fun n _ => ⟨h.beside _ (by simp), h.unlinked_target, h.beside _ (by simp),
      fun d hd l hl => hl.linkAt (h.unlinked_target d hd), fun e he _ => h.beside e (by simp [he])⟩
  refine ⟨htouches.terms, htouches.linkAt fun _ hl => hl, htouches.nextId, fun l hl => ?_,
    fun hs => hgot.sole hs fun a b ha _ _ => ?_⟩
  rotate_left
  · obtain ⟨x, rfl⟩ := lead_join_name hn ha
    exact endsIn_append x _ _
  refine hgot.only trivial (fun _ _ hn => hn.withBytes) (fun id hid => ?_) hleft hl
  exact ⟨fun hfile => absurd (h.log id hfile) (Nat.not_lt.mpr hid), trivial⟩

section Source

variable {w : World} (hinput : Path.IsFilePath input) (hne : r.artifactExt ≠ "")
  (hslash : '/' ∉ r.artifactExt.toList)

include hinput hne hslash

/-- A tool is started with no artifact in the directory of its source. What is no name leads to a
directory that the source is in, and that cannot be removed. -/
theorem Clear.absent (h : r.Clear tool input w.fs) (hp : r.Prepared tool input w fs) :
    Path.IsName (Path.stem input ++ r.artifactExt) ∧
    ∃ d, w.fs.lead true (Path.dir (sourcePath w.fs input)) = some d ∧
      w.fs.lead false (r.leftPath input w.fs) = some (d ++ [Path.stem input ++ r.artifactExt]) ∧
      fs.get? (d ++ [Path.stem input ++ r.artifactExt]) = none := by
  obtain ⟨loc, name, hnames, hsource⟩ := @Path.IsFilePath.abs input (workingDir w.fs) hinput
    (Path.isAbs_slash_append _)
  have hloc : ∀ s ∈ loc, Path.IsName s := fun s hs => hnames s (by simp [hs])
  have hbeside := h.beside r.artifactExt (by simp)
  have hexists := hp.source
  obtain ⟨fs₁, hstale, hstart⟩ := hp.stale
  rw [leftPath] at hstale ⊢
  rw [sourcePath, hsource] at hexists
  rw [sourcePath, hsource, Path.dir_toLocation hloc (hnames name (by simp))] at hstale hbeside ⊢
  obtain ⟨n, hstat, _⟩ := fileExists_eq_true.mp hexists
  obtain ⟨_, hspot, _⟩ := stat_eq_ok hstat
  have hnonempty : Path.stem input ++ r.artifactExt ≠ "" := by
    intro hempty
    rw [String.append_eq_empty_iff] at hempty
    exact hne hempty.2
  rcases Path.join_toLocation_cases hloc hnonempty (hinput.slash_not_mem_stem_append hslash) with
    hn | ⟨as, has, hjoin⟩
  · obtain ⟨d, hreach, _⟩ := reaches_of_spot hnames (List.prefix_refl loc) hspot
    rw [Path.join_toLocation hloc hn] at hstale ⊢
    have hgone := removeStale_gone hreach hloc hn hstale
    refine ⟨hn, d, hreach.lead, ?_, ?_⟩
    · rw [← Path.join_toLocation hloc hn, lead_join _ hn, Path.clean_toLocation hloc, hreach.lead]
      rfl
    · rw [hstart.get?_eq, hgone]
      rw [hgone]
      exact fun _ _ _ hg => by cases hg
  · obtain ⟨d, hreach, hfull⟩ := reaches_of_spot hnames has hspot
    rw [hjoin] at hstale hbeside
    obtain ⟨e, he, hnot⟩ := remove_reached (fun s hs => hloc s (has.subset hs)) hreach hbeside hfull
    rw [removeStale, he] at hstale
    dsimp only at hstale
    rw [if_neg hnot] at hstale
    cases hstale

/-- When the process of a tool is over, a file in the place of its artifact is its own. -/
theorem Clear.launched (h : r.Clear tool input w.fs) (hp : r.Prepared tool input w fs)
    (hw : Program.WritesIn (fs.lead true (r.commandFor tool input w.fs).dir) fs fs') :
    Quiet r.logger r.artifactExt w.fs fs' ∧ Path.IsName (Path.stem input ++ r.artifactExt) ∧
      ∃ a, w.fs.lead false (r.leftPath input w.fs) = some a ∧
      fs'.Only a (·.isRegular = true) ∧ fs'.Only a (Node.Holds r.logger fun _ => True) ∧
      ∀ x P, x ++ [Path.stem input ++ r.artifactExt] ≠ a →
        w.fs.Only (x ++ [Path.stem input ++ r.artifactExt]) (Node.Holds r.logger P) →
        fs'.Only (x ++ [Path.stem input ++ r.artifactExt]) (Node.Holds r.logger P) := by
  have hprepared := h.prepared hp
  have hlog : ∀ id, r.logger.file = some id → id < fs.nextId := (h.quiet hprepared).log
  obtain ⟨hn, d, hd, ha, hnone⟩ := h.absent hinput hne hslash hp
  rw [commandFor_dir, hprepared.lead, hd] at hw
  refine ⟨hprepared.trans (hw.quiet hlog), hn, _, ha, fun m hm => ?_, fun m hm => ?_,
    fun x P hx hP m hm => ?_⟩
  · rcases hw.get? (d ++ [_]) with hsame | ⟨_, _, id, mode, bytes, _, _, _, hnew, _⟩
    · rw [hsame, hnone] at hm
      cases hm
    · rw [hnew, Option.some.injEq] at hm
      rw [← hm]
      rfl
  · rcases hw.get? (d ++ [_]) with hsame | ⟨_, _, id, mode, bytes, _, _, _, hnew, hid⟩
    · rw [hsame, hnone] at hm
      cases hm
    · rw [hnew, Option.some.injEq] at hm
      rw [← hm]
      refine ⟨fun hfile => ?_, trivial⟩
      rcases hid with hid | ⟨mode', bytes', hold⟩
      · exact absurd (hlog id hfile) (Nat.not_lt.mpr hid)
      · rw [hnone] at hold
        cases hold
  · rcases hw.get? (x ++ [_]) with hsame | ⟨d', s, id, mode, bytes, hd', hl, _⟩
    · rw [hsame] at hm
      obtain ⟨fs₁, hstale, hstart⟩ := hp.stale
      exact hstart.only (hP.within (Runner.removeStale_within hstale)) m hm
    · rw [Option.some.injEq] at hd'
      subst d'
      have hlast := congrArg List.getLast? hl
      simp only [List.getLast?_concat, Option.some.injEq] at hlast
      rw [← hlast] at hl
      exact absurd hl hx

variable (hd : r.canDismiss = false)
  (hlaunch : ∀ fs cmd, Program.WritesIn (fs.lead true cmd.dir) fs (launch fs cmd).fs)
  (h : r.Clear tool input w.fs)

include hd hlaunch h

theorem assemble_quiet :
    Quiet r.logger r.artifactExt w.fs (r.assemble launch cancelled tool input w).2.fs := by
  obtain ⟨fs', hcourse, hlogged⟩ := @assemble_course r launch cancelled tool input hd w
  refine Quiet.trans ?_ hlogged.quiet
  generalize (r.assemble launch cancelled tool input w).1.success = ok at hcourse
  cases hcourse with
  | missing | stuck => exact .refl _ _ _
  | held hp => exact h.prepared hp
  | broken hp => exact (h.launched hinput hne hslash hp (hlaunch _ _)).1
  | @ended fs got hp _ hgot =>
    obtain ⟨hq, hn, a, ha, _, honly, _⟩ := h.launched hinput hne hslash hp (hlaunch fs _)
    refine hq.trans ?_
    have hcollects := Artifact.Collects.of_eq hgot
    rw [← hq.sourcePath] at hcollects
    refine (h.quiet hq).collects hn (fun a' ha' => ?_) hcollects
    rw [hq.sourcePath, hq.lead, ← leftPath, ha, Option.some.injEq] at ha'
    rw [← ha']
    exact honly

/-- After a run that succeeded nothing but what its process left can be read in the place of the
artifact, and no other artifact of the case has changed. -/
theorem assemble_left (hok : (r.assemble launch cancelled tool input w).1.success = true) :
    Path.IsName (Path.stem input ++ r.artifactExt) ∧
    ∃ bytes b, r.left launch tool input w = some bytes ∧
      w.fs.lead false (r.targetPath tool input) = some b ∧
      (r.assemble launch cancelled tool input w).2.fs.Only b (Node.Holds r.logger (· = bytes)) ∧
      ∀ x P, x ++ [Path.stem input ++ r.artifactExt] ≠ b →
        w.fs.Only (x ++ [Path.stem input ++ r.artifactExt]) (Node.Holds r.logger P) →
        (r.assemble launch cancelled tool input w).2.fs.Only
          (x ++ [Path.stem input ++ r.artifactExt]) (Node.Holds r.logger P) := by
  obtain ⟨fs', hcourse, hlogged⟩ := @assemble_course r launch cancelled tool input hd w
  rw [hok] at hcourse
  generalize hb : true = ok at hcourse
  cases hcourse with
  | missing | stuck | held | broken => cases hb
  | @ended fs got hp _ hgot =>
  obtain ⟨hq, hn, a, ha, hreg, honly, hothers⟩ := h.launched hinput hne hslash hp (hlaunch fs _)
  have hclear := h.quiet hq
  have hcollects := Artifact.Collects.of_eq hgot
  have hbeside := hclear.beside r.artifactExt (by simp)
  rw [hq.sourcePath] at hbeside
  have hsole := fun b hlead l => hclear.sole_target hn (b := b) hlead (l := l)
  obtain ⟨b, id, mode, bytes, hlead, hstat, hbytes, helse⟩ := hcollects.collected hb.symm hbeside
    hclear.unlinked_target (by rw [hq.lead]; exact ha) hreg hsole
  refine ⟨hn, bytes, b, ?_, ?_, fun n hget => ?_, fun x P hx hP => ?_⟩
  · rw [← leftPath] at hstat
    rw [hp.left_eq, bytesAt?_of_stat hstat, Node.contents?]
  · rw [hq.lead] at hlead
    exact hlead
  · have hholds : got.fs.Only b (Node.Holds r.logger (· = bytes)) := by
      have hquiet : got.fs.Only b (Node.Holds r.logger fun _ => True) := by
        rw [← hq.sourcePath] at hcollects
        refine (hclear.collects hn (fun a' ha' => ?_) hcollects).only b (hclear.target b hlead)
        rw [hq.sourcePath, hq.lead, ← leftPath, ha, Option.some.injEq] at ha'
        rw [← ha']
        exact honly
      intro m hm
      have hm' := hquiet m hm
      cases m with
      | dir => trivial
      | file id' mode' bytes' => exact ⟨hm'.1, hbytes id' mode' bytes' hm⟩
      | link | fifo => exact hm'.elim
    exact hlogged.only hholds n hget
  · refine hlogged.only fun n hn => ?_
    obtain ⟨hxa, hn' | rfl⟩ := helse _ n hx hn
    · exact hothers x P hxa hP n hn'
    · trivial

end Source

end Runner

theorem FileSystem.readFile_holds {fs : FileSystem} {p : String} {bytes : ByteArray}
    (hp : fs.Unlinked p) (h : fs.readFile p = .ok bytes) :
    ∃ l, fs.lead false p = some l ∧ ∀ logger P, fs.Only l (Node.Holds logger P) → P bytes := by
  obtain ⟨l, n, hspot, hn, hbytes⟩ := readFile_eq_ok h
  refine ⟨l, hp.lead_eq (spot_lead hspot), fun logger P hl => ?_⟩
  have hholds := hl n hn
  cases n with
  | dir => cases hbytes
  | file id mode old =>
    rw [Node.contents?, Option.some.injEq] at hbytes
    rw [← hbytes]
    exact hholds.2
  | link | fifo => exact hholds.elim

namespace Session

/-- What a session may say of a case. If it says that the case passed, then the processes of each
candidate and of the reference left the same bytes; and two files that were compared were never one
and the same. -/
structure Faithful (r : Runner) (launch : Program.Launch) (c : Config) (reference : Tool)
    (result : CaseResult RunFault) (g : History World RunFault) : Prop where
  story : CaseStory c reference result g.events
  passed : result.passed = true → ∀ t ∈ c.candidates, ∀ w₁ run₁ w₂ run₂,
    (w₁, .assembled t result.case.path run₁) ∈ g →
    (w₂, .assembled reference result.case.path run₂) ∈ g →
    ∃ bytes, r.left launch t result.case.path w₁ = some bytes ∧
      r.left launch reference result.case.path w₂ = some bytes
  apart : ∀ w dir₁ dir₂ base ext equal, (w, .compared dir₁ dir₂ base ext equal) ∈ g →
    ∀ l₁ l₂, w.fs.spot true (Path.join [dir₁, base ++ ext]) = .ok (.node l₁) →
      w.fs.spot true (Path.join [dir₂, base ++ ext]) = .ok (.node l₂) → ¬ w.fs.Alias l₁ l₂

section Case

variable {launch : Program.Launch} {cancelled tty : Bool} {logger : Log.Logger} {c : Config}
  {fs₁ : FileSystem} {path : String}

theorem target_inj {r : Runner} {tools : List Tool}
    (hn : Path.IsName (Path.stem path ++ r.artifactExt))
    (hdirs : ∀ t ∈ tools, ∀ u ∈ tools, ∀ d, fs₁.lead true (Path.clean t.outputDir) = some d →
      fs₁.lead true (Path.clean u.outputDir) = some d → t = u)
    {t u : Tool} (ht : t ∈ tools) (hu : u ∈ tools) {l : Location}
    (hl : fs₁.lead false (r.targetPath t path) = some l)
    (hl' : fs₁.lead false (r.targetPath u path) = some l) : t = u := by
  rw [Runner.targetPath, lead_join _ hn] at hl hl'
  obtain ⟨d, hd, rfl⟩ := Option.map_eq_some_iff.mp hl
  obtain ⟨d', hd', he⟩ := Option.map_eq_some_iff.mp hl'
  rw [List.append_left_inj] at he
  subst d'
  exact hdirs t ht u hu d hd hd'

theorem lead_target {r : Runner} {fs : FileSystem} {t : Tool} {l : Location}
    (hn : Path.IsName (Path.stem path ++ r.artifactExt))
    (hl : fs.lead false (r.targetPath t path) = some l) :
    ∃ x, l = x ++ [Path.stem path ++ r.artifactExt] := by
  rw [Runner.targetPath] at hl
  exact lead_join_name hn hl

def RunsLeft (r : Runner) (launch : Program.Launch) (path : String) (fs₁ : FileSystem)
    (g : History World RunFault) (w : World) : Prop :=
  (∀ s t p run, (s, .assembled t p run) ∈ g → run.success = true) →
  ∀ s t p run, (s, .assembled t p run) ∈ g →
    Path.IsName (Path.stem path ++ r.artifactExt) ∧ ∃ bytes, r.left launch t path s = some bytes ∧
    ∀ l, fs₁.lead false (r.targetPath t path) = some l →
      w.fs.Only l (Node.Holds r.logger (· = bytes))

/-- What is read in place of an artifact when the tools have run is what the process of its tool
left. -/
theorem RunsLeft.left_of_read {r : Runner} {g : History World RunFault} {w s : World} {t : Tool}
    {p : String} {run : RunResult RunFault} {bytes : ByteArray} (h : RunsLeft r launch path fs₁ g w)
    (hquiet : Quiet r.logger r.artifactExt fs₁ w.fs) (hclear : r.Clear t path fs₁)
    (hok : ∀ s t p run, (s, .assembled t p run) ∈ g → run.success = true)
    (hmem : (s, .assembled t p run) ∈ g)
    (hread : w.fs.readFile (r.targetPath t path) = .ok bytes) :
    r.left launch t path s = some bytes := by
  obtain ⟨_, bytes', hbytes', honly⟩ := h hok s t p run hmem
  obtain ⟨l, hl, hholds⟩ := readFile_holds (hclear.quiet hquiet).unlinked_target hread
  rw [hquiet.lead] at hl
  have heq : bytes = bytes' := hholds _ _ (honly l hl)
  rw [hbytes', heq]

/-- Two artifacts of a case are one file only if one tool wrote both. -/
theorem eq_of_alias {r : Runner} {tools : List Tool} {fs : FileSystem}
    (hn : Path.IsName (Path.stem path ++ r.artifactExt))
    (hdirs : ∀ t ∈ tools, ∀ u ∈ tools, ∀ d, fs₁.lead true (Path.clean t.outputDir) = some d →
      fs₁.lead true (Path.clean u.outputDir) = some d → t = u)
    (hclear : ∀ t ∈ tools, r.Clear t path fs₁) (hquiet : Quiet r.logger r.artifactExt fs₁ fs)
    {t u : Tool} (ht : t ∈ tools) (hu : u ∈ tools) {l₁ l₂ : Location}
    (hl₁ : fs.spot true (r.targetPath t path) = .ok (.node l₁))
    (hl₂ : fs.spot true (r.targetPath u path) = .ok (.node l₂)) (halias : fs.Alias l₁ l₂) :
    t = u := by
  have hclear₁ := (hclear t ht).quiet hquiet
  have hlead₁ := hclear₁.unlinked_target.lead_eq (spot_lead hl₁)
  have hlead₂ := ((hclear u hu).quiet hquiet).unlinked_target.lead_eq (spot_lead hl₂)
  rw [hquiet.lead] at hlead₁ hlead₂
  have hsame : l₂ = l₁ := by
    obtain ⟨x, rfl⟩ := lead_target hn hlead₁
    exact halias.elim id (hclear₁.sole _ (endsIn_append x _ _) l₂)
  rw [hsame] at hlead₂
  exact target_inj hn hdirs ht hu hlead₁ hlead₂

theorem runsLeft_runHistory {parts : Parts World RunFault} {r : Runner} {tools : List Tool}
    (hparts : parts.assemble = r.assemble launch cancelled) (hd : r.canDismiss = false)
    (hpath : Path.IsFilePath path) (hne : r.artifactExt ≠ "") (hslash : '/' ∉ r.artifactExt.toList)
    (hlaunch : ∀ fs cmd, Program.WritesIn (fs.lead true cmd.dir) fs (launch fs cmd).fs)
    (hdirs : ∀ t ∈ tools, ∀ u ∈ tools, ∀ d, fs₁.lead true (Path.clean t.outputDir) = some d →
      fs₁.lead true (Path.clean u.outputDir) = some d → t = u)
    (hclear : ∀ t ∈ tools, r.Clear t path fs₁) (hnodup : tools.Nodup) {w : World}
    (hw : Quiet r.logger r.artifactExt fs₁ w.fs) :
    RunsLeft r launch path fs₁ (runHistory parts path tools w) (runTools parts path tools w).2 ∧
    Quiet r.logger r.artifactExt fs₁ (runTools parts path tools w).2.fs := by
  have hall := @runHistory_induct World RunFault parts path tools
    (fun done g w => (RunsLeft r launch path fs₁ g w ∧ Quiet r.logger r.artifactExt fs₁ w.fs) ∧
      ∀ s t p run, (s, .assembled t p run) ∈ g → t ∈ done)
    ?_ w ⟨⟨fun _ _ _ _ _ h => absurd h List.not_mem_nil, hw⟩,
      fun _ _ _ _ h => absurd h List.not_mem_nil⟩
  · exact hall.1
  rintro done t rest g w hsplit ⟨⟨hleft, hquiet⟩, hdone⟩
  have ht : t ∈ tools := by rw [← hsplit]; simp
  have hfresh : t ∉ done := by
    rw [← hsplit] at hnodup
    exact fun hmem => (List.disjoint_of_nodup_append hnodup) hmem (by simp)
  have hclear' := (hclear t ht).quiet hquiet
  have hrun : Quiet r.logger r.artifactExt w.fs (r.assemble launch cancelled t path w).2.fs :=
    Runner.assemble_quiet hpath hne hslash hd hlaunch hclear'
  rw [hparts]
  refine ⟨⟨fun hok s u p run hmem => ?_, hquiet.trans hrun⟩, fun s u p run hmem => ?_⟩
  · have hsuccess := hok w t path _ (List.mem_append_right g (List.mem_singleton_self _))
    obtain ⟨hn, bytes, b, hbytes, hb, honly, hframe⟩ := Runner.assemble_left hpath hne hslash hd
      hlaunch hclear' hsuccess
    rw [hquiet.lead] at hb
    rcases List.mem_append.mp hmem with hmem | hmem
    · -- An earlier artifact is elsewhere, under the same name.
      obtain ⟨_, bytes', hbytes', hold⟩ :=
        hleft (fun s u p run h => hok s u p run (List.mem_append_left _ h)) s u p run hmem
      have hu : u ∈ done := hdone s u p run hmem
      refine ⟨hn, bytes', hbytes', fun l hl => ?_⟩
      obtain ⟨x, rfl⟩ := lead_target hn hl
      refine hframe x _ (fun hxb => ?_) (hold _ hl)
      rw [← hxb] at hb
      have hut := target_inj hn hdirs (by rw [← hsplit]; simp [hu]) ht hl hb
      exact hfresh (hut ▸ hu)
    · rw [List.mem_singleton] at hmem
      cases hmem
      refine ⟨hn, bytes, hbytes, fun l hl => ?_⟩
      rw [hb, Option.some.injEq] at hl
      rw [← hl]
      exact honly
  · rcases List.mem_append.mp hmem with hmem | hmem
    · exact List.mem_append_left _ (hdone s u p run hmem)
    · rw [List.mem_singleton] at hmem
      cases hmem
      simp

theorem caseKeeps_faithful {parts : Parts World RunFault} {r : Runner} {reference : Tool}
    {cases : List TestCase} {test : TestCase} (hparts : parts.assemble = r.assemble launch cancelled)
    (hcompare : parts.compare = compareFiles) (hd : r.canDismiss = false)
    (hkeeps : Keeps parts c cases fun w => Quiet r.logger r.artifactExt fs₁ w.fs) (hc : c.Accepted)
    (hisref : reference.isReference = true) (hmem : reference ∈ c.tools)
    (href : c.reference? = some reference) (htest : test ∈ cases)
    (hpath : Path.IsFilePath test.path)
    (htarget : ∀ t, r.targetPath t test.path = Path.join [t.outputDir, test.base ++ c.artifactExt])
    (hne : r.artifactExt ≠ "") (hslash : '/' ∉ r.artifactExt.toList)
    (hlaunch : ∀ fs cmd, Program.WritesIn (fs.lead true cmd.dir) fs (launch fs cmd).fs)
    (hdirs : ∀ t ∈ c.tools, ∀ u ∈ c.tools, ∀ d, fs₁.lead true (Path.clean t.outputDir) = some d →
      fs₁.lead true (Path.clean u.outputDir) = some d → t = u)
    (hclear : ∀ t ∈ c.tools, r.Clear t test.path fs₁) :
    CaseKeeps parts c (fun w => Quiet r.logger r.artifactExt fs₁ w.fs) (Faithful r launch c reference) test := by
  intro w hw
  have hpure : ∀ dir₁ dir₂ base ext w, (parts.compare dir₁ dir₂ base ext w).2 = w := by
    rw [hcompare]
    exact fun _ _ _ _ _ => rfl
  obtain ⟨hleft, hquiet⟩ := runsLeft_runHistory hparts hd hpath hne hslash hlaunch hdirs hclear
    hc.nodup hw
  obtain ⟨hg, hcase, hstory⟩ := runCase_traced parts c href test w
  have hsuccess : (∀ run ∈ (runTools parts test.path c.tools w).1, run.success = true) →
      ∀ s u p run, (s, .assembled u p run) ∈ runHistory parts test.path c.tools w →
        run.success = true := by
    intro hall s u p run h
    obtain ⟨_, _, _, hrun, he⟩ := mem_runHistory h
    cases he
    exact hall run hrun
  refine ⟨_, hg, ⟨?_, fun hpassed t ht w₁ run₁ w₂ run₂ h₁ h₂ => ?_,
    fun w' dir₁ dir₂ base ext equal hmem' l₁ l₂ hl₁ hl₂ halias => ?_⟩, hcase,
    hkeeps.caseFinished _ _ (hkeeps.runCase htest hw)⟩
  · rw [History.events_append, History.events_singleton]
    exact hstory
  · -- All runs succeeded, and the bytes that were compared are those that were left.
    have hruns : ∀ s u p run, (s, .assembled u p run) ∈ caseHistory parts c reference test w ++
        [((runCase parts c test w).2, .caseFinished (runCase parts c test w).1)] →
        (s, .assembled u p run) ∈ runHistory parts test.path c.tools w := by
      intro s u p run h
      rcases List.mem_append.mp h with h | h
      · rcases mem_caseHistory hpure h with h | ⟨_, _, _, _, _, he⟩
        · exact h
        · cases he
      · cases List.mem_singleton.mp h
    obtain ⟨hall, hsame⟩ := (runCase_passed hpure href test w).mp hpassed
    rw [hcase] at h₁ h₂ ⊢
    rw [hcompare] at hsame
    obtain ⟨bytes, hread₂, hread₁⟩ := Artifact.same_eq_true_iff.mp (hsame t ht)
    rw [← htarget] at hread₁ hread₂
    have htools := (Config.mem_candidates.mp ht).1
    exact ⟨bytes,
      hleft.left_of_read hquiet (hclear t htools) (hsuccess hall) (hruns _ _ _ _ h₁) hread₁,
      hleft.left_of_read hquiet (hclear reference hmem) (hsuccess hall) (hruns _ _ _ _ h₂) hread₂⟩
  · rcases List.mem_append.mp hmem' with h | h
    · rcases mem_caseHistory hpure h with h | ⟨hall, rfl, t, ht, _, he⟩
      · obtain ⟨_, _, _, _, he⟩ := mem_runHistory h
        cases he
      · cases he
        obtain ⟨htools, hnot⟩ := Config.mem_candidates.mp ht
        rw [← htarget] at hl₁ hl₂
        obtain ⟨_, _, hrun⟩ := exists_mem_runHistory hmem w
        obtain ⟨hn, _⟩ := hleft (hsuccess hall) _ _ _ _ hrun
        have heq := eq_of_alias hn hdirs hclear hquiet hmem htools hl₁ hl₂ halias
        rw [heq, hnot] at hisref
        cases hisref
    · cases List.mem_singleton.mp h

end Case

theorem fault?_of_load {store : Settings.Store} {cwd exeDir : Except String String} {c : Config}
    (h : Settings.load store cwd exeDir = .ok c) : c.fault? = none := by
  rw [Settings.load] at h
  dsimp only at h
  split at h
  · cases h
  split at h
  · cases h
  split at h
  · cases h
  · rename_i hf
    cases h
    exact hf

def sampleStore (outputDir : String) (byproducts : List String) : Settings.Store where
  override :=
    [("tools", .list
        [.map [("name", .text "a"), ("path", .text "x/a"), ("role", .text "candidate"),
            ("output_dir", .text outputDir), ("byproducts", .list (byproducts.map .text))],
          .map [("name", .text "r"), ("path", .text "x/r"), ("role", .text "reference"),
            ("output_dir", .text "o/r"), ("byproducts", .list [])]]),
      ("timing", .map
        [("watcher_stop_timeout", .duration Timing.default.watcherStopTimeout),
          ("process_timeout", .duration Timing.default.processTimeout),
          ("dismiss_interval", .duration Timing.default.dismissInterval),
          ("dismiss_grace", .duration Timing.default.dismissGrace)]),
      ("root", .text "/"), ("corpus", .map [("extension", .text ".asm"), ("dir", .text "c")]),
      ("artifact", .map [("extension", .text ".hex")])]

theorem sampleStore_keys (outputDir : String) (byproducts : List String) :
    (sampleStore outputDir byproducts).keys = ["artifact.extension", "corpus.dir",
      "corpus.extension", "root", "timing.dismiss_grace", "timing.dismiss_interval",
      "timing.process_timeout", "timing.watcher_stop_timeout", "tools"] := by
  have hsorted : (sampleStore outputDir byproducts).keys = List.mergeSort ["artifact.extension",
      "corpus.dir", "corpus.extension", "root", "timing.dismiss_grace", "timing.dismiss_interval",
      "timing.process_timeout", "timing.watcher_stop_timeout", "tools"]
      fun a b => decide (a ≤ b) := rfl
  rw [hsorted]
  exact List.mergeSort_of_pairwise (by decide)

theorem sampleLaunch_writesIn (fs : FileSystem) (cmd : Program.Command) :
    Program.WritesIn (fs.lead true cmd.dir) fs (sampleLaunch fs cmd).fs := by
  rw [sampleLaunch]
  split
  · rename_i h
    refine ⟨rfl, Nat.le_succ_of_le (le_freshId fs), fun l => ?_, addFile_keepsNames _ _ _ _⟩
    rw [get?_addFile]
    by_cases hl : l = ["c", "p.hex"]
    · refine .inr ⟨["c"], "p.hex", fs.freshId, 0o644, "00".toUTF8, h.1, hl, fun n hn => ?_,
        if_pos hl, .inl (le_freshId fs)⟩
      rw [hl] at hn
      rw [hn] at h
      exact h.2
    · exact .inl (if_neg hl)
  · exact ⟨rfl, Nat.le_refl _, fun _ => .inl rfl, .refl fs⟩

/-- The tools leave different bytes under a name in the directory of the source. -/
def unlikeLaunch (name : String) : Program.Launch := fun fs cmd =>
  { fs := fs.addFile ["c", name] 0o644 (if cmd.exe = "/x/a" then "00" else "11").toUTF8
    ending := .clean }

def verdicts (launch : Program.Launch) (c : Config) (fs : FileSystem) :
    List Bool × List (Option ByteArray) :=
  let (outcome, _, h) := run (standard launch false false .discard c).traced c ({ fs }, [])
  (outcome.toOption.elim [] fun report => report.cases.map (·.passed),
    h.filterMap fun e =>
      match e.2 with
      | .assembled t path _ => some ((runnerOf .discard c).left launch t path e.1)
      | _ => none)

end Session

end Crosscheck
