import Crosscheck.Proofs.Session.History
import Crosscheck.Proofs.Session.Invariant

namespace Crosscheck.Session

open FileSystem

/-- No symbolic link has a name with the given end. -/
def NoLinkEndsIn (ext : String) (fs : FileSystem) : Prop :=
  ∀ l name target, fs.get? (l ++ [name]) = some (.link target) → ¬ ext.toList <:+ name.toList

/-- A file is there as it was, under one name, and where artifacts go there is no link that could
lead to it. -/
structure Spared (artifactExt : String) (loc : Location) (n : Node) (fs : FileSystem) : Prop where
  there : fs.get? loc = some n
  sole : Sole (· = loc) fs
  links : NoLinkEndsIn artifactExt fs

namespace Spared

variable {ext : String} {loc : Location} {n : Node} {fs fs' : FileSystem}

theorem touches (h : Spared ext loc n fs) (ht : Touches (· ≠ loc) fs fs') (hs : Sole (· = loc) fs') :
    Spared ext loc n fs' := by
  refine ⟨ht.get?_some (by simp) h.there, hs, fun l name target hl => ?_⟩
  exact h.links l name target (linkAt_eq_some.mp (ht.links _ _ (linkAt_eq_some.mpr hl)))

theorem logged (h : Spared ext loc n fs) {logger : Log.Logger}
    (hn : ∀ id mode bytes, n = .file id mode bytes → logger.file ≠ some id)
    (hl : Logged logger fs fs') : Spared ext loc n fs' := by
  refine ⟨?_, h.sole.keepsNames hl.keepsNames, fun l name target hg => ?_⟩
  · rw [hl.get?_eq, h.there]
    intro id mode bytes hg
    rw [h.there, Option.some.injEq] at hg
    exact hn id mode bytes hg
  · rw [← linkAt_eq_some, hl.linkAt, linkAt_eq_some] at hg
    exact h.links l name target hg

end Spared

theorem ne_source_of_ext {l x d : Location} {name n ext : String} (hname : Path.ext name = ext)
    (hn : Path.ext n ≠ ext) (hl : l = x ++ [n]) : l ≠ d ++ [name] := by
  rintro rfl
  have hlast := congrArg List.getLast? hl
  simp only [List.getLast?_concat, Option.some.injEq] at hlast
  rw [← hlast] at hn
  exact hn hname

section Run

variable {r : Runner} {launch : Program.Launch} {cancelled : Bool} {tool : Tool}
  {corpusDir input name : String} {d : Location} {n : Node} {fs fs' : FileSystem}
  (hinput : Path.IsName input) (hart : Path.IsName r.artifactExt)
  (hdot : startsWithDot r.artifactExt = true) (hartExt : Path.ext r.artifactExt ≠ Path.ext name)
  (hbyproducts : ∀ e ∈ tool.byproducts,
    startsWithDot e = true ∧ '/' ∉ e.toList ∧ Path.ext e ≠ Path.ext name)

theorem mem_of_startsWithDot {e : String} (h : startsWithDot e = true) : '.' ∈ e.toList := by
  rw [startsWithDot, decide_eq_true_eq] at h
  exact List.mem_of_mem_head? h

include hinput hart hdot hartExt

/-- An artifact is neither a link nor the source, whatever directory it is looked for in. -/
theorem artifact_elsewhere (h : Spared r.artifactExt (d ++ [name]) n fs) (dir : String) :
    Unlinked fs (Path.join [dir, Path.stem (Path.join [corpusDir, input]) ++ r.artifactExt]) ∧
    ∀ l, fs.lead false
      (Path.join [dir, Path.stem (Path.join [corpusDir, input]) ++ r.artifactExt]) = some l →
      l ≠ d ++ [name] := by
  have hslash := Path.slash_not_mem_stem corpusDir hinput
  have hname := hart.append hslash
  refine ⟨fun l hl => ?_, fun l hl => ?_⟩
  · obtain ⟨x, rfl⟩ := lead_join_name hname hl
    rw [linkAt_eq_none]
    intro target hg
    refine h.links x _ target hg ?_
    rw [String.toList_append]
    exact List.suffix_append _ _
  · obtain ⟨x, hx⟩ := lead_join_name hname hl
    refine ne_source_of_ext rfl ?_ hx
    rw [Path.ext_append hname.no_slash (mem_of_startsWithDot hdot)]
    exact hartExt

omit hartExt hdot in
/-- A by-product is not the source. A name of dots leads to a directory on the way to the artifact
that was found. -/
theorem byproduct_elsewhere (hn : n.isRegular = true) (h : Spared r.artifactExt (d ++ [name]) n fs)
    {loc : Location} (hloc : ∀ s ∈ loc, Path.IsName s) {m : Node}
    (hm : fs.stat (Path.join [Path.toLocation loc,
      Path.stem (Path.join [corpusDir, input]) ++ r.artifactExt]) = .ok m)
    {e : String} (he : startsWithDot e = true) (hslash : '/' ∉ e.toList)
    (hext : Path.ext e ≠ Path.ext name) {l : Location}
    (hl : fs.lead false (Path.join [Path.toLocation loc,
      Path.stem (Path.join [corpusDir, input]) ++ e]) = some l) :
    l ≠ d ++ [name] := by
  have hstem := Path.slash_not_mem_stem corpusDir hinput
  have hname := hart.append hstem
  generalize Path.stem (Path.join [corpusDir, input]) = base at *
  have hno : '/' ∉ (base ++ e).toList := by
    rw [String.toList_append, List.mem_append]
    exact not_or.mpr ⟨hstem, hslash⟩
  rw [Path.join_toLocation hloc hname] at hm
  obtain ⟨_, hspot, _⟩ := stat_eq_ok hm
  have hnames : ∀ s ∈ loc ++ [base ++ r.artifactExt], Path.IsName s :=
    List.forall_mem_append.mpr ⟨hloc, List.forall_mem_singleton.mpr hname⟩
  have hdir : ∀ as, as <+: loc → fs.lead false (Path.toLocation as) = some l → l ≠ d ++ [name] := by
    rintro as has hlead rfl
    obtain ⟨x, hreach, _⟩ := reaches_of_spot hnames has hspot
    have hlink : fs.linkAt (d ++ [name]) = none := by
      rw [linkAt_eq_none, h.there]
      rintro target hlink
      cases hlink
      cases hn
    have hthrough : fs.lead true (Path.toLocation as) = some (d ++ [name]) :=
      leadWith_through _ _ hlead hlink
    rw [hreach.lead, Option.some.injEq] at hthrough
    obtain ⟨mode, hmode, _⟩ := enter_eq_ok.mp hreach.2
    rw [hthrough, h.there] at hmode
    cases hmode
    cases hn
  by_cases hdots : base ++ e = "."
  · rw [hdots, Path.join_toLocation_dot hloc] at hl
    exact hdir loc (List.prefix_refl _) hl
  by_cases hdotdot : base ++ e = ".."
  · rw [hdotdot, Path.join_toLocation_dotdot hloc] at hl
    exact hdir loc.dropLast (List.dropLast_prefix _) hl
  have hbe : base ++ e ≠ "" := by
    intro hempty
    have hmem := mem_of_startsWithDot he
    have hnil : (base ++ e).toList = [] := by rw [hempty]; rfl
    rw [String.toList_append, List.append_eq_nil_iff] at hnil
    rw [hnil.2] at hmem
    cases hmem
  obtain ⟨x, hx⟩ := lead_join_name ⟨hbe, hdots, hdotdot, hno⟩ hl
  refine ne_source_of_ext rfl ?_ hx
  rw [Path.ext_append hno (mem_of_startsWithDot he)]
  exact hext

include hbyproducts

theorem assemble_spares (hn : n.isRegular = true) (hd : r.canDismiss = false)
    (hlog : ∀ id mode bytes, n = .file id mode bytes → r.logger.file ≠ some id)
    (hlaunch : ∀ fs cmd, Spared r.artifactExt (d ++ [name]) n fs →
      Spared r.artifactExt (d ++ [name]) n (launch fs cmd).fs)
    {w : World} (h : Spared r.artifactExt (d ++ [name]) n w.fs) :
    Spared r.artifactExt (d ++ [name]) n
      (r.assemble launch cancelled tool (Path.join [corpusDir, input]) w).2.fs := by
  obtain ⟨fs', hcourse, hlogged⟩ := @Runner.assemble_course r launch cancelled tool
    (Path.join [corpusDir, input]) hd w
  have hprepared : ∀ {fs}, r.Prepared tool (Path.join [corpusDir, input]) w fs →
      Spared r.artifactExt (d ++ [name]) n fs := by
    intro fs hp
    obtain ⟨fs₁, hstale, hstart⟩ := hp.stale
    have htouches := Runner.removeStale_touches hstale
      (artifact_elsewhere hinput hart hdot hartExt h _).2
    have hsole := h.sole.keepsNames (Runner.removeStale_within hstale).keepsNames
    exact (h.touches htouches hsole).logged hlog hstart
  refine Spared.logged ?_ hlog hlogged
  generalize (r.assemble launch cancelled tool (Path.join [corpusDir, input]) w).1.success = ok
    at hcourse
  cases hcourse with
  | missing | stuck => exact h
  | held hp => exact hprepared hp
  | broken hp => exact hlaunch _ _ (hprepared hp)
  | ended hp _ hgot =>
    have hs := hlaunch _ (r.commandFor tool (Path.join [corpusDir, input]) w.fs) (hprepared hp)
    obtain ⟨loc, hloc, hsource⟩ := @Path.abs_join_name (Runner.workingDir w.fs)
      (Path.isAbs_slash_append _) corpusDir input hinput
    have hcollects := Artifact.Collects.of_eq hgot
    have hdir : Path.dir (Runner.sourcePath w.fs (Path.join [corpusDir, input])) =
        Path.toLocation loc := by
      rw [Runner.sourcePath, hsource, Path.dir_toLocation hloc hinput]
    rw [hdir] at hcollects
    obtain ⟨hus, hes⟩ := artifact_elsewhere hinput hart hdot hartExt hs (Path.toLocation loc)
    obtain ⟨hut, het⟩ := artifact_elsewhere hinput hart hdot hartExt hs tool.outputDir
    refine hs.touches (hcollects.touches fun m hm => ⟨hus, hut, hes, fun b hb l hl => ?_,
      fun e he _ l hl => ?_⟩) (hcollects.sole hs.sole fun a b _ hb hloc => absurd hloc (het b hb))
    · -- the artifact is another file than the source, which has no second name
      rintro rfl
      rcases hl with hl | hl
      · exact het b hb hl.symm
      · rw [sameFile_comm] at hl
        exact het b hb (hs.sole _ rfl b hl)
    · obtain ⟨hedot, hslash, hext⟩ := hbyproducts e he
      exact byproduct_elsewhere hinput hart hn hs hloc hm hedot hslash hext hl

end Run

/-- A session leaves a source as it was, whether it comes to an end or not. None of its output
directories may lead to the source or to a directory above it, no extension it works with may make
a source of a name, nor may its log, the source must have no other name, and its artifacts must not
be copied through a link. -/
theorem run_keeps_source {c : Config} (hc : c.fault? = none) (launch : Program.Launch)
    (cancelled tty : Bool) (logger : Log.Logger) (w : World) (hw : w.fs.Named)
    {d : Location} {name : String} {id mode : Nat} {bytes : ByteArray}
    (hsource : w.fs.get? (d ++ [name]) = some (.file id mode bytes))
    (hname : Path.ext name = c.corpusExt)
    (hlaunch : ∀ fs cmd, fs.get? (d ++ [name]) = some (.file id mode bytes) →
      (launch fs cmd).fs.get? (d ++ [name]) = some (.file id mode bytes))
    (hsole : Sole (· = d ++ [name]) w.fs ∧ ∀ fs cmd, Sole (· = d ++ [name]) fs →
      Sole (· = d ++ [name]) (launch fs cmd).fs)
    (hdirs : ∀ t ∈ c.tools, ∀ x, w.fs.lead false t.outputDir = some x → ¬ x <+: d ++ [name])
    (hart : Path.IsName c.artifactExt ∧ Path.ext c.artifactExt ≠ c.corpusExt)
    (hbyproducts : ∀ t ∈ c.tools, ∀ e ∈ t.byproducts,
      '/' ∉ e.toList ∧ Path.ext e ≠ c.corpusExt)
    (hlinks : NoLinkEndsIn c.artifactExt w.fs ∧ ∀ fs cmd, NoLinkEndsIn c.artifactExt fs →
      NoLinkEndsIn c.artifactExt (launch fs cmd).fs)
    (hlog : logger.file ≠ some id) :
    (run (standard launch cancelled tty logger c) c w).2.fs.get? (d ++ [name]) =
      some (.file id mode bytes) := by
  have hok := Config.accepted_of_fault?_eq_none hc
  obtain ⟨hwithin, hnamed, hget⟩ := reset_within (.refl w.fs) hw c.tools
  have hlog' : ∀ i m b, Node.file id mode bytes = .file i m b → logger.file ≠ some i := by
    rintro i m b h
    cases h
    exact hlog
  have hspared : Spared c.artifactExt (d ++ [name]) (.file id mode bytes)
      (reset w.fs c.tools).1 := by
    refine ⟨(hget _ hdirs).trans hsource, hsole.1.keepsNames hwithin.keepsNames,
      fun l s target hl => ?_⟩
    exact hlinks.1 l s target (hwithin.get? _ _ hl)
  rw [run]
  split
  rename_i fs₁ fault hfs
  have hfs₁ : (reset w.fs c.tools).1 = fs₁ := congrArg Prod.fst hfs
  rw [hfs₁] at hspared hnamed
  dsimp only
  split
  · exact hspared.there
  split
  · exact hspared.there
  rename_i cases hcases
  have hkeeps : Keeps (standard launch cancelled tty logger c) c cases
      fun w => Spared c.artifactExt (d ++ [name]) (.file id mode bytes) w.fs := by
    refine standard_keeps (fun _ _ hl h => h.logged hlog' hl) fun t ht test htest w hw' => ?_
    obtain ⟨loc, input, _, rfl, hsome, _⟩ := Corpus.mem_discover hcases htest
    obtain ⟨m, hm⟩ := Option.isSome_iff_exists.mp hsome
    have hinput : Path.IsName input := hnamed _ m hm input (by simp)
    refine assemble_spares (r := runnerOf logger c) hinput hart.1 hok.artifactExt ?_ ?_ rfl rfl
      hlog' ?_ hw'
    · rw [hname]
      exact hart.2
    · intro e he
      rw [hname]
      exact ⟨(hok.tools t ht).byproducts e he, hbyproducts t ht e he⟩
    · exact fun fs cmd h =>
        ⟨hlaunch fs cmd h.there, hsole.2 fs cmd h.sole, hlinks.2 fs cmd h.links⟩
  exact (hkeeps.runOver hspared).there

theorem sampleFiles_named : sampleFiles.Named := .of_nodes (by decide)

theorem sampleFiles_linkAt (l : Location) : sampleFiles.linkAt l = none := by
  rw [linkAt_eq_none]
  intro target hl
  have hall : ∀ e ∈ sampleFiles.nodes, sampleFiles.linkAt e.1 = none := by decide
  obtain ⟨e, he, rfl⟩ := List.mem_map.mp ((get?_isSome_iff _ l).mp (by rw [hl]; rfl))
  exact linkAt_eq_none.mp (hall e he) target hl

theorem sampleLaunch_get? {fs : FileSystem} {cmd : Program.Command} {l : Location}
    (hl : l ≠ ["c", "p.hex"]) : (sampleLaunch fs cmd).fs.get? l = fs.get? l := by
  rw [sampleLaunch]
  split
  · rw [get?_addFile, if_neg hl]
  · rfl

theorem sampleLaunch_keepsNames (fs : FileSystem) (cmd : Program.Command) :
    KeepsNames fs (sampleLaunch fs cmd).fs := by
  rw [sampleLaunch]
  split
  · exact addFile_keepsNames _ _ _ _
  · exact .refl fs

theorem sampleFiles_sole {S : Location → Prop} : Sole S sampleFiles := .of_nodes (by decide)

theorem run_keeps_source_sample :
    sampleFiles.get? ["c", "p.asm"] = some (.file 0 0o644 "nop".toUTF8) ∧
    (run (standard sampleLaunch false false .discard (sampleConfig "/o/a" ".hex" [".lst"]))
      (sampleConfig "/o/a" ".hex" [".lst"]) { fs := sampleFiles }).2.fs.get? ["c", "p.asm"] =
      some (.file 0 0o644 "nop".toUTF8) := by
  have hsource : sampleFiles.get? ["c", "p.asm"] = some (.file 0 0o644 "nop".toUTF8) := rfl
  have hdirs : ∀ t ∈ (sampleConfig "/o/a" ".hex" [".lst"]).tools, ∀ x,
      sampleFiles.lead false t.outputDir = some x → ¬ x <+: ["c"] ++ ["p.asm"] := by
    have ha : sampleFiles.lead false "/o/a" = some ["o", "a"] := by decide
    have hr : sampleFiles.lead false "/o/r" = some ["o", "r"] := by decide
    intro t ht x hx
    simp only [sampleConfig, List.mem_cons, List.not_mem_nil, or_false] at ht
    rcases ht with rfl | rfl
    · rw [ha, Option.some.injEq] at hx
      subst x
      decide
    · rw [hr, Option.some.injEq] at hx
      subst x
      decide
  have hlinks : NoLinkEndsIn ".hex" sampleFiles := by
    intro l name target hl
    exact absurd hl (linkAt_eq_none.mp (sampleFiles_linkAt _) target)
  have hlinks' : ∀ fs cmd, NoLinkEndsIn ".hex" fs → NoLinkEndsIn ".hex" (sampleLaunch fs cmd).fs := by
    intro fs cmd h l name target hl
    by_cases hp : l ++ [name] = ["c", "p.hex"]
    · rw [hp, sampleLaunch] at hl
      split at hl
      · rw [get?_addFile, if_pos rfl] at hl
        cases hl
      · exact h l name target (by rw [hp]; exact hl)
    · rw [sampleLaunch_get? hp] at hl
      exact h l name target hl
  refine ⟨hsource, run_keeps_source (by decide) sampleLaunch false false .discard
    { fs := sampleFiles } sampleFiles_named hsource (by decide) ?_
    ⟨sampleFiles_sole, fun fs cmd h => h.keepsNames (sampleLaunch_keepsNames fs cmd)⟩ hdirs
    ⟨by decide, by decide⟩ (by decide) ⟨hlinks, hlinks'⟩ (by decide)⟩
  intro fs cmd h
  rw [sampleLaunch_get? (by decide), h]

def sourceAfter (c : Config) (logger : Log.Logger) (fs : FileSystem) : Option ByteArray :=
  ((run (standard sampleLaunch false false logger c) c { fs }).2.fs.get? ["c", "p.asm"]).bind
    Node.contents?

/-- The artifact of the candidate has the name of a link to the source, on another device. -/
def linkedFiles : FileSystem :=
  { sampleFiles with
    nodes := sampleFiles.nodes ++
      [(["o", "a"], .dir 0o755), (["o", "a", "p.hex"], .link "/c/p.asm")]
    mounts := [["o"]] }

/-- The artifact of the candidate has the name of the source itself, in a directory that nothing can
be moved to. -/
def sharedFiles : FileSystem :=
  { sampleFiles with
    nodes := sampleFiles.nodes ++
      [(["o", "a"], .dir 0o555), (["o", "a", "p.hex"], .file 0 0o644 "nop".toUTF8)] }

/-- A source is lost if the corpus is an output directory, if its extension is that of the artifact
or of a by-product, if a by-product is a path to it, if it is logged to, and if an artifact is
copied through a link to it or over another name of it. -/
theorem run_loses_source :
    ((sampleConfig "/c" ".hex" []).fault? = none ∧
      sourceAfter (sampleConfig "/c" ".hex" []) .discard sampleFiles = none) ∧
    ((sampleConfig "/o/a" ".asm" []).fault? = none ∧
      sourceAfter (sampleConfig "/o/a" ".asm" []) .discard sampleFiles = none) ∧
    ((sampleConfig "/o/a" ".hex" [".asm"]).fault? = none ∧
      sourceAfter (sampleConfig "/o/a" ".hex" [".asm"]) .discard sampleFiles = none) ∧
    ((sampleConfig "/o/a" ".hex" ["./../p.asm/"]).fault? = none ∧
      sourceAfter (sampleConfig "/o/a" ".hex" ["./../p.asm/"]) .discard sampleFiles = none) ∧
    sourceAfter (sampleConfig "/o/a" ".hex" []) { threshold := .warn, file := some 0 }
      sampleFiles ≠ some "nop".toUTF8 ∧
    (sampleConfig "/o/m/../a" ".hex" []).fault? = none ∧
      sourceAfter (sampleConfig "/o/m/../a" ".hex" []) .discard linkedFiles = some "00".toUTF8 ∧
      sourceAfter (sampleConfig "/o/m/../a" ".hex" []) .discard sharedFiles = some "00".toUTF8 := by
  decide +kernel

end Crosscheck.Session
