import Mathlib
import Crosscheck.Proofs.Session.Outcome
import Crosscheck.Proofs.Session.Aliasing

namespace Crosscheck.Session

open FileSystem

/-- What has come of running tools on a source: each has run as its outcome for the bytes that it
saw, the artifacts of those that came to one are delivered, and other artifacts are as they were. -/
structure Settled (c : Config) (logger : Log.Logger)
    (outcome : Tool → String → ByteArray → Program.Outcome) (fs₁ : FileSystem) (name : String)
    (tools : List Tool) (seen : Tool → ByteArray) (successes : List Bool) (fs fs' : FileSystem) :
    Prop where
  sources : ∀ t ∈ tools, Seen logger fs₁ (c.corpusLoc ++ [name]) (seen t)
  successes : successes = tools.map fun t => (outcome t name (seen t)).succeeds
  ready : Ready c logger fs₁ fs'
  made : ∀ u ∈ c.tools, (fs.get? u.outputLoc).isSome = true → (fs'.get? u.outputLoc).isSome = true
  kept : ∀ u ∈ c.tools, ∀ n, (u ∈ tools → n ≠ artifactName c name) →
    fs'.get? (u.outputLoc ++ [n]) = fs.get? (u.outputLoc ++ [n])
  delivered : ∀ t ∈ tools, ∀ b, (outcome t name (seen t)).clean = true →
    (outcome t name (seen t)).artifact = some b → Delivered t (artifactName c name) b fs'

section Case

variable {c : Config} {logger : Log.Logger} {launch : Program.Launch}
  {outcome : Tool → String → ByteArray → Program.Outcome} {fs₁ : FileSystem} {name : String}
  {parts : Parts World RunFault} (hs : Staged c logger launch outcome fs₁)
  (hsource : IsSource c fs₁ name)
  (hparts : parts.assemble = (runnerOf logger c).assemble launch false)

include hs hsource hparts

theorem runTools_settled {tools : List Tool} (hsub : ∀ t ∈ tools, t ∈ c.tools)
    (hnodup : tools.Nodup) {w : World} (hr : Ready c logger fs₁ w.fs)
    (hplace : ∀ t ∈ tools, w.fs.get? (t.outputLoc ++ [artifactName c name]) = none) :
    ∃ seen, Settled c logger outcome fs₁ name tools seen
      ((runTools parts (Path.toLocation (c.corpusLoc ++ [name])) tools w).1.map (·.success)) w.fs
      (runTools parts (Path.toLocation (c.corpusLoc ++ [name])) tools w).2.fs := by
  induction tools generalizing w with
  | nil =>
    exact ⟨fun _ => ByteArray.empty, by simp, rfl, hr, fun _ _ h => h, fun _ _ _ _ => rfl, by simp⟩
  | cons t rest ih =>
    have ht := hsub t List.mem_cons_self
    obtain ⟨hfresh, hnodup⟩ := List.nodup_cons.mp hnodup
    obtain ⟨bytes, hseen, hok, hcarries, hdelivered⟩ :=
      @assemble_outcome c logger launch outcome fs₁ t name hs hsource ht w hr
        (hplace t List.mem_cons_self)
    rw [runTools, hparts]
    generalize (runnerOf logger c).assemble launch false t
      (Path.toLocation (c.corpusLoc ++ [name])) w = result at hok hcarries hdelivered ⊢
    have hne : ∀ u ∈ rest, u ≠ t := fun u hu he => hfresh (he ▸ hu)
    obtain ⟨seen, hrest⟩ := ih (fun u hu => hsub u (List.mem_cons_of_mem _ hu)) hnodup hcarries.ready
      fun u hu => by
        rw [hcarries.kept u (hsub u (List.mem_cons_of_mem _ hu)) _ fun he => hne u hu (by cases he; rfl)]
        exact hplace u (List.mem_cons_of_mem _ hu)
    -- the first tool is not among the others, so what they saw can be told apart
    have hother : ∀ u ∈ rest, Function.update seen t bytes u = seen u := fun u hu =>
      Function.update_of_ne (hne u hu) ..
    have hfirst : Function.update seen t bytes t = bytes := Function.update_self ..
    refine ⟨Function.update seen t bytes, fun u hu => ?_, ?_, hrest.ready,
      fun u hu hd => hrest.made u hu (hcarries.made u hu hd), fun u hu n hn => ?_,
      fun u hu b hclean hb => ?_⟩
    · rcases List.mem_cons.mp hu with rfl | hu
      · rw [hfirst]
        exact hseen
      · rw [hother u hu]
        exact hrest.sources u hu
    · rw [List.map_cons, List.map_cons, hfirst, ← hok, hrest.successes]
      exact congrArg _ (List.map_congr_left fun u hu => by rw [hother u hu])
    · rw [hrest.kept u hu n fun h => hn (List.mem_cons_of_mem _ h), hcarries.kept u hu n fun he => ?_]
      cases he
      exact hn List.mem_cons_self rfl
    · rcases List.mem_cons.mp hu with rfl | hu
      · rw [hfirst] at hclean hb
        exact (hdelivered b hclean hb).kept (hrest.made u ht)
          (hrest.kept u ht _ fun h => absurd h hfresh)
      · rw [hother u hu] at hclean hb
        exact hrest.delivered u hu b hclean hb

end Case

/-- All is ready, and no artifacts are there but those of the given names. -/
structure Vacant (c : Config) (logger : Log.Logger) (fs₁ : FileSystem) (names : List String)
    (fs : FileSystem) : Prop where
  ready : Ready c logger fs₁ fs
  vacant : ∀ t ∈ c.tools, ∀ n ∉ names, fs.get? (t.outputLoc ++ [n]) = none

theorem Vacant.logged {c : Config} {logger : Log.Logger} {fs₁ fs fs' : FileSystem}
    {names : List String} (h : Vacant c logger fs₁ names fs) (ha : c.Apart)
    (hlog : Logged logger fs fs') : Vacant c logger fs₁ names fs' := by
  have hcarries := (Step.of_logged hlog).carries ha h.ready
  exact ⟨hcarries.ready, fun t ht n hn => (hcarries.kept t ht n nofun).trans (h.vacant t ht n hn)⟩

/-- What a case comes to, given what the processes of the tools make of its source. -/
structure Verdict (c : Config) (reference : Tool) (o : Tool → Program.Outcome)
    (r : CaseResult RunFault) : Prop where
  runs : r.runs.map (·.success) = c.tools.map fun t => (o t).succeeds
  compared : r.compared = true ↔ ∀ t ∈ c.tools, (o t).succeeds = true
  mismatches : r.mismatches = if r.compared then
    (c.candidates.filter fun t => (o t).artifact ≠ (o reference).artifact).map (·.name) else []
  passed : r.passed = true ↔
    ∃ artifact, ∀ t ∈ c.tools, (o t).clean = true ∧ (o t).artifact = some artifact

section Case

variable {c : Config} {logger : Log.Logger} {launch : Program.Launch}
  {outcome : Tool → String → ByteArray → Program.Outcome} {fs₁ fs : FileSystem} {name : String}
  (hs : Staged c logger launch outcome fs₁) (hr : Ready c logger fs₁ fs)

include hs hr

theorem Delivered.readFile {t : Tool} {n : String} {bytes : ByteArray}
    (hd : Delivered t n bytes fs) (ht : t ∈ c.tools) (hn : Nameable (t.outputLoc ++ [n])) :
    fs.readFile (Path.join [t.outputDir, n]) = .ok bytes := by
  obtain ⟨hdir, id, mode, hfile⟩ := hd
  obtain ⟨_, _, _, _, _, hread⟩ := hr.stored t ht n _ hfile
  rw [(hs.apart.out t ht).eq_toLocation, ← Tool.outputLoc,
    Path.join_toLocation hn.init.isName hn.last.1]
  exact ((hr.roads t ht).passable hdir).1.readFile hn hfile hread

theorem same_delivered (hsource : IsSource c fs₁ name) {t u : Tool} (ht : t ∈ c.tools)
    (hu : u ∈ c.tools) {a b : ByteArray} (hda : Delivered t (artifactName c name) a fs)
    (hdb : Delivered u (artifactName c name) b fs) :
    Artifact.same fs t.outputDir u.outputDir (Path.trimEnd name c.corpusExt) c.artifactExt = true ↔
      a = b := by
  rw [Artifact.same_eq_true_iff, ← artifactName, hda.readFile hs hr ht (hs.formed name hsource t ht).place,
    hdb.readFile hs hr hu (hs.formed name hsource u hu).place]
  simp [eq_comm]

end Case

section Case

variable {c : Config} {logger : Log.Logger} {launch : Program.Launch}
  {outcome : Tool → String → ByteArray → Program.Outcome} {fs₁ : FileSystem} {name : String}
  {parts : Parts World RunFault} (hs : Staged c logger launch outcome fs₁)
  (hsource : IsSource c fs₁ name)

include hs hsource

theorem caseOf_path :
    (Corpus.caseOf c.corpusDir c.corpusExt name).path = Path.toLocation (c.corpusLoc ++ [name]) := by
  rw [Corpus.caseOf, hs.apart.corpus.eq_toLocation, ← Config.corpusLoc,
    Path.join_toLocation hsource.nameable.init.isName hsource.nameable.last.1]

/-- Once every tool has come to an artifact, the candidates that differ from the reference are those
whose artifact does. -/
theorem Settled.filter_same {seen : Tool → ByteArray} {successes : List Bool} {fs fs' : FileSystem}
    (h : Settled c logger outcome fs₁ name c.tools seen successes fs fs')
    (hall : ∀ t ∈ c.tools, (outcome t name (seen t)).succeeds = true) {reference : Tool}
    (hmem : reference ∈ c.tools) :
    (c.candidates.filter fun t => !Artifact.same fs' reference.outputDir t.outputDir
      (Path.trimEnd name c.corpusExt) c.artifactExt) =
      c.candidates.filter fun t =>
        (outcome t name (seen t)).artifact ≠ (outcome reference name (seen reference)).artifact := by
  refine List.filter_congr fun t ht => ?_
  have htools := (Config.mem_candidates.mp ht).1
  obtain ⟨hclean, a, ha⟩ := Program.Outcome.succeeds_iff.mp (hall t htools)
  obtain ⟨hclean', b, hb⟩ := Program.Outcome.succeeds_iff.mp (hall reference hmem)
  have hsame := same_delivered hs h.ready hsource hmem htools
    (h.delivered reference hmem b hclean' hb) (h.delivered t htools a hclean ha)
  rw [Bool.eq_iff_iff, Bool.not_eq_true', decide_eq_true_iff, ← Bool.not_eq_true, hsame, ha, hb,
    ne_eq, Option.some.injEq, eq_comm]

/-- A case that is run on a source comes to the verdict that the outcomes call for. -/
theorem runCase_verdict (hparts : parts.assemble = (runnerOf logger c).assemble launch false)
    (hcompare : parts.compare = compareFiles) {reference : Tool} (hmem : reference ∈ c.tools)
    (hisref : reference.isReference = true) (href : c.reference? = some reference) {w : World}
    (hr : Ready c logger fs₁ w.fs)
    (hplace : ∀ t ∈ c.tools, w.fs.get? (t.outputLoc ++ [artifactName c name]) = none) :
    ∃ seen : Tool → ByteArray, (∀ t ∈ c.tools, Seen logger fs₁ (c.corpusLoc ++ [name]) (seen t)) ∧
      Verdict c reference (fun t => outcome t name (seen t))
        (runCase parts c (Corpus.caseOf c.corpusDir c.corpusExt name) w).1 := by
  have hpure : ∀ dir₁ dir₂ base ext w, (parts.compare dir₁ dir₂ base ext w).2 = w := by
    rw [hcompare]
    exact fun _ _ _ _ _ => rfl
  obtain ⟨seen, hsettled⟩ := runTools_settled hs hsource hparts (fun t ht => ht) hs.accepted.nodup hr hplace
  rw [← caseOf_path hs hsource] at hsettled
  refine ⟨seen, hsettled.sources, ?_⟩
  have hbase : (Corpus.caseOf c.corpusDir c.corpusExt name).base =
      Path.trimEnd name c.corpusExt := rfl
  generalize Corpus.caseOf c.corpusDir c.corpusExt name = test at hsettled hbase ⊢
  have hsuccess : (∀ run ∈ (runTools parts test.path c.tools w).1, run.success = true) ↔
      ∀ t ∈ c.tools, (outcome t name (seen t)).succeeds = true := by
    rw [← List.forall_mem_map (P := (· = true)), hsettled.successes, List.forall_mem_map]
  by_cases hall : ∀ run ∈ (runTools parts test.path c.tools w).1, run.success = true
  · have hartifacts := hsuccess.mp hall
    rw [(runCase_of_succeeded parts c href test w hall (compareAll_eq_filter hpure _ _ _ _ _)).1,
      hcompare, hbase]
    simp only [compareFiles]
    rw [hsettled.filter_same hs hsource hartifacts hmem]
    refine ⟨hsettled.successes, by simpa using hartifacts, rfl, ?_⟩
    rw [List.isEmpty_iff, List.map_eq_nil_iff, List.filter_eq_nil_iff]
    constructor
    · intro hsame
      obtain ⟨hclean, b, hb⟩ := Program.Outcome.succeeds_iff.mp (hartifacts reference hmem)
      refine ⟨b, (hs.accepted.forall_mem_tools hmem hisref).mpr ⟨⟨hclean, hb⟩, fun t ht => ?_⟩⟩
      have htools := (Config.mem_candidates.mp ht).1
      refine ⟨(Program.Outcome.succeeds_iff.mp (hartifacts t htools)).1, ?_⟩
      have heq := hsame t ht
      rw [decide_eq_true_iff, not_not] at heq
      rw [heq, hb]
    · rintro ⟨artifact, hsame⟩ t ht
      rw [decide_eq_true_iff, not_not, (hsame t (Config.mem_candidates.mp ht).1).2,
        (hsame reference hmem).2]
  · rw [(runCase_of_failed parts c test w hall).1]
    refine ⟨hsettled.successes, ⟨fun h => (Bool.false_ne_true h).elim,
      fun h => absurd (hsuccess.mpr h) hall⟩, rfl, ⟨fun h => (Bool.false_ne_true h).elim, ?_⟩⟩
    rintro ⟨artifact, hsame⟩
    refine absurd (hsuccess.mpr fun t ht => ?_) hall
    exact Program.Outcome.succeeds_iff.mpr ⟨(hsame t ht).1, artifact, (hsame t ht).2⟩

theorem runCase_vacant (hparts : parts.assemble = (runnerOf logger c).assemble launch false)
    (hcompare : parts.compare = compareFiles)
    (hnote : ∀ record w, parts.note record w = logger.log w record) {names : List String}
    (hfresh : artifactName c name ∉ names) {w : World} (h : Vacant c logger fs₁ names w.fs) :
    Vacant c logger fs₁ (names ++ [artifactName c name])
      (runCase parts c (Corpus.caseOf c.corpusDir c.corpusExt name) w).2.fs := by
  obtain ⟨_, hsettled⟩ := runTools_settled hs hsource hparts (fun t ht => ht) hs.accepted.nodup
    h.ready fun t ht => h.vacant t ht _ hfresh
  rw [← caseOf_path hs hsource] at hsettled
  refine runCase_keeps (P := fun w : World => Vacant c logger fs₁ (names ++ [artifactName c name]) w.fs)
    (fun _ _ _ _ w hw => ?_) (fun record w hw => ?_) ⟨hsettled.ready, fun t ht n hn => ?_⟩
  · rw [hcompare]
    exact hw
  · rw [hnote]
    exact hw.logged hs.apart (log_logged logger w record)
  · rw [List.mem_append, List.mem_singleton, not_or] at hn
    rw [hsettled.kept t ht n fun _ => hn.2]
    exact h.vacant t ht n hn.1

end Case

theorem exists_isSource {c : Config} {fs fs₁ : FileSystem} {cases : List TestCase} {test : TestCase}
    (ha : c.Apart) (hfit : c.Fits fs) (hw : Within fs₁ fs)
    (hcases : Corpus.discover fs₁ c.corpusDir c.corpusExt = .ok cases) (htest : test ∈ cases) :
    ∃ name, test = Corpus.caseOf c.corpusDir c.corpusExt name ∧ IsSource c fs₁ name := by
  obtain ⟨name, hname, hext, hsome, htest, hpath, hregular⟩ := exists_name_of_discover ha.corpus
    (hfit.corpus.within hw) (fun l n hn => hfit.sound.named l n (hw.get? l n hn)) hcases htest
  have hstraight : fs₁.Straight (c.corpusLoc ++ [name]) := by
    intro x hx
    rcases List.prefix_concat_iff.mp hx with rfl | hx
    · exact ((hfit.files name).within hw).linkAt
    · exact hfit.corpus.within hw x hx
  have hnames : ∀ s ∈ c.corpusLoc ++ [name], Path.IsName s :=
    List.forall_mem_append.mpr
      ⟨fun s hs => ha.corpus.isName hs, List.forall_mem_singleton.mpr hname⟩
  rw [hpath, isRegularFile] at hregular
  split at hregular
  · rename_i m hm
    obtain ⟨l, hspot, _⟩ := stat_eq_ok hm
    exact ⟨name, htest, (hstraight.spot_node hnames hspot).2.2, hext, hsome⟩
  · cases hregular

theorem caseOf_mem_discover {c : Config} {logger : Log.Logger} {fs fs₁ : FileSystem}
    {cases : List TestCase} {name : String} (ha : c.Apart) (hfit : c.Fits fs) (hw : Within fs₁ fs)
    (hr : Ready c logger fs₁ fs₁) (hcases : Corpus.discover fs₁ c.corpusDir c.corpusExt = .ok cases)
    (hsource : IsSource c fs₁ name) : Corpus.caseOf c.corpusDir c.corpusExt name ∈ cases := by
  obtain ⟨loc, _, hspot, _, _, rfl⟩ := Corpus.discover_eq_ok hcases
  rw [ha.corpus.eq_toLocation] at hspot
  obtain ⟨rfl, _, _⟩ := (hfit.corpus.within hw).spot_node (fun s hs => ha.corpus.isName hs) hspot
  obtain ⟨n, hn⟩ := Option.isSome_iff_exists.mp hsource.there
  refine List.mem_map_of_mem (List.mem_filter.mpr ⟨mem_children.mpr hsource.there, ?_⟩)
  rw [Bool.and_eq_true, beq_iff_eq, isRegularFile, ha.corpus.eq_toLocation, ← Config.corpusLoc,
    Path.join_toLocation hsource.nameable.init.isName hsource.nameable.last.1,
    hr.corpus.passable.stat hsource.nameable (hr.beside name).linkAt, hn]
  exact ⟨hsource.ext, hr.beside name n hn⟩

theorem nodup_artifacts {c : Config} {fs : FileSystem} {cases : List TestCase} (hd : fs.Distinct)
    (hn : fs.Named) (hcases : Corpus.discover fs c.corpusDir c.corpusExt = .ok cases) :
    (cases.map fun test => test.base ++ c.artifactExt).Nodup := by
  have hinj : Function.Injective fun b => b ++ c.artifactExt :=
    fun _ _ hab => (String.append_left_inj c.artifactExt).mp hab
  have hmap := (Corpus.discover_nodup_base hd hn hcases).map hinj
  rwa [List.map_map] at hmap

theorem isSource_congr {c : Config} {fs fs₁ : FileSystem}
    (h : ∀ s, fs₁.get? (c.corpusLoc ++ [s]) = fs.get? (c.corpusLoc ++ [s])) (name : String) :
    IsSource c fs₁ name ↔ IsSource c fs name := by
  refine ⟨fun hs => ⟨hs.nameable, hs.ext, ?_⟩, fun hs => ⟨hs.nameable, hs.ext, ?_⟩⟩
  · rw [← h, hs.there]
  · rw [h, hs.there]

/-- The cases of a corpus come to their verdicts one after the other. Each leaves the places free
that the artifacts of the next ones go to. -/
theorem runOver_verdict {c : Config} {logger : Log.Logger} {launch : Program.Launch}
    {outcome : Tool → String → ByteArray → Program.Outcome} {fs₁ : FileSystem}
    {cases : List TestCase} {reference : Tool} (hs : Staged c logger launch outcome fs₁)
    (hmem : reference ∈ c.tools) (hisref : reference.isReference = true)
    (href : c.reference? = some reference)
    (hsources : ∀ test ∈ cases, ∃ name, test = Corpus.caseOf c.corpusDir c.corpusExt name ∧
      IsSource c fs₁ name)
    (hnodup : (cases.map fun test => test.base ++ c.artifactExt).Nodup) (tty : Bool) {w : World}
    (h : Vacant c logger fs₁ [] w.fs) :
    (runOver (standard launch false tty logger c) c cases w).1.cases.map (·.case) = cases ∧
    ∀ r ∈ (runOver (standard launch false tty logger c) c cases w).1.cases,
      ∃ name, r.case = Corpus.caseOf c.corpusDir c.corpusExt name ∧ IsSource c fs₁ name ∧
        ∃ seen : Tool → ByteArray,
          (∀ t ∈ c.tools, Seen logger fs₁ (c.corpusLoc ++ [name]) (seen t)) ∧
          Verdict c reference (fun t => outcome t name (seen t)) r := by
  obtain ⟨hreported, _, hall⟩ := @runOver_induct World RunFault (standard launch false tty logger c) c
    cases (fun done w => Vacant c logger fs₁ (done.map fun r => r.case.base ++ c.artifactExt) w.fs ∧
      ∀ r ∈ done, ∃ name, r.case = Corpus.caseOf c.corpusDir c.corpusExt name ∧ IsSource c fs₁ name ∧
        ∃ seen : Tool → ByteArray,
          (∀ t ∈ c.tools, Seen logger fs₁ (c.corpusLoc ++ [name]) (seen t)) ∧
          Verdict c reference (fun t => outcome t name (seen t)) r)
    (fun _ record s h => ⟨h.1.logged hs.apart (log_logged logger s record), h.2⟩)
    (fun s h => h)
    (fun done test rest s hsplit h => by
      obtain ⟨name, rfl, hsource⟩ := hsources test (by rw [← hsplit]; simp)
      -- no earlier case has an artifact of this name
      have hfresh : artifactName c name ∉ done.map fun r => r.case.base ++ c.artifactExt := by
        intro hmem
        rw [← hsplit, List.map_append, List.map_map] at hnodup
        exact List.disjoint_of_nodup_append hnodup hmem List.mem_cons_self
      refine ⟨?_, fun r hr => ?_⟩
      · rw [List.map_append, List.map_singleton, case_runCase]
        exact runCase_vacant hs hsource (standard_assemble launch false tty logger c)
          (standard_compare launch false tty logger c) (fun _ _ => rfl) hfresh h.1
      rcases List.mem_append.mp hr with hr | hr
      · exact h.2 r hr
      · rw [List.mem_singleton.mp hr]
        refine ⟨name, case_runCase .., hsource, ?_⟩
        exact runCase_verdict hs hsource (standard_assemble launch false tty logger c)
          (standard_compare launch false tty logger c) hmem hisref href h.1.ready
          fun t ht => h.1.vacant t ht _ hfresh)
    (fun _ r s h => h) w ⟨h, by simp⟩
  exact ⟨hreported, hall⟩

section Sample

variable {outputDir : String} {byproducts : List String} {fs : FileSystem}
  (hsource : ∀ e ∈ fs.nodes, e.1.head? = some "c" → e.1 = ["c"] ∨ e.1 = ["c", "p.asm"])

include hsource

theorem eq_of_isSome_source {name : String} (h : (fs.get? ["c", name]).isSome = true) :
    name = "p.asm" := by
  obtain ⟨n, hn⟩ := Option.isSome_iff_exists.mp h
  rcases hsource _ (mem_nodes_of_get? hn) rfl with h | h
  · cases h
  · simpa using h

omit hsource in
theorem sampleConfig_corpusLoc : (sampleConfig outputDir ".hex" byproducts).corpusLoc = ["c"] := by
  change Path.names "/c" = ["c"]
  decide

theorem sampleConfig_fits (hsound : fs.Sound) (hdistinct : fs.Distinct) (hlinks : ∀ e ∈ fs.nodes, fs.linkAt e.1 = none)
    (hexe : ∀ p ∈ ["/x/a", "/x/r"], fs.fileExists p = true)
    (hfile : (fs.get? ["c", "p.asm"]).all Node.isRegular = true) :
    (sampleConfig outputDir ".hex" byproducts).Fits fs := by
  have hlink := linkAt_of_nodes hlinks
  refine ⟨hsound, hdistinct, fun x _ => hlink x, fun t ht => ⟨fun x _ => hlink x, ?_⟩, fun t _ x _ => hlink x,
    fun s n hn => ?_⟩
  · simp only [sampleConfig, List.mem_cons, List.not_mem_nil, or_false] at ht
    rcases ht with rfl | rfl
    · exact hexe "/x/a" (by simp)
    · exact hexe "/x/r" (by simp)
  · rw [sampleConfig_corpusLoc, List.singleton_append] at hn
    have hs : s = "p.asm" := eq_of_isSome_source hsource (by rw [hn]; rfl)
    rw [hs] at hn
    rw [hn] at hfile
    exact hfile

def sampleOutcome : Program.Outcome := ⟨true, some "00".toUTF8, fun _ => none⟩

theorem sampleLaunch_modelled : Modelled (sampleConfig outputDir ".hex" byproducts) .discard
    sampleLaunch (fun _ _ _ => sampleOutcome) fs := by
  intro t _ name _ hsome fs' id mode bytes hdir hbeside _
  rw [sampleConfig_corpusLoc] at hsome hdir hbeside ⊢
  rw [eq_of_isSome_source hsource hsome]
  have hcmd : ((runnerOf Log.Logger.discard (sampleConfig outputDir ".hex" byproducts)).command t
      t.path (Path.toLocation (["c"] ++ ["p.asm"]))).dir = "/c" := by
    change Path.dir (Path.toLocation (["c"] ++ ["p.asm"])) = "/c"
    decide
  have hlead : fs'.lead true "/c" = some ["c"] := (hdir.passable.reaches (by decide)).lead
  have hall : (fs'.get? ["c", "p.hex"]).all Node.isRegular = true :=
    (Option.all_eq_true _ _).mpr (hbeside "p.hex")
  have hbase : Path.trimEnd "p.asm" ".asm" = "p" := by decide
  rw [sampleLaunch, hcmd, if_pos ⟨hlead, hall⟩]
  change Program.Performs sampleOutcome ["c"] (Path.trimEnd "p.asm" ".asm") ".hex" _ _ _
  rw [hbase]
  refine ⟨by simp [sampleOutcome], rfl, Nat.le_succ_of_le (le_freshId fs'), fun e _ new hnew => ?_,
    fun l hl => ?_⟩
  · obtain ⟨rfl, rfl⟩ : e = ".hex" ∧ "00".toUTF8 = new := by
      simpa [Program.Outcome.file, sampleOutcome, ite_eq_iff] using hnew
    refine ⟨fs'.freshId, 0o644, ?_, fun _ => ?_, .inl (le_freshId fs')⟩
    · rw [get?_addFile]
      exact if_pos rfl
    · rw [canRead, Bool.or_eq_true, decide_eq_true_iff]
      exact .inr (by simp [Node.ownerBits])
  · rw [get?_addFile]
    exact if_neg (hl ".hex" List.mem_cons_self rfl)

omit hsource in
theorem sampleConfig_feasible : (sampleConfig "/o/a" ".hex" [".lst"]).Feasible sampleFiles := by
  have hdirs : ∀ e ∈ sampleFiles.nodes, e.2.isDir = true →
      sampleFiles.canSearch e.2 = true ∧ sampleFiles.canWrite e.2 = true := by decide
  refine ⟨⟨by decide, fun name _ hsome => ?_, fun name _ hsome => ?_⟩, by decide,
    fun t _ x mode _ hx => ?_, fun _ _ => rfl⟩
  rotate_right
  · exact (hdirs _ (mem_nodes_of_get? hx) rfl).imp_right fun h _ => h
  all_goals
    rw [sampleConfig_corpusLoc] at hsome
    rw [eq_of_isSome_source (by decide) hsome]
    decide

end Sample

end Crosscheck.Session
