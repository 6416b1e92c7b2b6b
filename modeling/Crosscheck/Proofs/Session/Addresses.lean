import Crosscheck.Proofs.FileSystem.Place
import Crosscheck.Proofs.Runner.Endings
import Crosscheck.Proofs.Session.History
import Crosscheck.Proofs.Session.Layout

namespace Crosscheck

open FileSystem

namespace Runner

/-- A process was run and what it left beside the source was moved to a path. -/
def Puts (r : Runner) (launch : Program.Launch) (tool : Tool) (input : String) (w : World)
    (path : String) : Prop :=
  ∃ start fs fs₁ fs₂, r.Prepared tool input w start ∧
    Logged r.logger (launch start (r.commandFor tool input w.fs)).fs fs ∧
    fs.mkdirAll tool.outputDir = (fs₁, none) ∧
    Artifact.move fs₁ (r.leftPath input w.fs) path = (fs₂, none)

variable {r : Runner} {launch : Program.Launch} {cancelled : Bool} {tool : Tool} {input : String}
  {w : World}

theorem assemble_puts {path : String}
    (h : (r.assemble launch cancelled tool input w).1.outcome = .ok path) :
    path = Path.join [tool.outputDir, Path.stem input ++ r.artifactExt] ∧
      r.Puts launch tool input w path := by
  obtain ⟨_, hends, _⟩ := @assemble_ends r launch cancelled tool input w
  rw [h] at hends
  cases hends with
  | delivered hp hl hgot hf hpath =>
    cases hgot with
    | missing | directory | homeless | stuck => cases hf
    | moved hstat hn hdirs hmove =>
      cases hpath
      exact ⟨rfl, _, _, _, _, hp, hl, hdirs, hmove⟩

end Runner

namespace Config

variable {c : Config}

def address (c : Config) (t : Tool) (test : TestCase) : String :=
  Path.join [t.outputDir, test.base ++ c.artifactExt]

section Corpus

variable (hext : Path.IsExtension c.artifactExt) {fs : FileSystem} (hn : fs.Named)
  {cases : List TestCase} (hcases : Corpus.discover fs c.corpusDir c.corpusExt = .ok cases)

include hext hn hcases

theorem isName_artifact {test : TestCase} (htest : test ∈ cases) :
    Path.IsName (test.base ++ c.artifactExt) :=
  hext.isName.append (Corpus.slash_not_mem_base hn hcases htest)

/-- No two artifacts are kept under one path. -/
theorem Accepted.address_inj (hc : c.Accepted) {t u : Tool} (ht : t ∈ c.tools) (hu : u ∈ c.tools)
    {a b : TestCase} (ha : a ∈ cases) (hb : b ∈ cases) (h : c.address t a = c.address u b) :
    t = u ∧ a = b := by
  obtain ⟨hdirs, hnames⟩ := Path.join_name_inj (isName_artifact hext hn hcases ha)
    (isName_artifact hext hn hcases hb) h
  have hbase : a.base = b.base := (String.append_left_inj c.artifactExt).mp hnames
  exact ⟨hc.eq_of_outputDir ht hu hdirs, Corpus.eq_of_base hn hcases ha hb hbase⟩

end Corpus

theorem Accepted.clean_address (hc : c.Accepted) {t : Tool} (ht : t ∈ c.tools) (test : TestCase) :
    Path.clean (c.address t test) = c.address t test :=
  Path.clean_join_pair _ _ (hc.tools t ht).outputDir

end Config

namespace Session

/-- A run names its case as the corpus does. The artifact of a run that succeeds is put where it is
read to be compared, and each tool has a place of its own for each case. -/
theorem artifacts_addressed {c : Config} (hc : c.fault? = none)
    (hext : Path.IsExtension c.artifactExt) {fs : FileSystem} (hn : fs.Named)
    {cases : List TestCase} (hcases : Corpus.discover fs c.corpusDir c.corpusExt = .ok cases) :
    (∀ test ∈ cases, ∀ t ∈ c.tools, ∀ r : Runner, r.artifactExt = c.artifactExt →
      ∀ launch cancelled w,
        (r.assemble launch cancelled t test.path w).1.base = test.base ∧
        ∀ path, (r.assemble launch cancelled t test.path w).1.outcome = .ok path →
          path = c.address t test ∧ r.Puts launch t test.path w path) ∧
    (∀ test ∈ cases, ∀ t ∈ c.tools, ∀ u ∈ c.tools, ∀ fs',
      Artifact.same fs' t.outputDir u.outputDir test.base c.artifactExt = true ↔
        ∃ bytes, fs'.readFile (c.address t test) = .ok bytes ∧
          fs'.readFile (c.address u test) = .ok bytes) ∧
    ∀ t ∈ c.tools, ∀ u ∈ c.tools, ∀ a ∈ cases, ∀ b ∈ cases, (t, a) ≠ (u, b) →
      Path.clean (c.address t a) ≠ Path.clean (c.address u b) := by
  have hok := Config.accepted_of_fault?_eq_none hc
  refine ⟨?_, fun test _ t _ u _ fs' => Artifact.same_eq_true_iff, ?_⟩
  · intro test htest t _ r hr launch cancelled w
    have hstem := Corpus.stem_path_of_mem_discover hn hcases htest
    refine ⟨(Runner.assemble_about w).2.trans hstem, fun path hpath => ?_⟩
    obtain ⟨hpath, hputs⟩ := Runner.assemble_puts hpath
    rw [hstem, hr] at hpath
    exact ⟨hpath, hputs⟩
  · intro t ht u hu a ha b hb hne heq
    rw [hok.clean_address ht, hok.clean_address hu] at heq
    obtain ⟨rfl, rfl⟩ := hok.address_inj hext hn hcases ht hu ha hb heq
    exact hne rfl

def dottedTool : Tool where
  name := "a"
  path := "/x/a"
  role := .candidate
  outputDir := "/o/./x/../a.b"

def plainTool : Tool where
  name := "r"
  path := "/x/r"
  role := .reference
  outputDir := "/o/r"

def dottedConfig : Config :=
  { sampleConfig "" ".hex" [] with corpusDir := "/c/../c/.", tools := [dottedTool, plainTool] }

def dottedFiles : FileSystem :=
  { sampleFiles with
    nodes := [(["c", ".asm"], .file 3 0o644 "".toUTF8)] ++ sampleFiles.nodes ++
      [(["c", "p.q.asm"], .file 4 0o644 "".toUTF8)]
    nextId := 5 }

def dottedCase (base : String) : TestCase := ⟨base ++ ".asm", base, "/c/" ++ base ++ ".asm"⟩

theorem discover_dottedFiles :
    Corpus.discover dottedFiles dottedConfig.corpusDir dottedConfig.corpusExt =
      .ok [dottedCase "", dottedCase "p", dottedCase "p.q"] := by
  have hopens : Corpus.Opens dottedFiles dottedConfig.corpusDir ["c"] := ⟨rfl, 0o755, rfl, rfl⟩
  have hchildren : dottedFiles.children ["c"] = [".asm", "p.asm", "p.q.asm"] :=
    List.mergeSort_of_pairwise (by decide)
  rw [Corpus.discover_of_opens hopens, Corpus.chosen, hchildren]
  decide +kernel

theorem artifacts_addressed_dotted :
    dottedConfig.fault? = none ∧ Path.IsExtension dottedConfig.artifactExt ∧ dottedFiles.Named ∧
    Corpus.discover dottedFiles dottedConfig.corpusDir dottedConfig.corpusExt =
      .ok [dottedCase "", dottedCase "p", dottedCase "p.q"] ∧
    ((runnerOf .discard dottedConfig).assemble sampleLaunch false dottedTool (dottedCase "p").path
      { fs := dottedFiles }).1.outcome = .ok "/o/a.b/p.hex" ∧
    "/o/a.b/p.hex" = dottedConfig.address dottedTool (dottedCase "p") ∧
    Path.clean (dottedConfig.address dottedTool (dottedCase "")) ≠
      Path.clean (dottedConfig.address plainTool (dottedCase "p.q")) := by
  have hc : dottedConfig.fault? = none := by decide
  have hext : Path.IsExtension dottedConfig.artifactExt := by decide
  have hn : dottedFiles.Named := .of_nodes (by decide)
  have hrun : ((runnerOf .discard dottedConfig).assemble sampleLaunch false dottedTool
      (dottedCase "p").path { fs := dottedFiles }).1.outcome = .ok "/o/a.b/p.hex" := by
    decide +kernel
  obtain ⟨hput, -, hapart⟩ := artifacts_addressed hc hext hn discover_dottedFiles
  have haddress := hput (dottedCase "p") (by decide) dottedTool (by decide)
    (runnerOf .discard dottedConfig) rfl sampleLaunch false { fs := dottedFiles }
  exact ⟨hc, hext, hn, discover_dottedFiles, hrun, (haddress.2 _ hrun).1,
    hapart _ (by decide) _ (by decide) _ (by decide) _ (by decide) (by decide)⟩

end Session

end Crosscheck
