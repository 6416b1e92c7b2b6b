import Crosscheck.Proofs.Cli.Status
import Crosscheck.Proofs.Config
import Crosscheck.Proofs.FileSystem.Clean
import Crosscheck.Proofs.Settings.Reload

namespace Crosscheck

def RunResult.NoTool (result : RunResult RunFault) : Prop :=
  ∃ f, result.outcome = .error f ∧ f.cause? = some .toolNotFound

namespace Runner

theorem noTool_failed (logger : Log.Logger) (result : RunResult RunFault) (f : RunFault)
    (w : World) : (failed logger result f w).1.NoTool ↔ f.cause? = some .toolNotFound := by
  simp [RunResult.NoTool, failed]

theorem cause_of_runFault? {cancelled : Bool} {c : Program.Command} {run : Program.Run}
    {f : RunFault} (h : runFault? cancelled c run = some f) : f.cause? ≠ some .toolNotFound := by
  rw [runFault?] at h
  split at h
  · cases h
    decide
  split at h
  · cases h
    simp [RunFault.cause?]
  split at h <;> cases h <;> simp [RunFault.cause?]

/-- A tool is looked for before all else, under its path as it is when it has been cleaned. -/
theorem noTool_assemble (r : Runner) (launch : Program.Launch) (cancelled : Bool) (tool : Tool)
    (input : String) (w : World) :
    (r.assemble launch cancelled tool input w).1.NoTool ↔
      w.fs.fileExists (Path.abs (workingDir w.fs) tool.path) = false := by
  have hcollect (f : Artifact.Fault) : (RunFault.artifact f).cause? ≠ some .toolNotFound := by
    cases f <;> simp [RunFault.cause?, Artifact.Fault.cause?]
  rw [assemble]
  dsimp only
  split
  · rename_i hexe
    simp [noTool_failed, RunFault.cause?, hexe]
  rename_i hexe
  refine iff_of_false ?_ hexe
  split
  · simp [noTool_failed, RunFault.cause?]
  split
  · rename_i f hstale
    rw [noTool_failed]
    rw [removeStale] at hstale
    split at hstale
    · cases hstale
    · split at hstale
      · cases hstale
      · cases hstale
        simp [RunFault.cause?]
  split
  · rename_i f hfault
    rw [noTool_failed]
    exact cause_of_runFault? hfault
  split
  · rw [noTool_failed]
    exact hcollect _
  · rintro ⟨f, hf, _⟩
    cases hf
  · rw [noTool_failed]
    exact hcollect _

end Runner

namespace Cli

open Settings (Store)

theorem found_eq_yes_iff (fs : FileSystem) (t : Tool) :
    (toolRow fs t)[2]? = some "yes" ↔ fs.fileExists t.path = true := by
  change some (if isFound fs t then "yes" else "no") = some "yes" ↔ isFound fs t = true
  cases isFound fs t <;> decide

theorem settled_of_loadConfig {call : Call} {fs : FileSystem} {s : Store} {c : Config}
    (h : loadConfig call fs s = .ok c) : Settings.Settled c := by
  refine Settings.settled_of_load (fun dir hdir => ?_) h
  cases hdir
  exact Path.isAbs_slash_append _

theorem isAbs_of_loadConfig {call : Call} {fs : FileSystem} {s : Store} {c : Config}
    (h : loadConfig call fs s = .ok c) {t : Tool} (ht : t ∈ c.tools) : Path.isAbs t.path = true := by
  have hsettled := settled_of_loadConfig h
  have hpath := ((Config.accepted_of_fault?_eq_none hsettled.valid).tools t ht).path
  exact (hsettled.tools t ht).1.resolve_left hpath

theorem direct_join {fs : FileSystem} {root : String} (hroot : Path.isAbs root = true) (p : String) :
    fs.Direct (Path.join [root, p]) := by
  obtain ⟨loc, hloc, hjoin⟩ := Path.exists_join_eq hroot p
  rw [hjoin]
  exact FileSystem.direct_of_clean (Path.isAbs_toLocation loc) (Path.clean_toLocation hloc)

/-- The list of tools says of each whether its path leads to a file, and a run looks for it where the
path leads once it has been cleaned. The two agree on a path that does not end in a slash or a dot
and steps back only out of directories that stand where they are named, as long as the system takes
it as it is or not at all, and so on every path that is given from the root of the configuration on. -/
theorem list_agrees (launch : Program.Launch) {call : Call} {flags : Flags}
    (h : Asks call .list flags []) {fs : FileSystem} {s : Store} {note : String}
    (hs : settingsOf call flags fs = .ok (s, note)) {c : Config}
    (hc : loadConfig call fs s = .ok c) :
    run launch call fs = ⟨0, toolTable fs c.tools, note, fs⟩ ∧
    ∀ t ∈ c.tools, ((toolRow fs t)[2]? = some "yes" ↔ fs.fileExists t.path = true) ∧
      (∀ p, t.path = Path.join [c.root, p] → fs.Direct t.path) ∧
      ∀ (r : Runner) (process : Program.Launch) (cancelled : Bool) (input : String) (w : World),
        w.fs = fs →
        ((r.assemble process cancelled t input w).1.NoTool ↔
          fs.fileExists (Path.clean t.path) = false) ∧
        (fs.Direct t.path → ((toolRow fs t)[2]? = some "yes" ↔
          ¬ (r.assemble process cancelled t input w).1.NoTool)) := by
  refine ⟨?_, fun t ht => ⟨found_eq_yes_iff fs t, fun p hp => ?_,
    fun r process cancelled input w hw => ?_⟩⟩
  · rw [h.run launch hs, perform, listTools, hc]
    simp [Outcome.success, Outcome.noted]
  · rw [hp]
    exact direct_join (settled_of_loadConfig hc).root.1 p
  · have habs := isAbs_of_loadConfig hc ht
    have hrun : (r.assemble process cancelled t input w).1.NoTool ↔
        fs.fileExists (Path.clean t.path) = false := by
      rw [Runner.noTool_assemble, hw, Path.abs, if_pos habs]
    refine ⟨hrun, fun hdirect => ?_⟩
    rw [found_eq_yes_iff, hrun, hdirect.fileExists_clean habs, Bool.not_eq_false]

def listCall : Call := { showCall with args := ["tools", "list"] }

def listedFiles : FileSystem :=
  { plainFiles with
    nodes := plainFiles.nodes ++ [(["x", "assembler.exe"], .file 0 0o755 "".toUTF8)]
    nextId := 1 }

theorem list_agrees_sample :
    Asks listCall .list {} [] ∧
    ∃ t ∈ plainConfig.tools, ∃ u ∈ plainConfig.tools,
      (toolRow listedFiles t)[2]? = some "yes" ∧ (toolRow listedFiles u)[2]? = some "no" ∧
      ∀ (r : Runner) (process : Program.Launch) (cancelled : Bool) (input : String),
        ¬ (r.assemble process cancelled t input { fs := listedFiles }).1.NoTool ∧
        (r.assemble process cancelled u input { fs := listedFiles }).1.NoTool := by
  have hasks : Asks listCall .list {} [] := ⟨⟨[], by decide, by decide⟩, rfl, rfl⟩
  have hlocate : locate? listedFiles (listCall.searchDirs listedFiles) = none := by
    decide +kernel
  have hread : readConfig listCall {} listedFiles = .ok ([], "") := by
    rw [readConfig, if_neg (by decide), hlocate]
  have hall := (list_agrees (fun fs _ => { fs, ending := .clean }) hasks (settingsOf_eq hread)
    load_plain).2
  have ht : (⟨"assembler", "/x/assembler.exe", .candidate, "/x/output_assembler", false, "",
      Config.defaultByproducts⟩ : Tool) ∈ plainConfig.tools := by decide +kernel
  have hu : (⟨"dsm51", "/x/Dsm51Ass.exe", .reference, "/x/output_dsm51", true, "Dsm51Ass",
      Config.defaultByproducts⟩ : Tool) ∈ plainConfig.tools := by decide +kernel
  refine ⟨hasks, _, ht, _, hu, by decide +kernel, by decide +kernel,
    fun r process cancelled input => ⟨?_, ?_⟩⟩
  · have hdirect := (hall _ ht).2.1 "assembler.exe" (by decide +kernel)
    apply (((hall _ ht).2.2 r process cancelled input { fs := listedFiles } rfl).2 hdirect).mp
    decide +kernel
  · apply ((hall _ hu).2.2 r process cancelled input { fs := listedFiles } rfl).1.mpr
    decide +kernel

/-- Two tools whose paths lead elsewhere once they are cleaned. -/
def oddStore : Store where
  config :=
    [("tools", .list [
      .map [("name", .text "a"), ("path", .text "/x/a/"), ("role", .text "candidate"),
        ("output_dir", .text "o")],
      .map [("name", .text "r"), ("path", .text "/x/k/../r"), ("role", .text "reference"),
        ("output_dir", .text "p")]])]
  defaults := Settings.defaults

def slashedTool : Tool :=
  ⟨"a", "/x/a/", .candidate, "/x/o", false, "", Config.defaultByproducts⟩

def linkedTool : Tool :=
  ⟨"r", "/x/k/../r", .reference, "/x/p", false, "", Config.defaultByproducts⟩

/-- A tool in `/x` and one in `/w`, with a link from the one directory to below the other. -/
def oddFiles : FileSystem where
  nodes := [([], .dir 0o755), (["w"], .dir 0o755), (["w", "d"], .dir 0o755),
    (["w", "r"], .file 0 0o755 "".toUTF8), (["x"], .dir 0o755),
    (["x", "a"], .file 1 0o755 "".toUTF8), (["x", "k"], .link "/w/d")]
  nextId := 2
  cwd := ["w"]
  mounts := []
  privileged := false

theorem oddStore_keys : oddStore.keys = ["artifact.extension", "corpus.dir", "corpus.extension",
    "log.level", "timing.dismiss_grace", "timing.dismiss_interval", "timing.process_timeout",
    "timing.watcher_stop_timeout", "tools"] :=
  Store.keys_eq (by decide +kernel) (by decide +kernel)

/-- A tool that is listed as missing is run, and one that is listed as found is not. -/
theorem list_disagrees :
    ∃ c, Settings.load oddStore (.ok "/w") (.ok "/x") = .ok c ∧
    ∃ t ∈ c.tools, ∃ u ∈ c.tools,
      (toolRow oddFiles t)[2]? = some "no" ∧ (toolRow oddFiles u)[2]? = some "yes" ∧
      ∀ (r : Runner) (process : Program.Launch) (cancelled : Bool) (input : String),
        ¬ (r.assemble process cancelled t input { fs := oddFiles }).1.NoTool ∧
        (r.assemble process cancelled u input { fs := oddFiles }).1.NoTool := by
  have htools : (Settings.load oddStore (.ok "/w") (.ok "/x")).toOption.map (·.tools) =
      some [slashedTool, linkedTool] := by
    rw [Settings.load, Store.settings, oddStore_keys]
    decide +kernel
  cases hc : Settings.load oddStore (.ok "/w") (.ok "/x") with
  | error f =>
    rw [hc] at htools
    cases htools
  | ok c =>
    rw [hc] at htools
    have hlist : c.tools = [slashedTool, linkedTool] := Option.some.inj htools
    refine ⟨c, rfl, slashedTool, by simp [hlist], linkedTool, by simp [hlist], by decide +kernel,
      by decide +kernel, fun r process cancelled input => ?_⟩
    rw [Runner.noTool_assemble, Runner.noTool_assemble]
    decide +kernel

end Cli

end Crosscheck
