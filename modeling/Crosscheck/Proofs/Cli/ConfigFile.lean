import Crosscheck.Proofs.Cli.Command
import Crosscheck.Proofs.Settings.Store

namespace Crosscheck.Cli

open Settings (Fields Value Store keyPath lookup isShadowed searchConfig)

def fileIn (dir : String) : String := Path.join [dir, "asmdiff.yaml"]

/-- The first of some directories that holds any configuration file holds one in the usual format,
and none in a format that is looked for before. -/
inductive Located (fs : FileSystem) : List String → String → Prop
  | here {dir : String} {dirs : List String} (yaml : fs.fileExists (fileIn dir) = true)
      (json : fs.fileExists (Path.join [dir, "asmdiff.json"]) = false)
      (toml : fs.fileExists (Path.join [dir, "asmdiff.toml"]) = false) :
      Located fs (dir :: dirs) (fileIn dir)
  | later {dir : String} {dirs : List String} {path : String}
      (none : ∀ p ∈ configPaths dir, fs.fileExists p = false) (next : Located fs dirs path) :
      Located fs (dir :: dirs) path

theorem Located.locate? {fs : FileSystem} {dirs : List String} {path : String}
    (h : Located fs dirs path) : locate? fs dirs = some path := by
  induction h with
  | here yaml json toml =>
    have hfind : ∀ dir : String, fs.fileExists (fileIn dir) = true →
        fs.fileExists (Path.join [dir, "asmdiff.json"]) = false →
        fs.fileExists (Path.join [dir, "asmdiff.toml"]) = false →
        (configPaths dir).find? fs.fileExists = some (fileIn dir) := by
      intro dir hyaml hjson htoml
      change (Path.join [dir, "asmdiff.json"] :: Path.join [dir, "asmdiff.toml"] :: fileIn dir ::
        _).find? fs.fileExists = _
      rw [List.find?_cons_of_neg (by simp [hjson]), List.find?_cons_of_neg (by simp [htoml]),
        List.find?_cons_of_pos hyaml]
    rw [Cli.locate?, List.findSome?_cons, hfind _ yaml json toml]
  | later none next ih =>
    rw [Cli.locate?, List.findSome?_cons, List.find?_eq_none.mpr (by simpa using none)]
    exact ih

def settingsWith (call : Call) (flags : Flags) (fields : Fields) : Store :=
  let s := (startStore call flags).withConfig fields
  if flags.verbose then s.set "log.level" (.text "debug") else s

theorem settingsOf_eq {call : Call} {flags : Flags} {fs : FileSystem} {fields : Fields}
    {note : String} (h : readConfig call flags fs = .ok (fields, note)) :
    settingsOf call flags fs = .ok (settingsWith call flags fields, note) := by
  rw [settingsOf, h]
  rfl

def kept (fields : Fields) : Fields :=
  match Value.lowerAll (.map fields) with
  | .map fs => fs
  | _ => []

theorem withConfig_eq (s : Store) (fields : Fields) :
    s.withConfig fields = { s with config := kept fields } := by
  rw [Store.withConfig, kept, Value.lowerAll]

def ownSettings (flags : Flags) : Fields :=
  if flags.verbose then [("log", .map [("level", .text "debug")])] else []

theorem settingsWith_eq (call : Call) (flags : Flags) (fields : Fields) :
    settingsWith call flags fields =
      { override := ownSettings flags, flags := flags.bound, env := some call.env
        config := kept fields, defaults := Settings.defaults } := by
  rw [settingsWith, withConfig_eq, ownSettings]
  have hpath : keyPath (Text.lowered "log.level") = ["log", "level"] := by decide +kernel
  cases flags.verbose with
  | false => rfl
  | true =>
    simp only [Store.set, if_true, hpath]
    rfl

theorem lookup_ownSettings {flags : Flags} {path : List String} {v : Value} (hne : path ≠ [])
    (h : lookup (ownSettings flags) path = some v) :
    flags.verbose = true ∧
      (path = ["log"] ∧ (∃ fields, v = .map fields) ∨ ["log", "level"] <+: path) := by
  rw [ownSettings] at h
  split at h
  · rename_i hverbose
    refine ⟨hverbose, ?_⟩
    match path, hne with
    | [k], _ =>
      by_cases hk : k = "log"
      · subst hk
        exact .inl ⟨rfl, _, (Option.some.inj h).symm⟩
      · simp [lookup, Fields.get?, Ne.symm hk] at h
    | k :: k' :: rest, _ =>
      by_cases hk : k = "log"
      · subst hk
        by_cases hk' : k' = "level"
        · subst hk'
          exact .inr ⟨rest, rfl⟩
        · simp [lookup, Fields.get?, Ne.symm hk'] at h
      · simp [lookup, Fields.get?, Ne.symm hk] at h
  · rw [Settings.lookup_nil hne] at h
    cases h

/-- A key that neither a flag nor a variable has a say on. The settings that flags stand for are
texts, with nothing below them. -/
structure Untouched (call : Call) (flags : Flags) (key : String) : Prop where
  root : key = "root" → flags.root = none
  logFile : key = "log.file" → flags.logFile = none
  below : ∀ p ∈ Store.parents (keyPath key), p ≠ "root" ∧ p ≠ "log.file"
  verbose : flags.verbose = true →
    ¬ keyPath key <+: ["log", "level"] ∧ ¬ ["log", "level"] <+: keyPath key
  env : ∀ p ∈ key :: Store.parents (keyPath key), ∀ e ∈ call.env, e.1 = Store.envName p → e.2 = ""

theorem Untouched.unclaimed {call : Call} {flags : Flags} {key : String}
    (h : Untouched call flags key) (fields : Fields) :
    (settingsWith call flags fields).Unclaimed key := by
  rw [settingsWith_eq]
  refine ⟨?_, ?_, ?_, ?_, ?_⟩
  · cases hl : lookup (ownSettings flags) (keyPath key) with
    | none => rfl
    | some v =>
      obtain ⟨hverbose, hlog | hlevel⟩ := lookup_ownSettings (Settings.keyPath_ne_nil key) hl
      · exact absurd (by rw [hlog.1]; decide) (h.verbose hverbose).1
      · exact absurd hlevel (h.verbose hverbose).2
  · apply Settings.isShadowed_eq_false
    intro n hpos hlt v hl
    have hne : (keyPath key).take n ≠ [] := by
      intro hnil
      cases List.take_eq_nil_iff.mp hnil with
      | inl hzero => omega
      | inr hempty => exact Settings.keyPath_ne_nil key hempty
    obtain ⟨hverbose, hlog | hlevel⟩ := lookup_ownSettings hne hl
    · exact hlog.2
    · exact absurd (hlevel.trans (List.take_prefix n _)) (h.verbose hverbose).2
  · intro f hf
    have hkey : f.key = key := by simpa using List.find?_some hf
    have hmem := List.mem_of_find?_eq_some hf
    simp only [Flags.bound, List.mem_cons, List.not_mem_nil, or_false] at hmem
    cases hmem with
    | inl he =>
      subst he
      rw [h.root hkey.symm]
      rfl
    | inr he =>
      subst he
      rw [h.logFile hkey.symm]
      rfl
  · intro p hp
    apply List.find?_eq_none.mpr
    obtain ⟨hroot, hlog⟩ := h.below p hp
    simp [Flags.bound, Ne.symm hroot, Ne.symm hlog]
  · intro p hp
    exact Store.envValue?_eq_none rfl (h.env p hp)

theorem readConfig_located {call : Call} {flags : Flags} {fs : FileSystem} {path : String}
    (hc : flags.config = "") (hl : locate? fs (call.searchDirs fs) = some path) :
    readConfig call flags fs =
      match readWith fs yamlFields path with
      | .ok fields => .ok (fields, usingNote path)
      | .error _ => .ok ([], "") := by
  cases hr : readWith fs yamlFields path with
  | ok fields => simp [readConfig, hc, hl, hr]
  | error fault => simp [readConfig, hc, hl, hr]

/-- A configuration file that is found beside the program, or else in the working directory, holds
for the commands that are run: every key that it sets has the value it gives, unless a flag or a
variable has a say on it. A file that cannot be read as one is passed over. -/
theorem run_takes_file (launch : Program.Launch) {call : Call} {command : Command} {flags : Flags}
    {words : List String} {fs : FileSystem} {path : String} (hcall : Asks call command flags words)
    (hconfig : flags.config = "") (hpath : Located fs (call.searchDirs fs) path) :
    (∀ fields, readWith fs yamlFields path = .ok fields →
      ∃ s : Store,
        run launch call fs =
          (perform launch call flags s fs command words).noted (usingNote path) ∧
        ∀ key v, searchConfig (kept fields) (keyPath (Text.lowered key)) = some v →
          Untouched call flags (Text.lowered key) → s.get? key = some v) ∧
    (∀ fault, readWith fs yamlFields path = .error fault →
      run launch call fs = perform launch call flags (settingsWith call flags []) fs command words) := by
  have hread := readConfig_located hconfig hpath.locate?
  refine ⟨fun fields hfields => ?_, fun fault hfault => ?_⟩
  · rw [hfields] at hread
    refine ⟨_, hcall.run launch (settingsOf_eq hread), fun key v hv hkey => ?_⟩
    apply (hkey.unclaimed fields).find?_of_file
    rw [settingsWith_eq]
    exact hv
  · rw [hfault] at hread
    rw [hcall.run launch (settingsOf_eq hread), Outcome.noted, String.empty_append]

def configuredFiles (program text : String) : FileSystem where
  nodes := [([], .dir 0o755), (["x"], .dir 0o755), (["x", program], .file 0 0o755 "@".toUTF8),
    (["w"], .dir 0o755), (["w", "asmdiff.yaml"], .file 1 0o644 text.toUTF8)]
  nextId := 2
  cwd := ["w"]
  mounts := []
  privileged := false

def showCall : Call where
  args := ["tools", "config"]
  env := []
  exeDir := .ok "/x"
  tty := false
  sessionId := ""

theorem showCall_asks : Asks showCall .config {} [] :=
  ⟨⟨[], by decide, by decide⟩, rfl, rfl⟩

def shownExtension (fs : FileSystem) : Nat × Option String :=
  ((run (fun fs _ => { fs, ending := .clean }) showCall fs).exit,
    (settingsOf showCall {} fs).toOption.map fun r => r.1.getText "artifact.extension")

def writtenExtension (fs : FileSystem) (path : String) : Option String :=
  (readWith fs yamlFields path).toOption.bind fun fields =>
    (searchConfig (kept fields) ["artifact", "extension"]).map Value.plainText

theorem run_takes_file_sample :
    Asks showCall .config {} [] ∧
      Located (configuredFiles "run" "artifact.extension: .bin") ["/x", "/w"] "/w/asmdiff.yaml" ∧
      Untouched showCall {} "artifact.extension" ∧
      ∃ s : Store,
        run (fun fs _ => { fs, ending := .clean }) showCall
            (configuredFiles "run" "artifact.extension: .bin") =
          (perform (fun fs _ => { fs, ending := .clean }) showCall {} s
            (configuredFiles "run" "artifact.extension: .bin") .config []).noted
              "Using config file: /w/asmdiff.yaml\n" ∧
        s.getText "artifact.extension" = ".bin" := by
  have hlocated : Located (configuredFiles "run" "artifact.extension: .bin") ["/x", "/w"]
      "/w/asmdiff.yaml" :=
    .later (by decide +kernel) (.here (by decide +kernel) (by decide +kernel) (by decide +kernel))
  have hlow : Text.lowered "artifact.extension" = "artifact.extension" := by decide +kernel
  have hpath : keyPath "artifact.extension" = ["artifact", "extension"] := by decide +kernel
  have hfree : Untouched showCall {} "artifact.extension" := by
    refine ⟨nofun, nofun, ?_, nofun, fun _ _ => nofun⟩
    rw [hpath]
    decide +kernel
  have hwritten : writtenExtension (configuredFiles "run" "artifact.extension: .bin")
      "/w/asmdiff.yaml" = some ".bin" := by decide +kernel
  obtain ⟨fields, hfields, hvalue⟩ := Option.bind_eq_some_iff.mp hwritten
  obtain ⟨v, hv, htext⟩ := Option.map_eq_some_iff.mp hvalue
  have hread : readWith (configuredFiles "run" "artifact.extension: .bin") yamlFields
      "/w/asmdiff.yaml" = .ok fields := by
    cases hr : readWith (configuredFiles "run" "artifact.extension: .bin") yamlFields
        "/w/asmdiff.yaml" with
    | error fault => rw [hr] at hfields; cases hfields
    | ok fields' => rw [hr] at hfields; cases hfields; rfl
  obtain ⟨s, hrun, hkeys⟩ := (run_takes_file (fun fs _ => { fs, ending := .clean }) showCall_asks rfl
    hlocated).1 fields hread
  refine ⟨showCall_asks, hlocated, hfree, s, hrun, ?_⟩
  have hget := hkeys "artifact.extension" v (by rw [hlow, hpath]; exact hv) (by rw [hlow]; exact hfree)
  rw [Store.getText, hget]
  exact htext

theorem showCall_keys : (settingsWith showCall {} []).keys =
    ["artifact.extension", "corpus.dir", "corpus.extension", "log.file", "log.level", "root",
      "timing.dismiss_grace", "timing.dismiss_interval", "timing.process_timeout",
      "timing.watcher_stop_timeout", "tools"] :=
  Store.keys_eq (by decide +kernel) (by decide +kernel)

theorem shownExtension_of_unreadable {fs : FileSystem} (path : String)
    (hl : locate? fs (showCall.searchDirs fs) = some path)
    (hread : (readWith fs yamlFields path).toOption.isNone = true) (hcwd : fs.cwd = ["w"]) :
    shownExtension fs = (0, some ".hex") := by
  have hconfig : readConfig showCall {} fs = .ok ([], "") := by
    rw [readConfig_located rfl hl]
    cases hr : readWith fs yamlFields path with
    | error fault => rfl
    | ok fields =>
      rw [hr] at hread
      cases hread
  have hsettings := settingsOf_eq hconfig
  have hload : (loadConfig showCall fs (settingsWith showCall {} [])).isOk = true := by
    rw [loadConfig, Runner.workingDir, hcwd, Settings.load, Store.settings, showCall_keys]
    decide +kernel
  have hext : (settingsWith showCall {} []).getText "artifact.extension" = ".hex" := by
    decide +kernel
  have hexit : ∀ launch, (perform launch showCall {} (settingsWith showCall {} []) fs .config []).exit =
      0 := by
    intro launch
    rw [perform, showConfig]
    cases hc : loadConfig showCall fs (settingsWith showCall {} []) with
    | error fault =>
      rw [hc] at hload
      cases hload
    | ok c => rfl
  rw [shownExtension, showCall_asks.run _ hsettings, hsettings, Outcome.noted, hexit]
  simp [Except.toOption, hext]

/-- A file that cannot be read is passed over without a word, and so is one in the working directory
if the program itself is taken for a configuration file. -/
theorem run_passes_over_file :
    ((configuredFiles "run" "artifact: [").fileExists "/w/asmdiff.yaml" = true ∧
      shownExtension (configuredFiles "run" "artifact: [") = (0, some ".hex")) ∧
    writtenExtension (configuredFiles "asmdiff" "artifact.extension: .bin") "/w/asmdiff.yaml" =
        some ".bin" ∧
      shownExtension (configuredFiles "asmdiff" "artifact.extension: .bin") = (0, some ".hex") := by
  refine ⟨⟨by decide +kernel, ?_⟩, by decide +kernel, ?_⟩
  · exact shownExtension_of_unreadable "/w/asmdiff.yaml" (by decide +kernel) (by decide +kernel) rfl
  · exact shownExtension_of_unreadable "/x/asmdiff" (by decide +kernel) (by decide +kernel) rfl

end Crosscheck.Cli
