import Crosscheck.Proofs.Cli.ConfigFile
import Crosscheck.Proofs.Report
import Crosscheck.Proofs.Session.Console

namespace Crosscheck.Cli

open Settings (Store)

def HasErrorLine (text : String) : Prop :=
  ∃ before after : List Char, text.toList = before ++ "Error:".toList ++ after ∧
    (before = [] ∨ before.getLast? = some '\n')

theorem linesOf_cons (line : String) (log : List String) :
    linesOf (line :: log) = line ++ "\n" ++ linesOf log := by
  rw [linesOf, List.map_cons]
  cases log with
  | nil => simp [linesOf]
  | cons next rest => rw [linesOf, List.map_cons, String.intercalate_cons_cons, String.append_empty]

theorem not_hasErrorLine_cons {line rest : String} (hsingle : '\n' ∉ line.toList)
    (hstart : ¬ "Error:".toList <+: line.toList) (hrest : ¬ HasErrorLine rest) :
    ¬ HasErrorLine (line ++ "\n" ++ rest) := by
  rintro ⟨before, after, htext, hb⟩
  have hlist : line.toList ++ '\n' :: rest.toList = before ++ ("Error:".toList ++ after) := by
    rw [← List.append_assoc, ← htext]
    simp
  refine hrest ?_
  obtain ⟨more, hbefore, hmore⟩ | ⟨more, hline, hmore⟩ := List.append_eq_append_iff.mp hlist
  · -- The word stands after the line, and so after its end.
    cases more with
    | nil => simp at hmore
    | cons c more =>
      simp only [List.cons_append, List.cons.injEq] at hmore
      refine ⟨more, after, by rw [hmore.2, List.append_assoc], ?_⟩
      rcases List.eq_nil_or_concat more with rfl | ⟨init, last, rfl⟩
      · exact .inl rfl
      · have hlast : before.getLast? = some last := by
          rw [hbefore, List.concat_eq_append, ← List.cons_append, ← List.append_assoc,
            List.getLast?_concat]
        have hnewline := hb.resolve_left fun hnil => by
          rw [hnil] at hlast
          cases hlast
        rw [List.concat_eq_append, List.getLast?_concat]
        exact .inr (hlast.symm.trans hnewline)
  · -- The word starts in the line, and so has to start with it.
    exfalso
    have hnil : before = [] := by
      refine hb.resolve_right fun hlast => hsingle ?_
      rw [hline]
      exact List.mem_append_left _ (List.mem_of_getLast? hlast)
    rw [hline, hnil, List.nil_append] at hstart
    obtain ⟨tail, htail, _⟩ | ⟨tail, htail, hend⟩ := List.append_eq_append_iff.mp hmore
    · exact hstart ⟨tail, htail.symm⟩
    · cases tail with
      | nil => exact hstart ⟨[], by simpa using htail⟩
      | cons c tail =>
        have hnewline : '\n' ∈ "Error:".toList := by
          rw [htail, (List.cons.inj hend).1]
          simp
        exact absurd hnewline (by decide)

theorem not_hasErrorLine_linesOf {log : List String} (h : ∀ line ∈ log, Log.IsLine line) :
    ¬ HasErrorLine (linesOf log) := by
  induction log with
  | nil =>
    rintro ⟨before, after, htext, _⟩
    simp [linesOf] at htext
  | cons line rest ih =>
    have hline := h line (by simp)
    rw [linesOf_cons]
    refine not_hasErrorLine_cons hline.single ?_ (ih fun l hl => h l (by simp [hl]))
    obtain ⟨tail, htail⟩ := hline.start
    rintro ⟨tail', htail'⟩
    rw [← htail] at htail'
    simp at htail'

theorem usingNote_inj {p q : String} (h : usingNote p = usingNote q) : p = q := by
  unfold usingNote at h
  have hchars := congrArg String.toList h
  rw [String.toList_append, String.toList_append, String.toList_append, String.toList_append] at hchars
  exact String.toList_inj.mp (List.append_cancel_left (List.append_cancel_right hchars))

theorem not_hasErrorLine_usingNote {path lines : String} (hpath : '\n' ∉ path.toList)
    (hlines : ¬ HasErrorLine lines) : ¬ HasErrorLine (usingNote path ++ lines) := by
  unfold usingNote
  refine not_hasErrorLine_cons ?_ ?_ hlines
  · simpa using hpath
  · rintro ⟨tail, htail⟩
    rw [String.toList_append] at htail
    simp at htail

section Course

variable (launch : Program.Launch) (call : Call) (flags : Flags) (fs : FileSystem)

structure Begins (note : String) (c : Config) (fs' : FileSystem) (logger : Log.Logger) : Prop where
  config : ∃ s, settingsOf call flags fs = .ok (s, note) ∧ loadConfig call fs s = .ok c
  logger : Log.Logger.make fs c.log = .ok (fs', logger)

/-- What keeps a session from being begun, with the note that was given before. -/
inductive Hindered : String → String → Prop
  | settings {f : FileFault} (h : settingsOf call flags fs = .error f) : Hindered "" f.message
  | config {s : Store} {note : String} {f : Settings.LoadFault}
      (hs : settingsOf call flags fs = .ok (s, note)) (h : loadConfig call fs s = .error f) :
      Hindered note f.message
  | logger {s : Store} {note : String} {c : Config} {f : Log.Logger.Fault}
      (hs : settingsOf call flags fs = .ok (s, note)) (hc : loadConfig call fs s = .ok c)
      (h : Log.Logger.make fs c.log = .error f) : Hindered note f.message

theorem begins_or_hindered :
    (∃ note c fs' logger, Begins call flags fs note c fs' logger) ∨
      ∃ note message, Hindered call flags fs note message := by
  cases hs : settingsOf call flags fs with
  | error f => exact .inr ⟨"", f.message, .settings hs⟩
  | ok r =>
    obtain ⟨s, note⟩ := r
    cases hc : loadConfig call fs s with
    | error f => exact .inr ⟨note, f.message, .config hs hc⟩
    | ok c =>
      cases hl : Log.Logger.make fs c.log with
      | error f => exact .inr ⟨note, f.message, .logger hs hc hl⟩
      | ok r => exact .inl ⟨note, c, r.1, r.2, ⟨s, hs, hc⟩, hl⟩

theorem note_of_settingsOf {s : Store} {note : String}
    (h : settingsOf call flags fs = .ok (s, note)) :
    note = "" ∨ ∃ path, note = usingNote path ∧
      (path = flags.config ∨ locate? fs (call.searchDirs fs) = some path) := by
  have hread : ∃ fields, readConfig call flags fs = .ok (fields, note) := by
    rw [settingsOf] at h
    split at h
    · cases h
    · rename_i fields note' hr
      cases h
      exact ⟨fields, hr⟩
  obtain ⟨fields, hr⟩ := hread
  rw [readConfig] at hr
  split at hr
  · cases hg : readGiven call.decoders fs flags.config with
    | error f =>
      rw [hg] at hr
      cases hr
    | ok fields' =>
      rw [hg] at hr
      cases hr
      exact .inr ⟨_, rfl, .inl rfl⟩
  split at hr
  · cases hr
    exact .inl rfl
  rename_i path hlocate
  split at hr
  · cases hr
    exact .inr ⟨path, rfl, .inr hlocate⟩
  · cases hr
    exact .inl rfl

def sessionOf (c : Config) (fs' : FileSystem) (logger : Log.Logger) :
    Except Session.Fault (Report RunFault) × World :=
  Session.run (Session.standard launch false call.tty
    (Session.sessionLogger logger call.sessionId) c) c { fs := fs' }

variable {launch call flags fs}

theorem run_hindered (h : Asks call .session flags []) {note message : String}
    (hh : Hindered call flags fs note message) :
    run launch call fs = ⟨1, "", note ++ "Error: " ++ message ++ "\n", fs⟩ := by
  cases hh with
  | settings hs =>
    obtain ⟨⟨rest, hfind, hflags⟩, hhelp, hgroup⟩ := h
    rw [run, hfind]
    simp [hflags, hhelp, hgroup, hs, Outcome.failure]
  | config hs hc =>
    rw [h.run launch hs, perform, session, hc]
    simp [Outcome.failure, Outcome.noted, String.append_assoc]
  | logger hs hc hl =>
    rw [h.run launch hs, perform, session, hc]
    simp [hl, Outcome.failure, Outcome.noted, String.append_assoc]

theorem run_begun (h : Asks call .session flags []) {note : String} {c : Config}
    {fs' : FileSystem} {logger : Log.Logger} (hb : Begins call flags fs note c fs' logger) :
    run launch call fs = (sessionOutcome c (sessionOf launch call c fs' logger).1
      (sessionOf launch call c fs' logger).2).noted note := by
  obtain ⟨⟨s, hs, hc⟩, hl⟩ := hb
  rw [h.run launch hs, perform, session, hc]
  simp only [hl, sessionOf]

theorem exit_of_report (h : Asks call .session flags []) {note : String} {c : Config}
    {fs' : FileSystem} {logger : Log.Logger} (hb : Begins call flags fs note c fs' logger)
    {report : Report RunFault} {w : World}
    (hr : sessionOf launch call c fs' logger = (.ok report, w)) :
    (run launch call fs).exit = report.exitCode := by
  rw [run_begun h hb, hr]
  rfl

theorem run_without_corpus (h : Asks call .session flags []) {note : String} {c : Config}
    {fs' : FileSystem} {logger : Log.Logger} (hb : Begins call flags fs note c fs' logger)
    {f : Corpus.Fault} {w : World}
    (hr : sessionOf launch call c fs' logger = (.error (.corpus f), w)) :
    (run launch call fs).exit = 1 ∧ (run launch call fs).stdout = corpusMessage c f ∧
      (run launch call fs).stderr = note := by
  obtain ⟨hconsole, hlog⟩ := Session.run_silent hr
  rw [run_begun h hb, hr]
  simp [sessionOutcome, Outcome.noted, hconsole, hlog, linesOf]

theorem sessionOutcome_exit (c : Config)
    (result : Except Session.Fault (Report RunFault)) (w : World) :
    (sessionOutcome c result w).exit = 0 ∨ (sessionOutcome c result w).exit = 1 := by
  cases result with
  | ok report =>
    change report.exitCode = 0 ∨ report.exitCode = 1
    rw [Report.exitCode]
    split
    · exact .inl rfl
    · exact .inr rfl
  | error f => cases f <;> exact .inr rfl

theorem sessionOutcome_exit_eq_zero_iff (c : Config)
    (result : Except Session.Fault (Report RunFault)) (w : World) :
    (sessionOutcome c result w).exit = 0 ↔
      ∃ report, result = .ok report ∧ ∀ r ∈ report.cases, r.passed = true := by
  cases result with
  | ok report =>
    change report.exitCode = 0 ↔ _
    simp [Report.exitCode_eq_zero_iff]
  | error f => cases f <;> simp [sessionOutcome]

/-- What is promised of a session command. It succeeds exactly if its session comes to a report in
which there are cases and all of them passed. What keeps the first case from being run is told as an
error and nothing else is said, but for a corpus without cases: that is told in place of the cases,
and of cases that failed there is no other word than theirs. No line looks like an error then, unless
the path in the note has a line break. -/
structure SessionStatus (launch : Program.Launch) (call : Call) (flags : Flags) (fs : FileSystem)
    (o : Outcome) : Prop where
  exit : o.exit = 0 ∨ o.exit = 1
  success : o.exit = 0 ↔ ∃ note c fs' logger report w, Begins call flags fs note c fs' logger ∧
    sessionOf launch call c fs' logger = (.ok report, w) ∧ report.cases ≠ [] ∧
    ∀ r ∈ report.cases, r.passed = true
  course : (∃ note c fs' logger, Begins call flags fs note c fs' logger) ∨
    ∃ note message, Hindered call flags fs note message
  note : ∀ note c fs' logger, Begins call flags fs note c fs' logger →
    note = "" ∨ ∃ path, note = usingNote path ∧
      (path = flags.config ∨ locate? fs (call.searchDirs fs) = some path)
  hindered : ∀ note message, Hindered call flags fs note message →
    o.exit = 1 ∧ o.stdout = "" ∧ o.stderr = note ++ "Error: " ++ message ++ "\n"
  uncleared : ∀ note c fs' logger dir e w, Begins call flags fs note c fs' logger →
    sessionOf launch call c fs' logger = (.error (.outputDir dir e), w) →
    o.exit = 1 ∧ o.stdout = "" ∧
      o.stderr = note ++ "Error: " ++ (Session.Fault.outputDir dir e).message ++ "\n"
  corpus : ∀ note c fs' logger f w, Begins call flags fs note c fs' logger →
    sessionOf launch call c fs' logger = (.error (.corpus f), w) →
    o.exit = 1 ∧ o.stdout = corpusMessage c f ∧ o.stderr = note
  reported : ∀ note c fs' logger report w, Begins call flags fs note c fs' logger →
    sessionOf launch call c fs' logger = (.ok report, w) →
    o.stdout = Console.text call.tty report ∧
      ∃ lines, o.stderr = note ++ lines ∧ ¬ HasErrorLine lines
  quiet : ∀ note c fs' logger, Begins call flags fs note c fs' logger →
    (∀ path, note = usingNote path → '\n' ∉ path.toList) →
    (∀ dir e, (sessionOf launch call c fs' logger).1 ≠ .error (.outputDir dir e)) →
    ¬ HasErrorLine o.stderr

/-- Whatever files, variables, settings and flags a session command is run with, its status and what
it prints are as promised. -/
theorem run_session_status (launch : Program.Launch) {call : Call} {flags : Flags}
    (h : Asks call .session flags []) (fs : FileSystem) :
    SessionStatus launch call flags fs (run launch call fs) where
  exit := by
    obtain ⟨note, c, fs', logger, hb⟩ | ⟨note, message, hh⟩ := begins_or_hindered call flags fs
    · rw [run_begun h hb]
      exact sessionOutcome_exit c _ _
    · rw [run_hindered h hh]
      exact .inr rfl
  success := by
    constructor
    · intro hzero
      obtain ⟨note, c, fs', logger, hb⟩ | ⟨note, message, hh⟩ := begins_or_hindered call flags fs
      · rw [run_begun h hb] at hzero
        obtain ⟨report, hr, hall⟩ := (sessionOutcome_exit_eq_zero_iff c _ _).mp hzero
        have hrun : sessionOf launch call c fs' logger =
            (.ok report, (sessionOf launch call c fs' logger).2) := Prod.ext hr rfl
        -- All cases of an empty report would have passed, but there is none such.
        exact ⟨note, c, fs', logger, report, _, hb, hrun, Session.cases_ne_nil hrun, hall⟩
      · rw [run_hindered h hh] at hzero
        cases hzero
    · rintro ⟨note, c, fs', logger, report, w, hb, hr, _, hall⟩
      rw [exit_of_report h hb hr]
      exact report.exitCode_eq_zero_iff.mpr hall
  course := begins_or_hindered call flags fs
  note note c fs' logger hb := by
    obtain ⟨s, hs, _⟩ := hb.config
    exact note_of_settingsOf call flags fs hs
  hindered note message hh := by
    rw [run_hindered h hh]
    exact ⟨rfl, rfl, rfl⟩
  uncleared note c fs' logger dir e w hb hr := by
    obtain ⟨hconsole, hlog⟩ := Session.run_silent hr
    rw [run_begun h hb, hr]
    simp [sessionOutcome, Outcome.noted, hconsole, hlog, linesOf, String.append_assoc]
  corpus note c fs' logger f w hb hr := run_without_corpus h hb hr
  reported note c fs' logger report w hb hr := by
    have hshows := Session.run_shows hr
    rw [run_begun h hb, hr]
    exact ⟨hshows.console, _, rfl, not_hasErrorLine_linesOf hshows.lines⟩
  quiet note c fs' logger hb hpath hcleared := by
    have hlines : ¬ HasErrorLine (sessionOutcome c (sessionOf launch call c fs' logger).1
        (sessionOf launch call c fs' logger).2).stderr := by
      rcases hr : sessionOf launch call c fs' logger with ⟨f | report, w⟩
      · cases f with
        | outputDir dir e => exact absurd (congrArg Prod.fst hr) (hcleared dir e)
        | corpus f =>
          have hlog : ∀ line ∈ w.log, Log.IsLine line := by
            rw [(Session.run_silent hr).2]
            exact fun line hline => absurd hline List.not_mem_nil
          exact not_hasErrorLine_linesOf hlog
      · exact not_hasErrorLine_linesOf (Session.run_shows hr).lines
    rw [run_begun h hb, Outcome.noted]
    obtain ⟨s, hs, _⟩ := hb.config
    obtain rfl | ⟨path, rfl, _⟩ := note_of_settingsOf call flags fs hs
    · rw [String.empty_append]
      exact hlines
    · exact not_hasErrorLine_usingNote (hpath path rfl) hlines

end Course

def plainConfig : Config where
  root := "/x"
  corpusDir := "/x/testFiles"
  corpusExt := ".asm"
  artifactExt := ".hex"
  timing := .default
  tools := Config.defaultTools.map (Tool.resolved "/x")
  log := { level := "warn" }

theorem load_plain : Settings.load (settingsWith showCall {} []) (.ok "/w") (.ok "/x") = .ok plainConfig := by
  have hload : (Settings.load (settingsWith showCall {} []) (.ok "/w") (.ok "/x")).toOption =
      some plainConfig := by
    rw [Settings.load, Store.settings, showCall_keys]
    decide +kernel
  cases hc : Settings.load (settingsWith showCall {} []) (.ok "/w") (.ok "/x") with
  | error f =>
    rw [hc] at hload
    cases hload
  | ok c =>
    rw [hc] at hload
    cases hload
    rfl

def plainFiles : FileSystem where
  nodes := [([], .dir 0o755), (["w"], .dir 0o755), (["x"], .dir 0o755)]
  nextId := 0
  cwd := ["w"]
  mounts := []
  privileged := false

/-- A call that names a configuration file, which has to be there and may be empty. -/
def givenCall (name : String) : Call := { showCall with args := ["--config", name] }

def givenFiles (name : String) (nodes : List (Location × Node)) : FileSystem :=
  { plainFiles with
    nodes := plainFiles.nodes ++ (["w", name], .file 0 0o644 "".toUTF8) :: nodes
    nextId := 5 }

theorem givenCall_asks (name : String) : Asks (givenCall name) .session { config := name } [] :=
  ⟨⟨["--config", name], rfl, rfl⟩, rfl, rfl⟩

theorem begins_given {name : String} {nodes : List (Location × Node)} (hname : name ≠ "")
    (hempty : (readGiven showCall.decoders (givenFiles name nodes) name).toOption.map (·.isEmpty) =
      some true) :
    Begins (givenCall name) { config := name } (givenFiles name nodes) (usingNote name) plainConfig
      (givenFiles name nodes) { threshold := .warn } := by
  have hgiven : readGiven showCall.decoders (givenFiles name nodes) name = .ok [] := by
    cases hr : readGiven showCall.decoders (givenFiles name nodes) name with
    | error f =>
      rw [hr] at hempty
      cases hempty
    | ok fields =>
      rw [hr] at hempty
      rw [List.isEmpty_iff.mp (Option.some.inj hempty)]
  have hread : readConfig (givenCall name) { config := name } (givenFiles name nodes) =
      .ok ([], usingNote name) := by
    rw [readConfig, if_pos hname]
    exact congrArg (Except.map _) hgiven
  have hdir : Runner.workingDir (givenFiles name nodes) = "/w" := by
    rw [Runner.workingDir]
    exact rfl
  refine ⟨⟨_, settingsOf_eq hread, ?_⟩, rfl⟩
  rw [loadConfig, hdir]
  exact load_plain

theorem sessionOf_missing {fs : FileSystem} (hreset : Session.reset fs plainConfig.tools = (fs, none))
    (hmissing : Corpus.discover fs plainConfig.corpusDir plainConfig.corpusExt =
      .error (.notFound "/x/testFiles")) (launch : Program.Launch) (call : Call) :
    sessionOf launch call plainConfig fs { threshold := .warn } =
      (.error (.corpus (.notFound "/x/testFiles")), { fs }) := by
  rw [sessionOf, Session.run]
  simp only [Session.standard_files, Session.standard_setFiles, hreset, hmissing]

/-- The programs of the two tools, and some sources. -/
def casedFiles (sources : List String) : FileSystem :=
  givenFiles "c.yaml"
    ([(["x", "assembler.exe"], .file 1 0o755 "".toUTF8), (["x", "Dsm51Ass.exe"], .file 2 0o755 "".toUTF8),
        (["x", "testFiles"], .dir 0o755)] ++
      sources.map fun name => (["x", "testFiles", name], .file 3 0o644 "nop".toUTF8))

def casedTests : List TestCase :=
  [⟨"p.asm", "p", "/x/testFiles/p.asm"⟩, ⟨"q.asm", "q", "/x/testFiles/q.asm"⟩]

/-- Both tools write the same artifact for each source but `q.asm`, which they refuse. -/
def caseLaunch : Program.Launch := fun fs cmd =>
  let base := Path.stem cmd.input
  if base = "q" then { fs, ending := .status 1 }
  else { fs := fs.addFile ["x", "testFiles", base ++ ".hex"] 0o644 "00".toUTF8, ending := .clean }

def casedSession (sources : List String) (tests : List TestCase) : Report RunFault × World :=
  Session.runOver (Session.standard caseLaunch false (givenCall "c.yaml").tty
    (Session.sessionLogger { threshold := .warn } (givenCall "c.yaml").sessionId) plainConfig)
    plainConfig tests { fs := casedFiles sources }

theorem passed_casedSession : (casedSession ["p.asm"] (casedTests.take 1)).1.cases ≠ [] ∧
    ∀ r ∈ (casedSession ["p.asm"] (casedTests.take 1)).1.cases, r.passed = true := by
  decide +kernel

theorem failed_casedSession : (casedSession ["p.asm", "q.asm"] casedTests).1.exitCode = 1 ∧
    Console.text (givenCall "c.yaml").tty (casedSession ["p.asm", "q.asm"] casedTests).1 =
      "Running tests\n OK p.asm\n X q.asm\n\nPassed: 1/2\n" := by
  decide +kernel

theorem opens_casedFiles (sources : List String) :
    Corpus.Opens (casedFiles sources) plainConfig.corpusDir ["x", "testFiles"] :=
  ⟨rfl, 0o755, rfl, rfl⟩

theorem sessionOf_casedFiles {sources : List String} {tests : List TestCase}
    (hreset : Session.reset (casedFiles sources) plainConfig.tools = (casedFiles sources, none))
    (hcases : Corpus.discover (casedFiles sources) plainConfig.corpusDir plainConfig.corpusExt =
      .ok tests) :
    sessionOf caseLaunch (givenCall "c.yaml") plainConfig (casedFiles sources) { threshold := .warn } =
      (.ok (casedSession sources tests).1, (casedSession sources tests).2) :=
  Session.run_of_discover hreset hcases

theorem sessionOf_passing :
    sessionOf caseLaunch (givenCall "c.yaml") plainConfig (casedFiles ["p.asm"])
      { threshold := .warn } = (.ok (casedSession ["p.asm"] (casedTests.take 1)).1,
        (casedSession ["p.asm"] (casedTests.take 1)).2) := by
  have hchildren : (casedFiles ["p.asm"]).children ["x", "testFiles"] = ["p.asm"] :=
    List.mergeSort_of_pairwise (by decide)
  refine sessionOf_casedFiles rfl ?_
  rw [Corpus.discover_of_opens (opens_casedFiles _), Corpus.chosen, hchildren]
  decide +kernel

theorem sessionOf_failing :
    sessionOf caseLaunch (givenCall "c.yaml") plainConfig (casedFiles ["p.asm", "q.asm"])
      { threshold := .warn } = (.ok (casedSession ["p.asm", "q.asm"] casedTests).1,
        (casedSession ["p.asm", "q.asm"] casedTests).2) := by
  have hchildren : (casedFiles ["p.asm", "q.asm"]).children ["x", "testFiles"] =
      ["p.asm", "q.asm"] := List.mergeSort_of_pairwise (by decide)
  refine sessionOf_casedFiles rfl ?_
  rw [Corpus.discover_of_opens (opens_casedFiles _), Corpus.chosen, hchildren]
  decide +kernel

theorem run_session_status_sample :
    Asks (givenCall "c.yaml") .session { config := "c.yaml" } [] ∧
    ((run caseLaunch (givenCall "c.yaml") (givenFiles "c.yaml" [])).exit = 1 ∧
      (run caseLaunch (givenCall "c.yaml") (givenFiles "c.yaml" [])).stdout =
        "Error: testFiles folder not found\n" ∧
      (run caseLaunch (givenCall "c.yaml") (givenFiles "c.yaml" [])).stderr =
        "Using config file: c.yaml\n") ∧
    (run caseLaunch (givenCall "c.yaml") (casedFiles ["p.asm"])).exit = 0 ∧
    ((run caseLaunch (givenCall "c.yaml") (casedFiles ["p.asm", "q.asm"])).exit = 1 ∧
      (run caseLaunch (givenCall "c.yaml") (casedFiles ["p.asm", "q.asm"])).stdout =
        "Running tests\n OK p.asm\n X q.asm\n\nPassed: 1/2\n" ∧
      ¬ HasErrorLine (run caseLaunch (givenCall "c.yaml") (casedFiles ["p.asm", "q.asm"])).stderr) := by
  have hasks := givenCall_asks "c.yaml"
  have hreset : Session.reset (givenFiles "c.yaml" []) plainConfig.tools =
      (givenFiles "c.yaml" [], none) := rfl
  have hmissing : Corpus.discover (givenFiles "c.yaml" []) plainConfig.corpusDir
      plainConfig.corpusExt = .error (.notFound "/x/testFiles") := by decide +kernel
  have hbare := @begins_given "c.yaml" [] (by decide) (by decide +kernel)
  have hpassing : Begins (givenCall "c.yaml") { config := "c.yaml" } (casedFiles ["p.asm"])
      (usingNote "c.yaml") plainConfig (casedFiles ["p.asm"]) { threshold := .warn } :=
    begins_given (by decide) (by decide +kernel)
  have hfailing : Begins (givenCall "c.yaml") { config := "c.yaml" } (casedFiles ["p.asm", "q.asm"])
      (usingNote "c.yaml") plainConfig (casedFiles ["p.asm", "q.asm"]) { threshold := .warn } :=
    begins_given (by decide) (by decide +kernel)
  have hstatus := run_session_status caseLaunch hasks (casedFiles ["p.asm", "q.asm"])
  refine ⟨hasks, (run_session_status caseLaunch hasks (givenFiles "c.yaml" [])).corpus _ _ _ _ _ _
    hbare (sessionOf_missing hreset hmissing _ _), ?_, ?_, ?_, ?_⟩
  · exact (run_session_status caseLaunch hasks (casedFiles ["p.asm"])).success.mpr
      ⟨_, _, _, _, _, _, hpassing, sessionOf_passing, passed_casedSession⟩
  · exact (exit_of_report hasks hfailing sessionOf_failing).trans failed_casedSession.1
  · exact (hstatus.reported _ _ _ _ _ _ hfailing sessionOf_failing).1.trans failed_casedSession.2
  · refine hstatus.quiet _ _ _ _ hfailing (fun path hpath => ?_) fun dir e hf => ?_
    · rw [← usingNote_inj hpath]
      decide
    · rw [sessionOf_failing] at hf
      cases hf

/-- A configuration file with a line break in its name. -/
def brokenName : String := "a\nError: b.yaml"

/-- Although nothing but the corpus is missing, a line on standard error looks like an error. -/
theorem run_notes_error_line :
    Asks (givenCall brokenName) .session { config := brokenName } [] ∧
    Begins (givenCall brokenName) { config := brokenName } (givenFiles brokenName [])
      (usingNote brokenName) plainConfig (givenFiles brokenName []) { threshold := .warn } ∧
    (run caseLaunch (givenCall brokenName) (givenFiles brokenName [])).exit = 1 ∧
    (run caseLaunch (givenCall brokenName) (givenFiles brokenName [])).stdout =
      "Error: testFiles folder not found\n" ∧
    HasErrorLine (run caseLaunch (givenCall brokenName) (givenFiles brokenName [])).stderr := by
  have hasks := givenCall_asks brokenName
  have hbegins := @begins_given brokenName [] (by decide) (by decide +kernel)
  have hreset : Session.reset (givenFiles brokenName []) plainConfig.tools =
      (givenFiles brokenName [], none) := rfl
  have hmissing : Corpus.discover (givenFiles brokenName []) plainConfig.corpusDir
      plainConfig.corpusExt = .error (.notFound "/x/testFiles") := by decide +kernel
  obtain ⟨hexit, hstdout, hstderr⟩ := run_without_corpus hasks hbegins
    (sessionOf_missing hreset hmissing caseLaunch (givenCall brokenName))
  refine ⟨hasks, hbegins, hexit, hstdout, ?_⟩
  rw [hstderr]
  exact ⟨"Using config file: a\n".toList, " b.yaml\n".toList, by decide, .inr (by decide)⟩

end Crosscheck.Cli
