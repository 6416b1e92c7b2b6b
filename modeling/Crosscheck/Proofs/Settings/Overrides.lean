import Crosscheck.Proofs.Settings.Layers

namespace Crosscheck.Settings

inductive SpelledAs : Duration → Value → Prop
  | text {d : Duration} {s : String} (h : Duration.parse s = .ok d) : SpelledAs d (.text s)
  | number (d : Duration) : SpelledAs d (.int d.ns)

theorem SpelledAs.decodeDuration {d : Duration} {v : Value} (h : SpelledAs d v) (field : String) :
    decodeDuration field v = ⟨d, []⟩ := by
  cases h with
  | text h => rw [Settings.decodeDuration, h]
  | number => rfl

theorem lowered_of_lookup {α : Type} {wrap : α → Value} (hwrap : ∀ x, (wrap x).Lowered)
    {fields : Fields} {k : String} {x : Option α} (h : lookup fields [k] = x.map wrap) {v : Value}
    (hget : fields.get? k = some v) : v.Lowered := by
  obtain rfl | hlookup := eq_null_or_lookup hget
  · rfl
  · rw [h, Option.map_eq_some_iff] at hlookup
    obtain ⟨x, _, rfl⟩ := hlookup
    exact hwrap x

structure ToolEntry where
  name : Option String := none
  path : Option String := none
  role : Option String := none
  outputDir : Option String := none
  dismissWindow : Option Bool := none
  windowTitle : Option String := none
  byproducts : Option (List String) := none

namespace ToolEntry

def tool (e : ToolEntry) (root : String) : Tool where
  name := e.name.getD ""
  path := resolvePath root (e.path.getD "")
  role := ⟨e.role.getD ""⟩
  outputDir := resolvePath root (e.outputDir.getD "")
  dismissWindow := e.dismissWindow.getD false
  windowTitle := e.windowTitle.getD ""
  byproducts := e.byproducts.getD Config.defaultByproducts

def fieldNames : List String :=
  ["name", "path", "role", "output_dir", "dismiss_window", "window_title", "byproducts"]

/-- Fields that say just what an entry does. -/
structure WrittenAs (e : ToolEntry) (fields : Fields) : Prop where
  names : Named fieldNames fields
  name : lookup fields ["name"] = e.name.map .text
  path : lookup fields ["path"] = e.path.map .text
  role : lookup fields ["role"] = e.role.map .text
  outputDir : lookup fields ["output_dir"] = e.outputDir.map .text
  dismissWindow : lookup fields ["dismiss_window"] = e.dismissWindow.map .bool
  windowTitle : lookup fields ["window_title"] = e.windowTitle.map .text
  byproducts : lookup fields ["byproducts"] = e.byproducts.map fun ss => .list (ss.map .text)

def draft (e : ToolEntry) : ToolDraft where
  tool :=
    { name := e.name.getD "", path := e.path.getD "", role := ⟨e.role.getD ""⟩
      outputDir := e.outputDir.getD "", dismissWindow := e.dismissWindow.getD false
      windowTitle := e.windowTitle.getD "" }
  byproducts := e.byproducts

theorem fieldNames_fold : ∀ a ∈ fieldNames, ∀ b ∈ fieldNames,
    Text.sameFolded a b = true → a = b := by
  decide +kernel

theorem fieldNamed_eq {fields : Fields} (h : Named fieldNames fields) {k : String}
    (hk : k ∈ fieldNames) : fieldNamed fields k = (lookup fields [k]).getD .null := by
  rw [fieldNamed, lookup_single]
  cases hget : fields.get? k with
  | some v => cases v <;> rfl
  | none =>
    have hnone : (fields.find? fun f => Text.sameFolded f.1 k) = none := by
      rw [List.find?_eq_none]
      intro f hf hfold
      have hname := fieldNames_fold _ (h.known f hf) k hk hfold
      have hsome := h.get? hf
      rw [hname, hget] at hsome
      cases hsome
    rw [hnone]
    rfl

theorem decodeText_getD (wanted field : String) (s : Option String) :
    decodeText wanted field ((s.map Value.text).getD .null) = ⟨s.getD "", []⟩ := by
  cases s <;> rfl

theorem WrittenAs.decodeTool {e : ToolEntry} {fields : Fields} (h : e.WrittenAs fields)
    (field : String) : decodeTool field (.map fields) = ⟨e.draft, []⟩ := by
  have hat := fun k hk => @fieldNamed_eq fields h.names k hk
  simp only [fieldNames, List.mem_cons, List.not_mem_nil, or_false, forall_eq_or_imp,
    forall_eq] at hat
  have hflag (field : String) : decodeFlag field ((e.dismissWindow.map Value.bool).getD .null) =
      ⟨e.dismissWindow.getD false, []⟩ := by
    cases e.dismissWindow <;> rfl
  have hlist (field : String) : decodeList field (decodeText "string")
      ((e.byproducts.map fun ss => Value.list (ss.map .text)).getD .null) = ⟨e.byproducts, []⟩ := by
    cases e.byproducts with
    | none => rfl
    | some ss => exact decodeList_texts field ss
  simp only [Settings.decodeTool, decodeFields, hat, h.name, h.path, h.role, h.outputDir,
    h.dismissWindow, h.windowTitle, h.byproducts, decodeText_getD, hflag, hlist, draft,
    List.append_nil]

theorem WrittenAs.lowered {e : ToolEntry} {fields : Fields} (h : e.WrittenAs fields) :
    (Value.map fields).Lowered := by
  have hsub : ∀ k ∈ fieldNames, k ∈ Settings.fieldNames := by decide
  have hvalue : ∀ k ∈ fieldNames, ∀ v, fields.get? k = some v → v.Lowered := by
    simp only [fieldNames, List.mem_cons, List.not_mem_nil, or_false, forall_eq_or_imp, forall_eq]
    exact ⟨fun _ => lowered_of_lookup Value.lowered_text h.name,
      fun _ => lowered_of_lookup Value.lowered_text h.path,
      fun _ => lowered_of_lookup Value.lowered_text h.role,
      fun _ => lowered_of_lookup Value.lowered_text h.outputDir,
      fun _ => lowered_of_lookup Value.lowered_bool h.dismissWindow,
      fun _ => lowered_of_lookup Value.lowered_text h.windowTitle,
      fun _ => lowered_of_lookup (Value.lowered_map_list Value.lowered_text) h.byproducts⟩
  apply Plain.lowered
  intro f hf
  have hname := h.names.known f hf
  exact ⟨hsub _ hname, hvalue _ hname _ (h.names.get? hf)⟩

def ListedAs (entries : List ToolEntry) (v : Value) : Prop :=
  ∃ items : List Fields, v = .list (items.map .map) ∧ List.Forall₂ WrittenAs entries items

theorem ListedAs.decodeList {entries : List ToolEntry} {v : Value} (h : ListedAs entries v) :
    decodeList "tools" Settings.decodeTool v = ⟨some (entries.map draft), []⟩ := by
  obtain ⟨items, rfl, hitems⟩ := h
  have heach : ∀ i, decodeEach "tools" Settings.decodeTool i (items.map .map) =
      ⟨entries.map draft, []⟩ := by
    induction hitems with
    | nil => intro i; rfl
    | cons hentry _ ih =>
      intro i
      rw [List.map_cons, decodeEach, hentry.decodeTool, ih]
      rfl
  rw [Settings.decodeList, listItems?]
  dsimp only
  rw [heach]

theorem ListedAs.lowered {entries : List ToolEntry} {v : Value} (h : ListedAs entries v) :
    v.Lowered := by
  obtain ⟨items, rfl, hitems⟩ := h
  have hall : ∀ fields ∈ items, (Value.map fields).Lowered := by
    induction hitems with
    | nil => simp
    | cons hentry _ ih => exact List.forall_mem_cons.mpr ⟨hentry.lowered, ih⟩
  exact Value.lowered_list (by simpa using hall)

end ToolEntry

structure Overrides where
  root : Option String := none
  corpusDir : Option String := none
  corpusExt : Option String := none
  artifactExt : Option String := none
  processTimeout : Option Duration := none
  dismissGrace : Option Duration := none
  dismissInterval : Option Duration := none
  watcherStopTimeout : Option Duration := none
  tools : Option (List ToolEntry) := none
  level : Option String := none
  file : Option String := none

namespace Overrides

/-- The configuration that comes of overrides: what is not given is as usual, and the paths of the
corpus and of the tools are resolved against the root that holds. The file of the log is taken as it
is given. -/
def config (o : Overrides) (cwd exeDir : String) : Config :=
  let root := Path.abs cwd (if o.root.getD "" = "" then exeDir else o.root.getD "")
  { root
    corpusDir := resolvePath root (o.corpusDir.getD "testFiles")
    corpusExt := o.corpusExt.getD ".asm"
    artifactExt := o.artifactExt.getD ".hex"
    timing :=
      { processTimeout := o.processTimeout.getD Timing.default.processTimeout
        dismissGrace := o.dismissGrace.getD Timing.default.dismissGrace
        dismissInterval := o.dismissInterval.getD Timing.default.dismissInterval
        watcherStopTimeout := o.watcherStopTimeout.getD Timing.default.watcherStopTimeout }
    tools := match o.tools with
      | some entries => entries.map (·.tool root)
      | none => Config.defaultTools.map (·.resolved root)
    log := { level := o.level.getD "warn", file := o.file.getD "" } }

/-- A configuration file that gives just these values, in any order. -/
structure WrittenAs (o : Overrides) (file : Fields) : Prop where
  names : Named (singleKeys ++ parts) file
  parts : ∀ part ∈ parts, ∀ v, file.get? part = some v →
    ∃ inner, v = .map inner ∧ Named (namesIn part) inner
  root : lookup file ["root"] = o.root.map .text
  corpusDir : lookup file ["corpus", "dir"] = o.corpusDir.map .text
  corpusExt : lookup file ["corpus", "extension"] = o.corpusExt.map .text
  artifactExt : lookup file ["artifact", "extension"] = o.artifactExt.map .text
  processTimeout : Option.Rel SpelledAs o.processTimeout (lookup file ["timing", "process_timeout"])
  dismissGrace : Option.Rel SpelledAs o.dismissGrace (lookup file ["timing", "dismiss_grace"])
  dismissInterval :
    Option.Rel SpelledAs o.dismissInterval (lookup file ["timing", "dismiss_interval"])
  watcherStopTimeout :
    Option.Rel SpelledAs o.watcherStopTimeout (lookup file ["timing", "watcher_stop_timeout"])
  tools : Option.Rel ToolEntry.ListedAs o.tools (lookup file ["tools"])
  level : lookup file ["log", "level"] = o.level.map .text
  file : lookup file ["log", "file"] = o.file.map .text

theorem leaf_of_text {x : Option String} {found : Option Value} (h : found = x.map .text)
    {v : Value} (hv : found = some v) : v.isMap = false ∧ v.Lowered := by
  rw [h, Option.map_eq_some_iff] at hv
  obtain ⟨s, _, rfl⟩ := hv
  exact ⟨rfl, rfl⟩

theorem leaf_of_rel {α : Type} {R : α → Value → Prop}
    (hleaf : ∀ x v, R x v → v.isMap = false ∧ v.Lowered) {x : Option α} {found : Option Value}
    (h : Option.Rel R x found) {v : Value} (hv : found = some v) : v.isMap = false ∧ v.Lowered := by
  subst hv
  cases h with
  | some h => exact hleaf _ _ h

theorem WrittenAs.documented {o : Overrides} {file : Fields} (h : o.WrittenAs file) :
    Documented file := by
  have hduration : ∀ d v, SpelledAs d v → v.isMap = false ∧ v.Lowered := by
    rintro d v (_ | _) <;> exact ⟨rfl, rfl⟩
  have htools : ∀ entries v, ToolEntry.ListedAs entries v → v.isMap = false ∧ v.Lowered := by
    intro entries v hlisted
    obtain ⟨items, hv, _⟩ := id hlisted
    exact ⟨hv ▸ rfl, hlisted.lowered⟩
  refine ⟨h.names, h.parts, fun key hkey v hv => ?_⟩
  obtain hsingle | ⟨k, hpair, rfl⟩ := settingKeys_cases key hkey
  · rw [(singleKeys_spec key hsingle).2.2] at hv
    simp only [singleKeys, List.mem_cons, List.not_mem_nil, or_false] at hsingle
    obtain rfl | rfl := hsingle
    · exact leaf_of_text h.root hv
    · exact leaf_of_rel htools h.tools hv
  · rw [(partKeys_spec k hpair).2.2.1] at hv
    simp only [partKeys, List.mem_cons, List.not_mem_nil, or_false] at hpair
    obtain rfl | rfl | rfl | rfl | rfl | rfl | rfl | rfl | rfl := hpair
    · exact leaf_of_text h.artifactExt hv
    · exact leaf_of_text h.corpusDir hv
    · exact leaf_of_text h.corpusExt hv
    · exact leaf_of_text h.file hv
    · exact leaf_of_text h.level hv
    · exact leaf_of_rel hduration h.dismissGrace hv
    · exact leaf_of_rel hduration h.dismissInterval hv
    · exact leaf_of_rel hduration h.processTimeout hv
    · exact leaf_of_rel hduration h.watcherStopTimeout hv

/-- The tools as they are decoded. A list that is given takes the place of the usual one. -/
def toolDrafts : Option (List ToolEntry) → List ToolDraft
  | some entries => entries.map ToolEntry.draft
  | none => Config.defaultTools.map draftOf

def draft (o : Overrides) : Draft where
  root := o.root.getD ""
  corpusDir := o.corpusDir.getD "testFiles"
  corpusExt := o.corpusExt.getD ".asm"
  artifactExt := o.artifactExt.getD ".hex"
  timing :=
    { processTimeout := o.processTimeout.getD Timing.default.processTimeout
      dismissGrace := o.dismissGrace.getD Timing.default.dismissGrace
      dismissInterval := o.dismissInterval.getD Timing.default.dismissInterval
      watcherStopTimeout := o.watcherStopTimeout.getD Timing.default.watcherStopTimeout }
  tools := toolDrafts o.tools
  log := { level := o.level.getD "warn", file := o.file.getD "" }

theorem finish_draft (o : Overrides) (cwd exeDir : String) :
    o.draft.finish (Path.abs cwd (if o.root.getD "" = "" then exeDir else o.root.getD "")) =
      o.config cwd exeDir := by
  rw [Draft.finish, config, draft]
  cases o.tools with
  | none => rfl
  | some entries =>
    dsimp only [toolDrafts]
    rw [List.map_map]
    rfl

/-- The tree of all settings. The values that can be written in several ways are left open. -/
def tree (o : Overrides) (grace interval timeout stop tools : Value) : Fields :=
  [("tools", tools),
    ("timing", .map [("watcher_stop_timeout", stop), ("process_timeout", timeout),
      ("dismiss_interval", interval), ("dismiss_grace", grace)])] ++
  (o.root.map fun s => ("root", Value.text s)).toList ++
  [("log", .map (("level", .text (o.level.getD "warn")) ::
      (o.file.map fun s => ("file", Value.text s)).toList)),
    ("corpus", .map [("extension", .text (o.corpusExt.getD ".asm")),
      ("dir", .text (o.corpusDir.getD "testFiles"))]),
    ("artifact", .map [("extension", .text (o.artifactExt.getD ".hex"))])]

section Decoding

variable {o : Overrides} {grace interval timeout stop tools : Value}
  (hgrace : ∀ field, decodeDuration field grace = ⟨o.draft.timing.dismissGrace, []⟩)
  (hinterval : ∀ field, decodeDuration field interval = ⟨o.draft.timing.dismissInterval, []⟩)
  (htimeout : ∀ field, decodeDuration field timeout = ⟨o.draft.timing.processTimeout, []⟩)
  (hstop : ∀ field, decodeDuration field stop = ⟨o.draft.timing.watcherStopTimeout, []⟩)

include hgrace hinterval htimeout hstop

theorem decodeTiming_tree :
    decodeTiming (.map [("watcher_stop_timeout", stop), ("process_timeout", timeout),
      ("dismiss_interval", interval), ("dismiss_grace", grace)]) = ⟨o.draft.timing, []⟩ := by
  simp [decodeTiming, decodeFields, fieldNamed, Fields.get?, hgrace, hinterval, htimeout, hstop]

theorem decode_tree (htools : decodeList "tools" decodeTool tools = ⟨some o.draft.tools, []⟩) :
    decode (o.tree grace interval timeout stop tools) = ⟨o.draft, []⟩ := by
  have htiming := decodeTiming_tree hgrace hinterval htimeout hstop
  have hroot : ∀ k ∈ ["tools", "timing", "log", "corpus", "artifact"],
      Text.sameFolded k "root" = false := by
    decide +kernel
  have hfile : Text.sameFolded "level" "file" = false := by decide +kernel
  simp only [List.mem_cons, List.not_mem_nil, or_false, forall_eq_or_imp, forall_eq] at hroot
  cases ho : o.root <;> cases hf : o.file <;>
    simp [decode, tree, ho, hf, decodeFields, fieldNamed, Fields.get?, decodeText, htools, htiming,
      hroot, hfile] <;>
    simp [draft, ho, hf]

end Decoding

theorem text_or (x : Option String) (usual : String) :
    (x.map Value.text).or (some (.text usual)) = some (.text (x.getD usual)) := by
  cases x <;> rfl

theorem exists_duration {x : Option Duration} {found : Option Value}
    (h : Option.Rel SpelledAs x found) (usual : Duration) :
    ∃ v, found.or (some (.duration usual)) = some v ∧
      ∀ field, decodeDuration field v = ⟨x.getD usual, []⟩ := by
  cases h with
  | some h => exact ⟨_, rfl, h.decodeDuration⟩
  | none => exact ⟨_, rfl, fun _ => rfl⟩

theorem decodeTool_toolFields (field : String) (t : Tool) :
    decodeTool field (toolFields t) = ⟨draftOf t, []⟩ := by
  simp [decodeTool, toolFields, draftOf, decodeFields, fieldNamed, Fields.get?, decodeText,
    decodeFlag, decodeList_texts]

theorem exists_tools {x : Option (List ToolEntry)} {found : Option Value}
    (h : Option.Rel ToolEntry.ListedAs x found) :
    ∃ v, found.or (some (.list (Config.defaultTools.map toolFields))) = some v ∧
      decodeList "tools" decodeTool v = ⟨some (toolDrafts x), []⟩ := by
  cases h with
  | some h => exact ⟨_, rfl, h.decodeList⟩
  | none =>
    refine ⟨_, rfl, ?_⟩
    rw [decodeList, listItems?]
    dsimp only
    rw [decodeEach_map decodeTool_toolFields]
    rfl

/-- The tree of settings holds what overrides give, and the defaults for what they do not give. -/
theorem WrittenAs.settings_eq {o : Overrides} {file : Fields} (h : o.WrittenAs file)
    {grace interval timeout stop tools : Value}
    (hgrace : (layered file).get? "timing.dismiss_grace" = some grace)
    (hinterval : (layered file).get? "timing.dismiss_interval" = some interval)
    (htimeout : (layered file).get? "timing.process_timeout" = some timeout)
    (hstop : (layered file).get? "timing.watcher_stop_timeout" = some stop)
    (htools : (layered file).get? "tools" = some tools) :
    (layered file).settings = o.tree grace interval timeout stop tools := by
  have part {key part name : String} (hk : (key, part, name) ∈ partKeys) :=
    h.documented.get?_layered_part hk
  have hartifactExt : (layered file).get? "artifact.extension" =
      some (.text (o.artifactExt.getD ".hex")) := by
    rw [@part _ "artifact" "extension" (by decide), h.artifactExt]
    exact text_or _ _
  have hcorpusDir : (layered file).get? "corpus.dir" =
      some (.text (o.corpusDir.getD "testFiles")) := by
    rw [@part _ "corpus" "dir" (by decide), h.corpusDir]
    exact text_or _ _
  have hcorpusExt : (layered file).get? "corpus.extension" =
      some (.text (o.corpusExt.getD ".asm")) := by
    rw [@part _ "corpus" "extension" (by decide), h.corpusExt]
    exact text_or _ _
  have hlevel : (layered file).get? "log.level" = some (.text (o.level.getD "warn")) := by
    rw [@part _ "log" "level" (by decide), h.level]
    exact text_or _ _
  have hfile : (layered file).get? "log.file" = o.file.map .text := by
    rw [@part _ "log" "file" (by decide), h.file]
    exact Option.or_none
  have hroot : (layered file).get? "root" = o.root.map .text := by
    rw [h.documented.get?_layered_single (by decide), h.root]
    exact Option.or_none
  have hpaths : ∀ k ∈ partKeys, keyPath k.1 = [k.2.1, k.2.2] :=
    fun k hk => (partKeys_spec k hk).2.2.1
  have hsingle : ∀ k ∈ singleKeys, keyPath k = [k] := fun k hk => (singleKeys_spec k hk).2.2
  simp only [partKeys, List.mem_cons, List.not_mem_nil, or_false, forall_eq_or_imp,
    forall_eq] at hpaths
  simp only [singleKeys, List.mem_cons, List.not_mem_nil, or_false, forall_eq_or_imp,
    forall_eq] at hsingle
  rw [Store.settings_layered h.documented]
  cases hr : o.root <;> cases hf : o.file <;>
    simp [settingKeys, keysWith, Store.putKey, hartifactExt, hcorpusDir, hcorpusExt, hlevel, hfile,
      hroot, hgrace, hinterval, htimeout, hstop, htools, hpaths, hsingle, hr, hf, Store.putAt,
      Fields.set, Fields.get?, tree]

theorem WrittenAs.decode_settings {o : Overrides} {file : Fields} (h : o.WrittenAs file) :
    decode (layered file).settings = ⟨o.draft, []⟩ := by
  have part {key part name : String} (hk : (key, part, name) ∈ partKeys) :=
    h.documented.get?_layered_part hk
  obtain ⟨timeout, htimeout, hdecode₁⟩ :=
    exists_duration h.processTimeout Timing.default.processTimeout
  obtain ⟨grace, hgrace, hdecode₂⟩ := exists_duration h.dismissGrace Timing.default.dismissGrace
  obtain ⟨interval, hinterval, hdecode₃⟩ :=
    exists_duration h.dismissInterval Timing.default.dismissInterval
  obtain ⟨stop, hstop, hdecode₄⟩ :=
    exists_duration h.watcherStopTimeout Timing.default.watcherStopTimeout
  obtain ⟨tools, htools, hdecode₅⟩ := exists_tools h.tools
  rw [h.settings_eq ((part (by decide)).trans hgrace) ((part (by decide)).trans hinterval)
    ((part (by decide)).trans htimeout) ((part (by decide)).trans hstop)
    ((h.documented.get?_layered_single (by decide)).trans htools)]
  exact decode_tree hdecode₂ hdecode₃ hdecode₁ hdecode₄ hdecode₅

theorem WrittenAs.load_eq {o : Overrides} {file : Fields} (h : o.WrittenAs file)
    (cwd exeDir : String) :
    load (({ defaults := Settings.defaults } : Store).withConfig file) (.ok cwd) (.ok exeDir) =
      match (o.config cwd exeDir).fault? with
      | some f => .error (.invalid f)
      | none => .ok (o.config cwd exeDir) := by
  rw [h.documented.withConfig_eq, load, h.decode_settings, locateRoot_ok, ← finish_draft]
  rfl

end Overrides

/-- What a configuration file gives is loaded over the defaults setting by setting: each value
decides its own field and no other, and a list of tools takes the place of the usual one. A file
fails to load only if that configuration is not well formed. -/
theorem load_overrides {o : Overrides} {file : Fields} (h : o.WrittenAs file)
    (cwd exeDir : String) (c : Config) :
    load (({ defaults := Settings.defaults } : Store).withConfig file) (.ok cwd) (.ok exeDir) = .ok c ↔
      c = o.config cwd exeDir ∧ c.WellFormed := by
  rw [h.load_eq]
  split
  · rename_i f hf
    constructor
    · intro herror
      cases herror
    · rintro ⟨rfl, hwf⟩
      rw [(Config.fault?_eq_none_iff _).mpr hwf] at hf
      cases hf
  · rename_i hnone
    constructor
    · intro hok
      cases hok
      exact ⟨rfl, (Config.fault?_eq_none_iff _).mp hnone⟩
    · rintro ⟨rfl, _⟩
      rfl

/-- A file with two of the timings, each written in its own way, and with tools of its own. -/
def timedFile : Fields :=
  [("timing", .map [("dismiss_grace", .int 5), ("process_timeout", .text "1m30s")]),
    ("tools", .list
      [.map [("role", .text "reference"), ("name", .text "a"), ("path", .text "x/a"),
        ("output_dir", .text "o/a")],
      .map [("byproducts", .list []), ("name", .text "b"), ("path", .text "/x/b"),
        ("output_dir", .text "o/b"), ("role", .text "candidate")]]),
    ("root", .text "r")]

def timedOverrides : Overrides where
  root := some "r"
  processTimeout := some (.ofNat (90 * Duration.second))
  dismissGrace := some ⟨5⟩
  tools := some
    [{ name := some "a", path := some "x/a", role := some "reference", outputDir := some "o/a" },
      { name := some "b", path := some "/x/b", role := some "candidate", outputDir := some "o/b"
        byproducts := some [] }]

theorem timedOverrides_writtenAs : timedOverrides.WrittenAs timedFile where
  names := ⟨by decide, by decide⟩
  parts := by
    intro part hp v hv
    simp only [parts, List.mem_cons, List.not_mem_nil, or_false] at hp
    obtain rfl | rfl | rfl | rfl := hp
    · cases hv
    · cases hv
    · cases hv
    · cases hv
      exact ⟨_, rfl, by decide, by decide⟩
  root := rfl
  corpusDir := rfl
  corpusExt := rfl
  artifactExt := rfl
  processTimeout := .some (.text (by decide +kernel))
  dismissGrace := .some (.number _)
  dismissInterval := .none
  watcherStopTimeout := .none
  tools := .some ⟨[_, _], rfl, .cons ⟨⟨by decide, by decide⟩, rfl, rfl, rfl, rfl, rfl, rfl, rfl⟩
    (.cons ⟨⟨by decide, by decide⟩, rfl, rfl, rfl, rfl, rfl, rfl, rfl⟩ .nil)⟩
  level := rfl
  file := rfl

theorem load_overrides_timed :
    load (({ defaults := Settings.defaults } : Store).withConfig timedFile) (.ok "/w") (.ok "/x") =
      .ok (timedOverrides.config "/w" "/x") :=
  (load_overrides timedOverrides_writtenAs "/w" "/x" _).mpr
    ⟨rfl, (Config.fault?_eq_none_iff _).mp (by decide +kernel)⟩

def loggedFile : Fields :=
  [("root", .text "/virtual/root"), ("log", .map [("file", .text "asmdiff.log")])]

def loggedOverrides : Overrides where
  root := some "/virtual/root"
  file := some "asmdiff.log"

/-- A relative file for the log is not resolved against the root, although the corpus is. -/
theorem load_keeps_log_file :
    ∃ c,
      load (({ defaults := Settings.defaults } : Store).withConfig loggedFile) (.ok "/w") (.ok "/x") =
        .ok c ∧
      c.root = "/virtual/root" ∧ c.corpusDir = "/virtual/root/testFiles" ∧
      c.log.file = "asmdiff.log" ∧
      resolvePath c.root "asmdiff.log" = "/virtual/root/asmdiff.log" := by
  have hwritten : loggedOverrides.WrittenAs loggedFile := by
    refine ⟨⟨by decide, by decide⟩, fun part hp v hv => ?_, rfl, rfl, rfl, rfl, .none, .none, .none,
      .none, .none, rfl, rfl⟩
    simp only [parts, List.mem_cons, List.not_mem_nil, or_false] at hp
    obtain rfl | rfl | rfl | rfl := hp
    · cases hv
    · cases hv
    · cases hv
      exact ⟨_, rfl, by decide, by decide⟩
    · cases hv
  have hvalid : (loggedOverrides.config "/w" "/x").fault? = none := by decide +kernel
  have hload := hwritten.load_eq "/w" "/x"
  rw [hvalid] at hload
  exact ⟨_, hload, by decide +kernel⟩

end Crosscheck.Settings
