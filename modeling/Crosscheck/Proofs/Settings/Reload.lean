import Crosscheck.Proofs.Duration
import Crosscheck.Proofs.Settings.Store
import Crosscheck.Proofs.Tool
import Crosscheck.Settings.Dump

namespace Crosscheck.Settings

namespace Value

def Lowered (v : Value) : Prop := v.lowerAll = v

theorem mergedLower_eq {fields : Fields} (h : ∀ f ∈ fields, Text.lowered f.1 = f.1) :
    mergedLower fields = fields := by
  have hpart : fields.partition (fun f => Text.lowered f.1 = f.1) = (fields, []) := by
    rw [List.partition_eq_filter_filter, List.filter_eq_self.mpr (by simpa using h),
      List.filter_eq_nil_iff.mpr (by simpa using h)]
  rw [mergedLower, hpart]
  rfl

theorem lowerAllFields_eq {fields : Fields} (h : ∀ f ∈ fields, f.2.Lowered) :
    lowerAll.lowerAllFields fields = fields := by
  induction fields with
  | nil => rfl
  | cons f rest ih =>
    have hf : f.2.lowerAll = f.2 := h f List.mem_cons_self
    rw [lowerAll.lowerAllFields, hf, ih fun x hx => h x (List.mem_cons_of_mem _ hx)]

theorem lowerAllItems_eq {items : List Value} (h : ∀ v ∈ items, v.Lowered) :
    lowerAll.lowerAllItems items = items := by
  induction items with
  | nil => rfl
  | cons v rest ih =>
    have hv : v.lowerAll = v := h v List.mem_cons_self
    rw [lowerAll.lowerAllItems, hv, ih fun x hx => h x (List.mem_cons_of_mem _ hx)]

theorem lowered_map {fields : Fields} (hk : ∀ f ∈ fields, Text.lowered f.1 = f.1)
    (hv : ∀ f ∈ fields, f.2.Lowered) : (map fields).Lowered := by
  rw [Lowered, lowerAll, lowerAllFields_eq hv, mergedLower_eq hk]

theorem lowered_list {items : List Value} (h : ∀ v ∈ items, v.Lowered) : (list items).Lowered := by
  rw [Lowered, lowerAll, lowerAllItems_eq h]

end Value

theorem mem_optionalText {key value : String} {f : String × Value}
    (h : f ∈ optionalText key value) : value ≠ "" ∧ f = (key, .text value) := by
  rw [optionalText] at h
  split at h
  · cases h
  · rename_i hne
    exact ⟨hne, by simpa using h⟩

def fieldNames : List String :=
  ["root", "corpus", "dir", "extension", "artifact", "timing", "process_timeout", "dismiss_grace",
    "dismiss_interval", "watcher_stop_timeout", "tools", "name", "path", "role", "output_dir",
    "dismiss_window", "window_title", "byproducts", "log", "level", "file"]

theorem lowered_fieldNames : ∀ k ∈ fieldNames, Text.lowered k = k := by decide +kernel

/-- Fields with names of that kind, and with values that are in lower case as far as they have
keys. -/
def Plain (fields : Fields) : Prop := ∀ f ∈ fields, f.1 ∈ fieldNames ∧ f.2.Lowered

theorem Plain.append {fields more : Fields} (h : Plain fields) (h' : Plain more) :
    Plain (fields ++ more) := List.forall_mem_append.mpr ⟨h, h'⟩

theorem Plain.lowered {fields : Fields} (h : Plain fields) : (Value.map fields).Lowered :=
  Value.lowered_map (fun f hf => lowered_fieldNames _ (h f hf).1) fun f hf => (h f hf).2

theorem plain_optionalText {key : String} (hk : key ∈ fieldNames) (value : String) :
    Plain (optionalText key value) := by
  intro f hf
  obtain ⟨_, rfl⟩ := mem_optionalText hf
  exact ⟨hk, rfl⟩

theorem Value.lowered_text (s : String) : (Value.text s).Lowered := rfl

theorem Value.lowered_bool (b : Bool) : (Value.bool b).Lowered := rfl

theorem Value.lowered_map_list {α : Type} {f : α → Value} (h : ∀ x, (f x).Lowered) (xs : List α) :
    (Value.list (xs.map f)).Lowered := by
  apply lowered_list
  intro v hv
  obtain ⟨x, _, rfl⟩ := List.mem_map.mp hv
  exact h x

theorem toolTree_lowered (t : Tool) : (toolTree t).Lowered := by
  apply Plain.lowered
  apply Plain.append
  · apply Plain.append
    · simp [Plain, fieldNames, Value.lowered_text, Value.lowered_bool]
    · exact plain_optionalText (by decide) _
  · simp [Plain, fieldNames, Value.lowered_map_list Value.lowered_text]

theorem tree_lowered (c : Config) : (Value.map (tree c)).Lowered := by
  have hcorpus : Plain [("dir", .text c.corpusDir), ("extension", .text c.corpusExt)] := by
    simp [Plain, fieldNames, Value.lowered_text]
  have hartifact : Plain [("extension", .text c.artifactExt)] := by
    simp [Plain, fieldNames, Value.lowered_text]
  have htiming : Plain (c.timing.fields.map fun f => (f.1, .text f.2.render)) := by
    simp [Plain, Timing.fields, fieldNames, Value.lowered_text]
  have hlevel : Plain [("level", .text c.log.level)] := by
    simp [Plain, fieldNames, Value.lowered_text]
  have hlog := hlevel.append (@plain_optionalText "file" (by decide) c.log.file)
  apply Plain.lowered
  simp only [Plain, tree, List.mem_cons, List.not_mem_nil, or_false, forall_eq_or_imp, forall_eq]
  exact ⟨⟨by decide, Value.lowered_text _⟩, ⟨by decide, hcorpus.lowered⟩,
    ⟨by decide, hartifact.lowered⟩, ⟨by decide, htiming.lowered⟩,
    ⟨by decide, Value.lowered_map_list toolTree_lowered _⟩, by decide, hlog.lowered⟩

/-- A store that holds nothing but a configuration as it is shown, and defaults. -/
def reloading (c : Config) (defaults : Fields) : Store := { config := tree c, defaults }

theorem withConfig_tree (c : Config) (defaults : Fields) :
    ({ defaults } : Store).withConfig (tree c) = reloading c defaults := by
  have h : Value.lowerAll (.map (tree c)) = .map (tree c) := tree_lowered c
  rw [Store.withConfig, h]
  rfl

def leaves (c : Config) : List (String × Value) :=
  [("artifact.extension", .text c.artifactExt), ("corpus.dir", .text c.corpusDir),
    ("corpus.extension", .text c.corpusExt)] ++
  optionalText "log.file" c.log.file ++
  [("log.level", .text c.log.level), ("root", .text c.root),
    ("timing.dismiss_grace", .text c.timing.dismissGrace.render),
    ("timing.dismiss_interval", .text c.timing.dismissInterval.render),
    ("timing.process_timeout", .text c.timing.processTimeout.render),
    ("timing.watcher_stop_timeout", .text c.timing.watcherStopTimeout.render),
    ("tools", .list (c.tools.map toolTree))]

def shownKeys : List String :=
  ["log.level", "tools", "timing.watcher_stop_timeout", "timing.dismiss_interval",
    "timing.dismiss_grace", "timing.process_timeout", "artifact.extension", "corpus.extension",
    "corpus.dir", "root"]

theorem lowered_shownKeys : ∀ k ∈ "log.file" :: shownKeys, Text.lowered k = k := by decide +kernel

theorem leafKeysIn_tree (c : Config) :
    Store.leafKeysIn [] "" (tree c) =
      (optionalText "log.file" c.log.file).map (·.1) ++ shownKeys := by
  have hlow := lowered_shownKeys
  simp only [shownKeys, List.mem_cons, List.not_mem_nil, or_false, forall_eq_or_imp,
    forall_eq] at hlow
  by_cases hfile : c.log.file = "" <;>
    simp [tree, optionalText, hfile, Store.leafKeysIn, Store.leafKeys, Timing.fields, hlow, shownKeys]

theorem optionalText_keys (key value : String) :
    (optionalText key value).map (·.1) ∈ [[], [key]] := by
  by_cases h : value = "" <;> simp [optionalText, h]

def keysWith (file : List String) : List String :=
  ["artifact.extension", "corpus.dir", "corpus.extension"] ++ file ++
  ["log.level", "root", "timing.dismiss_grace", "timing.dismiss_interval",
    "timing.process_timeout", "timing.watcher_stop_timeout", "tools"]

theorem leaves_keys (c : Config) :
    (leaves c).map (·.1) = keysWith ((optionalText "log.file" c.log.file).map (·.1)) := by
  simp [leaves, keysWith]

/-- Defaults add no key to those of a shown configuration. -/
theorem keysWith_spec : ∀ file ∈ [[], ["log.file"]],
    (keysWith file).Pairwise (· ≤ ·) ∧
      (Store.leafKeysIn (file ++ shownKeys) "" []).eraseDups.Perm (keysWith file) ∧
      (Store.leafKeysIn (file ++ shownKeys) "" Settings.defaults).eraseDups.Perm (keysWith file) := by
  decide +kernel

theorem keys_reloading (c : Config) {defaults : Fields}
    (hd : defaults = [] ∨ defaults = Settings.defaults) :
    (reloading c defaults).keys = (leaves c).map (·.1) := by
  have hseen : (reloading c defaults).seenKeys =
      Store.leafKeysIn ((optionalText "log.file" c.log.file).map (·.1) ++ shownKeys) "" defaults := by
    rw [← leafKeysIn_tree]
    rfl
  obtain ⟨hsorted, hbare, hdefaults⟩ := keysWith_spec _ (optionalText_keys "log.file" c.log.file)
  rw [leaves_keys]
  refine Store.keys_eq ?_ hsorted
  rw [hseen]
  cases hd with
  | inl h => exact h ▸ hbare
  | inr h => exact h ▸ hdefaults

theorem reloading_unclaimed (c : Config) (defaults : Fields) (key : String) :
    (reloading c defaults).Unclaimed key := Store.unclaimed_of_file (tree c) defaults key

theorem get?_reloading_single (c : Config) (defaults : Fields) {key : String} {v : Value}
    (hkey : key ∈ fieldNames) (hpath : keyPath key = [key]) (hget : (tree c).get? key = some v)
    (hv : v ≠ .null) : (reloading c defaults).get? key = some v := by
  have hlow := lowered_fieldNames key hkey
  rw [Store.get?, hlow]
  apply (reloading_unclaimed c defaults key).find?_of_file
  rw [hpath]
  exact searchConfig_single (by rwa [hlow]) hv

theorem get?_tree_dotted (c : Config) (part name : String) :
    (tree c).get? (part ++ "." ++ name) = none := by
  have hdot : '.' ∈ (part ++ "." ++ name).toList := by simp
  have hplain : ∀ f ∈ tree c, '.' ∉ f.1.toList := by simp [tree]
  rw [Fields.get?, Option.map_eq_none_iff, List.find?_eq_none]
  intro f hf h
  exact hplain f hf (of_decide_eq_true h ▸ hdot)

def partKeys : List (String × String × String) :=
  [("artifact.extension", "artifact", "extension"), ("corpus.dir", "corpus", "dir"),
    ("corpus.extension", "corpus", "extension"), ("log.file", "log", "file"),
    ("log.level", "log", "level"), ("timing.dismiss_grace", "timing", "dismiss_grace"),
    ("timing.dismiss_interval", "timing", "dismiss_interval"),
    ("timing.process_timeout", "timing", "process_timeout"),
    ("timing.watcher_stop_timeout", "timing", "watcher_stop_timeout")]

theorem partKeys_spec : ∀ k ∈ partKeys,
    k.1 = k.2.1 ++ "." ++ k.2.2 ∧ Text.lowered k.1 = k.1 ∧ keyPath k.1 = [k.2.1, k.2.2] ∧
      Text.lowered k.2.1 = k.2.1 ∧ Text.lowered k.2.2 = k.2.2 := by
  decide +kernel

theorem get?_reloading_part (c : Config) (defaults : Fields) {key : String} (part name : String)
    (hk : (key, part, name) ∈ partKeys) {inner : Fields} {v : Value}
    (hinner : (tree c).get? part = some (.map inner)) (hget : inner.get? name = some v)
    (hv : v ≠ .null) : (reloading c defaults).get? key = some v := by
  obtain ⟨hkey, hlow, hpath, hpart, hname⟩ := partKeys_spec _ hk
  dsimp only at hkey hlow hpath hpart hname
  rw [← hpart] at hinner
  rw [← hname] at hget
  rw [Store.get?, hlow]
  apply (reloading_unclaimed c defaults key).find?_of_file
  rw [hpath]
  refine searchConfig_pair ?_ hinner hget hv
  rw [← hkey, hlow, hkey]
  exact get?_tree_dotted c part name

theorem get?_reloading (c : Config) (defaults : Fields) :
    ∀ l ∈ leaves c, (reloading c defaults).get? l.1 = some l.2 := by
  have part := fun {key} => @get?_reloading_part c defaults key
  rintro ⟨key, v⟩ hl
  dsimp only
  simp only [leaves, List.mem_append, List.mem_cons, List.not_mem_nil, or_false,
    Prod.mk.injEq] at hl
  obtain ((⟨rfl, rfl⟩ | ⟨rfl, rfl⟩ | ⟨rfl, rfl⟩) | hfile) | ⟨rfl, rfl⟩ | ⟨rfl, rfl⟩ | ⟨rfl, rfl⟩ |
    ⟨rfl, rfl⟩ | ⟨rfl, rfl⟩ | ⟨rfl, rfl⟩ | ⟨rfl, rfl⟩ := hl
  · exact part "artifact" "extension" (by decide) rfl rfl (by simp)
  · exact part "corpus" "dir" (by decide) rfl rfl (by simp)
  · exact part "corpus" "extension" (by decide) rfl rfl (by simp)
  · obtain ⟨hne, hv⟩ := mem_optionalText hfile
    cases hv
    exact part "log" "file" (by decide) rfl (by simp [optionalText, hne, Fields.get?]) (by simp)
  · exact part "log" "level" (by decide) rfl rfl (by simp)
  · exact get?_reloading_single c defaults (by decide) (by decide +kernel) rfl (by simp)
  · exact part "timing" "dismiss_grace" (by decide) rfl rfl (by simp)
  · exact part "timing" "dismiss_interval" (by decide) rfl rfl (by simp)
  · exact part "timing" "process_timeout" (by decide) rfl rfl (by simp)
  · exact part "timing" "watcher_stop_timeout" (by decide) rfl rfl (by simp)
  · exact get?_reloading_single c defaults (by decide) (by decide +kernel) rfl (by simp)

/-- The tree of all settings that a shown configuration is loaded from. -/
def reloaded (c : Config) : Fields :=
  [("tools", .list (c.tools.map toolTree)),
    ("timing", .map
      [("watcher_stop_timeout", .text c.timing.watcherStopTimeout.render),
        ("process_timeout", .text c.timing.processTimeout.render),
        ("dismiss_interval", .text c.timing.dismissInterval.render),
        ("dismiss_grace", .text c.timing.dismissGrace.render)]),
    ("root", .text c.root),
    ("log", .map (("level", .text c.log.level) :: optionalText "file" c.log.file)),
    ("corpus", .map [("extension", .text c.corpusExt), ("dir", .text c.corpusDir)]),
    ("artifact", .map [("extension", .text c.artifactExt)])]

theorem settings_reloading (c : Config) {defaults : Fields}
    (hd : defaults = [] ∨ defaults = Settings.defaults) :
    (reloading c defaults).settings = reloaded c := by
  have hpaths : ∀ k ∈ partKeys, keyPath k.1 = [k.2.1, k.2.2] := fun k hk => (partKeys_spec k hk).2.2.1
  simp only [partKeys, List.mem_cons, List.not_mem_nil, or_false, forall_eq_or_imp,
    forall_eq] at hpaths
  have hroot : keyPath "root" = ["root"] := by decide +kernel
  have htools : keyPath "tools" = ["tools"] := by decide +kernel
  rw [Store.settings_eq (keys_reloading c hd) (get?_reloading c defaults)]
  by_cases hfile : c.log.file = "" <;>
    simp [leaves, reloaded, optionalText, hfile, hpaths, hroot, htools, Store.putAt, Fields.set,
      Fields.get?]

theorem decodeEach_map {α β : Type} {decode : String → Value → Decoded α} {f : β → Value} {g : β → α}
    (h : ∀ field x, decode field (f x) = ⟨g x, []⟩) (field : String) (i : Nat) (xs : List β) :
    decodeEach field decode i (xs.map f) = ⟨xs.map g, []⟩ := by
  induction xs generalizing i with
  | nil => rfl
  | cons x rest ih => simp [decodeEach, h, ih]

def draftOf (t : Tool) : ToolDraft := ⟨{ t with byproducts := [] }, some t.byproducts⟩

theorem decodeList_texts (field : String) (ss : List String) :
    decodeList field (decodeText "string") (.list (ss.map .text)) = ⟨some ss, []⟩ := by
  have h : decodeEach field (decodeText "string") 0 (ss.map .text) = ⟨ss.map id, []⟩ :=
    decodeEach_map (fun _ _ => rfl) field 0 ss
  simp [decodeList, listItems?, h]

theorem decodeTool_toolTree (field : String) (t : Tool) :
    decodeTool field (toolTree t) = ⟨draftOf t, []⟩ := by
  by_cases htitle : t.windowTitle = ""
  · have hfold : ∀ k ∈ ["name", "path", "role", "output_dir", "dismiss_window", "byproducts"],
        Text.sameFolded k "window_title" = false := by decide +kernel
    simp only [List.mem_cons, List.not_mem_nil, or_false, forall_eq_or_imp, forall_eq] at hfold
    simp [decodeTool, toolTree, draftOf, optionalText, htitle, decodeFields, fieldNamed,
      Fields.get?, decodeText, decodeFlag, decodeList_texts, hfold]
  · simp [decodeTool, toolTree, draftOf, optionalText, htitle, decodeFields, fieldNamed,
      Fields.get?, decodeText, decodeFlag, decodeList_texts]

theorem decodeTiming_shown (t : Timing) :
    decodeTiming (.map
      [("watcher_stop_timeout", .text t.watcherStopTimeout.render),
        ("process_timeout", .text t.processTimeout.render),
        ("dismiss_interval", .text t.dismissInterval.render),
        ("dismiss_grace", .text t.dismissGrace.render)]) = ⟨t, []⟩ := by
  simp [decodeTiming, decodeFields, fieldNamed, Fields.get?, decodeDuration, Duration.parse_render]

theorem decode_reloaded (c : Config) :
    decode (reloaded c) =
      ⟨⟨c.root, c.corpusDir, c.corpusExt, c.artifactExt, c.timing, c.tools.map draftOf, c.log⟩, []⟩ := by
  have htools : decodeList "tools" decodeTool (.list (c.tools.map toolTree)) =
      ⟨some (c.tools.map draftOf), []⟩ := by
    simp [decodeList, listItems?, decodeEach_map decodeTool_toolTree]
  by_cases hfile : c.log.file = ""
  · have hfold : Text.sameFolded "level" "file" = false := by decide +kernel
    have hlog : (⟨c.log.level, ""⟩ : Log.Options) = c.log := by rw [← hfile]
    simp [decode, reloaded, optionalText, hfile, decodeFields, fieldNamed, Fields.get?, decodeText,
      htools, decodeTiming_shown, hfold, hlog]
  · simp [decode, reloaded, optionalText, hfile, decodeFields, fieldNamed, Fields.get?, decodeText,
      htools, decodeTiming_shown]

/-- A path that a root has nothing to add to. -/
def Resolved (p : String) : Prop := p = "" ∨ Path.isAbs p = true

theorem Resolved.resolvePath {p : String} (h : Resolved p) (root : String) :
    resolvePath root p = p := if_pos h

theorem resolved_resolvePath {root : String} (hroot : Path.isAbs root = true) (p : String) :
    Resolved (resolvePath root p) := by
  by_cases hp : p = ""
  · exact .inl ((resolvePath_eq_empty_iff root p).mpr hp)
  · exact .inr (isAbs_resolvePath hroot hp)

theorem locateRoot_of_isAbs {given : String} (h : Path.isAbs given = true)
    (cwd exeDir : Except String String) :
    locateRoot cwd exeDir given = .ok (Path.clean given) := by
  have hne : given ≠ "" := by
    rintro rfl
    cases h
  simp only [locateRoot, if_neg hne, if_pos h]

@[simp] theorem locateRoot_ok (cwd exeDir given : String) :
    locateRoot (.ok cwd) (.ok exeDir) given =
      .ok (Path.abs cwd (if given = "" then exeDir else given)) := by
  have hbase : (if given = "" then Except.ok exeDir else .ok given : Except String String) =
      .ok (if given = "" then exeDir else given) := by
    split <;> rfl
  rw [locateRoot, hbase]
  generalize (if given = "" then exeDir else given) = base
  dsimp only
  split
  · rename_i habs
    rw [Path.abs, if_pos habs]
  · rfl

theorem locateRoot_eq_ok {cwd exeDir : Except String String} {given root : String}
    (h : locateRoot cwd exeDir given = .ok root) :
    ∃ base, (if given = "" then exeDir else .ok given) = .ok base ∧
      ∃ dir, (cwd = .ok dir ∨ Path.isAbs base = true) ∧ root = Path.abs dir base := by
  rw [locateRoot] at h
  split at h
  · cases h
  rename_i base hbase
  refine ⟨base, hbase, ?_⟩
  split at h
  · rename_i habs
    cases h
    exact ⟨"", .inr habs, by rw [Path.abs, if_pos habs]⟩
  · split at h
    · cases h
    · cases h
      exact ⟨_, .inl rfl, rfl⟩

theorem exists_locateRoot_eq {cwd exeDir : Except String String} {given root : String}
    (hcwd : ∀ dir, cwd = .ok dir → Path.isAbs dir = true)
    (h : locateRoot cwd exeDir given = .ok root) :
    ∃ loc, (∀ s ∈ loc, Path.IsName s) ∧ root = Path.toLocation loc := by
  obtain ⟨base, _, dir, hdir | habs, rfl⟩ := locateRoot_eq_ok h
  · exact Path.exists_abs_eq (hcwd dir hdir) base
  · exact ⟨Path.names base, fun s hs => Path.isName_of_mem_names habs hs, Path.abs_of_isAbs habs⟩

theorem load_eq_ok {s : Store} {cwd exeDir : Except String String} {c : Config}
    (h : load s cwd exeDir = .ok c) :
    (decode s.settings).faults = [] ∧
      ∃ root, locateRoot cwd exeDir (decode s.settings).value.root = .ok root ∧
        c = (decode s.settings).value.finish root ∧ c.fault? = none := by
  rw [load] at h
  dsimp only at h
  split at h
  · cases h
  rename_i hfaults
  split at h
  · cases h
  rename_i root hroot
  split at h
  · cases h
  · rename_i hvalid
    cases h
    exact ⟨not_not.mp hfaults, root, hroot, rfl, hvalid⟩

/-- What loading makes of paths: the root is absolute and clean, and so nothing depends on the
directories any more that the program was started from. -/
structure Settled (c : Config) : Prop where
  root : Path.isAbs c.root = true ∧ Path.clean c.root = c.root
  corpusDir : Resolved c.corpusDir
  tools : ∀ t ∈ c.tools, Resolved t.path ∧ Resolved t.outputDir
  valid : c.fault? = none

theorem settled_of_load {s : Store} {cwd exeDir : Except String String} {c : Config}
    (hcwd : ∀ dir, cwd = .ok dir → Path.isAbs dir = true) (h : load s cwd exeDir = .ok c) :
    Settled c := by
  obtain ⟨_, root, hroot, rfl, hvalid⟩ := load_eq_ok h
  obtain ⟨loc, hloc, rfl⟩ := exists_locateRoot_eq hcwd hroot
  have hrooted := Path.isAbs_toLocation loc
  refine ⟨⟨hrooted, Path.clean_toLocation hloc⟩, resolved_resolvePath hrooted _, fun t ht => ?_,
    hvalid⟩
  obtain ⟨draft, _, rfl⟩ := List.mem_map.mp ht
  exact ⟨resolved_resolvePath hrooted _, resolved_resolvePath hrooted _⟩

theorem Settled.finish {c : Config} (h : Settled c) :
    Draft.finish c.root
      ⟨c.root, c.corpusDir, c.corpusExt, c.artifactExt, c.timing, c.tools.map draftOf, c.log⟩ = c := by
  have htool : ∀ t ∈ c.tools, (draftOf t).finish c.root = t := by
    intro t ht
    obtain ⟨hpath, hout⟩ := h.tools t ht
    rw [draftOf, ToolDraft.finish, Tool.resolved]
    simp [hpath.resolvePath, hout.resolvePath]
  have htools : (c.tools.map draftOf).map (ToolDraft.finish c.root) = c.tools := by
    rw [List.map_map]
    exact List.map_congr_left htool |>.trans (List.map_id _)
  simp [Draft.finish, h.corpusDir.resolvePath, htools]

/-- A configuration that was loaded is loaded again, as it was, from the settings that are shown for
it: with defaults or without them, and wherever the program is started. -/
theorem load_tree {s : Store} {cwd exeDir : Except String String} {c : Config}
    (hcwd : ∀ dir, cwd = .ok dir → Path.isAbs dir = true) (h : load s cwd exeDir = .ok c)
    {defaults : Fields} (hd : defaults = [] ∨ defaults = Settings.defaults)
    (cwd' exeDir' : Except String String) :
    load (({ defaults } : Store).withConfig (tree c)) cwd' exeDir' = .ok c := by
  have hsettled := settled_of_load hcwd h
  rw [load, withConfig_tree, settings_reloading c hd, decode_reloaded]
  simp [locateRoot_of_isAbs hsettled.root.1, hsettled.root.2, hsettled.finish, hsettled.valid]

/-- Settings with a root that is not clean, a fraction of a second and a file for the log. -/
def handStore : Store where
  config :=
    [("root", .text "r/."), ("timing", .map [("process_timeout", .text "90m1.25s")]),
      ("log", .map [("file", .text "log")])]
  defaults := Settings.defaults

theorem handStore_keys : handStore.keys = ["artifact.extension", "corpus.dir", "corpus.extension",
    "log.file", "log.level", "root", "timing.dismiss_grace", "timing.dismiss_interval",
    "timing.process_timeout", "timing.watcher_stop_timeout", "tools"] :=
  Store.keys_eq (by decide +kernel) (by decide +kernel)

def handConfig : Config where
  root := "/w/r"
  corpusDir := "/w/r/testFiles"
  corpusExt := ".asm"
  artifactExt := ".hex"
  timing := { Timing.default with processTimeout := .ofNat (5401250 * Duration.millisecond) }
  tools := Config.defaultTools.map (·.resolved "/w/r")
  log := { level := "warn", file := "log" }

theorem load_tree_sample :
    load handStore (.ok "/w") (.ok "/x") = .ok handConfig ∧
      load (({} : Store).withConfig (tree handConfig)) (.ok "/") (.error "gone") = .ok handConfig := by
  have hload : load handStore (.ok "/w") (.ok "/x") = .ok handConfig := by
    rw [load, Store.settings, handStore_keys]
    decide +kernel
  refine ⟨hload, load_tree (fun dir hdir => ?_) hload (.inl rfl) _ _⟩
  cases hdir
  decide

end Crosscheck.Settings
