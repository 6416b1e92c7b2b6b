import Crosscheck.Proofs.Config.Validity
import Crosscheck.Proofs.Settings.Reload

namespace Crosscheck.Settings

def textOf (v : Value) : String := (decodeText "" "" v).value

def flagOf (v : Value) : Bool := (decodeFlag "" v).value

def fieldsOf (v : Value) : Fields := (decodeFields "" v).value

theorem value_decodeText (wanted field : String) (v : Value) :
    (decodeText wanted field v).value = textOf v := by
  cases v <;> rfl

theorem value_decodeFlag (field : String) (v : Value) : (decodeFlag field v).value = flagOf v := by
  cases v with
  | text s =>
    rw [flagOf, decodeFlag, decodeFlag]
    split
    · rfl
    · split <;> rfl
  | _ => rfl

theorem value_decodeFields (field : String) (v : Value) :
    (decodeFields field v).value = fieldsOf v := by
  cases v <;> rfl

theorem decodeEach_forall₂ {α : Type} {decode : String → Value → Decoded α} {R : Value → α → Prop}
    (h : ∀ field v, R v (decode field v).value) (field : String) (i : Nat) (items : List Value) :
    List.Forall₂ R items (decodeEach field decode i items).value := by
  induction items generalizing i with
  | nil => exact .nil
  | cons v rest ih => exact .cons (h _ v) (ih (i + 1))

theorem value_decodeEach_text (field : String) (i : Nat) (items : List Value) :
    (decodeEach field (decodeText "string") i items).value = items.map textOf := by
  induction items generalizing i with
  | nil => rfl
  | cons v rest ih => rw [decodeEach, value_decodeText, ih, List.map_cons]

theorem value_decodeTexts (field : String) (v : Value) :
    (decodeList field (decodeText "string") v).value = (listItems? v).map (List.map textOf) := by
  rw [decodeList]
  cases listItems? v with
  | none => rfl
  | some items => exact congrArg some (value_decodeEach_text field 0 items)

theorem exists_listItems {v : Value} (h : v ≠ .null) : ∃ items, listItems? v = some items := by
  cases v with
  | null => exact absurd rfl h
  | text s =>
    rw [listItems?]
    split <;> exact ⟨_, rfl⟩
  | map fields => cases fields <;> exact ⟨_, rfl⟩
  | _ => exact ⟨_, rfl⟩

/-- A tool is what its entry in the settings says, with its paths resolved. By-products that are
left out, or given as null, are the usual ones; those that are given are kept, even if there are
none. -/
structure Describes (root : String) (entry : Value) (t : Tool) : Prop where
  name : t.name = textOf (fieldNamed (fieldsOf entry) "name")
  role : t.role = ⟨textOf (fieldNamed (fieldsOf entry) "role")⟩
  dismissWindow : t.dismissWindow = flagOf (fieldNamed (fieldsOf entry) "dismiss_window")
  windowTitle : t.windowTitle = textOf (fieldNamed (fieldsOf entry) "window_title")
  path : t.path = resolvePath root (textOf (fieldNamed (fieldsOf entry) "path"))
  outputDir : t.outputDir = resolvePath root (textOf (fieldNamed (fieldsOf entry) "output_dir"))
  leftOut : fieldNamed (fieldsOf entry) "byproducts" = .null →
    t.byproducts = Config.defaultByproducts
  given : fieldNamed (fieldsOf entry) "byproducts" ≠ .null →
    ∃ items, listItems? (fieldNamed (fieldsOf entry) "byproducts") = some items ∧
      t.byproducts = items.map textOf

theorem describes_decodeTool (root field : String) (entry : Value) :
    Describes root entry ((decodeTool field entry).value.finish root) := by
  have hfields := value_decodeFields field entry
  have hbyproducts : ((decodeTool field entry).value.finish root).byproducts =
      ((listItems? (fieldNamed (fieldsOf entry) "byproducts")).map (List.map textOf)).getD
        Config.defaultByproducts := by
    rw [← hfields, ← value_decodeTexts (field ++ "." ++ "byproducts")]
    rfl
  refine
    { name := hfields ▸ value_decodeText _ _ _
      role := hfields ▸ congrArg Role.mk (value_decodeText _ _ _)
      dismissWindow := hfields ▸ value_decodeFlag _ _
      windowTitle := hfields ▸ value_decodeText _ _ _
      path := hfields ▸ congrArg (resolvePath root) (value_decodeText _ _ _)
      outputDir := hfields ▸ congrArg (resolvePath root) (value_decodeText _ _ _)
      leftOut := fun hnull => ?_
      given := fun hgiven => ?_ }
  · rw [hbyproducts, hnull]
    rfl
  · obtain ⟨items, hitems⟩ := exists_listItems hgiven
    refine ⟨items, hitems, ?_⟩
    rw [hbyproducts, hitems]
    rfl

namespace Fields

theorem get?_set (fs : Fields) (k : String) (v : Value) : (fs.set k v).get? k = some v := by
  simp [get?, Fields.set]

theorem get?_set_ne (fs : Fields) {k k' : String} (h : k' ≠ k) (v : Value) :
    (fs.set k' v).get? k = fs.get? k := by
  rw [get?, get?, Fields.set, List.find?_cons_of_neg (by simpa using h), List.find?_filter]
  congr 2
  funext f
  by_cases hf : f.1 = k <;> simp [hf, Ne.symm h]

end Fields

namespace Store

theorem keyPath_eq_singleton {key k : String} (h : keyPath key = [k]) : key = k := by
  rw [keyPath, Path.splitAt_eq_splitOn, List.map_eq_singleton_iff] at h
  obtain ⟨part, hpart, rfl⟩ := h
  have hjoin : List.intercalate ['.'] (key.toList.splitOn '.') = key.toList :=
    List.intercalate_splitOn ..
  rw [hpart] at hjoin
  apply String.ext
  simpa using hjoin.symm

theorem get?_putAt_below (fs : Fields) (v : Value) (k k' : String) (rest : List String) :
    ∃ m, (putAt fs v (k :: k' :: rest)).get? k = some (.map m) := by
  rw [putAt]
  · split <;> exact ⟨_, Fields.get?_set ..⟩
  · exact List.cons_ne_nil k' rest

theorem get?_putAt_ne (fs : Fields) (v : Value) {k k' : String} (h : k' ≠ k) (rest : List String) :
    (putAt fs v (k' :: rest)).get? k = fs.get? k := by
  cases rest with
  | nil => exact Fields.get?_set_ne fs h v
  | cons k'' more =>
    rw [putAt]
    · split <;> exact Fields.get?_set_ne fs h _
    · exact List.cons_ne_nil k'' more

def putKey (s : Store) (fs : Fields) (key : String) : Fields :=
  match s.get? key with
  | some v => putAt fs v (keyPath key)
  | none => fs

theorem settings_eq_foldl (s : Store) : s.settings = s.keys.foldl s.putKey [] := by
  rw [settings]
  apply List.foldl_ext
  intro fs key _
  cases hget : s.get? key <;> simp only [putKey, hget]

def SetTo (s : Store) (key text : String) : Prop :=
  key ∈ s.keys ∧ s.get? key = some (.text text)

/-- A key has its text, or it has become a map. -/
def Holds (fs : Fields) (key text : String) : Prop :=
  fs.get? key = some (.text text) ∨ ∃ m, fs.get? key = some (.map m)

section Holds

variable {s : Store} {k text : String} (hk : s.get? k = some (.text text))

include hk

theorem holds_putKey {fs : Fields} (h : Holds fs k text) (key : String) :
    Holds (s.putKey fs key) k text := by
  rw [putKey]
  split
  · rename_i v hv
    obtain ⟨k', rest, hpath⟩ := List.exists_cons_of_ne_nil (keyPath_ne_nil key)
    rw [hpath]
    by_cases hk' : k' = k
    · subst k'
      cases rest with
      | nil =>
        rw [keyPath_eq_singleton hpath, hk] at hv
        cases hv
        exact .inl (Fields.get?_set ..)
      | cons k'' more => exact .inr (get?_putAt_below fs v k k'' more)
    · rw [Holds, get?_putAt_ne fs v hk']
      exact h
  · exact h

theorem holds_putKey_self (hsingle : keyPath k = [k]) (fs : Fields) :
    Holds (s.putKey fs k) k text := by
  rw [putKey, hk]
  dsimp only
  rw [hsingle]
  exact .inl (Fields.get?_set ..)

theorem holds_foldl (hsingle : keyPath k = [k]) {keys : List String} {fs : Fields}
    (h : k ∈ keys ∨ Holds fs k text) : Holds (keys.foldl s.putKey fs) k text := by
  induction keys generalizing fs with
  | nil => exact h.resolve_left List.not_mem_nil
  | cons key keys ih =>
    rw [List.foldl_cons]
    apply ih
    obtain hmem | hholds := h
    · obtain rfl | hmem := List.mem_cons.mp hmem
      · exact .inr (holds_putKey_self hk hsingle fs)
      · exact .inl hmem
    · exact .inr (holds_putKey hk hholds key)

end Holds

/-- A text that is set is in the settings, unless something is put below its key. -/
theorem SetTo.holds {s : Store} {k text : String} (h : s.SetTo k text) (hsingle : keyPath k = [k]) :
    Holds s.settings k text := by
  rw [settings_eq_foldl]
  exact holds_foldl h.2 hsingle (.inl h.1)

end Store

/-- With an absolute root the directories in which the program stands and is started have no say. -/
theorem load_of_isAbs {s : Store}
    (h : (decode s.settings).faults ≠ [] ∨ Path.isAbs (decode s.settings).value.root = true)
    (cwd exeDir cwd' exeDir' : Except String String) : load s cwd exeDir = load s cwd' exeDir' := by
  rw [load, load]
  by_cases hfaults : (decode s.settings).faults ≠ []
  · rw [if_pos hfaults, if_pos hfaults]
  · rw [locateRoot_of_isAbs (h.resolve_left hfaults), locateRoot_of_isAbs (h.resolve_left hfaults)]

/-- An absolute root is decoded as it is set. A root that has become a map is not decoded. -/
theorem decode_root {s : Store} {root : String} (h : s.SetTo "root" root)
    (habs : Path.isAbs root = true) :
    (decode s.settings).faults ≠ [] ∨ Path.isAbs (decode s.settings).value.root = true := by
  obtain htext | ⟨m, hmap⟩ := h.holds (by decide)
  · have hfield : fieldNamed s.settings "root" = .text root := by rw [fieldNamed, htext]
    refine .inr ?_
    change Path.isAbs
      (decodeText "string" ("" ++ "root") (fieldNamed s.settings "root")).value = true
    rw [hfield]
    exact habs
  · have hfield : fieldNamed s.settings "root" = .map m := by rw [fieldNamed, hmap]
    refine .inl ?_
    simp [decode, hfield, decodeText, unconvertible]

structure Loaded (s : Store) (cwd exeDir : Except String String) (c : Config) : Prop where
  valid : c.fault? = none
  rootFrom : ∃ base, (if textOf (fieldNamed s.settings "root") = "" then exeDir
      else .ok (textOf (fieldNamed s.settings "root"))) = .ok base ∧
    ∃ dir, (cwd = .ok dir ∨ Path.isAbs base = true) ∧ c.root = Path.abs dir base
  root : Path.isAbs c.root = true ∧ Path.clean c.root = c.root
  corpusDir : Path.isAbs c.corpusDir = true
  paths : ∀ t ∈ c.tools, Path.isAbs t.path = true ∧ Path.isAbs t.outputDir = true
  outputDirs : c.tools.Pairwise fun t u => Path.route t.outputDir ≠ Path.route u.outputDir
  tools : List.Forall₂ (Describes c.root)
    ((listItems? (fieldNamed s.settings "tools")).getD []) c.tools

theorem describes_tools (s : Store) (root : String) :
    List.Forall₂ (Describes root) ((listItems? (fieldNamed s.settings "tools")).getD [])
      ((decode s.settings).value.finish root).tools := by
  change List.Forall₂ _ _ (List.map _ ((decodeList "tools" decodeTool
    (fieldNamed s.settings "tools")).value.getD []))
  rw [decodeList, List.forall₂_map_right_iff]
  cases listItems? (fieldNamed s.settings "tools") with
  | none => exact .nil
  | some items => exact decodeEach_forall₂ (fun field v => describes_decodeTool _ field v) _ 0 items

/-- Loading gives the configuration that is decoded, if it can be decoded, its root can be found and
it is well formed. -/
theorem load_of_wellFormed {s : Store} {cwd exeDir : Except String String} {root : String}
    (hfaults : (decode s.settings).faults = [])
    (hroot : locateRoot cwd exeDir (decode s.settings).value.root = .ok root)
    (hwf : ((decode s.settings).value.finish root).WellFormed) :
    load s cwd exeDir = .ok ((decode s.settings).value.finish root) := by
  rw [load, if_neg (not_not.mpr hfaults), hroot]
  dsimp only
  rw [(Config.fault?_eq_none_iff _).mpr hwf]

theorem loaded_of_load {s : Store} {cwd exeDir : Except String String} {c : Config}
    (hcwd : ∀ dir, cwd = .ok dir → Path.isAbs dir = true) (h : load s cwd exeDir = .ok c) :
    Loaded s cwd exeDir c := by
  have hsettled := settled_of_load hcwd h
  have hwf := (Config.fault?_eq_none_iff c).mp hsettled.valid
  obtain ⟨_, root, hroot, hc, _⟩ := load_eq_ok h
  have hfrom := locateRoot_eq_ok hroot
  rw [show (decode s.settings).value.root = textOf (fieldNamed s.settings "root") from
    value_decodeText "string" ("" ++ "root") _] at hfrom
  exact
    { valid := hsettled.valid
      rootFrom := by
        rw [hc]
        exact hfrom
      root := hsettled.root
      corpusDir := hsettled.corpusDir.resolve_left hwf.corpusDir
      paths := fun t ht =>
        ⟨(hsettled.tools t ht).1.resolve_left (hwf.tools t ht).path,
          (hsettled.tools t ht).2.resolve_left (hwf.tools t ht).outputDir⟩
      outputDirs := hwf.outputDirs
      tools := by
        rw [hc]
        exact describes_tools s root }

/-- Loading fails only if a setting cannot be decoded, the system does not tell where the root is, or
the configuration is not well formed, and the error has one cause. A configuration that is loaded can
be used as it is: all paths in it are absolute, and its tools are those of the settings. An absolute
root makes it independent of where the program stands and where it is started. -/
theorem load_correct (s : Store) {cwd : Except String String}
    (hcwd : ∀ dir, cwd = .ok dir → Path.isAbs dir = true) (exeDir : Except String String) :
    (∀ f, load s cwd exeDir = .error f →
      Fault.causes (some f.fault) = [.invalidConfig] ∧
      ((∀ n, f = .invalid (.references n) → n < 2 ^ 63) → f.fault.message = f.message) ∧
      ((decode s.settings).faults ≠ [] ∨
        ∀ root, locateRoot cwd exeDir (decode s.settings).value.root = .ok root →
          ¬ ((decode s.settings).value.finish root).WellFormed)) ∧
    (∀ c, load s cwd exeDir = .ok c → Loaded s cwd exeDir c) ∧
    (∀ root, s.SetTo "root" root → Path.isAbs root = true →
      ∀ cwd' exeDir', load s cwd' exeDir' = load s cwd exeDir) := by
  refine ⟨fun f hf => ⟨f.causes_fault, LoadFault.message_fault, ?_⟩,
    fun c hc => loaded_of_load hcwd hc, fun root hset habs cwd' exeDir' => ?_⟩
  · by_cases hfaults : (decode s.settings).faults = []
    · refine .inr fun root hroot hwf => ?_
      cases hf.symm.trans (load_of_wellFormed hfaults hroot hwf)
    · exact .inl hfaults
  · exact load_of_isAbs (decode_root hset habs) _ _ _ _

/-- Settings with a root that is not clean, and two tools: the by-products of one are left open, and
the other has none. -/
def rootedStore : Store where
  override := [("root", .text "/r/.")]
  config :=
    [("tools", .list
      [.map [("name", .text "a"), ("path", .text "x/a"), ("role", .text "reference"),
        ("output_dir", .text "o/a"), ("byproducts", .null)],
      .map [("name", .text "b"), ("path", .text "/x/b"), ("role", .text "candidate"),
        ("output_dir", .text "/r/o/b/"), ("byproducts", .list [])]])]
  defaults := Settings.defaults

theorem rootedStore_keys : rootedStore.keys = ["artifact.extension", "corpus.dir",
    "corpus.extension", "log.level", "root", "timing.dismiss_grace", "timing.dismiss_interval",
    "timing.process_timeout", "timing.watcher_stop_timeout", "tools"] :=
  Store.keys_eq (by decide +kernel) (by decide +kernel)

def rootedConfig : Config where
  root := "/r"
  corpusDir := "/r/testFiles"
  corpusExt := ".asm"
  artifactExt := ".hex"
  timing := Timing.default
  tools :=
    [{ name := "a", path := "/r/x/a", role := .reference, outputDir := "/r/o/a"
       byproducts := Config.defaultByproducts },
     { name := "b", path := "/x/b", role := .candidate, outputDir := "/r/o/b/" }]
  log := { level := "warn" }

theorem load_correct_rooted :
    rootedStore.SetTo "root" "/r/." ∧ load rootedStore (.ok "/w") (.ok "/x") = .ok rootedConfig ∧
      Loaded rootedStore (.ok "/w") (.ok "/x") rootedConfig ∧
      load rootedStore (.error "gone") (.error "gone") = .ok rootedConfig := by
  have hset : rootedStore.SetTo "root" "/r/." := by
    have hlowered : Text.lowered "root" = "root" := by decide +kernel
    refine ⟨?_, ?_⟩
    · rw [rootedStore_keys]
      decide
    · rw [Store.get?, hlowered]
      rfl
  have hload : load rootedStore (.ok "/w") (.ok "/x") = .ok rootedConfig := by
    rw [load, Store.settings, rootedStore_keys]
    decide +kernel
  have hcwd : ∀ dir, (.ok "/w" : Except String String) = .ok dir → Path.isAbs dir = true := by
    rintro dir hdir
    cases hdir
    decide
  have hcorrect := load_correct rootedStore hcwd (.ok "/x")
  exact ⟨hset, hload, hcorrect.2.1 _ hload, (hcorrect.2.2 _ hset (by decide) _ _).trans hload⟩

end Crosscheck.Settings
