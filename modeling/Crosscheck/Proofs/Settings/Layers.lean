import Crosscheck.Proofs.Settings.Loaded

namespace Crosscheck.Settings

def settingKeys : List String := keysWith ["log.file"]

def singleKeys : List String := ["root", "tools"]

def parts : List String := ["artifact", "corpus", "log", "timing"]

def namesIn (part : String) : List String := (partKeys.filter (·.2.1 = part)).map (·.2.2)

theorem mem_namesIn {part name : String} :
    name ∈ namesIn part ↔ ∃ key, (key, part, name) ∈ partKeys := by
  simp [namesIn]

theorem settingKeys_cases : ∀ key ∈ settingKeys,
    key ∈ singleKeys ∨ ∃ k ∈ partKeys, k.1 = key := by
  decide

theorem singleKeys_spec : ∀ key ∈ singleKeys,
    key ∈ settingKeys ∧ Text.lowered key = key ∧ keyPath key = [key] := by
  decide +kernel

theorem partKeys_mem : ∀ k ∈ partKeys,
    k.1 ∈ settingKeys ∧ k.2.1 ∈ parts ∧ k.1 ∉ singleKeys ++ parts := by
  decide

theorem parts_spec : ∀ part ∈ parts, part ≠ "" ∧ part ∉ settingKeys ∧ part ∉ singleKeys := by
  decide

structure Named (names : List String) (fields : Fields) : Prop where
  distinct : (fields.map (·.1)).Nodup
  known : ∀ f ∈ fields, f.1 ∈ names

theorem Fields.mem_of_get? {fields : Fields} {k : String} {v : Value}
    (h : fields.get? k = some v) : (k, v) ∈ fields := by
  obtain ⟨f, hf, rfl⟩ := Option.map_eq_some_iff.mp h
  obtain rfl : f.1 = k := by simpa using List.find?_some hf
  exact List.mem_of_find?_eq_some hf

theorem Named.get? {names : List String} {fields : Fields} (h : Named names fields)
    {f : String × Value} (hf : f ∈ fields) : fields.get? f.1 = some f.2 := by
  have hsome : (fields.find? fun g => g.1 = f.1).isSome = true := by
    rw [List.find?_isSome]
    exact ⟨f, hf, by simp⟩
  obtain ⟨g, hg⟩ := Option.isSome_iff_exists.mp hsome
  have hkey : g.1 = f.1 := by simpa using List.find?_some hg
  have hsame : g = f := List.inj_on_of_nodup_map h.distinct (List.mem_of_find?_eq_some hg) hf hkey
  rw [Fields.get?, hg, hsame]
  rfl

def Value.isMap : Value → Bool
  | .map _ => true
  | _ => false

/-- The fields of a configuration file as it is documented: settings by themselves or in the part
they belong to, and no maps where a setting is expected. -/
structure Documented (file : Fields) : Prop where
  names : Named (singleKeys ++ parts) file
  parts : ∀ part ∈ parts, ∀ v, file.get? part = some v →
    ∃ inner, v = .map inner ∧ Named (namesIn part) inner
  leaves : ∀ key ∈ settingKeys, ∀ v, lookup file (keyPath key) = some v →
    v.isMap = false ∧ v.Lowered

theorem lookup_single (fields : Fields) (k : String) :
    lookup fields [k] = (fields.get? k).filter (!·.isNull) := by
  rw [lookup]
  cases fields.get? k with
  | none => rfl
  | some v => cases v <;> rfl

theorem lookup_pair (fields : Fields) (part name : String) :
    lookup fields [part, name] =
      match fields.get? part with
      | some (.map inner) => lookup inner [name]
      | _ => none := by
  rw [lookup]
  cases fields.get? part with
  | none => rfl
  | some v => cases v <;> rfl

theorem eq_null_or_lookup {fields : Fields} {k : String} {v : Value} (h : fields.get? k = some v) :
    v = .null ∨ lookup fields [k] = some v := by
  rw [lookup_single, h]
  cases v with
  | null => exact .inl rfl
  | _ => exact .inr rfl

theorem searchConfig_single_eq {fields : Fields} {k : String} (hk : Text.lowered k = k) :
    searchConfig fields [k] = lookup fields [k] := by
  cases hget : fields.get? k with
  | none => simp [searchConfig, search, keyOf, lookup, hk, hget]
  | some v => cases v <;> simp [searchConfig, search, keyOf, lookup, hk, hget]

theorem searchConfig_pair_eq {fields : Fields} {part name : String}
    (hpart : Text.lowered part = part) (hname : Text.lowered name = name)
    (hdotted : fields.get? (Text.lowered (part ++ "." ++ name)) = none)
    (hmap : ∀ v, fields.get? part = some v → ∃ inner, v = .map inner) :
    searchConfig fields [part, name] = lookup fields [part, name] := by
  rw [lookup_pair]
  cases hget : fields.get? part with
  | none =>
    simp [searchConfig, search, keyOf, hpart, hdotted, hget, List.range, List.range.loop]
  | some v =>
    obtain ⟨inner, rfl⟩ := hmap v hget
    dsimp only
    rw [← searchConfig_single_eq hname]
    simp [searchConfig, search, keyOf, hpart, hdotted, hget, List.range, List.range.loop]

namespace Documented

variable {file : Fields} (h : Documented file)

include h

theorem single {key : String} (hk : key ∈ singleKeys) {v : Value} (hv : (key, v) ∈ file) :
    v.isMap = false ∧ v.Lowered := by
  obtain ⟨hkey, _, hpath⟩ := singleKeys_spec key hk
  obtain rfl | hlookup := eq_null_or_lookup (h.names.get? hv)
  · exact ⟨rfl, rfl⟩
  · exact h.leaves key hkey v (hpath ▸ hlookup)

theorem part {part : String} (hp : part ∈ Settings.parts) {v : Value} (hv : (part, v) ∈ file) :
    ∃ inner, v = .map inner ∧ Named (namesIn part) inner ∧
      ∀ g ∈ inner, g.2.isMap = false ∧ g.2.Lowered := by
  obtain ⟨inner, rfl, hnamed⟩ := h.parts part hp v (h.names.get? hv)
  refine ⟨inner, rfl, hnamed, fun g hg => ?_⟩
  obtain ⟨key, hkey⟩ := mem_namesIn.mp (hnamed.known g hg)
  obtain hnull | hlookup := eq_null_or_lookup (hnamed.get? hg)
  · rw [hnull]
    exact ⟨rfl, rfl⟩
  · refine h.leaves key (partKeys_mem _ hkey).1 g.2 ?_
    rw [(partKeys_spec _ hkey).2.2.1, lookup_pair, h.names.get? hv]
    exact hlookup

theorem lowered : (Value.map file).Lowered := by
  have hsub : ∀ k ∈ singleKeys ++ Settings.parts, k ∈ fieldNames := by decide
  have hinner : ∀ k ∈ partKeys, k.2.2 ∈ fieldNames := by decide
  apply Plain.lowered
  intro f hf
  have hname := h.names.known f hf
  refine ⟨hsub _ hname, ?_⟩
  obtain hk | hp := List.mem_append.mp hname
  · exact (h.single hk hf).2
  · obtain ⟨inner, hv, hnamed, hvalues⟩ := h.part hp hf
    rw [hv]
    apply Plain.lowered
    intro g hg
    obtain ⟨key, hkey⟩ := mem_namesIn.mp (hnamed.known g hg)
    exact ⟨hinner _ hkey, (hvalues g hg).2⟩

theorem get?_dotted {k : String × String × String} (hk : k ∈ partKeys) : file.get? k.1 = none := by
  rw [Option.eq_none_iff_forall_ne_some]
  intro v hv
  exact (partKeys_mem k hk).2.2 (h.names.known _ (Fields.mem_of_get? hv))

/-- In a documented file, what is found at a key is what stands at its path. -/
theorem searchConfig_eq {key : String} (hk : key ∈ settingKeys) :
    searchConfig file (keyPath key) = lookup file (keyPath key) := by
  obtain hsingle | ⟨⟨key, part, name⟩, hpair, rfl⟩ := settingKeys_cases key hk
  · obtain ⟨_, hlow, hpath⟩ := singleKeys_spec key hsingle
    rw [hpath]
    exact searchConfig_single_eq hlow
  · obtain ⟨hkey, hlow, hpath, hlowPart, hlowName⟩ := partKeys_spec _ hpair
    dsimp only at hkey hlow hpath hlowPart hlowName
    rw [hpath]
    refine searchConfig_pair_eq hlowPart hlowName ?_ fun v hv => ?_
    · rw [← hkey, hlow]
      exact h.get?_dotted hpair
    · obtain ⟨inner, hv, _⟩ := h.parts part (partKeys_mem _ hpair).2.1 v hv
      exact ⟨inner, hv⟩

theorem isShadowed_eq {key : String} (hk : key ∈ settingKeys) :
    isShadowed file (keyPath key) = false := by
  apply isShadowed_eq_false
  intro n hpos hlt v hv
  obtain hsingle | ⟨⟨key, part, name⟩, hpair, rfl⟩ := settingKeys_cases key hk
  · rw [(singleKeys_spec key hsingle).2.2, List.length_singleton] at hlt
    omega
  · rw [(partKeys_spec _ hpair).2.2.1] at hlt hv
    obtain rfl : n = 1 := by
      simp only [List.length_cons, List.length_nil] at hlt
      omega
    rw [List.take_succ_cons, List.take_zero, lookup_single, Option.filter_eq_some_iff] at hv
    obtain ⟨inner, hv, _⟩ := h.parts part (partKeys_mem _ hpair).2.1 v hv.1
    exact ⟨inner, hv⟩

end Documented

def layered (file : Fields) : Store := { config := file, defaults := Settings.defaults }

theorem Documented.withConfig_eq {file : Fields} (h : Documented file) :
    ({ defaults := Settings.defaults } : Store).withConfig file = layered file := by
  have hlow : Value.lowerAll (.map file) = .map file := h.lowered
  rw [Store.withConfig, hlow]
  rfl

theorem lowered_settingKeys {key : String} (hk : key ∈ settingKeys) : Text.lowered key = key := by
  obtain hsingle | ⟨k, hpair, rfl⟩ := settingKeys_cases key hk
  · exact (singleKeys_spec key hsingle).2.1
  · exact (partKeys_spec k hpair).2.1

/-- The file goes before the defaults, setting by setting. -/
theorem Documented.get?_layered {file : Fields} (h : Documented file) {key : String}
    (hk : key ∈ settingKeys) :
    (layered file).get? key =
      (lookup file (keyPath key)).or (lookup Settings.defaults (keyPath key)) := by
  have hfind := (Store.unclaimed_of_file file Settings.defaults key).find?_eq
  rw [Store.get?, lowered_settingKeys hk]
  refine hfind.trans ?_
  dsimp only
  rw [h.searchConfig_eq hk, h.isShadowed_eq hk]
  cases lookup file (keyPath key) with
  | some v => rfl
  | none =>
    cases lookup Settings.defaults (keyPath key) with
    | some v => rfl
    | none => simp [Store.orElse, Store.flag?]

theorem Documented.get?_layered_single {file : Fields} (h : Documented file) {key : String}
    (hk : key ∈ singleKeys) :
    (layered file).get? key = (lookup file [key]).or (lookup Settings.defaults [key]) := by
  obtain ⟨hkey, _, hpath⟩ := singleKeys_spec key hk
  rw [h.get?_layered hkey, hpath]

theorem Documented.get?_layered_part {file : Fields} (h : Documented file)
    {key part name : String} (hk : (key, part, name) ∈ partKeys) :
    (layered file).get? key =
      (lookup file [part, name]).or (lookup Settings.defaults [part, name]) := by
  rw [h.get?_layered (partKeys_mem _ hk).1, (partKeys_spec _ hk).2.2.1]

inductive Occurs (fields : Fields) : String → Prop
  | single {key : String} {v : Value} (hk : key ∈ singleKeys) (hv : (key, v) ∈ fields) :
      Occurs fields key
  | part {key part name : String} {inner : Fields} {v : Value} (hk : (key, part, name) ∈ partKeys)
      (hp : (part, .map inner) ∈ fields) (hv : (name, v) ∈ inner) : Occurs fields key

theorem Occurs.mem_settingKeys {fields : Fields} {key : String} (h : Occurs fields key) :
    key ∈ settingKeys := by
  cases h with
  | single hk => exact (singleKeys_spec key hk).1
  | part hk => exact (partKeys_mem _ hk).1

theorem occurs_of_lookup {fields : Fields} {key : String} (hk : key ∈ settingKeys) {v : Value}
    (h : lookup fields (keyPath key) = some v) : Occurs fields key := by
  obtain hsingle | ⟨⟨key, part, name⟩, hpair, rfl⟩ := settingKeys_cases key hk
  · rw [(singleKeys_spec key hsingle).2.2, lookup_single, Option.filter_eq_some_iff] at h
    exact .single hsingle (Fields.mem_of_get? h.1)
  · rw [(partKeys_spec _ hpair).2.2.1, lookup_pair] at h
    split at h
    · rename_i inner hinner
      rw [lookup_single, Option.filter_eq_some_iff] at h
      exact .part hpair (Fields.mem_of_get? hinner) (Fields.mem_of_get? h.1)
    · cases h

namespace Store

theorem leafKeys_of_isMap {v : Value} (h : v.isMap = false) (seen : List String) (start : String) :
    leafKeys seen start v = Text.lowered start :: seen := by
  cases v with
  | map fields => cases h
  | _ => rfl

theorem mem_leafKeysIn_part {part : String} (hp : part ∈ parts) {inner : Fields}
    (hnames : ∀ g ∈ inner, g.1 ∈ namesIn part ∧ g.2.isMap = false) (seen : List String)
    (key : String) :
    key ∈ leafKeysIn seen part inner ↔ key ∈ seen ∨ ∃ g ∈ inner, (key, part, g.1) ∈ partKeys := by
  induction inner generalizing seen with
  | nil => simp [leafKeysIn]
  | cons g rest ih =>
    obtain ⟨k, v⟩ := g
    obtain ⟨hname, hleaf⟩ := hnames _ List.mem_cons_self
    obtain ⟨full, hfull⟩ := mem_namesIn.mp hname
    have hspec := partKeys_spec _ hfull
    have hkey : (key, part, k) ∈ partKeys ↔ key = full := by
      constructor
      · intro hmem
        exact (partKeys_spec _ hmem).1.trans hspec.1.symm
      · rintro rfl
        exact hfull
    rw [leafKeysIn, if_neg (parts_spec part hp).1, leafKeys_of_isMap hleaf, ← hspec.1, hspec.2.1,
      ih fun g hg => hnames g (List.mem_cons_of_mem _ hg), List.mem_cons, List.exists_mem_cons_iff,
      hkey, or_assoc, or_left_comm]

theorem occurs_cons {f : String × Value} {fields : Fields} {key : String} :
    Occurs (f :: fields) key ↔ Occurs [f] key ∨ Occurs fields key := by
  constructor
  · intro h
    cases h with
    | single hk hv =>
      obtain rfl | hv := List.mem_cons.mp hv
      · exact .inl (.single hk List.mem_cons_self)
      · exact .inr (.single hk hv)
    | part hk hp hv =>
      obtain rfl | hp := List.mem_cons.mp hp
      · exact .inl (.part hk List.mem_cons_self hv)
      · exact .inr (.part hk hp hv)
  · rintro (h | h)
    · cases h with
      | single hk hv => exact .single hk (List.mem_cons.mpr (.inl (List.mem_singleton.mp hv)))
      | part hk hp hv => exact .part hk (List.mem_cons.mpr (.inl (List.mem_singleton.mp hp))) hv
    · cases h with
      | single hk hv => exact .single hk (List.mem_cons_of_mem _ hv)
      | part hk hp hv => exact .part hk (List.mem_cons_of_mem _ hp) hv

theorem mem_leafKeys {file : Fields} (h : Documented file) {f : String × Value} (hf : f ∈ file)
    {seen : List String} (hseen : ∀ key ∈ seen, key ∈ settingKeys) (key : String) :
    key ∈ leafKeys seen f.1 f.2 ↔ key ∈ seen ∨ Occurs [f] key := by
  obtain ⟨k, v⟩ := f
  obtain hk | hp := List.mem_append.mp (h.names.known _ hf)
  · have hocc : Occurs [(k, v)] key ↔ key = k := by
      constructor
      · intro hocc
        cases hocc with
        | single _ hv => exact congrArg Prod.fst (List.mem_singleton.mp hv)
        | part _ hp _ =>
          cases List.mem_singleton.mp hp
          cases (h.single hk hf).1
      · rintro rfl
        exact .single hk List.mem_cons_self
    rw [leafKeys_of_isMap (h.single hk hf).1, (singleKeys_spec k hk).2.1, List.mem_cons, hocc,
      or_comm]
  · obtain ⟨inner, rfl, hnamed, hvalues⟩ := h.part hp hf
    obtain ⟨hne, hfree, hnot⟩ := parts_spec k hp
    have hocc : Occurs [(k, .map inner)] key ↔ ∃ g ∈ inner, (key, k, g.1) ∈ partKeys := by
      constructor
      · intro hocc
        cases hocc with
        | single hk' hv =>
          cases List.mem_singleton.mp hv
          exact absurd hk' hnot
        | part hk' hp' hv =>
          cases List.mem_singleton.mp hp'
          exact ⟨_, hv, hk'⟩
      · rintro ⟨g, hg, hk'⟩
        exact .part hk' List.mem_cons_self hg
    have hunseen : ¬ (k ≠ "" ∧ seen.contains k = true) := by
      rintro ⟨_, hmem⟩
      exact hfree (hseen k (List.contains_iff_mem.mp hmem))
    rw [leafKeys, if_neg hunseen, hocc]
    exact mem_leafKeysIn_part hp (fun g hg => ⟨hnamed.known g hg, (hvalues g hg).1⟩) seen key

/-- The keys that are found in a file are those of the settings that have a place there. -/
theorem mem_leafKeysIn {file fields : Fields} (h : Documented file)
    (hfields : ∀ f ∈ fields, f ∈ file) {seen : List String}
    (hseen : ∀ key ∈ seen, key ∈ settingKeys) (key : String) :
    key ∈ leafKeysIn seen "" fields ↔ key ∈ seen ∨ Occurs fields key := by
  induction fields generalizing seen with
  | nil =>
    have hnone : ¬ Occurs [] key := by
      rintro (⟨_, hv⟩ | ⟨_, hp, _⟩)
      · cases hv
      · cases hp
    simp [leafKeysIn, hnone]
  | cons f rest ih =>
    have hadd := mem_leafKeys h (hfields f List.mem_cons_self) hseen
    have hadded : ∀ key ∈ leafKeys seen f.1 f.2, key ∈ settingKeys := by
      intro key hkey
      obtain hold | hnew := (hadd key).mp hkey
      · exact hseen key hold
      · exact hnew.mem_settingKeys
    rw [leafKeysIn, if_pos rfl, ih (fun g hg => hfields g (List.mem_cons_of_mem _ hg)) hadded,
      hadd, or_assoc, ← occurs_cons]

end Store

def defaultKeys : List String :=
  ["tools", "log.level", "timing.watcher_stop_timeout", "timing.dismiss_interval",
    "timing.dismiss_grace", "timing.process_timeout", "artifact.extension", "corpus.extension",
    "corpus.dir"]

theorem defaultKeys_spec : ∀ key ∈ settingKeys,
    key ∈ defaultKeys ∨ (lookup Settings.defaults (keyPath key)).isNone = true := by
  decide +kernel

namespace Store

theorem leafKeysIn_defaults {seen : List String} (hseen : ∀ key ∈ seen, key ∈ settingKeys) :
    leafKeysIn seen "" Settings.defaults = defaultKeys ++ seen := by
  have hfree : ∀ part ∈ parts, part ∉ seen := fun part hp hmem =>
    (parts_spec part hp).2.1 (hseen part hmem)
  have hlow := fun key hk => @lowered_settingKeys key hk
  simp only [parts, List.mem_cons, List.not_mem_nil, or_false, forall_eq_or_imp, forall_eq] at hfree
  simp only [settingKeys, keysWith, List.mem_append, List.mem_cons, List.not_mem_nil, or_false,
    or_imp, forall_and, forall_eq] at hlow
  simp [Settings.defaults, leafKeysIn, leafKeys, Timing.fields, defaultKeys, hfree, hlow]

theorem seenKeys_layered (file : Fields) :
    (layered file).seenKeys = leafKeysIn (leafKeysIn [] "" file) "" Settings.defaults := rfl

theorem mem_seenKeys {file : Fields} (h : Documented file) (key : String) :
    key ∈ (layered file).seenKeys ↔ key ∈ defaultKeys ∨ Occurs file key := by
  have hfile := mem_leafKeysIn h (fun _ hf => hf) (fun _ hk => absurd hk List.not_mem_nil)
  have hsub : ∀ key ∈ leafKeysIn [] "" file, key ∈ settingKeys := by
    intro key hkey
    exact ((hfile key).mp hkey).resolve_left List.not_mem_nil |>.mem_settingKeys
  rw [seenKeys_layered, leafKeysIn_defaults hsub, List.mem_append, hfile]
  simp

/-- The keys of a documented file and the defaults are those of settings, in order. -/
theorem keys_layered {file : Fields} (h : Documented file) :
    (layered file).keys = settingKeys.filter fun key => key ∈ (layered file).seenKeys := by
  have hsorted : settingKeys.Pairwise (· ≤ ·) := (keysWith_spec _ (by simp)).1
  have hnodup : settingKeys.Nodup := by decide
  have hdefault : ∀ key ∈ defaultKeys, key ∈ settingKeys := by decide
  have hseen : (layered file).seenKeys.eraseDups.Nodup :=
    (eraseDups_order _).imp fun h he => by simp [he] at h
  refine keys_eq ?_ (hsorted.sublist List.filter_sublist)
  rw [List.perm_ext_iff_of_nodup hseen (hnodup.sublist List.filter_sublist)]
  intro key
  rw [List.mem_eraseDups, List.mem_filter, decide_eq_true_eq]
  refine ⟨fun hkey => ⟨?_, hkey⟩, And.right⟩
  obtain hkey | hkey := (mem_seenKeys h key).mp hkey
  · exact hdefault key hkey
  · exact hkey.mem_settingKeys

/-- The tree of all settings holds each of them that the file or the defaults give a value. -/
theorem settings_layered {file : Fields} (h : Documented file) :
    (layered file).settings = settingKeys.foldl (layered file).putKey [] := by
  rw [settings_eq_foldl, keys_layered h, List.foldl_filter]
  apply List.foldl_ext
  intro fs key hkey
  split
  · rfl
  · rename_i hunseen
    rw [decide_eq_true_eq, mem_seenKeys h, not_or] at hunseen
    have hfile : lookup file (keyPath key) = none := by
      rw [Option.eq_none_iff_forall_ne_some]
      exact fun v hv => hunseen.2 (occurs_of_lookup hkey hv)
    have hdefault :=
      Option.isNone_iff_eq_none.mp ((defaultKeys_spec key hkey).resolve_left hunseen.1)
    rw [putKey, h.get?_layered hkey, hfile, hdefault]
    rfl

end Store

end Crosscheck.Settings
