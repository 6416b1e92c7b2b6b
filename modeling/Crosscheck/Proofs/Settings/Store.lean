import Crosscheck.Proofs.Path
import Crosscheck.Settings.Store

namespace Crosscheck.Settings

theorem keyPath_ne_nil (key : String) : keyPath key ≠ [] := by
  simp [keyPath, Path.splitAt_eq_splitOn, List.splitOn_ne_nil]

theorem lookup_nil {path : List String} (h : path ≠ []) : lookup [] path = none := by
  cases path with
  | nil => exact absurd rfl h
  | cons k rest => simp [lookup, Fields.get?]

/-- A path is in the open where all that stands on the way to it is maps. -/
theorem isShadowed_eq_false {fs : Fields} {path : List String}
    (h : ∀ n, 0 < n → n < path.length → ∀ v, lookup fs (path.take n) = some v → ∃ m, v = .map m) :
    isShadowed fs path = false := by
  rw [isShadowed]
  split
  · rename_i p hp
    have hmem := List.mem_of_find?_eq_some hp
    have hbad := List.find?_some hp
    obtain ⟨i, hi, rfl⟩ := List.mem_map.mp hmem
    have hlt : i + 1 < path.length := by
      have := List.mem_range.mp hi
      omega
    cases hl : lookup fs (path.take (i + 1)) with
    | none => rfl
    | some v =>
      obtain ⟨m, rfl⟩ := h (i + 1) (Nat.succ_pos i) hlt v hl
      simp [hl] at hbad
  · rfl

theorem searchConfig_single {fs : Fields} {key : String} {v : Value}
    (h : fs.get? (Text.lowered key) = some v) (hv : v ≠ .null) :
    searchConfig fs [key] = some v := by
  cases v with
  | null => exact absurd rfl hv
  | _ => simp [searchConfig, search, keyOf, h]

/-- A field of a part is found, unless a key with a dot in it goes before. -/
theorem searchConfig_pair {fs inner : Fields} {part name : String} {v : Value}
    (hdotted : fs.get? (Text.lowered (part ++ "." ++ name)) = none)
    (hpart : fs.get? (Text.lowered part) = some (.map inner))
    (hname : inner.get? (Text.lowered name) = some v) (hv : v ≠ .null) :
    searchConfig fs [part, name] = some v := by
  cases v with
  | null => exact absurd rfl hv
  | _ => simp [searchConfig, search, keyOf, hdotted, hpart, hname, List.range, List.range.loop]

namespace Store

/-- No stronger place than the configuration file has a say on a key: it has no value of the
program's own, no changed flag and no variable, and is not below one that has. -/
structure Unclaimed (s : Store) (key : String) : Prop where
  override : lookup s.override (keyPath key) = none
  shadow : isShadowed s.override (keyPath key) = false
  flag : ∀ f, s.flag? key = some f → f.changed = false
  above : ∀ p ∈ parents (keyPath key), s.flag? p = none
  env : ∀ p ∈ key :: parents (keyPath key), s.envValue? p = none

theorem Unclaimed.find?_eq {s : Store} {key : String} (h : s.Unclaimed key) :
    s.find? key =
      orElse (searchConfig s.config (keyPath key)) (isShadowed s.config (keyPath key)) fun _ =>
      orElse (lookup s.defaults (keyPath key)) (isShadowed s.defaults (keyPath key)) fun _ =>
      (s.flag? key).map fun f => .text f.value := by
  have habove : ((parents (keyPath key)).any fun p => (s.flag? p).isSome) = false := by
    rw [List.any_eq_false]
    intro p hp
    simp [h.above p hp]
  have henv : ((parents (keyPath key)).any fun p => (s.envValue? p).isSome) = false := by
    rw [List.any_eq_false]
    intro p hp
    simp [h.env p (List.mem_cons_of_mem _ hp)]
  have hkey := h.env key List.mem_cons_self
  rw [find?, h.override, h.shadow, habove, hkey, henv]
  cases hf : s.flag? key with
  | none => rfl
  | some f => simp [orElse, h.flag f hf]

theorem Unclaimed.find?_of_file {s : Store} {key : String} {v : Value} (h : s.Unclaimed key)
    (hv : searchConfig s.config (keyPath key) = some v) : s.find? key = some v := by
  rw [h.find?_eq, hv]
  rfl

theorem unclaimed_of_file (config defaults : Fields) (key : String) :
    ({ config, defaults } : Store).Unclaimed key := by
  refine ⟨lookup_nil (keyPath_ne_nil key), ?_, nofun, fun _ _ => rfl, fun _ _ => rfl⟩
  apply isShadowed_eq_false
  intro n hpos hlt v hv
  have hne : (keyPath key).take n ≠ [] := by
    intro hnil
    have hlen := congrArg List.length hnil
    rw [List.length_take, List.length_nil] at hlen
    omega
  rw [lookup_nil hne] at hv
  cases hv

theorem envValue?_eq_none {s : Store} {vars : List (String × String)} (hs : s.env = some vars)
    {key : String} (h : ∀ e ∈ vars, e.1 = envName key → e.2 = "") : s.envValue? key = none := by
  rw [envValue?, hs]
  dsimp only
  split
  · rename_i name value hf
    have hname := List.find?_some hf
    have hvalue : value = "" := h _ (List.mem_of_find?_eq_some hf) (by simpa using hname)
    rw [if_pos hvalue]
  · rfl

def seenKeys (s : Store) : List String :=
  leafKeysIn (leafKeysIn (flagKeys (leafKeysIn [] "" s.override) s.flags) "" s.config) "" s.defaults

theorem keys_eq {s : Store} {ks : List String} (hperm : s.seenKeys.eraseDups.Perm ks)
    (hsorted : ks.Pairwise (· ≤ ·)) : s.keys = ks := by
  have htrans : ∀ a b c : String, decide (a ≤ b) = true → decide (b ≤ c) = true →
      decide (a ≤ c) = true := by
    intro a b c hab hbc
    exact decide_eq_true (String.le_trans (of_decide_eq_true hab) (of_decide_eq_true hbc))
  have htotal : ∀ a b : String, (decide (a ≤ b) || decide (b ≤ a)) = true := by
    intro a b
    simpa using String.le_total a b
  have hpairwise : s.keys.Pairwise (· ≤ ·) :=
    (List.pairwise_mergeSort htrans htotal s.seenKeys.eraseDups).imp of_decide_eq_true
  have hkeys : s.keys.Perm ks := (List.mergeSort_perm _ _).trans hperm
  exact hkeys.eq_of_pairwise (fun a b _ _ => String.le_antisymm) hpairwise hsorted

/-- The tree of all settings is made of its leaves, in order of their keys. -/
theorem settings_eq {s : Store} {leaves : List (String × Value)}
    (hkeys : s.keys = leaves.map (·.1)) (hget : ∀ l ∈ leaves, s.get? l.1 = some l.2) :
    s.settings = leaves.foldl (fun fs l => putAt fs l.2 (keyPath l.1)) [] := by
  rw [settings, hkeys, List.foldl_map]
  apply List.foldl_ext
  intro fs l hl
  rw [hget l hl]

end Store

end Crosscheck.Settings
