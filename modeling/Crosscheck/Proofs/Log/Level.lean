import Mathlib.Algebra.Ring.Int.Defs
import Crosscheck.Log.Level
import Crosscheck.Proofs.Duration

namespace Crosscheck

namespace Text

theorem toNat_of_isUpper {c : Char} (h : c.isUpper = true) : 65 ≤ c.toNat ∧ c.toNat < 91 := by
  have hrange : 'A'.val ≤ c.val ∧ c.val ≤ 'Z'.val := of_decide_eq_true h
  exact ⟨hrange.1, Nat.lt_succ_of_le hrange.2⟩

theorem toLower_of_isUpper_eq_false {c : Char} (h : c.isUpper = false) : c.toLower = c :=
  dif_neg (of_decide_eq_false h)

theorem toLower_of_isUpper {c : Char} (h : c.isUpper = true) :
    upper c.toLower = upper c ∧ c.toLower.isLower = true := by
  have hall : ∀ n < 91, 65 ≤ n → upper (Char.ofNat n).toLower = upper (Char.ofNat n) ∧
      (Char.ofNat n).toLower.isLower = true := by
    decide +kernel
  obtain ⟨hle, hlt⟩ := toNat_of_isUpper h
  simpa only [Char.ofNat_toNat] using hall c.toNat hlt hle

theorem upper_toLower (c : Char) : upper c.toLower = upper c := by
  cases h : c.isUpper with
  | false => rw [toLower_of_isUpper_eq_false h]
  | true => exact (toLower_of_isUpper h).1

theorem eq_of_toLower_eq {c d : Char} (hd : d.isAlpha = false) (h : c.toLower = d.toLower) :
    c = d := by
  have hd : d.isUpper = false ∧ d.isLower = false := Bool.or_eq_false_iff.mp hd
  rw [toLower_of_isUpper_eq_false hd.1] at h
  cases hc : c.isUpper with
  | false => rwa [toLower_of_isUpper_eq_false hc] at h
  | true =>
    have hlower := (toLower_of_isUpper hc).2
    rw [h, hd.2] at hlower
    cases hlower

theorem isAlpha_of_isDigit {c : Char} (h : c.isDigit = true) : c.isAlpha = false := by
  have hall : ∀ n < 58, 48 ≤ n → (Char.ofNat n).isAlpha = false := by decide
  simp only [Char.isDigit, Bool.and_eq_true, decide_eq_true_eq] at h
  simpa only [Char.ofNat_toNat] using hall c.toNat (Nat.lt_succ_of_le h.2) h.1

theorem mem_of_inRanges {n : Nat} {table : List (Nat × Nat)} (h : inRanges n table = true) :
    n ∈ table.flatMap fun r => List.range' r.1 (r.2 + 1 - r.1) := by
  simp only [inRanges, List.any_eq_true, Bool.and_eq_true, decide_eq_true_eq] at h
  obtain ⟨r, hr, hlo, hhi⟩ := h
  exact List.mem_flatMap.mpr ⟨r, hr, List.mem_range'_1.mpr ⟨hlo, by omega⟩⟩

theorem isBlank_spec {c : Char} (h : isBlank c = true) :
    (upper c).isUpper = false ∧ c.isDigit = false ∧ c ≠ '+' ∧ c ≠ '-' := by
  have hall : ∀ n ∈ blankRanges.flatMap (fun r => List.range' r.1 (r.2 + 1 - r.1)),
      (upper (Char.ofNat n)).isUpper = false ∧ (Char.ofNat n).isDigit = false ∧
        Char.ofNat n ≠ '+' ∧ Char.ofNat n ≠ '-' := by
    decide +kernel
  simpa only [Char.ofNat_toNat] using hall c.toNat (mem_of_inRanges h)

theorem exists_trimBlanks (cs : List Char) :
    ∃ before after, cs = before ++ trimBlanks cs ++ after ∧
      ∀ c ∈ before ++ after, isBlank c = true := by
  refine ⟨cs.takeWhile isBlank, (cs.dropWhile isBlank).rtakeWhile isBlank, ?_, fun c hc => ?_⟩
  · have htail : trimBlanks cs ++ (cs.dropWhile isBlank).rtakeWhile isBlank =
        cs.dropWhile isBlank := List.rdropWhile_append_rtakeWhile
    rw [List.append_assoc, htail, List.takeWhile_append_dropWhile]
  · obtain hc | hc := List.mem_append.mp hc
    · exact List.mem_takeWhile_imp hc
    · exact List.mem_rtakeWhile_imp hc

theorem trimBlanks_append {before body after : List Char}
    (hblank : ∀ c ∈ before ++ after, isBlank c = true) (hbody : ∀ c ∈ body, isBlank c = false)
    (hne : body ≠ []) : trimBlanks (before ++ body ++ after) = body := by
  have hkeep : ∀ {l rest : List Char}, l ≠ [] → (∀ c ∈ l, isBlank c = false) →
      (l ++ rest).dropWhile isBlank = l ++ rest := by
    intro l rest hl hnot
    obtain ⟨c, l, rfl⟩ := List.exists_cons_of_ne_nil hl
    rw [List.cons_append, List.dropWhile_cons_of_neg (by simp [hnot c List.mem_cons_self])]
  have hbefore : ∀ c ∈ before, isBlank c = true := fun c hc => hblank c (by simp [hc])
  have hafter : ∀ c ∈ after.reverse, isBlank c = true := fun c hc =>
    hblank c (List.mem_append_right _ (List.mem_reverse.mp hc))
  have hback := @hkeep body.reverse [] (by simpa using hne) fun c hc =>
    hbody c (List.mem_reverse.mp hc)
  rw [List.append_nil] at hback
  rw [trimBlanks, List.append_assoc, List.dropWhile_append_of_pos hbefore, hkeep hne hbody,
    List.reverse_append, List.dropWhile_append_of_pos hafter, hback, List.reverse_reverse]

theorem isDigit_of_digitIn? {c : Char} {d : Nat} (h : digitIn? 10 c = some d) :
    c.isDigit = true := by
  rw [digitIn?, digitValue?] at h
  by_contra hc
  rw [if_neg hc] at h
  split at h
  · rename_i n hn
    have hlarge : ¬ n < 10 := by
      split at hn
      · cases hn
        omega
      · split at hn
        · cases hn
          omega
        · cases hn
    rw [if_neg hlarge] at h
    cases h
  · cases h

theorem isDigit_of_valueFrom? {ds : List Char} {acc n : Nat} (h : valueFrom? 10 acc ds = some n) :
    ∀ c ∈ ds, c.isDigit = true := by
  induction ds generalizing acc with
  | nil => simp
  | cons c rest ih =>
    rw [valueFrom?] at h
    split at h
    · rename_i d hd
      exact List.forall_mem_cons.mpr ⟨isDigit_of_digitIn? hd, ih h⟩
    · cases h

theorem value?_ten_iff {ds : List Char} {n : Nat} :
    value? 10 ds = some n ↔
      ds ≠ [] ∧ (∀ c ∈ ds, c.isDigit = true) ∧ Nat.ofDigitChars 10 ds 0 = n := by
  rw [value?]
  by_cases hne : ds = []
  · simp [hne]
  rw [if_neg (by simpa using hne)]
  constructor
  · intro h
    have hdigits := isDigit_of_valueFrom? h
    rw [valueFrom?_ten hdigits] at h
    exact ⟨hne, hdigits, Option.some.inj h⟩
  · rintro ⟨_, hdigits, rfl⟩
    exact valueFrom?_ten hdigits 0

end Text

namespace Log.Level

def sign (negative : Bool) : Char := if negative then '-' else '+'

def signedValue (negative : Bool) (n : Nat) : Int := if negative then -n else n

/-- How far a level lies from a name, as it is written: not at all, or by a sign and digits that
denote a 64-bit number. -/
inductive Distance : List Char → Int → Prop
  | none : Distance [] 0
  | signed (negative : Bool) {ds : List Char} (some : ds ≠ []) (digits : ∀ c ∈ ds, c.isDigit = true)
      (fits : -2 ^ 63 ≤ signedValue negative (Nat.ofDigitChars 10 ds 0) ∧
        signedValue negative (Nat.ofDigitChars 10 ds 0) < 2 ^ 63) :
      Distance (sign negative :: ds) (signedValue negative (Nat.ofDigitChars 10 ds 0))

def bases : List (String × Level) :=
  [("DEBUG", debug), ("INFO", info), ("WARN", warn), ("ERROR", error)]

/-- A text stands for a level: between white space there is a name in any case and how far above or
below the level of that name it lies, counted in 64-bit words. -/
def Denotes (s : String) (l : Level) : Prop :=
  ∃ before name distance after base offset,
    s.toList = before ++ (name ++ distance) ++ after ∧
    (∀ c ∈ before ++ after, Text.isBlank c = true) ∧
    (String.ofList (name.map Text.upper), base) ∈ bases ∧
    Distance distance offset ∧
    l.value.toInt = (base.value.toInt + offset).bmod (2 ^ 64)

theorem isSign_iff {c : Char} : isSign c = true ↔ ∃ negative, c = sign negative := by
  simp [isSign, sign]

theorem Distance.toInt_ofInt {d : List Char} {i : Int} (h : Distance d i) :
    (Int64.ofInt i).toInt = i := by
  cases h with
  | none => rfl
  | signed negative some digits fits => exact Int64.toInt_ofInt_of_le fits.1 fits.2

theorem Distance.mem {d : List Char} {i : Int} (h : Distance d i) :
    ∀ c ∈ d, c.isDigit = true ∨ isSign c = true := by
  cases h with
  | none => simp
  | signed negative some digits fits =>
    rw [List.forall_mem_cons]
    exact ⟨.inr (isSign_iff.mpr ⟨negative, rfl⟩), fun c hc => .inl (digits c hc)⟩

theorem offset?_signed (negative : Bool) (ds : List Char) :
    offset? (sign negative :: ds) = (Text.value? 10 ds).bind (Text.signedInRange negative) := by
  change Text.int64? (sign negative :: ds) = _
  cases negative <;> cases h : Text.value? 10 ds <;> simp [Text.int64?, sign, Text.unsign, h]

theorem signedInRange_eq (negative : Bool) (n : Nat) :
    Text.signedInRange negative n =
      if -2 ^ 63 ≤ signedValue negative n ∧ signedValue negative n < 2 ^ 63 then
        some (Int64.ofInt (signedValue negative n))
      else none := by
  cases negative <;> simp only [Text.signedInRange, signedValue, Nat.pow_eq] <;> grind

theorem offset?_of_distance {d : List Char} {i : Int} (h : Distance d i) :
    offset? d = some (Int64.ofInt i) := by
  cases h with
  | none => rfl
  | signed negative some digits fits =>
    rw [offset?_signed, Text.value?_ten_iff.mpr ⟨some, digits, rfl⟩, Option.bind_some,
      signedInRange_eq, if_pos fits]

theorem distance_of_offset? {d : List Char} (hd : ∀ c ∈ d.head?, isSign c = true) {n : Int64}
    (h : offset? d = some n) : Distance d n.toInt := by
  cases d with
  | nil =>
    cases h
    exact .none
  | cons c ds =>
    obtain ⟨negative, rfl⟩ := isSign_iff.mp (hd c rfl)
    rw [offset?_signed, Option.bind_eq_some_iff] at h
    obtain ⟨v, hv, hn⟩ := h
    obtain ⟨hne, hdigits, rfl⟩ := Text.value?_ten_iff.mp hv
    rw [signedInRange_eq] at hn
    split at hn
    · rename_i hfits
      cases hn
      rw [Int64.toInt_ofInt_of_le hfits.1 hfits.2]
      exact .signed negative hne hdigits hfits
    · cases hn

theorem ofName?_eq_some_iff {name : List Char} {base : Level} :
    ofName? name = some base ↔ (String.ofList (name.map Text.upper), base) ∈ bases := by
  rw [ofName?]
  generalize String.ofList (name.map Text.upper) = s
  split <;> simp_all [bases, eq_comm]

theorem letters_of_mem_bases {name : List Char} {base : Level}
    (h : (String.ofList (name.map Text.upper), base) ∈ bases) :
    name ≠ [] ∧ ∀ c ∈ name, (Text.upper c).isUpper = true := by
  have hall : ∀ b ∈ bases, b.1.toList ≠ [] ∧ b.1.toList.all Char.isUpper = true := by decide
  simpa using hall _ h

theorem isSign_of_letter {c : Char} (h : (Text.upper c).isUpper = true) : isSign c = false := by
  simp only [isSign, Bool.or_eq_false_iff, decide_eq_false_iff_not]
  constructor <;> rintro rfl <;> revert h <;> decide

theorem Distance.head {d : List Char} {i : Int} (h : Distance d i) :
    ∀ c ∈ d.head?, isSign c = true := by
  cases h with
  | none => simp
  | signed negative => simpa using isSign_iff.mpr ⟨negative, rfl⟩

theorem isBlank_eq_false {name distance : List Char} {offset : Int}
    (hname : ∀ c ∈ name, (Text.upper c).isUpper = true) (hdistance : Distance distance offset) :
    ∀ c ∈ name ++ distance, Text.isBlank c = false := by
  intro c hc
  by_contra hblank
  obtain ⟨hletter, hdigit, hsign⟩ := Text.isBlank_spec (Bool.not_eq_false _ ▸ hblank)
  obtain hc | hc := List.mem_append.mp hc
  · rw [hname c hc] at hletter
    cases hletter
  · obtain h | h := hdistance.mem c hc
    · rw [h] at hdigit
      cases hdigit
    · rw [isSign, Bool.or_eq_true, decide_eq_true_eq, decide_eq_true_eq] at h
      exact not_or.mpr hsign h

theorem takeWhile_name {name distance : List Char} (hname : ∀ c ∈ name, isSign c = false)
    (hdistance : ∀ c ∈ distance.head?, isSign c = true) :
    (name ++ distance).takeWhile (!isSign ·) = name ∧
      (name ++ distance).dropWhile (!isSign ·) = distance := by
  have hkept : ∀ c ∈ name, (!isSign c) = true := fun c hc => by rw [hname c hc]; rfl
  rw [List.takeWhile_append_of_pos hkept, List.dropWhile_append_of_pos hkept]
  cases distance with
  | nil => simp
  | cons c ds => simp [hdistance c rfl]

theorem value_add (base : Level) (n : Int64) (l : Level) :
    ⟨base.value + n⟩ = l ↔ l.value.toInt = (base.value.toInt + n.toInt).bmod (2 ^ 64) := by
  rw [← Int64.toInt_add, Int64.toInt_inj]
  constructor
  · rintro rfl
    rfl
  · rintro h
    rw [← h]

theorem parse?_of_denotes {s : String} {l : Level} (h : Denotes s l) : parse? s = some l := by
  obtain ⟨before, name, distance, after, base, offset, hs, hblank, hbase, hdistance, hvalue⟩ := h
  obtain ⟨hne, hletters⟩ := letters_of_mem_bases hbase
  have htrim := Text.trimBlanks_append hblank (isBlank_eq_false hletters hdistance) (by simp [hne])
  obtain ⟨htake, hdrop⟩ := takeWhile_name (fun c hc => isSign_of_letter (hletters c hc))
    hdistance.head
  rw [parse?, parseChars?, hs, htrim, htake, hdrop, offset?_of_distance hdistance,
    ofName?_eq_some_iff.mpr hbase]
  rw [Option.some.injEq, value_add, hdistance.toInt_ofInt]
  exact hvalue

theorem denotes_of_parse? {s : String} {l : Level} (h : parse? s = some l) : Denotes s l := by
  obtain ⟨before, after, hs, hblank⟩ := Text.exists_trimBlanks s.toList
  rw [parse?, parseChars?] at h
  generalize Text.trimBlanks s.toList = body at hs h
  split at h
  · rename_i n base hoffset hbase
    have hsplit := List.takeWhile_append_dropWhile (p := (!isSign ·)) (l := body)
    have hhead : ∀ c ∈ (body.dropWhile (!isSign ·)).head?, isSign c = true := by
      intro c hc
      have hstop := List.head?_dropWhile_not (!isSign ·) body
      rw [Option.mem_def.mp hc] at hstop
      simpa using hstop
    rw [← hsplit] at hs
    exact ⟨before, _, _, after, base, n.toInt, hs, hblank, ofName?_eq_some_iff.mp hbase,
      distance_of_offset? hhead hoffset, (value_add base n l).mp (Option.some.inj h)⟩
  · cases h

theorem exists_distance (text : String) {i : Int} (hle : -2 ^ 63 ≤ i) (hlt : i < 2 ^ 63) :
    ∃ distance, (named text i).toList = text.toList ++ distance ∧ Distance distance i := by
  by_cases hzero : i = 0
  · subst hzero
    exact ⟨[], by simp [named], .none⟩
  have hvalue : signedValue (i < 0) (Nat.ofDigitChars 10 (Nat.toDigits 10 i.natAbs) 0) = i := by
    rw [Nat.ofDigitChars_ten_toDigits, signedValue]
    split
    · rename_i hneg
      have hneg : i < 0 := of_decide_eq_true hneg
      omega
    · rename_i hpos
      have hpos : ¬ i < 0 := fun h => hpos (decide_eq_true h)
      omega
  refine ⟨sign (i < 0) :: Nat.toDigits 10 i.natAbs, ?_, ?_⟩
  · rw [named, if_neg hzero]
    obtain hneg | hpos := Int.lt_or_gt_of_ne hzero
    · simp [Text.int, sign, hneg, Int.le_of_lt hneg]
    · simp [Text.int, sign, hpos, Int.le_of_lt hpos]
  · have h := @Distance.signed (i < 0) (Nat.toDigits 10 i.natAbs) Nat.toDigits_ne_nil
      Text.isDigit_toDigits (by rw [hvalue]; exact ⟨hle, hlt⟩)
    rwa [hvalue] at h

/-- A level is shown as one of the four names and the distance from it. -/
theorem exists_name (l : Level) :
    ∃ text base distance offset, (text, base) ∈ bases ∧
      l.name.toList = text.toList ++ distance ∧ Distance distance offset ∧
      l.value.toInt = base.value.toInt + offset := by
  have hle := l.value.le_toInt
  have hlt := l.value.toInt_lt
  have hsplit : ∃ text base, (text, base) ∈ bases ∧
      l.name = named text (l.value.toInt - base.value.toInt) ∧
      -2 ^ 63 ≤ l.value.toInt - base.value.toInt ∧ l.value.toInt - base.value.toInt < 2 ^ 63 := by
    have hdebug : debug.value.toInt = -4 := rfl
    have hinfo : info.value.toInt = 0 := rfl
    have hwarn : warn.value.toInt = 4 := rfl
    have herror : error.value.toInt = 8 := rfl
    rw [name]
    split
    · exact ⟨"DEBUG", debug, by simp [bases], by rw [hdebug, Int.sub_neg], by omega, by omega⟩
    split
    · exact ⟨"INFO", info, by simp [bases], by rw [hinfo, Int.sub_zero], by omega, by omega⟩
    split
    · exact ⟨"WARN", warn, by simp [bases], by rw [hwarn], by omega, by omega⟩
    · exact ⟨"ERROR", error, by simp [bases], by rw [herror], by omega, by omega⟩
  obtain ⟨text, base, hbase, hname, hlow, hhigh⟩ := hsplit
  obtain ⟨distance, htext, hdistance⟩ := exists_distance text hlow hhigh
  exact ⟨text, base, distance, _, hbase, hname ▸ htext, hdistance, by omega⟩

theorem upper_eq_self_of_mem_bases {text : String} {base : Level} (h : (text, base) ∈ bases) :
    text.toList.map Text.upper = text.toList := by
  have hall : ∀ b ∈ bases, b.1.toList.map Text.upper = b.1.toList := by decide
  exact hall _ h

theorem map_upper_of_map_toLower {cs ds : List Char}
    (h : cs.map Char.toLower = ds.map Char.toLower) : cs.map Text.upper = ds.map Text.upper := by
  have hupper : ∀ l : List Char, l.map Text.upper = (l.map Char.toLower).map Text.upper := by
    intro l
    simp [Text.upper_toLower]
  rw [hupper cs, h, ← hupper ds]

theorem Distance.eq_of_map_toLower {d cs : List Char} {i : Int} (h : Distance d i)
    (hcase : cs.map Char.toLower = d.map Char.toLower) : cs = d := by
  have halpha : ∀ c ∈ d, c.isAlpha = false := by
    intro c hc
    obtain hdigit | hsign := h.mem c hc
    · exact Text.isAlpha_of_isDigit hdigit
    · obtain ⟨negative, rfl⟩ := isSign_iff.mp hsign
      cases negative <;> rfl
  clear h
  induction d generalizing cs with
  | nil => simpa using hcase
  | cons c rest ih =>
    obtain ⟨c', rest', rfl, hc, hrest⟩ := List.map_eq_cons_iff.mp hcase
    rw [Text.eq_of_toLower_eq (halpha c List.mem_cons_self) hc,
      ih hrest fun a ha => halpha a (List.mem_cons_of_mem _ ha)]

theorem denotes_name {l : Level} {before cased after : List Char}
    (hcase : cased.map Char.toLower = l.name.toList.map Char.toLower)
    (hblank : ∀ c ∈ before ++ after, Text.isBlank c = true) :
    Denotes (String.ofList (before ++ cased ++ after)) l := by
  obtain ⟨text, base, distance, offset, hbase, hname, hdistance, hvalue⟩ := exists_name l
  rw [hname, List.map_append] at hcase
  obtain ⟨letters, tail, rfl, hletters, htail⟩ := List.map_eq_append_iff.mp hcase
  obtain rfl := hdistance.eq_of_map_toLower htail
  have hupper := map_upper_of_map_toLower hletters
  rw [upper_eq_self_of_mem_bases hbase] at hupper
  refine ⟨before, letters, tail, after, base, offset, by simp, hblank, ?_, hdistance, ?_⟩
  · rwa [hupper, String.ofList_toList]
  · rw [← hvalue, Int.bmod_eq_of_le]
    · have := l.value.le_toInt
      omega
    · have := l.value.toInt_lt
      omega

/-- Every level is read back from its name, whatever the case of its letters and the white space
around it, and what can be read as a level is exactly what stands for one. -/
theorem parse?_exact :
    (∀ (l : Level) (before cased after : List Char),
      cased.map Char.toLower = l.name.toList.map Char.toLower →
      (∀ c ∈ before ++ after, Text.isBlank c = true) →
      parse? (String.ofList (before ++ cased ++ after)) = some l) ∧
    ∀ (s : String) (l : Level), parse? s = some l ↔ Denotes s l :=
  ⟨fun _ _ _ _ hcase hblank => parse?_of_denotes (denotes_name hcase hblank),
    fun _ _ => ⟨denotes_of_parse?, parse?_of_denotes⟩⟩

/-- The least level, in mixed case between an ideographic space and a line feed. -/
theorem parse?_exact_least :
    (⟨Int64.minValue⟩ : Level).name = "DEBUG-9223372036854775804" ∧
    parse? "\u3000dEbUg-9223372036854775804\n" = some ⟨Int64.minValue⟩ := by
  have hname : (⟨Int64.minValue⟩ : Level).name = "DEBUG-9223372036854775804" := by decide +kernel
  refine ⟨hname, ?_⟩
  have hblank : (['\u3000'] ++ ['\n']).all Text.isBlank = true := by decide
  exact parse?_exact.1 ⟨Int64.minValue⟩ ['\u3000'] "dEbUg-9223372036854775804".toList ['\n']
    (by rw [hname]; decide +kernel) (List.all_eq_true.mp hblank)

end Log.Level

end Crosscheck
