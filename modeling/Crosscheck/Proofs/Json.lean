import Crosscheck.Json.Reader
import Crosscheck.Proofs.Duration

namespace Crosscheck

theorem Text.toDigits_head_ne_zero {n : Nat} (hn : 0 < n) :
    (Nat.toDigits 10 n).head? ≠ some '0' := by
  induction n using Nat.strongRecOn with
  | ind n ih =>
    rw [Nat.toDigits_eq_if (by decide)]
    split
    · simpa [Nat.digitChar_eq_zero] using Nat.ne_of_gt hn
    · have hrest := ih (n / 10) (Nat.div_lt_self hn (by decide)) (by omega)
      obtain ⟨c, rest, hdigits, _⟩ := Duration.head_toDigits (n / 10)
      rw [hdigits] at hrest ⊢
      exact hrest

namespace Json

/-- What can stand between the quotes of a string, and the characters that it stands for. -/
def Spells (body cs : List Char) : Prop :=
  ∀ acc rest, stringFrom acc none (body ++ rest) = stringFrom (cs.reverse ++ acc) none rest

theorem Spells.nil : Spells [] [] := fun _ _ => rfl

theorem Spells.append {body body' cs cs' : List Char} (h : Spells body cs) (h' : Spells body' cs') :
    Spells (body ++ body') (cs ++ cs') := by
  intro acc rest
  rw [List.append_assoc, h, h', List.reverse_append, List.append_assoc]

theorem stringFrom_close (acc : List Char) (high : Option Nat) (rest : List Char) :
    stringFrom acc high ('"' :: rest) = .ok (String.ofList (flush acc high).reverse, rest) := rfl

theorem stringFrom_unit {a b c d : Char} (h : [a, b, c, d].find? (fun x => !isHex x) = none)
    (acc : List Char) (high : Option Nat) (rest : List Char) :
    stringFrom acc high ('\\' :: 'u' :: a :: b :: c :: d :: rest) =
      let (acc, high) := addUnit acc high ((Text.value? 16 [a, b, c, d]).getD 0)
      stringFrom acc high rest := by
  rw [stringFrom, h]

theorem Spells.stringFrom_quote {body cs : List Char} (h : Spells body cs) (rest : List Char) :
    stringFrom [] none (body ++ '"' :: rest) = .ok (String.ofList cs, rest) := by
  rw [h, stringFrom_close]
  simp [flush]

theorem spells_plain {c : Char} (hquote : c ≠ '"') (hslash : c ≠ '\\') (hc : 0x20 ≤ c.toNat) :
    Spells [c] [c] := by
  intro acc rest
  have hlow : ¬ c.toNat < 0x20 := by omega
  rw [List.singleton_append, stringFrom, if_neg hlow]
  · rfl
  all_goals simp_all

theorem spells_escape {e c : Char} (h : escapeOf? e = some c) : Spells ['\\', e] [c] := by
  intro acc rest
  have hu : e ≠ 'u' := by
    rintro rfl
    cases h
  rw [List.cons_append, List.singleton_append, stringFrom, h]
  · rfl
  all_goals simp_all

theorem spells_unit {a b c d : Char} {n : Nat} (hhex : [a, b, c, d].all isHex = true)
    (hvalue : Text.value? 16 [a, b, c, d] = some n) (hn : n < 0xd800 ∨ 0xe000 ≤ n) :
    Spells ['\\', 'u', a, b, c, d] [Char.ofNat n] := by
  intro acc rest
  have hfind : [a, b, c, d].find? (fun x => !isHex x) = none := by
    rw [List.find?_eq_none]
    intro x hx
    simpa using List.all_eq_true.mp hhex x hx
  have hadd : addUnit acc none n = (Char.ofNat n :: acc, none) := by
    rw [addUnit, if_neg (by omega), if_neg (by omega)]
    rfl
  simp only [List.cons_append, List.nil_append]
  rw [stringFrom_unit hfind, hvalue, Option.getD_some, hadd]
  rfl

def Stops (rest : List Char) : Prop := ∀ c ∈ rest.head?, c = ',' ∨ c = ']' ∨ c = '\x7d'

/-- A text that reads as a value, wherever there is room for so many levels of nesting. -/
structure Reads (depth : Nat) (text : List Char) (v : Json) : Prop where
  starts : ∃ c tail, text = c :: tail ∧ isSpace c = false ∧ c ≠ ']'
  value : ∀ fuel left rest, text.length < fuel → depth ≤ left → Stops rest →
    valueFrom fuel left (text ++ rest) = .ok (v, rest)

theorem skipSpace_cons {c : Char} (h : isSpace c = false) (rest : List Char) :
    skipSpace (c :: rest) = c :: rest := List.dropWhile_cons_of_neg (by simp [h])

theorem Reads.intro {depth : Nat} {c : Char} {tail : List Char} {v : Json}
    (hspace : isSpace c = false) (hc : c ≠ ']')
    (h : ∀ fuel left rest, tail.length < fuel → depth ≤ left → Stops rest →
      valueFrom (fuel + 1) left (c :: (tail ++ rest)) = .ok (v, rest)) :
    Reads depth (c :: tail) v := by
  refine ⟨⟨c, tail, rfl, hspace, hc⟩, fun fuel left rest hfuel hleft hstops => ?_⟩
  obtain ⟨k, rfl⟩ : ∃ k, fuel = k + 1 := ⟨fuel - 1, by omega⟩
  exact h k left rest (by simpa using hfuel) hleft hstops

theorem Reads.mono {depth depth' : Nat} {text : List Char} {v : Json} (h : Reads depth text v)
    (hle : depth ≤ depth') : Reads depth' text v :=
  ⟨h.starts, fun fuel left rest hfuel hleft hstops =>
    h.value fuel left rest hfuel (hle.trans hleft) hstops⟩

theorem ne_of_number {c : Char} (hc : c = '-' ∨ c.isDigit = true) :
    ∀ d ∈ ['\x7b', '[', '"', 't', 'f', 'n', ' ', '\t', '\r', '\n', ']'], c ≠ d := by
  have hall : ['\x7b', '[', '"', 't', 'f', 'n', ' ', '\t', '\r', '\n', ']'].all
      (fun d => !(d = '-' || d.isDigit)) = true := by
    decide
  rintro d hd rfl
  have hd := List.all_eq_true.mp hall c hd
  simp only [Bool.not_eq_true', Bool.or_eq_false_iff, decide_eq_false_iff_not] at hd
  exact hc.elim hd.1 (by simp [hd.2])

section Steps

variable (fuel left : Nat) (rest : List Char)

theorem valueFrom_quote : valueFrom (fuel + 1) left ('"' :: rest) =
    (stringFrom [] none rest).map fun found => (.string found.1, found.2) := rfl

theorem valueFrom_bracket {c : Char} (hspace : isSpace c = false) (hc : c ≠ ']') :
    valueFrom (fuel + 1) (left + 1) ('[' :: c :: rest) = itemsFrom fuel left [] (c :: rest) := by
  rw [valueFrom, skipSpace_cons (by decide)]
  simp [skipSpace_cons hspace, hc]

theorem valueFrom_brace {c : Char} (hspace : isSpace c = false) (hc : c ≠ '\x7d') :
    valueFrom (fuel + 1) (left + 1) ('\x7b' :: c :: rest) =
      fieldsFrom fuel left [] (c :: rest) := by
  rw [valueFrom, skipSpace_cons (by decide)]
  simp [skipSpace_cons hspace, hc]

theorem valueFrom_number {c : Char} (hc : c = '-' ∨ c.isDigit = true) :
    valueFrom (fuel + 1) left (c :: rest) =
      (numberFrom (c :: rest)).map fun found => (.number found.1, found.2) := by
  have hne := ne_of_number hc
  simp only [List.mem_cons, List.not_mem_nil, or_false, forall_eq_or_imp, forall_eq] at hne
  rw [valueFrom, skipSpace_cons (by simp [isSpace, hne])]
  simp [hne, hc]

end Steps

theorem reads_string {body cs : List Char} (h : Spells body cs) :
    Reads 0 ('"' :: (body ++ ['"'])) (.string (String.ofList cs)) := by
  refine Reads.intro (by decide) (by decide) fun fuel left rest _ _ _ => ?_
  rw [List.append_assoc, valueFrom_quote, List.singleton_append, h.stringFrom_quote]
  rfl

theorem Stops.isDigit {rest : List Char} (h : Stops rest) :
    ∀ c ∈ rest.head?, c.isDigit = false := by
  intro c hc
  obtain rfl | rfl | rfl := h c hc <;> decide

theorem Stops.fraction {rest : List Char} (h : Stops rest) : fraction rest = .ok ([], rest) := by
  cases rest with
  | nil => rfl
  | cons c tail => obtain rfl | rfl | rfl := h c rfl <;> rfl

theorem Stops.exponent {rest : List Char} (h : Stops rest) : exponent rest = .ok ([], rest) := by
  cases rest with
  | nil => rfl
  | cons c tail => obtain rfl | rfl | rfl := h c rfl <;> rfl

/-- A number without a zero in front is read to its last digit. -/
theorem whole_toDigits (n : Nat) {rest : List Char} (h : Stops rest) :
    whole (Nat.toDigits 10 n ++ rest) = .ok (Nat.toDigits 10 n, rest) := by
  obtain rfl | hn := Nat.eq_zero_or_pos n
  · rw [Nat.toDigits_zero]
    rfl
  · obtain ⟨htake, hdrop⟩ := Duration.takeWhile_isDigit _ rest (@Text.isDigit_toDigits n) h.isDigit
    have hhead := Text.toDigits_head_ne_zero hn
    obtain ⟨c, tail, hdigits, _⟩ := Duration.head_toDigits n
    rw [hdigits] at htake hdrop hhead ⊢
    have hc : c ≠ '0' := by simpa using hhead
    have hdigits1 : digits1 .inNumber (c :: tail ++ rest) = .ok (c :: tail, rest) := by
      rw [digits1, digits, htake, hdrop]
    rw [List.cons_append, whole]
    · exact hdigits1
    · simpa using hc

theorem numberFrom_int (i : Int) {rest : List Char} (h : Stops rest) :
    numberFrom (Text.int i ++ rest) = .ok (String.ofList (Text.int i), rest) := by
  have hwhole := whole_toDigits i.natAbs h
  rw [Text.int]
  split
  · simp [numberFrom, hwhole, h.fraction, h.exponent, bind, Except.bind, pure, Except.pure]
  · obtain ⟨c, tail, hdigits, hc⟩ := Duration.head_toDigits i.natAbs
    have hminus : c ≠ '-' := by
      rintro rfl
      cases hc
    rw [hdigits, List.cons_append] at hwhole
    rw [hdigits, List.cons_append]
    simp [numberFrom, hminus, hwhole, h.fraction, h.exponent, bind, Except.bind, pure, Except.pure]

theorem reads_int (i : Int) : Reads 0 (Text.int i) (.number (String.ofList (Text.int i))) := by
  have hstart : ∃ c tail, Text.int i = c :: tail ∧ (c = '-' ∨ c.isDigit = true) := by
    rw [Text.int]
    split
    · exact ⟨'-', _, rfl, .inl rfl⟩
    · obtain ⟨c, tail, hdigits, hc⟩ := Duration.head_toDigits i.natAbs
      exact ⟨c, tail, hdigits, .inr hc⟩
  obtain ⟨c, tail, hint, hc⟩ := hstart
  have hne := ne_of_number hc
  simp only [List.mem_cons, List.not_mem_nil, or_false, forall_eq_or_imp, forall_eq] at hne
  have hnumber := fun rest => @numberFrom_int i rest
  rw [hint] at hnumber ⊢
  refine Reads.intro (by simp [isSpace, hne]) (by simp [hne]) fun fuel left rest _ _ hstops => ?_
  rw [valueFrom_number _ _ _ hc, ← List.cons_append, hnumber rest hstops]
  rfl

theorem reads_bool (b : Bool) : Reads 0 (toString b).toList (.bool b) := by
  cases b with
  | true =>
    refine Reads.intro (by decide) (by decide) fun fuel left rest _ _ _ => ?_
    rw [valueFrom, skipSpace_cons (by decide)]
    rfl
  | false =>
    refine Reads.intro (by decide) (by decide) fun fuel left rest _ _ _ => ?_
    rw [valueFrom, skipSpace_cons (by decide)]
    rfl

theorem reads_null : Reads 0 "null".toList .null := by
  refine Reads.intro (by decide) (by decide) fun fuel left rest _ _ _ => ?_
  rw [valueFrom, skipSpace_cons (by decide)]
  rfl

theorem stops_comma (rest : List Char) : Stops (',' :: rest) := by simp [Stops]

theorem stops_bracket (rest : List Char) : Stops (']' :: rest) := by simp [Stops]

theorem stops_brace (rest : List Char) : Stops ('\x7d' :: rest) := by simp [Stops]

section Steps

variable {fuel left : Nat} {cs rest : List Char} {v : Json}

theorem itemsFrom_next {acc : List Json} (h : valueFrom fuel left cs = .ok (v, ',' :: rest)) :
    itemsFrom (fuel + 1) left acc cs = itemsFrom fuel left (v :: acc) rest := by
  rw [itemsFrom, h]
  rfl

theorem itemsFrom_last {acc : List Json} (h : valueFrom fuel left cs = .ok (v, ']' :: rest)) :
    itemsFrom (fuel + 1) left acc cs = .ok (.array (v :: acc).reverse, rest) := by
  rw [itemsFrom, h]
  rfl

variable {acc : List (String × Json)} {body key : List Char} (hkey : Spells body key)

include hkey

theorem fieldsFrom_next (h : valueFrom fuel left cs = .ok (v, ',' :: rest)) :
    fieldsFrom (fuel + 1) left acc ('"' :: (body ++ '"' :: ':' :: cs)) =
      fieldsFrom fuel left ((String.ofList key, v) :: acc) rest := by
  rw [fieldsFrom, skipSpace_cons (by decide)]
  simp [hkey.stringFrom_quote, skipSpace_cons, isSpace, h]

theorem fieldsFrom_last (h : valueFrom fuel left cs = .ok (v, '\x7d' :: rest)) :
    fieldsFrom (fuel + 1) left acc ('"' :: (body ++ '"' :: ':' :: cs)) =
      .ok (.object ((String.ofList key, v) :: acc).reverse, rest) := by
  rw [fieldsFrom, skipSpace_cons (by decide)]
  simp [hkey.stringFrom_quote, skipSpace_cons, isSpace, h]

end Steps

theorem itemsFrom_eq {depth : Nat} {texts : List (List Char)} {vs : List Json}
    (h : List.Forall₂ (Reads depth) texts vs) (hne : texts ≠ []) {fuel left : Nat}
    {acc : List Json} {rest : List Char}
    (hfuel : ([','].intercalate texts).length + 1 < fuel) (hleft : depth ≤ left) :
    itemsFrom fuel left acc ([','].intercalate texts ++ ']' :: rest) =
      .ok (.array (acc.reverse ++ vs), rest) := by
  induction h generalizing fuel acc with
  | nil => exact absurd rfl hne
  | @cons text v texts vs hread hrest ih =>
    obtain ⟨k, rfl⟩ : ∃ k, fuel = k + 1 := ⟨fuel - 1, by omega⟩
    cases hrest with
    | nil =>
      rw [List.intercalate_singleton] at hfuel ⊢
      rw [itemsFrom_last (hread.value k left _ (by omega) hleft (stops_bracket rest)),
        List.reverse_cons]
    | cons hread' hrest =>
      rw [List.intercalate_cons_cons] at hfuel ⊢
      simp only [List.length_append, List.length_cons, List.length_nil] at hfuel
      rw [List.append_assoc, List.append_assoc, List.singleton_append,
        itemsFrom_next (hread.value k left _ (by omega) hleft (stops_comma _)),
        ih (List.cons_ne_nil _ _) (by omega), List.reverse_cons, List.append_assoc]
      rfl

def ReadsField (depth : Nat) (text : List Char) (field : String × Json) : Prop :=
  ∃ body key cs, text = '"' :: (body ++ '"' :: ':' :: cs) ∧ Spells body key ∧
    field.1 = String.ofList key ∧ Reads depth cs field.2

theorem fieldsFrom_eq {depth : Nat} {texts : List (List Char)} {fields : List (String × Json)}
    (h : List.Forall₂ (ReadsField depth) texts fields) (hne : texts ≠ []) {fuel left : Nat}
    {acc : List (String × Json)} {rest : List Char}
    (hfuel : ([','].intercalate texts).length + 1 < fuel) (hleft : depth ≤ left) :
    fieldsFrom fuel left acc ([','].intercalate texts ++ '\x7d' :: rest) =
      .ok (.object (acc.reverse ++ fields), rest) := by
  induction h generalizing fuel acc with
  | nil => exact absurd rfl hne
  | @cons text field texts fields hread hrest ih =>
    obtain ⟨k, rfl⟩ : ∃ k, fuel = k + 1 := ⟨fuel - 1, by omega⟩
    obtain ⟨name, v⟩ := field
    obtain ⟨body, key, cs, rfl, hkey, rfl, hvalue⟩ := hread
    cases hrest with
    | nil =>
      rw [List.intercalate_singleton] at hfuel ⊢
      simp only [List.length_append, List.length_cons] at hfuel
      simp only [List.cons_append, List.append_assoc]
      rw [fieldsFrom_last hkey (hvalue.value k left _ (by omega) hleft (stops_brace rest)),
        List.reverse_cons]
    | cons hread' hrest =>
      rw [List.intercalate_cons_cons] at hfuel ⊢
      simp only [List.length_append, List.length_cons, List.length_nil] at hfuel
      simp only [List.cons_append, List.append_assoc, List.nil_append]
      rw [fieldsFrom_next hkey (hvalue.value k left _ (by omega) hleft (stops_comma _)),
        ih (List.cons_ne_nil _ _) (by omega), List.reverse_cons, List.append_assoc]
      rfl

theorem reads_array {depth : Nat} {texts : List (List Char)} {vs : List Json}
    (h : List.Forall₂ (Reads depth) texts vs) :
    Reads (depth + 1) ('[' :: ([','].intercalate texts ++ [']'])) (.array vs) := by
  refine Reads.intro (by decide) (by decide) fun fuel left rest hfuel hleft _ => ?_
  obtain ⟨l, rfl⟩ : ∃ l, left = l + 1 := ⟨left - 1, by omega⟩
  rw [List.append_assoc, List.singleton_append]
  cases h with
  | nil =>
    rw [List.intercalate_nil, List.nil_append, valueFrom, skipSpace_cons (by decide)]
    simp [skipSpace_cons, isSpace]
  | @cons text v texts vs hread hrest =>
    have hlength : ([','].intercalate (text :: texts)).length + 1 < fuel := by simpa using hfuel
    have hitems : itemsFrom fuel l [] ([','].intercalate (text :: texts) ++ ']' :: rest) =
        .ok (.array (v :: vs), rest) :=
      itemsFrom_eq (.cons hread hrest) (List.cons_ne_nil _ _) hlength
        (Nat.le_of_succ_le_succ hleft)
    obtain ⟨c, tail, hhead, hspace, hc⟩ := hread.starts
    obtain ⟨tail', htail⟩ : ∃ tail', [','].intercalate (text :: texts) = c :: tail' := by
      cases texts <;> simp [hhead]
    rw [htail] at hitems ⊢
    rw [List.cons_append, valueFrom_bracket fuel l _ hspace hc]
    exact hitems

theorem reads_object {depth : Nat} {texts : List (List Char)} {fields : List (String × Json)}
    (h : List.Forall₂ (ReadsField depth) texts fields) (hne : texts ≠ []) :
    Reads (depth + 1) ('\x7b' :: ([','].intercalate texts ++ ['\x7d'])) (.object fields) := by
  refine Reads.intro (by decide) (by decide) fun fuel left rest hfuel hleft _ => ?_
  obtain ⟨l, rfl⟩ : ∃ l, left = l + 1 := ⟨left - 1, by omega⟩
  have hlength : ([','].intercalate texts).length + 1 < fuel := by simpa using hfuel
  have hfields : fieldsFrom fuel l [] ([','].intercalate texts ++ '\x7d' :: rest) =
      .ok (.object fields, rest) :=
    fieldsFrom_eq h hne hlength (Nat.le_of_succ_le_succ hleft)
  obtain ⟨tail, htail⟩ : ∃ tail, [','].intercalate texts = '"' :: tail := by
    cases h with
    | nil => exact absurd rfl hne
    | cons hread hrest =>
      obtain ⟨body, key, cs, rfl, -⟩ := hread
      cases hrest <;> simp
  rw [List.append_assoc, List.singleton_append]
  rw [htail] at hfields ⊢
  rw [List.cons_append, valueFrom_brace fuel l _ (by decide) (by decide)]
  exact hfields

theorem read_of_reads {depth : Nat} {text : List Char} {v : Json} (h : Reads depth text v)
    (hdepth : depth ≤ maxDepth) : read text = .ok v := by
  have hvalue := h.value (text.length + 2) maxDepth [] (by omega) hdepth (by simp [Stops])
  rw [List.append_nil] at hvalue
  rw [read, hvalue]
  rfl

end Json

end Crosscheck
