import Mathlib.Algebra.Group.Nat.Defs
import Mathlib.Data.List.DropRight
import Crosscheck.Duration
import Crosscheck.Proofs.Decimal.Double

namespace Crosscheck

namespace Text

theorem digit_lt {c : Char} (h : c.isDigit = true) : c.toNat - '0'.toNat < 10 := by
  simp only [Char.isDigit, Bool.and_eq_true, decide_eq_true_eq] at h
  have hle : c.toNat ≤ 57 := h.2
  have hzero : '0'.toNat = 48 := rfl
  omega

theorem digitIn?_ten {c : Char} (h : c.isDigit = true) :
    digitIn? 10 c = some (c.toNat - '0'.toNat) := by
  rw [digitIn?, digitValue?, if_pos h]
  dsimp only
  rw [if_pos (digit_lt h)]

theorem valueFrom?_ten {ds : List Char} (h : ∀ c ∈ ds, c.isDigit = true) (acc : Nat) :
    valueFrom? 10 acc ds = some (Nat.ofDigitChars 10 ds acc) := by
  induction ds generalizing acc with
  | nil => rfl
  | cons c rest ih =>
    have hrest : ∀ x ∈ rest, x.isDigit = true := fun x hx => h x (List.mem_cons_of_mem _ hx)
    rw [valueFrom?, digitIn?_ten (h c List.mem_cons_self), Nat.ofDigitChars_cons, Nat.mul_comm 10]
    exact ih hrest _

theorem isDigit_toDigits {n : Nat} : ∀ c ∈ Nat.toDigits 10 n, c.isDigit = true :=
  fun _ hc => Nat.isDigit_of_mem_toDigits (by decide) (by decide) hc

theorem value?_toDigits (n : Nat) : value? 10 (Nat.toDigits 10 n) = some n := by
  rw [value?, if_neg (by simp [Nat.toDigits_ne_nil]), valueFrom?_ten isDigit_toDigits,
    Nat.ofDigitChars_ten_toDigits]

end Text

namespace Duration

theorem takeWhile_isDigit (ds rest : List Char) (h : ∀ c ∈ ds, c.isDigit = true)
    (hr : ∀ c ∈ rest.head?, c.isDigit = false) :
    (ds ++ rest).takeWhile Char.isDigit = ds ∧ (ds ++ rest).dropWhile Char.isDigit = rest := by
  rw [List.takeWhile_append_of_pos h, List.dropWhile_append_of_pos h]
  cases rest with
  | nil => simp
  | cons c rest => simp [hr c rfl]

theorem fractionFrom_eq {ds : List Char} (h : ∀ c ∈ ds, c.isDigit = true) (value scale : Nat)
    (hfit : (value + 1) * 10 ^ ds.length ≤ 2 ^ 63) :
    fractionFrom value scale ds =
      (Nat.ofDigitChars 10 ds value, scale * 10 ^ ds.length) := by
  induction ds generalizing value scale with
  | nil => simp [fractionFrom]
  | cons c rest ih =>
    have hrest : ∀ x ∈ rest, x.isDigit = true := fun x hx => h x (List.mem_cons_of_mem _ hx)
    have hc := Text.digit_lt (h c List.mem_cons_self)
    generalize hd : c.toNat - '0'.toNat = d at hc
    have hpos : 0 < 10 ^ rest.length := Nat.pow_pos (by decide)
    have hnext : (value * 10 + d + 1) * 10 ^ rest.length ≤ 2 ^ 63 := by
      calc (value * 10 + d + 1) * 10 ^ rest.length
          ≤ ((value + 1) * 10) * 10 ^ rest.length := Nat.mul_le_mul_right _ (by omega)
        _ = (value + 1) * 10 ^ (c :: rest).length := by
          rw [List.length_cons, Nat.pow_succ, Nat.mul_assoc, Nat.mul_comm 10]
        _ ≤ 2 ^ 63 := hfit
    have hsmall : ¬ value * 10 + d > Nat.pow 2 63 := by
      have hle := Nat.le_mul_of_pos_right (value * 10 + d + 1) hpos
      exact Nat.not_lt.mpr (by rw [Nat.pow_eq]; omega)
    rw [fractionFrom, hd, if_neg hsmall, ih hrest _ _ hnext, Nat.ofDigitChars_cons, hd,
      Nat.mul_comm 10 value, List.length_cons, Nat.pow_succ, Nat.mul_assoc scale, Nat.mul_comm 10]

/-- Decimal fractions of a unit are computed without loss if they come to whole nanoseconds. -/
theorem fractionOf_eq {part k places : Nat} (hk : k ≤ places) (hplaces : places ≤ 9)
    (hpart : part < 10 ^ k) :
    fractionOf part (10 ^ k) (10 ^ places) = part * 10 ^ (places - k) := by
  have hbound : ∀ i, i ≤ 9 → 10 ^ i < 2 ^ 53 := by decide
  have hunit : 10 ^ places = 10 ^ (places - k) * 10 ^ k := by
    rw [← Nat.pow_add, Nat.sub_add_cancel hk]
  have hproduct : part * 10 ^ (places - k) < 10 ^ places := by
    rw [hunit, Nat.mul_comm part]
    exact Nat.mul_lt_mul_of_pos_left hpart (Nat.pow_pos (by decide))
  have hproduct' := Nat.lt_trans hproduct (hbound places hplaces)
  obtain ⟨a, ha⟩ := Decimal.Double.nearest_mul false part 1
    (Nat.lt_trans hpart (hbound k (Nat.le_trans hk hplaces))) (by decide)
  obtain ⟨b, hb⟩ := Decimal.Double.nearest_mul false (10 ^ (places - k)) (10 ^ k)
    (hbound _ (by omega)) (Nat.pow_pos (by decide))
  rw [Nat.mul_one] at ha
  rw [← hunit] at hb
  have hexact : ∀ den, 0 < den → ∃ c : Nat,
      Decimal.Double.nearest false (part * 10 ^ (places - k) * den) den =
        .finite false (part * 10 ^ (places - k) * 2 ^ c) (-c) :=
    fun den hden => Decimal.Double.nearest_mul false _ den hproduct' hden
  have hmant : part * 2 ^ a * (10 ^ (places - k) * 2 ^ b) =
      part * 10 ^ (places - k) * 2 ^ (a + b) := by
    rw [Nat.pow_add, Nat.mul_mul_mul_comm]
  have hexp : (-(-(a : Int) + -(b : Int))).toNat = a + b := by omega
  rw [fractionOf, ha, hb]
  dsimp only
  rw [hexp, hmant]
  by_cases hsign : 0 ≤ -(a : Int) + -(b : Int)
  · have hzero : a + b = 0 := by omega
    obtain ⟨c, hc⟩ := hexact 1 (by decide)
    have hnone : (-(a : Int) + -(b : Int)).toNat = 0 := by omega
    rw [if_pos hsign, hnone, hzero]
    simp only [Nat.pow_eq, Nat.pow_zero, Nat.mul_one] at hc ⊢
    rw [hc]
    exact Decimal.Double.wholePart_mul _ c
  · obtain ⟨c, hc⟩ := hexact (2 ^ (a + b)) (Nat.two_pow_pos _)
    rw [if_neg hsign, Nat.pow_eq, hc]
    exact Decimal.Double.wholePart_mul _ c

theorem dropZeros_append (cs : List Char) :
    ∃ z, cs = dropZeros cs ++ List.replicate z '0' := by
  refine ⟨(List.rtakeWhile (· == '0') cs).length, ?_⟩
  have hzeros : List.rtakeWhile (· == '0') cs =
      List.replicate (List.rtakeWhile (· == '0') cs).length '0' :=
    List.eq_replicate_of_mem fun c hc => by simpa using List.mem_rtakeWhile_imp hc
  rw [← hzeros]
  exact List.rdropWhile_append_rtakeWhile.symm

theorem isDigit_padded {width n : Nat} : ∀ c ∈ Text.padded 10 width n, c.isDigit = true := by
  intro c hc
  rw [Text.padded, List.leftpad, List.mem_append] at hc
  cases hc with
  | inl hzero =>
    rw [List.eq_of_mem_replicate hzero]
    decide
  | inr hdigit => exact Text.isDigit_toDigits c hdigit

theorem length_padded {width n : Nat} (hw : 0 < width) (hn : n < 10 ^ width) :
    (Text.padded 10 width n).length = width := by
  have hlen := (Nat.length_toDigits_le_iff (by decide) hw).mpr hn
  rw [Text.padded, List.length_leftpad]
  exact Nat.max_eq_left hlen

theorem ofDigitChars_padded (width n : Nat) :
    Nat.ofDigitChars 10 (Text.padded 10 width n) 0 = n := by
  rw [Text.padded, List.leftpad, Nat.ofDigitChars_append, Nat.ofDigitChars_replicate_zero,
    Nat.mul_zero, Nat.ofDigitChars_ten_toDigits]

def Reads (run : List Char) (unit n : Nat) : Prop :=
  ∃ a, amount run = .ok a ∧ a.times unit = .ok n

theorem times_eq {a : Amount} {unit n : Nat} (hunit : 0 < unit)
    (hn : a.whole * unit + (if a.part = 0 then 0 else fractionOf a.part a.scale unit) = n)
    (hfit : n ≤ 2 ^ 63) : a.times unit = .ok n := by
  have hwhole : ¬ a.whole > Nat.pow 2 63 / unit := by
    rw [Nat.pow_eq]
    exact Nat.not_lt.mpr ((Nat.le_div_iff_mul_le hunit).mpr (by omega))
  rw [Amount.times, if_neg hwhole, hn]
  exact if_neg (Nat.not_lt.mpr hfit)

theorem reads_whole {w unit : Nat} (hunit : 0 < unit) (hfit : w * unit ≤ 2 ^ 63) :
    Reads (Nat.toDigits 10 w) unit (w * unit) := by
  have hsplit := takeWhile_isDigit (Nat.toDigits 10 w) [] Text.isDigit_toDigits (by simp)
  rw [List.append_nil] at hsplit
  have hw : ¬ w > Nat.pow 2 63 :=
    Nat.not_lt.mpr (Nat.le_trans (Nat.le_mul_of_pos_right w hunit) hfit)
  refine ⟨⟨w, 0, 1⟩, ?_, times_eq hunit rfl hfit⟩
  rw [amount, hsplit.1, hsplit.2, Text.value?_toDigits, Option.getD_some, if_neg hw]

theorem amount_fraction {w : Nat} {ds : List Char} (hw : w ≤ 2 ^ 63)
    (hds : ∀ c ∈ ds, c.isDigit = true) (hlen : 10 ^ ds.length ≤ 2 ^ 63) :
    amount (Nat.toDigits 10 w ++ '.' :: ds) =
      .ok ⟨w, Nat.ofDigitChars 10 ds 0, 10 ^ ds.length⟩ := by
  have hsplit := takeWhile_isDigit (Nat.toDigits 10 w) ('.' :: ds) Text.isDigit_toDigits
    (by simp)
  have hafter := takeWhile_isDigit ds [] hds (by simp)
  rw [List.append_nil] at hafter
  have hw' : ¬ w > Nat.pow 2 63 := Nat.not_lt.mpr hw
  have hdigits : (Nat.toDigits 10 w).isEmpty = false := by simp [Nat.toDigits_ne_nil]
  have hfraction := fractionFrom_eq hds 0 1 (by omega)
  rw [amount, hsplit.1, hsplit.2, Text.value?_toDigits, Option.getD_some, if_neg hw']
  simp [hafter.1, hafter.2, hdigits, hfraction]

theorem reads_mixed {n places : Nat} (hpos : 0 < places) (hplaces : places ≤ 9)
    (hfit : n ≤ 2 ^ 63) : Reads (mixed n places) (10 ^ places) n := by
  have hunit : 0 < 10 ^ places := Nat.pow_pos (by decide)
  have hn : n / 10 ^ places * 10 ^ places + n % 10 ^ places = n := by
    rw [Nat.mul_comm]
    exact Nat.div_add_mod n _
  have hbound : ∀ i, i ≤ 9 → 10 ^ i ≤ 2 ^ 63 := by decide
  have hlt : n % 10 ^ places < 10 ^ places := Nat.mod_lt n hunit
  obtain ⟨z, hz⟩ := dropZeros_append (Text.padded 10 places (n % 10 ^ places))
  have hdigits : ∀ c ∈ dropZeros (Text.padded 10 places (n % 10 ^ places)), c.isDigit = true := by
    intro c hc
    apply isDigit_padded c
    rw [hz]
    exact List.mem_append_left _ hc
  have hlen := length_padded hpos hlt
  have hvalue := ofDigitChars_padded places (n % 10 ^ places)
  rw [mixed]
  simp only [Nat.pow_eq]
  generalize dropZeros (Text.padded 10 places (n % 10 ^ places)) = ds at hz hdigits
  rw [hz, List.length_append, List.length_replicate] at hlen
  rw [hz, Nat.ofDigitChars_append, Nat.ofDigitChars_replicate_zero] at hvalue
  split
  · rename_i hempty
    rw [List.isEmpty_iff.mp hempty, Nat.ofDigitChars_nil, Nat.mul_zero] at hvalue
    rw [← hvalue, Nat.add_zero] at hn
    have hreads := reads_whole (w := n / 10 ^ places) hunit (by omega)
    rw [hn] at hreads
    exact hreads
  · have hamount := amount_fraction (Nat.le_trans (Nat.div_le_self n (10 ^ places)) hfit) hdigits
      (hbound _ (by omega))
    generalize Nat.ofDigitChars 10 ds 0 = part at hvalue hamount
    have hpart : part < 10 ^ ds.length := by
      rw [← hvalue, ← hlen, Nat.add_comm, Nat.pow_add] at hlt
      exact Nat.lt_of_mul_lt_mul_left hlt
    have hfraction :
        (if part = 0 then 0 else fractionOf part (10 ^ ds.length) (10 ^ places)) =
          n % 10 ^ places := by
      split
      · rename_i hzero
        rw [← hvalue, hzero, Nat.mul_zero]
      · have hz' : places - ds.length = z := by omega
        rw [fractionOf_eq (by omega) hplaces hpart, hz', Nat.mul_comm, hvalue]
    refine ⟨_, hamount, times_eq hunit ?_ hfit⟩
    rw [hfraction]
    exact hn

theorem runs_cons (c : Char) (rest : List Char) :
    runs (c :: rest) =
      match runs rest with
      | (kind, run) :: more =>
        if kind = isNumberChar c then (kind, c :: run) :: more
        else (isNumberChar c, [c]) :: (kind, run) :: more
      | [] => [(isNumberChar c, [c])] := rfl

theorem runs_head (c : Char) (rest : List Char) :
    ∃ run more, runs (c :: rest) = (isNumberChar c, run) :: more := by
  rw [runs_cons]
  split
  · split
    · rename_i hkind
      exact ⟨_, _, by rw [hkind]⟩
    · exact ⟨_, _, rfl⟩
  · exact ⟨_, _, rfl⟩

theorem runs_append {kind : Bool} {run rest : List Char} (hne : run ≠ [])
    (hrun : ∀ c ∈ run, isNumberChar c = kind) (hrest : ∀ c ∈ rest.head?, isNumberChar c = !kind) :
    runs (run ++ rest) = (kind, run) :: runs rest := by
  induction run with
  | nil => exact absurd rfl hne
  | cons c run ih =>
    have hc : isNumberChar c = kind := hrun c List.mem_cons_self
    rw [List.cons_append, runs_cons]
    cases run with
    | nil =>
      cases rest with
      | nil => simp [runs, hc]
      | cons d rest =>
        obtain ⟨run, more, hruns⟩ := runs_head d rest
        have hd : isNumberChar d = !kind := hrest d rfl
        rw [List.nil_append, hruns, hc, hd]
        cases kind <;> simp
    | cons d run =>
      rw [ih (List.cons_ne_nil _ _) fun x hx => hrun x (List.mem_cons_of_mem _ hx)]
      simp [hc]

theorem isNumberChar_of_isDigit {c : Char} (h : c.isDigit = true) : isNumberChar c = true := by
  simp [isNumberChar, h]

theorem total_cons {run name : List Char} {unit n sum : Nat} (hreads : Reads run unit n)
    (hunit : unit? name = some unit) (hfit : sum + n ≤ 2 ^ 63) (kind : Bool)
    (more : List (Bool × List Char)) :
    total sum ((true, run) :: (kind, name) :: more) = total (sum + n) more := by
  obtain ⟨a, hamount, htimes⟩ := hreads
  have hmod : (sum + n) % Nat.pow 2 64 = sum + n :=
    Nat.mod_eq_of_lt (Nat.lt_of_le_of_lt hfit (by decide))
  have hle : ¬ sum + n > Nat.pow 2 63 := Nat.not_lt.mpr hfit
  simp only [total, hamount, hunit, htimes, hmod, hle, if_false]

/-- Text that adds a number of nanoseconds to what is read before it, with more amounts to
follow. -/
structure Spans (cs : List Char) (n : Nat) : Prop where
  head : ∃ c rest, cs = c :: rest ∧ c.isDigit = true
  adds : ∀ sum rest, (∀ c ∈ rest.head?, isNumberChar c = true) → sum + n ≤ 2 ^ 63 →
    total sum (runs (cs ++ rest)) = total (sum + n) (runs rest)

theorem head_toDigits (n : Nat) :
    ∃ c rest, Nat.toDigits 10 n = c :: rest ∧ c.isDigit = true := by
  cases h : Nat.toDigits 10 n with
  | nil => exact absurd h Nat.toDigits_ne_nil
  | cons c rest =>
    refine ⟨c, rest, rfl, Text.isDigit_toDigits (n := n) c ?_⟩
    rw [h]
    exact List.mem_cons_self

namespace Spans

theorem append {cs ds : List Char} {n m : Nat} (h : Spans cs n) (h' : Spans ds m) :
    Spans (cs ++ ds) (n + m) := by
  obtain ⟨c, cs', rfl, hc⟩ := h.head
  obtain ⟨d, ds', rfl, hd⟩ := h'.head
  refine ⟨⟨c, cs' ++ d :: ds', rfl, hc⟩, fun sum rest hrest hfit => ?_⟩
  rw [List.append_assoc, h.adds sum _ ?_ (by omega), h'.adds _ rest hrest (by omega), Nat.add_assoc]
  intro x hx
  cases hx
  exact isNumberChar_of_isDigit hd

theorem of_reads {run name : List Char} {unit n : Nat}
    (hhead : ∃ c rest, run = c :: rest ∧ c.isDigit = true)
    (hrun : ∀ c ∈ run, isNumberChar c = true) (hname : name.any isNumberChar = false)
    (hunit : unit? name = some unit) (hreads : Reads run unit n) : Spans (run ++ name) n := by
  obtain ⟨c, run', rfl, hc⟩ := hhead
  have hname' : ∀ x ∈ name, isNumberChar x = false := by simpa using hname
  refine ⟨⟨c, run' ++ name, rfl, hc⟩, fun sum rest hrest hfit => ?_⟩
  have hne : name ≠ [] := by
    rintro rfl
    simp [unit?] at hunit
  have hnext : ∀ x ∈ (name ++ rest).head?, isNumberChar x = !true := by
    cases name with
    | nil => exact absurd rfl hne
    | cons x name =>
      intro y hy
      cases hy
      exact hname' x List.mem_cons_self
  rw [List.append_assoc, runs_append (List.cons_ne_nil _ _) hrun hnext,
    runs_append hne hname' hrest, total_cons hreads hunit hfit]

theorem whole (w unit : Nat) (name : List Char) (hpos : 0 < unit) (hfit : w * unit ≤ 2 ^ 63)
    (hname : name.any isNumberChar = false) (hunit : unit? name = some unit) :
    Spans (Nat.toDigits 10 w ++ name) (w * unit) :=
  of_reads (head_toDigits w) (fun c hc => isNumberChar_of_isDigit (Text.isDigit_toDigits c hc))
    hname hunit (reads_whole hpos hfit)

theorem mixed {n places : Nat} {name : List Char} (hpos : 0 < places) (hplaces : places ≤ 9)
    (hfit : n ≤ 2 ^ 63) (hname : name.any isNumberChar = false)
    (hunit : unit? name = some (10 ^ places)) : Spans (Duration.mixed n places ++ name) n := by
  refine of_reads ?_ ?_ hname hunit (reads_mixed hpos hplaces hfit)
  · obtain ⟨c, rest, hdigits, hc⟩ := head_toDigits (n / Nat.pow 10 places)
    rw [Duration.mixed]
    split
    · exact ⟨c, rest, hdigits, hc⟩
    · exact ⟨c, _, by rw [hdigits]; rfl, hc⟩
  · intro c hc
    rw [Duration.mixed] at hc
    split at hc
    · exact isNumberChar_of_isDigit (Text.isDigit_toDigits c hc)
    · rw [List.mem_append, List.mem_cons] at hc
      obtain hc | rfl | hc := hc
      · exact isNumberChar_of_isDigit (Text.isDigit_toDigits c hc)
      · rfl
      · obtain ⟨z, hz⟩ := dropZeros_append (Text.padded 10 places (n % Nat.pow 10 places))
        apply isNumberChar_of_isDigit
        apply isDigit_padded c
        rw [hz]
        exact List.mem_append_left _ hc

theorem cons {rest : List Char} {m : Nat} (w unit : Nat) (name : Char) (hpos : 0 < unit)
    (hfit : w * unit ≤ 2 ^ 63) (hname : [name].any isNumberChar = false)
    (hunit : unit? [name] = some unit) (h : Spans rest m) :
    Spans (Nat.toDigits 10 w ++ name :: rest) (w * unit + m) := by
  have happend := (whole w unit [name] hpos hfit hname hunit).append h
  rwa [List.append_assoc, List.singleton_append] at happend

end Spans

theorem magnitudeText_spans {n : Nat} (hfit : n ≤ 2 ^ 63) : Spans (magnitudeText n) n := by
  have hseconds : ∀ m, m ≤ 2 ^ 63 → Spans (mixed m 9 ++ ['s']) m := fun m hm =>
    .mixed (by decide) (by decide) hm (by decide) rfl
  have hrest := hseconds (n % minute) (Nat.le_trans (Nat.mod_le n minute) hfit)
  have hminute : minute = 60000000000 := rfl
  have hhour : hour = 3600000000000 := rfl
  rw [magnitudeText]
  split
  · rename_i hzero
    rw [hzero]
    exact .whole 0 second ['s'] (by decide) (by decide) (by decide) rfl
  split
  · have h := Spans.whole n nanosecond ['n', 's'] (by decide) (by rw [nanosecond]; omega)
      (by decide) rfl
    rwa [nanosecond, Nat.mul_one] at h
  split
  · exact .mixed (by decide) (by decide) hfit (by decide) rfl
  split
  · exact .mixed (by decide) (by decide) hfit (by decide) rfl
  dsimp only
  split
  · rename_i hlt
    rw [Nat.mod_eq_of_lt hlt]
    exact hseconds n hfit
  split
  · have h := hrest.cons (n / minute) minute 'm' (by decide) (by rw [hminute]; omega)
      (by decide) rfl
    rwa [Nat.mul_comm, Nat.div_add_mod] at h
  · have hminutes := hrest.cons (n / minute % 60) minute 'm' (by decide) (by rw [hminute]; omega)
      (by decide) rfl
    have h := hminutes.cons (n / hour) hour 'h' (by decide) (by rw [hhour]; omega) (by decide) rfl
    have hsum : n / hour * hour + (n / minute % 60 * minute + n % minute) = n := by
      rw [hhour, hminute]
      omega
    rw [hsum] at h
    simpa using h

theorem unsign_digit {c : Char} (h : c.isDigit = true) (rest : List Char) :
    Text.unsign (c :: rest) = (false, c :: rest) := by
  rw [Text.unsign]
  · rintro tail ⟨rfl, rfl⟩
    cases h
  · rintro tail ⟨rfl, rfl⟩
    cases h

theorem total_magnitudeText {n : Nat} (hfit : n ≤ 2 ^ 63) :
    total 0 (runs (magnitudeText n)) = .ok n := by
  have h := (magnitudeText_spans hfit).adds 0 [] (by simp) (by omega)
  rw [List.append_nil, Nat.zero_add] at h
  exact h

/-- Every duration is read back from its text. -/
theorem parse_render (d : Duration) : parse d.render = .ok d := by
  have hlow := Int64.le_toInt d.ns
  have hhigh := Int64.toInt_lt d.ns
  have hfit : d.toInt.natAbs ≤ 2 ^ 63 := by
    rw [toInt]
    omega
  have htotal := total_magnitudeText hfit
  obtain ⟨c, rest, hhead, hc⟩ := (magnitudeText_spans hfit).head
  have hzero : magnitudeText d.toInt.natAbs ≠ ['0'] := by
    intro h
    rw [h] at htotal
    cases htotal
  have hempty : (magnitudeText d.toInt.natAbs).isEmpty = false := by rw [hhead]; rfl
  rw [parse, render, String.toList_ofList, parseChars, chars]
  by_cases hneg : d.toInt < 0
  · have hfit' : d.toInt.natAbs ≤ Nat.pow 2 63 := hfit
    rw [if_pos hneg, Text.unsign]
    dsimp only
    have hint : -(d.toInt.natAbs : Int) = d.ns.toInt := by
      rw [toInt] at hneg ⊢
      omega
    rw [if_neg hzero, hempty, htotal]
    simp only [Bool.false_eq_true, if_false, Text.signedInRange, if_true, if_pos hfit', hint,
      Int64.ofInt_toInt]
  · rw [if_neg hneg, hhead, unsign_digit hc, ← hhead]
    dsimp only
    have hint : (d.toInt.natAbs : Int) = d.ns.toInt := by
      rw [toInt] at hneg ⊢
      omega
    have hlt : d.toInt.natAbs < Nat.pow 2 63 := by
      rw [toInt] at hint ⊢
      rw [Nat.pow_eq]
      omega
    rw [if_neg hzero, hempty, htotal]
    simp only [Bool.false_eq_true, if_false, Text.signedInRange, if_pos hlt, hint, Int64.ofInt_toInt]

end Duration

end Crosscheck
