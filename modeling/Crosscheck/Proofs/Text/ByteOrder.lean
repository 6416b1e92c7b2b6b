import Mathlib.Data.String.Basic

namespace Crosscheck.Text

open String (utf8EncodeChar)

def bytesOf (s : String) : List UInt8 := s.toUTF8.data.toList

theorem bytesOf_eq (s : String) : bytesOf s = s.toList.flatMap utf8EncodeChar := by
  rw [bytesOf, String.toUTF8_eq_toByteArray, ← String.utf8Encode_toList]
  exact List.data_toByteArray ▸ rfl

/-- Numbers are compared by their digits to the base 64, the last one only if the others agree. -/
theorem sextet_lt {m n : Nat} (k : Nat) (h : m / k < n / k) :
    m / (k * 64) < n / (k * 64) ∨ m / (k * 64) = n / (k * 64) ∧ m / k % 64 < n / k % 64 := by
  rw [← Nat.div_div_eq_div_mul, ← Nat.div_div_eq_div_mul]
  omega

theorem sextets_lt {m n : Nat} (h : m < n) :
    m / 262144 < n / 262144 ∨ m / 262144 = n / 262144 ∧
      (m / 4096 % 64 < n / 4096 % 64 ∨ m / 4096 % 64 = n / 4096 % 64 ∧
        (m / 64 % 64 < n / 64 % 64 ∨ m / 64 % 64 = n / 64 % 64 ∧ m % 64 < n % 64)) := by
  obtain h64 | ⟨he64, hd⟩ := sextet_lt 1 (by simpa using h)
  · obtain h4096 | ⟨he4096, hd⟩ := sextet_lt 64 h64
    · obtain h262144 | ⟨he, hd⟩ := sextet_lt 4096 h4096
      · exact .inl h262144
      · exact .inr ⟨he, .inl hd⟩
    · omega
  · omega

theorem ofNat_lt_ofNat_iff {m n : Nat} (hm : m < 256) (hn : n < 256) :
    UInt8.ofNat m < UInt8.ofNat n ↔ m < n := by
  rw [UInt8.lt_iff_toNat_lt, UInt8.toNat_ofNat_of_lt' hm, UInt8.toNat_ofNat_of_lt' hn]

theorem ofNat_eq_ofNat_iff {m n : Nat} (hm : m < 256) (hn : n < 256) :
    UInt8.ofNat m = UInt8.ofNat n ↔ m = n := by
  rw [← UInt8.toNat_inj, UInt8.toNat_ofNat_of_lt' hm, UInt8.toNat_ofNat_of_lt' hn]

theorem utf8EncodeChar_append_lt {c d : Char} (x y : List UInt8) (h : c < d) :
    utf8EncodeChar c ++ x < utf8EncodeChar d ++ y := by
  have hlt : c.val.toNat < d.val.toNat := h
  have hmax : d.val.toNat < 0x110000 := by
    have hvalid := d.valid
    unfold UInt32.isValidChar Nat.isValidChar at hvalid
    omega
  rw [String.utf8EncodeChar.eq_1, String.utf8EncodeChar.eq_1]
  generalize c.val.toNat = m at *
  generalize d.val.toNat = n at *
  have hsextets := sextets_lt hlt
  have hm : m / 262144 % 8 = m / 262144 := Nat.mod_eq_of_lt (by omega)
  have hn : n / 262144 % 8 = n / 262144 := Nat.mod_eq_of_lt (by omega)
  -- the first byte tells the lengths apart; with one length the digits decide
  split_ifs <;>
    simp (disch := omega) only [List.cons_append, List.nil_append, List.cons_lt_cons_iff,
      ofNat_lt_ofNat_iff, ofNat_eq_ofNat_iff, hm, hn] <;>
    omega

theorem bytesOf_lt {a b : String} (h : a < b) : bytesOf a < bytesOf b := by
  rw [bytesOf_eq, bytesOf_eq]
  rw [String.lt_iff_toList_lt] at h
  generalize a.toList = as at h
  generalize b.toList = bs at h
  induction as generalizing bs with
  | nil =>
    cases bs with
    | nil => simp at h
    | cons d ds =>
      have hne : (d :: ds).flatMap utf8EncodeChar ≠ [] := by
        simp [String.utf8EncodeChar_ne_nil]
      obtain ⟨byte, more, he⟩ := List.exists_cons_of_ne_nil hne
      rw [he]
      exact List.nil_lt_cons byte more
  | cons c cs ih =>
    cases bs with
    | nil => simp at h
    | cons d ds =>
      rw [List.flatMap_cons, List.flatMap_cons]
      obtain hcd | ⟨rfl, hrest⟩ := List.cons_lt_cons_iff.mp h
      · exact utf8EncodeChar_append_lt _ _ hcd
      · exact List.append_left_lt (ih _ hrest)

end Crosscheck.Text
