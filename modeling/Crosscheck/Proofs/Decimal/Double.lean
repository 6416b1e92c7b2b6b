import Mathlib.Algebra.Group.Nat.Defs
import Crosscheck.Decimal.Double

namespace Crosscheck.Decimal.Double

theorem roundDiv_mul (n : Nat) {den : Nat} (h : 0 < den) : roundDiv (n * den) den = n := by
  simp [roundDiv, Nat.mul_div_cancel n h, h]

theorem roundAt_mul (n k : Nat) {den : Nat} (h : 0 < den) :
    roundAt (n * den) den (-(k : Int)) = n * 2 ^ k := by
  have hk : (- -(k : Int)).toNat = k := by omega
  rw [roundAt, hk]
  split
  · have hzero : k = 0 := by omega
    subst hzero
    simpa using roundDiv_mul n h
  · rw [Nat.pow_eq, Nat.mul_right_comm, roundDiv_mul (n * 2 ^ k) h]

theorem exponentFor_nonpos {n den : Nat} (hn : n < 2 ^ 53) (hpos : 0 < n) (hden : 0 < den) :
    exponentFor (n * den) den ≤ 0 := by
  have hlog : (n * den).log2 < 53 + (den.log2 + 1) := by
    rw [Nat.log2_lt (Nat.ne_of_gt (Nat.mul_pos hpos hden)), Nat.pow_add]
    exact Nat.mul_lt_mul'' hn Nat.lt_log2_self
  have hnarrow : ¬ den * 2 ^ 53 ≤ n * den := by
    rw [Nat.mul_comm den]
    exact Nat.not_le.mpr (Nat.mul_lt_mul_of_pos_right hn hden)
  have hleast : leastExp ≤ 0 := by decide
  rw [exponentFor]
  generalize he : ((n * den).log2 : Int) - den.log2 - 53 = e
  refine Int.max_le.mpr ⟨hleast, ?_⟩
  by_cases hzero : e = 0
  · subst hzero
    refine Int.le_of_eq (if_neg ?_)
    rw [if_pos (Int.le_refl 0)]
    change ¬ den * 1 * 2 ^ 53 ≤ n * den
    rw [Nat.mul_one]
    exact hnarrow
  · have hcases : ∀ (p : Prop) [Decidable p], (if p then e + 1 else e) ≤ 0 := by
      intro p _
      split
      · omega
      · omega
    exact hcases _

/-- A natural number below `2 ^ 53` is a double. -/
theorem nearest_mul (negative : Bool) (n den : Nat) (hn : n < 2 ^ 53) (hden : 0 < den) :
    ∃ k : Nat, nearest negative (n * den) den = .finite negative (n * 2 ^ k) (-k) := by
  by_cases hzero : n = 0
  · obtain ⟨k, hk⟩ : ∃ k : Nat, leastExp = -(k : Int) := ⟨1074, rfl⟩
    refine ⟨k, ?_⟩
    rw [hzero, Nat.zero_mul, Nat.zero_mul, nearest, if_pos rfl, hk]
  have hpos : 0 < n := Nat.pos_of_ne_zero hzero
  obtain ⟨k, hk⟩ := Int.eq_ofNat_of_zero_le (Int.neg_nonneg.mpr (exponentFor_nonpos hn hpos hden))
  have hexp : exponentFor (n * den) den = -(k : Int) := by omega
  have hgreatest : greatestExp = 971 := rfl
  rw [nearest, if_neg (Nat.ne_of_gt (Nat.mul_pos hpos hden)), hexp]
  dsimp only
  rw [roundAt_mul n k hden]
  by_cases htop : n * 2 ^ k = Nat.pow 2 53
  · have hk' : k ≠ 0 := by
      intro h
      rw [h, Nat.pow_zero, Nat.mul_one] at htop
      exact absurd htop (Nat.ne_of_lt hn)
    obtain ⟨j, rfl⟩ := Nat.exists_eq_succ_of_ne_zero hk'
    have hj : n * 2 ^ j = Nat.pow 2 52 := by
      have hsplit : n * 2 ^ j * 2 = 2 ^ 52 * 2 := by rw [Nat.mul_assoc, ← Nat.pow_succ]; exact htop
      exact Nat.eq_of_mul_eq_mul_right (by decide) hsplit
    refine ⟨j, ?_⟩
    rw [if_pos htop, hj]
    have hj' : -((j.succ : Nat) : Int) + 1 = -(j : Int) := by omega
    dsimp only
    rw [hj', if_neg (by omega)]
  · refine ⟨k, ?_⟩
    rw [if_neg htop]
    dsimp only
    rw [if_neg (by omega)]

theorem wholePart_mul (n k : Nat) : wholePart (n * 2 ^ k) (-k) = n := by
  have hk : (- -(k : Int)).toNat = k := by omega
  rw [wholePart, hk]
  split
  · have hzero : k = 0 := by omega
    subst hzero
    simp
  · exact Nat.mul_div_cancel n (Nat.two_pow_pos k)

end Crosscheck.Decimal.Double
