import Mathlib.Algebra.Group.Nat.Defs
import Mathlib.Data.Nat.Log
import RecordSchema.Number.Binary64

/-!
# Integers without a float

An integer becomes the number nearest to it. The largest finite number is
`2 ^ 1024 - 2 ^ 971`; half way from there to `2 ^ 1024`, where the next
number would be, the tie goes to the even mantissa, which is the one that
there is no exponent for. So the integers from `2 ^ 1024 - 2 ^ 970` on are
those that no finite number stands for (`Binary64.ofInt?_eq_none_iff`).
-/

namespace RecordSchema.Binary64

/-! ## Rounded quotients -/

theorem divRound_cases (num den : Nat) :
    (divRound num den = num / den ∧
      (2 * (num % den) < den ∨ 2 * (num % den) = den ∧ num / den % 2 = 0)) ∨
    (divRound num den = num / den + 1 ∧
      (den < 2 * (num % den) ∨ 2 * (num % den) = den ∧ num / den % 2 = 1)) := by
  unfold divRound
  dsimp only
  split
  · exact .inl ⟨rfl, by omega⟩
  · split
    · exact .inr ⟨rfl, by omega⟩
    · split
      · exact .inl ⟨rfl, by omega⟩
      · exact .inr ⟨rfl, by omega⟩

/-- A quotient is rounded to an even number or above it just when it is at most half
below that number. -/
theorem le_divRound_iff {num den k : Nat} (hden : 0 < den) (heven : k % 2 = 0) :
    k ≤ divRound num den ↔ 2 * (k * den) ≤ 2 * num + den := by
  have hnum := Nat.div_add_mod num den
  have hrest := Nat.mod_lt num hden
  have hcases := divRound_cases num den
  rw [Nat.mul_comm den] at hnum
  generalize num / den = q at *
  generalize num % den = r at *
  rcases Nat.lt_or_ge q k with hk | hk
  · obtain rfl | hk : k = q + 1 ∨ q + 2 ≤ k := by omega
    · rw [Nat.add_mul, Nat.one_mul]
      omega
    · have hmul := Nat.mul_le_mul_right den hk
      rw [Nat.add_mul] at hmul
      omega
  · have hmul := Nat.mul_le_mul_right den hk
    omega

/-! ## Integers -/

/-- An integer keeps 53 bits from its highest one on. -/
theorem fitExponent_one {m : Nat} (hm : m ≠ 0) :
    fitExponent m 1 = (Nat.log2 m : Int) - 52 := by
  have hlow : 2 ^ Nat.log2 m ≤ m := Nat.log2_self_le hm
  unfold fitExponent
  have hone : Nat.log2 1 = 0 := by decide
  simp only [hone, Int.ofNat_zero, Int.sub_zero, Nat.pow_eq, Nat.one_mul]
  -- The guess is never too large for an integer: its highest bit is known.
  rw [if_neg]
  · unfold minExponent
    omega
  · split
    · have hpow : 2 ^ Nat.log2 m * 2 ^ ((Nat.log2 m : Int) - 52 - 1).natAbs = 2 ^ 53 := by
        rw [← Nat.pow_add]
        congr 1
        omega
      have hmul := Nat.mul_le_mul_right (2 ^ ((Nat.log2 m : Int) - 52 - 1).natAbs) hlow
      omega
    · have hpow : 2 ^ 53 * 2 ^ ((Nat.log2 m : Int) - 52 - 1).toNat = 2 ^ Nat.log2 m := by
        rw [← Nat.pow_add]
        congr 1
        omega
      omega

/-- The exponent an integer ends with: one more than that of its highest bit where its
mantissa is rounded up to the next power of two. -/
def roundedExponent (m : Nat) : Int :=
  if scaledMantissa m 1 ((Nat.log2 m : Int) - 52) = 2 ^ 53 then (Nat.log2 m : Int) - 52 + 1
  else (Nat.log2 m : Int) - 52

theorem roundRatio_one_eq_infinity_iff (negative : Bool) {m : Nat} (hm : m ≠ 0) :
    (∃ s, roundRatio negative m 1 = .infinity s) ↔ maxExponent < roundedExponent m := by
  unfold roundRatio roundedExponent
  rw [if_neg hm, fitExponent_one hm]
  simp only [Nat.pow_eq]
  by_cases hround : scaledMantissa m 1 ((Nat.log2 m : Int) - 52) = 2 ^ 53
  · rw [if_pos hround, if_pos hround]
    by_cases hpast : maxExponent < (Nat.log2 m : Int) - 52 + 1
    · simp [hpast]
    · simp [hpast]
  · rw [if_neg hround, if_neg hround]
    by_cases hpast : maxExponent < (Nat.log2 m : Int) - 52
    · simp [hpast]
    · simp only [hpast, if_false, iff_false]
      split <;> simp

theorem ofInt?_eq_none_iff_infinity (n : Int) :
    ofInt? n = none ↔ ∃ s, roundRatio (n < 0) n.natAbs 1 = .infinity s := by
  unfold ofInt?
  split
  · next s h => simp [h]
  · next h => simpa using h

theorem divRound_le (num : Nat) {den k : Nat} (h : num < k * den) : divRound num den ≤ k := by
  have hquotient : num / den < k := Nat.div_lt_of_lt_mul (Nat.mul_comm k den ▸ h)
  rcases divRound_cases num den with ⟨heq, -⟩ | ⟨heq, -⟩ <;> omega

theorem scaledMantissa_one (m k : Nat) : scaledMantissa m 1 k = divRound m (2 ^ k) := by
  rw [scaledMantissa, if_neg (by omega), Nat.one_mul, Int.toNat_natCast, Nat.pow_eq]

/-- The mantissa of the largest exponent is rounded past its 53 bits just when the integer
is at most half a unit below `2 ^ 1024`. -/
theorem scaledMantissa_largest {m : Nat} (hm : m < 2 ^ 1024) :
    scaledMantissa m 1 971 = 2 ^ 53 ↔ 2 ^ 1024 - 2 ^ 970 ≤ m := by
  have hunit : (2 : Nat) ^ 971 = 2 * 2 ^ 970 := by decide +kernel
  have hpast : (2 : Nat) ^ 1024 = 2 ^ 53 * (2 * 2 ^ 970) := by
    rw [← hunit, ← Nat.pow_add]
  have hpos := Nat.two_pow_pos 970
  rw [show (971 : Int) = (971 : Nat) from rfl, scaledMantissa_one, hunit, hpast]
  rw [hpast] at hm
  generalize (2 : Nat) ^ 970 = half at hm hpos ⊢
  have hle : divRound m (2 * half) ≤ 2 ^ 53 := divRound_le m hm
  have hiff : 2 ^ 53 ≤ divRound m (2 * half) ↔ _ := le_divRound_iff (by omega) (by decide)
  rw [Nat.le_antisymm_iff, and_iff_right hle, hiff]
  omega

/-- An integer is rounded to infinity from half a unit below `2 ^ 1024` on. -/
theorem roundRatio_one_infinity (negative : Bool) (m : Nat) :
    (∃ s, roundRatio negative m 1 = .infinity s) ↔ 2 ^ 1024 - 2 ^ 970 ≤ m := by
  have hhalf : (2 : Nat) ^ 970 ≤ 2 ^ 1023 := Nat.pow_le_pow_right (by omega) (by omega)
  have hlast : (2 : Nat) ^ 1024 = 2 * 2 ^ 1023 := by decide +kernel
  have hpos := Nat.two_pow_pos 1023
  rcases Nat.eq_zero_or_pos m with rfl | hm
  · rw [roundRatio, if_pos rfl]
    simp only [reduceCtorEq, exists_false, false_iff, Nat.not_le]
    omega
  · rw [roundRatio_one_eq_infinity_iff negative (by omega), roundedExponent, maxExponent]
    rcases Nat.lt_trichotomy (Nat.log2 m) 1023 with hlow | hlog | hhigh
    · have hlt : m < 2 ^ 1023 := (Nat.log2_lt (k := 1023) (by omega)).1 hlow
      refine iff_of_false ?_ (by omega)
      split <;> omega
    · have hlt : m < 2 ^ 1024 := (Nat.log2_lt (k := 1024) (by omega)).1 (by omega)
      have hexponent : (Nat.log2 m : Int) - 52 = 971 := by omega
      rw [hexponent, ← scaledMantissa_largest hlt]
      split
      · next h => exact iff_of_true (by omega) h
      · next h => exact iff_of_false (by omega) h
    · have hle : 2 ^ 1024 ≤ m := (Nat.le_log2 (k := 1024) (by omega)).1 hhigh
      refine iff_of_true ?_ (by omega)
      split <;> omega

/-- The least magnitude of the integers without a float. -/
@[irreducible] def overflowBound : Nat := 2 ^ 1024 - 2 ^ 970

/-- An integer has no float from the bound on, on either side of zero. -/
theorem ofInt?_eq_none_iff (n : Int) : ofInt? n = none ↔ overflowBound ≤ n.natAbs := by
  unfold overflowBound
  exact (ofInt?_eq_none_iff_infinity n).trans (roundRatio_one_infinity _ _)

end RecordSchema.Binary64
