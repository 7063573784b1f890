import LogQuery.Proofs.Number.Rounding
import Mathlib.Algebra.Order.Field.Basic
import Mathlib.Data.Rat.Cast.Order
import Mathlib.Tactic.FieldSimp
import Mathlib.Tactic.Linarith

namespace LogQuery.Binary64

variable {num den k m : Nat} {q : ℚ}

/-- The value of a magnitude. -/
def valueOf (m : Nat) : ℚ := (scaled m : ℚ) / (twoTo 1074 : Nat)

/-- The middle between the values of a magnitude and the next one. -/
def middle (m : Nat) : ℚ := (valueOf m + valueOf (m + 1)) / 2

/-- What is rounded to a magnitude or below it: what lies below the middle between it and the next
one, and the middle itself if the magnitude is even. -/
def RoundsBelow (m : Nat) (q : ℚ) : Prop := q < middle m ∨ q = middle m ∧ m % 2 = 0

/-- What is rounded to the number above a magnitude. -/
def RoundsTo (k : Nat) (q : ℚ) : Prop := RoundsBelow (k + 1) q ∧ ¬ RoundsBelow k q

/-- Rounding a fraction down to a magnitude is a comparison with the middle between two values, a
tie going to the even one. -/
lemma roundsBelow_div (hden : 0 < den) (m : Nat) : RoundsBelow m (num / den) ↔
    2 * (num * twoTo 1074) < den * scaled m + den * scaled (m + 1) ∨
      2 * (num * twoTo 1074) = den * scaled m + den * scaled (m + 1) ∧ m % 2 = 0 := by
  have hden' : (0 : ℚ) < den := Nat.cast_pos.2 hden
  have hpos := twoTo_pos 1074
  rw [RoundsBelow, middle, valueOf, valueOf]
  generalize twoTo 1074 = unit at hpos ⊢
  have hunit : (0 : ℚ) < unit := Nat.cast_pos.2 hpos
  have hleft : 2 * (num * unit) = num * (unit * 2) := by ring
  have hright : den * scaled m + den * scaled (m + 1) = (scaled m + scaled (m + 1)) * den := by
    ring
  rw [hleft, hright, ← add_div, div_div, div_lt_div_iff₀ hden' (by positivity),
    div_eq_div_iff hden'.ne' (by positivity)]
  norm_cast

/-- A fraction is read as at most some magnitude exactly if it is rounded to it or below it. -/
lemma magnitude_ofRatio_le_iff_roundsBelow {negative : Bool} (hden : 0 < den)
    (hm : m < infiniteMagnitude) :
    (ofRatio negative num den).magnitude ≤ m ↔ RoundsBelow m (num / den) := by
  rw [magnitude_ofRatio_le_iff hden hm, roundsBelow_div hden]

/-- A fraction is rounded to the number it is nearest to. -/
theorem ofRatio_eq_iff {negative : Bool} (hden : 0 < den) (hk : k + 1 < infiniteMagnitude) :
    ofRatio negative num den = ⟨negative, k + 1⟩ ↔ RoundsTo k (num / den) := by
  rw [ofRatio_eq_mk_iff, magnitude_ofRatio_le_iff_roundsBelow hden hk,
    magnitude_ofRatio_le_iff_roundsBelow hden (by omega), RoundsTo]

/-! ### The interval -/

/-- A fraction lies in the interval. -/
def Neighbourhood.Holds (i : Neighbourhood) (q : ℚ) : Prop :=
  if i.closed then (i.low : ℚ) ≤ q * i.unit ∧ q * i.unit ≤ i.high
  else (i.low : ℚ) < q * i.unit ∧ q * i.unit < i.high

lemma unit_pos (x : Binary64) : (0 : ℚ) < x.neighbourhood.unit :=
  Nat.cast_pos.2 (Nat.mul_pos (by decide) (ratio_snd_pos x))

/-- The ends of the interval, and the value in it. -/
lemma neighbourhood_ends (k : Nat) :
    let i := (neighbourhood ⟨false, k + 1⟩)
    (i.low : ℚ) = middle k * i.unit ∧ (i.value : ℚ) = valueOf (k + 1) * i.unit ∧
      (i.high : ℚ) = middle (k + 1) * i.unit := by
  intro i
  obtain ⟨hlow, hhigh⟩ := neighbourhood_bounds k
  have hvalue : (ratio ⟨false, k + 1⟩).1 * twoTo 1074 = _ := ratio_fst_mul _
  have hpos := twoTo_pos 1074
  have hunit : i.unit = 4 * (ratio ⟨false, k + 1⟩).2 := rfl
  have hnumber : i.value = 4 * (ratio ⟨false, k + 1⟩).1 := rfl
  rw [middle, middle, valueOf, valueOf, valueOf, hunit, hnumber]
  dsimp only at hlow hhigh hvalue
  generalize twoTo 1074 = T at *
  have hT : (T : ℚ) ≠ 0 := Nat.cast_ne_zero.2 (Nat.ne_of_gt hpos)
  replace hlow := congrArg (Nat.cast : Nat → ℚ) hlow
  replace hhigh := congrArg (Nat.cast : Nat → ℚ) hhigh
  replace hvalue := congrArg (Nat.cast : Nat → ℚ) hvalue
  push_cast at hlow hhigh hvalue ⊢
  refine ⟨?_, ?_, ?_⟩ <;> field_simp <;> linarith

/-- The interval of a number holds just the fractions that round to it. -/
lemma holds_iff (k : Nat) (q : ℚ) :
    (neighbourhood ⟨false, k + 1⟩).Holds q ↔ RoundsTo k q := by
  obtain ⟨hlow, -, hhigh⟩ := neighbourhood_ends k
  have hunit := unit_pos ⟨false, k + 1⟩
  rw [Neighbourhood.Holds, closed_neighbourhood, hlow, hhigh, mul_le_mul_iff_left₀ hunit,
    mul_le_mul_iff_left₀ hunit, mul_lt_mul_iff_left₀ hunit, mul_lt_mul_iff_left₀ hunit, RoundsTo,
    RoundsBelow, RoundsBelow, not_or, not_lt]
  by_cases heven : (k + 1) % 2 = 0
  · have hodd : ¬ k % 2 = 0 := by omega
    simp only [heven, hodd, decide_true, if_true, and_true, and_false, not_false_eq_true,
      ← le_iff_lt_or_eq]
    exact and_comm
  · have hodd : k % 2 = 0 := by omega
    simp only [heven, hodd, decide_false, Bool.false_eq_true, if_false, and_false, or_false,
      and_true]
    rw [lt_iff_le_and_ne (a := middle k), ne_comm]
    exact and_comm

/-- The distances to the numbers below and above. The one below is the smaller, and 53 bits of it
exceed the number. -/
lemma exists_distances (k : Nat) : ∃ below above : ℚ, 0 < below ∧ below ≤ above ∧
    valueOf (k + 1) = valueOf k + below ∧ valueOf (k + 2) = valueOf (k + 1) + above ∧
      valueOf (k + 1) ≤ 2 ^ 53 * below := by
  have hpos := twoTo_pos 1074
  have hgap : gap k ≤ gap (k + 1) := by
    have hhalf := two_mul_gap k
    split_ifs at hhalf <;> omega
  have hbits : scaled (k + 1) ≤ 2 ^ 53 * gap k := scaled_succ_le k
  have habove : scaled (k + 2) = scaled (k + 1) + gap (k + 1) := scaled_succ (k + 1)
  simp only [valueOf, habove, scaled_succ k] at hbits ⊢
  generalize twoTo 1074 = T at *
  have hT : (0 : ℚ) < T := Nat.cast_pos.2 hpos
  refine ⟨gap k / T, gap (k + 1) / T, div_pos (Nat.cast_pos.2 (gap_pos k)) hT, ?_, ?_, ?_, ?_⟩
  · exact div_le_div_of_nonneg_right (Nat.cast_le.2 hgap) hT.le
  · rw [Nat.cast_add, add_div]
  · rw [Nat.cast_add, add_div]
  · rw [← mul_div_assoc]
    exact div_le_div_of_nonneg_right (by exact_mod_cast hbits) hT.le

lemma valueOf_succ_pos (k : Nat) : 0 < valueOf (k + 1) := by
  obtain ⟨below, -, hpos, -, hbelow, -⟩ := exists_distances k
  have hnonneg : 0 ≤ valueOf k := div_nonneg (Nat.cast_nonneg _) (Nat.cast_nonneg _)
  linarith

/-- What differs from the value by no more than the half of a unit behind its sixteenth digit is
rounded to it. -/
lemma roundsTo_of_near (hlow : valueOf (k + 1) - q ≤ valueOf (k + 1) / (2 * 10 ^ 16))
    (hhigh : q - valueOf (k + 1) ≤ valueOf (k + 1) / (2 * 10 ^ 16)) : RoundsTo k q := by
  obtain ⟨below, above, hpos, hle, hbelow, habove, hbits⟩ := exists_distances k
  have hsmall : valueOf (k + 1) / (2 * 10 ^ 16) < below / 2 := by
    rw [div_lt_div_iff₀ (by positivity) (by positivity)]
    linarith
  refine ⟨.inl ?_, ?_⟩
  · rw [middle]
    linarith
  · rw [RoundsBelow, middle]
    rintro (h | ⟨h, -⟩) <;> linarith

end LogQuery.Binary64
