import LogQuery.Number.Text
import Mathlib.Algebra.Order.Ring.Nat
import Mathlib.Tactic.Lemma
import Mathlib.Tactic.SplitIfs

namespace LogQuery

lemma twoTo_le_twoTo {m n : Nat} (h : m ≤ n) : twoTo m ≤ twoTo n :=
  Nat.pow_le_pow_right (by decide) h

lemma tenTo_le_tenTo {m n : Nat} (h : m ≤ n) : tenTo m ≤ tenTo n :=
  Nat.pow_le_pow_right (by decide) h

lemma length_toString (n : Nat) : (toString n).length = (Nat.toDigits 10 n).length := by
  rw [← String.length_toList, Nat.toString_eq_repr, Nat.toList_repr]

/-- A number has as many digits as powers of ten are needed to exceed it. -/
lemma length_toString_le_iff {n k : Nat} (hk : 0 < k) : (toString n).length ≤ k ↔ n < tenTo k := by
  rw [length_toString]
  exact Nat.length_toDigits_le_iff (by decide) hk

lemma length_toString_pos (n : Nat) : 0 < (toString n).length := by
  rw [length_toString]
  exact Nat.length_toDigits_pos

/-- A number has too few digits to reach the next power of ten. -/
lemma lt_tenTo_length (n : Nat) : n < tenTo (toString n).length :=
  (length_toString_le_iff (length_toString_pos n)).1 (Nat.le_refl _)

/-- A positive number has no zero in front. -/
lemma tenTo_pred_length_le {n : Nat} (hn : 0 < n) : tenTo ((toString n).length - 1) ≤ n := by
  rcases Nat.eq_zero_or_pos ((toString n).length - 1) with h | h
  · rw [h]
    exact hn
  · by_contra hlt
    have := (length_toString_le_iff h).2 (Nat.lt_of_not_le hlt)
    omega

namespace Binary64

/-! ### Bounds of the value -/

variable {x : Binary64}

lemma significand_lt (x : Binary64) : x.significand < twoTo 53 := by
  have hfraction : x.magnitude % twoTo 52 < twoTo 52 := Nat.mod_lt _ (twoTo_pos 52)
  have hsucc : twoTo 53 = twoTo 52 + twoTo 52 := by rw [twoTo_succ, Nat.mul_two]
  rw [significand]
  split_ifs <;> omega

lemma shiftedExponent_le (h : x.isFinite = true) : x.shiftedExponent ≤ 2045 := by
  rw [isFinite, decide_eq_true_eq, infiniteMagnitude] at h
  have : x.magnitude / twoTo 52 < 2047 := (Nat.div_lt_iff_lt_mul (twoTo_pos 52)).2 h
  rw [shiftedExponent]
  omega

/-- The numerator of a finite number has at most 1024 bits. -/
lemma ratio_fst_le (h : x.isFinite = true) : x.ratio.1 ≤ twoTo 1024 := by
  have hsignificand := significand_lt x
  rw [ratio]
  split_ifs
  · have hexponent : twoTo (x.shiftedExponent - 1074) ≤ twoTo 971 :=
      twoTo_le_twoTo (by have := shiftedExponent_le h; omega)
    calc x.significand * twoTo (x.shiftedExponent - 1074)
        ≤ twoTo 53 * twoTo 971 := Nat.mul_le_mul hsignificand.le hexponent
      _ = twoTo 1024 := (twoTo_add 53 971).symm
  · exact hsignificand.le.trans (twoTo_le_twoTo (by decide))

lemma ratio_snd_pos (x : Binary64) : 0 < x.ratio.2 := by
  rw [ratio]
  split_ifs
  · exact Nat.one_pos
  · exact twoTo_pos _

/-- The denominator of a number has at most 1074 bits. -/
lemma ratio_snd_le (x : Binary64) : x.ratio.2 ≤ twoTo 1074 := by
  rw [ratio]
  split_ifs
  · exact twoTo_pos _
  · exact twoTo_le_twoTo (Nat.sub_le _ _)

lemma length_value_le (h : x.isFinite = true) : (toString (4 * x.ratio.1)).length ≤ 309 := by
  refine (length_toString_le_iff (by decide)).2 ?_
  have hle : 4 * x.ratio.1 ≤ 4 * twoTo 1024 := Nat.mul_le_mul_left 4 (ratio_fst_le h)
  exact hle.trans_lt (by decide +kernel)

lemma length_unit_le (x : Binary64) : (toString (4 * x.ratio.2)).length ≤ 324 := by
  refine (length_toString_le_iff (by decide)).2 ?_
  have hle : 4 * x.ratio.2 ≤ 4 * twoTo 1074 := Nat.mul_le_mul_left 4 (ratio_snd_le x)
  exact hle.trans_lt (by decide +kernel)

/-! ### The shortest decimal -/

/-- The first digit stands where the numbers of digits say, or one place behind. -/
lemma leadingPosition_cases (num den : Nat) :
    leadingPosition num den = (toString num).length - ((toString den).length : Int) ∨
      leadingPosition num den = (toString num).length - ((toString den).length : Int) - 1 := by
  rw [leadingPosition]
  split_ifs
  · exact .inl rfl
  · exact .inr rfl

/-- A decimal that is tried has its units at the place that is tried, and no more digits than there
are places up to the first one. -/
lemma Neighbourhood.nearestAt_bounds {i : Neighbourhood} {tie : Tie} {position : Int} {d : Decimal}
    (h : i.nearestAt tie position = some d) (hunit : 0 < i.unit) {k : Nat}
    (hk : ((toString i.value).length : Int) - (toString i.unit).length + 1 ≤ position + k) :
    d.exponent = position ∧ d.digits ≤ tenTo k := by
  have hscale : 0 < i.unit * tenTo position.toNat := Nat.mul_pos hunit (tenTo_pos _)
  have hbelow : i.value * tenTo (-position).toNat / (i.unit * tenTo position.toNat) < tenTo k := by
    rw [Nat.div_lt_iff_lt_mul hscale]
    calc i.value * tenTo (-position).toNat
        < tenTo (toString i.value).length * tenTo (-position).toNat :=
          Nat.mul_lt_mul_of_pos_right (lt_tenTo_length _) (tenTo_pos _)
      _ = tenTo ((toString i.value).length + (-position).toNat) := (tenTo_add _ _).symm
      _ ≤ tenTo (k + ((toString i.unit).length - 1 + position.toNat)) :=
          tenTo_le_tenTo (by have := length_toString_pos i.unit; omega)
      _ = tenTo k * (tenTo ((toString i.unit).length - 1) * tenTo position.toNat) := by
          rw [tenTo_add, tenTo_add]
      _ ≤ tenTo k * (i.unit * tenTo position.toNat) :=
          Nat.mul_le_mul_left _ (Nat.mul_le_mul_right _ (tenTo_pred_length_le hunit))
  rw [nearestAt] at h
  dsimp only at h
  split at h
  · cases h
    refine ⟨rfl, ?_⟩
    dsimp only
    split_ifs
    · exact hbelow
    · exact hbelow.le
  · cases h
    exact ⟨rfl, hbelow.le⟩
  · cases h
    exact ⟨rfl, hbelow⟩
  · cases h

/-- Each zero at the end that is dropped adds one to the exponent. -/
lemma stripZeros_bounds (fuel : Nat) (d : Decimal) :
    (stripZeros fuel d).digits ≤ d.digits ∧ d.exponent ≤ (stripZeros fuel d).exponent ∧
      (stripZeros fuel d).exponent ≤ d.exponent + fuel := by
  induction fuel generalizing d with
  | zero => exact ⟨Nat.le_refl _, Int.le_refl _, by simp [stripZeros]⟩
  | succ fuel ih =>
    rw [stripZeros]
    split_ifs
    · obtain ⟨hdigits, hleast, hmost⟩ := ih ⟨d.digits / 10, d.exponent + 1⟩
      have hdiv : d.digits / 10 ≤ d.digits := Nat.div_le_self _ _
      refine ⟨hdigits.trans hdiv, ?_, ?_⟩ <;> dsimp only at hleast hmost <;> omega
    · exact ⟨Nat.le_refl _, Int.le_refl _, by omega⟩

/-- The shortest decimal of a finite number has at most nineteen digits, and its exponent is
bounded. -/
lemma shortest_bounds (h : x.isFinite = true) (tie : Tie) :
    (toString (x.shortest tie).digits).length ≤ 19 ∧ -340 ≤ (x.shortest tie).exponent ∧
      (x.shortest tie).exponent ≤ 328 := by
  have hvalue := length_value_le h
  have hunit := length_unit_le x
  have hpos : 0 < 4 * x.ratio.2 := Nat.mul_pos (by decide) (ratio_snd_pos x)
  have hvaluePos := length_toString_pos (4 * x.ratio.1)
  have hunitPos := length_toString_pos (4 * x.ratio.2)
  have hfirst := leadingPosition_cases (4 * x.ratio.1) (4 * x.ratio.2)
  rw [shortest]
  generalize hfound : ((List.range 17).findSome? fun n : Nat => x.neighbourhood.nearestAt tie
    (leadingPosition x.neighbourhood.value x.neighbourhood.unit - n)) = found
  have hbounds : (found.getD ⟨0, 0⟩).digits ≤ tenTo 18 ∧ -340 ≤ (found.getD ⟨0, 0⟩).exponent ∧
      (found.getD ⟨0, 0⟩).exponent ≤ 308 := by
    cases found with
    | none => exact ⟨Nat.zero_le _, by decide, by decide⟩
    | some d =>
      obtain ⟨n, hn, hd⟩ := List.exists_of_findSome?_eq_some hfound
      have hn := List.mem_range.1 hn
      obtain ⟨hexponent, hdigits⟩ := Neighbourhood.nearestAt_bounds (k := 18) hd hpos
        (by simp only [neighbourhood] at hfirst ⊢; omega)
      simp only [neighbourhood] at hexponent
      rw [Option.getD_some, hexponent]
      exact ⟨hdigits, by omega, by omega⟩
  obtain ⟨hdigits, hleast, hmost⟩ := stripZeros_bounds 20 (found.getD ⟨0, 0⟩)
  refine ⟨?_, by omega, by omega⟩
  refine (length_toString_le_iff (by decide)).2 ?_
  calc (stripZeros 20 (found.getD ⟨0, 0⟩)).digits ≤ tenTo 18 := hdigits.trans hbounds.1
    _ < tenTo 19 := by decide

/-! ### Plain notation -/

/-- A decimal is as long as its digits and the zeros that its exponent asks for. -/
lemma length_positional_le (d : Decimal) :
    (positional d).length ≤ (toString d.digits).length + d.exponent.natAbs + 2 := by
  rw [positional]
  split_ifs
  · rw [String.length_append, zeros, String.length_ofList, List.length_replicate]
    omega
  · simp only [pointAfter, String.length_append, String.length_ofList, List.length_take,
      List.length_drop, String.length_toList]
    have : ".".length = 1 := rfl
    omega
  · simp only [String.length_append, zeros, String.length_ofList, List.length_replicate]
    have : "0.".length = 2 := rfl
    omega

/-- No number takes more than 400 characters, although one as short as `1e308` is written with
hundreds of zeros. -/
theorem length_plain_le (x : Binary64) : x.plain.length ≤ 400 := by
  have hsigned : ∀ body : String, body.length ≤ 399 →
      ((if x.negative then "-" else "") ++ body).length ≤ 400 := by
    intro body hbody
    have hsign : (if x.negative then "-" else "").length ≤ 1 := by split_ifs <;> decide
    rw [String.length_append]
    omega
  by_cases hnan : x.isNaN = true
  · rw [plain, if_pos hnan]
    decide
  · rw [plain, if_neg hnan]
    apply hsigned
    split_ifs with hinfinite
    · decide
    · decide
    · have hfinite : x.isFinite = true := by simpa using hinfinite
      have hbounds := shortest_bounds hfinite .up
      have hlength := length_positional_le (x.shortest .up)
      omega

end Binary64

end LogQuery
