import LogQuery.Proofs.Number.Fraction
import LogQuery.Proofs.Number.Reading
import LogQuery.Proofs.Number.Shortest
import Mathlib.Algebra.Order.Field.Power

namespace LogQuery

def Decimal.toRat (d : Decimal) : ℚ := d.digits * 10 ^ d.exponent

def Numeral.toRat (n : Numeral) : ℚ := digitsValue n.digits * 10 ^ n.exponent

namespace Binary64

lemma cast_tenTo (n : Nat) : (tenTo n : ℚ) = 10 ^ n := by
  rw [tenTo, Nat.pow_eq, Nat.cast_pow, Nat.cast_ofNat]

lemma cast_tenTo_pos (n : Nat) : (0 : ℚ) < tenTo n := Nat.cast_pos.2 (tenTo_pos n)

/-- A power of ten is a fraction of natural numbers. -/
lemma ten_zpow (p : Int) : (10 : ℚ) ^ p = (tenTo p.toNat : ℚ) / tenTo (-p).toNat := by
  rw [cast_tenTo, cast_tenTo]
  rcases Int.le_total 0 p with h | h
  · obtain ⟨n, rfl⟩ := Int.eq_ofNat_of_zero_le h
    simp
  · obtain ⟨n, hn⟩ := Int.eq_ofNat_of_zero_le (Int.neg_nonneg_of_nonpos h)
    obtain rfl : p = -n := by omega
    simp

/-! ### The first digit -/

/-- The first digit stands at the place of a power of ten that is not above the value. -/
lemma ten_zpow_leadingPosition_le {num den : Nat} (hnum : 0 < num) (hden : 0 < den) :
    (10 : ℚ) ^ leadingPosition num den ≤ num / den := by
  have hden' : (0 : ℚ) < den := Nat.cast_pos.2 hden
  rw [leadingPosition]
  split_ifs with h
  · rw [ten_zpow, div_le_div_iff₀ (cast_tenTo_pos _) hden', mul_comm (tenTo _ : ℚ)]
    exact_mod_cast h
  · have hlow : (tenTo ((toString num).length - 1) : ℚ) ≤ num :=
      Nat.cast_le.2 (tenTo_pred_length_le hnum)
    have hhigh : (den : ℚ) ≤ tenTo (toString den).length := Nat.cast_le.2 (lt_tenTo_length den).le
    have hlength : ((toString num).length : Int) - (toString den).length - 1 =
        ((toString num).length - 1 : Nat) - ((toString den).length : Int) := by
      have := length_toString_pos num
      omega
    rw [hlength, zpow_sub₀ (by norm_num), zpow_natCast, zpow_natCast, ← cast_tenTo, ← cast_tenTo]
    exact div_le_div₀ (Nat.cast_nonneg _) hlow hden' hhigh

/-! ### The places that are tried -/

/-- At a place that is tried, a point of the grid in the interval is found, or the two points next
to the value lie outside of it. -/
lemma nearestAt_cases {i : Neighbourhood} (hunit : 0 < i.unit) (tie : Tie) (p : Int) :
    (∃ digits, i.nearestAt tie p = some ⟨digits, p⟩ ∧ i.Holds (digits * 10 ^ p)) ∨
      ∃ below : Nat, i.nearestAt tie p = none ∧ (below : ℚ) * 10 ^ p ≤ i.value / i.unit ∧
        (i.value : ℚ) / i.unit < (below + 1 : Nat) * 10 ^ p ∧ ¬ i.Holds (below * 10 ^ p) ∧
          ¬ i.Holds ((below + 1 : Nat) * 10 ^ p) := by
  have hunit' : (0 : ℚ) < i.unit := Nat.cast_pos.2 hunit
  have hshift := cast_tenTo_pos (-p).toNat
  have hscale : 0 < i.unit * tenTo p.toNat := Nat.mul_pos hunit (tenTo_pos _)
  have hpoint (n : Nat) : (n : ℚ) * 10 ^ p * i.unit =
      (n * (i.unit * tenTo p.toNat) : Nat) / tenTo (-p).toNat := by
    rw [ten_zpow]
    push_cast
    ring
  have hinside (n : Nat) : (if i.closed = true then
      decide (i.low * tenTo (-p).toNat ≤ n * (i.unit * tenTo p.toNat)) &&
        decide (n * (i.unit * tenTo p.toNat) ≤ i.high * tenTo (-p).toNat)
    else decide (i.low * tenTo (-p).toNat < n * (i.unit * tenTo p.toNat)) &&
        decide (n * (i.unit * tenTo p.toNat) < i.high * tenTo (-p).toNat)) = true ↔
      i.Holds (n * 10 ^ p) := by
    rw [Neighbourhood.Holds, hpoint, le_div_iff₀ hshift, div_le_iff₀ hshift, lt_div_iff₀ hshift,
      div_lt_iff₀ hshift]
    norm_cast
    split_ifs <;> simp
  rw [Neighbourhood.nearestAt]
  dsimp only
  split
  · next hlow hhigh =>
    refine .inl ⟨_, rfl, ?_⟩
    split_ifs
    · exact (hinside _).1 hhigh
    · exact (hinside _).1 hlow
  · next hlow hhigh => exact .inl ⟨_, rfl, (hinside _).1 hlow⟩
  · next hlow hhigh => exact .inl ⟨_, rfl, (hinside _).1 hhigh⟩
  · next hlow hhigh =>
    refine .inr ⟨_, rfl, ?_, ?_, mt (hinside _).2 (Bool.eq_false_iff.1 hlow),
      mt (hinside _).2 (Bool.eq_false_iff.1 hhigh)⟩
    · rw [le_div_iff₀ hunit', hpoint, div_le_iff₀ hshift]
      exact_mod_cast Nat.div_mul_le_self _ _
    · rw [div_lt_iff₀ hunit', hpoint, lt_div_iff₀ hshift, mul_comm (_ + 1)]
      exact_mod_cast Nat.lt_mul_div_succ _ hscale

/-- At the place of the seventeenth digit a decimal is found. -/
lemma isSome_nearestAt (k : Nat) (tie : Tie) {p : Int}
    (hp : (10 : ℚ) ^ (p + 16) ≤ valueOf (k + 1)) :
    ((neighbourhood ⟨false, k + 1⟩).nearestAt tie p).isSome = true := by
  obtain ⟨-, hvalue, -⟩ := neighbourhood_ends k
  have hunit := unit_pos ⟨false, k + 1⟩
  rcases nearestAt_cases (Nat.cast_pos.1 hunit) tie p with
    ⟨_, hfound, -⟩ | ⟨below, -, hle, hlt, hlow, hhigh⟩
  · rw [hfound]
    rfl
  · exfalso
    rw [hvalue, mul_div_cancel_right₀ _ hunit.ne'] at hle hlt
    rw [holds_iff] at hlow hhigh
    rw [zpow_add₀ (by norm_num)] at hp
    have hstep : (10 : ℚ) ^ p / 2 ≤ valueOf (k + 1) / (2 * 10 ^ 16) := by
      rw [div_le_div_iff₀ (by norm_num) (by norm_num)]
      linarith
    have hpos : (0 : ℚ) < 10 ^ p := zpow_pos (by norm_num) p
    have hnext : ((below + 1 : Nat) : ℚ) * 10 ^ p = below * 10 ^ p + 10 ^ p := by
      push_cast
      ring
    rw [hnext] at hlt hhigh
    -- The nearer one of the two points is not farther than half of their distance.
    rcases le_total (valueOf (k + 1) - below * 10 ^ p) (10 ^ p / 2) with h | h
    · exact hlow (roundsTo_of_near (by linarith) (by linarith))
    · exact hhigh (roundsTo_of_near (by linarith) (by linarith))

/-! ### The shortest decimal -/

/-- Zeros at the end move into the exponent. -/
lemma toRat_stripZeros (fuel : Nat) (d : Decimal) : (stripZeros fuel d).toRat = d.toRat := by
  induction fuel generalizing d with
  | zero => rfl
  | succ fuel ih =>
    rw [stripZeros]
    split_ifs with hzero
    · have hdigits : d.digits = d.digits / 10 * 10 := by omega
      have hcast := congrArg (Nat.cast : Nat → ℚ) hdigits
      rw [ih, Decimal.toRat, Decimal.toRat, hcast, zpow_add_one₀ (by norm_num)]
      push_cast
      ring
    · rfl

/-- The shortest decimal is rounded to the number. -/
theorem roundsTo_shortest (k : Nat) (tie : Tie) :
    RoundsTo k (shortest ⟨false, k + 1⟩ tie).toRat := by
  obtain ⟨-, hvalue, -⟩ := neighbourhood_ends k
  have hunit := unit_pos ⟨false, k + 1⟩
  have hunitPos := Nat.cast_pos.1 hunit
  have hvaluePos : 0 < (neighbourhood ⟨false, k + 1⟩).value := by
    rw [← Nat.cast_pos (α := ℚ), hvalue]
    exact mul_pos (valueOf_succ_pos k) hunit
  have hfirst := ten_zpow_leadingPosition_le hvaluePos hunitPos
  rw [hvalue, mul_div_cancel_right₀ _ hunit.ne'] at hfirst
  rw [shortest]
  generalize leadingPosition _ _ = first at hfirst ⊢
  have hsome := isSome_nearestAt k tie (p := first - (16 : Nat)) (by simpa using hfirst)
  obtain ⟨n, d, -, hrange, hfound, -⟩ := exists_findSome?_range
    (f := fun n : Nat => (neighbourhood ⟨false, k + 1⟩).nearestAt tie (first - n)) (n := 17)
    (by decide) hsome
  rw [hrange, Option.getD_some, toRat_stripZeros, ← holds_iff]
  rcases nearestAt_cases hunitPos tie (first - n) with ⟨digits, hdigits, hholds⟩ | ⟨_, hnone, -⟩
  · obtain rfl := Option.some.inj (hfound.symm.trans hdigits)
    exact hholds
  · cases hfound.symm.trans hnone

/-! ### Reading -/

/-- The text of a decimal is a numeral of the same value. -/
lemma exists_numeral_positional (d : Decimal) : ∃ (ds : List Char) (places : Nat),
    Numeral.ofText? (positional d).toList = some ⟨false, ds, -places⟩ ∧
      places ≤ (positional d).length ∧ ds.length ≤ (positional d).length ∧
        (Numeral.digitsValue ds : ℚ) * 10 ^ (-places : Int) = d.toRat := by
  rw [← String.length_toList, Decimal.toRat]
  by_cases hexponent : 0 ≤ d.exponent
  · obtain ⟨n, hn⟩ := Int.eq_ofNat_of_zero_le hexponent
    have hne : (toString d.digits).toList ++ (zeros n).toList ≠ [] :=
      List.append_ne_nil_of_left_ne_nil (toString_toList_ne_nil _) _
    rw [toList_positional hexponent, hn, Int.toNat_natCast]
    refine ⟨_, 0, Numeral.ofText?_digits hne fun c hc => ?_, Nat.zero_le _, Nat.le_refl _, ?_⟩
    · rcases List.mem_append.1 hc with hc | hc
      · exact isDigit_of_mem_toString hc
      · exact isDigit_of_mem_zeros hc
    · rw [Numeral.digitsValue_append, Numeral.digitsValue_toString, digitsValue_zeros, length_zeros,
        zpow_natCast]
      simp [cast_tenTo]
  · obtain ⟨whole, more, htext, hne, hwhole, hmore, hplaces, hvalue⟩ :=
      exists_point (Int.not_le.1 hexponent)
    rw [htext]
    refine ⟨_, _, Numeral.ofText?_fraction hne hwhole hmore, ?_, ?_, ?_⟩
    · rw [List.length_append, List.length_cons]
      omega
    · simp
    · rw [hvalue, hplaces, Int.neg_neg]

/-- Nothing is rounded to a positive number but what is positive. -/
lemma RoundsTo.pos {k : Nat} {q : ℚ} (h : RoundsTo k q) : 0 < q := by
  have hvalue := valueOf_succ_pos k
  have hnonneg : 0 ≤ valueOf k := div_nonneg (Nat.cast_nonneg _) (Nat.cast_nonneg _)
  have hnot := h.2
  rw [RoundsBelow, not_or, middle] at hnot
  linarith [hnot.1]

/-- A numeral of moderate size is read as a number exactly if its value rounds to that number. -/
lemma nearest_eq_iff {n : Numeral} {k : Nat} (hk : k + 1 < infiniteMagnitude)
    (hpos : 0 < Numeral.digitsValue n.digits) (hsmall : -400 ≤ n.exponent)
    (hlarge : n.digits.length + n.exponent ≤ 400) :
    n.nearest = ⟨n.negative, k + 1⟩ ↔ RoundsTo k n.toRat := by
  rw [Numeral.nearest_eq hpos hsmall hlarge, ofRatio_eq_iff (tenTo_pos _) hk, Numeral.toRat,
    ten_zpow, Nat.cast_mul, mul_div_assoc]

/-- The text of the shortest decimal is a numeral that is rounded to the number, with either
sign. -/
lemma exists_numeral_shortest {k : Nat} (hk : k + 1 < infiniteMagnitude) (tie : Tie) :
    ∃ n : Numeral, Numeral.ofText? (positional (shortest ⟨false, k + 1⟩ tie)).toList = some n ∧
      n.negative = false ∧
        ∀ negative, ({ n with negative := negative } : Numeral).nearest = ⟨negative, k + 1⟩ := by
  obtain ⟨hdigits, hleast, hmost⟩ := shortest_bounds (x := ⟨false, k + 1⟩) (decide_eq_true hk) tie
  have hlength := length_positional_le (shortest ⟨false, k + 1⟩ tie)
  obtain ⟨ds, places, hread, hplaces, hds, hvalue⟩ :=
    exists_numeral_positional (shortest ⟨false, k + 1⟩ tie)
  have hrounds := roundsTo_shortest k tie
  rw [← hvalue] at hrounds
  have hpos : 0 < Numeral.digitsValue ds := by
    refine Nat.pos_of_ne_zero fun hzero => ?_
    have := hrounds.pos
    rw [hzero, Nat.cast_zero, zero_mul] at this
    exact lt_irrefl 0 this
  exact ⟨_, hread, rfl, fun negative =>
    (nearest_eq_iff (n := ⟨negative, ds, -places⟩) hk hpos (by dsimp only; omega)
      (by dsimp only; omega)).2 hrounds⟩

lemma plain_succ {k : Nat} (hk : k + 1 < infiniteMagnitude) (negative : Bool) :
    plain ⟨negative, k + 1⟩ =
      (if negative then "-" else "") ++ positional (shortest ⟨false, k + 1⟩ .up) := by
  have hnan : isNaN ⟨negative, k + 1⟩ = false := decide_eq_false (Nat.not_lt.2 hk.le)
  have hfinite : isFinite ⟨negative, k + 1⟩ = true := decide_eq_true hk
  rw [plain, hnan, hfinite]
  rfl

/-- The text of a finite number in plain notation is read as this number. -/
theorem ofText?_plain {x : Binary64} (h : x.isFinite = true) : ofText? x.plain = some x := by
  obtain ⟨negative, _ | k⟩ := x
  · cases negative <;> decide
  · have hk : k + 1 < infiniteMagnitude := of_decide_eq_true h
    obtain ⟨n, hread, hsign, hnearest⟩ := exists_numeral_shortest hk .up
    obtain ⟨c, more, htext, hc⟩ := (isNumeral_positional (shortest ⟨false, k + 1⟩ .up)).head
    rw [htext] at hread
    rw [ofText?, plain_succ hk, String.toList_append, htext]
    cases negative with
    | false =>
      have htoken : (if false = true then "-" else "").toList ++ c :: more = c :: more := rfl
      rw [htoken, Numeral.splitSign_cons hc]
      dsimp only
      rw [named?_cons hc, hread, Option.map_some, ← hnearest false, ← hsign]
    | true =>
      have htoken : (if true = true then "-" else "").toList ++ c :: more = '-' :: c :: more := rfl
      have hsplit : Numeral.splitSign ('-' :: c :: more) = (true, c :: more) := rfl
      rw [htoken, hsplit]
      dsimp only
      rw [named?_cons hc, Numeral.ofText?_minus hc, hread, Option.map_some, Option.map_some,
        hnearest true]

end Binary64

end LogQuery
