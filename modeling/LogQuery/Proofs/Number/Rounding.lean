import LogQuery.Number.Shortest
import LogQuery.Proofs.Number.Width
import Mathlib.Order.Monotone.Basic
import Mathlib.Order.Lattice
import Mathlib.Tactic.Ring

/-!
# Rounding

Magnitudes are in the order of their values, so rounding is a question about neighbours: a fraction
is rounded to a magnitude or below it just if it lies below the middle between this magnitude and
the next one, or in the middle and the magnitude is even (`magnitude_ofRatio_le_iff`, and
`magnitude_ofNat_le_iff` for natural numbers). All values are compared as multiples of the least
positive number.

`contains_iff` says that the interval in which the shortest decimal is looked for consists of what
is rounded to the number.
-/

namespace LogQuery.Binary64

/-! ### Values of magnitudes -/

/-- The value of a magnitude, as a multiple of the least positive number. -/
def scaled (m : Nat) : Nat :=
  significand ⟨false, m⟩ * twoTo (shiftedExponent ⟨false, m⟩)

/-- The distance between the values of a magnitude and the next one. -/
def gap (m : Nat) : Nat := twoTo (shiftedExponent ⟨false, m⟩)

lemma twoTo_53 : twoTo 53 = 2 * twoTo 52 := Nat.mul_comm _ _

/-- Exponent and significand are the digits of the magnitude. -/
lemma magnitude_eq (x : Binary64) :
    x.magnitude = x.shiftedExponent * twoTo 52 + x.significand := by
  have hdivision := Nat.div_add_mod x.magnitude (twoTo 52)
  rw [shiftedExponent, significand]
  split_ifs with hsmall
  · rw [hsmall] at hdivision ⊢
    omega
  · obtain ⟨e, he⟩ := Nat.exists_eq_succ_of_ne_zero hsmall
    rw [he, Nat.mul_succ] at hdivision
    rw [he, Nat.succ_sub_one, Nat.mul_comm e]
    omega

/-- A number above the smallest exponent has its leading bit set. -/
lemma le_significand {x : Binary64} (h : 0 < x.shiftedExponent) : twoTo 52 ≤ x.significand := by
  rw [shiftedExponent] at h
  rw [significand, if_neg (by omega)]
  exact Nat.le_add_right _ _

/-- Every magnitude has digits in this form, and no others. -/
lemma digits_of_magnitude {b : Bool} {e s : Nat} (hs : s < twoTo 53)
    (h : twoTo 52 ≤ s ∨ e = 0) :
    shiftedExponent ⟨b, e * twoTo 52 + s⟩ = e ∧
      significand ⟨b, e * twoTo 52 + s⟩ = s := by
  have hpos := twoTo_pos 52
  rw [twoTo_53] at hs
  rw [shiftedExponent, significand]
  dsimp only
  by_cases hle : twoTo 52 ≤ s
  · obtain ⟨r, rfl⟩ := Nat.exists_eq_add_of_le hle
    have hr : r < twoTo 52 := by omega
    have hm : e * twoTo 52 + (twoTo 52 + r) = r + (e + 1) * twoTo 52 := by ring
    rw [hm, Nat.add_mul_div_right _ _ hpos, Nat.add_mul_mod_self_right, Nat.div_eq_of_lt hr,
      Nat.mod_eq_of_lt hr, if_neg (by omega)]
    omega
  · have he : e = 0 := h.resolve_left hle
    have hlt : s < twoTo 52 := by omega
    rw [he, Nat.zero_mul, Nat.zero_add, Nat.div_eq_of_lt hlt, if_pos rfl, Nat.mod_eq_of_lt hlt]
    exact ⟨rfl, rfl⟩

/-- A significand that has carried into the exponent has the same value there. -/
lemma scaled_digits {e s : Nat} (hs : s ≤ twoTo 53) (h : twoTo 52 ≤ s ∨ e = 0) :
    scaled (e * twoTo 52 + s) = s * twoTo e := by
  rcases Nat.lt_or_eq_of_le hs with hlt | rfl
  · obtain ⟨he, hsig⟩ := digits_of_magnitude (b := false) hlt h
    rw [scaled, he, hsig]
  · have hcarry : e * twoTo 52 + twoTo 53 = (e + 1) * twoTo 52 + twoTo 52 := by
      rw [twoTo_53]
      ring
    obtain ⟨he, hsig⟩ := digits_of_magnitude (b := false) (e := e + 1) (s := twoTo 52)
      (by rw [twoTo_53]; have := twoTo_pos 52; omega) (.inl (Nat.le_refl _))
    rw [hcarry, scaled, he, hsig, twoTo_succ e, twoTo_53]
    ring

/-- The next magnitude has one more unit in its significand. -/
lemma scaled_succ (m : Nat) : scaled (m + 1) = scaled m + gap m := by
  have hm := magnitude_eq ⟨false, m⟩
  have hlt := significand_lt ⟨false, m⟩
  have hle : twoTo 52 ≤ significand ⟨false, m⟩ ∨ shiftedExponent ⟨false, m⟩ = 0 := by
    rcases Nat.eq_zero_or_pos (shiftedExponent ⟨false, m⟩) with h | h
    · exact .inr h
    · exact .inl (le_significand h)
  dsimp only at hm
  have hsucc : m + 1 =
      shiftedExponent ⟨false, m⟩ * twoTo 52 + (significand ⟨false, m⟩ + 1) := by omega
  rw [hsucc, scaled_digits hlt (hle.imp_left (Nat.le_trans · (Nat.le_succ _))), Nat.succ_mul]
  rfl

lemma gap_pos (m : Nat) : 0 < gap m := twoTo_pos _

lemma scaled_lt_succ (m : Nat) : scaled m < scaled (m + 1) := by
  rw [scaled_succ]
  exact Nat.lt_add_of_pos_right (gap_pos m)

/-- Larger magnitudes are larger values. -/
lemma strictMono_scaled : StrictMono scaled := strictMono_nat_of_lt_succ scaled_lt_succ

/-- A significand has at most 53 bits. -/
lemma scaled_succ_le (m : Nat) : scaled (m + 1) ≤ twoTo 53 * gap m := by
  rw [scaled_succ, scaled, ← gap, ← Nat.succ_mul]
  exact Nat.mul_le_mul_right _ (significand_lt ⟨false, m⟩)

/-- A number in front of which others have smaller exponents has a significand of 53 bits. -/
lemma gap_mul_le (m : Nat) : gap m * twoTo 52 ≤ scaled m ∨ gap m = 1 := by
  rcases Nat.eq_zero_or_pos (shiftedExponent ⟨false, m⟩) with h | h
  · rw [gap, h]
    exact .inr rfl
  · rw [scaled, gap, Nat.mul_comm]
    exact .inl (Nat.mul_le_mul_right _ (le_significand h))

/-- Below a power of two the distance is half as long. -/
lemma two_mul_gap (k : Nat) :
    2 * gap k = if significand ⟨false, k + 1⟩ = twoTo 52 ∧ 0 < shiftedExponent ⟨false, k + 1⟩
      then gap (k + 1) else 2 * gap (k + 1) := by
  have hm := magnitude_eq ⟨false, k + 1⟩
  have hlt := significand_lt ⟨false, k + 1⟩
  have hpos := twoTo_pos 52
  rw [gap, gap]
  generalize he : shiftedExponent ⟨false, k + 1⟩ = e at *
  generalize hs : significand ⟨false, k + 1⟩ = s at *
  dsimp only at hm
  split_ifs with hpower
  · obtain ⟨rfl, hexponent⟩ := hpower
    obtain ⟨e, rfl⟩ := Nat.exists_eq_add_one_of_ne_zero (Nat.ne_of_gt hexponent)
    have hk : k = e * twoTo 52 + (twoTo 53 - 1) := by
      rw [Nat.add_mul, twoTo_53] at *
      omega
    rw [hk, (digits_of_magnitude (by omega) (.inl (by omega))).1, twoTo_succ, Nat.mul_comm]
  · have hle : twoTo 52 ≤ s ∨ e = 0 := by
      rcases Nat.eq_zero_or_pos e with h | h
      · exact .inr h
      · exact .inl (hs ▸ le_significand (he ▸ h))
    have hk : k = e * twoTo 52 + (s - 1) := by
      rcases hle with h | rfl <;> omega
    rw [hk, (digits_of_magnitude (by omega) (by omega)).1]

/-- The fraction and the multiple are the same value. -/
lemma ratio_fst_mul (x : Binary64) :
    x.ratio.1 * twoTo 1074 = scaled x.magnitude * x.ratio.2 := by
  have hscaled : scaled x.magnitude = x.significand * twoTo x.shiftedExponent := rfl
  rw [hscaled, ratio]
  split_ifs with h
  · rw [Nat.mul_assoc, ← twoTo_add, Nat.sub_add_cancel h, Nat.mul_one]
  · rw [Nat.mul_assoc, ← twoTo_add, Nat.add_sub_cancel' (Nat.le_of_not_le h)]

/-! ### The nearest number -/

/-- The quotient is rounded to the nearer neighbour, and in the middle to the even one. -/
lemma divNearestEven_eq {num den q : Nat} (hq : q * den ≤ num) (hlt : num < (q + 1) * den) :
    divNearestEven num den =
      if 2 * num < q * den + (q + 1) * den then q
      else if q * den + (q + 1) * den < 2 * num then q + 1
      else q + q % 2 := by
  have hdiv : num / den = q := by
    refine Nat.div_eq_of_lt_le hq hlt
  have hmod := Nat.div_add_mod num den
  rw [hdiv, Nat.mul_comm] at hmod
  rw [Nat.add_mul, Nat.one_mul] at hlt ⊢
  rw [divNearestEven, hdiv]
  split_ifs <;> omega

/-- The significand before rounding has at most 53 bits, and fewer just at the least exponent. -/
lemma exponentFor_bounds {num den : Nat} (hnum : 0 < num) (hden : 0 < den) :
    num * twoTo 1074 < twoTo 53 * (den * twoTo (exponentFor num den)) ∧
      (twoTo 52 * (den * twoTo (exponentFor num den)) ≤ num * twoTo 1074 ∨
        exponentFor num den = 0) := by
  have hnumLow : twoTo num.log2 ≤ num := Nat.log2_self_le (Nat.ne_of_gt hnum)
  have hnumHigh : num < twoTo (num.log2 + 1) := Nat.lt_log2_self
  have hdenLow : twoTo den.log2 ≤ den := Nat.log2_self_le (Nat.ne_of_gt hden)
  have hdenHigh : den < twoTo (den.log2 + 1) := Nat.lt_log2_self
  rw [exponentFor]
  generalize num.log2 = a at *
  generalize den.log2 = b at *
  have hbelow : ∀ e, a + 1 + 1074 ≤ 53 + (b + e) →
      num * twoTo 1074 < twoTo 53 * (den * twoTo e) := by
    intro e he
    calc num * twoTo 1074 < twoTo (a + 1) * twoTo 1074 :=
          Nat.mul_lt_mul_of_pos_right hnumHigh (twoTo_pos _)
      _ ≤ twoTo 53 * (twoTo b * twoTo e) := by
          rw [← twoTo_add, ← twoTo_add, ← twoTo_add]
          exact twoTo_le_twoTo he
      _ ≤ twoTo 53 * (den * twoTo e) := Nat.mul_le_mul_left _ (Nat.mul_le_mul_right _ hdenLow)
  have habove : ∀ e, 52 + (b + 1 + e) ≤ a + 1074 →
      twoTo 52 * (den * twoTo e) ≤ num * twoTo 1074 := by
    intro e he
    calc twoTo 52 * (den * twoTo e) ≤ twoTo 52 * (twoTo (b + 1) * twoTo e) :=
          Nat.mul_le_mul_left _ (Nat.mul_le_mul_right _ hdenHigh.le)
      _ ≤ twoTo a * twoTo 1074 := by
          rw [← twoTo_add, ← twoTo_add, ← twoTo_add]
          exact twoTo_le_twoTo he
      _ ≤ num * twoTo 1074 := Nat.mul_le_mul_right _ hnumLow
  split_ifs with hless
  · -- The estimate is one too large, unless it is the least exponent already.
    generalize hestimate : a + 1074 - b - 52 = estimate at *
    cases estimate with
    | zero => exact ⟨hbelow 0 (by omega), .inr rfl⟩
    | succ e =>
      refine ⟨?_, .inl (habove e (by omega))⟩
      have hcarry : den * twoTo 52 * twoTo (e + 1) = twoTo 53 * (den * twoTo e) := by
        rw [twoTo_succ e, twoTo_53]
        ring
      rwa [hcarry] at hless
  · refine ⟨hbelow _ (by omega), .inl ?_⟩
    rw [Nat.mul_left_comm, ← Nat.mul_assoc]
    exact Nat.le_of_not_lt hless

lemma negative_ofRatio (negative : Bool) (num den : Nat) :
    (ofRatio negative num den).negative = negative := by
  rw [ofRatio]
  split_ifs <;> rfl

/-- Nothing is read as more than infinite. -/
lemma magnitude_ofRatio_le (negative : Bool) (num den : Nat) :
    (ofRatio negative num den).magnitude ≤ infiniteMagnitude := by
  rw [ofRatio]
  split_ifs
  · exact Nat.zero_le _
  · exact Nat.min_le_left _ _

/-- A fraction is read as a number if it is read as at most this number, but not as at most the one
before it. -/
lemma ofRatio_eq_mk_iff {negative : Bool} {num den k : Nat} :
    ofRatio negative num den = ⟨negative, k + 1⟩ ↔ (ofRatio negative num den).magnitude ≤ k + 1 ∧
      ¬ (ofRatio negative num den).magnitude ≤ k := by
  have hsign := negative_ofRatio negative num den
  generalize ofRatio negative num den = x at *
  obtain ⟨b, m⟩ := x
  obtain rfl : b = negative := hsign
  have heq : (⟨b, m⟩ : Binary64) = ⟨b, k + 1⟩ ↔ m = k + 1 := by simp
  rw [heq]
  dsimp only
  omega

/-- Rounding a fraction, whose value is compared with the middle of two magnitudes. -/
theorem magnitude_ofRatio_le_iff {negative : Bool} {num den m : Nat} (hden : 0 < den)
    (hm : m < infiniteMagnitude) : (ofRatio negative num den).magnitude ≤ m ↔
      2 * (num * twoTo 1074) < den * scaled m + den * scaled (m + 1) ∨
        2 * (num * twoTo 1074) = den * scaled m + den * scaled (m + 1) ∧ m % 2 = 0 := by
  have hmono : StrictMono fun k => den * scaled k :=
    fun j k h => Nat.mul_lt_mul_of_pos_left (strictMono_scaled h) hden
  have hnext : den * scaled m < den * scaled (m + 1) := hmono (Nat.lt_succ_self m)
  rcases Nat.eq_zero_or_pos num with rfl | hnum
  · rw [ofRatio, if_pos (.inl rfl), Nat.zero_mul]
    exact ⟨fun _ => .inl (by omega), fun _ => Nat.zero_le _⟩
  obtain ⟨hlt, hle⟩ := exponentFor_bounds hnum hden
  rw [ofRatio, if_neg (by omega)]
  dsimp only
  generalize exponentFor num den = e at *
  generalize num * twoTo 1074 = N at *
  have hpos : 0 < den * twoTo e := Nat.mul_pos hden (twoTo_pos e)
  have hs : N / (den * twoTo e) < twoTo 53 := (Nat.div_lt_iff_lt_mul hpos).2 hlt
  have hs' : twoTo 52 ≤ N / (den * twoTo e) ∨ e = 0 := hle.imp_left (Nat.le_div_iff_mul_le hpos).2
  have hfloor : N / (den * twoTo e) * (den * twoTo e) ≤ N := Nat.div_mul_le_self _ _
  have hceil : N < (N / (den * twoTo e) + 1) * (den * twoTo e) := by
    rw [Nat.mul_comm]
    exact Nat.lt_mul_div_succ _ hpos
  rw [divNearestEven_eq hfloor hceil]
  generalize N / (den * twoTo e) = s at *
  -- The two magnitudes around the fraction.
  have hbelow : den * scaled (e * twoTo 52 + s) = s * (den * twoTo e) := by
    rw [scaled_digits hs.le hs', Nat.mul_left_comm]
  have habove : den * scaled (e * twoTo 52 + s + 1) = (s + 1) * (den * twoTo e) := by
    rw [Nat.add_assoc, scaled_digits hs (hs'.imp_left fun h => h.trans (Nat.le_succ s)),
      Nat.mul_left_comm]
  have heven : (e * twoTo 52 + s) % 2 = s % 2 := by
    have htwo : twoTo 52 = 2 * twoTo 51 := Nat.mul_comm _ _
    rw [htwo, Nat.mul_left_comm, Nat.mul_add_mod]
  have hmin : ∀ k, min infiniteMagnitude k ≤ m ↔ k ≤ m := by
    intro k
    rw [min_le_iff]
    exact or_iff_right (Nat.not_le.2 hm)
  rw [← hbelow] at hfloor ⊢
  rw [← habove] at hceil ⊢
  rw [hmin]
  generalize e * twoTo 52 = base at *
  rcases Nat.lt_trichotomy m (base + s) with h | rfl | h
  · have hlow : den * scaled (m + 1) ≤ den * scaled (base + s) :=
      hmono.monotone (Nat.succ_le_of_lt h)
    split_ifs <;> omega
  · split_ifs <;> omega
  · have hhigh : den * scaled (base + s + 1) ≤ den * scaled m :=
      hmono.monotone (Nat.succ_le_of_lt h)
    have hparity : s % 2 ≤ 1 := by omega
    split_ifs <;> omega

lemma exponentFor_one {n : Nat} (hn : 0 < n) : exponentFor n 1 = n.log2 + 1022 := by
  have hle : twoTo n.log2 ≤ n := Nat.log2_self_le (Nat.ne_of_gt hn)
  have hone : Nat.log2 1 = 0 := by decide
  have hestimate : n.log2 + 1074 - Nat.log2 1 - 52 = n.log2 + 1022 := by omega
  have hscale : twoTo 52 * twoTo (n.log2 + 1022) = twoTo n.log2 * twoTo 1074 := by
    rw [← twoTo_add, ← twoTo_add]
    exact congrArg twoTo (by omega)
  rw [exponentFor, hestimate, Nat.one_mul, hscale]
  exact if_neg (Nat.not_lt.2 (Nat.mul_le_mul_right _ hle))

/-- A number and the digits of the last magnitude that is not above it. -/
lemma exists_floor {n : Nat} (hn : 0 < n) :
    ∃ s, twoTo 52 ≤ s ∧ s < twoTo 53 ∧
      s * twoTo (n.log2 + 1022) ≤ n * twoTo 1074 ∧
      n * twoTo 1074 < (s + 1) * twoTo (n.log2 + 1022) ∧
      ofNat n = ⟨false, min infiniteMagnitude ((n.log2 + 1022) * twoTo 52 +
        divNearestEven (n * twoTo 1074) (twoTo (n.log2 + 1022)))⟩ := by
  have hle : twoTo n.log2 ≤ n := Nat.log2_self_le (Nat.ne_of_gt hn)
  have hlt : n < twoTo (n.log2 + 1) := Nat.lt_log2_self
  have hpos := twoTo_pos (n.log2 + 1022)
  have hfirst : twoTo 52 * twoTo (n.log2 + 1022) = twoTo n.log2 * twoTo 1074 := by
    rw [← twoTo_add, ← twoTo_add]
    exact congrArg twoTo (by omega)
  have hend : twoTo 53 * twoTo (n.log2 + 1022) = twoTo (n.log2 + 1) * twoTo 1074 := by
    rw [← twoTo_add, ← twoTo_add]
    exact congrArg twoTo (by omega)
  refine ⟨n * twoTo 1074 / twoTo (n.log2 + 1022), ?_, ?_, Nat.div_mul_le_self _ _, ?_, ?_⟩
  · rw [Nat.le_div_iff_mul_le hpos, hfirst]
    exact Nat.mul_le_mul_right _ hle
  · rw [Nat.div_lt_iff_lt_mul hpos, hend]
    exact Nat.mul_lt_mul_of_pos_right hlt (twoTo_pos _)
  · rw [Nat.mul_comm (_ + 1)]
    exact Nat.lt_mul_div_succ _ hpos
  · rw [ofNat, ofRatio, if_neg (by omega), exponentFor_one hn]
    simp only [Nat.one_mul]

/-- What is rounded to a magnitude or below it: what lies below the middle between it and the next
one, and the middle itself if the magnitude is even. -/
def RoundsWithin (m n : Nat) : Prop :=
  2 * n < scaled m + scaled (m + 1) ∨ 2 * n = scaled m + scaled (m + 1) ∧ m % 2 = 0

/-- Rounding a natural number. -/
theorem magnitude_ofNat_le_iff {m : Nat} (n : Nat) (hm : m < infiniteMagnitude) :
    (ofNat n).magnitude ≤ m ↔ RoundsWithin m (n * twoTo 1074) := by
  rw [ofNat, magnitude_ofRatio_le_iff Nat.one_pos hm, Nat.one_mul, Nat.one_mul, RoundsWithin]

/-- What is rounded to a magnitude is rounded within it, and not within the one before. -/
lemma ofNat_eq_iff {k : Nat} (n : Nat) (hk : k + 1 < infiniteMagnitude) :
    ofNat n = ⟨false, k + 1⟩ ↔
      RoundsWithin (k + 1) (n * twoTo 1074) ∧ ¬ RoundsWithin k (n * twoTo 1074) := by
  rw [← magnitude_ofNat_le_iff n hk, ← magnitude_ofNat_le_iff n (by omega)]
  exact ofRatio_eq_mk_iff

/-- A natural number that is the value of a magnitude is kept. -/
lemma ofNat_of_scaled {n k : Nat} (hk : k + 1 < infiniteMagnitude)
    (h : scaled (k + 1) = n * twoTo 1074) : ofNat n = ⟨false, k + 1⟩ := by
  have hbelow := scaled_lt_succ k
  have habove := scaled_lt_succ (k + 1)
  rw [ofNat_eq_iff n hk, RoundsWithin, RoundsWithin, ← h]
  omega

/-- Up to `2 ^ 53` there is a magnitude with the value of each natural number. -/
lemma exists_exact {n : Nat} (hn : 0 < n) (hle : n ≤ twoTo 53) :
    ∃ k, k + 1 < infiniteMagnitude ∧ scaled (k + 1) = n * twoTo 1074 := by
  have hpos := twoTo_pos 52
  have hfinite : ∀ e s, e ≤ 1074 → twoTo 52 ≤ s → s ≤ twoTo 53 →
      s * twoTo e = n * twoTo 1074 →
      ∃ k, k + 1 < infiniteMagnitude ∧ scaled (k + 1) = n * twoTo 1074 := by
    intro e s he hs hs' hvalue
    have hm : e * twoTo 52 + s - 1 + 1 = e * twoTo 52 + s := Nat.sub_add_cancel (by omega)
    have hexponent : e * twoTo 52 ≤ 1074 * twoTo 52 := Nat.mul_le_mul_right _ he
    rw [twoTo_53] at hs'
    refine ⟨e * twoTo 52 + s - 1, ?_, ?_⟩
    · rw [hm, infiniteMagnitude]
      omega
    · rw [hm, scaled_digits (by rwa [twoTo_53]) (.inl hs), hvalue]
  rcases Nat.lt_or_eq_of_le hle with hlt | rfl
  · have hlog : n.log2 < 53 := (Nat.log2_lt (Nat.ne_of_gt hn)).2 hlt
    have hle : twoTo n.log2 ≤ n := Nat.log2_self_le (Nat.ne_of_gt hn)
    have hlt : n < twoTo (n.log2 + 1) := Nat.lt_log2_self
    refine hfinite (n.log2 + 1022) (n * twoTo (52 - n.log2)) (by omega) ?_ ?_ ?_
    · calc twoTo 52 = twoTo n.log2 * twoTo (52 - n.log2) := by
            rw [← twoTo_add]
            exact congrArg twoTo (by omega)
        _ ≤ n * twoTo (52 - n.log2) := Nat.mul_le_mul_right _ hle
    · calc n * twoTo (52 - n.log2) ≤ twoTo (n.log2 + 1) * twoTo (52 - n.log2) :=
            Nat.mul_le_mul_right _ hlt.le
        _ = twoTo 53 := by
            rw [← twoTo_add]
            exact congrArg twoTo (by omega)
    · rw [Nat.mul_assoc, ← twoTo_add]
      exact congrArg (n * twoTo ·) (by omega)
  · exact hfinite 1074 (twoTo 53) (Nat.le_refl _) (by rw [twoTo_53]; omega) (Nat.le_refl _) rfl

/-- The digits of the nearest number; a significand may have carried into the exponent. -/
lemma exists_digits {n : Nat} (hn : 0 < n) (hfinite : (ofNat n).isFinite = true) :
    ∃ s, twoTo 52 ≤ s ∧ s ≤ twoTo 53 ∧ ofNat n = ⟨false, (n.log2 + 1022) * twoTo 52 + s⟩ := by
  obtain ⟨s, hs, hs', hfloor, hceil, hnearest⟩ := exists_floor hn
  have hround := divNearestEven_eq hfloor hceil
  rw [hnearest, isFinite, decide_eq_true_eq] at hfinite
  rw [hnearest]
  generalize divNearestEven (n * twoTo 1074) (twoTo (n.log2 + 1022)) = t at *
  have ht : s ≤ t ∧ t ≤ s + 1 := by
    rw [hround]
    split_ifs <;> omega
  refine ⟨t, hs.trans ht.1, ht.2.trans hs', ?_⟩
  rcases min_lt_iff.1 hfinite with h | h
  · exact absurd h (Nat.lt_irrefl _)
  · rw [min_eq_right h.le]

/-- The nearest number to a natural number is a natural number. -/
lemma exists_whole {n : Nat} (hn : 0 < n) (hfinite : (ofNat n).isFinite = true) :
    ∃ k whole, k + 1 < infiniteMagnitude ∧ ofNat n = ⟨false, k + 1⟩ ∧
      scaled (k + 1) = whole * twoTo 1074 := by
  rcases Nat.lt_or_ge (twoTo 53) n with hlarge | hsmall
  · have hlog : 53 ≤ n.log2 := (Nat.le_log2 (Nat.ne_of_gt hn)).2 hlarge.le
    obtain ⟨s, hs, hs', hnearest⟩ := exists_digits hn hfinite
    have hvalue := scaled_digits (e := n.log2 + 1022) hs' (.inl hs)
    obtain ⟨e, he⟩ : ∃ e, n.log2 + 1022 = e + 1074 := ⟨n.log2 - 52, by omega⟩
    rw [he] at hnearest hvalue
    generalize hm : (e + 1074) * twoTo 52 + s = m at *
    have hne : m ≠ 0 := by
      have := twoTo_pos 52
      omega
    obtain ⟨k, rfl⟩ := Nat.exists_eq_add_one_of_ne_zero hne
    rw [hnearest, isFinite, decide_eq_true_eq] at hfinite
    refine ⟨k, s * twoTo e, hfinite, hnearest, ?_⟩
    rw [hvalue, twoTo_add, Nat.mul_assoc]
  · obtain ⟨k, hk, hvalue⟩ := exists_exact hn hsmall
    exact ⟨k, n, hk, ofNat_of_scaled hk hvalue, hvalue⟩

/-- The middle between the last finite number and the next power of two. -/
lemma exists_last : ∃ k, infiniteMagnitude = k + 1 ∧ k % 2 = 1 ∧
    scaled k + scaled (k + 1) = 2 * ((twoTo 1024 - twoTo 970) * twoTo 1074) := by
  have hpos := twoTo_pos 52
  have hexact : twoTo 53 = twoTo 53 - 1 + 1 := by
    rw [twoTo_53]
    omega
  have hlast := digits_of_magnitude (b := false) (e := 2045) (s := twoTo 53 - 1)
    (by omega) (.inl (by rw [twoTo_53]; omega))
  have hend := scaled_digits (e := 2045) (Nat.le_refl (twoTo 53))
    (.inl (twoTo_le_twoTo (by decide)))
  have hsucc := scaled_succ (2045 * twoTo 52 + (twoTo 53 - 1))
  have hmiddle : (twoTo 1024 - twoTo 970) * twoTo 1074 = twoTo 2098 - twoTo 2044 := by
    rw [Nat.sub_mul, ← twoTo_add, ← twoTo_add]
  have hgap : twoTo 2045 = twoTo 2044 * 2 := twoTo_succ 2044
  refine ⟨2045 * twoTo 52 + (twoTo 53 - 1), ?_, ?_, ?_⟩
  · rw [infiniteMagnitude, twoTo_53]
    omega
  · have htwo : twoTo 52 = 2 * twoTo 51 := Nat.mul_comm _ _
    rw [twoTo_53]
    omega
  · rw [Nat.add_assoc, ← hexact, hend, ← twoTo_add, gap, hlast.1] at hsucc
    rw [Nat.add_assoc, ← hexact, hend, ← twoTo_add, hmiddle]
    generalize scaled (2045 * twoTo 52 + (twoTo 53 - 1)) = last at *
    generalize twoTo 2045 = first at *
    generalize twoTo 2044 = half at *
    change twoTo 2098 = _ at hsucc
    change _ + twoTo 2098 = _
    omega

/-- From the middle between the last finite number and the next power of two on, natural numbers are
too large. -/
lemma isFinite_ofNat_iff (n : Nat) :
    (ofNat n).isFinite = true ↔ n < twoTo 1024 - twoTo 970 := by
  obtain ⟨k, hk, hodd, hsum⟩ := exists_last
  have hle : (ofNat n).isFinite = true ↔ (ofNat n).magnitude ≤ k := by
    rw [isFinite, decide_eq_true_eq, hk, Nat.lt_succ_iff]
  rw [hle, magnitude_ofNat_le_iff n (by omega), RoundsWithin, hsum, hodd,
    Nat.mul_lt_mul_left (by decide), Nat.mul_lt_mul_right (twoTo_pos 1074)]
  simp

/-! ### The interval of what is rounded to a number -/

/-- A natural number lies in the interval. -/
def Neighbourhood.Contains (i : Neighbourhood) (n : Nat) : Prop :=
  if i.closed then i.low ≤ n * i.unit ∧ n * i.unit ≤ i.high
  else i.low < n * i.unit ∧ n * i.unit < i.high

lemma neighbourhood_bounds (k : Nat) :
    let x : Binary64 := ⟨false, k + 1⟩
    x.neighbourhood.low * twoTo 1074 = 2 * x.ratio.2 * (scaled k + scaled (k + 1)) ∧
      x.neighbourhood.high * twoTo 1074 =
        2 * x.ratio.2 * (scaled (k + 1) + scaled (k + 2)) := by
  intro x
  have hvalue : x.ratio.1 * twoTo 1074 = scaled (k + 1) * x.ratio.2 := ratio_fst_mul x
  have hhalf := two_mul_gap k
  have hstep : (if 1074 ≤ x.shiftedExponent then twoTo (x.shiftedExponent - 1074) else 1) *
      twoTo 1074 = gap (k + 1) * x.ratio.2 := by
    rw [ratio, gap]
    split_ifs with h
    · rw [← twoTo_add, Nat.sub_add_cancel h, Nat.mul_one]
    · rw [← twoTo_add, Nat.one_mul, Nat.add_sub_cancel' (Nat.le_of_not_le h)]
  have hk := scaled_succ k
  have hk' : scaled (k + 2) = scaled (k + 1) + gap (k + 1) := scaled_succ (k + 1)
  rw [neighbourhood]
  dsimp only
  generalize (if 1074 ≤ x.shiftedExponent then twoTo (x.shiftedExponent - 1074) else 1) = step at *
  have hbelow : (if x.significand = twoTo 52 ∧ 0 < x.shiftedExponent then step else 2 * step) *
      twoTo 1074 = 2 * gap k * x.ratio.2 := by
    rw [hhalf]
    split_ifs
    · exact hstep
    · rw [Nat.mul_assoc, hstep, Nat.mul_assoc]
  constructor
  · rw [Nat.sub_mul, hbelow, Nat.mul_assoc, hvalue, hk]
    have hsplit : 4 * ((scaled k + gap k) * x.ratio.2) =
        2 * x.ratio.2 * (scaled k + (scaled k + gap k)) + 2 * gap k * x.ratio.2 := by ring
    rw [hsplit, Nat.add_sub_cancel]
  · rw [Nat.add_mul, Nat.mul_assoc, hvalue, Nat.mul_assoc, hstep, hk']
    ring

/-- The parity of a magnitude is that of its significand. -/
lemma magnitude_mod_two (x : Binary64) : x.magnitude % 2 = x.significand % 2 := by
  have htwo : twoTo 52 = 2 * twoTo 51 := Nat.mul_comm _ _
  rw [magnitude_eq x, htwo, Nat.mul_left_comm, Nat.mul_add_mod]

/-- The ends of the interval belong to it if the number is even. -/
lemma closed_neighbourhood (k : Nat) :
    (neighbourhood ⟨false, k + 1⟩).closed = decide ((k + 1) % 2 = 0) :=
  congrArg (fun r => decide (r = 0)) (magnitude_mod_two ⟨false, k + 1⟩).symm

/-- Numbers are compared as their multiples are. -/
lemma le_iff_of_multiples {a b a' b' c t : Nat} (ht : 0 < t) (hc : 0 < c) (ha : a * t = c * a')
    (hb : b * t = c * b') : a ≤ b ↔ a' ≤ b' := by
  rw [← Nat.mul_le_mul_right_iff ht, ha, hb, Nat.mul_le_mul_left_iff hc]

/-- The interval around a number consists of what is rounded to it. -/
theorem contains_iff {k : Nat} (n : Nat) (hk : k + 1 < infiniteMagnitude) :
    (neighbourhood ⟨false, k + 1⟩).Contains n ↔ ofNat n = ⟨false, k + 1⟩ := by
  obtain ⟨hlow, hhigh⟩ := neighbourhood_bounds k
  have hden := ratio_snd_pos ⟨false, k + 1⟩
  have hunit : 0 < 2 * (ratio ⟨false, k + 1⟩).2 := by omega
  have hpoint : n * (neighbourhood ⟨false, k + 1⟩).unit * twoTo 1074 =
      2 * (ratio ⟨false, k + 1⟩).2 * (2 * (n * twoTo 1074)) := by
    change n * (4 * (ratio ⟨false, k + 1⟩).2) * twoTo 1074 = _
    ring
  have hpos := twoTo_pos 1074
  have hlow₁ := le_iff_of_multiples hpos hunit hlow hpoint
  have hlow₂ := le_iff_of_multiples hpos hunit hpoint hlow
  have hhigh₁ := le_iff_of_multiples hpos hunit hpoint hhigh
  have hhigh₂ := le_iff_of_multiples hpos hunit hhigh hpoint
  rw [ofNat_eq_iff n hk, Neighbourhood.Contains, closed_neighbourhood]
  have hnext : k + 1 + 1 = k + 2 := rfl
  simp only [← Nat.not_le, hlow₁, hlow₂, hhigh₁, hhigh₂, RoundsWithin, decide_eq_true_eq, hnext]
  generalize n * twoTo 1074 = N at *
  split_ifs <;> omega

end LogQuery.Binary64
