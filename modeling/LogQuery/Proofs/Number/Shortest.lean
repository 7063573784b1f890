import LogQuery.Proofs.Number.Numeral
import LogQuery.Proofs.Number.Rounding
import Mathlib.Data.Nat.Digits.Lemmas

/-!
# Which natural number is written

Plain notation writes of the natural numbers that are rounded to a number the one with the fewest
significant digits, and of several such the nearest (`exists_isShortest_plain`). This is the number
itself up to `2 ^ 53` (`isShortest_of_le`).

The digits are found place by place, from the first one on. `between_of_significantDigits` says that
a number with few significant digits lies on the grid of its last place, or beyond a point of it, so
that it is enough to try the two points of the grid next to the value.
-/

namespace LogQuery

/-! ### Digits -/

/-- The number of digits without the zeros at the end. -/
def significantDigits (n : Nat) : Nat := ((Nat.digits 10 n).dropWhile (· = 0)).length

lemma significantDigits_of_mod_eq_zero {n : Nat} (h : n % 10 = 0) :
    significantDigits n = significantDigits (n / 10) := by
  rcases Nat.eq_zero_or_pos n with rfl | hn
  · rfl
  · rw [significantDigits, Nat.digits_def' (by decide) hn, h]
    rfl

lemma significantDigits_of_mod_ne_zero {n : Nat} (h : n % 10 ≠ 0) :
    significantDigits n = (Nat.digits 10 n).length := by
  have hn : 0 < n := Nat.pos_of_ne_zero fun hzero => h (by rw [hzero])
  rw [significantDigits, Nat.digits_def' (by decide) hn,
    List.dropWhile_cons_of_neg (by simpa using h)]

/-- A number with few significant digits is a small number with zeros behind it. -/
lemma significantDigits_le_iff {n s : Nat} :
    significantDigits n ≤ s ↔ ∃ j k, n = j * tenTo k ∧ j < tenTo s := by
  induction n using Nat.strong_induction_on with
  | _ n ih =>
    by_cases hzero : n % 10 = 0
    · rw [significantDigits_of_mod_eq_zero hzero]
      rcases Nat.eq_zero_or_pos n with rfl | hn
      · exact ⟨fun _ => ⟨0, 0, rfl, tenTo_pos s⟩, fun _ => Nat.zero_le _⟩
      rw [ih (n / 10) (Nat.div_lt_self hn (by decide))]
      constructor
      · rintro ⟨j, k, hn, hj⟩
        refine ⟨j, k + 1, ?_, hj⟩
        rw [tenTo_succ, ← Nat.mul_assoc, ← hn]
        omega
      · rintro ⟨j, k, rfl, hj⟩
        cases k with
        | zero => exact ⟨j / 10, 0, by simp, (Nat.div_le_self _ _).trans_lt hj⟩
        | succ k =>
          refine ⟨j, k, ?_, hj⟩
          rw [tenTo_succ, ← Nat.mul_assoc, Nat.mul_div_cancel _ (by decide)]
    · rw [significantDigits_of_mod_ne_zero hzero, Nat.digits_length_le_iff (by decide)]
      constructor
      · intro hlt
        exact ⟨n, 0, (Nat.mul_one n).symm, hlt⟩
      · rintro ⟨j, k, rfl, hj⟩
        cases k with
        | zero => exact (Nat.mul_one j).symm ▸ hj
        | succ k =>
          rw [tenTo_succ, ← Nat.mul_assoc] at hzero
          omega

/-- Behind the digits of a number, a power of ten is written as zeros. -/
lemma toString_mul_tenTo {n : Nat} (hn : 0 < n) (k : Nat) :
    toString (n * tenTo k) = toString n ++ Binary64.zeros k := by
  induction k with
  | zero =>
    rw [tenTo_zero, Nat.mul_one]
    exact String.append_empty.symm
  | succ k ih =>
    have hpos : 0 < n * tenTo k := Nat.mul_pos hn (tenTo_pos k)
    have htimes : toString (n * tenTo k * 10) = toString (n * tenTo k) ++ "0" := by
      have hdigits := Nat.toDigits_append_toDigits (b := 10) (d := 0) (by decide) hpos (by decide)
      rw [Nat.add_zero, Nat.mul_comm 10] at hdigits
      rw [Nat.toString_eq_repr, Nat.toString_eq_repr, Nat.repr_eq_ofList_toDigits,
        Nat.repr_eq_ofList_toDigits, ← hdigits, String.ofList_append]
      rfl
    have hzeros : Binary64.zeros (k + 1) = Binary64.zeros k ++ "0" := by
      rw [Binary64.zeros, Binary64.zeros, List.replicate_succ', String.ofList_append]
    rw [tenTo_succ, ← Nat.mul_assoc, htimes, ih, hzeros, String.append_assoc]

/-- A number with few significant digits lies on the grid of the place of its last one, or is not
next to the value on that grid. -/
lemma between_of_significantDigits {whole first s n : Nat} (hfirst : tenTo first ≤ whole)
    (hs : s ≤ first) (hn : significantDigits n ≤ s + 1) :
    n ≤ whole / tenTo (first - s) * tenTo (first - s) ∨
      (whole / tenTo (first - s) + 1) * tenTo (first - s) ≤ n := by
  have hsplit : tenTo first = tenTo s * tenTo (first - s) := by
    rw [← tenTo_add, Nat.add_sub_cancel' hs]
  obtain ⟨j, k, rfl, hj⟩ := significantDigits_le_iff.1 hn
  rcases Nat.lt_or_ge (j * tenTo k) (tenTo first) with hsmall | hlarge
  · -- The first power of ten is a point of the grid.
    left
    have hle : tenTo s ≤ whole / tenTo (first - s) := by
      rw [Nat.le_div_iff_mul_le (tenTo_pos _), ← hsplit]
      exact hfirst
    calc j * tenTo k ≤ tenTo s * tenTo (first - s) := hsplit ▸ hsmall.le
      _ ≤ whole / tenTo (first - s) * tenTo (first - s) := Nat.mul_le_mul_right _ hle
  · have hk : first - s ≤ k := by
      by_contra hlt
      have hlt' : tenTo (s + 1 + k) ≤ tenTo first := tenTo_le_tenTo (by omega)
      have hj' : j * tenTo k < tenTo (s + 1) * tenTo k :=
        Nat.mul_lt_mul_of_pos_right hj (tenTo_pos k)
      rw [← tenTo_add] at hj'
      omega
    obtain ⟨i, rfl⟩ := Nat.exists_eq_add_of_le' hk
    rw [tenTo_add, ← Nat.mul_assoc]
    rcases Nat.lt_or_ge (whole / tenTo (first - s)) (j * tenTo i) with h | h
    · exact .inr (Nat.mul_le_mul_right _ h)
    · exact .inl (Nat.mul_le_mul_right _ h)

namespace Binary64

/-! ### The two points of a grid next to the value -/

/-- The distance between two natural numbers. -/
def offset (whole n : Nat) : Nat := (n - whole) + (whole - n)

lemma offset_below (whole p : Nat) :
    offset whole (whole / tenTo p * tenTo p) = whole % tenTo p := by
  have hsplit := Nat.div_add_mod whole (tenTo p)
  rw [Nat.mul_comm] at hsplit
  rw [offset]
  omega

lemma offset_above (whole p : Nat) :
    offset whole ((whole / tenTo p + 1) * tenTo p) = tenTo p - whole % tenTo p := by
  have hsplit := Nat.div_add_mod whole (tenTo p)
  have hlt := Nat.mod_lt whole (tenTo_pos p)
  rw [Nat.mul_comm] at hsplit
  rw [offset, Nat.add_mul, Nat.one_mul]
  omega

namespace Neighbourhood

variable {i : Neighbourhood} {whole : Nat}

/-- What lies between two numbers of an interval belongs to it. -/
lemma Contains.between {m n k : Nat} (hm : i.Contains m) (hn : i.Contains n) (hmk : m ≤ k)
    (hkn : k ≤ n) : i.Contains k := by
  have hlow := Nat.mul_le_mul_right i.unit hmk
  have hhigh := Nat.mul_le_mul_right i.unit hkn
  rw [Contains] at *
  split_ifs at * <;> omega

instance (i : Neighbourhood) (n : Nat) : Decidable (i.Contains n) :=
  inferInstanceAs (Decidable (if i.closed then _ else _))

/-- The digits of the point of a grid that is taken: a point of the interval next to the value, the
nearer one of two such, and the upper one of two as near. -/
structure Takes (i : Neighbourhood) (whole p digits : Nat) : Prop where
  contains : i.Contains (digits * tenTo p)
  next : digits = whole / tenTo p ∨ digits = whole / tenTo p + 1
  nearest : ∀ c, c = whole / tenTo p ∨ c = whole / tenTo p + 1 → i.Contains (c * tenTo p) →
    offset whole (digits * tenTo p) < offset whole (c * tenTo p) ∨
      offset whole (digits * tenTo p) = offset whole (c * tenTo p) ∧ c ≤ digits

/-- A place is tried: a point of its grid is taken, or none of the two next to the value lies in the
interval. -/
lemma nearestAt_cases (hvalue : i.value = whole * i.unit) (hunit : 0 < i.unit) (p : Nat) :
    (∃ digits, i.nearestAt .up p = some ⟨digits, p⟩ ∧ i.Takes whole p digits) ∨
      i.nearestAt .up p = none ∧ ¬ i.Contains (whole / tenTo p * tenTo p) ∧
        ¬ i.Contains ((whole / tenTo p + 1) * tenTo p) := by
  have hneg : (-(p : Int)).toNat = 0 := by omega
  have hbelow : whole * i.unit / (i.unit * tenTo p) = whole / tenTo p := by
    rw [Nat.mul_comm whole, Nat.mul_div_mul_left _ _ hunit]
  have hrest : whole * i.unit % (i.unit * tenTo p) = i.unit * (whole % tenTo p) := by
    rw [Nat.mul_comm whole, Nat.mul_mod_mul_left]
  have hupward : (decide (i.unit * tenTo p < 2 * (i.unit * (whole % tenTo p))) ||
      i.unit * tenTo p == 2 * (i.unit * (whole % tenTo p)) &&
        (Tie.up == Tie.up || whole / tenTo p % 2 == 1)) =
      decide (tenTo p ≤ 2 * (whole % tenTo p)) := by
    rw [Nat.mul_left_comm, Bool.eq_iff_iff]
    simp [Nat.mul_lt_mul_left hunit, Nat.mul_right_inj (Nat.ne_of_gt hunit), Nat.le_iff_lt_or_eq]
  have hinside : ∀ n, (if i.closed = true then
      decide (i.low ≤ n * (i.unit * tenTo p)) && decide (n * (i.unit * tenTo p) ≤ i.high)
    else decide (i.low < n * (i.unit * tenTo p)) && decide (n * (i.unit * tenTo p) < i.high)) =
      decide (i.Contains (n * tenTo p)) := by
    intro n
    have hpoint : n * (i.unit * tenTo p) = n * tenTo p * i.unit := by
      rw [Nat.mul_comm i.unit, Nat.mul_assoc]
    rw [hpoint, Bool.eq_iff_iff, decide_eq_true_eq, Contains]
    split_ifs <;> simp
  have hoffset := offset_below whole p
  have hoffset' := offset_above whole p
  rw [nearestAt]
  simp only [Int.toNat_natCast, hneg, tenTo_zero, Nat.mul_one, hvalue, hbelow, hrest, hupward,
    hinside]
  by_cases hlow : i.Contains (whole / tenTo p * tenTo p) <;>
    by_cases hhigh : i.Contains ((whole / tenTo p + 1) * tenTo p)
  · rw [decide_eq_true hlow, decide_eq_true hhigh]
    refine .inl ⟨_, rfl, ?_, ?_, ?_⟩
    · split_ifs
      · exact hhigh
      · exact hlow
    · split_ifs
      · exact .inr rfl
      · exact .inl rfl
    · rintro c (rfl | rfl) - <;> split_ifs with h <;> rw [decide_eq_true_eq] at h <;> omega
  · rw [decide_eq_true hlow, decide_eq_false hhigh]
    refine .inl ⟨_, rfl, hlow, .inl rfl, ?_⟩
    rintro c (rfl | rfl) hc
    · exact .inr ⟨rfl, Nat.le_refl _⟩
    · exact absurd hc hhigh
  · rw [decide_eq_false hlow, decide_eq_true hhigh]
    refine .inl ⟨_, rfl, hhigh, .inr rfl, ?_⟩
    rintro c (rfl | rfl) hc
    · exact absurd hc hlow
    · exact .inr ⟨rfl, Nat.le_refl _⟩
  · rw [decide_eq_false hlow, decide_eq_false hhigh]
    exact .inr ⟨rfl, hlow, hhigh⟩

lemma div_mul_lt (whole p : Nat) : whole < (whole / tenTo p + 1) * tenTo p := by
  rw [Nat.mul_comm]
  exact Nat.lt_mul_div_succ whole (tenTo_pos p)

/-- A number of the interval that is not between the two points next to the value has one of them
between it and the value. -/
lemma Contains.grid {n p : Nat} (hwhole : i.Contains whole) (hn : i.Contains n)
    (hgrid : n ≤ whole / tenTo p * tenTo p ∨ (whole / tenTo p + 1) * tenTo p ≤ n) :
    n ≤ whole / tenTo p * tenTo p ∧ i.Contains (whole / tenTo p * tenTo p) ∨
      (whole / tenTo p + 1) * tenTo p ≤ n ∧ i.Contains ((whole / tenTo p + 1) * tenTo p) := by
  rcases hgrid with h | h
  · exact .inl ⟨h, hn.between hwhole h (Nat.div_mul_le_self _ _)⟩
  · exact .inr ⟨h, hwhole.between hn (div_mul_lt whole p).le h⟩

/-- The point of the grid that is taken is at least as near to the value as any number of the
interval outside of the gap around the value; at the same distance it is the upper one. -/
lemma Takes.nearest_of_grid {n p digits : Nat} (h : i.Takes whole p digits)
    (hwhole : i.Contains whole) (hn : i.Contains n)
    (hgrid : n ≤ whole / tenTo p * tenTo p ∨ (whole / tenTo p + 1) * tenTo p ≤ n) :
    offset whole (digits * tenTo p) < offset whole n ∨
      offset whole (digits * tenTo p) = offset whole n ∧ n ≤ digits * tenTo p := by
  rcases hwhole.grid hn hgrid with ⟨hle, hpoint⟩ | ⟨hle, hpoint⟩
  · have hbelow := Nat.div_mul_le_self whole (tenTo p)
    have hfar : offset whole (whole / tenTo p * tenTo p) ≤ offset whole n := by
      rw [offset, offset]
      omega
    rcases h.nearest _ (.inl rfl) hpoint with hlt | ⟨heq, hdigits⟩
    · exact .inl (hlt.trans_le hfar)
    · have hmul := Nat.mul_le_mul_right (tenTo p) hdigits
      omega
  · have habove := div_mul_lt whole p
    have hfar : offset whole ((whole / tenTo p + 1) * tenTo p) < offset whole n ∨
        (whole / tenTo p + 1) * tenTo p = n := by
      rw [offset, offset]
      omega
    rcases h.nearest _ (.inr rfl) hpoint with hlt | ⟨heq, hdigits⟩
    · rcases hfar with hfar | rfl
      · exact .inl (hlt.trans hfar)
      · exact .inl hlt
    · have hmul := Nat.mul_le_mul_right (tenTo p) hdigits
      rcases hfar with hfar | rfl
      · exact .inl (heq.trans_lt hfar)
      · exact .inr ⟨heq, hmul⟩

end Neighbourhood

/-! ### The first digit -/

/-- A whole quotient has its first digit where the power of ten below it has. -/
lemma exists_leadingPosition {whole unit : Nat} (hwhole : 0 < whole) (hunit : 0 < unit) :
    ∃ first : Nat, leadingPosition (whole * unit) unit = first ∧ tenTo first ≤ whole ∧
      whole < tenTo (first + 1) := by
  have hpos : 0 < whole * unit := Nat.mul_pos hwhole hunit
  have hlength := length_toString_pos unit
  have hlt := lt_tenTo_length (whole * unit)
  have hle := tenTo_pred_length_le hpos
  have hlt' := lt_tenTo_length unit
  have hle' := tenTo_pred_length_le hunit
  rw [leadingPosition]
  generalize (toString (whole * unit)).length = a at *
  generalize (toString unit).length = b at *
  have hab : b ≤ a := by
    by_contra h
    have hmono : tenTo a ≤ tenTo (b - 1) := tenTo_le_tenTo (by omega)
    have hmul : unit ≤ whole * unit := Nat.le_mul_of_pos_left _ hwhole
    omega
  obtain ⟨gap, rfl⟩ := Nat.exists_eq_add_of_le hab
  have hgap : ((b + gap : Nat) : Int) - b = gap := by omega
  have hneg : (-(gap : Int)).toNat = 0 := by omega
  have hupper : whole < tenTo (gap + 1) := by
    refine Nat.lt_of_mul_lt_mul_right (a := unit) ?_
    calc whole * unit < tenTo (b + gap) := hlt
      _ = tenTo (gap + 1) * tenTo (b - 1) := by
          rw [← tenTo_add]
          exact congrArg tenTo (by omega)
      _ ≤ tenTo (gap + 1) * unit := Nat.mul_le_mul_left _ hle'
  rw [hgap, Int.toNat_natCast, hneg, tenTo_zero, Nat.mul_one, Nat.mul_comm unit]
  split_ifs with h
  · exact ⟨gap, rfl, Nat.le_of_mul_le_mul_right h hunit, hupper⟩
  · have hsmall : whole < tenTo gap := by
      by_contra hge
      exact h (Nat.mul_le_mul_right _ (Nat.le_of_not_lt hge))
    cases gap with
    | zero => exact absurd hsmall (Nat.not_lt.2 hwhole)
    | succ gap =>
      refine ⟨gap, by omega, ?_, hsmall⟩
      refine Nat.le_of_mul_le_mul_right (c := tenTo b) ?_ (tenTo_pos b)
      calc tenTo gap * tenTo b = tenTo (b + (gap + 1) - 1) := by
            rw [← tenTo_add]
            exact congrArg tenTo (by omega)
        _ ≤ whole * unit := hle
        _ ≤ whole * tenTo b := Nat.mul_le_mul_left _ hlt'.le

/-! ### The place at which a decimal is found -/

/-- The first of some places at which something is found. -/
lemma exists_findSome?_range {α : Type} {f : Nat → Option α} {n m : Nat} (hm : m < n)
    (hsome : (f m).isSome = true) :
    ∃ j a, j ≤ m ∧ (List.range n).findSome? f = some a ∧ f j = some a ∧ ∀ l < j, f l = none := by
  induction n generalizing m with
  | zero => exact absurd hm (Nat.not_lt_zero m)
  | succ n ih =>
    rw [List.range_succ, List.findSome?_append]
    by_cases hearlier : ∃ l < n, (f l).isSome = true
    · obtain ⟨l, hl, hfound⟩ := hearlier
      obtain ⟨j, a, hj, hrange, hvalue, hnone⟩ := ih hl hfound
      refine ⟨j, a, ?_, by rw [hrange, Option.some_or], hvalue, hnone⟩
      by_contra hlt
      rw [hnone m (by omega)] at hsome
      cases hsome
    · have hnone : ∀ l < n, f l = none := by
        intro l hl
        rw [← Option.not_isSome_iff_eq_none]
        exact fun hfound => hearlier ⟨l, hl, hfound⟩
      obtain rfl : m = n := by
        by_contra hne
        exact hearlier ⟨m, by omega, hsome⟩
      obtain ⟨a, ha⟩ := Option.isSome_iff_exists.1 hsome
      refine ⟨m, a, Nat.le_refl _, ?_, ha, hnone⟩
      rw [List.findSome?_eq_none_iff.2 fun l hl => hnone l (List.mem_range.1 hl), Option.none_or,
        List.findSome?_singleton, ha]

/-! ### The shortest natural number -/

/-- The distance of a natural number from a finite number, in units of the denominator. -/
def distance (x : Binary64) (n : Nat) : Nat := offset x.ratio.1 (n * x.ratio.2)

/-- Of the natural numbers that are rounded to a number, this one has the fewest significant digits;
of several such it is the nearest, and of two as near the larger one. -/
structure IsShortest (x : Binary64) (r : Nat) : Prop where
  rounded : ofNat r = x
  least : ∀ n, ofNat n = x → significantDigits r < significantDigits n ∨
    significantDigits r = significantDigits n ∧
      (x.distance r < x.distance n ∨ x.distance r = x.distance n ∧ n ≤ r)

/-- A number has one shortest decimal. -/
lemma IsShortest.unique {x : Binary64} {r r' : Nat} (h : x.IsShortest r) (h' : x.IsShortest r') :
    r = r' := by
  have hleast := h.least r' h'.rounded
  have hleast' := h'.least r h.rounded
  omega

section

variable {k whole : Nat} (hk : k + 1 < infiniteMagnitude)
  (hvalue : scaled (k + 1) = whole * twoTo 1074)
include hvalue

lemma ratio_of_scaled : (ratio ⟨false, k + 1⟩).1 = whole * (ratio ⟨false, k + 1⟩).2 := by
  have hratio := ratio_fst_mul ⟨false, k + 1⟩
  refine Nat.eq_of_mul_eq_mul_right (twoTo_pos 1074) ?_
  rw [hratio, hvalue, Nat.mul_right_comm]

/-- A number with a whole value is this many units. -/
lemma value_of_scaled : (neighbourhood ⟨false, k + 1⟩).value =
    whole * (neighbourhood ⟨false, k + 1⟩).unit := by
  change 4 * (ratio ⟨false, k + 1⟩).1 = whole * (4 * (ratio ⟨false, k + 1⟩).2)
  rw [ratio_of_scaled hvalue, Nat.mul_left_comm]

lemma whole_pos : 0 < whole := by
  have hlt := scaled_lt_succ k
  rw [hvalue] at hlt
  exact Nat.pos_of_mul_pos_right (Nat.zero_lt_of_lt hlt)

/-- Distances from a whole value are counted in units. -/
lemma distance_of_scaled (n : Nat) :
    distance ⟨false, k + 1⟩ n = offset whole n * (ratio ⟨false, k + 1⟩).2 := by
  rw [distance, ratio_of_scaled hvalue, offset, offset, Nat.add_mul, Nat.sub_mul, Nat.sub_mul]

/-- A place is tried. -/
lemma tried_cases (p : Nat) :
    (∃ digits, (neighbourhood ⟨false, k + 1⟩).nearestAt .up p = some ⟨digits, p⟩ ∧
      (neighbourhood ⟨false, k + 1⟩).Takes whole p digits) ∨
    (neighbourhood ⟨false, k + 1⟩).nearestAt .up p = none ∧
      ¬ (neighbourhood ⟨false, k + 1⟩).Contains (whole / tenTo p * tenTo p) ∧
      ¬ (neighbourhood ⟨false, k + 1⟩).Contains ((whole / tenTo p + 1) * tenTo p) :=
  Neighbourhood.nearestAt_cases (value_of_scaled hvalue)
    (Nat.mul_pos (by decide) (ratio_snd_pos _)) p

include hk

/-- What differs only behind the sixteenth digit is rounded to the same number. -/
lemma ofNat_of_near {n : Nat} (h : 2 * offset whole n * tenTo 16 ≤ whole) :
    ofNat n = ⟨false, k + 1⟩ := by
  have hstep := scaled_succ k
  have hstep' : scaled (k + 1 + 1) = scaled (k + 1) + gap (k + 1) := scaled_succ (k + 1)
  have hgap : gap k ≤ gap (k + 1) := by
    have hhalf := two_mul_gap k
    split_ifs at hhalf <;> omega
  have hnear : 2 * offset whole n * twoTo 1074 < gap k := by
    by_contra hle
    have hpos : 0 < 2 * offset whole n * twoTo 1074 := (gap_pos k).trans_le (Nat.le_of_not_lt hle)
    have hbits : 2 * offset whole n * twoTo 1074 * tenTo 16 ≤
        2 * offset whole n * twoTo 1074 * twoTo 53 := by
      calc 2 * offset whole n * twoTo 1074 * tenTo 16
          = 2 * offset whole n * tenTo 16 * twoTo 1074 := Nat.mul_right_comm _ _ _
        _ ≤ whole * twoTo 1074 := Nat.mul_le_mul_right _ h
        _ = scaled (k + 1) := hvalue.symm
        _ ≤ twoTo 53 * gap k := scaled_succ_le k
        _ ≤ 2 * offset whole n * twoTo 1074 * twoTo 53 := by
            rw [Nat.mul_comm (twoTo 53)]
            exact Nat.mul_le_mul_right _ (Nat.le_of_not_lt hle)
    exact absurd (Nat.le_of_mul_le_mul_left hbits hpos) (by decide)
  have habove : n * twoTo 1074 ≤ (whole + offset whole n) * twoTo 1074 :=
    Nat.mul_le_mul_right _ (by rw [offset]; omega)
  have hbelow : whole * twoTo 1074 ≤ (n + offset whole n) * twoTo 1074 :=
    Nat.mul_le_mul_right _ (by rw [offset]; omega)
  rw [Nat.add_mul] at habove hbelow
  rw [Nat.mul_assoc] at hnear
  rw [ofNat_eq_iff n hk, RoundsWithin, RoundsWithin]
  omega

/-- A value lies in its own interval. -/
lemma contains_whole : (neighbourhood ⟨false, k + 1⟩).Contains whole :=
  (contains_iff _ hk).2 (ofNat_of_scaled hk hvalue)

/-- At the latest at the seventeenth digit a decimal is found, and not behind the units. -/
lemma exists_nearestAt {first : Nat} (hfirst : tenTo first ≤ whole) :
    ∃ m < 17, m ≤ first ∧
      ((neighbourhood ⟨false, k + 1⟩).nearestAt .up ((first - m : Nat) : Int)).isSome = true := by
  have hsome : ∀ p, ofNat (whole / tenTo p * tenTo p) = ⟨false, k + 1⟩ ∨
      ofNat ((whole / tenTo p + 1) * tenTo p) = ⟨false, k + 1⟩ →
      ((neighbourhood ⟨false, k + 1⟩).nearestAt .up (p : Int)).isSome = true := by
    intro p hrounded
    rw [← contains_iff _ hk, ← contains_iff _ hk] at hrounded
    rcases tried_cases hvalue p with ⟨digits, hfound, -⟩ | ⟨-, hlow, hhigh⟩
    · rw [hfound]
      rfl
    · exact absurd hrounded (not_or_intro hlow hhigh)
  rcases Nat.lt_or_ge first 17 with hsmall | hlarge
  · refine ⟨first, hsmall, Nat.le_refl _, hsome _ (.inl ?_)⟩
    rw [Nat.sub_self, tenTo_zero, Nat.div_one, Nat.mul_one]
    exact ofNat_of_scaled hk hvalue
  · refine ⟨16, by decide, by omega, hsome _ ?_⟩
    have hfine : tenTo (first - 16) * tenTo 16 ≤ whole := by
      rw [← tenTo_add, Nat.sub_add_cancel (by omega)]
      exact hfirst
    rcases Nat.lt_or_ge (tenTo (first - 16)) (2 * (whole % tenTo (first - 16))) with h | h
    · refine .inr (ofNat_of_near hk hvalue ((Nat.mul_le_mul_right _ ?_).trans hfine))
      rw [offset_above]
      omega
    · refine .inl (ofNat_of_near hk hvalue ((Nat.mul_le_mul_right _ ?_).trans hfine))
      rwa [offset_below]

/-- What is taken at the first place at which a decimal is found is the shortest natural number. At
no place before it a point of the grid next to the value lies in the interval, so nothing with fewer
digits is rounded to the number. -/
lemma isShortest_of_takes {first s digits : Nat} (hfirst : tenTo first ≤ whole)
    (hfirst' : whole < tenTo (first + 1)) (hs : s ≤ first)
    (htakes : (neighbourhood ⟨false, k + 1⟩).Takes whole (first - s) digits)
    (hnone : ∀ l < s,
      (neighbourhood ⟨false, k + 1⟩).nearestAt .up ((first - l : Nat) : Int) = none) :
    IsShortest ⟨false, k + 1⟩ (digits * tenTo (first - s)) := by
  have hwhole := contains_whole hk hvalue
  have hfew : significantDigits (digits * tenTo (first - s)) ≤ s + 1 := by
    have hquotient : whole / tenTo (first - s) < tenTo (s + 1) := by
      rw [Nat.div_lt_iff_lt_mul (tenTo_pos _), ← tenTo_add]
      rwa [show s + 1 + (first - s) = first + 1 by omega]
    have hdigits : digits ≤ tenTo (s + 1) := by
      rcases htakes.next with h | h <;> omega
    rw [significantDigits_le_iff]
    rcases Nat.lt_or_eq_of_le hdigits with hlt | rfl
    · exact ⟨digits, first - s, rfl, hlt⟩
    · refine ⟨1, s + 1 + (first - s), ?_, ?_⟩
      · rw [tenTo_add (s + 1), Nat.one_mul]
      · rw [tenTo_succ]
        have := tenTo_pos s
        omega
  have hmany : ∀ n, (neighbourhood ⟨false, k + 1⟩).Contains n → s + 1 ≤ significantDigits n := by
    intro n hn
    by_contra hlt
    cases s with
    | zero =>
      obtain ⟨j, i, rfl, hj⟩ :=
        significantDigits_le_iff.1 (Nat.le_of_lt_succ (Nat.lt_of_not_le hlt))
      rw [Nat.lt_one_iff.1 hj, Nat.zero_mul, contains_iff _ hk] at hn
      cases hn
    | succ l =>
      have hgrid := between_of_significantDigits (n := n) (s := l) hfirst (by omega) (by omega)
      rcases tried_cases hvalue (first - l) with ⟨_, hfound, -⟩ | ⟨-, hlow, hhigh⟩
      · rw [hnone l (Nat.lt_succ_self l)] at hfound
        cases hfound
      · rcases hwhole.grid hn hgrid with ⟨-, h⟩ | ⟨-, h⟩
        · exact hlow h
        · exact hhigh h
  refine ⟨(contains_iff _ hk).1 htakes.contains, fun n hrounded => ?_⟩
  have hn := (contains_iff n hk).2 hrounded
  rcases Nat.lt_or_eq_of_le (hfew.trans (hmany n hn)) with hlt | heq
  · exact .inl hlt
  · have hgrid := between_of_significantDigits hfirst hs (heq ▸ hfew)
    rw [distance_of_scaled hvalue, distance_of_scaled hvalue]
    refine .inr ⟨heq, (htakes.nearest_of_grid hwhole hn hgrid).imp (fun hlt => ?_) fun h => ?_⟩
    · exact Nat.mul_lt_mul_of_pos_right hlt (ratio_snd_pos _)
    · exact ⟨congrArg (· * _) h.1, h.2⟩

end

/-! ### Plain notation -/

/-- A decimal without a fraction is written as a whole number. -/
lemma positional_whole {digits : Nat} (h : 0 < digits) (p : Nat) :
    positional ⟨digits, p⟩ = toString (digits * tenTo p) := by
  rw [positional, if_pos (Int.natCast_nonneg p), Int.toNat_natCast, toString_mul_tenTo h]

/-- Zeros that are removed from the end are written again. -/
lemma positional_stripZeros (fuel : Nat) {digits : Nat} (h : 0 < digits) (p : Nat) :
    positional (stripZeros fuel ⟨digits, p⟩) = toString (digits * tenTo p) := by
  induction fuel generalizing digits p with
  | zero => exact positional_whole h p
  | succ fuel ih =>
    rw [stripZeros]
    split_ifs with hzero
    · change digits % 10 = 0 at hzero
      have hpos : 0 < digits / 10 := by omega
      have hdigits : digits / 10 * 10 = digits := by omega
      have hstep : digits / 10 * tenTo (p + 1) = digits * tenTo p := by
        rw [tenTo_succ, Nat.mul_comm (tenTo p), ← Nat.mul_assoc, hdigits]
      rw [← hstep]
      exact ih hpos (p + 1)
    · exact positional_whole h p

/-- A number with a whole value is written as its shortest decimal. -/
lemma plain_of_scaled {k whole : Nat} (hk : k + 1 < infiniteMagnitude)
    (hvalue : scaled (k + 1) = whole * twoTo 1074) :
    ∃ r, IsShortest ⟨false, k + 1⟩ r ∧ plain ⟨false, k + 1⟩ = toString r := by
  have hunit : 0 < (neighbourhood ⟨false, k + 1⟩).unit :=
    Nat.mul_pos (by decide) (ratio_snd_pos _)
  obtain ⟨first, hposition, hfirst, hfirst'⟩ := exists_leadingPosition (whole_pos hvalue) hunit
  obtain ⟨m, hm, hmfirst, hsome⟩ := exists_nearestAt hk hvalue hfirst
  have hplace : ∀ l ≤ m, (first : Int) - (l : Int) = ((first - l : Nat) : Int) := by omega
  obtain ⟨s, d, hs, hrange, hfound, hnone⟩ := exists_findSome?_range
    (f := fun n : Nat => (neighbourhood ⟨false, k + 1⟩).nearestAt .up (first - n)) hm
    (by rwa [hplace m (Nat.le_refl m)])
  rw [hplace s hs] at hfound
  rcases tried_cases hvalue (first - s) with ⟨digits, hdigits, htakes⟩ | ⟨hempty, -⟩
  · have hshortest : IsShortest ⟨false, k + 1⟩ (digits * tenTo (first - s)) := by
      refine isShortest_of_takes hk hvalue hfirst hfirst' (hs.trans hmfirst) htakes fun l hl => ?_
      rw [← hplace l (by omega)]
      exact hnone l hl
    have hpos : 0 < digits := by
      rcases Nat.eq_zero_or_pos digits with rfl | hpos
      · rw [Nat.zero_mul] at hshortest
        cases hshortest.rounded
      · exact hpos
    refine ⟨_, hshortest, ?_⟩
    obtain rfl := Option.some.inj (hfound.symm.trans hdigits)
    have hnan : isNaN ⟨false, k + 1⟩ = false := by
      rw [isNaN, decide_eq_false_iff_not]
      exact Nat.not_lt.2 hk.le
    have hfinite : isFinite ⟨false, k + 1⟩ = true := decide_eq_true hk
    have hfound' : shortest ⟨false, k + 1⟩ .up = stripZeros 20 ⟨digits, (first - s : Nat)⟩ := by
      rw [shortest, value_of_scaled hvalue, hposition, hrange]
      rfl
    rw [plain, hnan, hfinite, if_neg Bool.false_ne_true, if_neg Bool.false_ne_true, hfound',
      ← positional_stripZeros 20 hpos]
    rfl
  · rw [hempty] at hfound
    cases hfound

/-! ### Natural numbers in plain notation -/

/-- Nothing but zero is rounded to zero. -/
lemma eq_zero_of_ofNat_eq {n : Nat} (h : ofNat n = ofNat 0) : n = 0 := by
  have hle : (ofNat n).magnitude ≤ 0 := by rw [h]; exact Nat.le_refl 0
  have hone : scaled 0 + scaled (0 + 1) = 1 := by decide
  rw [magnitude_ofNat_le_iff n (by decide), RoundsWithin, hone] at hle
  have hzero : n * twoTo 1074 = 0 := by omega
  exact (Nat.mul_eq_zero.1 hzero).resolve_right (Nat.ne_of_gt (twoTo_pos 1074))

lemma isPositive_ofNat {n : Nat} (hn : 0 < n) : (ofNat n).isPositive = true := by
  have hsign : (ofNat n).negative = false := negative_ofRatio false n 1
  have hle : (ofNat n).magnitude ≤ infiniteMagnitude := magnitude_ofRatio_le false n 1
  have hne : ofNat n ≠ ⟨false, 0⟩ := fun h => Nat.ne_of_gt hn (eq_zero_of_ofNat_eq h)
  generalize ofNat n = x at *
  obtain ⟨negative, m⟩ := x
  obtain rfl : negative = false := hsign
  have hnan : isNaN ⟨false, m⟩ = false := decide_eq_false (Nat.not_lt.2 hle)
  have hzero : m ≠ 0 := fun h => hne (congrArg _ h)
  simp [isPositive, hnan, hzero]

lemma isShortest_zero : IsShortest (ofNat 0) 0 := by
  refine ⟨rfl, fun n hn => ?_⟩
  obtain rfl := eq_zero_of_ofNat_eq hn
  exact .inr ⟨rfl, .inr ⟨rfl, Nat.le_refl 0⟩⟩

lemma IsShortest.pos {n r : Nat} (h : (ofNat n).IsShortest r) (hn : 0 < n) : 0 < r := by
  refine Nat.pos_of_ne_zero ?_
  rintro rfl
  exact Nat.ne_of_gt hn (eq_zero_of_ofNat_eq h.rounded.symm)

/-- Plain notation writes the shortest natural number that is rounded to a number. -/
theorem exists_isShortest_plain {n : Nat} (h : (ofNat n).isFinite = true) :
    ∃ r, (ofNat n).IsShortest r ∧ (ofNat n).plain = toString r := by
  rcases Nat.eq_zero_or_pos n with rfl | hn
  · exact ⟨0, isShortest_zero, by decide⟩
  · obtain ⟨k, whole, hk, hnearest, hvalue⟩ := exists_whole hn h
    rw [hnearest]
    exact plain_of_scaled hk hvalue

/-- A whole number is written as its shortest decimal, as long as it is finite. -/
lemma plain_of_isShortest {n r : Nat} (h : (ofNat n).isFinite = true)
    (hr : (ofNat n).IsShortest r) : (ofNat n).plain = toString r := by
  obtain ⟨r', hr', hplain⟩ := exists_isShortest_plain h
  rw [hplain, hr.unique hr']

/-- The text of a whole number is that of another exactly if the other is its shortest decimal. -/
lemma plain_eq_toString_iff {n m : Nat} (h : (ofNat n).isFinite = true) :
    (ofNat n).plain = toString m ↔ (ofNat n).IsShortest m := by
  refine ⟨fun hplain => ?_, plain_of_isShortest h⟩
  obtain ⟨r, hr, hplain'⟩ := exists_isShortest_plain h
  rwa [toString_injective (hplain.symm.trans hplain')]

/-- Up to `2 ^ 53` natural numbers are told apart from all others, but for `2 ^ 53 + 1`. -/
lemma eq_of_ofNat_eq {m n : Nat} (hn : 0 < n) (hle : n ≤ twoTo 53) (h : ofNat m = ofNat n) :
    m = n ∨ n = twoTo 53 ∧ m = n + 1 := by
  obtain ⟨k, hk, hvalue⟩ := exists_exact hn hle
  have hpos := twoTo_pos 1074
  have hstep := scaled_succ k
  have hstep' : scaled (k + 1 + 1) = scaled (k + 1) + gap (k + 1) := scaled_succ (k + 1)
  have hbits : twoTo 53 * twoTo 1074 = twoTo 52 * (2 * twoTo 1074) := by
    rw [twoTo_53, Nat.mul_comm 2, Nat.mul_assoc]
  have hle' := Nat.mul_le_mul_right (twoTo 1074) hle
  have hlt' : n < twoTo 53 → n * twoTo 1074 < twoTo 53 * twoTo 1074 :=
    fun hlt => Nat.mul_lt_mul_of_pos_right hlt hpos
  -- The gap below `n` is less than two units, and so is the one above it, but for `2 ^ 53`.
  have hbelow : gap k < 2 * twoTo 1074 := by
    rcases gap_mul_le k with hgap | hgap
    · refine Nat.lt_of_mul_lt_mul_left (a := twoTo 52) ?_
      have := gap_pos k
      rw [Nat.mul_comm]
      omega
    · omega
  have habove : gap (k + 1) ≤ 2 * twoTo 1074 ∧ (n < twoTo 53 → gap (k + 1) < 2 * twoTo 1074) := by
    rcases gap_mul_le (k + 1) with hgap | hgap
    · rw [hvalue, Nat.mul_comm] at hgap
      refine ⟨Nat.le_of_mul_le_mul_left (c := twoTo 52) (by omega) (twoTo_pos 52), fun hlt => ?_⟩
      exact Nat.lt_of_mul_lt_mul_left (a := twoTo 52) (hgap.trans_lt ((hlt' hlt).trans_eq hbits))
    · omega
  rw [ofNat_of_scaled hk hvalue, ofNat_eq_iff m hk, RoundsWithin, RoundsWithin, hstep', hvalue] at h
  have hlow : n ≤ m := by
    by_contra hlt
    have := Nat.mul_le_mul_right (twoTo 1074) (Nat.succ_le_of_lt (Nat.lt_of_not_le hlt))
    rw [Nat.succ_mul] at this
    omega
  rcases Nat.lt_or_eq_of_le hlow with hlt | rfl
  · have hnext := Nat.mul_le_mul_right (twoTo 1074) (Nat.succ_le_of_lt hlt)
    rw [Nat.succ_mul] at hnext
    have hend : n = twoTo 53 := by
      by_contra hne
      have := habove.2 (by omega)
      omega
    refine .inr ⟨hend, ?_⟩
    by_contra hne
    have hfar := Nat.mul_le_mul_right (twoTo 1074) (show n + 2 ≤ m by omega)
    rw [Nat.add_mul] at hfar
    omega
  · exact .inl rfl

/-- Natural numbers up to `2 ^ 53` are written with their own digits. -/
theorem isShortest_of_le {n : Nat} (h : n ≤ twoTo 53) : (ofNat n).IsShortest n := by
  rcases Nat.eq_zero_or_pos n with rfl | hn
  · exact isShortest_zero
  obtain ⟨k, hk, hvalue⟩ := exists_exact hn h
  have hdistance : (ofNat n).distance n = 0 := by
    rw [ofNat_of_scaled hk hvalue, distance_of_scaled hvalue, offset, Nat.sub_self, Nat.zero_mul]
  refine ⟨rfl, fun m hm => ?_⟩
  rcases eq_of_ofNat_eq hn h hm with rfl | ⟨rfl, rfl⟩
  · exact .inr ⟨rfl, .inr ⟨rfl, Nat.le_refl _⟩⟩
  · have hdigits : significantDigits (twoTo 53) = significantDigits (twoTo 53 + 1) := by decide
    refine .inr ⟨hdigits, .inl ?_⟩
    rw [hdistance, ofNat_of_scaled hk hvalue, distance_of_scaled hvalue, offset]
    exact Nat.mul_pos (by omega) (ratio_snd_pos _)

end Binary64

end LogQuery
