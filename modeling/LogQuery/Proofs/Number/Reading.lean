import LogQuery.Proofs.Number.Numeral
import LogQuery.Proofs.Number.Rounding
import Mathlib.Data.List.TakeDrop
import Mathlib.Data.List.TakeWhile

namespace LogQuery

namespace Numeral

variable {ds rest : List Char}

/-- No sign stands where a digit does. -/
lemma splitSign_cons {c : Char} (h : c.isDigit = true) :
    splitSign (c :: ds) = (false, c :: ds) := by
  have hminus : c ≠ '-' := fun heq => absurd (heq ▸ h) (by decide)
  have hplus : c ≠ '+' := fun heq => absurd (heq ▸ h) (by decide)
  rw [splitSign.eq_def]
  split <;> simp_all

lemma splitSign_append (hne : ds ≠ []) (h : ∀ c ∈ ds, c.isDigit = true) (rest : List Char) :
    splitSign (ds ++ rest) = (false, ds ++ rest) := by
  obtain ⟨c, ds, rfl⟩ := List.exists_cons_of_ne_nil hne
  exact splitSign_cons (h c List.mem_cons_self)

/-- Digits have no sign in front. -/
lemma splitSign_digits (h : ∀ c ∈ ds, c.isDigit = true) : splitSign ds = (false, ds) := by
  cases ds with
  | nil => rfl
  | cons c ds => exact splitSign_cons (h c List.mem_cons_self)

/-- Digits in front of what is none. -/
lemma takeWhile_append (h : ∀ c ∈ ds, c.isDigit = true)
    (hrest : ∀ c ∈ rest.head?, c.isDigit = false) :
    (ds ++ rest).takeWhile Char.isDigit = ds ∧ (ds ++ rest).dropWhile Char.isDigit = rest := by
  rw [List.takeWhile_append_of_pos h, List.dropWhile_append_of_pos h]
  cases rest with
  | nil => simp
  | cons c rest => simp [hrest c rfl]

lemma span_append (h : ∀ c ∈ ds, c.isDigit = true) (hrest : ∀ c ∈ rest.head?, c.isDigit = false) :
    (ds ++ rest).span Char.isDigit = (ds, rest) := by
  obtain ⟨htake, hdrop⟩ := takeWhile_append h hrest
  rw [List.span_eq_takeWhile_dropWhile, htake, hdrop]

lemma span_digits (h : ∀ c ∈ ds, c.isDigit = true) : ds.span Char.isDigit = (ds, []) := by
  have hspan : (ds ++ []).span Char.isDigit = (ds, []) := span_append h (by simp)
  rwa [List.append_nil] at hspan

/-- Zeros in front do not count. -/
lemma digitsValue_dropWhile (ds : List Char) :
    digitsValue (ds.dropWhile (· = '0')) = digitsValue ds := by
  induction ds with
  | nil => rfl
  | cons c ds ih =>
    by_cases hc : c = '0'
    · subst hc
      rw [List.dropWhile_cons_of_pos (by decide), ih]
      rfl
    · rw [List.dropWhile_cons_of_neg (by simpa using hc)]

/-- Digits alone are a numeral. -/
lemma ofText?_digits (hne : ds ≠ []) (h : ∀ c ∈ ds, c.isDigit = true) :
    ofText? ds = some ⟨false, ds, 0⟩ := by
  rw [ofText?, splitSign_digits h]
  dsimp only
  rw [span_digits h]
  simp [hne, exponentOf?]

/-- Of digits behind a point the numeral counts as many powers of ten as there are of them. -/
lemma ofText?_fraction {more : List Char} (hne : ds ≠ []) (h : ∀ c ∈ ds, c.isDigit = true)
    (hmore : ∀ c ∈ more, c.isDigit = true) :
    ofText? (ds ++ '.' :: more) = some ⟨false, ds ++ more, -more.length⟩ := by
  have hspan : (ds ++ '.' :: more).span Char.isDigit = (ds, '.' :: more) := span_append h (by simp)
  rw [ofText?, splitSign_append hne h]
  dsimp only
  rw [hspan]
  simp only [span_digits hmore]
  simp [hne, exponentOf?]

/-- A minus makes the numeral behind it negative. -/
lemma ofText?_minus {c : Char} (h : c.isDigit = true) :
    ofText? ('-' :: c :: ds) = (ofText? (c :: ds)).map fun n => { n with negative := true } := by
  have hminus : splitSign ('-' :: c :: ds) = (true, c :: ds) := rfl
  rw [ofText?, ofText?, hminus, splitSign_cons h]
  dsimp only
  split_ifs
  · rfl
  · rw [Option.map_map]
    rfl

/-- A numeral that is not cut off is rounded once. -/
lemma nearest_eq {n : Numeral} (hpos : 0 < digitsValue n.digits) (hsmall : -400 ≤ n.exponent)
    (hlarge : n.digits.length + n.exponent ≤ 400) :
    n.nearest = .ofRatio n.negative (digitsValue n.digits * tenTo n.exponent.toNat)
      (tenTo (-n.exponent).toNat) := by
  have hvalue := digitsValue_dropWhile n.digits
  have hlength := List.length_dropWhile_le (· = '0') n.digits
  have hne : n.digits.dropWhile (· = '0') ≠ [] := by
    intro hnil
    rw [← hvalue, hnil] at hpos
    exact Nat.lt_irrefl 0 hpos
  rw [nearest]
  dsimp only
  rw [hvalue, List.isEmpty_eq_false_iff.2 hne, Bool.false_or, if_neg (by simp; omega),
    if_neg (by omega)]

end Numeral

namespace Binary64

/-- A number that is too large is infinite. -/
lemma ofNat_of_not_isFinite {n : Nat} (h : (ofNat n).isFinite = false) :
    ofNat n = infinity false := by
  rcases Nat.eq_zero_or_pos n with rfl | hn
  · cases h
  · obtain ⟨s, -, -, -, -, hnearest⟩ := exists_floor hn
    rw [hnearest, isFinite, decide_eq_false_iff_not, Nat.not_lt] at h
    rw [hnearest, min_eq_left (le_min_iff.1 h).2]
    rfl

/-- No number of more than 309 digits is finite. -/
lemma not_isFinite_of_length {n : Nat} (h : 310 ≤ (toString n).length) :
    (ofNat n).isFinite = false := by
  have hpos : 0 < n := by
    rcases Nat.eq_zero_or_pos n with rfl | hn
    · exact absurd h (by decide)
    · exact hn
  have hle : tenTo 309 ≤ n :=
    (tenTo_le_tenTo (by omega)).trans (tenTo_pred_length_le hpos)
  have hlarge : twoTo 1024 - twoTo 970 ≤ tenTo 309 := by decide +kernel
  rw [Bool.eq_false_iff, Ne, isFinite_ofNat_iff]
  omega

lemma toLower_of_isDigit {c : Char} (h : c.isDigit = true) : c.toLower = c := by
  rw [Char.isDigit, Bool.and_eq_true, decide_eq_true_eq, decide_eq_true_eq] at h
  have hlt : c.val < 'A'.val := Std.lt_of_le_of_lt h.2 (by decide)
  exact dif_neg fun hupper => absurd hlt (UInt32.not_lt.2 hupper.1)

/-- No name begins with a digit. -/
lemma named?_cons {c : Char} (h : c.isDigit = true) (cs : List Char) : named? (c :: cs) = none := by
  have hword : ∀ word : String, word.toList.head?.all (fun c => !c.isDigit) = true →
      String.ofList ((c :: cs).map Char.toLower) ≠ word := by
    rintro _ hword rfl
    rw [List.map_cons, toLower_of_isDigit h, String.toList_ofList, List.head?_cons,
      Option.all_some, h] at hword
    cases hword
  rw [named?, if_neg (not_or_intro (hword "inf" (by decide)) (hword "infinity" (by decide))),
    if_neg (hword "nan" (by decide))]

/-- The digits of a natural number are read as the nearest number to it. -/
theorem ofText?_toString (n : Nat) : ofText? (toString n) = some (ofNat n) := by
  have hdigits : ∀ c ∈ (toString n).toList, c.isDigit = true :=
    fun c hc => isDigit_of_mem_toString hc
  have hvalue := Numeral.digitsValue_dropWhile (toString n).toList
  have hlength := List.length_dropWhile_le (· = '0') (toString n).toList
  rw [Numeral.digitsValue_toString] at hvalue
  rw [String.length_toList] at hlength
  have hnamed : named? (toString n).toList = none := by
    obtain ⟨c, cs, hcons⟩ := List.exists_cons_of_ne_nil (toString_toList_ne_nil n)
    rw [hcons]
    exact named?_cons (hdigits c (hcons ▸ List.mem_cons_self)) cs
  rw [ofText?, Numeral.splitSign_digits hdigits]
  dsimp only
  rw [hnamed, Numeral.ofText?_digits (toString_toList_ne_nil n) hdigits,
    Option.map_some, Numeral.nearest]
  dsimp only
  have hratio : ofRatio false (n * tenTo (Int.toNat 0)) (tenTo (-0 : Int).toNat) = ofNat n := by
    change ofRatio false (n * 1) 1 = ofRatio false n 1
    rw [Nat.mul_one]
  rw [hvalue, hratio]
  split_ifs with hsmall hlarge
  · have hnil : (toString n).toList.dropWhile (· = '0') = [] := by
      rw [Bool.or_eq_true, List.isEmpty_iff, decide_eq_true_eq] at hsmall
      exact hsmall.resolve_right (by omega)
    rw [hnil] at hvalue
    subst hvalue
    rfl
  · rw [ofNat_of_not_isFinite (not_isFinite_of_length (by omega))]
  · rfl

end Binary64

end LogQuery
