import LogQuery.Number.Reading
import LogQuery.Number.Text
import Mathlib.Data.List.Induction
import Mathlib.Tactic.Lemma
import Mathlib.Tactic.Ring
import Mathlib.Tactic.SplitIfs

namespace LogQuery

/-- The digits of a number have its value. -/
lemma Numeral.digitsValue_toString (n : Nat) : digitsValue (toString n).toList = n := by
  rw [Nat.toString_eq_repr, Nat.toList_repr]
  exact Nat.ofDigitChars_toDigits (by decide) (by decide)

lemma Numeral.digitsValue_append (ds es : List Char) :
    digitsValue (ds ++ es) = digitsValue ds * tenTo es.length + digitsValue es := by
  induction es using List.reverseRecOn with
  | nil => simp [digitsValue]
  | append_singleton es c ih =>
    rw [← List.append_assoc]
    simp only [digitsValue, List.foldl_append, List.foldl_cons, List.foldl_nil,
      List.length_append, List.length_singleton, tenTo_succ] at ih ⊢
    rw [ih]
    ring

/-- Different numbers have different digits. -/
lemma toString_injective : Function.Injective (toString : Nat → String) := by
  intro m n h
  rw [← Numeral.digitsValue_toString m, h, Numeral.digitsValue_toString]

/-- Digits, perhaps with a point and more digits behind them. -/
inductive IsNumeral : List Char → Prop where
  | whole {digits : List Char} (hne : digits ≠ []) (h : ∀ c ∈ digits, c.isDigit = true) :
      IsNumeral digits
  | fraction {digits more : List Char} (hne : digits ≠ []) (h : ∀ c ∈ digits, c.isDigit = true)
      (hne' : more ≠ []) (h' : ∀ c ∈ more, c.isDigit = true) : IsNumeral (digits ++ '.' :: more)

lemma IsNumeral.head {numeral : List Char} (h : IsNumeral numeral) :
    ∃ c more, numeral = c :: more ∧ c.isDigit = true := by
  cases h with
  | @whole _ hne h =>
    obtain ⟨c, more, rfl⟩ := List.exists_cons_of_ne_nil hne
    exact ⟨c, more, rfl, h c (by simp)⟩
  | @fraction digits more hne h hne' h' =>
    obtain ⟨c, digits, rfl⟩ := List.exists_cons_of_ne_nil hne
    exact ⟨c, digits ++ '.' :: more, rfl, h c (by simp)⟩

namespace Binary64

lemma toString_toList_ne_nil (n : Nat) : (toString n).toList ≠ [] := by
  rw [Nat.toString_eq_repr, Nat.toList_repr]
  exact List.ne_nil_of_length_pos Nat.length_toDigits_pos

lemma isDigit_of_mem_toString {n : Nat} {c : Char} (h : c ∈ (toString n).toList) :
    c.isDigit = true := by
  rw [Nat.toString_eq_repr, Nat.toList_repr] at h
  exact Nat.isDigit_of_mem_toDigits (by decide) (by decide) h

lemma isDigit_of_mem_zeros {n : Nat} {c : Char} (h : c ∈ (zeros n).toList) :
    c.isDigit = true := by
  rw [zeros, String.toList_ofList] at h
  rw [List.eq_of_mem_replicate h]
  decide

/-- A point splits the digits in two. -/
lemma toList_pointAfter (digits : String) (n : Nat) :
    (pointAfter digits n).toList = digits.toList.take n ++ '.' :: digits.toList.drop n := by
  simp [pointAfter]

lemma length_zeros (n : Nat) : (zeros n).toList.length = n := by
  rw [zeros, String.toList_ofList, List.length_replicate]

lemma digitsValue_zeros (n : Nat) : Numeral.digitsValue (zeros n).toList = 0 := by
  rw [zeros, String.toList_ofList]
  induction n with
  | zero => rfl
  | succ n ih =>
    rw [List.replicate_succ', Numeral.digitsValue_append, ih, Nat.zero_mul]
    rfl

/-- A decimal without a fraction is its digits with zeros behind them. -/
lemma toList_positional {d : Decimal} (h : 0 ≤ d.exponent) : (positional d).toList =
    (toString d.digits).toList ++ (zeros d.exponent.toNat).toList := by
  rw [positional, if_pos h, String.toList_append]

/-- Plain notation puts the point between the digits, or zeros where it lies outside of them. -/
lemma exists_point {d : Decimal} (h : d.exponent < 0) : ∃ whole more : List Char,
    (positional d).toList = whole ++ '.' :: more ∧ whole ≠ [] ∧ (∀ c ∈ whole, c.isDigit = true) ∧
      (∀ c ∈ more, c.isDigit = true) ∧ (more.length : Int) = -d.exponent ∧
        Numeral.digitsValue (whole ++ more) = d.digits := by
  have hdigit : ∀ c ∈ (toString d.digits).toList, c.isDigit = true :=
    fun c hc => isDigit_of_mem_toString hc
  have hvalue := Numeral.digitsValue_toString d.digits
  have hlength : (toString d.digits).toList.length = (toString d.digits).length :=
    String.length_toList
  rw [positional, if_neg (Int.not_le.2 h)]
  split_ifs with hwhole
  · refine ⟨_, _, toList_pointAfter _ _, ?_, fun c hc => hdigit c (List.mem_of_mem_take hc),
      fun c hc => hdigit c (List.mem_of_mem_drop hc), ?_, ?_⟩
    · rw [← List.length_pos_iff, List.length_take]
      omega
    · rw [List.length_drop]
      omega
    · rw [List.take_append_drop, hvalue]
  · refine ⟨['0'], (zeros (-((toString d.digits).length + d.exponent)).toNat).toList ++
      (toString d.digits).toList, by simp, by simp, by simp, fun c hc => ?_, ?_, ?_⟩
    · rcases List.mem_append.1 hc with hc | hc
      · exact isDigit_of_mem_zeros hc
      · exact hdigit c hc
    · rw [List.length_append, length_zeros]
      omega
    · have hzero : Numeral.digitsValue ['0'] = 0 := rfl
      rw [Numeral.digitsValue_append, hzero, Nat.zero_mul, Nat.zero_add,
        Numeral.digitsValue_append, digitsValue_zeros, Nat.zero_mul, Nat.zero_add, hvalue]

/-- What is written in positional notation can be read as a numeral. -/
lemma isNumeral_positional (d : Decimal) : IsNumeral (positional d).toList := by
  by_cases hexponent : 0 ≤ d.exponent
  · rw [toList_positional hexponent]
    refine .whole (List.append_ne_nil_of_left_ne_nil (toString_toList_ne_nil _) _) fun c hc => ?_
    rcases List.mem_append.1 hc with hc | hc
    · exact isDigit_of_mem_toString hc
    · exact isDigit_of_mem_zeros hc
  · obtain ⟨whole, more, htext, hne, hwhole, hmore, hplaces, -⟩ :=
      exists_point (Int.not_le.1 hexponent)
    rw [htext]
    refine .fraction hne hwhole ?_ hmore
    rintro rfl
    simp at hplaces
    omega

/-- A finite number is written as a numeral with or without a minus. -/
lemma plain_toList_cases {x : Binary64} (h : x.isFinite = true) :
    ∃ numeral, IsNumeral numeral ∧
      (x.plain.toList = numeral ∨ x.plain.toList = '-' :: numeral) := by
  have hnan : x.isNaN = false := by
    rw [isFinite, decide_eq_true_eq] at h
    rw [isNaN, decide_eq_false_iff_not]
    omega
  have hsign : ∀ body : String, IsNumeral body.toList → ∃ numeral, IsNumeral numeral ∧
      (((if x.negative then "-" else "") ++ body).toList = numeral ∨
        ((if x.negative then "-" else "") ++ body).toList = '-' :: numeral) := by
    intro body hbody
    refine ⟨body.toList, hbody, ?_⟩
    split_ifs
    · exact .inr (by simp)
    · exact .inl (by simp)
  rw [plain, hnan, h]
  simp only [Bool.false_eq_true, if_false, Bool.not_true]
  apply hsign
  split_ifs
  · exact .whole (by simp) (by simp)
  · exact isNumeral_positional _

end Binary64

end LogQuery
