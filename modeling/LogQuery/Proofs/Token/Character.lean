import LogQuery.Token.Lexer
import Mathlib.Tactic.ByContra
import Mathlib.Tactic.Lemma

namespace LogQuery.Lexer

/-! ### Classes of characters -/

def opensGap (c : Char) : Bool := Text.isBlank c || c = '#'

/-- The characters that begin symbols and literals other than numbers. -/
def marks : List Char := "|,()*+~=<>!-/\"'".toList

lemma not_mem_marks_of_class {p : Char → Bool} (hp : marks.any p = false) {c : Char}
    (hc : p c = true) : c ∉ marks :=
  fun hmem => List.any_eq_false.1 hp c hmem hc

lemma symbol?_of_not_mem {c : Char} (h : c ∉ marks) : symbol? c = none := by
  unfold symbol?
  split <;> first | rfl | exact absurd (by decide) h

lemma symbol?_of_comparison? {c : Char} {signs : Symbol × Symbol} (h : comparison? c = some signs) :
    symbol? c = none := by
  unfold comparison? at h
  split at h <;> first | rfl | cases h

lemma comparison?_of_not_mem {c : Char} (h : c ∉ marks) : comparison? c = none := by
  unfold comparison?
  split <;> first | rfl | exact absurd (by decide) h

lemma mem_marks_of_symbol? {c : Char} {s : Symbol} (h : symbol? c = some s) : c ∈ marks := by
  by_contra hc
  rw [symbol?_of_not_mem hc] at h
  cases h

lemma mem_marks_of_comparison? {c : Char} {signs : Symbol × Symbol}
    (h : comparison? c = some signs) : c ∈ marks := by
  by_contra hc
  rw [comparison?_of_not_mem hc] at h
  cases h

lemma isBlank_of_toNat_lt {c : Char} (h : c.toNat < 128) (hblank : Text.isBlank c = true) :
    c.toNat ≤ 32 := by
  obtain ⟨r, hr, hc⟩ := List.any_eq_true.1 hblank
  have hall : ∀ r ∈ Text.blankRanges, r.2 ≤ 32 ∨ 128 ≤ r.1 := by decide
  have hrange := hall r hr
  simp only [Bool.and_eq_true, decide_eq_true_eq] at hc
  omega

/-- Two classes of characters without a common range have no common character. -/
lemma not_inRanges {ranges ranges' : List (Nat × Nat)}
    (h : ∀ r ∈ ranges, ∀ r' ∈ ranges', r.2 < r'.1 ∨ r'.2 < r.1) {c : Char}
    (hc : Text.inRanges ranges c = true) : Text.inRanges ranges' c = false := by
  obtain ⟨r, hr, hc⟩ := List.any_eq_true.1 hc
  refine List.any_eq_false.2 fun r' hr' => ?_
  have hdisjoint := h r hr r' hr'
  simp only [Bool.and_eq_true, decide_eq_true_eq] at hc ⊢
  omega

lemma not_isAlphanumeric_of_isBlank {c : Char} (h : Text.isBlank c = true) :
    Text.isAlphanumeric c = false := by
  have halphabetic : ∀ r ∈ Text.blankRanges, ∀ r' ∈ Text.alphabeticRanges,
      r.2 < r'.1 ∨ r'.2 < r.1 := by decide +kernel
  have hnumeric : ∀ r ∈ Text.blankRanges, ∀ r' ∈ Text.numericRanges,
      r.2 < r'.1 ∨ r'.2 < r.1 := by decide +kernel
  rw [Text.isAlphanumeric, Text.isAlphabetic, Text.isNumeric]
  by_cases hascii : c.toNat < 128
  · have hsmall := isBlank_of_toNat_lt hascii h
    have hall : ∀ n ≤ 32, ((Char.ofNat n).isAlpha || (Char.ofNat n).isDigit) = false := by decide
    rw [if_pos hascii, if_pos hascii, ← Char.ofNat_toNat c]
    exact hall c.toNat hsmall
  · rw [if_neg hascii, if_neg hascii, not_inRanges halphabetic h, not_inRanges hnumeric h]
    rfl

/-- A word never goes on with a gap. -/
lemma not_opensGap_of_isWordChar {c : Char} (h : isWordChar c = true) : opensGap c = false := by
  rw [opensGap, Bool.or_eq_false_iff]
  constructor
  · by_contra hblank
    rw [Bool.not_eq_false] at hblank
    rw [isWordChar, not_isAlphanumeric_of_isBlank hblank, Bool.false_or, Bool.or_eq_true,
      decide_eq_true_eq, decide_eq_true_eq] at h
    rcases h with rfl | rfl <;> exact absurd hblank (by decide)
  · rw [decide_eq_false_iff_not]
    rintro rfl
    exact absurd h (by decide)

lemma not_opensGap_of_mem_marks {c : Char} (h : c ∈ marks) : opensGap c = false := by
  have hall : marks.all (fun c => !opensGap c) = true := by decide
  simpa using List.all_eq_true.1 hall c h

lemma isWordChar_of_isWordStart {c : Char} (h : isWordStart c = true) : isWordChar c = true := by
  rw [isWordStart] at h
  rw [isWordChar, Text.isAlphanumeric]
  rw [Bool.or_eq_true] at h
  rcases h with h | h <;> simp [h]

lemma toNat_lt_of_isDigit {c : Char} (h : c.isDigit = true) : c.toNat < 128 := by
  rw [Char.isDigit, Bool.and_eq_true, decide_eq_true_eq, decide_eq_true_eq] at h
  exact Nat.lt_of_le_of_lt (UInt32.le_iff_toNat_le.1 h.2) (by decide)

lemma isWordChar_of_isDigit {c : Char} (h : c.isDigit = true) : isWordChar c = true := by
  rw [isWordChar, Text.isAlphanumeric, Text.isNumeric, if_pos (toNat_lt_of_isDigit h), h]
  simp

/-- No digit is a letter. -/
lemma not_isDigit_of_isWordStart {c : Char} (h : isWordStart c = true) : c.isDigit = false := by
  by_contra hdigit
  rw [Bool.not_eq_false] at hdigit
  have hall : ∀ n < 128, ((Char.ofNat n).isDigit && isWordStart (Char.ofNat n)) = false := by decide
  have hc := hall c.toNat (toNat_lt_of_isDigit hdigit)
  rw [Char.ofNat_toNat, hdigit, h] at hc
  cases hc

/-! ### The next character -/

/-- The next character, unless a gap begins with it. No more than this is seen of what stands behind
a lexeme. -/
def ahead (cs : List Char) : Option Char := cs.head?.filter fun c => !opensGap c

lemma ahead_eq_some {cs : List Char} {c : Char} :
    ahead cs = some c ↔ cs.head? = some c ∧ opensGap c = false := by
  rw [ahead, Option.filter_eq_some_iff, Bool.not_eq_true']

/-- Whether the next character is of a class that no gap begins with shows in what is ahead. -/
lemma any_head? {p : Char → Bool} (hp : ∀ c, p c = true → opensGap c = false) (cs : List Char) :
    cs.head?.any p = (ahead cs).any p := by
  cases cs with
  | nil => rfl
  | cons c rest =>
    rw [ahead, List.head?_cons]
    cases hgap : opensGap c with
    | false => simp [hgap]
    | true =>
      have hc : p c = false := by
        by_contra h
        rw [hp c (by simpa using h)] at hgap
        cases hgap
      simp [hgap, hc]

lemma any_head?_congr {p : Char → Bool} (hp : ∀ c, p c = true → opensGap c = false)
    {cs cs' : List Char} (h : ahead cs = ahead cs') : cs.head?.any p = cs'.head?.any p := by
  rw [any_head? hp, any_head? hp, h]

lemma not_opensGap_of_isDigit (c : Char) (h : c.isDigit = true) : opensGap c = false :=
  not_opensGap_of_isWordChar (isWordChar_of_isDigit h)

lemma not_opensGap_of_equals (c : Char) (h : decide (c = '=') = true) : opensGap c = false := by
  rw [decide_eq_true_eq] at h
  rw [h]
  decide

lemma not_mem_marks_of_isDigit {c : Char} (h : c.isDigit = true) : c ∉ marks :=
  not_mem_marks_of_class (by decide) h

lemma not_mem_marks_of_isWordStart {c : Char} (h : isWordStart c = true) :
    c ∉ marks :=
  not_mem_marks_of_class (by decide) h

end LogQuery.Lexer
