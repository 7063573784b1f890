import LogQuery.Address.Basic
import LogQuery.Proofs.Number.Numeral
import LogQuery.Proofs.Token.Character
import Mathlib.Tactic.Lemma

namespace LogQuery

/-! ### Parts between points -/

namespace Text

variable {sep : Char} {cs : List Char}

lemma splitAt_ne_nil (sep : Char) (cs : List Char) : splitAt sep cs ≠ [] := by
  cases cs with
  | nil => simp [splitAt]
  | cons c cs =>
    simp only [splitAt]
    split
    · simp
    · split_ifs <;> simp

lemma splitAt_cons_self (cs : List Char) : splitAt sep (sep :: cs) = [] :: splitAt sep cs := by
  obtain ⟨part, parts, h⟩ := List.exists_cons_of_ne_nil (splitAt_ne_nil sep cs)
  simp [splitAt, h]

/-- A text without the separator is one piece. -/
lemma splitAt_of_notMem (h : sep ∉ cs) : splitAt sep cs = [cs] := by
  induction cs with
  | nil => rfl
  | cons c cs ih =>
    rw [List.mem_cons, not_or] at h
    simp [splitAt, ih h.2, Ne.symm h.1]

/-- What stands in front of the separator is the first part. -/
lemma splitAt_append (h : sep ∉ cs) (rest : List Char) :
    splitAt sep (cs ++ sep :: rest) = cs :: splitAt sep rest := by
  induction cs with
  | nil => exact splitAt_cons_self rest
  | cons c cs ih =>
    rw [List.mem_cons, not_or] at h
    simp [splitAt, ih h.2, Ne.symm h.1]

/-- A text without blanks is left as it is. -/
lemma trimChars_eq_self (h : ∀ c ∈ cs, isBlank c = false) : trimChars cs = cs := by
  have hstart : ∀ {cs : List Char}, (∀ c ∈ cs, isBlank c = false) → trimStart cs = cs := by
    intro cs h
    cases cs with
    | nil => rfl
    | cons c cs => simp [trimStart, h c]
  rw [trimChars, hstart h, hstart (by simpa using h), List.reverse_reverse]

end Text

namespace Address

variable (x : Address)

/-! ### Bytes -/

lemma value_div_lt : x.value / twoTo 24 < 256 := by
  have h : x.value < 4294967296 := x.value_lt
  rw [show twoTo 24 = 16777216 from rfl]
  omega

/-- Every byte is read from its digits. -/
lemma byteOf?_toString {b : Nat} (h : b < 256) : byteOf? (toString b).toList = some ⟨b, h⟩ := by
  have hall : ∀ b : Fin 256, byteOf? (toString b.val).toList = some b := by decide +kernel
  exact hall ⟨b, h⟩

/-- An address is the number that its bytes are the digits of. -/
lemma value_eq_bytes :
    ((x.value / twoTo 24 * 256 + x.value / twoTo 16 % 256) * 256 + x.value / twoTo 8 % 256) * 256 +
      x.value % 256 = x.value := by
  rw [show twoTo 24 = 16777216 from rfl, show twoTo 16 = 65536 from rfl,
    show twoTo 8 = 256 from rfl]
  omega

/-! ### The whole text -/

/-- The text of an address, byte by byte. -/
lemma toList_dotted :
    x.dotted.toList = (toString (x.value / twoTo 24)).toList ++ '.' ::
      ((toString (x.value / twoTo 16 % 256)).toList ++ '.' ::
        ((toString (x.value / twoTo 8 % 256)).toList ++ '.' ::
          (toString (x.value % 256)).toList)) := by
  simp [dotted, bytes]

lemma point_notMem_toString (n : Nat) : '.' ∉ (toString n).toList := by
  intro h
  have hdigit := Binary64.isDigit_of_mem_toString h
  simp at hdigit

/-- An address is read back from its text. -/
theorem ofText?_dotted : ofText? x.dotted = some x := by
  have hparts : Text.splitAt '.' x.dotted.toList =
      [(toString (x.value / twoTo 24)).toList, (toString (x.value / twoTo 16 % 256)).toList,
        (toString (x.value / twoTo 8 % 256)).toList, (toString (x.value % 256)).toList] := by
    rw [toList_dotted]
    simp only [Text.splitAt_append (point_notMem_toString _),
      Text.splitAt_of_notMem (point_notMem_toString _)]
  have hmod : ∀ n : Nat, n % 256 < 256 := fun n => Nat.mod_lt n (by decide)
  have hvalue := x.value_eq_bytes
  rw [ofText?, hparts]
  simp only [byteOf?_toString x.value_div_lt, byteOf?_toString (hmod _), Option.bind_eq_bind,
    Option.bind_some, ofBytes, hvalue]
  rfl

/-- The text of an address has no blanks that could be cut off. -/
lemma trim_dotted : Text.trim x.dotted = x.dotted := by
  have hdigit : ∀ n : Nat, ∀ c ∈ (toString n).toList, Text.isBlank c = false := by
    intro n c hc
    have hgap := Lexer.not_opensGap_of_isDigit c (Binary64.isDigit_of_mem_toString hc)
    rw [Lexer.opensGap, Bool.or_eq_false_iff] at hgap
    exact hgap.1
  have hchars : ∀ c ∈ x.dotted.toList, Text.isBlank c = false := by
    have hpoint : Text.isBlank '.' = false := by decide
    rw [toList_dotted]
    grind
  rw [Text.trim, Text.trimChars_eq_self hchars, String.ofList_toList]

end Address

end LogQuery
