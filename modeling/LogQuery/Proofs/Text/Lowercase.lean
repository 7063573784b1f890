import LogQuery.Proofs.Token.Word

namespace LogQuery

open Lexer

namespace Text

/-- All characters of the text are ASCII. -/
def IsAscii (s : String) : Prop := ∀ c ∈ s.toList, c.toNat < 128

variable {c d : Char} {before cs : List Char}

/-! ### Single characters -/

lemma toNat_ofNat {n : Nat} (h : n.isValidChar) : (Char.ofNat n).toNat = n := by
  rw [Char.ofNat, dif_pos h]
  rfl

/-- Of the letters from 128 on, only the sign of the kelvin becomes an ASCII letter. -/
lemma runLowercase?_ascii (h : runLowercase? c = some d) (hd : d.toNat < 128) : d = 'k' := by
  have hall : ∀ run ∈ lowercaseRuns, (run.1 = 0x212A ∧ run.2.1 = 0x212A ∧ run.2.2.2 = -8383) ∨
      128 ≤ run.1 + run.2.2.2 ∧
        (run.2.1 + run.2.2.2 < 0xD800 ∨
          0xE000 ≤ run.1 + run.2.2.2 ∧ run.2.1 + run.2.2.2 < 0x110000) := by
    decide +kernel
  obtain ⟨⟨first, last, step, distance⟩, hfind, rfl⟩ := Option.map_eq_some_iff.1 h
  have hrun := hall _ (List.mem_of_find?_eq_some hfind)
  have hrange := List.find?_some hfind
  simp only [Bool.and_eq_true, decide_eq_true_eq] at hrun hrange hd ⊢
  obtain ⟨⟨hfirst, hlast⟩, -⟩ := hrange
  rcases hrun with ⟨rfl, rfl, rfl⟩ | ⟨hlow, hvalid⟩
  · have hc : c.toNat = 0x212A := by omega
    rw [hc]
    rfl
  · rw [toNat_ofNat] at hd
    · omega
    · rw [Nat.isValidChar]
      omega

/-- One letter becomes two characters in lower case, and no other character does. -/
lemma length_lowercaseChar_le (c : Char) : (lowercaseChar c).length ≤ 2 := by
  rw [lowercaseChar]
  split_ifs <;> simp

lemma length_lowercaseAfter_le (before cs : List Char) :
    (lowercaseAfter before cs).length ≤ 2 * cs.length := by
  induction cs generalizing before with
  | nil => exact Nat.zero_le _
  | cons c cs ih =>
    have hmore := ih (c :: before)
    have hchar := length_lowercaseChar_le c
    rw [lowercaseAfter, List.length_append, List.length_cons]
    by_cases hc : c = 'Σ'
    · rw [if_pos hc, List.length_singleton]
      omega
    · rw [if_neg hc]
      omega

/-- A text is at most twice as long in lower case. -/
lemma length_lowercase_le (s : String) : (lowercase s).length ≤ 2 * s.length := by
  rw [lowercase, String.length_ofList, ← String.length_toList]
  exact length_lowercaseAfter_le [] s.toList

/-- What the lower case of a character can be, if it is ASCII. -/
lemma mem_lowercaseChar (h : d ∈ lowercaseChar c) (hd : d.toNat < 128) :
    (c.toNat < 128 ∧ d = c.toLower) ∨ d = 'i' ∨ d = 'k' := by
  rw [lowercaseChar] at h
  split at h
  · next hc => exact .inl ⟨hc, List.mem_singleton.1 h⟩
  · next hc =>
    split at h
    · rcases List.mem_cons.1 h with rfl | h
      · exact .inr (.inl rfl)
      · rw [List.mem_singleton.1 h] at hd
        exact absurd hd (by decide)
    · rw [List.mem_singleton.1 h] at hd ⊢
      cases hrun : runLowercase? c with
      | none =>
        rw [hrun] at hd
        exact absurd hd hc
      | some d =>
        rw [hrun] at hd
        exact .inr (.inr (runLowercase?_ascii hrun hd))

/-- What the lower case of a text is made of, as far as it is ASCII. -/
lemma mem_lowercaseAfter (h : d ∈ lowercaseAfter before cs) (hd : d.toNat < 128) :
    (∃ c ∈ cs, c.toNat < 128 ∧ d = c.toLower) ∨ d = 'i' ∨ d = 'k' := by
  induction cs generalizing before with
  | nil => cases h
  | cons c cs ih =>
    rw [lowercaseAfter] at h
    rcases List.mem_append.1 h with h | h
    · split at h
      · rw [List.mem_singleton.1 h] at hd
        split at hd <;> exact absurd hd (by decide)
      · rcases mem_lowercaseChar h hd with hc | hd
        · exact .inl ⟨c, by simp, hc⟩
        · exact .inr hd
    · rcases ih h with ⟨c', hc', h⟩ | hd
      · exact .inl ⟨c', by simp [hc'], h⟩
      · exact .inr hd

/-! ### Texts -/

lemma lowercaseAfter_ascii (h : ∀ c ∈ cs, c.toNat < 128) :
    lowercaseAfter before cs = cs.map Char.toLower := by
  induction cs generalizing before with
  | nil => rfl
  | cons c cs ih =>
    have hc : c.toNat < 128 := h c (by simp)
    have hsigma : c ≠ 'Σ' := by
      rintro rfl
      exact absurd hc (by decide)
    rw [lowercaseAfter, if_neg hsigma, lowercaseChar, if_pos hc,
      ih fun c' hc' => h c' (by simp [hc'])]
    rfl

end Text

/-- What can be decided for all ASCII characters. -/
lemma forall_ascii {P : Char → Prop} (h : ∀ n < 128, P (Char.ofNat n)) {c : Char}
    (hc : c.toNat < 128) : P c := by
  have hn := h c.toNat hc
  rwa [Char.ofNat_toNat] at hn

lemma toLower_toLower {c : Char} (h : c.toNat < 128) : c.toLower.toLower = c.toLower :=
  forall_ascii (P := fun c => c.toLower.toLower = c.toLower) (by decide) h

open Text

variable {word : String}

lemma lowercase_lowercase (h : IsAscii (lowercase word)) :
    lowercase (lowercase word) = lowercase word := by
  have hsame : ∀ c ∈ (lowercase word).toList, c.toLower = c := by
    intro d hd
    rw [lowercase, String.toList_ofList] at hd
    rcases mem_lowercaseAfter hd (h d (by rwa [lowercase, String.toList_ofList])) with
      ⟨c, -, hc, rfl⟩ | rfl | rfl
    · exact toLower_toLower hc
    · rfl
    · rfl
  conv_lhs => rw [lowercase, lowercaseAfter_ascii h, List.map_congr_left hsame]
  simp

namespace Lexer

lemma isWordChar_toLower {c : Char} (hc : c.toNat < 128) :
    isWordChar c = true → isWordChar c.toLower = true :=
  forall_ascii (P := fun c => isWordChar c = true → isWordChar c.toLower = true)
    (by decide) hc

lemma isWordStart_toLower {c : Char} (hc : c.toNat < 128) :
    isWordStart c = true → isWordStart c.toLower = true :=
  forall_ascii (P := fun c => isWordStart c = true → isWordStart c.toLower = true)
    (by decide) hc

/-- The lower case of a word is a word, if it is made of ASCII characters. -/
lemma IsWord.lowercase (h : IsWord word.toList) (hascii : IsAscii (lowercase word)) :
    IsWord (lowercase word).toList := by
  rw [IsAscii] at hascii
  rw [Text.lowercase, String.toList_ofList] at hascii ⊢
  constructor
  · obtain ⟨c, more, hword⟩ := List.exists_cons_of_ne_nil h.ne_nil
    have hstart := h.start
    rw [hword, List.head?_cons, Option.any_some] at hstart
    rw [hword, lowercaseAfter] at hascii ⊢
    split at hascii
    · have hsigma := hascii _ (List.mem_append_left _ (List.mem_singleton_self _))
      split at hsigma <;> exact absurd hsigma (by decide)
    · next hc =>
      rw [if_neg hc]
      have hne : lowercaseChar c ≠ [] := by
        rw [lowercaseChar]
        split_ifs <;> simp
      obtain ⟨d, rest, hd⟩ := List.exists_cons_of_ne_nil hne
      have hmem : d ∈ lowercaseChar c := by simp [hd]
      rw [hd, List.cons_append, List.head?_cons, Option.any_some]
      rcases mem_lowercaseChar hmem (hascii d (by simp [hd])) with ⟨hc, rfl⟩ | rfl | rfl
      · exact isWordStart_toLower hc hstart
      · decide
      · decide
  · intro d hd
    rcases mem_lowercaseAfter hd (hascii d hd) with ⟨c, hc, hascii, rfl⟩ | rfl | rfl
    · exact isWordChar_toLower hascii (h.inside c hc)
    · decide
    · decide

end Lexer

end LogQuery
