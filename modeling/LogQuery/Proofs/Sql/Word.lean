import LogQuery.Proofs.Sql.Literal
import LogQuery.Proofs.Token.Lexing

namespace LogQuery

open Sql

/-! ### Lower case -/

namespace Text

/-- A class of characters with all that lower case may put in their place: small letters and what
comes behind them, and of the characters of ASCII their own small letters. -/
structure LowerClosed (p : Char → Bool) : Prop where
  small : ∀ c : Char, 97 ≤ c.toNat → p c = true
  zero : p '\x00' = true
  ascii : ∀ n < 128, p (Char.ofNat n) = true → p (Char.ofNat n).toLower = true

/-- Every sign and every quote comes before the small letters. -/
lemma lowerClosed_isBare : LowerClosed isBare where
  small c h :=
    isBare_of_class (p := fun c => decide (97 ≤ c.toNat)) (by decide) (decide_eq_true h)
  zero := by decide
  ascii := by decide

/-- Solid characters stay solid under lowercasing. -/
lemma lowerClosed_isSolid : LowerClosed isSolid where
  small c h :=
    isSolid_of_class (p := fun c => decide (97 ≤ c.toNat)) (by decide) (decide_eq_true h)
  zero := by decide
  ascii := by decide

namespace LowerClosed

variable {p : Char → Bool} (hp : LowerClosed p)
include hp

lemma ofNat {n : Nat} (h : 97 ≤ n) : p (Char.ofNat n) = true := by
  by_cases hvalid : n.isValidChar
  · have hchar : Char.ofNat n = Char.ofNatAux n hvalid := dif_pos hvalid
    rw [hchar]
    exact hp.small _ h
  · have hzero : Char.ofNat n = '\x00' := dif_neg hvalid
    rw [hzero]
    exact hp.zero

/-- An ASCII character stays in the class when it is lowercased. -/
lemma toLower {c : Char} (hc : c.toNat < 128) (h : p c = true) : p c.toLower = true := by
  rw [← Char.ofNat_toNat c] at h ⊢
  exact hp.ascii c.toNat hc h

/-- The distances of the runs lead to small letters and beyond. -/
lemma runLowercase {c c' : Char} (h : runLowercase? c = some c') : p c' = true := by
  obtain ⟨⟨first, last, step, distance⟩, hfind, rfl⟩ := Option.map_eq_some_iff.1 h
  have hall : ∀ r ∈ lowercaseRuns, 97 ≤ (r.1 : Int) + r.2.2.2 := by decide +kernel
  have hrun := hall _ (List.mem_of_find?_eq_some hfind)
  have hfirst := List.find?_some hfind
  simp only [Bool.and_eq_true, decide_eq_true_eq] at hfirst hrun
  refine hp.ofNat ?_
  omega

/-- A character may become several, none of which leaves the class. -/
lemma lowercaseChar {c c' : Char} (h : p c = true) (hmem : c' ∈ Text.lowercaseChar c) :
    p c' = true := by
  rw [Text.lowercaseChar] at hmem
  split_ifs at hmem with hascii hdotted
  · rw [List.mem_singleton.1 hmem]
    exact hp.toLower hascii h
  · rw [List.mem_pair] at hmem
    rcases hmem with rfl | rfl <;> exact hp.small _ (by decide)
  · rw [List.mem_singleton.1 hmem]
    cases hrun : runLowercase? c with
    | none => exact h
    | some c'' => exact hp.runLowercase hrun

/-- No character of a lowercased text leaves the class, nor does a sigma at the end of a word. -/
lemma lowercaseAfter {before cs : List Char} (h : ∀ c ∈ cs, p c = true) :
    ∀ c ∈ Text.lowercaseAfter before cs, p c = true := by
  induction cs generalizing before with
  | nil =>
    intro c hc
    cases hc
  | cons c cs ih =>
    intro c' hc'
    rcases List.mem_append.1 hc' with hc' | hc'
    · split_ifs at hc' with hsigma hend
      · rw [List.mem_singleton.1 hc']
        exact hp.small _ (by decide)
      · rw [List.mem_singleton.1 hc']
        exact hp.small _ (by decide)
      · exact hp.lowercaseChar (h c (by simp)) hc'
    · exact ih (fun x hx => h x (by simp [hx])) c' hc'

end LowerClosed

lemma bare_lowercase {s : String} (h : Bare s) : Bare (lowercase s) :=
  bare_ofList (lowerClosed_isBare.lowercaseAfter h)

lemma solid_lowercase {s : String} (h : Solid s) : Solid (lowercase s) :=
  .ofList (lowerClosed_isSolid.lowercaseAfter h)

end Text

/-! ### Tokens -/

namespace Lexer

/-- A character of a word is no blank, sign or quote. -/
lemma isSolid_of_isWordChar {c : Char} (h : isWordChar c = true) : isSolid c = true :=
  isSolid_of_class (by decide) h

/-- Only the last rule makes words. -/
lemma Lexes.isWordChar_of_isWord {afterOperand : Bool} {cs : List Char} {l : Lexeme}
    (h : Lexes afterOperand cs l) (hword : l.kind.isWord = true) :
    ∀ x ∈ l.text, isWordChar x = true := by
  cases h with
  | word hstart hmore hrest =>
    intro x hx
    rcases List.mem_cons.1 hx with rfl | hx
    · exact isWordChar_of_isWordStart hstart
    · exact hmore x hx
  | _ => cases hword

/-- The text of every word among the tokens is solid. -/
lemma Lexing.solid {previous : Option TokenKind} {position : Position} {cs : List Char}
    {ts : List Token} (h : Lexing previous position cs ts) :
    ∀ t ∈ ts, t.kind.isWord = true → Solid t.text := by
  induction h with
  | stop hgap => simp [TokenKind.isWord, TokenKind.isKeyword]
  | lexeme hgap hl h ih =>
    intro t ht hword
    rcases List.mem_cons.1 ht with rfl | ht
    · exact .ofList fun x hx => isSolid_of_isWordChar (hl.isWordChar_of_isWord hword x hx)
    · exact ih t ht hword

end Lexer

/-- The words of a query are solid. -/
lemma solid_of_mem_tokenize {query : String} {ts : List Token} (h : tokenize query = .ok ts) :
    ∀ t ∈ ts, t.kind.isWord = true → Solid t.text :=
  (Lexer.tokensFrom_eq_ok.1 h).solid

lemma bare_of_mem_tokenize {query : String} {ts : List Token} (h : tokenize query = .ok ts) :
    ∀ t ∈ ts, t.kind.isWord = true → Bare t.text :=
  fun t ht hword => (solid_of_mem_tokenize h t ht hword).bare

end LogQuery
