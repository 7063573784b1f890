import LogQuery.Sql.Quoting
import Mathlib.Logic.Function.Basic
import Mathlib.Tactic.Lemma
import Mathlib.Tactic.SplitIfs

namespace LogQuery.Sql

variable {d : Dialect}

/-- What stands for a character is the beginning of no other one's. -/
lemma escapeInName_append_inj {c c' : Char} {cs cs' : List Char}
    (h : escapeInName d c ++ cs = escapeInName d c' ++ cs') : c = c' ∧ cs = cs' := by
  cases d <;> simp only [escapeInName] at h <;> split_ifs at h <;> grind

lemma escapeInName_ne_nil (d : Dialect) (c : Char) : escapeInName d c ≠ [] := by
  cases d <;> simp only [escapeInName] <;> split_ifs <;> exact List.cons_ne_nil _ _

/-- Escaping is injective on texts, since the escape of the first character can be told from the
rest. -/
lemma flatMap_escapeInName_injective (d : Dialect) :
    Function.Injective (List.flatMap (escapeInName d)) := by
  intro cs
  induction cs with
  | nil =>
    intro cs' h
    cases cs' with
    | nil => rfl
    | cons c' cs' => exact absurd (List.append_eq_nil_iff.1 h.symm).1 (escapeInName_ne_nil d c')
  | cons c cs ih =>
    intro cs' h
    cases cs' with
    | nil => exact absurd (List.append_eq_nil_iff.1 h).1 (escapeInName_ne_nil d c)
    | cons c' cs' =>
      obtain ⟨rfl, htail⟩ := escapeInName_append_inj h
      rw [ih htail]

/-- Two names have different quoted texts. -/
lemma quoteName_injective (d : Dialect) : Function.Injective (quoteName d) := by
  intro name name' h
  have htext := List.append_cancel_right (List.cons.inj (String.ofList_injective h)).2
  exact String.toList_injective (flatMap_escapeInName_injective d htext)

/-- A quoted name begins with a quote, and no plain name does. -/
lemma quoteName_ne_of_isPlainName {name : String} (h : isPlainName name = true) (name' : String) :
    quoteName d name' ≠ name := by
  rintro rfl
  rw [isPlainName, quoteName, String.toList_ofList] at h
  cases d <;> cases h

/-- The text of a name determines it. -/
theorem identifier_injective (d : Dialect) : Function.Injective (identifier d) := by
  intro name name' h
  simp only [identifier] at h
  split_ifs at h with hplain hplain' hplain'
  · exact h
  · exact absurd h.symm (quoteName_ne_of_isPlainName hplain name')
  · exact absurd h (quoteName_ne_of_isPlainName hplain' name)
  · exact quoteName_injective d h

end LogQuery.Sql
