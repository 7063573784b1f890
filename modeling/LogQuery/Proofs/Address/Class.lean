import LogQuery.Address.Class
import Mathlib.Data.Bool.Basic
import Mathlib.Tactic.ByContra
import Mathlib.Tactic.Lemma

namespace LogQuery

open AddressRange

variable {x : Address} {r r' : AddressRange} {c : AddressClass} {classes : List AddressClass}

namespace AddressRange

/-- The ranges have no address in common. -/
def Apart (r r' : AddressRange) : Prop :=
  r.last.value < r'.first.value ∨ r'.last.value < r.first.value

instance : DecidableRel Apart := fun r r' =>
  inferInstanceAs (Decidable (r.last.value < r'.first.value ∨ r'.last.value < r.first.value))

/-- No address lies in two ranges that are apart. -/
lemma Apart.not_contains (h : r.Apart r') (hr : r.contains x = true) : r'.contains x = false := by
  simp only [contains, Bool.and_eq_true, decide_eq_true_eq] at hr
  simp only [contains, Bool.and_eq_false_iff, decide_eq_false_iff_not]
  rcases h with h | h <;> omega

/-- Two classes have no address in common. -/
lemma apart_of_mem_classified :
    ∀ entry ∈ classified, ∀ entry' ∈ classified, entry.2 ≠ entry'.2 → entry.1.Apart entry'.1 := by
  decide

lemma ne_public_of_mem_classified : ∀ entry ∈ classified, entry.2 ≠ .public_ := by
  decide

/-- Every class but the public one has ranges. -/
lemma ofClasses_ne_nil (h : c ∈ classes) (hc : c ≠ .public_) : ofClasses classes ≠ [] := by
  have hrange : ∃ entry ∈ classified, entry.2 = c := by
    cases c with
    | public_ => exact absurd rfl hc
    | _ => decide
  obtain ⟨entry, hentry, rfl⟩ := hrange
  have hmem : entry.1 ∈ ofClasses classes := by
    rw [ofClasses, List.mem_map]
    exact ⟨entry, List.mem_filter.2 ⟨hentry, by simpa using h⟩, rfl⟩
  exact List.ne_nil_of_mem hmem

end AddressRange

namespace Address

/-- The class of an address is that of some range that holds it, if it is not public. -/
lemma class_cases (x : Address) :
    (x.class_ = .public_ ∧ ∀ entry ∈ classified, entry.1.contains x = false) ∨
      ∃ entry ∈ classified, entry.1.contains x = true ∧ entry.2 = x.class_ := by
  have hclass : x.class_ =
      ((classified.find? fun entry => entry.1.contains x).map (·.2)).getD .public_ := rfl
  cases hfind : classified.find? fun entry => entry.1.contains x with
  | none =>
    left
    rw [hfind] at hclass
    exact ⟨hclass, by simpa using List.find?_eq_none.1 hfind⟩
  | some entry =>
    right
    rw [hfind] at hclass
    have hholds := List.find?_some hfind
    exact ⟨entry, List.mem_of_find?_eq_some hfind, hholds, hclass.symm⟩

/-- Any range that holds an address has its class. -/
theorem class_eq_of_contains (hmem : (r, c) ∈ classified) (hr : r.contains x = true) :
    x.class_ = c := by
  obtain ⟨-, hpublic⟩ | ⟨entry, hentry, hholds, hclass⟩ := x.class_cases
  · exact absurd hr (by simp [hpublic _ hmem])
  · rw [← hclass]
    by_contra hne
    have happart := apart_of_mem_classified entry hentry (r, c) hmem hne
    exact absurd hr (by simp [happart.not_contains hholds])

/-- An address is public exactly if it lies in no range. -/
lemma any_classified (x : Address) :
    (classified.map (·.1)).any (·.contains x) = decide (x.class_ ≠ .public_) := by
  rw [Bool.eq_iff_iff, List.any_map, List.any_eq_true, decide_eq_true_eq]
  constructor
  · rintro ⟨⟨r, c⟩, hmem, hr⟩
    rw [class_eq_of_contains hmem hr]
    exact ne_public_of_mem_classified _ hmem
  · intro hclass
    obtain ⟨hpublic, -⟩ | ⟨entry, hentry, hholds, -⟩ := x.class_cases
    · exact absurd hpublic hclass
    · exact ⟨entry, hentry, hholds⟩

/-- An address has one of some classes exactly if it lies in one of their ranges. -/
theorem any_ofClasses (x : Address) (h : .public_ ∉ classes) :
    (ofClasses classes).any (·.contains x) = classes.contains x.class_ := by
  rw [Bool.eq_iff_iff, ofClasses, List.any_map, List.any_filter, List.any_eq_true]
  simp only [Bool.and_eq_true, List.contains_iff_mem, Function.comp]
  constructor
  · rintro ⟨⟨r, c⟩, hmem, hc, hr⟩
    rw [class_eq_of_contains hmem hr]
    exact hc
  · intro hclass
    obtain ⟨hpublic, -⟩ | ⟨entry, hentry, hholds, hc⟩ := x.class_cases
    · exact absurd (hpublic ▸ hclass) h
    · exact ⟨entry, hentry, hc ▸ hclass, hholds⟩

end Address

end LogQuery
