import LogQuery.Pattern.Groups
import Mathlib.Algebra.Order.Ring.Nat
import Mathlib.Tactic.Lemma
import Mathlib.Tactic.SplitIfs

namespace LogQuery.Pattern

/-! ### Openings -/

/-- The openings follow one another, none in front of an index. -/
structure Ascending (index : Nat) (openings : List GroupOpening) : Prop where
  least : ∀ g ∈ openings, index ≤ g.start
  pairwise : openings.Pairwise (·.start ≤ ·.start)

lemma Ascending.mono {index index' : Nat} {openings : List GroupOpening}
    (h : Ascending index openings) (hle : index' ≤ index) : Ascending index' openings where
  least g hg := hle.trans (h.least g hg)
  pairwise := h.pairwise

@[simp] lemma start_openingAt (start : Nat) (rest : List Char) :
    (openingAt start rest).start = start := by
  rw [openingAt]
  dsimp only
  split
  · rfl
  · split_ifs <;> rfl

/-- The scan finds openings from left to right. -/
lemma ascending_scanFrom (state : ScanState) (index : Nat) (cs : List Char) :
    Ascending index (scanFrom state index cs) := by
  fun_induction scanFrom state index cs with
  | case1 => exact ⟨by simp, .nil⟩
  | case2 _ _ _ _ ih => exact ih.mono (Nat.le_add_right _ 2)
  | case3 _ _ _ _ _ later _ ih =>
    refine ⟨fun g hg => ?_, List.pairwise_cons.2 ⟨fun g hg => ?_, ih.pairwise⟩⟩
    · rcases List.mem_cons.1 hg with rfl | hg
      · simp
      · exact (Nat.le_succ _).trans (ih.least g hg)
    · rw [start_openingAt]
      exact (Nat.le_succ _).trans (ih.least g hg)
  | case4 _ _ _ _ _ later _ ih => exact ih.mono (Nat.le_succ _)

/-- The scan finds at most one opening at each character. -/
lemma length_scanFrom_le (state : ScanState) (index : Nat) (cs : List Char) :
    (scanFrom state index cs).length ≤ cs.length := by
  fun_induction scanFrom state index cs with
  | case1 => exact Nat.le_refl _
  | case2 _ _ _ rest ih =>
    simp only [List.length_cons]
    omega
  | case3 _ _ _ _ _ later _ ih => exact Nat.succ_le_succ ih
  | case4 _ _ _ _ _ later _ ih => exact ih.trans (Nat.le_succ _)

/-! ### Names -/

lemma length_headerName_le {rest after : List Char} {sign : Nat}
    (h : headerName? rest = some (sign, after)) : after.length ≤ rest.length := by
  rw [headerName?.eq_def] at h
  split at h <;> cases h <;> simp only [List.length_cons] <;> omega

/-- The name of a group is a part of the text behind its parenthesis. -/
lemma length_name_openingAt_le {start : Nat} {rest : List Char} {name : String}
    (h : (openingAt start rest).kind = .named name) : name.length ≤ rest.length := by
  rw [openingAt] at h
  dsimp only at h
  split at h
  · split_ifs at h
  · next sign after hheader =>
    split_ifs at h
    cases h
    rw [String.length_ofList]
    exact (List.takeWhile_prefix _).length_le.trans (length_headerName_le hheader)

/-- The names that the scan finds are parts of the text. -/
lemma length_name_scanFrom_le {state : ScanState} {index : Nat} {cs : List Char} {name : String} :
    ∀ g ∈ scanFrom state index cs, g.kind = .named name → name.length ≤ cs.length := by
  fun_induction scanFrom state index cs with
  | case1 => simp
  | case2 _ _ _ rest ih =>
    intro g hg hkind
    have := ih g hg hkind
    simp only [List.length_cons]
    omega
  | case3 _ _ _ _ _ later _ ih =>
    intro g hg hkind
    refine Nat.le_succ_of_le ?_
    rcases List.mem_cons.1 hg with rfl | hg
    · exact length_name_openingAt_le hkind
    · exact ih g hg hkind
  | case4 _ _ _ _ _ later _ ih => exact fun g hg hkind => Nat.le_succ_of_le (ih g hg hkind)

lemma length_namedGroups_le (pattern : String) :
    (namedGroups pattern).length ≤ pattern.length := by
  rw [namedGroups, ← pattern.length_toList]
  exact (List.length_filterMap_le _ _).trans (length_scanFrom_le _ _ _)

lemma length_le_of_mem_namedGroups {pattern name : String} (h : name ∈ namedGroups pattern) :
    name.length ≤ pattern.length := by
  obtain ⟨g, hg, hname⟩ := List.mem_filterMap.1 h
  rw [← pattern.length_toList]
  refine length_name_scanFrom_le g hg ?_
  split at hname
  · cases hname
    assumption
  · cases hname

/-! ### Patterns in which one group captures -/

lemma length_isolatedOpening_le {name : String} {kind : GroupKind} {opening : List Char}
    (h : isolatedOpening name kind = some opening) : opening.length ≤ 3 := by
  cases kind with
  | named n =>
    cases h
    split_ifs <;> simp
  | plain =>
    cases h
    simp
  | nonCapturing => cases h

/-- The induction is on the openings; what was done reaches at least as far as the opening
before. -/
lemma length_spliceFrom_le (cs : List Char) (name : String) {index done : Nat}
    {openings : List GroupOpening} (h : Ascending index openings) (hdone : index ≤ done) :
    (spliceFrom cs name done openings).length ≤ cs.length - index + 3 * openings.length := by
  induction openings generalizing index done with
  | nil =>
    rw [spliceFrom, List.length_drop]
    exact (Nat.sub_le_sub_left hdone _).trans (Nat.le_add_right _ _)
  | cons g rest ih =>
    have hrest := List.pairwise_cons.1 h.pairwise
    have hstart := h.least g (by simp)
    rw [spliceFrom, List.length_cons]
    split
    · have := ih ⟨fun g' hg' => h.least g' (by simp [hg']), hrest.2⟩ hdone
      omega
    · next opening hopening =>
      have hlater := ih ⟨hrest.1, hrest.2⟩
        (show g.start ≤ g.start + 1 + g.headerLength by omega)
      have hthree := length_isolatedOpening_le hopening
      simp only [List.length_append, List.length_take, List.length_drop]
      omega

/-- Isolating a group adds at most three characters at each parenthesis. -/
lemma length_isolateGroup_le (pattern name : String) :
    (isolateGroup pattern name).length ≤ 4 * pattern.length := by
  have hsplice := length_spliceFrom_le pattern.toList name
    (ascending_scanFrom .outside 0 pattern.toList) (Nat.le_refl 0)
  have hcount := length_scanFrom_le .outside 0 pattern.toList
  rw [String.length_toList] at hsplice hcount
  rw [isolateGroup, String.length_ofList, scan]
  omega

end LogQuery.Pattern
