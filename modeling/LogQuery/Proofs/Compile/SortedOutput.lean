import LogQuery.Proofs.Compile.Projection
import LogQuery.Proofs.Sql.Name

namespace LogQuery

/-! ### Names that are no aliases -/

/-- No two names of the table of aliases are equal up to the case of letters. -/
lemma Column.eq_of_mem_aliases :
    ∀ p ∈ Column.aliases, ∀ q ∈ Column.aliases,
      p.1.toList.map Char.toLower = q.1.toList.map Char.toLower → p = q := by decide

/-- A name stands for itself just if it is no other column's alias, in any case of letters. -/
lemma Column.ofField_eq_self_iff {name : String} :
    Column.ofField name = name ↔
      ∀ p ∈ Column.aliases, Text.equalIgnoringCase p.1 name = true → p.2 = name := by
  rw [Column.ofField]
  cases hfind : Column.aliases.find? fun p => Text.equalIgnoringCase p.1 name with
  | none =>
    refine iff_of_true rfl fun p hp hname => ?_
    exact absurd hname (List.find?_eq_none.1 hfind p hp)
  | some q =>
    have hq := List.mem_of_find?_eq_some hfind
    have hqname := List.find?_some hfind
    constructor
    · intro h p hp hname
      have hsame := Column.eq_of_mem_aliases p hp q hq
        ((beq_iff_eq.1 hname).trans (beq_iff_eq.1 hqname).symm)
      rw [hsame]
      exact h
    · exact fun h => h q hq hqname

namespace ComputedColumn

variable {computed : List ComputedColumn} {name : String}

/-- A field refers to the column, by its name or as the column that it is computed from. -/
def Answers (c : ComputedColumn) (field : String) : Prop :=
  c.name = field ∨ c.source = some (Column.ofField field)

/-- A name leads to what bears it: to a computed column, behind which no other one stands in for
the column of that name, or to a column of the table, if no computed column answers to the name and
it is no other column's alias. -/
def Reaches (computed : List ComputedColumn) (name : String) : Prop :=
  (∃ front c back, computed = front ++ c :: back ∧ c.name = name ∧
    ∀ c' ∈ back, c'.source = some (Column.ofField name) → c'.name = name) ∨
  (∀ c ∈ computed, ¬ c.Answers name) ∧
    ∀ p ∈ Column.aliases, Text.equalIgnoringCase p.1 name = true → p.2 = name

lemma lookup?_eq_none :
    lookup? computed name = none ↔ ∀ c ∈ computed, ¬ c.Answers name := by
  simp [lookup?, Answers]

/-- The column that a name refers to is the last one that answers to it. -/
lemma lookup?_eq_some {c : ComputedColumn} :
    lookup? computed name = some c ↔ c.Answers name ∧
      ∃ front back, computed = front ++ c :: back ∧ ∀ c' ∈ back, ¬ c'.Answers name := by
  rw [lookup?, List.find?_eq_some_iff_append]
  refine and_congr (by simp [Answers]) ⟨?_, ?_⟩
  · rintro ⟨back, front, hcomputed, hback⟩
    refine ⟨front.reverse, back.reverse, ?_, ?_⟩
    · rw [← List.reverse_reverse computed, hcomputed]
      simp
    · intro c' hc'
      simpa [Answers] using hback c' (List.mem_reverse.1 hc')
  · rintro ⟨front, back, rfl, hback⟩
    refine ⟨back.reverse, front.reverse, by simp, ?_⟩
    intro c' hc'
    simpa [Answers] using hback c' (List.mem_reverse.1 hc')

/-- A computed column that bears a name is the last one that answers to it, or stands in front of
that one. -/
lemma eq_or_mem_of_lookup? {front back : List ComputedColumn} {c c' : ComputedColumn}
    (h : lookup? (front ++ c' :: back) name = some c) (hname : c'.name = name) :
    c = c' ∨ c ∈ back := by
  obtain ⟨-, front', back', hcomputed, hback'⟩ := lookup?_eq_some.1 h
  have hlater : c' ∉ back' := fun hmem => hback' c' hmem (.inl hname)
  rcases List.append_eq_append_iff.1 hcomputed with ⟨between, -, htail⟩ | ⟨between, -, htail⟩
  · cases between with
    | nil => exact .inl (List.cons.inj htail).1.symm
    | cons b between =>
      right
      rw [(List.cons.inj htail).2]
      simp
  · cases between with
    | nil => exact .inl (List.cons.inj htail).1
    | cons b between =>
      rw [(List.cons.inj htail).2] at hlater
      exact absurd (by simp) hlater

/-- What a name refers to bears that name just if the name leads to what bears it. -/
lemma name_reference_eq_iff : (reference computed name).name = name ↔ Reaches computed name := by
  change (((lookup? computed name).map fun c => ColumnRef.output c.name).getD
    (.table (Column.ofField name))).name = name ↔ _
  cases hlookup : lookup? computed name with
  | none =>
    have hnone := lookup?_eq_none.1 hlookup
    change Column.ofField name = name ↔ _
    rw [Column.ofField_eq_self_iff, Reaches, and_iff_right hnone, or_iff_right]
    rintro ⟨front, c, back, rfl, hname, -⟩
    exact hnone c (by simp) (.inl hname)
  | some c =>
    obtain ⟨hanswers, front, back, hcomputed, hback⟩ := lookup?_eq_some.1 hlookup
    change c.name = name ↔ _
    constructor
    · intro hname
      refine .inl ⟨front, c, back, hcomputed, hname, ?_⟩
      exact fun c' hc' hsource => absurd (.inr hsource) (hback c' hc')
    · rintro (⟨front', c', back', rfl, hname, hstands⟩ | ⟨hnone, -⟩)
      · rcases eq_or_mem_of_lookup? hlookup hname with rfl | hc
        · exact hname
        · exact hanswers.elim id (hstands c hc)
      · exact absurd hanswers (hnone c (by simp [hcomputed]))

end ComputedColumn

/-! ### Keys -/

namespace Pipeline

variable {target : Target} {filter : List Sql.Expr}

/-- The keys of a sort at the end refer to what the stages in front of it have computed. -/
lemma orderBy_sort (stages : List Stage) (keys : List SortKey) :
    (Pipeline.draft ⟨stages ++ [.sort keys]⟩ target filter).orderBy =
      keys.map fun k => ⟨ComputedColumn.reference
        (stages.flatMap (Stage.computed target.dialect)) k.field, k.order⟩ := by
  rw [draft_snoc, Stage.orderBy_apply, computed_draft]
  rfl

/-- Behind any stages, and in either dialect, rows are sorted by the names that a `sort` gives as
they are, just if each of them leads to what bears it. Then an output of that name is what the rows
are sorted by. So `timechart count | sort time` sorts by the column `timestamp` and not by the
output `time`. -/
theorem sorts_by_names_iff (stages : List Stage) (keys : List SortKey) (target : Target)
    (filter : List Sql.Expr) :
    (Pipeline.draft ⟨stages ++ [.sort keys]⟩ target filter).orderBy.map
        (OrderKey.render target.dialect) =
      keys.map (fun k => Sql.identifier target.dialect k.field ++ " " ++ k.order.display) ↔
    ∀ k ∈ keys,
      ComputedColumn.Reaches (stages.flatMap (Stage.computed target.dialect)) k.field := by
  rw [orderBy_sort, List.map_map, List.map_inj_left]
  refine forall₂_congr fun k _ => ?_
  rw [← ComputedColumn.name_reference_eq_iff, Function.comp_apply, OrderKey.render,
    ColumnRef.render, String.append_left_inj, String.append_left_inj,
    (Sql.identifier_injective target.dialect).eq_iff]

/-- A time chart names the start of its intervals `time`, and sorting by that name sorts by a column
of the table. -/
example :
    (Pipeline.draft ⟨[.timechart (.time 1 .hour) [⟨.count, none, none⟩] none,
      .sort [⟨"time", .ascending⟩]]⟩ (.standard .sqlite) []).orderBy =
        [⟨.table "timestamp", .ascending⟩] := by
  decide

end Pipeline

end LogQuery
