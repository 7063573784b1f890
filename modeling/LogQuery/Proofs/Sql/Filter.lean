import LogQuery.Compile.Condition
import LogQuery.Proofs.Syntax.Meaning
import LogQuery.Sql.Printer

namespace LogQuery.Sql

inductive FilterWord where
  | test (t : Test)
  | not | and | or | lParen | rParen

namespace FilterWord

/-- The word as it is written, with the blanks around it. -/
def text (d : Dialect) : FilterWord → String
  | .test t => (t.comparison.toSql d (Column.ofField t.field) t.value).render d
  | .not => "NOT "
  | .and => " AND "
  | .or => " OR "
  | .lParen => "("
  | .rParen => ")"

def ofConnective : Connective → FilterWord
  | .and => .and
  | .or => .or

def test? : FilterWord → Option Test
  | .test t => some t
  | _ => none

end FilterWord

def spelled (d : Dialect) (words : List FilterWord) : String :=
  String.join (words.map (FilterWord.text d))

/-- The levels at which words are read, from the loosest to the tightest. -/
inductive FilterLevel where
  | disjunction | conjunction | operand

/-- The level at which operands are joined by a connective. -/
def FilterLevel.ofConnective : Connective → FilterLevel
  | .and => .conjunction
  | .or => .disjunction

/-- The words have a value by the rules of SQL, given which comparisons hold: `NOT` binds tighter
than `AND`, and `AND` tighter than `OR`. -/
inductive Means (truth : Test → Bool) : FilterLevel → List FilterWord → Bool → Prop where
  | test (t : Test) : Means truth .operand [.test t] (truth t)
  | not {words : List FilterWord} {v : Bool} :
      Means truth .operand words v → Means truth .operand (.not :: words) !v
  | parens {words : List FilterWord} {v : Bool} :
      Means truth .disjunction words v →
        Means truth .operand (.lParen :: words ++ [.rParen]) v
  | operand {words : List FilterWord} {v : Bool} :
      Means truth .operand words v → Means truth .conjunction words v
  | and {words words' : List FilterWord} {v v' : Bool} :
      Means truth .conjunction words v → Means truth .operand words' v' →
        Means truth .conjunction (words ++ .and :: words') (v && v')
  | conjunction {words : List FilterWord} {v : Bool} :
      Means truth .conjunction words v → Means truth .disjunction words v
  | or {words words' : List FilterWord} {v v' : Bool} :
      Means truth .disjunction words v → Means truth .conjunction words' v' →
        Means truth .disjunction (words ++ .or :: words') (v || v')

/-! ### One reading only -/

/-- What a reader remembers who takes one word after the other: whether some conjunction that is
complete holds, whether what there is of the last one holds, and whether what comes next is
negated. -/
structure FilterFrame where
  some : Bool
  all : Bool
  flip : Bool

namespace FilterFrame

/-- The frame in front of the first word. -/
def start : FilterFrame := ⟨false, true, false⟩

def operand (f : FilterFrame) (v : Bool) : FilterFrame := ⟨f.some, f.all && (f.flip ^^ v), false⟩

def value (f : FilterFrame) : Bool := f.some || f.all

/-- The frame behind a word, together with the frames in front of the parentheses that are open.
A parenthesis that was not opened is passed over. -/
def next (truth : Test → Bool) : FilterFrame × List FilterFrame → FilterWord →
    FilterFrame × List FilterFrame
  | (f, outer), .test t => (f.operand (truth t), outer)
  | (f, outer), .not => (⟨f.some, f.all, !f.flip⟩, outer)
  | (f, outer), .and => (f, outer)
  | (f, outer), .or => (⟨f.some || f.all, true, f.flip⟩, outer)
  | (f, outer), .lParen => (start, f :: outer)
  | (f, g :: outer), .rParen => (g.operand f.value, outer)
  | (f, []), .rParen => (f, [])

def after (truth : Test → Bool) (state : FilterFrame × List FilterFrame)
    (words : List FilterWord) : FilterFrame × List FilterFrame := words.foldl (next truth) state

end FilterFrame

/-- What a word-by-word reader makes of words at each level. -/
def FilterFrame.Agrees (truth : Test → Bool) (words : List FilterWord) (v : Bool) :
    FilterLevel → Prop
  | .operand => ∀ f outer, after truth (f, outer) words = (f.operand v, outer)
  | .conjunction => ∀ some all outer,
      after truth (⟨some, all, false⟩, outer) words = (⟨some, all && v, false⟩, outer)
  | .disjunction => ∀ outer, ∃ f : FilterFrame,
      after truth (start, outer) words = (f, outer) ∧ f.flip = false ∧ f.value = v

namespace Means

open FilterFrame

variable {truth : Test → Bool} {level : FilterLevel} {words : List FilterWord} {v v' : Bool}

/-- A derivation of a truth value is what the reader of the words finds. -/
lemma agrees (h : Means truth level words v) : Agrees truth words v level := by
  induction h with
  | test t =>
    intro f outer
    rfl
  | not _ ih =>
    intro f outer
    have hrest := ih ⟨f.some, f.all, !f.flip⟩ outer
    simp only [after, List.foldl_cons, next] at hrest ⊢
    rw [hrest]
    simp [FilterFrame.operand]
  | parens _ ih =>
    intro f outer
    obtain ⟨g, hg, -, rfl⟩ := ih (f :: outer)
    simp only [after, List.cons_append, List.foldl_cons, List.foldl_append, next] at hg ⊢
    rw [hg]
    rfl
  | operand _ ih =>
    intro some all outer
    rw [ih]
    simp [FilterFrame.operand]
  | and _ _ ih ih' =>
    intro some all outer
    have hfirst := ih some all outer
    simp only [after, List.foldl_append, List.foldl_cons, next] at hfirst ⊢
    rw [hfirst, ← after, ih']
    simp [FilterFrame.operand, Bool.and_assoc]
  | conjunction _ ih =>
    intro outer
    refine ⟨_, ih false true outer, rfl, ?_⟩
    simp [value]
  | @or _ _ _ v' _ _ ih ih' =>
    intro outer
    obtain ⟨f, hf, hflip, rfl⟩ := ih outer
    refine ⟨⟨f.some || f.all, true && v', false⟩, ?_, rfl, ?_⟩
    · simp only [after, List.foldl_append, List.foldl_cons, next] at hf ⊢
      rw [hf, hflip]
      exact ih' (f.some || f.all) true outer
    · simp [value]

/-- Words have at most one value as a whole. -/
theorem unique (h : Means truth .disjunction words v) (h' : Means truth .disjunction words v') :
    v = v' := by
  obtain ⟨f, hf, -, rfl⟩ := h.agrees []
  obtain ⟨f', hf', -, rfl⟩ := h'.agrees []
  rw [hf] at hf'
  cases hf'
  rfl

end Means

end LogQuery.Sql
