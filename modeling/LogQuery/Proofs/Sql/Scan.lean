import LogQuery.Sql.Quoting
import Mathlib.Data.List.Chain
import Mathlib.Tactic.Lemma

/-!
# Scanning SQL

A reader of SQL that knows nothing but quotes, parentheses, semicolons and the signs that open
comments. `Confined d sql` says that it finds nothing in a statement of a dialect that could end
the statement early or hide a part of it: every text and every quoted name is closed, and what
stands outside of them has balanced parentheses, no semicolon and no comment.

A statement is put together from *pieces*, each of which leaves such a reader outside of quotes
and at a known depth. Pieces may be joined in any order, as none of them ends in a sign with which
another could open a comment (`Piece.append`).
-/

namespace LogQuery.Sql

/-! ### Quotes -/

/-- What a pair of quotes holds: a text or a name. -/
inductive Quote where
  | text | name
  deriving DecidableEq, Repr

/-- The character that opens and closes. -/
def Quote.char (d : Dialect) : Quote → Char
  | .text => '\''
  | .name => nameQuote d

/-- Where a scan stands: outside of quotes, inside them, behind a backslash inside them that takes
the meaning from the next character, or behind a quote inside them, which closes them unless it is
doubled. -/
inductive QuoteState where
  | outside
  | inside (q : Quote)
  | escaped (q : Quote)
  | closing (q : Quote)
  deriving DecidableEq, Repr

namespace QuoteState

/-- The state behind a character that stands outside of quotes. -/
def start (d : Dialect) (c : Char) : QuoteState :=
  if c = Quote.char d .text then .inside .text
  else if c = Quote.char d .name then .inside .name
  else .outside

/-- The state behind a character. Only ClickHouse knows escapes. -/
def next (d : Dialect) : QuoteState → Char → QuoteState
  | .outside, c => start d c
  | .inside q, c =>
    if c = q.char d then .closing q
    else if c = '\\' ∧ d = .clickHouse then .escaped q
    else .inside q
  | .escaped q, _ => .inside q
  | .closing q, c => if c = q.char d then .inside q else start d c

/-- Outside of every text and quoted name. -/
def isOutside : QuoteState → Bool
  | .outside | .closing _ => true
  | .inside _ | .escaped _ => false

def after (d : Dialect) (s : QuoteState) (cs : List Char) : QuoteState := cs.foldl (next d) s

end QuoteState

/-- What stands outside of quotes in a text, together with the quotes that close, so that what they
separate stays apart. -/
def outsideText (d : Dialect) (s : QuoteState) : List Char → List Char
  | [] => []
  | c :: cs =>
    if (s.next d c).isOutside then c :: outsideText d (s.next d c) cs
    else outsideText d (s.next d c) cs

/-! ### Outside of quotes -/

/-- How many parentheses are open behind a text, given how many are open in front; none if one
closes that was not opened. -/
def depthAfter : Nat → List Char → Option Nat
  | n, [] => some n
  | n, c :: cs =>
    if c = '(' then depthAfter (n + 1) cs
    else if c = ')' then
      match n with
      | 0 => none
      | n + 1 => depthAfter n cs
    else depthAfter n cs

/-- A statement that a scan finds whole: it ends outside of quotes, and what stands outside of them
has balanced parentheses, no semicolon, and no sign that opens a comment. -/
structure Confined (d : Dialect) (sql : String) : Prop where
  closed : (QuoteState.after d .outside sql.toList).isOutside = true
  balanced : depthAfter 0 (outsideText d .outside sql.toList) = some 0
  no_semicolon : ';' ∉ outsideText d .outside sql.toList
  no_lineComment : ¬ ['-', '-'] <:+: outsideText d .outside sql.toList
  no_blockComment : ¬ ['/', '*'] <:+: outsideText d .outside sql.toList

/-! ### A closing quote may be forgotten -/

namespace QuoteState

/-- The state without the memory of a quote that may close: a doubled quote can as well be read as
the end of one text and the start of the next. -/
def settle : QuoteState → QuoteState
  | .closing _ => .outside
  | s => s

@[simp] lemma isOutside_settle (s : QuoteState) : s.settle.isOutside = s.isOutside := by
  cases s <;> rfl

lemma start_char (d : Dialect) (q : Quote) : start d (q.char d) = .inside q := by
  cases q <;> cases d <;> rfl

@[simp] lemma settle_next_settle (d : Dialect) (s : QuoteState) (c : Char) :
    (s.settle.next d c).settle = (s.next d c).settle := by
  cases s with
  | outside => rfl
  | inside q => rfl
  | escaped q => rfl
  | closing q =>
    by_cases h : c = q.char d
    · simp [settle, next, h, start_char]
    · simp [settle, next, h]

/-- A state may be settled in front of a text: behind it the states settle alike. -/
lemma settle_after_settle (d : Dialect) (s : QuoteState) (cs : List Char) :
    (s.settle.after d cs).settle = (s.after d cs).settle := by
  induction cs generalizing s with
  | nil => cases s <;> rfl
  | cons c cs ih =>
    simp only [after, List.foldl_cons] at ih ⊢
    rw [← ih (s.settle.next d c), ← ih (s.next d c), settle_next_settle]

lemma after_append (d : Dialect) (s : QuoteState) (cs cs' : List Char) :
    s.after d (cs ++ cs') = (s.after d cs).after d cs' := List.foldl_append

end QuoteState

/-- Settling the state in front of a text leaves what is outside of quotes. -/
lemma outsideText_settle (d : Dialect) (s : QuoteState) (cs : List Char) :
    outsideText d s.settle cs = outsideText d s cs := by
  induction cs generalizing s with
  | nil => rfl
  | cons c cs ih =>
    have hout : (s.settle.next d c).isOutside = (s.next d c).isOutside := by
      rw [← QuoteState.isOutside_settle, QuoteState.settle_next_settle,
        QuoteState.isOutside_settle]
    have htail : outsideText d (s.settle.next d c) cs = outsideText d (s.next d c) cs := by
      rw [← ih (s.settle.next d c), QuoteState.settle_next_settle, ih]
    simp only [outsideText, hout, htail]

lemma outsideText_append (d : Dialect) (s : QuoteState) (cs cs' : List Char) :
    outsideText d s (cs ++ cs') = outsideText d s cs ++ outsideText d (s.after d cs) cs' := by
  induction cs generalizing s with
  | nil => rfl
  | cons c cs ih =>
    simp only [List.cons_append, outsideText, ih, QuoteState.after, List.foldl_cons]
    split_ifs <;> rfl

lemma depthAfter_append (n : Nat) (cs cs' : List Char) :
    depthAfter n (cs ++ cs') = (depthAfter n cs).bind fun m => depthAfter m cs' := by
  induction cs generalizing n with
  | nil => rfl
  | cons c cs ih =>
    simp only [List.cons_append, depthAfter]
    split_ifs
    · exact ih _
    · cases n with
      | zero => rfl
      | succ n => exact ih n
    · exact ih n

/-- More open parentheses in front are more open parentheses behind. -/
lemma depthAfter_add {n m : Nat} (k : Nat) {cs : List Char} (h : depthAfter n cs = some m) :
    depthAfter (n + k) cs = some (m + k) := by
  induction cs generalizing n with
  | nil =>
    cases h
    rfl
  | cons c cs ih =>
    simp only [depthAfter] at h ⊢
    split_ifs at h ⊢
    · rw [Nat.add_right_comm]
      exact ih h
    · cases n with
      | zero => cases h
      | succ n =>
        rw [Nat.add_right_comm]
        exact ih h
    · exact ih h

/-! ### Pieces -/

/-- Two characters that may stand next to each other outside of quotes: they open no comment. -/
def MayFollow (c c' : Char) : Prop := ¬ (c = '-' ∧ c' = '-') ∧ ¬ (c = '/' ∧ c' = '*')

instance (c c' : Char) : Decidable (MayFollow c c') := inferInstanceAs (Decidable (_ ∧ _))

/-- A part of a statement that begins and ends outside of quotes, the first time with `i`
parentheses open and the second time with `j`. -/
structure Piece (d : Dialect) (i j : Nat) (text : String) : Prop where
  settled : (QuoteState.after d .outside text.toList).settle = .outside
  depth : depthAfter i (outsideText d .outside text.toList) = some j
  chain : (outsideText d .outside text.toList).IsChain MayFollow
  no_semicolon : ';' ∉ outsideText d .outside text.toList
  ending : ∀ c ∈ (outsideText d .outside text.toList).getLast?, c ≠ '-' ∧ c ≠ '/'

/-- If each character may follow the one in front of it, the others never stand side by side. -/
lemma not_infix_of_isChain {R : Char → Char → Prop} {c c' : Char} {cs : List Char}
    (h : cs.IsChain R) (hR : ¬ R c c') : ¬ [c, c'] <:+: cs := by
  rintro ⟨front, back, rfl⟩
  have hsplit : front ++ [c, c'] ++ back = front ++ c :: c' :: back := by simp
  exact hR (List.isChain_iff_forall_rel_of_append_cons_cons.1 h hsplit)

namespace Piece

variable {d : Dialect} {i j k : Nat} {s t : String}

lemma outsideText_append (hs : Piece d i j s) (t : String) :
    outsideText d .outside (s ++ t).toList =
      outsideText d .outside s.toList ++ outsideText d .outside t.toList := by
  rw [String.toList_append, Sql.outsideText_append, ← outsideText_settle d (.after d .outside _),
    hs.settled]

/-- Pieces are set one behind the other where their depths meet. -/
lemma append (hs : Piece d i j s) (ht : Piece d j k t) : Piece d i k (s ++ t) := by
  have hafter := hs.outsideText_append t
  constructor
  · rw [String.toList_append, QuoteState.after_append, ← QuoteState.settle_after_settle,
      hs.settled, ht.settled]
  · rw [hafter, depthAfter_append, hs.depth]
    exact ht.depth
  · rw [hafter]
    refine hs.chain.append ht.chain fun c hc c' _ => ?_
    have := hs.ending c hc
    exact ⟨fun h => this.1 h.1, fun h => this.2 h.1⟩
  · rw [hafter, List.mem_append, not_or]
    exact ⟨hs.no_semicolon, ht.no_semicolon⟩
  · rw [hafter]
    intro c hc
    rw [List.getLast?_append, Option.mem_def, Option.or_eq_some_iff] at hc
    rcases hc with hc | ⟨-, hc⟩
    · exact ht.ending c hc
    · exact hs.ending c hc

/-- A piece is one under any number of further parentheses. -/
lemma raise (k : Nat) (h : Piece d i j s) : Piece d (k + i) (k + j) s := by
  have hdepth := depthAfter_add k h.depth
  rw [Nat.add_comm i, Nat.add_comm j] at hdepth
  exact { h with depth := hdepth }

/-- A piece from depth zero to depth zero is confined. -/
lemma confined (h : Piece d 0 0 s) : Confined d s where
  closed := by
    rw [← QuoteState.isOutside_settle, h.settled]
    rfl
  balanced := h.depth
  no_semicolon := h.no_semicolon
  no_lineComment := not_infix_of_isChain h.chain (by decide)
  no_blockComment := not_infix_of_isChain h.chain (by decide)

instance : Decidable (Piece d i j s) :=
  decidable_of_iff
    ((QuoteState.after d .outside s.toList).settle = .outside ∧
      depthAfter i (outsideText d .outside s.toList) = some j ∧
      (outsideText d .outside s.toList).IsChain MayFollow ∧
      ';' ∉ outsideText d .outside s.toList ∧
      (outsideText d .outside s.toList).getLast?.all (fun c => c ≠ '-' ∧ c ≠ '/') = true)
    ⟨fun ⟨h₁, h₂, h₃, h₄, h₅⟩ => ⟨h₁, h₂, h₃, h₄, by simpa [Option.all_eq_true] using h₅⟩,
      fun h => ⟨h.settled, h.depth, h.chain, h.no_semicolon,
        by simpa [Option.all_eq_true] using h.ending⟩⟩

/-- A fixed text is a piece under any number of parentheses if a scan finds it to be one under as
few as it needs. -/
lemma fixed (k i j : Nat) (h : ∀ d ∈ Dialect.all, Piece d i j s) :
    Piece d (k + i) (k + j) s := (h d (by cases d <;> decide)).raise k

/-- A fixed text with balanced parentheses. -/
lemma constant (h : ∀ d ∈ Dialect.all, Piece d 0 0 s) : Piece d i i s :=
  fixed i 0 0 h

end Piece

example : Piece .clickHouse 0 1 "CAST('a'';', " := by decide

end LogQuery.Sql
