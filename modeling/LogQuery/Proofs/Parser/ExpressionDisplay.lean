import LogQuery.CommandLine.Libraries
import LogQuery.Proofs.Parser.ExpressionDerivation
import LogQuery.Proofs.Parser.SingleStage
import LogQuery.Proofs.Syntax.Part
import LogQuery.Proofs.Text.Lowercase
import LogQuery.Proofs.Token.Value

namespace LogQuery

open Lexer

/-! ### What is read can be written -/

namespace EvalExpr

/-- An expression of which every literal, field and function is what tokens can stand for. -/
inductive Written : EvalExpr → Prop where
  | literal {value : Value} (h : value.Written) : Written (.literal value)
  | field {name : String} (h : IsWord name.toList)
      (hnull : Text.equalIgnoringCase name "null" = false) : Written (.field name)
  | binary {op : BinaryOperator} {left right : EvalExpr} (hleft : Written left)
      (hright : Written right) : Written (.binary op left right)
  | call {word : String} {args : List EvalExpr} (h : IsWord word.toList)
      (hargs : ∀ a ∈ args, Written a) : Written (.call (Text.lowercase word) args)

end EvalExpr

namespace Parser

variable {level : ExprLevel} {n : Nat} {ts : List Token} {e : EvalExpr}

lemma numberLiteral_written {t : Token} (h : t.IsGenuine) (ht : t.kind = .number) :
    (numberLiteral t.text).Written := by
  have hstring : (Value.string t.text).Written := h.written_string (by rw [ht]; rfl)
  rw [numberLiteral]
  split
  · split
    · exact .number ‹_›
    · exact hstring
  · exact hstring

/-- The induction is on the derivation. -/
lemma DerivesExpr.written (h : DerivesExpr level n ts e) (hts : ∀ t ∈ ts, t.IsGenuine) :
    e.Written := by
  induction h with
  | single _ ih => exact ih hts
  | chain _ _ _ _ _ ih ih' | compare _ _ _ _ ih ih' =>
    exact .binary (ih fun u hu => hts u (by simp [hu])) (ih' fun u hu => hts u (by simp [hu]))
  | minus _ _ ih => exact .binary (.literal (.number rfl)) (ih fun u hu => hts u (by simp [hu]))
  | number hkind => exact .literal (numberLiteral_written (hts _ (by simp)) hkind)
  | string hkind => exact .literal (.string ((hts _ (by simp)).string hkind))
  | regex hkind => exact .literal (.regex ((hts _ (by simp)).regex hkind))
  | null => exact .literal .null
  | field hword hnull => exact .field ((hts _ (by simp)).word hword).1 hnull
  | callEmpty hword => exact .call ((hts _ (by simp)).word hword).1 nofun
  | @call _ _ _ _ _ _ more hword _ _ _ _ _ ih ihmore =>
    refine .call ((hts _ (by simp)).word hword).1 fun a ha => ?_
    rcases List.mem_cons.1 ha with rfl | ha
    · exact ih fun u hu => hts u (by simp [hu])
    · obtain ⟨x, hx, rfl⟩ := List.mem_map.1 ha
      refine ihmore x hx fun u hu => hts u ?_
      simp only [List.mem_cons, List.mem_append, List.mem_flatMap]
      exact .inr (.inr (.inl (.inr ⟨x, hx, .inr hu⟩)))
  | parens _ _ _ ih => exact ih fun u hu => hts u (by simp [hu])

/-- What is read from the tokens of a query can be written again. -/
lemma expression_yields_written : Yields Token.IsGenuine expression EvalExpr.Written := by
  intro s ts e rest hts h
  obtain ⟨front, rfl, hfront⟩ := derives_of_reads_expression h
  exact hfront.written fun t ht => hts t (by simp [ht])

end Parser

/-! ### How expressions are spelled -/

namespace EvalExpr

def spelling : EvalExpr → List (TokenKind × String)
  | .literal value => value.spelling
  | .field name => [(wordKind name.toList, name)]
  | .binary op left right =>
    (.symbol .lParen, "(") :: (left.spelling ++ (op.kind, op.display) :: right.spelling) ++
      [(.symbol .rParen, ")")]
  | .call function args =>
    (wordKind function.toList, function) :: (.symbol .lParen, "(") ::
      [(.symbol .comma, ",")].intercalate (args.map spelling) ++ [(.symbol .rParen, ")")]

/-- A slash behind the expression opens a regular expression: it is a string, a regular expression
or a field that is named by a keyword other than those of aggregations. -/
def PrecedesRegex : EvalExpr → Prop
  | .literal (.string _) | .literal (.regex _) => True
  | .field name => ∃ kind, TokenKind.ofKeyword? name = some kind ∧ kind.isAggregate = false
  | _ => False

/-- What has to hold of an expression for its text to be read back. -/
structure Plain (e : EvalExpr) : Prop where
  /-- The functions that it calls have ASCII names. -/
  calls : ∀ function args, IsPart (.call function args) e → Text.IsAscii function
  /-- Behind whatever it divides, a slash divides. -/
  divides : ∀ left right, IsPart (.binary .divide left right) e → ¬ left.PrecedesRegex
  /-- Its numbers are read back from their plain notation. -/
  numbers : ∀ x, IsPart (.literal (.number x)) e → Binary64.ofText? x.plain = some x

/-- A part of a part is a part. -/
lemma IsPart.trans {e e' e'' : EvalExpr} (h : IsPart e e') (h' : IsPart e' e'') : IsPart e e'' := by
  induction h' with
  | self => exact h
  | left _ ih => exact .left ih
  | right _ ih => exact .right ih
  | arg ha _ ih => exact .arg ha ih

/-- The parts of a plain expression are plain. -/
lemma Plain.of_isPart {e e' : EvalExpr} (h : e.Plain) (hpart : IsPart e' e) : e'.Plain where
  calls function args h' := h.calls function args (h'.trans hpart)
  divides left right h' := h.divides left right (h'.trans hpart)
  numbers x h' := h.numbers x (h'.trans hpart)

variable {previous : Option TokenKind} {rest : List Char} {e : EvalExpr}

/-! ### From the text to the tokens -/

lemma endsOperand_wordKind {name : String}
    (h : ¬ ∃ kind, TokenKind.ofKeyword? name = some kind ∧ kind.isAggregate = false) :
    (wordKind name.toList).endsOperand = true := by
  rw [wordKind, String.ofList_toList]
  cases hkind : TokenKind.ofKeyword? name with
  | none => rfl
  | some kind =>
    have haggregate : kind.isAggregate = true := by
      by_contra hnot
      exact h ⟨kind, hkind, Bool.eq_false_iff.2 hnot⟩
    cases kind <;> first | rfl | cases haggregate

/-- Where a slash divides, the tokens of the expression end an operand. -/
lemma Written.endsOperand (h : e.Written) (hslash : ¬ e.PrecedesRegex) :
    (lastKind previous e.spelling).any TokenKind.endsOperand = true := by
  cases h with
  | @literal value h =>
    rw [spelling]
    cases h with
    | string | regex => exact absurd True.intro hslash
    | number | null =>
      rw [Value.spelling]
      rfl
  | @field name =>
    have hkind := endsOperand_wordKind fun hkeyword => hslash hkeyword
    rw [spelling]
    simpa only [lastKind_cons, lastKind_nil, Option.any_some] using hkind
  | binary | call =>
    rw [spelling]
    simp [TokenKind.endsOperand]

/-- A sign of division is read as one behind an operand only. -/
lemma spells_operator {op : BinaryOperator}
    (h : op = .divide → previous.any TokenKind.endsOperand = true) :
    Spells previous op.display.toList [(op.kind, op.display)] (' ' :: rest) := by
  have hminus : Lexes (previous.any TokenKind.endsOperand) ('-' :: ' ' :: rest)
      (verbatim (.symbol .minus) ['-'] (' ' :: rest)) := .minus nofun
  have hword (word : String) (hword : IsWord word.toList) :
      Spells previous word.toList [(wordKind word.toList, word)] (' ' :: rest) :=
    spells_word hword endsText_space
  cases op with
  | add => exact spells_symbol rfl fun _ => endsText_space
  | subtract => exact hminus.spells fun _ => endsText_space
  | multiply => exact spells_symbol rfl fun _ => endsText_space
  | divide => exact (Lexes.slash (h rfl)).spells fun _ => endsText_space
  | eq | lt | gt => exact spells_comparison rfl rfl
  | ltEq | gtEq => exact spells_comparisonEquals rfl
  | notEq => exact spells_notEqual
  | and => exact hword "AND" (isWord_of_all rfl rfl)
  | or => exact hword "OR" (isWord_of_all rfl rfl)

/-- The text of an expression is lexed into its tokens behind everything that ends no operand. The
induction is on the expression. -/
lemma Written.spells (h : e.Written) (hplain : e.Plain)
    (hprevious : previous.any TokenKind.endsOperand = false) (hrest : EndsText rest) :
    Spells previous e.display.toList e.spelling rest := by
  induction h generalizing previous rest with
  | literal h =>
    rw [display, spelling]
    exact h.spells hprevious hrest
  | field h =>
    rw [display, spelling]
    exact spells_word h hrest
  | @binary op left right hleft _ ihleft ihright =>
    have hoperand : ∀ previous : Option TokenKind, op = .divide →
        (lastKind previous left.spelling).any TokenKind.endsOperand = true := by
      rintro previous rfl
      exact hleft.endsOperand (hplain.divides left right .self)
    have hop : op.kind.endsOperand = false := by cases op <;> rfl
    have hright : Spells (some op.kind) right.display.toList right.spelling (')' :: rest) :=
      ihright (hplain.of_isPart (.right .self)) hop (endsText_cons (by decide))
    have hleft : ∀ more, Spells (some (.symbol .lParen)) left.display.toList left.spelling
        (' ' :: more) := fun more => ihleft (hplain.of_isPart (.left .self)) rfl endsText_space
    have hinner := (hleft _).append (spells_space.append ((spells_operator (hoperand _)).append
      (spells_space.append (hright.append spells_close))))
    have hrow : Spells previous _ _ rest := spells_open.append hinner
    rw [display, spelling]
    simpa using hrow
  | @call word args h _ ih =>
    have hword : IsWord (Text.lowercase word).toList := h.lowercase (hplain.calls _ _ .self)
    have hargs : Spells (some (.symbol .lParen))
        ([',', ' '].intercalate (args.map fun a => a.display.toList))
        ([(.symbol .comma, ",")].intercalate (args.map spelling)) (')' :: rest) := by
      refine .intercalate (fun previous => previous.any TokenKind.endsOperand = false)
        (fun _ _ => spells_comma) (fun _ => endsText_cons (by decide)) (fun _ => rfl)
        (fun a ha previous rest hprevious hrest => ?_) rfl (endsText_cons (by decide))
      exact ih a ha (hplain.of_isPart (.arg ha .self)) hprevious hrest
    have hname : ∀ more, Spells previous (Text.lowercase word).toList _ ('(' :: more) :=
      fun _ => spells_word hword (endsText_cons (by decide))
    have hrow := (hname _).append (spells_open.append (hargs.append spells_close))
    rw [display, spelling]
    simpa [displayAll_eq_map, Function.comp_def] using hrow

/-! ### From the tokens to the expression -/

end EvalExpr

namespace Parser

variable {level : ExprLevel} {n : Nat} {ts ts' : List Token} {e left right : EvalExpr}

/-- What any level derives, the weakest one does. -/
lemma DerivesExpr.disjunction_of (h : DerivesExpr level n ts e) :
    DerivesExpr .disjunction n ts e := by
  have hconjunction : DerivesExpr .conjunction n ts e → DerivesExpr .disjunction n ts e :=
    fun h => .single h
  have hcomparison : DerivesExpr .comparison n ts e → DerivesExpr .disjunction n ts e :=
    fun h => hconjunction (.single h)
  have hsum : DerivesExpr .sum n ts e → DerivesExpr .disjunction n ts e :=
    fun h => hcomparison (.single h)
  have hproduct : DerivesExpr .product n ts e → DerivesExpr .disjunction n ts e :=
    fun h => hsum (.single h)
  cases level with
  | disjunction => exact h
  | conjunction => exact hconjunction h
  | comparison => exact hcomparison h
  | sum => exact hsum h
  | product => exact hproduct h
  | unary => exact hproduct (.single h)
  | primary => exact h.of_primary

/-- An operator between two operands of the tightest level. -/
lemma DerivesExpr.operation {op : BinaryOperator} {t : Token} (ht : t.kind = op.kind)
    (hleft : DerivesExpr .primary n ts left) (hright : DerivesExpr .primary n ts' right) :
    DerivesExpr .disjunction n (ts ++ t :: ts') (.binary op left right) := by
  by_cases hchain : op.level.chains = true
  · exact (DerivesExpr.chain hchain rfl ht hleft.of_primary hright.of_primary).disjunction_of
  · have hlevel : op.level = .comparison := by cases op <;> first | rfl | exact absurd rfl hchain
    exact (DerivesExpr.compare hlevel ht hleft.of_primary hright.of_primary).disjunction_of

/-- Tokens that are spelled like a row of expressions with commas between them. -/
lemma exists_arguments {first : EvalExpr} {args : List EvalExpr} (h : ts.map Token.spelling =
    [(.symbol .comma, ",")].intercalate ((first :: args).map EvalExpr.spelling)) :
    ∃ (front : List Token) (more : List (Token × List Token × EvalExpr)),
      ts = front ++ (more.flatMap fun x => x.1 :: x.2.1) ∧
        front.map Token.spelling = first.spelling ∧ (more.map fun x => x.2.2) = args ∧
        ∀ x ∈ more, x.1.kind = .symbol .comma ∧ x.2.1.map Token.spelling = x.2.2.spelling := by
  induction args generalizing first ts with
  | nil => exact ⟨ts, [], by simp, by simpa using h, rfl, nofun⟩
  | cons second args ih =>
    rw [List.map_cons, List.map_cons, List.intercalate_cons_cons, List.append_assoc,
      List.map_eq_append_iff] at h
    obtain ⟨front, back, rfl, hfront, hback⟩ := h
    rw [List.singleton_append, List.map_eq_cons_iff] at hback
    obtain ⟨comma, back, rfl, hcomma, hback⟩ := hback
    obtain ⟨front', more, rfl, hfront', rfl, hmore⟩ := ih hback
    refine ⟨front, (comma, front', second) :: more, by simp, hfront, rfl, ?_⟩
    exact List.forall_mem_cons.2 ⟨⟨(Token.spelling_eq.1 hcomma).1, hfront'⟩, hmore⟩

/-- The tokens of an expression derive it, where enough levels are left. -/
def Derivable (e : EvalExpr) (n : Nat) : Prop :=
  ∀ ⦃ts : List Token⦄, ts.map Token.spelling = e.spelling → DerivesExpr .primary n ts e

/-- A literal is derived from its spelling if its number is read back. -/
lemma derivable_literal {v : Value} (h : v.Written)
    (hnumber : ∀ x, v = .number x → Binary64.ofText? x.plain = some x) :
    Derivable (.literal v) (n + 1) := by
  intro ts hts
  rw [EvalExpr.spelling] at hts
  cases h with
  | string =>
    rw [Value.spelling, List.map_eq_singleton_iff] at hts
    obtain ⟨t, rfl, ht⟩ := hts
    obtain ⟨hkind, rfl⟩ := Token.spelling_eq.1 ht
    exact .string hkind
  | @number x h =>
    rw [Value.spelling, List.map_eq_singleton_iff] at hts
    obtain ⟨t, rfl, ht⟩ := hts
    obtain ⟨hkind, htext⟩ := Token.spelling_eq.1 ht
    have hliteral : numberLiteral t.text = .number x := by
      rw [numberLiteral, htext, hnumber x rfl]
      exact if_pos h
    rw [← hliteral]
    exact .number hkind
  | regex =>
    rw [Value.spelling, List.map_eq_singleton_iff] at hts
    obtain ⟨t, rfl, ht⟩ := hts
    obtain ⟨hkind, rfl⟩ := Token.spelling_eq.1 ht
    exact .regex hkind
  | null =>
    rw [Value.spelling, List.map_eq_singleton_iff] at hts
    obtain ⟨t, rfl, ht⟩ := hts
    obtain ⟨hkind, htext⟩ := Token.spelling_eq.1 ht
    exact .null (by rw [hkind]; rfl) (by rw [htext]; decide)

/-- A field is derived from its name unless that is read as `null`. -/
lemma derivable_field {name : String} (hnull : Text.equalIgnoringCase name "null" = false) :
    Derivable (.field name) (n + 1) := by
  intro ts hts
  rw [EvalExpr.spelling, List.map_eq_singleton_iff] at hts
  obtain ⟨t, rfl, ht⟩ := hts
  obtain ⟨hkind, rfl⟩ := Token.spelling_eq.1 ht
  refine .field ?_ hnull
  rw [hkind]
  exact isWord_wordKind _

/-- An operation is displayed in parentheses, within which it is derived. -/
lemma derivable_binary {op : BinaryOperator} (hleft : Derivable left n)
    (hright : Derivable right n) : Derivable (.binary op left right) (n + 1) := by
  intro ts hts
  rw [EvalExpr.spelling] at hts
  obtain ⟨opening, inner, closing, rfl, hopen, hinner, hclose⟩ := exists_of_spelling_enclosed hts
  obtain ⟨front, back, rfl, hfront, hback⟩ := List.map_eq_append_iff.1 hinner
  obtain ⟨t, ts, rfl, ht, hts⟩ := List.map_eq_cons_iff.1 hback
  have hop := DerivesExpr.operation (Token.spelling_eq.1 ht).1 (hleft hfront) (hright hts)
  exact .parens (Token.spelling_eq.1 hopen).1 hop (Token.spelling_eq.1 hclose).1

/-- A call is read back if its name is in lower case. -/
lemma derivable_call {function : String} {args : List EvalExpr}
    (hfunction : Text.lowercase function = function) (hargs : ∀ a ∈ args, Derivable a n) :
    Derivable (.call function args) (n + 1) := by
  intro ts hts
  rw [EvalExpr.spelling, List.cons_append, List.map_eq_cons_iff] at hts
  obtain ⟨t, ts, rfl, ht, hts⟩ := hts
  obtain ⟨opening, inner, closing, rfl, hopening, hinner, hclosing⟩ :=
    exists_of_spelling_enclosed hts
  have hopen := (Token.spelling_eq.1 hopening).1
  have hclose := (Token.spelling_eq.1 hclosing).1
  obtain ⟨hkind, rfl⟩ := Token.spelling_eq.1 ht
  have hword : t.kind.isWord = true := by
    rw [hkind]
    exact isWord_wordKind _
  cases args with
  | nil =>
    obtain rfl : inner = [] := by simpa using hinner
    have hcall : DerivesExpr .primary (n + 1) [t, opening, closing] _ :=
      .callEmpty hword hopen hclose
    rwa [hfunction] at hcall
  | cons first args =>
    obtain ⟨front, more, rfl, hfront, rfl, hmore⟩ := exists_arguments hinner
    have hfirst : DerivesExpr .disjunction n front first :=
      (hargs first (by simp) hfront).of_primary
    have hrest : ∀ x ∈ more, DerivesExpr .disjunction n x.2.1 x.2.2 := fun x hx =>
      (hargs x.2.2 (List.mem_cons_of_mem _ (List.mem_map_of_mem hx)) (hmore x hx).2).of_primary
    have hcall := DerivesExpr.call hword hopen hfirst (fun x hx => (hmore x hx).1) hrest hclose
    rwa [hfunction] at hcall

/-- What holds of each member from some number on holds of all of them from some number on. -/
lemma exists_forall_mem {α : Type} {P : α → Nat → Prop} {as : List α}
    (h : ∀ a ∈ as, ∃ N, ∀ n, N ≤ n → P a n) : ∃ N, ∀ n, N ≤ n → ∀ a ∈ as, P a n := by
  induction as with
  | nil => exact ⟨0, nofun⟩
  | cons a as ih =>
    obtain ⟨N, hN⟩ := h a (by simp)
    obtain ⟨M, hM⟩ := ih fun b hb => h b (by simp [hb])
    refine ⟨max N M, fun n hn => List.forall_mem_cons.2 ⟨?_, ?_⟩⟩
    · exact hN n (Nat.le_trans (Nat.le_max_left N M) hn)
    · exact hM n (Nat.le_trans (Nat.le_max_right N M) hn)

/-- The induction is on the expression. -/
lemma exists_derivable (h : e.Written) (hplain : e.Plain) :
    ∃ N, ∀ n, N ≤ n → Derivable e n := by
  have hsucc : ∀ {e : EvalExpr} {N : Nat}, (∀ n, N ≤ n → Derivable e (n + 1)) →
      ∃ N, ∀ n, N ≤ n → Derivable e n := by
    intro e N h
    refine ⟨N + 1, fun n hn => ?_⟩
    obtain ⟨m, rfl⟩ := Nat.exists_eq_add_of_le' hn
    exact h (m + N) (Nat.le_add_left N m)
  induction h with
  | literal h =>
    refine hsucc (N := 0) fun n _ => derivable_literal h fun x hx => hplain.numbers x ?_
    rw [hx]
    exact .self
  | field _ hnull => exact hsucc (N := 0) fun n _ => derivable_field hnull
  | binary _ _ ihleft ihright =>
    obtain ⟨N, hN⟩ := ihleft (hplain.of_isPart (.left .self))
    obtain ⟨M, hM⟩ := ihright (hplain.of_isPart (.right .self))
    refine hsucc (N := max N M) fun n hn => ?_
    obtain ⟨hleft, hright⟩ := Nat.max_le.1 hn
    exact derivable_binary (hN n hleft) (hM n hright)
  | call _ _ ih =>
    obtain ⟨N, hN⟩ := exists_forall_mem fun a ha => ih a ha (hplain.of_isPart (.arg ha .self))
    refine hsucc (N := N) fun n hn => derivable_call ?_ (hN n hn)
    exact lowercase_lowercase (hplain.calls _ _ .self)

/-- An assignment is all of a stage where no level of expressions and no comma goes on. -/
lemma reads_assignment {s : Setting} {field sign : Token} {rest : List Token}
    (hfield : field.kind.isWord = true) (hsign : sign.kind = .symbol .eq)
    (h : DerivesExpr .disjunction n ts e) (hn : n ≤ s.maxDepth)
    (hends : EndsLevel .disjunction rest) (hcomma : ∀ t ∈ rest.head?, t.kind ≠ .symbol .comma) :
    eval.Reads s (field :: sign :: (ts ++ rest)) (.eval [⟨field.text, e⟩]) rest := by
  have hname : fieldName.Reads s (field :: sign :: (ts ++ rest)) field.text
      (sign :: (ts ++ rest)) := by
    refine reads_bind.2 ⟨field, sign :: (ts ++ rest), reads_take.2 rfl, ?_⟩
    rw [fieldNameAt, if_pos hfield]
    exact reads_pure.2 ⟨rfl, rfl⟩
  have hexpression : expression.Reads s (ts ++ rest) e rest :=
    reads_expression.2 ((h.reads _ hn).1 hends)
  have hassignment : assignment.Reads s (field :: sign :: (ts ++ rest)) ⟨field.text, e⟩ rest :=
    reads_bind.2 ⟨_, _, hname, reads_bind.2 ⟨sign, ts ++ rest, reads_expect.2 ⟨rfl, hsign⟩,
      reads_bind.2 ⟨e, rest, hexpression, reads_pure.2 ⟨rfl, rfl⟩⟩⟩⟩
  refine reads_bind.2 ⟨_, rest, hassignment, reads_bind.2 ⟨[], rest, ?_, reads_pure.2 ⟨rfl, rfl⟩⟩⟩
  refine reads_many.2 (.inl ⟨rfl, rfl, stops_iff.2 fun t ht => ?_⟩)
  exact if_neg (hcomma t ht)

/-- One assignment is all of a stage. -/
lemma reads_eval {s : Setting} {field sign : Token} (hfield : field.kind.isWord = true)
    (hsign : sign.kind = .symbol .eq) (h : DerivesExpr .disjunction n ts e) (hn : n ≤ s.maxDepth) :
    eval.Reads s (field :: sign :: ts) (.eval [⟨field.text, e⟩]) [] := by
  have hread : eval.Reads s (field :: sign :: (ts ++ [])) _ [] :=
    reads_assignment hfield hsign h hn nofun nofun
  rwa [List.append_nil] at hread

end Parser

/-! ### Queries -/

/-- The beginning of a query that assigns to `x`. -/
lemma spells_assignment {rest : List Char} : Spells none "eval x = ".toList
    [(.command .eval, "eval"), (.identifier, "x"), (.symbol .eq, "=")] rest := by
  have hcommand : ∀ more, Spells none "eval".toList [(.command .eval, "eval")] (' ' :: more) :=
    fun _ => spells_word (isWord_of_all rfl rfl) endsText_space
  have hfield : ∀ more, Spells (some (.command .eval)) "x".toList [(.identifier, "x")]
      (' ' :: more) := fun _ => spells_word (isWord_of_all rfl rfl) endsText_space
  have hsign : ∀ more, Spells (some .identifier) ['='] [(.symbol .eq, "=")] (' ' :: more) :=
    fun _ => spells_comparison rfl rfl
  exact (hcommand _).append (spells_space.append ((hfield _).append (spells_space.append
    ((hsign _).append spells_space))))

/-- An expression of a query is read back from the text that it displays, if it calls functions with
ASCII names, divides nothing behind which a slash opens a regular expression, and its numbers are
read back from their plain notation. -/
theorem eval_reads_display [Libraries] {limits : ParserLimits} {query : String} {p : Pipeline}
    (hp : parseQuery limits query = .ok p) {assignments : List Assignment}
    (hstage : .eval assignments ∈ p.stages) {a : Assignment} (ha : a ∈ assignments)
    (hplain : a.expr.Plain) :
    ∃ N, ∀ limits' : ParserLimits, N ≤ limits'.maxTokens → N ≤ limits'.maxDepth →
      parseQuery limits' ("eval x = " ++ a.expr.display) = .ok ⟨[.eval [⟨"x", a.expr⟩]]⟩ := by
  have hwritten : a.expr.Written :=
    parseQuery_meets .trivial Parser.expression_yields_written hp
      (fun tokens htokens => genuine_of_mem_tokenize htokens) _ hstage a ha
  obtain ⟨N, hN⟩ := Parser.exists_derivable hwritten hplain
  have hexpr : Spells (some (.symbol .eq)) a.expr.display.toList a.expr.spelling [] :=
    hwritten.spells hplain rfl endsText_nil
  obtain ⟨front, stop, hparted, hfront⟩ := (spells_assignment.append hexpr).exists_tokens .start
  obtain ⟨command, body, rfl, hcommand, hbody⟩ := List.map_eq_cons_iff.1 hfront
  obtain ⟨field, body, rfl, hfield, hbody⟩ := List.map_eq_cons_iff.1 hbody
  obtain ⟨sign, ts, rfl, hsign, hts⟩ := List.map_eq_cons_iff.1 hbody
  obtain ⟨hkind, htext⟩ := Token.spelling_eq.1 hfield
  refine ⟨max N (ts.length + 3), fun limits' htokens hdepth => ?_⟩
  have hderives : Parser.DerivesExpr .disjunction limits'.maxDepth ts a.expr :=
    (hN limits'.maxDepth (Nat.le_trans (Nat.le_max_left _ _) hdepth) hts).of_primary
  have hread : Parser.eval.Reads ⟨stop, limits'.maxDepth⟩ (field :: sign :: ts) _ [] :=
    Parser.reads_eval (by rw [hkind]; rfl) (Token.spelling_eq.1 hsign).1 hderives (Nat.le_refl _)
  rw [htext] at hread
  refine parseQuery_of_stage ?_ (Token.spelling_eq.1 hcommand).1 hread ?_
  · rw [String.toList_append]
    exact hparted.lexing
  · exact Nat.le_trans (Nat.le_max_right _ _) htokens

/-- What `round(a) / x` stands for, if `x` is a number. -/
def quotient (x : Binary64) : EvalExpr :=
  .binary .divide (.call "round" [.field "a"]) (.literal (.number x))

lemma plain_quotient {x : Binary64} (hx : Binary64.ofText? x.plain = some x) :
    (quotient x).Plain := by
  have hascii : "round".toList.all (fun c => decide (c.toNat < 128)) = true := by decide
  refine ⟨fun function args h => ?_, fun left right h => ?_, fun y h => ?_⟩ <;> rw [quotient] at h
  · cases h with
    | left h =>
      cases h with
      | self => exact fun c hc => of_decide_eq_true (List.all_eq_true.1 hascii c hc)
      | arg ha h =>
        rw [List.mem_singleton.1 ha] at h
        cases h
    | right h => cases h
  · cases h with
    | self => exact id
    | left h =>
      cases h with
      | arg ha h =>
        rw [List.mem_singleton.1 ha] at h
        cases h
    | right h => cases h
  · cases h with
    | left h =>
      cases h with
      | arg ha h =>
        rw [List.mem_singleton.1 ha] at h
        cases h
    | right h =>
      cases h
      exact hx

lemma parseQuery_quotient : (match parseQuery ⟨10, 2⟩ "eval y = Round(a)/-2" with
    | .ok ⟨[.eval [⟨"y",
        .binary .divide (.call "round" [.field "a"]) (.literal (.number x))⟩]]⟩ =>
      decide (x.plain = "-2" ∧ Binary64.ofText? x.plain = some x)
    | _ => false) = true := by
  decide +kernel

/-- A call that is divided by a negative number is read back. -/
theorem eval_reads_display_quotient : ∃ x : Binary64,
    parseQuery ⟨10, 2⟩ "eval y = Round(a)/-2" = .ok ⟨[.eval [⟨"y", quotient x⟩]]⟩ ∧
      (quotient x).Plain ∧ ∃ N, ∀ limits : ParserLimits, N ≤ limits.maxTokens →
        N ≤ limits.maxDepth →
          parseQuery limits "eval x = (round(a) / -2)" = .ok ⟨[.eval [⟨"x", quotient x⟩]]⟩ := by
  have hparse := parseQuery_quotient
  split at hparse
  · next x hp =>
    obtain ⟨htext, hround⟩ := of_decide_eq_true hparse
    have hplain := plain_quotient hround
    have hdisplay : (quotient x).display = "(round(a) / -2)" := by
      simp only [quotient, EvalExpr.display, EvalExpr.displayAll, Value.display, htext]
      decide
    have hp : parseQuery ⟨10, 2⟩ "eval y = Round(a)/-2" = .ok ⟨[.eval [⟨"y", quotient x⟩]]⟩ := hp
    have hread := eval_reads_display hp (List.mem_singleton_self (Stage.eval [⟨"y", quotient x⟩]))
      (List.mem_singleton_self (⟨"y", quotient x⟩ : Assignment)) hplain
    simp only [hdisplay] at hread
    exact ⟨x, hp, hplain, hread⟩
  · cases hparse

end LogQuery
