import LogQuery.Proofs.Sql.Printer

/-!
# Texts that delimit themselves

Next to an operator, a text is read as the operand that it was meant to be if it is one word or one
literal, if all of it behind a first word stands in one pair of parentheses, or if it reaches from
`CASE` to `END` (`Delimited`). Whether a word is one that SQL reserves is not looked at.

In such a text no blank is *exposed*, which is to stand outside of quotes and of parentheses, unless
it is the one that ends with `END`. Hence a text with an operator between its parts does not delimit
itself (`not_delimited`).
-/

namespace LogQuery.Sql

variable {d : Dialect} {s t w inner function : String}

/-- The text is one word, one literal, a call or no more than parentheses around something, or a
`CASE` with its `END`. -/
inductive Delimited (d : Dialect) : String → Prop where
  | name {name : String} : Delimited d (identifier d name)
  | text {s : String} : Delimited d (quoteText d s)
  | number {x : Binary64} : Delimited d x.plain
  | nat {n : Nat} : Delimited d (toString n)
  | null : Delimited d "NULL"
  /-- What is called may be empty, which leaves the parentheses alone. -/
  | group {function inner : String} : Solid function → Piece d 0 0 inner →
      Delimited d (function ++ "(" ++ inner ++ ")")
  | caseWhen {branches : List (Expr × Expr)} {otherwise : Expr} :
      (Expr.caseWhen branches otherwise).Tame →
        Delimited d ((Expr.caseWhen branches otherwise).render d)

/-! ### Expressions that delimit themselves -/

namespace Delimited

variable {e : Expr} {es : List Expr}

/-- Nothing inside parentheses is exposed. -/
lemma parens (h : Piece d 0 0 inner) : Delimited d ("(" ++ inner ++ ")") := by
  have hgroup : Delimited d ("" ++ "(" ++ inner ++ ")") := .group (by decide) h
  rwa [String.empty_append] at hgroup

lemma paren (h : e.Tame) : Delimited d ((Expr.paren e).render d) := .parens (h.piece d 0)

/-- The texts of a list stand between commas at the same depth. -/
lemma commas (h : ∀ e ∈ es, e.Tame) : Piece d 0 0 (Expr.commas (Expr.renderAll d es)) :=
  .commas (Expr.piece_renderAll fun e he => (h e he).piece d 0)

lemma tuple (h : ∀ e ∈ es, e.Tame) : Delimited d ((Expr.tuple es).render d) := .parens (commas h)

/-- A call shows its name and its parentheses, and the name holds no blank. -/
lemma call (hfunction : Solid function) (h : ∀ e ∈ es, e.Tame) :
    Delimited d ((Expr.call function es).render d) := .group hfunction (commas h)

lemma cast (h : e.Tame) (type : CastType) : Delimited d ((Expr.cast e type).render d) := by
  have hinner : Piece d 0 0 (e.render d ++ " AS " ++ type.name) := by
    refine .append (.append (h.piece d 0) (.constant (by decide))) ?_
    cases type <;> exact .constant (by decide)
  have hgroup : Delimited d ("CAST" ++ "(" ++ (e.render d ++ " AS " ++ type.name) ++ ")") :=
    .group (by decide) hinner
  have htext : (Expr.cast e type).render d =
      "CAST" ++ "(" ++ e.render d ++ " AS " ++ type.name ++ ")" := rfl
  rw [htext]
  simpa only [String.append_assoc] using hgroup

end Delimited

/-! ### What is exposed -/

/-- What stands under no parentheses, given how many are open in front. -/
def topLevel : Nat → List Char → List Char
  | _, [] => []
  | n, c :: cs =>
    if c = '(' then topLevel (n + 1) cs
    else if c = ')' then topLevel (n - 1) cs
    else if n = 0 then c :: topLevel n cs
    else topLevel n cs

/-- The characters outside parentheses are some of all. -/
lemma mem_of_mem_topLevel {n : Nat} {c : Char} {cs : List Char} (h : c ∈ topLevel n cs) :
    c ∈ cs := by
  induction cs generalizing n with
  | nil => exact h
  | cons c' cs ih =>
    rw [topLevel] at h
    split_ifs at h
    · exact List.mem_cons_of_mem _ (ih h)
    · exact List.mem_cons_of_mem _ (ih h)
    · rcases List.mem_cons.1 h with rfl | h
      · exact List.mem_cons_self
      · exact List.mem_cons_of_mem _ (ih h)
    · exact List.mem_cons_of_mem _ (ih h)

lemma topLevel_append {n m : Nat} {cs : List Char} (h : depthAfter n cs = some m)
    (cs' : List Char) : topLevel n (cs ++ cs') = topLevel n cs ++ topLevel m cs' := by
  induction cs generalizing n with
  | nil =>
    cases h
    rfl
  | cons c cs ih =>
    simp only [depthAfter] at h
    rw [List.cons_append, topLevel, topLevel]
    split_ifs at h ⊢
    · exact ih h
    · cases n with
      | zero => cases h
      | succ n => exact ih h
    · rw [List.cons_append, ih h]
    · exact ih h

/-- Under a parenthesis that stays open there is nothing. -/
lemma topLevel_succ {n m : Nat} {cs : List Char} (h : depthAfter n cs = some m) :
    topLevel (n + 1) cs = [] := by
  induction cs generalizing n with
  | nil => rfl
  | cons c cs ih =>
    simp only [depthAfter] at h
    rw [topLevel, if_neg (Nat.succ_ne_zero n)]
    split_ifs at h ⊢
    · exact ih h
    · cases n with
      | zero => cases h
      | succ n => exact ih h
    · exact ih h

/-- The characters outside texts are some of all. -/
lemma mem_of_mem_outsideText {c : Char} {q : QuoteState} {cs : List Char}
    (h : c ∈ outsideText d q cs) : c ∈ cs := by
  induction cs generalizing q with
  | nil => exact h
  | cons c' cs ih =>
    rw [outsideText] at h
    split_ifs at h
    · rcases List.mem_cons.1 h with rfl | h
      · exact List.mem_cons_self
      · exact List.mem_cons_of_mem _ (ih h)
    · exact List.mem_cons_of_mem _ (ih h)

/-- What stands outside of quotes and of parentheses. -/
def exposed (d : Dialect) (s : String) : List Char := topLevel 0 (outsideText d .outside s.toList)

lemma exposed_append (hs : Piece d 0 0 s) (t : String) :
    exposed d (s ++ t) = exposed d s ++ exposed d t := by
  rw [exposed, hs.outsideText_append, topLevel_append hs.depth]
  rfl

/-- Parentheses expose nothing of what they hold. -/
lemma exposed_parens (h : Piece d 0 0 inner) : exposed d ("(" ++ inner ++ ")") = [] := by
  have hopen : Piece d 0 1 "(" := .fixed 0 0 1 (by decide)
  have htext : outsideText d .outside ("(" ++ inner ++ ")").toList =
      '(' :: (outsideText d .outside inner.toList ++ [')']) := by
    rw [String.append_assoc, hopen.outsideText_append, h.outsideText_append]
    cases d <;> rfl
  rw [exposed, htext, topLevel, if_pos rfl, topLevel_append (depthAfter_add 1 h.depth),
    topLevel_succ h.depth]
  rfl

lemma blank_not_mem_exposed_of_solid (h : Solid s) : ' ' ∉ exposed d s := fun hmem =>
  h.blank_not_mem (mem_of_mem_outsideText (mem_of_mem_topLevel hmem))

/-- What is between quotes exposes nothing but quotes. -/
lemma Hidden.blank_not_mem_exposed {q : Quote} {cs : List Char} (h : Hidden d q cs) :
    ' ' ∉ exposed d (String.ofList (q.char d :: cs ++ [q.char d])) := by
  intro hmem
  have hblank := mem_of_mem_topLevel hmem
  rw [String.toList_ofList] at hblank
  have hquote : ' ' = q.char d := h.scan.2 ' ' hblank
  cases d <;> cases q <;> exact absurd hquote (by decide)

/-- A text that delimits itself exposes no blank, or else it ends with the last letter of `END`. -/
lemma Delimited.blank_not_mem_exposed (h : Delimited d s) :
    ' ' ∉ exposed d s ∨ s.toList.getLast? = some 'D' := by
  cases h with
  | @name name =>
    left
    rw [identifier]
    split_ifs with hplain
    · exact blank_not_mem_exposed_of_solid (solid_of_isPlainName hplain)
    · exact (hidden_quoteName d name).blank_not_mem_exposed
  | @text s => exact .inl (hidden_quoteText d s).blank_not_mem_exposed
  | @number x =>
    exact .inl fun hmem =>
      blank_not_mem_plain x (mem_of_mem_outsideText (mem_of_mem_topLevel hmem))
  | @nat n => exact .inl (blank_not_mem_exposed_of_solid (solid_toString n))
  | null => exact .inl (blank_not_mem_exposed_of_solid (by decide))
  | @group function inner hfunction hinner =>
    left
    rw [String.append_assoc, String.append_assoc, exposed_append hfunction.bare.piece,
      ← String.append_assoc, exposed_parens hinner, List.append_nil]
    exact blank_not_mem_exposed_of_solid hfunction
  | @caseWhen branches otherwise =>
    right
    have htext : (Expr.caseWhen branches otherwise).render d = "CASE" ++
        Expr.renderBranches d branches ++ " ELSE " ++ otherwise.render d ++ " END" := rfl
    rw [htext, String.toList_append, List.getLast?_append]
    rfl

/-! ### Texts that do not delimit themselves -/

/-- A text with an exposed blank in it that does not end as `END` does. -/
lemma not_delimited {c : Char} (hs : Piece d 0 0 s) (hw : Piece d 0 0 w)
    (hblank : ' ' ∈ exposed d w) (hlast : t.toList.getLast? = some c) (hc : c ≠ 'D') :
    ¬ Delimited d (s ++ w ++ t) := by
  intro h
  rcases h.blank_not_mem_exposed with hnone | hend
  · apply hnone
    rw [String.append_assoc, exposed_append hs, exposed_append hw]
    exact List.mem_append_right _ (List.mem_append_left _ hblank)
  · rw [String.toList_append, List.getLast?_append, hlast] at hend
    exact hc (Option.some.inj hend)

/-- A number ends with a digit. -/
lemma exists_getLast?_toString (n : Nat) :
    ∃ c, (toString n).toList.getLast? = some c ∧ c ≠ 'D' := by
  rw [Nat.toString_eq_repr, Nat.toList_repr]
  have hne : Nat.toDigits 10 n ≠ [] := by simp
  refine ⟨_, List.getLast?_eq_some_getLast hne, ?_⟩
  have hdigit := Nat.isDigit_of_mem_toDigits (by decide) (by decide) (List.getLast_mem hne)
  intro hlast
  rw [hlast] at hdigit
  cases hdigit

namespace Expr

variable {e first last : Expr}

/-- A call ends in its closing parenthesis. -/
lemma getLast?_call (function : String) (args : List Expr) :
    ((call function args).render d).toList.getLast? = some ')' := by
  have htext : (call function args).render d =
      function ++ "(" ++ commas (renderAll d args) ++ ")" := rfl
  rw [htext, String.toList_append, List.getLast?_append]
  rfl

/-- A bare `BETWEEN` exposes a blank and does not end as a case split ends. -/
lemma not_delimited_between {c : Char} (he : e.Tame)
    (hlast : (last.render d).toList.getLast? = some c) (hc : c ≠ 'D') :
    ¬ Delimited d ((between e first last).render d) := by
  have htext : (between e first last).render d =
      e.render d ++ " BETWEEN " ++ (first.render d ++ (" AND " ++ last.render d)) := by
    change e.render d ++ " BETWEEN " ++ first.render d ++ " AND " ++ last.render d = _
    simp only [String.append_assoc]
  rw [htext]
  refine not_delimited (he.piece d 0) (.constant (by decide)) (by cases d <;> decide) ?_ hc
  rw [String.toList_append, String.toList_append, List.getLast?_append, List.getLast?_append, hlast]
  rfl

/-- A bare `REGEXP` exposes its blanks. -/
lemma not_delimited_regexp (he : e.Tame) (pattern : String) :
    ¬ Delimited d ((binary .regexp e (.text pattern)).render d) := by
  have htext : (binary .regexp e (.text pattern)).render d =
      e.render d ++ " REGEXP " ++ quoteText d pattern := by
    change String.intercalate " REGEXP " [e.render d, quoteText d pattern] = _
    rw [String.intercalate_cons_cons, String.intercalate_singleton]
  rw [htext]
  refine not_delimited (c := '\'') (he.piece d 0) (.constant (by decide)) (by cases d <;> decide)
    ?_ (by decide)
  rw [quoteText, String.toList_ofList, List.getLast?_append]
  rfl

/-- A negation exposes the blank behind `NOT`. -/
lemma not_delimited_not_paren (e : Expr) : ¬ Delimited d ((not (paren e)).render d) := by
  have htext : (not (paren e)).render d = "" ++ "NOT " ++ ("(" ++ e.render d ++ ")") := rfl
  rw [htext]
  refine not_delimited (c := ')') (.constant (by decide)) (.constant (by decide))
    (by cases d <;> decide) ?_ (by decide)
  rw [String.toList_append, List.getLast?_append]
  rfl

end Expr

end LogQuery.Sql
