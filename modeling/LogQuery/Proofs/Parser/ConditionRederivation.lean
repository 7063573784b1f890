import LogQuery.Proofs.Parser.ConditionSpelling
import Mathlib.Data.List.Chain

namespace LogQuery

open Lexer

def Value.numbers : Value → List Binary64
  | .number x => [x]
  | .list items => items.flatMap Value.numbers
  | _ => []

/-- The numbers of the value are read back from their plain notation. -/
def Value.ReadsBack (v : Value) : Prop := ∀ x ∈ v.numbers, Binary64.ofText? x.plain = some x

/-- The field reads as a connective where a condition begins. -/
def NamesConnective (field : String) : Prop :=
  Text.lowercase field = "and" ∨ Text.lowercase field = "or"

/-- A field names a connective exactly if its word is read as one. -/
lemma namesConnective_iff {field : String} : NamesConnective field ↔
    wordKind field.toList = .clause .and_ ∨ wordKind field.toList = .clause .or_ := by
  rw [wordKind_eq_iff rfl, wordKind_eq_iff rfl, String.ofList_toList, NamesConnective]
  simp [TokenKind.keywords]

namespace Condition

mutual

/-- The comparisons in a condition that are negated themselves, or those that are not. -/
def testsWith (negated : Bool) : Condition → List Test
  | .compare field comparison value negated' =>
    if negated' = negated then [⟨field, comparison, value⟩] else []
  | .group _ members _ => allTestsWith negated members

/-- The comparisons in conditions that are negated themselves, or those that are not. -/
def allTestsWith (negated : Bool) : List Condition → List Test
  | [] => []
  | c :: rest => testsWith negated c ++ allTestsWith negated rest

end

variable {t : Test} {cs : List Condition} {negated : Bool}

/-- The tests of a list are those of its members. -/
lemma mem_allTestsWith :
    t ∈ allTestsWith negated cs ↔ ∃ c ∈ cs, t ∈ c.testsWith negated := by
  induction cs with
  | nil => simp [allTestsWith]
  | cons c rest ih => simp [allTestsWith, ih]

lemma mem_allTests : t ∈ allTests cs ↔ ∃ c ∈ cs, t ∈ c.tests := by
  induction cs with
  | nil => simp [allTests]
  | cons c rest ih => simp [allTests, ih]

end Condition

namespace Parser

variable {s : Setting} {t : Token} {ts rest : List Token} {v : Value}

/-! ### Values -/

/-- The text of a token that no other one is glued to. -/
lemma reads_glue (hglue : isGluable t.kind = true) (h : (t :: ts).IsChain Apart) :
    (glue t).Reads s ts t.text ts := by
  have halone : splitTouching t.finish ts = ([], ts) := by
    cases ts with
    | nil => rfl
    | cons u ts =>
      have hapart := (List.isChain_cons_cons.1 h).1 hglue
      rw [splitTouching, if_neg]
      rintro htouches
      rw [Bool.and_eq_true, beq_iff_eq] at htouches
      exact hapart htouches.1 htouches.2
  refine ⟨List.suffix_rfl, ?_⟩
  rw [glue]
  simp [halone]

/-- A value other than a list is one token. -/
lemma exists_token_of_written (h : v.Written) (hts : ts.map Token.spelling = v.spelling) :
    ∃ t, ts = [t] ∧ v.spelling = [t.spelling] := by
  have hword : ∃ word, v.spelling = [word] := by
    cases h <;> exact ⟨_, by rw [Value.spelling]⟩
  obtain ⟨word, hword⟩ := hword
  rw [hword] at hts
  obtain ⟨t, rfl, ht⟩ := List.map_eq_singleton_iff.1 hts
  exact ⟨t, rfl, by rw [hword, ht]⟩

/-- A value that is spelled by one word is read back where no glued token follows. -/
lemma reads_valueAt (what : Expectation) (h : v.Written) (hv : v.ReadsBack)
    (ht : v.spelling = [t.spelling]) (hts : (t :: ts).IsChain Apart) :
    (valueAt what t).Reads s ts v ts := by
  cases h with
  | string =>
    rw [Value.spelling, List.cons.injEq] at ht
    obtain ⟨hkind, rfl⟩ := Token.spelling_eq.1 ht.1.symm
    rw [valueAt, valueBy, hkind]
    exact reads_pure.2 ⟨rfl, rfl⟩
  | @number x hfinite =>
    rw [Value.spelling, List.cons.injEq] at ht
    obtain ⟨hkind, htext⟩ := Token.spelling_eq.1 ht.1.symm
    have hround : Binary64.ofText? x.plain = some x := hv x (by simp [Value.numbers])
    rw [valueAt, valueBy, hkind]
    refine reads_bind.2 ⟨t.text, ts, reads_glue (by rw [hkind]; rfl) hts, ?_⟩
    rw [htext, hround]
    simp [hfinite]
  | regex =>
    rw [Value.spelling, List.cons.injEq] at ht
    obtain ⟨hkind, rfl⟩ := Token.spelling_eq.1 ht.1.symm
    rw [valueAt, valueBy, hkind]
    exact reads_pure.2 ⟨rfl, rfl⟩
  | null =>
    rw [Value.spelling, List.cons.injEq] at ht
    obtain ⟨hkind, htext⟩ := Token.spelling_eq.1 ht.1.symm
    rw [valueAt, valueBy, hkind]
    refine reads_bind.2 ⟨t.text, ts, reads_glue (by rw [hkind]; rfl) hts, ?_⟩
    rw [htext]
    exact reads_pure.2 ⟨rfl, rfl⟩

/-! ### Lists -/

/-- A separator in front of every item but the first. -/
lemma intercalate_cons {α : Type} (sep l : List α) (ls : List (List α)) :
    sep.intercalate (l :: ls) = l ++ ls.flatMap (sep ++ ·) := by
  induction ls generalizing l with
  | nil => simp
  | cons l' ls ih => rw [List.intercalate_cons_cons, ih, List.flatMap_cons, List.append_assoc,
      List.append_assoc]

/-- How the reader goes on in a list of values. -/
def itemTurn (what : Expectation) : Turn (Option Value) := fun t _ =>
  if t.kind = .symbol .rParen then none
  else if t.kind = .symbol .comma then some (pure none)
  else some (some <$> valueAt what t)

/-- One item of a list is read back in front of those that follow. -/
lemma reads_item (what : Expectation) (h : v.Written) (hv : v.ReadsBack)
    (ht : v.spelling = [t.spelling]) (hts : (t :: ts).IsChain Apart) {vs : List Value}
    (hmore : (many (itemTurn what)).Reads s ts vs rest) :
    (many (itemTurn what)).Reads s (t :: ts) (v :: vs) rest := by
  have hkind : t.kind ≠ .symbol .rParen ∧ t.kind ≠ .symbol .comma := by
    rw [← Token.spelling_fst]
    cases h <;> rw [Value.spelling, List.cons.injEq] at ht <;> simp [← ht.1]
  have hturn : itemTurn what t ts = some (some <$> valueAt what t) := by
    rw [itemTurn, if_neg hkind.1, if_neg hkind.2]
  exact reads_many.2 (.inr ⟨t, ts, _, some v, ts, vs, rfl, hturn,
    reads_map.2 ⟨v, reads_valueAt what h hv ht hts, rfl⟩, hmore, rfl⟩)

/-- The items behind the first one, each with a comma in front. -/
lemma reads_moreItems (what : Expectation) {closing : Token}
    (hclose : closing.kind = .symbol .rParen) {vs : List Value} (h : ∀ v ∈ vs, v.Written)
    (hvs : ∀ v ∈ vs, v.ReadsBack) (hspelling : ts.map Token.spelling =
      (vs.map Value.spelling).flatMap ([(.symbol .comma, ",")] ++ ·))
    (hts : (ts ++ closing :: rest).IsChain Apart) :
    (many (itemTurn what)).Reads s (ts ++ closing :: rest) vs (closing :: rest) := by
  induction vs generalizing ts with
  | nil =>
    obtain rfl : ts = [] := by simpa using hspelling
    refine reads_many.2 (.inl ⟨rfl, rfl, stops_cons.2 ?_⟩)
    rw [itemTurn, if_pos hclose]
  | cons v vs ih =>
    rw [List.map_cons, List.flatMap_cons, List.append_assoc, List.singleton_append,
      List.map_eq_cons_iff] at hspelling
    obtain ⟨comma, ts, rfl, hcomma, hrest⟩ := hspelling
    obtain ⟨front, ts, rfl, hfront, hmore⟩ := List.map_eq_append_iff.1 hrest
    obtain ⟨t, rfl, ht⟩ := exists_token_of_written (h v (by simp)) hfront
    have hchain : (t :: (ts ++ closing :: rest)).IsChain Apart := hts.tail
    have hread := ih (fun w hw => h w (by simp [hw])) (fun w hw => hvs w (by simp [hw])) hmore
      hchain.tail
    have hitem := reads_item what (h v (by simp)) (hvs v (by simp)) ht hchain hread
    have hkind : comma.kind = .symbol .comma := (Token.spelling_eq.1 hcomma).1
    have hturn : itemTurn what comma (t :: (ts ++ closing :: rest)) = some (pure none) := by
      rw [itemTurn, hkind]
      rfl
    exact reads_many.2 (.inr ⟨comma, _, _, none, _, _, rfl, hturn, reads_pure.2 ⟨rfl, rfl⟩, hitem,
      rfl⟩)

lemma reads_valueList {items : List Value} (hne : items ≠ []) (h : ∀ v ∈ items, v.Written)
    (hitems : ∀ v ∈ items, v.ReadsBack)
    (hspelling : ts.map Token.spelling = (Value.list items).spelling)
    (hts : (ts ++ rest).IsChain Apart) :
    valueList.Reads s (ts ++ rest) (.list items) rest := by
  obtain ⟨v, vs, rfl⟩ := List.exists_cons_of_ne_nil hne
  rw [Value.spelling] at hspelling
  obtain ⟨opening, inner, closing, rfl, hopen, hinner, hclose⟩ :=
    exists_of_spelling_enclosed hspelling
  have hopen := (Token.spelling_eq.1 hopen).1
  have hclose := (Token.spelling_eq.1 hclose).1
  rw [List.map_cons, intercalate_cons] at hinner
  obtain ⟨front, inner, rfl, hfront, hback⟩ := List.map_eq_append_iff.1 hinner
  obtain ⟨t, rfl, ht⟩ := exists_token_of_written (h v (by simp)) hfront
  have hrow : opening :: ([t] ++ inner ++ [closing]) ++ rest =
      opening :: t :: (inner ++ closing :: rest) := by simp
  rw [hrow] at hts ⊢
  have hmore : (many (itemTurn (.valueAfter opening.text))).Reads s (inner ++ closing :: rest) vs
      (closing :: rest) :=
    reads_moreItems _ hclose (fun w hw => h w (List.mem_cons_of_mem _ hw))
      (fun w hw => hitems w (List.mem_cons_of_mem _ hw)) hback hts.tail.tail
  have hmany := reads_item _ (h v (by simp)) (hitems v (by simp)) ht hts.tail hmore
  refine reads_bind.2 ⟨opening, _, reads_expect.2 ⟨rfl, hopen⟩, ?_⟩
  refine reads_bind.2 ⟨v :: vs, _, hmany, ?_⟩
  exact reads_bind.2 ⟨closing, rest, reads_take.2 rfl, reads_pure.2 ⟨rfl, rfl⟩⟩

/-! ### Terms -/

/-- The sign of a comparison, which is one token or two. -/
lemma reads_comparison {comparison : Comparison}
    (hspelling : ts.map Token.spelling = comparison.spelling) :
    ∃ sign, Parser.comparison.Reads s (ts ++ rest) (some (comparison, sign)) rest := by
  have hsingle : ∀ {t : Token}, comparisonOf? t.kind = some comparison →
      Parser.comparison.Reads s ([t] ++ rest) (some (comparison, t)) rest := by
    intro t ht
    refine reads_optional.2 (.inr ⟨t, rest, pure (comparison, t), (comparison, t), rfl, ?_,
      reads_pure.2 ⟨rfl, rfl⟩, rfl⟩)
    rw [ht]
  cases comparison with
  | notIn =>
    rw [Comparison.spelling, List.map_eq_cons_iff] at hspelling
    obtain ⟨t, ts, rfl, ht, hts⟩ := hspelling
    obtain ⟨u, rfl, hu⟩ := List.map_eq_singleton_iff.1 hts
    have ht := (Token.spelling_eq.1 ht).1
    have hu := (Token.spelling_eq.1 hu).1
    have hpair : Reads (do return (.notIn, ← take .listAfterIn)) s (u :: rest)
        (Comparison.notIn, u) rest :=
      reads_bind.2 ⟨u, rest, reads_take.2 rfl, reads_pure.2 ⟨rfl, rfl⟩⟩
    refine ⟨u, reads_optional.2 (.inr ⟨t, u :: rest, _, (.notIn, u), rfl, ?_, hpair, rfl⟩)⟩
    rw [ht]
    simp [comparisonOf?, hu]
  | _ =>
    rw [Comparison.spelling, List.map_eq_singleton_iff] at hspelling
    obtain ⟨t, rfl, ht⟩ := hspelling
    refine ⟨t, hsingle ?_⟩
    rw [(Token.spelling_eq.1 ht).1]
    rfl

/-- A word is no sign. -/
lemma beq_kind_of_isWord (ht : t.kind.isWord = true) {kind : TokenKind}
    (hkind : kind.isWord = false) : (t.kind == kind) = false := by
  rw [beq_eq_false_iff_ne]
  rintro rfl
  rw [ht] at hkind
  cases hkind

/-- A word, a comparison and one value are a term. -/
lemma reads_termAt_single {comparison : Comparison} {signs : List Token} {u : Token}
    (ht : t.kind.isWord = true) (hin : comparison ≠ .isIn) (hnotIn : comparison ≠ .notIn)
    (hsigns : signs.map Token.spelling = comparison.spelling)
    (hvalue : ∀ what, (valueAt what u).Reads s ts v rest) :
    (termAt t).Reads s (signs ++ u :: ts) (some (.compare t.text comparison v false)) rest := by
  obtain ⟨sign, hsign⟩ : ∃ sign, Parser.comparison.Reads s (signs ++ u :: ts)
      (some (comparison, sign)) (u :: ts) := reads_comparison hsigns
  rw [termAt, termBy, beq_kind_of_isWord ht rfl, beq_kind_of_isWord ht rfl,
    beq_kind_of_isWord ht rfl, beq_kind_of_isWord ht rfl, if_pos ht]
  refine reads_bind.2 ⟨_, _, hsign, ?_⟩
  cases comparison with
  | isIn => exact absurd rfl hin
  | notIn => exact absurd rfl hnotIn
  | _ => exact reads_bind.2 ⟨u, ts, reads_take.2 rfl, reads_bind.2 ⟨v, rest, hvalue _,
      reads_pure.2 ⟨rfl, rfl⟩⟩⟩

/-- A word in front of a comparison names the field. -/
lemma reads_termAt {comparison : Comparison} (ht : t.kind.isWord = true) (h : comparison.Takes v)
    (hv : v.ReadsBack) (hspelling : ts.map Token.spelling = comparison.spelling ++ v.spelling)
    (hts : (ts ++ rest).IsChain Apart) :
    (termAt t).Reads s (ts ++ rest) (some (.compare t.text comparison v false)) rest := by
  obtain ⟨signs, ts, rfl, hsigns, hvalue⟩ := List.map_eq_append_iff.1 hspelling
  rw [List.append_assoc] at hts ⊢
  have hlist : ∀ items, v = .list items → items ≠ [] → (∀ w ∈ items, w.Written) →
      valueList.Reads s (ts ++ rest) v rest := by
    rintro items rfl hne hitems
    refine reads_valueList hne hitems (fun w hw x hx => hv x ?_) hvalue hts.right_of_append
    rw [Value.numbers]
    exact List.mem_flatMap.2 ⟨w, hw, hx⟩
  have hsign : ∃ sign, Parser.comparison.Reads s (signs ++ (ts ++ rest))
      (some (comparison, sign)) (ts ++ rest) := reads_comparison hsigns
  cases comparison with
  | isIn | notIn =>
    obtain ⟨items, hitems, hne, hwritten⟩ := h
    obtain ⟨sign, hsign⟩ := hsign
    rw [termAt, termBy, beq_kind_of_isWord ht rfl, beq_kind_of_isWord ht rfl,
      beq_kind_of_isWord ht rfl, beq_kind_of_isWord ht rfl, if_pos ht]
    refine reads_bind.2 ⟨_, _, hsign, ?_⟩
    exact reads_bind.2 ⟨v, rest, hlist items hitems hne hwritten, reads_pure.2 ⟨rfl, rfl⟩⟩
  | _ =>
    obtain ⟨u, rfl, hu⟩ := exists_token_of_written h hvalue
    exact reads_termAt_single ht (by rintro ⟨⟩) (by rintro ⟨⟩) hsigns
      fun what => reads_valueAt what h hv hu hts.right_of_append

/-! ### Conditions -/

variable {words : List (TokenKind × String)} {c : Condition} {cs : List Condition}

/-- Tokens that are spelled like this derive the condition. -/
def Rederives (s : Setting) (words : List (TokenKind × String)) (c : Condition) : Prop :=
  ∀ ⦃ts rest : List Token⦄, ts.map Token.spelling = words → (ts ++ rest).IsChain Apart →
    ∃ p, Derives s .unary (ts ++ rest) rest p ∧ p.meaning = some c

lemma Rederives.not (h : Rederives s words c) :
    Rederives s ((.clause .not_, "NOT") :: words) c.negate := by
  intro ts rest hspelling hts
  obtain ⟨t, ts, rfl, ht, hwords⟩ := List.map_eq_cons_iff.1 hspelling
  obtain ⟨p, hp, hmeaning⟩ := h hwords hts.tail
  have hstands : p.StandsFor p.meaning := hp.standsAt
  rw [hmeaning] at hstands
  refine ⟨.not p, .not (Token.spelling_eq.1 ht).1 hp hstands, ?_⟩
  rw [Phrase.meaning, hmeaning, Option.map_some]

lemma rederives_compare {field : String} {comparison : Comparison}
    (hnot : wordKind field.toList ≠ .clause .not_) (h : comparison.Takes v) (hv : v.ReadsBack) :
    Rederives s ((wordKind field.toList, field) :: (comparison.spelling ++ v.spelling))
      (.compare field comparison v false) := by
  intro ts rest hspelling hts
  obtain ⟨t, ts, rfl, ht, hwords⟩ := List.map_eq_cons_iff.1 hspelling
  obtain ⟨hkind, rfl⟩ := Token.spelling_eq.1 ht
  have hword : t.kind.isWord = true := by
    rw [hkind]
    exact isWord_wordKind _
  have hopen : t.kind ≠ .symbol .lParen := by
    intro hopen
    rw [hopen] at hword
    cases hword
  have hnot : t.kind ≠ .clause .not_ := by rwa [hkind]
  exact ⟨.term _, .term hnot hopen (reads_termAt hword h hv hwords hts.tail), rfl⟩

/-- A negation in front is no connective. -/
lemma exists_head_of_negation {negated : Bool} {kind : TokenKind} (text : String)
    (words : List (TokenKind × String))
    (h : negated = false → kind ≠ .clause .and_ ∧ kind ≠ .clause .or_) :
    ∃ word more, Condition.spellingOfNegation negated ++ (kind, text) :: words = word :: more ∧
      word.1 ≠ .clause .and_ ∧ word.1 ≠ .clause .or_ := by
  cases negated with
  | false => exact ⟨(kind, text), words, rfl, h rfl⟩
  | true => exact ⟨(.clause .not_, "NOT"), (kind, text) :: words, rfl, nofun, nofun⟩

/-- The condition is derived again, also as a member: it does not begin with a connective. -/
structure Rereads (s : Setting) (c : Condition) : Prop where
  head : ∃ word more, c.spelling = word :: more ∧ word.1 ≠ .clause .and_ ∧ word.1 ≠ .clause .or_
  derives : Rederives s c.spelling c

lemma Rereads.exists_member (h : Rereads s c) (hspelling : ts.map Token.spelling = c.spelling)
    (hts : (ts ++ rest).IsChain Apart) :
    ∃ t ts' p, ts = t :: ts' ∧ ¬ IsConnective t ∧
      Derives s .unary (t :: (ts' ++ rest)) rest p ∧ p.meaning = some c := by
  obtain ⟨word, more, hhead, hand, hor⟩ := h.head
  obtain ⟨p, hp, hmeaning⟩ := h.derives hspelling hts
  rw [hhead] at hspelling
  obtain ⟨t, ts, rfl, rfl, -⟩ := List.map_eq_cons_iff.1 hspelling
  exact ⟨t, ts, p, rfl, fun hconnective => hconnective.elim hand hor, hp, hmeaning⟩

/-- Members, each with an `AND` in front or each without one. -/
lemma derives_members {between : List (TokenKind × String)}
    (hbetween : between = [] ∨ between = [Connective.and.word]) (h : ∀ c ∈ cs, Rereads s c)
    (hspelling : ts.map Token.spelling = (cs.map Condition.spelling).flatMap (between ++ ·))
    (hts : (ts ++ rest).IsChain Apart) :
    ∃ ps, Derives s .members (ts ++ rest) rest (.all ps) ∧ Phrase.meanings ps = cs := by
  induction cs generalizing ts with
  | nil =>
    obtain rfl : ts = [] := by simpa using hspelling
    exact ⟨[], .done, rfl⟩
  | cons c cs ih =>
    rw [List.map_cons, List.flatMap_cons, List.append_assoc, List.map_eq_append_iff] at hspelling
    obtain ⟨front, ts, rfl, hfront, hback⟩ := hspelling
    obtain ⟨one, ts, rfl, hone, hmore⟩ := List.map_eq_append_iff.1 hback
    simp only [List.append_assoc] at hts ⊢
    have hchain := hts.right_of_append
    obtain ⟨t, ts', p, rfl, hconnective, hp, hmeaning⟩ :=
      (h c (by simp)).exists_member hone hchain
    obtain ⟨ps, hps, rfl⟩ := ih (fun c' hc' => h c' (by simp [hc'])) hmore hchain.right_of_append
    refine ⟨p :: ps, ?_, by simp [Phrase.meanings, hmeaning]⟩
    rcases hbetween with rfl | rfl
    · obtain rfl : front = [] := by simpa using hfront
      exact .member hconnective hp hps
    · obtain ⟨sign, rfl, hsign⟩ := List.map_eq_singleton_iff.1 hfront
      exact .andMember (Token.spelling_eq.1 hsign).1 hconnective hp hps

/-- Alternatives, each with an `OR` in front. -/
lemma derives_alternatives (h : ∀ c ∈ cs, Rereads s c) (hspelling : ts.map Token.spelling =
      (cs.map Condition.spelling).flatMap ([Connective.or.word] ++ ·))
    (hts : (ts ++ rest).IsChain Apart) :
    ∃ qs, Derives s .alternatives (ts ++ rest) rest (.any qs) ∧ Phrase.meanings qs = cs := by
  induction cs generalizing ts with
  | nil =>
    obtain rfl : ts = [] := by simpa using hspelling
    exact ⟨[], .noMore, rfl⟩
  | cons c cs ih =>
    rw [List.map_cons, List.flatMap_cons, List.append_assoc, List.singleton_append,
      List.map_eq_cons_iff] at hspelling
    obtain ⟨sign, ts, rfl, hsign, hback⟩ := hspelling
    obtain ⟨one, ts, rfl, hone, hmore⟩ := List.map_eq_append_iff.1 hback
    have hchain : (one ++ (ts ++ rest)).IsChain Apart := by simpa using hts.tail
    obtain ⟨t, ts', p, rfl, hconnective, hp, hmeaning⟩ :=
      (h c (by simp)).exists_member hone hchain
    obtain ⟨qs, hqs, rfl⟩ := ih (fun c' hc' => h c' (by simp [hc'])) hmore hchain.right_of_append
    refine ⟨.all [p] :: qs, ?_,
      by simp [Phrase.meanings, Phrase.meaning, hmeaning, Condition.join?]⟩
    have hrow := Derives.alternative (Token.spelling_eq.1 hsign).1 hconnective hp .done hqs
    simpa using hrow

/-- The members of a group, joined by its connective. -/
lemma derives_joined {logic : Connective} {first second : Condition}
    (h : ∀ c ∈ first :: second :: cs, Rereads s c) (hspelling : ts.map Token.spelling =
      [logic.word].intercalate ((first :: second :: cs).map Condition.spelling))
    (hts : (ts ++ rest).IsChain Apart) :
    ∃ p, Derives s .disjunction (ts ++ rest) rest p ∧
      p.meaning = some (.group logic (first :: second :: cs) false) := by
  rw [List.map_cons, intercalate_cons, List.map_eq_append_iff] at hspelling
  obtain ⟨one, ts, rfl, hone, hmore⟩ := hspelling
  rw [List.append_assoc] at hts ⊢
  obtain ⟨t, ts', p, rfl, hconnective, hp, hmeaning⟩ :=
    (h first (by simp)).exists_member hone hts
  have hrest : ∀ c ∈ second :: cs, Rereads s c := fun c hc => h c (List.mem_cons_of_mem _ hc)
  cases logic with
  | and =>
    obtain ⟨ps, hps, hmeanings⟩ := derives_members (.inr rfl) hrest hmore hts.right_of_append
    refine ⟨_, .disjunction (.member hconnective hp hps) .noMore, ?_⟩
    simp [Phrase.meaning, Phrase.meanings, hmeaning, hmeanings, Condition.join?]
  | or =>
    obtain ⟨qs, hqs, hmeanings⟩ := derives_alternatives hrest hmore hts.right_of_append
    refine ⟨_, .disjunction (.member hconnective hp .done) hqs, ?_⟩
    simp [Phrase.meaning, Phrase.meanings, hmeaning, hmeanings, Condition.join?]

/-- The members are joined again by the words between them. -/
lemma rederives_group {logic : Connective} (hlen : 2 ≤ cs.length) (h : ∀ c ∈ cs, Rereads s c) :
    Rederives s ((.symbol .lParen, "(") :: [logic.word].intercalate (cs.map Condition.spelling) ++
      [(.symbol .rParen, ")")]) (.group logic cs false) := by
  intro ts rest hspelling hts
  obtain ⟨opening, inner, closing, rfl, hopen, hinner, hclose⟩ :=
    exists_of_spelling_enclosed hspelling
  have hrow : opening :: (inner ++ [closing]) ++ rest = opening :: (inner ++ closing :: rest) := by
    simp
  rw [hrow] at hts ⊢
  rcases cs with _ | ⟨first, _ | ⟨second, cs⟩⟩
  · cases hlen
  · exact absurd hlen (by simp)
  · obtain ⟨p, hp, hmeaning⟩ := derives_joined h hinner hts.tail
    exact ⟨.parens p, .parens (Token.spelling_eq.1 hopen).1 hp (Token.spelling_eq.1 hclose).1,
      hmeaning⟩

end Parser

/-- A condition is derived again from its tokens, if no comparison in it that is not negated itself
has a field that names a connective. The induction is on the condition. -/
lemma Condition.Written.rereads {c : Condition} (h : c.Written)
    (hbare : ∀ t ∈ c.testsWith false, ¬ NamesConnective t.field)
    (hvalues : ∀ t ∈ c.tests, t.value.ReadsBack) (s : Parser.Setting) : Parser.Rereads s c := by
  induction h with
  | @compare field comparison value negated hfield hnot hvalue =>
    have hreads : value.ReadsBack := hvalues ⟨field, comparison, value⟩ (by simp [tests])
    have hcompare : Parser.Rederives s _ (.compare field comparison value false) :=
      Parser.rederives_compare hnot hvalue hreads
    have hplain : negated = false → wordKind field.toList ≠ .clause .and_ ∧
        wordKind field.toList ≠ .clause .or_ := by
      rintro rfl
      have hplain := hbare ⟨field, comparison, value⟩ (by simp [testsWith])
      rwa [namesConnective_iff, not_or] at hplain
    refine ⟨?_, ?_⟩
    · rw [spelling]
      exact Parser.exists_head_of_negation field _ hplain
    · rw [spelling]
      cases negated with
      | false => exact hcompare
      | true => exact hcompare.not
  | @group logic members negated hlen _ ih =>
    have hmembers : ∀ m ∈ members, Parser.Rereads s m := fun m hm => ih m hm
      (fun t ht => hbare t (mem_allTestsWith.2 ⟨m, hm, ht⟩))
      (fun t ht => hvalues t (mem_allTests.2 ⟨m, hm, ht⟩))
    have hgroup : Parser.Rederives s _ (.group logic members false) :=
      Parser.rederives_group hlen hmembers
    refine ⟨?_, ?_⟩
    · rw [spelling]
      exact Parser.exists_head_of_negation _ _ (by simp)
    · rw [spelling]
      cases negated with
      | false => exact hgroup
      | true => exact hgroup.not

end LogQuery
