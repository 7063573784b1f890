import LogQuery.Proofs.Parser.Derivation
import LogQuery.Proofs.Parser.Stages
import LogQuery.Proofs.Syntax.Omission
import LogQuery.Proofs.Syntax.Part
import LogQuery.Proofs.Token.Value

namespace LogQuery

open Lexer

/-! ### What is read can be written -/

/-- The comparison is written with such a value: a list behind `IN`, or else a value that is one
token. -/
def Comparison.Takes : Comparison → Value → Prop
  | .isIn, value | .notIn, value =>
    ∃ items, value = .list items ∧ items ≠ [] ∧ ∀ v ∈ items, v.Written
  | _, value => value.Written

namespace Condition

/-- A condition of which every field and every value is what tokens can stand for. No group has
fewer than two members. -/
inductive Written : Condition → Prop where
  | compare {field : String} {comparison : Comparison} {value : Value} {negated : Bool}
      (hfield : IsWord field.toList) (hnot : wordKind field.toList ≠ .clause .not_)
      (hvalue : comparison.Takes value) : Written (.compare field comparison value negated)
  | group {logic : Connective} {members : List Condition} {negated : Bool}
      (hlen : 2 ≤ members.length) (h : ∀ m ∈ members, Written m) :
      Written (.group logic members negated)

/-- Negation changes no value, so it keeps a condition written. -/
lemma Written.negate {c : Condition} (h : c.Written) : c.negate.Written := by
  cases h with
  | compare hfield hnot hvalue => exact .compare hfield hnot hvalue
  | group hlen h => exact .group hlen h

lemma written_inRaw {value : Value} (h : value.Written) : (inRaw value).Written :=
  .compare (isWord_of_all rfl rfl) (by decide) h

variable {P : Condition → Prop} {cs : List Condition} {logic : Connective}

/-- What holds of conditions, and of groups of at least two of them, holds of what they are joined
to. -/
lemma forall_mem_join (hgroup : 2 ≤ cs.length → P (.group logic cs false)) (h : ∀ c ∈ cs, P c) :
    ∀ c ∈ join? logic cs, P c := by
  intro c hc
  rcases cs with _ | ⟨c', _ | ⟨c'', rest⟩⟩
  · cases hc
  · cases hc
    exact h c (by simp)
  · cases hc
    exact hgroup (by simp)

end Condition

namespace Parser

variable {s : Setting} {ts rest : List Token} {t : Token}

/-- Whatever is glued can be glued. -/
lemma isGluable_of_mem_splitTouching {finish : Position} (ht : t ∈ (splitTouching finish ts).1) :
    isGluable t.kind = true := by
  induction ts generalizing finish with
  | nil => cases ht
  | cons u ts ih =>
    rw [splitTouching] at ht
    split at ht
    · next htouches =>
      rcases List.mem_cons.1 ht with rfl | ht
      · exact (Bool.and_eq_true _ _ ▸ htouches).1
      · exact ih ht
    · cases ht

/-- The text of tokens that are glued has no backslash. -/
lemma glue_yields (ht : t.IsGenuine) (hglue : isGluable t.kind = true) :
    Yields Token.IsGenuine (glue t) fun text => (Value.string text).Written := by
  rintro s ts text rest hts ⟨hrest, h⟩
  obtain ⟨rfl, -⟩ := Parsed.mk.inj (Except.ok.inj h)
  refine .string fun hlast => ?_
  have hmem := List.mem_of_getLast? hlast
  rw [String.toList_append, List.mem_append] at hmem
  rcases hmem with hmem | hmem
  · exact ht.gluable hglue hmem
  · rw [String.toList_join, List.mem_flatMap] at hmem
    obtain ⟨text, htext, hmem⟩ := hmem
    obtain ⟨u, hu, rfl⟩ := List.mem_map.1 htext
    have huts : u ∈ ts := by
      rw [← splitTouching_append t.finish ts]
      exact List.mem_append_left _ hu
    exact (hts u huts).gluable (isGluable_of_mem_splitTouching hu) hmem

/-- Every value that is read may be written in a query. -/
lemma valueAt_yields (what : Expectation) (ht : t.IsGenuine) :
    Yields Token.IsGenuine (valueAt what t) Value.Written := by
  rw [valueAt, valueBy]
  split_ifs with hstring hregex hnumber hword
  · exact .pure (.string (ht.string (by simpa using hstring)))
  · exact .pure (.regex (ht.regex (by simpa using hregex)))
  · have hkind : t.kind = .number := by simpa using hnumber
    refine .bind (glue_yields ht (by rw [hkind]; rfl)) fun text htext => ?_
    split
    · split_ifs with hfinite
      · exact .pure (.number (Bool.and_eq_true _ _ ▸ hfinite).2)
      · exact .pure htext
    · exact .pure htext
  · have hglue : isGluable t.kind = true := by
      rw [Bool.or_eq_true, Bool.or_eq_true] at hword
      rcases hword with (h | h) | h <;> simp [isGluable, h]
    refine .bind (glue_yields ht hglue) fun text htext => ?_
    split_ifs
    · exact .pure .null
    · exact .pure htext
  · exact .failAt

lemma valueList_yields : Yields Token.IsGenuine valueList fun value =>
    ∃ items, value = .list items ∧ items ≠ [] ∧ ∀ v ∈ items, v.Written := by
  refine .bind_of_forall fun opening => ?_
  refine .bind (P := fun items => ∀ v ∈ items, v.Written) (.many fun t rest p hturn ht => ?_)
    fun items hitems => .bind_of_forall fun closing => ?_
  · split_ifs at hturn
    · cases hturn
      exact .pure (by simp)
    · cases hturn
      exact .map (valueAt_yields _ ht) fun v hv w hw => by
        cases hw
        exact hv
  · split_ifs with hempty
    · exact .failAt
    · exact .pure ⟨items, rfl, by simpa using hempty, hitems⟩

/-- Every term that is read may be written in a query. -/
lemma termAt_yields_written (ht : t.IsGenuine) (hnot : t.kind ≠ .clause .not_) :
    Yields Token.IsGenuine (termAt t) fun c => ∀ c' ∈ c, c'.Written := by
  have hraw : ∀ {value : Value}, value.Written →
      ∀ c' ∈ some (Condition.inRaw value), c'.Written := by
    rintro value h c' ⟨⟩
    exact Condition.written_inRaw h
  rw [termAt, termBy]
  split_ifs with hstar hstring hregex hword
  · have hglue : isGluable t.kind = true := by
      rw [Bool.or_eq_true] at hstar
      rcases hstar with h | h <;> simp [isGluable, h]
    refine .bind (glue_yields ht hglue) fun text htext => ?_
    split_ifs
    · exact .pure (by simp)
    · exact .pure (hraw htext)
  · exact .pure (hraw (.string (ht.string (by simpa using hstring))))
  · exact .pure (hraw (.regex (ht.regex (by simpa using hregex))))
  · obtain ⟨hname, hkind⟩ := ht.word hword
    rw [hkind] at hnot
    have hcompare : ∀ {comparison value}, Comparison.Takes comparison value →
        ∀ c' ∈ some (Condition.compare t.text comparison value false), c'.Written := by
      rintro comparison value h c' ⟨⟩
      exact .compare hname hnot h
    refine .bind_of_forall fun o => ?_
    split
    · have hglue : isGluable t.kind = true := by simp [isGluable, hword]
      exact .bind (glue_yields ht hglue) fun text htext => .pure (hraw htext)
    · next comparison sign =>
      dsimp only
      split
      · exact .bind valueList_yields fun value h => .pure (hcompare h)
      · exact .bind valueList_yields fun value h => .pure (hcompare h)
      · next hin hnotIn =>
        have htakes : ∀ value : Value, value.Written → comparison.Takes value := by
          intro value h
          cases comparison with
          | isIn => exact (hin rfl).elim
          | notIn => exact (hnotIn rfl).elim
          | _ => exact h
        refine .bind .take fun u hu => ?_
        exact .bind (valueAt_yields _ hu) fun value h => .pure (hcompare (htakes value h))
  · exact .failAt

/-- A derivation leaves a suffix of its tokens. -/
lemma Derives.isSuffix {level : PhraseLevel} {p : Phrase} (h : Derives s level ts rest p) :
    rest <:+ ts := by
  induction h with
  | term _ _ hterm => exact hterm.isSuffix.trans (List.suffix_cons _ _)
  | not _ _ _ ih => exact ih.trans (List.suffix_cons _ _)
  | parens _ _ _ ih => exact (List.suffix_cons _ _).trans (ih.trans (List.suffix_cons _ _))
  | done | noMore => exact List.suffix_rfl
  | member _ _ _ ih ihs | disjunction _ _ ih ihs => exact ihs.trans ih
  | andMember _ _ _ _ ih ihs => exact ihs.trans (ih.trans (List.suffix_cons _ _))
  | alternative _ _ _ _ _ ih ihs ihs' =>
    exact ihs'.trans (ihs.trans (ih.trans (List.suffix_cons _ _)))

/-- What holds of the conditions that terms stand for, and of what negations and groups make of
such conditions, holds of what phrases stand for. -/
def MeetsAt (P : Condition → Prop) : PhraseLevel → Phrase → Prop
  | .members, p => ∃ ps, p = .all ps ∧ ∀ c ∈ Phrase.meanings ps, P c
  | .alternatives, p => ∃ ps, p = .any ps ∧ ∀ c ∈ Phrase.meanings ps, P c
  | _, p => ∀ c ∈ p.meaning, P c

/-- The induction is on the derivation. -/
lemma Derives.meetsAt {P : Condition → Prop} {good : Token → Prop}
    (hterm : ∀ t, good t → t.kind ≠ .clause .not_ →
      Yields good (termAt t) fun c => ∀ c' ∈ c, P c')
    (hnegate : ∀ c, P c → P c.negate)
    (hgroup : ∀ logic cs, 2 ≤ cs.length → (∀ c ∈ cs, P c) → P (.group logic cs false))
    {level : PhraseLevel} {p : Phrase} (h : Derives s level ts rest p) (hts : ∀ t ∈ ts, good t) :
    MeetsAt P level p := by
  have hjoin : ∀ {logic cs}, (∀ c ∈ cs, P c) → ∀ c ∈ Condition.join? logic cs, P c :=
    fun h => Condition.forall_mem_join (fun hlen => hgroup _ _ hlen h) h
  have hcons : ∀ {p : Phrase} {ps : List Phrase}, (∀ c ∈ p.meaning, P c) →
      (∀ c ∈ Phrase.meanings ps, P c) → ∀ c ∈ Phrase.meanings (p :: ps), P c := by
    intro p ps hp hps c hc
    rw [Phrase.meanings, List.mem_append, Option.mem_toList] at hc
    exact hc.elim (hp c) (hps c)
  have hrest : ∀ {level ts mid p}, Derives s level ts mid p → (∀ t ∈ ts, good t) →
      ∀ t ∈ mid, good t := fun h hts t ht => hts t (h.isSuffix.subset ht)
  induction h with
  | term hnot _ hr =>
    exact hterm _ (hts _ (by simp)) hnot (fun u hu => hts u (by simp [hu])) hr
  | not _ _ _ ih =>
    intro c hc
    obtain ⟨c', hc', rfl⟩ := Option.map_eq_some_iff.1 hc
    exact hnegate c' (ih (fun u hu => hts u (by simp [hu])) c' hc')
  | parens _ _ _ ih => exact ih fun u hu => hts u (by simp [hu])
  | done | noMore => exact ⟨[], rfl, by simp [Phrase.meanings]⟩
  | member _ hp _ ih ihs =>
    obtain ⟨ps, heq, hps⟩ := ihs (hrest hp hts)
    cases heq
    exact ⟨_, rfl, hcons (ih hts) hps⟩
  | andMember _ _ hp _ ih ihs =>
    have hts' := fun u hu => hts u (List.mem_cons_of_mem _ hu)
    obtain ⟨ps, heq, hps⟩ := ihs (hrest hp hts')
    cases heq
    exact ⟨_, rfl, hcons (ih hts') hps⟩
  | alternative _ _ hp hps' _ ih ihs ihs' =>
    have hts' := fun u hu => hts u (List.mem_cons_of_mem _ hu)
    obtain ⟨ps, heq, hps⟩ := ihs (hrest hp hts')
    cases heq
    obtain ⟨qs, heq, hqs⟩ := ihs' (hrest hps' (hrest hp hts'))
    cases heq
    exact ⟨_, rfl, hcons (hjoin (hcons (ih hts') hps)) hqs⟩
  | disjunction hps' _ ih ih' =>
    obtain ⟨ps, heq, hps⟩ := ih hts
    cases heq
    obtain ⟨qs, heq, hqs⟩ := ih' (hrest hps' hts)
    cases heq
    exact hjoin (hcons (hjoin hps) hqs)

/-- The conditions of a stage can be written again, and the only one of them is no group that the
stage would have listed member by member. -/
lemma conditions_yields_written : Yields Token.IsGenuine conditions fun cs =>
    (∀ c ∈ cs, c.Written) ∧ ∀ members, cs ≠ [.group .and members false] := by
  intro s ts cs rest hts h
  obtain ⟨c, hc, -, rfl⟩ := reads_conditions.1 h
  obtain ⟨p, hp, -, rfl⟩ := derives_of_reads_disjunction (takesDerived_unary s s.maxDepth) hc
  have hwritten : ∀ c ∈ p.meaning, c.Written :=
    hp.meetsAt (fun t ht hnot => termAt_yields_written ht hnot) (fun _ h => h.negate)
      (fun _ _ hlen h => .group hlen h) hts
  rw [Condition.topLevel.eq_def]
  split
  · simp
  · next members hmembers =>
    cases hwritten _ hmembers with
    | group hlen h =>
      refine ⟨h, fun members' heq => ?_⟩
      rw [heq] at hlen
      exact absurd hlen (by simp)
  · next c hgroup hc =>
    refine ⟨by simpa using hwritten c hc, fun members heq => ?_⟩
    exact hgroup members (by simpa using heq)

end Parser

/-! ### How conditions are spelled -/

def Comparison.spelling : Comparison → List (TokenKind × String)
  | .eq => [(.symbol .eq, "=")]
  | .notEq => [(.symbol .notEq, "!=")]
  | .lt => [(.symbol .lt, "<")]
  | .ltEq => [(.symbol .ltEq, "<=")]
  | .gt => [(.symbol .gt, ">")]
  | .gtEq => [(.symbol .gtEq, ">=")]
  | .contains => [(.symbol .tilde, "~")]
  | .isIn => [(.clause .in_, "IN")]
  | .notIn => [(.clause .not_, "NOT"), (.clause .in_, "IN")]

def Connective.word : Connective → TokenKind × String
  | .and => (.clause .and_, "AND")
  | .or => (.clause .or_, "OR")

namespace Condition

def spellingOfNegation (negated : Bool) : List (TokenKind × String) :=
  if negated then [(.clause .not_, "NOT")] else []

def spelling : Condition → List (TokenKind × String)
  | .compare field comparison value negated =>
    spellingOfNegation negated ++
      (wordKind field.toList, field) :: (comparison.spelling ++ value.spelling)
  | .group logic members negated =>
    spellingOfNegation negated ++
      ((.symbol .lParen, "(") :: [logic.word].intercalate (members.map spelling) ++
        [(.symbol .rParen, ")")])
decreasing_by
  have hlt := List.sizeOf_lt_of_mem ‹_›
  rw [group.sizeOf_spec]
  omega

end Condition

variable {previous : Option TokenKind} {rest : List Char}

/-- No value begins with an equals sign. -/
lemma Value.Written.head_ne_equals {v : Value} (h : v.Written) :
    (v.display.toList ++ rest).head?.any (· = '=') = false := by
  cases h with
  | string => simp [Value.display, Value.quote]
  | number h =>
    rw [Value.display]
    have hdigit : ∀ c : Char, c.isDigit = true → c ≠ '=' := by
      rintro c hc rfl
      exact absurd hc (by decide)
    obtain ⟨numeral, hnumeral, heq | heq⟩ := Binary64.plain_toList_cases h
    · obtain ⟨c, more, rfl, hc⟩ := hnumeral.head
      simpa [heq] using hdigit c hc
    · simp [heq]
  | regex => simp [Value.display]
  | null => simp [Value.display]

/-- A list is written between parentheses. -/
lemma Value.spells_list {items : List Value} (h : ∀ v ∈ items, v.Written) :
    Spells previous (Value.list items).display.toList (Value.list items).spelling rest := by
  have hitems : Spells (some (.symbol .lParen))
      ([',', ' '].intercalate (items.map fun v => v.display.toList))
      ([(.symbol .comma, ",")].intercalate (items.map Value.spelling)) (')' :: rest) :=
    .intercalate (fun previous => previous.any TokenKind.endsOperand = false)
      (fun _ _ => spells_comma) (fun _ => endsText_cons (by decide)) (fun _ => rfl)
      (fun v hv _ _ hprevious hrest => (h v hv).spells hprevious hrest) rfl
      (endsText_cons (by decide))
  have hrow : Spells previous _ _ rest := spells_open.append (hitems.append spells_close)
  rw [Value.display, Value.spelling]
  simpa [Value.displayAll_eq_map, Function.comp_def] using hrow

lemma spells_not : Spells previous "NOT ".toList [(.clause .not_, "NOT")] rest := by
  have hnot : Spells previous "NOT".toList [(.clause .not_, "NOT")] ([' '] ++ rest) :=
    spells_word (isWord_of_all rfl rfl) endsText_space
  exact hnot.append spells_space

lemma spells_in : Spells previous "IN ".toList [(.clause .in_, "IN")] rest := by
  have hin : Spells previous "IN".toList [(.clause .in_, "IN")] ([' '] ++ rest) :=
    spells_word (isWord_of_all rfl rfl) endsText_space
  exact hin.append spells_space

lemma spells_negation (negated : Bool) :
    Spells previous (Condition.displayNegation negated).toList
      (Condition.spellingOfNegation negated) rest := by
  cases negated with
  | false =>
    intro position ts hts
    exact ⟨[], rfl, hts⟩
  | true => exact spells_not

lemma spells_connective {logic : Connective} :
    Spells previous (" " ++ logic.display ++ " ").toList [logic.word] rest := by
  have hword (word : String) (hword : IsWord word.toList) :
      Spells previous word.toList [(wordKind word.toList, word)] ([' '] ++ rest) :=
    spells_word hword endsText_space
  have hspace : ∀ more, Spells previous [' '] [] more := fun _ => spells_space
  cases logic with
  | and => exact (hspace _).append ((hword "AND" (isWord_of_all rfl rfl)).append spells_space)
  | or => exact (hspace _).append ((hword "OR" (isWord_of_all rfl rfl)).append spells_space)

/-- What stands between the field and the value of a comparison. -/
def Comparison.sign : Comparison → String
  | .isIn => " IN "
  | .notIn => " NOT IN "
  | comparison => comparison.display

lemma Condition.display_compare (field : String) (comparison : Comparison) (value : Value)
    (negated : Bool) : (Condition.compare field comparison value negated).display =
      displayNegation negated ++ (field ++ (comparison.sign ++ value.display)) := by
  have hin : " IN " = " " ++ ("IN" ++ " ") := by decide
  have hnotIn : " NOT IN " = " " ++ ("NOT IN" ++ " ") := by decide
  cases comparison <;>
    simp [display, Comparison.display, Comparison.sign, hin, hnotIn, String.append_assoc]

/-- A comparison ends the field in front of it. -/
lemma Comparison.endsText_sign (comparison : Comparison) :
    EndsText (comparison.sign.toList ++ rest) := by
  cases comparison <;> exact endsText_cons (by decide)

/-- A comparison is written with the sign of the comparison and the value. -/
lemma Comparison.spells {comparison : Comparison} {value : Value} (h : comparison.Takes value)
    (hrest : EndsText rest) : Spells previous (comparison.sign.toList ++ value.display.toList)
      (comparison.spelling ++ value.spelling) rest := by
  cases comparison with
  | eq | lt | gt =>
    exact (spells_comparison rfl h.head_ne_equals).append (h.spells rfl hrest)
  | ltEq | gtEq =>
    exact (spells_comparisonEquals rfl).append (h.spells rfl hrest)
  | notEq => exact spells_notEqual.append (h.spells rfl hrest)
  | contains =>
    have htilde : ∀ more, Spells previous ['~'] [(.symbol .tilde, "~")] more :=
      fun _ => spells_symbol rfl nofun
    exact (htilde _).append (h.spells rfl hrest)
  | isIn =>
    obtain ⟨items, rfl, -, hitems⟩ := h
    exact spells_space.append (spells_in.append (Value.spells_list hitems))
  | notIn =>
    obtain ⟨items, rfl, -, hitems⟩ := h
    exact spells_space.append (spells_not.append (spells_in.append (Value.spells_list hitems)))

namespace Condition

/-- The text of a condition is lexed into its tokens. The induction is on the condition. -/
lemma Written.spells {c : Condition} (h : c.Written) (hrest : EndsText rest) :
    Spells previous c.display.toList c.spelling rest := by
  induction h generalizing previous rest with
  | @compare field comparison value negated hfield _ hvalue =>
    have hname : ∀ previous, Spells previous field.toList [(wordKind field.toList, field)]
        (comparison.sign.toList ++ value.display.toList ++ rest) := by
      intro previous
      rw [List.append_assoc]
      exact spells_word hfield comparison.endsText_sign
    have hrow : Spells previous _ _ rest :=
      (spells_negation negated).append ((hname _).append (Comparison.spells hvalue hrest))
    rw [display_compare, spelling]
    simpa using hrow
  | @group logic members negated _ _ ih =>
    have hmembers : ∀ previous, Spells previous
        ((" " ++ logic.display ++ " ").toList.intercalate (members.map fun m => m.display.toList))
        ([logic.word].intercalate (members.map Condition.spelling)) (')' :: rest) := by
      intro previous
      refine .intercalate (fun _ => True) (fun _ _ => spells_connective) (fun more => ?_)
        (fun _ => trivial) (fun m hm _ _ _ hrest => ih m hm hrest) trivial
        (endsText_cons (by decide))
      rw [String.toList_append, String.toList_append]
      exact endsText_space
    have hrow : Spells previous _ _ rest := (spells_negation negated).append
      (spells_open.append ((hmembers _).append spells_close))
    rw [display, spelling]
    simpa [displayAll_eq_map, Function.comp_def] using hrow

end Condition

end LogQuery
