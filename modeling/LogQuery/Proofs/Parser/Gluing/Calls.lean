import LogQuery.Proofs.Parser.Stages
import LogQuery.Proofs.Parser.Walk.Fields
import Mathlib.Data.Option.Basic
import Mathlib.Tactic.SplitIfs

/-!
# Where words are glued

The readers of the language once more, for any way to join a token to those behind it: they ask for
the text of a word, and `glue` is one answer. Only values, terms and spans ask; a reader in which
none of these is read is that of the language itself.

The reading of a query calls `glue` where the answer matters (`GluesAt`): at a token in front of
others, another answer, and no other one changed, makes it end otherwise. Each call is noticed like
that, since an error ends the reading at once. A query calls `glue` at tokens only that may be
glued, and in front of just those tokens that follow them (`place_of_gluesAt`).
-/

namespace LogQuery.Parser

/-! ### Calls -/

/-- The pipeline that tokens write, if words are joined otherwise than by `glue`. -/
def Gluing.parseTokens [Libraries] (join : Token → Parser String) (limits : ParserLimits)
    (ts : List Token) : Except ParseError Pipeline :=
  (readQuery (stagesBy (stageReadersOf join)) limits ts).map Pipeline.mk

/-- The reading of a query calls `glue` at a token in front of others: some other answer there, all
others being the same, makes it end otherwise. -/
def GluesAt [Libraries] (limits : ParserLimits) (tokens : List Token) (t : Token)
    (ts : List Token) : Prop :=
  ∃ join : Token → Parser String,
    (∀ u us, (u, us) ≠ (t, ts) → ∀ s, join u s us = glue u s us) ∧
      Gluing.parseTokens join limits tokens ≠ parseTokens limits tokens

/-! ### Readers that end alike -/

variable {α β : Type} {s : Setting} {ts : List Token}

lemma bind_eq_bind {p q : Parser α} {f g : α → Parser β} (hp : p s ts = q s ts)
    (hf : ∀ a rest, q.Reads s ts a rest → f a s rest = g a s rest) :
    (p >>= f) s ts = (q >>= g) s ts := by
  rw [bind_apply, bind_apply, hp]
  cases hq : q s ts with
  | error e => rfl
  | ok r =>
    dsimp only
    rw [hf r.value r.rest (reads_of_eq_ok hq)]

lemma map_eq_map (f : α → β) {p q : Parser α} (hp : p s ts = q s ts) :
    (f <$> p) s ts = (f <$> q) s ts := by
  change (p >>= fun a => pure (f a)) s ts = (q >>= fun a => pure (f a)) s ts
  exact bind_eq_bind hp fun _ _ _ => rfl

lemma seqRight_eq_seqRight {p : Parser α} {q q' : Parser β}
    (h : ∀ a rest, p.Reads s ts a rest → q s rest = q' s rest) :
    (p *> q) s ts = (p *> q') s ts := by
  change (p >>= fun _ => q) s ts = (p >>= fun _ => q') s ts
  exact bind_eq_bind rfl h

/-- The readers behind a token end alike. -/
abbrev AlikeBehind (s : Setting) (rest : List Token) (p q : Option (Parser α)) : Prop :=
  Option.Rel (fun p q => p s rest = q s rest) p q

lemma optional_eq_optional {turn turn' : Turn α}
    (h : ∀ t rest, ts = t :: rest → AlikeBehind s rest (turn t rest) (turn' t rest)) :
    optional turn s ts = optional turn' s ts := by
  cases ts with
  | nil => rfl
  | cons t rest =>
    have hturn := h t rest rfl
    rw [optional, optional]
    generalize turn t rest = round at hturn ⊢
    generalize turn' t rest = round' at hturn ⊢
    cases hturn with
    | none => rfl
    | some hp =>
      dsimp only
      rw [hp]

/-- A loop takes a token, and goes on with what its round leaves of those behind it. -/
@[elab_as_elim]
lemma suffix_induction {motive : List Token → Prop} (nil : motive [])
    (cons : ∀ t rest, (∀ left, left <:+ rest → motive left) → motive (t :: rest))
    (ts : List Token) : motive ts := by
  have hall : ∀ left, left <:+ ts → motive left := by
    induction ts with
    | nil =>
      intro left hleft
      rw [List.suffix_nil.1 hleft]
      exact nil
    | cons t rest ih =>
      intro left hleft
      rcases List.suffix_cons_iff.1 hleft with rfl | hleft
      · exact cons t rest ih
      · exact ih left hleft
  exact hall ts List.suffix_rfl

lemma many_eq_many {turn turn' : Turn (Option α)}
    (h : ∀ t rest, t :: rest <:+ ts → AlikeBehind s rest (turn t rest) (turn' t rest)) :
    many turn s ts = many turn' s ts := by
  induction ts using suffix_induction with
  | nil => rw [many.eq_def turn, many.eq_def turn']
  | cons t rest ih =>
    have hturn := h t rest List.suffix_rfl
    rw [many.eq_def turn, many.eq_def turn']
    dsimp only
    generalize turn t rest = round at hturn ⊢
    generalize turn' t rest = round' at hturn ⊢
    cases hturn with
    | none => rfl
    | @some p q hp =>
      dsimp only
      rw [hp]
      cases q s rest with
      | error e => rfl
      | ok one =>
        have hsuffix := one.isSuffix.trans (rest.suffix_cons t)
        have hmore := ih one.rest one.isSuffix fun u us hu => h u us (hu.trans hsuffix)
        dsimp only
        rw [hmore]

lemma iterate_eq_iterate {turn turn' : α → Turn α}
    (h : ∀ state t rest, t :: rest <:+ ts →
      AlikeBehind s rest (turn state t rest) (turn' state t rest)) (state : α) :
    iterate turn state s ts = iterate turn' state s ts := by
  induction ts using suffix_induction generalizing state with
  | nil => rw [iterate.eq_def turn, iterate.eq_def turn']
  | cons t rest ih =>
    have hturn := h state t rest List.suffix_rfl
    rw [iterate.eq_def turn, iterate.eq_def turn']
    dsimp only
    generalize turn state t rest = round at hturn ⊢
    generalize turn' state t rest = round' at hturn ⊢
    cases hturn with
    | none => rfl
    | @some p q hp =>
      dsimp only
      rw [hp]
      cases q s rest with
      | error e => rfl
      | ok one =>
        have hsuffix := one.isSuffix.trans (rest.suffix_cons t)
        have hmore := ih one.rest one.isSuffix
          (fun state u us hu => h state u us (hu.trans hsuffix)) one.value
        dsimp only
        rw [hmore]

/-! ### What the readers ask -/

/-- The tokens of a row that may be glued are joined to those behind them as by `glue`. -/
def Glues (join : Token → Parser String) (s : Setting) (all : List Token) : Prop :=
  ∀ t ts, t :: ts <:+ all → isGluable t.kind = true → join t s ts = glue t s ts

lemma isGluable_of_kind {kind : TokenKind}
    (h : (kind.isWord || kind == .symbol .star || kind == .symbol .minus) = true) :
    isGluable kind = true := by
  rw [Bool.or_eq_true, Bool.or_eq_true] at h
  rcases h with (h | h) | h <;> simp [isGluable, h]

/-- No comparison is read without a token taken. -/
lemma eq_of_reads_comparison {rest : List Token} (h : comparison.Reads s ts none rest) :
    rest = ts := by
  rcases reads_optional.1 h with ⟨-, hrest, -⟩ | ⟨_, _, _, _, _, _, _, hnone⟩
  · exact hrest
  · cases hnone

lemma conjunction_eq {unary unary' : ConditionAt}
    (h : ∀ t rest, t :: rest <:+ ts → unary t s rest = unary' t s rest) :
    conjunction unary s ts = conjunction unary' s ts := by
  refine bind_eq_bind (many_eq_many fun t rest hrest => ?_) fun _ _ _ => rfl
  split
  · exact .none
  · exact .none
  · exact .none
  · exact .some rfl
  · exact .some (h t rest hrest)

lemma disjunction_eq {unary unary' : ConditionAt}
    (h : ∀ t rest, t :: rest <:+ ts → unary t s rest = unary' t s rest) :
    disjunction unary s ts = disjunction unary' s ts := by
  refine bind_eq_bind (conjunction_eq h) fun first mid hfirst => ?_
  have hmid := hfirst.isSuffix
  refine bind_eq_bind (many_eq_many fun t rest hrest => ?_) fun _ _ _ => rfl
  have hbehind := (rest.suffix_cons t).trans (hrest.trans hmid)
  split
  · refine .some (bind_eq_bind rfl fun _ next hnext => conjunction_eq fun u us hu => ?_)
    exact h u us (hu.trans (hnext.isSuffix.trans hbehind))
  · exact .none

/-- What a token begins is read alike if what nests in it is, and the terms are. -/
lemma unaryBy_eq {operand operand' inner inner' : Parser (Option Condition)}
    {term term' : ConditionAt} {t : Token} (hoperand : operand s ts = operand' s ts)
    (hinner : inner s ts = inner' s ts) (hterm : term t s ts = term' t s ts) :
    unaryBy operand inner term t s ts = unaryBy operand' inner' term' t s ts := by
  unfold unaryBy
  cases t.kind with
  | clause word =>
    cases word with
    | not_ => exact bind_eq_bind hoperand fun _ _ _ => rfl
    | _ => exact hterm
  | symbol sign =>
    cases sign with
    | lParen => exact hinner
    | _ => exact hterm
  | _ => exact hterm

namespace Glues

variable {join : Token → Parser String} {all : List Token} {t : Token} (h : Glues join s all)
include h

lemma value (what : Expectation) (hts : t :: ts <:+ all) :
    valueBy join what t s ts = valueAt what t s ts := by
  unfold valueAt valueBy
  split_ifs with hstring hregex hnumber hword
  · rfl
  · rfl
  · have hkind : t.kind = .number := beq_iff_eq.1 hnumber
    exact bind_eq_bind (h t ts hts (by rw [hkind]; rfl)) fun _ _ _ => rfl
  · exact bind_eq_bind (h t ts hts (isGluable_of_kind hword)) fun _ _ _ => rfl
  · rfl

lemma valueList (hts : ts <:+ all) : valueListBy join s ts = Parser.valueList s ts := by
  refine bind_eq_bind rfl fun opening mid hmid => ?_
  have hbehind := hmid.isSuffix.trans hts
  refine bind_eq_bind (many_eq_many fun t rest hrest => ?_) fun _ _ _ => rfl
  split_ifs
  · exact .none
  · exact .some rfl
  · exact .some (map_eq_map _ (h.value _ (hrest.trans hbehind)))

lemma term (hts : t :: ts <:+ all) : termBy join t s ts = termAt t s ts := by
  have hbehind := (ts.suffix_cons t).trans hts
  unfold termAt termBy
  split_ifs with hstar hstring hregex hword
  · have hglue : isGluable t.kind = true := by
      rw [Bool.or_eq_true] at hstar
      rcases hstar with hkind | hkind <;> simp [isGluable, hkind]
    exact bind_eq_bind (h t ts hts hglue) fun _ _ _ => rfl
  · rfl
  · rfl
  · have hglue : isGluable t.kind = true := isGluable_of_kind (by rw [hword]; rfl)
    refine bind_eq_bind rfl fun found mid hfound => ?_
    have hmid := hfound.isSuffix.trans hbehind
    cases found with
    | none =>
      rw [eq_of_reads_comparison hfound]
      exact bind_eq_bind (h t ts hts hglue) fun _ _ _ => rfl
    | some found =>
      obtain ⟨comparison, sign⟩ := found
      have hlist : ∀ value : Value → Parser (Option Condition),
          (valueListBy join >>= value) s mid = (Parser.valueList >>= value) s mid :=
        fun _ => bind_eq_bind (h.valueList hmid) fun _ _ _ => rfl
      cases comparison with
      | isIn | notIn => exact hlist _
      | _ =>
        refine bind_eq_bind rfl fun first rest hfirst => ?_
        obtain rfl := reads_take.1 hfirst
        exact bind_eq_bind (h.value _ hmid) fun _ _ _ => rfl
  · rfl

lemma unary (depth : Nat) (hts : t :: ts <:+ all) :
    unaryUpTo (termBy join) depth t s ts = Parser.unary depth t s ts := by
  induction depth generalizing t ts with
  | zero => exact unaryBy_eq rfl rfl (h.term hts)
  | succ depth ih =>
    have hbehind := (ts.suffix_cons t).trans hts
    refine unaryBy_eq (bind_eq_bind rfl fun first rest hfirst => ?_)
      (bind_eq_bind (disjunction_eq fun u us hu => ih (hu.trans hbehind)) fun _ _ _ => rfl)
      (h.term hts)
    obtain rfl := reads_take.1 hfirst
    exact ih hbehind

lemma conditions (hts : ts <:+ all) :
    conditionsOf (termBy join) s ts = Parser.conditions s ts :=
  bind_eq_bind (disjunction_eq fun _ _ hu => h.unary _ (hu.trans hts)) fun _ _ _ => rfl

lemma spanText (hts : t :: ts <:+ all) :
    spanTextBy join t s ts = spanTextBy glue t s ts := by
  have hglue := h t ts hts
  unfold spanTextBy
  cases hkind : t.kind with
  | number | identifier => exact hglue (by rw [hkind]; rfl)
  | _ => rfl

lemma span (hts : ts <:+ all) : spanBy join s ts = spanValue s ts := by
  refine bind_eq_bind rfl fun t rest ht => ?_
  obtain rfl := reads_take.1 ht
  exact bind_eq_bind (h.spanText hts) fun _ _ _ => rfl

lemma spanParameter (hts : ts <:+ all) :
    parameter "span" (spanBy join) s ts = parameter "span" spanValue s ts := by
  refine optional_eq_optional fun t rest hcons => ?_
  have hrest : rest <:+ all := (hcons ▸ rest.suffix_cons t).trans hts
  split_ifs
  · exact .some (seqRight_eq_seqRight fun _ mid hmid => h.span (hmid.isSuffix.trans hrest))
  · exact .none

lemma bin (command : Token) (hts : ts <:+ all) :
    binBy (spanBy join) command s ts = Parser.bin command s ts := by
  refine bind_eq_bind (iterate_eq_iterate (fun parts t rest hrest => ?_) _) fun _ _ _ => rfl
  have hbehind := (rest.suffix_cons t).trans (hrest.trans hts)
  split_ifs
  · exact .none
  · refine .some (bind_eq_bind rfl fun _ mid hmid => ?_)
    exact bind_eq_bind (h.span (hmid.isSuffix.trans hbehind)) fun _ _ _ => rfl
  · exact .some rfl
  · exact .some rfl
  · exact .some rfl

lemma timechart (hts : ts <:+ all) : timechartBy (spanBy join) s ts = Parser.timechart s ts := by
  refine bind_eq_bind (h.spanParameter hts) fun first mid hmid => ?_
  replace hts := hmid.isSuffix.trans hts
  refine bind_eq_bind rfl fun aggregations mid hmid => ?_
  replace hts := hmid.isSuffix.trans hts
  refine bind_eq_bind (h.spanParameter hts) fun second mid hmid => ?_
  replace hts := hmid.isSuffix.trans hts
  refine bind_eq_bind rfl fun opened mid hmid => ?_
  replace hts := hmid.isSuffix.trans hts
  split_ifs
  · refine bind_eq_bind rfl fun splitBy mid hmid => ?_
    exact bind_eq_bind (h.spanParameter (hmid.isSuffix.trans hts)) fun _ _ _ => rfl
  · refine bind_eq_bind rfl fun splitBy mid hmid => ?_
    exact bind_eq_bind (h.spanParameter (hmid.isSuffix.trans hts)) fun _ _ _ => rfl

lemma stageOf [Libraries] (token : Token) (command : Command) (hts : ts <:+ all) :
    stageOfBy (stageReadersOf join) token command s ts = Parser.stageOf token command s ts := by
  cases command with
  | search | filter | where_ => exact map_eq_map _ (h.conditions hts)
  | bin => exact h.bin token hts
  | timechart => exact h.timechart hts
  | eval => simp only [stageOfBy, stageReadersOf]
  | _ => simp only [stageOfBy]

lemma stage [Libraries] (hts : ts <:+ all) : stageBy
    (stageReadersOf join) s ts = Parser.stage s ts := by
  refine bind_eq_bind rfl fun t rest ht => ?_
  have hrest := ht.isSuffix.trans hts
  cases t.kind with
  | command command => exact h.stageOf t command hrest
  | _ => rfl

lemma firstStage [Libraries] (hts : ts <:+ all) : firstStageBy
    (stageReadersOf join) s ts = Parser.firstStage s ts := by
  refine bind_eq_bind rfl fun kind rest hkind => ?_
  have hrest := hkind.isSuffix.trans hts
  split_ifs
  · exact map_eq_map _ (h.conditions hrest)
  · exact h.stage hrest

lemma stages [Libraries] (hts : ts <:+ all) : stagesBy
    (stageReadersOf join) s ts = Parser.stages s ts := by
  refine bind_eq_bind rfl fun kind mid hmid => ?_
  replace hts := hmid.isSuffix.trans hts
  split_ifs
  · rfl
  · refine bind_eq_bind (h.firstStage hts) fun first mid hmid => ?_
    replace hts := hmid.isSuffix.trans hts
    refine bind_eq_bind (many_eq_many fun t rest hrest => ?_) fun _ _ _ => rfl
    split_ifs
    · exact .some (map_eq_map _ (h.stage ((rest.suffix_cons t).trans (hrest.trans hts))))
    · exact .none

end Glues

lemma parseTokens_eq [Libraries] {join : Token → Parser String} {limits : ParserLimits}
    {tokens : List Token}
    (h : ∀ s, Glues join s ((withoutStop tokens).takeWhile (·.kind != .eof))) :
    Gluing.parseTokens join limits tokens = parseTokens limits tokens := by
  rw [Gluing.parseTokens, map_readQuery, (h _).stages List.suffix_rfl, parseTokens_eq_stages]

/-- `glue` is called at tokens only that may be glued, in front of the tokens that follow them up to
the end of the query. -/
theorem place_of_gluesAt [Libraries] {limits : ParserLimits} {tokens ts : List Token} {t : Token}
    (h : GluesAt limits tokens t ts) :
    isGluable t.kind = true ∧ t :: ts <:+ (withoutStop tokens).takeWhile (·.kind != .eof) := by
  obtain ⟨join, hjoin, hne⟩ := h
  by_contra hplace
  refine hne (parseTokens_eq fun s u us hsuffix hglue => hjoin u us (fun heq => ?_) s)
  cases heq
  exact hplace ⟨hglue, hsuffix⟩

end LogQuery.Parser
