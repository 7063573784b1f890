import LogQuery.Proofs.Parser.Reading
import Mathlib.Data.List.Forall2
import Mathlib.Data.Option.Basic
import Mathlib.Tactic.SplitIfs

/-!
# Two readers side by side

Two queries may have tokens of the same kinds and texts at different places. Of the places a reader
only asks whether a token touches one in front of it, when it glues words. A `Correspondence` pairs
the tokens of two queries such that also these answers agree, and `Agree` says that two readers end
alike on corresponding tokens: with values in a given relation and corresponding tokens left, or
with the same fault at corresponding tokens.

The two may also be read under different limits. Then a reader that counts levels can refuse the one
and not the other, so all other readers are kept apart from those: they end alike under any limits,
and never with a fault that a limit is to blame for.

There is one rule for each way of building readers, so that no proof about a reader of the language
has to look at how its two runs proceed.
-/

namespace LogQuery

/-- The query is too long or nests too deep. -/
def ParseFault.isLimit : ParseFault → Bool
  | .tooManyTokens _ | .tooDeep _ => true
  | _ => false

namespace Parser

/-- Pairs of tokens that no reader can tell apart, and the limits of nesting under which the two
queries are read. -/
structure Correspondence where
  Twin : Token → Token → Prop
  Limits : Nat → Nat → Prop
  kind_eq : ∀ {t t'}, Twin t t' → t.kind = t'.kind
  text_eq : ∀ {t t'}, Twin t t' → t.text = t'.text
  /-- The one token touches what is in front of it if and only if the other one does. -/
  touches : ∀ {t t' u u'}, Twin t t' → Twin u u' → isGluable t.kind = true →
    (u.position = t.finish ↔ u'.position = t'.finish)

variable {α β γ δ : Type} {W : Correspondence}

/-- The two queries are read under the same limit. -/
def Correspondence.SameLimit (W : Correspondence) : Prop := ∀ ⦃n n'⦄, W.Limits n n' → n = n'

/-- The next tokens are of the same kind. -/
lemma Correspondence.any_head?_kind (W : Correspondence) (p : TokenKind → Bool)
    {ts ts' : List Token} (h : List.Forall₂ W.Twin ts ts') :
    ts.head?.any (fun t => p t.kind) = ts'.head?.any fun t => p t.kind := by
  cases h with
  | nil => rfl
  | cons ht _ => simp only [List.head?_cons, Option.any_some, W.kind_eq ht]

/-- The ends of two runs are alike. -/
inductive SameEnd (W : Correspondence) (S : α → β → Prop) {ts ts' : List Token} :
    Except ParseError (Parsed α ts) → Except ParseError (Parsed β ts') → Prop where
  | ok {a : Parsed α ts} {b : Parsed β ts'} (value : S a.value b.value)
      (rest : List.Forall₂ W.Twin a.rest b.rest) : SameEnd W S (.ok a) (.ok b)
  | error {e e' : ParseError} (fault : e.fault = e'.fault) (token : W.Twin e.token e'.token)
      (limit : e.fault.isLimit = true → W.SameLimit) : SameEnd W S (.error e) (.error e')

/-- The readers end alike on corresponding tokens. -/
def Agree (W : Correspondence) (S : α → β → Prop) (p : Parser α) (q : Parser β) : Prop :=
  ∀ ⦃s s' : Setting⦄ ⦃ts ts' : List Token⦄,
    W.Twin s.stop s'.stop → W.Limits s.maxDepth s'.maxDepth →
    List.Forall₂ W.Twin ts ts' → SameEnd W S (p s ts) (q s' ts')

/-- The turns agree: on corresponding tokens both go on, with readers that agree, or neither. -/
def TurnsAgree (W : Correspondence) (S : α → β → Prop) (turn : Turn α) (turn' : Turn β) : Prop :=
  ∀ ⦃t t' : Token⦄ ⦃rest rest' : List Token⦄, W.Twin t t' → List.Forall₂ W.Twin rest rest' →
    Option.Rel (Agree W S) (turn t rest) (turn' t' rest')

namespace Agree

variable {S : α → β → Prop} {T : γ → δ → Prop} {p : Parser α} {q : Parser β} {t t' : Token}

lemma pure {a : α} {b : β} (h : S a b) : Agree W S (pure a) (pure b) :=
  fun _ _ _ _ _ _ hts => .ok h hts

/-- Values may be related less closely. -/
lemma mono {S' : α → β → Prop} (h : Agree W S p q) (hS : ∀ a b, S a b → S' a b) :
    Agree W S' p q := by
  intro s s' ts ts' hstop hlimit hts
  have hend := h hstop hlimit hts
  generalize p s ts = r at hend ⊢
  generalize q s' ts' = r' at hend ⊢
  cases hend with
  | error fault token limit => exact .error fault token limit
  | ok value rest => exact .ok (hS _ _ value) rest

/-- Both sides fail alike at twin tokens, unless the fault names a limit. -/
lemma failAt {fault : ParseFault} (ht : W.Twin t t') (h : fault.isLimit = false) :
    Agree W S (failAt t fault) (failAt t' fault) :=
  fun _ _ _ _ _ _ _ => .error rfl ht fun hlimit => by simp [h] at hlimit

lemma fail {fault : ParseFault} (h : fault.isLimit = true → W.SameLimit) :
    Agree W S (fail fault) (fail fault) := by
  intro s s' ts ts' hstop _ hts
  cases hts with
  | nil => exact .error rfl hstop h
  | cons ht _ => exact .error rfl ht h

/-- Only this fault names a limit, so the limits have to be the same. -/
lemma tooDeep (hW : W.SameLimit) : Agree W S tooDeep tooDeep := by
  intro s s' ts ts' hstop hlimit hts
  rw [Parser.tooDeep, Parser.tooDeep, hW hlimit]
  exact fail (fun _ => hW) hstop hlimit hts

lemma nextKind? : Agree W Eq nextKind? nextKind? := by
  intro s s' ts ts' _ _ hts
  refine .ok ?_ hts
  cases hts with
  | nil => rfl
  | cons ht _ => exact congrArg some (W.kind_eq ht)

lemma take (what : Expectation) : Agree W W.Twin (take what) (take what) := by
  intro s s' ts ts' hstop _ hts
  cases hts with
  | nil => exact .error rfl hstop nofun
  | cons ht hts => exact .ok ht hts

/-- What follows has to agree on related values only. -/
lemma bind {f : α → Parser γ} {g : β → Parser δ} (hp : Agree W S p q)
    (hf : ∀ a b, S a b → Agree W T (f a) (g b)) : Agree W T (p >>= f) (q >>= g) := by
  intro s s' ts ts' hstop hlimit hts
  have hfirst := hp hstop hlimit hts
  rw [bind_apply, bind_apply]
  generalize p s ts = first at hfirst ⊢
  generalize q s' ts' = first' at hfirst ⊢
  cases hfirst with
  | error fault token limit => exact .error fault token limit
  | @ok a b value rest =>
    have hsecond := hf a.value b.value value hstop hlimit rest
    dsimp only
    generalize f a.value s a.rest = second at hsecond ⊢
    generalize g b.value s' b.rest = second' at hsecond ⊢
    cases hsecond with
    | error fault token limit => exact .error fault token limit
    | ok value rest => exact .ok value rest

/-- What the first readers read is the same. -/
lemma bind_eq {p q : Parser α} {f : α → Parser γ} {g : α → Parser δ} (hp : Agree W Eq p q)
    (hf : ∀ a, Agree W T (f a) (g a)) : Agree W T (p >>= f) (q >>= g) := by
  refine bind hp ?_
  rintro a _ rfl
  exact hf a

lemma map {f : α → γ} {g : β → δ} (hp : Agree W S p q) (hf : ∀ a b, S a b → T (f a) (g b)) :
    Agree W T (f <$> p) (g <$> q) := bind hp fun a b h => pure (hf a b h)

lemma map_eq {p q : Parser α} (f : α → γ) (hp : Agree W Eq p q) : Agree W Eq (f <$> p) (f <$> q) :=
  map hp fun _ _ h => congrArg f h

lemma expect (kind : TokenKind) (what : Expectation) :
    Agree W W.Twin (expect kind what) (expect kind what) := by
  refine bind (take what) fun t t' ht => ?_
  rw [← W.kind_eq ht]
  split
  · exact pure ht
  · exact failAt ht rfl

/-- Both sides take the turn or both leave it. -/
lemma optional {turn : Turn α} {turn' : Turn β} (h : TurnsAgree W S turn turn') :
    Agree W (Option.Rel S) (optional turn) (optional turn') := by
  intro s s' ts ts' hstop hlimit hts
  cases hts with
  | nil => exact .ok .none .nil
  | @cons t t' rest rest' ht hrest =>
    have hturn := h ht hrest
    simp only [Parser.optional]
    generalize turn t rest = round at hturn ⊢
    generalize turn' t' rest' = round' at hturn ⊢
    cases hturn with
    | none => exact .ok .none (.cons ht hrest)
    | @some p q hp =>
      have hone := hp hstop hlimit hrest
      dsimp only
      generalize p s rest = one at hone ⊢
      generalize q s' rest' = one' at hone ⊢
      cases hone with
      | error fault token limit => exact .error fault token limit
      | ok value rest => exact .ok (.some value) rest

lemma optional_eq {turn turn' : Turn α} (h : TurnsAgree W Eq turn turn') :
    Agree W Eq (Parser.optional turn) (Parser.optional turn') := by
  refine mono (optional h) fun a b hab => ?_
  cases hab with
  | none => rfl
  | some heq => exact congrArg some heq

/-- The induction is on the number of tokens, as in the loop. -/
lemma iterate {turn turn' : α → Turn α} (h : ∀ state, TurnsAgree W Eq (turn state) (turn' state))
    (state : α) : Agree W Eq (iterate turn state) (iterate turn' state) := by
  intro s s' ts
  induction hn : ts.length using Nat.strongRecOn generalizing state ts with
  | ind n ih =>
    intro ts' hstop hlimit hts
    rw [iterate.eq_def turn, iterate.eq_def turn']
    cases hts with
    | nil => exact .ok rfl .nil
    | @cons t t' rest rest' ht hrest =>
      have hturn := h state ht hrest
      dsimp only
      generalize turn state t rest = round at hturn ⊢
      generalize turn' state t' rest' = round' at hturn ⊢
      cases hturn with
      | none => exact .ok rfl (.cons ht hrest)
      | @some p q hp =>
        have hone := hp hstop hlimit hrest
        dsimp only
        generalize p s rest = one at hone ⊢
        generalize q s' rest' = one' at hone ⊢
        cases hone with
        | error fault token limit => exact .error fault token limit
        | @ok a b value hafter =>
          have hlen : a.rest.length < n := by
            have hle := a.isSuffix.length_le
            rw [List.length_cons] at hn
            omega
          have hmore := ih a.rest.length hlen a.value rfl hstop hlimit hafter
          dsimp only
          rw [← value]
          generalize Parser.iterate turn a.value s a.rest = more at hmore ⊢
          generalize Parser.iterate turn' a.value s' b.rest = more' at hmore ⊢
          cases hmore with
          | error fault token limit => exact .error fault token limit
          | ok value rest => exact .ok value rest

/-- The turns may differ, but they take twin tokens one by one. -/
lemma many {turn turn' : Turn (Option α)} (h : TurnsAgree W Eq turn turn') :
    Agree W Eq (many turn) (many turn') := by
  intro s s' ts
  induction hn : ts.length using Nat.strongRecOn generalizing ts with
  | ind n ih =>
    intro ts' hstop hlimit hts
    rw [many.eq_def turn, many.eq_def turn']
    cases hts with
    | nil => exact .ok rfl .nil
    | @cons t t' rest rest' ht hrest =>
      have hturn := h ht hrest
      dsimp only
      generalize turn t rest = round at hturn ⊢
      generalize turn' t' rest' = round' at hturn ⊢
      cases hturn with
      | none => exact .ok rfl (.cons ht hrest)
      | @some p q hp =>
        have hone := hp hstop hlimit hrest
        dsimp only
        generalize p s rest = one at hone ⊢
        generalize q s' rest' = one' at hone ⊢
        cases hone with
        | error fault token limit => exact .error fault token limit
        | @ok a b value hafter =>
          have hlen : a.rest.length < n := by
            have hle := a.isSuffix.length_le
            rw [List.length_cons] at hn
            omega
          have hmore := ih a.rest.length hlen rfl hstop hlimit hafter
          dsimp only
          rw [← value]
          generalize Parser.many turn s a.rest = more at hmore ⊢
          generalize Parser.many turn' s' b.rest = more' at hmore ⊢
          cases hmore with
          | error fault token limit => exact .error fault token limit
          | ok value' rest => exact .ok (congrArg (a.value.toList ++ ·) value') rest

/-! ### Words -/

/-- Corresponding tokens are glued to corresponding tokens. -/
lemma splitTouching {ts ts' : List Token} (ht : W.Twin t t') (hglue : isGluable t.kind = true)
    (hts : List.Forall₂ W.Twin ts ts') :
    List.Forall₂ W.Twin (splitTouching t.finish ts).1 (splitTouching t'.finish ts').1 ∧
      List.Forall₂ W.Twin (splitTouching t.finish ts).2 (splitTouching t'.finish ts').2 := by
  induction hts generalizing t t' with
  | nil => exact ⟨.nil, .nil⟩
  | @cons u u' rest rest' hu hrest ih =>
    have hcondition : (isGluable u.kind && u.position == t.finish) =
        (isGluable u'.kind && u'.position == t'.finish) := by
      rw [W.kind_eq hu, Bool.eq_iff_iff, Bool.and_eq_true, Bool.and_eq_true, beq_iff_eq,
        beq_iff_eq, W.touches ht hu hglue]
    rw [Parser.splitTouching, Parser.splitTouching, ← hcondition]
    split
    · next htouches =>
      rw [Bool.and_eq_true] at htouches
      obtain ⟨hwords, hmore⟩ := ih hu htouches.1
      exact ⟨.cons hu hwords, hmore⟩
    · exact ⟨.nil, .cons hu hrest⟩

/-- Twins touch what follows them on both sides or on neither. -/
lemma glue (ht : W.Twin t t') (hglue : isGluable t.kind = true) :
    Agree W Eq (glue t) (glue t') := by
  intro s s' ts ts' _ _ hts
  obtain ⟨hwords, hrest⟩ := splitTouching ht hglue hts
  refine .ok ?_ hrest
  have htexts : (Parser.splitTouching t.finish ts).1.map Token.text =
      (Parser.splitTouching t'.finish ts').1.map Token.text := by
    rw [← List.forall₂_eq_eq_eq, List.forall₂_map_left_iff, List.forall₂_map_right_iff]
    exact hwords.imp fun _ _ h => W.text_eq h
  change t.text ++ String.join _ = t'.text ++ String.join _
  rw [W.text_eq ht, htexts]

/-- The text of a token, if that is of a kind that both tokens are of. -/
lemma textIf {fault : ParseFault} (ht : W.Twin t t') (accepts : TokenKind → Bool)
    (hfault : fault.isLimit = false) :
    Agree W Eq (if accepts t.kind = true then Pure.pure t.text else Parser.failAt t fault)
      (if accepts t'.kind = true then Pure.pure t'.text else Parser.failAt t' fault) := by
  rw [← W.kind_eq ht, ← W.text_eq ht]
  split
  · exact pure rfl
  · exact failAt ht hfault

lemma fieldNameAt (ht : W.Twin t t') : Agree W Eq (fieldNameAt t) (fieldNameAt t') :=
  textIf ht TokenKind.isWord rfl

lemma fieldName : Agree W Eq fieldName fieldName := bind (take _) fun _ _ ht => fieldNameAt ht

lemma outputName : Agree W Eq outputName outputName :=
  bind (take _) fun _ _ ht => textIf ht (fun kind => kind.isWord || kind == .string) rfl

lemma startsParameter {rest rest' : List Token} (name : String) (ht : W.Twin t t')
    (hrest : List.Forall₂ W.Twin rest rest') :
    startsParameter name t rest = startsParameter name t' rest' := by
  rw [Parser.startsParameter, Parser.startsParameter, W.kind_eq ht, W.text_eq ht,
    W.any_head?_kind (· == .symbol .eq) hrest]

lemma parameter (name : String) {value : Parser α} (h : Agree W Eq value value) :
    Agree W Eq (parameter name value) (parameter name value) := by
  refine optional_eq fun t t' rest rest' ht hrest => ?_
  rw [← startsParameter name ht hrest]
  split
  · exact .some (bind (expect _ _) fun _ _ _ => h)
  · exact .none

lemma accept (kind : TokenKind) : Agree W Eq (accept kind) (accept kind) := by
  refine bind_eq (optional_eq fun t t' rest rest' ht _ => ?_) fun _ => pure rfl
  rw [← W.kind_eq ht]
  split
  · exact .some (pure rfl)
  · exact .none

end Agree

end Parser

end LogQuery
