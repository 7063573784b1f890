import LogQuery.Proofs.Parser.Reading
import LogQuery.Proofs.Syntax.Mass
import Mathlib.Tactic.SplitIfs

/-!
# Readers pay for what they read

`p.Covers credit mass` says that the mass of what the reader `p` reads is paid for by a credit and
the tokens that it takes. A token that was taken already is part of the credit of the reader that
goes on behind it. Where readers follow one another, the mass of what the first one reads is the
credit of the second.
-/

namespace LogQuery.Parser

variable {α β : Type} {p : Parser α} {credit : Nat} {mass : α → Nat} {mass' : β → Nat}

/-- What is read weighs no more than a credit and the tokens that are taken. -/
def Covers (p : Parser α) (credit : Nat) (mass : α → Nat) : Prop :=
  ∀ ⦃s : Setting⦄ ⦃ts : List Token⦄ ⦃a : α⦄ ⦃rest : List Token⦄,
    p.Reads s ts a rest → mass a + Token.massOf rest ≤ credit + Token.massOf ts

/-- What is left of some tokens weighs no more than they do. -/
lemma massOf_le_of_isSuffix {ts rest : List Token} (h : rest <:+ ts) :
    Token.massOf rest ≤ Token.massOf ts := by
  obtain ⟨front, rfl⟩ := h
  rw [Token.massOf_append]
  exact Nat.le_add_left _ _

/-- Some tokens are not worth as much as the tokens with one more in front. -/
lemma massOf_lt_cons (t : Token) (ts : List Token) : Token.massOf ts < Token.massOf (t :: ts) := by
  rw [Token.massOf_cons]
  exact Nat.lt_add_of_pos_left t.mass_pos

namespace Covers

/-- Credit may grow, and what is paid for may shrink. -/
lemma mono {credit' : Nat} {mass' : α → Nat} (h : p.Covers credit mass) (hcredit : credit ≤ credit')
    (hmass : ∀ a, mass' a ≤ mass a) : p.Covers credit' mass' := by
  intro s ts a rest hr
  have := h hr
  have := hmass a
  omega

/-- A credit that is not needed is still there. -/
lemma saving (h : p.Covers credit mass) (saved : Nat) :
    p.Covers (saved + credit) fun a => saved + mass a := by
  intro s ts a rest hr
  have := h hr
  dsimp only
  omega

/-- Nothing is said about what is read. -/
lemma unread : p.Covers credit fun _ => credit := by
  intro s ts a rest hr
  exact Nat.add_le_add_left (massOf_le_of_isSuffix hr.isSuffix) credit

lemma pure {a : α} (h : mass a ≤ credit) : (pure a : Parser α).Covers credit mass := by
  intro s ts b rest hr
  obtain ⟨rfl, rfl⟩ := reads_pure.1 hr
  exact Nat.add_le_add_right h _

/-- The mass of the first value is the credit of what follows. -/
lemma bind {f : α → Parser β} (hp : p.Covers credit mass)
    (hf : ∀ a, (f a).Covers (mass a) mass') : (p >>= f).Covers credit mass' := by
  intro s ts b rest hr
  obtain ⟨a, mid, hpa, hfb⟩ := reads_bind.1 hr
  exact Nat.le_trans (hf a hfb) (hp hpa)

/-- What comes first leaves the credit to what comes behind it. -/
lemma bind_unread {f : α → Parser β} (hf : ∀ a, (f a).Covers credit mass') :
    (p >>= f).Covers credit mass' := bind unread hf

lemma map {f : α → β} (hp : p.Covers credit mass) (hf : ∀ a, mass' (f a) ≤ mass a) :
    (f <$> p).Covers credit mass' := by
  intro s ts b rest hr
  obtain ⟨a, hpa, rfl⟩ := reads_map.1 hr
  exact Nat.le_trans (Nat.add_le_add_right (hf a) _) (hp hpa)

lemma failAt {t : Token} {fault : ParseFault} : (failAt t fault).Covers credit mass :=
  fun _ _ _ _ h => (not_reads_failAt h).elim

lemma fail {fault : ParseFault} : (fail fault).Covers credit mass :=
  fun _ _ _ _ h => (not_reads_fail h).elim

lemma tooDeep : tooDeep.Covers credit mass := fun _ _ _ _ h => (not_reads_tooDeep h).elim

/-- A token that is taken pays with its mass. -/
lemma take {what : Expectation} : (take what).Covers credit fun t => credit + t.mass := by
  intro s ts t rest hr
  rw [reads_take.1 hr, Token.massOf_cons, Nat.add_assoc]

/-- A token that has to be of some kind is one character at least. -/
lemma expect {kind : TokenKind} {what : Expectation} :
    (expect kind what).Covers credit fun _ => credit + 1 := by
  intro s ts t rest hr
  obtain ⟨rfl, -⟩ := reads_expect.1 hr
  have := massOf_lt_cons t rest
  dsimp only
  omega

/-- A token that is accepted pays one unit. -/
lemma accept {kind : TokenKind} : (accept kind).Covers credit fun b => credit + b.toNat := by
  intro s ts b rest hr
  rcases reads_accept.1 hr with ⟨rfl, t, rfl, -⟩ | ⟨rfl, rfl, -⟩
  · have := massOf_lt_cons t rest
    dsimp only [Bool.toNat_true]
    omega
  · exact Nat.le_refl _

lemma optional {turn : Turn α} (mass : Option α → Nat) (hnone : mass none ≤ credit)
    (hsome : ∀ t rest p, turn t rest = some p → p.Covers (credit + t.mass) fun a => mass (some a)) :
    (optional turn).Covers credit mass := by
  intro s ts o rest hr
  rcases reads_optional.1 hr with ⟨rfl, rfl, -⟩ | ⟨t, ts', p, b, rfl, hturn, hp, rfl⟩
  · exact Nat.add_le_add_right hnone _
  · have := hsome t ts' p hturn hp
    dsimp only at this
    rw [Token.massOf_cons]
    omega

/-- The induction is on the number of tokens: every round takes one. -/
lemma iterate {turn : α → Turn α} (h : ∀ state t rest p, turn state t rest = some p →
      p.Covers (mass state + t.mass) mass) (state : α) :
    (iterate turn state).Covers (mass state) mass := by
  intro s ts
  induction hn : ts.length using Nat.strongRecOn generalizing ts state with
  | ind n ih =>
    intro a rest hr
    rcases reads_iterate.1 hr with ⟨rfl, rfl, -⟩ | ⟨t, ts', p, one, mid, rfl, hturn, hp, hmore⟩
    · exact Nat.le_refl _
    · have hlen : mid.length < n := by
        have := hp.isSuffix.length_le
        rw [List.length_cons] at hn
        omega
      have hone := h state t ts' p hturn hp
      have hrest := ih mid.length hlen one rfl hmore
      rw [Token.massOf_cons]
      omega

/-- The induction is on the number of tokens: every round takes one. -/
lemma many {turn : Turn (Option α)} (mass : α → Nat)
    (h : ∀ t rest p, turn t rest = some p → p.Covers t.mass fun o => o.elim 0 mass) :
    (many turn).Covers credit fun as => credit + (as.map mass).sum := by
  intro s ts
  induction hn : ts.length using Nat.strongRecOn generalizing ts with
  | ind n ih =>
    intro as rest hr
    rcases reads_many.1 hr with ⟨rfl, rfl, -⟩ | ⟨t, ts', p, one, mid, more, rfl, hturn, hp, hm, rfl⟩
    · exact Nat.le_refl _
    · have hlen : mid.length < n := by
        have := hp.isSuffix.length_le
        rw [List.length_cons] at hn
        omega
      have hone := h t ts' p hturn hp
      have hmore := ih mid.length hlen rfl hm
      have hsum : ((one.toList ++ more).map mass).sum = one.elim 0 mass + (more.map mass).sum := by
        cases one with
        | none => exact (Nat.zero_add _).symm
        | some a => exact List.sum_cons
      dsimp only at hone hmore ⊢
      rw [hsum, Token.massOf_cons]
      omega

/-- A row of values with a sign between any two of them, behind the first one. -/
lemma many_behind {sign : TokenKind} (h : p.Covers 0 mass) :
    (Parser.many fun t _ => if t.kind = sign then some (some <$> p) else none).Covers credit
      fun as => credit + (as.map mass).sum := by
  refine many mass fun t rest q hturn => ?_
  split_ifs at hturn
  cases hturn
  exact map (h.mono (Nat.zero_le _) fun _ => Nat.le_refl _) fun _ => Nat.le_refl _

/-! ### Words and what touches them -/

/-- The text of glued tokens is paid for by the tokens. -/
lemma glue (t : Token) : (glue t).Covers t.mass textMass := by
  rintro s ts text rest ⟨hrest, hr⟩
  cases hr
  have hparts := congrArg Token.massOf (splitTouching_append t.finish ts)
  have hjoin : ∀ us : List Token, (String.join (us.map Token.text)).length ≤ Token.massOf us := by
    intro us
    induction us with
    | nil => exact Nat.zero_le _
    | cons u us ih =>
      have := u.length_le_mass
      rw [List.map_cons, String.join_cons, String.length_append, Token.massOf_cons]
      omega
  have htouching := hjoin (splitTouching t.finish ts).1
  have htext := t.length_le_mass
  have hpos := t.mass_pos
  rw [Token.massOf_append] at hparts
  rw [textMass, String.length_append]
  omega

lemma fieldNameAt (t : Token) : (fieldNameAt t).Covers t.mass textMass := by
  rw [Parser.fieldNameAt]
  split_ifs
  · exact pure (Nat.le_refl _)
  · exact failAt

lemma fieldName : fieldName.Covers credit fun name => credit + textMass name := by
  exact bind take fun t => (fieldNameAt t).saving credit

lemma outputName : outputName.Covers credit fun name => credit + textMass name := by
  refine bind take fun t => ?_
  split_ifs
  · exact pure (Nat.le_refl _)
  · exact failAt

/-- A parameter, if it is there, pays for its value. -/
lemma parameter {name : String} (h : p.Covers 0 mass) :
    (parameter name p).Covers credit fun o => credit + o.elim 0 mass := by
  refine optional (fun o => credit + o.elim 0 mass) (Nat.le_refl _) fun t rest q hturn => ?_
  split_ifs at hturn
  cases hturn
  change (Parser.expect (.symbol .eq) .equalsSign >>= fun _ => p).Covers _ _
  exact bind_unread fun _ => (h.saving credit).mono (Nat.le_add_right _ _) fun _ => Nat.le_refl _

end Covers

end LogQuery.Parser
