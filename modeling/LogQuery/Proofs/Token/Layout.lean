import LogQuery.Parser.Basic
import LogQuery.Proofs.Token.Tiling
import Mathlib.Data.List.Forall2

namespace LogQuery

/-! ### The order of positions -/

namespace Position

variable {p q r : Position} {cs : List Char}

def Before (p q : Position) : Prop := p.line < q.line ∨ p.line = q.line ∧ p.column < q.column

def AtOrBefore (p q : Position) : Prop := q = p ∨ p.Before q

lemma Before.trans (h : p.Before q) (h' : q.Before r) : p.Before r := by
  rw [Before] at h h' ⊢
  omega

lemma Before.ne (h : p.Before q) : p ≠ q := by
  rintro rfl
  rw [Before] at h
  omega

lemma Before.ne' (h : p.Before q) : q ≠ p := h.ne.symm

lemma AtOrBefore.trans_before (h : p.AtOrBefore q) (h' : q.Before r) : p.Before r := by
  rcases h with rfl | h
  · exact h'
  · exact h.trans h'

lemma Before.trans_atOrBefore (h : p.Before q) (h' : q.AtOrBefore r) : p.Before r := by
  rcases h' with rfl | h'
  · exact h
  · exact h.trans h'

lemma before_next (p : Position) (c : Char) : p.Before (p.next c) := by
  rw [Before, next]
  split <;> simp

lemma atOrBefore_after (p : Position) (cs : List Char) : p.AtOrBefore (p.after cs) := by
  induction cs generalizing p with
  | nil => exact .inl rfl
  | cons c cs ih => exact .inr ((before_next p c).trans_atOrBefore (ih (p.next c)))

lemma before_after (p : Position) (h : cs ≠ []) : p.Before (p.after cs) := by
  cases cs with
  | nil => exact absurd rfl h
  | cons c cs => exact (before_next p c).trans_atOrBefore (atOrBefore_after (p.next c) cs)

lemma after_eq_self_iff : p.after cs = p ↔ cs = [] := by
  constructor
  · intro h
    by_contra hne
    exact (before_after p hne).ne h.symm
  · rintro rfl
    rfl

/-- Within a line, the columns count the characters. -/
lemma after_of_not_mem (h : '\n' ∉ cs) : p.after cs = ⟨p.line, p.column + cs.length⟩ := by
  induction cs generalizing p with
  | nil => rfl
  | cons c cs ih =>
    rw [List.mem_cons, not_or] at h
    have hnext : p.next c = ⟨p.line, p.column + 1⟩ := if_neg (Ne.symm h.1)
    change (p.next c).after cs = _
    rw [ih h.2, hnext, List.length_cons, Nat.add_assoc, Nat.add_comm 1]

end Position

open Lexer

/-! ### The source of a token is determined -/

/-- What stands in a text for a token is determined by the text and the token. -/
lemma Writes.source_unique {kind : TokenKind} {source source' text rest rest' : List Char}
    (h : Writes kind source text) (h' : Writes kind source' text)
    (heq : source ++ rest = source' ++ rest') : source = source' := by
  cases h with
  | @string quote body text hquote h =>
    cases h' with
    | @string quote' body' _ hquote' h' =>
      simp only [List.cons_append, List.append_assoc, List.nil_append, List.cons.injEq] at heq
      obtain ⟨rfl, hbody⟩ := heq
      have hne : quote ≠ '\\' := by rcases hquote with rfl | rfl <;> decide
      have hsplit := h.splitString hne rest
      rw [hbody, h'.splitString hne rest'] at hsplit
      rw [Option.some.injEq, Quoted.mk.injEq] at hsplit
      rw [hsplit.2.1]
    | verbatim hstring => exact absurd rfl hstring
  | regex h =>
    cases h' with
    | regex => rfl
    | verbatim hstring hregex => exact absurd rfl hregex
  | verbatim hstring hregex => exact h'.source_eq hstring hregex

namespace Lexer

variable {afterOperand : Bool} {cs rest rest' : List Char} {l : Lexeme}

/-! ### What is ahead of a gap -/

lemma ahead_cons {c : Char} (hc : opensGap c = false) : ahead (c :: rest) = some c :=
  ahead_eq_some.2 ⟨rfl, hc⟩

lemma ahead_of_opensGap {c : Char} (hc : opensGap c = true) : ahead (c :: rest) = none := by
  simp [ahead, hc]

lemma ahead_gap {gap : List Char} (h : IsGap gap) (hne : gap ≠ []) :
    ahead (gap ++ rest) = none := by
  cases h with
  | nil => exact absurd rfl hne
  | blank hc h => exact ahead_of_opensGap (by simp [opensGap, hc])
  | comment htext h => exact ahead_of_opensGap (by decide)

lemma ahead_lastGap {gap : List Char} (h : IsLastGap gap) : ahead gap = none := by
  cases h with
  | closed h =>
    by_cases hne : gap = []
    · rw [hne]
      rfl
    · have hahead : ahead (gap ++ []) = none := ahead_gap h hne
      rwa [List.append_nil] at hahead
  | @comment gap text h htext =>
    by_cases hne : gap = []
    · subst hne
      exact ahead_of_opensGap (by decide)
    · exact ahead_gap h hne

/-! ### Where lexemes end -/

lemma not_mem_of_isGluable {kind : TokenKind} (h : Parser.isGluable kind = true) :
    kind ≠ .string ∧ kind ≠ .regex := by
  constructor <;> rintro rfl <;> cases h

/-- The finish of a token that may be glued to others is the place behind its lexeme. -/
lemma Lexes.finish (h : Lexes afterOperand cs l) (hglue : Parser.isGluable l.kind = true)
    (p : Position) : Token.finish ⟨l.kind, String.ofList l.text, p⟩ = p.after l.source := by
  obtain ⟨hstring, hregex⟩ := not_mem_of_isGluable hglue
  have hline : '\n' ∉ l.source := by
    intro hmem
    have hblank := h.not_opensGap hstring hregex _ hmem
    exact absurd hblank (by decide)
  rw [Position.after_of_not_mem hline, ← h.writes.source_eq hstring hregex]
  simp [Token.finish]

/-! ### Reading along the tiles -/

/-- No gap begins where a token stands. -/
lemma Lexes.opensGap_of_writes (h : Lexes afterOperand cs l) {source : List Char}
    (hwrites : Writes l.kind source l.text) :
    ∃ c more, source = c :: more ∧ opensGap c = false := by
  generalize hkind : l.kind = kind at hwrites
  generalize htext : l.text = text at hwrites
  cases hwrites with
  | string hquote =>
    refine ⟨_, _, rfl, ?_⟩
    rcases hquote with rfl | rfl <;> decide
  | regex => exact ⟨'/', _, rfl, by decide⟩
  | verbatim hstring hregex =>
    obtain ⟨c, more, hsource, hc, -⟩ := h.head
    subst hkind htext
    exact ⟨c, more, (h.writes.source_eq hstring hregex).trans hsource, hc⟩

/-- Where a gap ends in front of what is no gap is determined. -/
lemma IsGap.unique {gap gap' : List Char} (h : IsGap gap) (h' : IsGap gap') {c c' : Char}
    (hc : opensGap c = false) (hc' : opensGap c' = false)
    (heq : gap ++ c :: rest = gap' ++ c' :: rest') : gap = gap' := by
  have hsplit := h.splitGap_append (c :: rest)
  rw [heq, h'.splitGap_append, splitGap_of_not_opensGap hc, splitGap_of_not_opensGap hc'] at hsplit
  rw [Prod.mk.injEq, List.append_nil, List.append_nil] at hsplit
  exact hsplit.1.symm

lemma drop_eq_extract_append (cs : List Char) {start stop : Nat} (h : start ≤ stop) :
    cs.drop start = cs.extract start stop ++ cs.drop stop := by
  have hstop : cs.drop stop = (cs.drop start).drop (stop - start) := by
    rw [List.drop_drop, Nat.add_sub_cancel' h]
  rw [List.extract_eq_take_drop, hstop, List.take_append_drop]

/-- The first token that is read is that of the first tile. -/
lemma Lexing.of_tile {previous : Option TokenKind} {position : Position} {done start stop : Nat}
    {t : Token} {ts : List Token}
    (h : Lexing previous position (cs.drop done) (t :: ts))
    (hstart : done ≤ start) (hgap : IsGap (cs.extract done start)) (hstop : start < stop)
    (ht : t.StandsAt cs start stop) :
    ∃ l, Lexes (previous.any TokenKind.endsOperand) (cs.drop start) l ∧
      l.source = cs.extract start stop ∧ l.rest = cs.drop stop ∧
      t = ⟨l.kind, String.ofList l.text, position.after (cs.extract done start)⟩ ∧
      Lexing (some l.kind) ((position.after (cs.extract done start)).after (cs.extract start stop))
        (cs.drop stop) ts := by
  generalize htext : cs.drop done = text at h
  generalize hrow : t :: ts = row at h
  cases h with
  | stop hlast =>
    cases hrow
    exact absurd rfl ht.notEof
  | @lexeme _ _ gap cs' l ts' hgap' hl h =>
    cases hrow
    have hwrites := ht.writes
    rw [String.toList_ofList] at hwrites
    obtain ⟨c, more, hsource, hc⟩ := hl.opensGap_of_writes hwrites
    obtain ⟨c', more', hsource', hc', -⟩ := hl.head
    have hsplit : cs.drop start = cs.extract start stop ++ cs.drop stop :=
      drop_eq_extract_append cs (Nat.le_of_lt hstop)
    have hcs : cs' = c' :: (more' ++ l.rest) := by rw [← hl.source_append, hsource']; rfl
    have hgaps : cs.extract done start = gap := by
      rw [drop_eq_extract_append cs hstart, hsplit, hsource, hcs] at htext
      exact hgap.unique hgap' hc hc' htext
    have hcs' : cs.drop start = cs' := by
      rw [drop_eq_extract_append cs hstart, hgaps] at htext
      exact List.append_cancel_left htext
    have hsources : l.source = cs.extract start stop := by
      have happend : l.source ++ l.rest = cs.extract start stop ++ cs.drop stop := by
        rw [hl.source_append, ← hsplit, hcs']
      exact hl.writes.source_unique hwrites happend
    have hrest : l.rest = cs.drop stop := by
      have happend := hl.source_append
      rw [← hcs', hsplit, hsources] at happend
      exact List.append_cancel_left happend
    rw [hgaps, ← hsources, ← hrest, hcs']
    exact ⟨l, hl, rfl, rfl, rfl, h⟩

lemma Lexing.position_of_stop {previous : Option TokenKind} {position here : Position}
    (h : Lexing previous position cs [⟨.eof, "", here⟩]) : here = position.after cs := by
  generalize hrow : [(⟨.eof, "", here⟩ : Token)] = row at h
  cases h with
  | stop hlast =>
    cases hrow
    rfl
  | @lexeme _ _ _ _ l _ hgap hl h =>
    rw [List.cons.injEq, Token.mk.injEq] at hrow
    exact absurd hrow.1.1.symm hl.kind_ne_eof

end Lexer

/-! ### Other layouts -/

/-- From an offset on, the second text has the tokens of the first one, which stand at the given
offsets, and other gaps around them, none of them where there is none in the first text. -/
inductive Relaid (cs : List Char) : Nat → List (Nat × Nat) → List Char → Prop where
  | stop {done : Nat} {gap : List Char} (hgap : IsLastGap gap)
      (hempty : gap = [] ↔ cs.drop done = []) : Relaid cs done [] gap
  | token {done start stop : Nat} {extents : List (Nat × Nat)} {gap rest : List Char}
      (hgap : IsGap gap) (hempty : gap = [] ↔ cs.extract done start = [])
      (h : Relaid cs stop extents rest) :
      Relaid cs done ((start, stop) :: extents) (gap ++ (cs.extract start stop ++ rest))

/-- Two rows of tokens, each behind a place of its own, that differ in positions only, and in which
the same tokens touch what is in front of them. -/
inductive Paired : Position → Position → List Token → List Token → Prop where
  | nil {p p' : Position} : Paired p p' [] []
  | cons {p p' e e' : Position} {t t' : Token} {ts ts' : List Token} (hkind : t.kind = t'.kind)
      (htext : t.text = t'.text) (htouch : t.position = p ↔ t'.position = p')
      (hfinish : Parser.isGluable t.kind = true → t.finish = e ∧ t'.finish = e')
      (hp : p.AtOrBefore t.position) (hp' : p'.AtOrBefore t'.position)
      (he : t.position.Before e) (he' : t'.position.Before e') (h : Paired e e' ts ts') :
      Paired p p' (t :: ts) (t' :: ts')

section Relaid

variable {cs r : List Char} {done : Nat} {extents : List (Nat × Nat)} {ts : List Token}
  {previous : Option TokenKind} {position : Position}

/-- What a lexeme can see behind it is the same in both layouts. -/
lemma Relaid.ahead_eq (hr : Relaid cs done extents r) (htiles : Tiles cs done extents ts)
    (h : Lexing previous position (cs.drop done) ts) :
    ahead r = ahead (cs.drop done) ∧ ahead r ≠ some '.' := by
  cases htiles with
  | stop hlast =>
    cases hr with
    | stop hgap hempty =>
      rw [ahead_lastGap hgap, ahead_lastGap hlast]
      exact ⟨rfl, nofun⟩
  | @token _ start _ _ _ _ hstart hgap hstop hend ht htiles =>
    cases hr with
    | @token _ _ _ _ gap rest hgap' hempty hr =>
      rw [drop_eq_extract_append cs hstart]
      by_cases hnil : gap = []
      · obtain ⟨l, hl, hsource, -⟩ := h.of_tile hstart hgap hstop ht
        obtain ⟨c, more, hcons, hc, hpoint⟩ := hl.head
        rw [hnil, hempty.1 hnil, drop_eq_extract_append cs (Nat.le_of_lt hstop), ← hsource, hcons,
          List.nil_append, List.nil_append, List.cons_append, List.cons_append,
          ahead_cons hc, ahead_cons hc]
        exact ⟨rfl, fun heq => hpoint (Option.some.inj heq)⟩
      · have hnil' : cs.extract done start ≠ [] := fun heq => hnil (hempty.2 heq)
        rw [ahead_gap hgap' hnil, ahead_gap hgap hnil']
        exact ⟨rfl, nofun⟩

/-- A new layout of a query is read as the same tokens, of which the same touch. -/
lemma Lexer.Lexing.relaid (htiles : Tiles cs done extents ts)
    (h : Lexing previous position (cs.drop done) ts) (hr : Relaid cs done extents r)
    (position' : Position) :
    ∃ ts', Lexing previous position' r ts' ∧ Paired position position' ts ts' := by
  induction htiles generalizing previous position position' r with
  | @stop done hlast =>
    cases hr with
    | @stop _ gap hgap hempty =>
      refine ⟨_, .stop hgap, ?_⟩
      rw [h.position_of_stop]
      refine .cons rfl rfl ?_ nofun (Position.atOrBefore_after _ _)
        (Position.atOrBefore_after _ _) (Position.before_next _ ' ') (Position.before_next _ ' ')
        .nil
      rw [Position.after_eq_self_iff, Position.after_eq_self_iff, hempty]
  | @token done start stop extents t ts hstart hgap hstop hend ht htiles ih =>
    obtain ⟨l, hl, hsource, hrest, rfl, hmore⟩ := h.of_tile hstart hgap hstop ht
    cases hr with
    | @token _ _ _ _ gap rest hgap' hempty hr =>
      obtain ⟨ts', hts', hpaired⟩ :=
        ih hmore hr ((position'.after gap).after (cs.extract start stop))
      obtain ⟨hahead, hpoint⟩ := hr.ahead_eq htiles hmore
      have hl' : Lexes (previous.any TokenKind.endsOperand) (cs.extract start stop ++ rest)
          { l with rest := rest } := by
        rw [← hsource]
        rw [← hrest] at hahead
        exact hl.behind hahead hpoint
      have hne : cs.extract start stop ≠ [] := by
        obtain ⟨c, more, hcons, -⟩ := hl.head
        rw [← hsource, hcons]
        exact List.cons_ne_nil c more
      refine ⟨_, .lexeme hgap' hl' (hsource ▸ hts'), ?_⟩
      refine .cons rfl rfl ?_ ?_ (Position.atOrBefore_after _ _)
        (Position.atOrBefore_after _ _) (Position.before_after _ hne)
        (Position.before_after _ hne) hpaired
      · rw [Position.after_eq_self_iff, Position.after_eq_self_iff, hempty]
      · intro hglue
        rw [← hsource]
        exact ⟨hl.finish hglue _, hl.finish hglue _⟩

end Relaid

/-! ### Which tokens touch -/

namespace Paired

variable {p p' : Position} {ts ts' : List Token} {t t' u u' : Token}

lemma alike (h : Paired p p' ts ts') :
    List.Forall₂ (fun t t' => t.kind = t'.kind ∧ t.text = t'.text) ts ts' := by
  induction h with
  | nil => exact .nil
  | cons hkind htext _ _ _ _ _ _ _ ih => exact .cons ⟨hkind, htext⟩ ih

/-- No token is in front of the place that the row is behind. -/
lemma atOrBefore (h : Paired p p' ts ts') (ht : (t, t') ∈ ts.zip ts') :
    p.AtOrBefore t.position ∧ p'.AtOrBefore t'.position := by
  induction h with
  | nil => cases ht
  | cons _ _ _ _ hp hp' he he' h ih =>
    rcases List.mem_cons.1 ht with heq | ht
    · cases heq
      exact ⟨hp, hp'⟩
    · obtain ⟨hle, hle'⟩ := ih ht
      exact ⟨.inr ((hp.trans_before he).trans_atOrBefore hle),
        .inr ((hp'.trans_before he').trans_atOrBefore hle')⟩

/-- Only the first token of a row can touch what is in front of the row. -/
lemma touches_start (h : Paired p p' ts ts') (hu : (u, u') ∈ ts.zip ts') :
    u.position = p ↔ u'.position = p' := by
  cases h with
  | nil => cases hu
  | cons _ _ htouch _ hp hp' he he' h =>
    rcases List.mem_cons.1 hu with heq | hu
    · cases heq
      exact htouch
    · obtain ⟨hle, hle'⟩ := h.atOrBefore hu
      exact iff_of_false ((hp.trans_before he).trans_atOrBefore hle).ne'
        ((hp'.trans_before he').trans_atOrBefore hle').ne'

/-- A token that may be glued to others ends behind its place, and in front of those behind it. -/
lemma before_finish (h : Paired p p' ts ts') (ht : (t, t') ∈ ts.zip ts')
    (hglue : Parser.isGluable t.kind = true) :
    t.position.Before t.finish ∧ t'.position.Before t'.finish := by
  induction h with
  | nil => cases ht
  | cons _ _ _ hfinish _ _ he he' h ih =>
    rcases List.mem_cons.1 ht with heq | ht
    · cases heq
      obtain ⟨hend, hend'⟩ := hfinish hglue
      rw [hend, hend']
      exact ⟨he, he'⟩
    · exact ih ht

/-- A token touches another one in both rows or in neither. -/
lemma touches (h : Paired p p' ts ts') (ht : (t, t') ∈ ts.zip ts') (hu : (u, u') ∈ ts.zip ts')
    (hglue : Parser.isGluable t.kind = true) :
    u.position = t.finish ↔ u'.position = t'.finish := by
  have hbefore := h.before_finish ht hglue
  induction h with
  | nil => cases ht
  | cons _ _ _ hfinish _ _ he he' h ih =>
    rcases List.mem_cons.1 ht with heq | htail <;> rcases List.mem_cons.1 hu with heq' | hutail
    · cases heq
      cases heq'
      exact iff_of_false hbefore.1.ne hbefore.2.ne
    · cases heq
      obtain ⟨hend, hend'⟩ := hfinish hglue
      rw [hend, hend']
      exact h.touches_start hutail
    · cases heq'
      obtain ⟨hle, hle'⟩ := h.atOrBefore htail
      exact iff_of_false ((he.trans_atOrBefore hle).trans hbefore.1).ne
        ((he'.trans_atOrBefore hle').trans hbefore.2).ne
    · exact ih htail hutail

end Paired

end LogQuery
