import LogQuery.CommandLine.Libraries
import LogQuery.Compile.Pipeline
import LogQuery.Proofs.Parser.ReaderAgreement
import LogQuery.Proofs.Parser.Stages
import LogQuery.Proofs.Token.Layout
import Mathlib.Data.List.TakeWhile

namespace LogQuery

open Lexer

/-! ### Words without the place -/

/-- What is wrong with a row of tokens, without the place. -/
def ParseError.wording (e : ParseError) : String := e.fault.message e.token

/-- What is wrong with a query, without the place. -/
def QueryError.wording : QueryError → String
  | .lex e => e.fault.message
  | .parse e => e.wording

def QueryError.position : QueryError → Position
  | .lex e => e.position
  | .parse e => e.position

/-- What is wrong with a query or its bounds of time, without the place. -/
def CompileError.wording : CompileError → String
  | .query e => e.wording
  | .timeBound e => e.message

/-- How the making of a statement ends, without the place of an error. -/
def Outcome.withoutPlace : Outcome → Except (Option String) String
  | .statement sql => .ok sql
  | .refused e => .error (some e.wording)
  | .brokenDown => .error none

lemma Token.describe_congr {t t' : Token} (hkind : t.kind = t'.kind) (htext : t.text = t'.text) :
    t.describe = t'.describe := by
  rw [describe, describe, hkind, htext]

lemma ParseFault.message_congr {t t' : Token} (hkind : t.kind = t'.kind) (htext : t.text = t'.text)
    (fault : ParseFault) : fault.message t = fault.message t' := by
  cases fault with
  | expected what =>
    have hfound := Token.describe_congr hkind htext
    exact congrArg ("Expected " ++ what.display ++ ", found " ++ ·) hfound
  | unknownCommand => exact congrArg ("Unknown command '" ++ · ++ "'") htext
  | unknownAggregation => exact congrArg ("Unknown aggregation function '" ++ · ++ "'") htext
  | notACount => exact congrArg ("Expected a non-negative integer, found '" ++ · ++ "'") htext
  | invalidRegex => exact congrArg ("Invalid regular expression '" ++ · ++ "'") htext
  | _ => rfl

/-! ### Corresponding tokens -/

lemma forall₂_snoc {α β : Type} {R : α → β → Prop} {as : List α} {bs : List β} {a : α} {b : β}
    (h : List.Forall₂ R (as ++ [a]) (bs ++ [b])) : List.Forall₂ R as bs ∧ R a b := by
  have hlength : as.length = bs.length := by simpa using h.length_eq
  have htake := List.forall₂_take as.length h
  have hdrop := List.forall₂_drop as.length h
  rw [List.take_left, hlength, List.take_left] at htake
  rw [List.drop_left, hlength, List.drop_left] at hdrop
  cases hdrop with
  | cons hab _ => exact ⟨htake, hab⟩

/-- The tokens at the same places of two rows. -/
def Paired.correspondence {p p' : Position} {ts ts' : List Token} (h : Paired p p' ts ts') :
    Parser.Correspondence where
  Twin t t' := (t, t') ∈ ts.zip ts'
  Limits := Eq
  kind_eq ht := (List.forall₂_zip h.alike ht).1
  text_eq ht := (List.forall₂_zip h.alike ht).2
  touches ht hu hglue := h.touches ht hu hglue

lemma Paired.forall₂_twin {p p' : Position} {ts ts' : List Token} (h : Paired p p' ts ts') :
    List.Forall₂ h.correspondence.Twin ts ts' :=
  List.forall₂_iff_zip.2 ⟨h.alike.length_eq, fun ht => ht⟩

/-! ### Reading -/

/-- The last of the tokens of a text, and no other, is the end of the query. -/
lemma Lexer.Lexing.exists_snoc {previous : Option TokenKind} {position : Position} {cs : List Char}
    {ts : List Token} (h : Lexing previous position cs ts) :
    ∃ front stop, ts = front ++ [stop] ∧ stop.kind = .eof ∧ ∀ t ∈ front, t.kind ≠ .eof := by
  induction h with
  | stop hgap => exact ⟨[], _, rfl, rfl, by simp⟩
  | lexeme hgap hl h ih =>
    obtain ⟨front, stop, rfl, hstop, hfront⟩ := ih
    refine ⟨_ :: front, stop, rfl, hstop, ?_⟩
    intro t ht
    rcases List.mem_cons.1 ht with rfl | ht
    · exact hl.kind_ne_eof
    · exact hfront t ht

/-- The pipeline of a row of tokens in front of the end of the query. -/
lemma parseTokens_snoc [Libraries] (limits : ParserLimits) {front : List Token} {stop : Token}
    (hstop : stop.kind = .eof) (hfront : ∀ t ∈ front, t.kind ≠ .eof) :
    parseTokens limits (front ++ [stop]) =
      if limits.maxTokens < front.length then
        .error ⟨.tooManyTokens limits.maxTokens, front[limits.maxTokens]?.getD stop⟩
      else (Parser.stages ⟨stop, limits.maxDepth⟩ front).map fun parsed => ⟨parsed.value⟩ := by
  have hinner : Parser.withoutStop (front ++ [stop]) = front := by
    simp [Parser.withoutStop, hstop]
  have hstopToken : Parser.stopToken (front ++ [stop]) = stop := by
    simp [Parser.stopToken, hstop]
  have hbody : front.takeWhile (·.kind != .eof) = front := by
    rw [List.takeWhile_eq_self_iff]
    simpa using hfront
  have hfind : front.find? (·.kind == .eof) = none := by
    rw [List.find?_eq_none]
    simpa using hfront
  rw [parseTokens_eq_stages, hinner, hstopToken, hbody, hfind, Option.getD_none]

section Corresponding

variable {W : Parser.Correspondence} {front front' : List Token} {stop stop' : Token}

lemma ParseError.wording_congr {e e' : ParseError} (hfault : e.fault = e'.fault)
    (htoken : W.Twin e.token e'.token) : e.wording = e'.wording := by
  rw [wording, wording, hfault]
  exact e'.fault.message_congr (W.kind_eq htoken) (W.text_eq htoken)

lemma Parser.SameEnd.mapError_eq {α β : Type} {ts ts' : List Token}
    {r : Except ParseError (Parsed α ts)} {r' : Except ParseError (Parsed α ts')}
    (h : SameEnd W Eq r r') (f : α → β) :
    (r.map fun parsed => f parsed.value).mapError ParseError.wording =
      (r'.map fun parsed => f parsed.value).mapError ParseError.wording := by
  cases h with
  | ok value rest => exact congrArg (fun a => Except.ok (f a)) value
  | error fault token _ => exact congrArg Except.error (ParseError.wording_congr fault token)

/-- Corresponding tokens are read as the same pipeline, or refused with the same words. -/
lemma parseTokens_congr [Libraries] (limits : ParserLimits)
    (hlimit : W.Limits limits.maxDepth limits.maxDepth)
    (hW : W.SameLimit) (hstop : stop.kind = .eof)
    (hfront : ∀ t ∈ front, t.kind ≠ .eof) (htwin : W.Twin stop stop')
    (htwins : List.Forall₂ W.Twin front front') :
    (parseTokens limits (front ++ [stop])).mapError ParseError.wording =
      (parseTokens limits (front' ++ [stop'])).mapError ParseError.wording := by
  have hstop' : stop'.kind = .eof := (W.kind_eq htwin).symm.trans hstop
  have hkinds : front.map Token.kind = front'.map Token.kind := by
    rw [← List.forall₂_eq_eq_eq, List.forall₂_map_left_iff, List.forall₂_map_right_iff]
    exact htwins.imp fun _ _ ht => W.kind_eq ht
  have hfront' : ∀ t ∈ front', t.kind ≠ .eof := by
    intro t' ht' heof
    have hmem : TokenKind.eof ∈ front.map Token.kind :=
      hkinds ▸ List.mem_map.2 ⟨t', ht', heof⟩
    obtain ⟨t, ht, hkind⟩ := List.mem_map.1 hmem
    exact hfront t ht hkind
  rw [parseTokens_snoc limits hstop hfront, parseTokens_snoc limits hstop' hfront',
    ← htwins.length_eq]
  split
  · next hlong =>
    have hlong' : limits.maxTokens < front'.length := htwins.length_eq ▸ hlong
    rw [List.getElem?_eq_getElem hlong, List.getElem?_eq_getElem hlong', Option.getD_some,
      Option.getD_some]
    exact congrArg Except.error (ParseError.wording_congr rfl (htwins.get hlong hlong'))
  · have hend : Parser.SameEnd W Eq (Parser.stages ⟨stop, limits.maxDepth⟩ front)
        (Parser.stages ⟨stop', limits.maxDepth⟩ front') :=
      Parser.agree_stages hW htwin hlimit htwins
    exact hend.mapError_eq _

end Corresponding

/-! ### Layouts -/

section Relaid

variable {query relaid : String} {tokens : List Token} {extents : List (Nat × Nat)}
  (h : tokenize query = .ok tokens) (htiles : Tiles query.toList 0 extents tokens)
  (hrelaid : Relaid query.toList 0 extents relaid.toList)
include h htiles hrelaid

/-- A query that is laid out anew has the same tokens, each moved to its new place. -/
lemma exists_paired_of_relaid :
    ∃ tokens', tokenize relaid = .ok tokens' ∧ Paired .start .start tokens tokens' := by
  obtain ⟨tokens', htokens', hpaired⟩ :=
    (tokensFrom_eq_ok.1 h).relaid htiles hrelaid .start
  exact ⟨tokens', tokensFrom_eq_ok.2 htokens', hpaired⟩

/-- Another layout of a query is read alike, or refused with the same wording. -/
lemma parseQuery_relaid [Libraries] (limits : ParserLimits) :
    (parseQuery limits query).mapError QueryError.wording =
      (parseQuery limits relaid).mapError QueryError.wording := by
  obtain ⟨tokens', h', hpaired⟩ := exists_paired_of_relaid h htiles hrelaid
  obtain ⟨front, stop, rfl, hstop, hfront⟩ := (tokensFrom_eq_ok.1 h).exists_snoc
  obtain ⟨front', stop', rfl, -, -⟩ := (tokensFrom_eq_ok.1 h').exists_snoc
  obtain ⟨hfronts, hstops⟩ := forall₂_snoc hpaired.forall₂_twin
  have hparse := parseTokens_congr limits rfl (fun _ _ => id) hstop hfront hstops hfronts
  rw [parseQuery, parseQuery, h, h']
  dsimp only
  generalize parseTokens limits (front ++ [stop]) = r at hparse ⊢
  generalize parseTokens limits (front' ++ [stop']) = r' at hparse ⊢
  cases r <;> cases r' <;> exact hparse

/-- Another layout of a query has the same tokens but for their places, and is read and compiled
alike. -/
theorem Config.relaid_alike [Libraries] :
    (∃ tokens', tokenize relaid = .ok tokens' ∧
      List.Forall₂ (fun t t' => t.kind = t'.kind ∧ t.text = t'.text) tokens tokens') ∧
    (∀ limits, (parseQuery limits query).mapError QueryError.wording =
      (parseQuery limits relaid).mapError QueryError.wording) ∧
    ∀ (c : Config) (d : Dialect) (earliest latest : Option String),
      (c.outcome query d earliest latest).withoutPlace =
        (c.outcome relaid d earliest latest).withoutPlace := by
  obtain ⟨tokens', h', hpaired⟩ := exists_paired_of_relaid h htiles hrelaid
  have hparse := parseQuery_relaid h htiles hrelaid
  refine ⟨⟨tokens', h', hpaired.alike⟩, hparse, ?_⟩
  intro c d earliest latest
  have hquery := hparse c.parserLimits
  rw [outcome, outcome]
  generalize parseQuery c.parserLimits query = r at hquery ⊢
  generalize parseQuery c.parserLimits relaid = r' at hquery ⊢
  cases r <;> cases r'
  case error.error e e' =>
    exact congrArg (fun words => Except.error (some words)) (Except.error.inj hquery)
  case ok.ok p p' =>
    cases hquery
    rfl
  all_goals cases hquery

end Relaid

/-- The end of a line and a comment may stand for the blank between two tokens. -/
theorem Config.relaid_alike_comment :
    let query := "a *"
    let relaid := "a # b\n*"
    (∃ tokens extents, tokenize query = .ok tokens ∧ Tiles query.toList 0 extents tokens ∧
      Relaid query.toList 0 extents relaid.toList) ∧
    ∀ limits, (parseQuery limits query).mapError QueryError.wording =
      (parseQuery limits relaid).mapError QueryError.wording := by
  intro query relaid
  have hquery : query.toList = ['a', ' ', '*'] := by decide
  have hrelaid : relaid.toList = ['a', ' ', '#', ' ', 'b', '\n', '*'] := by decide
  have htokens : tokenize query = .ok
      [⟨.identifier, "a", ⟨1, 1⟩⟩, ⟨.symbol .star, "*", ⟨1, 3⟩⟩, ⟨.eof, "", ⟨1, 4⟩⟩] := by
    decide +kernel
  have hword : Lexes false (['a'] ++ [' ', '*']) (verbatim (wordKind ['a']) ['a'] [' ', '*']) := by
    refine .word ?_ nofun ?_ <;> decide
  have hstar : Lexes true ['*'] (verbatim (.symbol .star) ['*'] []) := .symbol rfl
  have hgap : IsGap [' '] := .blank (by decide) .nil
  have hgap' : IsGap (' ' :: '#' :: ([' ', 'b'] ++ ['\n'])) :=
    .blank (by decide) (.comment (by decide) .nil)
  have hstart : Settled [] (['a'] ++ [' ', '*']) := .nil _
  have hmiddle : Settled ['a', ' '] ['*'] := Settled.gap (hstart.lexeme hword) hgap
  have hkind : wordKind ['a'] = .identifier := by decide
  have htiles : Tiles ['a', ' ', '*'] 0 [(0, 1), (2, 3)]
      [⟨.identifier, "a", ⟨1, 1⟩⟩, ⟨.symbol .star, "*", ⟨1, 3⟩⟩, ⟨.eof, "", ⟨1, 4⟩⟩] := by
    refine .token (by decide) .nil (by decide) (by decide) (hkind ▸ hword.standsAt hstart) ?_
    refine .token (by decide) hgap (by decide) (by decide) (hstar.standsAt hmiddle) ?_
    exact .stop (.closed .nil)
  have hlayout : Relaid ['a', ' ', '*'] 0 [(0, 1), (2, 3)]
      ['a', ' ', '#', ' ', 'b', '\n', '*'] := by
    refine .token .nil (by decide) ?_
    refine .token hgap' (by decide) ?_
    exact .stop (.closed .nil) (by decide)
  rw [← hquery] at htiles hlayout
  rw [← hrelaid] at hlayout
  exact ⟨⟨_, _, htokens, htiles, hlayout⟩, (relaid_alike htokens htiles hlayout).2.1⟩

end LogQuery
