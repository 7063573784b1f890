import LogQuery.CommandLine.Libraries
import LogQuery.Proofs.Parser.Counting
import LogQuery.Proofs.Parser.OperatorBehindWord

namespace LogQuery

/-! ### Moving the first line to the right -/

/-- The place to which a place moves where so many characters are put in front of the first line. -/
def Position.indent (n : Nat) (p : Position) : Position :=
  if p.line = 1 then ⟨1, p.column + n⟩ else p

def Token.indent (n : Nat) (t : Token) : Token := ⟨t.kind, t.text, t.position.indent n⟩

def LexError.indent (n : Nat) (e : LexError) : LexError := ⟨e.fault, e.position.indent n⟩

/-- The error at the token that has moved. -/
def ParseError.indent (n : Nat) (e : ParseError) : ParseError := ⟨e.fault, e.token.indent n⟩

def QueryError.indent (n : Nat) : QueryError → QueryError
  | .lex e => .lex (e.indent n)
  | .parse e => .parse (e.indent n)

namespace Position

variable {n : Nat} {p q : Position}

/-- Moving positions to the right keeps them apart. -/
lemma indent_injective (h : p.indent n = q.indent n) : p = q := by
  obtain ⟨line, column⟩ := p
  obtain ⟨line', column'⟩ := q
  simp only [indent] at h
  split_ifs at h <;> simp only [mk.injEq] at h ⊢ <;> omega

/-- Lines are counted from one and never go back. -/
lemma line_after (h : 1 ≤ p.line) (cs : List Char) : 1 ≤ (p.after cs).line := by
  induction cs generalizing p with
  | nil => exact h
  | cons c cs ih =>
    apply ih
    rw [next]
    split
    · exact Nat.le_add_left ..
    · exact h

lemma indent_next (h : 1 ≤ p.line) (c : Char) : (p.next c).indent n = (p.indent n).next c := by
  obtain ⟨line, column⟩ := p
  have hzero : line ≠ 0 := Nat.one_le_iff_ne_zero.1 h
  by_cases hc : c = '\n' <;> by_cases hline : line = 1
  · simp [indent, next, hc, hline]
  · simp [indent, next, hc, hline, hzero]
  · simp [indent, next, hc, hline, Nat.add_right_comm]
  · simp [indent, next, hc, hline]

/-- Moving right and going over a text commute. -/
lemma indent_after (h : 1 ≤ p.line) (cs : List Char) :
    (p.after cs).indent n = (p.indent n).after cs := by
  induction cs generalizing p with
  | nil => rfl
  | cons c cs ih =>
    have hline : 1 ≤ (p.next c).line := line_after h [c]
    change ((p.next c).after cs).indent n = ((p.indent n).next c).after cs
    rw [ih hline, indent_next h]

end Position

/-- A token that moves still ends where the next one begins, or not. -/
lemma Token.finish_indent (n : Nat) (t : Token) : (t.indent n).finish = t.finish.indent n := by
  obtain ⟨kind, text, line, column⟩ := t
  by_cases hline : line = 1
  · simp [finish, indent, Position.indent, hline, Nat.add_right_comm]
  · simp [finish, indent, Position.indent, hline]

/-- The wording does not name the position. -/
lemma QueryError.wording_indent (n : Nat) (e : QueryError) : (e.indent n).wording = e.wording := by
  cases e with
  | lex e => rfl
  | parse e => exact e.fault.message_congr rfl rfl

/-! ### Tokens -/

namespace Lexer

variable {previous previous' : Option TokenKind} {p : Position} {cs : List Char}

section Steps

lemma tokensFrom_of_nil (h : (splitGap false cs).2 = []) :
    tokensFrom previous p cs = .ok [⟨.eof, "", p.after (splitGap false cs).1⟩] := by
  rw [tokensFrom.eq_def]
  split
  · rfl
  · next hcons =>
    rw [h] at hcons
    cases hcons

variable {c : Char} {rest : List Char} (hcs : (splitGap false cs).2 = c :: rest)
include hcs

/-- An error is located where the faulty lexeme begins. -/
lemma tokensFrom_of_error {fault : LexFault}
    (h : lexeme (previous.any TokenKind.endsOperand) c rest = .error fault) :
    tokensFrom previous p cs = .error ⟨fault, p.after (splitGap false cs).1⟩ := by
  rw [tokensFrom.eq_def]
  split
  · next hnil =>
    rw [hcs] at hnil
    cases hnil
  · next hcons =>
    rw [hcs] at hcons
    cases hcons
    split
    · next hl =>
      rw [h] at hl
      cases hl
      rfl
    · next hl =>
      rw [h] at hl
      cases hl

lemma tokensFrom_of_ok {l : Lexeme}
    (h : lexeme (previous.any TokenKind.endsOperand) c rest = .ok l) :
    tokensFrom previous p cs =
      (tokensFrom (some l.kind) ((p.after (splitGap false cs).1).after l.source) l.rest).map
        (⟨l.kind, String.ofList l.text, p.after (splitGap false cs).1⟩ :: ·) := by
  have hsplit := splitGap_append false cs
  rw [hcs] at hsplit
  have hread : tokensFrom previous p _ = _ :=
    tokensFrom_of_lexes (isGap_of_splitGap hcs) (lexeme_eq_ok.1 h)
  rwa [hsplit] at hread

end Steps

/-- The tokens of a text that begins further to the right are the same, moved. -/
lemma tokensFrom_indent (n : Nat) (h : 1 ≤ p.line) (cs : List Char) :
    tokensFrom previous (p.indent n) cs =
      ((tokensFrom previous p cs).map (List.map (Token.indent n))).mapError
        (LexError.indent n) := by
  fun_induction tokensFrom previous p cs with
  | case1 previous p cs here hcs =>
    rw [tokensFrom_of_nil hcs, ← p.indent_after h]
    rfl
  | case2 previous p cs here c rest hcs fault hl =>
    rw [tokensFrom_of_error hcs hl, ← p.indent_after h]
    rfl
  | case3 previous p cs here c rest hcs l hl ih =>
    have hhere : 1 ≤ here.line := Position.line_after h _
    rw [tokensFrom_of_ok hcs hl, ← Position.indent_after h, ← Position.indent_after hhere,
      ih (Position.line_after hhere _)]
    cases tokensFrom (some l.kind) (here.after l.source) l.rest with
    | error e => rfl
    | ok ts => rfl

/-- Of the token in front of a text only matters whether it ends an operand. -/
lemma tokensFrom_congr
    (h : previous.any TokenKind.endsOperand = previous'.any TokenKind.endsOperand)
    (p : Position) (cs : List Char) : tokensFrom previous p cs = tokensFrom previous' p cs := by
  rw [tokensFrom.eq_def, tokensFrom.eq_def previous', h]

end Lexer

/-- The command that a search begins with. -/
def searchToken : Token := ⟨.command .search, "search", .start⟩

/-- Behind the command stand the tokens of the query. -/
lemma tokenize_search (query : String) :
    tokenize ("search " ++ query) =
      ((tokenize query).map fun ts => searchToken :: ts.map (Token.indent 7)).mapError
        (LexError.indent 7) := by
  have hword : Lexer.IsWord "search".toList := Lexer.isWord_of_all rfl rfl
  have hspace : Lexer.IsGap [' '] := .blank (by decide) .nil
  have hreaches : Lexer.Reaches none .start ("search".toList ++ [' ']) query.toList _ :=
    reaches_word hword .nil (.gap hspace)
  have hkind : Lexer.wordKind "search".toList = .command .search := by decide
  have hplace : Position.start.after ("search".toList ++ [' ']) = Position.start.indent 7 := by
    decide
  rw [hkind] at hreaches
  have hbehind : Lexer.tokensFrom (some (.command .search)) (Position.start.indent 7) query.toList =
      Lexer.tokensFrom none (Position.start.indent 7) query.toList :=
    Lexer.tokensFrom_congr
      (show (some _).any _ = Option.any TokenKind.endsOperand none from rfl) _ _
  rw [tokenize, String.toList_append]
  change Lexer.tokensFrom none .start (("search".toList ++ [' ']) ++ query.toList) = _
  rw [Lexer.tokensFrom_of_reaches hreaches, hplace]
  change (Lexer.tokensFrom (some (.command .search)) _ _).map (searchToken :: ·) = _
  rw [hbehind, Lexer.tokensFrom_indent 7 (Nat.le_refl 1), tokenize]
  cases Lexer.tokensFrom none .start query.toList with
  | error e => rfl
  | ok ts => rfl

/-! ### Pipelines -/

namespace Parser

/-- A token and the one to which it moves. -/
def indented (n : Nat) : Correspondence where
  Twin t t' := t' = t.indent n
  Limits := Eq
  kind_eq := by
    rintro t _ rfl
    rfl
  text_eq := by
    rintro t _ rfl
    rfl
  touches := by
    rintro t _ u _ rfl rfl -
    rw [Token.finish_indent]
    exact ⟨congrArg (Position.indent n), Position.indent_injective⟩

variable {α : Type} {s s' : Setting} {t t' : Token} {ts ts' : List Token}

lemma nextKind?_bind (f : Option TokenKind → Parser α) :
    (nextKind? >>= f) s ts = f (ts.head?.map Token.kind) s ts := by
  rw [bind_apply]
  cases h : f (ts.head?.map Token.kind) s ts <;> simp [nextKind?, h]

lemma take_bind (what : Expectation) (f : Token → Parser α) :
    (take what >>= f) s (t :: ts) = (f t s ts).map (Parsed.skip t) := by
  rw [bind_apply]
  cases h : f t s ts <;> simp only [take, h] <;> rfl

def stagesBehind [Libraries] (first : Stage) : Parser (List Stage) := do
  let more ← many fun t _ => if t.kind = .symbol .pipe then some (some <$> stage) else none
  if (← nextKind?).isNone then return first :: more else fail (.expected .pipeOrEnd)

/-- A query that is not empty has a first stage. -/
lemma stages_cons [Libraries] : stages s (t :: ts) = (firstStage >>= stagesBehind) s (t :: ts) := by
  have hstages : stages = nextKind? >>= fun next =>
      if next.isNone = true then pure [] else firstStage >>= stagesBehind := rfl
  rw [hstages, nextKind?_bind]
  rfl

lemma firstStage_cons [Libraries] : firstStage s (t :: ts) =
    (if startsSearch t.kind then Stage.filter .search <$> conditions else stage) s (t :: ts) := by
  have hfirst : firstStage = nextKind? >>= fun next =>
      if next.any startsSearch = true then .filter .search <$> conditions else stage := rfl
  rw [hfirst, nextKind?_bind]
  rfl

/-- A search without its command. -/
lemma stages_of_startsSearch [Libraries] (h : startsSearch t.kind = true) :
    stages s (t :: ts) = ((.filter .search <$> conditions) >>= stagesBehind) s (t :: ts) := by
  rw [stages_cons, bind_apply, bind_apply, firstStage_cons, if_pos h]

/-- A search behind its command. -/
lemma stages_of_search [Libraries] (h : t.kind = .command .search) :
    stages s (t :: ts) =
      (((.filter .search <$> conditions) >>= stagesBehind) s ts).map (Parsed.skip t) := by
  have hcommand : startsSearch t.kind = false := by rw [h]; rfl
  have hfirst : firstStage s (t :: ts) =
      ((Stage.filter .search <$> conditions) s ts).map (Parsed.skip t) := by
    rw [firstStage_cons, hcommand, if_neg Bool.false_ne_true, stage, stageBy,
      lift_eq, take_bind]
    simp only [h]
    rfl
  rw [stages_cons]
  cases hread : (Stage.filter .search <$> conditions) s ts with
  | error e =>
    rw [hread] at hfirst
    rw [bind_of_error hfirst, bind_of_error hread]
    rfl
  | ok first =>
    rw [hread] at hfirst
    rw [bind_of_ok hfirst, bind_of_ok hread]
    change (stagesBehind first.value s first.rest).map _ = _
    cases stagesBehind first.value s first.rest <;> rfl

/-- What stands behind the first stage is read alike in both texts. -/
lemma agree_stagesBehind [Libraries] {W : Correspondence} (hW : W.SameLimit) (first : Stage) :
    Agree W Eq (stagesBehind first) (stagesBehind first) := by
  refine .bind_eq (.many fun t t' rest rest' ht _ => ?_) fun more => .bind_eq .nextKind? fun _ => ?_
  · rw [← W.kind_eq ht]
    by_cases hpipe : t.kind = .symbol .pipe
    · simp only [hpipe, if_true]
      exact .some (.map_eq _ (agree_stage hW))
    · simp only [hpipe, if_false]
      exact .none
  · split
    · exact .pure rfl
    · exact .fail nofun

lemma SameEnd.skip {W : Correspondence} {S : α → α → Prop} {r : Except ParseError (Parsed α ts)}
    {r' : Except ParseError (Parsed α ts')} (h : SameEnd W S r r') (t : Token) :
    SameEnd W S r (r'.map (Parsed.skip t)) := by
  cases h with
  | ok value rest => exact .ok value rest
  | error fault token limit => exact .error fault token limit

/-- What is read of tokens that have moved is the same, and an error has moved with its token. -/
lemma SameEnd.eq_indent {n : Nat} {r : Except ParseError (Parsed α ts)}
    {r' : Except ParseError (Parsed α ts')} (h : SameEnd (indented n) Eq r r') :
    (r'.map fun parsed => parsed.value) =
      (r.map fun parsed => parsed.value).mapError (ParseError.indent n) := by
  cases h with
  | ok value rest => exact congrArg Except.ok value.symm
  | @error e e' fault token _ =>
    obtain ⟨fault', token'⟩ := e'
    cases fault
    cases token
    rfl

/-- Tokens that begin a search are read like those behind its command. -/
lemma stages_search [Libraries] {depth : Nat} {stop : Token} (h : startsSearch t.kind = true) :
    (stages ⟨stop.indent 7, depth⟩ (searchToken :: (t :: ts).map (Token.indent 7))).map
        (fun parsed => parsed.value) =
      ((stages ⟨stop, depth⟩ (t :: ts)).map fun parsed => parsed.value).mapError
        (ParseError.indent 7) := by
  have hsame : (indented 7).SameLimit := fun _ _ => id
  have hagree : Agree (indented 7) Eq ((Stage.filter .search <$> conditions) >>= stagesBehind)
      ((Stage.filter .search <$> conditions) >>= stagesBehind) :=
    .bind_eq (.map_eq _ (agree_conditions hsame)) (agree_stagesBehind hsame)
  have htwins : List.Forall₂ (indented 7).Twin (t :: ts) ((t :: ts).map (Token.indent 7)) :=
    List.forall₂_map_right_iff.2 (List.forall₂_same.2 fun _ _ => rfl)
  have hend := @hagree ⟨stop, depth⟩ ⟨stop.indent 7, depth⟩ _ _ rfl rfl htwins
  rw [stages_of_startsSearch h, stages_of_search rfl]
  exact (hend.skip searchToken).eq_indent

end Parser

/-- The pipeline of tokens in front of the end of the query, where there are not too many. -/
lemma parseTokens_of_le [Libraries] {limits : ParserLimits} {front : List Token} {stop : Token}
    (hstop : stop.kind = .eof) (hfront : ∀ t ∈ front, t.kind ≠ .eof)
    (hlimit : front.length ≤ limits.maxTokens) :
    parseTokens limits (front ++ [stop]) =
      ((Parser.stages ⟨stop, limits.maxDepth⟩ front).map fun parsed => parsed.value).map
        Pipeline.mk := by
  rw [parseTokens_snoc limits hstop hfront, if_neg (Nat.not_lt.2 hlimit)]
  cases Parser.stages ⟨stop, limits.maxDepth⟩ front <;> rfl

/-- The command takes one token. -/
lemma parseTokens_search [Libraries] {limits : ParserLimits} {t stop : Token} {ts : List Token}
    (h : Parser.startsSearch t.kind = true) (hstop : stop.kind = .eof)
    (hfront : ∀ u ∈ t :: ts, u.kind ≠ .eof) (hlimit : (t :: ts).length < limits.maxTokens) :
    parseTokens limits (searchToken :: (t :: ts ++ [stop]).map (Token.indent 7)) =
      (parseTokens limits (t :: ts ++ [stop])).mapError (ParseError.indent 7) := by
  have hmoved : ∀ u ∈ searchToken :: (t :: ts).map (Token.indent 7), u.kind ≠ .eof := by
    intro u hu
    rcases List.mem_cons.1 hu with rfl | hu
    · exact nofun
    · obtain ⟨v, hv, rfl⟩ := List.mem_map.1 hu
      exact hfront v hv
  have hlength : (searchToken :: (t :: ts).map (Token.indent 7)).length ≤ limits.maxTokens := by
    rw [List.length_cons, List.length_map]
    exact hlimit
  have hstop' : (stop.indent 7).kind = .eof := hstop
  rw [List.map_append, List.map_singleton, ← List.cons_append,
    parseTokens_of_le hstop' hmoved hlength, parseTokens_of_le hstop hfront (Nat.le_of_lt hlimit),
    Parser.stages_search h]
  cases Parser.stages ⟨stop, limits.maxDepth⟩ (t :: ts) <;> rfl

lemma parseQuery_of_tokenize [Libraries] {limits : ParserLimits} {query : String}
    {tokens : List Token} (h : tokenize query = .ok tokens) :
    parseQuery limits query = (parseTokens limits tokens).mapError .parse := by
  rw [parseQuery, h]
  dsimp only
  cases parseTokens limits tokens <;> rfl

/-- A query that begins like a search is read as the same pipeline with the command in front, or
refused with the same words, if the limits leave room for one more token. If its tokens cannot be
read, nor can they behind the command. -/
theorem parseQuery_search [Libraries] {limits : ParserLimits} {query : String}
    (hstarts : ∀ tokens, tokenize query = .ok tokens →
      tokens.head?.any (fun t => Parser.startsSearch t.kind) = true)
    (hlimit : ∀ tokens, tokenize query = .ok tokens → tokens.length ≤ limits.maxTokens) :
    parseQuery limits ("search " ++ query) =
        (parseQuery limits query).mapError (QueryError.indent 7) ∧
      (parseQuery limits ("search " ++ query)).mapError QueryError.wording =
        (parseQuery limits query).mapError QueryError.wording := by
  have hread : parseQuery limits ("search " ++ query) =
      (parseQuery limits query).mapError (QueryError.indent 7) := by
    cases htokens : tokenize query with
    | error e =>
      rw [parseQuery, parseQuery, tokenize_search, htokens]
      rfl
    | ok tokens =>
      have hfirst := hstarts tokens htokens
      have hlength := hlimit tokens htokens
      obtain ⟨front, stop, rfl, hstop, hfront⟩ := (Lexer.tokensFrom_eq_ok.1 htokens).exists_snoc
      rw [List.length_append, List.length_singleton] at hlength
      cases front with
      | nil =>
        rw [List.nil_append, List.head?_cons, Option.any_some, hstop] at hfirst
        cases hfirst
      | cons t ts =>
        have hmoved : tokenize ("search " ++ query) =
            .ok (searchToken :: (t :: ts ++ [stop]).map (Token.indent 7)) := by
          rw [tokenize_search, htokens]
          rfl
        rw [parseQuery_of_tokenize hmoved, parseQuery_of_tokenize htokens,
          parseTokens_search hfirst hstop hfront hlength]
        cases parseTokens limits (t :: ts ++ [stop]) <;> rfl
  refine ⟨hread, ?_⟩
  rw [hread]
  cases parseQuery limits query with
  | error e => exact congrArg Except.error (e.wording_indent 7)
  | ok p => rfl

/-- A value of three tokens on the first line, and an error on the second one, which does not
move. -/
theorem parseQuery_search_lines :
    let query := "x=web-01\n| foo"
    let tokens : List Token := [⟨.identifier, "x", ⟨1, 1⟩⟩, ⟨.symbol .eq, "=", ⟨1, 2⟩⟩,
      ⟨.identifier, "web", ⟨1, 3⟩⟩, ⟨.symbol .minus, "-", ⟨1, 6⟩⟩, ⟨.number, "01", ⟨1, 7⟩⟩,
      ⟨.symbol .pipe, "|", ⟨2, 1⟩⟩, ⟨.identifier, "foo", ⟨2, 3⟩⟩, ⟨.eof, "", ⟨2, 6⟩⟩]
    (tokenize query = .ok tokens ∧ tokens.length ≤ 8) ∧
      parseQuery ⟨8, 1⟩ ("search " ++ query) =
          (parseQuery ⟨8, 1⟩ query).mapError (QueryError.indent 7) ∧
        (parseQuery ⟨8, 1⟩ ("search " ++ query)).mapError QueryError.wording =
          (parseQuery ⟨8, 1⟩ query).mapError QueryError.wording := by
  intro query tokens
  have htokens : tokenize query = .ok tokens := by decide +kernel
  have hlength : tokens.length ≤ 8 := by decide
  refine ⟨⟨htokens, hlength⟩, parseQuery_search ?_ ?_⟩
  · intro ts hts
    rw [htokens] at hts
    cases hts
    rfl
  · intro ts hts
    rw [htokens] at hts
    cases hts
    exact hlength

end LogQuery
