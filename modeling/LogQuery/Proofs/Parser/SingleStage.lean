import LogQuery.Proofs.Compile.Layout
import LogQuery.Proofs.Parser.Stages

namespace LogQuery

variable {t : Token} {body : List Token} {command : Command}

namespace Parser

variable {s : Setting} {stage : Stage} {rest : List Token}

/-- A command decides how its stage is read. -/
lemma reads_firstStage [Libraries] (ht : t.kind = .command command) :
    firstStage.Reads s (t :: body) stage rest ↔ (stageOf t command).Reads s body stage rest := by
  rw [firstStage, firstStageBy]
  simp only [lift_eq, reads_bind, reads_nextKind?, List.head?_cons, Option.map_some, ht]
  have hstage : Parser.stage.Reads s (t :: body) stage rest ↔
      (stageOf t command).Reads s body stage rest := by
    rw [Parser.stage, stageBy]
    simp only [lift_eq, reads_bind, reads_take]
    constructor
    · rintro ⟨u, mid, heq, h⟩
      cases heq
      simpa only [ht] using h
    · intro h
      exact ⟨t, body, rfl, by simpa only [ht] using h⟩
  constructor
  · rintro ⟨_, _, ⟨rfl, rfl⟩, h⟩
    exact hstage.1 h
  · intro h
    exact ⟨_, _, ⟨rfl, rfl⟩, hstage.2 h⟩

lemma reads_stages_single [Libraries] (ht : t.kind = .command command)
    (h : (stageOf t command).Reads s body stage []) : stages.Reads s (t :: body) [stage] [] := by
  refine reads_bind.2 ⟨some t.kind, t :: body, reads_nextKind?.2 ⟨rfl, rfl⟩, ?_⟩
  refine reads_bind.2 ⟨stage, [], (reads_firstStage ht).2 h, reads_bind.2 ⟨[], [], ?_, ?_⟩⟩
  · exact reads_many.2 (.inl ⟨rfl, rfl, stops_nil⟩)
  · exact reads_bind.2 ⟨none, [], reads_nextKind?.2 ⟨rfl, rfl⟩, reads_pure.2 ⟨rfl, rfl⟩⟩

/-- What is refused behind what was read is refused. -/
lemma Reads.bind_eq_error {α β : Type} {p : Parser α} {f : α → Parser β} {ts mid : List Token}
    {a : α} {e : ParseError} (h : p.Reads s ts a mid) (hf : f a s mid = .error e) :
    (p >>= f) s ts = .error e := by
  obtain ⟨_, hp⟩ := h
  simp only [bind_apply, hp, hf]

/-- Behind a stage only a pipe may stand. -/
lemma stages_eq_error [Libraries] {u : Token} (ht : t.kind = .command command)
    (h : (stageOf t command).Reads s body stage (u :: rest)) (hu : u.kind ≠ .symbol .pipe) :
    stages s (t :: body) = .error ⟨.expected .pipeOrEnd, u⟩ := by
  refine (reads_nextKind?.2 ⟨rfl, rfl⟩).bind_eq_error (((reads_firstStage ht).2 h).bind_eq_error ?_)
  refine (reads_many.2 (.inl ⟨rfl, rfl, stops_cons.2 (if_neg hu)⟩)).bind_eq_error ?_
  exact (reads_nextKind?.2 ⟨rfl, rfl⟩).bind_eq_error rfl

/-- The first of the stages is read from what is behind the command. -/
lemma exists_reads_of_stages [Libraries] {more : List Stage} (ht : t.kind = .command command)
    (h : stages.Reads s (t :: body) (stage :: more) rest) :
    ∃ mid, (stageOf t command).Reads s body stage mid := by
  obtain ⟨_, _, hkind, h⟩ := reads_bind.1 h
  obtain ⟨rfl, rfl⟩ := reads_nextKind?.1 hkind
  obtain ⟨first, mid, hfirst, h⟩ := reads_bind.1 h
  obtain ⟨_, _, -, h⟩ := reads_bind.1 h
  obtain ⟨_, _, -, hend⟩ := reads_bind.1 h
  split at hend
  · obtain ⟨heq, -⟩ := reads_pure.1 hend
    cases heq
    exact ⟨mid, (reads_firstStage ht).1 hfirst⟩
  · exact (not_reads_fail hend).elim

end Parser

variable {limits : ParserLimits} {query : String} {stop : Token} {stage : Stage}

/-- What is read from a query is read from its tokens. -/
lemma parseQuery_of_lexing [Libraries]
    (h : Lexer.Lexing none .start query.toList (t :: body ++ [stop]))
    {p : Pipeline} : parseQuery limits query = .ok p ↔ (t :: body).length ≤ limits.maxTokens ∧
      ∃ rest, Parser.stages.Reads ⟨stop, limits.maxDepth⟩ (t :: body) p.stages rest := by
  obtain ⟨front, stop', hfront, hstop, hkinds⟩ := h.exists_snoc
  obtain ⟨rfl, rfl⟩ : t :: body = front ∧ stop = stop' := by
    obtain ⟨hfront, hstops⟩ := List.append_inj' hfront rfl
    exact ⟨hfront, by simpa using hstops⟩
  have htokens : tokenize query = .ok (t :: body ++ [stop]) := Lexer.tokensFrom_eq_ok.2 h
  rw [parseQuery_eq_ok, htokens]
  simp only [Except.ok.injEq, exists_eq_left', parseTokens_snoc limits hstop hkinds]
  split
  · next hlimit => exact iff_of_false nofun fun h => Nat.not_lt.2 h.1 hlimit
  · next hlimit =>
    rw [and_iff_right (Nat.not_lt.1 hlimit)]
    constructor
    · intro hp
      cases hread : Parser.stages ⟨stop, limits.maxDepth⟩ (t :: body) with
      | error e =>
        rw [hread] at hp
        cases hp
      | ok parsed =>
        rw [hread] at hp
        cases hp
        exact ⟨parsed.rest, Parser.reads_of_eq_ok hread⟩
    · rintro ⟨rest, hrest, hstages⟩
      rw [hstages]
      rfl

/-- A command and what its stage is made of are a query of one stage. -/
lemma parseQuery_of_stage [Libraries]
    (h : Lexer.Lexing none .start query.toList (t :: body ++ [stop]))
    (ht : t.kind = .command command)
    (hread : (Parser.stageOf t command).Reads ⟨stop, limits.maxDepth⟩ body stage [])
    (hlimit : (t :: body).length ≤ limits.maxTokens) :
    parseQuery limits query = .ok ⟨[stage]⟩ :=
  (parseQuery_of_lexing h).2 ⟨hlimit, [], Parser.reads_stages_single ht hread⟩

/-- The first stage of such a query is what the reader of the stage takes. -/
lemma exists_reads_of_parseQuery [Libraries] {p : Pipeline} {more : List Stage}
    (h : Lexer.Lexing none .start query.toList (t :: body ++ [stop]))
    (ht : t.kind = .command command) (hp : parseQuery limits query = .ok p)
    (hstages : p.stages = stage :: more) :
    ∃ rest, (Parser.stageOf t command).Reads ⟨stop, limits.maxDepth⟩ body stage rest := by
  obtain ⟨-, rest, hread⟩ := (parseQuery_of_lexing h).1 hp
  rw [hstages] at hread
  exact Parser.exists_reads_of_stages ht hread

end LogQuery
