import LogQuery.Parser.Pipeline
import LogQuery.Proofs.Parser.Reading

namespace LogQuery

/-- The conditions of the stage satisfy `C`, and every expression of it satisfies `E`. -/
def Stage.Meets (C : List Condition → Prop) (E : EvalExpr → Prop) : Stage → Prop
  | .filter _ conditions => C conditions
  | .eval assignments => ∀ a ∈ assignments, E a.expr
  | _ => True

namespace Parser

variable {good : Token → Prop} {C : List Condition → Prop} {E : EvalExpr → Prop}

/-! ### Stages -/

lemma assignment_yields (hE : Yields good expression E) :
    Yields good assignment fun a => E a.expr := by
  refine .bind_of_forall fun field => .bind_of_forall fun _ => ?_
  exact .bind hE fun e he => .pure he

lemma eval_yields (hE : Yields good expression E) : Yields good eval (Stage.Meets C E) := by
  refine .bind (assignment_yields hE) fun first hfirst => ?_
  have hmore : Yields good (many fun t _ =>
      if t.kind = .symbol .comma then some (some <$> assignment) else none)
      fun as => ∀ a ∈ as, E a.expr := by
    refine .many fun t rest p hturn _ => ?_
    split at hturn
    · cases hturn
      exact .map (assignment_yields hE) fun a ha b hb => by cases hb; exact ha
    · cases hturn
  refine .bind hmore fun more hmore => .pure ?_
  simpa [Stage.Meets] using ⟨hfirst, hmore⟩

lemma filter_yields (command : FilterCommand) (hC : Yields good conditions C) :
    Yields good (.filter command <$> conditions) (Stage.Meets C E) := .map hC fun _ h => h

lemma stats_yields : Yields good stats (Stage.Meets C E) := by
  refine .bind_of_forall fun all => .bind_of_forall fun byClause => ?_
  split <;> exact .bind_of_forall fun _ => .pure True.intro

lemma sort_yields : Yields good sort (Stage.Meets C E) := by
  refine .bind_of_forall fun keys => ?_
  split
  · exact .fail
  · exact .pure True.intro

lemma limit_yields (command : LimitCommand) : Yields good (limit command) (Stage.Meets C E) := by
  refine .bind_of_forall fun k => ?_
  split
  · exact .bind_of_forall fun _ => .pure True.intro
  · exact .pure True.intro

lemma fields_yields : Yields good fields (Stage.Meets C E) := by
  refine .bind_of_forall fun minus => ?_
  split
  · exact .bind_of_forall fun _ => .pure True.intro
  · exact .bind_of_forall fun _ => .bind_of_forall fun _ => .pure True.intro

lemma rename_yields : Yields good rename (Stage.Meets C E) :=
  .bind_of_forall fun _ => .bind_of_forall fun _ => .bind_of_forall fun _ => .pure True.intro

lemma frequent_yields (which : Frequency) : Yields good (frequent which) (Stage.Meets C E) := by
  refine .bind_of_forall fun k => ?_
  split <;>
    exact .bind_of_forall fun _ => .bind_of_forall fun _ => .bind_of_forall fun _ =>
      .pure True.intro

lemma bin_yields (command : Token) : Yields good (bin command) (Stage.Meets C E) := by
  refine .bind_of_forall fun parts => ?_
  split
  · exact .fail
  · exact .failAt
  · exact .pure True.intro

lemma timechart_yields : Yields good timechart (Stage.Meets C E) := by
  refine .bind_of_forall fun first => .bind_of_forall fun all => .bind_of_forall fun second =>
    .bind_of_forall fun byClause => ?_
  split <;> exact .bind_of_forall fun _ => .bind_of_forall fun _ => .pure True.intro

lemma rex_yields [Libraries] : Yields good rex (Stage.Meets C E) := by
  refine .bind_of_forall fun field => .bind_of_forall fun t => ?_
  split
  · split
    · exact .pure True.intro
    · exact .failAt
  · exact .failAt

lemma stageOf_yields [Libraries] (hC : Yields good conditions C) (hE : Yields good expression E)
    (token : Token) (command : Command) :
    Yields good (stageOf token command) (Stage.Meets C E) := by
  cases command with
  | search => exact filter_yields _ hC
  | filter => exact filter_yields _ hC
  | where_ => exact filter_yields _ hC
  | stats => exact stats_yields
  | sort => exact sort_yields
  | limit => exact limit_yields _
  | head => exact limit_yields _
  | tail => exact limit_yields _
  | dedup => exact .map .trivial fun _ _ => True.intro
  | table => exact .map .trivial fun _ _ => True.intro
  | fields => exact fields_yields
  | rename => exact rename_yields
  | eval => exact eval_yields hE
  | top => exact frequent_yields _
  | rare => exact frequent_yields _
  | bin => exact bin_yields _
  | timechart => exact timechart_yields
  | rex => exact rex_yields

section

variable [Libraries] {Q : Stage → Prop} (h : ∀ token command, Yields good (stageOf token command) Q)
include h

/-- Every stage is read behind its command, the first one perhaps as if behind `search`. -/
lemma stage_yields : Yields good stage Q := by
  refine .bind_of_forall fun t => ?_
  split
  · exact h _ _
  · exact .failAt
  · exact .failAt

lemma firstStage_yields : Yields good firstStage Q := by
  refine .bind_of_forall fun k => ?_
  split
  · exact h ⟨.eof, "", .start⟩ .search
  · exact stage_yields h

lemma stages_yields : Yields good stages fun all => ∀ stage ∈ all, Q stage := by
  refine .bind_of_forall fun k => ?_
  split
  · exact .pure (by simp)
  · refine .bind (firstStage_yields h) fun first hfirst => ?_
    have hmore : Yields good (many fun t _ =>
        if t.kind = .symbol .pipe then some (some <$> stage) else none)
        fun all => ∀ stage ∈ all, Q stage := by
      refine .many fun t rest p hturn _ => ?_
      split at hturn
      · cases hturn
        exact .map (stage_yields h) fun a ha b hb => by cases hb; exact ha
      · cases hturn
    refine .bind hmore fun more hmore => .bind_of_forall fun _ => ?_
    split
    · exact .pure (by simpa using ⟨hfirst, hmore⟩)
    · exact .fail

end

/-! ### Trees in one setting -/

section

variable {s : Setting} {ts rest all : List Token} {stage : Stage}
  (hC : ∀ ⦃ts cs rest⦄, ts <:+ all → conditions.Reads s ts cs rest → C cs)
  (hE : ∀ ⦃ts e rest⦄, ts <:+ all → expression.Reads s ts e rest → E e)

include hE in
lemma meets_of_reads_assignment {a : Assignment} (hts : ts <:+ all)
    (h : assignment.Reads s ts a rest) : E a.expr := by
  obtain ⟨field, mid, hfield, h⟩ := reads_bind.1 h
  obtain ⟨sign, mid', hsign, h⟩ := reads_bind.1 h
  obtain ⟨e, mid'', he, h⟩ := reads_bind.1 h
  obtain ⟨rfl, rfl⟩ := reads_pure.1 h
  exact hE (hsign.isSuffix.trans (hfield.isSuffix.trans hts)) he

include hE in
lemma meets_of_reads_eval (hts : ts <:+ all) (h : eval.Reads s ts stage rest) :
    stage.Meets C E := by
  obtain ⟨first, mid, hfirst, h⟩ := reads_bind.1 h
  obtain ⟨more, mid', hmore, h⟩ := reads_bind.1 h
  obtain ⟨rfl, rfl⟩ := reads_pure.1 h
  refine List.forall_mem_cons.2 ⟨meets_of_reads_assignment hE hts hfirst, ?_⟩
  refine hmore.forall_many (fun t ts' p hturn one mid hts' hp => ?_) (hfirst.isSuffix.trans hts)
  split at hturn
  · cases hturn
    obtain ⟨a, ha, rfl⟩ := reads_map.1 hp
    rintro b ⟨⟩
    exact meets_of_reads_assignment hE hts' ha
  · cases hturn

include hC hE

lemma meets_of_reads_stageOf [Libraries] {token : Token} {command : Command} (hts : ts <:+ all)
    (h : (stageOf token command).Reads s ts stage rest) : stage.Meets C E := by
  have hany : ∀ t ∈ ts, True := fun _ _ => trivial
  cases command with
  | search | filter | where_ =>
    obtain ⟨cs, hcs, rfl⟩ := reads_map.1 h
    exact hC hts hcs
  | eval => exact meets_of_reads_eval hE hts h
  | dedup | table =>
    obtain ⟨names, -, rfl⟩ := reads_map.1 h
    trivial
  | stats => exact stats_yields hany h
  | sort => exact sort_yields hany h
  | limit | head | tail => exact limit_yields _ hany h
  | fields => exact fields_yields hany h
  | rename => exact rename_yields hany h
  | top | rare => exact frequent_yields _ hany h
  | bin => exact bin_yields _ hany h
  | timechart => exact timechart_yields hany h
  | rex => exact rex_yields hany h

lemma meets_of_reads_stage [Libraries] (hts : ts <:+ all) (h : Parser.stage.Reads s ts stage rest) :
    stage.Meets C E := by
  obtain ⟨t, mid, ht, h⟩ := reads_bind.1 h
  split at h
  · exact meets_of_reads_stageOf hC hE (ht.isSuffix.trans hts) h
  · exact (not_reads_failAt h).elim
  · exact (not_reads_failAt h).elim

lemma meets_of_reads_firstStage [Libraries] (hts : ts <:+ all)
    (h : firstStage.Reads s ts stage rest) :
    stage.Meets C E := by
  obtain ⟨k, mid, hk, h⟩ := reads_bind.1 h
  split at h
  · obtain ⟨cs, hcs, rfl⟩ := reads_map.1 h
    exact hC (hk.isSuffix.trans hts) hcs
  · exact meets_of_reads_stage hC hE (hk.isSuffix.trans hts) h

/-- What holds of the conditions and the expressions that are read in a setting, from what is left
of some tokens, holds of those of the stages that these tokens write. -/
lemma meets_of_reads_stages [Libraries] {read : List Stage} (h : stages.Reads s all read rest) :
    ∀ stage ∈ read, stage.Meets C E := by
  obtain ⟨k, mid, hk, h⟩ := reads_bind.1 h
  split at h
  · obtain ⟨rfl, -⟩ := reads_pure.1 h
    exact nofun
  · obtain ⟨first, mid', hfirst, h⟩ := reads_bind.1 h
    obtain ⟨more, mid'', hmore, h⟩ := reads_bind.1 h
    obtain ⟨k', last, -, h⟩ := reads_bind.1 h
    split at h
    · obtain ⟨rfl, -⟩ := reads_pure.1 h
      refine List.forall_mem_cons.2 ⟨meets_of_reads_firstStage hC hE hk.isSuffix hfirst, ?_⟩
      refine hmore.forall_many (fun t ts' p hturn one mid hts' hp => ?_)
        (hfirst.isSuffix.trans hk.isSuffix)
      split at hturn
      · cases hturn
        obtain ⟨stage, hstage, rfl⟩ := reads_map.1 hp
        rintro stage' ⟨⟩
        exact meets_of_reads_stage hC hE hts' hstage
      · cases hturn
    · exact (not_reads_fail h).elim

end

end Parser

/-! ### Queries -/

/-- A query of too many tokens is refused, and of any other the tokens in front of its first end are
read. -/
lemma Parser.map_readQuery {α β : Type} (f : α → β) (whole : Parser α) (limits : ParserLimits)
    (ts : List Token) :
    (readQuery whole limits ts).map f =
      if limits.maxTokens < (withoutStop ts).length then
        .error ⟨.tooManyTokens limits.maxTokens,
          (withoutStop ts)[limits.maxTokens]?.getD (stopToken ts)⟩
      else
        (whole ⟨((withoutStop ts).find? (·.kind == .eof)).getD (stopToken ts), limits.maxDepth⟩
          ((withoutStop ts).takeWhile (·.kind != .eof))).map fun parsed => f parsed.value := by
  rw [readQuery]
  split
  · rfl
  · dsimp only
    generalize whole _ _ = r
    cases r <;> rfl

lemma parseTokens_eq_stages [Libraries] (limits : ParserLimits) (ts : List Token) :
    parseTokens limits ts =
      if limits.maxTokens < (Parser.withoutStop ts).length then
        .error ⟨.tooManyTokens limits.maxTokens,
          (Parser.withoutStop ts)[limits.maxTokens]?.getD (Parser.stopToken ts)⟩
      else
        (Parser.stages
          ⟨((Parser.withoutStop ts).find? (·.kind == .eof)).getD (Parser.stopToken ts),
            limits.maxDepth⟩
          ((Parser.withoutStop ts).takeWhile (·.kind != .eof))).map fun parsed => ⟨parsed.value⟩ :=
  Parser.map_readQuery Pipeline.mk Parser.stages limits ts

/-- A pipeline is read from tokens of the query, all but the end of the query, of which there are
not too many. -/
lemma parseTokens_eq_ok [Libraries] {limits : ParserLimits} {ts : List Token} {p : Pipeline}
    (h : parseTokens limits ts = .ok p) :
    ∃ stop body rest, body.Sublist (ts.filter (·.kind != .eof)) ∧
      body.length ≤ limits.maxTokens ∧
        Parser.stages.Reads ⟨stop, limits.maxDepth⟩ body p.stages rest := by
  rw [parseTokens_eq_stages] at h
  split at h
  · cases h
  · next hlimit =>
    generalize hparsed : Parser.stages _ _ = r at h
    cases r with
    | error e => cases h
    | ok parsed =>
      cases h
      have hinner : (Parser.withoutStop ts).Sublist ts := by
        rw [Parser.withoutStop]
        split
        · exact List.dropLast_sublist _
        · exact List.Sublist.refl _
      have hbody : List.Sublist _ (Parser.withoutStop ts) := List.takeWhile_sublist (·.kind != .eof)
      refine ⟨_, _, parsed.rest, ?_, Nat.le_trans hbody.length_le (Nat.not_lt.1 hlimit),
        Parser.reads_of_eq_ok hparsed⟩
      have hfiltered := (hbody.trans hinner).filter (·.kind != .eof)
      rwa [List.filter_eq_self.2 (List.all_eq_true.1 List.all_takeWhile)] at hfiltered

lemma parseQuery_eq_ok [Libraries] {limits : ParserLimits} {query : String} {p : Pipeline} :
    parseQuery limits query = .ok p ↔
      ∃ tokens, tokenize query = .ok tokens ∧ parseTokens limits tokens = .ok p := by
  rw [parseQuery]
  split
  · next e he => simp [he]
  · next tokens htokens =>
    simp only [htokens, Except.ok.injEq, exists_eq_left']
    split <;> simp_all

/-- What holds of the conditions of a stage and of every expression read from good tokens holds of
those of a query whose tokens are good. -/
theorem parseQuery_meets [Libraries] {good : Token → Prop} {C : List Condition → Prop}
    {E : EvalExpr → Prop} (hC : Parser.Yields good Parser.conditions C)
    (hE : Parser.Yields good Parser.expression E) {limits : ParserLimits} {query : String}
    {p : Pipeline} (h : parseQuery limits query = .ok p)
    (hgood : ∀ tokens, tokenize query = .ok tokens → ∀ t ∈ tokens, good t) :
    ∀ stage ∈ p.stages, stage.Meets C E := by
  obtain ⟨tokens, htokens, hp⟩ := parseQuery_eq_ok.1 h
  obtain ⟨stop, body, rest, hbody, -, hstages⟩ := parseTokens_eq_ok hp
  have hstage := Parser.stageOf_yields hC hE
  refine Parser.stages_yields hstage (fun t ht => hgood tokens htokens t ?_) hstages
  exact (List.mem_filter.1 (hbody.subset ht)).1

end LogQuery
