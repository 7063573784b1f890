import LogQuery.Proofs.Parser.Walk.Condition
import LogQuery.Proofs.Parser.Walk.Expression

namespace LogQuery.Passage

open Walk

variable {q : Passage} {t : Token} {ts : List Token} {d : Nat}

/-! ### Aggregations and what they are sorted by -/

lemma stats_followsAt : FollowsAt q d stats fun _ => Parser.stats := by
  refine fun t ts hts => .advance hts (.bind aggregations_follows fun all => ?_)
  rw [groupFields, check_ite_bind]
  simp only [bind_assoc]
  exact .check (by nofun) (.bind fieldList_follows fun _ => .pure _) (.pure _)

lemma sortOrder_follows (field : String) (signed : SortOrder) :
    Follows q d (sortOrder signed >>= fun order => pure (⟨field, order⟩ : SortKey))
      (do
        if ← Parser.accept (.clause .asc) then return ⟨field, .ascending⟩
        else if ← Parser.accept (.clause .desc) then return ⟨field, .descending⟩
        else return ⟨field, signed⟩) := by
  rw [sortOrder, check_ite_bind, check_ite_bind]
  simp only [bind_assoc, pure_bind]
  exact .check (by nofun) (.pure _) (.check (by nofun) (.pure _) (.pure _))

lemma sortKey_followsAt : FollowsAt q d sortKey Parser.sortKeyAt := by
  intro t ts hts
  have hsuffix := List.suffix_cons t ts
  have hbehind := suffix_of_cons hts
  rw [sortKey, sortSign, Parser.sortKeyAt, check_ite_bind, run_bind (run_check_cons hts _)]
  dsimp only
  split
  · next hkind =>
    rw [hkind, if_pos (beq_self_eq_true _), bind_assoc]
    simp only [pure_bind]
    exact .advance hts (.bind fieldName_follows fun field => sortOrder_follows field .descending)
  · next hkind =>
    rw [hkind, if_neg (by decide), check_ite_bind, run_bind (run_check_cons hts _), hkind,
      if_pos (by decide), bind_assoc]
    simp only [pure_bind]
    exact .advance hts (.bind fieldName_follows fun field => sortOrder_follows field .ascending)
  · next hminus hplus =>
    rw [if_neg (mt beq_iff_eq.1 hminus), check_ite_bind, run_bind (run_check_cons hts _),
      if_neg (mt beq_iff_eq.1 hplus), pure_bind]
    simp only [pure_bind]
    exact .bind (fieldName_followsAt hts) fun field left hleft =>
      sortOrder_follows field .ascending (hleft.trans hts)

lemma sort_followsAt : FollowsAt q d sort fun _ => Parser.sort := by
  refine fun t ts hts => .advance hts ?_
  refine .bind_image (.collect (fun keys => ?_) (fun keys t ts hts => ?_) []) fun keys => ?_
  · rw [run_bind run_atStageEnd_nil]
    rfl
  · rw [run_bind (run_atStageEnd_cons hts)]
    split
    · next hkind =>
      rw [hkind]
      exact .stop
    · next hkind =>
      rw [hkind, if_neg (by decide), run_bind (run_check_cons hts _), hkind, if_pos (by decide),
        run_bind (run_advance_cons hts)]
      exact .skip
    · next hpipe hcomma =>
      rw [if_neg (mt beq_iff_eq.1 hpipe), run_bind (run_check_cons hts _),
        if_neg (mt beq_iff_eq.1 hcomma)]
      exact .one (sortKey_followsAt hts)
  · exact .ite (fun _ => .unexpected _) fun _ => .pure _

/-! ### Numbers and fields -/

lemma limit_followsAt (command : LimitCommand) :
    FollowsAt q d (limit command) fun _ => Parser.limit command := by
  refine fun t ts hts => .advance hts fun ts hts => ?_
  dsimp only
  rw [Parser.limit]
  cases ts with
  | nil =>
    rw [run_bind (run_check_nil (by nofun)), Parser.outcome_nextKind?_bind_nil, Bool.or_comm]
    exact .ite (fun _ => Follows.bind count_follows (fun n => .pure _) hts)
      fun _ => .done List.suffix_rfl
  | cons t ts =>
    have hnumber : decide (some t.kind = some TokenKind.number) = (t.kind == .number) :=
      decide_eq_decide.2 (Iff.of_eq (Option.some.injEq _ _))
    rw [run_bind (run_check_cons hts _), Parser.outcome_nextKind?_bind_cons, hnumber, Bool.or_comm]
    exact .ite (fun _ => Follows.bind count_follows (fun n => .pure _) hts)
      fun _ => .done List.suffix_rfl

lemma fieldStage_followsAt (stage : List String → Stage) :
    FollowsAt q d (fieldStage stage) fun _ => stage <$> Parser.fieldList :=
  fun _ _ hts => .advance hts (fieldList_follows.map stage)

lemma fields_followsAt : FollowsAt q d fields fun _ => Parser.fields := by
  have hlist (keep : Bool) : Follows q d (fieldList >>= fun names => pure (Stage.fields names keep))
      (Parser.fieldList >>= fun names => pure (Stage.fields names keep)) :=
    .bind fieldList_follows fun names => .pure _
  exact fun t ts hts => .advance hts (.check (by nofun) (hlist false)
    (.check (by nofun) (hlist true) (hlist true)))

/-! ### Renamings and assignments -/

lemma renamingPair_followsAt : FollowsAt q d renamingPair Parser.renamingAt :=
  fun _ _ hts => .bind (fieldName_followsAt hts) fun source _ hleft =>
    Follows.bind (.consume (by nofun) _)
      (fun _ => .bind outputName_follows fun output => .pure _) (hleft.trans hts)

lemma renamingPair_follows :
    Follows q d renamingPair (Parser.take .fieldName >>= Parser.renamingAt) := by
  refine .take renamingPair_followsAt ?_
  rw [renamingPair, fieldName, bind_assoc, run_bind run_current_nil, q.stop_kind,
    if_neg (by decide), run_bind_refused (run_unexpected List.nil_suffix _)]
  exact .refused List.suffix_rfl

def renamingTurn : Parser.Turn (Option Renaming) := fun t _ =>
  match t.kind with
  | .symbol .pipe => none
  | .symbol .comma => some do return some (← Parser.renamingAt (← Parser.take .fieldName))
  | _ => some (some <$> Parser.renamingAt t)

def renamingsBehind (all : List Renaming) : Parser (List Renaming) := do
  let one ← Parser.take .fieldName >>= Parser.renamingAt
  let more ← Parser.many renamingTurn
  return all ++ one :: more

lemma rename_eq_renamingsBehind : Parser.rename = Stage.rename <$> renamingsBehind [] := by
  change _ = renamingsBehind [] >>= fun all => pure (Stage.rename all)
  rw [renamingsBehind, bind_assoc, bind_assoc]
  simp only [bind_assoc, pure_bind]
  rfl

lemma outcome_renamingsBehind_cons {s : Parser.Setting} (all : List Renaming) :
    (renamingsBehind all).outcome s (t :: ts) =
      (Parser.renamingAt t >>= fun one => Parser.many renamingTurn >>= fun more =>
        pure (all ++ one :: more)).outcome s ts := by
  rw [renamingsBehind, bind_assoc, Parser.outcome_take_bind_cons]

/-- A renaming takes a token, so that the token behind it may be left to the next round. -/
lemma renamings_follows : Follows q d renamings (renamingsBehind []) := by
  refine fun ts hts => Tells.loop (fun all ts hts => ?_) [] hts
  refine .bind_of_ok (renamingPair_follows hts) fun one left hleft hsuffix => ?_
  have hlength := Parser.length_lt_of_take hleft
  cases left with
  | nil =>
    rw [run_bind (run_check_nil (by nofun)), if_neg Bool.false_ne_true, run_bind run_atStageEnd_nil,
      if_pos rfl, Parser.outcome_many_bind_nil]
    exact .ended List.suffix_rfl
  | cons t left =>
    have hleft := hsuffix.trans hts
    have hall (one' : Renaming) (more : List Renaming) :
        all ++ one :: ([one'] ++ more) = all ++ [one] ++ one' :: more := by
      rw [List.append_assoc]
      rfl
    rw [run_bind (run_check_cons hleft _)]
    by_cases hcomma : t.kind = .symbol .comma
    · have hturn : renamingTurn t left =
          some do return some (← Parser.renamingAt (← Parser.take .fieldName)) := by
        rw [renamingTurn, hcomma]
      rw [if_pos (beq_iff_eq.2 hcomma), run_bind (run_advance_cons hleft), run_pure,
        Parser.outcome_many_bind_turn _ hturn]
      simp only [bind_assoc, pure_bind, Option.toList_some, hall]
      simp only [← bind_assoc]
      exact .again (all ++ [one]) (List.suffix_cons t left) (Nat.lt_of_succ_lt hlength)
    rw [if_neg (mt beq_iff_eq.1 hcomma), run_bind (run_atStageEnd_cons hleft)]
    by_cases hpipe : t.kind = .symbol .pipe
    · have hturn : renamingTurn t left = none := by
        rw [renamingTurn, hpipe]
      rw [if_pos (beq_iff_eq.2 hpipe), Parser.outcome_many_bind_stop _ hturn]
      exact .ended List.suffix_rfl
    · have hturn : renamingTurn t left = some (some <$> Parser.renamingAt t) := by
        simp only [renamingTurn]
      rw [if_neg (mt beq_iff_eq.1 hpipe), run_pure, Parser.outcome_many_bind_turn _ hturn,
        bind_map_left]
      simp only [Option.toList_some, hall]
      rw [← outcome_renamingsBehind_cons]
      exact .again (all ++ [one]) List.suffix_rfl hlength

lemma rename_followsAt : FollowsAt q d rename fun _ => Parser.rename := by
  rw [rename_eq_renamingsBehind]
  exact fun _ _ hts => .advance hts (renamings_follows.map Stage.rename)

lemma assignment_follows : Follows q 0 assignment Parser.assignment :=
  .bind fieldName_follows fun field => .bind (.consume (by nofun) _) fun _ =>
    .bind expression_follows fun e => .pure _

lemma eval_followsAt : FollowsAt q 0 eval fun _ => Parser.eval :=
  fun _ _ hts => .advance hts (.separated_bind assignment_follows fun _ => .pure _)

/-! ### Counts of values -/

lemma frequent_followsAt (which : Frequency) :
    FollowsAt q d (frequent which) fun _ => Parser.frequent which := by
  refine fun t ts hts => .advance hts ?_
  have hlimit : Follows q d (parameter "limit" count) (Parser.parameter "limit" Parser.count) :=
    .parameter _ count_follows
  have hrest (before : Option Nat) : Follows q d
      (fieldList >>= fun names => parameter "limit" count >>= fun behind =>
        pure (Stage.frequent which names ((behind <|> before).getD Parser.defaultCount)))
      (Parser.fieldList >>= fun names => Parser.parameter "limit" Parser.count >>= fun behind =>
        pure (Stage.frequent which names ((behind <|> before).getD Parser.defaultCount))) :=
    .bind fieldList_follows fun names => .bind hlimit fun behind => .pure _
  rw [countBefore, check_ite_bind]
  exact .checkNext (by nofun) (.bind (count_follows.map some) hrest) (.bind hlimit hrest)

/-! ### Bins and charts -/

/-- How `bin` goes on from the parts that were read. -/
def binTurn (parts : Parser.BinParts) : Parser.Turn Parser.BinParts := fun t rest =>
  if t.kind = .symbol .pipe then none
  else if Parser.startsParameter "span" t rest then
    some do
      let _ ← Parser.expect (.symbol .eq) .equalsSign
      return { parts with span := some (← Parser.spanValue) }
  else if t.kind = .clause .as_ then
    some do return { parts with output := some (← Parser.outputName) }
  else if parts.field.isNone then
    some do return { parts with field := some (← Parser.fieldNameAt t) }
  else some (Parser.failAt t (.expected .spanOrAs))

lemma binRound_tells (parts : Parser.BinParts) (hts : ts <:+ q.front) :
    RoundTells q d (Parser.iterate binTurn) ts.length ts
      ((Parser.iterate binTurn parts).outcome q.setting ts) (q.run (binRound parts) ts d) := by
  rw [binRound]
  cases ts with
  | nil =>
    rw [run_bind run_atStageEnd_nil, if_pos rfl, Parser.outcome_iterate_nil]
    exact .ended List.suffix_rfl
  | cons t ts =>
    rw [run_bind (run_atStageEnd_cons hts)]
    by_cases hpipe : t.kind = .symbol .pipe
    · rw [if_pos (beq_iff_eq.2 hpipe), Parser.outcome_iterate_stop (if_pos hpipe)]
      exact .ended List.suffix_rfl
    rw [if_neg (mt beq_iff_eq.1 hpipe), run_bind (run_atParameter_cons hts _)]
    by_cases hspan : Parser.startsParameter "span" t ts = true
    · obtain ⟨sign, rest, rfl, hsign⟩ := Parser.sign_of_startsParameter hspan
      have hbehind := suffix_of_cons hts
      have hsuffix : rest <:+ t :: sign :: rest := List.suffix_append [t, sign] rest
      rw [if_pos hspan, run_bind (run_advance_cons hts), run_bind (run_advance_cons hbehind),
        Parser.outcome_iterate_turn ((if_neg hpipe).trans (if_pos hspan)), bind_assoc,
        Parser.outcome_expect_bind _ hsign, bind_assoc]
      simp only [pure_bind]
      exact .bind ((spanValue_follows (suffix_of_cons hbehind)).mono hsuffix)
        fun span left _ hlength => .again { parts with span := some span } List.suffix_rfl
          (Nat.lt_succ_of_le (Nat.le_succ_of_le hlength))
    rw [if_neg hspan, run_bind (run_check_cons hts _)]
    by_cases has : t.kind = .clause .as_
    · rw [if_pos (beq_iff_eq.2 has), run_bind (run_advance_cons hts),
        Parser.outcome_iterate_turn ((if_neg hpipe).trans ((if_neg hspan).trans (if_pos has))),
        bind_assoc]
      simp only [pure_bind]
      exact .bind ((outputName_follows (suffix_of_cons hts)).mono (List.suffix_cons t ts))
        fun output left _ hlength => .again { parts with output := some output } List.suffix_rfl
          (Nat.lt_succ_of_le hlength)
    rw [if_neg (mt beq_iff_eq.1 has)]
    by_cases hfield : parts.field.isNone = true
    · rw [if_pos hfield, Parser.outcome_iterate_turn ((if_neg hpipe).trans
        ((if_neg hspan).trans ((if_neg has).trans (if_pos hfield)))), bind_assoc]
      simp only [pure_bind]
      exact .bind (fieldName_followsAt hts) fun field left _ hlength =>
        .again { parts with field := some field } List.suffix_rfl (Nat.lt_succ_of_le hlength)
    · rw [if_neg hfield, run_unexpected hts, Parser.outcome_iterate_turn ((if_neg hpipe).trans
        ((if_neg hspan).trans ((if_neg has).trans (if_neg hfield))))]
      exact .refused List.suffix_rfl

lemma bin_followsAt : FollowsAt q d bin Parser.bin := by
  refine fun command ts hts => .advance hts ?_
  refine .bind (fun ts hts => Tells.loop (fun parts ts hts => binRound_tells parts hts) _ hts)
    fun parts => ?_
  obtain ⟨field, span, output⟩ := parts
  cases field with
  | none => exact .current_refuse _
  | some field =>
    cases span with
    | none => exact .refuse command _
    | some span => exact .pure _

lemma timechart_followsAt : FollowsAt q d timechart fun _ => Parser.timechart := by
  have hspan : Follows q d (parameter "span" spanValue)
      (Parser.parameter "span" Parser.spanValue) :=
    .parameter _ spanValue_follows
  refine fun t ts hts => .advance hts ?_
  refine .bind hspan fun first => .bind aggregations_follows fun all => .bind hspan fun second => ?_
  rw [splitField, check_ite_bind]
  simp only [bind_assoc, pure_bind]
  refine .check (by nofun) ?_ ?_
  · rw [if_pos rfl, bind_map_left]
    exact .bind fieldName_follows fun field => .bind hspan fun third => .pure _
  · rw [if_neg Bool.false_ne_true]
    exact .bind hspan fun third => .pure _

/-! ### Patterns -/

lemma rex_followsAt [Libraries] : FollowsAt q d rex fun _ => Parser.rex := by
  refine fun t ts hts => .advance hts (.bind (.parameter _ fieldName_follows) fun field => ?_)
  refine .take (fun t ts hts => ?_) ?_
  · rw [run_bind (run_current_cons hts)]
    refine .ite (fun _ => .advance hts ?_) fun _ => .unexpected hts _
    exact .ite (fun _ => .pure _) fun _ => .refuse t _
  · rw [run_bind run_current_nil, q.stop_kind]
    exact .unexpected List.nil_suffix _

/-! ### Commands -/

lemma filter_followsAt (command : FilterCommand) :
    FollowsAt q 0 (filter command) fun _ => .filter command <$> Parser.conditions :=
  fun _ _ hts => .advance hts (conditions_follows.map _)

lemma stageOf_followsAt [Libraries] (command : Command) :
    FollowsAt q 0 (stageOf command) fun t => Parser.stageOf t command := by
  cases command with
  | search => exact filter_followsAt .search
  | filter => exact filter_followsAt .filter
  | where_ => exact filter_followsAt .where_
  | stats => exact stats_followsAt
  | sort => exact sort_followsAt
  | limit => exact limit_followsAt .limit
  | head => exact limit_followsAt .head
  | tail => exact limit_followsAt .tail
  | dedup => exact fieldStage_followsAt .dedup
  | table => exact fieldStage_followsAt .table
  | fields => exact fields_followsAt
  | rename => exact rename_followsAt
  | eval => exact eval_followsAt
  | top => exact frequent_followsAt .top
  | rare => exact frequent_followsAt .rare
  | bin => exact bin_followsAt
  | timechart => exact timechart_followsAt
  | rex => exact rex_followsAt

lemma stage_follows [Libraries] : Follows q 0 stage Parser.stage := by
  refine .take (fun t ts hts => ?_) ?_
  · rw [stage, run_bind (run_current_cons hts)]
    cases t.kind with
    | command command => exact stageOf_followsAt command hts
    | identifier => exact .refuse t _
    | clause | aggregate | symbol | string | number | regex | eof => exact .unexpected hts _
  · rw [stage, run_bind run_current_nil, q.stop_kind]
    exact .unexpected List.nil_suffix _

lemma firstStage_follows [Libraries] : Follows q 0 firstStage Parser.firstStage := by
  intro ts hts
  cases ts with
  | nil =>
    rw [firstStage, run_bind run_current_nil, q.stop_kind]
    exact stage_follows hts
  | cons t ts =>
    rw [firstStage, run_bind (run_current_cons hts), Parser.firstStage,
      Parser.firstStageBy, Parser.lift_eq, Parser.outcome_nextKind?_bind_cons]
    exact .ite (fun _ => conditions_follows.map _ hts) fun _ => stage_follows hts

lemma stages_follows [Libraries] : Follows q 0 stages Parser.stages := by
  refine .checkEnd (.pure []) (.bind firstStage_follows fun first => ?_)
  refine .bind_image (.collect (fun all => ?_) (fun all t ts hts => ?_) [first]) fun all =>
    .checkEnd (.pure _) (.unexpected _)
  · rw [run_bind (run_check_nil (by nofun))]
    rfl
  · rw [run_bind (run_check_cons hts _)]
    by_cases hpipe : t.kind = .symbol .pipe
    · rw [if_pos (beq_iff_eq.2 hpipe), if_pos hpipe, run_bind (run_advance_cons hts)]
      exact .one ((stage_follows (suffix_of_cons hts)).mono (List.suffix_cons t ts))
    · rw [if_neg (mt beq_iff_eq.1 hpipe), if_neg hpipe]
      exact .stop

end LogQuery.Passage
