import LogQuery.Proofs.Parser.Stages
import LogQuery.Proofs.Parser.Walk.Stage
import Mathlib.Data.List.TakeWhile

namespace LogQuery

open LogQuery.Parser (withoutStop stopToken)

namespace Parser

variable {s : Setting} {ts rest : List Token}

lemma eq_nil_of_isNone {k : Option TokenKind} (h : nextKind?.Reads s ts k rest)
    (hk : k.isNone = true) : rest = [] := by
  obtain ⟨rfl, rfl⟩ := reads_nextKind?.1 h
  rwa [Option.isNone_map, Option.isNone_iff_eq_none, List.head?_eq_none_iff] at hk

/-- A query that is read is read to its end. -/
lemma eq_nil_of_reads_stages [Libraries] {all : List Stage} (h : stages.Reads s ts all rest) :
    rest = [] := by
  obtain ⟨k, mid, hk, h⟩ := reads_bind.1 h
  split at h
  · next hnone =>
    obtain ⟨-, rfl⟩ := reads_pure.1 h
    exact eq_nil_of_isNone hk hnone
  · obtain ⟨first, mid', -, h⟩ := reads_bind.1 h
    obtain ⟨more, mid'', -, h⟩ := reads_bind.1 h
    obtain ⟨k', last, hk', h⟩ := reads_bind.1 h
    split at h
    · next hnone =>
      obtain ⟨-, rfl⟩ := reads_pure.1 h
      exact eq_nil_of_isNone hk' hnone
    · exact (not_reads_fail h).elim

end Parser

/-! ### The tokens with their end -/

lemma kind_stopToken (ts : List Token) : (stopToken ts).kind = .eof := by
  rw [stopToken]
  split
  · rfl
  · split
    · assumption
    · rfl

lemma closeTokens_eq (ts : List Token) : closeTokens ts = withoutStop ts ++ [stopToken ts] := by
  rw [closeTokens, withoutStop, stopToken]
  cases hlast : ts.getLast? with
  | none =>
    rw [List.getLast?_eq_none_iff] at hlast
    rw [hlast]
    rfl
  | some t =>
    rw [Option.any_some]
    by_cases ht : t.kind = .eof
    · rw [if_pos (beq_iff_eq.2 ht), if_pos (beq_iff_eq.2 ht)]
      dsimp only
      rw [if_pos ht]
      exact (List.dropLast_append_getLast? t hlast).symm
    · rw [if_neg (mt beq_iff_eq.1 ht), if_neg (mt beq_iff_eq.1 ht)]

/-- The first end of the query parts the tokens. -/
lemma exists_append_of_find? (inner : List Token) (stop : Token) :
    ∃ behind, inner ++ [stop] = inner.takeWhile (·.kind != .eof) ++
      (inner.find? (·.kind == .eof)).getD stop :: behind := by
  induction inner with
  | nil => exact ⟨[], rfl⟩
  | cons t inner ih =>
    rw [List.takeWhile_cons]
    by_cases ht : t.kind = .eof
    · rw [if_neg (mt bne_iff_ne.1 (not_not_intro ht)),
        List.find?_cons_of_pos (p := fun t : Token => t.kind == .eof) (beq_iff_eq.2 ht)]
      exact ⟨inner ++ [stop], rfl⟩
    · obtain ⟨behind, hbehind⟩ := ih
      refine ⟨behind, ?_⟩
      rw [if_pos (bne_iff_ne.2 ht),
        List.find?_cons_of_neg (p := fun t : Token => t.kind == .eof) (mt beq_iff_eq.1 ht),
        List.cons_append, hbehind, List.cons_append]

namespace Passage

open Walk

variable {q : Passage}

lemma cursor_front : q.cursor q.front 0 = ⟨0, 0, []⟩ := by
  rw [cursor, Nat.sub_self, List.range_zero]

lemma findIdx_tape : q.tape.tokens.findIdx (·.kind == .eof) = q.front.length := by
  have hfront : q.front.findIdx (·.kind == .eof) = q.front.length :=
    List.findIdx_eq_length_of_false fun t ht => beq_false_of_ne (q.front_kind t ht)
  have hstop : (q.stop.kind == TokenKind.eof) = true := beq_iff_eq.2 q.stop_kind
  rw [tape, List.findIdx_append, hfront, if_neg (Nat.lt_irrefl _), List.findIdx_cons, hstop]
  exact Nat.zero_add _

lemma length_tape : q.front.length < q.tape.tokens.length := by
  rw [tape, List.length_append, List.length_cons]
  exact Nat.lt_add_of_pos_right (Nat.succ_pos _)

lemma run_size : q.run size q.front 0 = .done q.tape.tokens.length (q.cursor q.front 0) := rfl

lemma run_tokenAt {index : Nat} {t : Token} (h : q.tape.tokens[index]? = some t) :
    q.run (tokenAt index) q.front 0 = .done t (q.cursor q.front 0) := by
  rw [run, tokenAt, h]

end Passage

open Passage in
/-- The passage of the tokens of a query. -/
lemma exists_passage (limits : ParserLimits) (ts : List Token) :
    ∃ q : Passage, q.tape = ⟨closeTokens ts, limits⟩ ∧
      q.front = (withoutStop ts).takeWhile (·.kind != .eof) ∧
        q.stop = ((withoutStop ts).find? (·.kind == .eof)).getD (stopToken ts) := by
  obtain ⟨behind, hbehind⟩ := exists_append_of_find? (withoutStop ts) (stopToken ts)
  refine ⟨⟨_, _, behind, limits, ?_, fun t ht => ?_⟩, ?_, rfl, rfl⟩
  · cases hfind : (withoutStop ts).find? (·.kind == .eof) with
    | none => exact kind_stopToken ts
    | some t => exact beq_iff_eq.1 (List.find?_some (p := fun t : Token => t.kind == .eof) hfind)
  · exact bne_iff_ne.1 (List.mem_takeWhile_imp (p := fun t : Token => t.kind != .eof) ht)
  · rw [closeTokens_eq, hbehind]
    rfl

/-- For any tokens and limits, the walk over the tokens of a query ends as the reader does, with the
cursor in front of the first end of the query if there is a query. The indices of the tokens that it
takes are always those in front of its cursor, each once and in order. -/
theorem walkTokens_follows_parseTokens [Libraries] (limits : ParserLimits) (ts : List Token) :
    let n := (closeTokens ts).findIdx (·.kind == .eof)
    n < (closeTokens ts).length ∧
      match parseTokens limits ts with
      | .ok pipeline => walkTokens limits ts = .done pipeline ⟨n, 0, List.range n⟩
      | .error e => ∃ position depth, position ≤ n ∧
        walkTokens limits ts = .refused e ⟨position, depth, List.range position⟩ := by
  obtain ⟨q, htape, hfront, hstop⟩ := exists_passage limits ts
  have htokens : closeTokens ts = q.tape.tokens := (congrArg Tape.tokens htape).symm
  have hlimits : limits = q.limits := (congrArg Tape.limits htape).symm
  have hwalk : walkTokens limits ts = q.run Walk.pipeline q.front 0 := by
    rw [walkTokens, ← htape, ← q.cursor_front]
    rfl
  have hlength : q.tape.tokens.length - 1 = (withoutStop ts).length := by
    rw [← htokens, closeTokens_eq, List.length_append, List.length_singleton, Nat.add_sub_cancel]
  dsimp only
  rw [htokens, q.findIdx_tape, hwalk, parseTokens_eq_stages, Walk.pipeline, q.run_bind q.run_limits,
    q.run_bind q.run_size, hlength, hlimits]
  refine ⟨q.length_tape, ?_⟩
  by_cases htoo : q.limits.maxTokens < (withoutStop ts).length
  · have htoken : q.tape.tokens[q.limits.maxTokens]? =
        some ((withoutStop ts)[q.limits.maxTokens]?.getD (stopToken ts)) := by
      rw [← htokens, closeTokens_eq, List.getElem?_append_left htoo, List.getElem?_eq_getElem htoo]
      rfl
    rw [if_pos htoo, if_pos htoo, q.run_bind (q.run_tokenAt htoken), q.run_refuse, q.cursor_front]
    exact ⟨0, 0, Nat.zero_le _, rfl⟩
  · rw [if_neg htoo, if_neg htoo, ← hfront, ← hstop]
    have hstages := Passage.stages_follows (List.suffix_refl q.front)
    have hsetting : (⟨q.stop, q.limits.maxDepth⟩ : Parser.Setting) = q.setting := rfl
    rw [Parser.outcome] at hstages
    rw [hsetting]
    generalize hrun : q.run Walk.stages q.front 0 = x at hstages
    cases hread : Parser.stages q.setting q.front with
    | error e =>
      rw [hread] at hstages
      cases hstages with
      | refused h =>
        rw [q.run_bind_refused hrun]
        exact ⟨_, _, Nat.sub_le _ _, rfl⟩
    | ok parsed =>
      rw [hread] at hstages
      have hnil : parsed.rest = [] := Parser.eq_nil_of_reads_stages (Parser.reads_of_eq_ok hread)
      cases hstages with
      | done h =>
        rw [q.run_bind hrun, hnil]
        rfl

end LogQuery
