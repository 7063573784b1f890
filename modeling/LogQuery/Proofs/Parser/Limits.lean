import LogQuery.Proofs.Parser.CountingReaders
import LogQuery.Proofs.Parser.Stages

namespace LogQuery

namespace Parser

/-- The reader leaves as many levels open as it finds, if the fuel covers the levels that are
left. -/
def Balanced {α : Type} (scope : Nat → Nat → Prop) (fuel : Nat) (p : Counting α) : Prop :=
  ∀ ⦃m : Meter⦄ ⦃s : Setting⦄ ⦃ts : List Token⦄ ⦃left : Nat⦄ ⦃r : Parsed (α × Meter) ts⦄,
    scope s.maxDepth left → m.opened + left = s.maxDepth → left < fuel →
      p m s ts = .ok r → r.value.2.opened = m.opened

/-- A reader whose need is tracked under all limits is balanced. -/
lemma Balanced.of_tracks {α : Type} {scope : Nat → Nat → Prop} {fuel : Nat} {p : Counting α}
    {q : Nat → Parser α} (h : ∀ ts, Tracks scope fuel p q ts) : Balanced scope fuel p := by
  rintro m ⟨stop, limit⟩ ts left r hs hm hleft hr
  obtain ⟨need, -, -, hp⟩ := h ts stop
  rw [hp limit left m hs hm hleft] at hr
  cases hq : q left ⟨stop, limit⟩ ts with
  | error e =>
    rw [hq] at hr
    cases hr
  | ok a =>
    rw [hq] at hr
    cases hr
    rfl

/-- The pipeline that tokens write, and the count at the end of the query. -/
def Counting.parseTokens [Libraries] (limits : ParserLimits) (ts : List Token) :
    Except ParseError (Pipeline × Meter) :=
  (readQuery (stages (limits.maxDepth + 1) .zero) limits ts).map fun (stages, m) => (⟨stages⟩, m)

/-- Tokens have one need. -/
lemma Needs.unique {α : Type} {q : Nat → Parser α} {stop : Token} {ts : List Token} {a b : Nat}
    {r r' : Except ParseError (Parsed α ts)} (h : Needs NoneOpen q stop ts a r)
    (h' : Needs NoneOpen q stop ts b r') : a = b := by
  have hle : ∀ {a b : Nat} {r r' : Except ParseError (Parsed α ts)},
      Needs NoneOpen q stop ts a r → Needs NoneOpen q stop ts b r' → b ≤ a := by
    intro a b r r' h h'
    by_contra hlt
    have hscope : NoneOpen a a := rfl
    obtain ⟨t, ht⟩ := h'.missed hscope (Nat.lt_of_not_le hlt)
    rw [h.reached hscope (Nat.le_refl a)] at ht
    exact Bool.noConfusion (h.unlimited _ ht)
  exact Nat.le_antisymm (hle h' h) (hle h h')

/-- There are an end, for which no limit is to blame, and a nesting: where limits leave room for the
tokens and the nesting, they are read to this end, and otherwise a limit is to blame. -/
lemma parseTokens_needs [Libraries] (ts : List Token) :
    ∃ (unlimited : Except ParseError Pipeline) (nesting : Nat),
      (∀ e, unlimited = .error e → e.fault.isLimit = false) ∧
      ∀ limits : ParserLimits,
        ((withoutStop ts).length ≤ limits.maxTokens ∧ nesting ≤ limits.maxDepth →
          parseTokens limits ts = unlimited) ∧
        (¬ ((withoutStop ts).length ≤ limits.maxTokens ∧ nesting ≤ limits.maxDepth) →
          ∃ e, parseTokens limits ts = .error e ∧ e.fault.isLimit = true) ∧
        Counting.parseTokens limits ts =
          (parseTokens limits ts).map (·, Meter.zero.raise nesting) := by
  let body := (withoutStop ts).takeWhile (·.kind != .eof)
  let stop := ((withoutStop ts).find? (·.kind == .eof)).getD (stopToken ts)
  have htracks : ∀ fuel, Tracks NoneOpen fuel (Counting.stages fuel) (fun _ => stages) body :=
    fun fuel => tracks_stages fuel
  obtain ⟨nesting, r, hneeds, -⟩ := htracks 0 stop
  have hread : ∀ limits : ParserLimits, (withoutStop ts).length ≤ limits.maxTokens →
      parseTokens limits ts =
        (stages ⟨stop, limits.maxDepth⟩ body).map fun parsed => ⟨parsed.value⟩ := by
    intro limits hlen
    rw [parseTokens_eq_stages, if_neg (Nat.not_lt.2 hlen)]
  refine ⟨r.map fun parsed => ⟨parsed.value⟩, nesting, fun e he => ?_,
    fun limits => ⟨fun hfit => ?_, fun hfit => ?_, ?_⟩⟩
  · cases r with
    | error e' =>
      cases he
      exact hneeds.unlimited e rfl
    | ok parsed => cases he
  · have hscope : NoneOpen limits.maxDepth limits.maxDepth := rfl
    rw [hread limits hfit.1, hneeds.reached hscope hfit.2]
  · rcases Nat.lt_or_ge limits.maxTokens (withoutStop ts).length with hlen | hlen
    · rw [parseTokens_eq_stages, if_pos hlen]
      exact ⟨_, rfl, rfl⟩
    · have hscope : NoneOpen limits.maxDepth limits.maxDepth := rfl
      obtain ⟨t, ht⟩ := hneeds.missed hscope (Nat.lt_of_not_le fun hle => hfit ⟨hlen, hle⟩)
      rw [hread limits hlen, ht]
      exact ⟨_, rfl, rfl⟩
  · obtain ⟨need, r', hneeds', hcount⟩ := htracks (limits.maxDepth + 1) stop
    have hstages : Counting.stages (limits.maxDepth + 1) .zero ⟨stop, limits.maxDepth⟩ body =
        (stages ⟨stop, limits.maxDepth⟩ body).map (Parsed.map (·, Meter.zero.raise nesting)) := by
      rw [← hneeds'.unique hneeds]
      exact hcount limits.maxDepth limits.maxDepth .zero rfl (Nat.zero_add _) (Nat.lt_succ_self _)
    rw [Counting.parseTokens, map_readQuery, parseTokens_eq_stages]
    split
    · rfl
    · rw [hstages]
      cases stages ⟨stop, limits.maxDepth⟩ body <;> rfl

/-- Larger limits change only what a limit is to blame for. -/
lemma parseTokens_of_larger [Libraries] {limits limits' : ParserLimits}
    (htokens : limits.maxTokens ≤ limits'.maxTokens) (hdepth : limits.maxDepth ≤ limits'.maxDepth)
    (ts : List Token) :
    (∃ e, parseTokens limits ts = .error e ∧ e.fault.isLimit = true) ∨
      parseTokens limits' ts = parseTokens limits ts := by
  obtain ⟨unlimited, nesting, -, hneeds⟩ := parseTokens_needs ts
  by_cases hfit : (withoutStop ts).length ≤ limits.maxTokens ∧ nesting ≤ limits.maxDepth
  · have hfit' : (withoutStop ts).length ≤ limits'.maxTokens ∧ nesting ≤ limits'.maxDepth :=
      ⟨Nat.le_trans hfit.1 htokens, Nat.le_trans hfit.2 hdepth⟩
    rw [(hneeds limits).1 hfit, (hneeds limits').1 hfit']
    exact .inr rfl
  · exact .inl ((hneeds limits).2.1 hfit)

/-- Limits only cut off. Under any limits, tokens are read as without limits or refused for a limit,
and larger limits keep a pipeline that was read and an error that no limit is to blame for. What was
read leaves as many levels open as it found, so whether tokens are accepted depends on their number
and on the most levels that are open at once. -/
theorem limits_only_cut_off [Libraries] (ts : List Token) :
    (∃ (unlimited : Except ParseError Pipeline) (nesting : Nat),
      (∀ e, unlimited = .error e → e.fault.isLimit = false) ∧
      (∀ limits : ParserLimits, parseTokens limits ts = unlimited ∨
        ∃ e, parseTokens limits ts = .error e ∧ e.fault.isLimit = true) ∧
      (∀ limits : ParserLimits, parseTokens limits ts = unlimited ↔
        (withoutStop ts).length ≤ limits.maxTokens ∧ nesting ≤ limits.maxDepth) ∧
      ∀ limits : ParserLimits, Counting.parseTokens limits ts =
        (parseTokens limits ts).map (·, Meter.zero.raise nesting)) ∧
    (∀ limits limits' : ParserLimits, limits.maxTokens ≤ limits'.maxTokens →
      limits.maxDepth ≤ limits'.maxDepth →
        (∀ p, parseTokens limits ts = .ok p → parseTokens limits' ts = .ok p) ∧
        ∀ e, parseTokens limits ts = .error e → e.fault.isLimit = false →
          parseTokens limits' ts = .error e) ∧
    (∀ fuel t, Balanced AllLevels fuel (Counting.unary fuel t)) ∧
    (∀ fuel, Balanced AllLevels fuel (disjunction (Counting.unary fuel))) ∧
    (∀ fuel, Balanced AllLevels fuel (Counting.operand fuel)) ∧
    (∀ fuel, Balanced AllLevels fuel (Counting.expression fuel)) ∧
    (∀ fuel, Balanced NoneOpen fuel (Counting.assignment fuel)) ∧
    ∀ fuel, Balanced NoneOpen fuel (Counting.stage fuel) := by
  obtain ⟨unlimited, nesting, hunlimited, hneeds⟩ := parseTokens_needs ts
  refine ⟨⟨unlimited, nesting, hunlimited, fun limits => ?_,
    fun limits => ⟨fun heq => ?_, (hneeds limits).1⟩, fun limits => (hneeds limits).2.2⟩,
    fun limits limits' htokens hdepth => ⟨fun p hp => ?_, fun e he hproper => ?_⟩,
    fun fuel t => .of_tracks (tracks_unary fuel t), fun fuel => .of_tracks (tracks_or fuel),
    fun fuel => .of_tracks (tracks_operand fuel), fun fuel => .of_tracks fun ts =>
      (tracks_expression_allLevels fuel).of_fuel_le (Nat.le_succ _),
    fun fuel => .of_tracks fun ts => tracks_assignment fuel,
    fun fuel => .of_tracks fun ts => tracks_stage fuel⟩
  · by_cases hfit : (withoutStop ts).length ≤ limits.maxTokens ∧ nesting ≤ limits.maxDepth
    · exact .inl ((hneeds limits).1 hfit)
    · exact .inr ((hneeds limits).2.1 hfit)
  · by_contra hfit
    obtain ⟨e, he, hlimit⟩ := (hneeds limits).2.1 hfit
    rw [heq] at he
    rw [hunlimited e he] at hlimit
    cases hlimit
  · rcases parseTokens_of_larger htokens hdepth ts with ⟨e, he, -⟩ | heq
    · rw [hp] at he
      cases he
    · rw [heq, hp]
  · rcases parseTokens_of_larger htokens hdepth ts with ⟨e', he', hlimit⟩ | heq
    · rw [he] at he'
      cases he'
      rw [hproper] at hlimit
      cases hlimit
    · rw [heq, he]

end Parser

end LogQuery
