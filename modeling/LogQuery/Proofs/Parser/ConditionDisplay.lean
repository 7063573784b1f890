import LogQuery.CommandLine.Libraries
import LogQuery.Proofs.Parser.NegatedConnectives
import LogQuery.Proofs.Parser.SingleStage

namespace LogQuery

open Lexer

/-! ### Readable limits -/

namespace Parser

variable {s : Setting} {ts rest : List Token}

/-- Every level of a phrase takes a token of its own. The induction is on the derivation. -/
lemma Derives.nesting_add_le {level : PhraseLevel} {p : Phrase} (h : Derives s level ts rest p) :
    p.nesting + rest.length ≤ ts.length := by
  induction h with
  | term _ _ hterm =>
    have := hterm.isSuffix.length_le
    simp only [Phrase.nesting, List.length_cons]
    omega
  | _ => simp only [Phrase.nesting, Phrase.nestingOfAll, List.length_cons] at *; omega

end Parser

namespace Condition

variable {cs : List Condition}

/-- A stage lists the conditions that stand side by side in it. -/
lemma topLevel_members {ps : List Phrase} (hmeanings : Phrase.meanings ps = cs)
    (h : ∀ members, cs ≠ [.group .and members false]) :
    topLevel (Phrase.any [.all ps]).meaning = cs := by
  have hmeaning : (Phrase.any [.all ps]).meaning = join? .and cs := by
    rw [Phrase.meaning, Phrase.meanings, Phrase.meaning, hmeanings]
    cases join? .and cs <;> rfl
  rw [hmeaning]
  rcases cs with _ | ⟨c, _ | ⟨c', rest⟩⟩
  · rfl
  · rw [join?, topLevel.eq_def]
    split
    · next heq => cases heq
    · next members heq =>
      cases heq
      exact (h members rfl).elim
    · next heq =>
      cases heq
      rfl
  · rfl

/-- The text of a stage that searches for the conditions. -/
def searchText (cs : List Condition) : String :=
  "search " ++ String.intercalate " " (cs.map display)

/-- The text of a stage is lexed into a command and the tokens of its conditions. -/
lemma spells_searchText (h : ∀ c ∈ cs, c.Written) :
    Spells none (searchText cs).toList
      ((.command .search, "search") :: [].intercalate (cs.map spelling)) [] := by
  have hword : ∀ more, Spells none "search".toList [(.command .search, "search")]
      ([' '] ++ more) := fun _ => spells_word (isWord_of_all rfl rfl) endsText_space
  have hcommand : ∀ more, Spells none "search ".toList [(.command .search, "search")] more :=
    fun more => (hword more).append spells_space
  have hconditions : Spells (some (.command .search))
      ([' '].intercalate (cs.map fun c => c.display.toList))
      ([].intercalate (cs.map spelling)) [] :=
    .intercalate (fun _ => True) (fun _ _ => spells_space) (fun _ => endsText_space)
      (fun _ => trivial) (fun c hc _ _ _ hrest => (h c hc).spells hrest) trivial endsText_nil
  have hrow := (hcommand _).append hconditions
  rw [searchText]
  simpa [Function.comp_def] using hrow

/-- The tokens of a stage have a connective behind a `NOT` for each comparison that is negated
itself and has a field that names a connective. -/
lemma counts_stage (h : ∀ c ∈ cs, c.Written) :
    Counts ([].intercalate (cs.map spelling)) (connectiveTests (allTestsWith true cs)) := by
  rw [connectiveTests_allTestsWith]
  exact Counts.nil.intercalate fun c hc => (h c hc).counts

end Condition

namespace Parser

variable {s : Setting} {ts rest : List Token} {cs : List Condition}

/-- Tokens of a stage with a comparison of a field that names a connective, which is not negated
itself, are not read as its conditions: they have too few connectives behind a `NOT`. -/
lemma not_namesConnective_of_reads_conditions (h : ∀ c ∈ cs, c.Written)
    (hspelling : ts.map Token.spelling = [].intercalate (cs.map Condition.spelling))
    (hts : ∀ t ∈ ts, t.IsGenuine) (hr : conditions.Reads s ts cs rest) :
    ∀ t ∈ Condition.allTestsWith false cs, ¬ NamesConnective t.field := by
  obtain ⟨c, hc, -, hconditions⟩ := reads_conditions.1 hr
  obtain ⟨p, hp, -, rfl⟩ := derives_of_reads_disjunction (takesDerived_unary s s.maxDepth) hc
  have htests : p.tests = Condition.allTests cs := by
    rw [hconditions, Condition.allTests_eq_flatMap, Condition.flatMap_tests_topLevel,
      Phrase.flatMap_tests_meaning]
  have hcount : negatedIn ts = connectiveTests (Condition.allTestsWith true cs) := by
    rw [negatedIn, hspelling]
    exact (Condition.counts_stage h (by simp)).1
  have hle : connectiveTests p.tests + negatedIn rest ≤ negatedIn ts + 0 :=
    hp.connectiveTests_le hts
  rw [htests, hcount, Condition.connectiveTests_allTests] at hle
  have hzero : connectiveTests (Condition.allTestsWith false cs) = 0 := by omega
  simpa [connectiveTests] using hzero

/-- Tokens of a stage are read as its conditions, with as many levels as there are tokens. -/
lemma reads_conditions_of_written (h : ∀ c ∈ cs, c.Written)
    (hsingle : ∀ members, cs ≠ [.group .and members false])
    (hspelling : ts.map Token.spelling = [].intercalate (cs.map Condition.spelling))
    (hts : ts.IsChain Apart) (hvalues : ∀ t ∈ Condition.allTests cs, t.value.ReadsBack)
    (hbare : ∀ t ∈ Condition.allTestsWith false cs, ¬ NamesConnective t.field)
    (hdepth : ts.length ≤ s.maxDepth) : conditions.Reads s ts cs [] := by
  have hreads : ∀ c ∈ cs, Rereads s c := fun c hc =>
    (h c hc).rereads (fun t ht => hbare t (Condition.mem_allTestsWith.2 ⟨c, hc, ht⟩))
      (fun t ht => hvalues t (Condition.mem_allTests.2 ⟨c, hc, ht⟩)) s
  have hflat : ts.map Token.spelling = (cs.map Condition.spelling).flatMap ([] ++ ·) := by
    rw [hspelling]
    cases cs with
    | nil => rfl
    | cons c cs => rw [List.map_cons, intercalate_cons]; rfl
  rw [← List.append_nil ts] at hts
  obtain ⟨ps, hps, hmeanings⟩ := derives_members (.inl rfl) hreads hflat hts
  rw [List.append_nil] at hps
  have hp : Derives s .disjunction ts [] (.any [.all ps]) := .disjunction hps .noMore
  have hnesting : (Phrase.any [.all ps]).nesting ≤ s.maxDepth :=
    Nat.le_trans hp.nesting_add_le hdepth
  exact reads_conditions.2 ⟨_, hp.isRead nofun _ hnesting, nofun,
    (Condition.topLevel_members hmeanings hsingle).symm⟩

end Parser

/-- The conditions of a stage of a query are read back from the text of a search for them, under
large enough limits, if and only if every comparison of a field that reads as a connective is
negated itself; as far as its numbers are read back from their plain notation. -/
theorem filter_reads_display_iff [Libraries] {limits : ParserLimits} {query : String} {p : Pipeline}
    (hp : parseQuery limits query = .ok p) {command : FilterCommand} {cs : List Condition}
    (hstage : .filter command cs ∈ p.stages)
    (hvalues : ∀ t ∈ Condition.allTests cs, t.value.ReadsBack) :
    (∃ N, ∀ limits' : ParserLimits, N ≤ limits'.maxTokens → N ≤ limits'.maxDepth →
      parseQuery limits' (Condition.searchText cs) = .ok ⟨[.filter .search cs]⟩) ↔
      ∀ t ∈ Condition.allTestsWith false cs, ¬ NamesConnective t.field := by
  obtain ⟨hwritten, hsingle⟩ : (∀ c ∈ cs, c.Written) ∧
      ∀ members, cs ≠ [.group .and members false] :=
    parseQuery_meets (E := fun _ => True) Parser.conditions_yields_written .trivial hp
      (fun tokens htokens => genuine_of_mem_tokenize htokens) _ hstage
  obtain ⟨front, stop, hparted, hfront⟩ :=
    (Condition.spells_searchText hwritten).exists_tokens .start
  obtain ⟨t, body, rfl, ht, hbody⟩ := List.map_eq_cons_iff.1 hfront
  have ht := (Token.spelling_eq.1 ht).1
  have hlexing := hparted.lexing
  have hapart : body.IsChain Apart := hparted.apart.tail.left_of_append
  constructor
  · rintro ⟨N, hN⟩
    have hread := hN ⟨N, N⟩ (Nat.le_refl N) (Nat.le_refl N)
    obtain ⟨rest, hstage⟩ := exists_reads_of_parseQuery hlexing ht hread rfl
    obtain ⟨cs', hcs', heq⟩ := Parser.reads_map.1 hstage
    cases heq
    exact Parser.not_namesConnective_of_reads_conditions hwritten hbody
      (fun u hu => hlexing.isGenuine u (by simp [hu])) hcs'
  · intro hbare
    refine ⟨body.length + 1, fun limits' htokens hdepth => ?_⟩
    have hread : Parser.conditions.Reads ⟨stop, limits'.maxDepth⟩ body cs [] :=
      Parser.reads_conditions_of_written hwritten hsingle hbody hapart hvalues hbare
        (Nat.le_of_succ_le hdepth)
    exact parseQuery_of_stage hlexing ht (Parser.reads_map.2 ⟨cs, hread, rfl⟩) htokens

/-- Behind two negations, a field may be named like a connective. -/
lemma parseQuery_connective : (match parseQuery ⟨10, 2⟩ "NOT NOT and=5" with
    | .ok ⟨[.filter .search [.compare "and" .eq (.number x) false]]⟩ =>
      decide (x.plain = "5" ∧ Binary64.ofText? x.plain = some x)
    | _ => false) = true := by
  decide +kernel

/-- The two negations are not displayed, and without them the field is taken for a connective. -/
theorem filter_reads_display_connective : ∃ x : Binary64,
    parseQuery ⟨10, 2⟩ "NOT NOT and=5" =
        .ok ⟨[.filter .search [.compare "and" .eq (.number x) false]]⟩ ∧
      Binary64.ofText? x.plain = some x ∧
      ¬ ∃ N, ∀ limits : ParserLimits, N ≤ limits.maxTokens → N ≤ limits.maxDepth →
        parseQuery limits "search and=5" =
          .ok ⟨[.filter .search [.compare "and" .eq (.number x) false]]⟩ := by
  have hparse := parseQuery_connective
  split at hparse
  · next x hp =>
    obtain ⟨htext, hround⟩ := of_decide_eq_true hparse
    let c : Condition := .compare "and" .eq (.number x) false
    have hp : parseQuery ⟨10, 2⟩ "NOT NOT and=5" = .ok ⟨[.filter .search [c]]⟩ := hp
    have hvalues : ∀ t ∈ Condition.allTests [c], t.value.ReadsBack := by
      intro t ht
      obtain rfl : t = ⟨"and", .eq, .number x⟩ := List.mem_singleton.1 ht
      intro y hy
      obtain rfl : y = x := by simpa [Value.numbers] using hy
      exact hround
    have hread := filter_reads_display_iff hp (List.mem_singleton_self (Stage.filter .search [c]))
      hvalues
    have hdisplay : Condition.searchText [c] = "search and=5" := by
      rw [Condition.searchText]
      simp only [List.map_cons, List.map_nil, String.intercalate_singleton, c, Condition.display,
        Value.display, htext]
      decide
    rw [hdisplay] at hread
    refine ⟨x, hp, hround, fun h => ?_⟩
    have hbare : ¬ NamesConnective "and" :=
      hread.1 h ⟨"and", .eq, .number x⟩ (List.mem_singleton_self _)
    exact hbare (.inl (by decide))
  · cases hparse

end LogQuery
