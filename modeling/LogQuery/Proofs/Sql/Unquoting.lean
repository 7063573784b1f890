import LogQuery.Proofs.Sql.Name
import LogQuery.Proofs.Sql.Scan

namespace LogQuery.Sql

variable {d : Dialect} {q : Quote}

/-! ### The rules of a database -/

/-- What a literal holds, given the text behind its opening quote, and what follows the closing
one. -/
def unquoteBody (d : Dialect) (q : Quote) : List Char → Option (List Char × List Char)
  | [] => none
  | [c] => if c = q.char d then some ([], []) else none
  | c :: c' :: rest =>
    if c = q.char d then
      if c' = q.char d then (unquoteBody d q rest).map (Prod.map (c :: ·) id)
      else some ([], c' :: rest)
    else if c = '\\' ∧ d = .clickHouse then (unquoteBody d q rest).map (Prod.map (c' :: ·) id)
    else (unquoteBody d q (c' :: rest)).map (Prod.map (c :: ·) id)

/-- What the literal at the start of a text holds, and what follows it. -/
def unquote (d : Dialect) (q : Quote) : List Char → Option (String × List Char)
  | [] => none
  | c :: rest =>
    if c = q.char d then (unquoteBody d q rest).map (Prod.map String.ofList id) else none

/-- What a character is written as between quotes. -/
def Quote.escape (d : Dialect) : Quote → Char → List Char
  | .text => escapeInText d
  | .name => escapeInName d

/-! ### One character -/

/-- A doubled quote is one quote of the text. -/
lemma unquoteBody_doubled (rest : List Char) :
    unquoteBody d q (q.char d :: q.char d :: rest) =
      (unquoteBody d q rest).map (Prod.map (q.char d :: ·) id) := by
  simp [unquoteBody]

/-- ClickHouse takes the character behind a backslash for itself. -/
lemma unquoteBody_backslash (q : Quote) (c : Char) (rest : List Char) :
    unquoteBody .clickHouse q ('\\' :: c :: rest) =
      (unquoteBody .clickHouse q rest).map (Prod.map (c :: ·) id) := by
  have hquote : '\\' ≠ q.char .clickHouse := by cases q <;> decide
  simp [unquoteBody, hquote]

/-- Any other character stands for itself. -/
lemma unquoteBody_single {c : Char} (hquote : c ≠ q.char d)
    (hback : ¬ (c = '\\' ∧ d = .clickHouse)) (rest : List Char) :
    unquoteBody d q (c :: rest) = (unquoteBody d q rest).map (Prod.map (c :: ·) id) := by
  cases rest with
  | nil => simp [unquoteBody, hquote]
  | cons c' rest => simp [unquoteBody, hquote, hback]

/-- Whatever a character is written as, it is read back. -/
lemma unquoteBody_escape (c : Char) (rest : List Char) :
    unquoteBody d q (q.escape d c ++ rest) =
      (unquoteBody d q rest).map (Prod.map (c :: ·) id) := by
  cases q with
  | text =>
    simp only [Quote.escape, escapeInText]
    split_ifs with hquote hback
    · subst hquote
      exact unquoteBody_doubled rest
    · obtain ⟨rfl, rfl⟩ := hback
      exact unquoteBody_backslash .text '\\' rest
    · exact unquoteBody_single hquote hback rest
  | name =>
    cases d with
    | clickHouse =>
      simp only [Quote.escape, escapeInName]
      split_ifs with h
      · exact unquoteBody_backslash .name c rest
      · rw [not_or] at h
        exact unquoteBody_single h.1 (fun hback => h.2 hback.1) rest
    | sqlite =>
      simp only [Quote.escape, escapeInName]
      split_ifs with h
      · subst h
        exact unquoteBody_doubled rest
      · exact unquoteBody_single h (by simp) rest

/-! ### Whole literals -/

/-- The closing quote closes, unless another one follows. -/
lemma unquoteBody_close {rest : List Char} (h : rest.head? ≠ some (q.char d)) :
    unquoteBody d q (q.char d :: rest) = some ([], rest) := by
  cases rest with
  | nil => simp [unquoteBody]
  | cons c rest =>
    have hc : c ≠ q.char d := by simpa using h
    simp [unquoteBody, hc]

/-- The induction is on what is quoted. -/
lemma unquoteBody_flatMap {rest : List Char} (h : rest.head? ≠ some (q.char d)) (cs : List Char) :
    unquoteBody d q (cs.flatMap (q.escape d) ++ q.char d :: rest) = some (cs, rest) := by
  induction cs with
  | nil => exact unquoteBody_close h
  | cons c cs ih =>
    rw [List.flatMap_cons, List.append_assoc, unquoteBody_escape, ih]
    rfl

/-- A quoted text is read back, with what follows it, unless a further quote follows. -/
lemma unquote_enclosed {rest : List Char} (h : rest.head? ≠ some (q.char d)) (s : String) :
    unquote d q (q.char d :: s.toList.flatMap (q.escape d) ++ [q.char d] ++ rest) =
      some (s, rest) := by
  have hbody := unquoteBody_flatMap h s.toList
  simp [unquote, hbody]

/-- A database reads back from quotes what was put between them and stops behind them, and the text
of a name determines the name: no plain one is written as a quoted one. -/
theorem quoted_reads_back (d : Dialect) :
    (∀ (s : String) (rest : List Char), rest.head? ≠ some (Quote.char d .text) →
      unquote d .text ((quoteText d s).toList ++ rest) = some (s, rest)) ∧
    (∀ (name : String) (rest : List Char), rest.head? ≠ some (Quote.char d .name) →
      unquote d .name ((quoteName d name).toList ++ rest) = some (name, rest)) ∧
    Function.Injective (identifier d) ∧
    ∀ plain name : String, isPlainName plain = true → identifier d plain ≠ quoteName d name := by
  refine ⟨fun s rest h => ?_, fun name rest h => ?_, identifier_injective d,
    fun plain name hplain => ?_⟩
  · rw [quoteText, String.toList_ofList]
    exact unquote_enclosed h s
  · rw [quoteName, String.toList_ofList]
    exact unquote_enclosed h name
  · rw [identifier, if_pos hplain]
    exact (quoteName_ne_of_isPlainName hplain name).symm

/-- Backslashes and quotes side by side, in both dialects. -/
theorem quoted_reads_back_backslash :
    " = 1".toList.head? ≠ some (Quote.char .clickHouse .text) ∧
    unquote .clickHouse .text ((quoteText .clickHouse "a\\'\\").toList ++ " = 1".toList) =
      some ("a\\'\\", " = 1".toList) ∧
    " = 1".toList.head? ≠ some (Quote.char .sqlite .name) ∧
    unquote .sqlite .name ((quoteName .sqlite "a\"\\").toList ++ " = 1".toList) =
      some ("a\"\\", " = 1".toList) ∧
    isPlainName "app.name" = true ∧
    identifier .sqlite "app.name" ≠ quoteName .sqlite "app name" := by
  obtain ⟨htext, -⟩ := quoted_reads_back .clickHouse
  obtain ⟨-, hname, -, hplain⟩ := quoted_reads_back .sqlite
  exact ⟨by decide, htext _ _ (by decide), by decide, hname _ _ (by decide), by decide,
    hplain _ _ (by decide)⟩

end LogQuery.Sql
