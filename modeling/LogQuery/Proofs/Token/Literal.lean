import LogQuery.Proofs.Token.Character
import Mathlib.Tactic.SplitIfs

namespace LogQuery.Lexer

/-! ### Strings and regular expressions -/

/-- What stands between the quotes of a string, and the text that it says. A backslash in front of
the quote makes the quote a part of the text, and every other backslash is itself a part of it. -/
inductive Unescapes (quote : Char) : List Char → List Char → Prop where
  | nil : Unescapes quote [] []
  | escaped {body text : List Char} (h : Unescapes quote body text) :
      Unescapes quote ('\\' :: quote :: body) (quote :: text)
  | plain {c : Char} {body text : List Char} (hc : c ≠ quote)
      (hescape : c = '\\' → (body ++ [quote]).head? ≠ some quote)
      (h : Unescapes quote body text) : Unescapes quote (c :: body) (c :: text)

/-- What stands between the slashes of a regular expression: a slash only behind a backslash, which
takes any character with it. -/
inductive IsPattern : List Char → Prop where
  | nil : IsPattern []
  | escaped {c : Char} {pattern : List Char} (h : IsPattern pattern) :
      IsPattern ('\\' :: c :: pattern)
  | plain {c : Char} {pattern : List Char} (hslash : c ≠ '/') (hescape : c ≠ '\\')
      (h : IsPattern pattern) : IsPattern (c :: pattern)

lemma Unescapes.splitString {quote : Char} {body text : List Char} (h : Unescapes quote body text)
    (hquote : quote ≠ '\\') (rest : List Char) :
    splitString quote (body ++ quote :: rest) = some ⟨text, body ++ [quote], rest⟩ := by
  induction h with
  | nil => cases rest <;> simp [Lexer.splitString]
  | escaped h ih => simp [Lexer.splitString, hquote.symm, ih, Quoted.cons]
  | @plain c body text hc hescape h ih =>
    cases body with
    | nil =>
      have hc' : c ≠ '\\' := fun heq => hescape heq rfl
      simp only [List.nil_append] at ih
      simp [Lexer.splitString, hc, hc', ih, Quoted.cons]
    | cons d body =>
      have hd : ¬ (c = '\\' ∧ d = quote) := by
        rintro ⟨heq, rfl⟩
        exact hescape heq rfl
      simp only [List.cons_append] at ih
      simp [Lexer.splitString, hc, hd, ih, Quoted.cons]

lemma unescapes_of_splitString {quote : Char} {cs : List Char} {q : Quoted}
    (h : splitString quote cs = some q) :
    ∃ body, Unescapes quote body q.content ∧ q.source = body ++ [quote] ∧
      cs = body ++ quote :: q.rest := by
  fun_induction Lexer.splitString quote cs generalizing q with
  | case1 => cases h
  | case2 => cases h; exact ⟨[], .nil, rfl, rfl⟩
  | case3 => cases h
  | case4 => cases h; exact ⟨[], .nil, rfl, rfl⟩
  | case5 c d rest hc hescape ih =>
    obtain ⟨q', hq, rfl⟩ := Option.map_eq_some_iff.1 h
    obtain ⟨body, hbody, hsource, hcs⟩ := ih hq
    obtain ⟨rfl, rfl⟩ := hescape
    refine ⟨'\\' :: d :: body, .escaped hbody, ?_, ?_⟩
    · simp [Quoted.cons, hsource]
    · simp [Quoted.cons, hcs]
  | case6 c d rest hc hescape ih =>
    obtain ⟨q', hq, rfl⟩ := Option.map_eq_some_iff.1 h
    obtain ⟨body, hbody, hsource, hcs⟩ := ih hq
    refine ⟨c :: body, .plain hc ?_ hbody, ?_, ?_⟩
    · intro heq hhead
      have hd : d = quote := by cases body <;> simp_all
      exact hescape ⟨heq, hd⟩
    · simp [Quoted.cons, hsource]
    · simp [Quoted.cons, hcs]

lemma IsPattern.splitRegex {pattern : List Char} (h : IsPattern pattern) (rest : List Char) :
    splitRegex (pattern ++ '/' :: rest) = some ⟨pattern, pattern ++ ['/'], rest⟩ := by
  induction h with
  | nil => cases rest <;> simp [Lexer.splitRegex]
  | escaped h ih => simp [Lexer.splitRegex, ih, Quoted.cons]
  | @plain c pattern hslash hescape h ih =>
    cases pattern with
    | nil =>
      simp only [List.nil_append] at ih
      simp [Lexer.splitRegex, hslash, hescape, ih, Quoted.cons]
    | cons d pattern =>
      simp only [List.cons_append] at ih
      simp [Lexer.splitRegex, hslash, hescape, ih, Quoted.cons]

lemma isPattern_of_splitRegex {cs : List Char} {q : Quoted} (h : splitRegex cs = some q) :
    IsPattern q.content ∧ q.source = q.content ++ ['/'] ∧ cs = q.content ++ '/' :: q.rest := by
  fun_induction Lexer.splitRegex cs generalizing q with
  | case1 => cases h
  | case2 => cases h; exact ⟨.nil, rfl, rfl⟩
  | case3 => cases h
  | case4 => cases h; exact ⟨.nil, rfl, rfl⟩
  | case5 d rest hc ih =>
    obtain ⟨q', hq, rfl⟩ := Option.map_eq_some_iff.1 h
    obtain ⟨hpattern, hsource, hcs⟩ := ih hq
    exact ⟨.escaped hpattern, by simp [Quoted.cons, hsource], by simp [Quoted.cons, hcs]⟩
  | case6 c d rest hslash hescape ih =>
    obtain ⟨q', hq, rfl⟩ := Option.map_eq_some_iff.1 h
    obtain ⟨hpattern, hsource, hcs⟩ := ih hq
    exact ⟨.plain hslash hescape hpattern, by simp [Quoted.cons, hsource],
      by simp [Quoted.cons, hcs]⟩

/-! ### Numbers -/

lemma splitNumber_eq_nil {cs : List Char}
    (h : ∀ c ∈ cs.head?, c.isDigit = false ∧ c ≠ '.') : splitNumber cs = ([], cs) := by
  cases cs with
  | nil => rfl
  | cons c rest =>
    obtain ⟨hdigit, hpoint⟩ := h c rfl
    simp [splitNumber, hdigit, hpoint]

lemma mem_splitNumber {c : Char} {cs : List Char} (h : c ∈ (splitNumber cs).1) :
    c.isDigit = true ∨ c = '.' := by
  induction cs with
  | nil => cases h
  | cons d rest ih =>
    rw [splitNumber] at h
    split_ifs at h with hd
    · rcases List.mem_cons.1 h with rfl | h
      · rw [Bool.or_eq_true, Bool.and_eq_true, decide_eq_true_eq] at hd
        exact hd.imp id And.left
      · exact ih h
    · cases h

/-- No number goes on with a text that begins like one without a digit in front. -/
lemma splitNumber_eq_nil_of_ahead {cs cs' : List Char} (hcs : ∀ c ∈ cs.head?, c.isDigit = false)
    (h : ahead cs' = ahead cs) (hpoint : ahead cs' ≠ some '.') : splitNumber cs' = ([], cs') := by
  apply splitNumber_eq_nil
  intro c hc
  constructor
  · by_contra hdigit
    rw [Bool.not_eq_false] at hdigit
    have hahead : ahead cs' = some c := ahead_eq_some.2 ⟨hc, not_opensGap_of_isDigit c hdigit⟩
    rw [h] at hahead
    rw [hcs c (ahead_eq_some.1 hahead).1] at hdigit
    cases hdigit
  · rintro rfl
    exact hpoint (ahead_eq_some.2 ⟨hc, by decide⟩)

/-- What a text begins with also shows if the text behind its number is replaced by one that goes
on alike. -/
lemma any_head?_splitNumber {p : Char → Bool} (hp : ∀ c, p c = true → opensGap c = false)
    (cs : List Char) {rest' : List Char} (h : ahead rest' = ahead (splitNumber cs).2) :
    ((splitNumber cs).1 ++ rest').head?.any p = cs.head?.any p := by
  have happend := splitNumber_append cs
  cases hdigits : (splitNumber cs).1 with
  | nil =>
    rw [hdigits, List.nil_append] at happend
    rw [List.nil_append, ← happend]
    exact any_head?_congr hp h
  | cons d digits =>
    rw [hdigits, List.cons_append] at happend
    rw [← happend]
    rfl

lemma not_opensGap_of_digit_or_star (c : Char) (h : (c.isDigit || decide (c = '*')) = true) :
    opensGap c = false := by
  rw [Bool.or_eq_true, decide_eq_true_eq] at h
  rcases h with h | rfl
  · exact not_opensGap_of_isDigit c h
  · decide

/-- A number ends where it did if the text behind it goes on alike. -/
lemma splitNumber_behind (cs : List Char) {rest' : List Char}
    (h : ahead rest' = ahead (splitNumber cs).2) (hpoint : ahead rest' ≠ some '.') :
    splitNumber ((splitNumber cs).1 ++ rest') = ((splitNumber cs).1, rest') := by
  induction cs with
  | nil => exact splitNumber_eq_nil_of_ahead (by simp [splitNumber]) h hpoint
  | cons c rest ih =>
    by_cases hc : (c.isDigit || (c = '.' && rest.head?.any fun d => d.isDigit || d = '*')) = true
    · have hcons : splitNumber (c :: rest) =
          (c :: (splitNumber rest).1, (splitNumber rest).2) := by
        rw [splitNumber, if_pos hc]
      rw [hcons] at h ⊢
      rw [List.cons_append, splitNumber,
        any_head?_splitNumber not_opensGap_of_digit_or_star rest h, if_pos hc, ih h]
    · have hnil : splitNumber (c :: rest) = ([], c :: rest) := by rw [splitNumber, if_neg hc]
      rw [hnil] at h ⊢
      refine splitNumber_eq_nil_of_ahead ?_ h hpoint
      simp only [Bool.not_eq_true, Bool.or_eq_false_iff] at hc
      simpa using hc.1

end LogQuery.Lexer
