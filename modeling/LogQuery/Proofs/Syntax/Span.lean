import LogQuery.Proofs.Address.Dotted
import LogQuery.Proofs.Number.RoundTrip
import LogQuery.Proofs.Text.Lowercase
import LogQuery.Syntax.Span

/-!
# Spans and their texts

Behind an amount of time the spellings of the units are tried in an order. The first one that the
text begins with is taken, and what follows it cannot take this choice back. No spelling is hidden
by a shorter one in front of it, and no number by an amount of time (`ofText?_eq_ofTextInOrder?`).
So an amount with any spelling of a unit behind it is this amount (`ofText?_amount`), and the text
of a span is read as the span (`ofText?_display`).
-/

namespace LogQuery

/-! ### Plain characters -/

namespace Text

/-- A letter in lower case, a digit or a point. -/
def isPlain (c : Char) : Bool := c.isLower || c.isDigit || c == '.'

section

variable {c : Char}

lemma isPlain_of_isDigit (h : c.isDigit = true) : isPlain c = true := by
  simp [isPlain, h]

lemma isPlain_of_isLower (h : c.isLower = true) : isPlain c = true := by
  simp [isPlain, h]

lemma bounds_of_isLower (h : c.isLower = true) : 'a'.val ≤ c.val ∧ c.val ≤ 'z'.val :=
  ((Bool.and_eq_true _ _).mp h).imp of_decide_eq_true of_decide_eq_true

lemma isDigit_of_isLower (h : c.isLower = true) : c.isDigit = false := by
  rw [Bool.eq_false_iff]
  intro hdigit
  have hle : c.val ≤ '9'.val := of_decide_eq_true ((Bool.and_eq_true _ _).mp hdigit).2
  have hlt : '9'.val < c.val := Std.lt_of_lt_of_le (by decide) (bounds_of_isLower h).1
  exact absurd hlt (UInt32.not_lt.2 hle)

lemma toLower_of_isLower (h : c.isLower = true) : c.toLower = c := by
  have hlt : 'Z'.val < c.val := Std.lt_of_lt_of_le (by decide) (bounds_of_isLower h).1
  exact dif_neg fun hupper => absurd hlt (UInt32.not_lt.2 hupper.2)

lemma map_toLower_eq_self {cs : List Char} (h : ∀ c ∈ cs, c.toLower = c) :
    cs.map Char.toLower = cs :=
  (List.map_congr_left h).trans (List.map_id' cs)

lemma toNat_lt_of_val_le {n : UInt32} (h : c.val ≤ n) (hn : n.toNat < 128) : c.toNat < 128 :=
  Nat.lt_of_le_of_lt (UInt32.le_iff_toNat_le.1 h) hn

lemma toNat_lt_of_isPlain (h : isPlain c = true) : c.toNat < 128 := by
  rw [isPlain, Bool.or_eq_true, Bool.or_eq_true] at h
  rcases h with (hlower | hdigit) | hpoint
  · exact toNat_lt_of_val_le (bounds_of_isLower hlower).2 (by decide)
  · exact Lexer.toNat_lt_of_isDigit hdigit
  · rw [eq_of_beq hpoint]
    decide

/-- Lowercasing leads into the ASCII range from nowhere else. -/
lemma toNat_lt_of_toLower (h : c.toLower.toNat < 128) : c.toNat < 128 := by
  by_cases hupper : 'A'.val ≤ c.val ∧ c.val ≤ 'Z'.val
  · exact toNat_lt_of_val_le hupper.2 (by decide)
  · have hsame : c.toLower = c := dif_neg hupper
    rwa [hsame] at h

end

/-- Plain characters are no blanks, and each becomes lower case on its own. -/
lemma lowercase_trim {text : String} (h : ∀ c ∈ text.toList, isPlain c.toLower = true) :
    (lowercase (trim text)).toList = text.toList.map Char.toLower := by
  have hascii : ∀ c ∈ text.toList, c.toNat < 128 :=
    fun c hc => toNat_lt_of_toLower (toNat_lt_of_isPlain (h c hc))
  have hblank : ∀ c ∈ text.toList, isBlank c = false := fun c hc =>
    forall_ascii (P := fun c => isPlain c.toLower = true → isBlank c = false) (by decide)
      (hascii c hc) (h c hc)
  rw [trim, trimChars_eq_self hblank, String.ofList_toList, lowercase, String.toList_ofList,
    lowercaseAfter_ascii hascii]

end Text

namespace TimeUnit

variable {unit : TimeUnit} {word : String} {cs rest : List Char}

/-! ### Spellings -/

lemma mem_all (unit : TimeUnit) : unit ∈ all := by
  cases unit <;> decide

/-- Spellings are made of letters in lower case, and the first one does not open an exponent. -/
lemma letters_of_mem_spellings (h : word ∈ unit.spellings) :
    (∃ c more, word.toList = c :: more ∧ c ≠ 'e') ∧ ∀ c ∈ word.toList, c.isLower = true := by
  have hall : ∀ unit ∈ all, ∀ word ∈ unit.spellings,
      word.toList.head?.any (· != 'e') = true ∧ word.toList.all Char.isLower = true := by
    decide
  obtain ⟨hhead, hlower⟩ := hall unit (mem_all unit) word h
  refine ⟨?_, List.all_eq_true.1 hlower⟩
  cases hword : word.toList with
  | nil =>
    rw [hword] at hhead
    cases hhead
  | cons c more =>
    rw [hword, List.head?_cons, Option.any_some, bne_iff_ne] at hhead
    exact ⟨c, more, rfl, hhead⟩

/-- A spelling is found under its own unit: no two units share one. -/
lemma ofSpelling?_of_mem (h : word ∈ unit.spellings) : ofSpelling? word = some unit := by
  have hall : ∀ unit ∈ all, ∀ word ∈ unit.spellings, ofSpelling? word = some unit := by decide
  exact hall unit (mem_all unit) word h

/-- What is found has the word among its spellings. -/
lemma mem_of_ofSpelling? (h : ofSpelling? word = some unit) : word ∈ unit.spellings := by
  simpa using List.find?_some h

/-- The letter a unit is displayed by is one of its spellings. -/
lemma letter_mem_spellings (unit : TimeUnit) : unit.letter ∈ unit.spellings := by
  cases unit <;> decide

/-! ### Choices that are final -/

/-- The spellings of all units in the order in which they are tried. -/
def trials : List (TimeUnit × String) :=
  all.flatMap fun unit => unit.spellings.map fun word => (unit, word)

/-- The unit of the first spelling that begins the text, and what stands behind it. -/
def first? (text : List Char) : Option (TimeUnit × List Char) :=
  (trials.find? fun trial => trial.2.toList.isPrefixOf text).map fun trial =>
    (trial.1, text.drop trial.2.length)

/-- No spelling is hidden by one that is tried before it. -/
lemma first?_of_mem (h : word ∈ unit.spellings) : first? word.toList = some (unit, []) := by
  have hall : ∀ unit ∈ all, ∀ word ∈ unit.spellings, first? word.toList = some (unit, []) := by
    decide
  exact hall unit (mem_all unit) word h

/-- The first choice that fits is a spelling the text begins with. -/
lemma exists_of_first? (h : first? cs = some (unit, rest)) :
    ∃ word ∈ unit.spellings, cs = word.toList ++ rest := by
  obtain ⟨⟨unit', word⟩, hfind, heq⟩ := Option.map_eq_some_iff.1 h
  cases heq
  have hmem := List.mem_of_find?_eq_some hfind
  obtain ⟨unit'', -, hmem⟩ := List.mem_flatMap.1 hmem
  obtain ⟨word', hword, heq⟩ := List.mem_map.1 hmem
  cases heq
  have hprefix := List.find?_some hfind
  obtain ⟨more, rfl⟩ := List.isPrefixOf_iff_prefix.1 hprefix
  refine ⟨word, hword, ?_⟩
  dsimp only
  rw [← String.length_toList, List.drop_left]

/-- The text is a spelling of the unit if and only if the final choice leaves nothing. -/
lemma ofSpelling?_eq_some_iff :
    ofSpelling? (String.ofList cs) = some unit ↔ first? cs = some (unit, []) := by
  constructor
  · intro h
    simpa using first?_of_mem (mem_of_ofSpelling? h)
  · intro h
    obtain ⟨word, hword, rfl⟩ := exists_of_first? h
    rw [List.append_nil, String.ofList_toList]
    exact ofSpelling?_of_mem hword

/-- A spelling is a first choice behind which nothing is left. -/
lemma ofSpelling?_eq_first? (cs : List Char) : ofSpelling? (String.ofList cs) =
    (first? cs).bind fun choice => if choice.2.isEmpty then some choice.1 else none := by
  refine Option.ext fun unit => ?_
  rw [ofSpelling?_eq_some_iff, Option.bind_eq_some_iff]
  constructor
  · exact fun h => ⟨_, h, rfl⟩
  · rintro ⟨⟨unit', rest⟩, hfirst, hrest⟩
    split_ifs at hrest with hempty
    obtain rfl : rest = [] := List.isEmpty_iff.1 hempty
    cases hrest
    exact hfirst

/-- No spelling begins with anything but a letter in lower case. -/
lemma ofSpelling?_eq_none (h : ∀ c ∈ cs.head?, c.isLower = false) :
    ofSpelling? (String.ofList cs) = none := by
  refine Option.eq_none_iff_forall_ne_some.2 fun unit hunit => ?_
  obtain ⟨⟨c, more, hcons, -⟩, hlower⟩ := letters_of_mem_spellings (mem_of_ofSpelling? hunit)
  rw [String.toList_ofList] at hcons hlower
  subst hcons
  exact absurd (hlower c List.mem_cons_self) (Bool.eq_false_iff.1 (h c rfl))

end TimeUnit

/-! ### Amounts of time -/

/-- A numeral has no letters but for an exponent. -/
lemma Numeral.ofText?_letter {ds more : List Char} {c : Char} (hne : ds ≠ [])
    (h : ∀ c ∈ ds, c.isDigit = true) (hc : c.isLower = true) (hexponent : c ≠ 'e') :
    ofText? (ds ++ c :: more) = none := by
  have hdigit := Text.isDigit_of_isLower hc
  have hpoint : c ≠ '.' := fun heq => absurd (heq ▸ hc) (by decide)
  have hupper : c ≠ 'E' := fun heq => absurd (heq ▸ hc) (by decide)
  have hspan : (ds ++ c :: more).span Char.isDigit = (ds, c :: more) :=
    span_append h (by simpa using hdigit)
  rw [ofText?, splitSign_append hne h]
  dsimp only
  rw [hspan]
  simp [hne, exponentOf?, hexponent, hupper, hpoint]

/-- Digits in front of what is none are the amount. -/
lemma timeAmount?_append {ds cs : List Char} (hne : ds ≠ []) (h : ∀ c ∈ ds, c.isDigit = true)
    (hcs : ∀ c ∈ cs.head?, c.isDigit = false) : timeAmount? (ds ++ cs) =
      if twoTo 64 ≤ Numeral.digitsValue ds then none
      else (TimeUnit.ofSpelling? (String.ofList cs)).map fun unit =>
        (Numeral.digitsValue ds, unit) := by
  obtain ⟨htake, hdrop⟩ := Numeral.takeWhile_append h hcs
  rw [timeAmount?, htake, hdrop, List.isEmpty_eq_false_iff.2 hne]
  simp only [Bool.false_or, decide_eq_true_eq]
  split_ifs
  · rfl
  · cases TimeUnit.ofSpelling? (String.ofList cs) <;> rfl

/-- The amount of a span fits in 64 bits. -/
lemma lt_of_timeAmount? {cs : List Char} {amount : Nat} {unit : TimeUnit}
    (h : timeAmount? cs = some (amount, unit)) : amount < twoTo 64 := by
  rw [timeAmount?] at h
  split_ifs at h with hamount
  obtain ⟨unit', -, heq⟩ := Option.bind_eq_some_iff.1 h
  cases heq
  rw [Bool.or_eq_true, not_or, decide_eq_true_eq] at hamount
  exact Nat.not_le.1 hamount.2

/-! ### Numerals -/

namespace IsNumeral

variable {cs : List Char}

/-- A numeral is made of digits and points. -/
lemma isDigit_or (h : IsNumeral cs) {c : Char} (hc : c ∈ cs) : c.isDigit = true ∨ c = '.' := by
  cases h with
  | whole _ h => exact .inl (h c hc)
  | fraction _ h _ h' =>
    rcases List.mem_append.1 hc with hc | hc
    · exact .inl (h c hc)
    · rcases List.mem_cons.1 hc with rfl | hc
      · exact .inr rfl
      · exact .inl (h' c hc)

lemma toLower_eq (h : IsNumeral cs) {c : Char} (hc : c ∈ cs) : c.toLower = c := by
  rcases h.isDigit_or hc with hdigit | rfl
  · exact Binary64.toLower_of_isDigit hdigit
  · rfl

lemma isPlain (h : IsNumeral cs) {c : Char} (hc : c ∈ cs) : Text.isPlain c = true := by
  rcases h.isDigit_or hc with hdigit | rfl
  · exact Text.isPlain_of_isDigit hdigit
  · rfl

/-- No unit stands behind a number. -/
lemma timeAmount? (h : IsNumeral cs) : LogQuery.timeAmount? cs = none := by
  have hempty : TimeUnit.ofSpelling? (String.ofList []) = none :=
    TimeUnit.ofSpelling?_eq_none (by simp)
  cases h with
  | whole hne h =>
    have hamount : LogQuery.timeAmount? (cs ++ []) = _ := timeAmount?_append hne h (by simp)
    rw [List.append_nil, hempty, Option.map_none, ite_self] at hamount
    exact hamount
  | @fraction digits more hne h =>
    have hpoint : TimeUnit.ofSpelling? (String.ofList ('.' :: more)) = none :=
      TimeUnit.ofSpelling?_eq_none (by simp)
    rw [timeAmount?_append hne h (by simp), hpoint, Option.map_none, ite_self]

end IsNumeral

namespace Span

/-! ### Readings -/

/-- The span that a text writes, if the choice between the spellings is final, and so is that of an
amount of time as soon as one is read. -/
def ofTextInOrder? (text : String) : Option Span :=
  let chars := (Text.lowercase (Text.trim text)).toList
  let digits := chars.takeWhile Char.isDigit
  let amount := Numeral.digitsValue digits
  let choice :=
    if digits.isEmpty || twoTo 64 ≤ amount then none
    else TimeUnit.first? (chars.dropWhile Char.isDigit)
  match choice with
  | some (unit, rest) => if rest.isEmpty && amount != 0 then some (.time amount unit) else none
  | none => do
    let width := (← Numeral.ofText? chars).nearest
    if width.isPositive && width.isFinite then some (.numeric width) else none

/-- Choices that are final hide neither a spelling nor a number. -/
theorem ofText?_eq_ofTextInOrder? (text : String) : ofText? text = ofTextInOrder? text := by
  rw [ofText?, ofTextInOrder?]
  dsimp only
  generalize (Text.lowercase (Text.trim text)).toList = chars
  have hchars : chars.takeWhile Char.isDigit ++ chars.dropWhile Char.isDigit = chars :=
    List.takeWhile_append_dropWhile
  have hdigits : ∀ c ∈ chars.takeWhile Char.isDigit, c.isDigit = true :=
    fun c hc => List.mem_takeWhile_imp hc
  rw [timeAmount?, TimeUnit.ofSpelling?_eq_first?]
  generalize chars.takeWhile Char.isDigit = ds at *
  generalize chars.dropWhile Char.isDigit = cs at *
  split_ifs with hamount
  · rfl
  · rcases hfirst : TimeUnit.first? cs with _ | ⟨unit, _ | ⟨c, more⟩⟩
    · rfl
    · by_cases hzero : Numeral.digitsValue ds = 0 <;> simp [hzero]
    · obtain ⟨word, hword, rfl⟩ := TimeUnit.exists_of_first? hfirst
      obtain ⟨⟨c', more', hcons, hexponent⟩, hlower⟩ := TimeUnit.letters_of_mem_spellings hword
      rw [hcons] at hchars hlower
      have hnumeral : Numeral.ofText? chars = none := by
        rw [← hchars]
        refine Numeral.ofText?_letter ?_ hdigits (hlower c' List.mem_cons_self) hexponent
        rintro rfl
        exact hamount rfl
      rw [hnumeral]
      rfl

/-! ### Spellings of amounts -/

/-- An amount with a spelling of a unit behind it, in any case of letters, is this amount. -/
theorem ofText?_amount {n : Nat} {unit : TimeUnit} {spelling word : String} (hn : 0 < n)
    (hlt : n < twoTo 64) (hspelling : spelling ∈ unit.spellings)
    (hword : Text.equalIgnoringCase word spelling = true) :
    ofText? (toString n ++ word) = some (.time n unit) := by
  obtain ⟨-, hlower⟩ := TimeUnit.letters_of_mem_spellings hspelling
  have hsame : word.toList.map Char.toLower = spelling.toList :=
    (eq_of_beq hword).trans
      (Text.map_toLower_eq_self fun c hc => Text.toLower_of_isLower (hlower c hc))
  have hdigit : ∀ c ∈ (toString n).toList, c.isDigit = true :=
    fun c hc => Binary64.isDigit_of_mem_toString hc
  have hdigits : (toString n).toList.map Char.toLower = (toString n).toList :=
    Text.map_toLower_eq_self fun c hc => Binary64.toLower_of_isDigit (hdigit c hc)
  have hchars : (Text.lowercase (Text.trim (toString n ++ word))).toList =
      (toString n).toList ++ spelling.toList := by
    rw [Text.lowercase_trim, String.toList_append, List.map_append, hdigits, hsame]
    intro c hc
    rw [String.toList_append, List.mem_append] at hc
    rcases hc with hc | hc
    · rw [Binary64.toLower_of_isDigit (hdigit c hc)]
      exact Text.isPlain_of_isDigit (hdigit c hc)
    · exact Text.isPlain_of_isLower (hlower _ (hsame ▸ List.mem_map_of_mem hc))
  have hnext : ∀ c ∈ spelling.toList.head?, c.isDigit = false :=
    fun c hc => Text.isDigit_of_isLower (hlower c (List.mem_of_mem_head? hc))
  rw [ofText?, hchars]
  dsimp only
  rw [timeAmount?_append (Binary64.toString_toList_ne_nil n) hdigit hnext,
    Numeral.digitsValue_toString, if_neg (Nat.not_le.2 hlt), String.ofList_toList,
    TimeUnit.ofSpelling?_of_mem hspelling]
  exact if_neg (Nat.ne_of_gt hn)

/-- A positive number is read as the width that it was written for. -/
theorem ofText?_plain {x : Binary64} (hpositive : x.isPositive = true)
    (hfinite : x.isFinite = true) : ofText? x.plain = some (.numeric x) := by
  obtain ⟨negative, _ | k⟩ := x
  · simp [Binary64.isPositive] at hpositive
  · have hk : k + 1 < Binary64.infiniteMagnitude := of_decide_eq_true hfinite
    obtain rfl : negative = false := by
      rw [Binary64.isPositive, Bool.and_eq_true, Bool.and_eq_true] at hpositive
      simpa using hpositive.1.1
    have hplain : Binary64.plain ⟨false, k + 1⟩ = Binary64.positional _ :=
      (Binary64.plain_succ hk false).trans String.empty_append
    have hnumeral := Binary64.isNumeral_positional (Binary64.shortest ⟨false, k + 1⟩ .up)
    obtain ⟨n, hread, hsign, hnearest⟩ := Binary64.exists_numeral_shortest hk .up
    rw [← hplain] at hnumeral hread
    have hchars : (Text.lowercase (Text.trim (Binary64.plain ⟨false, k + 1⟩))).toList =
        (Binary64.plain ⟨false, k + 1⟩).toList := by
      rw [Text.lowercase_trim fun c hc => (hnumeral.toLower_eq hc).symm ▸ hnumeral.isPlain hc]
      exact Text.map_toLower_eq_self fun c hc => hnumeral.toLower_eq hc
    have hwidth : n.nearest = ⟨false, k + 1⟩ := by rw [← hnearest false, ← hsign]
    rw [ofText?, hchars]
    dsimp only
    rw [hnumeral.timeAmount?, hread]
    dsimp only
    rw [Option.bind_eq_bind, Option.bind_some, hwidth, hpositive, hfinite]
    rfl

/-- The text of a span that was read from a text is read as this span again. -/
theorem ofText?_display {text : String} {span : Span} (h : ofText? text = some span) :
    ofText? span.display = some span := by
  rw [ofText?] at h
  dsimp only at h
  split at h
  · next amount unit hamount =>
    split_ifs at h with hzero
    cases h
    exact ofText?_amount (Nat.pos_of_ne_zero hzero) (lt_of_timeAmount? hamount)
      unit.letter_mem_spellings (beq_self_eq_true _)
  · obtain ⟨n, -, h⟩ := Option.bind_eq_some_iff.1 h
    split_ifs at h with hwidth
    cases h
    rw [Bool.and_eq_true] at hwidth
    exact ofText?_plain hwidth.1 hwidth.2

end Span

end LogQuery
