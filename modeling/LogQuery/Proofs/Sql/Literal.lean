import LogQuery.Number.Text
import LogQuery.Proofs.Sql.Scan

namespace LogQuery.Sql

/-- The characters that mean something to a scan outside of quotes. -/
def signs : List Char := ['(', ')', ';', '-', '/', '*']

/-- The characters that open quotes in some dialect. -/
def quoteChars : List Char := ['\'', '"', '`']

/-- A character that a scan passes over outside of quotes. -/
def isCalm (c : Char) : Bool := !signs.contains c

/-- A calm character that opens no quotes. -/
def isBare (c : Char) : Bool := !(signs ++ quoteChars).contains c

/-- A text without any character that a scan looks for. -/
def Bare (s : String) : Prop := ∀ c ∈ s.toList, isBare c = true

instance (s : String) : Decidable (Bare s) :=
  decidable_of_iff (s.toList.all isBare = true) List.all_eq_true

/-- A bare character that is no blank. -/
def isSolid (c : Char) : Bool := isBare c && c != ' '

/-- A bare text without blanks, which a reader takes for one word. -/
def Solid (s : String) : Prop := ∀ c ∈ s.toList, isSolid c = true

instance (s : String) : Decidable (Solid s) :=
  decidable_of_iff (s.toList.all isSolid = true) List.all_eq_true

variable {d : Dialect} {i : Nat} {s t : String}

/-- To see that all characters of a class are bare, look at those that are not. -/
lemma isBare_of_class {p : Char → Bool} (hp : (signs ++ quoteChars).any p = false) {c : Char}
    (hc : p c = true) : isBare c = true := by
  rw [isBare]
  rw [Bool.not_eq_true', List.contains_eq_mem, decide_eq_false_iff_not]
  intro hmem
  exact List.any_eq_false.1 hp c hmem hc

lemma isSolid_of_class {p : Char → Bool} (hp : (' ' :: (signs ++ quoteChars)).any p = false)
    {c : Char} (hc : p c = true) : isSolid c = true := by
  rw [List.any_cons, Bool.or_eq_false_iff] at hp
  rw [isSolid, Bool.and_eq_true, bne_iff_ne]
  refine ⟨isBare_of_class hp.2 hc, ?_⟩
  rintro rfl
  rw [hp.1] at hc
  cases hc

lemma isCalm_of_isBare {c : Char} (h : isBare c = true) : isCalm c = true := by
  rw [isBare] at h
  rw [isCalm]
  rw [Bool.not_eq_true', List.contains_eq_mem, decide_eq_false_iff_not] at h ⊢
  exact fun hmem => h (List.mem_append_left _ hmem)

/-! ### Calm texts -/

/-- Characters that open and close nothing leave the depth. -/
lemma depthAfter_of_calm {n : Nat} {cs : List Char} (h : ∀ c ∈ cs, isCalm c = true) :
    depthAfter n cs = some n := by
  induction cs with
  | nil => rfl
  | cons c cs ih =>
    have hc : c ≠ '(' ∧ c ≠ ')' := by
      have := h c (by simp)
      constructor <;> rintro rfl <;> contradiction
    simp only [depthAfter, hc.1, hc.2, if_false]
    exact ih fun c hc => h c (by simp [hc])

lemma isChain_of_calm {cs : List Char} (h : ∀ c ∈ cs, isCalm c = true) :
    cs.IsChain MayFollow := by
  refine List.isChain_iff_forall_rel_of_append_cons_cons.2 fun c c' front back heq => ?_
  have hc := h c (by simp [heq])
  constructor <;> rintro ⟨rfl, -⟩ <;> contradiction

/-- A text is a piece if it begins and ends outside of quotes and what stands outside of them is
calm. -/
lemma Piece.of_calm (hsettled : (QuoteState.after d .outside s.toList).settle = .outside)
    (hcalm : ∀ c ∈ outsideText d .outside s.toList, isCalm c = true) : Piece d i i s where
  settled := hsettled
  depth := depthAfter_of_calm hcalm
  chain := isChain_of_calm hcalm
  no_semicolon h := absurd (hcalm _ h) (by decide)
  ending c hc := by
    have := hcalm c (List.mem_of_getLast? hc)
    constructor <;> rintro rfl <;> contradiction

/-! ### Bare texts -/

/-- A bare character opens no quote. -/
lemma start_of_bare {c : Char} (h : isBare c = true) : QuoteState.start d c = .outside := by
  have hc : c ≠ '\'' ∧ c ≠ '"' ∧ c ≠ '`' := by
    refine ⟨?_, ?_, ?_⟩ <;> rintro rfl <;> contradiction
  cases d <;> simp [QuoteState.start, Quote.char, nameQuote, hc]

/-- Bare text is outside of quotes as a whole. -/
lemma scan_of_bare {cs : List Char} (h : ∀ c ∈ cs, isBare c = true) :
    QuoteState.after d .outside cs = .outside ∧ outsideText d .outside cs = cs := by
  induction cs with
  | nil => exact ⟨rfl, rfl⟩
  | cons c cs ih =>
    have hc : QuoteState.next d .outside c = .outside := start_of_bare (h c (by simp))
    obtain ⟨hafter, htext⟩ := ih fun c hc => h c (by simp [hc])
    constructor
    · simpa only [QuoteState.after, List.foldl_cons, hc] using hafter
    · simp only [outsideText, hc, QuoteState.isOutside, if_true, htext]

/-- Bare text may stand at any depth and leaves it. -/
lemma Bare.piece (h : Bare s) : Piece d i i s := by
  obtain ⟨hafter, htext⟩ := scan_of_bare (d := d) h
  refine .of_calm (by rw [hafter]; rfl) fun c hc => ?_
  rw [htext] at hc
  exact isCalm_of_isBare (h c hc)

lemma bare_ofList {cs : List Char} (h : ∀ c ∈ cs, isBare c = true) : Bare (String.ofList cs) := by
  intro c hc
  rw [String.toList_ofList] at hc
  exact h c hc

namespace Solid

lemma bare (h : Solid s) : Bare s := fun c hc => (Bool.and_eq_true_iff.1 (h c hc)).1

lemma blank_not_mem (h : Solid s) : ' ' ∉ s.toList := fun hmem => absurd (h _ hmem) (by decide)

lemma append (hs : Solid s) (ht : Solid t) : Solid (s ++ t) := by
  intro c hc
  rw [String.toList_append, List.mem_append] at hc
  exact hc.elim (hs c) (ht c)

lemma ofList {cs : List Char} (h : ∀ c ∈ cs, isSolid c = true) : Solid (String.ofList cs) := by
  intro c hc
  rw [String.toList_ofList] at hc
  exact h c hc

end Solid

/-! ### Quoted texts -/

/-- A scan that is inside of quotes is so again behind the text, and meets only their own
character outside of them, where it is doubled. -/
def Hidden (d : Dialect) (q : Quote) (cs : List Char) : Prop :=
  QuoteState.after d (.inside q) cs = .inside q ∧
    ∀ c ∈ outsideText d (.inside q) cs, c = q.char d

/-- Two texts that stay inside a quote stay inside one behind the other. -/
lemma Hidden.append {q : Quote} {cs cs' : List Char} (h : Hidden d q cs) (h' : Hidden d q cs') :
    Hidden d q (cs ++ cs') := by
  constructor
  · rw [QuoteState.after_append, h.1, h'.1]
  · rw [outsideText_append, h.1]
    intro c hc
    exact (List.mem_append.1 hc).elim (h.2 c) (h'.2 c)

/-- If every character is escaped to hidden text, all of them are. -/
lemma Hidden.flatMap {q : Quote} {f : Char → List Char} (h : ∀ c, Hidden d q (f c))
    (cs : List Char) : Hidden d q (cs.flatMap f) := by
  induction cs with
  | nil => exact ⟨rfl, by simp [outsideText]⟩
  | cons c cs ih =>
    rw [List.flatMap_cons]
    exact (h c).append ih

/-- A doubled quote stays inside the quote. -/
lemma hidden_doubled (d : Dialect) (q : Quote) : Hidden d q [q.char d, q.char d] := by
  have houtside : outsideText d (.inside q) [q.char d, q.char d] = [q.char d] := by
    cases d <;> cases q <;> rfl
  refine ⟨by cases d <;> cases q <;> rfl, fun c hc => ?_⟩
  rw [houtside] at hc
  exact List.mem_singleton.1 hc

/-- Behind a backslash any character stays inside the quote. -/
lemma hidden_escaped (q : Quote) (c : Char) : Hidden .clickHouse q ['\\', c] := by
  have hafter : QuoteState.after .clickHouse (.inside q) ['\\', c] = .inside q := by
    cases q <;> rfl
  have htext : outsideText .clickHouse (.inside q) ['\\', c] = [] := by cases q <;> rfl
  exact ⟨hafter, by simp [htext]⟩

/-- Any other character stays inside the quote. -/
lemma hidden_single {q : Quote} {c : Char} (hc : c ≠ q.char d)
    (hback : ¬ (c = '\\' ∧ d = .clickHouse)) : Hidden d q [c] := by
  have hnext : QuoteState.next d (.inside q) c = .inside q := by
    simp only [QuoteState.next, hc, hback, if_false]
  constructor
  · simp [QuoteState.after, hnext]
  · simp [outsideText, hnext, QuoteState.isOutside]

/-- Whatever the character is, its escape stays inside a text. -/
lemma hidden_escapeInText (d : Dialect) (c : Char) : Hidden d .text (escapeInText d c) := by
  rw [escapeInText]
  split_ifs with hquote hback
  · exact hidden_doubled d .text
  · obtain ⟨rfl, rfl⟩ := hback
    exact hidden_escaped .text '\\'
  · exact hidden_single hquote hback

/-- Whatever the character is, its escape stays inside a name. -/
lemma hidden_escapeInName (d : Dialect) (c : Char) : Hidden d .name (escapeInName d c) := by
  cases d with
  | clickHouse =>
    simp only [escapeInName]
    split_ifs with h
    · exact hidden_escaped .name c
    · rw [not_or] at h
      exact hidden_single h.1 fun hback => h.2 hback.1
  | sqlite =>
    simp only [escapeInName]
    split_ifs with h
    · subst h
      exact hidden_doubled .sqlite .name
    · exact hidden_single h (by simp)

lemma isCalm_char (d : Dialect) (q : Quote) : isCalm (q.char d) = true := by
  cases d <;> cases q <;> rfl

/-- Of what is hidden between two quotes, a scan meets only quotes. -/
lemma Hidden.scan {q : Quote} {cs : List Char} (h : Hidden d q cs) :
    (QuoteState.after d .outside (q.char d :: cs ++ [q.char d])).settle = .outside ∧
      ∀ c ∈ outsideText d .outside (q.char d :: cs ++ [q.char d]), c = q.char d := by
  have hopen : QuoteState.next d .outside (q.char d) = .inside q := QuoteState.start_char d q
  have hclose : QuoteState.next d (.inside q) (q.char d) = .closing q := by
    simp [QuoteState.next]
  constructor
  · rw [List.cons_append, QuoteState.after, List.foldl_cons, hopen]
    change (QuoteState.after d (.inside q) (cs ++ [q.char d])).settle = _
    rw [QuoteState.after_append, h.1, QuoteState.after, List.foldl_cons, hclose]
    rfl
  · intro c hc
    rw [List.cons_append, outsideText, hopen] at hc
    simp only [QuoteState.isOutside, Bool.false_eq_true, if_false] at hc
    rw [outsideText_append, h.1, List.mem_append] at hc
    rcases hc with hc | hc
    · exact h.2 c hc
    · simpa only [outsideText, hclose, QuoteState.isOutside, if_true, List.mem_singleton] using hc

/-- What is hidden between two quotes is a piece together with them. -/
lemma Hidden.piece {q : Quote} {cs : List Char} (h : Hidden d q cs) :
    Piece d i i (String.ofList (q.char d :: cs ++ [q.char d])) := by
  obtain ⟨hsettled, hquotes⟩ := h.scan
  refine .of_calm (by rwa [String.toList_ofList]) fun c hc => ?_
  rw [String.toList_ofList] at hc
  rw [hquotes c hc]
  exact isCalm_char d q

lemma hidden_quoteText (d : Dialect) (s : String) :
    Hidden d .text (s.toList.flatMap (escapeInText d)) := .flatMap (hidden_escapeInText d) _

lemma hidden_quoteName (d : Dialect) (s : String) :
    Hidden d .name (s.toList.flatMap (escapeInName d)) := .flatMap (hidden_escapeInName d) _

lemma piece_quoteText (d : Dialect) (s : String) : Piece d i i (quoteText d s) :=
  (hidden_quoteText d s).piece

lemma piece_quoteName (d : Dialect) (s : String) : Piece d i i (quoteName d s) :=
  (hidden_quoteName d s).piece

/-! ### Names -/

lemma isSolid_of_isPlainChar {c : Char} (h : isPlainChar c = true) : isSolid c = true :=
  isSolid_of_class (by decide) h

lemma solid_of_isPlainName (h : isPlainName s = true) : Solid s := by
  rw [isPlainName] at h
  split at h
  · cases h
  · next c rest heq =>
    rw [Bool.and_eq_true] at h
    have hfirst : isPlainChar c = true := by
      have := h.1
      simp only [Bool.or_eq_true, decide_eq_true_eq] at this
      simp only [isPlainChar, Char.isAlphanum, Bool.or_eq_true, decide_eq_true_eq]
      tauto
    intro x hx
    rw [heq, List.mem_cons] at hx
    rcases hx with rfl | hx
    · exact isSolid_of_isPlainChar hfirst
    · exact isSolid_of_isPlainChar (List.all_eq_true.1 h.2 x hx)

lemma bare_of_isPlainName (h : isPlainName s = true) : Bare s := (solid_of_isPlainName h).bare

lemma piece_identifier (d : Dialect) (name : String) : Piece d i i (identifier d name) := by
  rw [identifier]
  split_ifs with h
  · exact (bare_of_isPlainName h).piece
  · exact piece_quoteName d name

/-! ### Numbers -/

lemma solid_toString (n : Nat) : Solid (toString n) := by
  intro c hc
  rw [Nat.toString_eq_repr, Nat.toList_repr] at hc
  have hdigit := Nat.isDigit_of_mem_toDigits (by decide) (by decide) hc
  exact isSolid_of_class (by decide) hdigit

lemma piece_toString (n : Nat) : Piece d i i (toString n) := (solid_toString n).bare.piece

lemma solid_zeros (n : Nat) : Solid (Binary64.zeros n) :=
  .ofList fun c hc => by rw [List.eq_of_mem_replicate hc]; rfl

lemma solid_pointAfter (h : Solid s) (n : Nat) : Solid (Binary64.pointAfter s n) := by
  refine .append (.append (.ofList fun c hc => ?_) (by decide)) (.ofList fun c hc => ?_)
  · exact h c (List.mem_of_mem_take hc)
  · exact h c (List.mem_of_mem_drop hc)

/-- A number is printed with digits, a point and a sign. -/
lemma solid_positional (x : Decimal) : Solid (Binary64.positional x) := by
  unfold Binary64.positional
  dsimp only
  split_ifs
  · exact (solid_toString _).append (solid_zeros _)
  · exact solid_pointAfter (solid_toString _) _
  · exact .append (.append (by decide) (solid_zeros _)) (solid_toString _)

lemma positional_ne_empty (x : Decimal) : (Binary64.positional x).toList ≠ [] := by
  unfold Binary64.positional
  dsimp only
  split_ifs
  · rw [String.toList_append, Nat.toString_eq_repr, Nat.toList_repr]
    simp
  · simp [Binary64.pointAfter]
  · simp

/-- A sign in front of a bare text opens no comment, as the text does not begin with a sign. -/
lemma piece_minus (h : Bare s) (hne : s.toList ≠ []) : Piece d i i ("-" ++ s) := by
  obtain ⟨c, cs, hcs⟩ := List.exists_cons_of_ne_nil hne
  have hminus : QuoteState.next d .outside '-' = .outside := by cases d <;> rfl
  obtain ⟨hafter, htext⟩ := scan_of_bare (d := d) h
  have hcalm : ∀ x ∈ s.toList, isCalm x = true := fun x hx => isCalm_of_isBare (h x hx)
  have hall : outsideText d .outside ("-" ++ s).toList = '-' :: s.toList := by
    have : ("-" ++ s).toList = '-' :: s.toList := by rw [String.toList_append]; rfl
    rw [this, outsideText, hminus, htext]
    rfl
  constructor
  · rw [String.toList_append, QuoteState.after_append,
      show QuoteState.after d .outside "-".toList = .outside from hminus, hafter]
    rfl
  · rw [hall]
    have hdepth : depthAfter i s.toList = some i := depthAfter_of_calm hcalm
    exact hdepth
  · rw [hall, hcs, List.isChain_cons_cons]
    refine ⟨⟨?_, by simp⟩, hcs ▸ isChain_of_calm hcalm⟩
    rintro ⟨-, rfl⟩
    exact absurd (hcalm '-' (by simp [hcs])) (by decide)
  · rw [hall, List.mem_cons, not_or]
    exact ⟨by decide, fun hmem => absurd (hcalm _ hmem) (by decide)⟩
  · rw [hall, hcs, List.getLast?_cons_cons, ← hcs]
    have := (h.piece (d := d) (i := 0)).ending
    rwa [htext] at this

/-- The text of a number is a solid one, with a sign in front if the number is negative. -/
lemma plain_eq (x : Binary64) :
    ∃ body, Solid body ∧ body.toList ≠ [] ∧ (x.plain = body ∨ x.plain = "-" ++ body) := by
  rw [Binary64.plain]
  split_ifs
  · exact ⟨"NaN", by decide, by decide, .inl rfl⟩
  · exact ⟨"inf", by decide, by decide, .inr rfl⟩
  · exact ⟨"0", by decide, by decide, .inr rfl⟩
  · exact ⟨_, solid_positional _, positional_ne_empty _, .inr rfl⟩
  · exact ⟨"inf", by decide, by decide, .inl rfl⟩
  · exact ⟨"0", by decide, by decide, .inl rfl⟩
  · exact ⟨_, solid_positional _, positional_ne_empty _, .inl String.empty_append⟩

lemma piece_plain (x : Binary64) : Piece d i i x.plain := by
  obtain ⟨body, hbody, hne, heq | heq⟩ := plain_eq x
  · rw [heq]
    exact hbody.bare.piece
  · rw [heq]
    exact piece_minus hbody.bare hne

lemma blank_not_mem_plain (x : Binary64) : ' ' ∉ x.plain.toList := by
  obtain ⟨body, hbody, -, heq | heq⟩ := plain_eq x
  · rw [heq]
    exact hbody.blank_not_mem
  · rw [heq, String.toList_append, List.mem_append, not_or]
    exact ⟨by decide, hbody.blank_not_mem⟩

end LogQuery.Sql
