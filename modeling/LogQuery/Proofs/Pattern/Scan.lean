import LogQuery.Proofs.Pattern.Groups

namespace LogQuery.Pattern

variable {state state' : ScanState} {index : Nat} {text rest : List Char} {c : Char}

/-! ### One character -/

/-- The scan leaves out the character behind a backslash. -/
lemma scanFrom_escaped (state : ScanState) (index : Nat) (c : Char) (rest : List Char) :
    scanFrom state index ('\\' :: c :: rest) = scanFrom state.behindItem (index + 2) rest := by
  rw [scanFrom]

/-- A character that opens no group and escapes none is passed. -/
lemma scanFrom_cons (hopens : ¬ (state = .outside ∧ c = '(')) (hescapes : c = '\\' → rest = []) :
    scanFrom state index (c :: rest) = scanFrom (state.next c) (index + 1) rest := by
  rw [scanFrom]
  · exact if_neg hopens
  · rintro _ _ rfl rfl
    exact absurd (hescapes rfl) (List.cons_ne_nil _ _)

/-- Outside of classes the scan finds an opening at a parenthesis. -/
lemma scanFrom_parenthesis (index : Nat) (rest : List Char) :
    scanFrom .outside index ('(' :: rest) =
      openingAt index rest :: scanFrom .outside (index + 1) rest := by
  rw [scanFrom]
  · rfl
  · rintro _ _ ⟨⟩

/-! ### Parts in which no group opens -/

/-- The state behind a text, if no group opens in the text and it ends with no half of an escape. -/
def ScanState.after (state : ScanState) : List Char → Option ScanState
  | [] => some state
  | ['\\'] => none
  | '\\' :: _ :: rest => state.behindItem.after rest
  | c :: rest => if state = .outside ∧ c = '(' then none else (state.next c).after rest

/-- A character that opens no group and escapes nothing leads to the next state. -/
lemma ScanState.after_cons (hback : c ≠ '\\') (hopens : ¬ (state = .outside ∧ c = '(')) :
    state.after (c :: text) = (state.next c).after text := by
  rw [ScanState.after, if_neg hopens]
  · exact fun hc _ => hback hc
  · exact fun _ _ hc _ => hback hc

/-- A character does not escape if it is neither the last one nor in front of another. -/
lemma ne_backslash (hlone : c = '\\' → text ≠ [])
    (hescape : ∀ c' more, c = '\\' → text ≠ c' :: more) : c ≠ '\\' := by
  intro hc
  cases text with
  | nil => exact hlone hc rfl
  | cons c' more => exact hescape c' more hc rfl

/-- The induction is on the text, along the steps of the scan. -/
lemma scanFrom_append (h : state.after text = some state') (index : Nat) (rest : List Char) :
    scanFrom state index (text ++ rest) = scanFrom state' (index + text.length) rest := by
  fun_induction ScanState.after state text generalizing index with
  | case1 state =>
    cases h
    rfl
  | case2 => cases h
  | case3 state c text ih =>
    rw [List.cons_append, List.cons_append, scanFrom_escaped, ih h, List.length_cons,
      List.length_cons]
    congr 1
    omega
  | case4 => cases h
  | case5 state c text hlone hescape hopens ih =>
    have hback := ne_backslash hlone hescape
    rw [List.cons_append, scanFrom_cons hopens fun hc => absurd hc hback, ih h, List.length_cons]
    congr 1
    omega

/-- The scan passes one part, then the next. -/
lemma after_append (h : state.after text = some state') (more : List Char) :
    state.after (text ++ more) = state'.after more := by
  fun_induction ScanState.after state text with
  | case1 =>
    cases h
    rfl
  | case2 => cases h
  | case3 state c text ih =>
    rw [List.cons_append, List.cons_append, ScanState.after]
    exact ih h
  | case4 => cases h
  | case5 state c text hlone hescape hopens ih =>
    rw [List.cons_append, ScanState.after_cons (ne_backslash hlone hescape) hopens]
    exact ih h

/-! ### Silent characters -/

/-- A character that means something to the scan outside of classes. -/
def isScanMark (c : Char) : Bool := c = '\\' || c = '[' || c = '('

/-- Outside of classes only marks mean something to the scan. -/
lemma after_cons_of_not_isScanMark (h : isScanMark c = false) (text : List Char) :
    ScanState.after .outside (c :: text) = ScanState.after .outside text := by
  simp only [isScanMark, Bool.or_eq_false_iff, decide_eq_false_iff_not] at h
  obtain ⟨⟨hback, hbracket⟩, hopens⟩ := h
  rw [ScanState.after_cons hback fun hc => hopens hc.2, ScanState.next, if_neg hbracket]

/-- Outside of classes the scan passes a text without marks. -/
lemma after_of_forall_not_isScanMark (h : ∀ c ∈ text, isScanMark c = false) :
    ScanState.after .outside text = some .outside := by
  induction text with
  | nil => rw [ScanState.after]
  | cons c text ih =>
    rw [after_cons_of_not_isScanMark (h c (by simp)), ih fun c' hc' => h c' (by simp [hc'])]

/-- A character that means nothing to the scan, inside of classes and outside. -/
def isSilent (c : Char) : Bool := !isScanMark c && c != ']'

lemma isScanMark_of_isSilent (h : isSilent c = true) : isScanMark c = false := by
  rw [isSilent, Bool.and_eq_true, Bool.not_eq_true'] at h
  exact h.1

/-- All but four characters are silent. -/
lemma isSilent_or (c : Char) :
    isSilent c = true ∨ c = '\\' ∨ c = '[' ∨ c = ']' ∨ c = '(' := by
  simp only [isSilent, isScanMark, Bool.and_eq_true, Bool.not_eq_true', Bool.or_eq_false_iff,
    decide_eq_false_iff_not, bne_iff_ne]
  tauto

/-- Silent characters leave the scan in its state. -/
lemma after_of_forall_isSilent (hstate : state = .outside ∨ state = .inside)
    (h : ∀ c ∈ text, isSilent c = true) : state.after text = some state := by
  rcases hstate with rfl | rfl
  · exact after_of_forall_not_isScanMark fun c hc => isScanMark_of_isSilent (h c hc)
  · induction text with
    | nil => rw [ScanState.after]
    | cons c text ih =>
      have hc := h c (by simp)
      have hback : c ≠ '\\' := by
        rintro rfl
        exact absurd hc (by decide)
      have hclose : c ≠ ']' := by
        rintro rfl
        exact absurd hc (by decide)
      rw [ScanState.after_cons hback (by simp), ScanState.next, if_neg hclose]
      exact ih fun c' hc' => h c' (by simp [hc'])

/-! ### Openings -/

/-- What a header with a name begins with. -/
def IsNameSign (sign : List Char) : Prop := sign = ['?', 'P', '<'] ∨ sign = ['?', '<']

lemma IsNameSign.isScanMark {sign : List Char} (h : IsNameSign sign) :
    ∀ c ∈ sign, isScanMark c = false := by
  rcases h with rfl | rfl <;> simp [LogQuery.Pattern.isScanMark]

lemma headerName?_eq_some {after : List Char} {length : Nat}
    (h : headerName? rest = some (length, after)) :
    ∃ sign, IsNameSign sign ∧ sign.length = length ∧ rest = sign ++ after := by
  rw [headerName?.eq_def] at h
  split at h <;> cases h
  · exact ⟨_, .inl rfl, rfl, rfl⟩
  · exact ⟨_, .inr rfl, rfl, rfl⟩

/-- An angle bracket begins a name, unless it begins a look behind. -/
lemma headerName?_angle (after : List Char) :
    headerName? ('?' :: '<' :: after) =
      if after.head? = some '=' ∨ after.head? = some '!' then none else some (2, after) := by
  cases after with
  | nil => rfl
  | cons c after =>
    by_cases hequals : c = '='
    · subst hequals
      rfl
    · by_cases hmark : c = '!'
      · subst hmark
        rfl
      · simp [headerName?, hequals, hmark]

/-- Whether a header has a name is seen from its sign and the character behind it. -/
lemma headerName?_congr {sign after after' : List Char} {length : Nat} (hsign : IsNameSign sign)
    (hhead : after.head? = after'.head?) (h : headerName? (sign ++ after) = some (length, after)) :
    headerName? (sign ++ after') = some (length, after') := by
  rcases hsign with rfl | rfl
  · cases h
    rfl
  · change headerName? ('?' :: '<' :: after) = _ at h
    change headerName? ('?' :: '<' :: after') = _
    rw [headerName?_angle] at h ⊢
    rw [← hhead]
    split_ifs at h ⊢
    cases h
    rfl

/-- A header names a group by the characters up to the first closing angle bracket. -/
lemma openingAt_of_headerName? {length : Nat} {name body : List Char}
    (h : headerName? rest = some (length, name ++ '>' :: body)) (hname : '>' ∉ name)
    (index : Nat) :
    openingAt index rest = ⟨index, length + name.length + 1, .named (String.ofList name)⟩ := by
  have hpass : ∀ c ∈ name, (c != '>') = true := by
    intro c hc
    simpa using fun h : c = '>' => hname (h ▸ hc)
  have htake : (name ++ '>' :: body).takeWhile (· != '>') = name := by
    rw [List.takeWhile_append_of_pos hpass]
    simp
  rw [openingAt, h]
  dsimp only
  rw [if_pos (by simp), htake]

/-- The text behind a parenthesis that opens a named group is the header of the group, with a sign
and a closing angle bracket around the name, and what follows it. -/
lemma openingAt_named {name : String} (h : (openingAt index rest).kind = .named name) :
    ∃ sign body, IsNameSign sign ∧ rest = sign ++ (name.toList ++ '>' :: body) ∧
      headerName? rest = some (sign.length, name.toList ++ '>' :: body) ∧
      openingAt index rest = ⟨index, sign.length + name.length + 1, .named name⟩ := by
  cases hheader : headerName? rest with
  | none =>
    rw [openingAt, hheader] at h
    dsimp only at h
    split_ifs at h
  | some header =>
    obtain ⟨length, after⟩ := header
    by_cases hclosed : '>' ∈ after
    · obtain ⟨found, body, rfl, hfound⟩ := List.eq_append_cons_of_mem hclosed
      have hopening := openingAt_of_headerName? hheader hfound index
      rw [hopening] at h
      cases h
      obtain ⟨sign, hsign, rfl, rfl⟩ := headerName?_eq_some hheader
      refine ⟨sign, body, hsign, by rw [String.toList_ofList], by rw [String.toList_ofList], ?_⟩
      rw [hopening, String.length_ofList]
    · rw [openingAt, hheader] at h
      dsimp only at h
      rw [if_neg (by simpa using hclosed)] at h
      split_ifs at h

/-- An opening has a name, or it has no header; then a question mark behind it shows that it does
not capture. -/
lemma openingAt_cases (index : Nat) (rest : List Char) :
    (∃ name, (openingAt index rest).kind = .named name) ∨
      (rest.head? = some '?' ∧ openingAt index rest = ⟨index, 0, .nonCapturing⟩) ∨
      (rest.head? ≠ some '?' ∧ openingAt index rest = ⟨index, 0, .plain⟩) := by
  have hunnamed : ∀ kind,
      kind = (if rest.head? = some '?' then GroupKind.nonCapturing else .plain) →
      (rest.head? = some '?' ∧ GroupOpening.mk index 0 kind = ⟨index, 0, .nonCapturing⟩) ∨
        (rest.head? ≠ some '?' ∧ GroupOpening.mk index 0 kind = ⟨index, 0, .plain⟩) := by
    rintro _ rfl
    split_ifs with hmark
    · exact .inl ⟨hmark, rfl⟩
    · exact .inr ⟨hmark, rfl⟩
  rw [openingAt]
  dsimp only
  split
  · exact .inr (hunnamed _ rfl)
  · split
    · exact .inl ⟨_, rfl⟩
    · exact .inr (hunnamed _ rfl)

/-- A parenthesis with no question mark behind it opens a plain group. -/
lemma openingAt_of_head?_ne (h : rest.head? ≠ some '?') (index : Nat) :
    openingAt index rest = ⟨index, 0, .plain⟩ := by
  rcases openingAt_cases index rest with ⟨name, hname⟩ | ⟨hmark, -⟩ | ⟨-, hopening⟩
  · obtain ⟨sign, body, rfl | rfl, rfl, -⟩ := openingAt_named hname <;> exact absurd rfl h
  · exact absurd hmark h
  · exact hopening

lemma openingAt_sign (index : Nat) (rest : List Char) :
    openingAt index ('?' :: ':' :: rest) = ⟨index, 0, .nonCapturing⟩ := rfl

/-- All but its place is seen from the text behind an opening. -/
lemma openingAt_move (index index' : Nat) (rest : List Char) :
    openingAt index' rest = { openingAt index rest with start := index' } := by
  rw [openingAt, openingAt]
  dsimp only
  split
  · rfl
  · split_ifs <;> rfl

end LogQuery.Pattern
