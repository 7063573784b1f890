import LogQuery.Proofs.Pattern.Scan
import LogQuery.Text.Alphabetic

/-!
# Patterns in which one group captures

Isolating a group writes other openings in the place of those that the scan finds. As the headers
that go have nothing in them that the scan looks for, it finds in the new pattern what it finds in
the old one, only that a single group captures (`isolateGroup_leaves_one_capture`).

Both scans run side by side. `Isolates` has one rule for each of their steps, and everything is
shown along these rules.
-/

namespace LogQuery.Pattern

/-! ### What isolation leaves -/

/-- The kind of a group once the group of a name is isolated. -/
def GroupKind.isolated (name : String) (kind : GroupKind) : GroupKind :=
  if kind = .named name then .plain else .nonCapturing

/-- Where the text behind an opening begins: behind the header with the name, or behind the sign of
a group that does not capture. -/
def GroupOpening.stop (pattern : List Char) (g : GroupOpening) : Nat :=
  if g.kind = .nonCapturing then
    if ['?', ':'].isPrefixOf (pattern.drop (g.start + 1)) then g.start + 1 + 2 else g.start + 1
  else g.start + 1 + g.headerLength

/-- The texts between the openings of groups, from an index on. -/
def textsFrom (pattern : List Char) (done : Nat) : List GroupOpening → List (List Char)
  | [] => [pattern.drop done]
  | g :: rest =>
    (pattern.drop done).take (g.start - done) :: textsFrom pattern (g.stop pattern) rest

/-- The texts of a pattern in front of, between and behind the openings of groups. -/
def texts (pattern : String) : List (List Char) := textsFrom pattern.toList 0 (scan pattern)

/-! ### Both scans side by side -/

/-- From a state of the scan on, a text and what becomes of it when the group of a name is
isolated. -/
inductive Isolates (name : String) : ScanState → List Char → List Char → Prop where
  | nil (state : ScanState) : Isolates name state [] []
  | escaped {state : ScanState} {cs out : List Char} (c : Char)
      (h : Isolates name state.behindItem cs out) :
      Isolates name state ('\\' :: c :: cs) ('\\' :: c :: out)
  | char {state : ScanState} {c : Char} {cs out : List Char}
      (hopens : ¬ (state = .outside ∧ c = '(')) (hescapes : c = '\\' → cs = [])
      (h : Isolates name (state.next c) cs out) : Isolates name state (c :: cs) (c :: out)
  | kept {cs out : List Char} (hmark : cs.head? = some '?')
      (hopening : openingAt 0 cs = ⟨0, 0, .nonCapturing⟩) (h : Isolates name .outside cs out) :
      Isolates name .outside ('(' :: cs) ('(' :: out)
  | plain {cs out : List Char} (hmark : cs.head? ≠ some '?')
      (h : Isolates name .outside cs out) :
      Isolates name .outside ('(' :: cs) ('(' :: '?' :: ':' :: out)
  | other {header cs out : List Char} {group : String} (hgroup : group ≠ name)
      (hopening : openingAt 0 (header ++ cs) = ⟨0, header.length, .named group⟩)
      (hheader : ∀ c ∈ header, isScanMark c = false) (h : Isolates name .outside cs out) :
      Isolates name .outside ('(' :: (header ++ cs)) ('(' :: '?' :: ':' :: out)
  | chosen {header cs out : List Char} (hmark : cs.head? ≠ some '?')
      (hopening : openingAt 0 (header ++ cs) = ⟨0, header.length, .named name⟩)
      (hheader : ∀ c ∈ header, isScanMark c = false) (h : Isolates name .outside cs out) :
      Isolates name .outside ('(' :: (header ++ cs)) ('(' :: out)

/-- The sign of a group that does not capture is passed. -/
lemma scanFrom_sign (index : Nat) (rest : List Char) :
    scanFrom .outside index ('?' :: ':' :: rest) = scanFrom .outside (index + 2) rest := by
  have hsign : ScanState.after .outside ['?', ':'] = some .outside :=
    after_of_forall_not_isScanMark (by simp [isScanMark])
  exact scanFrom_append hsign index rest

namespace Isolates

variable {name : String} {state : ScanState} {index : Nat} {c : Char} {cs out : List Char}

/-- The first character stays. -/
lemma head?_eq (h : Isolates name state cs out) : out.head? = cs.head? := by
  cases h <;> rfl

lemma eq_nil (h : Isolates name state cs out) (hcs : cs = []) : out = [] := by
  rw [← List.head?_eq_none_iff, h.head?_eq, hcs]
  rfl

lemma of_cons (h : Isolates name .outside (c :: cs) (c :: out)) (hc : isScanMark c = false) :
    Isolates name .outside cs out := by
  cases h with
  | escaped => cases hc
  | char _ _ h =>
    simp only [isScanMark, Bool.or_eq_false_iff, decide_eq_false_iff_not] at hc
    simpa [ScanState.next, hc.1.2] using h
  | kept | plain | other | chosen => cases hc

/-- A text without marks in front of the new pattern stands in front of the old one. -/
lemma exists_of_append {text : List Char} (h : Isolates name .outside cs (text ++ out))
    (htext : ∀ c ∈ text, isScanMark c = false) :
    ∃ cs', cs = text ++ cs' ∧ Isolates name .outside cs' out := by
  induction text generalizing cs with
  | nil => exact ⟨cs, rfl, h⟩
  | cons c text ih =>
    have hhead := h.head?_eq
    cases cs with
    | nil => cases hhead
    | cons c' cs =>
      cases hhead
      have hnext := h.of_cons (htext c (by simp))
      obtain ⟨cs', rfl, h'⟩ := ih hnext fun c' hc' => htext c' (by simp [hc'])
      exact ⟨cs', rfl, h'⟩

/-- Isolation adds question marks and colons only. -/
lemma mem_of_mem (h : Isolates name state cs out) (hout : c ∈ out) :
    c ∈ cs ∨ c = '?' ∨ c = ':' := by
  induction h with
  | nil => exact .inl hout
  | _ => grind

/-- A group that has a name in the new pattern has one in the old. -/
lemma exists_named {group : String} (h : Isolates name .outside cs out)
    (hkind : (openingAt index out).kind = .named group) :
    ∃ group', (openingAt index cs).kind = .named group' := by
  obtain ⟨sign, body, hsign, rfl, hheader, -⟩ := openingAt_named hkind
  obtain ⟨cs', rfl, h'⟩ := h.exists_of_append hsign.isScanMark
  have hheader' := headerName?_congr hsign h'.head?_eq hheader
  have hclosed : '>' ∈ cs' := by
    have hmem : '>' ∈ group.toList ++ '>' :: body := by simp
    exact (h'.mem_of_mem hmem).resolve_right (by decide)
  obtain ⟨found, body', rfl, hfound⟩ := List.eq_append_cons_of_mem hclosed
  exact ⟨_, congrArg GroupOpening.kind (openingAt_of_headerName? hheader' hfound index)⟩

/-- A group that does not capture is still one. -/
lemma openingAt_of_nonCapturing (h : Isolates name .outside cs out)
    (hmark : cs.head? = some '?') (hopening : openingAt 0 cs = ⟨0, 0, .nonCapturing⟩)
    (index : Nat) : openingAt index out = ⟨index, 0, .nonCapturing⟩ := by
  rcases openingAt_cases index out with ⟨group, hgroup⟩ | ⟨-, hopening⟩ | ⟨hne, -⟩
  · obtain ⟨group', hgroup'⟩ := h.exists_named hgroup
    rw [openingAt_move 0, hopening] at hgroup'
    cases hgroup'
  · exact hopening
  · rw [h.head?_eq] at hne
    exact absurd hmark hne

/-- The scan finds as many groups, and one that captures for each that has the name. The induction
is on the steps of both scans. -/
lemma kinds (h : Isolates name state cs out) (index index' : Nat) :
    (scanFrom state index' out).map GroupOpening.kind =
      (scanFrom state index cs).map fun g => g.kind.isolated name := by
  induction h generalizing index index' with
  | nil => rfl
  | escaped c h ih =>
    rw [scanFrom_escaped, scanFrom_escaped]
    exact ih _ _
  | char hopens hescapes h ih =>
    rw [scanFrom_cons hopens hescapes, scanFrom_cons hopens fun hc => h.eq_nil (hescapes hc)]
    exact ih _ _
  | kept hmark hopening h ih =>
    rw [scanFrom_parenthesis, scanFrom_parenthesis, List.map_cons, List.map_cons, ih (index + 1),
      h.openingAt_of_nonCapturing hmark hopening, openingAt_move 0 index, hopening]
    rfl
  | plain hmark h ih =>
    rw [scanFrom_parenthesis, scanFrom_parenthesis, scanFrom_sign, List.map_cons, List.map_cons,
      ih (index + 1), openingAt_of_head?_ne hmark]
    rfl
  | @other header cs out group hgroup hopening hheader h ih =>
    rw [scanFrom_parenthesis, scanFrom_parenthesis, scanFrom_sign,
      scanFrom_append (after_of_forall_not_isScanMark hheader), List.map_cons, List.map_cons,
      ih (index + 1 + header.length), openingAt_move 0 index, hopening]
    simp [GroupKind.isolated, hgroup, openingAt_sign]
  | @chosen header cs out hmark hopening hheader h ih =>
    rw [scanFrom_parenthesis, scanFrom_parenthesis,
      scanFrom_append (after_of_forall_not_isScanMark hheader), List.map_cons, List.map_cons,
      ih (index + 1 + header.length), openingAt_move 0 index, hopening, openingAt_of_head?_ne]
    · simp [GroupKind.isolated]
    · rw [h.head?_eq]
      exact hmark

end Isolates

/-! ### The texts between openings -/

/-- The texts of a pattern from the end of its front on, where `text` is passed already and the rest
is scanned. -/
def textsBehind (front text : List Char) (state : ScanState) (rest : List Char) :
    List (List Char) :=
  textsFrom (front ++ text ++ rest) front.length
    (scanFrom state (front.length + text.length) rest)

section Behind

variable (front text rest : List Char) (state : ScanState) (c : Char)

lemma textsBehind_nil : textsBehind front text state [] = [text] := by
  simp [textsBehind, textsFrom, scanFrom]

/-- An escape does not end the text in front of the next opening. -/
lemma textsBehind_escaped :
    textsBehind front text state ('\\' :: c :: rest) =
      textsBehind front (text ++ ['\\', c]) state.behindItem rest := by
  rw [textsBehind, scanFrom_escaped, textsBehind]
  simp [Nat.add_assoc]

variable {state c rest} in
lemma textsBehind_cons (hopens : ¬ (state = .outside ∧ c = '('))
    (hescapes : c = '\\' → rest = []) :
    textsBehind front text state (c :: rest) =
      textsBehind front (text ++ [c]) (state.next c) rest := by
  rw [textsBehind, scanFrom_cons hopens hescapes, textsBehind]
  simp [Nat.add_assoc]

lemma drop_behind :
    (front ++ text ++ '(' :: rest).drop (front.length + text.length + 1) = rest := by
  have hsplit : front ++ text ++ '(' :: rest = front ++ text ++ ['('] ++ rest := by simp
  rw [hsplit]
  exact List.drop_left' (by simp [Nat.add_assoc])

/-- The text in front of an opening ends where the opening begins. -/
lemma textsFrom_opening (g : GroupOpening) (openings : List GroupOpening)
    (hstart : g.start = front.length + text.length) :
    textsFrom (front ++ text ++ '(' :: rest) front.length (g :: openings) =
      text :: textsFrom (front ++ text ++ '(' :: rest) (g.stop (front ++ text ++ '(' :: rest))
        openings := by
  rw [textsFrom, hstart]
  simp

variable {rest} in
/-- Behind an opening with a header, the next text begins behind the header. -/
lemma textsBehind_header {header : List Char} {kind : GroupKind}
    (hopening : openingAt 0 (header ++ rest) = ⟨0, header.length, kind⟩)
    (hheader : ∀ c ∈ header, isScanMark c = false) (hkind : kind ≠ .nonCapturing) :
    textsBehind front text .outside ('(' :: (header ++ rest)) =
      text :: textsBehind (front ++ text ++ '(' :: header) [] .outside rest := by
  rw [textsBehind, scanFrom_parenthesis, scanFrom_append (after_of_forall_not_isScanMark hheader),
    openingAt_move 0, hopening, textsFrom_opening _ _ _ _ _ rfl, GroupOpening.stop, if_neg hkind,
    textsBehind]
  simp [Nat.add_assoc, Nat.add_comm 1]

variable {rest} in
/-- A plain parenthesis ends the text in front of it. -/
lemma textsBehind_plain (hmark : rest.head? ≠ some '?') :
    textsBehind front text .outside ('(' :: rest) =
      text :: textsBehind (front ++ text ++ ['(']) [] .outside rest := by
  have hopening : openingAt 0 ([] ++ rest) = ⟨0, ([] : List Char).length, .plain⟩ :=
    openingAt_of_head?_ne hmark 0
  exact textsBehind_header front text hopening (by simp) (by simp)

/-- Behind the sign of a group that does not capture, the next text begins. -/
lemma textsBehind_sign :
    textsBehind front text .outside ('(' :: '?' :: ':' :: rest) =
      text :: textsBehind (front ++ text ++ ['(', '?', ':']) [] .outside rest := by
  rw [textsBehind, scanFrom_parenthesis, scanFrom_sign, openingAt_sign,
    textsFrom_opening _ _ _ _ _ rfl, GroupOpening.stop, if_pos rfl, drop_behind, textsBehind]
  simp [Nat.add_assoc]

/-- Texts that begin later lack their first characters. -/
lemma textsFrom_add (pattern : List Char) (done more : Nat) (openings : List GroupOpening) :
    textsFrom pattern (done + more) openings =
      (textsFrom pattern done openings).modifyHead (List.drop more) := by
  cases openings with
  | nil => simp [textsFrom]
  | cons g rest => simp [textsFrom, List.drop_take, Nat.sub_sub]

variable {rest} in
/-- Behind an opening that does not capture, the next text begins behind the sign if there is
one. -/
lemma textsBehind_nonCapturing {index : Nat}
    (hopening : openingAt index rest = ⟨index, 0, .nonCapturing⟩) :
    textsBehind front text .outside ('(' :: rest) =
      text :: (textsBehind (front ++ text ++ ['(']) [] .outside rest).modifyHead
        (List.drop (if ['?', ':'].isPrefixOf rest then 2 else 0)) := by
  rw [textsBehind, scanFrom_parenthesis, openingAt_move index, hopening,
    textsFrom_opening _ _ _ _ _ rfl, GroupOpening.stop, if_pos rfl, drop_behind, textsBehind,
    ← textsFrom_add]
  split_ifs <;> simp [Nat.add_assoc]

end Behind

namespace Isolates

variable {name : String} {state : ScanState} {cs out : List Char}

/-- The sign of a group that does not capture stays. -/
lemma isPrefixOf_eq (h : Isolates name .outside cs out) :
    ['?', ':'].isPrefixOf out = ['?', ':'].isPrefixOf cs := by
  have hhead := h.head?_eq
  rcases cs with _ | ⟨c, cs⟩ <;> rcases out with _ | ⟨c', out⟩ <;> cases hhead
  · rfl
  · by_cases hc : c = '?'
    · subst hc
      have hhead := (h.of_cons (by decide)).head?_eq
      rcases cs with _ | ⟨c, cs⟩ <;> rcases out with _ | ⟨c', out⟩ <;> cases hhead <;> rfl
    · have hne : ('?' == c) = false := by simpa using Ne.symm hc
      simp [List.isPrefixOf, hne]

/-- The texts between the openings stay. The induction is on the steps of both scans. -/
lemma textsBehind_eq (h : Isolates name state cs out) (front front' text : List Char) :
    textsBehind front' text state out = textsBehind front text state cs := by
  induction h generalizing front front' text with
  | nil => rw [textsBehind_nil, textsBehind_nil]
  | escaped c h ih =>
    rw [textsBehind_escaped, textsBehind_escaped]
    exact ih _ _ _
  | char hopens hescapes h ih =>
    rw [textsBehind_cons _ _ hopens hescapes,
      textsBehind_cons _ _ hopens fun hc => h.eq_nil (hescapes hc)]
    exact ih _ _ _
  | kept hmark hopening h ih =>
    rw [textsBehind_nonCapturing _ _ (h.openingAt_of_nonCapturing hmark hopening 0),
      textsBehind_nonCapturing _ _ hopening, h.isPrefixOf_eq, ih (front ++ text ++ ['('])]
  | plain hmark h ih =>
    rw [textsBehind_sign, textsBehind_plain _ _ hmark, ih (front ++ text ++ ['('])]
  | other hgroup hopening hheader h ih =>
    rw [textsBehind_sign, textsBehind_header _ _ hopening hheader (by simp)]
    exact congrArg _ (ih _ _ _)
  | chosen hmark hopening hheader h ih =>
    rw [textsBehind_header _ _ hopening hheader (by simp), textsBehind_plain]
    · exact congrArg _ (ih _ _ _)
    · rw [h.head?_eq]
      exact hmark

end Isolates

/-! ### Replacing the openings -/

/-- The openings of a pattern can be replaced to isolate the group of a name: no name has anything
in it that the scan looks for, and the group of the name does not begin with a question mark. -/
structure Isolable (pattern : List Char) (name : String) (openings : List GroupOpening) :
    Prop where
  unmarked : ∀ g ∈ openings, ∀ group, g.kind = .named group →
    ∀ c ∈ group.toList, isScanMark c = false
  behind : ∀ g ∈ openings, g.kind = .named name →
    (pattern.drop (g.start + 1 + g.headerLength)).head? ≠ some '?'

section Splice

variable {pattern : List Char} {name : String} {openings : List GroupOpening} {index : Nat}

lemma Isolable.tail {g : GroupOpening} (h : Isolable pattern name (g :: openings)) :
    Isolable pattern name openings where
  unmarked g' hg' := h.unmarked g' (by simp [hg'])
  behind g' hg' := h.behind g' (by simp [hg'])

/-- What stands in front of all openings is taken over. -/
lemma spliceFrom_append {text rest : List Char} (hrest : pattern.drop index = text ++ rest)
    (h : ∀ g ∈ openings, index + text.length ≤ g.start) :
    spliceFrom pattern name index openings =
      text ++ spliceFrom pattern name (index + text.length) openings := by
  have hdrop : pattern.drop (index + text.length) = rest := by
    rw [← List.drop_drop, hrest, List.drop_left]
  induction openings with
  | nil => rw [spliceFrom, spliceFrom, hrest, hdrop]
  | cons g openings ih =>
    have hstart := h g (by simp)
    rw [spliceFrom, spliceFrom]
    cases isolatedOpening name g.kind with
    | none => exact ih fun g' hg' => h g' (by simp [hg'])
    | some opening =>
      have htake : text.take (g.start - index) = text := List.take_of_length_le (by omega)
      simp [hrest, hdrop, List.take_append, htake, Nat.sub_sub]

lemma tail_of_drop {c : Char} {rest : List Char} (h : pattern.drop index = c :: rest) :
    pattern.drop (index + 1) = rest := by
  rw [← List.drop_drop, h]
  rfl

/-- The header of a group that opens here goes, and its name has nothing in it that the scan looks
for. -/
lemma exists_header {rest : List Char} {group : String}
    (hkind : (openingAt index rest).kind = .named group)
    (hgroup : ∀ c ∈ group.toList, isScanMark c = false) :
    ∃ header body, rest = header ++ body ∧ (∀ c ∈ header, isScanMark c = false) ∧
      openingAt index rest = ⟨index, header.length, .named group⟩ := by
  obtain ⟨sign, body, hsign, rfl, -, hopening⟩ := openingAt_named hkind
  refine ⟨sign ++ group.toList ++ ['>'], body, by simp, ?_, ?_⟩
  · intro c hc
    simp only [List.mem_append, List.mem_singleton] at hc
    rcases hc with (hc | hc) | rfl
    · exact hsign.isScanMark c hc
    · exact hgroup c hc
    · rfl
  · rw [hopening]
    simp [Nat.add_assoc, String.length_toList]

/-- One opening is replaced, and what stands behind it is isolated. -/
lemma isolates_opening {rest : List Char} (hcs : pattern.drop index = '(' :: rest)
    (h : Isolable pattern name (scanFrom .outside index ('(' :: rest)))
    (ih : ∀ {done : Nat} {body : List Char}, body.length ≤ rest.length →
      pattern.drop done = body → Isolable pattern name (scanFrom .outside done body) →
      Isolates name .outside body
        (spliceFrom pattern name done (scanFrom .outside done body))) :
    Isolates name .outside ('(' :: rest)
      (spliceFrom pattern name index (scanFrom .outside index ('(' :: rest))) := by
  have hrest := tail_of_drop hcs
  rw [scanFrom_parenthesis] at h ⊢
  rcases openingAt_cases index rest with ⟨group, hgroup⟩ | ⟨hmark, hopening⟩ | ⟨hmark, hopening⟩
  · obtain ⟨header, body, rfl, hheader, hopening⟩ :=
      exists_header hgroup (h.unmarked _ (by simp) group hgroup)
    have hbody : pattern.drop (index + 1 + header.length) = body := by
      rw [← List.drop_drop, hrest, List.drop_left]
    have hlater : body.length ≤ (header ++ body).length := by simp
    rw [scanFrom_append (after_of_forall_not_isScanMark hheader), hopening] at h ⊢
    have hisolates := ih hlater hbody h.tail
    have hopening' : openingAt 0 (header ++ body) = ⟨0, header.length, .named group⟩ := by
      rw [openingAt_move index, hopening]
    by_cases hchosen : group = name
    · subst hchosen
      have hmark := h.behind ⟨index, header.length, .named group⟩ (by simp) rfl
      rw [hbody] at hmark
      simpa [spliceFrom, isolatedOpening] using .chosen hmark hopening' hheader hisolates
    · simpa [spliceFrom, isolatedOpening, hchosen] using
        .other hchosen hopening' hheader hisolates
  · have hleast := (ascending_scanFrom .outside (index + 1) rest).least
    rw [hopening] at h ⊢
    rw [spliceFrom, isolatedOpening]
    dsimp only
    rw [spliceFrom_append (show _ = ['('] ++ rest from hcs) hleast]
    refine .kept hmark ?_ (ih le_rfl hrest h.tail)
    rw [openingAt_move index, hopening]
  · rw [hopening] at h ⊢
    simpa [spliceFrom, isolatedOpening] using .plain hmark (ih le_rfl hrest h.tail)

/-- The induction is on the length of the text: behind a header the scan goes on as behind its
parenthesis, but the text that is left is shorter. -/
lemma isolates_spliceFrom {state : ScanState} {cs : List Char} (hcs : pattern.drop index = cs)
    (h : Isolable pattern name (scanFrom state index cs)) :
    Isolates name state cs (spliceFrom pattern name index (scanFrom state index cs)) := by
  induction hlength : cs.length using Nat.strong_induction_on generalizing state index cs with
  | _ length ih =>
    subst hlength
    cases cs with
    | nil =>
      rw [scanFrom, spliceFrom, hcs]
      exact .nil state
    | cons c rest =>
      by_cases hopens : state = .outside ∧ c = '('
      · obtain ⟨rfl, rfl⟩ := hopens
        exact isolates_opening hcs h fun hle hdrop hisolable =>
          ih _ (Nat.lt_succ_of_le hle) hdrop hisolable rfl
      · by_cases hescapes : c = '\\' → rest = []
        · rw [scanFrom_cons hopens hescapes] at h ⊢
          rw [spliceFrom_append (show _ = [c] ++ rest from hcs)
            (ascending_scanFrom _ (index + 1) rest).least]
          exact .char hopens hescapes (ih _ (by simp) (tail_of_drop hcs) h rfl)
        · obtain ⟨rfl, hrest⟩ := Classical.not_imp.1 hescapes
          obtain ⟨c', rest', rfl⟩ := List.exists_cons_of_ne_nil hrest
          rw [scanFrom_escaped] at h ⊢
          rw [spliceFrom_append (show _ = ['\\', c'] ++ rest' from hcs)
            (ascending_scanFrom _ (index + 2) rest').least]
          have hrest' : pattern.drop (index + 2) = rest' := tail_of_drop (tail_of_drop hcs)
          exact .escaped c' (ih _ (by simp only [List.length_cons]; omega) hrest' h rfl)

/-- The named groups of a pattern are those of the openings with a name. -/
lemma mem_namedGroups_iff {pattern group : String} :
    group ∈ namedGroups pattern ↔ ∃ g ∈ scan pattern, g.kind = .named group := by
  rw [namedGroups, List.mem_filterMap]
  refine exists_congr fun g => and_congr_right fun _ => ?_
  cases g.kind <;> simp

/-- A name occurs as often as groups of the name open. -/
lemma count_namedGroups (pattern name : String) :
    (namedGroups pattern).count name =
      (scan pattern).countP fun g => g.kind.isolated name = .plain := by
  rw [namedGroups, List.count, List.countP_filterMap]
  refine List.countP_congr fun g _ => ?_
  cases g.kind <;> simp [GroupKind.isolated]

/-- No letter or digit means anything to the scan. -/
lemma isScanMark_of_isNamePart {c : Char}
    (h : Text.isAlphanumeric c = true ∨ c = '_' ∨ c = '.') : isScanMark c = false := by
  by_contra hmark
  simp only [isScanMark, Bool.or_eq_false_iff, decide_eq_false_iff_not, not_and_or,
    not_not] at hmark
  rcases hmark with (rfl | rfl) | rfl <;> revert h <;> decide

end Splice

/-- Isolating a group leaves one capture. If the names in a pattern are of letters, digits,
underscores and dots, and a name occurs once, in front of no question mark, then as many groups
open in the pattern in which the group of that name is isolated, in the same order; that group
captures without a name, and it alone does; and the texts between the openings stay. -/
theorem isolateGroup_leaves_one_capture (pattern name : String)
    (hnames : ∀ group ∈ namedGroups pattern, ∀ c ∈ group.toList,
      Text.isAlphanumeric c = true ∨ c = '_' ∨ c = '.')
    (honce : (namedGroups pattern).count name = 1)
    (hbehind : ∀ g ∈ scan pattern, g.kind = .named name →
      (pattern.toList.drop (g.start + 1 + g.headerLength)).head? ≠ some '?') :
    (scan (isolateGroup pattern name)).map GroupOpening.kind =
        (scan pattern).map (fun g => g.kind.isolated name) ∧
      (scan (isolateGroup pattern name)).countP (fun g => g.kind = .plain) = 1 ∧
      texts (isolateGroup pattern name) = texts pattern := by
  have hisolable : Isolable pattern.toList name (scan pattern) := by
    refine ⟨fun g hg group hkind c hc => ?_, hbehind⟩
    exact isScanMark_of_isNamePart (hnames group (mem_namedGroups_iff.2 ⟨g, hg, hkind⟩) c hc)
  have hisolates : Isolates name .outside pattern.toList (isolateGroup pattern name).toList := by
    rw [isolateGroup, String.toList_ofList]
    exact isolates_spliceFrom List.drop_zero hisolable
  have hkinds := hisolates.kinds 0 0
  refine ⟨hkinds, ?_, hisolates.textsBehind_eq [] [] []⟩
  have hcount := congrArg (List.countP fun kind => decide (kind = .plain)) hkinds
  rw [List.countP_map, List.countP_map] at hcount
  rw [count_namedGroups] at honce
  exact hcount.trans honce

/-- Between classes, escapes and other groups, the group of one name alone captures. -/
theorem isolateGroup_leaves_one_capture_of_user :
    (scan (isolateGroup "(?P<user>[^(]+)\\((\\d)@(?<top>com|org)" "user")).map GroupOpening.kind =
        [.plain, .nonCapturing, .nonCapturing] ∧
      texts (isolateGroup "(?P<user>[^(]+)\\((\\d)@(?<top>com|org)" "user") =
        ["".toList, "[^(]+)\\(".toList, "\\d)@".toList, "com|org)".toList] := by
  have hnames : ((namedGroups "(?P<user>[^(]+)\\((\\d)@(?<top>com|org)").all fun group =>
      group.toList.all fun c => Text.isAlphanumeric c || c = '_' || c = '.') = true := by decide
  obtain ⟨hkinds, -, htexts⟩ :=
    isolateGroup_leaves_one_capture "(?P<user>[^(]+)\\((\\d)@(?<top>com|org)" "user"
      (fun group hgroup c hc => by
        simpa [or_assoc] using List.all_eq_true.1 (List.all_eq_true.1 hnames group hgroup) c hc)
      (by decide) (by decide)
  refine ⟨hkinds.trans (by decide), htexts.trans (by decide)⟩

end LogQuery.Pattern
