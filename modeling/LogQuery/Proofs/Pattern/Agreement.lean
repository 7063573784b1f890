import LogQuery.Proofs.Pattern.Scan
import LogQuery.Proofs.Pattern.Written
import Mathlib.Data.List.Basic

/-!
# Groups that are scanned and groups that are written

The scan takes a class for closed at the first closing bracket, also if it is that of a class
inside. So it finds the groups of an expression, and takes each parenthesis that a class exposes for
one more. Part by part it is in step with the expression: behind each ordinary part it stands
outside of classes.
-/

namespace LogQuery.Pattern

variable {verbose : Bool} {outer : List Bool} {state : ScanState} {rest : List Char}

/-! ### Classes -/

namespace ClassPart

/-- A parenthesis is exposed among the parts, where the parts in front may have ended with a closing
bracket. -/
def ExposesFrom (closed : Prop) (parts : List ClassPart) : Prop :=
  (closed ∧ ∃ between behind, parts = between ++ .char '(' :: behind ∧ .opening ∉ between) ∨
    ∃ before between behind,
      parts = before ++ .closing :: (between ++ .char '(' :: behind) ∧ .opening ∉ between

variable {closed : Prop} {part : ClassPart} {parts : List ClassPart}

lemma exposesFrom_nil : ¬ ExposesFrom closed [] := by simp [ExposesFrom]

lemma exposesFrom_opening : ExposesFrom closed (.opening :: parts) ↔ ExposesFrom False parts := by
  constructor
  · rintro (⟨-, between, behind, heq, hnone⟩ | ⟨before, between, behind, heq, hnone⟩)
    · cases between with
      | nil => cases heq
      | cons part between =>
        cases heq
        simp at hnone
    · cases before with
      | nil => cases heq
      | cons part before =>
        cases heq
        exact .inr ⟨before, between, behind, rfl, hnone⟩
  · rintro (⟨hfalse, -⟩ | ⟨before, between, behind, rfl, hnone⟩)
    · exact hfalse.elim
    · exact .inr ⟨.opening :: before, between, behind, rfl, hnone⟩

lemma exposesFrom_closing : ExposesFrom closed (.closing :: parts) ↔ ExposesFrom True parts := by
  constructor
  · rintro (⟨-, between, behind, heq, hnone⟩ | ⟨before, between, behind, heq, hnone⟩)
    · cases between with
      | nil => cases heq
      | cons part between =>
        cases heq
        exact .inl ⟨trivial, between, behind, rfl, by simp_all⟩
    · cases before with
      | nil =>
        cases heq
        exact .inl ⟨trivial, between, behind, rfl, hnone⟩
      | cons part before =>
        cases heq
        exact .inr ⟨before, between, behind, rfl, hnone⟩
  · rintro (⟨-, between, behind, rfl, hnone⟩ | ⟨before, between, behind, rfl, hnone⟩)
    · exact .inr ⟨[], between, behind, rfl, hnone⟩
    · exact .inr ⟨.closing :: before, between, behind, rfl, hnone⟩

lemma exposesFrom_cons (hopening : part ≠ .opening) (hclosing : part ≠ .closing) :
    ExposesFrom closed (part :: parts) ↔
      (closed ∧ part = .char '(') ∨ ExposesFrom closed parts := by
  constructor
  · rintro (⟨hclosed, between, behind, heq, hnone⟩ | ⟨before, between, behind, heq, hnone⟩)
    · cases between with
      | nil =>
        cases heq
        exact .inl ⟨hclosed, rfl⟩
      | cons part' between =>
        cases heq
        exact .inr (.inl ⟨hclosed, between, behind, rfl, by simp_all⟩)
    · cases before with
      | nil =>
        cases heq
        exact absurd rfl hclosing
      | cons part' before =>
        cases heq
        exact .inr (.inr ⟨before, between, behind, rfl, hnone⟩)
  · rintro (⟨hclosed, rfl⟩ | ⟨hclosed, between, behind, rfl, hnone⟩ |
      ⟨before, between, behind, rfl, hnone⟩)
    · exact .inl ⟨hclosed, [], parts, rfl, by simp⟩
    · exact .inl ⟨hclosed, part :: between, behind, rfl, by simp [hopening.symm, hnone]⟩
    · exact .inr ⟨part :: before, between, behind, rfl, hnone⟩

/-- A class exposes a parenthesis if its parts do before any class inside has closed. -/
lemma exposes_iff : (Part.chars parts).Exposes ↔ ExposesFrom False parts := by
  simp [Part.Exposes, ExposesFrom]

end ClassPart

open ClassPart

@[simp] lemma behindItem_eq_outside : state.behindItem = .outside ↔ state = .outside := by
  cases state <;> simp [ScanState.behindItem]

@[simp] lemma behindItem_ne_classStart : state.behindItem ≠ .classStart := by
  cases state <;> simp [ScanState.behindItem]

@[simp] lemma behindItem_ne_classCaret : state.behindItem ≠ .classCaret := by
  cases state <;> simp [ScanState.behindItem]

/-- A character without a meaning of its own changes nothing but the start of a class. -/
lemma next_eq_behindItem {c : Char} (hc : c ∉ ['\\', '[', ']'])
    (hcaret : state = .classStart → c ≠ '^') : state.next c = state.behindItem := by
  simp only [List.mem_cons, List.not_mem_nil, or_false, not_or] at hc
  cases state with
  | outside => exact if_neg hc.2.1
  | classStart => exact if_neg (hcaret rfl)
  | classCaret => rfl
  | inside => exact if_neg hc.2.2

/-- Text without marks changes no state of the scan. -/
lemma Unmarked.isSilent {text : List Char} (h : Unmarked text) : ∀ c ∈ text, isSilent c = true := by
  intro c hc
  have hnone := h c hc
  rcases isSilent_or c with hsilent | rfl | rfl | rfl | rfl
  · exact hsilent
  all_goals simp at hnone

/-- Layout begins with a blank or with a number sign. -/
lemma IsLayout.head {text : List Char} {c : Char} (h : IsLayout text) (hc : c ∈ text.head?) :
    Text.isBlank c = true ∨ c = '#' := by
  cases h with
  | nil => simp at hc
  | blank hblank =>
    cases hc
    exact .inl hblank
  | comment =>
    cases hc
    exact .inr rfl

/-- Layout without marks is passed like a single character. -/
lemma IsLayout.after {text : List Char} (h : IsLayout text) (hnone : Unmarked text)
    (hne : text ≠ []) : state.after text = some state.behindItem := by
  obtain ⟨c, more, rfl⟩ := List.exists_cons_of_ne_nil hne
  have hhead := h.head (c := c) rfl
  have hc := hnone c (by simp)
  have hmore : ∀ c' ∈ more, isSilent c' = true := fun c' hc' => hnone.isSilent c' (by simp [hc'])
  have hcaret : c ≠ '^' := by
    rintro rfl
    revert hhead
    decide
  simp only [List.mem_cons, List.not_mem_nil, or_false, not_or] at hc
  rw [ScanState.after_cons hc.1 fun h => hc.2.2.2 h.2,
    next_eq_behindItem (by simp [hc]) fun _ => hcaret]
  refine after_of_forall_isSilent ?_ hmore
  cases state <;> simp [ScanState.behindItem]

/-- A part that is neither taken for the end nor for the beginning of a class where it is not. -/
def ClassPart.IsQuiet : ClassPart → Prop
  | .first => False
  | .char c => c ≠ '['
  | .layout text => Unmarked text
  | _ => True

/-- Going through the parts of a class, the scan finds groups if and only if one is exposed, and it
ends outside. -/
def FindsExposed (state : ScanState) (parts : List ClassPart) : Prop :=
  ∀ (index : Nat) (rest : List Char), ∃ extra,
    scanFrom state index (parts.flatMap ClassPart.text ++ rest) =
      extra ++ scanFrom .outside (index + (parts.flatMap ClassPart.text).length) rest ∧
    (extra = [] ↔ ¬ ExposesFrom (state = .outside) parts)

variable {part : ClassPart} {parts : List ClassPart} {state' : ScanState}

/-- A part at which the scan goes on as it stood leaves what is exposed to the parts behind it. -/
lemma FindsExposed.cons (h : FindsExposed state' parts)
    (hafter : state.after part.text = some state')
    (hexposes : ExposesFrom (state = .outside) (part :: parts) ↔
      ExposesFrom (state' = .outside) parts) : FindsExposed state (part :: parts) := by
  intro index rest
  obtain ⟨extra, hscan, hextra⟩ := h (index + part.text.length) rest
  refine ⟨extra, ?_, by rw [hextra, hexposes]⟩
  rw [List.flatMap_cons, List.append_assoc, scanFrom_append hafter, hscan, List.length_append,
    Nat.add_assoc]

/-- A part that stands for a character of the class is passed, unless it is exposed. -/
lemma FindsExposed.item (h : FindsExposed state.behindItem parts)
    (hafter : state.after part.text = some state.behindItem) (hopening : part ≠ .opening)
    (hclosing : part ≠ .closing) (hparenthesis : state = .outside → part ≠ .char '(') :
    FindsExposed state (part :: parts) := by
  refine h.cons hafter ?_
  rw [exposesFrom_cons hopening hclosing, behindItem_eq_outside]
  exact or_iff_right fun h => hparenthesis h.1 h.2

/-- A parenthesis outside of what the scan takes for a class is found. -/
lemma FindsExposed.parenthesis (h : FindsExposed .outside parts) :
    FindsExposed .outside (.char '(' :: parts) := by
  intro index rest
  obtain ⟨extra, hscan, -⟩ := h (index + 1) rest
  refine ⟨openingAt index (parts.flatMap ClassPart.text ++ rest) :: extra, ?_, ?_⟩
  · rw [List.flatMap_cons, ClassPart.text, List.singleton_append, List.cons_append,
      scanFrom_parenthesis, hscan, List.cons_append, List.length_cons, Nat.add_right_comm,
      Nat.add_assoc]
  · simp [exposesFrom_cons]

lemma findsExposed_nil : FindsExposed .outside [] :=
  fun _ _ => ⟨[], rfl, by simp [exposesFrom_nil]⟩

/-- At a closing bracket that closes, the scan leaves what it takes for a class. -/
lemma FindsExposed.closing {place : ClassPlace} (h : FindsExposed .outside parts)
    (hplace : place = .hyphen ∨ place = .inside) (hstart : state = .classStart → place = .start)
    (hcaret : state = .classCaret → place = .caret) :
    FindsExposed state (.closing :: parts) := by
  refine h.cons ?_ (by rw [exposesFrom_closing, eq_self])
  rcases hplace with rfl | rfl <;> cases state
  any_goals rfl
  all_goals simp at hstart hcaret

/-- The scan is outside in a class if and only if a class inside was the last to begin or to end,
and ended. The induction is on what is written in the class. -/
lemma findsExposed_of_inside {place : ClassPlace} {depth : Nat}
    (h : Inside verbose place depth parts) (hquiet : ∀ part ∈ parts, part.IsQuiet)
    (hstart : state = .classStart → place = .start)
    (hcaret : state = .classCaret → place = .caret) : FindsExposed state parts := by
  induction h generalizing state with
  | caret _ ih =>
    have hparts := (List.forall_mem_cons.1 hquiet).2
    by_cases hstate : state = .classStart
    · subst hstate
      have hlater : FindsExposed .classCaret _ := ih hparts nofun fun _ => rfl
      refine hlater.cons rfl ((exposesFrom_cons (by decide) (by decide)).trans ?_)
      simp
    · have hafter : state.after ['^'] = some state.behindItem := by
        rw [ScanState.after_cons (by decide) (by simp),
          next_eq_behindItem (by decide) fun h => absurd h hstate]
        rfl
      exact (ih hparts (by simp) (by simp)).item hafter nofun nofun nofun
  | first => exact ((List.forall_mem_cons.1 hquiet).1 : False).elim
  | @char _ _ _ c hc hcaret' _ _ ih =>
    have hparts := (List.forall_mem_cons.1 hquiet).2
    by_cases hparenthesis : state = .outside ∧ c = '('
    · obtain ⟨rfl, rfl⟩ := hparenthesis
      have hlater : FindsExposed .outside _ := ih hparts nofun nofun
      exact hlater.parenthesis
    · have hafter : state.after [c] = some state.behindItem := by
        have hback : c ≠ '\\' := fun h => hc (by simp [h])
        rw [ScanState.after_cons hback hparenthesis,
          next_eq_behindItem hc fun h => hcaret' (hstart h)]
        rfl
      refine (ih hparts (by simp) (by simp)).item hafter nofun nofun fun hstate hpart => ?_
      cases hpart
      exact hparenthesis ⟨hstate, rfl⟩
  | bound => exact absurd rfl (List.forall_mem_cons.1 hquiet).1
  | escape c _ ih =>
    have hparts := (List.forall_mem_cons.1 hquiet).2
    exact (ih hparts (by simp) (by simp)).item rfl nofun nofun nofun
  | layout _ hne htext _ ih =>
    obtain ⟨hnone, hparts⟩ := List.forall_mem_cons.1 hquiet
    exact (ih hparts (by simp) (by simp)).item (htext.after hnone hne) nofun nofun nofun
  | opening _ ih =>
    have hparts := (List.forall_mem_cons.1 hquiet).2
    obtain ⟨hinside, hbehind⟩ : state.next '[' ≠ .outside ∧ state.next '[' ≠ .classCaret := by
      cases state <;> decide
    have hafter : state.after ['['] = some (state.next '[') :=
      ScanState.after_cons (by decide) (by simp)
    refine (ih hparts (fun _ => rfl) fun h => absurd h hbehind).cons hafter ?_
    rw [exposesFrom_opening, eq_false hinside]
  | innerClosing hplace _ ih =>
    have hparts := (List.forall_mem_cons.1 hquiet).2
    have hlater : FindsExposed .outside _ := ih hparts nofun nofun
    exact hlater.closing hplace hstart hcaret
  | closing hplace => exact findsExposed_nil.closing hplace hstart hcaret

/-- In an ordinary class, the scan and the class agree about each bracket that stands for itself. -/
lemma findsExposed_of_isOrdinary (h : Inside verbose .start 0 parts)
    (hordinary : (Part.chars parts).IsOrdinary) : FindsExposed .classStart parts := by
  obtain ⟨hbound, hlayout, hplaced⟩ := hordinary
  have hquiet : ∀ parts' : List ClassPart, (∀ part ∈ parts', part ∈ parts) → .first ∉ parts' →
      ∀ part ∈ parts', part.IsQuiet := by
    intro parts' hsub hfirst part hpart
    cases part with
    | first => exact hfirst hpart
    | char c => exact fun hc => hbound (hc ▸ hsub _ hpart)
    | layout text => exact hlayout text (hsub _ hpart)
    | _ => trivial
  by_cases hfirst : .first ∈ parts
  · obtain ⟨before, behind, rfl⟩ := List.append_of_mem hfirst
    have honce : .first ∉ behind := by
      intro hmem
      obtain ⟨between, behind', rfl⟩ := List.append_of_mem hmem
      rcases hplaced (before ++ .first :: between) behind' (by simp) with heq | heq
      · simp at heq
      · cases before with
        | nil => simp at heq
        | cons part before => simp at heq
    have hpart : ∀ part ∈ behind, part ∈ before ++ .first :: behind := fun _ hp => by simp [hp]
    have hread : FindsExposed .inside behind := by
      rcases hplaced before behind rfl with rfl | rfl
      · cases h with
        | first _ h => exact findsExposed_of_inside h (hquiet _ hpart honce) nofun nofun
      · cases h with
        | caret h =>
          cases h with
          | first _ h => exact findsExposed_of_inside h (hquiet _ hpart honce) nofun nofun
    have hbracket {state : ScanState} (hstate : state.after [']'] = some .inside)
        (hinside : state ≠ .outside) : FindsExposed state (.first :: behind) := by
      refine hread.cons hstate ((exposesFrom_cons (by decide) (by decide)).trans ?_)
      simp [hinside]
    rcases hplaced before behind rfl with rfl | rfl
    · exact hbracket rfl (by decide)
    · have hcaret : FindsExposed .classCaret (.first :: behind) := hbracket rfl (by decide)
      refine hcaret.cons rfl ((exposesFrom_cons (by decide) (by decide)).trans ?_)
      simp
  · exact findsExposed_of_inside h (hquiet parts (fun _ => id) hfirst) (fun _ => rfl) nofun

/-! ### Names -/

variable {name : List Char}

/-- What a name can hold means nothing to the scan but for brackets. -/
lemma IsGroupName.ne {c : Char} (h : IsGroupName name) (hc : c ∈ name) :
    c ∉ ['\\', '(', '^', '>', '=', '!'] := by
  intro hmark
  have hnone : ∀ c ∈ ['\\', '(', '^', '>', '=', '!'], c ∉ ['_', '.', '[', ']'] ∧
      Text.isAlphabetic c = false ∧ Text.isAlphanumeric c = false :=
    List.forall_iff_forall_mem.1 (by decide)
  obtain ⟨hsigns, hletter, hword⟩ := hnone c hmark
  cases name with
  | nil => exact h
  | cons first more =>
    rcases List.mem_cons.1 hc with rfl | hc
    · rcases h.1 with rfl | hfirst
      · simp at hsigns
      · rw [hletter] at hfirst
        cases hfirst
    · rcases h.2 c hc with hsign | hmore
      · exact hsigns hsign
      · rw [hword] at hmore
        cases hmore

/-- No group opens in a text without parentheses, and it ends somewhere. -/
lemma exists_after (h : ∀ c ∈ name, c ∉ ['\\', '(']) (state : ScanState) :
    ∃ state', state.after name = some state' := by
  induction name generalizing state with
  | nil => exact ⟨state, rfl⟩
  | cons c name ih =>
    obtain ⟨hc, hname⟩ := List.forall_mem_cons.1 h
    simp only [List.mem_cons, List.not_mem_nil, or_false, not_or] at hc
    rw [ScanState.after_cons hc.1 fun h => hc.2 h.2]
    exact ih hname _

/-- A closing bracket closes, and what follows it opens nothing. -/
lemma after_closing (h : ∀ c ∈ name, c ∉ ['\\', '(', '[']) (hstate : state = .outside ∨
    state = .inside ∧ ']' ∈ name) : state.after name = some .outside := by
  induction name generalizing state with
  | nil =>
    rcases hstate with rfl | ⟨-, hmem⟩
    · rfl
    · cases hmem
  | cons c name ih =>
    obtain ⟨hc, hname⟩ := List.forall_mem_cons.1 h
    simp only [List.mem_cons, List.not_mem_nil, or_false, not_or] at hc
    rw [ScanState.after_cons hc.1 fun h => hc.2.1 h.2]
    refine ih hname ?_
    rcases hstate with rfl | ⟨rfl, hmem⟩
    · exact .inl (if_neg hc.2.2)
    · by_cases hclose : c = ']'
      · exact .inl (if_pos hclose)
      · exact .inr ⟨if_neg hclose, (List.mem_cons.1 hmem).resolve_left (Ne.symm hclose)⟩

/-- The scan stands outside behind a name that closes its brackets. -/
lemma ClosesBrackets.after (h : ClosesBrackets name) (hname : IsGroupName name) :
    ScanState.after .outside name = some .outside := by
  have hmarks : ∀ text : List Char, (∀ c ∈ text, c ∈ name) → ∀ c ∈ text, c ∉ ['\\', '('] := by
    intro text hsub c hc
    have := hname.ne (hsub c hc)
    simp_all
  by_cases hbracket : '[' ∈ name
  · obtain ⟨behind, before, hsplit, hlast⟩ :=
      List.eq_append_cons_of_mem (List.mem_reverse.2 hbracket)
    rw [← List.mem_reverse] at hlast
    have heq : name = before.reverse ++ '[' :: behind.reverse := by
      rw [← name.reverse_reverse, hsplit]
      simp
    obtain ⟨c, more, hbehind, hclosing⟩ := h _ _ heq hlast
    rw [hbehind] at heq hlast
    obtain ⟨state, hstate⟩ :=
      exists_after (hmarks before.reverse fun _ hc => by simp_all) .outside
    have hc : c ∉ ['\\', '(', '^', '>', '=', '!'] := hname.ne (by simp [heq])
    simp only [List.mem_cons, List.not_mem_nil, or_false, not_or] at hc
    have hmore : ∀ c' ∈ more, c' ∉ ['\\', '(', '['] := by
      intro c' hc'
      have := hmarks more (fun _ hc => by simp [heq, hc]) c' hc'
      have hne : c' ≠ '[' := by
        rintro rfl
        exact hlast (List.mem_cons_of_mem _ hc')
      simp_all
    have hopen : state.next '[' = .classStart ∨ state.next '[' = .inside := by
      cases state <;> decide
    rw [heq, after_append hstate, ScanState.after_cons (by decide) (by simp),
      ScanState.after_cons hc.1 fun h => hc.2.1 h.2]
    refine after_closing hmore ?_
    rcases hopen with hopen | hopen <;> rw [hopen]
    · exact .inr ⟨if_neg hc.2.2.1, hclosing⟩
    · by_cases hclose : c = ']'
      · exact .inl (if_pos hclose)
      · exact .inr ⟨if_neg hclose, hclosing⟩
  · refine after_closing (fun c hc => ?_) (.inl rfl)
    have := hmarks name (fun _ => id) c hc
    have hne : c ≠ '[' := fun h => hbracket (h ▸ hc)
    simp_all

/-! ### Openings -/

/-- A header names a group by what stands in it. -/
lemma openingAt_name {sign : List Char} (hsign : sign = ['?', 'P', '<'] ∨ sign = ['?', '<'])
    (hname : IsGroupName name) (index : Nat) (rest : List Char) :
    openingAt index (sign ++ (name ++ '>' :: rest)) =
      ⟨index, sign.length + name.length + 1, .named (String.ofList name)⟩ := by
  have hangle : '>' ∉ name := fun h => absurd (hname.ne h) (by decide)
  have hheader : headerName? (sign ++ (name ++ '>' :: rest)) =
      some (sign.length, name ++ '>' :: rest) := by
    rcases hsign with rfl | rfl
    · rfl
    · cases name with
      | nil => exact hname.elim
      | cons c more =>
        have hc := hname.ne (List.mem_cons_self (a := c))
        refine (headerName?_angle _).trans (if_neg ?_)
        simp_all
  exact openingAt_of_headerName? hheader hangle index

/-- Flags open a group that does not capture. -/
lemma openingAt_flags {letters : List Char} (h : AreFlags letters) {sign : Char}
    (hsign : sign = ':' ∨ sign = ')') (index : Nat) (rest : List Char) :
    openingAt index ('?' :: (letters ++ sign :: rest)) = ⟨index, 0, .nonCapturing⟩ := by
  obtain ⟨c, more, heq, hc⟩ : ∃ c more, letters ++ sign :: rest = c :: more ∧
      c ≠ 'P' ∧ c ≠ '<' := by
    cases letters with
    | nil => exact ⟨sign, rest, rfl, by rcases hsign with rfl | rfl <;> decide⟩
    | cons c letters =>
      have hflags : ∀ c ∈ "imsRUux-".toList, c ≠ 'P' ∧ c ≠ '<' := by simp
      exact ⟨c, _, rfl, hflags c (h c (by simp))⟩
  rcases openingAt_cases index ('?' :: (letters ++ sign :: rest)) with
    ⟨name, hnamed⟩ | ⟨-, hopening⟩ | ⟨hmark, -⟩
  · obtain ⟨sign', body, rfl | rfl, hrest, -⟩ := openingAt_named hnamed
    · rw [heq] at hrest
      cases hrest
      exact absurd rfl hc.1
    · rw [heq] at hrest
      cases hrest
      exact absurd rfl hc.2
  · exact hopening
  · exact absurd rfl hmark

/-- Flags and what ends them hold no mark. -/
lemma isScanMark_flags {letters : List Char} (h : AreFlags letters) {sign : Char}
    (hsign : sign = ':' ∨ sign = ')') : ∀ c ∈ '?' :: (letters ++ [sign]), isScanMark c = false := by
  have hflags : ∀ c ∈ "imsRUux-".toList, isScanMark c = false := by simp [isScanMark]
  intro c hc
  simp only [List.mem_cons, List.mem_append, List.not_mem_nil, or_false] at hc
  rcases hc with rfl | hc | rfl
  · rfl
  · exact hflags c (h c hc)
  · rcases hsign with rfl | rfl <;> rfl

/-! ### Expressions -/

/-- Going through a part, the scan finds what opens there, and what a class exposes. -/
def PassesPart (part : Part) (rest : List Char) : Prop :=
  ∀ index, ∃ extra, scanFrom .outside index (part.text ++ rest) =
      part.openings index ++ (extra ++ scanFrom .outside (index + part.text.length) rest) ∧
    (extra = [] ↔ ¬ part.Exposes)

variable {part : Part} {parts : List Part}

/-- The scan passes a part that has no opening and leaves it outside of classes. -/
lemma passesPart_of_after (hafter : ScanState.after .outside part.text = some .outside)
    (hopenings : ∀ index, part.openings index = []) (hexposes : ¬ part.Exposes) :
    PassesPart part rest := by
  intro index
  refine ⟨[], ?_, by simp [hexposes]⟩
  rw [scanFrom_append hafter, hopenings]
  rfl

/-- The scan passes a parenthesis whose header it reads as it was written. -/
lemma passesPart_of_opening {header : List Char} (htext : part.text = '(' :: header)
    (hheader : ScanState.after .outside header = some .outside)
    (hopenings : ∀ index, part.openings index = [openingAt index (header ++ rest)])
    (hexposes : ¬ part.Exposes) : PassesPart part rest := by
  intro index
  refine ⟨[], ?_, by simp [hexposes]⟩
  rw [htext, List.cons_append, scanFrom_parenthesis, scanFrom_append hheader, hopenings,
    List.length_cons, Nat.add_right_comm, Nat.add_assoc]
  rfl

/-- What is written behind a part is written in some mode. -/
lemma IsWritten.tail (h : IsWritten verbose outer (part :: parts)) :
    ∃ verbose' outer', IsWritten verbose' outer' parts := by
  cases h with
  | remark => exact ⟨true, [], .nil⟩
  | char _ _ h | escape _ h | chars _ h | layout _ h | opening _ _ _ h | switch _ _ _ h
  | closing h => exact ⟨_, _, h⟩

/-- Behind a plain group stands no question mark. -/
lemma head?_text_ne (h : IsWritten verbose outer parts) (hmark : parts.head? ≠ some (.char '?'))
    (hlayout : ∀ text, parts.head? ≠ some (.layout text)) :
    (parts.flatMap Part.text).head? ≠ some '?' := by
  cases h with
  | nil => simp
  | char hc hv => simpa [Part.text] using hmark
  | layout | remark => exact absurd rfl (hlayout _)
  | escape | chars | opening | switch | closing => simp [Part.text]

/-- Layout does not begin with the sign of a group. -/
lemma IsLayout.head?_ne {text : List Char} (h : IsLayout text) : text.head? ≠ some '?' := by
  intro hmark
  rcases h.head hmark with hblank | hsign
  · exact absurd hblank (by decide)
  · exact absurd hsign (by decide)

/-- A text with nothing in it that the scan looks for leaves the scan outside. -/
lemma Unmarked.after {text : List Char} (h : Unmarked text) :
    ScanState.after .outside text = some .outside := after_of_forall_isSilent (.inl rfl) h.isSilent

/-- The scan finds the group that an ordinary header opens, and goes on outside of classes. -/
lemma passesPart_header {gap : List Char} {header : Header} (hgap : IsGap verbose gap)
    (hheader : header.IsWritten)
    (hplain : header = .plain →
      parts.head? ≠ some (.char '?') ∧ ∀ text, parts.head? ≠ some (.layout text))
    (h : IsWritten (header.verbose verbose) (verbose :: outer) parts)
    (hordinary : (Part.opening gap header).IsOrdinary) :
    PassesPart (.opening gap header) (parts.flatMap Part.text) := by
  cases header with
  | plain =>
    obtain ⟨hmark, hnone⟩ := hplain rfl
    have hunmarked : Unmarked gap := hordinary
    refine passesPart_of_opening rfl ?_ (fun index => ?_) id
    · rw [Header.text, List.append_nil]
      exact hunmarked.after
    · rw [Header.text, List.append_nil, Part.openings, openingAt_of_head?_ne]
      rcases hgap with rfl | ⟨-, hgap⟩
      · exact head?_text_ne h hmark hnone
      · cases gap with
        | nil => exact head?_text_ne h hmark hnone
        | cons c gap => exact hgap.head?_ne
  | named sign name =>
    obtain ⟨rfl, hbrackets⟩ := hordinary
    obtain ⟨hsign, hname⟩ := hheader
    have hsigns : ScanState.after .outside sign = some .outside := by
      rcases hsign with rfl | rfl <;> rfl
    refine passesPart_of_opening rfl ?_ (fun index => ?_) id
    · rw [List.nil_append, Header.text, after_append hsigns, after_append (hbrackets.after hname)]
      rfl
    · simp [Part.openings, Header.text, openingAt_name hsign hname]
  | flags letters =>
    obtain rfl : gap = [] := hordinary
    have hmarks := isScanMark_flags hheader (.inl (Eq.refl ':'))
    refine passesPart_of_opening rfl ?_ (fun index => ?_) id
    · exact after_of_forall_not_isScanMark hmarks
    · simp [Part.openings, Header.text, openingAt_flags hheader]

/-- The scan passes every ordinary part, and finds what is exposed in it. -/
lemma passesPart (h : IsWritten verbose outer (part :: parts)) (hordinary : part.IsOrdinary) :
    PassesPart part (parts.flatMap Part.text) := by
  cases h with
  | @char _ _ _ c hc hv =>
    refine passesPart_of_after (after_of_forall_not_isScanMark ?_) (fun _ => rfl) id
    intro c' hc'
    rw [List.mem_singleton.1 hc']
    simp_all [isScanMark]
  | escape => exact passesPart_of_after rfl (fun _ => rfl) id
  | @chars _ _ _ inside hinside =>
    intro index
    obtain ⟨extra, hscan, hextra⟩ := findsExposed_of_isOrdinary hinside hordinary (index + 1)
      (parts.flatMap Part.text)
    refine ⟨extra, ?_, by rw [hextra, exposes_iff]; simp⟩
    rw [Part.text, List.cons_append, scanFrom_cons (by simp) (by simp)]
    change scanFrom .classStart _ _ = extra ++ _
    rw [hscan, List.length_cons, Nat.add_right_comm, Nat.add_assoc]
  | layout | remark =>
    have hunmarked : Unmarked _ := hordinary
    exact passesPart_of_after hunmarked.after (fun _ => rfl) id
  | opening hgap hheader hplain h => exact passesPart_header hgap hheader hplain h hordinary
  | @switch _ _ _ gap letters hgap hne hletters =>
    obtain rfl : gap = [] := hordinary
    have hmarks := isScanMark_flags hletters (.inr (Eq.refl ')'))
    refine passesPart_of_opening rfl ?_ (fun index => ?_) id
    · exact after_of_forall_not_isScanMark hmarks
    · simp [Part.openings, openingAt_flags hletters]
  | closing => exact passesPart_of_after rfl (fun _ => rfl) id

/-- What is exposed comes on top of what opens. The induction is on what is written. -/
lemma scanFrom_parts (h : IsWritten verbose outer parts)
    (hordinary : ∀ part ∈ parts, part.IsOrdinary) (index : Nat) :
    (openings index parts).Sublist (scanFrom .outside index (parts.flatMap Part.text)) ∧
      (scanFrom .outside index (parts.flatMap Part.text) = openings index parts ↔
        ∀ part ∈ parts, ¬ part.Exposes) := by
  induction parts generalizing verbose outer index with
  | nil => exact ⟨.slnil, by simp [openings, scanFrom]⟩
  | cons part parts ih =>
    obtain ⟨hpart, hparts⟩ := List.forall_mem_cons.1 hordinary
    obtain ⟨verbose', outer', hlater⟩ := h.tail
    obtain ⟨extra, hscan, hextra⟩ := passesPart h hpart index
    obtain ⟨hsub, hiff⟩ := ih hlater hparts (index + part.text.length)
    rw [List.flatMap_cons, hscan, openings, List.forall_mem_cons, ← hextra, ← hiff]
    refine ⟨(hsub.trans (List.sublist_append_right _ _)).append_left _, ?_⟩
    rw [List.append_cancel_left_eq]
    constructor
    · intro heq
      have hlength := congrArg List.length heq
      have hle := hsub.length_le
      rw [List.length_append] at hlength
      obtain rfl : extra = [] := List.eq_nil_of_length_eq_zero (by omega)
      exact ⟨rfl, heq⟩
    · rintro ⟨rfl, heq⟩
      exact heq

/-! ### Names of groups -/

def GroupKind.name? : GroupKind → Option String
  | .named name => some name
  | _ => none

lemma namedGroups_eq (pattern : String) :
    namedGroups pattern = (scan pattern).filterMap fun g => g.kind.name? := rfl

/-- The names of an expression are those of its openings. -/
lemma names_eq (index : Nat) (parts : List Part) :
    names parts = (openings index parts).filterMap fun g => g.kind.name? := by
  induction parts generalizing index with
  | nil => rfl
  | cons part parts ih =>
    have hpart : part.name?.toList = (part.openings index).filterMap fun g => g.kind.name? := by
      cases part with
      | opening gap header => cases header <;> rfl
      | _ => rfl
    rw [openings, List.filterMap_append, ← ih, ← hpart, names, List.filterMap_cons]
    cases part.name? <;> rfl

/-- The groups that the scan finds in a pattern with ordinary parts only are all groups of the
expression, and they are no others if and only if no class exposes a parenthesis. In particular, no
name is missed, and then the names are those of the expression, in their order. -/
theorem namedGroups_eq_captureNames [Libraries] {parts : String → List Part}
    {captureNames : String → List String} (hdocumented : IsDocumented parts captureNames)
    {pattern : String} (hpattern : Libraries.isPattern pattern = true)
    (hordinary : ∀ part ∈ parts pattern, part.IsOrdinary) :
    (captureNames pattern).Sublist (namedGroups pattern) ∧
      (scan pattern = openings 0 (parts pattern) ↔ ∀ part ∈ parts pattern, ¬ part.Exposes) ∧
      ((∀ part ∈ parts pattern, ¬ part.Exposes) → namedGroups pattern = captureNames pattern) := by
  obtain ⟨htext, hwritten⟩ := hdocumented.reads hpattern
  obtain ⟨hsub, hiff⟩ := scanFrom_parts hwritten hordinary 0
  rw [← htext] at hsub hiff
  rw [hdocumented.names hpattern, namedGroups_eq, names_eq 0]
  refine ⟨hsub.filterMap _, hiff, fun hnone => ?_⟩
  rw [scan, hiff.2 hnone]

/-- A character with no meaning of its own can stand anywhere in a class. -/
lemma Inside.letter {place : ClassPlace} {depth : Nat} {parts : List ClassPart} {c : Char}
    (hc : c ∉ ['\\', '[', ']', '^', '-', '#'] ∧ Text.isBlank c = false)
    (h : Inside verbose .inside depth parts) : Inside verbose place depth (.char c :: parts) := by
  obtain ⟨hc, hblank⟩ := hc
  simp only [List.mem_cons, List.not_mem_nil, or_false, not_or] at hc
  refine .char (by simp [hc]) (fun _ => hc.2.2.2.1) (fun _ => ⟨hblank, hc.2.2.2.2.2⟩) ?_
  rwa [ClassPlace.behind, if_neg hc.2.2.2.2.1]

/-- The parts of `(?x)[a[b]c]\((?<d[1]>e) # f`. -/
def verboseParts : List Part :=
  [.switch [] ['x'],
    .chars [.char 'a', .opening, .char 'b', .closing, .char 'c', .closing],
    .escape '(', .opening [] (.named ['?', '<'] ['d', '[', '1', ']']), .char 'e', .closing,
    .layout [' '], .layout "# f".toList]

/-- The parts of `[a[b](?<x>c]`. -/
def exposingParts : List Part :=
  [.chars [.char 'a', .opening, .char 'b', .closing, .char '(', .char '?', .char '<', .char 'x',
    .char '>', .char 'c', .closing]]

lemma isReading_verboseParts : IsReading verboseParts "(?x)[a[b]c]\\((?<d[1]>e) # f" where
  text := by decide
  written := by
    have hclass : Inside true .start 0
        [.char 'a', .opening, .char 'b', .closing, .char 'c', .closing] :=
      .letter (by decide) <| .opening <| .letter (by decide) <| .innerClosing (.inr rfl) <|
        .letter (by decide) <| .closing (.inr rfl)
    have hlayout : IsWritten true [] [.layout [' '], .layout "# f".toList] :=
      .layout (.blank (by decide) .nil) <| .remark (show '\n' ∉ " f".toList by decide)
    exact .switch (.inl rfl) (by decide) (by decide) <| .chars hclass <| .escape '(' <|
      .opening (.inl rfl) ⟨.inr rfl, by decide⟩ nofun <| .char (by decide) (fun _ => by decide) <|
      .closing hlayout

lemma isReading_exposingParts : IsReading exposingParts "[a[b](?<x>c]" where
  text := by decide
  written := by
    refine .chars (.letter (by decide) <| .opening <| .letter (by decide) <|
      .innerClosing (.inr rfl) ?_) .nil
    repeat refine .letter (by decide) ?_
    exact .closing (.inr rfl)

/-- A library that accepts two patterns. -/
abbrev twoPatterns : Libraries where
  isPattern text := text = "(?x)[a[b]c]\\((?<d[1]>e) # f" || text = "[a[b](?<x>c]"
  isInstant _ := false
  isDate _ _ := false
  isDateTime _ _ := false

/-- The parts of the two patterns. -/
def twoReadings (pattern : String) : List Part :=
  if pattern = "[a[b](?<x>c]" then exposingParts else verboseParts

/-- The names of the groups in the two patterns. -/
def twoNames (pattern : String) : List String :=
  if pattern = "[a[b](?<x>c]" then [] else ["d[1]"]

/-- The library reads its two patterns as the documentation of such libraries says. -/
lemma isDocumented_twoPatterns : @IsDocumented twoPatterns twoReadings twoNames := by
  have hcases : ∀ pattern, twoPatterns.isPattern pattern = true →
      pattern = "(?x)[a[b]c]\\((?<d[1]>e) # f" ∨ pattern = "[a[b](?<x>c]" :=
    fun _ h => (Bool.or_eq_true_iff.1 h).imp of_decide_eq_true of_decide_eq_true
  refine @IsDocumented.mk twoPatterns _ _ (fun {pattern} h => ?_) (fun {pattern} h => ?_)
  · rcases hcases pattern h with rfl | rfl
    · exact isReading_verboseParts
    · exact isReading_exposingParts
  · rcases hcases pattern h with rfl | rfl <;> rfl

/-- In most classes nothing is rare. -/
lemma isOrdinary_chars {inside : List ClassPart} (hbound : .char '[' ∉ inside)
    (hfirst : .first ∉ inside) (hlayout : ∀ text, .layout text ∉ inside) :
    (Part.chars inside).IsOrdinary := by
  refine ⟨hbound, fun text htext => absurd htext (hlayout text), fun before behind heq => ?_⟩
  rw [heq] at hfirst
  simp at hfirst

lemma closesBrackets_index : ClosesBrackets ['d', '[', '1', ']'] := by
  intro before behind heq hlast
  match before with
  | [] => cases heq
  | [c] =>
    cases heq
    exact ⟨'1', [']'], rfl, by decide⟩
  | c :: c' :: before =>
    have hmem : '[' ∈ ['1', ']'] := by
      rw [(List.cons.inj (List.cons.inj heq).2).2]
      simp
    exact absurd hmem (by decide)

lemma isOrdinary_verboseParts : ∀ part ∈ verboseParts, part.IsOrdinary := by
  simp only [verboseParts, List.forall_mem_cons]
  exact ⟨rfl, isOrdinary_chars (by decide) (by decide) (by simp), trivial,
    ⟨rfl, closesBrackets_index⟩, trivial, trivial, show Unmarked _ by decide,
    show Unmarked _ by decide, nofun⟩

lemma not_exposes_verboseParts : ∀ part ∈ verboseParts, ¬ part.Exposes := by
  have hclass : ¬ (Part.chars [.char 'a', .opening, .char 'b', .closing, .char 'c',
      .closing]).Exposes := by
    rintro ⟨before, between, behind, heq, -⟩
    have hmem := congrArg (ClassPart.char '(' ∈ ·) heq
    simp at hmem
  simp only [verboseParts, List.forall_mem_cons]
  exact ⟨id, hclass, id, id, id, id, id, id, nofun⟩

lemma isOrdinary_exposingParts : ∀ part ∈ exposingParts, part.IsOrdinary := by
  simp only [exposingParts, List.forall_mem_cons]
  exact ⟨isOrdinary_chars (by decide) (by decide) (by simp), nofun⟩

/-- Whether a class has another inside does not matter if no parenthesis follows, and in the other
pattern a class is taken for the group `x`. -/
theorem namedGroups_eq_captureNames_verbose :
    @IsDocumented twoPatterns twoReadings twoNames ∧
    (twoPatterns.isPattern "(?x)[a[b]c]\\((?<d[1]>e) # f" = true ∧
      (∀ part ∈ verboseParts, part.IsOrdinary) ∧
      namedGroups "(?x)[a[b]c]\\((?<d[1]>e) # f" = ["d[1]"]) ∧
    twoPatterns.isPattern "[a[b](?<x>c]" = true ∧
      (∀ part ∈ exposingParts, part.IsOrdinary) ∧
      scan "[a[b](?<x>c]" ≠ openings 0 exposingParts ∧
      namedGroups "[a[b](?<x>c]" = ["x"] ∧ names exposingParts = [] := by
  have hverbose : twoPatterns.isPattern "(?x)[a[b]c]\\((?<d[1]>e) # f" = true := by decide
  have hexposing : twoPatterns.isPattern "[a[b](?<x>c]" = true := by decide
  refine ⟨isDocumented_twoPatterns, ⟨hverbose, isOrdinary_verboseParts, ?_⟩, hexposing,
    isOrdinary_exposingParts, ?_, by decide, rfl⟩
  · exact (@namedGroups_eq_captureNames twoPatterns _ _ isDocumented_twoPatterns _ hverbose
      isOrdinary_verboseParts).2.2 not_exposes_verboseParts
  · have hexact := (@namedGroups_eq_captureNames twoPatterns _ _ isDocumented_twoPatterns _
      hexposing isOrdinary_exposingParts).2.1
    intro heq
    refine hexact.1 heq _ (List.mem_singleton_self _) ?_
    exact ⟨[.char 'a', .opening, .char 'b'], [], _, rfl, by simp⟩

-- what is rare can lead the scan astray: a name that does not close its bracket, a bracket that
-- ends a range, and layout in front of the sign of a group
example : namedGroups "(?<a[b>c)(?<d>e)" = ["a[b"] := by decide

example : namedGroups "[[a]A-[](?<d>e)" = [] := by decide

example : namedGroups "(?x)( ?<x>c)" = [] := by decide

end LogQuery.Pattern
