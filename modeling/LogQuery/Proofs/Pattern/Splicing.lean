import LogQuery.Compile.Pipeline
import LogQuery.Proofs.Pattern.Isolation
import Mathlib.Data.List.Chain

/-!
# When a pattern can be taken apart

A group that is found by its name is passed only as far as its parenthesis: the scan goes on inside
its header. So a name can have openings of groups in it, as in `(?P<a(b>x)`, and then the text
between the header and the next opening would have to run backwards. Taking the pattern apart by
slices with bounds that are checked (`isolateGroup?`) shows what comes of it.

Every header ends inside the pattern. Whether openings follow one another is decided by the names
alone, each read with the angle bracket behind it (`pairwise_scan_iff`), and
`splices_forward_iff` says so of the slices, and of the pipelines that break down.
-/

namespace LogQuery.Pattern

/-- The index behind the opening of a group and its header. -/
def GroupOpening.behind (g : GroupOpening) : Nat := g.start + 1 + g.headerLength

/-! ### Headers end inside the pattern -/

/-- The header of an opening ends in the pattern. -/
lemma behind_openingAt_le (index : Nat) (rest : List Char) :
    (openingAt index rest).behind ≤ index + 1 + rest.length := by
  rcases openingAt_cases index rest with ⟨name, hname⟩ | ⟨-, hopening⟩ | ⟨-, hopening⟩
  · obtain ⟨sign, body, -, rfl, -, hopening⟩ := openingAt_named hname
    rw [hopening, GroupOpening.behind]
    simp only [List.length_append, List.length_cons, String.length_toList]
    omega
  · rw [hopening]
    exact Nat.le_add_right _ _
  · rw [hopening]
    exact Nat.le_add_right _ _

lemma behind_le_of_mem_scanFrom {state : ScanState} {index : Nat} {cs : List Char} :
    ∀ g ∈ scanFrom state index cs, g.behind ≤ index + cs.length := by
  fun_induction scanFrom state index cs with
  | case1 => simp
  | case2 _ index _ rest ih =>
    intro g hg
    have := ih g hg
    simp only [List.length_cons]
    omega
  | case3 _ index c rest _ later _ ih =>
    intro g hg
    rw [List.length_cons]
    rcases List.mem_cons.1 hg with rfl | hg
    · have := behind_openingAt_le index rest
      omega
    · have := ih g hg
      omega
  | case4 _ index c rest _ later _ ih =>
    intro g hg
    have := ih g hg
    rw [List.length_cons]
    omega

/-! ### Names with openings in them -/

/-- What follows a closing angle bracket has no part in whether a header has a name. -/
lemma headerName?_behind {front after behind : List Char} {length : Nat}
    (h : headerName? (front ++ '>' :: behind) = some (length, after)) (behind' : List Char) :
    ∃ name, after = name ++ '>' :: behind ∧
      headerName? (front ++ '>' :: behind') = some (length, name ++ '>' :: behind') := by
  obtain ⟨sign, hsign, -, hrest⟩ := headerName?_eq_some h
  have hangle : '>' ∉ sign := by
    rcases hsign with rfl | rfl <;> decide
  have hfront : ∃ name, front = sign ++ name ∧ after = name ++ '>' :: behind := by
    rcases List.append_eq_append_iff.1 hrest with ⟨more, rfl, hmore⟩ | ⟨name, rfl, rfl⟩
    · cases more with
      | nil => exact ⟨[], by simp, hmore.symm⟩
      | cons c more =>
        cases hmore
        simp at hangle
    · exact ⟨name, rfl, rfl⟩
  obtain ⟨name, rfl, rfl⟩ := hfront
  refine ⟨name, rfl, ?_⟩
  rw [List.append_assoc] at h ⊢
  refine headerName?_congr hsign ?_ h
  cases name <;> rfl

lemma takeWhile_angle (name behind : List Char) :
    (name ++ '>' :: behind).takeWhile (· != '>') = name.takeWhile (· != '>') := by
  induction name with
  | nil => rfl
  | cons c name ih => simp [List.takeWhile_cons, ih]

/-- What kind of group opens is decided by the text up to a closing angle bracket. -/
lemma kind_openingAt_behind (index index' : Nat) (front behind behind' : List Char) :
    (openingAt index (front ++ '>' :: behind)).kind =
      (openingAt index' (front ++ '>' :: behind')).kind := by
  have hhead : (front ++ '>' :: behind).head? = (front ++ '>' :: behind').head? := by
    cases front <;> rfl
  rw [openingAt, openingAt, hhead]
  cases h : headerName? (front ++ '>' :: behind) with
  | some found =>
    obtain ⟨length, after⟩ := found
    obtain ⟨name, rfl, h'⟩ := headerName?_behind h behind'
    simp [h', takeWhile_angle]
  | none =>
    cases h' : headerName? (front ++ '>' :: behind') with
    | none => rfl
    | some found =>
      obtain ⟨length, after⟩ := found
      obtain ⟨name, rfl, hsome⟩ := headerName?_behind h' behind
      rw [h] at hsome
      cases hsome

/-- The groups that open in a name, read with the closing angle bracket behind it. -/
def openingsIn (name : String) : List GroupOpening := scan (name ++ ">")

/-- The end of a name is a character like others to the scan. -/
lemma scanFrom_angle (state : ScanState) (index : Nat) (behind : List Char) :
    scanFrom state index ('>' :: behind) = scanFrom (state.next '>') (index + 1) behind :=
  scanFrom_cons (by simp) nofun

/-- The groups that open in a name are those that open in it if nothing but the closing angle
bracket follows. The induction is along the scan of the name. -/
lemma exists_opening_iff {state : ScanState} {index : Nat} {name : List Char} (index' : Nat)
    (behind : List Char) (kind : GroupKind) :
    (∃ h ∈ scanFrom state index (name ++ '>' :: behind),
        h.start < index + name.length + 1 ∧ h.kind = kind) ↔
      ∃ h ∈ scanFrom state index' (name ++ ['>']), h.kind = kind := by
  fun_induction scanFrom state index name generalizing index' with
  | case1 state index =>
    rw [List.nil_append, List.nil_append, scanFrom_angle, scanFrom_angle, scanFrom]
    have hleast := (ascending_scanFrom (state.next '>') (index + 1) behind).least
    constructor
    · rintro ⟨h, hh, hlt, -⟩
      exact absurd (hleast h hh) (Nat.not_le.2 hlt)
    · rintro ⟨h, hh, -⟩
      cases hh
  | case2 state index c rest ih =>
    rw [List.cons_append, List.cons_append, List.cons_append, List.cons_append, scanFrom_escaped,
      scanFrom_escaped, ← ih]
    simp only [List.length_cons, Nat.add_assoc, Nat.add_comm 2]
  | case3 state index c rest _ later hopens ih =>
    obtain ⟨rfl, rfl⟩ := hopens
    have hkind := kind_openingAt_behind index index' rest behind []
    have hbound : index + ('(' :: rest).length + 1 = index + 1 + rest.length + 1 := by
      rw [List.length_cons]
      omega
    rw [List.cons_append, List.cons_append, scanFrom_parenthesis, scanFrom_parenthesis, hbound]
    simp only [List.mem_cons, or_and_right, exists_or, exists_eq_left, start_openingAt, hkind]
    exact or_congr (and_iff_right (by omega)) (ih (index' + 1))
  | case4 state index c rest hescape later hopens ih =>
    by_cases hback : c = '\\'
    · -- The name ends with a backslash, which escapes the angle bracket.
      have hrest : rest = [] := by
        cases rest with
        | nil => rfl
        | cons c' rest => exact absurd rfl (hescape c' rest hback)
      subst hback hrest
      rw [List.cons_append, List.cons_append, List.nil_append, List.nil_append, scanFrom_escaped,
        scanFrom_escaped, scanFrom]
      have hleast := (ascending_scanFrom state.behindItem (index + 2) behind).least
      constructor
      · rintro ⟨h, hh, hlt, -⟩
        exact absurd (hleast h hh) (Nat.not_le.2 hlt)
      · rintro ⟨h, hh, -⟩
        cases hh
    · have hpass : ∀ (index : Nat) (behind : List Char),
          scanFrom state index (c :: behind) = scanFrom (state.next c) (index + 1) behind :=
        fun index behind => scanFrom_cons hopens fun hc => absurd hc hback
      rw [List.cons_append, List.cons_append, hpass, hpass, ← ih]
      simp only [List.length_cons, Nat.add_assoc, Nat.add_comm 1]

section Pairwise

variable {p q : GroupKind → Prop} (hq : ∀ name, q (.named name))
include hq

/-- An opening reaches over no later one of some kinds just if none of these kinds opens in its
name. -/
lemma forall_behind_le_iff (index : Nat) (rest : List Char) :
    (∀ h ∈ scanFrom .outside (index + 1) rest, q (openingAt index rest).kind → p h.kind →
        (openingAt index rest).behind ≤ h.start) ↔
      ∀ name, (openingAt index rest).kind = .named name → ∀ h ∈ openingsIn name, ¬ p h.kind := by
  have hleast := (ascending_scanFrom .outside (index + 1) rest).least
  rcases openingAt_cases index rest with ⟨name, hname⟩ | ⟨-, hopening⟩ | ⟨-, hopening⟩
  · obtain ⟨sign, body, hsign, rfl, -, hopening⟩ := openingAt_named hname
    have hscan := scanFrom_append (after_of_forall_not_isScanMark hsign.isScanMark) (index + 1)
      (name.toList ++ '>' :: body)
    have hin : openingsIn name = scanFrom .outside 0 (name.toList ++ ['>']) := by
      simp [openingsIn, scan]
    have hbehind : (openingAt index (sign ++ (name.toList ++ '>' :: body))).behind =
        index + 1 + sign.length + name.toList.length + 1 := by
      rw [hopening, GroupOpening.behind, String.length_toList]
      simp only [Nat.add_assoc]
    rw [hscan, hbehind, hopening]
    constructor
    · intro h _ hkind g hg hp
      cases hkind
      rw [hin] at hg
      obtain ⟨h', hh', hlt, hkind⟩ := (exists_opening_iff 0 body g.kind).2 ⟨g, hg, rfl⟩
      exact absurd (h h' hh' (hq name) (hkind ▸ hp)) (Nat.not_le.2 hlt)
    · intro h g hg _ hp
      by_contra hlt
      obtain ⟨h', hh', hkind⟩ :=
        (exists_opening_iff 0 body g.kind).1 ⟨g, hg, Nat.not_le.1 hlt, rfl⟩
      rw [← hin] at hh'
      exact h name rfl h' hh' (hkind ▸ hp)
  · rw [hopening]
    exact iff_of_true (fun h hh _ _ => hleast h hh) (by rintro _ ⟨⟩)
  · rw [hopening]
    exact iff_of_true (fun h hh _ _ => hleast h hh) (by rintro _ ⟨⟩)

/-- The induction is along the scan. -/
lemma pairwise_scanFrom_iff (state : ScanState) (index : Nat) (cs : List Char) :
    (scanFrom state index cs).Pairwise (fun g h => q g.kind → p h.kind → g.behind ≤ h.start) ↔
      ∀ g ∈ scanFrom state index cs, ∀ name, g.kind = .named name →
        ∀ h ∈ openingsIn name, ¬ p h.kind := by
  fun_induction scanFrom state index cs with
  | case1 => simp
  | case2 _ _ _ _ ih => exact ih
  | case3 _ index _ rest _ later hopens ih =>
    obtain ⟨rfl, rfl⟩ := hopens
    rw [List.pairwise_cons, List.forall_mem_cons]
    exact and_congr (forall_behind_le_iff hq index rest) ih
  | case4 _ _ _ _ _ later _ ih => exact ih

/-- Openings of some kinds, all named ones among them, follow one another just if none that has to
follow is in a name. -/
theorem pairwise_scan_iff (pattern : String) :
    (scan pattern).Pairwise (fun g h => q g.kind → p h.kind → g.behind ≤ h.start) ↔
      ∀ name ∈ namedGroups pattern, ∀ h ∈ openingsIn name, ¬ p h.kind := by
  simp only [mem_namedGroups_iff]
  rw [scan, pairwise_scanFrom_iff hq]
  constructor
  · rintro h name ⟨g, hg, hkind⟩
    exact h g hg name hkind
  · intro h g hg name hkind
    exact h name ⟨g, hg, hkind⟩

end Pairwise

/-! ### Slices with checked bounds -/

/-- The part of a text between two indices, unless it runs backwards or out of the text. -/
def slice? (cs : List Char) (first last : Nat) : Option (List Char) :=
  if first ≤ last ∧ last ≤ cs.length then some ((cs.drop first).take (last - first)) else none

/-- The text from an index on, with the openings of groups replaced, put together from slices. -/
def spliceFrom? (pattern : List Char) (name : String) (done : Nat) :
    List GroupOpening → Option (List Char)
  | [] => slice? pattern done pattern.length
  | g :: rest =>
    match isolatedOpening name g.kind with
    | none => spliceFrom? pattern name done rest
    | some opening => do
      let text ← slice? pattern done g.start
      let later ← spliceFrom? pattern name g.behind rest
      return text ++ opening ++ later

/-- The pattern in which the group of a name alone captures, put together from slices. -/
def isolateGroup? (pattern name : String) : Option String :=
  (spliceFrom? pattern.toList name 0 (scan pattern)).map String.ofList

/-- No group that captures opens in a name. -/
def namesAreQuiet (pattern : String) : Bool :=
  (namedGroups pattern).all fun name => (openingsIn name).all fun g => g.kind = .nonCapturing

lemma isolatedOpening_eq_none {name : String} {kind : GroupKind} :
    isolatedOpening name kind = none ↔ kind = .nonCapturing := by
  cases kind <;> simp [isolatedOpening]

/-- Slices are found just if the groups follow one another. The induction is on the openings. -/
lemma spliceFrom?_eq (pattern : List Char) (name : String) {done : Nat}
    {openings : List GroupOpening} (hdone : done ≤ pattern.length)
    (h : ∀ g ∈ openings, g.behind ≤ pattern.length) :
    spliceFrom? pattern name done openings =
      if followFrom done openings then some (spliceFrom pattern name done openings) else none := by
  induction openings generalizing done with
  | nil =>
    have hrest : (pattern.drop done).take (pattern.length - done) = pattern.drop done :=
      List.take_of_length_le (by rw [List.length_drop])
    simp [spliceFrom?, slice?, hdone, hrest, followFrom, spliceFrom]
  | cons g rest ih =>
    have hbehind := h g (by simp)
    have hstart : g.start ≤ pattern.length := by
      rw [GroupOpening.behind] at hbehind
      omega
    have hrest : ∀ g ∈ rest, g.behind ≤ pattern.length := fun g' hg' => h g' (by simp [hg'])
    rw [spliceFrom?, spliceFrom, followFrom]
    cases hopening : isolatedOpening name g.kind with
    | none =>
      rw [if_pos (isolatedOpening_eq_none.1 hopening)]
      exact ih hdone hrest
    | some opening =>
      have hkind : g.kind ≠ .nonCapturing := by
        intro hkind
        rw [isolatedOpening_eq_none.2 hkind] at hopening
        cases hopening
      have hlater := ih hbehind hrest
      rw [if_neg hkind, hlater, slice?]
      change _ = if (decide (done ≤ g.start) && followFrom g.behind rest) = true then
        some ((pattern.drop done).take (g.start - done) ++ opening ++
          spliceFrom pattern name g.behind rest) else none
      by_cases hforward : done ≤ g.start
      · cases followFrom g.behind rest <;> simp [hforward, hstart]
      · simp [hforward]

/-- Groups follow one another if each begins behind the headers of those in front of it, leaving out
those that are not replaced. -/
lemma followFrom_iff {index done : Nat} {openings : List GroupOpening}
    (h : Ascending index openings) :
    followFrom done openings = true ↔
      (∀ g ∈ openings, g.kind ≠ .nonCapturing → done ≤ g.start) ∧
        openings.Pairwise fun g h =>
          g.kind ≠ .nonCapturing → h.kind ≠ .nonCapturing → g.behind ≤ h.start := by
  induction openings generalizing index done with
  | nil => simp [followFrom]
  | cons g rest ih =>
    obtain ⟨hrest, hpairwise⟩ := List.pairwise_cons.1 h.pairwise
    have htail : Ascending g.start rest := ⟨hrest, hpairwise⟩
    rw [followFrom, List.forall_mem_cons, List.pairwise_cons]
    split_ifs with hkind
    · rw [ih htail]
      simp [hkind]
    · rw [Bool.and_eq_true, decide_eq_true_eq]
      change _ ∧ followFrom g.behind rest = true ↔ _
      rw [ih htail]
      constructor
      · rintro ⟨hdone, hbehind, hlater⟩
        exact ⟨⟨fun _ => hdone, fun g' hg' _ => hdone.trans (hrest g' hg')⟩,
          fun g' hg' _ => hbehind g' hg', hlater⟩
      · rintro ⟨⟨hdone, -⟩, hbehind, hlater⟩
        exact ⟨hdone hkind, fun g' hg' => hbehind g' hg' hkind, hlater⟩

/-- The headers of a pattern are apart exactly if no group that captures opens in a name. -/
lemma headersAreApart_eq (pattern : String) :
    headersAreApart pattern = namesAreQuiet pattern := by
  have hpairwise := pairwise_scan_iff (p := (· ≠ .nonCapturing)) (q := (· ≠ .nonCapturing))
    nofun pattern
  have hascending := ascending_scanFrom .outside 0 pattern.toList
  rw [Bool.eq_iff_iff, headersAreApart, scan, followFrom_iff hascending,
    and_iff_right (fun _ _ _ => Nat.zero_le _), ← scan, hpairwise, namesAreQuiet]
  simp

/-- Consecutive openings follow one another just if all do. -/
lemma isChain_iff (pattern : String) :
    (scan pattern).IsChain (fun g h => g.behind ≤ h.start) ↔
      ∀ name ∈ namedGroups pattern, openingsIn name = [] := by
  let r (g h : GroupOpening) : Prop := g.behind ≤ h.start
  have htrans : ∀ {g h k}, r g h → r h k → r g k := by
    intro g h k hgh hhk
    have hstart : h.start ≤ h.behind := Nat.le_trans (Nat.le_succ _) (Nat.le_add_right _ _)
    exact hgh.trans (hstart.trans hhk)
  have : Trans r r r := ⟨htrans⟩
  have hpairwise := pairwise_scan_iff (p := fun _ => True) (q := fun _ => True)
    (fun _ => trivial) pattern
  simp only [not_true, true_implies, imp_false, ← List.eq_nil_iff_forall_not_mem] at hpairwise
  exact List.isChain_iff_pairwise.trans hpairwise

/-- Slices are found just if no group that captures opens in a name. -/
lemma isolateGroup?_eq (pattern name : String) :
    isolateGroup? pattern name =
      if namesAreQuiet pattern then some (isolateGroup pattern name) else none := by
  have hbehind : ∀ g ∈ scan pattern, g.behind ≤ pattern.toList.length := by
    intro g hg
    have := behind_le_of_mem_scanFrom g hg
    omega
  rw [isolateGroup?, spliceFrom?_eq pattern.toList name (Nat.zero_le _) hbehind,
    ← headersAreApart, headersAreApart_eq]
  split_ifs <;> rfl

/-! ### Pipelines that break down -/

/-- A stage is entangled if some group of its pattern cannot be isolated. -/
lemma isEntangled_iff {stage : Stage} :
    stage.isEntangled = true ↔ ∃ field pattern, stage = .rex field pattern ∧
      ∃ name ∈ namedGroups pattern, isolateGroup? pattern name = none := by
  cases stage with
  | rex field pattern =>
    have hnone : (∃ name ∈ namedGroups pattern, isolateGroup? pattern name = none) ↔
        namedGroups pattern ≠ [] ∧ namesAreQuiet pattern = false := by
      simp only [isolateGroup?_eq]
      cases namesAreQuiet pattern <;> simp [List.eq_nil_iff_forall_not_mem]
    rw [Stage.isEntangled, headersAreApart_eq]
    simp [hnone]
  | _ => simp [Stage.isEntangled]

/-- The making of a statement breaks down in ClickHouse if some group of a pattern cannot be
isolated. -/
lemma breaksDown_iff {p : Pipeline} {d : Dialect} :
    p.breaksDown d = true ↔ d = .clickHouse ∧
      ∃ field pattern, Stage.rex field pattern ∈ p.stages ∧
        ∃ name ∈ namedGroups pattern, isolateGroup? pattern name = none := by
  rw [Pipeline.breaksDown, Bool.and_eq_true, decide_eq_true_eq, List.any_eq_true]
  refine and_congr_right fun _ => ?_
  constructor
  · rintro ⟨stage, hstage, hentangled⟩
    obtain ⟨field, pattern, rfl, hname⟩ := isEntangled_iff.1 hentangled
    exact ⟨field, pattern, hstage, hname⟩
  · rintro ⟨field, pattern, hstage, hname⟩
    exact ⟨_, hstage, isEntangled_iff.2 ⟨field, pattern, rfl, hname⟩⟩

/-- A query breaks down only where a statement for it would have been made. -/
lemma outcome_eq_brokenDown [Libraries] {p : Pipeline} {target : Target} {defaultLimit : Nat}
    {earliest latest : Option String} :
    p.outcome target defaultLimit earliest latest = .brokenDown ↔
      p.breaksDown target.dialect = true ∧
        ∃ sql, p.compile target defaultLimit earliest latest = .ok sql := by
  rw [Pipeline.outcome]
  cases p.compile target defaultLimit earliest latest with
  | error e => simp
  | ok sql => cases p.breaksDown target.dialect <;> simp

/-- Every header ends inside its pattern. Consecutive openings follow one another just if no group
opens in a name, and all slices of a pattern, whichever group is isolated, run forward just if no
group that captures opens in a name. The making of a statement breaks down just if a stage extracts
a group that cannot be isolated by such slices, for the dialect that takes patterns apart. -/
theorem splices_forward_iff [Libraries] (pattern : String) (p : Pipeline) (target : Target)
    (defaultLimit : Nat) (earliest latest : Option String) :
    ((∀ g ∈ scan pattern, g.behind ≤ pattern.length) ∧
      ((scan pattern).IsChain (fun g h => g.behind ≤ h.start) ↔
        ∀ name ∈ namedGroups pattern, openingsIn name = []) ∧
      ∀ name, isolateGroup? pattern name =
        if namesAreQuiet pattern then some (isolateGroup pattern name) else none) ∧
    (p.outcome target defaultLimit earliest latest = .brokenDown ↔
      (target.dialect = .clickHouse ∧
        ∃ field pattern, Stage.rex field pattern ∈ p.stages ∧
          ∃ name ∈ namedGroups pattern, isolateGroup? pattern name = none) ∧
      ∃ sql, p.compile target defaultLimit earliest latest = .ok sql) := by
  refine ⟨⟨fun g hg => ?_, isChain_iff pattern, isolateGroup?_eq pattern⟩, ?_⟩
  · have hle := behind_le_of_mem_scanFrom g hg
    rwa [Nat.zero_add, String.length_toList] at hle
  · rw [outcome_eq_brokenDown, breaksDown_iff]

/-- In `(?P<a(b>x)` a group opens in the name of another. -/
example :
    (scan "(?P<a(b>x)").map (fun g => (g.start, g.behind)) = [(0, 8), (5, 6)] ∧
      isolateGroup? "(?P<a(b>x)" "a(b" = none := by
  decide

end LogQuery.Pattern
