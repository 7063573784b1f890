import LogQuery.CommandLine.Libraries
import LogQuery.Proofs.Compile.Layout
import LogQuery.Proofs.Parser.Gluing.Calls

namespace LogQuery

open Lexer
open LogQuery.Parser (isGluable splitTouching GluesAt glue)

/-! ### Parts of a query -/

lemma extract_append {cs : List Char} {start mid stop : Nat} (h : start ≤ mid) (h' : mid ≤ stop) :
    cs.extract start mid ++ cs.extract mid stop = cs.extract start stop := by
  have hlength : stop - start = (mid - start) + (stop - mid) := by omega
  have hmid : start + (mid - start) = mid := by omega
  rw [List.extract_eq_take_drop, List.extract_eq_take_drop, List.extract_eq_take_drop, hlength,
    List.take_add, List.drop_drop, hmid]

/-- A text that is glued from tokens in a row is the part of a query that begins with the first of
them and ends with the last, and has no blank in it. -/
structure IsSlice (cs : List Char) (glued : List Token) (text : String) (start stop : Nat) :
    Prop where
  first : ∃ t ∈ glued.head?, ∃ mid, t.StandsAt cs start mid
  last : ∃ t ∈ glued.getLast?, ∃ mid, t.StandsAt cs mid stop
  start_le : start ≤ stop
  stop_le : stop ≤ cs.length
  text_eq : text.toList = cs.extract start stop
  unbroken : ∀ c ∈ text.toList, Text.isBlank c = false

/-- Behind an offset of a query the next token is none that may be glued, or there is a gap in front
of it. -/
def StandsApart (cs : List Char) (stop : Nat) (next : Token) : Prop :=
  isGluable next.kind = true → ∃ start' stop', next.StandsAt cs start' stop' ∧ stop < start'

lemma IsSlice.append {cs : List Char} {glued glued' : List Token} {text text' : String}
    {start mid stop : Nat} (h : IsSlice cs glued text start mid)
    (h' : IsSlice cs glued' text' mid stop) :
    IsSlice cs (glued ++ glued') (text ++ text') start stop where
  first := by
    obtain ⟨t, ht, hstands⟩ := h.first
    refine ⟨t, ?_, hstands⟩
    rw [List.head?_append, Option.mem_def.1 ht]
    rfl
  last := by
    obtain ⟨t, ht, hstands⟩ := h'.last
    refine ⟨t, ?_, hstands⟩
    rw [List.getLast?_append, Option.mem_def.1 ht]
    rfl
  start_le := h.start_le.trans h'.start_le
  stop_le := h'.stop_le
  text_eq := by
    rw [String.toList_append, h.text_eq, h'.text_eq, extract_append h.start_le h'.start_le]
  unbroken := by
    intro c hc
    rw [String.toList_append] at hc
    rcases List.mem_append.1 hc with hc | hc
    · exact h.unbroken c hc
    · exact h'.unbroken c hc

/-! ### Tokens that may be glued -/

/-- A token that may be glued has no gap in it. -/
lemma Lexer.Lexing.not_opensGap {previous : Option TokenKind} {position : Position}
    {cs : List Char} {ts : List Token} (h : Lexing previous position cs ts) :
    ∀ t ∈ ts, isGluable t.kind = true → ∀ c ∈ t.text.toList, opensGap c = false := by
  induction h with
  | stop =>
    intro t ht hglue
    rw [List.mem_singleton.1 ht] at hglue
    cases hglue
  | lexeme hgap hl h ih =>
    intro t ht hglue
    rcases List.mem_cons.1 ht with rfl | ht
    · obtain ⟨hstring, hregex⟩ := not_mem_of_isGluable hglue
      rw [String.toList_ofList, hl.writes.source_eq hstring hregex]
      exact hl.not_opensGap hstring hregex
    · exact ih t ht hglue

variable {cs : List Char} {t : Token} {ts : List Token} {start stop : Nat}

lemma Position.after_extract (h : start ≤ stop) :
    (behind (cs.take start)).after (cs.extract start stop) = behind (cs.take stop) := by
  have htake : cs.take start ++ cs.extract start stop = cs.take stop := by
    have hsplit : cs.extract 0 start ++ cs.extract start stop = cs.extract 0 stop :=
      extract_append (Nat.zero_le start) h
    simpa using hsplit
  rw [after_behind, htake]

/-- Places of a query are told apart by their positions. -/
lemma Position.behind_take_eq_iff (h : start ≤ stop) (hstop : stop ≤ cs.length) :
    behind (cs.take stop) = behind (cs.take start) ↔ stop = start := by
  rw [← after_extract h, after_eq_self_iff, List.extract_eq_take_drop, ← List.length_eq_zero_iff,
    List.length_take, List.length_drop]
  omega

/-- A token that may be glued stands in a query from one offset up to another, and has no gap in
it. -/
structure Token.IsPieceAt (t : Token) (cs : List Char) (start stop : Nat) : Prop extends
    t.StandsAt cs start stop where
  gluable : isGluable t.kind = true
  not_opensGap : ∀ c ∈ t.text.toList, opensGap c = false
  start_le : start ≤ stop
  stop_le : stop ≤ cs.length

namespace Token.IsPieceAt

variable (h : t.IsPieceAt cs start stop)
include h

lemma text_eq : t.text.toList = cs.extract start stop := by
  obtain ⟨hstring, hregex⟩ := not_mem_of_isGluable h.gluable
  exact h.writes.source_eq hstring hregex

lemma isSlice : IsSlice cs [t] t.text start stop where
  first := ⟨t, rfl, stop, h.toStandsAt⟩
  last := ⟨t, rfl, start, h.toStandsAt⟩
  start_le := h.start_le
  stop_le := h.stop_le
  text_eq := h.text_eq
  unbroken c hc := (Bool.or_eq_false_iff.1 (h.not_opensGap c hc)).1

/-- The finish of the token is the place behind its source: it ends in the line in which it
begins. -/
lemma finish : t.finish = .behind (cs.take stop) := by
  have hline : '\n' ∉ cs.extract start stop := by
    intro hmem
    rw [← h.text_eq] at hmem
    exact absurd (h.not_opensGap _ hmem) (by decide)
  have hlength : t.text.length = (cs.extract start stop).length := by
    rw [← h.text_eq, String.length_toList]
  rw [← Position.after_extract h.start_le, Position.after_of_not_mem hline, Token.finish,
    h.position, hlength]

end Token.IsPieceAt

/-! ### Tokens that touch -/

/-- A token and those that touch it, one after the other. The induction is on the tokens behind it,
which stand at offsets of their own: the position of a token tells its offset. -/
lemma Tiles.isSlice_touching {extents : List (Nat × Nat)} (h : Tiles cs stop extents ts)
    (hgap : ∀ u ∈ ts, isGluable u.kind = true → ∀ c ∈ u.text.toList, opensGap c = false)
    (ht : t.IsPieceAt cs start stop) :
    ∃ touching next rest stop, splitTouching t.finish ts = (touching, next :: rest) ∧
      IsSlice cs (t :: touching) (t.text ++ String.join (touching.map Token.text)) start stop ∧
      StandsApart cs stop next := by
  induction h generalizing t start with
  | @stop done hlast =>
    refine ⟨[], _, [], done, rfl, ?_, nofun⟩
    rw [List.map_nil, String.join_nil, String.append_empty]
    exact ht.isSlice
  | @token done start' stop' extents u us hstart hgap' hstop' hend hu h ih =>
    have hplace : u.position = t.finish ↔ start' = done := by
      rw [hu.position, ht.finish, Position.behind_take_eq_iff hstart (hstop'.le.trans hend)]
    by_cases htouch : (isGluable u.kind && u.position == t.finish) = true
    · obtain ⟨hglue, hposition⟩ := Bool.and_eq_true_iff.1 htouch
      obtain rfl := hplace.1 (beq_iff_eq.1 hposition)
      have hpiece : u.IsPieceAt cs start' stop' :=
        ⟨hu, hglue, hgap u List.mem_cons_self hglue, hstop'.le, hend⟩
      obtain ⟨touching, next, rest, stop, hsplit, hmore, hapart⟩ :=
        ih (fun w hw => hgap w (List.mem_cons_of_mem u hw)) hpiece
      refine ⟨u :: touching, next, rest, stop, ?_, ?_, hapart⟩
      · rw [splitTouching, if_pos htouch, hsplit]
      · rw [List.map_cons, String.join_cons]
        exact ht.isSlice.append hmore
    · refine ⟨[], u, us, done, if_neg htouch, ?_, fun hglue => ?_⟩
      · rw [List.map_nil, String.join_nil, String.append_empty]
        exact ht.isSlice
      · have hne : start' ≠ done := fun heq =>
          htouch (Bool.and_eq_true_iff.2 ⟨hglue, beq_iff_eq.2 (hplace.2 heq)⟩)
        exact ⟨start', stop', hu, lt_of_le_of_ne hstart hne.symm⟩

/-- A token of a query, and the tokens behind it, with the offsets at which they stand. -/
lemma Tiles.of_suffix {done : Nat} {extents : List (Nat × Nat)} {all : List Token}
    (h : Tiles cs done extents all) (hsuffix : t :: ts <:+ all) (ht : t.kind ≠ .eof) :
    ∃ start stop extents, start < stop ∧ stop ≤ cs.length ∧ t.StandsAt cs start stop ∧
      Tiles cs stop extents ts := by
  induction h with
  | stop =>
    rcases List.suffix_cons_iff.1 hsuffix with heq | hnil
    · cases heq
      exact absurd rfl ht
    · cases List.suffix_nil.1 hnil
  | @token done start stop extents u us hstart hgap hstop hend hu h ih =>
    rcases List.suffix_cons_iff.1 hsuffix with heq | hmore
    · cases heq
      exact ⟨start, stop, extents, hstop, hend, hu, h⟩
    · exact ih hmore

/-! ### What is glued in a query -/

/-- A token of a query that may be glued, with those that touch it. -/
lemma exists_isSlice {query : String} {tokens : List Token} (h : tokenize query = .ok tokens)
    (hglue : isGluable t.kind = true) (hsuffix : t :: ts <:+ tokens) :
    ∃ touching next rest start stop, splitTouching t.finish ts = (touching, next :: rest) ∧
      IsSlice query.toList (t :: touching) (t.text ++ String.join (touching.map Token.text))
        start stop ∧
      StandsApart query.toList stop next := by
  have hlexing := tokensFrom_eq_ok.1 h
  have hgap : ∀ u ∈ t :: ts, isGluable u.kind = true → ∀ c ∈ u.text.toList, opensGap c = false :=
    fun u hu => hlexing.not_opensGap u (hsuffix.subset hu)
  have hkind : t.kind ≠ .eof := by
    intro heof
    rw [heof] at hglue
    cases hglue
  obtain ⟨extents, htiles⟩ := hlexing.exists_tiles rfl (.nil _)
  obtain ⟨start, mid, extents, hlt, hle, ht, hbehind⟩ := htiles.of_suffix hsuffix hkind
  have hpiece : t.IsPieceAt query.toList start mid :=
    ⟨ht, hglue, hgap t List.mem_cons_self hglue, hlt.le, hle⟩
  obtain ⟨touching, next, rest, stop, hslice⟩ :=
    hbehind.isSlice_touching (fun u hu => hgap u (List.mem_cons_of_mem t hu)) hpiece
  exact ⟨touching, next, rest, start, stop, hslice⟩

/-- The end of a query touches nothing. -/
lemma Parser.splitTouching_snoc {last : Token} (hlast : last.kind = .eof) (finish : Position)
    (ts : List Token) :
    splitTouching finish (ts ++ [last]) =
      ((splitTouching finish ts).1, (splitTouching finish ts).2 ++ [last]) := by
  induction ts generalizing finish with
  | nil =>
    refine if_neg ?_
    rw [hlast]
    exact Bool.false_ne_true
  | cons t ts ih =>
    rw [List.cons_append, splitTouching, splitTouching, ih]
    split <;> rfl

/-- The tokens in front of the end of a query. -/
lemma Parser.takeWhile_withoutStop {front : List Token} {last : Token} (hlast : last.kind = .eof)
    (hfront : ∀ t ∈ front, t.kind ≠ .eof) :
    (withoutStop (front ++ [last])).takeWhile (·.kind != .eof) = front := by
  have hinner : withoutStop (front ++ [last]) = front := by simp [withoutStop, hlast]
  rw [hinner, List.takeWhile_eq_self_iff]
  simpa using hfront

/-- What `glue` reads at a token of a query. The readers are given the tokens without the end of
the query, which is behind all of them. -/
lemma glue_reads_slice {query : String} {front : List Token} {last : Token}
    (h : tokenize query = .ok (front ++ [last])) (hlast : last.kind = .eof)
    (hglue : isGluable t.kind = true) (hsuffix : t :: ts <:+ front) (s : Parser.Setting) :
    ∃ text glued rest start stop, (glue t).Reads s ts text rest ∧ t :: ts = glued ++ rest ∧
      IsSlice query.toList glued text start stop ∧
      StandsApart query.toList stop (rest.head?.getD last) := by
  have hall : t :: (ts ++ [last]) <:+ front ++ [last] := by
    obtain ⟨before, rfl⟩ := hsuffix
    exact ⟨before, by rw [List.append_assoc, List.cons_append]⟩
  obtain ⟨touching, next, more, start, stop, hsplit, hslice, hapart⟩ :=
    exists_isSlice h hglue hall
  rw [Parser.splitTouching_snoc hlast, Prod.mk.injEq] at hsplit
  obtain ⟨rfl, hrest⟩ := hsplit
  have hnext : (splitTouching t.finish ts).2.head?.getD last = next := by
    generalize (splitTouching t.finish ts).2 = rest at hrest ⊢
    cases rest with
    | nil => exact (List.cons.inj hrest).1
    | cons u us => exact (List.cons.inj hrest).1
  refine ⟨_, _, (splitTouching t.finish ts).2, start, stop, ⟨_, rfl⟩, ?_, hslice, hnext ▸ hapart⟩
  rw [List.cons_append, Parser.splitTouching_append]

/-- On the tokens of a query, `glue` is called at tokens only that may be glued, in front of those
that follow them in the query. Wherever it is called like that, what it gives is the part of the
query from the start of the first glued token to the end of the last. There is no blank in it, and
no token touches it that could be glued, too. -/
theorem glued_slices [Libraries] {query : String} {tokens : List Token}
    (h : tokenize query = .ok tokens) :
    (∀ limits t ts, GluesAt limits tokens t ts →
      isGluable t.kind = true ∧ t :: ts <:+ tokens.dropLast) ∧
    ∀ t ts, isGluable t.kind = true → t :: ts <:+ tokens.dropLast →
      ∀ s, ∃ text glued rest start stop, (glue t).Reads s ts text rest ∧ t :: ts = glued ++ rest ∧
        IsSlice query.toList glued text start stop ∧
        StandsApart query.toList stop (rest.head?.getD (Parser.stopToken tokens)) := by
  obtain ⟨front, last, rfl, hlast, hfront⟩ := (tokensFrom_eq_ok.1 h).exists_snoc
  have hstop : Parser.stopToken (front ++ [last]) = last := by simp [Parser.stopToken, hlast]
  rw [List.dropLast_concat, hstop]
  constructor
  · intro limits t ts hcall
    have hplace := Parser.place_of_gluesAt hcall
    rwa [Parser.takeWhile_withoutStop hlast hfront] at hplace
  · intro t ts hglue hsuffix
    exact glue_reads_slice h hlast hglue hsuffix

/-- Behind a word a minus is one of its own, and behind that it begins a number. -/
theorem glued_slices_minus_minus :
    let query := "ip=10.0.0.* # a\n a--5"
    let t : Token := ⟨.identifier, "a", ⟨2, 2⟩⟩
    let ts : List Token := [⟨.symbol .minus, "-", ⟨2, 3⟩⟩, ⟨.number, "-5", ⟨2, 4⟩⟩]
    let tokens : List Token :=
      [⟨.identifier, "ip", ⟨1, 1⟩⟩, ⟨.symbol .eq, "=", ⟨1, 3⟩⟩, ⟨.number, "10.0.0.", ⟨1, 4⟩⟩,
        ⟨.symbol .star, "*", ⟨1, 11⟩⟩, t] ++ ts ++ [⟨.eof, "", ⟨2, 6⟩⟩]
    tokenize query = .ok tokens ∧ GluesAt ⟨100, 10⟩ tokens t ts ∧
      ∃ start stop, IsSlice query.toList (t :: ts) "a--5" start stop := by
  intro query t ts tokens
  have htokens : tokenize query = .ok tokens := by decide +kernel
  let join : Token → Parser String := fun u s us =>
    if (u, us) = (t, ts) then .error ⟨.expected .condition, u⟩ else glue u s us
  have hcall : GluesAt ⟨100, 10⟩ tokens t ts := by
    refine ⟨join, fun u us hne s => if_neg hne, fun heq => ?_⟩
    have hother : (Parser.Gluing.parseTokens join ⟨100, 10⟩ tokens).toOption.isNone = true := by
      decide +kernel
    have hread : (parseTokens ⟨100, 10⟩ tokens).toOption.isNone = false := by decide +kernel
    rw [heq, hread] at hother
    cases hother
  obtain ⟨hplaces, hslices⟩ := glued_slices htokens
  obtain ⟨hglue, hsuffix⟩ := hplaces _ t ts hcall
  obtain ⟨text, glued, rest, start, stop, ⟨_, hread⟩, hrow, hslice, -⟩ :=
    hslices t ts hglue hsuffix ⟨t, 0⟩
  have htext : (glue t).outcome ⟨t, 0⟩ ts = .ok ("a--5", []) := by decide +kernel
  rw [Parser.outcome, hread] at htext
  cases htext
  rw [List.append_nil] at hrow
  exact ⟨htokens, hcall, start, stop, hrow ▸ hslice⟩

end LogQuery
