import LogQuery.Parser.Basic
import Mathlib.Tactic.Lemma

namespace LogQuery.Parser

variable {α β : Type} {s : Setting} {ts rest : List Token}

/-- The reader takes a value from the front of a list of tokens and leaves the rest. -/
def Reads (p : Parser α) (s : Setting) (ts : List Token) (a : α) (rest : List Token) : Prop :=
  ∃ h, p s ts = .ok ⟨a, rest, h⟩

namespace Reads

variable {p : Parser α} {a : α}

lemma isSuffix (h : p.Reads s ts a rest) : rest <:+ ts := h.1

lemma mem (h : p.Reads s ts a rest) {t : Token} (ht : t ∈ rest) : t ∈ ts := h.isSuffix.subset ht

end Reads

lemma reads_of_eq_ok {p : Parser α} {r : Parsed α ts} (h : p s ts = .ok r) :
    p.Reads s ts r.value r.rest := ⟨r.isSuffix, h⟩

/-! ### One equivalence for each way of building a reader -/

@[simp] lemma reads_pure {a b : α} :
    (pure a : Parser α).Reads s ts b rest ↔ b = a ∧ rest = ts := by
  constructor
  · rintro ⟨_, h⟩
    cases h
    exact ⟨rfl, rfl⟩
  · rintro ⟨rfl, rfl⟩
    exact ⟨List.suffix_rfl, rfl⟩

lemma bind_apply (p : Parser α) (f : α → Parser β) :
    (p >>= f) s ts =
      (match p s ts with
      | .error e => .error e
      | .ok first =>
        match f first.value s first.rest with
        | .error e => .error e
        | .ok second => .ok ⟨second.value, second.rest, second.isSuffix.trans first.isSuffix⟩ :
        Except ParseError (Parsed β ts)) := rfl

instance : LawfulMonad Parser := LawfulMonad.mk' Parser
  (fun p => by
    funext s ts
    change (p >>= pure) s ts = p s ts
    rw [bind_apply]
    cases p s ts <;> rfl)
  (fun a f => by
    funext s ts
    have hpure : (pure a : Parser _) s ts = .ok ⟨a, ts, List.suffix_rfl⟩ := rfl
    rw [bind_apply, hpure]
    dsimp only
    cases f a s ts <;> rfl)
  (fun p f g => by
    funext s ts
    rw [bind_apply, bind_apply, bind_apply]
    cases p s ts with
    | error e => rfl
    | ok first =>
      dsimp only
      rw [bind_apply]
      cases f first.value s first.rest with
      | error e => rfl
      | ok second =>
        dsimp only
        cases g second.value s second.rest <;> rfl)

/-- A sequence of readers meets in the middle. -/
lemma reads_bind {p : Parser α} {f : α → Parser β} {b : β} :
    (p >>= f).Reads s ts b rest ↔
      ∃ a mid, p.Reads s ts a mid ∧ (f a).Reads s mid b rest := by
  constructor
  · rintro ⟨hrest, h⟩
    rw [bind_apply] at h
    split at h
    · cases h
    · next first hp =>
      split at h
      · cases h
      · next second hf =>
        cases h
        exact ⟨first.value, first.rest, reads_of_eq_ok hp, reads_of_eq_ok hf⟩
  · rintro ⟨a, mid, ⟨hmid, hp⟩, ⟨hrest, hf⟩⟩
    refine ⟨hrest.trans hmid, ?_⟩
    simp only [bind_apply, hp, hf]

lemma reads_map {p : Parser α} {f : α → β} {b : β} :
    (f <$> p).Reads s ts b rest ↔ ∃ a, p.Reads s ts a rest ∧ b = f a := by
  change (p >>= fun a => pure (f a)).Reads s ts b rest ↔ _
  simp only [reads_bind, reads_pure]
  constructor
  · rintro ⟨a, mid, h, rfl, rfl⟩
    exact ⟨a, h, rfl⟩
  · rintro ⟨a, h, rfl⟩
    exact ⟨a, rest, h, rfl, rfl⟩

@[simp] lemma not_reads_failAt {t : Token} {fault : ParseFault} {a : α} :
    ¬ (failAt t fault).Reads s ts a rest := by
  rintro ⟨_, h⟩
  cases h

@[simp] lemma not_reads_fail {fault : ParseFault} {a : α} :
    ¬ (fail fault).Reads s ts a rest := by
  rintro ⟨_, h⟩
  cases h

@[simp] lemma not_reads_tooDeep {a : α} : ¬ tooDeep.Reads s ts a rest := by
  rintro ⟨_, h⟩
  cases h

@[simp] lemma reads_nextKind? {k : Option TokenKind} :
    nextKind?.Reads s ts k rest ↔ k = ts.head?.map Token.kind ∧ rest = ts := by
  constructor
  · rintro ⟨_, h⟩
    cases h
    exact ⟨rfl, rfl⟩
  · rintro ⟨rfl, rfl⟩
    exact ⟨List.suffix_rfl, rfl⟩

@[simp] lemma reads_take {what : Expectation} {t : Token} :
    (take what).Reads s ts t rest ↔ ts = t :: rest := by
  constructor
  · rintro ⟨_, h⟩
    cases ts <;> cases h
    rfl
  · rintro rfl
    exact ⟨rest.suffix_cons t, rfl⟩

@[simp] lemma reads_expect {kind : TokenKind} {what : Expectation} {t : Token} :
    (expect kind what).Reads s ts t rest ↔ ts = t :: rest ∧ t.kind = kind := by
  simp only [expect, reads_bind, reads_take]
  constructor
  · rintro ⟨t', mid, rfl, h⟩
    split at h
    · next hkind =>
      obtain ⟨rfl, rfl⟩ := reads_pure.1 h
      exact ⟨rfl, hkind⟩
    · exact (not_reads_failAt h).elim
  · rintro ⟨rfl, rfl⟩
    exact ⟨t, rest, rfl, by simp⟩

/-- No round of a loop or of an option begins here. -/
def Stops {α : Type} (turn : Turn α) (ts : List Token) : Prop :=
  ∀ t rest, ts = t :: rest → turn t rest = none

@[simp] lemma stops_nil {turn : Turn α} : Stops turn [] := by
  intro t rest h
  cases h

@[simp] lemma stops_cons {turn : Turn α} {t : Token} :
    Stops turn (t :: ts) ↔ turn t ts = none := by
  constructor
  · intro h
    exact h t ts rfl
  · intro h t' ts' heq
    cases heq
    exact h

/-- A loop whose rounds do not look behind their first token. -/
lemma stops_iff {f : Token → Option (Parser α)} :
    Stops (fun t _ => f t) ts ↔ ∀ t ∈ ts.head?, f t = none := by
  cases ts <;> simp

/-- The turn was left, or it was taken. -/
lemma reads_optional {turn : Turn α} {a : Option α} :
    (optional turn).Reads s ts a rest ↔
      (a = none ∧ rest = ts ∧ Stops turn ts) ∨
        ∃ t ts' p b, ts = t :: ts' ∧ turn t ts' = some p ∧ p.Reads s ts' b rest ∧ a = some b := by
  constructor
  · rintro ⟨hrest, h⟩
    simp only [optional] at h
    split at h
    · cases h
      exact .inl ⟨rfl, rfl, by simp⟩
    · next t ts' =>
      split at h
      · next hturn =>
        cases h
        exact .inl ⟨rfl, rfl, by simpa using hturn⟩
      · next p hturn =>
        split at h
        · cases h
        · next one hp =>
          cases h
          exact .inr ⟨t, ts', p, one.value, rfl, hturn, reads_of_eq_ok hp, rfl⟩
  · rintro (⟨rfl, rfl, hstop⟩ | ⟨t, ts', p, b, rfl, hturn, ⟨hb, hp⟩, rfl⟩)
    · refine ⟨List.suffix_rfl, ?_⟩
      cases rest with
      | nil => rfl
      | cons t ts' => simp only [optional, stops_cons.1 hstop]
    · exact ⟨hb.trans (ts'.suffix_cons t), by simp only [optional, hturn, hp]⟩

/-- The loop stopped, or it took a turn and went on. -/
lemma reads_many {turn : Turn (Option α)} {as : List α} :
    (many turn).Reads s ts as rest ↔
      (as = [] ∧ rest = ts ∧ Stops turn ts) ∨
        ∃ t ts' p one mid more, ts = t :: ts' ∧ turn t ts' = some p ∧ p.Reads s ts' one mid ∧
          (many turn).Reads s mid more rest ∧ as = one.toList ++ more := by
  constructor
  · rintro ⟨hrest, h⟩
    rw [many.eq_def] at h
    split at h
    · cases h
      exact .inl ⟨rfl, rfl, by simp⟩
    · next t ts' =>
      split at h
      · next hturn =>
        cases h
        exact .inl ⟨rfl, rfl, by simpa using hturn⟩
      · next p hturn =>
        split at h
        · cases h
        · next one hp =>
          split at h
          · cases h
          · next more hmore =>
            cases h
            exact .inr ⟨t, ts', p, one.value, one.rest, more.value, rfl, hturn,
              reads_of_eq_ok hp, reads_of_eq_ok hmore, rfl⟩
  · rintro (⟨rfl, rfl, hstop⟩ | ⟨t, ts', p, one, mid, more, rfl, hturn, ⟨hmid, hp⟩, ⟨hr, hm⟩, rfl⟩)
    · refine ⟨List.suffix_rfl, ?_⟩
      rw [many.eq_def]
      cases rest with
      | nil => rfl
      | cons t ts' => simp only [stops_cons.1 hstop]
    · refine ⟨hr.trans (hmid.trans (ts'.suffix_cons t)), ?_⟩
      rw [many.eq_def]
      simp only [hturn, hp, hm]

/-- The loop stopped in its state, or it took a turn to the next one. -/
lemma reads_iterate {turn : α → Turn α} {state a : α} :
    (iterate turn state).Reads s ts a rest ↔
      (a = state ∧ rest = ts ∧ Stops (turn state) ts) ∨
        ∃ t ts' p one mid, ts = t :: ts' ∧ turn state t ts' = some p ∧ p.Reads s ts' one mid ∧
          (iterate turn one).Reads s mid a rest := by
  constructor
  · rintro ⟨hrest, h⟩
    rw [iterate.eq_def] at h
    split at h
    · cases h
      exact .inl ⟨rfl, rfl, by simp⟩
    · next t ts' =>
      split at h
      · next hturn =>
        cases h
        exact .inl ⟨rfl, rfl, by simpa using hturn⟩
      · next p hturn =>
        split at h
        · cases h
        · next one hp =>
          split at h
          · cases h
          · next more hmore =>
            cases h
            exact .inr ⟨t, ts', p, one.value, one.rest, rfl, hturn, reads_of_eq_ok hp,
              reads_of_eq_ok hmore⟩
  · rintro (⟨rfl, rfl, hstop⟩ | ⟨t, ts', p, one, mid, rfl, hturn, ⟨hmid, hp⟩, ⟨hr, hm⟩⟩)
    · refine ⟨List.suffix_rfl, ?_⟩
      rw [iterate.eq_def]
      cases rest with
      | nil => rfl
      | cons t ts' => simp only [stops_cons.1 hstop]
    · refine ⟨hr.trans (hmid.trans (ts'.suffix_cons t)), ?_⟩
      rw [iterate.eq_def]
      simp only [hturn, hp, hm]

/-- The token was taken or left. -/
lemma reads_accept {kind : TokenKind} {b : Bool} :
    (accept kind).Reads s ts b rest ↔
      (b = true ∧ ∃ t, ts = t :: rest ∧ t.kind = kind) ∨
        (b = false ∧ rest = ts ∧ ∀ t ∈ ts.head?, t.kind ≠ kind) := by
  change (optional (fun t _ => if t.kind = kind then some (pure ()) else none) >>= fun taken =>
    pure taken.isSome).Reads s ts b rest ↔ _
  simp only [reads_bind, reads_pure, reads_optional, stops_iff]
  constructor
  · rintro ⟨o, mid, ⟨rfl, rfl, hstop⟩ | ⟨t, ts', q, u, rfl, hturn, hq, rfl⟩, rfl, rfl⟩
    · exact .inr ⟨rfl, rfl, by simpa using hstop⟩
    · split at hturn <;> cases hturn
      obtain ⟨-, rfl⟩ := reads_pure.1 hq
      exact .inl ⟨rfl, t, rfl, ‹_›⟩
  · rintro (⟨rfl, t, rfl, hkind⟩ | ⟨rfl, rfl, hstop⟩)
    · refine ⟨some (), rest, .inr ⟨t, rest, pure (), (), rfl, if_pos hkind, ?_, rfl⟩, rfl, rfl⟩
      exact reads_pure.2 ⟨rfl, rfl⟩
    · exact ⟨none, rest, .inl ⟨rfl, rfl, by simpa using hstop⟩, rfl, rfl⟩

/-- What holds of the values of every round holds of the values of a loop. The induction is on the
number of tokens: every round takes one. -/
lemma Reads.forall_many {turn : Turn (Option α)} {P : α → Prop} {all : List Token}
    (h : ∀ t ts p, turn t ts = some p → ∀ one mid, ts <:+ all → p.Reads s ts one mid →
      ∀ a ∈ one, P a) {as : List α} (hts : ts <:+ all) (hr : (many turn).Reads s ts as rest) :
    ∀ a ∈ as, P a := by
  induction hn : ts.length using Nat.strongRecOn generalizing ts as with
  | ind n ih =>
    rcases reads_many.1 hr with ⟨rfl, -, -⟩ | ⟨t, ts', p, one, mid, more, rfl, hturn, hp, hm, rfl⟩
    · exact nofun
    · have hts' := (List.suffix_cons t ts').trans hts
      have hlen : mid.length < n := by
        have := hp.isSuffix.length_le
        rw [List.length_cons] at hn
        omega
      have hmore := ih mid.length hlen (hp.isSuffix.trans hts') hm rfl
      intro a ha
      rcases List.mem_append.1 ha with ha | ha
      · exact h t ts' p hturn one mid hts' hp a (Option.mem_toList.1 ha)
      · exact hmore a ha

/-! ### What is read from good tokens -/

/-- Every value that is read from good tokens satisfies `Q`. -/
def Yields (good : Token → Prop) (p : Parser α) (Q : α → Prop) : Prop :=
  ∀ ⦃s : Setting⦄ ⦃ts : List Token⦄ ⦃a : α⦄ ⦃rest : List Token⦄,
    (∀ t ∈ ts, good t) → p.Reads s ts a rest → Q a

namespace Yields

variable {good : Token → Prop} {p : Parser α} {P : α → Prop} {Q : β → Prop}

lemma trivial : Yields good p fun _ => True := fun _ _ _ _ _ _ => True.intro

/-- Values may be described less closely. -/
lemma mono {P' : α → Prop} (h : Yields good p P) (hP : ∀ a, P a → P' a) : Yields good p P' :=
  fun _ _ _ _ hgood hr => hP _ (h hgood hr)

lemma pure {a : α} (h : P a) : Yields good (pure a) P := by
  intro s ts b rest _ hr
  rw [(reads_pure.1 hr).1]
  exact h

/-- What follows has to do with the values that the first reader yields. -/
lemma bind {f : α → Parser β} (hp : Yields good p P) (hf : ∀ a, P a → Yields good (f a) Q) :
    Yields good (p >>= f) Q := by
  intro s ts b rest hgood hr
  obtain ⟨a, mid, hpa, hfb⟩ := reads_bind.1 hr
  exact hf a (hp hgood hpa) (fun t ht => hgood t (hpa.mem ht)) hfb

/-- What comes first may be forgotten where it does not matter. -/
lemma bind_of_forall {f : α → Parser β} (hf : ∀ a, Yields good (f a) Q) :
    Yields good (p >>= f) Q := bind trivial fun a _ => hf a

lemma map {f : α → β} (hp : Yields good p P) (hf : ∀ a, P a → Q (f a)) :
    Yields good (f <$> p) Q := by
  intro s ts b rest hgood hr
  obtain ⟨a, hpa, rfl⟩ := reads_map.1 hr
  exact hf a (hp hgood hpa)

lemma failAt {t : Token} {fault : ParseFault} : Yields good (failAt t fault) P :=
  fun _ _ _ _ _ h => (not_reads_failAt h).elim

lemma fail {fault : ParseFault} : Yields good (fail fault) P :=
  fun _ _ _ _ _ h => (not_reads_fail h).elim

lemma tooDeep : Yields good tooDeep P := fun _ _ _ _ _ h => (not_reads_tooDeep h).elim

lemma take {what : Expectation} : Yields good (take what) good := by
  intro s ts t rest hgood hr
  rw [reads_take] at hr
  exact hgood t (by simp [hr])

lemma optional {turn : Turn α}
    (h : ∀ t rest p, turn t rest = some p → good t → Yields good p P) :
    Yields good (optional turn) fun o => ∀ a ∈ o, P a := by
  intro s ts o rest hgood hr
  rcases reads_optional.1 hr with ⟨rfl, -, -⟩ | ⟨t, ts', p, b, rfl, hturn, hp, rfl⟩
  · simp
  · intro a ha
    cases ha
    exact h t ts' p hturn (hgood t (by simp)) (fun u hu => hgood u (by simp [hu])) hp

/-- The induction is on the number of tokens: every round takes one. -/
lemma many {turn : Turn (Option α)}
    (h : ∀ t rest p, turn t rest = some p → good t → Yields good p fun o => ∀ a ∈ o, P a) :
    Yields good (many turn) fun as => ∀ a ∈ as, P a := by
  intro s ts
  induction hn : ts.length using Nat.strongRecOn generalizing ts with
  | ind n ih =>
    intro as rest hgood hr
    rcases reads_many.1 hr with ⟨rfl, -, -⟩ | ⟨t, ts', p, one, mid, more, rfl, hturn, hp, hm, rfl⟩
    · simp
    · have hgood' : ∀ u ∈ ts', good u := fun u hu => hgood u (by simp [hu])
      have hlen : mid.length < n := by
        have := hp.isSuffix.length_le
        simp only [List.length_cons] at hn
        omega
      have hone := h t ts' p hturn (hgood t (by simp)) hgood' hp
      have hmore := ih mid.length hlen rfl (fun u hu => hgood' u (hp.mem hu)) hm
      intro a ha
      rcases List.mem_append.1 ha with ha | ha
      · exact hone a (by simpa using ha)
      · exact hmore a ha

/-- The induction is on the number of tokens: every round takes one. -/
lemma iterate {turn : α → Turn α}
    (h : ∀ state, P state → ∀ t rest p, turn state t rest = some p → good t → Yields good p P)
    {state : α} (hstate : P state) : Yields good (iterate turn state) P := by
  intro s ts
  induction hn : ts.length using Nat.strongRecOn generalizing ts state with
  | ind n ih =>
    intro a rest hgood hr
    rcases reads_iterate.1 hr with ⟨rfl, -, -⟩ | ⟨t, ts', p, one, mid, rfl, hturn, hp, hmore⟩
    · exact hstate
    · have hgood' : ∀ u ∈ ts', good u := fun u hu => hgood u (by simp [hu])
      have hlen : mid.length < n := by
        have := hp.isSuffix.length_le
        simp only [List.length_cons] at hn
        omega
      have hone := h state hstate t ts' p hturn (hgood t (by simp)) hgood' hp
      exact ih mid.length hlen hone rfl (fun u hu => hgood' u (hp.mem hu)) hmore

end Yields

end LogQuery.Parser
