import LogQuery.Proofs.Parser.Agreement

/-!
# Readers that count levels

The readers of the language pass down how many levels are left. A reader may as well keep count of
the levels that are open: it opens one in front of what nests, unless the limit is reached, and
closes it behind (`within`). A `Meter` holds this count, and also the most levels that were ever
open at once.

`Tracks` pairs a reader that counts with the one that is told how many levels are left. On each list
of tokens there are a need and an end, which no limit is to blame for, such that both readers come
to this end if as many levels are left as are needed, and otherwise refuse the nesting. And the
reader that counts leaves as many levels open as it found.
-/

namespace LogQuery

namespace Parsed

variable {α β : Type} {ts : List Token}

/-- Another value in the place of the one that was read. -/
def map (f : α → β) (a : Parsed α ts) : Parsed β ts := ⟨f a.value, a.rest, a.isSuffix⟩

lemma isSuffix_behind (first : Parsed α ts) (second : Parsed β first.rest) :
    second.rest <:+ ts := second.isSuffix.trans first.isSuffix

/-- What was read of the rest that another reader left. -/
def behind (first : Parsed α ts) (second : Parsed β first.rest) : Parsed β ts :=
  ⟨second.value, second.rest, isSuffix_behind first second⟩

/-- A value for which no token was taken. -/
def still (a : α) (ts : List Token) : Parsed α ts := ⟨a, ts, List.suffix_rfl⟩

/-- What was read behind a token that was taken. -/
def skip (t : Token) (a : Parsed α ts) : Parsed α (t :: ts) :=
  ⟨a.value, a.rest, a.isSuffix.trans (ts.suffix_cons t)⟩

end Parsed

namespace Parser

variable {α β : Type}

lemma map_apply (f : α → β) (p : Parser α) (s : Setting) (ts : List Token) :
    (f <$> p) s ts = (p s ts).map (Parsed.map f) := by
  change (p >>= fun a => pure (f a)) s ts = _
  rw [bind_apply]
  cases p s ts <;> rfl

section Bind

variable {p : Parser α} {s : Setting} {ts : List Token}

/-- A reader that goes on where the first one has stopped. -/
lemma bind_of_ok {first : Parsed α ts} (h : p s ts = .ok first) (f : α → Parser β) :
    (p >>= f) s ts = (f first.value s first.rest).map first.behind := by
  rw [bind_apply, h]
  cases hf : f first.value s first.rest <;> simp only [hf] <;> rfl

/-- The first error is the error. -/
lemma bind_of_error {e : ParseError} (h : p s ts = .error e) (f : α → Parser β) :
    (p >>= f) s ts = .error e := by
  rw [bind_apply, h]

end Bind

/-- How many levels are open, and how many were open at once at most. -/
@[ext] structure Meter where
  opened : Nat
  most : Nat
  opened_le_most : opened ≤ most
  deriving DecidableEq, Repr

namespace Meter

def zero : Meter := ⟨0, 0, Nat.le_refl 0⟩

def up (m : Meter) : Meter := ⟨m.opened + 1, max m.most (m.opened + 1), Nat.le_max_right ..⟩

def down (m : Meter) : Meter :=
  ⟨m.opened - 1, m.most, Nat.le_trans (Nat.sub_le ..) m.opened_le_most⟩

/-- So many levels were opened and closed again. -/
def raise (m : Meter) (need : Nat) : Meter :=
  ⟨m.opened, max m.most (m.opened + need), Nat.le_trans m.opened_le_most (Nat.le_max_left ..)⟩

@[simp] lemma raise_zero (m : Meter) : m.raise 0 = m := by
  ext
  · rfl
  · exact Nat.max_eq_left m.opened_le_most

@[simp] lemma raise_raise (m : Meter) (a b : Nat) : (m.raise a).raise b = m.raise (max a b) := by
  ext
  · rfl
  · simp only [raise]
    omega

/-- A need raised one level further down counts one more above. -/
lemma down_raise_up (m : Meter) (need : Nat) : (m.up.raise need).down = m.raise (need + 1) := by
  ext
  · rfl
  · simp only [up, raise, down]
    omega

end Meter

/-- A reader that keeps count of the levels. -/
abbrev Counting : Type → Type := StateT Meter Parser

namespace Counting

/-- A reader that opens no level. -/
def lift (p : Parser α) : Counting α := fun m => (·, m) <$> p

/-- Opens a level, unless there are as many open as may be. -/
def enter : Counting Unit := fun m setting =>
  if setting.maxDepth < m.opened + 1 then tooDeep setting
  else (pure ((), m.up) : Parser _) setting

def leave : Counting Unit := fun m => pure ((), m.down)

/-- What nests one level deeper. -/
def within (p : Counting α) : Counting α := do
  enter
  let a ← p
  leave
  return a

/-- How a reader that counts goes on behind a token, as `Turn`. -/
abbrev CountingTurn (α : Type) := Token → List Token → Option (Counting α)

/-- One value, if the next token begins one. -/
def optional (turn : CountingTurn α) : Counting (Option α) := fun m setting ts =>
  match ts with
  | [] => .ok (.still (none, m) [])
  | t :: rest =>
    match turn t rest with
    | none => .ok (.still (none, m) (t :: rest))
    | some p => (p m setting rest).map fun one => (one.map fun (a, m') => (some a, m')).skip t

/-- The values of the rounds that have one, in order. Each round begins with the count that the
round before it left. -/
def many (turn : CountingTurn (Option α)) : Counting (List α) := fun m setting ts =>
  match ts with
  | [] => .ok (.still ([], m) [])
  | t :: rest =>
    match turn t rest with
    | none => .ok (.still ([], m) (t :: rest))
    | some p =>
      match p m setting rest with
      | .error e => .error e
      | .ok one =>
        match many turn one.value.2 setting one.rest with
        | .error e => .error e
        | .ok more => .ok ((one.behind (more.map fun (as, m') =>
            (one.value.1.toList ++ as, m'))).skip t)
termination_by _ _ ts => ts.length
decreasing_by exact Nat.lt_succ_of_le one.isSuffix.length_le

instance : Readers Counting := ⟨lift, optional, many⟩

section Bind

variable {p : Counting α} {m : Meter} {s : Setting} {ts : List Token}

lemma bind_of_ok {first : Parsed (α × Meter) ts} (h : p m s ts = .ok first)
    (f : α → Counting β) :
    (p >>= f) m s ts = (f first.value.1 first.value.2 s first.rest).map first.behind :=
  Parser.bind_of_ok h fun x => f x.1 x.2

lemma bind_of_error {e : ParseError} (h : p m s ts = .error e) (f : α → Counting β) :
    (p >>= f) m s ts = .error e := Parser.bind_of_error h fun x => f x.1 x.2

end Bind

variable {m : Meter} {s : Setting} {t : Token} {rest : List Token}

lemma map_apply (f : α → β) (p : Counting α) {ts : List Token} :
    (f <$> p) m s ts = (p m s ts).map (Parsed.map fun x => (f x.1, x.2)) :=
  Parser.map_apply (fun x : α × Meter => (f x.1, x.2)) (p m) s ts

lemma optional_of_some {turn : CountingTurn α} {p : Counting α} (h : turn t rest = some p) :
    optional turn m s (t :: rest) = ((some <$> p) m s rest).map (Parsed.skip t) := by
  simp only [optional, h, map_apply]
  cases p m s rest <;> rfl

lemma many_of_some {turn : CountingTurn (Option α)} {p : Counting (Option α)}
    (h : turn t rest = some p) :
    many turn m s (t :: rest) =
      ((p >>= fun one => (one.toList ++ ·) <$> many turn) m s rest).map (Parsed.skip t) := by
  rw [many]
  simp only [h]
  cases hp : p m s rest with
  | error e =>
    rw [bind_of_error hp]
    rfl
  | ok one =>
    rw [bind_of_ok hp]
    simp only [map_apply]
    cases many turn one.value.2 s one.rest <;> rfl

end Counting

section Loops

variable {s : Setting} {t : Token} {rest : List Token}

lemma optional_of_some {turn : Turn α} {p : Parser α} (h : turn t rest = some p) :
    optional turn s (t :: rest) = ((some <$> p) s rest).map (Parsed.skip t) := by
  simp only [optional, h, map_apply]
  cases p s rest <;> rfl

lemma many_of_some {turn : Turn (Option α)} {p : Parser (Option α)} (h : turn t rest = some p) :
    many turn s (t :: rest) =
      ((p >>= fun one => (one.toList ++ ·) <$> many turn) s rest).map (Parsed.skip t) := by
  rw [many]
  simp only [h]
  cases hp : p s rest with
  | error e =>
    rw [bind_of_error hp]
    rfl
  | ok one =>
    rw [bind_of_ok hp]
    simp only [map_apply]
    cases many turn s one.rest <;> rfl

end Loops

/-! ### The need of a reader -/

/-- One level less is left than there seems to be. -/
def shift (q : Nat → Parser α) : Nat → Parser α
  | 0 => tooDeep
  | n + 1 => q n

/-- With so many levels left a reader comes to an end on the tokens, for which no limit is to blame;
with fewer it refuses the nesting. The scope tells which numbers of levels are looked at under which
limit. -/
structure Needs (scope : Nat → Nat → Prop) (q : Nat → Parser α) (stop : Token) (ts : List Token)
    (need : Nat) (r : Except ParseError (Parsed α ts)) : Prop where
  reached : ∀ {limit n}, scope limit n → need ≤ n → q n ⟨stop, limit⟩ ts = r
  missed : ∀ {limit n}, scope limit n → n < need →
    ∃ t, q n ⟨stop, limit⟩ ts = .error ⟨.tooDeep limit, t⟩
  unlimited : ∀ e, r = .error e → e.fault.isLimit = false

/-- The reader `p`, which counts, does as the reader `q`, which is told how many levels are left, if
these are fewer than `fuel`. -/
def Tracks (scope : Nat → Nat → Prop) (fuel : Nat) (p : Counting α) (q : Nat → Parser α)
    (ts : List Token) : Prop :=
  ∀ stop, ∃ need r, Needs scope q stop ts need r ∧
    ∀ limit n m, scope limit n → m.opened + n = limit → n < fuel →
      p m ⟨stop, limit⟩ ts = (q n ⟨stop, limit⟩ ts).map (Parsed.map (·, m.raise need))

/-- Every number of levels is looked at. -/
def AllLevels : Nat → Nat → Prop := fun _ _ => True

/-- All levels that the limit allows are left. -/
def NoneOpen : Nat → Nat → Prop := fun limit n => n = limit

/-- Under any two limits. -/
def anyLimits : Correspondence where
  Twin := Eq
  Limits _ _ := True
  kind_eq := by rintro _ _ rfl; rfl
  text_eq := by rintro _ _ rfl; rfl
  touches := by rintro _ _ _ _ rfl rfl _; rfl

lemma not_sameLimit_anyLimits : ¬ anyLimits.SameLimit := fun h => Nat.zero_ne_one (h True.intro)

variable {scope : Nat → Nat → Prop} {fuel : Nat} {ts : List Token}

/-- A reader that ends alike under any limits needs no levels. -/
lemma needs_of_agree {p : Parser α} (h : Agree anyLimits Eq p p) (stop : Token) (ts : List Token) :
    Needs scope (fun _ => p) stop ts 0 (p ⟨stop, 0⟩ ts) := by
  have hend : ∀ limit, SameEnd anyLimits Eq (p ⟨stop, limit⟩ ts) (p ⟨stop, 0⟩ ts) := fun limit =>
    h rfl True.intro (List.forall₂_same.2 fun _ _ => rfl)
  refine ⟨fun {limit n} _ _ => ?_, fun _ hn => absurd hn (Nat.not_lt_zero _), fun e he => ?_⟩
  · have hlimit := hend limit
    generalize p ⟨stop, limit⟩ ts = r at hlimit ⊢
    generalize p ⟨stop, 0⟩ ts = r' at hlimit ⊢
    cases hlimit with
    | @ok a b value rest =>
      obtain ⟨a, resta, ha⟩ := a
      obtain ⟨b, restb, hb⟩ := b
      cases value
      cases List.forall₂_eq_eq_eq ▸ rest
      rfl
    | @error e e' fault token _ =>
      obtain ⟨fault, token⟩ := e
      obtain ⟨fault', token'⟩ := e'
      cases fault
      cases token
      rfl
  · have hzero := hend 0
    rw [he] at hzero
    cases hzero with
    | error _ _ limit => exact Bool.eq_false_iff.2 fun hl => not_sameLimit_anyLimits (limit hl)

namespace Needs

variable {q : Nat → Parser α} {g : Nat → α → Parser β} {stop : Token} {need : Nat}

/-- Where the first reader refuses the nesting, nothing is read behind it. -/
lemma missed_bind {r : Except ParseError (Parsed α ts)} (h : Needs scope q stop ts need r)
    {limit n : Nat} (hs : scope limit n) (hn : n < need) :
    ∃ t, (q n >>= g n) ⟨stop, limit⟩ ts = .error ⟨.tooDeep limit, t⟩ := by
  obtain ⟨t, ht⟩ := h.missed hs hn
  exact ⟨t, bind_of_error ht _⟩

/-- Nothing is needed behind an error. -/
lemma bind_error {e : ParseError} (h : Needs scope q stop ts need (.error e)) :
    Needs scope (fun n => q n >>= g n) stop ts need (.error e) where
  reached hs hn := bind_of_error (h.reached hs hn) _
  missed hs hn := h.missed_bind hs hn
  unlimited := by
    rintro _ ⟨⟩
    exact h.unlimited e rfl

/-- What is read first and what is read behind it need together what the one needs that needs
more. -/
lemma bind_ok {first : Parsed α ts} {need' : Nat} {r' : Except ParseError (Parsed β first.rest)}
    (h : Needs scope q stop ts need (.ok first))
    (h' : Needs scope (fun n => g n first.value) stop first.rest need' r') :
    Needs scope (fun n => q n >>= g n) stop ts (max need need') (r'.map first.behind) where
  reached hs hn := by
    rw [bind_of_ok (h.reached hs (Nat.le_trans (Nat.le_max_left _ _) hn)),
      h'.reached hs (Nat.le_trans (Nat.le_max_right _ _) hn)]
  missed {limit n} hs hn := by
    rcases Nat.lt_or_ge n need with hlt | hle
    · exact h.missed_bind hs hlt
    · obtain ⟨t, ht⟩ := h'.missed hs (show n < need' by omega)
      exact ⟨t, by rw [bind_of_ok (h.reached hs hle), ht]; rfl⟩
  unlimited e he := by
    cases r' with
    | error e' =>
      cases he
      exact h'.unlimited e rfl
    | ok second => cases he

end Needs

namespace Tracks

variable {p : Counting α} {q : Nat → Parser α}

lemma congr {q' : Nat → Parser α} (h : Tracks scope fuel p q ts)
    (hq : ∀ limit n stop, scope limit n → q' n ⟨stop, limit⟩ ts = q n ⟨stop, limit⟩ ts) :
    Tracks scope fuel p q' ts := by
  intro stop
  obtain ⟨need, r, hneeds, hp⟩ := h stop
  refine ⟨need, r, ⟨fun hs => ?_, fun hs => ?_, hneeds.unlimited⟩, fun limit n m hs => ?_⟩
  · rw [hq _ _ _ hs]
    exact hneeds.reached hs
  · rw [hq _ _ _ hs]
    exact hneeds.missed hs
  · rw [hq _ _ _ hs]
    exact hp limit n m hs

/-- Readers that agree at every level do so in a smaller scope. -/
lemma of_allLevels (h : Tracks AllLevels fuel p q ts) : Tracks scope fuel p q ts := by
  intro stop
  obtain ⟨need, r, hneeds, hp⟩ := h stop
  exact ⟨need, r, ⟨fun _ => hneeds.reached True.intro, fun _ => hneeds.missed True.intro,
    hneeds.unlimited⟩, fun limit n m _ => hp limit n m True.intro⟩

/-- Less fuel is checked at fewer levels. -/
lemma of_fuel_le {fuel' : Nat} (h : Tracks scope fuel p q ts) (hle : fuel' ≤ fuel) :
    Tracks scope fuel' p q ts := by
  intro stop
  obtain ⟨need, r, hneeds, hp⟩ := h stop
  exact ⟨need, r, hneeds, fun limit n m hs hm hn => hp limit n m hs hm (Nat.lt_of_lt_of_le hn hle)⟩

/-- Without fuel nothing is said about the reader that counts. -/
lemma zero {p' : Counting α} (h : Tracks scope fuel p q ts) : Tracks scope 0 p' q ts := by
  intro stop
  obtain ⟨need, r, hneeds, -⟩ := h stop
  exact ⟨need, r, hneeds, fun _ _ _ _ _ hn => absurd hn (Nat.not_lt_zero _)⟩

/-- A reader that opens no level agrees with itself under any limit. -/
lemma lift {p : Parser α} (h : Agree anyLimits Eq p p) :
    Tracks scope fuel (Counting.lift p) (fun _ => p) ts := by
  intro stop
  refine ⟨0, _, needs_of_agree h stop ts, fun limit n m _ _ _ => ?_⟩
  rw [Counting.lift, map_apply, Meter.raise_zero]

lemma pure (a : α) : Tracks scope fuel (Pure.pure a) (fun _ => Pure.pure a) ts := lift (.pure rfl)

/-- Readers that track each other do so one behind the other. -/
lemma bind {f : α → Counting β} {g : Nat → α → Parser β} (hp : Tracks scope fuel p q ts)
    (hf : ∀ a rest, rest <:+ ts → Tracks scope fuel (f a) (fun n => g n a) rest) :
    Tracks scope fuel (p >>= f) (fun n => q n >>= g n) ts := by
  intro stop
  obtain ⟨need, r, hneeds, hp⟩ := hp stop
  have herror : ∀ {limit n m e} (m' : Meter), scope limit n → m.opened + n = limit → n < fuel →
      q n ⟨stop, limit⟩ ts = .error e → (p >>= f) m ⟨stop, limit⟩ ts =
        ((q n >>= g n) ⟨stop, limit⟩ ts).map (Parsed.map (·, m')) := by
    intro limit n m e m' hs hm hn he
    rw [bind_of_error he]
    refine Counting.bind_of_error ?_ _
    rw [hp limit n m hs hm hn, he]
    rfl
  cases r with
  | error e =>
    refine ⟨need, .error e, hneeds.bind_error, fun limit n m hs hm hn => ?_⟩
    have hend : ∃ e', q n ⟨stop, limit⟩ ts = .error e' := by
      rcases Nat.lt_or_ge n need with hlt | hle
      · exact (hneeds.missed hs hlt).imp' _ fun _ => id
      · exact ⟨e, hneeds.reached hs hle⟩
    obtain ⟨e', he'⟩ := hend
    exact herror _ hs hm hn he'
  | ok first =>
    obtain ⟨need', r', hneeds', hf⟩ := hf first.value first.rest first.isSuffix stop
    refine ⟨max need need', r'.map first.behind, hneeds.bind_ok hneeds',
      fun limit n m hs hm hn => ?_⟩
    rcases Nat.lt_or_ge n need with hlt | hle
    · obtain ⟨t, ht⟩ := hneeds.missed hs hlt
      exact herror _ hs hm hn ht
    · have hfirst : p m ⟨stop, limit⟩ ts = .ok (first.map (·, m.raise need)) := by
        rw [hp limit n m hs hm hn, hneeds.reached hs hle]
        rfl
      have hsecond : f first.value (m.raise need) ⟨stop, limit⟩ first.rest =
          (g n first.value ⟨stop, limit⟩ first.rest).map
            (Parsed.map (·, m.raise (max need need'))) := by
        rw [← Meter.raise_raise]
        exact hf limit n (m.raise need) hs hm hn
      change _ = ((q n >>= g n) ⟨stop, limit⟩ ts).map _
      rw [Counting.bind_of_ok hfirst, bind_of_ok (hneeds.reached hs hle)]
      change (f first.value (m.raise need) ⟨stop, limit⟩ first.rest).map first.behind = _
      rw [hsecond]
      cases g n first.value ⟨stop, limit⟩ first.rest <;> rfl

lemma map (f : α → β) (h : Tracks scope fuel p q ts) :
    Tracks scope fuel (f <$> p) (fun n => f <$> q n) ts := bind h fun a _ _ => pure (f a)

/-- A level is opened in front and closed behind. -/
lemma within (h : Tracks AllLevels fuel p q ts) :
    Tracks AllLevels (fuel + 1) (Counting.within p) (shift q) ts := by
  intro stop
  obtain ⟨need, r, hneeds, hp⟩ := h stop
  refine ⟨need + 1, r, ⟨fun {limit n} _ hn => ?_, fun {limit n} _ hn => ?_, hneeds.unlimited⟩, ?_⟩
  · obtain ⟨n, rfl⟩ := Nat.exists_eq_succ_of_ne_zero (show n ≠ 0 by omega)
    exact hneeds.reached True.intro (Nat.le_of_succ_le_succ hn)
  · cases n with
    | zero => exact ⟨_, rfl⟩
    | succ n => exact hneeds.missed True.intro (Nat.lt_of_succ_lt_succ hn)
  · intro limit n m _ hm hn
    cases n with
    | zero =>
      have hfull : Counting.enter m ⟨stop, limit⟩ ts = tooDeep ⟨stop, limit⟩ ts := by
        rw [Counting.enter, if_pos (show limit < m.opened + 1 by omega)]
      exact Counting.bind_of_error (hfull.trans rfl) _
    | succ n =>
      have henter : Counting.enter m ⟨stop, limit⟩ ts = .ok ⟨((), m.up), ts, List.suffix_rfl⟩ := by
        rw [Counting.enter, if_neg (show ¬ limit < m.opened + 1 by omega)]
        rfl
      have hinner := hp limit n m.up True.intro (show m.opened + 1 + n = limit by omega)
        (Nat.lt_of_succ_lt_succ hn)
      rw [Counting.within, Counting.bind_of_ok henter]
      change ((p >>= fun a => Counting.leave >>= fun _ => Pure.pure a) m.up ⟨stop, limit⟩ ts).map _
        = (q n ⟨stop, limit⟩ ts).map _
      cases hq : q n ⟨stop, limit⟩ ts with
      | error e =>
        rw [hq] at hinner
        rw [Counting.bind_of_error hinner]
        rfl
      | ok a =>
        rw [hq] at hinner
        rw [Counting.bind_of_ok hinner, ← Meter.down_raise_up]
        rfl

/-! ### Loops -/

/-- Both readers take a token and then do as readers that track each other. -/
lemma skip {p' : Counting α} {q' : Nat → Parser α} {t : Token} (h : Tracks scope fuel p q ts)
    (hp : ∀ m s, p' m s (t :: ts) = (p m s ts).map (Parsed.skip t))
    (hq : ∀ n s, q' n s (t :: ts) = (q n s ts).map (Parsed.skip t)) :
    Tracks scope fuel p' q' (t :: ts) := by
  intro stop
  obtain ⟨need, r, hneeds, hp'⟩ := h stop
  refine ⟨need, r.map (Parsed.skip t), ⟨fun hs hn => ?_, fun hs hn => ?_, fun e he => ?_⟩, ?_⟩
  · rw [hq, hneeds.reached hs hn]
  · obtain ⟨u, hu⟩ := hneeds.missed hs hn
    exact ⟨u, by rw [hq, hu]; rfl⟩
  · cases r with
    | error e' =>
      cases he
      exact hneeds.unlimited e rfl
    | ok a => cases he
  · intro limit n m hs hm hn
    rw [hp, hq, hp' limit n m hs hm hn]
    cases q n ⟨stop, limit⟩ ts <;> rfl

/-- Both readers take nothing. -/
lemma still {p : Counting α} {q : Nat → Parser α} (a : α)
    (hp : ∀ m s, p m s ts = .ok ⟨(a, m), ts, List.suffix_rfl⟩)
    (hq : ∀ n s, q n s ts = .ok ⟨a, ts, List.suffix_rfl⟩) : Tracks scope fuel p q ts := by
  intro stop
  refine ⟨0, .ok ⟨a, ts, List.suffix_rfl⟩, ⟨fun _ _ => hq _ _,
    fun _ hn => absurd hn (Nat.not_lt_zero _), fun e he => ?_⟩, fun limit n m _ _ _ => ?_⟩
  · cases he
  · rw [hp, hq, Meter.raise_zero]
    rfl

/-- Both readers refuse the tokens. -/
lemma refused {p : Counting α} {q : Nat → Parser α} (e : Token → ParseError)
    (he : ∀ stop, (e stop).fault.isLimit = false) (hp : ∀ m s, p m s ts = .error (e s.stop))
    (hq : ∀ n s, q n s ts = .error (e s.stop)) : Tracks scope fuel p q ts := by
  intro stop
  refine ⟨0, .error (e stop), ⟨fun _ _ => hq _ _, fun _ hn => absurd hn (Nat.not_lt_zero _), ?_⟩,
    fun limit n m _ _ _ => ?_⟩
  · rintro _ ⟨⟩
    exact he stop
  · rw [hp, hq]
    rfl

/-- What is read behind the next token. -/
lemma take_bind {f : Token → Counting β} {g : Nat → Token → Parser β} (what : Expectation)
    (h : ∀ t rest, ts = t :: rest → Tracks scope fuel (f t) (fun n => g n t) rest) :
    Tracks scope fuel (Counting.lift (take what) >>= f) (fun n => take what >>= g n) ts := by
  cases ts with
  | nil =>
    exact refused (fun stop => ⟨.expected what, stop⟩) (fun _ => rfl) (fun _ _ => rfl)
      fun _ _ => rfl
  | cons t rest =>
    have htake : ∀ s, take what s (t :: rest) = .ok ⟨t, rest, rest.suffix_cons t⟩ := fun _ => rfl
    have hcounted : ∀ m s, Counting.lift (take what) m s (t :: rest) =
        .ok ⟨(t, m), rest, rest.suffix_cons t⟩ := fun _ _ => rfl
    refine skip (h t rest rfl) (fun m s => ?_) fun n s => ?_
    · exact Counting.bind_of_ok (hcounted m s) f
    · exact bind_of_ok (htake s) (g n)

end Tracks

/-- Neither turn goes on, or both do and their readers track each other. -/
inductive TurnTracks (scope : Nat → Nat → Prop) (fuel : Nat) (rest : List Token) :
    Option (Counting α) → (Nat → Option (Parser α)) → Prop where
  | none {q : Nat → Option (Parser α)} : (∀ n, q n = none) → TurnTracks scope fuel rest none q
  | some {p : Counting α} {q : Nat → Option (Parser α)} {q' : Nat → Parser α} :
      (∀ n, q n = some (q' n)) → Tracks scope fuel p q' rest →
        TurnTracks scope fuel rest (some p) q

namespace Tracks

/-- Both sides take the turn or both leave it. -/
lemma optional {turn : Counting.CountingTurn α} {turn' : Nat → Turn α}
    (h : ∀ t rest, t :: rest <:+ ts →
      TurnTracks scope fuel rest (turn t rest) fun n => turn' n t rest) :
    Tracks scope fuel (Counting.optional turn) (fun n => Parser.optional (turn' n)) ts := by
  cases ts with
  | nil => exact still Option.none (fun _ _ => rfl) fun _ _ => rfl
  | cons t rest =>
    have hturn := h t rest List.suffix_rfl
    generalize hp : turn t rest = o at hturn
    cases hturn with
    | none hq =>
      refine still Option.none (fun m s => ?_) fun n s => ?_
      · simp only [Counting.optional, hp, Parsed.still]
      · simp only [Parser.optional, hq n]
    | some hq hround =>
      exact skip (map Option.some hround) (fun m s => Counting.optional_of_some hp)
        fun n s => optional_of_some (hq n)

/-- The induction is on the number of tokens: every round takes one. -/
lemma many {turn : Counting.CountingTurn (Option α)} {turn' : Nat → Turn (Option α)}
    (h : ∀ t rest, t :: rest <:+ ts →
      TurnTracks scope fuel rest (turn t rest) fun n => turn' n t rest) :
    Tracks scope fuel (Counting.many turn) (fun n => Parser.many (turn' n)) ts := by
  induction hn : ts.length using Nat.strongRecOn generalizing ts with
  | ind k ih =>
    cases ts with
    | nil =>
      refine still [] (fun m s => ?_) fun n s => ?_
      · rw [Counting.many, Parsed.still]
      · rw [Parser.many]
    | cons t rest =>
      have hturn := h t rest List.suffix_rfl
      generalize hp : turn t rest = o at hturn
      cases hturn with
      | none hq =>
        refine still [] (fun m s => ?_) fun n s => ?_
        · rw [Counting.many]
          simp only [hp, Parsed.still]
        · rw [Parser.many]
          simp only [hq n]
      | some hq hround =>
        refine skip (bind hround fun one mid hmid => map (one.toList ++ ·) ?_)
          (fun m s => Counting.many_of_some hp) fun n s => many_of_some (hq n)
        have hlen : mid.length < k := by
          have := hmid.length_le
          rw [List.length_cons] at hn
          omega
        exact ih mid.length hlen
          (fun t' rest' hsuffix => h t' rest' (hsuffix.trans (hmid.trans (rest.suffix_cons t)))) rfl

end Tracks

end Parser

end LogQuery
