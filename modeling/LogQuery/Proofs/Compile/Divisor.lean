import LogQuery.Compile.Stage
import LogQuery.Proofs.Parser.WellFormed
import LogQuery.Proofs.Syntax.Span

namespace LogQuery

namespace Sql.Expr

mutual

/-- What is divided by in an expression. An interval counts as well, as the start of an interval is
found by a division. -/
def divisors : Expr → List Expr
  | .paren e | .not e | .nullTest e _ | .element e _ | .distinct e | .cast e _ | .edgeRow e _ _ =>
    divisors e
  | .tuple es | .call _ es => allDivisors es
  | .chain op es => (if op = .divide then es.tail else []) ++ allDivisors es
  | .applied _ params args => allDivisors params ++ allDivisors args
  | .between e first last => divisors e ++ divisors first ++ divisors last
  | .interval amount _ => [.nat amount]
  | .caseWhen branches otherwise => branchDivisors branches ++ divisors otherwise
  | .sortedAt e _ _ filter | .mostFrequent e _ filter => divisors e ++ allDivisors filter
  | _ => []

def allDivisors : List Expr → List Expr
  | [] => []
  | e :: rest => divisors e ++ allDivisors rest

def branchDivisors : List (Expr × Expr) → List Expr
  | [] => []
  | (condition, value) :: rest => divisors condition ++ divisors value ++ branchDivisors rest

end

variable {d : Dialect}

/-- The text of the expression is that of a number above zero. -/
def IsPositive (d : Dialect) (e : Expr) : Prop :=
  ∃ x, Binary64.ofText? (e.render d) = some x ∧ x.isPositive = true

/-- Everything that the expression divides by is written as a number above zero. -/
def DividesSafely (d : Dialect) (e : Expr) : Prop := ∀ divisor ∈ e.divisors, divisor.IsPositive d

lemma isPositive_nat {n : Nat} (hn : 0 < n) : (nat n).IsPositive d :=
  ⟨.ofNat n, Binary64.ofText?_toString n, Binary64.isPositive_ofNat hn⟩

/-- A finite positive number is written so that it is read as a positive one. -/
lemma isPositive_number {x : Binary64} (hfinite : x.isFinite = true)
    (hpositive : x.isPositive = true) : (number x).IsPositive d :=
  ⟨x, Binary64.ofText?_plain hfinite, hpositive⟩

/-- The start of an interval of time is found by a division by its seconds, if by any. -/
lemma divisors_timeBucket (name : String) {seconds : Nat} {e : Expr}
    (h : e ∈ (d.timeBucket (.column name) seconds).divisors) : e = .nat seconds := by
  cases d with
  | clickHouse =>
    simp only [Dialect.timeBucket] at h
    split at h
    · simp [divisors, allDivisors] at h
    · simpa [divisors, allDivisors] using h
  | sqlite =>
    simp only [Dialect.timeBucket] at h
    split at h
    · simp [divisors, allDivisors] at h
    · simpa [divisors, allDivisors, binary] using h

/-- The start of an interval of numbers is found by a division by its width. -/
lemma divisors_numericBin (name : String) (width : Binary64) :
    (d.numericBin (.column name) width).divisors = [.number width] := by
  cases d <;> simp [Dialect.numericBin, divisors, allDivisors, binary]

/-- A bucket of time divides by its seconds. -/
lemma dividesSafely_timeBucket (name : String) {seconds : Nat} (h : 0 < seconds) :
    (d.timeBucket (.column name) seconds).DividesSafely d := by
  intro e he
  rw [divisors_timeBucket name he]
  exact isPositive_nat h

/-- A bucket of numbers divides by its width. -/
lemma dividesSafely_numericBin (name : String) {width : Binary64}
    (hfinite : width.isFinite = true) (hpositive : width.isPositive = true) :
    (d.numericBin (.column name) width).DividesSafely d := by
  intro e he
  rw [divisors_numericBin, List.mem_singleton] at he
  rw [he]
  exact isPositive_number hfinite hpositive

end Sql.Expr

lemma TimeUnit.seconds_pos (unit : TimeUnit) : 0 < unit.seconds := by
  cases unit <;> decide

namespace Span

variable {span : Span}

/-- A bucket of time is never empty, and its seconds fit into 64 bits. -/
lemma bucketSeconds_bounds (h : span.WellFormed) :
    1 ≤ span.bucketSeconds ∧ span.bucketSeconds ≤ maxSeconds := by
  have hmax : 1 ≤ maxSeconds := by decide
  cases span with
  | time amount unit =>
    have hpos : 0 < amount * unit.seconds := Nat.mul_pos h unit.seconds_pos
    exact ⟨le_min hmax hpos, min_le_left _ _⟩
  | numeric width =>
    rw [bucketSeconds, if_pos h.1]
    exact ⟨le_min hmax (le_max_left _ _), min_le_left _ _⟩

/-- The start of the bucket is found by a division that is defined. -/
lemma dividesSafely_bucketStart (h : span.WellFormed) (d : Dialect) (name : String) :
    (Draft.bucketStart d (.column name) span).DividesSafely d := by
  cases span with
  | time amount unit => exact Sql.Expr.dividesSafely_timeBucket name (bucketSeconds_bounds h).1
  | numeric width => exact Sql.Expr.dividesSafely_numericBin name h.2 h.1

/-- A span that is read from a text is above zero, is read again from its own text, and divides by
what is above zero. An amount with any spelling of a unit behind it is a span, and no spelling is
hidden by another one, nor a number by an amount, although the first of them to be found is taken
for good. -/
theorem ofText?_sound :
    (∀ (text : String) (span : Span), ofText? text = some span →
      span.WellFormed ∧ ofText? span.display = some span ∧
        (1 ≤ span.bucketSeconds ∧ span.bucketSeconds ≤ twoTo 64 - 1) ∧
          ∀ (d : Dialect) (name : String),
            (Draft.bucketStart d (.column name) span).DividesSafely d ∧
              (d.timeBucket (.column name) span.bucketSeconds).DividesSafely d) ∧
    (∀ (n : Nat) (unit : TimeUnit) (spelling word : String), 1 ≤ n → n ≤ twoTo 64 - 1 →
      spelling ∈ unit.spellings → Text.equalIgnoringCase word spelling = true →
        ofText? (toString n ++ word) = some (.time n unit)) ∧
    ∀ text : String, ofText? text = ofTextInOrder? text := by
  refine ⟨fun text span h => ?_, fun n unit spelling word hn hle hspelling hword => ?_,
    ofText?_eq_ofTextInOrder?⟩
  · have hspan := wellFormed_of_ofText? h
    have hseconds := bucketSeconds_bounds hspan
    exact ⟨hspan, ofText?_display h, hseconds, fun d name =>
      ⟨dividesSafely_bucketStart hspan d name, Sql.Expr.dividesSafely_timeBucket name hseconds.1⟩⟩
  · have hpos := twoTo_pos 64
    exact ofText?_amount hn (by omega) hspelling hword

/-- Fifteen minutes and a width of two and a half are read, written and divided by. -/
theorem ofText?_sound_minutes :
    (ofText? "15MIN" = some (.time 15 .minute) ∧ ofText? "15m" = some (.time 15 .minute) ∧
      (Draft.bucketStart .sqlite (.column "timestamp") (.time 15 .minute)).DividesSafely .sqlite) ∧
    ofText? "2.5" = some (.numeric (.ofRatio false 5 2)) ∧
      ofText? (Binary64.ofRatio false 5 2).plain = some (.numeric (.ofRatio false 5 2)) ∧
        (Draft.bucketStart .sqlite (.column "bytes")
          (.numeric (.ofRatio false 5 2))).DividesSafely .sqlite := by
  obtain ⟨hsound, hamount, -⟩ := ofText?_sound
  have hminutes : ofText? "15MIN" = some (.time 15 .minute) :=
    hamount 15 .minute "min" "MIN" (by decide) (by decide) (by decide) (by decide)
  have hwidth : ofText? "2.5" = some (.numeric (.ofRatio false 5 2)) := by decide +kernel
  obtain ⟨-, hdisplay, -, hbuckets⟩ := hsound _ _ hminutes
  obtain ⟨-, hdisplay', -, hbuckets'⟩ := hsound _ _ hwidth
  exact ⟨⟨hminutes, hdisplay, (hbuckets .sqlite "timestamp").1⟩, hwidth, hdisplay',
    (hbuckets' .sqlite "bytes").1⟩

end Span

end LogQuery
