import LogQuery.Proofs.Number.Reading
import LogQuery.Proofs.Number.Shortest
import LogQuery.Sql.Bucket
import Mathlib.Data.Rat.Floor
import Mathlib.Order.Bounds.Basic

namespace LogQuery.Sql

/-- A value in a row. A point of time is its seconds since 1970. -/
inductive Quantity where
  | int (n : Int)
  | fraction (q : ℚ)
  | text (s : String)
  | time (seconds : Int)
  deriving DecidableEq, Repr

/-! ### Numbers in texts -/

/-- The whole number that digits alone write. -/
def wholeNumber? (text : String) : Option Nat :=
  if text.toList.isEmpty || !text.toList.all Char.isDigit then none
  else some (Numeral.digitsValue text.toList)

/-- The whole number in front of a text, with an optional sign. -/
def leadingInteger (text : String) : Int :=
  let numeral := Numeral.splitSign text.toList
  let value : Int := Numeral.digitsValue (numeral.2.takeWhile Char.isDigit)
  if numeral.1 then -value else value

lemma wholeNumber?_toString (n : Nat) : wholeNumber? (toString n) = some n := by
  have hdigits : (toString n).toList.all Char.isDigit = true :=
    List.all_eq_true.2 fun c hc => Binary64.isDigit_of_mem_toString hc
  rw [wholeNumber?, hdigits, List.isEmpty_eq_false_iff.2 (Binary64.toString_toList_ne_nil n),
    Numeral.digitsValue_toString]
  rfl

lemma takeWhile_toString (n : Nat) :
    (toString n).toList.takeWhile Char.isDigit = (toString n).toList :=
  List.takeWhile_eq_self_iff.2 fun _ hc => Binary64.isDigit_of_mem_toString hc

/-- The digits of an integer are read back, with its sign. -/
lemma leadingInteger_toString (n : Int) : leadingInteger (toString n) = n := by
  cases n with
  | ofNat n =>
    have htext : toString (Int.ofNat n) = toString n := rfl
    have hsign := Numeral.splitSign_digits fun c hc => Binary64.isDigit_of_mem_toString (n := n) hc
    rw [leadingInteger, htext, hsign]
    dsimp only
    rw [takeWhile_toString, Numeral.digitsValue_toString]
    rfl
  | negSucc n =>
    have htext : (toString (Int.negSucc n)).toList = '-' :: (toString (n + 1)).toList := by
      have happend : toString (Int.negSucc n) = "-" ++ toString (n + 1) := rfl
      rw [happend, String.toList_append]
      rfl
    have hsign : Numeral.splitSign ('-' :: (toString (n + 1)).toList) =
        (true, (toString (n + 1)).toList) := rfl
    rw [leadingInteger, htext, hsign]
    dsimp only
    rw [takeWhile_toString, Numeral.digitsValue_toString]
    rfl

/-! ### Evaluation -/

/-- The value of an operator between two values. SQLite divides whole numbers toward zero. They are
exact here: those of SQLite have 64 bits, but neither a quotient nor its product with the divisor is
farther from zero than the value. -/
def Operator.compute? : Dialect → Operator → Quantity → Quantity → Option Quantity
  | .clickHouse, .divide, .int m, .int n => if n = 0 then none else some (.fraction (m / n))
  | .sqlite, .divide, .int m, .int n => if n = 0 then none else some (.int (m.tdiv n))
  | _, .multiply, .int m, .int n => some (.int (m * n))
  | _, _, _, _ => none

/-- The value of operands with an operator between any two. -/
def Operator.computeAll? (d : Dialect) (op : Operator) : List Quantity → Option Quantity
  | [] => none
  | v :: vs => vs.foldlM (op.compute? d) v

def scalar? : Dialect → String → List Quantity → Option Quantity
  | .clickHouse, "floor", [.fraction q] => some (.int ⌊q⌋)
  | .sqlite, "strftime", [.text "%s", .time seconds] => some (.text (toString seconds))
  | .sqlite, "datetime", [.int seconds, .text "unixepoch"] => some (.time seconds)
  | _, _, _ => none

/-- A value as a whole number; what stands behind the point of a fraction is cut off. -/
def Quantity.truncate? : Quantity → Option Quantity
  | .int n => some (.int n)
  | .fraction q => some (.int (q.num.tdiv q.den))
  | .text s => some (.int (leadingInteger s))
  | .time _ => none

namespace Expr

mutual

/-- The value of an expression, given the values of the columns. A number is what its digits say. -/
def quantity? (d : Dialect) (row : String → Option Quantity) : Expr → Option Quantity
  | .column name => row name
  | .text s => some (.text s)
  | .number x => (wholeNumber? x.plain).map fun n : Nat => .int n
  | .nat n => some (.int n)
  | .paren e => quantity? d row e
  | .chain op operands => (quantities? d row operands).bind (op.computeAll? d)
  | .call function args => (quantities? d row args).bind (scalar? d function)
  | .cast e .integer => (quantity? d row e).bind Quantity.truncate?
  | _ => none

def quantities? (d : Dialect) (row : String → Option Quantity) : List Expr → Option (List Quantity)
  | [] => some []
  | e :: rest => do return (← quantity? d row e) :: (← quantities? d row rest)

end

variable {d : Dialect} {row : String → Option Quantity} {e : Expr} {v : Quantity}

lemma quantity?_text (s : String) : quantity? d row (.text s) = some (.text s) := rfl

lemma quantity?_nat (n : Nat) : quantity? d row (.nat n) = some (.int n) := rfl

/-- A width that prints as a natural number counts as that number. -/
lemma quantity?_number {x : Binary64} {n : Nat} (h : x.plain = toString n) :
    quantity? d row (.number x) = some (.int n) := by
  have hunfold : quantity? d row (.number x) =
      (wholeNumber? x.plain).map fun n : Nat => .int n := rfl
  rw [hunfold, h, wholeNumber?_toString]
  rfl

lemma quantities?_cons {vs : List Quantity} {es : List Expr} (h : quantity? d row e = some v)
    (hs : quantities? d row es = some vs) : quantities? d row (e :: es) = some (v :: vs) := by
  have hunfold : quantities? d row (e :: es) =
      (quantity? d row e).bind fun v => (quantities? d row es).bind fun vs => some (v :: vs) := rfl
  rw [hunfold, h, hs]
  rfl

lemma quantities?_single (h : quantity? d row e = some v) : quantities? d row [e] = some [v] :=
  quantities?_cons h rfl

lemma quantity?_call {function : String} {args : List Expr} {vs : List Quantity}
    (h : quantities? d row args = some vs) :
    quantity? d row (.call function args) = scalar? d function vs := by
  have hunfold : quantity? d row (.call function args) =
      (quantities? d row args).bind (scalar? d function) := rfl
  rw [hunfold, h, Option.bind_some]

lemma quantity?_binary {op : Operator} {left right : Expr} {w : Quantity}
    (h : quantity? d row left = some v) (h' : quantity? d row right = some w) :
    quantity? d row (.binary op left right) = op.compute? d v w := by
  have hunfold : quantity? d row (.binary op left right) =
      (quantities? d row [left, right]).bind (op.computeAll? d) := rfl
  rw [hunfold, quantities?_cons h (quantities?_single h')]
  simp [Operator.computeAll?]

lemma quantity?_integer (h : quantity? d row e = some v) :
    quantity? d row (.cast e .integer) = v.truncate? := by
  have hunfold : quantity? d row (.cast e .integer) =
      (quantity? d row e).bind Quantity.truncate? := rfl
  rw [hunfold, h, Option.bind_some]

end Expr

/-- ClickHouse divides to a fraction, so that the floor is taken of the exact quotient. -/
lemma Operator.compute?_divide_clickHouse (m : Int) {n : Nat} (h : 0 < n) :
    divide.compute? .clickHouse (.int m) (.int n) = some (.fraction (m / n)) :=
  if_neg (by omega)

/-- SQLite divides integers toward zero. -/
lemma Operator.compute?_divide_sqlite (m : Int) {n : Nat} (h : 0 < n) :
    divide.compute? .sqlite (.int m) (.int n) = some (.int (m.tdiv n)) :=
  if_neg (by omega)

/-! ### Multiples -/

/-- The number at which a bucket starts that holds a value: the largest multiple of the width that
is not above the value. -/
def IsBucketStart (width : Nat) (v start : Int) : Prop :=
  IsGreatest {m : Int | (width : Int) ∣ m ∧ m ≤ v} start

section

variable {width : Nat} (hwidth : 0 < width) (v : Int)
include hwidth

/-- Dividing downwards gives the start of the bucket. -/
lemma isBucketStart_floor : IsBucketStart width v (v / width * width) := by
  have hpos : (0 : Int) < width := by omega
  refine ⟨⟨Int.dvd_mul_left _ _, Int.ediv_mul_le v (Int.ne_of_gt hpos)⟩, ?_⟩
  rintro m ⟨⟨k, rfl⟩, hle⟩
  have hk : k ≤ v / width := Int.le_ediv_of_mul_le hpos (by rwa [Int.mul_comm])
  rw [Int.mul_comm]
  exact Int.mul_le_mul_of_nonneg_right hk hpos.le

/-- A quotient toward zero leads to the next multiple, where it is not the one rounded down. -/
lemma tdiv_mul_eq : v.tdiv width * width =
    v / width * width + if 0 ≤ v ∨ (width : Int) ∣ v then 0 else (width : Int) := by
  have hsign : (width : Int).sign = 1 := Int.sign_eq_one_of_pos (by omega)
  rw [Int.tdiv_eq_ediv, hsign, Int.add_mul]
  split_ifs
  · rw [Int.zero_mul]
  · rw [Int.one_mul]

/-- The two divisions differ for the negative values that are no multiple. -/
lemma tdiv_mul_eq_iff : v.tdiv width * width = v / width * width ↔ 0 ≤ v ∨ (width : Int) ∣ v := by
  rw [tdiv_mul_eq hwidth]
  split_ifs with h <;> simp only [h, iff_true, iff_false] <;> omega

/-- Dividing toward zero gives the start of the bucket just for multiples and from zero upwards. -/
lemma isBucketStart_tdiv_iff :
    IsBucketStart width v (v.tdiv width * width) ↔ 0 ≤ v ∨ (width : Int) ∣ v := by
  rw [← tdiv_mul_eq_iff hwidth]
  refine ⟨fun h => h.unique (isBucketStart_floor hwidth v), fun h => ?_⟩
  rw [h]
  exact isBucketStart_floor hwidth v

end

/-! ### The expressions of the dialects -/

section

variable {row : String → Option Quantity} {e : Expr}

lemma quantity?_numericBin_clickHouse {v : Int} {x : Binary64} {width : Nat}
    (he : e.quantity? .clickHouse row = some (.int v)) (hx : x.plain = toString width)
    (hwidth : 0 < width) :
    (Dialect.clickHouse.numericBin e x).quantity? .clickHouse row =
      some (.int (v / width * width)) := by
  have hquotient : (Expr.binary .divide e (.number x)).quantity? .clickHouse row =
      some (.fraction (v / width)) := by
    rw [Expr.quantity?_binary he (Expr.quantity?_number hx),
      Operator.compute?_divide_clickHouse v hwidth]
  have hfloor : (Expr.call "floor" [.binary .divide e (.number x)]).quantity? .clickHouse row =
      some (.int (v / width)) := by
    rw [Expr.quantity?_call (Expr.quantities?_single hquotient)]
    exact congrArg (some ∘ Quantity.int) (Rat.floor_intCast_div_natCast v width)
  exact Expr.quantity?_binary hfloor (Expr.quantity?_number hx)

lemma quantity?_numericBin_sqlite {v : Int} {x : Binary64} {width : Nat}
    (he : e.quantity? .sqlite row = some (.int v)) (hx : x.plain = toString width)
    (hwidth : 0 < width) :
    (Dialect.sqlite.numericBin e x).quantity? .sqlite row =
      some (.int (v.tdiv width * width)) := by
  have hquotient : (Expr.binary .divide e (.number x)).quantity? .sqlite row =
      some (.int (v.tdiv width)) := by
    rw [Expr.quantity?_binary he (Expr.quantity?_number hx),
      Operator.compute?_divide_sqlite v hwidth]
  exact Expr.quantity?_binary (Expr.quantity?_integer hquotient) (Expr.quantity?_number hx)

/-- The seconds of a point of time go through a text. -/
lemma quantity?_epoch {epoch : Int} (he : e.quantity? .sqlite row = some (.time epoch)) :
    (Expr.cast (.call "strftime" [.text "%s", e]) .integer).quantity? .sqlite row =
      some (.int epoch) := by
  have htext : (Expr.call "strftime" [.text "%s", e]).quantity? .sqlite row =
      some (.text (toString epoch)) :=
    Expr.quantity?_call (Expr.quantities?_cons (Expr.quantity?_text _) (Expr.quantities?_single he))
  rw [Expr.quantity?_integer htext, Quantity.truncate?, leadingInteger_toString]

/-- A span without a format of its own is counted in seconds from the epoch. -/
lemma quantity?_timeBucket_sqlite {epoch : Int} {seconds : Nat}
    (he : e.quantity? .sqlite row = some (.time epoch)) (hseconds : 0 < seconds)
    (hgeneric : Dialect.startFormat? seconds = none) :
    (Dialect.sqlite.timeBucket e seconds).quantity? .sqlite row =
      some (.time (epoch.tdiv seconds * seconds)) := by
  have hepoch := quantity?_epoch he
  rw [Dialect.timeBucket, hgeneric]
  dsimp only
  generalize Expr.cast (.call "strftime" [.text "%s", e]) .integer = count at hepoch ⊢
  have hquotient : (Expr.paren (.binary .divide count (.nat seconds))).quantity? .sqlite row =
      some (.int (epoch.tdiv seconds)) :=
    (Expr.quantity?_binary hepoch (Expr.quantity?_nat seconds)).trans
      (Operator.compute?_divide_sqlite epoch hseconds)
  have hstart : (Expr.binary .multiply (.paren (.binary .divide count (.nat seconds)))
      (.nat seconds)).quantity? .sqlite row = some (.int (epoch.tdiv seconds * seconds)) :=
    Expr.quantity?_binary hquotient (Expr.quantity?_nat seconds)
  exact Expr.quantity?_call
    (Expr.quantities?_cons hstart (Expr.quantities?_single (Expr.quantity?_text _)))

end

/-- ClickHouse starts each bucket of numbers at or before the value it holds. SQLite does so just
for values that are not negative and for multiples of the width, and else starts the bucket behind
it; the same holds of its buckets of time whose seconds have no format of their own. The width is
the number that is written for it, which up to `2 ^ 53` is the width asked for. -/
theorem bucket_starts_iff (row : String → Option Quantity) (name : String) :
    (∀ (v : Int) (w : Nat), row name = some (.int v) → 0 < w → w < twoTo 1024 - twoTo 970 →
      ∃ width : Nat, (Binary64.ofNat w).IsShortest width ∧ (w ≤ twoTo 53 → width = w) ∧
        ∃ floored truncated : Int,
          (Dialect.clickHouse.numericBin (.column name) (.ofNat w)).quantity? .clickHouse row =
            some (.int floored) ∧
          (Dialect.sqlite.numericBin (.column name) (.ofNat w)).quantity? .sqlite row =
            some (.int truncated) ∧
          IsBucketStart width v floored ∧
          (IsBucketStart width v truncated ↔ 0 ≤ v ∨ (width : Int) ∣ v) ∧
          truncated = floored + if 0 ≤ v ∨ (width : Int) ∣ v then 0 else (width : Int)) ∧
      ∀ (epoch : Int) (seconds : Nat), row name = some (.time epoch) → 0 < seconds →
        Dialect.startFormat? seconds = none →
        ∃ truncated : Int,
          (Dialect.sqlite.timeBucket (.column name) seconds).quantity? .sqlite row =
            some (.time truncated) ∧
          (IsBucketStart seconds epoch truncated ↔ 0 ≤ epoch ∨ (seconds : Int) ∣ epoch) := by
  refine ⟨fun v w hrow hw hbound => ?_, fun epoch seconds hrow hseconds hgeneric => ?_⟩
  · have hfinite : (Binary64.ofNat w).isFinite = true := (Binary64.isFinite_ofNat_iff w).2 hbound
    obtain ⟨width, hshortest, hplain⟩ := Binary64.exists_isShortest_plain hfinite
    have hwidth : 0 < width := hshortest.pos hw
    refine ⟨width, hshortest, fun hle => hshortest.unique (Binary64.isShortest_of_le hle), _, _,
      quantity?_numericBin_clickHouse hrow hplain hwidth,
      quantity?_numericBin_sqlite hrow hplain hwidth, isBucketStart_floor hwidth v,
      isBucketStart_tdiv_iff hwidth v, tdiv_mul_eq hwidth v⟩
  · exact ⟨_, quantity?_timeBucket_sqlite hrow hseconds hgeneric,
      isBucketStart_tdiv_iff hseconds epoch⟩

/-- In buckets of width ten, SQLite starts the bucket of `-5` ten above where ClickHouse does, and
in buckets of five minutes the last second before 1970 is not in its own. -/
theorem bucket_starts_iff_negative :
    (∃ floored truncated : Int,
      (Dialect.clickHouse.numericBin (.column "bytes") (.ofNat 10)).quantity? .clickHouse
        (fun _ => some (.int (-5))) = some (.int floored) ∧
      (Dialect.sqlite.numericBin (.column "bytes") (.ofNat 10)).quantity? .sqlite
        (fun _ => some (.int (-5))) = some (.int truncated) ∧
      IsBucketStart 10 (-5) floored ∧ ¬ IsBucketStart 10 (-5) truncated ∧
      truncated = floored + 10) ∧
    ∃ truncated : Int,
      (Dialect.sqlite.timeBucket (.column "timestamp") 300).quantity? .sqlite
        (fun _ => some (.time (-1))) = some (.time truncated) ∧
      ¬ IsBucketStart 300 (-1) truncated := by
  constructor
  · obtain ⟨width, -, hown, floored, truncated, hfloored, htruncated, hstart, hiff, hnext⟩ :=
      (bucket_starts_iff (fun _ => some (.int (-5))) "bytes").1 (-5) 10 rfl (by decide)
        (by decide +kernel)
    obtain rfl : width = 10 := hown (by decide)
    exact ⟨floored, truncated, hfloored, htruncated, hstart, mt hiff.1 (by decide), hnext⟩
  · obtain ⟨truncated, htruncated, hiff⟩ :=
      (bucket_starts_iff (fun _ => some (.time (-1))) "timestamp").2 (-1) 300 rfl (by decide) rfl
    exact ⟨truncated, htruncated, mt hiff.1 (by decide)⟩

end LogQuery.Sql
