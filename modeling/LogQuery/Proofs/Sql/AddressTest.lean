import LogQuery.Proofs.Address.Dotted
import LogQuery.Proofs.Sql.Evaluation
import LogQuery.Sql.AddressTest
import Mathlib.Data.List.TakeWhile

namespace LogQuery.Dialect

open Sql

variable {d : Dialect} {row : String → Option Datum} {e : Expr} {front rest : List Char}

/-! ### Parts between points -/

/-- The first point stands behind the characters that are none. -/
lemma position_point (h : '.' ∉ front) (rest : List Char) :
    position ['.'] (front ++ '.' :: rest) = front.length + 1 := by
  induction front with
  | nil => simp [position]
  | cons c front ih =>
    rw [List.mem_cons, not_or] at h
    simp [position, ih h.2, h.1]

/-- The position of the first point. -/
lemma function?_instr_point (hfront : '.' ∉ front) (rest : List Char) :
    function? .sqlite "instr" [.text (String.ofList (front ++ '.' :: rest)), .text "."] =
      some (.int (front.length + 1)) := by
  rw [function?_instr, String.toList_ofList]
  simp [position_point hfront]

/-- The text behind the first point. -/
lemma function?_substr_behind (front rest : List Char) :
    function? .sqlite "substr"
        [.text (String.ofList (front ++ '.' :: rest)), .int (front.length + 1 + 1)] =
      some (.text (String.ofList rest)) := by
  have hcast : (front.length + 1 + 1 : Int) = .ofNat (front.length + 1 + 1) := rfl
  rw [hcast, function?_substr]
  simp

/-- The text in front of the first point. -/
lemma function?_substr_before (front rest : List Char) :
    function? .sqlite "substr"
        [.text (String.ofList (front ++ '.' :: rest)), .int 1, .int front.length] =
      some (.text (String.ofList front)) := by
  have hstart : (1 : Int) = .ofNat (0 + 1) := rfl
  have hlength : (front.length : Int) = .ofNat front.length := rfl
  rw [hstart, hlength, function?_substr_take]
  simp

/-- `instr` finds the first point of a dotted address. -/
lemma value?_instr (h : e.value? .sqlite row = some (.text (String.ofList (front ++ '.' :: rest))))
    (hfront : '.' ∉ front) :
    (Expr.call "instr" [e, .text "."]).value? .sqlite row = some (.int (front.length + 1)) := by
  have hvalues := Expr.values?_cons h (Expr.values?_cons (Expr.value?_text ".") Expr.values?_nil)
  rw [Expr.value?_call, hvalues, Option.bind_some, function?_instr_point hfront]

/-- What stands behind the first point. -/
lemma value?_behindPoint
    (h : e.value? .sqlite row = some (.text (String.ofList (front ++ '.' :: rest))))
    (hfront : '.' ∉ front) :
    (behindPoint e).value? .sqlite row = some (.text (String.ofList rest)) := by
  have hstart : (Expr.binary .add (.call "instr" [e, .text "."]) (.nat 1)).value? .sqlite row =
      some (.int (front.length + 1 + 1)) :=
    Expr.value?_binary (value?_instr h hfront) (Expr.value?_nat 1)
  have hvalues := Expr.values?_cons h (Expr.values?_cons hstart Expr.values?_nil)
  rw [behindPoint, Expr.value?_call, hvalues, Option.bind_some, function?_substr_behind]

/-- The number that a text writes. -/
lemma toInteger_toString (n : Nat) :
    (Datum.text (String.ofList (toString n).toList)).toInteger = .int n := by
  have hdigits : (toString n).toList.takeWhile Char.isDigit = (toString n).toList :=
    List.takeWhile_eq_self_iff.2 fun c hc => Binary64.isDigit_of_mem_toString hc
  rw [Datum.toInteger, String.toList_ofList, hdigits, Numeral.digitsValue_toString]

/-- The number in front of the first point. -/
lemma value?_beforePoint {n : Nat}
    (h : e.value? .sqlite row = some (.text (String.ofList ((toString n).toList ++ '.' :: rest)))) :
    (beforePoint e).value? .sqlite row = some (.int n) := by
  have hlength :
      (Expr.binary .subtract (.call "instr" [e, .text "."]) (.nat 1)).value? .sqlite row =
        some (.int (toString n).toList.length) := by
    rw [Expr.value?_binary (value?_instr h (Address.point_notMem_toString n)) (Expr.value?_nat 1)]
    simp [Operator.combine?]
  have hstart : (Expr.nat 1).value? .sqlite row = some (.int 1) := Expr.value?_nat 1
  have hvalues := Expr.values?_cons h
    (Expr.values?_cons hstart (Expr.values?_cons hlength Expr.values?_nil))
  rw [beforePoint, Expr.value?_integer, Expr.value?_call, hvalues, Option.bind_some,
    function?_substr_before, Option.map_some, toInteger_toString]

/-- The number that is computed from the text of an address is the address. -/
theorem value?_addressNumber {x : Address} (h : e.value? .sqlite row = some (.text x.dotted)) :
    (addressNumber e).value? .sqlite row = some (.int x.value) := by
  rw [← String.ofList_toList (s := x.dotted), Address.toList_dotted] at h
  have h1 := value?_behindPoint h (Address.point_notMem_toString _)
  have h2 := value?_behindPoint h1 (Address.point_notMem_toString _)
  have h3 := value?_behindPoint h2 (Address.point_notMem_toString _)
  have hscaled : ∀ {e : Expr} {n : Nat} (k : Nat), e.value? .sqlite row = some (.int n) →
      (Expr.binary .multiply e (.nat k)).value? .sqlite row = some (.int (n * k)) :=
    fun k h => Expr.value?_binary h (Expr.value?_nat k)
  have hlast : (Expr.cast (behindPoint (behindPoint (behindPoint e))) .integer).value? .sqlite row =
      some (.int (x.value % 256 : Nat)) := by
    rw [Expr.value?_integer, h3, Option.map_some, toInteger_toString]
  have hvalues := Expr.values?_cons (hscaled 16777216 (value?_beforePoint h))
    (Expr.values?_cons (hscaled 65536 (value?_beforePoint h1))
      (Expr.values?_cons (hscaled 256 (value?_beforePoint h2))
        (Expr.values?_cons hlast Expr.values?_nil)))
  have hsum := x.value_eq_bytes
  rw [addressNumber, Expr.value?_paren, Expr.value?_chain, hvalues]
  simp [Operator.chain?, Operator.combine?]
  omega

/-! ### Ranges -/

/-- Both functions of ClickHouse read the text of an address. -/
lemma value?_toIPv4 {x : Address} (h : e.value? .clickHouse row = some (.text x.dotted)) :
    (Expr.call "toIPv4" [e]).value? .clickHouse row = some (.int x.value) ∧
      (Expr.call "toIPv4OrNull" [e]).value? .clickHouse row = some (.int x.value) := by
  have hvalues := Expr.values?_cons h Expr.values?_nil
  constructor
  · rw [Expr.value?_call, hvalues, Option.bind_some, function?_toIPv4, Address.ofText?_dotted]
    rfl
  · rw [Expr.value?_call, hvalues, Option.bind_some, function?_toIPv4OrNull, Address.ofText?_dotted]
    rfl

/-- A test of a range holds where the address lies in the range. -/
lemma value?_inRange {x : Address} (h : e.value? d row = some (.text x.dotted))
    (r : AddressRange) : (d.inRange e r).value? d row = some (.ofBool (r.contains x)) := by
  cases d with
  | clickHouse =>
    have hends : ∀ y : Address,
        (Expr.call "toIPv4" [.text y.dotted]).value? .clickHouse row = some (.int y.value) :=
      fun y => (value?_toIPv4 (Expr.value?_text y.dotted)).1
    rw [inRange, Expr.value?_between (value?_toIPv4 h).2 (hends r.first) (hends r.last)]
    simp [AddressRange.contains]
  | sqlite =>
    rw [inRange, Expr.value?_between (value?_addressNumber h) (Expr.value?_nat r.first.value)
      (Expr.value?_nat r.last.value)]
    simp [AddressRange.contains]

/-- A test of several ranges holds where the address lies in one of them. -/
lemma value?_inSomeRange {x : Address} (h : e.value? d row = some (.text x.dotted))
    {ranges : List AddressRange} (hne : ranges ≠ []) :
    (d.inSomeRange e ranges).value? d row = some (.ofBool (ranges.any (·.contains x))) := by
  rw [inSomeRange, Expr.value?_paren]
  exact value?_alternatives (value?_inRange h) hne

end LogQuery.Dialect
