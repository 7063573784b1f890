import LogQuery.Proofs.Sql.Width
import LogQuery.Sql.AddressTest

/-!
# How wide tests of addresses are

A test of a range has copies of the text whose address is tested: one in ClickHouse, and 22 in
SQLite, where the four parts of the address are found one behind the other. A question about the
class of an address tests up to fourteen ranges. So the SQL of a question is wider than that of its
address by a factor (`Dialect.addressGrowth`), from below (`Dialect.growth_mul_width_le`) and, up
to the text around each copy, from above (`Dialect.width_ask_le`).
-/

namespace LogQuery

open Sql

variable {d : Dialect} {e : Sql.Expr}

namespace Dialect

/-- How often a test of a range has the text of the address in it. -/
def rangeCopies : Dialect → Nat
  | .clickHouse => 1
  | .sqlite => 22

/-- How often a question about the class of an address has its text in it. -/
def addressGrowth (d : Dialect) : Nat := d.rangeCopies * AddressRange.classified.length

example : clickHouse.addressGrowth = 14 := rfl

example : sqlite.addressGrowth = 308 := rfl

lemma rangeCopies_pos (d : Dialect) : 0 < d.rangeCopies := by cases d <;> decide

lemma addressGrowth_pos (d : Dialect) : 0 < d.addressGrowth :=
  Nat.mul_pos d.rangeCopies_pos (by decide)

lemma rangeCopies_le_addressGrowth (d : Dialect) : d.rangeCopies ≤ d.addressGrowth :=
  Nat.le_mul_of_pos_right _ (by decide)

/-! ### The parts of an address -/

/-- Both places that are counted from the first point cost the same. -/
lemma width_instr_le (e : Sql.Expr) :
    (Expr.binary .add (.call "instr" [e, .text "."]) (.nat 1)).width d ≤ e.width d + 38 ∧
      (Expr.binary .subtract (.call "instr" [e, .text "."]) (.nat 1)).width d ≤ e.width d + 38 := by
  have hcall := Expr.width_callTwo_le (d := d) "instr" e (.text ".") (k := 5) (by decide)
  have hpoint := Expr.width_text_le (d := d) "."
  have hlength : ".".length = 1 := rfl
  have hone := Expr.width_nat_le (d := d) (n := 1) (by decide)
  have hadd : Operator.add.text.toList.length = 1 := rfl
  have hsubtract : Operator.subtract.text.toList.length = 1 := rfl
  rw [Expr.width_binary, Expr.width_binary]
  omega

/-- The text behind the first point writes its operand twice. -/
lemma width_behindPoint_le (e : Sql.Expr) : (behindPoint e).width d ≤ 2 * e.width d + 50 := by
  have hinstr := (width_instr_le (d := d) e).1
  exact (Expr.width_callTwo_le _ _ _ (k := 6) (by decide)).trans (by omega)

/-- The number in front of the first point writes its operand twice. -/
lemma width_beforePoint_le (e : Sql.Expr) : (beforePoint e).width d ≤ 2 * e.width d + 89 := by
  have hcast := Expr.width_cast_le (d := d)
    (.call "substr" [e, .nat 1, .binary .subtract (.call "instr" [e, .text "."]) (.nat 1)]) .integer
  have hcall := Expr.width_call_le (d := d) "substr"
    [e, .nat 1, .binary .subtract (.call "instr" [e, .text "."]) (.nat 1)]
  have hname : "substr".length = 6 := rfl
  have hone := Expr.width_nat_le (d := d) (n := 1) (by decide)
  have hinstr := (width_instr_le (d := d) e).2
  rw [Expr.widths_cons, Expr.widths_cons, Expr.widths_cons, Expr.widths_nil] at hcall
  rw [beforePoint]
  omega

lemma le_width_behindPoint (e : Sql.Expr) : 2 * e.width d ≤ (behindPoint e).width d := by
  have hcall := Expr.widths_le_width_call (d := d) "substr"
    [e, .binary .add (.call "instr" [e, .text "."]) (.nat 1)]
  have hinstr := Expr.widths_le_width_call (d := d) "instr" [e, .text "."]
  rw [Expr.widths_cons, Expr.widths_cons, Expr.width_binary] at hcall
  rw [Expr.widths_cons] at hinstr
  rw [behindPoint]
  omega

lemma le_width_beforePoint (e : Sql.Expr) : 2 * e.width d ≤ (beforePoint e).width d := by
  have hcast := Expr.width_le_width_cast (d := d)
    (.call "substr" [e, .nat 1, .binary .subtract (.call "instr" [e, .text "."]) (.nat 1)]) .integer
  have hcall := Expr.widths_le_width_call (d := d) "substr"
    [e, .nat 1, .binary .subtract (.call "instr" [e, .text "."]) (.nat 1)]
  have hinstr := Expr.widths_le_width_call (d := d) "instr" [e, .text "."]
  rw [Expr.widths_cons, Expr.widths_cons, Expr.widths_cons, Expr.width_binary] at hcall
  rw [Expr.widths_cons] at hinstr
  rw [beforePoint]
  omega

/-- Four numbers are cut out behind none to three points, which makes 22 copies of the operand. -/
lemma width_addressNumber_le (e : Sql.Expr) :
    (addressNumber e).width d ≤ 22 * e.width d + 1200 := by
  have hrest1 := width_behindPoint_le (d := d) e
  have hrest2 := width_behindPoint_le (d := d) (behindPoint e)
  have hrest3 := width_behindPoint_le (d := d) (behindPoint (behindPoint e))
  have hpart := width_beforePoint_le (d := d) e
  have hpart1 := width_beforePoint_le (d := d) (behindPoint e)
  have hpart2 := width_beforePoint_le (d := d) (behindPoint (behindPoint e))
  have hcast := Expr.width_cast_le (d := d) (behindPoint (behindPoint (behindPoint e))) .integer
  have hweight : ∀ {n : Nat}, n < tenTo 20 → (Expr.nat n).width d ≤ 20 := Expr.width_nat_le
  have h0 := hweight (n := 16777216) (by decide)
  have h1 := hweight (n := 65536) (by decide)
  have h2 := hweight (n := 256) (by decide)
  have hmultiply : Operator.multiply.text.toList.length = 1 := rfl
  rw [addressNumber, Expr.width_paren]
  refine (Nat.add_le_add_right (Expr.width_chain_le _ _) 2).trans ?_
  have hadd : Operator.add.text.toList.length + 2 = 3 := rfl
  simp only [hadd, Expr.widths_cons, Expr.widths_nil, Expr.width_binary]
  omega

/-- The 22 copies are there in every text, which bounds the width from below. -/
lemma le_width_addressNumber (e : Sql.Expr) : 22 * e.width d ≤ (addressNumber e).width d := by
  have hrest1 := le_width_behindPoint (d := d) e
  have hrest2 := le_width_behindPoint (d := d) (behindPoint e)
  have hrest3 := le_width_behindPoint (d := d) (behindPoint (behindPoint e))
  have hpart := le_width_beforePoint (d := d) e
  have hpart1 := le_width_beforePoint (d := d) (behindPoint e)
  have hpart2 := le_width_beforePoint (d := d) (behindPoint (behindPoint e))
  have hcast := Expr.width_le_width_cast (d := d) (behindPoint (behindPoint (behindPoint e)))
    .integer
  rw [addressNumber, Expr.width_paren]
  refine Nat.le_trans ?_ (Nat.le_add_right_of_le (Expr.widths_le_width_chain _ _))
  simp only [Expr.widths_cons, Expr.widths_nil, Expr.width_binary]
  omega

/-! ### Ranges -/

lemma length_dotted_le (x : Address) : x.dotted.length ≤ 44 := by
  have hbytes : ∀ n ∈ x.bytes, (toString n).toList.length ≤ 10 := by
    intro n hn
    rw [String.length_toList]
    refine (length_toString_le_iff (by decide)).2 ?_
    have hvalue : x.value < tenTo 10 := x.value_lt.trans (by decide)
    simp only [Address.bytes, List.mem_cons, List.not_mem_nil, or_false] at hn
    rcases hn with rfl | rfl | rfl | rfl
    · exact (Nat.div_le_self _ _).trans_lt hvalue
    · exact ((Nat.mod_le _ _).trans (Nat.div_le_self _ _)).trans_lt hvalue
    · exact ((Nat.mod_le _ _).trans (Nat.div_le_self _ _)).trans_lt hvalue
    · exact (Nat.mod_le _ _).trans_lt hvalue
  have hrow := length_intercalate_le (x.bytes.map toString) "."
  have hsum : ((x.bytes.map toString).map fun s => s.toList.length + ".".toList.length).sum ≤
      (x.bytes.map fun _ => 11).sum := by
    rw [List.map_map]
    exact List.sum_le_sum fun n hn => Nat.add_le_add_right (hbytes n hn) 1
  rw [← String.length_toList]
  exact hrow.trans hsum

/-- A range test copies its operand as often as the dialect needs. -/
lemma width_inRange_le (e : Sql.Expr) (r : AddressRange) :
    (d.inRange e r).width d ≤ d.rangeCopies * (e.width d + 250) := by
  cases d with
  | clickHouse =>
    have hend : ∀ x : Address,
        (Expr.call "toIPv4" [.text x.dotted]).width .clickHouse ≤ 100 := by
      intro x
      have htext := Expr.width_text_le (d := .clickHouse) x.dotted
      have hdotted := length_dotted_le x
      exact (Expr.width_callOne_le _ _ (k := 6) (by decide)).trans (by omega)
    have hfirst := hend r.first
    have hlast := hend r.last
    have hcall := Expr.width_callOne_le (d := .clickHouse) "toIPv4OrNull" e (k := 12) (by decide)
    rw [inRange, Expr.width_between, rangeCopies]
    omega
  | sqlite =>
    have hnumber := width_addressNumber_le (d := .sqlite) e
    have hvalue : ∀ x : Address, (Expr.nat x.value).width .sqlite ≤ 20 :=
      fun x => Expr.width_nat_le (x.value_lt.trans (by decide))
    have hfirst := hvalue r.first
    have hlast := hvalue r.last
    rw [inRange, Expr.width_between, rangeCopies]
    omega

lemma le_width_inRange (e : Sql.Expr) (r : AddressRange) :
    d.rangeCopies * e.width d ≤ (d.inRange e r).width d := by
  cases d with
  | clickHouse =>
    have hcall := Expr.widths_le_width_call (d := .clickHouse) "toIPv4OrNull" [e]
    rw [Expr.widths_cons, Expr.widths_nil] at hcall
    rw [inRange, Expr.width_between, rangeCopies]
    omega
  | sqlite =>
    have hnumber := le_width_addressNumber (d := .sqlite) e
    rw [inRange, Expr.width_between, rangeCopies]
    omega

/-! ### Conditionals -/

lemma width_conditional_le (branches : List (Sql.Expr × Sql.Expr)) (otherwise : Sql.Expr) :
    (d.conditional branches otherwise).width d ≤
      Expr.widths d 6 (Expr.branchParts branches) + otherwise.width d + 14 := by
  cases d with
  | clickHouse =>
    have hcall := Expr.width_call_le (d := .clickHouse)
      (if branches.length = 1 then "if" else "multiIf") (Expr.branchParts branches ++ [otherwise])
    have hname : (if branches.length = 1 then "if" else "multiIf").length ≤ 7 := by
      split_ifs <;> decide
    have hgap := Expr.widths_mono (d := .clickHouse) (show 2 ≤ 6 by decide)
      (Expr.branchParts branches)
    rw [Expr.widths_append, Expr.widths_cons, Expr.widths_nil] at hcall
    change (Expr.call _ (Expr.branchParts branches ++ [otherwise])).width .clickHouse ≤ _
    omega
  | sqlite => exact (Expr.width_caseWhen branches otherwise).le

lemma widths_le_width_conditional (branches : List (Sql.Expr × Sql.Expr)) (otherwise : Sql.Expr) :
    Expr.widths d 0 (Expr.branchParts branches) ≤ (d.conditional branches otherwise).width d := by
  cases d with
  | clickHouse =>
    have hcall := Expr.widths_le_width_call (d := .clickHouse)
      (if branches.length = 1 then "if" else "multiIf") (Expr.branchParts branches ++ [otherwise])
    rw [Expr.widths_append] at hcall
    exact (Nat.le_add_right _ _).trans hcall
  | sqlite =>
    have hgap := Expr.widths_mono (d := .sqlite) (Nat.zero_le 6) (Expr.branchParts branches)
    rw [conditional, Expr.width_caseWhen]
    omega

/-! ### Questions -/

lemma length_label_le (c : AddressClass) : c.label.length ≤ 10 := by cases c <;> decide

/-- A test of a range with the class that its addresses have. -/
def rangeBranch (d : Dialect) (e : Sql.Expr) (entry : AddressRange × AddressClass) :
    Sql.Expr × Sql.Expr := (d.inRange e entry.1, .text entry.2.label)

/-- One branch for each range, each with its own copies of the operand. -/
lemma widths_rangeBranches_le (e : Sql.Expr) (entries : List (AddressRange × AddressClass)) :
    Expr.widths d 6 (Expr.branchParts (entries.map (d.rangeBranch e))) ≤
      d.rangeCopies * (e.width d + 284) * entries.length := by
  induction entries with
  | nil => exact Nat.zero_le _
  | cons entry rest ih =>
    have hrange := width_inRange_le (d := d) e entry.1
    have htext := Expr.width_text_le (d := d) entry.2.label
    have hlabel := length_label_le entry.2
    have hcopies : d.rangeCopies * (e.width d + 284) =
        d.rangeCopies * (e.width d + 250) + d.rangeCopies * 34 := by
      rw [← Nat.mul_add]
    have hpos := d.rangeCopies_pos
    change Expr.widths d 6 (d.inRange e entry.1 :: .text entry.2.label ::
      Expr.branchParts (rest.map (d.rangeBranch e))) ≤ _
    rw [Expr.widths_cons, Expr.widths_cons, List.length_cons, Nat.mul_succ]
    omega

lemma le_widths_rangeBranches (e : Sql.Expr) (entries : List (AddressRange × AddressClass)) :
    d.rangeCopies * e.width d * entries.length ≤
      Expr.widths d 0 (Expr.branchParts (entries.map (d.rangeBranch e))) := by
  induction entries with
  | nil => exact Nat.zero_le _
  | cons entry rest ih =>
    have hrange := le_width_inRange (d := d) e entry.1
    change _ ≤ Expr.widths d 0 (d.inRange e entry.1 :: .text entry.2.label ::
      Expr.branchParts (rest.map (d.rangeBranch e)))
    rw [Expr.widths_cons, Expr.widths_cons, List.length_cons, Nat.mul_succ]
    omega

lemma width_inSomeRange_le (e : Sql.Expr) (ranges : List AddressRange) :
    (d.inSomeRange e ranges).width d ≤ d.rangeCopies * (e.width d + 254) * ranges.length + 2 := by
  have hchain := Expr.width_chain_le (d := d) .or (ranges.map (d.inRange e))
  have hor : Operator.or.text.toList.length + 2 = 4 := rfl
  have hranges : Expr.widths d 4 (ranges.map (d.inRange e)) ≤
      d.rangeCopies * (e.width d + 254) * (ranges.map fun _ => 1).sum :=
    Expr.widths_map_le fun r _ => by
      have hrange := width_inRange_le (d := d) e r
      have hpos := d.rangeCopies_pos
      rw [Nat.mul_one]
      calc (d.inRange e r).width d + 4
          ≤ d.rangeCopies * (e.width d + 250) + d.rangeCopies * 4 := by omega
        _ = d.rangeCopies * (e.width d + 254) := by rw [← Nat.mul_add]
  have hcount : (ranges.map fun _ => 1).sum = ranges.length := by simp
  rw [hor] at hchain
  rw [hcount] at hranges
  rw [inSomeRange, Expr.width_paren]
  omega

/-- A question is at most so much wider than its address as it has copies of it. -/
theorem width_ask_le (q : AddressQuestion) (e : Sql.Expr) :
    (d.ask q e).width d ≤ d.addressGrowth * (e.width d + 300) := by
  have hsome : ∀ ranges : List AddressRange,
      ranges.length ≤ AddressRange.classified.length →
      (d.inSomeRange e ranges).width d + 4 ≤ d.addressGrowth * (e.width d + 300) := by
    intro ranges hlength
    have hranges := width_inSomeRange_le (d := d) e ranges
    have hall := Nat.mul_le_mul_left (d.rangeCopies * (e.width d + 254)) hlength
    have hgrowth := d.addressGrowth_pos
    have hsplit : d.addressGrowth * (e.width d + 300) =
        d.rangeCopies * (e.width d + 254) * AddressRange.classified.length +
          d.addressGrowth * 46 := by
      rw [Nat.mul_right_comm, ← addressGrowth, ← Nat.mul_add]
    omega
  have hclasses : ∀ classes,
      (AddressRange.ofClasses classes).length ≤ AddressRange.classified.length := by
    intro classes
    rw [AddressRange.ofClasses, List.length_map]
    exact List.length_filter_le _ _
  rw [ask.eq_def]
  split
  · have hbranches := widths_rangeBranches_le (d := d) e AddressRange.classified
    have hconditional := width_conditional_le (d := d)
      (AddressRange.classified.map (d.rangeBranch e)) (.text AddressClass.public_.label)
    have htext := Expr.width_text_le (d := d) AddressClass.public_.label
    have hlabel := length_label_le .public_
    have hgrowth := d.addressGrowth_pos
    have hlow : 14 ≤ d.addressGrowth := by cases d <;> decide
    have hsplit : d.addressGrowth * (e.width d + 300) =
        d.rangeCopies * (e.width d + 284) * AddressRange.classified.length +
          d.addressGrowth * 16 := by
      rw [Nat.mul_right_comm, ← addressGrowth, ← Nat.mul_add]
    exact hconditional.trans (by omega)
  · rw [Expr.width_not]
    exact hsome _ (by rw [List.length_map])
  · exact (Nat.le_add_right _ 4).trans (hsome _ (hclasses _))

/-- A question about the class of an address is at least as much wider than the address as it has
copies of it. -/
theorem growth_mul_width_le (e : Sql.Expr) :
    d.addressGrowth * e.width d ≤ (d.ask .classify e).width d := by
  have hbranches := le_widths_rangeBranches (d := d) e AddressRange.classified
  have hconditional := widths_le_width_conditional (d := d)
    (AddressRange.classified.map (d.rangeBranch e)) (.text AddressClass.public_.label)
  rw [addressGrowth, Nat.mul_right_comm]
  exact hbranches.trans hconditional

end Dialect

end LogQuery
