import LogQuery.Address.Basic
import Mathlib.Data.Nat.Bitwise
import Mathlib.Order.Interval.Finset.Nat
import Mathlib.SetTheory.Cardinal.Finite
import Mathlib.Tactic.Lemma
import Mathlib.Tactic.SplitIfs

namespace LogQuery

/-! ### Texts of blocks -/

lemma Text.splitFirst?_eq_some {sep : Char} {cs front back : List Char} :
    splitFirst? sep cs = some (front, back) ↔ cs = front ++ sep :: back ∧ sep ∉ front := by
  induction cs generalizing front with
  | nil => simp [splitFirst?]
  | cons c cs ih =>
    rw [splitFirst?]
    by_cases hc : c = sep
    · subst hc
      cases front with
      | nil => simp
      | cons c' front => simp +contextual
    · rw [if_neg hc, Option.map_eq_some_iff]
      constructor
      · rintro ⟨⟨front', _⟩, hrest, ⟨⟩⟩
        obtain ⟨rfl, hsep⟩ := ih.1 hrest
        simp [hsep, Ne.symm hc]
      · rintro ⟨hcs, hsep⟩
        cases front with
        | nil =>
          cases hcs
          exact absurd rfl hc
        | cons c' front =>
          cases hcs
          exact ⟨(front, back), ih.2 ⟨rfl, fun hmem => hsep (by simp [hmem])⟩, rfl⟩

/-- A number that is written is read below any bound that it does not reach. -/
lemma Numeral.natBelow?_eq_some {bound n : Nat} {text : String} :
    natBelow? bound text = some n ↔ natBelow? (n + 1) text = some n ∧ n < bound := by
  simp only [natBelow?]
  split_ifs <;> simp <;> omega

namespace Address

def bits (x : Address) : BitVec 32 := BitVec.ofNat 32 x.value

lemma toNat_bits (x : Address) : x.bits.toNat = x.value := by
  rw [bits, BitVec.toNat_ofNat]
  exact Nat.mod_eq_of_lt x.value_lt

/-- An address is its bits. -/
lemma bits_injective : Function.Injective bits := by
  intro x y h
  have hvalue : x.value = y.value := by rw [← x.toNat_bits, h, y.toNat_bits]
  cases x
  cases y
  cases hvalue
  rfl

lemma getLsbD_bits (x : Address) (i : Nat) : x.bits.getLsbD i = x.value.testBit i := by
  rw [← BitVec.testBit_toNat, toNat_bits]

lemma getMsbD_bits (x : Address) {i : Nat} (h : i < 32) :
    x.bits.getMsbD i = x.value.testBit (31 - i) := by
  rw [BitVec.getMsbD_eq_getLsbD, getLsbD_bits]
  simp [h]

end Address

namespace AddressRange

variable {a : Address} {p : Nat} {r : AddressRange}

/-- Without the blanks around it, the text is that of an address, a slash and a number. -/
def WritesBlock (text : String) (a : Address) (p : Nat) : Prop :=
  ∃ front back, (Text.trim text).toList = front ++ '/' :: back ∧ '/' ∉ front ∧
    Address.ofText? (String.ofList front) = some a ∧
    Numeral.natBelow? (p + 1) (String.ofList back) = some p

/-- A text writes one block at most. -/
lemma WritesBlock.unique {text : String} {a' : Address} {p' : Nat} (h : WritesBlock text a p)
    (h' : WritesBlock text a' p') : a = a' ∧ p = p' := by
  obtain ⟨front, back, htext, hslash, ha, hp⟩ := h
  obtain ⟨front', back', htext', hslash', ha', hp'⟩ := h'
  have hsplit := Text.splitFirst?_eq_some.2 ⟨htext, hslash⟩
  rw [Text.splitFirst?_eq_some.2 ⟨htext', hslash'⟩] at hsplit
  cases hsplit
  have hlt : p < p + p' + 1 := by omega
  have hbound := Numeral.natBelow?_eq_some.2 ⟨hp, hlt⟩
  rw [Numeral.natBelow?_eq_some.2 ⟨hp', by omega⟩] at hbound
  exact ⟨Option.some.inj (ha.symm.trans ha'), (Option.some.inj hbound).symm⟩

/-- A text is read as a block if it writes one with at most 32 bits. -/
lemma ofText?_eq_some {text : String} :
    ofText? text = some r ↔ ∃ a p, WritesBlock text a p ∧ ∃ h : p ≤ 32, r = block a p h := by
  constructor
  · intro h
    simp only [ofText?, Option.bind_eq_bind, Option.bind_eq_some_iff] at h
    obtain ⟨⟨front, back⟩, hsplit, a, ha, p, hp, hr⟩ := h
    obtain ⟨htext, hslash⟩ := Text.splitFirst?_eq_some.1 hsplit
    split_ifs at hr with hbits
    exact ⟨a, p, ⟨front, back, htext, hslash, ha, (Numeral.natBelow?_eq_some.1 hp).1⟩, hbits,
      (Option.some.inj hr).symm⟩
  · rintro ⟨a, p, ⟨front, back, htext, hslash, ha, hp⟩, hbits, rfl⟩
    have hsplit := Text.splitFirst?_eq_some.2 ⟨htext, hslash⟩
    have hbelow : Numeral.natBelow? (twoTo 32) (String.ofList back) = some p :=
      Numeral.natBelow?_eq_some.2 ⟨hp, lt_of_le_of_lt hbits (by decide)⟩
    simp [ofText?, hsplit, ha, hbelow, hbits]

/-! ### Bits of the first and the last address -/

/-- The mask that keeps the bits in front. -/
def mask (p : Nat) : BitVec 32 := BitVec.allOnes 32 <<< (32 - p)

/-- The range holds the addresses that have the same `p` bits in front as an address, no more and
no fewer. -/
structure IsBlock (a : Address) (p : Nat) (r : AddressRange) : Prop where
  contains_iff : ∀ x : Address,
    r.contains x = true ↔ ∀ i < p, x.bits.getMsbD i = a.bits.getMsbD i
  contains_self : r.contains a = true
  card : Nat.card { x : Address // r.contains x = true } = 2 ^ (32 - p)
  first_zeros : ∀ i, p ≤ i → i < 32 → r.first.bits.getMsbD i = false
  last_ones : ∀ i, p ≤ i → i < 32 → r.last.bits.getMsbD i = true
  first_masked : r.first.bits = a.bits &&& mask p
  last_masked : r.last.bits = r.first.bits ||| ~~~mask p

/-- The mask of a prefix has ones in the place of the prefix and zeros behind it. -/
lemma getLsbD_mask (p : Nat) {i : Nat} (hi : i < 32) :
    (mask p).getLsbD i = decide (32 - p ≤ i) := by
  have hback : i - (32 - p) < 32 := by omega
  rw [mask, BitVec.getLsbD_shiftLeft, BitVec.getLsbD_allOnes]
  by_cases hfront : i < 32 - p
  · simp [hfront, Nat.not_le.2 hfront]
  · simp [hfront, Nat.le_of_not_lt hfront, hi, hback]

variable (h : p ≤ 32)

lemma first_block : (block a p h).first.value = a.value / 2 ^ (32 - p) * 2 ^ (32 - p) := rfl

lemma last_block : (block a p h).last.value =
    a.value / 2 ^ (32 - p) * 2 ^ (32 - p) + (2 ^ (32 - p) - 1) := rfl

/-- The first address of a block has zeros behind the prefix. -/
lemma testBit_first (i : Nat) :
    (block a p h).first.value.testBit i = (decide (32 - p ≤ i) && a.value.testBit i) := by
  rw [first_block, Nat.testBit_mul_two_pow, Nat.testBit_div_two_pow]
  by_cases hi : 32 - p ≤ i
  · rw [Nat.sub_add_cancel hi]
  · simp [hi]

/-- The last address of a block has ones behind the prefix. -/
lemma testBit_last (i : Nat) :
    (block a p h).last.value.testBit i = (decide (i < 32 - p) || a.value.testBit i) := by
  have hlt : 2 ^ (32 - p) - 1 < 2 ^ (32 - p) := Nat.sub_lt (Nat.two_pow_pos _) Nat.one_pos
  rw [last_block, Nat.mul_comm, Nat.testBit_two_pow_mul_add _ hlt, Nat.testBit_two_pow_sub_one,
    Nat.testBit_div_two_pow]
  split_ifs with hi
  · simp [hi]
  · simp [hi, Nat.sub_add_cancel (Nat.le_of_not_lt hi)]

/-- Addresses of a block are those with the same quotient. -/
lemma contains_block (x : Address) : (block a p h).contains x = true ↔
    x.value / 2 ^ (32 - p) = a.value / 2 ^ (32 - p) := by
  have hpos := Nat.two_pow_pos (32 - p)
  rw [contains, Bool.and_eq_true, decide_eq_true_eq, decide_eq_true_eq, first_block, last_block,
    Nat.div_eq_iff hpos, Nat.add_sub_assoc hpos]

/-- Quotients by a power of two are equal if the bits in front are. -/
lemma div_two_pow_eq_iff (x y : Address) (h : p ≤ 32) :
    x.value / 2 ^ (32 - p) = y.value / 2 ^ (32 - p) ↔
      ∀ i < p, x.bits.getMsbD i = y.bits.getMsbD i := by
  constructor
  · intro hquotient i hi
    have hbit := congrArg (Nat.testBit · (p - 1 - i)) hquotient
    simp only [Nat.testBit_div_two_pow] at hbit
    rw [Address.getMsbD_bits _ (by omega), Address.getMsbD_bits _ (by omega)]
    rwa [show 31 - i = p - 1 - i + (32 - p) by omega]
  · intro hbits
    refine Nat.eq_of_testBit_eq fun j => ?_
    rw [Nat.testBit_div_two_pow, Nat.testBit_div_two_pow]
    by_cases hj : j < p
    · have hbit := hbits (p - 1 - j) (by omega)
      rw [Address.getMsbD_bits _ (by omega), Address.getMsbD_bits _ (by omega)] at hbit
      rwa [show 31 - (p - 1 - j) = j + (32 - p) by omega] at hbit
    · have hlarge : ∀ z : Address, z.value.testBit (j + (32 - p)) = false := by
        intro z
        have hpow : 2 ^ 32 ≤ 2 ^ (j + (32 - p)) := Nat.pow_le_pow_right (by decide) (by omega)
        exact Nat.testBit_lt_two_pow (z.value_lt.trans_le hpow)
      rw [hlarge, hlarge]

/-- The addresses of a range are as many as the numbers from its first to its last one. -/
lemma card_contains (r : AddressRange) :
    Nat.card { x : Address // r.contains x = true } = r.last.value + 1 - r.first.value := by
  have hmem : ∀ x : Address, r.contains x = true ↔
      x.value ∈ Finset.Icc r.first.value r.last.value := by
    intro x
    rw [Finset.mem_Icc, contains, Bool.and_eq_true, decide_eq_true_eq, decide_eq_true_eq]
  let number : { x : Address // r.contains x = true } ≃ Finset.Icc r.first.value r.last.value :=
    { toFun := fun x => ⟨x.1.value, (hmem x.1).1 x.2⟩
      invFun := fun n =>
        ⟨⟨n.1, (Finset.mem_Icc.1 n.2).2.trans_lt r.last.value_lt⟩, (hmem _).2 n.2⟩
      left_inv := fun x => rfl
      right_inv := fun n => rfl }
  rw [Nat.card_congr number, Nat.card_eq_fintype_card, Fintype.card_coe, Nat.card_Icc]

/-- An address lies between the two ends of a block exactly if it shares their prefix. -/
theorem isBlock_block (a : Address) (p : Nat) (h : p ≤ 32) : IsBlock a p (block a p h) where
  contains_iff x := (contains_block h x).trans (div_two_pow_eq_iff x a h)
  contains_self := (contains_block h a).2 rfl
  card := by
    have hpos := Nat.two_pow_pos (32 - p)
    rw [card_contains, first_block, last_block]
    omega
  first_zeros i hp hi := by
    have hfront : ¬ 32 - p ≤ 31 - i := by omega
    rw [Address.getMsbD_bits _ hi, testBit_first]
    simp [hfront]
  last_ones i hp hi := by
    have hback : 31 - i < 32 - p := by omega
    rw [Address.getMsbD_bits _ hi, testBit_last]
    simp [hback]
  first_masked := by
    refine BitVec.eq_of_getLsbD_eq fun i hi => ?_
    rw [BitVec.getLsbD_and, getLsbD_mask p hi, Address.getLsbD_bits, Address.getLsbD_bits,
      testBit_first, Bool.and_comm]
  last_masked := by
    refine BitVec.eq_of_getLsbD_eq fun i hi => ?_
    rw [BitVec.getLsbD_or, BitVec.getLsbD_not, getLsbD_mask p hi, Address.getLsbD_bits,
      Address.getLsbD_bits, testBit_first, testBit_last]
    by_cases hfront : i < 32 - p
    · simp [hfront, Nat.not_le.2 hfront, hi]
    · simp [hfront, Nat.le_of_not_lt hfront]

/-- There is one range only that holds these addresses: the masks make its ends. -/
lemma IsBlock.unique {r' : AddressRange} (h : IsBlock a p r) (h' : IsBlock a p r') : r = r' := by
  have hfirst : r.first = r'.first :=
    Address.bits_injective (h.first_masked.trans h'.first_masked.symm)
  have hlast : r.last = r'.last :=
    Address.bits_injective (by rw [h.last_masked, h'.last_masked, hfirst])
  cases r
  cases r'
  cases hfirst
  cases hlast
  rfl

/-! ### Texts that are read -/

/-- A text is read as a range just if it writes a block with at most 32 bits and the range is that
block; so no text that writes more bits is read. -/
theorem ofText?_isBlock (text : String) :
    (∀ r, ofText? text = some r ↔ ∃ a p, WritesBlock text a p ∧ p ≤ 32 ∧ IsBlock a p r) ∧
      ∀ a p, WritesBlock text a p → 32 < p → ofText? text = none := by
  constructor
  · intro r
    rw [ofText?_eq_some]
    constructor
    · rintro ⟨a, p, hwrites, h, rfl⟩
      exact ⟨a, p, hwrites, h, isBlock_block a p h⟩
    · rintro ⟨a, p, hwrites, h, hblock⟩
      exact ⟨a, p, hwrites, h, hblock.unique (isBlock_block a p h)⟩
  · intro a p hwrites hlarge
    rw [Option.eq_none_iff_forall_ne_some]
    intro r hr
    obtain ⟨a', p', hwrites', h, -⟩ := ofText?_eq_some.1 hr
    obtain ⟨-, rfl⟩ := hwrites.unique hwrites'
    exact absurd h (Nat.not_le.2 hlarge)

/-- An address inside a block of 24 bits, with a blank in front, and a block of one bit too many. -/
theorem ofText?_isBlock_subnet :
    (∃ r, ofText? " 192.168.1.77/24" = some r ∧ IsBlock (.ofBytes 192 168 1 77) 24 r) ∧
      WritesBlock "10.0.0.0/33" (.ofBytes 10 0 0 0) 33 ∧ ofText? "10.0.0.0/33" = none := by
  have hwrites : WritesBlock " 192.168.1.77/24" (.ofBytes 192 168 1 77) 24 :=
    ⟨"192.168.1.77".toList, "24".toList, by decide +kernel⟩
  have hlarge : WritesBlock "10.0.0.0/33" (.ofBytes 10 0 0 0) 33 :=
    ⟨"10.0.0.0".toList, "33".toList, by decide +kernel⟩
  have hblock := isBlock_block (.ofBytes 192 168 1 77) 24 (by decide)
  refine ⟨⟨_, ?_, hblock⟩, hlarge, (ofText?_isBlock _).2 _ _ hlarge (by decide)⟩
  exact ((ofText?_isBlock _).1 _).2 ⟨_, _, hwrites, by decide, hblock⟩

end AddressRange

end LogQuery
