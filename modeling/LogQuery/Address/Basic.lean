import LogQuery.Number.Integer
import LogQuery.Text.Blank
import LogQuery.Text.Split

namespace LogQuery

/-- An address of version four of the internet protocol. -/
structure Address where
  value : Nat
  value_lt : value < twoTo 32
  deriving DecidableEq, Repr

namespace Address

/-- The address of four bytes, the first of which counts most. -/
def ofBytes (a b c d : Fin 256) : Address where
  value := ((a.val * 256 + b.val) * 256 + c.val) * 256 + d.val
  value_lt := by have : twoTo 32 = 4294967296 := rfl; omega

def bytes (x : Address) : List Nat :=
  [x.value / twoTo 24, x.value / twoTo 16 % 256, x.value / twoTo 8 % 256, x.value % 256]

def dotted (x : Address) : String := String.intercalate "." (x.bytes.map toString)

/-- The byte that a text writes: at most three digits, and no zero in front of others. -/
def byteOf? (text : List Char) : Option (Fin 256) :=
  let value := Numeral.digitsValue text
  if text.isEmpty || 3 < text.length || !text.all Char.isDigit ||
      (text.head? = some '0' && 1 < text.length) then none
  else if h : value < 256 then some ⟨value, h⟩ else none

/-- The address that a text writes: four bytes in decimal with points between them, and nothing
around them. -/
def ofText? (text : String) : Option Address :=
  match Text.splitAt '.' text.toList with
  | [a, b, c, d] => do return ofBytes (← byteOf? a) (← byteOf? b) (← byteOf? c) (← byteOf? d)
  | _ => none

end Address

/-- A row of addresses from a first to a last one. -/
structure AddressRange where
  first : Address
  last : Address
  deriving DecidableEq, Repr

namespace AddressRange

def contains (r : AddressRange) (x : Address) : Bool :=
  r.first.value ≤ x.value && x.value ≤ r.last.value

/-- A block of addresses ends below the bound of all addresses. -/
theorem block_fits (x : Address) {bits : Nat} (h : bits ≤ 32) :
    x.value / twoTo (32 - bits) * twoTo (32 - bits) + twoTo (32 - bits) ≤ twoTo 32 := by
  have size : twoTo bits * twoTo (32 - bits) = twoTo 32 := by
    rw [← twoTo_add, Nat.add_sub_cancel' h]
  have index : x.value / twoTo (32 - bits) < twoTo bits := by
    rw [Nat.div_lt_iff_lt_mul (twoTo_pos _), size]
    exact x.value_lt
  rw [← Nat.succ_mul, ← size]
  exact Nat.mul_le_mul_right _ index

/-- The addresses that share their first bits with an address. -/
def block (x : Address) (bits : Nat) (h : bits ≤ 32) : AddressRange where
  first :=
    { value := x.value / twoTo (32 - bits) * twoTo (32 - bits)
      value_lt := Nat.lt_of_lt_of_le (Nat.lt_add_of_pos_right (twoTo_pos _)) (block_fits x h) }
  last :=
    { value := x.value / twoTo (32 - bits) * twoTo (32 - bits) + (twoTo (32 - bits) - 1)
      value_lt := Nat.lt_of_lt_of_le
        (Nat.add_lt_add_left (Nat.sub_lt (twoTo_pos _) Nat.one_pos) _) (block_fits x h) }

/-- The block that a text writes: one of its addresses, a slash, and how many bits are the same. -/
def ofText? (text : String) : Option AddressRange := do
  let (address, bits) ← Text.splitFirst? '/' (Text.trim text).toList
  let address ← Address.ofText? (String.ofList address)
  let bits ← Numeral.natBelow? (twoTo 32) (String.ofList bits)
  if h : bits ≤ 32 then some (block address bits h) else none

end AddressRange

end LogQuery
