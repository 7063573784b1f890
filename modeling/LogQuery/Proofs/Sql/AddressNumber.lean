import LogQuery.Proofs.Sql.AddressTest
import LogQuery.Proofs.Sql.Arithmetic
import LogQuery.Sql.Printer

namespace LogQuery.Sql

namespace ArithmeticWord

/-! ### The words -/

def pointPosition (words : List ArithmeticWord) : List ArithmeticWord :=
  .call "instr" :: (words ++ .comma :: [.text "."]) ++ [.rParen]

/-- The text behind the first point. -/
def behindPoint (words : List ArithmeticWord) : List ArithmeticWord :=
  .call "substr" :: (words ++ .comma :: (pointPosition words ++ .operator .add :: [.nat 1])) ++
    [.rParen]

/-- The text in front of the first point. -/
def beforePoint (words : List ArithmeticWord) : List ArithmeticWord :=
  .call "substr" :: ((words ++ .comma :: [.nat 1]) ++
    .comma :: (pointPosition words ++ .operator .subtract :: [.nat 1])) ++ [.rParen]

def integer (words : List ArithmeticWord) : List ArithmeticWord :=
  .cast :: words ++ [.asInteger, .rParen]

/-- The text behind a number of points. -/
def behindPoints : Nat → List ArithmeticWord
  | 0 => [.argument]
  | n + 1 => behindPoint (behindPoints n)

/-- A byte that stands in front of a point, at its place in the number. -/
def scaledByte (points scale : Nat) : List ArithmeticWord :=
  integer (beforePoint (behindPoints points)) ++ .operator .multiply :: [.nat scale]

def addressNumber : List ArithmeticWord :=
  .lParen :: (((scaledByte 0 16777216 ++ .operator .add :: scaledByte 1 65536) ++
    .operator .add :: scaledByte 2 256) ++ .operator .add :: integer (behindPoints 3)) ++ [.rParen]

/-- The argument is an address in a range. -/
def inRange (r : AddressRange) : List ArithmeticWord :=
  addressNumber ++ .between :: ([.nat r.first.value] ++ .and :: [.nat r.last.value])

/-! ### Their text -/

section

variable {argument : String} {words words' : List ArithmeticWord} {e e' : Expr} {es : List Expr}
  {s s' : String}

lemma spelled_cons (word : ArithmeticWord) (words : List ArithmeticWord) :
    spelled argument (word :: words) = word.spelling argument ++ spelled argument words := by
  simp [spelled]

lemma spelled_append (words words' : List ArithmeticWord) :
    spelled argument (words ++ words') = spelled argument words ++ spelled argument words' := by
  simp [spelled]

lemma spelled_singleton (word : ArithmeticWord) :
    spelled argument [word] = word.spelling argument := by
  simp [spelled]

/-- Words in front of a comma and behind it spell their texts with a comma between. -/
lemma spelled_comma (h : spelled argument words = s) (h' : spelled argument words' = s') :
    spelled argument (words ++ .comma :: words') = s ++ ", " ++ s' := by
  rw [spelled_append, spelled_cons, h, h', ← String.append_assoc]
  rfl

/-- Words around an operator spell their texts with blanks around its sign. -/
lemma spelled_operator (op : Operator) (h : spelled argument words = s)
    (h' : spelled argument words' = s') :
    spelled argument (words ++ .operator op :: words') = s ++ (" " ++ op.text ++ " ") ++ s' := by
  rw [spelled_append, spelled_cons, h, h', ← String.append_assoc]
  rfl

lemma spelled_parens (h : spelled argument words = s) :
    spelled argument (.lParen :: words ++ [.rParen]) = "(" ++ s ++ ")" := by
  rw [List.cons_append, spelled_cons, spelled_append, spelled_singleton, h, ← String.append_assoc]
  rfl

/-- A call spells its arguments in the parentheses of its own word. -/
lemma spelled_call (function : String)
    (h : spelled argument words = Expr.commas (Expr.renderAll .sqlite es)) :
    spelled argument (.call function :: words ++ [.rParen]) =
      (Expr.call function es).render .sqlite := by
  rw [List.cons_append, spelled_cons, spelled_append, spelled_singleton, h, ← String.append_assoc]
  rfl

lemma spelled_binary (op : Operator) (h : spelled argument words = e.render .sqlite)
    (h' : spelled argument words' = e'.render .sqlite) :
    spelled argument (words ++ .operator op :: words') = (Expr.binary op e e').render .sqlite :=
  spelled_operator op h h'

lemma spelled_integer (h : spelled argument words = e.render .sqlite) :
    spelled argument (integer words) = (Expr.cast e .integer).render .sqlite := by
  have hend : spelled argument [.asInteger, .rParen] = " AS " ++ CastType.integer.name ++ ")" := by
    rw [spelled_cons, spelled_singleton]
    rfl
  have hname : (Expr.cast e .integer).render .sqlite =
      "CAST(" ++ e.render .sqlite ++ " AS " ++ CastType.integer.name ++ ")" := rfl
  rw [integer, List.cons_append, spelled_cons, spelled_append, h, hend, hname]
  simp only [spelling, String.append_assoc]

lemma spelled_nat (n : Nat) : spelled argument [.nat n] = (Expr.nat n).render .sqlite :=
  spelled_singleton _

lemma spelled_text (s : String) : spelled argument [.text s] = (Expr.text s).render .sqlite :=
  spelled_singleton _

lemma spelled_pointPosition (h : spelled argument words = e.render .sqlite) :
    spelled argument (pointPosition words) =
      (Expr.call "instr" [e, .text "."]).render .sqlite :=
  spelled_call "instr" (spelled_comma h (spelled_text "."))

lemma spelled_behindPoint (h : spelled argument words = e.render .sqlite) :
    spelled argument (behindPoint words) = (Dialect.behindPoint e).render .sqlite :=
  spelled_call "substr"
    (spelled_comma h (spelled_binary .add (spelled_pointPosition h) (spelled_nat 1)))

lemma spelled_beforePoint (h : spelled argument words = e.render .sqlite) :
    spelled argument (integer (beforePoint words)) = (Dialect.beforePoint e).render .sqlite :=
  spelled_integer (spelled_call "substr" (spelled_comma (spelled_comma h (spelled_nat 1))
    (spelled_binary .subtract (spelled_pointPosition h) (spelled_nat 1))))

/-- The words are the text that is asked, whatever stands for the argument. -/
lemma spelled_addressNumber (e : Expr) :
    spelled (e.render .sqlite) addressNumber = (Dialect.addressNumber e).render .sqlite := by
  have h : spelled (e.render .sqlite) (behindPoints 0) = e.render .sqlite := spelled_singleton _
  have h1 := spelled_behindPoint h
  have h2 := spelled_behindPoint h1
  have h3 := spelled_behindPoint h2
  have hbyte := spelled_binary .multiply (spelled_beforePoint h) (spelled_nat 16777216)
  have hbyte1 := spelled_binary .multiply (spelled_beforePoint h1) (spelled_nat 65536)
  have hbyte2 := spelled_binary .multiply (spelled_beforePoint h2) (spelled_nat 256)
  exact spelled_parens (spelled_operator .add (spelled_operator .add
    (spelled_operator .add hbyte hbyte1) hbyte2) (spelled_integer h3))

/-- The words of the range test spell the text that is emitted. -/
lemma spelled_inRange (e : Expr) (r : AddressRange) :
    spelled (e.render .sqlite) (inRange r) = (Dialect.inRange .sqlite e r).render .sqlite := by
  rw [inRange, spelled_append, spelled_addressNumber, spelled_cons, spelled_append, spelled_nat,
    spelled_cons, spelled_nat]
  simp only [← String.append_assoc]
  rfl

end

/-! ### Their value -/

section

variable {argument : Datum} {words : List ArithmeticWord} {front rest : List Char}

/-- The position of the first point, counted from one. -/
lemma computes_pointPosition
    (h : Computes argument .test words (.text (String.ofList (front ++ '.' :: rest))))
    (hfront : '.' ∉ front) :
    Computes argument .operand (pointPosition words) (.int (front.length + 1)) :=
  .call (.snoc (.single h) (.ofOperand (.text "."))) (Dialect.function?_instr_point hfront rest)

/-- Cutting behind one more point leaves the rest of the address. -/
lemma computes_behindPoint {points : Nat}
    (h : Computes argument .test (behindPoints points)
      (.text (String.ofList (front ++ '.' :: rest))))
    (hfront : '.' ∉ front) :
    Computes argument .test (behindPoints (points + 1)) (.text (String.ofList rest)) := by
  have hposition := computes_pointPosition h hfront
  have hstart : Computes argument .sum
      (pointPosition (behindPoints points) ++ .operator .add :: [.nat 1])
      (.int (front.length + 1 + 1)) :=
    .add (.inl rfl) (.product (.operand hposition)) (.operand (.nat 1)) rfl
  exact .ofOperand (.call (.snoc (.single h) (.sum hstart))
    (Dialect.function?_substr_behind front rest))

/-- A byte in front of a point. -/
lemma computes_scaledByte {points n : Nat} (scale : Nat)
    (h : Computes argument .test (behindPoints points)
      (.text (String.ofList ((toString n).toList ++ '.' :: rest)))) :
    Computes argument .product (scaledByte points scale) (.int (n * scale)) := by
  have hposition := computes_pointPosition h (Address.point_notMem_toString n)
  have hlength : Operator.subtract.combine? (.int ((toString n).toList.length + 1)) (.int 1) =
      some (.int (toString n).toList.length) := by
    simp [Operator.combine?]
  have hcount : Computes argument .sum
      (pointPosition (behindPoints points) ++ .operator .subtract :: [.nat 1])
      (.int (toString n).toList.length) :=
    .add (.inr rfl) (.product (.operand hposition)) (.operand (.nat 1)) hlength
  have hbefore : Computes argument .operand (beforePoint (behindPoints points))
      (.text (String.ofList (toString n).toList)) :=
    .call (.snoc (.snoc (.single h) (.ofOperand (.nat 1))) (.sum hcount))
      (Dialect.function?_substr_before _ rest)
  have hbyte := Computes.cast (.ofOperand hbefore)
  rw [Dialect.toInteger_toString] at hbyte
  exact .multiply (.operand hbyte) (.nat scale) rfl

/-- The words have the number of the address as their value. -/
lemma computes_addressNumber (x : Address) :
    Computes (.text x.dotted) .operand addressNumber (.int x.value) := by
  have h : Computes (.text x.dotted) .test (behindPoints 0)
      (.text (String.ofList x.dotted.toList)) := by
    rw [String.ofList_toList]
    exact .ofOperand .argument
  rw [Address.toList_dotted] at h
  have h1 := computes_behindPoint h (Address.point_notMem_toString _)
  have h2 := computes_behindPoint h1 (Address.point_notMem_toString _)
  have h3 := computes_behindPoint h2 (Address.point_notMem_toString _)
  have hlast := Computes.cast h3
  rw [Dialect.toInteger_toString] at hlast
  have hparens := Computes.parens (.sum (.add (.inl rfl)
    (.add (.inl rfl) (.add (.inl rfl) (.product (computes_scaledByte 16777216 h))
      (computes_scaledByte 65536 h1) rfl) (computes_scaledByte 256 h2) rfl)
    (.operand hlast) rfl))
  have hvalue := x.value_eq_bytes
  have hsum : ((x.value / twoTo 24 : Nat) * (16777216 : Nat) +
      (x.value / twoTo 16 % 256 : Nat) * (65536 : Nat) +
      (x.value / twoTo 8 % 256 : Nat) * (256 : Nat) + (x.value % 256 : Nat) : Int) = x.value := by
    omega
  rwa [hsum] at hparens

end

/-! ### What the text computes -/

/-- Read by the rules of SQL, the text that is asked of SQLite for the number of an address computes
that number and nothing else from the text of the address, and the text that tests a range tells
whether the address lies between its ends. -/
theorem addressNumber_computes (e : Expr) (x : Address) :
    (spelled (e.render .sqlite) addressNumber = (Dialect.addressNumber e).render .sqlite ∧
      ∀ v, Computes (.text x.dotted) .test addressNumber v ↔ v = .int x.value) ∧
    ∀ r : AddressRange,
      spelled (e.render .sqlite) (inRange r) = (Dialect.inRange .sqlite e r).render .sqlite ∧
        ∀ v, Computes (.text x.dotted) .test (inRange r) v ↔
          v = .ofBool (decide (r.first.value ≤ x.value ∧ x.value ≤ r.last.value)) := by
  have hnumber := computes_addressNumber x
  refine ⟨⟨spelled_addressNumber e, fun v => ⟨fun h => h.unique (.ofOperand hnumber), ?_⟩⟩,
    fun r => ⟨spelled_inRange e r, fun v => ?_⟩⟩
  · rintro rfl
    exact .ofOperand hnumber
  · have hrange : Computes (.text x.dotted) .test (inRange r)
        (.ofBool (decide (r.first.value ≤ x.value ∧ x.value ≤ r.last.value))) := by
      refine .between (.product (.operand hnumber)) (.product (.operand (.nat _)))
        (.product (.operand (.nat _))) ?_
      simp [Datum.isBetween?]
    constructor
    · exact fun h => h.unique hrange
    · rintro rfl
      exact hrange

end ArithmeticWord

end LogQuery.Sql
