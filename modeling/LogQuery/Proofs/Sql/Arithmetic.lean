import LogQuery.Proofs.Sql.Evaluation
import LogQuery.Sql.Quoting

namespace LogQuery.Sql

/-- A word of a computation. The parenthesis that opens a call or a cast belongs to its word. -/
inductive ArithmeticWord where
  | argument
  | nat (n : Nat)
  | text (s : String)
  | call (function : String)
  | cast
  | asInteger
  | lParen | rParen | comma
  | operator (op : Operator)
  | between | and

namespace ArithmeticWord

/-- The word as it is written, with the blanks around it, given the text of the argument. -/
def spelling (argument : String) : ArithmeticWord → String
  | .argument => argument
  | .nat n => toString n
  | .text s => quoteText .sqlite s
  | .call function => function ++ "("
  | .cast => "CAST("
  | .asInteger => " AS " ++ CastType.integer.name
  | .lParen => "("
  | .rParen => ")"
  | .comma => ", "
  | .operator op => " " ++ op.text ++ " "
  | .between => " BETWEEN "
  | .and => " AND "

def spelled (argument : String) (words : List ArithmeticWord) : String :=
  String.join (words.map (spelling argument))

end ArithmeticWord

/-- The levels at which words are read, from the loosest to the tightest. -/
inductive ArithmeticLevel where
  | test | sum | product | operand

mutual

/-- The words have a value by the rules of SQL, given the value of the argument: `*` binds tighter
than `+` and `-`, which are read from the left, and those tighter than `BETWEEN`. -/
inductive Computes (argument : Datum) : ArithmeticLevel → List ArithmeticWord → Datum → Prop where
  | argument : Computes argument .operand [.argument] argument
  | nat (n : Nat) : Computes argument .operand [.nat n] (.int n)
  | text (s : String) : Computes argument .operand [.text s] (.text s)
  | parens {words : List ArithmeticWord} {v : Datum} :
      Computes argument .test words v →
        Computes argument .operand (.lParen :: words ++ [.rParen]) v
  | cast {words : List ArithmeticWord} {v : Datum} :
      Computes argument .test words v →
        Computes argument .operand (.cast :: words ++ [.asInteger, .rParen]) v.toInteger
  | call {function : String} {words : List ArithmeticWord} {vs : List Datum} {v : Datum} :
      ComputesAll argument words vs → function? .sqlite function vs = some v →
        Computes argument .operand (.call function :: words ++ [.rParen]) v
  | operand {words : List ArithmeticWord} {v : Datum} :
      Computes argument .operand words v → Computes argument .product words v
  | multiply {words words' : List ArithmeticWord} {v v' u : Datum} :
      Computes argument .product words v → Computes argument .operand words' v' →
        Operator.multiply.combine? v v' = some u →
        Computes argument .product (words ++ .operator .multiply :: words') u
  | product {words : List ArithmeticWord} {v : Datum} :
      Computes argument .product words v → Computes argument .sum words v
  | add {op : Operator} {words words' : List ArithmeticWord} {v v' u : Datum} :
      op = .add ∨ op = .subtract →
        Computes argument .sum words v → Computes argument .product words' v' →
        op.combine? v v' = some u →
        Computes argument .sum (words ++ .operator op :: words') u
  | sum {words : List ArithmeticWord} {v : Datum} :
      Computes argument .sum words v → Computes argument .test words v
  | between {words words' words'' : List ArithmeticWord} {v v' v'' u : Datum} :
      Computes argument .sum words v → Computes argument .sum words' v' →
        Computes argument .sum words'' v'' → v.isBetween? v' v'' = some u →
        Computes argument .test (words ++ .between :: (words' ++ .and :: words'')) u

/-- The words are arguments, with commas between them, that have these values. -/
inductive ComputesAll (argument : Datum) : List ArithmeticWord → List Datum → Prop where
  | single {words : List ArithmeticWord} {v : Datum} :
      Computes argument .test words v → ComputesAll argument words [v]
  | snoc {words words' : List ArithmeticWord} {vs : List Datum} {v : Datum} :
      ComputesAll argument words vs → Computes argument .test words' v →
        ComputesAll argument (words ++ .comma :: words') (vs ++ [v])

end

/-! ### One reading only -/

/-- What a reader remembers who takes one word after the other, of the parentheses that were opened
last: the function that is called, the values of the arguments that are complete, those in front of
`BETWEEN` and of its `AND`, the sum so far with the operator behind it, and the product so far. -/
structure ArithmeticFrame where
  function : Option String
  args : List Datum
  bounds : List Datum
  sum : Option (Operator × Datum)
  product : Option Datum

namespace ArithmeticFrame

def start (function : Option String) (args bounds : List Datum) : ArithmeticFrame :=
  ⟨function, args, bounds, none, none⟩

def operand? (f : ArithmeticFrame) (v : Datum) : Option ArithmeticFrame :=
  match f.product with
  | none => some { f with product := some v }
  | some u => (Operator.multiply.combine? u v).map fun w => { f with product := some w }

def total? (f : ArithmeticFrame) : Option Datum :=
  match f.sum with
  | none => f.product
  | some (op, u) => f.product.bind (op.combine? u)

/-- The value of the test that was read. -/
def result? (f : ArithmeticFrame) : Option Datum :=
  match f.bounds with
  | [] => f.total?
  | [v, first] => f.total?.bind (v.isBetween? first)
  | _ => none

/-- The value of the parentheses, when they are closed. -/
def closed? (f : ArithmeticFrame) : Option Datum :=
  match f.function with
  | none => f.result?
  | some function => f.result?.bind fun v => function? .sqlite function (f.args ++ [v])

/-- The frame behind a word, together with the frames in front of the parentheses that are
open. -/
def next? (argument : Datum) : ArithmeticFrame × List ArithmeticFrame → ArithmeticWord →
    Option (ArithmeticFrame × List ArithmeticFrame)
  | (f, outer), .argument => (f.operand? argument).map (·, outer)
  | (f, outer), .nat n => (f.operand? (.int n)).map (·, outer)
  | (f, outer), .text s => (f.operand? (.text s)).map (·, outer)
  | (f, outer), .call function => some (start (some function) [] [], f :: outer)
  | (f, outer), .cast => some (start none [] [], f :: outer)
  | (f, outer), .lParen => some (start none [] [], f :: outer)
  | (f, outer), .asInteger =>
    f.result?.map fun v => ({ start none [] [] with product := some v.toInteger }, outer)
  | (f, outer), .comma => f.result?.map fun v => (start f.function (f.args ++ [v]) [], outer)
  | (f, outer), .operator .multiply => some (f, outer)
  | (f, outer), .operator op =>
    f.total?.map fun v => ({ start f.function f.args f.bounds with sum := some (op, v) }, outer)
  | (f, outer), .between => f.total?.map fun v => (start f.function f.args (f.bounds ++ [v]), outer)
  | (f, outer), .and => f.total?.map fun v => (start f.function f.args (f.bounds ++ [v]), outer)
  | (f, g :: outer), .rParen => (f.closed?.bind g.operand?).map (·, outer)
  | (_, []), .rParen => none

def after? (argument : Datum) (state : ArithmeticFrame × List ArithmeticFrame)
    (words : List ArithmeticWord) : Option (ArithmeticFrame × List ArithmeticFrame) :=
  words.foldlM (next? argument) state

variable {argument : Datum} {state : ArithmeticFrame × List ArithmeticFrame}

lemma after?_cons (word : ArithmeticWord) (words : List ArithmeticWord) :
    after? argument state (word :: words) =
      (next? argument state word).bind fun state' => after? argument state' words := by
  rw [after?, List.foldlM_cons]
  rfl

lemma after?_append (words words' : List ArithmeticWord) :
    after? argument state (words ++ words') =
      (after? argument state words).bind fun state' => after? argument state' words' := by
  rw [after?, List.foldlM_append]
  rfl

/-- What a word-by-word reader makes of words at each level. -/
def Agrees (argument : Datum) (words : List ArithmeticWord) (v : Datum) : ArithmeticLevel → Prop
  | .operand => ∀ f outer,
      after? argument (f, outer) words = (f.operand? v).map (·, outer)
  | .product => ∀ f outer, f.product = none →
      after? argument (f, outer) words = some ({ f with product := some v }, outer)
  | .sum => ∀ function args bounds outer, ∃ f : ArithmeticFrame,
      after? argument (start function args bounds, outer) words = some (f, outer) ∧
        f.function = function ∧ f.args = args ∧ f.bounds = bounds ∧ f.total? = some v
  | .test => ∀ function args outer, ∃ f : ArithmeticFrame,
      after? argument (start function args [], outer) words = some (f, outer) ∧
        f.function = function ∧ f.args = args ∧ f.result? = some v

/-- What a word-by-word reader makes of arguments. -/
def AgreesAll (argument : Datum) (words : List ArithmeticWord) (vs : List Datum) : Prop :=
  ∀ function outer, ∃ f : ArithmeticFrame, ∃ v,
    after? argument (start function [] [], outer) words = some (f, outer) ∧
      f.function = function ∧ f.result? = some v ∧ f.args ++ [v] = vs

variable {words words' words'' : List ArithmeticWord} {v v' v'' u : Datum} {vs : List Datum}

/-- What stands in parentheses is an operand, once they are closed. -/
lemma after?_parens {opener : ArithmeticWord} {f g : ArithmeticFrame}
    {outer : List ArithmeticFrame} {function : Option String}
    (hopener : next? argument (f, outer) opener = some (start function [] [], f :: outer))
    (hwords : after? argument (start function [] [], f :: outer) words = some (g, f :: outer))
    (hclosed : g.closed? = some v) :
    after? argument (f, outer) (opener :: words ++ [.rParen]) =
      (f.operand? v).map (·, outer) := by
  rw [List.cons_append, after?_cons, hopener, Option.bind_some, after?_append, hwords,
    Option.bind_some]
  simp [after?, next?, hclosed]

/-! One lemma for each rule that has premises. -/

/-- What stands in parentheses is an operand, whatever it is made of. -/
lemma Agrees.parens (h : Agrees argument words v .test) :
    Agrees argument (.lParen :: words ++ [.rParen]) v .operand := by
  intro f outer
  obtain ⟨g, hg, hfunction, -, hresult⟩ := h none [] (f :: outer)
  exact after?_parens rfl hg (by rw [closed?, hfunction, hresult])

lemma Agrees.cast (h : Agrees argument words v .test) :
    Agrees argument (.cast :: words ++ [.asInteger, .rParen]) v.toInteger .operand := by
  intro f outer
  obtain ⟨g, hg, -, -, hresult⟩ := h none [] (f :: outer)
  have hcast : after? argument (start none [] [], f :: outer) (words ++ [.asInteger]) =
      some ({ start none [] [] with product := some v.toInteger }, f :: outer) := by
    rw [after?_append, hg, Option.bind_some, after?_cons, next?, hresult]
    rfl
  have hsplit : ArithmeticWord.cast :: words ++ [.asInteger, .rParen] =
      .cast :: (words ++ [.asInteger]) ++ [.rParen] := by
    simp
  rw [hsplit]
  exact after?_parens rfl hcast rfl

/-- A call is an operand: its value is that of the function on the values of its arguments. -/
lemma AgreesAll.call {function : String} (h : AgreesAll argument words vs)
    (hv : function? .sqlite function vs = some v) :
    Agrees argument (.call function :: words ++ [.rParen]) v .operand := by
  intro f outer
  obtain ⟨g, u, hg, hfunction, hresult, rfl⟩ := h (some function) (f :: outer)
  refine after?_parens rfl hg ?_
  rw [closed?, hfunction, hresult]
  exact hv

/-- An operand is a product of one factor. -/
lemma Agrees.product (h : Agrees argument words v .operand) : Agrees argument words v .product := by
  intro f outer hproduct
  rw [h f outer, operand?, hproduct]
  rfl

/-- Products group to the left. -/
lemma Agrees.multiply (h : Agrees argument words v .product)
    (h' : Agrees argument words' v' .operand)
    (hu : Operator.multiply.combine? v v' = some u) :
    Agrees argument (words ++ .operator .multiply :: words') u .product := by
  intro f outer hproduct
  rw [after?_append, h f outer hproduct, Option.bind_some, after?_cons, next?, Option.bind_some, h']
  simp [operand?, hu]

lemma Agrees.sum (h : Agrees argument words v .product) : Agrees argument words v .sum := by
  intro function args bounds outer
  exact ⟨_, h _ outer rfl, rfl, rfl, rfl, rfl⟩

/-- Sums group to the left, and products bind tighter. -/
lemma Agrees.add {op : Operator} (hop : op = .add ∨ op = .subtract)
    (h : Agrees argument words v .sum) (h' : Agrees argument words' v' .product)
    (hu : op.combine? v v' = some u) :
    Agrees argument (words ++ .operator op :: words') u .sum := by
  intro function args bounds outer
  obtain ⟨f, hf, rfl, rfl, rfl, htotal⟩ := h function args bounds outer
  have hnext : next? argument (f, outer) (.operator op) =
      some (⟨f.function, f.args, f.bounds, some (op, v), none⟩, outer) := by
    rcases hop with rfl | rfl
    · simp [next?, start, htotal]
    · simp [next?, start, htotal]
  refine ⟨⟨f.function, f.args, f.bounds, some (op, v), some v'⟩, ?_, rfl, rfl, rfl, hu⟩
  rw [after?_append, hf, Option.bind_some, after?_cons, hnext, Option.bind_some, h' _ outer rfl]

lemma Agrees.test (h : Agrees argument words v .sum) : Agrees argument words v .test := by
  intro function args outer
  obtain ⟨f, hf, hfunction, hargs, hbounds, htotal⟩ := h function args [] outer
  exact ⟨f, hf, hfunction, hargs, by rw [result?, hbounds, htotal]⟩

/-- `BETWEEN` takes sums, so it binds weaker than they do. -/
lemma Agrees.between (h : Agrees argument words v .sum) (h' : Agrees argument words' v' .sum)
    (h'' : Agrees argument words'' v'' .sum) (hu : v.isBetween? v' v'' = some u) :
    Agrees argument (words ++ .between :: (words' ++ .and :: words'')) u .test := by
  intro function args outer
  obtain ⟨f, hf, rfl, rfl, hbounds, htotal⟩ := h function args [] outer
  obtain ⟨f', hf', hfunction', hargs', hbounds', htotal'⟩ :=
    h' f.function f.args (f.bounds ++ [v]) outer
  obtain ⟨f'', hf'', hfunction'', hargs'', hbounds'', htotal''⟩ :=
    h'' f'.function f'.args (f'.bounds ++ [v']) outer
  refine ⟨f'', ?_, hfunction''.trans hfunction', hargs''.trans hargs', ?_⟩
  · rw [after?_append, hf, Option.bind_some, after?_cons, next?, htotal, Option.map_some,
      Option.bind_some, after?_append, hf', Option.bind_some, after?_cons, next?, htotal',
      Option.map_some, Option.bind_some, hf'']
  · rw [hbounds', hbounds] at hbounds''
    rw [result?, hbounds'', htotal'']
    exact hu

lemma Agrees.single (h : Agrees argument words v .test) : AgreesAll argument words [v] := by
  intro function outer
  obtain ⟨f, hf, hfunction, hargs, hresult⟩ := h function [] outer
  exact ⟨f, v, hf, hfunction, hresult, by rw [hargs]; rfl⟩

/-- A comma ends an argument, since none of the levels below takes it. -/
lemma AgreesAll.snoc (h : AgreesAll argument words vs) (h' : Agrees argument words' v .test) :
    AgreesAll argument (words ++ .comma :: words') (vs ++ [v]) := by
  intro function outer
  obtain ⟨f, u, hf, rfl, hresult, rfl⟩ := h function outer
  obtain ⟨f', hf', hfunction', hargs', hresult'⟩ := h' f.function (f.args ++ [u]) outer
  refine ⟨f', v, ?_, hfunction', hresult', by rw [hargs']⟩
  rw [after?_append, hf, Option.bind_some, after?_cons, next?, hresult, Option.map_some,
    Option.bind_some, hf']

end ArithmeticFrame

section

open ArithmeticFrame

variable {argument : Datum} {words : List ArithmeticWord} {v v' : Datum}

mutual

/-- A derivation of a value is what the reader finds. The recursion is on the derivation. -/
lemma Computes.agrees : ∀ {level : ArithmeticLevel} {words : List ArithmeticWord} {v : Datum},
    Computes argument level words v → Agrees argument words v level
  | _, _, _, .argument => fun f outer => by simp [after?, next?]
  | _, _, _, .nat n => fun f outer => by simp [after?, next?]
  | _, _, _, .text s => fun f outer => by simp [after?, next?]
  | _, _, _, .parens h => h.agrees.parens
  | _, _, _, .cast h => h.agrees.cast
  | _, _, _, .call h hv => h.agrees.call hv
  | _, _, _, .operand h => h.agrees.product
  | _, _, _, .multiply h h' hu => h.agrees.multiply h'.agrees hu
  | _, _, _, .product h => h.agrees.sum
  | _, _, _, .add hop h h' hu => h.agrees.add hop h'.agrees hu
  | _, _, _, .sum h => h.agrees.test
  | _, _, _, .between h h' h'' hu => h.agrees.between h'.agrees h''.agrees hu

lemma ComputesAll.agrees : ∀ {words : List ArithmeticWord} {vs : List Datum},
    ComputesAll argument words vs → AgreesAll argument words vs
  | _, _, .single h => h.agrees.single
  | _, _, .snoc h h' => h.agrees.snoc h'.agrees

end

/-- An operand is a test by itself. -/
lemma Computes.ofOperand (h : Computes argument .operand words v) :
    Computes argument .test words v := .sum (.product (.operand h))

/-- Words have at most one value as a whole. -/
theorem Computes.unique (h : Computes argument .test words v)
    (h' : Computes argument .test words v') : v = v' := by
  obtain ⟨f, hf, -, -, hresult⟩ := h.agrees none [] []
  obtain ⟨f', hf', -, -, hresult'⟩ := h'.agrees none [] []
  rw [hf] at hf'
  cases hf'
  exact Option.some.inj (hresult.symm.trans hresult')

end

end LogQuery.Sql
