import LogQuery.Compile.Expression
import LogQuery.Proofs.Address.Class
import LogQuery.Proofs.Sql.AddressTest
import Mathlib.Logic.ExistsUnique

namespace LogQuery

open Sql

variable {d : Dialect} {row : String → Option Datum} {e : Expr} {x : Address}

/-- The value that an answer has in SQL. -/
def AddressAnswer.datum : AddressAnswer → Datum
  | .label c => .text c.label
  | .flag holds => .ofBool holds

namespace AddressQuestion

/-- The questions that ask for one class. -/
def ofOneClass : List AddressQuestion :=
  [.isLoopback, .isLinkLocal, .isMulticast, .isReserved, .isPrivate, .isPublic]

/-- The name of a question with one argument is read as this question. -/
lemma ofCall?_name (q : AddressQuestion) : EvalFunction.ofCall? q.name 1 = some (.address q) := by
  cases q <;> decide

lemma answer_of_ne_classify {q : AddressQuestion} (h : q ≠ .classify) (x : Address) :
    q.answer x = .flag (q.classes.contains x.class_) := by
  cases q with
  | classify => exact absurd rfl h
  | _ => rfl

/-- A question other than for the class itself is answered yes if it asks for the class of the
address. -/
lemma yes_iff {q : AddressQuestion} (h : q ≠ .classify) (x : Address) :
    q.answer x = .flag true ↔ x.class_ ∈ q.classes := by
  rw [answer_of_ne_classify h]
  simp

lemma ne_classify_of_mem_ofOneClass {q : AddressQuestion} (h : q ∈ ofOneClass) :
    q ≠ .classify := by
  rintro rfl
  simp [ofOneClass] at h

/-- For every class one question asks for that class alone. -/
lemma existsUnique_ofOneClass (c : AddressClass) : ∃! q, q ∈ ofOneClass ∧ c ∈ q.classes := by
  have hone : ∃ q ∈ ofOneClass, c ∈ q.classes ∧ ∀ q' ∈ ofOneClass, c ∈ q'.classes → q' = q := by
    cases c <;> decide
  obtain ⟨q, hq, hc, hunique⟩ := hone
  exact ⟨q, ⟨hq, hc⟩, fun q' h => hunique q' h.1 h.2⟩

/-- Only two questions ask for addresses outside of all ranges. -/
lemma classes_cases (q : AddressQuestion) :
    q = .classify ∨ q = .isPublic ∨
      .public_ ∉ q.classes ∧ ∃ c ∈ q.classes, c ≠ .public_ := by
  cases q <;> decide

end AddressQuestion

/-! ### Answers in SQL -/

namespace Dialect

lemma value?_ofAnswer (answer : AddressAnswer) :
    (ofAnswer answer).value? d row = some answer.datum := by
  cases answer with
  | label c => exact Expr.value?_text c.label
  | flag holds =>
    rw [ofAnswer, Expr.value?_nat]
    cases holds <;> rfl

/-- The label of the first range that holds the address. -/
lemma value?_classify (h : e.value? d row = some (.text x.dotted)) :
    (d.ask .classify e).value? d row = some (.text x.class_.label) := by
  have hcondition : ∀ entry : AddressRange × AddressClass,
      (d.inRange e entry.1).value? d row = some (.ofBool (entry.1.contains x)) :=
    fun entry => value?_inRange h entry.1
  have hvalue : ∀ entry : AddressRange × AddressClass,
      (Expr.text entry.2.label).value? d row = some (.text entry.2.label) :=
    fun entry => Expr.value?_text entry.2.label
  have hfound := value?_conditional hcondition hvalue
    (Expr.value?_text AddressClass.public_.label) AddressRange.classified
  have hlabel : ∀ found : Option (AddressRange × AddressClass),
      (found.map fun entry => Datum.text entry.2.label).getD (.text AddressClass.public_.label) =
        .text ((found.map fun entry => entry.2).getD AddressClass.public_).label := by
    intro found
    cases found <;> rfl
  rw [hlabel] at hfound
  exact hfound

/-- An address that lies in no range of another class is public. -/
lemma value?_isPublic (h : e.value? d row = some (.text x.dotted)) :
    (d.ask .isPublic e).value? d row = some (.ofBool (decide (x.class_ = .public_))) := by
  have hne : AddressRange.classified.map (·.1) ≠ [] := by simp [AddressRange.classified]
  rw [ask, Expr.value?_not (value?_inSomeRange h hne), Address.any_classified]
  simp

/-- The tests of ranges find an address of one of the classes. -/
lemma value?_inClasses (h : e.value? d row = some (.text x.dotted)) {classes : List AddressClass}
    (hpublic : .public_ ∉ classes) (hrange : ∃ c ∈ classes, c ≠ .public_) :
    (d.inSomeRange e (AddressRange.ofClasses classes)).value? d row =
      some (.ofBool (classes.contains x.class_)) := by
  obtain ⟨c, hmem, hc⟩ := hrange
  rw [value?_inSomeRange h (AddressRange.ofClasses_ne_nil hmem hc), x.any_ofClasses hpublic]

/-- A question about the text of an address has its answer as value. -/
theorem value?_ask (h : e.value? d row = some (.text x.dotted)) (q : AddressQuestion) :
    (d.ask q e).value? d row = some (q.answer x).datum := by
  obtain rfl | rfl | ⟨hpublic, hrange⟩ := q.classes_cases
  · exact value?_classify h
  · rw [value?_isPublic h, AddressQuestion.answer_of_ne_classify (by simp)]
    simp [AddressQuestion.classes, AddressAnswer.datum]
  · have hask : d.ask q e = d.inSomeRange e (AddressRange.ofClasses q.classes) := by
      cases q <;> simp_all [AddressQuestion.classes, ask]
    rw [hask, value?_inClasses h hpublic hrange, AddressQuestion.answer_of_ne_classify]
    · rfl
    · rintro rfl
      simp [AddressQuestion.classes] at hrange

end Dialect

/-! ### Both ways of asking -/

namespace EvalExpr

/-- A question about an address in the query is answered at once, and any other becomes a test. -/
lemma toSql_question (d : Dialect) (q : AddressQuestion) (arg : EvalExpr) :
    (EvalExpr.call q.name [arg]).toSql d =
      (EvalFunction.answerOf? q arg).getD (d.ask q (arg.toSql d)) := by
  have hcall : EvalFunction.ofCall? q.name [arg].length = some (.address q) := q.ofCall?_name
  rw [toSql, callToSql, hcall]
  rfl

/-- An address in the query is answered for at once. -/
lemma toSql_question_literal (d : Dialect) (q : AddressQuestion) (x : Address) :
    (EvalExpr.call q.name [.literal (.string x.dotted)]).toSql d =
      Dialect.ofAnswer (q.answer x) := by
  rw [toSql_question]
  simp [EvalFunction.answerOf?, EvalFunction.textOf?, x.trim_dotted, x.ofText?_dotted]

/-- The test of a field has the answer for the address in it as its value. -/
lemma value?_question_field {field : String}
    (h : row (Column.ofField field) = some (.text x.dotted))
    (q : AddressQuestion) :
    ((EvalExpr.call q.name [.field field]).toSql d).value? d row = some (q.answer x).datum := by
  have hfield : ((EvalExpr.field field).toSql d).value? d row = some (.text x.dotted) := by
    rw [toSql, Expr.value?_column, h]
  rw [toSql_question]
  exact Dialect.value?_ask hfield q

/-- Asked about a field that holds the text of an address, every question has the value of what it
becomes when it is asked about that text, and exactly one of the questions for one class is answered
with yes. -/
theorem questions_agree (d : Dialect) (x : Address) (field : String)
    (row : String → Option Datum) (h : row (Column.ofField field) = some (.text x.dotted)) :
    (∀ q : AddressQuestion,
      (EvalExpr.call q.name [.literal (.string x.dotted)]).toSql d =
        Dialect.ofAnswer (q.answer x) ∧
      ((EvalExpr.call q.name [.literal (.string x.dotted)]).toSql d).value? d row =
        some (q.answer x).datum ∧
      ((EvalExpr.call q.name [.field field]).toSql d).value? d row = some (q.answer x).datum) ∧
    (∃! q, q ∈ AddressQuestion.ofOneClass ∧ q.answer x = .flag true) ∧
    (AddressQuestion.isInternal.answer x = .flag true ↔
      AddressQuestion.isPrivate.answer x = .flag true ∨
        AddressQuestion.isLoopback.answer x = .flag true ∨
          AddressQuestion.isLinkLocal.answer x = .flag true) := by
  refine ⟨fun q => ⟨toSql_question_literal d q x, ?_, value?_question_field h q⟩, ?_, ?_⟩
  · rw [toSql_question_literal, Dialect.value?_ofAnswer]
  · obtain ⟨q, ⟨hq, hclass⟩, hunique⟩ := AddressQuestion.existsUnique_ofOneClass x.class_
    have hyes : ∀ {q}, q ∈ AddressQuestion.ofOneClass →
        (q.answer x = .flag true ↔ x.class_ ∈ q.classes) :=
      fun hq => AddressQuestion.yes_iff (AddressQuestion.ne_classify_of_mem_ofOneClass hq) x
    exact ⟨q, ⟨hq, (hyes hq).2 hclass⟩, fun q' h => hunique q' ⟨h.1, (hyes h.1).1 h.2⟩⟩
  · rw [AddressQuestion.yes_iff (by simp), AddressQuestion.yes_iff (by simp),
      AddressQuestion.yes_iff (by simp), AddressQuestion.yes_iff (by simp)]
    simp [AddressQuestion.classes]

/-- The last address of a private range, in the column that the field stands for. -/
theorem questions_agree_private :
    let row : String → Option Datum := fun column =>
      if column = "hostname" then some (.text "172.31.255.255") else none
    row (Column.ofField "host") = some (.text "172.31.255.255") ∧
    ((EvalExpr.call "classify_ip" [.field "host"]).toSql .sqlite).value? .sqlite row =
      some (.text "private") ∧
    ((EvalExpr.call "is_public_ip" [.field "host"]).toSql .clickHouse).value? .clickHouse row =
      some (.int 0) ∧
    (EvalExpr.call "classify_ip" [.literal (.string "172.31.255.255")]).toSql .sqlite =
      .text "private" := by
  intro row
  have hdotted : (Address.ofBytes 172 31 255 255).dotted = "172.31.255.255" := by decide +kernel
  have hcolumn : row (Column.ofField "host") =
      some (.text (Address.ofBytes 172 31 255 255).dotted) := by decide +kernel
  have hclass : (Address.ofBytes 172 31 255 255).class_ = .private_ := by decide +kernel
  obtain ⟨hsqlite, -⟩ := questions_agree .sqlite _ "host" row hcolumn
  obtain ⟨hclickHouse, -⟩ := questions_agree .clickHouse _ "host" row hcolumn
  obtain ⟨hliteral, -, hfield⟩ := hsqlite .classify
  obtain ⟨-, -, hpublic⟩ := hclickHouse .isPublic
  rw [hdotted] at hcolumn hliteral
  refine ⟨hcolumn, ?_, ?_, ?_⟩
  · rw [← show AddressQuestion.classify.name = "classify_ip" from rfl, hfield]
    simp [AddressQuestion.answer, AddressAnswer.datum, hclass, AddressClass.label]
  · rw [← show AddressQuestion.isPublic.name = "is_public_ip" from rfl, hpublic]
    simp [AddressQuestion.answer, AddressQuestion.classes, AddressAnswer.datum, hclass]
    rfl
  · rw [← show AddressQuestion.classify.name = "classify_ip" from rfl, hliteral]
    simp [AddressQuestion.answer, Dialect.ofAnswer, hclass, AddressClass.label]

end EvalExpr

end LogQuery
