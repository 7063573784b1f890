import LogQuery.Address.Class
import LogQuery.Sql.Value

namespace LogQuery.Dialect

open Sql

/-- The text behind the first point of a text. -/
def behindPoint (e : Expr) : Expr :=
  .call "substr" [e, .binary .add (.call "instr" [e, .text "."]) (.nat 1)]

/-- The number in front of the first point of a text. -/
def beforePoint (e : Expr) : Expr :=
  .cast (.call "substr" [e, .nat 1, .binary .subtract (.call "instr" [e, .text "."]) (.nat 1)])
    .integer

/-- The number of an address, which SQLite computes from the parts of its text between the points.
-/
def addressNumber (e : Expr) : Expr :=
  let rest1 := behindPoint e
  let rest2 := behindPoint rest1
  let rest3 := behindPoint rest2
  .paren (.chain .add
    [.binary .multiply (beforePoint e) (.nat 16777216),
      .binary .multiply (beforePoint rest1) (.nat 65536),
      .binary .multiply (beforePoint rest2) (.nat 256),
      .cast rest3 .integer])

def inRange (d : Dialect) (e : Expr) (r : AddressRange) : Expr :=
  match d with
  | .clickHouse =>
    .between (.call "toIPv4OrNull" [e]) (.call "toIPv4" [.text r.first.dotted])
      (.call "toIPv4" [.text r.last.dotted])
  | .sqlite => .between (addressNumber e) (.nat r.first.value) (.nat r.last.value)

def inSomeRange (d : Dialect) (e : Expr) (ranges : List AddressRange) : Expr :=
  .paren (.chain .or (ranges.map (d.inRange e)))

/-- The answer to a question about an address. -/
def ofAnswer : AddressAnswer → Expr
  | .label c => .text c.label
  | .flag holds => .nat holds.toNat

/-- A question about the address that a text is. -/
def ask (d : Dialect) (q : AddressQuestion) (e : Expr) : Expr :=
  match q with
  | .classify =>
    d.conditional
      (AddressRange.classified.map fun (r, c) => (d.inRange e r, .text c.label))
      (.text AddressClass.public_.label)
  | .isPublic => .not (d.inSomeRange e (AddressRange.classified.map (·.1)))
  | q => d.inSomeRange e (AddressRange.ofClasses q.classes)

end LogQuery.Dialect
