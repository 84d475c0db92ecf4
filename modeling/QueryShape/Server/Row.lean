import QueryShape.Text.IgnoreCase

namespace QueryShape

open QueryShape.Text

/-- A value of a row. -/
inductive Cell where
  | null
  | int (n : Int)
  | float (x : Float)
  | bool (b : Bool)
  | text (s : String)

/-- A row with named cells. -/
structure Row where
  cells : List (String × Cell)

namespace Row

/-- The first cell of a name, up to case. -/
def cell (r : Row) (name : String) : Cell :=
  match r.cells.find? fun (column, _) => sameIgnoringCase column name with
  | some (_, c) => c
  | none => .null

def text? (r : Row) (name : String) : Option String :=
  match r.cell name with
  | .text s => some s
  | _ => none

def text (r : Row) (name : String) : String :=
  (r.text? name).getD ""

/-- The cell as a number of 64 bits. A float is cut toward zero and kept within the range. -/
def int? (r : Row) (name : String) : Option Int :=
  match r.cell name with
  | .int n => some n
  | .bool b => some (if b then 1 else 0)
  | .float x => some x.toInt64.toInt
  | _ => none

/-- The number of a cell, zero where there is none. -/
def int (r : Row) (name : String) : Int :=
  (r.int? name).getD 0

/-- Whether a cell says yes. -/
def flag (r : Row) (name : String) : Bool :=
  match r.cell name with
  | .bool b => b
  | .int n => n != 0
  | _ => false

end Row

end QueryShape
