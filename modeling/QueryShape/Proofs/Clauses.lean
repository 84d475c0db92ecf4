import QueryShape.Script.Synthesis

/-!
The clauses of generated statements. The text of a statement is that of a list of clauses, in which
each column stands for what the statement uses it for.
-/

namespace QueryShape

open QueryShape.Identifier

/-- What a column is compared with or gets: the value passed for a column, or a column of the rows
that the statement draws on. -/
inductive Operand where
  | passed (column : Column)
  | drawn (qualifier : String) (column : Column)
  deriving DecidableEq, Repr

namespace Operand

def text : Operand → String
  | passed c => parameterName c.name
  | drawn qualifier c => qualifier ++ quote c.name

def column : Operand → Column
  | passed c => c
  | drawn _ c => c

/-- The column of an operand that is drawn from other rows. -/
def drawn? : Operand → Option Column
  | passed _ => none
  | drawn _ c => some c

theorem map_text_passed (cs : List Column) :
    (cs.map passed).map text = cs.map fun c => parameterName c.name :=
  List.map_map

theorem map_text_drawn (qualifier : String) (cs : List Column) :
    ",".intercalate ((cs.map (drawn qualifier)).map text) = Statement.columnList qualifier cs :=
  congrArg (",".intercalate) List.map_map

end Operand

/-- A column of a statement and what it is compared with or set to. -/
structure Equation where
  qualifier : String
  column : Column
  value : Operand
  deriving DecidableEq, Repr

namespace Equation

def text (e : Equation) : String :=
  e.qualifier ++ quote e.column.name ++ " = " ++ e.value.text

/-- A column and the value that is passed for it. -/
def passed (c : Column) : Equation :=
  ⟨"", c, .passed c⟩

/-- A column and the one of its name in other rows. -/
def drawn (target source : String) (c : Column) : Equation :=
  ⟨target, c, .drawn source c⟩

/-- A column of the table and the column of a table type that is bound to it. -/
def ofBinding (b : ColumnBinding) : Equation :=
  ⟨"t.", b.column, .drawn "k." b.typeColumn⟩

theorem map_text_passed (cs : List Column) :
    (cs.map passed).map text = Statement.valueEquations (fun c => parameterName c.name) cs := by
  simp only [List.map_map, Statement.valueEquations]
  apply List.map_congr_left
  intro c _
  simp only [Function.comp_apply, passed, text, Operand.text, String.empty_append]

theorem map_text_drawn (target source : String) (cs : List Column) :
    (cs.map (drawn target source)).map text = Statement.columnEquations target source cs := by
  simp only [List.map_map, Statement.columnEquations]
  apply List.map_congr_left
  intro c _
  simp only [Function.comp_apply, drawn, text, Operand.text, String.append_assoc]

theorem map_text_ofBinding (bindings : List ColumnBinding) :
    " AND ".intercalate ((bindings.map ofBinding).map text) =
      Statement.joinCondition bindings := by
  have hequals : " = k." = " = " ++ "k." := by decide
  simp only [List.map_map, Statement.joinCondition]
  congr 1
  apply List.map_congr_left
  intro b _
  simp only [Function.comp_apply, ofBinding, text, Operand.text, hequals, String.append_assoc]

end Equation

/-- What a statement uses columns for, with all that is used for one end put together. -/
structure ColumnUses where
  conditions : List Equation := []
  assignments : List Equation := []
  insertion : List Column := []
  contents : List Operand := []
  offered : List Column := []
  deriving DecidableEq, Repr

namespace ColumnUses

instance : Append ColumnUses where
  append a b := {
    conditions := a.conditions ++ b.conditions
    assignments := a.assignments ++ b.assignments
    insertion := a.insertion ++ b.insertion
    contents := a.contents ++ b.contents
    offered := a.offered ++ b.offered }

theorem append_eq (a b : ColumnUses) :
    a ++ b = ⟨a.conditions ++ b.conditions, a.assignments ++ b.assignments,
      a.insertion ++ b.insertion, a.contents ++ b.contents, a.offered ++ b.offered⟩ :=
  rfl

/-- The columns of the table that are matched, set and filled. -/
def targets (u : ColumnUses) : List Column :=
  u.conditions.map (·.column) ++ u.assignments.map (·.column) ++ u.insertion

/-- What they are compared with and what they get. -/
def operands (u : ColumnUses) : List Operand :=
  u.conditions.map (·.value) ++ u.assignments.map (·.value) ++ u.contents

/-- The columns that a statement takes from the rows it draws on. -/
def drawn (u : ColumnUses) : List Column :=
  u.operands.filterMap Operand.drawn?

theorem drawn_eq {u : ColumnUses} {qualifier : String} {cs : List Column}
    (h : u.operands = cs.map (.drawn qualifier)) : u.drawn = cs := by
  rw [drawn, h, List.filterMap_map]
  exact List.filterMap_some

end ColumnUses

/-- A piece of a statement. -/
inductive Clause where
  | words (text : String)
  | selection (qualifier : String) (columns : List Column)
  | condition (equations : List Equation)
  | assignment (equations : List Equation)
  | insertion (columns : List Column)
  /-- What the columns of an insertion get. -/
  | contents (operands : List Operand)
  /-- A row of passed values, each under the name of its column. -/
  | offer (columns : List Column)
  | output (qualifier : String) (columns : List Column)
  deriving DecidableEq, Repr

namespace Clause

def text : Clause → String
  | words text => text
  | selection qualifier columns => Statement.columnList qualifier columns
  | condition equations => " AND ".intercalate (equations.map Equation.text)
  | assignment equations => ",".intercalate (equations.map Equation.text)
  | insertion columns => Statement.columnList "" columns
  | contents operands => ",".intercalate (operands.map Operand.text)
  | offer columns => Statement.sourceText (fun c => parameterName c.name) columns .parameters
  | output qualifier columns => Statement.outputClause qualifier columns

/-- The text that clauses make. -/
def textOf (clauses : List Clause) : String :=
  String.join (clauses.map text)

@[simp] theorem textOf_nil : textOf [] = "" :=
  rfl

@[simp] theorem textOf_cons (c : Clause) (rest : List Clause) :
    textOf (c :: rest) = c.text ++ textOf rest :=
  String.join_cons

@[simp] theorem textOf_append (cs ds : List Clause) :
    textOf (cs ++ ds) = textOf cs ++ textOf ds := by
  simp only [textOf, List.map_append, String.join_append]

/-- What a clause uses columns for. -/
def uses : Clause → ColumnUses
  | condition equations => { conditions := equations }
  | assignment equations => { assignments := equations }
  | insertion columns => { insertion := columns }
  | contents operands => { contents := operands }
  | offer columns => { offered := columns }
  | words _ | selection _ _ | output _ _ => {}

/-- What clauses use columns for, in their order. -/
def usesOf : List Clause → ColumnUses
  | [] => {}
  | c :: rest => c.uses ++ usesOf rest

theorem usesOf_append (cs ds : List Clause) : usesOf (cs ++ ds) = usesOf cs ++ usesOf ds := by
  induction cs with
  | nil => rfl
  | cons c rest ih => simp [usesOf, ih, ColumnUses.append_eq]

end Clause

namespace Statement

def sourceClauses (columns : List Column) : MergeSource → List Clause
  | .staging => [.words stagingTable]
  | .parameters => [.offer columns]

/-- What a merge does with the rows that it finds. -/
def matchedClauses (set : List Column) : List Clause :=
  if set.isEmpty then []
  else [.words " WHEN MATCHED THEN UPDATE SET ", .assignment (set.map (.drawn "t." "s."))]

/-- What a merge does with the rows that it does not find. -/
def unmatchedClauses (inserted : List Column) : List Clause :=
  if inserted.isEmpty then [.words " WHEN NOT MATCHED THEN INSERT DEFAULT VALUES"]
  else [.words " WHEN NOT MATCHED THEN INSERT (", .insertion inserted, .words ") VALUES (",
    .contents (inserted.map (.drawn "s.")), .words ")"]

/-- The clauses of a statement. -/
def clauses (table : QualifiedName) : Statement → List Clause
  | select columns keys =>
      [.words "SELECT ", .selection "" columns, .words (" FROM " ++ table.full)] ++
        if keys.isEmpty then [] else [.words " WHERE ", .condition (keys.map .passed)]
  | selectJoined columns choice =>
      [.words "SELECT ", .selection "t." columns,
        .words (" FROM " ++ table.full ++ " AS t INNER JOIN " ++ keysParameter ++ " AS k ON "),
        .condition (choice.bindings.map .ofBinding)]
  | insert columns output =>
      if columns.isEmpty then
        [.words ("INSERT INTO " ++ table.full), .output "inserted." output,
          .words " DEFAULT VALUES"]
      else
        [.words ("INSERT INTO " ++ table.full ++ " ("), .insertion columns, .words ")",
          .output "inserted." output, .words " VALUES (", .contents (columns.map .passed),
          .words ")"]
  | insertStaged columns output =>
      [.words ("INSERT INTO " ++ table.full ++ " ("), .insertion columns, .words ")",
        .output "inserted." output, .words " SELECT ", .contents (columns.map (.drawn "")),
        .words (" FROM " ++ stagingTable)]
  | update set keys output =>
      [.words ("UPDATE " ++ table.full ++ " SET "), .assignment (set.map .passed),
        .output "inserted." output, .words " WHERE ", .condition (keys.map .passed)]
  | updateStaged set keys output _ =>
      [.words "UPDATE t SET ", .assignment (set.map (.drawn "t." "a.")),
        .output "inserted." output,
        .words (" FROM " ++ table.full ++ " AS t INNER JOIN " ++ stagingTable ++ " AS a ON "),
        .condition (keys.map (.drawn "t." "a."))]
  | merge source sourceColumns holdlock keys set inserted output =>
      [.words ("MERGE " ++ table.full ++ (if holdlock then " WITH (HOLDLOCK)" else "") ++
          " AS t USING ")] ++ sourceClauses sourceColumns source ++
        [.words " AS s ON ", .condition (keys.map (.drawn "t." "s."))] ++
        matchedClauses set ++ unmatchedClauses inserted ++
        [.output "inserted." output, .words ";"]
  | delete keys output =>
      [.words ("DELETE FROM " ++ table.full), .output "deleted." output, .words " WHERE ",
        .condition (keys.map .passed)]

theorem textOf_sourceClauses (columns : List Column) (source : MergeSource) :
    Clause.textOf (sourceClauses columns source) =
      sourceText (fun c => parameterName c.name) columns source := by
  cases source <;>
    simp only [sourceClauses, Clause.textOf_cons, Clause.textOf_nil, Clause.text, sourceText,
      String.append_empty]

theorem textOf_matchedClauses (set : List Column) :
    Clause.textOf (matchedClauses set) = if set.isEmpty then ""
      else " WHEN MATCHED THEN UPDATE SET " ++ ",".intercalate (columnEquations "t." "s." set) := by
  unfold matchedClauses
  split
  · rfl
  · simp only [Clause.textOf_cons, Clause.textOf_nil, Clause.text, Equation.map_text_drawn,
      String.append_empty]

theorem textOf_unmatchedClauses (inserted : List Column) :
    Clause.textOf (unmatchedClauses inserted) =
      if inserted.isEmpty then " WHEN NOT MATCHED THEN INSERT DEFAULT VALUES"
      else " WHEN NOT MATCHED THEN INSERT (" ++ columnList "" inserted ++ ") VALUES (" ++
        columnList "s." inserted ++ ")" := by
  unfold unmatchedClauses
  split
  · simp only [Clause.textOf_cons, Clause.textOf_nil, Clause.text, String.append_empty]
  · simp only [Clause.textOf_cons, Clause.textOf_nil, Clause.text, Operand.map_text_drawn,
      String.append_empty, String.append_assoc]

/-- The text of a statement is that of its clauses. -/
theorem textOf_clauses (table : QualifiedName) (s : Statement) :
    Clause.textOf (s.clauses table) = s.text table := by
  unfold text
  cases s with
  | select columns keys =>
      unfold clauses textWith selectText
      dsimp only
      split <;> simp only [Clause.textOf_append, Clause.textOf_cons, Clause.textOf_nil, Clause.text,
        Equation.map_text_passed, String.append_assoc, String.append_empty]
  | selectJoined columns choice =>
      unfold clauses textWith
      dsimp only
      simp only [Clause.textOf_cons, Clause.textOf_nil, Clause.text, Equation.map_text_ofBinding,
        String.append_assoc, String.append_empty]
  | insert columns output =>
      unfold clauses textWith insertText
      dsimp only
      split <;> simp only [Clause.textOf_cons, Clause.textOf_nil, Clause.text,
        Operand.map_text_passed, String.append_assoc, String.append_empty]
  | insertStaged columns output =>
      unfold clauses textWith
      dsimp only
      simp only [Clause.textOf_cons, Clause.textOf_nil, Clause.text, Operand.map_text_drawn,
        String.append_assoc, String.append_empty]
  | update set keys output =>
      unfold clauses textWith
      dsimp only
      simp only [Clause.textOf_cons, Clause.textOf_nil, Clause.text, Equation.map_text_passed,
        String.append_assoc, String.append_empty]
  | updateStaged set keys output staged =>
      unfold clauses textWith
      dsimp only
      simp only [Clause.textOf_cons, Clause.textOf_nil, Clause.text, Equation.map_text_drawn,
        String.append_assoc, String.append_empty]
  | merge source sourceColumns holdlock keys set inserted output =>
      unfold clauses textWith mergeText
      dsimp only
      simp only [Clause.textOf_append, Clause.textOf_cons, Clause.textOf_nil, Clause.text,
        textOf_sourceClauses, textOf_matchedClauses, textOf_unmatchedClauses,
        Equation.map_text_drawn, String.append_assoc, String.append_empty]
  | delete keys output =>
      unfold clauses textWith
      dsimp only
      simp only [Clause.textOf_cons, Clause.textOf_nil, Clause.text, Equation.map_text_passed,
        String.append_assoc, String.append_empty]

def uses : Statement → ColumnUses
  | select _ keys => { conditions := keys.map .passed }
  | selectJoined _ choice => { conditions := choice.bindings.map .ofBinding }
  | insert columns _ => { insertion := columns, contents := columns.map .passed }
  | insertStaged columns _ => { insertion := columns, contents := columns.map (.drawn "") }
  | update set keys _ => { conditions := keys.map .passed, assignments := set.map .passed }
  | updateStaged set keys _ _ =>
      { conditions := keys.map (.drawn "t." "a."), assignments := set.map (.drawn "t." "a.") }
  | merge source sourceColumns _ keys set inserted _ =>
      { conditions := keys.map (.drawn "t." "s.")
        assignments := set.map (.drawn "t." "s.")
        insertion := inserted
        contents := inserted.map (.drawn "s.")
        offered := match source with
          | .staging => []
          | .parameters => sourceColumns }
  | delete keys _ => { conditions := keys.map .passed }

theorem usesOf_matchedClauses (set : List Column) :
    Clause.usesOf (matchedClauses set) = { assignments := set.map (.drawn "t." "s.") } := by
  cases set <;> simp [matchedClauses, Clause.usesOf, Clause.uses, ColumnUses.append_eq]

theorem usesOf_unmatchedClauses (inserted : List Column) :
    Clause.usesOf (unmatchedClauses inserted) =
      { insertion := inserted, contents := inserted.map (.drawn "s.") } := by
  cases inserted <;> simp [unmatchedClauses, Clause.usesOf, Clause.uses, ColumnUses.append_eq]

theorem usesOf_clauses (table : QualifiedName) (s : Statement) :
    Clause.usesOf (s.clauses table) = s.uses := by
  cases s with
  | select columns keys =>
      cases keys <;> simp [clauses, uses, Clause.usesOf, Clause.uses, ColumnUses.append_eq]
  | insert columns output =>
      cases columns <;> simp [clauses, uses, Clause.usesOf, Clause.uses, ColumnUses.append_eq]
  | merge source sourceColumns holdlock keys set inserted output =>
      cases source <;>
        simp [clauses, uses, sourceClauses, usesOf_matchedClauses, usesOf_unmatchedClauses,
          Clause.usesOf_append, Clause.usesOf, Clause.uses, ColumnUses.append_eq]
  | _ => simp [clauses, uses, Clause.usesOf, Clause.uses, ColumnUses.append_eq]

end Statement

end QueryShape
