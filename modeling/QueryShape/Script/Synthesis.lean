import QueryShape.Rule.Basic
import QueryShape.Script.Statement

namespace QueryShape

/-- The columns that a request gives to each clause of a statement. -/
structure ColumnPlan where
  keys : List Column
  select : List Column
  insert : List Column
  set : List Column
  output : List Column
  deriving DecidableEq, Repr

namespace ColumnPlan

/-- The columns that a request filters by. -/
def filterColumns (table : Table) (kind : ScriptKind) (names : List String) :
    Except Fault (List Column) :=
  names.mapM fun name =>
    match table.column? name with
    | none => .error (.unknownColumn table.name kind name)
    | some c => .ok c

/-- The columns that a request matches on. -/
def keysFor (table : Table) (r : TableScriptRule) : Except Fault (List Column) :=
  if r.kind.usesFilterColumns then
    match r.filterColumns.getD [] with
    | [] => .error (.missingFilterColumns table.name r.kind)
    | names => filterColumns table r.kind names
  else if r.kind.requiresKey then
    match table.primaryKey.filterMap fun k => table.column? k.name with
    | [] => .error (.missingPrimaryKey table.name r.kind)
    | keys => .ok keys
  else
    .ok []

/-- Whether a request uses a column. -/
def uses (r : TableScriptRule) (ordinarily : Column → Bool) (c : Column) : Bool :=
  (r.columnRule c.name).inclusion.getD (ordinarily c)

/-- Whether a request returns a column. -/
def returns (table : Table) (r : TableScriptRule) (c : Column) : Bool :=
  (r.columnRule c.name).output.getD (r.kind.outputsKey && table.isKey c.name)

/-- The columns of a request by what they are for. -/
def ofRule (table : Table) (r : TableScriptRule) : Except Fault ColumnPlan :=
  (keysFor table r).map fun keys => {
    keys
    select := table.columns.filter (uses r fun _ => true)
    insert := table.columns.filter (uses r fun c => !c.isServerGenerated)
    set := table.columns.filter (uses r fun c => !(table.isKey c.name || c.isServerGenerated))
    output := table.columns.filter (returns table r) }

/-- The columns of a table whose names are those of a column in the list. -/
def inTableOrder (table : Table) (cs : List Column) : List Column :=
  table.columns.filter fun c => cs.any fun d => d.name == c.name

/-- The columns that a merge takes from its source. -/
def mergeColumns (table : Table) (p : ColumnPlan) : List Column :=
  inTableOrder table (p.keys ++ p.insert ++ p.set)

end ColumnPlan

namespace Statement

/-- A statement that needs columns for a purpose. -/
def requireColumns (table : Table) (kind : ScriptKind) (purpose : ColumnPurpose)
    (cs : List Column) (s : Statement) : Except Fault Statement :=
  if cs.isEmpty then .error (.emptyColumnList table.name kind purpose) else .ok s

/-- The read of the rows that a table-valued parameter names. -/
def joined (table : Table) (r : TableScriptRule) (types : List TableType) (p : ColumnPlan) :
    Except Fault Statement :=
  if p.select.isEmpty then
    .error (.emptyColumnList table.name r.kind .select)
  else
    (TableTypeChoice.select table r.kind p.keys types r.tableType).map (selectJoined p.select)

/-- The statement of a request. -/
def ofPlan (table : Table) (r : TableScriptRule) (types : List TableType) (p : ColumnPlan) :
    Except Fault Statement :=
  match r.kind with
  | .getAll | .getById | .getByColumns =>
      requireColumns table r.kind .select p.select (select p.select p.keys)
  | .getByIdBatch | .getByColumnsBatch => joined table r types p
  | .insert => .ok (insert p.insert p.output)
  | .insertBatch =>
      requireColumns table r.kind .insert p.insert (insertStaged p.insert p.output)
  | .update => requireColumns table r.kind .update p.set (update p.set p.keys p.output)
  | .updateBatch =>
      requireColumns table r.kind .update p.set
        (updateStaged p.set p.keys p.output (ColumnPlan.inTableOrder table (p.keys ++ p.set)))
  | .merge =>
      .ok (merge .parameters (p.mergeColumns table) r.holdlock p.keys p.set p.insert p.output)
  | .mergeBatch =>
      .ok (merge .staging (p.mergeColumns table) r.holdlock p.keys p.set p.insert p.output)
  | .delete => .ok (delete p.keys p.output)

def toScript (identity : String) (table : QualifiedName) (s : Statement) : Script where
  identity
  text := s.text table
  parameters := []
  tempTables := (s.staged?.map stagingDefinition).toList
  isSynthesized := true
  hints := s.hints

end Statement

/-- The script of a request for a table. -/
def synthesizeScript (table : Table) (types : List TableType) (r : TableScriptRule) :
    Except Fault Script :=
  (ColumnPlan.ofRule table r).bind fun p =>
    (Statement.ofPlan table r types p).map (Statement.toScript (r.identity table.name) table.name)

/-- The scripts that rules request for a table, or the first error. -/
def synthesizeScripts (table : Table) (types : List TableType) (rules : List TableScriptRule) :
    Except Fault (List Script) :=
  rules.mapM (synthesizeScript table types)

end QueryShape
