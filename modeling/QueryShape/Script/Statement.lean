import QueryShape.Distinct
import QueryShape.Script.TableTypeMatch
import QueryShape.Unit

namespace QueryShape

open QueryShape.Identifier

/-- Where a merge takes its rows from. -/
inductive MergeSource where
  | parameters
  | staging
  deriving DecidableEq, Repr

/-- The statement of a generated script. -/
inductive Statement where
  /-- Reads the rows whose columns have the values of parameters. -/
  | select (columns keys : List Column)
  /-- Reads the rows for the entries of a table-valued parameter. -/
  | selectJoined (columns : List Column) (choice : TableTypeChoice)
  | insert (columns output : List Column)
  | insertStaged (columns output : List Column)
  | update (set keys output : List Column)
  /-- Updates from the staging table, which has the columns `staged`. -/
  | updateStaged (set keys output staged : List Column)
  | merge (source : MergeSource) (sourceColumns : List Column) (holdlock : Bool)
      (keys set insert output : List Column)
  | delete (keys output : List Column)
  deriving DecidableEq, Repr

namespace Statement

/-- The temp table that holds the rows of a batch. -/
def stagingTable : String := "#args"

/-- The parameter that holds the keys of a batch. -/
def keysParameter : String := "@keys"

/-- Column names in brackets after a qualifier. -/
def columnList (qualifier : String) (cs : List Column) : String :=
  ",".intercalate (cs.map fun c => qualifier ++ quote c.name)

/-- Each column equal to its value. -/
def valueEquations (value : Column → String) (cs : List Column) : List String :=
  cs.map fun c => quote c.name ++ " = " ++ value c

/-- Each column of one row set equal to the same column of another. -/
def columnEquations (left right : String) (cs : List Column) : List String :=
  cs.map fun c => left ++ quote c.name ++ " = " ++ right ++ quote c.name

/-- The columns that a statement puts out, if there are any. -/
def outputClause (qualifier : String) (cs : List Column) : String :=
  if cs.isEmpty then "" else " OUTPUT " ++ columnList qualifier cs

/-- Rows match whose columns have the values of the table type's. -/
def joinCondition (bindings : List ColumnBinding) : String :=
  " AND ".intercalate (bindings.map fun b =>
    "t." ++ quote b.column.name ++ " = k." ++ quote b.typeColumn.name)

/-- The rows that a merge draws on. -/
def sourceText (value : Column → String) (columns : List Column) : MergeSource → String
  | .staging => stagingTable
  | .parameters =>
      "(SELECT " ++ ",".intercalate (columns.map fun c => value c ++ " AS " ++ quote c.name) ++ ")"

/-- Reads columns of the rows whose keys have the values. -/
def selectText (value : Column → String) (table : QualifiedName) (columns keys : List Column) :
    String :=
  "SELECT " ++ columnList "" columns ++ " FROM " ++ table.full ++
    if keys.isEmpty then "" else " WHERE " ++ " AND ".intercalate (valueEquations value keys)

def insertText (value : Column → String) (table : QualifiedName) (columns output : List Column) :
    String :=
  if columns.isEmpty then
    "INSERT INTO " ++ table.full ++ outputClause "inserted." output ++ " DEFAULT VALUES"
  else
    "INSERT INTO " ++ table.full ++ " (" ++ columnList "" columns ++ ")" ++
      outputClause "inserted." output ++ " VALUES (" ++ ",".intercalate (columns.map value) ++ ")"

/-- Updates the rows that match those of a source, and inserts the others. -/
def mergeText (table : QualifiedName) (source : String) (holdlock : Bool)
    (keys set inserted output : List Column) : String :=
  "MERGE " ++ table.full ++ (if holdlock then " WITH (HOLDLOCK)" else "") ++ " AS t USING " ++
    source ++ " AS s ON " ++ " AND ".intercalate (columnEquations "t." "s." keys) ++
    (if set.isEmpty then ""
      else " WHEN MATCHED THEN UPDATE SET " ++ ",".intercalate (columnEquations "t." "s." set)) ++
    (if inserted.isEmpty then " WHEN NOT MATCHED THEN INSERT DEFAULT VALUES"
      else " WHEN NOT MATCHED THEN INSERT (" ++ columnList "" inserted ++ ") VALUES (" ++
        columnList "s." inserted ++ ")") ++
    outputClause "inserted." output ++ ";"

/-- The statement with something in place of the value of each column. -/
def textWith (value : Column → String) (table : QualifiedName) : Statement → String
  | select columns keys => selectText value table columns keys
  | selectJoined columns choice =>
      "SELECT " ++ columnList "t." columns ++ " FROM " ++ table.full ++ " AS t INNER JOIN " ++
        keysParameter ++ " AS k ON " ++ joinCondition choice.bindings
  | insert columns output => insertText value table columns output
  | insertStaged columns output =>
      "INSERT INTO " ++ table.full ++ " (" ++ columnList "" columns ++ ")" ++
        outputClause "inserted." output ++ " SELECT " ++ columnList "" columns ++ " FROM " ++
        stagingTable
  | update set keys output =>
      "UPDATE " ++ table.full ++ " SET " ++ ",".intercalate (valueEquations value set) ++
        outputClause "inserted." output ++ " WHERE " ++
        " AND ".intercalate (valueEquations value keys)
  | updateStaged set keys output _ =>
      "UPDATE t SET " ++ ",".intercalate (columnEquations "t." "a." set) ++
        outputClause "inserted." output ++ " FROM " ++ table.full ++ " AS t INNER JOIN " ++
        stagingTable ++ " AS a ON " ++ " AND ".intercalate (columnEquations "t." "a." keys)
  | merge source sourceColumns holdlock keys set inserted output =>
      mergeText table (sourceText value sourceColumns source) holdlock keys set inserted output
  | delete keys output =>
      "DELETE FROM " ++ table.full ++ outputClause "deleted." output ++ " WHERE " ++
        " AND ".intercalate (valueEquations value keys)

/-- The text of a script has a parameter in place of each value. -/
def text (table : QualifiedName) (s : Statement) : String :=
  s.textWith (fun c => parameterName c.name) table

/-- The columns whose values are passed one by one, in the order of their parameters in the
text. -/
def valueColumns : Statement → List Column
  | select _ keys => keys
  | selectJoined .. => []
  | insert columns _ => columns
  | insertStaged .. => []
  | update set keys _ => set ++ keys
  | updateStaged .. => []
  | merge .parameters sourceColumns .. => sourceColumns
  | merge .staging .. => []
  | delete keys _ => keys

/-- The types of the parameters in the text, one for each parameter. -/
def hints (s : Statement) : List ParameterHint :=
  match s with
  | selectJoined _ choice => [⟨keysParameter, choice.type.name.full⟩]
  | s => firstOfEach (fun h => parameterKey h.name)
      (s.valueColumns.map fun c => ⟨parameterName c.name, c.declaration⟩)

/-- The columns of the staging table, if the statement has one. -/
def staged? : Statement → Option (List Column)
  | insertStaged columns _ => some columns
  | updateStaged _ _ _ staged => some staged
  | merge .staging sourceColumns .. => some sourceColumns
  | _ => none

/-- A column as the staging table declares it. -/
def stagedColumn (c : Column) : String :=
  quote c.name ++ " " ++ c.declaration ++
    (match c.collation with
      | some collation => " COLLATE " ++ collation
      | none => "") ++
    if c.isNullable then " NULL" else " NOT NULL"

/-- A staging table with columns. -/
def stagingDefinition (columns : List Column) : TempTable where
  name := stagingTable
  definition :=
    "CREATE TABLE " ++ stagingTable ++ " (" ++ ", ".intercalate (columns.map stagedColumn) ++ ")"

end Statement

end QueryShape
