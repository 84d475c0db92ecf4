import QueryShape.Column
import QueryShape.Diagnostics
import QueryShape.Distinct
import QueryShape.Narrow
import QueryShape.Server.Row

namespace QueryShape

/-- The types of a server. -/
structure TypeCatalog where
  /-- By id, each once. -/
  systemTypes : List (Int × String) := []
  tableTypes : List TableType := []
  deriving DecidableEq, Repr

namespace TypeCatalog

/-- System types in the order of their ids. Of two entries for an id the later counts. -/
def systemTypesOf (entries : List (Int × String)) : List (Int × String) :=
  (orderedKeys (· ≤ ·) (entries.map (·.1))).filterMap fun id =>
    (entries.filter (·.1 == id)).getLast?

/-- The catalog of the given types. -/
def ofParts (systemTypes : List (Int × String)) (tableTypes : List TableType) : TypeCatalog :=
  ⟨systemTypesOf systemTypes, tableTypes⟩

def systemTypeName? (t : TypeCatalog) (id : Int) : Option String :=
  t.systemTypes.lookup id

/-- The system type of an id, if its values can be bound. -/
def scalarType? (t : TypeCatalog) (id : Int) : Option SqlType :=
  (t.systemTypeName? id).bind SqlType.ofName?

def tableType? (t : TypeCatalog) (id : Int) : Option TableType :=
  t.tableTypes.find? (·.id == id)

/-- The table type that a text names. -/
def tableTypeNamed? (t : TypeCatalog) (name : String) : Option TableType :=
  findTableType? t.tableTypes name

/-- How messages call a system type. -/
def describe (t : TypeCatalog) (id : Int) : String :=
  (t.systemTypeName? id).getD ("system type " ++ toString id)

end TypeCatalog

namespace Column

/-- The column in a row of the catalog, or the name of its type if that cannot be bound. -/
def ofRow (types : TypeCatalog) (r : Row) : Except String Column :=
  match types.scalarType? (r.int "system_type_id") with
  | none => .error (types.describe (r.int "system_type_id"))
  | some type => .ok {
      name := r.text "column_name"
      ordinal := narrow32 (r.int "column_id")
      type
      size := type.adjustedSize (narrow32 (r.int "max_length"))
      precision := narrow8 (r.int "precision")
      scale := narrow8 (r.int "scale")
      isNullable := r.flag "is_nullable"
      isIdentity := r.flag "is_identity"
      isComputed := r.flag "is_computed"
      isGeneratedAlways := 0 < r.int "generated_always_type"
      collation := r.text? "collation_name" }

/-- Columns in the order of their places. -/
def byOrdinal (cs : List Column) : List Column :=
  cs.mergeSort fun a b => decide (a.ordinal ≤ b.ordinal)

end Column

namespace TypeCatalog

def systemTypesQuery : String :=
  "\n".intercalate [
    "SELECT system_type_id, name",
    "FROM sys.types",
    "WHERE system_type_id = user_type_id"]

def tableTypesQuery : String :=
  "\n".intercalate [
    "SELECT tt.user_type_id, SCHEMA_NAME(tt.schema_id) AS schema_name, tt.name AS type_name,",
    "       c.column_id, c.name AS column_name, c.system_type_id, c.max_length, c.precision,",
    "       c.scale, c.is_nullable, c.is_identity, c.is_computed, c.collation_name",
    "FROM sys.table_types tt",
    "JOIN sys.columns c ON c.object_id = tt.type_table_object_id",
    "ORDER BY tt.user_type_id, c.column_id"]

/-- A system type, if the row has both its id and its name. -/
def systemTypeOfRow? (r : Row) : Option (Int × String) :=
  match r.int? "system_type_id", r.text? "name" with
  | some id, some name => some (id, name)
  | _, _ => none

/-- The columns in the rows of a table type, or the warning about the first that cannot be
bound. -/
def columnsOfRows (types : TypeCatalog) (name : QualifiedName) (rows : List Row) :
    Except Warning (List Column) :=
  rows.mapM fun r => (Column.ofRow types r).mapError fun typeName =>
    ⟨"table type " ++ name.full,
      "column '" ++ r.text "column_name" ++ "' has unsupported type '" ++ typeName ++
        "'; the table type is ignored"⟩

/-- The table type of an id. Its name is the one in the first of its rows. -/
def tableTypeOfRows (types : TypeCatalog) (id : Int) (rows : List Row) :
    Except Warning TableType :=
  let name : QualifiedName :=
    match rows with
    | [] => ⟨"dbo", ""⟩
    | r :: _ => ⟨(r.text? "schema_name").getD "dbo", r.text "type_name"⟩
  (columnsOfRows types name rows).map fun cs => ⟨narrow32 id, name, Column.byOrdinal cs⟩

/-- The rows about each table type, by rising id. -/
def rowsById (rows : List Row) : List (Int × List Row) :=
  (orderedKeys (· ≤ ·) (rows.map (·.int "user_type_id"))).map fun id =>
    (id, rows.filter (·.int "user_type_id" == id))

/-- The table types whose columns can all be bound, and a warning for each other one. -/
def tableTypesOfRows (types : TypeCatalog) (rows : List Row) : List TableType × List Warning :=
  let results := (rowsById rows).map fun (id, rows) => types.tableTypeOfRows id rows
  (results.filterMap Except.toOption,
    results.filterMap fun
      | .ok _ => none
      | .error w => some w)

/-- The types in the rows, with a warning for each table type that is ignored. -/
def ofRows (typeRows tableTypeRows : List Row) : TypeCatalog × List Warning :=
  let types := ofParts (typeRows.filterMap systemTypeOfRow?) []
  let (tableTypes, warnings) := types.tableTypesOfRows tableTypeRows
  ({ types with tableTypes }, warnings)

end TypeCatalog

end QueryShape
