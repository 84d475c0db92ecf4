import QueryShape.Catalog.Types
import QueryShape.Rule.Set
import QueryShape.Table

namespace QueryShape

namespace QualifiedName

/-- By schema, then by name. -/
def le (a b : QualifiedName) : Bool :=
  decide (a.schema < b.schema) || (a.schema == b.schema && decide (a.name ≤ b.name))

end QualifiedName

namespace Table

/-- The columns that tables and views are asked for. -/
def columnFacts : String :=
  ", ".intercalate ["c.column_id", "c.name AS column_name", "c.system_type_id", "c.max_length",
    "c.precision", "c.scale", "c.is_nullable", "c.is_identity", "c.is_computed",
    "c.generated_always_type", "c.collation_name"]

def tablesQuery : String :=
  "\n".intercalate [
    "SELECT s.name AS schema_name, o.name AS object_name, CAST(0 AS bit) AS is_view, " ++
      columnFacts,
    "FROM sys.tables o",
    "JOIN sys.schemas s ON s.schema_id = o.schema_id",
    "JOIN sys.columns c ON c.object_id = o.object_id",
    "WHERE o.is_ms_shipped = 0",
    "UNION ALL",
    "SELECT s.name AS schema_name, o.name AS object_name, CAST(1 AS bit) AS is_view, " ++
      columnFacts,
    "FROM sys.views o",
    "JOIN sys.schemas s ON s.schema_id = o.schema_id",
    "JOIN sys.columns c ON c.object_id = o.object_id",
    "WHERE o.is_ms_shipped = 0",
    "ORDER BY schema_name, object_name, column_id"]

def primaryKeysQuery : String :=
  "\n".intercalate [
    "SELECT s.name AS schema_name, t.name AS object_name, c.name AS column_name, ic.key_ordinal",
    "FROM sys.indexes i",
    "JOIN sys.tables t ON t.object_id = i.object_id",
    "JOIN sys.schemas s ON s.schema_id = t.schema_id",
    "JOIN sys.index_columns ic ON ic.object_id = i.object_id AND ic.index_id = i.index_id",
    "JOIN sys.columns c ON c.object_id = ic.object_id AND c.column_id = ic.column_id",
    "WHERE i.is_primary_key = 1",
    "ORDER BY s.name, t.name, ic.key_ordinal"]

/-- What rows of one table have in common. -/
structure Key where
  name : QualifiedName
  isView : Bool
  deriving DecidableEq, Repr

namespace Key

def ofRow (r : Row) : Key :=
  ⟨⟨r.text "schema_name", r.text "object_name"⟩, r.flag "is_view"⟩

/-- By name, a table before a view. -/
def le (a b : Key) : Bool :=
  if a.name = b.name then !a.isView || b.isView else a.name.le b.name

end Key

/-- The names of the key columns in key order, if there are rows about a key. -/
def keyNames (name : QualifiedName) (keyRows : List Row) : List String :=
  let rows := keyRows.filter fun r => (Key.ofRow r).name = name
  (rows.mergeSort fun a b => decide (a.int "key_ordinal" ≤ b.int "key_ordinal")).map
    (·.text "column_name")

/-- The warning about a column that cannot be bound, unless the configuration leaves it or the table
out. -/
def columnWarning? (types : TypeCatalog) (rules : RuleSet) (name : QualifiedName) (r : Row) :
    Option Warning :=
  match Column.ofRow types r with
  | .ok _ => none
  | .error typeName =>
      if rules.includesTable name && !rules.skipsColumn name (r.text "column_name") then
        some ⟨"table " ++ name.full,
          "column '" ++ r.text "column_name" ++ "' has unsupported type '" ++ typeName ++
            "' and is left out"⟩
      else
        none

/-- The table of a key. Columns that cannot be bound are left out, and with one of them the whole
primary key. -/
def ofRows (types : TypeCatalog) (key : Key) (rows keyRows : List Row) : Table :=
  let columns := Column.byOrdinal (rows.filterMap fun r => (Column.ofRow types r).toOption)
  { name := key.name
    columns
    primaryKey := ((keyNames key.name keyRows).mapM (findColumn? columns)).getD []
    isView := key.isView }

/-- The tables and views in the rows of the catalog, by name. Where a table and a view have one
name, the key is that of the table. -/
def allOfRows (types : TypeCatalog) (rules : RuleSet) (columnRows keyRows : List Row) :
    List Table × List Warning :=
  let keys := orderedKeys Key.le (columnRows.map Key.ofRow)
  let rowsOf (key : Key) := columnRows.filter fun r => Key.ofRow r = key
  (keys.map fun key =>
      ofRows types key (rowsOf key)
        (if key.isView && keys.contains ⟨key.name, false⟩ then [] else keyRows),
    keys.flatMap fun key => (rowsOf key).filterMap (columnWarning? types rules key.name))

end Table

end QueryShape
