import QueryShape.Catalog.Procedures
import QueryShape.Catalog.Tables
import QueryShape.Server.Session

namespace QueryShape.Catalog

open QueryShape.Dialogue
open QueryShape.Session

variable {σ : Type}

/-- Reads rows of the catalog; a refusal is a fault of the activity. -/
def rows (connection : Nat) (activity : Activity) (sql : String) : Session σ (List Row) :=
  require activity (query connection sql [])

/-- The types of the server, with a warning for each table type that is ignored. -/
def loadTypes (connection : Nat) : Session σ (TypeCatalog × List Warning) := do
  let types ← rows connection .readingSystemTypes TypeCatalog.systemTypesQuery
  let tableTypes ← rows connection .readingTableTypes TypeCatalog.tableTypesQuery
  return TypeCatalog.ofRows types tableTypes

/-- The tables and views of the server, without the columns that rules leave out. -/
def loadTables (connection : Nat) (types : TypeCatalog) (rules : RuleSet) :
    Session σ (List Table × List Warning) := do
  let columns ← rows connection .readingTables Table.tablesQuery
  let keys ← rows connection .readingPrimaryKeys Table.primaryKeysQuery
  return Table.allOfRows types rules columns keys

/-- The procedures that rules include, with their parameters. -/
def loadProcedures (connection : Nat) (types : TypeCatalog) (rules : RuleSet) :
    Session σ ProcedureCatalog := do
  let procedures ← rows connection .readingProcedures ProcedureCatalog.proceduresQuery
  let parameters ← rows connection .readingParameters ProcedureCatalog.parametersQuery
  ofExcept (ProcedureCatalog.ofRows types rules procedures parameters)

end QueryShape.Catalog
