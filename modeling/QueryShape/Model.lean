import QueryShape.Diagnostics
import QueryShape.Table
import QueryShape.Unit

namespace QueryShape

/-- The metadata of a database. Nothing in it needs the server any more. -/
structure Model where
  /-- By schema and name. -/
  tables : List Table
  /-- Those that a parameter of the model has, by schema and name. -/
  tableTypes : List TableType
  /-- By schema and name. -/
  procedures : List Procedure
  /-- By identity. -/
  scripts : List Script
  warnings : List Warning
  deriving DecidableEq, Repr

end QueryShape
