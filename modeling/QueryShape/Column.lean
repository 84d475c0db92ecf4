import QueryShape.Identifier
import QueryShape.SqlType

namespace QueryShape

open QueryShape.Text

/-- A column of a table or table type, or of a result. -/
structure Column where
  name : String
  ordinal : Int
  type : SqlType
  /-- In characters for character types and in bytes for others; `-1` for no limit. -/
  size : Int := 0
  precision : Nat := 0
  scale : Nat := 0
  isNullable : Bool := true
  isIdentity : Bool := false
  isComputed : Bool := false
  isGeneratedAlways : Bool := false
  collation : Option String := none
  deriving DecidableEq, Repr

namespace Column

/-- The type of a column as it is declared. -/
def declaration (c : Column) : String :=
  c.type.declaration c.size c.precision c.scale

/-- The server gives the column its value, so a statement must not. -/
def isServerGenerated (c : Column) : Bool :=
  c.isIdentity || c.isComputed || c.isGeneratedAlways

/-- Columns of one shape take the same values, whatever their names. -/
def sameShape (a b : Column) : Bool :=
  a.type.name == b.type.name && a.size == b.size && a.precision == b.precision &&
    a.scale == b.scale

/-- Columns with their types, as messages list them. -/
def listing (cs : List Column) : String :=
  ", ".intercalate (cs.map fun c => c.name ++ " " ++ c.declaration)

end Column

/-- The first column of a name, up to case. -/
def findColumn? (cs : List Column) (name : String) : Option Column :=
  cs.find? fun c => sameIgnoringCase c.name name

/-- A table type of the server. -/
structure TableType where
  id : Int
  name : QualifiedName
  columns : List Column
  deriving DecidableEq, Repr

/-- The table type that a text names, a missing schema being `dbo`. -/
def findTableType? (ts : List TableType) (text : String) : Option TableType :=
  let name := QualifiedName.parse "dbo" text
  ts.find? fun t =>
    sameIgnoringCase t.name.schema name.schema && sameIgnoringCase t.name.name name.name

end QueryShape
