import QueryShape.Parameter

namespace QueryShape

/-- A temp table that exists while a unit is looked at. -/
structure TempTable where
  /-- As the definition writes it, such as `#args`. -/
  name : String
  definition : String
  columns : List Column := []
  deriving DecidableEq, Repr

/-- The columns a unit returns, or none if it returns no rows. -/
abbrev ResultSet := Option (List Column)

/-- A procedure with what is known of it. -/
structure Procedure where
  name : QualifiedName
  objectId : Int
  definition : String
  parameters : List Parameter
  tempTables : List TempTable := []
  resultSet : ResultSet := none
  /-- With the columns that rules leave out. -/
  resultNames : List String := []
  deriving DecidableEq, Repr

/-- A script with what is known of it. -/
structure Script where
  /-- The path of the script, parted by slashes and without an extension. -/
  identity : String
  text : String
  parameters : List Parameter := []
  tempTables : List TempTable := []
  resultSet : ResultSet := none
  /-- With the columns that rules leave out. -/
  resultNames : List String := []
  isSynthesized : Bool := false
  hints : List ParameterHint := []
  deriving DecidableEq, Repr

/-- What has its columns inferred. -/
inductive ExecutableUnit where
  | procedure (p : Procedure)
  | script (s : Script)
  | tempTable (t : TempTable)
  deriving DecidableEq, Repr

namespace ExecutableUnit

def label : ExecutableUnit → String
  | procedure p => "procedure " ++ p.name.full
  | script s => "script '" ++ s.identity ++ "'"
  | tempTable t => "temp table " ++ t.name

end ExecutableUnit

end QueryShape
