import QueryShape.Identifier
import QueryShape.KeyMap
import QueryShape.Script.Kind

namespace QueryShape

open QueryShape.Text

/-- The later of two settings that is made at all. -/
def laterSetting {α : Type} (first second : Option α) : Option α :=
  second.or first

/-- What a rule says about a parameter. -/
structure ParameterRule where
  /-- A declaration such as `nvarchar(50)`, or the name of a table type. -/
  sqlType : Option String := none
  nullable : Option Bool := none
  /-- A literal for a run of the unit. -/
  buildValue : Option String := none
  deriving DecidableEq, Repr

namespace ParameterRule

/-- The settings of both rules; where both make one, the second has it. -/
def merge (a b : ParameterRule) : ParameterRule where
  sqlType := laterSetting a.sqlType b.sqlType
  nullable := laterSetting a.nullable b.nullable
  buildValue := laterSetting a.buildValue b.buildValue

end ParameterRule

/-- What a rule says about a column. -/
structure ColumnRule where
  skip : Option Bool := none
  /-- Whether generated statements use the column where it is a choice. -/
  inclusion : Option Bool := none
  /-- Whether generated statements return the column. -/
  output : Option Bool := none
  deriving DecidableEq, Repr

namespace ColumnRule

/-- Settings of the second rule count before those of the first. -/
def merge (a b : ColumnRule) : ColumnRule where
  skip := laterSetting a.skip b.skip
  inclusion := laterSetting a.inclusion b.inclusion
  output := laterSetting a.output b.output

/-- Whether the column is left out. -/
def isSkipped (r : ColumnRule) : Bool :=
  r.skip.getD false

end ColumnRule

/-- Columns of one key are the same one. -/
def columnKey (name : String) : String :=
  lower name

/-- A request for a generated script. -/
structure TableScriptRule where
  kind : ScriptKind
  outputPath : Option String := none
  filterColumns : Option (List String) := none
  tableType : Option String := none
  /-- Whether a merge takes a range lock. -/
  holdlock : Bool := false
  columnRules : KeyMap ColumnRule := .empty

namespace TableScriptRule

/-- What the request says about a column. -/
def columnRule (r : TableScriptRule) (column : String) : ColumnRule :=
  (r.columnRules.get? (columnKey column)).getD {}

/-- The identity of the script: the path, if one is given, or else one made of table and kind. -/
def identity (r : TableScriptRule) (table : QualifiedName) : String :=
  r.outputPath.getD (table.schema ++ "/" ++ table.name ++ "/" ++ r.kind.name)

end TableScriptRule

/-- What all rules for a unit come to. -/
structure EffectiveRule where
  /-- By parameter key. -/
  parameters : KeyMap ParameterRule := .empty
  /-- By column key. -/
  columns : KeyMap ColumnRule := .empty
  tempTables : List String := []
  /-- Whether a rule for a parameter that the unit lacks is worth a warning. -/
  checkUnused : Bool := true

namespace EffectiveRule

def parameter? (r : EffectiveRule) (name : String) : Option ParameterRule :=
  r.parameters.get? (Identifier.parameterKey name)

def column? (r : EffectiveRule) (name : String) : Option ColumnRule :=
  r.columns.get? (columnKey name)

def skips (r : EffectiveRule) (column : String) : Bool :=
  (r.column? column).any ColumnRule.isSkipped

def nullable? (r : EffectiveRule) (parameter : String) : Option Bool :=
  (r.parameter? parameter).bind (·.nullable)

/-- Merges a rule for a parameter into what is said under its key. -/
def addParameter (r : EffectiveRule) (key : String) (rule : ParameterRule) : EffectiveRule :=
  { r with parameters := r.parameters.update key fun old => (old.getD {}).merge rule }

/-- Merges a rule for a column into what is said under its key. -/
def addColumn (r : EffectiveRule) (key : String) (rule : ColumnRule) : EffectiveRule :=
  { r with columns := r.columns.update key fun old => (old.getD {}).merge rule }

def withParameter (r : EffectiveRule) (name : String) (rule : ParameterRule) : EffectiveRule :=
  r.addParameter (Identifier.parameterKey name) rule

def withColumn (r : EffectiveRule) (name : String) (rule : ColumnRule) : EffectiveRule :=
  r.addColumn (columnKey name) rule

def withTempTable (r : EffectiveRule) (definition : String) : EffectiveRule :=
  { r with tempTables := r.tempTables ++ [definition] }

end EffectiveRule

end QueryShape
