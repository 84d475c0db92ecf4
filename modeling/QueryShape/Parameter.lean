import QueryShape.Column

namespace QueryShape

inductive ParameterType where
  | scalar (type : SqlType)
  | table (type : TableType)
  deriving DecidableEq, Repr

/-- A parameter of a script or procedure, its name with the `@`. Scripts order their parameters by
the place of first use, procedures by ordinal. -/
structure Parameter where
  name : String
  position : Int
  type : ParameterType
  size : Int := 0
  precision : Nat := 0
  scale : Nat := 0
  isOutput : Bool := false
  isCursor : Bool := false
  isNullable : Bool := false
  default? : Option String := none
  deriving DecidableEq, Repr

namespace Parameter

/-- What the parameter is known by, up to case. -/
def key (p : Parameter) : String :=
  Identifier.parameterKey p.name

/-- The table type of a parameter that takes a table. -/
def tableType? (p : Parameter) : Option TableType :=
  match p.type with
  | .table t => some t
  | .scalar _ => none

/-- The type of a variable that can be passed for the parameter. -/
def variableDeclaration (p : Parameter) : String :=
  match p.type with
  | .scalar t => t.declaration p.size p.precision p.scale
  | .table t => t.name.full

/-- The type as the parameter list of a description has it. -/
def declaration (p : Parameter) : String :=
  match p.type with
  | .scalar _ => p.variableDeclaration
  | .table _ => p.variableDeclaration ++ " READONLY"

/-- What follows the parameter in a call or parameter list. -/
def direction (p : Parameter) : String :=
  if p.isOutput then " OUTPUT" else ""

end Parameter

/-- The type a generated script wants for one of its parameters: a declaration such as
`nvarchar(50)`, or the name of a table type. -/
structure ParameterHint where
  name : String
  declaration : String
  deriving DecidableEq, Repr

end QueryShape
