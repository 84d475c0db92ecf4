import QueryShape.Inference.Context
import QueryShape.Rule.Basic
import QueryShape.Server.Session
import QueryShape.TempTable.Sandbox

namespace QueryShape

open QueryShape.Dialogue

namespace Inference

/-- The ways to learn the columns that a unit returns. -/
inductive Strategy where
  /-- Asks the server to describe the text. -/
  | catalog
  /-- Runs the text with only the shape of its results wanted. -/
  | schemaOnly
  /-- Runs the text on a connection of its own, inside a transaction that is rolled back. -/
  | isolated
  deriving DecidableEq, Repr

namespace Strategy

/-- The order in which they are tried. -/
def all : List Strategy := [catalog, schemaOnly, isolated]

def label : Strategy → String
  | catalog => "catalog description"
  | schemaOnly => "schema-only execution"
  | isolated => "isolated execution"

end Strategy

/-- What a strategy finds out about the columns of a result. -/
inductive Description where
  | rows (rs : List Row)
  | executed (cs : List ExecutedColumn)

/-- The columns of a result as rules leave them. -/
structure Shape where
  /-- None if there are no rows; an empty list if rules leave all columns out. -/
  columns : ResultSet
  /-- With the columns that rules leave out. -/
  allNames : List String
  strategy : Strategy
  deriving DecidableEq, Repr

/-- What is run or described to learn the columns of a unit. -/
structure Command where
  text : String
  parameterList : String
  /-- The text that can be run: its parameters are variables with literal values. -/
  executable : String
  tempTables : List TempTable
  scope : SandboxScope

namespace Command

/-- The line that declares a parameter as a variable. -/
def variableLine (rule : EffectiveRule) (p : Parameter) : String :=
  match p.type with
  | .table _ => "DECLARE " ++ p.name ++ " " ++ p.variableDeclaration ++ ";\n"
  | .scalar t =>
      "DECLARE " ++ p.name ++ " " ++ p.variableDeclaration ++ " = " ++
        ((rule.parameter? p.name).bind (·.buildValue)).getD t.buildValue ++ ";\n"

/-- The command for a text with parameters. A cursor cannot be passed. -/
def ofText (text : String) (parameters : List Parameter) (rule : EffectiveRule)
    (tempTables : List TempTable) (scope : SandboxScope) : Command :=
  let parameters := parameters.filter fun p => !p.isCursor
  { text
    parameterList :=
      ", ".intercalate (parameters.map fun p => p.name ++ " " ++ p.declaration ++ p.direction)
    executable := String.join (parameters.map (variableLine rule)) ++ text
    tempTables
    scope }

/-- A call of a procedure in which every parameter gets the variable of its name. -/
def callText (p : Procedure) : String :=
  let arguments := (p.parameters.filter fun a => !a.isCursor).map fun a =>
    a.name ++ " = " ++ a.name ++ a.direction
  "EXEC " ++ p.name.full ++ if arguments.isEmpty then "" else " " ++ ", ".intercalate arguments

/-- The command for a unit. Temp tables go by their global names in it. -/
def ofUnit (token : RunToken) (rule : EffectiveRule) : ExecutableUnit → Command
  | .procedure p => ofText (callText p) p.parameters rule p.tempTables .procedure
  | .script s => ofText (token.globalize s.text) s.parameters rule s.tempTables .script
  | .tempTable t => ofText ("SELECT * FROM " ++ token.globalize t.name) [] rule [t] .script

variable {σ : Type}

def sandbox (c : Command) (token : RunToken) : Sandbox :=
  ⟨c.tempTables, c.scope, token⟩

def describeText : String :=
  "EXEC sys.sp_describe_first_result_set @tsql = @P1"

def describeTextWithParameters : String :=
  "EXEC sys.sp_describe_first_result_set @tsql = @P1, @params = @P2"

/-- Asks the server to describe the text without running it. -/
def askCatalog (c : Command) (connection : Nat) : Dialogue σ (Answer Description) := do
  let answer ←
    if c.parameterList.isEmpty then query connection describeText [c.text]
    else query connection describeTextWithParameters [c.text, c.parameterList]
  return answer.map .rows

/-- The setting for the shape of results is taken back whatever the answer is. -/
def askSchema (c : Command) (connection : Nat) : Dialogue σ (Answer Description) := do
  let answer ← describe connection ("SET FMTONLY ON;\n" ++ c.executable)
  let reset ← execute connection "SET FMTONLY OFF"
  return answer.bind fun columns => reset.map fun _ => .executed columns

/-- Has the text run for one row of its result. -/
def askByRunning (c : Command) (connection : Nat) : Dialogue σ (Answer Description) := do
  let answer ← describe connection ("SET ROWCOUNT 1;\n" ++ c.executable)
  return answer.map .executed

/-- One attempt at a description. The answer is a refusal where the server does not describe the
text or gives no connection; a failure of the temp tables or the transaction ends the session. -/
def attempt (c : Command) (connection : Nat) (ctx : InferenceContext) :
    Strategy → Session σ (Answer Description)
  | .catalog => (c.sandbox ctx.token).run connection (ExceptT.lift (c.askCatalog connection))
  | .schemaOnly => (c.sandbox ctx.token).run connection (ExceptT.lift (c.askSchema connection))
  | .isolated => do
      if ctx.canConnect then
        match ← ExceptT.lift connect with
        | .error e => pure (.error e)
        | .ok dedicated =>
            rolledBack dedicated
              ((c.sandbox ctx.token).run dedicated (ExceptT.lift (c.askByRunning dedicated)))
      else
        pure (.error ⟨none, "no connection factory for isolated execution"⟩)

/-- The refusal that is reported: the first with a known cause, or else the first. -/
def reported (refusals : List ServerError) : ServerError :=
  ((refusals.find? fun e => e.signature?.isSome).or refusals.head?).getD
    ⟨none, "no strategy was attempted"⟩

/-- Tries strategies in turn until one is answered. The fault tells of the refusals. -/
def describeBy (c : Command) (unit : String) (connection : Nat) (ctx : InferenceContext)
    (refusals : List ServerError) : List Strategy → Session σ (Strategy × Description)
  | [] => Session.fail (.resultSetInference unit c.executable (reported refusals))
  | strategy :: rest => do
      match ← c.attempt connection ctx strategy with
      | .ok d => pure (strategy, d)
      | .error e => describeBy c unit connection ctx (refusals ++ [e]) rest

end Command

/-- The fault of a column that has no supported type. -/
def unsupportedColumn (unit name typeName : String) : Fault :=
  .unsupportedType unit (if name.isEmpty then "<unnamed column>" else "column '" ++ name ++ "'")
    typeName

/-- Whether a rule leaves a result column out. One without a name cannot be left out. -/
def leavesOut (rule : EffectiveRule) (name : String) : Bool :=
  !name.isEmpty && rule.skips name

/-- The columns of items that are not left out, or the first fault. -/
def typedColumns {ι : Type} (rule : EffectiveRule) (name : ι → String)
    (column : ι → Except Fault Column) (items : List ι) : Except Fault (List Column) :=
  (items.filter fun i => !leavesOut rule (name i)).mapM column

/-- The column that a row of a description is about. -/
def describedColumn (types : TypeCatalog) (unit : String) (r : Row) : Except Fault Column :=
  match types.scalarType? (r.int "system_type_id") with
  | none =>
      .error (unsupportedColumn unit (r.text "name")
        ((r.text? "system_type_name").getD "unknown"))
  | some type => .ok {
      name := r.text "name"
      ordinal := narrow32 (r.int "column_ordinal")
      type
      size := type.adjustedSize (narrow32 (r.int "max_length"))
      precision := narrow8 (r.int "precision")
      scale := narrow8 (r.int "scale")
      isNullable := r.flag "is_nullable"
      isIdentity := r.flag "is_identity_column"
      isComputed := r.flag "is_computed_column"
      collation := r.text? "collation_name" }

/-- A column seen in a run, at a place counted from zero. -/
def executedColumn (unit : String) (placed : ExecutedColumn × Nat) : Except Fault Column :=
  let (c, place) := placed
  match SqlType.ofName? c.typeName with
  | none => .error (unsupportedColumn unit c.name c.typeName)
  | some type => .ok { name := c.name, ordinal := narrow32 (place + 1), type }

/-- The rows about columns that can be seen, in the order of the columns. -/
def visibleRows (rs : List Row) : List Row :=
  (rs.filter fun r => !r.flag "is_hidden").mergeSort
    fun a b => decide (a.int "column_ordinal" ≤ b.int "column_ordinal")

/-- The columns of a result that rules keep. A description of nothing is no result. -/
def resultSet {ι : Type} (rule : EffectiveRule) (name : ι → String)
    (column : ι → Except Fault Column) (items : List ι) : Except Fault ResultSet :=
  if items.isEmpty then .ok none else (typedColumns rule name column items).map some

namespace Description

/-- The columns that a description comes to, and the names of all columns in it. -/
def resultSet (types : TypeCatalog) (unit : String) (rule : EffectiveRule) :
    Description → Except Fault (ResultSet × List String)
  | rows rs =>
      let visible := visibleRows rs
      (Inference.resultSet rule (·.text "name") (describedColumn types unit) visible).map
        (·, visible.map (·.text "name"))
  | executed cs =>
      (Inference.resultSet rule (·.1.name) (executedColumn unit) cs.zipIdx).map
        (·, cs.map (·.name))

end Description

end Inference

open QueryShape.Inference

/-- Infers the columns of a unit's result. -/
def inferResultSet {σ : Type} (connection : Nat) (ctx : InferenceContext) (unit : ExecutableUnit)
    (rule : EffectiveRule) : Session σ Shape := do
  let command := Command.ofUnit ctx.token rule unit
  let (strategy, description) ← command.describeBy unit.label connection ctx [] Strategy.all
  let (columns, allNames) ←
    Session.ofExcept (description.resultSet ctx.types unit.label rule)
  return { columns, allNames, strategy }

end QueryShape
