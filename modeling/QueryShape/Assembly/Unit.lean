import QueryShape.Inference.Parameters
import QueryShape.Inference.ResultSet
import QueryShape.Rule.Coverage
import QueryShape.TempTable.CreatedNames

namespace QueryShape

open QueryShape.Text

/-- A procedure or script that goes into the model unless it cannot be represented. -/
inductive ModelUnit where
  | procedure (p : Procedure)
  | script (s : Script)
  deriving DecidableEq, Repr

namespace ModelUnit

/-- What rules know a unit by. -/
def key : ModelUnit → UnitKey
  | procedure p => .procedure p.name
  | script s => .script s.identity

/-- The unit as it is put into texts that the server runs. -/
def executable : ModelUnit → ExecutableUnit
  | procedure p => .procedure p
  | script s => .script s

/-- How faults and warnings call the unit. -/
def label (u : ModelUnit) : String :=
  u.executable.label

def tempTables : ModelUnit → List TempTable
  | procedure p => p.tempTables
  | script s => s.tempTables

def withTempTables (ts : List TempTable) : ModelUnit → ModelUnit
  | procedure p => procedure { p with tempTables := ts }
  | script s => script { s with tempTables := ts }

def parameters : ModelUnit → List Parameter
  | procedure p => p.parameters
  | script s => s.parameters

def withParameters (ps : List Parameter) : ModelUnit → ModelUnit
  | procedure p => procedure { p with parameters := ps }
  | script s => script { s with parameters := ps }

def withResultSet (columns : ResultSet) (names : List String) : ModelUnit → ModelUnit
  | procedure p => procedure { p with resultSet := columns, resultNames := names }
  | script s => script { s with resultSet := columns, resultNames := names }

/-- Adds the temp table that a definition makes. It makes one, whose name is new. -/
def addTempTable (unit : String) (known : List TempTable) (definition : String) :
    Except Fault (List TempTable) :=
  match (createdTableNames definition).getD [] with
  | [name] =>
      if known.any fun t => sameIgnoringCase t.name name then
        .error (.duplicateTempTable unit name)
      else
        .ok (known ++ [{ name, definition }])
  | names => .error (.malformedTempTable unit names.length definition)

/-- Adds the temp tables that a rule defines, unless one of them is at fault. -/
def withRuleTables (u : ModelUnit) (rule : EffectiveRule) : Except Fault ModelUnit :=
  (rule.tempTables.foldlM (addTempTable u.label) u.tempTables).map fun ts => u.withTempTables ts

/-- The output parameters of a script. A procedure may have some. -/
def outputs : ModelUnit → List Parameter
  | procedure _ => []
  | script s => s.parameters.filter Parameter.isOutput

/-- Why a unit with such parameters cannot be called. -/
def parameterObstacle? (u : ModelUnit) : Option String :=
  match u.outputs.head?, u.parameters.find? Parameter.isCursor with
  | some p, _ => some ("script parameter " ++ p.name ++ " is an output parameter")
  | none, some p => some ("parameter " ++ p.name ++ " is a cursor reference")
  | none, none => none

/-- The first column with the name of one before it, up to case. -/
def repeatedColumn? (seen : List Column) : List Column → Option Column
  | [] => none
  | c :: rest =>
      if seen.any fun d => sameIgnoringCase d.name c.name then some c
      else repeatedColumn? (seen ++ [c]) rest

/-- Why rows with such columns cannot be read by name. -/
def columnObstacle? (columns : List Column) : Option String :=
  if 1 < columns.length ∧ columns.any (·.name.isEmpty) then
    some "the result set has an unnamed column among several"
  else
    (repeatedColumn? [] columns).map fun c =>
      "the result set has more than one column named '" ++ c.name ++ "'"

end ModelUnit

/-- What inference finds out about a unit, which is none if it cannot be represented. -/
structure UnitOutcome where
  unit? : Option ModelUnit
  facts : UnitFacts
  warnings : List Warning

namespace ModelUnit

variable {σ : Type}

/-- The warning that a unit is left out. -/
def ignored (u : ModelUnit) (reason : String) : Warning :=
  ⟨u.label, reason ++ "; the unit is ignored"⟩

/-- A temp table with the columns that the server makes of its definition. -/
def inferTempTable (connection : Nat) (ctx : InferenceContext) (t : TempTable) :
    Session σ TempTable := do
  let shape ← inferResultSet connection ctx (.tempTable t) {}
  return { t with columns := shape.columns.getD [] }

/-- The columns of a unit's temp tables and then those of the unit, which is left out if its rows
cannot be read. -/
def inferColumns (connection : Nat) (ctx : InferenceContext) (rule : EffectiveRule)
    (warnings : List Warning) (u : ModelUnit) : Session σ UnitOutcome := do
  let u := u.withTempTables (← u.tempTables.mapM (inferTempTable connection ctx))
  let shape ← inferResultSet connection ctx u.executable rule
  let facts := ⟨u.key, u.parameters.map (·.name), shape.allNames⟩
  match shape.columns.bind columnObstacle? with
  | some reason => return ⟨none, facts, warnings ++ [u.ignored reason]⟩
  | none => return ⟨some (u.withResultSet shape.columns shape.allNames), facts, warnings⟩

/-- Infers the parameters and columns of the unit with the given ordinal. Its global temp tables
have names of their own. -/
def infer (connection : Nat) (ctx : InferenceContext) (rules : RuleSet) (ordinal : Nat)
    (u : ModelUnit) : Session σ UnitOutcome := do
  let ctx := { ctx with token := ctx.token.forUnit ordinal }
  let rule := rules.ruleFor u.key
  let u ← Session.ofExcept (u.withRuleTables rule)
  let found ← inferParameters connection ctx u.executable rule
  let u := u.withParameters found.parameters
  match u.parameterObstacle? with
  | some reason =>
      return ⟨none, ⟨u.key, u.parameters.map (·.name), []⟩, found.warnings ++ [u.ignored reason]⟩
  | none => inferColumns connection ctx rule found.warnings u

end ModelUnit

end QueryShape
