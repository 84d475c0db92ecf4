import QueryShape.Diagnostics
import QueryShape.Rule.Set
import QueryShape.Table

namespace QueryShape

open QueryShape.Identifier
open QueryShape.Text

/-- What is known of a unit by its names. -/
structure UnitFacts where
  key : UnitKey
  parameterNames : List String
  /-- With the columns that rules leave out. -/
  columnNames : List String
  deriving DecidableEq, Repr

/-- All that rules can be about. -/
structure Candidates where
  /-- `schema.name` of every procedure, whether rules include it or not. -/
  procedures : List String
  tables : List Table
  scripts : List String
  units : List UnitFacts

namespace DeclaredRule

def warning (r : DeclaredRule) (message : String) : Warning :=
  ⟨r.description, message⟩

/-- Warns of a rule for tables that matches none or names columns that none of them has. -/
def unusedOnTables (r : DeclaredRule) (tables : List Table) : List Warning :=
  let selected := tables.filter fun t => r.selector.selects t.name.plain
  if selected.isEmpty then
    [r.warning "matches no table or view"]
  else
    (r.columnNames.filter fun name => !selected.any fun t => (t.column? name).isSome).map
      fun name =>
        r.warning ("names column '" ++ name ++ "' which no matching table or view has")

/-- Warns of parameters that no unit of a rule has. -/
def unusedParameters (r : DeclaredRule) (selected : List UnitFacts) : List Warning :=
  ((r.parameterNames.map parameterKey).filter fun key =>
      !selected.any fun f => f.parameterNames.any fun p => parameterKey p == key).map
    fun key =>
      r.warning
        ("names parameter @" ++ key ++ " which no matching " ++ r.selector.scope.label ++ " has")

/-- Warns of columns that no unit of a rule returns. -/
def unusedResultColumns (r : DeclaredRule) (selected : List UnitFacts) : List Warning :=
  (r.columnNames.filter fun name =>
      !selected.any fun f => f.columnNames.any fun c => sameIgnoringCase c name).map
    fun name =>
      r.warning
        ("names result column '" ++ name ++ "' which no matching " ++ r.selector.scope.label ++
          " returns")

/-- Names are looked for only in units that were inferred. -/
def unusedOnUnits (r : DeclaredRule) (names : List String) (units : List UnitFacts) :
    List Warning :=
  let selected := units.filter fun f =>
    f.key.scope == r.selector.scope && r.selector.selects f.key.subject
  if !names.any r.selector.selects then
    [r.warning ("matches no " ++ r.selector.scope.label)]
  else if selected.isEmpty then
    []
  else
    r.unusedParameters selected ++ r.unusedResultColumns selected

/-- The warnings about a rule. -/
def unused (r : DeclaredRule) (c : Candidates) : List Warning :=
  match r.selector.scope with
  | .tables => r.unusedOnTables c.tables
  | .procedures => r.unusedOnUnits c.procedures c.units
  | .scripts => r.unusedOnUnits c.scripts c.units

end DeclaredRule

def unusedRules (rules : List DeclaredRule) (c : Candidates) : List Warning :=
  rules.flatMap (·.unused c)

end QueryShape
