import QueryShape.Assembly.Unit
import QueryShape.Catalog.Load
import QueryShape.Model
import QueryShape.Script.Synthesis

namespace QueryShape

open QueryShape.Text

/-- How a run is carried out. -/
structure RunOptions where
  /-- The number of connections for inference; with one it stays on the first connection. -/
  parallelism : Nat := 1
  token : RunToken

/-- With fewer units than these, connections of their own are not worth their opening. -/
def parallelThreshold : Nat := 8

namespace Assembly

variable {σ : Type}

/-- A table with the columns that configuration keeps. -/
def publishedTable (rules : RuleSet) (t : Table) : Table :=
  t.without fun c => rules.skipsColumn t.name c.name

/-- The scripts that rules ask for, table after table. -/
def requestedScripts (rules : RuleSet) (types : List TableType) (tables : List Table) :
    Except Fault (List Script) :=
  (tables.mapM fun t =>
    synthesizeScripts (publishedTable rules t) types (rules.tableScripts t.name)).map List.flatten

/-- Puts a script in the place of the first one with its identity, up to case. None if there is no
such script. -/
def replaceScript? (script : Script) : List Script → Option (List Script)
  | [] => none
  | s :: rest =>
      if sameIgnoringCase s.identity script.identity then some (script :: rest)
      else (replaceScript? script rest).map (s :: ·)

/-- Adds scripts to generated ones. A script takes the place of one with its identity, with a
warning. -/
def mergeScripts (scripts : List Script) : List Script → List Script × List Warning
  | [] => (scripts, [])
  | script :: rest =>
      match replaceScript? script scripts with
      | some replaced =>
          let (merged, warnings) := mergeScripts replaced rest
          (merged, ⟨"script '" ++ script.identity ++ "'",
            "a script file replaces the generated script with the same identity"⟩ :: warnings)
      | none => mergeScripts (scripts ++ [script]) rest

/-- Infers units one after the other, up to the first failure. -/
def inferInTurn (connection : Nat) (ctx : InferenceContext) (rules : RuleSet)
    (units : List ModelUnit) : Session σ (List UnitOutcome) :=
  units.zipIdx.mapM fun (u, ordinal) => u.infer connection ctx rules ordinal

/-- How units are shared out among workers. -/
structure Schedule where
  /-- The order in which units are taken up, each with its ordinal. -/
  order : List (ModelUnit × Nat) → List (ModelUnit × Nat)
  order_perm : ∀ jobs, (order jobs).Perm jobs
  /-- The worker of the unit with an ordinal, counted round and round. -/
  worker : Nat → Nat

namespace Schedule

/-- Takes up the units as they come, each with the next worker. -/
def inTurn : Schedule where
  order := id
  order_perm := .refl
  worker := id

/-- The connection of a unit: workers without a place in the schedule take their turns. -/
def connectionOf (s : Schedule) (workers : List Nat) (ordinal : Nat) : Nat :=
  workers.getD (s.worker ordinal % workers.length) 0

end Schedule

def openWorkers (count : Nat) : Session σ (List Nat) :=
  (List.range count).mapM fun _ => Session.require .openingWorker Dialogue.connect

/-- Results that were found in any order, in the order of their numbers. -/
def byOrdinal {α : Type} (found : List (Nat × α)) : List α :=
  (found.mergeSort fun a b => decide (a.1 ≤ b.1)).map (·.2)

/-- Infers every unit, whatever becomes of the others. -/
def inferEach (schedule : Schedule) (workers : List Nat) (ctx : InferenceContext)
    (rules : RuleSet) (units : List ModelUnit) :
    Dialogue σ (List (Except Failure UnitOutcome)) := do
  let found ← (schedule.order units.zipIdx).mapM fun (u, ordinal) => do
    let result ← (u.infer (schedule.connectionOf workers ordinal) ctx rules ordinal).run
    return (ordinal, result)
  return byOrdinal found

/-- Infers units on connections of their own. All are inferred before the first failure counts. -/
def inferOnWorkers (schedule : Schedule) (ctx : InferenceContext) (rules : RuleSet)
    (parallelism : Nat) (units : List ModelUnit) : Session σ (List UnitOutcome) := do
  let workers ← openWorkers parallelism
  let results ← ExceptT.lift (inferEach schedule workers ctx rules units)
  ExceptT.mk (pure (results.mapM id))

/-- Whether units are shared out among workers. For a few units one connection does. -/
def usesWorkers (ctx : InferenceContext) (parallelism : Nat) (units : List ModelUnit) : Bool :=
  ctx.canConnect && decide (1 < parallelism) && decide (parallelThreshold ≤ units.length)

/-- The outcomes of units in their order, or the first failure among them. -/
def inferUnits (schedule : Schedule) (connection : Nat) (ctx : InferenceContext)
    (rules : RuleSet) (parallelism : Nat) (units : List ModelUnit) :
    Session σ (List UnitOutcome) :=
  if usesWorkers ctx parallelism units then
    inferOnWorkers schedule ctx rules parallelism units
  else
    inferInTurn connection ctx rules units

def proceduresIn (us : List ModelUnit) : List Procedure :=
  us.filterMap fun
    | .procedure p => some p
    | .script _ => none

def scriptsIn (us : List ModelUnit) : List Script :=
  us.filterMap fun
    | .procedure _ => none
    | .script s => some s

/-- The table types of parameters, by schema and name. -/
def usedTypes (procedures : List Procedure) (scripts : List Script) : List TableType :=
  let parameters := procedures.flatMap (·.parameters) ++ scripts.flatMap (·.parameters)
  (firstOfEach TableType.id (parameters.filterMap Parameter.tableType?)).mergeSort
    fun a b => a.name.le b.name

/-- The model of units that are left, each part of it sorted by name. -/
def modelOf (tables : List Table) (units : List ModelUnit) (warnings : List Warning) : Model :=
  let procedures := proceduresIn units
  let scripts := scriptsIn units
  { tables := tables.mergeSort fun a b => a.name.le b.name
    tableTypes := usedTypes procedures scripts
    procedures := procedures.mergeSort fun a b => a.name.le b.name
    scripts := scripts.mergeSort fun a b => decide (a.identity ≤ b.identity)
    warnings }

/-- What a run has in hand before it infers anything. -/
structure Groundwork where
  types : TypeCatalog
  tables : List Table
  catalog : ProcedureCatalog
  scripts : List Script
  warnings : List Warning

namespace Groundwork

/-- Reads the catalog and makes the scripts of a run. -/
def lay (connection : Nat) (rules : RuleSet) (userScripts : List Script) :
    Session σ Groundwork := do
  let (types, typeWarnings) ← Catalog.loadTypes connection
  let (tables, tableWarnings) ← Catalog.loadTables connection types rules
  let catalog ← Catalog.loadProcedures connection types rules
  let generated ← Session.ofExcept (requestedScripts rules types.tableTypes tables)
  let (scripts, scriptWarnings) := mergeScripts generated userScripts
  return { types, tables, catalog, scripts
           warnings := typeWarnings ++ tableWarnings ++ scriptWarnings }

def units (g : Groundwork) : List ModelUnit :=
  g.catalog.procedures.map ModelUnit.procedure ++ g.scripts.map ModelUnit.script

/-- The model of a run, with a warning for each rule that finds nothing. -/
def model (g : Groundwork) (rules : RuleSet) (outcomes : List UnitOutcome) : Model :=
  let candidates : Candidates :=
    ⟨g.catalog.allNames, g.tables, g.scripts.map (·.identity), outcomes.map (·.facts)⟩
  let published :=
    (g.tables.filter fun t => rules.includesTable t.name).map (publishedTable rules)
  modelOf published (outcomes.filterMap (·.unit?))
    (g.warnings ++ outcomes.flatMap (·.warnings) ++ unusedRules rules.declared candidates)

end Groundwork

/-- The run in which units are shared out among workers by a schedule. -/
def assembleBy (schedule : Schedule) (connection : Nat) (canConnect : Bool) (rules : RuleSet)
    (userScripts : List Script) (options : RunOptions) : Session σ Model := do
  let g ← Groundwork.lay connection rules userScripts
  let ctx : InferenceContext := ⟨g.types, options.token, canConnect⟩
  let outcomes ← inferUnits schedule connection ctx rules options.parallelism g.units
  return g.model rules outcomes

end Assembly

open QueryShape.Assembly

/-- Reads the catalogs, generates the requested scripts, infers every procedure and script and
checks that the configuration is in use. -/
def assemble {σ : Type} (connection : Nat) (canConnect : Bool) (rules : RuleSet)
    (userScripts : List Script) (options : RunOptions) : Session σ Model :=
  assembleBy .inTurn connection canConnect rules userScripts options

end QueryShape
