import QueryShape.Inference.Context
import QueryShape.Procedure.Header
import QueryShape.Rule.Basic
import QueryShape.Server.Session
import QueryShape.Variable.Scan

namespace QueryShape

open QueryShape.Identifier
open QueryShape.Text

namespace Inference

/-- Parameters with the warnings that came up on the way. -/
structure Parameters where
  parameters : List Parameter
  warnings : List Warning
  deriving DecidableEq, Repr

def byPosition (ps : List Parameter) : List Parameter :=
  ps.mergeSort fun a b => decide (a.position ≤ b.position)

/-- A table-valued parameter, which is neither an output nor nullable. -/
def tableParameter (name : String) (position : Int) (type : TableType) : Parameter where
  name
  position
  type := .table type

/-- Warns of a rule that makes a parameter nullable that takes a table. -/
def tableWarnings (unit : String) (rule : EffectiveRule) (p : Parameter) : List Warning :=
  if p.tableType?.isSome && rule.nullable? p.name == some true then
    [⟨unit, "table-valued parameter " ++ p.name ++
      " cannot be nullable; the nullable rule is ignored"⟩]
  else
    []

/-- Warns of each parameter that a rule names and the unit lacks, if rules are checked for that. -/
def unknownParameters (unit complaint : String) (rule : EffectiveRule) (isKnown : String → Bool) :
    List Warning :=
  if rule.checkUnused then
    (rule.parameters.keys.filter fun key => !isKnown key).map fun key =>
      ⟨unit, "rule names parameter @" ++ key ++ " which the " ++ complaint ++ "; ignored"⟩
  else
    []

/-- The default and nullability of a parameter: as the definition and the rule say, and `NULL` where
the rule wants a default and the definition has none. -/
def withDefault (default? : Option String) (nullable? : Option Bool) (p : Parameter) : Parameter :=
  match nullable? with
  | some true => { p with isNullable := true, default? := some (default?.getD "NULL") }
  | some false => { p with isNullable := false, default? := none }
  | none =>
      { p with isNullable := default?.any (sameIgnoringCase · "NULL"), default? := default? }

/-- A parameter of a procedure with its default value and what rules say about it. -/
def procedureParameter (defaults : KeyMap String) (rule : EffectiveRule) (p : Parameter) :
    Parameter :=
  match p.type with
  | .table t => tableParameter p.name p.position t
  | .scalar _ => withDefault (defaults.get? p.key) (rule.nullable? p.name) p

/-- The parameters of a procedure, which the catalog has. -/
def procedureParameters (procedure : Procedure) (rule : EffectiveRule) :
    Except Fault Parameters :=
  let unit := (ExecutableUnit.procedure procedure).label
  let declared := procedure.parameters
  (checkTempTableNames unit (declared.map Parameter.key) procedure.tempTables).map fun _ => {
    parameters :=
      byPosition (declared.map (procedureParameter (procedureDefaults procedure.definition) rule))
    warnings :=
      unknownParameters unit "procedure does not declare" rule
          (fun key => declared.any fun p => p.key == key) ++
        declared.flatMap (tableWarnings unit rule) }

/-- A type that configuration or a hint gives a variable. -/
inductive PinnedType where
  | scalar (declaration : String)
  | table (type : TableType)
  deriving DecidableEq, Repr

/-- The type of a variable by its rule, or else by the first hint for it. -/
def pinnedType? (types : TypeCatalog) (script : Script) (rule : EffectiveRule) (name : String) :
    Option PinnedType :=
  let hinted := (script.hints.find? fun h => parameterKey h.name == parameterKey name).map
    (·.declaration)
  (((rule.parameter? name).bind (·.sqlType)).or hinted).map fun declaration =>
    match types.tableTypeNamed? declaration with
    | some t => .table t
    | none => .scalar declaration

/-- An undeclared variable with the type that it is given up front, if any. -/
structure PinnedVariable where
  use : VariableUse
  pin : Option PinnedType
  deriving DecidableEq, Repr

namespace PinnedVariable

/-- The name without its sigils. -/
def bareName (v : PinnedVariable) : String :=
  String.ofList (v.use.name.toList.dropWhile (· == '@'))

/-- The line that declares a pinned variable. A scalar one gets its value from a placeholder of its
own, which the server then describes in its place. -/
def declaration (stem : String) (v : PinnedVariable) : String :=
  match v.pin with
  | some (.table t) => "DECLARE " ++ v.use.name ++ " " ++ t.name.full ++ ";\n"
  | some (.scalar d) =>
      "DECLARE " ++ v.use.name ++ " " ++ d ++ " = " ++ stem ++ v.bareName ++ ";\n"
  | none => ""

/-- The parameter of a variable that is pinned to a table type. -/
def tableParameter? (v : PinnedVariable) : Option Parameter :=
  match v.pin with
  | some (.table t) => some (tableParameter v.use.name v.use.offset t)
  | _ => none

end PinnedVariable

/-- The position of a parameter that is not in the script. -/
def unknownPosition : Int := 0x7FFFFFFFFFFFFFFF

/-- The variable a description is about: a placeholder stands for the variable it was made for. -/
def describedName (stem reported : String) : String :=
  if startsWithIgnoringCase reported stem then
    "@" ++ String.ofList (reported.toList.drop stem.length)
  else
    reported

/-- The parameter in a row of a description. -/
def describedParameter (types : TypeCatalog) (unit stem : String) (scanned : ScriptVariables)
    (rule : EffectiveRule) (r : Row) : Except Fault Parameter :=
  let name := describedName stem (r.text "name")
  let position : Int :=
    match scanned.reference? name with
    | some u => u.offset
    | none => unknownPosition
  match (r.int? "suggested_user_type_id").bind types.tableType? with
  | some t => .ok (tableParameter name position t)
  | none =>
      match types.scalarType? (r.int "suggested_system_type_id") with
      | none =>
          .error (.unsupportedType unit ("parameter " ++ name)
            ((r.text? "suggested_system_type_name").getD
              (types.describe (r.int "suggested_system_type_id"))))
      | some t => .ok {
          name
          position
          type := .scalar t
          size := t.adjustedSize (narrow32 (r.int "suggested_max_length"))
          precision := narrow8 (r.int "suggested_precision")
          scale := narrow8 (r.int "suggested_scale")
          isOutput := r.flag "suggested_is_output"
          isNullable := (rule.nullable? name).getD false }

def describeParameters : String :=
  "EXEC sys.sp_describe_undeclared_parameters @tsql = @P1"

/-- The text whose parameters the server describes: the declarations of the pinned variables and the
script. -/
def parameterBatch (stem : String) (pinned : List PinnedVariable) (script : Script) : String :=
  String.join (pinned.map (·.declaration stem)) ++ script.text

/-- The description of the parameters of a batch. Nothing is asked if none needs one. -/
def describedRows {σ : Type} (connection : Nat) (unit batch : String) (needed : Bool) :
    Session σ (List Row) := do
  if needed then
    match ← ExceptT.lift (Dialogue.query connection describeParameters [batch]) with
    | .ok rows => pure rows
    | .error e => Session.fail (.parameterInference unit batch e)
  else
    pure []

/-- The parameters of a script: those pinned to table types, and those that the server describes. -/
def scriptParameters {σ : Type} (connection : Nat) (ctx : InferenceContext) (script : Script)
    (rule : EffectiveRule) : Session σ Parameters := do
  let unit := (ExecutableUnit.script script).label
  let some scanned := scanVariables script.text | Session.fail (.unreadableText unit)
  let undeclared := scanned.undeclared
  Session.ofExcept (checkTempTableNames unit (undeclared.map VariableUse.key) script.tempTables)
  let pinned := undeclared.map fun u => ⟨u, pinnedType? ctx.types script rule u.name⟩
  let tables := pinned.filterMap PinnedVariable.tableParameter?
  let stem := ctx.token.placeholderStem
  let rows ← describedRows connection unit
    (ctx.token.globalize (parameterBatch stem pinned script)) (tables.length < pinned.length)
  let described ← Session.ofExcept
    (rows.mapM (describedParameter ctx.types unit stem scanned rule))
  return {
    parameters := byPosition (tables ++ described)
    warnings :=
      unknownParameters unit "script never uses" rule
          (fun key => (scanned.reference? key).isSome) ++
        (tables ++ described).flatMap (tableWarnings unit rule) }

end Inference

/-- The parameters of a unit. A temp table has none. -/
def inferParameters {σ : Type} (connection : Nat) (ctx : InferenceContext) (unit : ExecutableUnit)
    (rule : EffectiveRule) : Session σ Inference.Parameters :=
  match unit with
  | .script s => Inference.scriptParameters connection ctx s rule
  | .procedure p => Session.ofExcept (Inference.procedureParameters p rule)
  | .tempTable _ => pure ⟨[], []⟩

end QueryShape
