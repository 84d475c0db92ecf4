import QueryShape.Catalog.Types
import QueryShape.Fault
import QueryShape.Rule.Set
import QueryShape.Unit

namespace QueryShape

namespace Parameter

/-- The parameter in a row of the catalog. Its default and nullability are not in there. -/
def ofRow (types : TypeCatalog) (procedure : QualifiedName) (r : Row) : Except Fault Parameter :=
  let base (type : ParameterType) (size : Int) (isOutput : Bool) : Parameter := {
    name := r.text "name"
    position := r.int "parameter_id"
    type
    size
    precision := narrow8 (r.int "precision")
    scale := narrow8 (r.int "scale")
    isOutput
    isCursor := r.flag "is_cursor_ref" }
  match types.tableType? (r.int "user_type_id") with
  | some t => .ok (base (.table t) 0 false)
  | none =>
      match types.scalarType? (r.int "system_type_id") with
      | some t =>
          .ok (base (.scalar t) (t.adjustedSize (narrow32 (r.int "max_length")))
            (r.flag "is_output"))
      | none =>
          .error (.unsupportedType ("procedure " ++ procedure.full) ("parameter " ++ r.text "name")
            ((types.systemTypeName? (r.int "system_type_id")).getD "unknown"))

end Parameter

/-- The procedures that are included, and `schema.name` of every procedure. -/
structure ProcedureCatalog where
  procedures : List Procedure
  allNames : List String
  deriving DecidableEq, Repr

namespace ProcedureCatalog

def proceduresQuery : String :=
  "\n".intercalate [
    "SELECT p.object_id, s.name AS schema_name, p.name AS procedure_name,",
    "       OBJECT_DEFINITION(p.object_id) AS definition",
    "FROM sys.procedures p",
    "JOIN sys.schemas s ON s.schema_id = p.schema_id",
    "WHERE p.is_ms_shipped = 0",
    "ORDER BY s.name, p.name"]

def parametersQuery : String :=
  "\n".intercalate [
    "SELECT pr.object_id, pr.parameter_id, pr.name, pr.system_type_id, pr.user_type_id,",
    "       pr.max_length, pr.precision, pr.scale, pr.is_output, pr.is_cursor_ref",
    "FROM sys.parameters pr",
    "JOIN sys.procedures p ON p.object_id = pr.object_id",
    "WHERE p.is_ms_shipped = 0 AND pr.parameter_id > 0",
    "ORDER BY pr.object_id, pr.parameter_id"]

def nameOfRow (r : Row) : QualifiedName :=
  ⟨r.text "schema_name", r.text "procedure_name"⟩

/-- A procedure as the catalog has it. Its definition must be visible. -/
def procedureOfRow (types : TypeCatalog) (parameterRows : List Row) (r : Row) :
    Except Fault Procedure :=
  let name := nameOfRow r
  match r.text? "definition" with
  | none => .error (.unreadableDefinition name)
  | some definition =>
      (parameterRows.mapM (Parameter.ofRow types name)).map fun parameters =>
        { name, objectId := narrow32 (r.int "object_id"), definition, parameters }

/-- The procedures in rows of included ones. Only the first procedure of an id gets the parameters
for it. -/
def included (types : TypeCatalog) (parameterRows : List Row) :
    List Row → Except Fault (List Procedure)
  | [] => .ok []
  | r :: rest =>
      let (own, others) := parameterRows.partition (·.int "object_id" == r.int "object_id")
      (procedureOfRow types own r).bind fun p =>
        (included types others rest).map (p :: ·)

/-- The procedures that rules include, beside the names of all. -/
def ofRows (types : TypeCatalog) (rules : RuleSet) (procedureRows parameterRows : List Row) :
    Except Fault ProcedureCatalog :=
  (included types parameterRows
      (procedureRows.filter fun r => rules.includesProcedure (nameOfRow r))).map
    fun procedures => ⟨procedures, procedureRows.map fun r => (nameOfRow r).plain⟩

end ProcedureCatalog

end QueryShape
