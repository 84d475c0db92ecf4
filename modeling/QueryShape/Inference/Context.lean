import QueryShape.Catalog.Types
import QueryShape.Fault
import QueryShape.TempTable.RunToken
import QueryShape.Unit

namespace QueryShape

open QueryShape.Text

/-- What inference knows about the server and the run. -/
structure InferenceContext where
  types : TypeCatalog
  token : RunToken
  /-- Whether new connections can be asked for. -/
  canConnect : Bool

namespace TempTable

/-- The name without hashes, in the form of a parameter key. -/
def key (t : TempTable) : String :=
  lower (String.ofList (t.name.toList.dropWhile (· == '#')))

end TempTable

/-- No temp table may go by the name of a parameter. -/
def checkTempTableNames (unit : String) (parameterKeys : List String) (tables : List TempTable) :
    Except Fault Unit :=
  match tables.find? fun t => parameterKeys.contains t.key with
  | some t => .error (.tempTableNamesParameter unit t.key)
  | none => .ok ()

end QueryShape
