import QueryShape.Column
import QueryShape.Script.Kind
import QueryShape.Server.Error

namespace QueryShape

/-- What a run was doing when a database call failed. -/
inductive Activity where
  | openingPrimary
  | openingWorker
  | readingSystemTypes
  | readingTableTypes
  | readingTables
  | readingPrimaryKeys
  | readingProcedures
  | readingParameters
  | creatingTempTable (name : String)
  | droppingTempTables
  | startingTransaction
  | rollingBack
  deriving DecidableEq, Repr

namespace Activity

def text : Activity → String
  | openingPrimary => "opening the primary connection"
  | openingWorker => "opening a worker connection"
  | readingSystemTypes => "reading system types"
  | readingTableTypes => "reading table types"
  | readingTables => "reading tables and views"
  | readingPrimaryKeys => "reading primary keys"
  | readingProcedures => "reading procedure definitions"
  | readingParameters => "reading procedure parameters"
  | creatingTempTable name => "creating temp table " ++ name
  | droppingTempTables => "dropping temp tables"
  | startingTransaction => "starting a transaction"
  | rollingBack => "rolling back"

end Activity

/-- What columns are missing for. -/
inductive ColumnPurpose where
  | select
  | insert
  | update
  deriving DecidableEq, Repr

namespace ColumnPurpose

def text : ColumnPurpose → String
  | select => "select"
  | insert => "insert"
  | update => "update"

end ColumnPurpose

/-- An error that ends a run. Units are given by their labels. -/
inductive Fault where
  | database (activity : Activity) (cause : ServerError)
  | unsupportedType (unit subject typeName : String)
  | unknownTableType (unit name : String)
  | unreadableDefinition (procedure : QualifiedName)
  | tempTableNamesParameter (unit name : String)
  | duplicateTempTable (unit name : String)
  | malformedTempTable (unit : String) (count : Nat) (sql : String)
  | missingPrimaryKey (table : QualifiedName) (kind : ScriptKind)
  | missingFilterColumns (table : QualifiedName) (kind : ScriptKind)
  | unknownColumn (table : QualifiedName) (kind : ScriptKind) (column : String)
  | emptyColumnList (table : QualifiedName) (kind : ScriptKind) (purpose : ColumnPurpose)
  | noMatchingTableType (table : QualifiedName) (kind : ScriptKind) (columns : List Column)
  | ambiguousTableType (table : QualifiedName) (kind : ScriptKind) (columns : List Column)
      (candidates : List QualifiedName)
  | tableTypeMismatch (table : QualifiedName) (kind : ScriptKind) (type : QualifiedName)
      (columns : List Column)
  | parameterInference (unit sql : String) (cause : ServerError)
  | resultSetInference (unit sql : String) (cause : ServerError)
  | unreadableText (unit : String)
  | undecodableFile (path : String)
  deriving DecidableEq, Repr

namespace Fault

/-- The message of a fault. What it was caused by is told apart from it. -/
def message : Fault → String
  | database activity _ => "Database call failed while " ++ activity.text
  | unsupportedType unit subject typeName =>
      "Unsupported SQL type '" ++ typeName ++ "' for " ++ subject ++ " in " ++ unit
  | unknownTableType unit name => "Unknown table type '" ++ name ++ "' referenced by " ++ unit
  | unreadableDefinition procedure =>
      "Cannot read the definition of procedure " ++ procedure.full ++
        "; grant VIEW DEFINITION on it (or on its schema) to the connecting login"
  | tempTableNamesParameter unit name =>
      "Name '" ++ name ++ "' is used both as a temp table and as a parameter in " ++ unit
  | duplicateTempTable unit name =>
      "Temp table '" ++ name ++ "' is defined more than once for " ++ unit
  | malformedTempTable unit count sql =>
      "Temp table definition for " ++ unit ++
        " must contain exactly one CREATE TABLE statement, found " ++ toString count ++ ":\n" ++ sql
  | missingPrimaryKey table kind =>
      "Table " ++ table.full ++ " has no primary key, which '" ++ kind.name ++ "' requires"
  | missingFilterColumns table kind =>
      "'" ++ kind.name ++ "' for table " ++ table.full ++
        " requires an explicit list of filter columns"
  | unknownColumn table kind column =>
      "Column '" ++ column ++ "' named by '" ++ kind.name ++ "' does not exist in table " ++
        table.full
  | emptyColumnList table kind purpose =>
      "'" ++ kind.name ++ "' for table " ++ table.full ++ " produces no columns to " ++
        purpose.text
  | noMatchingTableType table kind columns =>
      "No table type matches columns (" ++ Column.listing columns ++ ") of " ++ table.full ++
        " for '" ++ kind.name ++ "'; create one or name it explicitly"
  | ambiguousTableType table kind columns candidates =>
      "Several table types match columns (" ++ Column.listing columns ++ ") of " ++ table.full ++
        " for '" ++ kind.name ++ "': " ++
        ", ".intercalate (candidates.map QualifiedName.full) ++ "; name one explicitly"
  | tableTypeMismatch table kind type columns =>
      "Table type " ++ type.full ++ " does not match columns (" ++ Column.listing columns ++
        ") of " ++ table.full ++ " for '" ++ kind.name ++ "'"
  | parameterInference unit sql cause =>
      "Could not infer parameters of " ++ unit ++ ": " ++ cause.guidance ++ "\n" ++ sql
  | resultSetInference unit sql cause =>
      "Could not infer the result set of " ++ unit ++ ": " ++ cause.guidance ++ "\n" ++ sql
  | unreadableText unit => "Cannot tokenize the text of " ++ unit
  | undecodableFile path => "Failed to read script file: " ++ path

/-- The text of the cause, where there is one. -/
def source? : Fault → Option String
  | database _ cause | parameterInference _ _ cause | resultSetInference _ _ cause =>
      some cause.text
  | undecodableFile _ => some "File contains invalid characters"
  | _ => none

end Fault

end QueryShape
