import QueryShape.Fault
import QueryShape.Table

namespace QueryShape

open QueryShape.Text

/-- A column of a table type and the column that it stands for. -/
structure ColumnBinding where
  typeColumn : Column
  column : Column
  deriving DecidableEq, Repr

/-- Columns with their places in a list. -/
abbrev PlacedColumns := List (Column × Nat)

namespace ColumnBinding

/-- The first column of the shape and name of a type column. -/
def namesake? (columns : PlacedColumns) (typeColumn : Column) : Option (Column × Nat) :=
  columns.find? fun (c, _) => c.sameShape typeColumn && sameIgnoringCase c.name typeColumn.name

/-- The first column of the shape of a type column whose place is free. -/
def substitute? (columns : PlacedColumns) (taken : List Nat) (typeColumn : Column) :
    Option (Column × Nat) :=
  columns.find? fun (c, place) => !taken.contains place && c.sameShape typeColumn

/-- Binds the type columns in order: to their namesakes, or else to columns whose places are not
taken. -/
def bindAll (columns : PlacedColumns) (taken : List Nat) : List Column → Option (List ColumnBinding)
  | [] => some []
  | t :: rest =>
      match namesake? columns t with
      | some (c, _) => (bindAll columns taken rest).map (⟨t, c⟩ :: ·)
      | none =>
          match substitute? columns taken t with
          | some (c, place) => (bindAll columns (place :: taken) rest).map (⟨t, c⟩ :: ·)
          | none => none

end ColumnBinding

/-- Binds each column of a table type to a column of the list of its shape. Columns of one name are
bound first, so that no other type column takes them. None if the shapes differ. -/
def mapColumns (typeColumns columns : List Column) : Option (List ColumnBinding) :=
  if typeColumns.length = columns.length then
    let placed := columns.zipIdx
    let taken := (typeColumns.filterMap (ColumnBinding.namesake? placed)).map Prod.snd
    ColumnBinding.bindAll placed taken typeColumns
  else
    none

/-- A table type whose columns carry the values of given columns. -/
structure TableTypeChoice where
  type : TableType
  bindings : List ColumnBinding
  deriving DecidableEq, Repr

namespace TableTypeChoice

/-- The choice of a type, if its columns can be bound. -/
def ofType? (columns : List Column) (type : TableType) : Option TableTypeChoice :=
  (mapColumns type.columns columns).map (⟨type, ·⟩)

/-- The choice of the type with a name, which must fit. -/
def named (table : Table) (kind : ScriptKind) (columns : List Column) (types : List TableType)
    (name : String) : Except Fault TableTypeChoice :=
  match findTableType? types name with
  | none =>
      .error (.unknownTableType ("'" ++ kind.name ++ "' for table " ++ table.name.full) name)
  | some type =>
      match ofType? columns type with
      | none => .error (.tableTypeMismatch table.name kind type.name columns)
      | some choice => .ok choice

/-- The choice of the only type that fits. -/
def unique (table : Table) (kind : ScriptKind) (columns : List Column) (types : List TableType) :
    Except Fault TableTypeChoice :=
  match types.filterMap (ofType? columns) with
  | [] => .error (.noMatchingTableType table.name kind columns)
  | [choice] => .ok choice
  | choices => .error (.ambiguousTableType table.name kind columns (choices.map (·.type.name)))

/-- The choice of a table type, by name if one is given. -/
def select (table : Table) (kind : ScriptKind) (columns : List Column) (types : List TableType)
    (explicit : Option String) : Except Fault TableTypeChoice :=
  match explicit with
  | some name => named table kind columns types name
  | none => unique table kind columns types

end TableTypeChoice

end QueryShape
