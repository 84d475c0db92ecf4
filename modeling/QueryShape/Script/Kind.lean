import QueryShape.Text.IgnoreCase

namespace QueryShape

open QueryShape.Text

/-- The kinds of generated scripts. -/
inductive ScriptKind where
  | getAll | getById | getByIdBatch | getByColumns | getByColumnsBatch | insert | insertBatch
  | update | updateBatch | merge | mergeBatch | delete
  deriving DecidableEq, Repr

namespace ScriptKind

def all : List ScriptKind :=
  [getAll, getById, getByIdBatch, getByColumns, getByColumnsBatch, insert, insertBatch, update,
    updateBatch, merge, mergeBatch, delete]

def name : ScriptKind → String
  | getAll => "getAll"
  | getById => "getById"
  | getByIdBatch => "getByIdBatch"
  | getByColumns => "getByColumns"
  | getByColumnsBatch => "getByColumnsBatch"
  | insert => "insert"
  | insertBatch => "insertBatch"
  | update => "update"
  | updateBatch => "updateBatch"
  | merge => "merge"
  | mergeBatch => "mergeBatch"
  | delete => "delete"

def ofName? (s : String) : Option ScriptKind :=
  all.find? fun k => sameIgnoringCase k.name s

def unknownMessage (s : String) : String :=
  "unknown script kind '" ++ s ++ "', expected one of: " ++ ", ".intercalate (all.map name)

/-- Rows are matched on the primary key. -/
def requiresKey : ScriptKind → Bool
  | getById | getByIdBatch | update | updateBatch | merge | mergeBatch | delete => true
  | _ => false

/-- Rows are matched on columns that the request names. -/
def usesFilterColumns : ScriptKind → Bool
  | getByColumns | getByColumnsBatch => true
  | _ => false

/-- The values to match arrive in a table. -/
def usesTableType : ScriptKind → Bool
  | getByIdBatch | getByColumnsBatch => true
  | _ => false

/-- The rows to write stand in a temp table. -/
def usesStagingTable : ScriptKind → Bool
  | insertBatch | updateBatch | mergeBatch => true
  | _ => false

/-- Whether scripts of a kind read rows. -/
def isRead : ScriptKind → Bool
  | getAll | getById | getByIdBatch | getByColumns | getByColumnsBatch => true
  | _ => false

/-- The key of a written row is returned unless the request says otherwise. -/
def outputsKey : ScriptKind → Bool
  | insert | insertBatch | merge | mergeBatch => true
  | _ => false

end ScriptKind

end QueryShape
