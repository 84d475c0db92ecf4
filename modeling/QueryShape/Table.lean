import QueryShape.Column

namespace QueryShape

open QueryShape.Text

/-- A table or view. The key columns stand in key order; there are none where the key is absent or
not wholly among the columns. -/
structure Table where
  name : QualifiedName
  columns : List Column
  primaryKey : List Column
  isView : Bool
  deriving DecidableEq, Repr

namespace Table

def column? (t : Table) (name : String) : Option Column :=
  findColumn? t.columns name

def isKey (t : Table) (name : String) : Bool :=
  t.primaryKey.any fun c => sameIgnoringCase c.name name

/-- Leaves columns out. A key that would lose a column is lost as a whole. -/
def without (t : Table) (skip : Column → Bool) : Table :=
  let kept := t.columns.filter fun c => !skip c
  let keyKept := t.primaryKey.all fun k => kept.any fun c => c.name == k.name
  { t with columns := kept, primaryKey := if keyKept then t.primaryKey else [] }

end Table

end QueryShape
