namespace QueryShape

/-- A problem that does not end a run. -/
structure Warning where
  subject : String
  message : String
  deriving DecidableEq, Repr

namespace Warning

def text (w : Warning) : String :=
  w.subject ++ ": " ++ w.message

end Warning

/-- The warnings of a run, in the order in which they were found. -/
structure Diagnostics where
  warnings : List Warning := []
  deriving DecidableEq, Repr

namespace Diagnostics

def warn (d : Diagnostics) (subject message : String) : Diagnostics :=
  ⟨d.warnings ++ [⟨subject, message⟩]⟩

def extend (d more : Diagnostics) : Diagnostics :=
  ⟨d.warnings ++ more.warnings⟩

def isEmpty (d : Diagnostics) : Bool :=
  d.warnings.isEmpty

end Diagnostics

end QueryShape
