namespace QueryShape.Text

/-- A text with the letters A to Z in lower case. -/
def folded (s : String) : List Char :=
  s.toList.map Char.toLower

/-- Equality up to the case of the letters A to Z. -/
def sameIgnoringCase (a b : String) : Bool :=
  folded a == folded b

def startsWithIgnoringCase (s start : String) : Bool :=
  (folded start).isPrefixOf (folded s)

/-- Whether characters occur one after the other. -/
def occursIn (needle : List Char) : List Char → Bool
  | [] => needle.isEmpty
  | c :: rest => needle.isPrefixOf (c :: rest) || occursIn needle rest

def containsIgnoringCase (s needle : String) : Bool :=
  occursIn (folded needle) (folded s)

theorem sameIgnoringCase_iff {a b : String} :
    sameIgnoringCase a b = true ↔ folded a = folded b := by
  simp [sameIgnoringCase]

end QueryShape.Text
