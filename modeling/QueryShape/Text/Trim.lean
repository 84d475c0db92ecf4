import QueryShape.Unicode.Blank

namespace QueryShape.Text

open QueryShape.Unicode

def dropTrailing (p : Char → Bool) (cs : List Char) : List Char :=
  (cs.reverse.dropWhile p).reverse

def trimBlanks (cs : List Char) : List Char :=
  dropTrailing isBlank (cs.dropWhile isBlank)

end QueryShape.Text
