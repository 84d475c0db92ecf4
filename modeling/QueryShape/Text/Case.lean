import QueryShape.Unicode.CaseContext
import QueryShape.Unicode.Lower
import QueryShape.Unicode.Upper

namespace QueryShape.Text

open QueryShape.Unicode

/-- Whether the nearest character that is not looked through has case. -/
def nearestIsCased (cs : List Char) : Bool :=
  match cs.dropWhile isCaseIgnorable with
  | [] => false
  | c :: _ => isCased c

/-- A capital sigma takes its final form at the end of a word: after a letter and before none. -/
def lowerSigma (before after : List Char) : Char :=
  if nearestIsCased before && !nearestIsCased after then 'ς' else 'σ'

/-- Lower-cases what stands after `before`, which is given from its end. -/
def lowerFrom (before : List Char) : List Char → List Char
  | [] => []
  | c :: rest =>
      (if c = 'Σ' then [lowerSigma before rest] else lowerChar c) ++ lowerFrom (c :: before) rest

def lower (s : String) : String :=
  String.ofList (lowerFrom [] s.toList)

def upper (s : String) : String :=
  String.ofList (s.toList.flatMap upperChar)

end QueryShape.Text
