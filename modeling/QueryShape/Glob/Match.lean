import QueryShape.Glob.Pattern

namespace QueryShape.Glob

namespace ClassItem

/-- Whether a letter is in a range of letters, all of them in lower case. -/
def containsLetter (first last c : Char) : Bool :=
  c.toNat < 128 && first.isLower && last.isLower && first ≤ c && c ≤ last

/-- Letters are taken up to case; a range of letters is also tried in lower case. -/
def contains (c : Char) : ClassItem → Bool
  | single d => c.toLower == d.toLower
  | range first last =>
      containsLetter first.toLower last.toLower c.toLower || (first ≤ c && c ≤ last)

end ClassItem

namespace Step

/-- Whether a step that takes one character takes this one. -/
def accepts (c : Char) : Step → Bool
  | char d => c.toLower == d.toLower
  | anyChar => true
  | oneOf items => items.any (·.contains c)
  | noneOf items => !items.any (·.contains c)
  | anyRun | anyPath => false

end Step

/-- How a search for a match ends. Once a text is too short for the rest of a pattern, a wildcard
before that rest cannot help. -/
inductive Outcome where
  | matched
  | mismatched
  | tooShort
  deriving DecidableEq, Repr

/-- Tries the rest of a pattern at each place of a text until that decides. -/
def afterAnyRun (rest : List Char → Outcome) : List Char → Outcome
  | [] => rest []
  | c :: cs =>
      match rest (c :: cs) with
      | .mismatched => afterAnyRun rest cs
      | outcome => outcome

/-- Tries the rest of a pattern at the start of each path component and at the end. -/
def afterAnyPath (rest : List Char → Outcome) (atStart : Bool) : List Char → Outcome
  | [] => rest []
  | c :: cs =>
      if atStart then
        match rest (c :: cs) with
        | .mismatched => afterAnyPath rest (c == '/') cs
        | outcome => outcome
      else
        afterAnyPath rest (c == '/') cs

/-- Matches the steps of a pattern with a text from the left. -/
def run : List Step → List Char → Outcome
  | [], cs => if cs.isEmpty then .matched else .mismatched
  | .anyRun :: steps, cs => afterAnyRun (run steps) cs
  | .anyPath :: steps, cs => afterAnyPath (run steps) true cs
  | _ :: _, [] => .tooShort
  | step :: steps, c :: cs => if step.accepts c then run steps cs else .mismatched

namespace Pattern

/-- Whether the pattern matches a whole name, up to the case of the letters A to Z. -/
def accepts (p : Pattern) (name : String) : Bool :=
  run p.steps name.toList == .matched

end Pattern

end QueryShape.Glob
