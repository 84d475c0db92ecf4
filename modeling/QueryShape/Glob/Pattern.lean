namespace QueryShape.Glob

/-- An item of a class of characters. -/
inductive ClassItem where
  | single (c : Char)
  | range (first last : Char)
  deriving DecidableEq, Repr

/-- A step of a pattern. -/
inductive Step where
  | char (c : Char)
  | anyChar
  /-- Any run of characters. -/
  | anyRun
  /-- Any run of whole path components. -/
  | anyPath
  | oneOf (items : List ClassItem)
  | noneOf (items : List ClassItem)
  deriving DecidableEq, Repr

inductive Problem where
  | wildcards
  | recursiveWildcards
  | invalidRange
  deriving DecidableEq, Repr

/-- A pattern that cannot be read, with the place where that shows. -/
structure PatternError where
  position : Nat
  problem : Problem
  deriving DecidableEq, Repr

namespace PatternError

/-- The message for whoever wrote the pattern. -/
def message (e : PatternError) : String :=
  "Pattern syntax error near position " ++ toString e.position ++ ": " ++
    match e.problem with
    | .wildcards => "wildcards are either regular \x60*\x60 or recursive \x60**\x60"
    | .recursiveWildcards => "recursive wildcards must form a single path component"
    | .invalidRange => "invalid range pattern"

end PatternError

/-- A pattern for names and paths, with the text it was read from. -/
structure Pattern where
  text : String
  steps : List Step
  deriving DecidableEq, Repr

/-- The members of a class; a dash between two characters makes a range. -/
def classItems : List Char → List ClassItem
  | a :: '-' :: b :: rest => .range a b :: classItems rest
  | c :: rest => .single c :: classItems rest
  | [] => []

/-- Reads a class after its opening bracket. The first character is a member even if it is a
closing bracket. -/
def classAfter? (cs : List Char) : Option (Step × List Char) :=
  let close (inside : List Char) (make : List ClassItem → Step) : Option (Step × List Char) :=
    match inside with
    | [] => none
    | c :: rest =>
        match rest.dropWhile (· != ']') with
        | [] => none
        | _ :: after => some (make (classItems (c :: rest.takeWhile (· != ']'))), after)
  match cs with
  | '!' :: inside => close inside .noneOf
  | inside => close inside .oneOf

theorem length_classAfter?_lt {cs rest : List Char} {s : Step}
    (h : classAfter? cs = some (s, rest)) : rest.length < cs.length := by
  have key : ∀ {inside : List Char} {make : List ClassItem → Step},
      (match inside with
        | [] => none
        | c :: tail =>
          match tail.dropWhile (· != ']') with
          | [] => none
          | _ :: after => some (make (classItems (c :: tail.takeWhile (· != ']'))), after)) =
        some (s, rest) → rest.length < inside.length := by
    intro inside make h
    cases inside with
    | nil => simp at h
    | cons c tail =>
        have hle := (List.dropWhile_suffix (l := tail) (· != ']')).length_le
        simp only at h
        split at h
        · simp at h
        · rename_i after heq
          rw [heq, List.length_cons] at hle
          cases h
          simp only [List.length_cons]
          omega
  unfold classAfter? at h
  dsimp only at h
  split at h
  · exact Nat.lt_succ_of_lt (key h)
  · exact key h

/-- Reads two stars that start at `position`, after the character `before`. They have to be a path
component of their own, which takes the slash after it. -/
def recursiveAfter (position : Nat) (before : Option Char) (rest : List Char) :
    Except PatternError (List Char) :=
  if before = none ∨ before = some '/' then
    match rest with
    | [] => .ok []
    | '/' :: after => .ok after
    | _ => .error ⟨position + 2, .recursiveWildcards⟩
  else
    .error ⟨position - 1, .recursiveWildcards⟩

theorem length_recursiveAfter_le {position : Nat} {before : Option Char} {rest after : List Char}
    (h : recursiveAfter position before rest = .ok after) : after.length ≤ rest.length := by
  unfold recursiveAfter at h
  split at h
  · split at h
    · cases h
      exact Nat.le_refl _
    · cases h
      exact Nat.le_succ _
    · simp at h
  · simp at h

/-- Adds a run of path components, unless the steps before end in one already. -/
def addAnyPath (steps : List Step) : List Step :=
  if 1 < steps.length ∧ steps.getLast? = some .anyPath then steps else steps ++ [.anyPath]

/-- The steps of a text from a position on, behind those that were read before it. -/
def stepsFrom (position : Nat) (before : Option Char) (steps : List Step) (cs : List Char) :
    Except PatternError (List Step) :=
  match cs with
  | [] => .ok steps
  | '?' :: rest => stepsFrom (position + 1) (some '?') (steps ++ [.anyChar]) rest
  | '*' :: rest =>
      let stars := (rest.takeWhile (· == '*')).length
      if stars = 0 then
        stepsFrom (position + 1) (some '*') (steps ++ [.anyRun]) rest
      else if stars = 1 then
        match _h : recursiveAfter position before (rest.drop 1) with
        | .error e => .error e
        | .ok after =>
            stepsFrom (position + (rest.length + 1 - after.length))
              (if after.length < rest.length - 1 then some '/' else some '*')
              (addAnyPath steps) after
      else
        .error ⟨position + 2, .wildcards⟩
  | '[' :: rest =>
      match _h : classAfter? rest with
      | none => .error ⟨position, .invalidRange⟩
      | some (step, after) =>
          stepsFrom (position + (rest.length + 1 - after.length)) (some ']') (steps ++ [step]) after
  | c :: rest => stepsFrom (position + 1) (some c) (steps ++ [.char c]) rest
termination_by cs.length
decreasing_by
  all_goals simp only [List.length_cons]
  · omega
  · omega
  · have := length_recursiveAfter_le _h
    rw [List.length_drop] at this
    omega
  · have := length_classAfter?_lt _h
    omega
  · omega

namespace Pattern

def ofText (text : String) : Except PatternError Pattern :=
  (stepsFrom 0 none [] text.toList).map fun steps => ⟨text, steps⟩

end Pattern

end QueryShape.Glob
