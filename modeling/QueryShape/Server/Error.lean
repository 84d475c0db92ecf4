import QueryShape.Text.IgnoreCase

namespace QueryShape

open QueryShape.Text

/-- A refusal of the server, with its number where the server gave one, or of the connection. -/
structure ServerError where
  number? : Option Nat := none
  message : String
  deriving DecidableEq, Repr

namespace ServerError

/-- An error as messages tell it. -/
def text (e : ServerError) : String :=
  match e.number? with
  | some n => "Msg " ++ toString n ++ ": " ++ e.message
  | none => e.message

/-- The causes of a refusal that a change of configuration mends. -/
inductive Signature where
  | untypedArguments
  | missingTempTable
  | repeatedParameter
  deriving DecidableEq, Repr

/-- What an error is known for, by its number or its text. -/
def signature? (e : ServerError) : Option Signature :=
  if e.number? = some 8144 ∨ containsIgnoringCase e.message "too many arguments" then
    some .untypedArguments
  else if containsIgnoringCase e.message "invalid object name '#" then some .missingTempTable
  else if containsIgnoringCase e.message "used more than once in the batch" then
    some .repeatedParameter
  else none

/-- What a user can do about the refusal. -/
def guidance (e : ServerError) : String :=
  match e.signature? with
  | some .untypedArguments =>
      "a procedure is executed with arguments whose types cannot be inferred; " ++
        "declare those parameters with explicit types in configuration"
  | some .missingTempTable =>
      "a temp table used by the statement does not exist at build time; " ++
        "declare its CREATE TABLE statement in configuration"
  | some .repeatedParameter =>
      "a parameter is used more than once; declare its type explicitly in configuration"
  | none => "the server rejected the statement (" ++ e.text ++ ")"

end ServerError

end QueryShape
