import QueryShape.Distinct
import QueryShape.Identifier
import QueryShape.Token.Placed

namespace QueryShape

open QueryShape.Identifier

/-- A variable of a script and the number of characters before its first use. -/
structure VariableUse where
  name : String
  offset : Nat
  deriving DecidableEq, Repr

namespace VariableUse

/-- What a variable is known by, up to case. -/
def key (u : VariableUse) : String :=
  parameterKey u.name

end VariableUse

/-- The variables that a script uses, in order of first use, and the keys of those it declares, in
increasing order. -/
structure ScriptVariables where
  references : List VariableUse
  declared : List String
  deriving DecidableEq, Repr

namespace ScriptVariables

/-- Whether a variable is declared, up to case. -/
def isDeclared (v : ScriptVariables) (name : String) : Bool :=
  v.declared.contains (parameterKey name)

def reference? (v : ScriptVariables) (name : String) : Option VariableUse :=
  v.references.find? fun u => u.key == parameterKey name

/-- The first uses of the variables that are not declared. -/
def undeclared (v : ScriptVariables) : List VariableUse :=
  v.references.filter fun u => !v.isDeclared u.name

end ScriptVariables

namespace VariableScan

/-- What a scan is in the middle of. -/
inductive Context where
  | statement
  /-- A list of declarations; the flag says that the next item starts here. -/
  | declaration (expectsName : Bool)
  /-- A procedure call; the flag says that nothing of it has been read. -/
  | call (atStart : Bool)
  deriving DecidableEq, Repr

/-- What is known of the text before a token: its statement and the parentheses that are open. -/
structure State where
  context : Context := .statement
  depth : Nat := 0
  deriving DecidableEq, Repr

/-- The words that begin a statement. -/
def statementWords : List String :=
  ["SELECT", "INSERT", "UPDATE", "DELETE", "MERGE", "SET", "IF", "WHILE", "BEGIN", "RETURN", "WITH",
    "CREATE", "DROP", "ALTER", "TRUNCATE", "PRINT", "THROW"]

/-- Whether a word begins a statement. A delimited word does not. -/
def startsStatement (w : Word) : Bool :=
  w.delimiter.isNone && statementWords.any w.reads

namespace State

/-- Whether a variable that comes next is declared. -/
def declares (s : State) : Bool :=
  s.context == .declaration true && s.depth == 0

/-- Whether a variable at this place, before an equals sign, names an argument of a call. -/
def namesArgument (s : State) : Bool :=
  s.context == .call false && s.depth == 0

/-- The name of the procedure has begun. -/
def leaveCallStart (s : State) : State :=
  if s.context = .call true then { s with context := .call false } else s

def afterVariable (s : State) : State :=
  if s.declares then { s with context := .declaration false } else s.leaveCallStart

def afterWord (s : State) (w : Word) : State :=
  if w.isVariable then s.afterVariable
  else if w.isKeyword "DECLARE" then ⟨.declaration true, 0⟩
  else if w.isKeyword "EXEC" || w.isKeyword "EXECUTE" then ⟨.call true, 0⟩
  else if s.depth == 0 && startsStatement w then { s with context := .statement }
  else s.leaveCallStart

def afterComma (s : State) : State :=
  match s.context with
  | .declaration _ => if s.depth = 0 then { s with context := .declaration true } else s
  | _ => s

/-- The state behind a token. -/
def after (s : State) : Token → State
  | .word w => s.afterWord w
  | .openParen => { s with depth := s.depth + 1 }
  | .closeParen => { s with depth := s.depth - 1 }
  | .comma => s.afterComma
  | .semicolon => {}
  | _ => s

end State

/-- A variable where it stands, and whether it is declared there. -/
structure Mention where
  use : VariableUse
  declared : Bool
  deriving DecidableEq, Repr

/-- The variable that a token mentions, unless it names an argument. -/
def mention? (s : State) (t : PlacedToken) (following : Option Token) : Option Mention :=
  match t.token with
  | .word w =>
      if w.isVariable && !(s.namesArgument && following == some .equals) then
        some ⟨⟨w.value, t.offset⟩, s.declares⟩
      else
        none
  | _ => none

/-- The variables of a text without blanks, all but the names of call arguments. -/
def mentions (s : State) : List PlacedToken → List Mention
  | [] => []
  | t :: rest =>
      (mention? s t (rest.head?.map (·.token))).toList ++ mentions (s.after t.token) rest

/-- The first uses in mentions, and the keys that are declared. -/
def summary (ms : List Mention) : ScriptVariables where
  references := firstOfEach VariableUse.key (ms.map (·.use))
  declared := orderedKeys (· ≤ ·) ((ms.filter (·.declared)).map (·.use.key))

end VariableScan

/-- The variables of a text, unless it cannot be read as tokens. -/
def scanVariables (sql : String) : Option ScriptVariables :=
  (placedTokens sql).map fun ts =>
    VariableScan.summary (VariableScan.mentions {} (ts.filter fun t => !t.token.isBlank))

end QueryShape
