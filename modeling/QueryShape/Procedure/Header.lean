import QueryShape.KeyMap
import QueryShape.TempTable.CreatedNames
import QueryShape.Text.Trim
import QueryShape.Token.Printer

namespace QueryShape

open QueryShape.Text

/-- A parameter as the definition of its procedure writes it, the name without its `@`. -/
structure HeaderParameter where
  name : String
  dataType : String
  isOutput : Bool := false
  isReadonly : Bool := false
  default? : Option String := none
  deriving DecidableEq, Repr

/-- What a definition says about a procedure. -/
structure ProcedureHeader where
  name : QualifiedName
  parameters : List HeaderParameter
  deriving DecidableEq, Repr

namespace ProcedureHeader

/-- Takes a token that satisfies `p` and the blanks after it. -/
def take? (p : Token → Bool) : List Token → Option (List Token)
  | [] => none
  | t :: rest => if p t then some (afterBlanks rest) else none

theorem length_take?_lt {p : Token → Bool} {ts rest : List Token} (h : take? p ts = some rest) :
    rest.length < ts.length := by
  cases ts with
  | nil => simp [take?] at h
  | cons t tail =>
      simp only [take?] at h
      split at h
      · cases h
        exact Nat.lt_succ_of_le (length_afterBlanks_le tail)
      · simp at h

/-- A word that ends the type or default of a parameter. -/
def endsClause (w : Word) : Bool :=
  ["AS", "WITH", "BEGIN", "FOR"].any w.isKeyword || ["READONLY", "OUTPUT", "OUT"].any w.reads

/-- Whether a token begins a clause behind the parameters. -/
def tokenEndsClause : Token → Bool
  | .word w => endsClause w
  | _ => false

/-- Takes the tokens up to the parenthesis that closes the one before them, which is dropped. -/
def upToClose (depth : Nat) : List Token → List Token × List Token
  | [] => ([], [])
  | t :: rest =>
      if t = .closeParen ∧ depth = 0 then
        ([], rest)
      else
        let depth :=
          if t = .openParen then depth + 1 else if t = .closeParen then depth - 1 else depth
        let (inside, after) := upToClose depth rest
        (t :: inside, after)

theorem length_upToClose_le (depth : Nat) (ts : List Token) :
    (upToClose depth ts).2.length ≤ ts.length := by
  induction ts generalizing depth with
  | nil => exact Nat.le_refl _
  | cons t rest ih =>
      simp only [upToClose]
      split
      · exact Nat.le_succ _
      · exact Nat.le_trans (ih _) (Nat.le_succ _)

/-- A word that is part of a type name. -/
def typePart? : List Token → Option (String × List Token)
  | .word w :: rest => if endsClause w then none else some (w.value, rest)
  | _ => none

theorem length_typePart?_le {ts rest : List Token} {s : String}
    (h : typePart? ts = some (s, rest)) : rest.length ≤ ts.length := by
  unfold typePart? at h
  split at h
  · split at h
    · simp at h
    · cases h
      exact Nat.le_succ _
  · simp at h

/-- The name of a type: a built-in one in capitals, one with a schema in brackets. -/
def typeName? (ts : List Token) : Option (String × List Token) :=
  match typePart? ts with
  | none => none
  | some (first, rest) =>
      match take? (· == .period) (afterBlanks rest) with
      | none => some (upper first, afterBlanks rest)
      | some after =>
          match typePart? after with
          | none => some (first, after)
          | some (second, rest) => some ("[" ++ first ++ "].[" ++ second ++ "]", rest)

theorem length_typeName?_le {ts rest : List Token} {s : String}
    (h : typeName? ts = some (s, rest)) : rest.length ≤ ts.length := by
  unfold typeName? at h
  split at h
  · simp at h
  rename_i first after hfirst
  have h1 := length_typePart?_le hfirst
  have h2 := length_afterBlanks_le after
  split at h
  · cases h
    omega
  rename_i afterDot hdot
  have h3 := length_take?_lt hdot
  split at h
  · cases h
    omega
  rename_i second tail hsecond
  have h4 := length_typePart?_le hsecond
  cases h
  omega

/-- A type with its facets, without blanks inside the parentheses. -/
def dataType? (ts : List Token) : Option (String × List Token) :=
  match typeName? ts with
  | none => none
  | some (name, rest) =>
      match afterBlanks rest with
      | .openParen :: inside =>
          let facets := (upToClose 0 inside).1.filter fun t => !t.isBlank
          some (name ++ "(" ++ String.join (facets.map Token.text) ++ ")", (upToClose 0 inside).2)
      | rest => some (name, rest)

theorem length_dataType?_le {ts rest : List Token} {s : String}
    (h : dataType? ts = some (s, rest)) : rest.length ≤ ts.length := by
  unfold dataType? at h
  split at h
  · simp at h
  rename_i name after hname
  have h1 := length_typeName?_le hname
  have h2 := length_afterBlanks_le after
  split at h
  · rename_i inside hinside
    have h3 := length_upToClose_le 0 inside
    rw [hinside, List.length_cons] at h2
    cases h
    omega
  · cases h
    omega

/-- Takes the tokens of a default value: up to a comma, closing parenthesis or clause word outside
parentheses. -/
def defaultTokens (depth : Nat) : List Token → List Token × List Token
  | [] => ([], [])
  | t :: rest =>
      if depth = 0 ∧ (t = .closeParen ∨ t = .comma ∨ tokenEndsClause t) then
        ([], t :: rest)
      else
        let depth :=
          if t = .openParen then depth + 1 else if t = .closeParen then depth - 1 else depth
        let (taken, after) := defaultTokens depth rest
        (t :: taken, after)

theorem length_defaultTokens_le (depth : Nat) (ts : List Token) :
    (defaultTokens depth ts).2.length ≤ ts.length := by
  induction ts generalizing depth with
  | nil => exact Nat.le_refl _
  | cons t rest ih =>
      simp only [defaultTokens]
      split
      · exact Nat.le_refl _
      · exact Nat.le_trans (ih _) (Nat.le_succ _)

/-- Adds a token to a text in which a run of blanks is one space. -/
def addToken (text : List Char) (t : Token) : List Char :=
  if t.isBlank then
    if text = [] ∨ text.getLast? = some ' ' then text else text ++ [' ']
  else
    text ++ t.text.toList

/-- The text of the tokens, with one space for each run of blanks between them. -/
def defaultText (ts : List Token) : String :=
  String.ofList (dropTrailing Unicode.isBlank (ts.foldl addToken []))

/-- Reads what may follow the type of a parameter, in any order. -/
def clauses (p : HeaderParameter) (ts : List Token) : HeaderParameter × List Token :=
  match _h : take? (· == .equals) ts with
  | some rest =>
      clauses { p with default? := some (defaultText (defaultTokens 0 rest).1) }
        (afterBlanks (defaultTokens 0 rest).2)
  | none =>
  match _h : take? (·.reads "READONLY") ts with
  | some rest => clauses { p with isReadonly := true } rest
  | none =>
  match _h : take? (fun t => t.reads "OUTPUT" || t.reads "OUT") ts with
  | some rest => clauses { p with isOutput := true } rest
  | none =>
  match _h : take? (·.reads "VARYING") ts with
  | some rest => clauses p rest
  | none => (p, ts)
termination_by ts.length
decreasing_by
  · have h1 := length_take?_lt _h
    have h2 := length_defaultTokens_le 0 rest
    have h3 := length_afterBlanks_le (defaultTokens 0 rest).2
    omega
  all_goals exact length_take?_lt _h

theorem length_clauses_le (p : HeaderParameter) (ts : List Token) :
    (clauses p ts).2.length ≤ ts.length := by
  fun_induction clauses p ts with
  | case1 p ts rest h ih =>
      have h1 := length_take?_lt h
      have h2 := length_defaultTokens_le 0 rest
      have h3 := length_afterBlanks_le (defaultTokens 0 rest).2
      omega
  | case2 p ts _ rest h ih => exact Nat.le_trans ih (Nat.le_of_lt (length_take?_lt h))
  | case3 p ts _ _ rest h ih => exact Nat.le_trans ih (Nat.le_of_lt (length_take?_lt h))
  | case4 p ts _ _ _ rest h ih => exact Nat.le_trans ih (Nat.le_of_lt (length_take?_lt h))
  | case5 => exact Nat.le_refl _

/-- The name of a variable without its first sigil. -/
def variableName? : Token → Option String
  | .word w =>
      match w.value.toList with
      | '@' :: name => some (String.ofList name)
      | _ => none
  | _ => none

/-- A parameter that starts with the token `t`. Where none does, or it has no type, the token at
which reading stopped is skipped. -/
def parameter (t : Token) (rest : List Token) : Option HeaderParameter × List Token :=
  match variableName? t with
  | none => (none, rest)
  | some name =>
      let body := afterBlanks rest
      let body := (take? (·.isKeyword "AS") body).getD body
      match dataType? body with
      | none => (none, body.drop 1)
      | some (dataType, after) =>
          let (p, after) := clauses { name, dataType } (afterBlanks after)
          (some p, after)

theorem length_parameter_le (t : Token) (rest : List Token) :
    (parameter t rest).2.length ≤ rest.length := by
  unfold parameter
  split
  · exact Nat.le_refl _
  have h1 := length_afterBlanks_le rest
  have h2 : ((take? (·.isKeyword "AS") (afterBlanks rest)).getD (afterBlanks rest)).length ≤
      (afterBlanks rest).length := by
    cases htake : take? (·.isKeyword "AS") (afterBlanks rest) with
    | none => exact Nat.le_refl _
    | some after => exact Nat.le_of_lt (length_take?_lt htake)
  dsimp only
  split
  · rw [List.length_drop]
    omega
  · rename_i dataType after htype
    have h3 := length_dataType?_le htype
    have h4 := length_afterBlanks_le after
    exact Nat.le_trans (length_clauses_le _ _) (by omega)

/-- What follows a comma, if one comes first. -/
def afterComma (ts : List Token) : List Token :=
  (take? (· == .comma) ts).getD ts

theorem length_afterComma_le (ts : List Token) : (afterComma ts).length ≤ ts.length := by
  unfold afterComma
  cases htake : take? (· == .comma) ts with
  | none => exact Nat.le_refl _
  | some after => exact Nat.le_of_lt (length_take?_lt htake)

/-- The parameters up to `AS`, `WITH` or the parenthesis that closes the list. -/
def parametersFrom (parenthesized : Bool) (ts : List Token) : List HeaderParameter :=
  match ts with
  | [] => []
  | t :: rest =>
      if t.isKeyword "AS" || t.isKeyword "WITH" || (parenthesized && t == .closeParen) then
        []
      else
        (parameter t rest).1.toList ++
          parametersFrom parenthesized (afterComma (afterBlanks (parameter t rest).2))
termination_by ts.length
decreasing_by
  have h1 := length_parameter_le t rest
  have h2 := length_afterBlanks_le (parameter t rest).2
  have h3 := length_afterComma_le (afterBlanks (parameter t rest).2)
  simp only [List.length_cons]
  omega

/-- The parameters in parentheses or without them. -/
def parameterList (ts : List Token) : List HeaderParameter :=
  match take? (· == .openParen) ts with
  | some rest => parametersFrom true rest
  | none => parametersFrom false ts

/-- A name, a missing schema being `dbo`. -/
def objectName? : List Token → Option (QualifiedName × List Token)
  | .word first :: rest =>
      match take? (· == .period) (afterBlanks rest) with
      | none => some (⟨"dbo", first.value⟩, rest)
      | some (.word second :: rest) => some (⟨first.value, second.value⟩, rest)
      | some _ => none
  | _ => none

/-- Takes `CREATE`, `CREATE OR ALTER` or `ALTER`. -/
def afterVerb? (ts : List Token) : Option (List Token) :=
  match take? (·.isKeyword "CREATE") ts with
  | none => take? (·.isKeyword "ALTER") ts
  | some rest =>
      match take? (·.isKeyword "OR") rest with
      | none => some rest
      | some rest => take? (·.isKeyword "ALTER") rest

def ofTokens? (ts : List Token) : Option ProcedureHeader := do
  let ts ← afterVerb? (afterBlanks ts)
  let ts ← take? (fun t => t.isKeyword "PROCEDURE" || t.reads "PROC") ts
  let (name, ts) ← objectName? ts
  return { name, parameters := parameterList (afterBlanks ts) }

/-- The header of a procedure definition, unless that cannot be read. -/
def read? (definition : String) : Option ProcedureHeader :=
  (tokens definition).bind ofTokens?

end ProcedureHeader

/-- The defaults that a procedure definition gives its parameters, by parameter key. -/
def procedureDefaults (definition : String) : KeyMap String :=
  match ProcedureHeader.read? definition with
  | none => .empty
  | some header =>
      .ofList (header.parameters.filterMap fun p =>
        p.default?.map (Identifier.parameterKey p.name, ·))

end QueryShape
