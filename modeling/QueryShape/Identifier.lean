import QueryShape.Text.Case
import QueryShape.Text.Trim
import QueryShape.Unicode.Numeric

namespace QueryShape

open QueryShape.Text
open QueryShape.Unicode

namespace Identifier

/-- A name without the brackets and quotes around it. -/
def bare (cs : List Char) : List Char :=
  dropTrailing (fun c => c == ']' || c == '"')
    ((trimBlanks cs).dropWhile fun c => c == '[' || c == '"')

/-- An identifier without the blanks, brackets and double quotes around it. -/
def normalize (s : String) : String :=
  String.ofList (bare s.toList)

/-- Writes a character twice wherever it stands. -/
def doubled (q : Char) (cs : List Char) : List Char :=
  cs.flatMap fun c => if c = q then [c, c] else [c]

theorem doubled_cons (q c : Char) (cs : List Char) :
    doubled q (c :: cs) = (if c = q then [c, c] else [c]) ++ doubled q cs :=
  List.flatMap_cons

theorem doubled_eq_self {q : Char} {cs : List Char} (h : q ∉ cs) : doubled q cs = cs := by
  induction cs with
  | nil => rfl
  | cons c rest ih =>
      have hc : c ≠ q := fun heq => h (heq ▸ List.mem_cons_self)
      rw [doubled_cons, if_neg hc, ih fun hmem => h (List.mem_cons_of_mem c hmem)]
      rfl

/-- The identifier in brackets, a closing bracket inside written twice. -/
def quote (s : String) : String :=
  String.ofList ('[' :: doubled ']' s.toList ++ [']'])

/-- The name a value for a column is passed under: `@` and the characters of the column name that a
variable name can hold, the first one in lower case. -/
def parameterName (column : String) : String :=
  match column.toList.filter fun c => isAlphanumeric c || c == '_' with
  | [] => "@p"
  | c :: rest => String.ofList ('@' :: lowerChar c ++ rest)

/-- Parameters and variables of one key are the same one. -/
def parameterKey (name : String) : String :=
  lower (String.ofList (name.toList.dropWhile (· == '@')))

theorem toList_parameterKey (name : String) :
    (parameterKey name).toList = lowerFrom [] (name.toList.dropWhile (· == '@')) := by
  simp [parameterKey, lower]

end Identifier

structure QualifiedName where
  schema : String
  name : String
  deriving DecidableEq, Repr

namespace QualifiedName

/-- Both parts in brackets. -/
def full (n : QualifiedName) : String :=
  Identifier.quote n.schema ++ "." ++ Identifier.quote n.name

/-- Both parts as they are, the form that patterns are matched with. -/
def plain (n : QualifiedName) : String :=
  n.schema ++ "." ++ n.name

/-- The mark that ends the quotation a character stands in, after that character. -/
def quotationAfter : Option Char → Char → Option Char
  | some q, c => if c = q then none else some q
  | none, c => if c = '[' then some ']' else if c = '"' then some '"' else none

/-- Cuts at the first dot outside brackets and quotes. -/
def cutAtDot (closing : Option Char) : List Char → Option (List Char × List Char)
  | [] => none
  | c :: rest =>
      if closing = none ∧ c = '.' then
        some ([], rest)
      else
        (cutAtDot (quotationAfter closing c) rest).map fun (head, tail) => (c :: head, tail)

/-- Reads `schema.name` or `name`, either part possibly in brackets. -/
def parse (defaultSchema : String) (s : String) : QualifiedName :=
  let cs := trimBlanks s.toList
  match cutAtDot none cs with
  | some (schema, name) =>
      ⟨String.ofList (Identifier.bare schema), String.ofList (Identifier.bare name)⟩
  | none => ⟨defaultSchema, String.ofList (Identifier.bare cs)⟩

end QualifiedName

end QueryShape
