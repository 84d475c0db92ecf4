import QueryShape.Procedure.Header
import QueryShape.Proofs.Variables.Lists

/-!
Procedure definitions as they are written, token by token, with blanks and comments wherever these
may stand, and the header that each of them gives.
-/

namespace QueryShape.ProcedureHeader

open QueryShape.Text
open QueryShape.VariableScan (commaSeparated depthAfter)

/-- A token and the blanks behind it. -/
def spaced (t : Token) (blanks : Nat) : List Token :=
  t :: List.replicate blanks .blank

/-- Whether tokens, behind some open parentheses, close those and no others, and none of them is
barred where it stands outside of parentheses. -/
def isBalanced (barred : Token → Bool) (depth : Nat) : List Token → Bool
  | [] => depth == 0
  | t :: rest =>
      !(depth == 0 && (t == .closeParen || barred t)) &&
        isBalanced barred (depthAfter depth t) rest

/-- A word and the number of blanks behind it. -/
structure WrittenWord where
  word : Word
  blanks : Nat := 0

/-- A word with the blanks behind it. -/
def WrittenWord.tokens (w : WrittenWord) : List Token :=
  spaced (.word w.word) w.blanks

/-- The name of a procedure or type as it is written. -/
inductive WrittenName where
  | plain (name : WrittenWord)
  | qualified (schema : WrittenWord) (blanks : Nat) (name : WrittenWord)

namespace WrittenName

def tokens : WrittenName → List Token
  | plain name => name.tokens
  | qualified schema blanks name => schema.tokens ++ (spaced .period blanks ++ name.tokens)

def words : WrittenName → List Word
  | plain name => [name.word]
  | qualified schema _ name => [schema.word, name.word]

/-- The object that a name stands for. -/
def object : WrittenName → QualifiedName
  | plain name => ⟨"dbo", name.word.value⟩
  | qualified schema _ name => ⟨schema.word.value, name.word.value⟩

/-- A name as the name of a type. -/
def typeText : WrittenName → String
  | plain name => upper name.word.value
  | qualified schema _ name => "[" ++ schema.word.value ++ "].[" ++ name.word.value ++ "]"

end WrittenName

/-- The parenthesized part of a type and the number of blanks behind it. -/
structure WrittenFacets where
  inside : List Token
  blanks : Nat := 0
  isBalanced : isBalanced (fun _ => false) 0 inside = true

namespace WrittenFacets

def tokens (f : WrittenFacets) : List Token :=
  .openParen :: (f.inside ++ spaced .closeParen f.blanks)

/-- Facets as they are read back, without blanks. -/
def text (f : WrittenFacets) : String :=
  "(" ++ String.join ((f.inside.filter fun t => !t.isBlank).map Token.text) ++ ")"

end WrittenFacets

/-- A type as it is written. None of its words begins a clause. -/
structure WrittenType where
  name : WrittenName
  facets : Option WrittenFacets := none
  goesOn : ∀ w ∈ name.words, endsClause w = false

namespace WrittenType

def tokens (t : WrittenType) : List Token :=
  t.name.tokens ++ t.facets.elim [] WrittenFacets.tokens

/-- A type as it is read back. -/
def text (t : WrittenType) : String :=
  t.name.typeText ++ t.facets.elim "" WrittenFacets.text

end WrittenType

/-- What may be said about a parameter behind its type. -/
inductive Flag where
  | readonly
  | output
  deriving DecidableEq

def Flag.spellings : Flag → List String
  | readonly => ["READONLY"]
  | output => ["OUTPUT", "OUT"]

/-- A flag in one of its spellings. -/
structure WrittenFlag where
  flag : Flag
  word : WrittenWord
  reads : ∃ text ∈ flag.spellings, word.word.reads text = true

/-- Whether a token outside of parentheses ends a default value. -/
def endsDefault (t : Token) : Bool :=
  t == .comma || tokenEndsClause t

/-- A default value with the blanks around it. -/
structure WrittenDefault where
  tokens : List Token
  isBalanced : isBalanced endsDefault 0 tokens = true

/-- A parameter behind blanks. At most one of its clauses is a default value, which may have flags
in front of it and behind it. -/
structure WrittenParameter where
  blanks : Nat := 0
  name : String
  delimiter : Option Delimiter := none
  blanksBehindName : Nat := 0
  asWord : Option WrittenWord := none
  type : WrittenType
  varying : Option WrittenWord := none
  flagsBefore : List WrittenFlag := []
  default : Option WrittenDefault := none
  flagsAfter : List WrittenFlag := []
  asWord_isKeyword : ∀ w ∈ asWord, w.word.isKeyword "AS" = true
  varying_reads : ∀ w ∈ varying, w.word.reads "VARYING" = true

def flagTokens (fs : List WrittenFlag) : List Token :=
  fs.flatMap (·.word.tokens)

namespace WrittenParameter

variable (p : WrittenParameter)

/-- What is written behind the type. -/
def clauseTokens : List Token :=
  p.varying.elim [] WrittenWord.tokens ++ (flagTokens p.flagsBefore ++
    (p.default.elim [] (fun d => .equals :: d.tokens) ++ flagTokens p.flagsAfter))

/-- The name of a parameter as one token. -/
def nameToken : Token :=
  .word ⟨"@" ++ p.name, p.delimiter⟩

def tokens : List Token :=
  List.replicate p.blanks .blank ++ (spaced p.nameToken p.blanksBehindName ++
    (p.asWord.elim [] WrittenWord.tokens ++ (p.type.tokens ++ p.clauseTokens)))

/-- The flags on both sides of the default value. -/
def flags : List Flag :=
  (p.flagsBefore ++ p.flagsAfter).map (·.flag)

def default? : Option String :=
  p.default.map fun d => defaultText d.tokens

def header : HeaderParameter where
  name := p.name
  dataType := p.type.text
  isOutput := p.flags.contains .output
  isReadonly := p.flags.contains .readonly
  default? := p.default?

end WrittenParameter

/-- The words that a definition begins with. -/
inductive WrittenVerb where
  | create (w : WrittenWord) (h : w.word.isKeyword "CREATE" = true)
  | createOrAlter (w middle last : WrittenWord) (h : w.word.isKeyword "CREATE" = true)
      (hmiddle : middle.word.isKeyword "OR" = true) (hlast : last.word.isKeyword "ALTER" = true)
  | alter (w : WrittenWord) (h : w.word.isKeyword "ALTER" = true)

def WrittenVerb.tokens : WrittenVerb → List Token
  | create w _ => w.tokens
  | createOrAlter w middle last _ _ _ => w.tokens ++ (middle.tokens ++ last.tokens)
  | alter w _ => w.tokens

/-- A procedure definition. Where the parameters stand in parentheses, these come with the number of
blanks behind each. The body begins with the word behind the parameters. -/
structure WrittenDefinition where
  blanks : Nat := 0
  verb : WrittenVerb
  kind : WrittenWord
  name : WrittenName
  parentheses : Option (Nat × Nat) := none
  parameters : List WrittenParameter
  start : Word
  body : List Token
  kind_isKeyword : kind.word.isKeyword "PROCEDURE" = true ∨ kind.word.reads "PROC" = true
  start_isKeyword : start.isKeyword "AS" = true ∨ start.isKeyword "WITH" = true

namespace WrittenDefinition

variable (d : WrittenDefinition)

def parameterTokens : List Token :=
  commaSeparated (d.parameters.map (·.tokens))

/-- The list of parameters, in parentheses or without them. -/
def listTokens : List Token :=
  match d.parentheses with
  | none => d.parameterTokens
  | some (inside, behind) =>
      spaced .openParen inside ++ (d.parameterTokens ++ spaced .closeParen behind)

/-- The parameters and the body. -/
def behindName : List Token :=
  d.listTokens ++ .word d.start :: d.body

def tokens : List Token :=
  List.replicate d.blanks .blank ++
    (d.verb.tokens ++ (d.kind.tokens ++ (d.name.tokens ++ d.behindName)))

def header : ProcedureHeader where
  name := d.name.object
  parameters := d.parameters.map (·.header)

end WrittenDefinition

end QueryShape.ProcedureHeader
