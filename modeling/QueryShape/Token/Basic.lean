import QueryShape.Text.Case
import QueryShape.Text.IgnoreCase

namespace QueryShape

open QueryShape.Text

/-- The marks around a delimited word. -/
inductive Delimiter where
  | bracket
  | doubleQuote
  deriving DecidableEq, Repr

namespace Delimiter

def opening : Delimiter → Char
  | bracket => '['
  | doubleQuote => '"'

def closing : Delimiter → Char
  | bracket => ']'
  | doubleQuote => '"'

end Delimiter

/-- An identifier, keyword or variable, without its delimiters. -/
structure Word where
  value : String
  delimiter : Option Delimiter := none
  deriving DecidableEq, Repr

namespace Word

/-- Whether the word is the given keyword, which is written in capitals. A delimited word is no
keyword. -/
def isKeyword (w : Word) (keyword : String) : Bool :=
  w.delimiter.isNone && upper w.value == keyword

/-- Whether the word reads like the given one, delimited or not. -/
def reads (w : Word) (text : String) : Bool :=
  sameIgnoringCase w.value text

/-- A local variable: an `@` that is not alone and not the first of two. -/
def isVariable (w : Word) : Bool :=
  match w.value.toList with
  | '@' :: c :: _ => c != '@'
  | _ => false

end Word

/-- A lexical element of T-SQL. Texts are kept without their quotes and with escapes resolved. -/
inductive Token where
  | blank
  | word (w : Word)
  | number (text : String) (long : Bool)
  | string (body : String)
  | nationalString (body : String)
  | escapedString (body : String)
  | binary (digits : String)
  | dollarString (tag : String) (body : String)
  | placeholder (text : String)
  | openParen
  | closeParen
  | comma
  | period
  | semicolon
  | equals
  | hash
  | symbol (text : String)
  deriving DecidableEq, Repr

namespace Token

def isBlank : Token → Bool
  | blank => true
  | _ => false

def isKeyword (keyword : String) : Token → Bool
  | word w => w.isKeyword keyword
  | _ => false

/-- Whether a token is a word that reads as a text. -/
def reads (text : String) : Token → Bool
  | word w => w.reads text
  | _ => false

end Token

/-- A token and the number of characters before it. -/
structure PlacedToken where
  token : Token
  offset : Nat
  deriving DecidableEq, Repr

end QueryShape
