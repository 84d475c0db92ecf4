import QueryShape.Identifier
import QueryShape.Token.Basic

namespace QueryShape.Token

open QueryShape.Identifier

/-- A text in quotes, those inside it doubled. -/
def quotedText (body : String) : String :=
  String.ofList ('\'' :: doubled '\'' body.toList ++ ['\''])

/-- A word in its marks. Marks inside it are left as they are. -/
def delimitedText (value : String) : Option Delimiter → String
  | none => value
  | some d => String.ofList (d.opening :: value.toList ++ [d.closing])

/-- The text a token is written back as. Blanks are written as one space, binary literals in their
`0x` form and inequality as `<>`; only strings get inner quotes doubled. -/
def text : Token → String
  | blank => " "
  | word w => delimitedText w.value w.delimiter
  | number digits long => if long then digits ++ "L" else digits
  | string body => quotedText body
  | nationalString body => "N" ++ quotedText body
  | escapedString body => "E'" ++ body ++ "'"
  | binary digits => "0x" ++ digits
  | dollarString tag body => "$" ++ tag ++ "$" ++ body ++ "$" ++ tag ++ "$"
  | placeholder t => t
  | openParen => "("
  | closeParen => ")"
  | comma => ","
  | period => "."
  | semicolon => ";"
  | equals => "="
  | hash => "#"
  | symbol t => t

end QueryShape.Token
