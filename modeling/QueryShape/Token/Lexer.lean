import QueryShape.Token.Basic
import QueryShape.Token.Quotation
import QueryShape.Unicode.Alphabetic
import QueryShape.Unicode.Blank
import QueryShape.Unicode.Numeric

namespace QueryShape.Token

open QueryShape.Unicode

/-- Whether an identifier may begin with a character. -/
def isIdentifierStart (c : Char) : Bool :=
  isAlphabetic c || c == '_' || c == '#' || c == '@'

/-- Whether an identifier may go on with a character. -/
def isIdentifierPart (c : Char) : Bool :=
  isAlphabetic c || c.isDigit || c == '@' || c == '$' || c == '#' || c == '_'

/-- A word that begins with `start`, whatever that is, and goes on as an identifier does. -/
def wordAfter (start rest : List Char) : Token × List Char :=
  (.word ⟨String.ofList (start ++ rest.takeWhile isIdentifierPart), none⟩,
    rest.dropWhile isIdentifierPart)

/-- What follows a line comment; the line feed belongs to the comment. -/
def afterLine (cs : List Char) : List Char :=
  (cs.dropWhile (· != '\n')).drop 1

/-- What follows a block comment, whose opening has been read. -/
def afterBlock (cs : List Char) : Option (List Char) :=
  (upTo ['*', '/'] cs).map Prod.snd

/-- An exponent, which counts only if a digit follows its optional sign. -/
def exponent : List Char → List Char × List Char
  | [] => ([], [])
  | e :: rest =>
      let sign := rest.take 1 |>.filter fun c => c == '+' || c == '-'
      let digits := rest.drop sign.length
      if (e = 'e' ∨ e = 'E') ∧ (digits.takeWhile Char.isDigit) ≠ [] then
        (e :: sign ++ digits.takeWhile Char.isDigit, digits.dropWhile Char.isDigit)
      else
        ([], e :: rest)

/-- A decimal number whose digits and point have been read. -/
def numberAfter (mantissa rest : List Char) : Token × List Char :=
  let (power, tail) := exponent rest
  match tail with
  | 'L' :: after => (.number (String.ofList (mantissa ++ power)) true, after)
  | after => (.number (String.ofList (mantissa ++ power)) false, after)

/-- The number or binary value at the front of a text. -/
def numeral (cs : List Char) : Token × List Char :=
  let whole := cs.takeWhile Char.isDigit
  match cs.dropWhile Char.isDigit with
  | 'x' :: rest =>
      if whole = ['0'] then
        (.binary (String.ofList (rest.takeWhile isHexDigit)), rest.dropWhile isHexDigit)
      else
        (.number (String.ofList whole) false, 'x' :: rest)
  | '.' :: rest =>
      let decimals := rest.takeWhile Char.isDigit
      if whole = [] ∧ decimals = [] then
        (.period, rest)
      else
        numberAfter (whole ++ '.' :: decimals) (rest.dropWhile Char.isDigit)
  | rest => numberAfter whole rest

/-- The token at a number sign. Whatever follows it is taken into the name, a space apart. -/
def atHash : List Char → Token × List Char
  | [] => (.hash, [])
  | '-' :: rest => (.symbol "#-", rest)
  | '>' :: '>' :: rest => (.symbol "#>>", rest)
  | '>' :: rest => (.symbol "#>", rest)
  | ' ' :: rest => (.hash, ' ' :: rest)
  | c :: rest => wordAfter ['#', c] rest

/-- What two at signs begin. -/
def atTwoAts : List Char → Token × List Char
  | [] => (.symbol "@@", [])
  | ' ' :: rest => (.symbol "@@", ' ' :: rest)
  | c :: rest => wordAfter ['@', '@', c] rest

/-- The token at a commercial at. Whatever follows it is taken into the name, a space or quote
apart. -/
def atAt : List Char → Token × List Char
  | [] => (.symbol "@", [])
  | '>' :: rest => (.symbol "@>", rest)
  | '?' :: rest => (.symbol "@?", rest)
  | '@' :: rest => atTwoAts rest
  | c :: rest =>
      if c = ' ' ∨ c = '\'' ∨ c = '"' ∨ c = '\x60' then (.symbol "@", c :: rest)
      else wordAfter ['@', c] rest

/-- The string or placeholder that a dollar sign begins. -/
def atDollar (rest : List Char) : Option (Token × List Char) :=
  let isTag := fun c => isAlphanumeric c || c == '_'
  let tag := rest.takeWhile isTag
  match rest.dropWhile isTag with
  | '$' :: after =>
      (upTo ('$' :: tag ++ ['$']) after).map fun (body, tail) =>
        (.dollarString (String.ofList tag) (String.ofList body), tail)
  | after => some (.placeholder (String.ofList ('$' :: tag)), after)

/-- Operators of more than one character, the longer ones first. -/
def operators : List String :=
  ["!~~*", "->>", "||/", "<=>", "!~*", "!~~", "~~*", "->", "||", "|/", "=>", "==", "!=", "!!", "!~",
    "<=", "<>", "<<", "<@", ">=", ">>", "::", ":=", "&&", "^@", "~*", "~~"]

/-- An operator as it is written back. -/
def operatorText (text : String) : String :=
  if text = "!=" then "<>" else text

/-- The operator at the front of a text, or the character there. -/
def operator (c : Char) (rest : List Char) : Token × List Char :=
  match operators.find? fun o => o.toList.isPrefixOf (c :: rest) with
  | some o => (.symbol (operatorText o), (c :: rest).drop o.length)
  | none =>
      let token :=
        if c = '(' then openParen
        else if c = ')' then closeParen
        else if c = ',' then comma
        else if c = ';' then semicolon
        else if c = '=' then equals
        else symbol (String.singleton c)
      (token, rest)

/-- A letter that changes the meaning of a quote right after it. -/
inductive QuoteMarker where
  | national
  | binary
  | escaped

/-- What a letter in front of a quote makes of the string. -/
def quoteMarker? (c : Char) : Option QuoteMarker :=
  if c = 'n' ∨ c = 'N' then some .national
  else if c = 'x' ∨ c = 'X' then some .binary
  else if c = 'e' ∨ c = 'E' then some .escaped
  else none

/-- The string behind a letter and a quote. -/
def markedString (cs : List Char) : QuoteMarker → Option (Token × List Char)
  | .national =>
      (controlQuoted cs).map fun (body, tail) => (.nationalString (String.ofList body), tail)
  | .binary =>
      (controlQuoted cs).map fun (body, tail) => (.binary (String.ofList body), tail)
  | .escaped =>
      (escapedQuoted cs).map fun (body, tail) => (.escapedString (String.ofList body), tail)

def delimitedWord (d : Delimiter) (cs : List Char) : Option (Token × List Char) :=
  (quoted d.closing cs).map fun (value, tail) => (.word ⟨String.ofList value, some d⟩, tail)

/-- What a letter begins: a marked string or a word. -/
def atLetter (c : Char) (rest : List Char) : Option (Token × List Char) :=
  match quoteMarker? c, rest with
  | some marker, '\'' :: body => markedString body marker
  | _, _ => some (wordAfter [c] rest)

/-- The word, placeholder or operator at the front of a text. -/
def nameOrOperator (c : Char) (rest : List Char) : Option (Token × List Char) :=
  if c = '#' then some (atHash rest)
  else if c = '@' then some (atAt rest)
  else if c = '$' then atDollar rest
  else if c = '?' then
    some (.placeholder (String.ofList ('?' :: rest.takeWhile isNumeric)), rest.dropWhile isNumeric)
  else if isIdentifierStart c then atLetter c rest
  else some (operator c rest)

/-- Anything but blanks and comments. -/
def visible (c : Char) (rest : List Char) : Option (Token × List Char) :=
  if c = '\'' then
    (quoted '\'' rest).map fun (body, tail) => (.string (String.ofList body), tail)
  else if c = '[' then delimitedWord .bracket rest
  else if c = '"' then delimitedWord .doubleQuote rest
  else if c.isDigit || c = '.' then some (numeral (c :: rest))
  else nameOrOperator c rest

/-- The first token of a text, and what follows it. None where a literal, comment or delimited
identifier is not closed or an escape stands for no character. -/
def next (c : Char) (rest : List Char) : Option (Token × List Char) :=
  if Unicode.isBlank c then
    some (.blank, if c = '\r' ∧ rest.head? = some '\n' then rest.drop 1 else rest)
  else if c = '-' ∧ rest.head? = some '-' then some (.blank, afterLine (rest.drop 1))
  else if c = '/' ∧ rest.head? = some '*' then (afterBlock (rest.drop 1)).map (.blank, ·)
  else visible c rest

end QueryShape.Token
