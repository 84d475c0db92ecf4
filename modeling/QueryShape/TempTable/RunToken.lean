import QueryShape.Unicode.Letter
import QueryShape.Unicode.WordPart

namespace QueryShape

open QueryShape.Unicode

/-- What tells the names of one run, and of one unit of it, from those of any other. -/
structure RunToken where
  run : String
  unit : Option Nat
  deriving DecidableEq, Repr

namespace RunToken

/-- A token of the letters, digits and underscores of a text. -/
def ofText (text : String) : RunToken :=
  match text.toList.filter fun c => c.isAlphanum || c == '_' with
  | [] => ⟨"rs", none⟩
  | cs => ⟨String.ofList cs, none⟩

/-- The last `width` hexadecimal digits of a number. -/
def hexDigits (width n : Nat) : List Char :=
  match width with
  | 0 => []
  | w + 1 => hexDigits w (n / 16) ++ [(n % 16).digitChar]

def ofSeed (seed : Nat) : RunToken :=
  ⟨"rs" ++ String.ofList (hexDigits 12 seed), none⟩

def forUnit (t : RunToken) (ordinal : Nat) : RunToken :=
  { t with unit := some ordinal }

/-- What the name of every placeholder variable begins with. -/
def placeholderStem (t : RunToken) : String :=
  "@" ++ t.run ++ "_"

/-- What stands between the hashes of a global temp table and an underscore. -/
def tableStem (t : RunToken) : String :=
  match t.unit with
  | some ordinal => t.run ++ "_" ++ toString ordinal
  | none => t.run

end RunToken

namespace TempTable

/-- A character that a name reaches across, so that no other name starts after it. Names of temp
tables follow Unicode 16; later letters neither start a name nor stand inside one. -/
def isNamePart (c : Char) : Bool :=
  isWordPart c || c == '#' || c == '@' || c == '$'

/-- Whether a text begins as the names of temp tables do. -/
def startsName : List Char → Bool
  | [] => false
  | c :: _ => isLetter c || c == '_'

/-- Whether the name of a temp table may begin behind a character. -/
def endsName : Option Char → Bool
  | none => true
  | some c => !isNamePart c

/-- Writes `insertion` after the hash of each name with a single one, in a text that stands after
`before`. -/
def insertInNames (insertion : List Char) (before : Option Char) : List Char → List Char
  | [] => []
  | c :: rest =>
      if c = '#' ∧ endsName before ∧ startsName rest then
        c :: (insertion ++ insertInNames insertion (some c) rest)
      else
        c :: insertInNames insertion (some c) rest

end TempTable

namespace RunToken

/-- The text with each session's own temp table, `#name`, replaced by the global one of the token,
`##stem_name`. Global temp tables are left as they are. -/
def globalize (t : RunToken) (sql : String) : String :=
  String.ofList
    (TempTable.insertInNames ('#' :: t.tableStem.toList ++ ['_']) none sql.toList)

end RunToken

end QueryShape
