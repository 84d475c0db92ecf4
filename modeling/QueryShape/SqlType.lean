import QueryShape.Text.IgnoreCase

namespace QueryShape

open QueryShape.Text

/-- The types of values as they are sent. -/
inductive WireType where
  | bigInt | binary | bit | char | date | dateTime | dateTime2 | dateTimeOffset | decimal | float
  | image | int | money | nChar | nText | nVarChar | real | smallDateTime | smallInt | smallMoney
  | structured | text | time | timestamp | tinyInt | uniqueIdentifier | varBinary | varChar
  | variant | xml
  deriving DecidableEq, Repr

namespace WireType

/-- The name of a type in code that is generated. -/
def name : WireType → String
  | bigInt => "BigInt"
  | binary => "Binary"
  | bit => "Bit"
  | char => "Char"
  | date => "Date"
  | dateTime => "DateTime"
  | dateTime2 => "DateTime2"
  | dateTimeOffset => "DateTimeOffset"
  | decimal => "Decimal"
  | float => "Float"
  | image => "Image"
  | int => "Int"
  | money => "Money"
  | nChar => "NChar"
  | nText => "NText"
  | nVarChar => "NVarChar"
  | real => "Real"
  | smallDateTime => "SmallDateTime"
  | smallInt => "SmallInt"
  | smallMoney => "SmallMoney"
  | structured => "Structured"
  | text => "Text"
  | time => "Time"
  | timestamp => "Timestamp"
  | tinyInt => "TinyInt"
  | uniqueIdentifier => "UniqueIdentifier"
  | varBinary => "VarBinary"
  | varChar => "VarChar"
  | variant => "Variant"
  | xml => "Xml"

end WireType

/-- A system type whose values can be bound, with a literal that stands for a value of it. -/
structure SqlType where
  name : String
  wire : WireType
  buildValue : String
  deriving DecidableEq, Repr

namespace SqlType

/-- Spatial, hierarchical and CLR types are left out. -/
def all : List SqlType := [
  ⟨"bigint", .bigInt, "0"⟩,
  ⟨"binary", .binary, "0x"⟩,
  ⟨"bit", .bit, "0"⟩,
  ⟨"char", .char, "''"⟩,
  ⟨"date", .date, "'1900-01-01'"⟩,
  ⟨"datetime", .dateTime, "'1900-01-01'"⟩,
  ⟨"datetime2", .dateTime2, "'1900-01-01'"⟩,
  ⟨"datetimeoffset", .dateTimeOffset, "'1900-01-01'"⟩,
  ⟨"decimal", .decimal, "0"⟩,
  ⟨"float", .float, "0"⟩,
  ⟨"image", .image, "0x"⟩,
  ⟨"int", .int, "0"⟩,
  ⟨"money", .money, "0"⟩,
  ⟨"nchar", .nChar, "N''"⟩,
  ⟨"ntext", .nText, "N''"⟩,
  ⟨"numeric", .decimal, "0"⟩,
  ⟨"nvarchar", .nVarChar, "N''"⟩,
  ⟨"real", .real, "0"⟩,
  ⟨"rowversion", .timestamp, "0x"⟩,
  ⟨"smalldatetime", .smallDateTime, "'1900-01-01'"⟩,
  ⟨"smallint", .smallInt, "0"⟩,
  ⟨"smallmoney", .smallMoney, "0"⟩,
  ⟨"sql_variant", .variant, "0"⟩,
  ⟨"sysname", .nVarChar, "N''"⟩,
  ⟨"text", .text, "''"⟩,
  ⟨"time", .time, "'00:00:00'"⟩,
  ⟨"timestamp", .timestamp, "0x"⟩,
  ⟨"tinyint", .tinyInt, "0"⟩,
  ⟨"uniqueidentifier", .uniqueIdentifier, "'00000000-0000-0000-0000-000000000000'"⟩,
  ⟨"varbinary", .varBinary, "0x"⟩,
  ⟨"varchar", .varChar, "''"⟩,
  ⟨"xml", .xml, "N''"⟩]

def ofName? (name : String) : Option SqlType :=
  all.find? fun t => sameIgnoringCase t.name name

/-- Whether the catalog gives the length of the type in bytes of two-byte characters. -/
def isWide (t : SqlType) : Bool :=
  [.nChar, .nVarChar, .nText].contains t.wire

/-- Whether a declaration gives a length. -/
def hasLength (t : SqlType) : Bool :=
  [.binary, .varBinary, .char, .varChar, .nChar, .nVarChar].contains t.wire &&
    !sameIgnoringCase t.name "sysname"

/-- Whether a declaration gives precision and scale. -/
def hasPrecision (t : SqlType) : Bool :=
  t.wire == .decimal

/-- Whether a declaration gives fractional digits. -/
def hasFraction (t : SqlType) : Bool :=
  [.time, .dateTime2, .dateTimeOffset].contains t.wire

/-- The size in characters or bytes for a catalog length; a length of `-1` means no limit. -/
def adjustedSize (t : SqlType) (length : Int) : Int :=
  if t.isWide ∧ 0 < length then length / 2 else length

/-- The type as it is declared, such as `nvarchar(50)` or `decimal(18,2)`. -/
def declaration (t : SqlType) (size : Int) (precision scale : Nat) : String :=
  if t.hasLength then
    if size < 0 then t.name ++ "(max)" else t.name ++ "(" ++ toString (max size 1) ++ ")"
  else if t.hasPrecision then
    t.name ++ "(" ++ toString (max precision 1) ++ "," ++ toString scale ++ ")"
  else if t.hasFraction then
    t.name ++ "(" ++ toString scale ++ ")"
  else
    t.name

end SqlType

end QueryShape
