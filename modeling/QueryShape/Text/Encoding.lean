namespace QueryShape.Text

/-- The order of the two bytes of a unit. -/
inductive ByteOrder where
  | lowFirst
  | highFirst
  deriving DecidableEq, Repr

namespace ByteOrder

/-- The number of two bytes. -/
def unit : ByteOrder → UInt8 → UInt8 → Nat
  | lowFirst, a, b => b.toNat * 256 + a.toNat
  | highFirst, a, b => a.toNat * 256 + b.toNat

/-- The units of bytes, none if half a unit is left. -/
def units? (order : ByteOrder) : List UInt8 → Option (List Nat)
  | [] => some []
  | [_] => none
  | a :: b :: rest => (units? order rest).map (order.unit a b :: ·)

end ByteOrder

/-- Whether a unit is the first of a pair. -/
def isHighSurrogate (u : Nat) : Bool :=
  0xD800 ≤ u && u < 0xDC00

/-- Whether a unit is the second of a pair. -/
def isLowSurrogate (u : Nat) : Bool :=
  0xDC00 ≤ u && u < 0xE000

def pairedChar (high low : Nat) : Char :=
  Char.ofNat (0x10000 + (high - 0xD800) * 0x400 + (low - 0xDC00))

/-- The characters of UTF-16 units, none if a surrogate stands alone. -/
def ofUnits16? : List Nat → Option (List Char)
  | [] => some []
  | [u] =>
      if isHighSurrogate u || isLowSurrogate u then none else some [Char.ofNat u]
  | u :: v :: rest =>
      if isLowSurrogate u then none
      else if isHighSurrogate u then
        if isLowSurrogate v then (ofUnits16? rest).map (pairedChar u v :: ·) else none
      else (ofUnits16? (v :: rest)).map (Char.ofNat u :: ·)

/-- The code points of the bytes from 0x80 to 0x9F in Windows-1252. -/
def windowsPunctuation : List Nat :=
  [0x20AC, 0x81, 0x201A, 0x0192, 0x201E, 0x2026, 0x2020, 0x2021,
    0x02C6, 0x2030, 0x0160, 0x2039, 0x0152, 0x8D, 0x017D, 0x8F,
    0x90, 0x2018, 0x2019, 0x201C, 0x201D, 0x2022, 0x2013, 0x2014,
    0x02DC, 0x2122, 0x0161, 0x203A, 0x0153, 0x9D, 0x017E, 0x0178]

/-- The character of a byte in Windows-1252. Outside of the punctuation it is the code point. -/
def windowsChar (b : UInt8) : Char :=
  if b < 0x80 then Char.ofNat b.toNat
  else Char.ofNat (windowsPunctuation.getD (b.toNat - 0x80) b.toNat)

/-- The mark that a text may have at its start. -/
def byteOrderMark : Char := '\uFEFF'

/-- A text without the mark of its byte order. -/
def withoutMark : List Char → List Char
  | [] => []
  | c :: rest => if c = byteOrderMark then rest else c :: rest

/-- The characters of bytes that are not UTF-8. A mark at the start of the bytes decides how they
are read. -/
def otherChars? : List UInt8 → Option (List Char)
  | 0xEF :: 0xBB :: 0xBF :: _ => none
  | 0xFF :: 0xFE :: rest => (ByteOrder.lowFirst.units? rest).bind ofUnits16?
  | 0xFE :: 0xFF :: rest => (ByteOrder.highFirst.units? rest).bind ofUnits16?
  | bytes => some (bytes.map windowsChar)

/-- The text of bytes in UTF-8, or in UTF-16 or UTF-8 as a mark says, or else in Windows-1252. None
where the mark is wrong. -/
def decode? (bytes : ByteArray) : Option String :=
  (match String.fromUTF8? bytes with
    | some s => some s.toList
    | none => otherChars? bytes.toList).map fun cs => String.ofList (withoutMark cs)

end QueryShape.Text
