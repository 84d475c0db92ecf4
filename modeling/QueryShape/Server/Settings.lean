import QueryShape.Text.IgnoreCase

namespace QueryShape

open QueryShape.Text

/-- How a server is reached. -/
structure ConnectionSettings where
  host : String := "localhost"
  portNumber : UInt16 := 1433
  user : String := "sa"
  password : String := ""
  database : String := "master"
  /-- Whether any certificate of the server is accepted. -/
  trustsCertificate : Bool := true
  deriving DecidableEq, Repr

namespace ConnectionSettings

/-- The number that decimal digits go on with. -/
def ofDigits? (value : Nat) : List Char → Option Nat
  | [] => some value
  | c :: rest => if c.isDigit then ofDigits? (value * 10 + (c.toNat - '0'.toNat)) rest else none

/-- A number of 16 bits in digits, which may follow a plus sign. -/
def portNumber? (s : String) : Option UInt16 :=
  let digits :=
    match s.toList with
    | '+' :: rest => rest
    | cs => cs
  if digits.isEmpty then none
  else (ofDigits? 0 digits).bind fun n => if n < 0x10000 then some n.toUInt16 else none

/-- A setting that is on unless the text says `false` or `0`. -/
def isOn (s : String) : Bool :=
  !sameIgnoringCase s "false" && s != "0"

/-- The settings in variables of the environment. A variable that is not set, or a number that
cannot be read, leaves the default. -/
def ofEnvironment (value? : String → Option String) : ConnectionSettings :=
  let defaults : ConnectionSettings := {}
  { host := (value? "SQL_SERVER_HOST").getD defaults.host
    portNumber := ((value? "SQL_SERVER_PORT").bind portNumber?).getD defaults.portNumber
    user := (value? "SQL_SERVER_USER").getD defaults.user
    password := (value? "SQL_SERVER_PASSWORD").getD defaults.password
    database := (value? "SQL_SERVER_DATABASE").getD defaults.database
    trustsCertificate :=
      ((value? "SQL_SERVER_TRUST_CERT").map isOn).getD defaults.trustsCertificate }

/-- Where to connect: the host, for which a dot stands for this computer, and the number. -/
def address (s : ConnectionSettings) : String :=
  (if s.host = "." then "localhost" else s.host) ++ ":" ++ toString s.portNumber

end ConnectionSettings

end QueryShape
