import QueryShape.Fault
import QueryShape.Server.Row

namespace QueryShape

/-- A column of a result that was run. -/
structure ExecutedColumn where
  name : String
  typeName : String
  deriving DecidableEq, Repr

/-- What the server answers: a value or an error. -/
abbrev Answer (α : Type) := Except ServerError α

/-- A server with states `σ`. Each request comes with the number of its connection and is answered
in a state, which it may change. -/
structure Server (σ : Type) where
  connect : Nat → σ → Answer Unit × σ
  execute : Nat → String → σ → Answer Unit × σ
  query : Nat → String → List String → σ → Answer (List Row) × σ
  describe : Nat → String → σ → Answer (List ExecutedColumn) × σ

/-- The ways to call the server. -/
inductive CallKind where
  | connect
  | execute
  | query
  | describe
  deriving DecidableEq, Repr

/-- A call on a connection. -/
structure Call where
  connection : Nat
  kind : CallKind
  sql : String
  parameters : List String
  deriving DecidableEq, Repr

/-- The error of an answer. -/
def refusal? {α : Type} : Answer α → Option ServerError
  | .ok _ => none
  | .error e => some e

/-- A request with the refusal it met, or none if it was granted. -/
structure Exchange where
  call : Call
  refusal? : Option ServerError
  deriving DecidableEq, Repr

/-- A server with the requests made so far. Connections are numbered as they are asked for; the
connection that a run starts with is number 0. -/
structure World (σ : Type) where
  server : Server σ
  state : σ
  exchanges : List Exchange := []
  opened : Nat := 0

def World.calls {σ : Type} (w : World σ) : List Call :=
  w.exchanges.map (·.call)

/-- Work that asks a server. -/
abbrev Dialogue (σ α : Type) := StateM (World σ) α

namespace Dialogue

variable {σ α : Type}

/-- What a dialogue comes to in a world: its value and the world after it. -/
def outcome (x : Dialogue σ α) (w : World σ) : α × World σ :=
  (x.run w).run

/-- Makes a request and takes the answer of the server. -/
def call (made : Call) (answer : Server σ → σ → Answer α × σ) : Dialogue σ (Answer α) :=
  fun w =>
    let (a, state) := answer w.server w.state
    (a, { w with state, exchanges := w.exchanges ++ [⟨made, refusal? a⟩] })

def execute (connection : Nat) (sql : String) : Dialogue σ (Answer Unit) :=
  call ⟨connection, .execute, sql, []⟩ (·.execute connection sql)

def query (connection : Nat) (sql : String) (parameters : List String) :
    Dialogue σ (Answer (List Row)) :=
  call ⟨connection, .query, sql, parameters⟩ (·.query connection sql parameters)

/-- Asks for the columns of the first result of a text. -/
def describe (connection : Nat) (sql : String) : Dialogue σ (Answer (List ExecutedColumn)) :=
  call ⟨connection, .describe, sql, []⟩ (·.describe connection sql)

/-- Opens a connection and gives its number. A number is used up even if the connection is refused.
-/
def connect : Dialogue σ (Answer Nat) := do
  let n := (← get).opened + 1
  modify fun w => { w with opened := n }
  let answer ← call ⟨n, .connect, "", []⟩ (·.connect n)
  return answer.map fun _ => n

end Dialogue

/-- How work breaks off. -/
inductive Failure where
  | fault (f : Fault)
  | refused (e : ServerError)
  | message (text : String)
  /-- The work was broken off without an error. -/
  | unwound
  deriving DecidableEq, Repr

/-- Work with the server that may fail. -/
abbrev Session (σ α : Type) := ExceptT Failure (StateM (World σ)) α

namespace Session

variable {σ α : Type}

/-- How work ends, and in which world. -/
def outcome (x : Session σ α) (w : World σ) : Except Failure α × World σ :=
  Dialogue.outcome x.run w

/-- Breaks off with a fault. -/
def fail (f : Fault) : Session σ α :=
  throw (.fault f)

/-- Checked work that asks nothing. -/
def ofExcept : Except Fault α → Session σ α
  | .ok a => pure a
  | .error f => fail f

/-- A request whose refusal is a fault of the activity it is made for. -/
def require (activity : Activity) (request : Dialogue σ (Answer α)) : Session σ α := do
  match ← request with
  | .ok a => pure a
  | .error e => fail (.database activity e)

end Session

end QueryShape
