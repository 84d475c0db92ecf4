import QueryShape.Server.Session
import QueryShape.TempTable.RunToken
import QueryShape.Unit

namespace QueryShape

open QueryShape.Dialogue

/-- Requests that undo something. All are made; the first refusal is kept. -/
def cleanUp {σ : Type} (connection : Nat) (undo : List String) :
    Dialogue σ (Option ServerError) := do
  let answers ← undo.mapM (execute connection)
  return answers.findSome? refusal?

/-- The end of work whose clean-up met a refusal, if any. An end without a value stays what it
is. -/
def settled {α : Type} (activity : Activity) :
    Except Failure α → Option ServerError → Except Failure α
  | .error failure, _ => .error failure
  | .ok _, some e => .error (.fault (.database activity e))
  | .ok a, none => .ok a

/-- Work followed by requests that undo what was set up for it, however the work ends. -/
def undoing {σ α : Type} (connection : Nat) (undo : List String) (activity : Activity)
    (work : Session σ α) : Session σ α :=
  ExceptT.mk do
    let result ← work.run
    let refusal ← cleanUp connection undo
    return settled activity result refusal

/-- How the text of a unit names its temp tables. -/
inductive SandboxScope where
  /-- As global ones, which other sessions see. -/
  | script
  /-- As they are written. -/
  | procedure
  deriving DecidableEq, Repr

/-- Temp tables that exist only while some work is done. -/
structure Sandbox where
  tables : List TempTable
  scope : SandboxScope
  token : RunToken

namespace Sandbox

variable {σ α : Type}

/-- A text of a temp table as the server gets it. -/
def placed (s : Sandbox) (text : String) : String :=
  match s.scope with
  | .script => s.token.globalize text
  | .procedure => text

/-- The definitions under the names that stand. -/
def definitions (s : Sandbox) : List String :=
  s.tables.map fun t => s.placed t.definition

/-- The names that stand. -/
def names (s : Sandbox) : List String :=
  s.tables.map fun t => s.placed t.name

/-- Drops a table if it is there. -/
def dropStatement (name : String) : String :=
  "IF OBJECT_ID('tempdb.." ++ name ++ "') IS NOT NULL DROP TABLE " ++ name

/-- Makes tables up to the first refusal. Gives the names of those made, and the name of the one
refused. -/
def create (connection : Nat) :
    List (String × String) → Dialogue σ (List String × Option (String × ServerError))
  | [] => pure ([], none)
  | (definition, name) :: rest => do
      match ← execute connection definition with
      | .error e => pure ([], some (name, e))
      | .ok _ =>
          let (made, refusal) ← create connection rest
          pure (name :: made, refusal)

/-- Makes the tables, does the work and drops the tables that were made. The work is not done if a
table is refused. -/
def run (s : Sandbox) (connection : Nat) (work : Session σ α) : Session σ α :=
  ExceptT.mk do
    let (made, refusal) ← create connection (s.definitions.zip s.names)
    match refusal with
    | none => (undoing connection (made.map dropStatement) .droppingTempTables work).run
    | some (name, e) =>
        let _ ← cleanUp connection (made.map dropStatement)
        pure (.error (.fault (.database (.creatingTempTable name) e)))

end Sandbox

/-- Takes a transaction back if there is one. -/
def rollback : String := "IF @@TRANCOUNT > 0 ROLLBACK TRANSACTION"

/-- Work inside a transaction that is never committed. -/
def rolledBack {σ α : Type} (connection : Nat) (work : Session σ α) : Session σ α := do
  Session.require .startingTransaction (execute connection "BEGIN TRANSACTION")
  undoing connection [rollback] .rollingBack work

end QueryShape
