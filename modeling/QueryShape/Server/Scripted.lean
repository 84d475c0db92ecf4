import QueryShape.Server.Session
import QueryShape.Text.Case
import QueryShape.Unicode.Blank

namespace QueryShape.Scripted

open QueryShape.Text
open QueryShape.Unicode

/-- What a reply brings. -/
inductive Content where
  | nothing
  | failure (e : ServerError)
  | columns (cs : List ExecutedColumn)
  | rows (rs : List Row)

/-- A reply for the requests in which every needle occurs, up to a number of times. -/
structure Reply where
  needles : List String
  remaining : Option Nat
  content : Content

/-- The replies of a server and the global temp tables that live on it. -/
structure State where
  replies : List Reply
  /-- Whether a temp table is refused while one of its name lives. -/
  strict : Bool
  live : List String := []
  refusedConnections : List Nat

namespace Reply

/-- Whether a reply is for a request and not used up. -/
def answers (r : Reply) (request : List Char) : Bool :=
  r.needles.all (fun n => occursIn n.toList request) && r.remaining != some 0

end Reply

/-- Takes the first reply that answers a request. -/
def takeReply (request : List Char) : List Reply → Content × List Reply
  | [] => (.nothing, [])
  | r :: rest =>
      if r.answers request then
        (r.content, { r with remaining := r.remaining.map (· - 1) } :: rest)
      else
        let (content, rest) := takeReply request rest
        (content, r :: rest)

/-- The reply to a request. -/
def reply (sql : String) (parameters : List String) (s : State) : Content × State :=
  let request := "\n".intercalate (sql :: parameters)
  let (content, replies) := takeReply request.toList s.replies
  (content, { s with replies })

/-- What follows the first occurrence of a text. -/
def afterFirst? (needle : List Char) : List Char → Option (List Char)
  | [] => none
  | c :: rest =>
      if needle.isPrefixOf (c :: rest) then some ((c :: rest).drop needle.length)
      else afterFirst? needle rest

/-- The global temp table that a statement names after a phrase, in lower case. -/
def globalNameAfter? (phrase : String) (sql : String) : Option String :=
  match afterFirst? phrase.toList sql.toList with
  | none => none
  | some rest =>
      let name := (rest.dropWhile isBlank).takeWhile fun c => !isBlank c && c != '('
      if ['#', '#'].isPrefixOf name then some (lower (String.ofList name)) else none

/-- What a statement does to the temp tables that live. -/
def track (sql : String) (s : State) : Answer Unit × State :=
  if !s.strict then
    (.ok (), s)
  else
    match globalNameAfter? "CREATE TABLE" sql with
    | some name =>
        if s.live.contains name then
          (.error ⟨some 2714,
            "There is already an object named '" ++ name ++ "' in the database."⟩, s)
        else
          (.ok (), { s with live := name :: s.live })
    | none =>
        match globalNameAfter? "DROP TABLE" sql with
        | some name => (.ok (), { s with live := s.live.filter (· != name) })
        | none => (.ok (), s)

def execute (sql : String) (s : State) : Answer Unit × State :=
  match track sql s with
  | (.error e, s) => (.error e, s)
  | (.ok (), s) =>
      match reply sql [] s with
      | (.failure e, s) => (.error e, s)
      | (_, s) => (.ok (), s)

def query (sql : String) (parameters : List String) (s : State) : Answer (List Row) × State :=
  match reply sql parameters s with
  | (.failure e, s) => (.error e, s)
  | (.rows rs, s) => (.ok rs, s)
  | (_, s) => (.ok [], s)

def describe (sql : String) (s : State) : Answer (List ExecutedColumn) × State :=
  match reply sql [] s with
  | (.failure e, s) => (.error e, s)
  | (.columns cs, s) => (.ok cs, s)
  | (_, s) => (.ok [], s)

/-- Opens a connection, unless it is to be refused. -/
def connect (n : Nat) (s : State) : Answer Unit × State :=
  if s.refusedConnections.contains n then
    (.error ⟨none, "connection " ++ toString n ++ " refused"⟩, s)
  else
    (.ok (), s)

def server : Server State where
  connect := connect
  execute := fun _ => execute
  query := fun _ => query
  describe := fun _ => describe

def world (s : State) : World State where
  server
  state := s

end QueryShape.Scripted
