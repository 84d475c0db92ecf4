import QueryShape.Proofs.GlobalNames
import QueryShape.Server.Session

/-!
A server with global temp tables, where a table of one session is in the way of every other. What a
statement about some tables comes to depends on those tables only.
-/

namespace QueryShape

/-- What a statement does to temp tables. -/
inductive TableEffect where
  | creates (name : String)
  | drops (name : String)
  | none
  deriving DecidableEq, Repr

/-- A server on which temp tables live, as it reads and answers statements. -/
structure TableServer where
  folding : CaseFolding
  effect : String → TableEffect
  /-- What speaks against a statement, whichever tables live. -/
  objection? : String → Option ServerError

namespace TableServer

/-- The keys of the tables that live. -/
abbrev Live := List (List Char)

variable (s : TableServer)

/-- What the server knows a table by. -/
def keyOf (name : String) : List Char :=
  s.folding.key name

/-- A table is refused while one of its name lives. -/
def execute (sql : String) (live : Live) : Answer Unit × Live :=
  match s.objection? sql with
  | some e => (.error e, live)
  | none =>
      match s.effect sql with
      | .creates name =>
          if s.keyOf name ∈ live then
            (.error ⟨some 2714, "There is already an object named '" ++ name ++
              "' in the database."⟩, live)
          else
            (.ok (), s.keyOf name :: live)
      | .drops name => (.ok (), live.filter (· ≠ s.keyOf name))
      | .none => (.ok (), live)

/-- The server as work on connections finds it. -/
def asServer : Server Live where
  connect := fun _ live => (.ok (), live)
  execute := fun _ => s.execute
  query := fun _ _ _ live => (.ok [], live)
  describe := fun _ _ live => (.ok [], live)

def world (live : Live) : World Live where
  server := s.asServer
  state := live

/-- A statement creates or drops the table of a name. -/
def Touches (sql name : String) : Prop :=
  s.effect sql = .creates name ∨ s.effect sql = .drops name

/-- The statements of a sandbox are read as what they are meant for. -/
def Reads (b : Sandbox) : Prop :=
  ∀ t ∈ b.tables, s.effect (b.placed t.definition) = .creates (b.placed t.name) ∧
    s.effect (Sandbox.dropStatement (b.placed t.name)) = .drops (b.placed t.name)

/-- The same ones of some tables live. -/
def Agree (own : List Char → Prop) (live live' : Live) : Prop :=
  ∀ k, own k → (k ∈ live ↔ k ∈ live')

variable {s} {own : List Char → Prop} {sql name : String} {live live' : Live}

/-- Whether a statement about one of some tables is granted depends on those tables only. -/
theorem execute_of_agree (h : Agree own live live') (htouches : s.Touches sql name)
    (hown : own (s.keyOf name)) :
    (s.execute sql live).1 = (s.execute sql live').1 ∧
      Agree own (s.execute sql live).2 (s.execute sql live').2 := by
  unfold execute
  cases s.objection? sql with
  | some e => exact ⟨rfl, h⟩
  | none =>
      rcases htouches with heffect | heffect
      · simp only [heffect]
        by_cases hlive : s.keyOf name ∈ live
        · have hlive' := (h _ hown).1 hlive
          rw [if_pos hlive, if_pos hlive']
          exact ⟨rfl, h⟩
        · have hlive' := mt (h _ hown).2 hlive
          rw [if_neg hlive, if_neg hlive']
          refine ⟨rfl, fun k hk => ?_⟩
          simp [h k hk]
      · simp only [heffect]
        refine ⟨trivial, fun k hk => ?_⟩
        simp [h k hk]

theorem agree_execute (h : Agree own live live') (htouches : s.Touches sql name)
    (hother : ¬ own (s.keyOf name)) : Agree own (s.execute sql live).2 live' := by
  have hne : ∀ k, own k → k ≠ s.keyOf name := by
    rintro k hk rfl
    exact hother hk
  unfold execute
  cases s.objection? sql with
  | some e => exact h
  | none =>
      rcases htouches with heffect | heffect
      · simp only [heffect]
        split
        · exact h
        · intro k hk
          simp [hne k hk, h k hk]
      · simp only [heffect]
        intro k hk
        simp [hne k hk, h k hk]

end TableServer

end QueryShape
