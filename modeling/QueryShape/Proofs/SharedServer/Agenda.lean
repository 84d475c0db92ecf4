import QueryShape.Proofs.SharedServer.Basic
import QueryShape.Proofs.Traffic.Sandbox

/-!
The sandboxes of a unit as statements made one by one, so that others can come between them. The
main statement says that to go on statement by statement is to run the sandboxes.
-/

namespace QueryShape

open QueryShape.Dialogue
open QueryShape.Exchange

theorem Dialogue.outcome_execute {σ : Type} (connection : Nat) (sql : String) (w : World σ) :
    (execute connection sql).outcome w =
      let answer := w.server.execute connection sql w.state
      (answer.1,
        { w with
          state := answer.2
          exchanges := w.exchanges ++ [⟨execution connection sql, refusal? answer.1⟩] }) :=
  rfl

namespace Sandbox

/-- How far a sandbox has come: the tables that it has still to make, with their definitions, and
the names of those made. When none is left to make, those made are dropped. -/
structure Progress where
  pending : List (String × String)
  made : List String

namespace Progress

/-- Nothing is made yet. -/
def start (s : Sandbox) : Progress :=
  ⟨s.definitions.zip s.names, []⟩

/-- The next statement, and where each answer to it leads. A refused table is the last. -/
def next? : Progress → Option (String × (Answer Unit → Progress))
  | ⟨(definition, name) :: rest, made⟩ =>
      some (definition, fun
        | .ok _ => ⟨rest, made ++ [name]⟩
        | .error _ => ⟨[], made⟩)
  | ⟨[], name :: rest⟩ => some (dropStatement name, fun _ => ⟨[], rest⟩)
  | ⟨[], []⟩ => none

variable {σ : Type}

/-- What is left to do, without a break. -/
def finish (connection : Nat) (p : Progress) : Dialogue σ Unit := do
  let (made, _) ← create connection p.pending
  let _ ← cleanUp connection ((p.made ++ made).map dropStatement)

theorem finish_of_next?_eq_none {p : Progress} (connection : Nat) (h : p.next? = none) :
    (p.finish connection : Dialogue σ Unit) = pure () := by
  obtain ⟨pending, made⟩ := p
  cases pending with
  | cons step rest => cases h
  | nil =>
      cases made with
      | cons name rest => cases h
      | nil => rfl

theorem finish_of_next?_eq_some {p : Progress} {sql : String} {after : Answer Unit → Progress}
    (connection : Nat) (h : p.next? = some (sql, after)) :
    (p.finish connection : Dialogue σ Unit) =
      execute connection sql >>= fun answer => (after answer).finish connection := by
  obtain ⟨pending, made⟩ := p
  cases pending with
  | cons step rest =>
      obtain ⟨definition, name⟩ := step
      obtain ⟨rfl, rfl⟩ := Prod.mk.inj (Option.some.inj h)
      unfold finish
      simp only [create, bind_assoc]
      congr 1
      funext answer
      cases answer with
      | error e => simp [create]
      | ok u => simp
  | nil =>
      cases made with
      | nil => cases h
      | cons name rest =>
          obtain ⟨rfl, rfl⟩ := Prod.mk.inj (Option.some.inj h)
          unfold finish
          simp [create, cleanUp]

theorem ensures_finish (connection : Nat) (p : Progress) (n : Nat) :
    Dialogue.Ensures n (p.finish connection : Dialogue σ Unit) fun _ _ m => m = n := by
  refine (ensures_create connection p.pending n).bind ?_
  rintro made r k ⟨-, rfl⟩
  refine (ensures_cleanUp connection _ k).bind ?_
  rintro undone refusal m ⟨-, -, rfl⟩
  exact Dialogue.ensures_pure rfl

/-- Only tables of some names are made and dropped. -/
structure Confined (server : TableServer) (own : List Char → Prop) (p : Progress) : Prop where
  creates : ∀ x ∈ p.pending, server.effect x.1 = .creates x.2
  pending : ∀ x ∈ p.pending, own (server.keyOf x.2) ∧
    server.effect (dropStatement x.2) = .drops x.2
  made : ∀ name ∈ p.made, own (server.keyOf name) ∧
    server.effect (dropStatement name) = .drops name

variable {server : TableServer} {own : List Char → Prop} {p : Progress} {sql : String}
  {next : Answer Unit → Progress}

theorem Confined.touches (h : p.Confined server own) (hnext : p.next? = some (sql, next)) :
    ∃ name, server.Touches sql name ∧ own (server.keyOf name) := by
  obtain ⟨pending, made⟩ := p
  cases pending with
  | cons step rest =>
      obtain ⟨definition, name⟩ := step
      obtain ⟨rfl, rfl⟩ := Prod.mk.inj (Option.some.inj hnext)
      exact ⟨name, .inl (h.creates _ List.mem_cons_self), (h.pending _ List.mem_cons_self).1⟩
  | nil =>
      cases made with
      | nil => cases hnext
      | cons name rest =>
          obtain ⟨rfl, rfl⟩ := Prod.mk.inj (Option.some.inj hnext)
          have hname := h.made _ List.mem_cons_self
          exact ⟨name, .inr hname.2, hname.1⟩

theorem Confined.after (h : p.Confined server own) (hnext : p.next? = some (sql, next))
    (answer : Answer Unit) : (next answer).Confined server own := by
  obtain ⟨pending, made⟩ := p
  cases pending with
  | cons step rest =>
      obtain ⟨definition, name⟩ := step
      obtain ⟨rfl, rfl⟩ := Prod.mk.inj (Option.some.inj hnext)
      cases answer with
      | error e => exact ⟨List.forall_mem_nil _, List.forall_mem_nil _, h.made⟩
      | ok u =>
          refine ⟨(List.forall_mem_cons.1 h.creates).2, (List.forall_mem_cons.1 h.pending).2, ?_⟩
          intro other hother
          rcases List.mem_append.1 hother with hother | hother
          · exact h.made other hother
          · obtain rfl := List.mem_singleton.1 hother
            exact (List.forall_mem_cons.1 h.pending).1
  | nil =>
      cases made with
      | nil => cases hnext
      | cons name rest =>
          obtain ⟨rfl, rfl⟩ := Prod.mk.inj (Option.some.inj hnext)
          exact ⟨List.forall_mem_nil _, List.forall_mem_nil _, (List.forall_mem_cons.1 h.made).2⟩

end Progress

variable {σ : Type}

/-- Sandboxes one after the other, whatever becomes of each. -/
def inTurn (connection : Nat) : List Sandbox → Dialogue σ Unit
  | [] => pure ()
  | s :: rest => do
      let _ ← (s.run connection (pure () : Session σ Unit)).run
      inTurn connection rest

/-- How far the sandboxes of a unit have come, those that are over left out or not. -/
abbrev Agenda := List Progress

namespace Agenda

/-- The next statement of the first sandbox that is not over. -/
def next? : Agenda → Option (String × (Answer Unit → Agenda))
  | [] => none
  | p :: rest =>
      match p.next? with
      | some (sql, after) => some (sql, fun answer => after answer :: rest)
      | none => next? rest

/-- Makes all the statements that are left, one after the other. -/
def finish (connection : Nat) : Agenda → Dialogue σ Unit
  | [] => pure ()
  | p :: rest => do
      p.finish connection
      finish connection rest

theorem finish_cons (connection : Nat) (p : Progress) (rest : Agenda) :
    (finish connection (p :: rest) : Dialogue σ Unit) =
      p.finish connection >>= fun _ => finish connection rest :=
  rfl

theorem inTurn_eq_finish (connection : Nat) (sandboxes : List Sandbox) :
    (inTurn connection sandboxes : Dialogue σ Unit) =
      finish connection (sandboxes.map Progress.start) := by
  induction sandboxes with
  | nil => rfl
  | cons s rest ih =>
      unfold inTurn
      rw [ih]
      simp only [List.map_cons, finish, Progress.finish, Progress.start, Sandbox.run, undoing]
      simp only [ExceptT.run_mk, bind_assoc]
      congr 1
      funext created
      -- What was made is dropped, whether or not a table was refused.
      obtain ⟨made, refusal⟩ := created
      cases refusal <;> simp

theorem finish_of_next?_eq_none {agenda : Agenda} (connection : Nat) (h : agenda.next? = none) :
    (agenda.finish connection : Dialogue σ Unit) = pure () := by
  induction agenda with
  | nil => rfl
  | cons p rest ih =>
      unfold next? at h
      split at h
      · cases h
      · rename_i hp
        rw [finish_cons, p.finish_of_next?_eq_none connection hp, ih h, pure_bind]

theorem finish_of_next?_eq_some {agenda : Agenda} {sql : String} {after : Answer Unit → Agenda}
    (connection : Nat) (h : agenda.next? = some (sql, after)) :
    (agenda.finish connection : Dialogue σ Unit) =
      execute connection sql >>= fun answer => (after answer).finish connection := by
  induction agenda with
  | nil => cases h
  | cons p rest ih =>
      unfold next? at h
      split at h
      · rename_i hp
        obtain ⟨rfl, rfl⟩ := Prod.mk.inj (Option.some.inj h)
        rw [finish_cons, p.finish_of_next?_eq_some connection hp, bind_assoc]
        rfl
      · -- The first sandbox is over, and the statement is one of those after it.
        rename_i hp
        rw [finish_cons, p.finish_of_next?_eq_none connection hp, pure_bind, ih h]

theorem ensures_finish (connection : Nat) (agenda : Agenda) (n : Nat) :
    Dialogue.Ensures n (agenda.finish connection : Dialogue σ Unit) fun _ _ m => m = n := by
  induction agenda generalizing n with
  | nil => exact Dialogue.ensures_pure rfl
  | cons p rest ih =>
      apply (p.ensures_finish connection n).bind
      rintro made u k rfl
      exact ih k

variable {server : TableServer} {own : List Char → Prop} {agenda : Agenda} {sql : String}
  {next : Answer Unit → Agenda}

theorem touches_of_confined (h : ∀ p ∈ agenda, p.Confined server own)
    (hnext : agenda.next? = some (sql, next)) :
    ∃ name, server.Touches sql name ∧ own (server.keyOf name) := by
  induction agenda with
  | nil => cases hnext
  | cons p rest ih =>
      obtain ⟨hp, hrest⟩ := List.forall_mem_cons.1 h
      unfold next? at hnext
      split at hnext
      · rename_i hstep
        obtain ⟨rfl, -⟩ := Prod.mk.inj (Option.some.inj hnext)
        exact hp.touches hstep
      · exact ih hrest hnext

theorem confined_after (h : ∀ p ∈ agenda, p.Confined server own)
    (hnext : agenda.next? = some (sql, next)) (answer : Answer Unit) :
    ∀ p ∈ next answer, p.Confined server own := by
  induction agenda with
  | nil => cases hnext
  | cons p rest ih =>
      obtain ⟨hp, hrest⟩ := List.forall_mem_cons.1 h
      unfold next? at hnext
      split at hnext
      · rename_i hstep
        obtain ⟨-, rfl⟩ := Prod.mk.inj (Option.some.inj hnext)
        exact List.forall_mem_cons.2 ⟨hp.after hstep answer, hrest⟩
      · exact ih hrest hnext

theorem confined_start {sandboxes : List Sandbox} (hreads : ∀ b ∈ sandboxes, server.Reads b)
    (hown : ∀ b ∈ sandboxes, ∀ name ∈ b.names, own (server.keyOf name)) :
    ∀ p ∈ sandboxes.map Progress.start, p.Confined server own := by
  intro p hp
  obtain ⟨b, hb, rfl⟩ := List.mem_map.1 hp
  have hstep : ∀ x ∈ (Progress.start b).pending, ∃ t ∈ b.tables,
      x = (b.placed t.definition, b.placed t.name) := by
    intro x hx
    unfold Progress.start definitions names at hx
    rw [List.zip_map'] at hx
    obtain ⟨t, ht, rfl⟩ := List.mem_map.1 hx
    exact ⟨t, ht, rfl⟩
  refine ⟨?_, ?_, List.forall_mem_nil _⟩
  · intro x hx
    obtain ⟨t, ht, rfl⟩ := hstep x hx
    exact (hreads b hb t ht).1
  · intro x hx
    obtain ⟨t, ht, rfl⟩ := hstep x hx
    exact ⟨hown b hb _ (List.mem_map_of_mem ht), (hreads b hb t ht).2⟩

end Agenda

end Sandbox

end QueryShape
