import QueryShape.Proofs.Traffic.Basic
import QueryShape.TempTable.Sandbox

namespace QueryShape

open QueryShape.Dialogue
open QueryShape.Exchange

variable {σ α β : Type}

def Exchange.granted (connection : Nat) (sql : String) : Exchange :=
  ⟨execution connection sql, none⟩

theorem ensures_mapM_execute (connection : Nat) (undo : List String) (n : Nat) :
    Dialogue.Ensures n (undo.mapM (execute connection) : Dialogue σ (List (Answer Unit)))
      fun made answers m =>
        made.map (·.call) = undo.map (execution connection) ∧
          made.map (·.refusal?) = answers.map refusal? ∧ m = n := by
  induction undo with
  | nil => exact Dialogue.ensures_pure ⟨rfl, rfl, rfl⟩
  | cons sql rest ih =>
      rw [List.mapM_cons]
      refine (ensures_execute connection sql).bind ?_
      rintro _ a k ⟨rfl, rfl⟩
      refine ih.bind ?_
      rintro made answers m ⟨hcalls, hrefusals, rfl⟩
      refine Dialogue.ensures_pure ⟨?_, ?_, rfl⟩
      · simp [hcalls]
      · simp [hrefusals]

theorem ensures_cleanUp (connection : Nat) (undo : List String) (n : Nat) :
    Dialogue.Ensures n (cleanUp connection undo : Dialogue σ (Option ServerError))
      fun made refusal m =>
        made.map (·.call) = undo.map (execution connection) ∧
          refusal = made.findSome? (·.refusal?) ∧ m = n := by
  refine (ensures_mapM_execute connection undo n).bind ?_
  rintro made answers m ⟨hcalls, hrefusals, rfl⟩
  refine Dialogue.ensures_pure ⟨?_, ?_, rfl⟩
  · rw [List.append_nil, hcalls]
  · have hfind := congrArg (List.findSome? id) hrefusals
    simpa [List.findSome?_map] using hfind.symm

theorem undoing_outcome (connection : Nat) (undo : List String) (activity : Activity)
    (work : Session σ α) (w : World σ) :
    (undoing connection undo activity work).outcome w =
      let ended := work.outcome w
      let cleaned := (cleanUp connection undo).outcome ended.2
      (settled activity ended.1 cleaned.1, cleaned.2) :=
  rfl

theorem ensures_undoing {connection n : Nat} {undo : List String} {activity : Activity}
    {work : Session σ α} {P : List Exchange → Nat → Prop}
    (hwork : work.Ensures n fun made _ m => P made m) :
    (undoing connection undo activity work).Ensures n fun made _ m =>
      ∃ worked undone, made = worked ++ undone ∧ P worked m ∧
        undone.map (·.call) = undo.map (execution connection) := by
  refine Dialogue.Ensures.bind hwork fun worked r k hP => ?_
  refine (ensures_cleanUp connection undo k).bind ?_
  rintro undone refusal m ⟨hcalls, -, rfl⟩
  refine Dialogue.ensures_pure ⟨worked, undone, ?_, hP, hcalls⟩
  rw [List.append_nil]

namespace Sandbox

/-- The exchanges in which tables with definitions and names are made, up to the first refusal, with
the names of those made and of the one refused. -/
inductive Creation (connection : Nat) : List (String × String) → List Exchange →
    List String × Option (String × ServerError) → Prop
  | granted (steps : List (String × String)) :
      Creation connection steps (steps.map fun t => Exchange.granted connection t.1)
        (steps.map (·.2), none)
  | refused (made : List (String × String)) (definition name : String)
      (rest : List (String × String)) (e : ServerError) :
      Creation connection (made ++ (definition, name) :: rest)
        (made.map (fun t => Exchange.granted connection t.1) ++
          [⟨execution connection definition, some e⟩])
        (made.map (·.2), some (name, e))

theorem Creation.cons {connection : Nat} {steps : List (String × String)} {made : List Exchange}
    {r : List String × Option (String × ServerError)} (definition name : String)
    (h : Creation connection steps made r) :
    Creation connection ((definition, name) :: steps)
      (Exchange.granted connection definition :: made) (name :: r.1, r.2) := by
  cases h with
  | granted => exact .granted ((definition, name) :: steps)
  | refused made' definition' name' rest e =>
      exact .refused ((definition, name) :: made') definition' name' rest e

theorem ensures_create (connection : Nat) (steps : List (String × String)) (n : Nat) :
    Dialogue.Ensures n
      (create connection steps : Dialogue σ (List String × Option (String × ServerError)))
      fun made r m => Creation connection steps made r ∧ m = n := by
  induction steps with
  | nil => exact Dialogue.ensures_pure ⟨.granted [], rfl⟩
  | cons step rest ih =>
      obtain ⟨definition, name⟩ := step
      refine (ensures_execute connection definition).bind ?_
      rintro _ a k ⟨rfl, rfl⟩
      cases a with
      | error e => exact Dialogue.ensures_pure ⟨.refused [] definition name rest e, rfl⟩
      | ok u =>
          refine ih.bind ?_
          rintro made r m ⟨hcreation, rfl⟩
          refine Dialogue.ensures_pure ⟨?_, rfl⟩
          rw [List.append_nil]
          exact hcreation.cons definition name

theorem run_outcome_of_granted {s : Sandbox} {connection : Nat} {w v : World σ}
    {made : List String}
    (h : (create connection (s.definitions.zip s.names)).outcome w = ((made, none), v))
    (work : Session σ α) :
    (s.run connection work).outcome w =
      (undoing connection (made.map dropStatement) .droppingTempTables work).outcome v := by
  change Dialogue.outcome (create connection (s.definitions.zip s.names) >>= _) w = _
  rw [outcome_bind, h]
  rfl

theorem run_outcome_of_refused {s : Sandbox} {connection : Nat} {w v : World σ}
    {made : List String} {name : String} {e : ServerError}
    (h : (create connection (s.definitions.zip s.names)).outcome w = ((made, some (name, e)), v))
    (work : Session σ α) :
    (s.run connection work).outcome w =
      (.error (.fault (.database (.creatingTempTable name) e)),
        ((cleanUp connection (made.map dropStatement)).outcome v).2) := by
  change Dialogue.outcome (create connection (s.definitions.zip s.names) >>= _) w = _
  rw [outcome_bind, h]
  rfl

theorem length_names (s : Sandbox) : s.names.length = s.definitions.length := by
  simp [names, definitions]

theorem map_fst_steps (s : Sandbox) :
    (s.definitions.zip s.names).map (·.1) = s.definitions :=
  List.map_fst_zip (Nat.le_of_eq s.length_names.symm)

theorem map_snd_steps (s : Sandbox) : (s.definitions.zip s.names).map (·.2) = s.names :=
  List.map_snd_zip (Nat.le_of_eq s.length_names)

/-- Tables are made in order up to the first refusal. If none is refused the work is done once, in
the world that the creations leave, and then every table is dropped; else the work plays no part and
the tables that were made are dropped. Drops are made in the order of creation, each once, past
refusals, and nothing comes after them. A refused creation decides the end, or else an end of the
work without a value, or else the first refused drop. -/
theorem run_sets_up_works_and_undoes (s : Sandbox) (connection : Nat) (w : World σ) :
    (∃ v : World σ,
      v.exchanges = w.exchanges ++ s.definitions.map (Exchange.granted connection) ∧
      ∀ {α : Type} (work : Session σ α), ∃ dropped : List Exchange,
        ((s.run connection work).outcome w).2.exchanges =
          (work.outcome v).2.exchanges ++ dropped ∧
        dropped.map (·.call) =
          s.names.map (fun name => execution connection (dropStatement name)) ∧
        ((s.run connection work).outcome w).1 =
          match (work.outcome v).1, dropped.findSome? (·.refusal?) with
          | .error failure, _ => .error failure
          | .ok _, some e => .error (.fault (.database .droppingTempTables e))
          | .ok a, none => .ok a) ∨
    (∃ (made : List (String × String)) (definition name : String) (rest : List (String × String))
        (e : ServerError) (dropped : List Exchange) (v : World σ),
      s.definitions.zip s.names = made ++ (definition, name) :: rest ∧
      v.exchanges = w.exchanges ++ made.map (fun t => Exchange.granted connection t.1) ++
        ⟨execution connection definition, some e⟩ :: dropped ∧
      dropped.map (·.call) =
        made.map (fun t => execution connection (dropStatement t.2)) ∧
      ∀ {α : Type} (work : Session σ α), (s.run connection work).outcome w =
        (.error (.fault (.database (.creatingTempTable name) e)), v)) := by
  obtain ⟨created, hcreated, hcreation, -⟩ :=
    ensures_create connection (s.definitions.zip s.names) w.opened w rfl
  rcases hends : (create connection (s.definitions.zip s.names)).outcome w with ⟨r, v⟩
  rw [hends] at hcreation hcreated
  -- What the creations end in settles which of the two sides holds, before any work is given.
  generalize hsteps : s.definitions.zip s.names = steps at hcreation
  cases hcreation with
  | granted =>
      left
      refine ⟨v, ?_, fun work => ?_⟩
      · rw [hcreated, ← s.map_fst_steps, hsteps, List.map_map]
        rfl
      · obtain ⟨dropped, hlog, hcalls, hrefusal, -⟩ :=
          ensures_cleanUp connection ((steps.map (·.2)).map dropStatement) _
            (work.outcome v).2 rfl
        rw [run_outcome_of_granted hends work, undoing_outcome]
        refine ⟨dropped, hlog, ?_, ?_⟩
        · rw [hcalls, ← hsteps, map_snd_steps, List.map_map]
          rfl
        · rw [← hrefusal]
          rfl
  | refused made definition name rest e =>
      right
      obtain ⟨dropped, hlog, hcalls, -, -⟩ :=
        ensures_cleanUp connection ((made.map (·.2)).map dropStatement) _ v rfl
      refine ⟨made, definition, name, rest, e, dropped, _, rfl, ?_, ?_,
        run_outcome_of_refused hends⟩
      · rw [hlog, hcreated]
        simp
      · rw [hcalls, List.map_map, List.map_map]
        rfl

/-- The exchanges of work in a sandbox: tables are made, work is done and the tables are dropped, or
a table is refused and those made before it are dropped. -/
inductive Traffic (s : Sandbox) (connection : Nat) (Work : List Exchange → Prop) :
    List Exchange → Prop
  | worked {work dropped : List Exchange} :
      Work work →
      dropped.map (·.call) =
        s.names.map (fun name => execution connection (dropStatement name)) →
      Traffic s connection Work
        (s.definitions.map (Exchange.granted connection) ++ (work ++ dropped))
  | refused {made : List (String × String)} {definition name : String}
      {rest : List (String × String)} {e : ServerError} {dropped : List Exchange} :
      s.definitions.zip s.names = made ++ (definition, name) :: rest →
      dropped.map (·.call) =
        made.map (fun t => execution connection (dropStatement t.2)) →
      Traffic s connection Work
        (made.map (fun t => Exchange.granted connection t.1) ++
          ⟨execution connection definition, some e⟩ :: dropped)

theorem ensures_run {s : Sandbox} {connection n : Nat} {work : Session σ α}
    {Work : List Exchange → Prop}
    (hwork : work.Ensures n fun made _ m => Work made ∧ m = n) :
    (s.run connection work).Ensures n fun made _ m => Traffic s connection Work made ∧ m = n := by
  refine (ensures_create connection (s.definitions.zip s.names) n).bind ?_
  rintro made r k ⟨hcreation, rfl⟩
  generalize hsteps : s.definitions.zip s.names = steps at hcreation
  cases hcreation with
  | granted =>
      refine (ensures_undoing hwork).mono ?_
      rintro _ r m ⟨worked, dropped, rfl, ⟨hW, rfl⟩, hcalls⟩
      refine ⟨?_, rfl⟩
      have hmade : steps.map (fun t => Exchange.granted connection t.1) =
          s.definitions.map (Exchange.granted connection) := by
        rw [← hsteps, ← s.map_fst_steps, List.map_map, s.map_fst_steps]
        rfl
      rw [hmade]
      refine .worked hW ?_
      rw [hcalls, ← hsteps, map_snd_steps, List.map_map]
      rfl
  | refused made definition name rest e =>
      refine (ensures_cleanUp connection ((made.map (·.2)).map dropStatement) _).bind ?_
      rintro dropped refusal m ⟨hcalls, -, rfl⟩
      refine Dialogue.ensures_pure ⟨?_, rfl⟩
      rw [List.append_nil, List.append_assoc, List.singleton_append]
      refine .refused hsteps ?_
      rw [hcalls, List.map_map, List.map_map]
      rfl

end Sandbox

/-- The exchanges of work in a transaction. If it cannot be started there are no others; else the
last one rolls it back. -/
inductive Transaction (connection : Nat) (Work : List Exchange → Prop) : List Exchange → Prop
  | unstarted (e : ServerError) :
      Transaction connection Work [⟨execution connection "BEGIN TRANSACTION", some e⟩]
  | rolledBack {work : List Exchange} (refusal? : Option ServerError) :
      Work work →
      Transaction connection Work
        (Exchange.granted connection "BEGIN TRANSACTION" ::
          (work ++ [⟨execution connection rollback, refusal?⟩]))

theorem ensures_rolledBack {connection n : Nat} {work : Session σ α} {Work : List Exchange → Prop}
    (hwork : work.Ensures n fun made _ m => Work made ∧ m = n) :
    (rolledBack connection work).Ensures n fun made _ m =>
      Transaction connection Work made ∧ m = n := by
  refine (Session.ensures_require (ensures_execute connection "BEGIN TRANSACTION")).bind ?_ ?_
  · rintro _ u k ⟨a, hvalue, rfl, rfl⟩
    cases a with
    | error e => cases hvalue
    | ok u =>
        refine (ensures_undoing hwork).mono ?_
        rintro _ r m ⟨worked, undone, rfl, ⟨hW, rfl⟩, hcalls⟩
        obtain ⟨x, rfl, hx⟩ : ∃ x : Exchange, undone = [x] ∧
            x.call = execution connection rollback := by
          simpa [List.map_eq_cons_iff] using hcalls
        obtain ⟨call, refusal⟩ := x
        cases hx
        exact ⟨.rolledBack refusal hW, rfl⟩
  · rintro _ f k ⟨a, hvalue, rfl, rfl⟩
    cases a with
    | error e => exact ⟨.unstarted e, rfl⟩
    | ok u => cases hvalue

end QueryShape
