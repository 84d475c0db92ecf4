import Mathlib.Data.List.Basic
import QueryShape.Proofs.Fallback.Transcript
import QueryShape.Proofs.Traffic.Attempt

/-!
What one attempt at a description asks the server, and how it ends. The ending of an attempt can be
read off its steps: the value of the attempt says nothing that the answers do not say.
-/

namespace QueryShape

open QueryShape.Dialogue
open QueryShape.Exchange
open QueryShape.Inference

variable {σ : Type}

namespace Request

def granted (r : Request) : Step :=
  ⟨r, .ok .done⟩

def refused (r : Request) (e : ServerError) : Step :=
  ⟨r, .error e⟩

end Request

namespace Step

/-- The fault that a step comes to whose request may not be refused. -/
def fault? (s : Step) : Option Fault :=
  match s.request.activity?, s.answer with
  | some activity, .error e => some (.database activity e)
  | _, _ => none

/-- The refusal of a request that may be refused. -/
def refusal? (s : Step) : Option ServerError :=
  match s.request.activity?, s.answer with
  | none, .error e => some e
  | _, _ => none

/-- The description that a step brings. -/
def description? (s : Step) : Option Description :=
  match s.request.activity?, s.answer with
  | none, .ok (.rows rs) => some (.rows rs)
  | none, .ok (.columns cs) => some (.executed cs)
  | _, _ => none

variable {s : Step}

theorem fault?_eq {activity : Activity} (h : s.request.activity? = some activity) :
    s.fault? = (QueryShape.refusal? s.answer).map (.database activity) := by
  unfold fault?
  rw [h]
  cases s.answer <;> rfl

theorem refusal?_eq_none {activity : Activity} (h : s.request.activity? = some activity) :
    s.refusal? = none := by
  unfold refusal?
  rw [h]

theorem description?_eq_none {activity : Activity} (h : s.request.activity? = some activity) :
    s.description? = none := by
  unfold description?
  rw [h]

theorem quiet_of_done (h : s.answer = .ok .done) :
    s.fault? = none ∧ s.refusal? = none ∧ s.description? = none := by
  unfold fault? refusal? description?
  rw [h]
  cases s.request.activity? <;> exact ⟨rfl, rfl, rfl⟩

end Step

/-- How an attempt ends. -/
inductive Ending where
  | failed (f : Fault)
  | refused (e : ServerError)
  | described (d : Description)

/-- What an attempt with an ending gives to the work it is part of. -/
def Ending.value : Ending → Except Failure (Answer Description)
  | failed f => .error (.fault f)
  | refused e => .ok (.error e)
  | described d => .ok (.ok d)

/-- How steps end. The first fault decides, wherever it stands, or else the first refusal, or else
what was described. -/
inductive Ends (steps : List Step) : Ending → Prop
  | failed {f : Fault} :
      steps.findSome? Step.fault? = some f →
      Ends steps (.failed f)
  | refused {e : ServerError} :
      steps.findSome? Step.fault? = none →
      steps.findSome? Step.refusal? = some e →
      Ends steps (.refused e)
  | described {d : Description} :
      steps.findSome? Step.fault? = none →
      steps.findSome? Step.refusal? = none →
      steps.findSome? Step.description? = some d →
      Ends steps (.described d)

variable {steps : List Step} {x : Ending}

theorem ends_cons_of_fault {s : Step} {f : Fault} (h : s.fault? = some f) (rest : List Step) :
    Ends (s :: rest) (.failed f) :=
  .failed (by rw [List.findSome?_cons, h])

theorem Ends.append_of_done {front : List Step} (h : Ends steps x)
    (hfront : ∀ s ∈ front, s.answer = .ok .done) : Ends (front ++ steps) x := by
  have hfault : front.findSome? Step.fault? = none :=
    List.findSome?_eq_none_iff.2 fun s hs => (Step.quiet_of_done (hfront s hs)).1
  have hrefusal : front.findSome? Step.refusal? = none :=
    List.findSome?_eq_none_iff.2 fun s hs => (Step.quiet_of_done (hfront s hs)).2.1
  have hdescription : front.findSome? Step.description? = none :=
    List.findSome?_eq_none_iff.2 fun s hs => (Step.quiet_of_done (hfront s hs)).2.2
  cases h with
  | failed hf => exact .failed (by simp [hfault, hf])
  | refused hf hr => exact .refused (by simp [hfault, hf]) (by simp [hrefusal, hr])
  | described hf hr hd =>
      exact .described (by simp [hfault, hf]) (by simp [hrefusal, hr]) (by simp [hdescription, hd])

theorem Ends.cons_of_done {s : Step} (h : Ends steps x) (hs : s.answer = .ok .done) :
    Ends (s :: steps) x := by
  rw [← List.singleton_append]
  exact h.append_of_done (List.forall_mem_singleton.2 hs)

theorem Ends.exists_append {activity : Activity} {undone : List Step} (h : Ends steps x)
    (hundone : ∀ s ∈ undone, s.request.activity? = some activity) :
    ∃ y, Ends (steps ++ undone) y ∧ y.value =
      settled activity x.value (undone.findSome? fun s => QueryShape.refusal? s.answer) := by
  have hrefusal : undone.findSome? Step.refusal? = none :=
    List.findSome?_eq_none_iff.2 fun s hs => Step.refusal?_eq_none (hundone s hs)
  have hdescription : undone.findSome? Step.description? = none :=
    List.findSome?_eq_none_iff.2 fun s hs => Step.description?_eq_none (hundone s hs)
  have hfault : undone.findSome? Step.fault? =
      (undone.findSome? fun s => QueryShape.refusal? s.answer).map (.database activity) := by
    rw [List.map_findSome?, ← List.head?_filterMap, ← List.head?_filterMap]
    exact congrArg List.head? (List.filterMap_congr fun s hs => Step.fault?_eq (hundone s hs))
  -- A refusal met in undoing is a fault, so it goes before any refusal of the steps.
  cases hundo : undone.findSome? fun s => QueryShape.refusal? s.answer with
  | none =>
      rw [hundo] at hfault
      cases h with
      | failed hf => exact ⟨_, .failed (by simp [hf]), rfl⟩
      | refused hf hr => exact ⟨_, .refused (by simp [hf, hfault]) (by simp [hr]), rfl⟩
      | described hf hr hd =>
          refine ⟨_, .described ?_ ?_ (by simp [hd]), rfl⟩
          · simp [hf, hfault]
          · simp [hr, hrefusal]
  | some e =>
      rw [hundo] at hfault
      cases h with
      | failed hf => exact ⟨_, .failed (by simp [hf]), rfl⟩
      | refused hf hr => exact ⟨_, .failed (by simp [hf, hfault]), rfl⟩
      | described hf hr hd => exact ⟨_, .failed (by simp [hf, hfault]), rfl⟩

/-- Work that comes to the ending of its steps, and which asks for no connection. -/
abbrev Session.Answers (n : Nat) (work : Session σ (Answer Description))
    (Work : List Step → Prop) : Prop :=
  work.Enacts n fun steps r m => Work steps ∧ (∃ x, Ends steps x ∧ r = x.value) ∧ m = n

/-- The request that makes a temp table with a definition and a name. -/
def creation (connection : Nat) (t : String × String) : Request :=
  ⟨execution connection t.1, some (.creatingTempTable t.2)⟩

def removal (connection : Nat) (name : String) : Request :=
  ⟨execution connection (Sandbox.dropStatement name), some .droppingTempTables⟩

def beginning (connection : Nat) : Request :=
  ⟨execution connection "BEGIN TRANSACTION", some .startingTransaction⟩

def takingBack (connection : Nat) : Request :=
  ⟨execution connection rollback, some .rollingBack⟩

theorem enacts_mapM_execute (activity? : Option Activity) (connection : Nat) (undo : List String)
    (n : Nat) :
    Dialogue.Enacts n (undo.mapM (execute connection) : Dialogue σ (List (Answer Unit)))
      fun steps answers m =>
        steps.map (·.request) = undo.map (fun sql => ⟨execution connection sql, activity?⟩) ∧
          answers.map QueryShape.refusal? =
            steps.map (fun s => QueryShape.refusal? s.answer) ∧ m = n := by
  induction undo with
  | nil => exact Dialogue.enacts_pure ⟨rfl, rfl, rfl⟩
  | cons sql rest ih =>
      rw [List.mapM_cons]
      refine (enacts_execute activity? connection sql).bind ?_
      rintro _ a k ⟨rfl, rfl⟩
      refine ih.bind ?_
      rintro steps answers m ⟨hrequests, hrefusals, rfl⟩
      refine Dialogue.enacts_pure ⟨?_, ?_, rfl⟩
      · simp [hrequests]
      · simp [hrefusals, refusal?_map]

theorem enacts_cleanUp (activity : Activity) (connection : Nat) (undo : List String) (n : Nat) :
    Dialogue.Enacts n (cleanUp connection undo : Dialogue σ (Option ServerError))
      fun steps refusal m =>
        steps.map (·.request) = undo.map (fun sql => ⟨execution connection sql, some activity⟩) ∧
          refusal = steps.findSome? (fun s => QueryShape.refusal? s.answer) ∧ m = n := by
  refine (enacts_mapM_execute (some activity) connection undo n).bind ?_
  rintro steps answers m ⟨hrequests, hrefusals, rfl⟩
  refine Dialogue.enacts_pure ⟨?_, ?_, rfl⟩
  · rw [List.append_nil, hrequests]
  · have hfind := congrArg (List.findSome? id) hrefusals
    simpa [List.findSome?_map, Function.comp_def] using hfind

theorem Session.Answers.undoing {connection n : Nat} {undo : List String} {activity : Activity}
    {work : Session σ (Answer Description)} {Work : List Step → Prop}
    (hwork : work.Answers n Work) :
    (undoing connection undo activity work).Answers n fun steps =>
      ∃ worked undone, steps = worked ++ undone ∧ Work worked ∧
        undone.map (·.request) =
          undo.map fun sql => ⟨execution connection sql, some activity⟩ := by
  refine Dialogue.Enacts.bind hwork ?_
  rintro worked r k ⟨hW, ⟨x, hends, rfl⟩, rfl⟩
  refine (enacts_cleanUp activity connection undo k).bind ?_
  rintro undone refusal m ⟨hrequests, rfl, rfl⟩
  have hactivity : ∀ s ∈ undone, s.request.activity? = some activity := by
    intro s hs
    have hmem : s.request ∈ undone.map (·.request) := List.mem_map_of_mem hs
    rw [hrequests] at hmem
    obtain ⟨sql, -, hsql⟩ := List.mem_map.1 hmem
    rw [← hsql]
  refine Dialogue.enacts_pure ⟨⟨worked, undone, ?_, hW, hrequests⟩, ?_, rfl⟩
  · rw [List.append_nil]
  · rw [List.append_nil]
    obtain ⟨y, hy, hvalue⟩ := hends.exists_append hactivity
    exact ⟨y, hy, hvalue.symm⟩

namespace Sandbox

theorem enacts_create (connection : Nat) (tables : List (String × String)) (n : Nat) :
    Dialogue.Enacts n
      (create connection tables : Dialogue σ (List String × Option (String × ServerError)))
      fun steps r m => m = n ∧
        ((steps = tables.map (fun t => (creation connection t).granted) ∧
            r = (tables.map (·.2), none)) ∨
          ∃ made t rest e, tables = made ++ t :: rest ∧
            steps = made.map (fun t => (creation connection t).granted) ++
              [(creation connection t).refused e] ∧
            r = (made.map (·.2), some (t.2, e))) := by
  induction tables with
  | nil => exact Dialogue.enacts_pure ⟨rfl, .inl ⟨rfl, rfl⟩⟩
  | cons t rest ih =>
      obtain ⟨definition, name⟩ := t
      refine (enacts_execute (some (.creatingTempTable name)) connection definition).bind ?_
      rintro _ a k ⟨rfl, rfl⟩
      cases a with
      | error e =>
          exact Dialogue.enacts_pure ⟨rfl, .inr ⟨[], (definition, name), rest, e, rfl, rfl, rfl⟩⟩
      | ok u =>
          refine ih.bind ?_
          rintro steps r m ⟨rfl, hcreated⟩
          refine Dialogue.enacts_pure ⟨rfl, ?_⟩
          rw [List.append_nil]
          rcases hcreated with ⟨rfl, rfl⟩ | ⟨made, t, rest, e, rfl, rfl, rfl⟩
          · exact .inl ⟨rfl, rfl⟩
          · exact .inr ⟨(definition, name) :: made, t, rest, e, rfl, rfl, rfl⟩

/-- The steps of work in a sandbox that makes some requests: tables are made, the requests are made
and the tables are dropped, or a table is refused and those made before it are dropped. -/
inductive Course (s : Sandbox) (connection : Nat) (asked : List Request) : List Step → Prop
  | worked {work dropped : List Step} :
      work.map (·.request) = asked →
      dropped.map (·.request) = s.names.map (removal connection) →
      Course s connection asked
        ((s.definitions.zip s.names).map (fun t => (creation connection t).granted) ++
          (work ++ dropped))
  | cut {made rest : List (String × String)} {t : String × String} {e : ServerError}
      {dropped : List Step} :
      s.definitions.zip s.names = made ++ t :: rest →
      dropped.map (·.request) = made.map (fun t => removal connection t.2) →
      Course s connection asked
        (made.map (fun t => (creation connection t).granted) ++
          (creation connection t).refused e :: dropped)

theorem answer_of_mem_creations {connection : Nat} {tables : List (String × String)} :
    ∀ s ∈ tables.map fun t => (creation connection t).granted, s.answer = .ok .done := by
  intro s hs
  obtain ⟨t, -, rfl⟩ := List.mem_map.1 hs
  rfl

theorem answers_run {s : Sandbox} {connection n : Nat} {work : Session σ (Answer Description)}
    {asked : List Request} (hwork : work.Answers n fun steps => steps.map (·.request) = asked) :
    (s.run connection work).Answers n (s.Course connection asked) := by
  refine Dialogue.Enacts.bind (enacts_create connection (s.definitions.zip s.names) n) ?_
  rintro _ _ k ⟨rfl, ⟨rfl, rfl⟩ | ⟨made, t, rest, e, htables, rfl, rfl⟩⟩
  · refine Dialogue.Enacts.mono hwork.undoing ?_
    rintro _ _ m ⟨⟨worked, dropped, rfl, hasked, hdropped⟩, ⟨x, hends, rfl⟩, rfl⟩
    refine ⟨.worked hasked ?_, ⟨x, hends.append_of_done answer_of_mem_creations, rfl⟩, rfl⟩
    rw [hdropped, map_snd_steps, List.map_map]
    rfl
  · refine (enacts_cleanUp .droppingTempTables connection _ k).bind ?_
    rintro dropped refusal m ⟨hdropped, -, rfl⟩
    refine Dialogue.enacts_pure ?_
    rw [List.append_nil, List.append_assoc, List.singleton_append]
    have hends : Ends ((creation connection t).refused e :: dropped) _ :=
      ends_cons_of_fault rfl dropped
    refine ⟨.cut htables ?_, ⟨_, hends.append_of_done answer_of_mem_creations, rfl⟩, rfl⟩
    rw [hdropped, List.map_map, List.map_map]
    rfl

end Sandbox

/-- The steps of work in a transaction. If it cannot be started there are no others; else the last
one rolls it back. -/
inductive RolledBack (connection : Nat) (Work : List Step → Prop) : List Step → Prop
  | unstarted (e : ServerError) : RolledBack connection Work [(beginning connection).refused e]
  | worked {work : List Step} (answer : Answer Given) :
      Work work →
      RolledBack connection Work
        ((beginning connection).granted :: (work ++ [⟨takingBack connection, answer⟩]))

theorem enacts_beginning (connection n : Nat) :
    (Session.require .startingTransaction (execute connection "BEGIN TRANSACTION") :
      Session σ Unit).Enacts n fun steps r m => m = n ∧
        match r with
        | .ok _ => steps = [(beginning connection).granted]
        | .error f => ∃ e, f = .fault (.database .startingTransaction e) ∧
            steps = [(beginning connection).refused e] := by
  refine Session.enacts_lift_bind (enacts_execute (some .startingTransaction) connection _) ?_
  rintro _ a k ⟨rfl, rfl⟩
  cases a with
  | ok u => exact Session.enacts_pure ⟨rfl, rfl⟩
  | error e => exact Session.enacts_throw ⟨rfl, e, rfl, rfl⟩

theorem Session.Answers.rolledBack {connection n : Nat} {work : Session σ (Answer Description)}
    {Work : List Step → Prop} (hwork : work.Answers n Work) :
    (rolledBack connection work).Answers n (RolledBack connection Work) := by
  refine (enacts_beginning connection n).bind ?_ ?_
  · rintro _ u k ⟨rfl, rfl⟩
    refine hwork.undoing.mono ?_
    rintro _ r m ⟨⟨worked, undone, rfl, hW, hrequests⟩, ⟨x, hends, rfl⟩, rfl⟩
    obtain ⟨s, rfl, hs⟩ : ∃ s : Step, undone = [s] ∧ s.request = takingBack connection := by
      simpa [List.map_eq_cons_iff, takingBack] using hrequests
    obtain ⟨request, answer⟩ := s
    cases hs
    exact ⟨.worked answer hW, ⟨x, hends.cons_of_done rfl, rfl⟩, rfl⟩
  · rintro _ f k ⟨rfl, e, rfl, rfl⟩
    exact ⟨.unstarted e, ⟨_, ends_cons_of_fault rfl [], rfl⟩, rfl⟩

/-- An attempt that was made, with its steps. -/
structure Trial where
  strategy : Strategy
  steps : List Step

/-- The refusal of an attempt that needs a connection where none can be asked for. -/
def unconnected : ServerError :=
  ⟨none, "no connection factory for isolated execution"⟩

/-- How an attempt ends. One without steps had nothing to ask, and is refused. -/
inductive Trial.Ends (t : Trial) : Ending → Prop
  | told {x : Ending} : QueryShape.Ends t.steps x → Ends t x
  | unconnected : t.steps = [] → Ends t (.refused unconnected)

namespace Inference.Command

/-- The requests by which a strategy asks for a description. -/
def asked (c : Command) (connection : Nat) : Strategy → List Request
  | .catalog => [⟨c.catalogRequest connection, none⟩]
  | .schemaOnly =>
      [⟨c.schemaRequest connection, none⟩, ⟨execution connection "SET FMTONLY OFF", none⟩]
  | .isolated => [⟨c.rowRequest connection, none⟩]

/-- The steps of one attempt. Work on the given connection asks for no other one. The isolated
attempt asks for a connection, if that can be done at all, and works on it and nowhere else. -/
inductive Course (c : Command) (ctx : InferenceContext) (connection : Nat) :
    Strategy → Nat → List Step → Nat → Prop
  | given {strategy : Strategy} {n : Nat} {steps : List Step} :
      strategy ≠ .isolated →
      (c.sandbox ctx.token).Course connection (c.asked connection strategy) steps →
      Course c ctx connection strategy n steps n
  | unavailable (n : Nat) :
      ctx.canConnect = false →
      Course c ctx connection .isolated n [] n
  | unopened (n : Nat) (e : ServerError) :
      ctx.canConnect = true →
      Course c ctx connection .isolated n [Request.refused ⟨opening (n + 1), none⟩ e] (n + 1)
  | isolated {n : Nat} {steps : List Step} :
      ctx.canConnect = true →
      RolledBack (n + 1)
        ((c.sandbox ctx.token).Course (n + 1) (c.asked (n + 1) .isolated)) steps →
      Course c ctx connection .isolated n
        (Request.granted ⟨opening (n + 1), none⟩ :: steps) (n + 1)

theorem answers_askCatalog (c : Command) (connection n : Nat) :
    Session.Answers n (ExceptT.lift (c.askCatalog connection) : Session σ (Answer Description))
      fun steps => steps.map (·.request) = c.asked connection .catalog := by
  have hends (request : Call) (a : Answer (List Row)) :
      ∃ x, Ends [⟨⟨request, none⟩, a.map .rows⟩] x ∧ .ok (a.map .rows) = x.value := by
    cases a with
    | error e => exact ⟨.refused e, .refused rfl rfl, rfl⟩
    | ok rs => exact ⟨.described (.rows rs), .described rfl rfl rfl, rfl⟩
  refine Session.enacts_lift ?_
  unfold askCatalog asked catalogRequest
  by_cases h : c.parameterList.isEmpty
  · rw [if_pos h, if_pos h]
    refine (enacts_query connection _ _).bind ?_
    rintro _ a k ⟨rfl, rfl⟩
    exact Dialogue.enacts_pure ⟨rfl, hends _ a, rfl⟩
  · rw [if_neg h, if_neg h]
    refine (enacts_query connection _ _).bind ?_
    rintro _ a k ⟨rfl, rfl⟩
    exact Dialogue.enacts_pure ⟨rfl, hends _ a, rfl⟩

theorem answers_askSchema (c : Command) (connection n : Nat) :
    Session.Answers n (ExceptT.lift (c.askSchema connection) : Session σ (Answer Description))
      fun steps => steps.map (·.request) = c.asked connection .schemaOnly := by
  refine Session.enacts_lift ((enacts_describe connection _).bind ?_)
  rintro _ a k ⟨rfl, rfl⟩
  refine (enacts_execute none connection "SET FMTONLY OFF").bind ?_
  rintro _ reset k ⟨rfl, rfl⟩
  refine Dialogue.enacts_pure ⟨rfl, ?_, rfl⟩
  -- The setting is taken back in any case, but its refusal counts only after a description.
  cases a with
  | error e => exact ⟨.refused e, .refused (by cases reset <;> rfl) rfl, rfl⟩
  | ok cs =>
      cases reset with
      | error e => exact ⟨.refused e, .refused rfl rfl, rfl⟩
      | ok u => exact ⟨.described (.executed cs), .described rfl rfl rfl, rfl⟩

theorem answers_askByRunning (c : Command) (connection n : Nat) :
    Session.Answers n (ExceptT.lift (c.askByRunning connection) : Session σ (Answer Description))
      fun steps => steps.map (·.request) = c.asked connection .isolated := by
  refine Session.enacts_lift ((enacts_describe connection _).bind ?_)
  rintro _ a k ⟨rfl, rfl⟩
  refine Dialogue.enacts_pure ⟨rfl, ?_, rfl⟩
  cases a with
  | error e => exact ⟨.refused e, .refused rfl rfl, rfl⟩
  | ok cs => exact ⟨.described (.executed cs), .described rfl rfl rfl, rfl⟩

/-- An attempt takes one of the courses that its strategy has, and its value is the ending of its
steps. -/
theorem enacts_attempt (c : Command) (connection : Nat) (ctx : InferenceContext)
    (strategy : Strategy) (n : Nat) :
    (c.attempt connection ctx strategy : Session σ (Answer Description)).Enacts n
      fun steps r m => c.Course ctx connection strategy n steps m ∧
        ∃ x, Trial.Ends ⟨strategy, steps⟩ x ∧ r = x.value := by
  cases strategy with
  | catalog =>
      refine (Sandbox.answers_run (c.answers_askCatalog connection n)).mono ?_
      rintro steps r m ⟨hcourse, ⟨x, hends, hvalue⟩, rfl⟩
      exact ⟨.given (by decide) hcourse, x, .told hends, hvalue⟩
  | schemaOnly =>
      refine (Sandbox.answers_run (c.answers_askSchema connection n)).mono ?_
      rintro steps r m ⟨hcourse, ⟨x, hends, hvalue⟩, rfl⟩
      exact ⟨.given (by decide) hcourse, x, .told hends, hvalue⟩
  | isolated =>
      unfold attempt
      by_cases hconnect : ctx.canConnect
      · rw [if_pos hconnect]
        refine Session.enacts_lift_bind enacts_connect ?_
        rintro _ a k ⟨rfl, rfl, hnumber⟩
        cases a with
        | error e =>
            exact Session.enacts_pure
              ⟨.unopened n e hconnect, _, .told (.refused rfl rfl), rfl⟩
        | ok d =>
            obtain rfl := hnumber d rfl
            refine (Sandbox.answers_run
              (c.answers_askByRunning (n + 1) (n + 1))).rolledBack.mono ?_
            rintro steps r m ⟨hcourse, ⟨x, hends, hvalue⟩, rfl⟩
            exact ⟨.isolated hconnect hcourse, x, .told (hends.cons_of_done rfl), hvalue⟩
      · rw [if_neg hconnect]
        exact Session.enacts_pure
          ⟨.unavailable n (Bool.eq_false_iff.2 hconnect), _, .unconnected rfl, rfl⟩

end Inference.Command

end QueryShape
