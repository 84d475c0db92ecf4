import QueryShape.Inference.ResultSet
import QueryShape.Proofs.Traffic.Sandbox

namespace QueryShape.Inference

open QueryShape.Dialogue
open QueryShape.Exchange

variable {σ : Type}

namespace Command

def catalogRequest (c : Command) (connection : Nat) : Call :=
  if c.parameterList.isEmpty then ⟨connection, .query, describeText, [c.text]⟩
  else ⟨connection, .query, describeTextWithParameters, [c.text, c.parameterList]⟩

def schemaRequest (c : Command) (connection : Nat) : Call :=
  ⟨connection, .describe, "SET FMTONLY ON;\n" ++ c.executable, []⟩

/-- The request that runs the text for one row at most. -/
def rowRequest (c : Command) (connection : Nat) : Call :=
  ⟨connection, .describe, "SET ROWCOUNT 1;\n" ++ c.executable, []⟩

/-- The one exchange of a description by the server. -/
def CatalogWork (c : Command) (connection : Nat) (made : List Exchange) : Prop :=
  ∃ r, made = [⟨c.catalogRequest connection, r⟩]

/-- The setting for the shape of results is taken back by the next request. -/
def SchemaWork (c : Command) (connection : Nat) (made : List Exchange) : Prop :=
  ∃ r reset, made =
    [⟨c.schemaRequest connection, r⟩, ⟨execution connection "SET FMTONLY OFF", reset⟩]

/-- The one exchange of a run for one row. -/
def RowWork (c : Command) (connection : Nat) (made : List Exchange) : Prop :=
  ∃ r, made = [⟨c.rowRequest connection, r⟩]

/-- The exchanges of one attempt. The isolated one has a connection of its own, with the next
number. -/
inductive Attempt (c : Command) (token : RunToken) (connection : Nat) :
    Strategy → Nat → List Exchange → Nat → Prop
  | catalog {n : Nat} {made : List Exchange} :
      (c.sandbox token).Traffic connection (c.CatalogWork connection) made →
      Attempt c token connection .catalog n made n
  | schemaOnly {n : Nat} {made : List Exchange} :
      (c.sandbox token).Traffic connection (c.SchemaWork connection) made →
      Attempt c token connection .schemaOnly n made n
  | unavailable (n : Nat) : Attempt c token connection .isolated n [] n
  | unopened (n : Nat) (e : ServerError) :
      Attempt c token connection .isolated n [⟨opening (n + 1), some e⟩] (n + 1)
  | isolated {n : Nat} {made : List Exchange} :
      Transaction (n + 1) ((c.sandbox token).Traffic (n + 1) (c.RowWork (n + 1))) made →
      Attempt c token connection .isolated n (⟨opening (n + 1), none⟩ :: made) (n + 1)

theorem ensures_askCatalog (c : Command) (connection n : Nat) :
    Dialogue.Ensures n (c.askCatalog connection : Dialogue σ (Answer Description))
      fun made _ m => c.CatalogWork connection made ∧ m = n := by
  unfold askCatalog
  by_cases h : c.parameterList.isEmpty
  · rw [if_pos h]
    refine (ensures_call _ _).bind ?_
    rintro _ a k ⟨rfl, rfl⟩
    refine Dialogue.ensures_pure ⟨⟨refusal? a, ?_⟩, rfl⟩
    rw [catalogRequest, if_pos h]
    rfl
  · rw [if_neg h]
    refine (ensures_call _ _).bind ?_
    rintro _ a k ⟨rfl, rfl⟩
    refine Dialogue.ensures_pure ⟨⟨refusal? a, ?_⟩, rfl⟩
    rw [catalogRequest, if_neg h]
    rfl

theorem ensures_askSchema (c : Command) (connection n : Nat) :
    Dialogue.Ensures n (c.askSchema connection : Dialogue σ (Answer Description))
      fun made _ m => c.SchemaWork connection made ∧ m = n := by
  refine (ensures_call _ _).bind ?_
  rintro _ a k ⟨rfl, rfl⟩
  refine (ensures_execute connection "SET FMTONLY OFF").bind ?_
  rintro _ reset k ⟨rfl, rfl⟩
  exact Dialogue.ensures_pure ⟨⟨refusal? a, refusal? reset, rfl⟩, rfl⟩

theorem ensures_askByRunning (c : Command) (connection n : Nat) :
    Dialogue.Ensures n (c.askByRunning connection : Dialogue σ (Answer Description))
      fun made _ m => c.RowWork connection made ∧ m = n := by
  refine (ensures_call _ _).bind ?_
  rintro _ a k ⟨rfl, rfl⟩
  exact Dialogue.ensures_pure ⟨⟨refusal? a, rfl⟩, rfl⟩

theorem ensures_run_lift {s : Sandbox} {connection n : Nat} {α : Type} {ask : Dialogue σ α}
    {Work : List Exchange → Prop}
    (hask : ask.Ensures n fun made _ m => Work made ∧ m = n) :
    (s.run connection (ExceptT.lift ask)).Ensures n fun made _ m =>
      s.Traffic connection Work made ∧ m = n :=
  Sandbox.ensures_run (Session.ensures_lift hask)

theorem ensures_attempt (c : Command) (connection : Nat) (ctx : InferenceContext)
    (strategy : Strategy) (n : Nat) :
    (c.attempt connection ctx strategy : Session σ (Answer Description)).Ensures n
      fun made _ m => c.Attempt ctx.token connection strategy n made m := by
  cases strategy with
  | catalog =>
      refine (ensures_run_lift (c.ensures_askCatalog connection n)).mono ?_
      rintro made r m ⟨htraffic, rfl⟩
      exact .catalog htraffic
  | schemaOnly =>
      refine (ensures_run_lift (c.ensures_askSchema connection n)).mono ?_
      rintro made r m ⟨htraffic, rfl⟩
      exact .schemaOnly htraffic
  | isolated =>
      unfold attempt
      by_cases hconnect : ctx.canConnect
      · rw [if_pos hconnect]
        refine Session.ensures_lift_bind ensures_connect ?_
        rintro _ a k ⟨rfl, rfl, hnumber⟩
        cases a with
        | error e => exact Session.ensures_pure (.unopened n e)
        | ok d =>
            obtain rfl := hnumber d rfl
            refine (ensures_rolledBack
              (ensures_run_lift (c.ensures_askByRunning (n + 1) (n + 1)))).mono ?_
            rintro made r m ⟨htransaction, rfl⟩
            exact .isolated htransaction
      · rw [if_neg hconnect]
        exact Session.ensures_pure (.unavailable n)

theorem ensures_describeBy (c : Command) (unit : String) (connection : Nat)
    (ctx : InferenceContext) (refusals : List ServerError) (strategies : List Strategy) (n : Nat) :
    (c.describeBy unit connection ctx refusals strategies :
        Session σ (Strategy × Description)).Ensures n fun made _ m =>
      ∃ tried, tried <+: strategies ∧ Chain (c.Attempt ctx.token connection) tried n made m := by
  induction strategies generalizing refusals n with
  | nil => exact Session.ensures_throw ⟨[], List.prefix_rfl, .nil n⟩
  | cons strategy rest ih =>
      refine (c.ensures_attempt connection ctx strategy n).bind ?_ ?_
      · intro made a k hattempt
        cases a with
        | ok d =>
            refine Session.ensures_pure
              ⟨[strategy], List.cons_prefix_cons.2 ⟨rfl, List.nil_prefix⟩, ?_⟩
            exact .cons hattempt (.nil k)
        | error e =>
            refine (ih (refusals ++ [e]) k).mono ?_
            rintro more r m ⟨tried, hpre, hchain⟩
            exact ⟨strategy :: tried, List.cons_prefix_cons.2 ⟨rfl, hpre⟩,
              .cons hattempt hchain⟩
      · intro made e k hattempt
        refine ⟨[strategy], List.cons_prefix_cons.2 ⟨rfl, List.nil_prefix⟩, ?_⟩
        have hchain := Chain.cons hattempt (.nil k)
        rwa [List.append_nil] at hchain

/-- The exchanges of attempts until one gives a description or ends the inference. -/
def Traffic (c : Command) (token : RunToken) (connection n : Nat) (made : List Exchange)
    (m : Nat) : Prop :=
  ∃ tried, tried <+: Strategy.all ∧ Chain (c.Attempt token connection) tried n made m

end Command

theorem ensures_inferResultSet (connection : Nat) (ctx : InferenceContext) (unit : ExecutableUnit)
    (rule : EffectiveRule) (n : Nat) :
    (inferResultSet connection ctx unit rule : Session σ Shape).Ensures n fun made _ m =>
      (Command.ofUnit ctx.token rule unit).Traffic ctx.token connection n made m := by
  refine (Command.ensures_describeBy _ unit.label connection ctx [] Strategy.all n).bind ?_
    fun _ _ _ h => h
  rintro made ⟨strategy, description⟩ k htraffic
  refine (Session.ensures_ofExcept _).bind ?_ ?_
  · rintro _ ⟨columns, names⟩ m ⟨rfl, rfl, -⟩
    refine Session.ensures_pure ?_
    rw [List.append_nil, List.append_nil]
    exact htraffic
  · rintro _ e m ⟨rfl, rfl, -⟩
    rw [List.append_nil]
    exact htraffic

end QueryShape.Inference
