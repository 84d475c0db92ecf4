import QueryShape.Assembly.Unit
import QueryShape.Proofs.Steady.Basic

namespace QueryShape

open QueryShape.Dialogue
open QueryShape.Inference

variable {σ α : Type} {s : Server σ}

section

variable (hs : s.Steady) (state : σ)
include hs state

theorem definite_cleanUp (undo : List String) : Dialogue.Definite s fun c => cleanUp c undo :=
  (definite_mapM undo fun sql => definite_execute hs state sql).bind fun answers =>
    Dialogue.definite_pure (answers.findSome? refusal?)

theorem definite_undoing {work : Nat → Session σ α} (undo : List String) (activity : Activity)
    (hwork : Session.Definite s work) :
    Session.Definite s fun c => undoing c undo activity (work c) :=
  Dialogue.Definite.bind hwork fun result =>
    (definite_cleanUp hs state undo).bind fun refusal =>
      Dialogue.definite_pure (settled activity result refusal)

theorem Sandbox.definite_create (steps : List (String × String)) :
    Dialogue.Definite s fun c => create c steps := by
  induction steps with
  | nil => exact Dialogue.definite_pure ([], none)
  | cons step rest ih =>
      obtain ⟨definition, name⟩ := step
      refine (definite_execute hs state definition).bind fun a => ?_
      cases a with
      | error e => exact Dialogue.definite_pure ([], some (name, e))
      | ok u => exact ih.bind fun r => Dialogue.definite_pure (name :: r.1, r.2)

theorem Sandbox.definite_run {work : Nat → Session σ α} (sandbox : Sandbox)
    (hwork : Session.Definite s work) : Session.Definite s fun c => sandbox.run c (work c) := by
  refine (Sandbox.definite_create hs state (sandbox.definitions.zip sandbox.names)).bind ?_
  rintro ⟨made, refusal⟩
  cases refusal with
  | none => exact definite_undoing hs state (made.map dropStatement) .droppingTempTables hwork
  | some refused =>
      refine (definite_cleanUp hs state (made.map dropStatement)).bind fun _ => ?_
      exact Dialogue.definite_pure _

theorem definite_rolledBack {work : Nat → Session σ α} (hwork : Session.Definite s work) :
    Session.Definite s fun c => rolledBack c (work c) :=
  (Session.definite_require (definite_execute hs state "BEGIN TRANSACTION")).bind fun _ =>
    definite_undoing hs state [rollback] .rollingBack hwork

namespace Inference.Command

theorem definite_askCatalog (c : Command) : Dialogue.Definite s fun d => c.askCatalog d := by
  unfold askCatalog
  split
  · refine (definite_query hs state describeText [c.text]).bind fun answer => ?_
    exact Dialogue.definite_pure _
  · refine (definite_query hs state describeTextWithParameters
      [c.text, c.parameterList]).bind fun answer => ?_
    exact Dialogue.definite_pure _

theorem definite_askSchema (c : Command) : Dialogue.Definite s fun d => c.askSchema d := by
  refine (definite_describe hs state ("SET FMTONLY ON;\n" ++ c.executable)).bind fun answer => ?_
  refine (definite_execute hs state "SET FMTONLY OFF").bind fun reset => ?_
  exact Dialogue.definite_pure _

theorem definite_askByRunning (c : Command) : Dialogue.Definite s fun d => c.askByRunning d := by
  refine (definite_describe hs state ("SET ROWCOUNT 1;\n" ++ c.executable)).bind fun answer => ?_
  exact Dialogue.definite_pure _

/-- The connection that an isolated attempt opens has a number that depends on the past, but what is
found out there does not. -/
theorem definite_attempt (c : Command) (ctx : InferenceContext) (strategy : Strategy) :
    Session.Definite s fun d => c.attempt d ctx strategy := by
  cases strategy with
  | catalog =>
      exact Sandbox.definite_run hs state _ (Session.definite_lift (c.definite_askCatalog hs state))
  | schemaOnly =>
      exact Sandbox.definite_run hs state _ (Session.definite_lift (c.definite_askSchema hs state))
  | isolated =>
      by_cases hconnect : ctx.canConnect
      · simp only [attempt, if_pos hconnect]
        obtain ⟨r, hr⟩ := definite_rolledBack hs state (Sandbox.definite_run hs state
          (c.sandbox ctx.token) (Session.definite_lift (c.definite_askByRunning hs state)))
        -- The value is one for all numbers, so the number that is given does not matter.
        refine ⟨r, fun _ => Session.returns_lift_bind (returns_connect hs) ?_⟩
        rintro _ ⟨dedicated, rfl⟩
        exact hr dedicated
      · simp only [attempt, if_neg hconnect]
        exact Session.definite_pure _

theorem definite_describeBy (c : Command) (unit : String) (ctx : InferenceContext)
    (refusals : List ServerError) (strategies : List Strategy) :
    Session.Definite s fun d => c.describeBy unit d ctx refusals strategies := by
  induction strategies generalizing refusals with
  | nil => exact Session.definite_throw _
  | cons strategy rest ih =>
      refine (c.definite_attempt hs state ctx strategy).bind fun answer => ?_
      cases answer with
      | ok description => exact Session.definite_pure (strategy, description)
      | error e => exact ih (refusals ++ [e])

end Inference.Command

theorem definite_inferResultSet (ctx : InferenceContext) (unit : ExecutableUnit)
    (rule : EffectiveRule) : Session.Definite s fun c => inferResultSet c ctx unit rule := by
  refine (Command.definite_describeBy hs state _ _ _ _ _).bind ?_
  rintro ⟨strategy, description⟩
  refine (Session.definite_ofExcept _).bind ?_
  rintro ⟨columns, names⟩
  exact Session.definite_pure _

theorem Inference.definite_describedRows (unit batch : String) (needed : Bool) :
    Session.Definite s fun c => describedRows c unit batch needed := by
  cases needed with
  | false => exact Session.definite_pure []
  | true =>
      refine (Session.definite_lift (definite_query hs state describeParameters [batch])).bind
        fun answer => ?_
      cases answer with
      | ok rows => exact Session.definite_pure rows
      | error e => exact Session.definite_throw (.fault (.parameterInference unit batch e))

theorem Inference.definite_scriptParameters (ctx : InferenceContext) (script : Script)
    (rule : EffectiveRule) : Session.Definite s fun c => scriptParameters c ctx script rule := by
  unfold scriptParameters
  dsimp only
  split
  · refine (Session.definite_ofExcept _).bind fun _ => ?_
    refine (definite_describedRows hs state _ _ _).bind fun rows => ?_
    exact (Session.definite_ofExcept _).bind fun described => Session.definite_pure _
  · exact Session.definite_throw _

theorem definite_inferParameters (ctx : InferenceContext) (unit : ExecutableUnit)
    (rule : EffectiveRule) : Session.Definite s fun c => inferParameters c ctx unit rule := by
  cases unit with
  | script script => exact definite_scriptParameters hs state ctx script rule
  | procedure p => exact Session.definite_ofExcept _
  | tempTable t => exact Session.definite_pure _

namespace ModelUnit

theorem definite_inferColumns (ctx : InferenceContext) (rule : EffectiveRule)
    (warnings : List Warning) (u : ModelUnit) :
    Session.Definite s fun c => inferColumns c ctx rule warnings u := by
  have htable (t : TempTable) : Session.Definite s fun c => inferTempTable c ctx t :=
    (definite_inferResultSet hs state ctx (.tempTable t) {}).bind fun shape =>
      Session.definite_pure _
  refine (Session.definite_mapM u.tempTables htable).bind fun ts => ?_
  refine (definite_inferResultSet hs state ctx _ rule).bind fun shape => ?_
  dsimp only
  split
  · exact Session.definite_pure _
  · exact Session.definite_pure _

theorem definite_infer (ctx : InferenceContext) (rules : RuleSet) (ordinal : Nat)
    (u : ModelUnit) : Session.Definite s fun c => u.infer c ctx rules ordinal := by
  refine (Session.definite_ofExcept _).bind fun attached => ?_
  refine (definite_inferParameters hs state _ attached.executable _).bind fun found => ?_
  dsimp only
  split
  · exact Session.definite_pure _
  · exact definite_inferColumns hs state _ _ found.warnings _

end ModelUnit

end

end QueryShape
