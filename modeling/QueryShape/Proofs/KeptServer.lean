import QueryShape.Assembly.Assemble
import QueryShape.Proofs.Values

namespace QueryShape

open QueryShape.Inference

variable {σ α β ι : Type}

namespace Dialogue

/-- Whatever is done, the server is the one that it was. -/
def KeepsServer (x : Dialogue σ α) : Prop :=
  ∀ w : World σ, (x.outcome w).2.server = w.server

theorem keepsServer_pure (a : α) : KeepsServer (pure a : Dialogue σ α) :=
  fun _ => rfl

theorem KeepsServer.bind {x : Dialogue σ α} {f : α → Dialogue σ β} (hx : x.KeepsServer)
    (hf : ∀ a, (f a).KeepsServer) : (x >>= f).KeepsServer :=
  fun w => (hf _ _).trans (hx w)

theorem keepsServer_call (made : Call) (answer : Server σ → σ → Answer α × σ) :
    KeepsServer (call made answer) :=
  fun _ => rfl

theorem keepsServer_connect : KeepsServer (connect : Dialogue σ (Answer Nat)) :=
  fun _ => rfl

theorem keepsServer_of_returns {x : Dialogue σ α} {P : Server σ → α → Prop}
    (h : ∀ s, x.Returns s (P s)) : x.KeepsServer :=
  fun w => (h w.server w rfl).2

/-- The value is one that the work ends in at some time with the server. -/
theorem KeepsServer.returns {x : Dialogue σ α} (hx : x.KeepsServer) (s : Server σ) :
    x.Returns s fun a => ∃ v : World σ, v.server = s ∧ (x.outcome v).1 = a :=
  fun w hw => ⟨⟨w, hw, rfl⟩, (hx w).trans hw⟩

theorem keepsServer_mapM {f : ι → Dialogue σ β} (hf : ∀ i, (f i).KeepsServer) (is : List ι) :
    (is.mapM f).KeepsServer :=
  keepsServer_of_returns fun s => sequenced_returns.mapM fun i _ => (hf i).returns s

end Dialogue

namespace Session

def KeepsServer (x : Session σ α) : Prop :=
  Dialogue.KeepsServer x.run

theorem keepsServer_pure (a : α) : KeepsServer (pure a : Session σ α) :=
  Dialogue.keepsServer_pure _

theorem keepsServer_throw (e : Failure) : KeepsServer (throw e : Session σ α) :=
  Dialogue.keepsServer_pure _

theorem keepsServer_ofExcept (x : Except Fault α) : KeepsServer (ofExcept x : Session σ α) := by
  cases x with
  | ok a => exact keepsServer_pure a
  | error f => exact keepsServer_throw _

theorem KeepsServer.bind {x : Session σ α} {f : α → Session σ β} (hx : x.KeepsServer)
    (hf : ∀ a, (f a).KeepsServer) : (x >>= f).KeepsServer := by
  change Dialogue.KeepsServer (x.run >>= ExceptT.bindCont f)
  refine Dialogue.KeepsServer.bind hx fun r => ?_
  cases r with
  | ok a => exact hf a
  | error e => exact Dialogue.keepsServer_pure _

theorem keepsServer_lift {x : Dialogue σ α} (hx : x.KeepsServer) :
    KeepsServer (ExceptT.lift x : Session σ α) :=
  Dialogue.KeepsServer.bind hx fun _ => Dialogue.keepsServer_pure _

theorem keepsServer_require {activity : Activity} {request : Dialogue σ (Answer α)}
    (h : request.KeepsServer) : KeepsServer (require activity request) := by
  refine (keepsServer_lift h).bind fun a => ?_
  cases a with
  | ok v => exact keepsServer_pure v
  | error e => exact keepsServer_throw _

theorem keepsServer_mapM {f : ι → Session σ β} (hf : ∀ i, (f i).KeepsServer) (is : List ι) :
    (is.mapM f).KeepsServer :=
  Dialogue.keepsServer_of_returns fun s => returns_mapM fun i _ => (hf i).returns s

end Session

open QueryShape.Dialogue

theorem keepsServer_cleanUp (connection : Nat) (undo : List String) :
    (cleanUp connection undo : Dialogue σ _).KeepsServer :=
  (Dialogue.keepsServer_mapM (fun _ => Dialogue.keepsServer_call _ _) undo).bind fun _ =>
    Dialogue.keepsServer_pure _

theorem keepsServer_undoing {work : Session σ α} (connection : Nat) (undo : List String)
    (activity : Activity) (hwork : work.KeepsServer) :
    (undoing connection undo activity work).KeepsServer :=
  Dialogue.KeepsServer.bind hwork fun _ => (keepsServer_cleanUp connection undo).bind fun _ =>
    Dialogue.keepsServer_pure _

namespace Sandbox

theorem keepsServer_create (connection : Nat) (steps : List (String × String)) :
    (create connection steps : Dialogue σ _).KeepsServer := by
  induction steps with
  | nil => exact Dialogue.keepsServer_pure _
  | cons step rest ih =>
      obtain ⟨definition, name⟩ := step
      refine (Dialogue.keepsServer_call _ _).bind fun a => ?_
      cases a with
      | error e => exact Dialogue.keepsServer_pure _
      | ok u => exact ih.bind fun _ => Dialogue.keepsServer_pure _

theorem keepsServer_run {work : Session σ α} (s : Sandbox) (connection : Nat)
    (hwork : work.KeepsServer) : (s.run connection work).KeepsServer := by
  refine (keepsServer_create connection (s.definitions.zip s.names)).bind ?_
  rintro ⟨made, refusal⟩
  cases refusal with
  | none => exact keepsServer_undoing connection _ _ hwork
  | some refused =>
      exact (keepsServer_cleanUp connection _).bind fun _ => Dialogue.keepsServer_pure _

end Sandbox

theorem keepsServer_rolledBack {work : Session σ α} (connection : Nat)
    (hwork : work.KeepsServer) : (rolledBack connection work).KeepsServer :=
  (Session.keepsServer_require (Dialogue.keepsServer_call _ _)).bind fun _ =>
    keepsServer_undoing connection _ _ hwork

namespace Inference.Command

variable (c : Command) (connection : Nat) (ctx : InferenceContext)

theorem keepsServer_askCatalog : (c.askCatalog connection : Dialogue σ _).KeepsServer := by
  unfold askCatalog
  split
  · exact (Dialogue.keepsServer_call _ _).bind fun _ => Dialogue.keepsServer_pure _
  · exact (Dialogue.keepsServer_call _ _).bind fun _ => Dialogue.keepsServer_pure _

theorem keepsServer_askSchema : (c.askSchema connection : Dialogue σ _).KeepsServer :=
  (Dialogue.keepsServer_call _ _).bind fun _ => (Dialogue.keepsServer_call _ _).bind fun _ =>
    Dialogue.keepsServer_pure _

theorem keepsServer_askByRunning : (c.askByRunning connection : Dialogue σ _).KeepsServer :=
  (Dialogue.keepsServer_call _ _).bind fun _ => Dialogue.keepsServer_pure _

theorem keepsServer_attempt (strategy : Strategy) :
    (c.attempt connection ctx strategy : Session σ _).KeepsServer := by
  cases strategy with
  | catalog =>
      exact Sandbox.keepsServer_run _ _ (Session.keepsServer_lift (c.keepsServer_askCatalog _))
  | schemaOnly =>
      exact Sandbox.keepsServer_run _ _ (Session.keepsServer_lift (c.keepsServer_askSchema _))
  | isolated =>
      unfold attempt
      dsimp only
      split
      · refine (Session.keepsServer_lift Dialogue.keepsServer_connect).bind fun answer => ?_
        cases answer with
        | error e => exact Session.keepsServer_pure _
        | ok dedicated =>
            exact keepsServer_rolledBack dedicated (Sandbox.keepsServer_run _ _
              (Session.keepsServer_lift (c.keepsServer_askByRunning dedicated)))
      · exact Session.keepsServer_pure _

theorem keepsServer_describeBy (unit : String) (refusals : List ServerError)
    (strategies : List Strategy) :
    (c.describeBy unit connection ctx refusals strategies : Session σ _).KeepsServer := by
  induction strategies generalizing refusals with
  | nil => exact Session.keepsServer_throw _
  | cons strategy rest ih =>
      refine (c.keepsServer_attempt connection ctx strategy).bind fun answer => ?_
      cases answer with
      | ok description => exact Session.keepsServer_pure _
      | error e => exact ih (refusals ++ [e])

end Inference.Command

variable (connection : Nat) (ctx : InferenceContext)

theorem keepsServer_inferResultSet (unit : ExecutableUnit) (rule : EffectiveRule) :
    (inferResultSet connection ctx unit rule : Session σ _).KeepsServer :=
  (Command.keepsServer_describeBy _ connection ctx _ _ _).bind fun _ =>
    (Session.keepsServer_ofExcept _).bind fun _ => Session.keepsServer_pure _

theorem Inference.keepsServer_describedRows (unit batch : String) (needed : Bool) :
    (describedRows connection unit batch needed : Session σ _).KeepsServer := by
  cases needed with
  | false => exact Session.keepsServer_pure []
  | true =>
      refine (Session.keepsServer_lift (Dialogue.keepsServer_call _ _)).bind fun answer => ?_
      cases answer with
      | ok rows => exact Session.keepsServer_pure rows
      | error e => exact Session.keepsServer_throw _

theorem keepsServer_inferParameters (unit : ExecutableUnit) (rule : EffectiveRule) :
    (inferParameters connection ctx unit rule : Session σ _).KeepsServer := by
  cases unit with
  | script s =>
      change (scriptParameters connection ctx s rule).KeepsServer
      unfold scriptParameters
      dsimp only
      split
      · refine (Session.keepsServer_ofExcept _).bind fun _ => ?_
        refine (keepsServer_describedRows _ _ _ _).bind fun rows => ?_
        exact (Session.keepsServer_ofExcept _).bind fun _ => Session.keepsServer_pure _
      · exact Session.keepsServer_throw _
  | procedure p => exact Session.keepsServer_ofExcept _
  | tempTable t => exact Session.keepsServer_pure _

namespace ModelUnit

theorem keepsServer_inferColumns (rule : EffectiveRule) (warnings : List Warning)
    (u : ModelUnit) : (u.inferColumns connection ctx rule warnings : Session σ _).KeepsServer := by
  have htable (t : TempTable) : (inferTempTable connection ctx t : Session σ _).KeepsServer :=
    (keepsServer_inferResultSet connection ctx _ _).bind fun _ => Session.keepsServer_pure _
  refine (Session.keepsServer_mapM htable u.tempTables).bind fun ts => ?_
  refine (keepsServer_inferResultSet connection ctx _ rule).bind fun shape => ?_
  dsimp only
  split
  · exact Session.keepsServer_pure _
  · exact Session.keepsServer_pure _

theorem keepsServer_infer (rules : RuleSet) (ordinal : Nat) (u : ModelUnit) :
    (u.infer connection ctx rules ordinal : Session σ _).KeepsServer := by
  refine (Session.keepsServer_ofExcept _).bind fun attached => ?_
  refine (keepsServer_inferParameters connection _ attached.executable _).bind fun found => ?_
  dsimp only
  split
  · exact Session.keepsServer_pure _
  · exact keepsServer_inferColumns connection _ _ found.warnings _

end ModelUnit

namespace Assembly

theorem keepsServer_openWorkers (count : Nat) :
    (openWorkers count : Session σ _).KeepsServer :=
  Session.keepsServer_mapM
    (fun _ => Session.keepsServer_require Dialogue.keepsServer_connect) _

theorem Groundwork.keepsServer_lay (rules : RuleSet) (userScripts : List Script) :
    (lay connection rules userScripts : Session σ _).KeepsServer := by
  have hrows (activity : Activity) (sql : String) :
      (Catalog.rows connection activity sql : Session σ _).KeepsServer :=
    Session.keepsServer_require (Dialogue.keepsServer_call _ _)
  have htypes : (Catalog.loadTypes connection : Session σ _).KeepsServer :=
    (hrows _ _).bind fun _ => (hrows _ _).bind fun _ => Session.keepsServer_pure _
  have htables (types : TypeCatalog) :
      (Catalog.loadTables connection types rules : Session σ _).KeepsServer :=
    (hrows _ _).bind fun _ => (hrows _ _).bind fun _ => Session.keepsServer_pure _
  have hprocedures (types : TypeCatalog) :
      (Catalog.loadProcedures connection types rules : Session σ _).KeepsServer :=
    (hrows _ _).bind fun _ => (hrows _ _).bind fun _ => Session.keepsServer_ofExcept _
  refine htypes.bind ?_
  rintro ⟨types, typeWarnings⟩
  refine (htables types).bind ?_
  rintro ⟨tables, tableWarnings⟩
  refine (hprocedures types).bind fun catalog => ?_
  exact (Session.keepsServer_ofExcept _).bind fun generated => Session.keepsServer_pure _

end Assembly

end QueryShape
