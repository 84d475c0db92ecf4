import QueryShape.Assembly.Unit
import QueryShape.Proofs.Traffic.Attempt

namespace QueryShape

open QueryShape.Dialogue
open QueryShape.Exchange
open QueryShape.Inference

variable {σ : Type}

namespace Script

/-- Whether the server has to describe the parameters of a script: its variables are known, no temp
table has the name of an undeclared one, and some undeclared one is not pinned to a table type. -/
def AsksForParameters (types : TypeCatalog) (rule : EffectiveRule) (s : Script) : Prop :=
  ∃ scanned, scanVariables s.text = some scanned ∧
    checkTempTableNames (ExecutableUnit.script s).label (scanned.undeclared.map VariableUse.key)
      s.tempTables = .ok () ∧
    ∃ u ∈ scanned.undeclared, ∀ t, pinnedType? types s rule u.name ≠ some (.table t)

/-- The exchanges about the parameters of a script. The text that is described ends in the text of
the script. -/
inductive ParameterTraffic (types : TypeCatalog) (rule : EffectiveRule) (token : RunToken)
    (connection : Nat) (s : Script) : List Exchange → Prop
  | unasked : ¬ s.AsksForParameters types rule →
      ParameterTraffic types rule token connection s []
  | asked (declarations : String) (refusal? : Option ServerError) :
      s.AsksForParameters types rule →
      ParameterTraffic types rule token connection s
        [⟨⟨connection, .query, describeParameters, [token.globalize (declarations ++ s.text)]⟩,
          refusal?⟩]

theorem tableParameter?_eq_none_iff (v : PinnedVariable) :
    v.tableParameter? = none ↔ ∀ t, v.pin ≠ some (.table t) := by
  unfold PinnedVariable.tableParameter?
  split
  · rename_i t h
    exact ⟨nofun, fun hne => absurd h (hne t)⟩
  · rename_i h
    exact ⟨fun _ => h, fun _ => rfl⟩

theorem length_tableParameters_lt_iff (types : TypeCatalog) (rule : EffectiveRule) (s : Script)
    (uses : List VariableUse) :
    ((uses.map fun u => ⟨u, pinnedType? types s rule u.name⟩ : List PinnedVariable).filterMap
        PinnedVariable.tableParameter?).length <
      (uses.map fun u => ⟨u, pinnedType? types s rule u.name⟩ : List PinnedVariable).length ↔
      ∃ u ∈ uses, ∀ t, pinnedType? types s rule u.name ≠ some (.table t) := by
  rw [List.length_filterMap_lt_length_iff_exists]
  constructor
  · rintro ⟨v, hv, hnone⟩
    obtain ⟨u, hu, rfl⟩ := List.mem_map.1 hv
    exact ⟨u, hu, (tableParameter?_eq_none_iff _).1 hnone⟩
  · rintro ⟨u, hu, hpin⟩
    exact ⟨_, List.mem_map_of_mem hu, (tableParameter?_eq_none_iff _).2 hpin⟩

theorem parameterTraffic_of_needed {types : TypeCatalog} {rule : EffectiveRule}
    {token : RunToken} {connection : Nat} {s : Script} {scanned : ScriptVariables}
    {declarations : String} {needed : Bool} {made : List Exchange}
    (hscan : scanVariables s.text = some scanned)
    (hcheck : checkTempTableNames (ExecutableUnit.script s).label
      (scanned.undeclared.map VariableUse.key) s.tempTables = .ok ())
    (hneeded : needed = true ↔
      ∃ u ∈ scanned.undeclared, ∀ t, pinnedType? types s rule u.name ≠ some (.table t))
    (hmade : if needed then
        ∃ refusal?, made = [⟨⟨connection, .query, describeParameters,
          [token.globalize (declarations ++ s.text)]⟩, refusal?⟩]
      else made = []) :
    s.ParameterTraffic types rule token connection made := by
  cases needed with
  | true =>
      obtain ⟨refusal?, rfl⟩ := hmade
      exact .asked declarations refusal? ⟨scanned, hscan, hcheck, hneeded.1 rfl⟩
  | false =>
      obtain rfl := hmade
      refine .unasked ?_
      rintro ⟨scanned', hscan', -, hunpinned⟩
      obtain rfl := Option.some.inj (hscan.symm.trans hscan')
      exact Bool.false_ne_true (hneeded.2 hunpinned)

end Script

namespace Inference

theorem ensures_describedRows (connection : Nat) (unit batch : String) (needed : Bool) (n : Nat) :
    (describedRows connection unit batch needed : Session σ (List Row)).Ensures n fun made _ m =>
      m = n ∧ if needed then
        ∃ refusal?, made = [⟨⟨connection, .query, describeParameters, [batch]⟩, refusal?⟩]
      else made = [] := by
  unfold describedRows
  cases needed with
  | false => exact Session.ensures_pure ⟨rfl, rfl⟩
  | true =>
      refine Session.ensures_lift_bind (ensures_call _ _) ?_
      rintro _ a k ⟨rfl, rfl⟩
      cases a with
      | ok rows => exact Session.ensures_pure ⟨rfl, none, rfl⟩
      | error e => exact Session.ensures_throw ⟨rfl, some e, rfl⟩

theorem ensures_scriptParameters (connection : Nat) (ctx : InferenceContext) (s : Script)
    (rule : EffectiveRule) (n : Nat) :
    (scriptParameters connection ctx s rule : Session σ Parameters).Ensures n fun made _ m =>
      s.ParameterTraffic ctx.types rule ctx.token connection made ∧ m = n := by
  unfold scriptParameters
  dsimp only
  split
  · rename_i scanned hscan
    refine (Session.ensures_ofExcept _).bind ?_ ?_
    · rintro _ u k ⟨rfl, rfl, hcheck⟩
      have hneeded := decide_eq_true_iff.trans
        (Script.length_tableParameters_lt_iff ctx.types rule s scanned.undeclared)
      refine (ensures_describedRows connection _ _ _ _).bind ?_ ?_
      · rintro made rows m ⟨rfl, hmade⟩
        refine (Session.ensures_ofExcept _).bind ?_ ?_
        · rintro _ described m ⟨rfl, rfl, -⟩
          refine Session.ensures_pure ⟨?_, rfl⟩
          rw [List.append_nil, List.append_nil]
          exact Script.parameterTraffic_of_needed hscan hcheck hneeded hmade
        · rintro _ e m ⟨rfl, rfl, -⟩
          refine ⟨?_, rfl⟩
          rw [List.append_nil]
          exact Script.parameterTraffic_of_needed hscan hcheck hneeded hmade
      · rintro made e m ⟨rfl, hmade⟩
        exact ⟨Script.parameterTraffic_of_needed hscan hcheck hneeded hmade, rfl⟩
    · rintro _ e k ⟨rfl, rfl, f, -, hcheck⟩
      refine ⟨.unasked ?_, rfl⟩
      rintro ⟨scanned', hscan', hcheck', -⟩
      obtain rfl := Option.some.inj (hscan.symm.trans hscan')
      cases hcheck.symm.trans hcheck'
  · rename_i hscan
    refine Session.ensures_throw ⟨.unasked ?_, rfl⟩
    rintro ⟨scanned, hscan', -⟩
    exact hscan scanned hscan'

end Inference

namespace TempTable

/-- The exchanges about the columns of a temp table. -/
def Traffic (token : RunToken) (connection : Nat) (t : TempTable) (n : Nat)
    (made : List Exchange) (m : Nat) : Prop :=
  (Command.ofUnit token {} (.tempTable t)).Traffic token connection n made m

/-- What sandboxes take from a temp table. -/
def texts (t : TempTable) : String × String :=
  (t.name, t.definition)

end TempTable

namespace ModelUnit

theorem ensures_inferTempTable (connection : Nat) (ctx : InferenceContext) (t : TempTable)
    (n : Nat) :
    (inferTempTable connection ctx t : Session σ TempTable).Ensures n fun made r m =>
      t.Traffic ctx.token connection n made m ∧ ∀ t', r = .ok t' → t'.texts = t.texts := by
  refine (ensures_inferResultSet connection ctx (.tempTable t) {} n).bind ?_ ?_
  · intro made shape k htraffic
    refine Session.ensures_pure ⟨by rwa [List.append_nil], ?_⟩
    rintro _ ⟨⟩
    rfl
  · intro made e k htraffic
    exact ⟨htraffic, nofun⟩

@[simp] theorem tempTables_withParameters (u : ModelUnit) (ps : List Parameter) :
    (u.withParameters ps).tempTables = u.tempTables := by
  cases u <;> rfl

@[simp] theorem tempTables_withTempTables (u : ModelUnit) (ts : List TempTable) :
    (u.withTempTables ts).tempTables = ts := by
  cases u <;> rfl

/-- The exchanges about the columns of a unit, whose temp tables may have got columns by then. There
are none if the inference ended before. -/
inductive ColumnTraffic (rule : EffectiveRule) (token : RunToken) (connection : Nat)
    (u : ModelUnit) : Nat → List Exchange → Nat → Prop
  | unasked (n : Nat) : ColumnTraffic rule token connection u n [] n
  | asked {ts : List TempTable} {n m : Nat} {made : List Exchange} :
      ts.map TempTable.texts = u.tempTables.map TempTable.texts →
      (Command.ofUnit token rule (u.withTempTables ts).executable).Traffic token connection n
        made m →
      ColumnTraffic rule token connection u n made m

/-- The exchanges about the columns of a unit: those about some of its temp tables, then its own. -/
inductive ShapeTraffic (rule : EffectiveRule) (token : RunToken) (connection : Nat)
    (u : ModelUnit) (n : Nat) : List Exchange → List Exchange → Nat → Prop
  | mk {reached : List TempTable} {tables columns : List Exchange} {k m : Nat} :
      reached <+: u.tempTables →
      Chain (TempTable.Traffic token connection) reached n tables k →
      u.ColumnTraffic rule token connection k columns m →
      ShapeTraffic rule token connection u n tables columns m

theorem ensures_inferColumns (connection : Nat) (ctx : InferenceContext) (rule : EffectiveRule)
    (warnings : List Warning) (u : ModelUnit) (n : Nat) :
    (inferColumns connection ctx rule warnings u : Session σ UnitOutcome).Ensures n
      fun made _ m => ∃ tables columns, made = tables ++ columns ∧
        u.ShapeTraffic rule ctx.token connection n tables columns m := by
  have htables := (Session.ensures_mapM (f := inferTempTable (σ := σ) connection ctx)
    (fun t n => (ensures_inferTempTable connection ctx t n).mono fun _ _ _ h => h.1)
    u.tempTables n).and
    (Session.ensures_mapM_values
      (fun t n => (ensures_inferTempTable connection ctx t n).mono fun _ _ _ h => h.2)
      u.tempTables n)
  refine Session.Ensures.bind htables ?_ ?_
  · rintro tables ts k ⟨⟨reached, hpre, hchain⟩, htexts⟩
    refine (ensures_inferResultSet connection ctx _ rule k).bind ?_ ?_
    · intro columns shape m hcolumns
      have hshape : ∃ tables' columns', tables ++ (columns ++ []) = tables' ++ columns' ∧
          u.ShapeTraffic rule ctx.token connection n tables' columns' m := by
        refine ⟨tables, columns, ?_, .mk hpre hchain (.asked (htexts ts rfl) hcolumns)⟩
        rw [List.append_nil]
      dsimp only
      split
      · exact Session.ensures_pure hshape
      · exact Session.ensures_pure hshape
    · intro columns e m hcolumns
      exact ⟨tables, columns, rfl, .mk hpre hchain (.asked (htexts ts rfl) hcolumns)⟩
  · rintro tables e k ⟨⟨reached, hpre, hchain⟩, -⟩
    exact ⟨tables, [], (List.append_nil tables).symm, .mk hpre hchain (.unasked k)⟩

/-- The parameters of procedures are never described. -/
def AsksForParameters (types : TypeCatalog) (rule : EffectiveRule) : ModelUnit → Prop
  | script s => s.AsksForParameters types rule
  | procedure _ => False

/-- The exchanges about the parameters of a unit. The server is not asked about a procedure. -/
def ParameterTraffic (types : TypeCatalog) (rule : EffectiveRule) (token : RunToken)
    (connection : Nat) : ModelUnit → List Exchange → Prop
  | script s => s.ParameterTraffic types rule token connection
  | procedure _ => fun made => made = []

theorem ensures_inferParameters (connection : Nat) (ctx : InferenceContext) (u : ModelUnit)
    (rule : EffectiveRule) (n : Nat) :
    (inferParameters connection ctx u.executable rule : Session σ Parameters).Ensures n
      fun made _ m => u.ParameterTraffic ctx.types rule ctx.token connection made ∧ m = n := by
  cases u with
  | script s => exact ensures_scriptParameters connection ctx s rule n
  | procedure p =>
      refine (Session.ensures_ofExcept (procedureParameters p rule)).mono ?_
      rintro made r m ⟨rfl, rfl, -⟩
      exact ⟨rfl, rfl⟩

end ModelUnit

/-- The exchanges about a unit, by what they are about. -/
structure UnitLog where
  parameters : List Exchange := []
  tempTables : List Exchange := []
  columns : List Exchange := []

namespace UnitLog

/-- The exchanges in the order in which they are made. -/
def all (l : UnitLog) : List Exchange :=
  l.parameters ++ (l.tempTables ++ l.columns)

end UnitLog

namespace ModelUnit

/-- The exchanges about a unit, which has the temp tables of its rule. There are none if these are
at fault. -/
inductive Traffic (types : TypeCatalog) (rule : EffectiveRule) (token : RunToken)
    (connection : Nat) (u : ModelUnit) : Nat → UnitLog → Nat → Prop
  | faulty {f : Fault} (n : Nat) :
      u.withRuleTables rule = .error f →
      Traffic types rule token connection u n {} n
  | attached {attached : ModelUnit} {ps : List Parameter} {n m : Nat} {l : UnitLog} :
      u.withRuleTables rule = .ok attached →
      attached.ParameterTraffic types rule token connection l.parameters →
      (attached.withParameters ps).ShapeTraffic rule token connection n l.tempTables l.columns m →
      Traffic types rule token connection u n l m

theorem Traffic.of_parameters {types : TypeCatalog} {rule : EffectiveRule} {token : RunToken}
    {connection n : Nat} {u attached : ModelUnit} {made : List Exchange}
    (hattached : u.withRuleTables rule = .ok attached)
    (hmade : attached.ParameterTraffic types rule token connection made) :
    u.Traffic types rule token connection n { parameters := made } n := by
  have hshape : (attached.withParameters []).ShapeTraffic rule token connection n [] [] n :=
    .mk List.nil_prefix (.nil n) (.unasked n)
  exact .attached hattached hmade hshape

theorem ensures_infer (connection : Nat) (ctx : InferenceContext) (rules : RuleSet)
    (ordinal : Nat) (u : ModelUnit) (n : Nat) :
    (u.infer connection ctx rules ordinal : Session σ UnitOutcome).Ensures n fun made _ m =>
      ∃ l : UnitLog, made = l.all ∧
        u.Traffic ctx.types (rules.ruleFor u.key) (ctx.token.forUnit ordinal) connection n l m := by
  unfold infer
  dsimp only
  refine (Session.ensures_ofExcept _).bind ?_ ?_
  · rintro _ attached k ⟨rfl, rfl, hattached⟩
    refine (ensures_inferParameters connection _ attached _ _).bind ?_ ?_
    · rintro parameters found m ⟨hparameters, rfl⟩
      split
      · refine Session.ensures_pure ⟨{ parameters }, ?_, .of_parameters hattached hparameters⟩
        simp [UnitLog.all]
      · refine (ensures_inferColumns connection _ _ _ _ _).mono ?_
        rintro _ r m ⟨tempTables, columns, rfl, hshape⟩
        exact ⟨{ parameters, tempTables, columns }, rfl, .attached hattached hparameters hshape⟩
    · rintro parameters e m ⟨hparameters, rfl⟩
      refine ⟨{ parameters }, ?_, .of_parameters hattached hparameters⟩
      simp [UnitLog.all]
  · rintro _ e k ⟨rfl, rfl, f, -, hfaulty⟩
    exact ⟨{}, rfl, .faulty _ hfaulty⟩

end ModelUnit

end QueryShape
