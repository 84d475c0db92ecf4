import QueryShape.Proofs.Accounts.Run
import QueryShape.Proofs.Variables.Description

namespace QueryShape

variable {σ : Type}

namespace Parameter

/-- A parameter that only takes a value in, one that callers cannot leave out. -/
structure IsMandatoryInput (p : Parameter) : Prop where
  isOutput : p.isOutput = false
  isCursor : p.isCursor = false
  isNullable : p.isNullable = false
  default? : p.default? = none

/-- Parameters in the order of their positions, of which those that take a table can only do that.
-/
structure AreResolved (ps : List Parameter) : Prop where
  ordered : ps.Pairwise fun p q => p.position ≤ q.position
  tables : ∀ p ∈ ps, p.tableType?.isSome = true → p.IsMandatoryInput

end Parameter

open Parameter

namespace Inference

theorem isMandatoryInput_tableParameter (name : String) (position : Int) (type : TableType) :
    (tableParameter name position type).IsMandatoryInput :=
  ⟨rfl, rfl, rfl, rfl⟩

theorem areResolved_byPosition {ps : List Parameter}
    (h : ∀ p ∈ ps, p.tableType?.isSome = true → p.IsMandatoryInput) :
    AreResolved (byPosition ps) where
  ordered := pairwise_byPosition ps
  tables := fun p hp => h p ((List.mergeSort_perm ps _).mem_iff.1 hp)

theorem PinnedVariable.isMandatoryInput_of_tableParameter? {v : PinnedVariable} {p : Parameter}
    (h : v.tableParameter? = some p) : p.IsMandatoryInput := by
  unfold tableParameter? at h
  split at h
  · obtain rfl := Option.some.inj h
    exact isMandatoryInput_tableParameter _ _ _
  · cases h

theorem isMandatoryInput_of_describedParameter {types : TypeCatalog} {unit stem : String}
    {scanned : ScriptVariables} {rule : EffectiveRule} {r : Row} {p : Parameter}
    (h : describedParameter types unit stem scanned rule r = .ok p)
    (htable : p.tableType?.isSome = true) : p.IsMandatoryInput := by
  unfold describedParameter at h
  dsimp only at h
  split at h
  · obtain rfl := Except.ok.inj h
    exact isMandatoryInput_tableParameter _ _ _
  · split at h
    · cases h
    · obtain rfl := Except.ok.inj h
      cases htable

/-- The parameters of a script come from pinned table types and from rows of a description. -/
theorem yields_scriptParameters (connection : Nat) (ctx : InferenceContext) (s : Script)
    (rule : EffectiveRule) :
    (scriptParameters connection ctx s rule : Session σ Parameters).Yields fun found =>
      ∃ (scanned : ScriptVariables) (ps : List Parameter), found.parameters = byPosition ps ∧
        ∀ p ∈ ps,
          (∃ u : VariableUse,
            PinnedVariable.tableParameter? ⟨u, pinnedType? ctx.types s rule u.name⟩ = some p) ∨
          ∃ r, describedParameter ctx.types (ExecutableUnit.script s).label
            ctx.token.placeholderStem scanned rule r = .ok p := by
  unfold scriptParameters
  dsimp only
  split
  · rename_i scanned _
    refine Session.yields_bind fun _ => Session.yields_bind fun rows =>
      (Session.yields_ofExcept _).bind fun described hdescribed => Session.yields_pure ?_
    refine ⟨scanned, _, rfl, fun p hp => ?_⟩
    rcases List.mem_append.1 hp with hp | hp
    · obtain ⟨v, hv, hparameter⟩ := List.mem_filterMap.1 hp
      obtain ⟨u, -, rfl⟩ := List.mem_map.1 hv
      exact .inl ⟨u, hparameter⟩
    · obtain ⟨r, -, hr⟩ := exists_of_mem_mapM hdescribed p hp
      exact .inr ⟨r, hr⟩
  · exact Session.yields_throw _

theorem areResolved_scriptParameters (connection : Nat) (ctx : InferenceContext) (s : Script)
    (rule : EffectiveRule) :
    (scriptParameters connection ctx s rule : Session σ Parameters).Yields fun found =>
      AreResolved found.parameters := by
  refine (yields_scriptParameters connection ctx s rule).mono ?_
  rintro found ⟨scanned, ps, hps, hfrom⟩
  rw [hps]
  refine areResolved_byPosition fun p hp htable => ?_
  rcases hfrom p hp with ⟨u, hu⟩ | ⟨r, hr⟩
  · exact PinnedVariable.isMandatoryInput_of_tableParameter? hu
  · exact isMandatoryInput_of_describedParameter hr htable

section ProcedureParameters

variable (defaults : KeyMap String) (rule : EffectiveRule) (p : Parameter)

theorem name_procedureParameter : (procedureParameter defaults rule p).name = p.name := by
  unfold procedureParameter withDefault
  split
  · rfl
  · split <;> rfl

variable {defaults rule p}

theorem isMandatoryInput_of_procedureParameter
    (h : (procedureParameter defaults rule p).tableType?.isSome = true) :
    (procedureParameter defaults rule p).IsMandatoryInput := by
  unfold procedureParameter at h ⊢
  split
  · exact isMandatoryInput_tableParameter _ _ _
  · rename_i t htype
    have hscalar : ∀ (default? : Option String) (nullable? : Option Bool),
        (withDefault default? nullable? p).tableType? = none := by
      intro default? nullable?
      unfold tableType?
      have hkept : (withDefault default? nullable? p).type = .scalar t := by
        rw [← htype]
        unfold withDefault
        split <;> rfl
      rw [hkept]
    simp only [htype, hscalar] at h
    cases h

theorem default?_procedureParameter_of_isNullable
    (h : (procedureParameter defaults rule p).isNullable = true) :
    (procedureParameter defaults rule p).default?.isSome = true := by
  unfold procedureParameter at h ⊢
  split at h
  · cases h
  · unfold withDefault at h ⊢
    split at h
    · rfl
    · cases h
    · exact Option.isSome_of_any h

theorem default?_procedureParameter_of_required (h : rule.nullable? p.name = some false) :
    (procedureParameter defaults rule p).default? = none := by
  unfold procedureParameter
  split
  · rfl
  · rw [h]
    rfl

end ProcedureParameters

end Inference

open QueryShape.Inference

/-- The procedure is the declared one with the parameters that its definition and a rule make of the
declared ones. -/
structure Procedure.ResolvedFrom (rule : EffectiveRule) (declared p : Procedure) : Prop where
  name : p.name = declared.name
  objectId : p.objectId = declared.objectId
  names : (p.parameters.map (·.name)).Perm (declared.parameters.map (·.name))
  nullable : ∀ q ∈ p.parameters, q.isNullable = true → q.default?.isSome = true
  required : ∀ q ∈ p.parameters, rule.nullable? q.name = some false → q.default? = none

theorem Procedure.resolvedFrom_of_procedureParameters {p : Procedure} {rule : EffectiveRule}
    {found : Parameters} (h : procedureParameters p rule = .ok found) :
    p.ResolvedFrom rule { p with parameters := found.parameters } ∧
      AreResolved found.parameters := by
  obtain ⟨-, -, rfl⟩ := map_eq_ok.1 h
  dsimp only
  generalize procedureDefaults p.definition = defaults
  have hperm : (byPosition (p.parameters.map (procedureParameter defaults rule))).Perm
      (p.parameters.map (procedureParameter defaults rule)) :=
    List.mergeSort_perm _ _
  have hfrom : ∀ q ∈ byPosition (p.parameters.map (procedureParameter defaults rule)),
      ∃ c, procedureParameter defaults rule c = q := by
    intro q hq
    obtain ⟨c, -, hc⟩ := List.mem_map.1 (hperm.subset hq)
    exact ⟨c, hc⟩
  refine ⟨⟨rfl, rfl, ?_, ?_, ?_⟩, ?_⟩
  · refine (hperm.map _).trans (List.Perm.of_eq ?_)
    rw [List.map_map]
    exact List.map_congr_left fun c _ => name_procedureParameter defaults rule c
  · intro q hq hnullable
    obtain ⟨c, rfl⟩ := hfrom q hq
    exact default?_procedureParameter_of_isNullable hnullable
  · intro q hq hrequired
    obtain ⟨c, rfl⟩ := hfrom q hq
    rw [name_procedureParameter] at hrequired
    exact default?_procedureParameter_of_required hrequired
  · refine areResolved_byPosition fun q hq htable => ?_
    obtain ⟨c, -, rfl⟩ := List.mem_map.1 hq
    exact isMandatoryInput_of_procedureParameter htable

namespace ModelUnit

/-- A unit with resolved parameters. Those of a procedure are resolved from the ones it had. -/
inductive ResolvedFrom (rules : RuleSet) : ModelUnit → ModelUnit → Prop
  | procedure {c p : Procedure} (hfrom : c.ResolvedFrom (rules.ruleFor (.procedure c.name)) p)
      (hparameters : AreResolved p.parameters) : ResolvedFrom rules (.procedure c) (.procedure p)
  | script {s t : Script} (hparameters : AreResolved t.parameters) :
      ResolvedFrom rules (.script s) (.script t)

namespace ResolvedFrom

variable {rules : RuleSet} {u v : ModelUnit}

theorem areResolved (h : ResolvedFrom rules u v) : AreResolved v.parameters := by
  cases h with
  | procedure _ hparameters => exact hparameters
  | script hparameters => exact hparameters

theorem withTempTables (h : ResolvedFrom rules u v) (ts : List TempTable) :
    ResolvedFrom rules u (v.withTempTables ts) := by
  cases h with
  | procedure hfrom hparameters =>
      exact .procedure ⟨hfrom.name, hfrom.objectId, hfrom.names, hfrom.nullable, hfrom.required⟩
        hparameters
  | script hparameters => exact .script hparameters

theorem withResultSet (h : ResolvedFrom rules u v) (columns : ResultSet) (names : List String) :
    ResolvedFrom rules u (v.withResultSet columns names) := by
  cases h with
  | procedure hfrom hparameters =>
      exact .procedure ⟨hfrom.name, hfrom.objectId, hfrom.names, hfrom.nullable, hfrom.required⟩
        hparameters
  | script hparameters => exact .script hparameters

-- Temp tables that a rule adds are there before parameters are inferred.
theorem of_withTempTables {ts : List TempTable} (h : ResolvedFrom rules (u.withTempTables ts) v) :
    ResolvedFrom rules u v := by
  cases u with
  | procedure c =>
      cases h with
      | procedure hfrom hparameters =>
          exact .procedure ⟨hfrom.name, hfrom.objectId, hfrom.names, hfrom.nullable,
            hfrom.required⟩ hparameters
  | script s =>
      cases h with
      | script hparameters => exact .script hparameters

end ResolvedFrom

variable {rules : RuleSet} {ctx : InferenceContext}

theorem resolvedFrom_inferParameters (connection : Nat) (u : ModelUnit) :
    (inferParameters connection ctx u.executable (rules.ruleFor u.key) :
      Session σ Parameters).Yields
        fun found => ResolvedFrom rules u (u.withParameters found.parameters) := by
  cases u with
  | procedure p =>
      refine (Session.yields_ofExcept _).mono fun found hfound => ?_
      obtain ⟨hfrom, hparameters⟩ := Procedure.resolvedFrom_of_procedureParameters hfound
      exact .procedure hfrom hparameters
  | script s =>
      refine (areResolved_scriptParameters connection ctx s _).mono fun found hparameters => ?_
      exact .script hparameters

theorem resolvedFrom_inferColumns {u v : ModelUnit} {rule : EffectiveRule} {ws : List Warning}
    (connection : Nat) (h : ResolvedFrom rules u v) :
    (v.inferColumns connection ctx rule ws : Session σ UnitOutcome).Yields
      fun o => ∀ x ∈ o.unit?, ResolvedFrom rules u x := by
  refine Session.yields_bind fun ts => Session.yields_bind fun shape => ?_
  dsimp only
  split
  · exact Session.yields_pure nofun
  · refine Session.yields_pure fun x hx => ?_
    obtain rfl := Option.some.inj hx
    exact (h.withTempTables ts).withResultSet _ _

theorem resolvedFrom_infer (connection ordinal : Nat) (u : ModelUnit) :
    (u.infer connection ctx rules ordinal : Session σ UnitOutcome).Yields
      fun o => ∀ x ∈ o.unit?, ResolvedFrom rules u x := by
  refine (Session.yields_ofExcept _).bind fun v hv => ?_
  obtain ⟨ts, -, rfl⟩ := map_eq_ok.1 hv
  rw [← key_withTempTables u ts]
  refine (resolvedFrom_inferParameters connection (u.withTempTables ts)).bind fun found hfound => ?_
  dsimp only
  split
  · exact Session.yields_pure nofun
  · exact resolvedFrom_inferColumns connection hfound.of_withTempTables

end ModelUnit

namespace Assembly

open QueryShape.ModelUnit

variable {rules : RuleSet}

theorem exists_kept {R : ModelUnit → ModelUnit → Prop} {units : List ModelUnit}
    {outcomes : List UnitOutcome}
    (h : List.Forall₂ (fun u o => ∀ v ∈ o.unit?, R u v) units outcomes) :
    ∃ kept, kept.Sublist units ∧ List.Forall₂ R kept (outcomes.filterMap (·.unit?)) := by
  induction h with
  | nil => exact ⟨[], .slnil, .nil⟩
  | @cons u o _ _ hfirst _ ih =>
      obtain ⟨kept, hsublist, hkept⟩ := ih
      cases hunit : o.unit? with
      | none =>
          rw [List.filterMap_cons_none hunit]
          exact ⟨kept, hsublist.cons u, hkept⟩
      | some v =>
          rw [List.filterMap_cons_some hunit]
          exact ⟨u :: kept, hsublist.cons_cons u, .cons (hfirst v hunit) hkept⟩

theorem forall₂_proceduresIn {us vs : List ModelUnit}
    (h : List.Forall₂ (ResolvedFrom rules) us vs) :
    List.Forall₂ (fun c p => c.ResolvedFrom (rules.ruleFor (.procedure c.name)) p)
      (proceduresIn us) (proceduresIn vs) := by
  induction h with
  | nil => exact .nil
  | cons hfirst _ ih =>
      cases hfirst with
      | procedure hfrom _ => exact .cons hfrom ih
      | script _ => exact ih

theorem proceduresIn_units (g : Groundwork) : proceduresIn g.units = g.catalog.procedures := by
  unfold proceduresIn Groundwork.units
  rw [List.filterMap_append, List.filterMap_map, List.filterMap_map]
  simp

/-- In a model, the parameters of every unit stand in the order of their positions, and those that
take a table are neither outputs nor cursors, are not nullable and have no default. Each procedure
has the parameters that the catalog has for it. Callers can leave out the nullable ones of these,
and none that a rule calls not nullable. -/
theorem assembleBy_resolvedParameters {schedule : Schedule} {connection : Nat} {canConnect : Bool}
    {userScripts : List Script} {options : RunOptions} {w : World σ} {m : Model}
    (h : ((assembleBy schedule connection canConnect rules userScripts options).outcome w).1 =
      .ok m) :
    (∀ u ∈ m.units,
      (u.parameters.Pairwise fun p q => p.position ≤ q.position) ∧
        ∀ p ∈ u.parameters, p.tableType?.isSome = true →
          p.isOutput = false ∧ p.isCursor = false ∧ p.isNullable = false ∧ p.default? = none) ∧
    ∃ (g : Groundwork) (procedureRows parameterRows : List Row) (declared found : List Procedure),
      ((Groundwork.lay connection rules userScripts).outcome w).1 = .ok g ∧
      ProcedureCatalog.ofRows g.types rules procedureRows parameterRows = .ok g.catalog ∧
      declared.Sublist g.catalog.procedures ∧
      m.procedures.Perm found ∧
      List.Forall₂ (fun c p => p.name = c.name ∧ p.objectId = c.objectId ∧
          (p.parameters.map (·.name)).Perm (c.parameters.map (·.name)) ∧
          ∀ q ∈ p.parameters,
            (q.isNullable = true → q.default?.isSome = true) ∧
            ((rules.ruleFor (.procedure p.name)).nullable? q.name = some false →
              q.default? = none))
        declared found := by
  unfold assembleBy at h
  obtain ⟨g, v, hlay, h⟩ := Session.exists_of_outcome_bind_eq_ok h
  obtain ⟨outcomes, x, houtcomes, h⟩ := Session.exists_of_outcome_bind_eq_ok h
  obtain rfl : g.model rules outcomes = m := Except.ok.inj h
  have hunits : (inferUnits schedule connection ⟨g.types, options.token, canConnect⟩ rules
      options.parallelism g.units : Session σ _).Yields
        (List.Forall₂ (fun u o => ∀ x ∈ o.unit?, ResolvedFrom rules u x) g.units) :=
    yields_inferUnits_of (fun connection ordinal u => u.resolvedFrom_infer connection ordinal)
      schedule connection options.parallelism g.units
  obtain ⟨kept, hsublist, hkept⟩ := exists_kept (hunits v outcomes (congrArg Prod.fst houtcomes))
  constructor
  · intro u hu
    have hmem : u ∈ outcomes.filterMap (·.unit?) := (units_modelOf_perm _ _ _).subset hu
    obtain ⟨c, -, hc⟩ := exists_of_mem_forall₂_right hkept u hmem
    refine ⟨hc.areResolved.ordered, fun p hp htable => ?_⟩
    have hinput := hc.areResolved.tables p hp htable
    exact ⟨hinput.isOutput, hinput.isCursor, hinput.isNullable, hinput.default?⟩
  · have hg : g.IsLaid rules userScripts := Groundwork.isLaid_of_lay (congrArg Prod.fst hlay)
    have hprocedures : (proceduresIn kept).Sublist g.catalog.procedures := by
      rw [← proceduresIn_units]
      exact hsublist.filterMap _
    cases hg with
    | ofRows _ _ _ _ procedureRows parameterRows hcatalog _ =>
        refine ⟨_, procedureRows, parameterRows, proceduresIn kept, _, congrArg Prod.fst hlay,
          hcatalog, hprocedures, List.mergeSort_perm _ _, ?_⟩
        refine (forall₂_proceduresIn hkept).imp fun c p hfrom => ?_
        refine ⟨hfrom.name, hfrom.objectId, hfrom.names, fun q hq => ?_⟩
        rw [hfrom.name]
        exact ⟨hfrom.nullable q hq, hfrom.required q hq⟩

/-- A server with a table type and a procedure. -/
def untilServer : Server Nat where
  connect _ asked := (.ok (), asked)
  execute _ _ asked := (.ok (), asked)
  query _ _ _ asked :=
    (.ok (match asked with
      | 0 => [⟨[("system_type_id", .int 56), ("name", .text "int")]⟩]
      | 1 => [⟨[("user_type_id", .int 257), ("schema_name", .text "dbo"),
          ("type_name", .text "Ids"), ("column_name", .text "Id"), ("system_type_id", .int 56)]⟩]
      | 4 => [⟨[("object_id", .int 1), ("schema_name", .text "dbo"),
          ("procedure_name", .text "find"),
          ("definition", .text "CREATE PROC find @until int AS SELECT 1")]⟩]
      | 5 => [⟨[("object_id", .int 1), ("parameter_id", .int 1), ("name", .text "@until"),
          ("system_type_id", .int 56)]⟩]
      | _ => []), asked + 1)
  describe _ _ asked := (.ok [], asked)

/-- A rule that lets callers leave out what it names. -/
def untilRules : RuleSet :=
  { (GlobRules.mk []).toRuleSet with
    includesProcedure := fun _ => true
    ruleFor := fun _ =>
      (({} : EffectiveRule).withParameter "@until" { nullable := some true }).withParameter "@ids"
        { sqlType := some "dbo.Ids", nullable := some true } }

def untilRun : Except Failure Model :=
  ((assembleBy .inTurn 0 false untilRules [{ identity := "fetch", text := "SELECT Id FROM @ids" }]
    { token := .ofText "tok" }).outcome { server := untilServer, state := 0 }).1

/-- The rule gives the procedure's parameter a default and the script's table none. -/
theorem untilRun_resolvedParameters :
    ∃ m, untilRun = .ok m ∧
      (m.units.map fun u => u.parameters.map fun p => (p.name, p.tableType?.isSome, p.default?)) =
        [[("@until", false, some "NULL")], [("@ids", true, none)]] ∧
      ∀ u ∈ m.units, ∀ p ∈ u.parameters, p.tableType?.isSome = true → p.isNullable = false := by
  have hresult : untilRun.toOption.map (fun m => m.units.map fun u =>
      u.parameters.map fun p => (p.name, p.tableType?.isSome, p.default?)) =
        some [[("@until", false, some "NULL")], [("@ids", true, none)]] := by
    decide +kernel
  cases hrun : untilRun with
  | error e =>
      rw [hrun] at hresult
      cases hresult
  | ok m =>
      rw [hrun] at hresult
      obtain ⟨hunits, -⟩ := assembleBy_resolvedParameters hrun
      refine ⟨m, rfl, Option.some.inj hresult, fun u hu p hp htable => ?_⟩
      exact ((hunits u hu).2 p hp htable).2.2.1

end Assembly

end QueryShape
