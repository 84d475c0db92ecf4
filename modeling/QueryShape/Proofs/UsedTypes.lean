import QueryShape.Proofs.ResolvedParameters

namespace QueryShape

open QueryShape.Inference

variable {σ : Type}

/-- The number is a signed one of 32 bits. -/
def FitsIn32 (n : Int) : Prop :=
  -0x80000000 ≤ n ∧ n < 0x80000000

instance (n : Int) : Decidable (FitsIn32 n) :=
  inferInstanceAs (Decidable (_ ∧ _))

namespace TypeCatalog

variable {types : TypeCatalog} {t : TableType}

theorem id_of_tableTypeOfRows {id : Int} {rows : List Row}
    (h : types.tableTypeOfRows id rows = .ok t) : t.id = narrow32 id := by
  obtain ⟨columns, -, rfl⟩ := map_eq_ok.1 h
  rfl

theorem distinctIds_ofRows {typeRows rows : List Row}
    (h : ∀ row ∈ rows, FitsIn32 (row.int "user_type_id")) :
    (ofRows typeRows rows).1.tableTypes.Pairwise fun t u => t.id ≠ u.id := by
  refine List.pairwise_filterMap.2 (List.pairwise_map.2 (List.pairwise_map.2 ?_))
  refine (nodup_orderedKeys _ _).imp_of_mem fun {a b} ha hb hne t ht u hu => ?_
  have hwhole : ∀ id ∈ orderedKeys (· ≤ ·) (rows.map (·.int "user_type_id")),
      narrow32 id = id := by
    intro id hid
    obtain ⟨row, hrow, rfl⟩ := List.mem_map.1 (mem_orderedKeys.1 hid)
    exact narrow32_eq_self (h row hrow).1 (h row hrow).2
  rw [id_of_tableTypeOfRows (toOption_eq_some_iff.1 ht),
    id_of_tableTypeOfRows (toOption_eq_some_iff.1 hu), hwhole a ha, hwhole b hb]
  exact hne

theorem mem_of_tableType? {id : Int} (h : types.tableType? id = some t) : t ∈ types.tableTypes :=
  List.mem_of_find?_eq_some h

theorem mem_of_tableTypeNamed? {name : String} (h : types.tableTypeNamed? name = some t) :
    t ∈ types.tableTypes :=
  List.mem_of_find?_eq_some h

end TypeCatalog

/-- The tables that parameters take are of types in the catalog. -/
def TakeTablesOf (types : TypeCatalog) (ps : List Parameter) : Prop :=
  ∀ p ∈ ps, ∀ t, p.tableType? = some t → t ∈ types.tableTypes

namespace Inference

variable {types : TypeCatalog} {rule : EffectiveRule} {p : Parameter} {t : TableType}

theorem takeTablesOf_byPosition {ps : List Parameter} (h : TakeTablesOf types ps) :
    TakeTablesOf types (byPosition ps) :=
  fun p hp => h p ((List.mergeSort_perm ps _).mem_iff.1 hp)

theorem mem_of_pinnedType? {script : Script} {name : String}
    (h : pinnedType? types script rule name = some (.table t)) : t ∈ types.tableTypes := by
  obtain ⟨declaration, -, hpin⟩ := Option.map_eq_some_iff.1 h
  split at hpin
  · rename_i u hnamed
    rw [← PinnedType.table.inj hpin]
    exact TypeCatalog.mem_of_tableTypeNamed? hnamed
  · cases hpin

theorem mem_of_tableParameter? {script : Script} {u : VariableUse}
    (h : PinnedVariable.tableParameter? ⟨u, pinnedType? types script rule u.name⟩ = some p)
    (htable : p.tableType? = some t) : t ∈ types.tableTypes := by
  unfold PinnedVariable.tableParameter? at h
  split at h
  · rename_i pinned hpin
    obtain rfl := Option.some.inj h
    obtain rfl : pinned = t := Option.some.inj htable
    exact mem_of_pinnedType? hpin
  · cases h

theorem mem_of_describedParameter {unit stem : String} {scanned : ScriptVariables} {r : Row}
    (h : describedParameter types unit stem scanned rule r = .ok p)
    (htable : p.tableType? = some t) : t ∈ types.tableTypes := by
  unfold describedParameter at h
  dsimp only at h
  split at h
  · rename_i suggested hid
    obtain rfl := Except.ok.inj h
    obtain rfl : suggested = t := Option.some.inj htable
    obtain ⟨id, -, hfound⟩ := Option.bind_eq_some_iff.1 hid
    exact TypeCatalog.mem_of_tableType? hfound
  · split at h
    · cases h
    · obtain rfl := Except.ok.inj h
      cases htable

theorem takeTablesOf_scriptParameters (connection : Nat) (ctx : InferenceContext) (s : Script)
    (rule : EffectiveRule) :
    (scriptParameters connection ctx s rule : Session σ Parameters).Yields fun found =>
      TakeTablesOf ctx.types found.parameters := by
  refine (yields_scriptParameters connection ctx s rule).mono ?_
  rintro found ⟨scanned, ps, hps, hfrom⟩
  rw [hps]
  refine takeTablesOf_byPosition fun p hp t htable => ?_
  rcases hfrom p hp with ⟨u, hu⟩ | ⟨r, hr⟩
  · exact mem_of_tableParameter? hu htable
  · exact mem_of_describedParameter hr htable

theorem type_withDefault (default? : Option String) (nullable? : Option Bool) (p : Parameter) :
    (withDefault default? nullable? p).type = p.type := by
  unfold withDefault
  split <;> rfl

theorem tableType?_procedureParameter (defaults : KeyMap String) (rule : EffectiveRule)
    (p : Parameter) : (procedureParameter defaults rule p).tableType? = p.tableType? := by
  unfold procedureParameter Parameter.tableType?
  cases htype : p.type with
  | table t => rfl
  | scalar type =>
      dsimp only
      rw [type_withDefault, htype]

theorem takeTablesOf_procedureParameters {procedure : Procedure} {found : Parameters}
    (hdeclared : TakeTablesOf types procedure.parameters)
    (h : procedureParameters procedure rule = .ok found) :
    TakeTablesOf types found.parameters := by
  obtain ⟨-, -, rfl⟩ := map_eq_ok.1 h
  refine takeTablesOf_byPosition fun p hp t htable => ?_
  obtain ⟨declared, hmem, rfl⟩ := List.mem_map.1 hp
  rw [tableType?_procedureParameter] at htable
  exact hdeclared declared hmem t htable

end Inference

theorem Parameter.mem_of_ofRow {types : TypeCatalog} {procedure : QualifiedName} {r : Row}
    {p : Parameter} {t : TableType} (h : Parameter.ofRow types procedure r = .ok p)
    (htable : p.tableType? = some t) : t ∈ types.tableTypes := by
  unfold Parameter.ofRow at h
  dsimp only at h
  split at h
  · rename_i found hid
    obtain rfl := Except.ok.inj h
    obtain rfl : found = t := Option.some.inj htable
    exact TypeCatalog.mem_of_tableType? hid
  · split at h
    · obtain rfl := Except.ok.inj h
      cases htable
    · cases h

namespace ProcedureCatalog

variable {types : TypeCatalog} {rows parameterRows : List Row}

theorem takeTablesOf_ofRows {rules : RuleSet} {catalog : ProcedureCatalog}
    (h : ofRows types rules rows parameterRows = .ok catalog) :
    ∀ p ∈ catalog.procedures, TakeTablesOf types p.parameters := by
  intro p hp q hq t htable
  obtain ⟨r, -, own, hown⟩ := exists_of_mem_forall₂_right (forall₂_of_ofRows h) p hp
  obtain ⟨-, -, hparameters⟩ := exists_of_procedureOfRow hown
  obtain ⟨row, -, hrow⟩ := exists_of_mem_mapM hparameters q hq
  exact Parameter.mem_of_ofRow hrow htable

end ProcedureCatalog

namespace ModelUnit

/-- The parameters that a unit has before inference and keeps: scripts have none. -/
def declared : ModelUnit → List Parameter
  | procedure p => p.parameters
  | script _ => []

theorem declared_withTempTables (u : ModelUnit) (ts : List TempTable) :
    (u.withTempTables ts).declared = u.declared := by
  cases u <;> rfl

variable (connection : Nat) (ctx : InferenceContext) {u : ModelUnit}

theorem takeTablesOf_inferParameters (rule : EffectiveRule)
    (h : TakeTablesOf ctx.types u.declared) :
    (inferParameters connection ctx u.executable rule : Session σ Parameters).Yields fun found =>
      TakeTablesOf ctx.types found.parameters := by
  cases u with
  | procedure p =>
      exact (Session.yields_ofExcept _).mono fun found hfound =>
        takeTablesOf_procedureParameters h hfound
  | script s => exact takeTablesOf_scriptParameters connection ctx s rule

theorem takeTablesOf_inferColumns {rule : EffectiveRule} {ws : List Warning}
    (h : TakeTablesOf ctx.types u.parameters) :
    (u.inferColumns connection ctx rule ws : Session σ UnitOutcome).Yields fun o =>
      ∀ v ∈ o.unit?, TakeTablesOf ctx.types v.parameters := by
  refine Session.yields_bind fun ts => Session.yields_bind fun shape => ?_
  dsimp only
  split
  · exact Session.yields_pure nofun
  · refine Session.yields_pure fun v hv => ?_
    obtain rfl := Option.some.inj hv
    rwa [parameters_withResultSet, parameters_withTempTables]

theorem takeTablesOf_infer (rules : RuleSet) (ordinal : Nat)
    (h : TakeTablesOf ctx.types u.declared) :
    (u.infer connection ctx rules ordinal : Session σ UnitOutcome).Yields fun o =>
      ∀ v ∈ o.unit?, TakeTablesOf ctx.types v.parameters := by
  refine (Session.yields_ofExcept _).bind fun v hv => ?_
  obtain ⟨ts, -, rfl⟩ := map_eq_ok.1 hv
  rw [← declared_withTempTables u ts] at h
  refine (takeTablesOf_inferParameters connection { ctx with token := ctx.token.forUnit ordinal }
    _ h).bind fun found hfound => ?_
  dsimp only
  split
  · exact Session.yields_pure nofun
  · refine takeTablesOf_inferColumns connection { ctx with token := ctx.token.forUnit ordinal } ?_
    rwa [parameters_withParameters]

end ModelUnit

/-- The rows about table types, which a run reads after those about system types. -/
def Catalog.loadTableTypeRows (connection : Nat) : Session σ (List Row) := do
  let _ ← rows connection .readingSystemTypes TypeCatalog.systemTypesQuery
  rows connection .readingTableTypes TypeCatalog.tableTypesQuery

namespace Assembly

variable {types : TypeCatalog} {t : TableType}

/-- A parameter of one of the units takes a table of the type. -/
def Takes (us : List ModelUnit) (t : TableType) : Prop :=
  ∃ u ∈ us, ∃ p ∈ u.parameters, p.tableType? = some t

theorem mem_parameterTypes_iff {us : List ModelUnit} :
    t ∈ ((proceduresIn us).flatMap (·.parameters) ++
        (scriptsIn us).flatMap (·.parameters)).filterMap Parameter.tableType? ↔ Takes us t := by
  have hunits : ((proceduresIn us).map ModelUnit.procedure ++
      (scriptsIn us).map ModelUnit.script).flatMap ModelUnit.parameters =
        (proceduresIn us).flatMap (·.parameters) ++ (scriptsIn us).flatMap (·.parameters) := by
    rw [List.flatMap_append, List.flatMap_map, List.flatMap_map]
    rfl
  rw [← hunits, List.mem_filterMap]
  simp only [List.mem_flatMap, (units_perm us).mem_iff, Takes]
  constructor
  · rintro ⟨p, ⟨u, hu, hp⟩, htable⟩
    exact ⟨u, hu, p, hp, htable⟩
  · rintro ⟨u, hu, p, hp, htable⟩
    exact ⟨p, ⟨u, hu, hp⟩, htable⟩

theorem Takes.of_mem_usedTypes {us : List ModelUnit}
    (h : t ∈ usedTypes (proceduresIn us) (scriptsIn us)) : Takes us t := by
  have hfirst := (List.mergeSort_perm _ _).subset h
  exact mem_parameterTypes_iff.1 ((firstOfEach_sublist _ _).subset hfirst)

/-- Where ids tell types apart, none is left out for another one with its id. -/
theorem Takes.mem_usedTypes {us : List ModelUnit}
    (hdistinct : types.tableTypes.Pairwise fun t u => t.id ≠ u.id)
    (hunits : ∀ u ∈ us, TakeTablesOf types u.parameters) (h : Takes us t) :
    t ∈ usedTypes (proceduresIn us) (scriptsIn us) := by
  have hcatalog : ∀ u, Takes us u → u ∈ types.tableTypes := by
    rintro u ⟨unit, hunit, p, hp, htable⟩
    exact hunits unit hunit p hp u htable
  obtain ⟨u, hu, hid⟩ := List.mem_map.1
    (mem_map_firstOfEach.2 (List.mem_map_of_mem (f := TableType.id) (mem_parameterTypes_iff.2 h)))
  have htaken := mem_parameterTypes_iff.1 ((firstOfEach_sublist _ _).subset hu)
  obtain rfl : u = t :=
    eq_of_key_eq_of_pairwise hdistinct (hcatalog u htaken) (hcatalog t h) hid
  exact (List.mergeSort_perm _ _).mem_iff.2 hu

theorem nodup_ids_usedTypes (procedures : List Procedure) (scripts : List Script) :
    ((usedTypes procedures scripts).map (·.id)).Nodup := by
  refine ((List.mergeSort_perm _ _).map _).nodup_iff.2 ?_
  exact List.pairwise_map.2 (pairwise_firstOfEach TableType.id _)

theorem Takes.congr {us vs : List ModelUnit} (h : us.Perm vs) : Takes us t ↔ Takes vs t := by
  simp only [Takes, h.mem_iff]

theorem Groundwork.IsLaid.takeTablesOf {rules : RuleSet} {userScripts : List Script}
    {g : Groundwork} (h : g.IsLaid rules userScripts) :
    ∀ u ∈ g.units, TakeTablesOf g.types u.declared := by
  cases h with
  | ofRows typeRows tableTypeRows columnRows keyRows procedureRows parameterRows hcatalog _ =>
      intro u hu
      rcases List.mem_append.1 hu with hu | hu
      · obtain ⟨p, hp, rfl⟩ := List.mem_map.1 hu
        exact ProcedureCatalog.takeTablesOf_ofRows hcatalog p hp
      · obtain ⟨s, -, rfl⟩ := List.mem_map.1 hu
        exact List.forall_mem_nil _

theorem Groundwork.exists_tableTypeRows_of_lay {connection : Nat} {rules : RuleSet}
    {userScripts : List Script} {w : World σ} {g : Groundwork}
    (h : ((lay connection rules userScripts).outcome w).1 = .ok g) :
    ∃ typeRows rows, ((Catalog.loadTableTypeRows connection).outcome w).1 = .ok rows ∧
      g.types = (TypeCatalog.ofRows typeRows rows).1 := by
  obtain ⟨typeWarnings, v, tableWarnings, v', htypes, -⟩ := exists_loads_of_lay h
  obtain ⟨typeRows, u, htypeRows, hrest⟩ :=
    Session.exists_of_outcome_bind_eq_ok (congrArg Prod.fst htypes)
  obtain ⟨rows, u', hrows, hall⟩ := Session.exists_of_outcome_bind_eq_ok hrest
  refine ⟨typeRows, rows, ?_, (congrArg Prod.fst (Except.ok.inj hall)).symm⟩
  rw [Catalog.loadTableTypeRows, Session.outcome_bind, htypeRows]
  exact congrArg Prod.fst hrows

/-- The table types of a model are exactly those that a parameter of one of its units takes, each
once and by schema and name. They are types of the catalog. -/
theorem assembleBy_usedTypes {schedule : Schedule} {connection : Nat} {canConnect : Bool}
    {rules : RuleSet} {userScripts : List Script} {options : RunOptions} {w : World σ} {m : Model}
    (h : ((assembleBy schedule connection canConnect rules userScripts options).outcome w).1 =
      .ok m)
    (hids : ∀ rows, ((Catalog.loadTableTypeRows connection).outcome w).1 = .ok rows →
      ∀ row ∈ rows, FitsIn32 (row.int "user_type_id")) :
    (∀ t, t ∈ m.tableTypes ↔ ∃ u ∈ m.units, ∃ p ∈ u.parameters, p.tableType? = some t) ∧
      (m.tableTypes.map (·.id)).Nodup ∧
      (m.tableTypes.Pairwise fun a b => a.name.Le b.name) ∧
      ∃ g : Groundwork, ((Groundwork.lay connection rules userScripts).outcome w).1 = .ok g ∧
        ∀ t ∈ m.tableTypes, t ∈ g.types.tableTypes := by
  obtain ⟨g, outcomes, hlay, rfl, hinferred⟩ := exists_outcomes_of_assembleBy h
  obtain ⟨typeRows, rows, hrows, htypes⟩ := Groundwork.exists_tableTypeRows_of_lay hlay
  have hdistinct : g.types.tableTypes.Pairwise fun t u => t.id ≠ u.id := by
    rw [htypes]
    exact TypeCatalog.distinctIds_ofRows (hids rows hrows)
  have hunits := hinferred (fun u o => TakeTablesOf g.types u.declared →
      ∀ v ∈ o.unit?, TakeTablesOf g.types v.parameters)
    fun connection ordinal _ v o ho hdeclared =>
      ModelUnit.takeTablesOf_infer connection _ rules ordinal hdeclared v o ho
  have hkept : ∀ u ∈ outcomes.filterMap (·.unit?), TakeTablesOf g.types u.parameters := by
    intro u hu
    obtain ⟨o, ho, hunit⟩ := List.mem_filterMap.1 hu
    obtain ⟨c, hc, hfrom⟩ := exists_of_mem_forall₂_right hunits o ho
    exact hfrom ((Groundwork.isLaid_of_lay hlay).takeTablesOf c hc) u hunit
  have hmem (t : TableType) : t ∈ (g.model rules outcomes).tableTypes ↔
      Takes (outcomes.filterMap (·.unit?)) t :=
    ⟨Takes.of_mem_usedTypes, Takes.mem_usedTypes hdistinct hkept⟩
  refine ⟨fun t => ?_, nodup_ids_usedTypes _ _, QualifiedName.pairwise_mergeSort _ _, g, hlay, ?_⟩
  · rw [hmem]
    exact (Takes.congr (units_modelOf_perm _ _ _)).symm
  · intro t ht
    obtain ⟨u, hu, p, hp, htable⟩ := (hmem t).1 ht
    exact hkept u hu p hp t htable

/-- The table type is in the model for the sake of the script that reads a table of it. -/
theorem untilRun_usedTypes :
    ∃ m, untilRun = .ok m ∧ m.tableTypes.map (·.name) = [⟨"dbo", "Ids"⟩] ∧
      ∀ t ∈ m.tableTypes, ∃ u ∈ m.units, ∃ p ∈ u.parameters, p.tableType? = some t := by
  have hresult : untilRun.toOption.map (fun m => m.tableTypes.map (·.name)) =
      some [⟨"dbo", "Ids"⟩] := by
    decide +kernel
  obtain ⟨m, hm, hnames⟩ := Option.map_eq_some_iff.1 hresult
  have hrun := toOption_eq_some_iff.1 hm
  have hids : ∀ rows, ((Catalog.loadTableTypeRows 0).outcome
      { server := untilServer, state := 0 }).1 = .ok rows →
        ∀ row ∈ rows, FitsIn32 (row.int "user_type_id") := by
    intro rows hrows
    rw [← Except.ok.inj hrows]
    exact List.forall_mem_singleton.2 (by decide +kernel)
  obtain ⟨hused, -⟩ := assembleBy_usedTypes hrun hids
  exact ⟨m, hrun, hnames, fun t => (hused t).1⟩

end Assembly

end QueryShape
