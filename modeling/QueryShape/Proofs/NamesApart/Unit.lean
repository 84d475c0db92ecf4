import QueryShape.Proofs.NamesApart.Batch
import QueryShape.Proofs.ResolvedParameters
import QueryShape.Proofs.TempTables

namespace QueryShape

open QueryShape.Inference
open QueryShape.Text

variable {σ : Type}

/-- No two of the names are the same, up to the case of ASCII letters. -/
def AreDistinctNames (names : List String) : Prop :=
  names.Pairwise fun a b => sameIgnoringCase a b = false

/-- The names of the tables that a definition creates. -/
def definedNames (definition : String) : List String :=
  (createdTableNames definition).getD []

/-- The name of a temp table as it is compared with the keys of parameters. -/
def TempTable.keyOf (name : String) : String :=
  lower (String.ofList (name.toList.dropWhile (· == '#')))

namespace ModelUnit

/-- The names of the temp tables that a unit has with its rule. -/
def tableNames (rule : EffectiveRule) (u : ModelUnit) : List String :=
  u.tempTables.map (·.name) ++ rule.tempTables.flatMap definedNames

/-- The keys of the parameters that a procedure has in the catalog or that a script leaves
undeclared. -/
def parameterKeys : ModelUnit → List String
  | procedure p => p.parameters.map Parameter.key
  | script s => ((scanVariables s.text).map fun v => v.undeclared.map VariableUse.key).getD []

/-- The temp tables that a unit has with its rule differ in their names from each other and from the
parameters that its text takes. -/
structure IsNamedApart (rule : EffectiveRule) (u : ModelUnit) : Prop where
  tables : AreDistinctNames (u.tableNames rule)
  parameters : ∀ name ∈ u.tableNames rule, TempTable.keyOf name ∉ u.parameterKeys

/-- The faults of a unit with a temp table under the name of one before it or of a parameter. They
include those of a definition that does not create one table. -/
inductive IsNameFault (rule : EffectiveRule) (u : ModelUnit) : Fault → Prop
  | repeated {front rest : List String} {name : String}
      (hnames : u.tableNames rule = front ++ name :: rest)
      (h : ∃ other ∈ front, sameIgnoringCase other name = true) :
      IsNameFault rule u (.duplicateTempTable u.label name)
  | shared {name : String} (htable : name ∈ u.tableNames rule)
      (hparameter : TempTable.keyOf name ∈ u.parameterKeys) :
      IsNameFault rule u (.tempTableNamesParameter u.label (TempTable.keyOf name))
  | malformed {definition : String} (hdefinition : definition ∈ rule.tempTables)
      (hnames : (definedNames definition).length ≠ 1) : IsNameFault rule u
        (.malformedTempTable u.label (definedNames definition).length definition)

variable {unit definition : String} {definitions : List String} {known ts : List TempTable}
  {rule : EffectiveRule} {u attached : ModelUnit} {f : Fault}

theorem addTempTable_eq_error (h : addTempTable unit known definition = .error f) :
    (∃ name, definedNames definition = [name] ∧ f = .duplicateTempTable unit name ∧
        ∃ other ∈ known.map (·.name), sameIgnoringCase other name = true) ∨
      (definedNames definition).length ≠ 1 ∧
        f = .malformedTempTable unit (definedNames definition).length definition := by
  unfold addTempTable at h
  split at h
  · rename_i name hnames
    split at h
    · rename_i hknown
      obtain ⟨t, ht, hsame⟩ := List.any_eq_true.1 hknown
      exact .inl ⟨name, hnames, (Except.error.inj h).symm, t.name, List.mem_map_of_mem ht, hsame⟩
    · cases h
  · rename_i names hnames
    refine .inr ⟨fun hone => ?_, (Except.error.inj h).symm⟩
    obtain ⟨name, hname⟩ := List.length_eq_one_iff.1 hone
    exact hnames name hname

theorem foldlM_addTempTable_eq_error
    (h : definitions.foldlM (addTempTable unit) known = .error f) :
    (∃ front name rest, known.map (·.name) ++ definitions.flatMap definedNames =
          front ++ name :: rest ∧ f = .duplicateTempTable unit name ∧
        ∃ other ∈ front, sameIgnoringCase other name = true) ∨
      ∃ definition ∈ definitions, (definedNames definition).length ≠ 1 ∧
        f = .malformedTempTable unit (definedNames definition).length definition := by
  induction definitions generalizing known with
  | nil => cases h
  | cons definition definitions ih =>
      rw [List.foldlM_cons] at h
      cases hfirst : addTempTable unit known definition with
      | error e =>
          rw [hfirst] at h
          obtain rfl : e = f := Except.error.inj h
          rcases addTempTable_eq_error hfirst with ⟨name, hnames, rfl, hother⟩ | ⟨hnames, rfl⟩
          · refine .inl ⟨_, name, definitions.flatMap definedNames, ?_, rfl, hother⟩
            rw [List.flatMap_cons, hnames]
            rfl
          · exact .inr ⟨definition, List.mem_cons_self, hnames, rfl⟩
      | ok next =>
          rw [hfirst] at h
          obtain ⟨t, rfl, rfl, hcreated, -⟩ := addTempTable_eq_ok hfirst
          rcases ih h with ⟨front, name, rest, hnames, hf, hother⟩ | ⟨d, hd, hmalformed⟩
          · refine .inl ⟨front, name, rest, ?_, hf, hother⟩
            rw [← hnames, List.flatMap_cons, definedNames, hcreated]
            simp
          · exact .inr ⟨d, List.mem_cons_of_mem _ hd, hmalformed⟩

theorem isNameFault_of_withRuleTables (h : u.withRuleTables rule = .error f) :
    IsNameFault rule u f := by
  unfold withRuleTables at h
  cases htables : rule.tempTables.foldlM (addTempTable u.label) u.tempTables with
  | ok ts =>
      rw [htables] at h
      cases h
  | error e =>
      rw [htables] at h
      obtain rfl : e = f := Except.error.inj h
      rcases foldlM_addTempTable_eq_error htables with
        ⟨front, name, rest, hnames, rfl, hother⟩ | ⟨definition, hdefinition, hnames, rfl⟩
      · exact .repeated hnames hother
      · exact .malformed hdefinition hnames

theorem areDistinctNames_of_foldlM (h : definitions.foldlM (addTempTable unit) known = .ok ts)
    (hknown : AreDistinctNames (known.map (·.name))) : AreDistinctNames (ts.map (·.name)) := by
  induction definitions generalizing known with
  | nil =>
      cases h
      exact hknown
  | cons definition definitions ih =>
      rw [List.foldlM_cons] at h
      obtain ⟨next, hfirst, hrest⟩ := bind_eq_ok.1 h
      obtain ⟨t, rfl, -, -, hnew⟩ := addTempTable_eq_ok hfirst
      refine ih hrest ?_
      rw [List.map_append, AreDistinctNames, List.pairwise_append]
      refine ⟨hknown, List.pairwise_singleton _ _, fun a ha b hb => ?_⟩
      obtain ⟨k, hk, rfl⟩ := List.mem_map.1 ha
      obtain rfl := List.mem_singleton.1 hb
      exact hnew k hk

theorem map_name_of_withRuleTables (h : u.withRuleTables rule = .ok attached) :
    attached.tempTables.map (·.name) = u.tableNames rule := by
  obtain ⟨added, rfl, hdefinitions, hadded⟩ := withRuleTables_eq_ok h
  have hnames : added.map (·.name) = rule.tempTables.flatMap definedNames := by
    rw [← hdefinitions, List.flatMap_map, List.map_eq_flatMap]
    refine List.flatMap_congr fun t ht => ?_
    rw [definedNames, hadded t ht]
    rfl
  rw [tempTables_withTempTables, List.map_append, hnames]
  rfl

end ModelUnit

/-- The server describes nothing but variables that the text it is given leaves undeclared. -/
def Server.DescribesUndeclared (s : Server σ) : Prop :=
  ∀ connection batch state rows,
    (s.query connection describeParameters [batch] state).1 = .ok rows → ∀ r ∈ rows,
      ∃ found, scanVariables batch = some found ∧ r.text "name" ∈ found.undeclared.map (·.name)

/-- The types that configuration or hints give to variables of the script are texts without
variables. -/
def Script.PinsVariableFree (types : TypeCatalog) (rule : EffectiveRule) (s : Script) : Prop :=
  ∀ name ∈ s.mentioned, ∀ p ∈ pinnedType? types s rule name, IsVariableFree p.text

namespace Inference

variable {connection : Nat} {ctx : InferenceContext} {rule : EffectiveRule} {w : World σ}
  {unit : String} {keys : List String} {tables : List TempTable} {f : Fault}

theorem checkTempTableNames_eq_error (h : checkTempTableNames unit keys tables = .error f) :
    ∃ t ∈ tables, t.key ∈ keys ∧ f = .tempTableNamesParameter unit t.key := by
  unfold checkTempTableNames at h
  split at h
  · rename_i t hfind
    refine ⟨t, List.mem_of_find?_eq_some hfind, ?_, (Except.error.inj h).symm⟩
    simpa using List.find?_some hfind
  · cases h

theorem not_mem_of_checkTempTableNames (h : checkTempTableNames unit keys tables = .ok ()) :
    ∀ t ∈ tables, t.key ∉ keys := by
  unfold checkTempTableNames at h
  split at h
  · cases h
  · rename_i hfind
    intro t ht
    simpa using List.find?_eq_none.1 hfind t ht

theorem name_of_describedParameter {types : TypeCatalog} {stem : String}
    {scanned : ScriptVariables} {r : Row} {p : Parameter}
    (h : describedParameter types unit stem scanned rule r = .ok p) :
    p.name = describedName stem (r.text "name") := by
  unfold describedParameter at h
  dsimp only at h
  split at h
  · obtain rfl := Except.ok.inj h
    rfl
  · split at h
    · cases h
    · obtain rfl := Except.ok.inj h
      rfl

theorem PinnedVariable.name_of_tableParameter? {v : PinnedVariable} {p : Parameter}
    (h : v.tableParameter? = some p) : p.name = v.use.name := by
  unfold tableParameter? at h
  split at h
  · obtain rfl := Option.some.inj h
    rfl
  · cases h

theorem rows_of_describedRows {batch : String} {needed : Bool} {rows : List Row}
    (h : ((describedRows connection unit batch needed).outcome w).1 = .ok rows) :
    rows = [] ∨ (w.server.query connection describeParameters [batch] w.state).1 = .ok rows := by
  cases needed with
  | false => exact .inl (Except.ok.inj h).symm
  | true =>
      unfold describedRows at h
      rw [if_pos rfl, outcome_lift_bind, outcome_query] at h
      dsimp only at h
      cases hanswer : (w.server.query connection describeParameters [batch] w.state).1 with
      | error e =>
          rw [hanswer] at h
          cases h
      | ok answered =>
          rw [hanswer] at h
          exact .inr (congrArg Except.ok (Except.ok.inj h))

theorem keys_of_scriptParameters {script : Script} {scanned : ScriptVariables}
    {found : Parameters} (hserver : w.server.DescribesUndeclared) (hplain : ctx.token.IsPlain)
    (hwhole : script.HasWholeVariables) (havoids : script.AvoidsPlaceholders ctx.token)
    (htypes : script.PinsVariableFree ctx.types rule)
    (hscan : scanVariables script.text = some scanned)
    (h : ((scriptParameters connection ctx script rule).outcome w).1 = .ok found) :
    ∀ p ∈ found.parameters, p.key ∈ scanned.undeclared.map VariableUse.key := by
  unfold scriptParameters at h
  dsimp only at h
  rw [hscan] at h
  dsimp only at h
  obtain ⟨_, -, h⟩ := Session.exists_of_outcome_ofExcept_bind_eq_ok h
  obtain ⟨rows, v, hrows, h⟩ := Session.exists_of_outcome_bind_eq_ok h
  obtain ⟨described, hdescribed, h⟩ := Session.exists_of_outcome_ofExcept_bind_eq_ok h
  obtain rfl := Except.ok.inj h
  intro p hp
  rcases List.mem_append.1 ((List.mergeSort_perm _ _).subset hp) with hp | hp
  · obtain ⟨v, hv, hp⟩ := List.mem_filterMap.1 hp
    obtain ⟨u, hu, rfl⟩ := List.mem_map.1 hv
    have hname := PinnedVariable.name_of_tableParameter? hp
    rw [Parameter.key, hname]
    exact List.mem_map_of_mem hu
  · obtain ⟨r, hr, hp⟩ := exists_of_mem_mapM hdescribed p hp
    rcases rows_of_describedRows (congrArg Prod.fst hrows) with rfl | hanswer
    · cases hr
    · obtain ⟨found, hfound, hname⟩ := hserver _ _ _ _ hanswer r hr
      rw [Parameter.key, name_of_describedParameter hp]
      have hpins : ∀ v ∈ scanned.pinnedBy fun u => pinnedType? ctx.types script rule u.name,
          ∀ p ∈ v.pin, IsVariableFree p.text := by
        intro v hv p hp
        rw [(ScriptVariables.use_mem_of_mem_pinnedBy hv).2] at hp
        have hmentioned :=
          Script.name_mem_mentioned hscan (ScriptVariables.use_mem_references hv)
        exact htypes _ hmentioned p hp
      exact undeclared_parameterBatch hplain hwhole havoids hscan hpins hfound hname

theorem keys_of_procedureParameters {p : Procedure} {found : Parameters}
    (h : procedureParameters p rule = .ok found) :
    ∀ q ∈ found.parameters, q.key ∈ p.parameters.map Parameter.key := by
  obtain ⟨hfrom, -⟩ := Procedure.resolvedFrom_of_procedureParameters h
  intro q hq
  obtain ⟨c, hc, hname⟩ := List.mem_map.1 (hfrom.names.subset (List.mem_map_of_mem hq))
  exact List.mem_map.2 ⟨c, hc, congrArg Identifier.parameterKey hname⟩

end Inference

namespace ModelUnit

variable {connection : Nat} {ctx : InferenceContext} {rule : EffectiveRule} {rules : RuleSet}
  {w : World σ} {u : ModelUnit}

/-- A script's own variables can be told from all else in the batch that is described. Procedures
are not described. -/
def HasPlainBatch (ctx : InferenceContext) (rule : EffectiveRule) : ModelUnit → Prop
  | procedure _ => True
  | script s => s.HasWholeVariables ∧ s.AvoidsPlaceholders ctx.token ∧
      s.PinsVariableFree ctx.types rule

theorem inferParameters_of_clash {f : Fault}
    (h : checkTempTableNames u.label u.parameterKeys u.tempTables = .error f) :
    (inferParameters connection ctx u.executable rule : Session σ Parameters) =
      throw (.fault f) := by
  cases u with
  | procedure p =>
      change Session.ofExcept (procedureParameters p rule) = _
      have hparameters : procedureParameters p rule = .error f :=
        congrArg (Except.map _) h
      rw [hparameters]
      rfl
  | script s =>
      change scriptParameters connection ctx s rule = _
      unfold scriptParameters
      dsimp only
      cases hscan : scanVariables s.text with
      | none =>
          obtain ⟨t, -, ht, -⟩ := checkTempTableNames_eq_error h
          rw [parameterKeys, hscan] at ht
          cases ht
      | some scanned =>
          rw [parameterKeys, hscan] at h
          have hcheck : checkTempTableNames (ExecutableUnit.script s).label
              (scanned.undeclared.map VariableUse.key) s.tempTables = .error f := h
          dsimp only
          rw [hcheck]
          rfl

theorem keys_of_inferParameters {found : Parameters} (hserver : w.server.DescribesUndeclared)
    (hplain : ctx.token.IsPlain) (hbatch : u.HasPlainBatch ctx rule)
    (h : ((inferParameters connection ctx u.executable rule).outcome w).1 = .ok found) :
    ∀ p ∈ found.parameters, p.key ∈ u.parameterKeys := by
  cases u with
  | procedure p =>
      change ((Session.ofExcept (procedureParameters p rule)).outcome w).1 = _ at h
      cases hparameters : procedureParameters p rule with
      | error f =>
          rw [hparameters] at h
          cases h
      | ok found' =>
          rw [hparameters] at h
          obtain rfl := Except.ok.inj h
          exact keys_of_procedureParameters hparameters
  | script s =>
      change ((scriptParameters connection ctx s rule).outcome w).1 = _ at h
      cases hscan : scanVariables s.text with
      | none =>
          unfold scriptParameters at h
          dsimp only at h
          rw [hscan] at h
          cases h
      | some scanned =>
          rw [parameterKeys, hscan]
          exact keys_of_scriptParameters hserver hplain hbatch.1 hbatch.2.1 hbatch.2.2 hscan h

/-- The temp tables of the unit differ in their names from each other and from its parameters. -/
structure HasNamesApart (u : ModelUnit) : Prop where
  tables : AreDistinctNames (u.tempTables.map (·.name))
  parameters : ∀ t ∈ u.tempTables, ∀ p ∈ u.parameters, t.key ≠ p.key

@[simp] theorem label_withTempTables (u : ModelUnit) (ts : List TempTable) :
    (u.withTempTables ts).label = u.label := by
  cases u <;> rfl

@[simp] theorem parameterKeys_withTempTables (u : ModelUnit) (ts : List TempTable) :
    (u.withTempTables ts).parameterKeys = u.parameterKeys := by
  cases u <;> rfl

theorem hasPlainBatch_withTempTables (ts : List TempTable) :
    (u.withTempTables ts).HasPlainBatch ctx rule ↔ u.HasPlainBatch ctx rule := by
  cases u <;> rfl

theorem hasPlainBatch_forUnit (ordinal : Nat) :
    u.HasPlainBatch { ctx with token := ctx.token.forUnit ordinal } rule ↔
      u.HasPlainBatch ctx rule := by
  cases u <;> rfl

theorem yields_inferColumns_names (connection : Nat) (rule : EffectiveRule) (ws : List Warning)
    (u : ModelUnit) : (u.inferColumns connection ctx rule ws : Session σ UnitOutcome).Yields
      fun o => ∀ x ∈ o.unit?,
        x.tempTables.map (·.name) = u.tempTables.map (·.name) ∧ x.parameters = u.parameters := by
  have htable (t : TempTable) : (inferTempTable connection ctx t : Session σ TempTable).Yields
      fun t' => t.name = t'.name :=
    Session.yields_bind fun shape => Session.yields_pure rfl
  refine Session.Yields.bind (Session.sequenced_yields.mapM fun t _ => htable t) fun ts hts => ?_
  refine Session.yields_bind fun shape => ?_
  dsimp only
  split
  · exact Session.yields_pure nofun
  · refine Session.yields_pure fun x hx => ?_
    obtain rfl := Option.some.inj hx
    have hnames : u.tempTables.map (·.name) = ts.map (·.name) :=
      List.forall₂_eq_eq_eq ▸ List.forall₂_map_left_iff.2 (List.forall₂_map_right_iff.2 hts)
    cases u <;> exact ⟨hnames.symm, rfl⟩

theorem keyOf_not_mem_of_inferParameters {found : Parameters}
    (h : ((inferParameters connection ctx u.executable rule).outcome w).1 = .ok found) :
    ∀ name ∈ u.tempTables.map (·.name), TempTable.keyOf name ∉ u.parameterKeys := by
  cases hcheck : checkTempTableNames u.label u.parameterKeys u.tempTables with
  | error f =>
      rw [inferParameters_of_clash hcheck] at h
      cases h
  | ok _ =>
      intro name hname
      obtain ⟨t, ht, rfl⟩ := List.mem_map.1 hname
      exact not_mem_of_checkTempTableNames hcheck t ht

/-- A unit that is inferred has its names apart. -/
theorem hasNamesApart_of_infer {o : UnitOutcome} {ordinal : Nat}
    (hserver : w.server.DescribesUndeclared) (hplain : ctx.token.IsPlain)
    (hown : AreDistinctNames (u.tempTables.map (·.name)))
    (hbatch : u.HasPlainBatch ctx (rules.ruleFor u.key))
    (h : ((u.infer connection ctx rules ordinal).outcome w).1 = .ok o) :
    ∀ x ∈ o.unit?, x.HasNamesApart := by
  unfold infer at h
  dsimp only at h
  have hplainUnit : RunToken.IsPlain
      (InferenceContext.token { ctx with token := ctx.token.forUnit ordinal }) :=
    hplain.forUnit ordinal
  have hbatchUnit := (hasPlainBatch_forUnit ordinal).2 hbatch
  generalize ({ ctx with token := ctx.token.forUnit ordinal } : InferenceContext) = unitCtx
    at h hplainUnit hbatchUnit
  obtain ⟨v, hv, h⟩ := Session.exists_of_outcome_ofExcept_bind_eq_ok h
  obtain ⟨ts, hts, rfl⟩ := map_eq_ok.1 hv
  obtain ⟨found, w', hfound, h⟩ := Session.exists_of_outcome_bind_eq_ok h
  have hfound := congrArg Prod.fst hfound
  have hdistinct := areDistinctNames_of_foldlM hts hown
  have hclear := keyOf_not_mem_of_inferParameters hfound
  have hkeys := keys_of_inferParameters hserver hplainUnit
    ((hasPlainBatch_withTempTables ts).2 hbatchUnit) hfound
  rw [tempTables_withTempTables, parameterKeys_withTempTables] at hclear
  rw [parameterKeys_withTempTables] at hkeys
  split at h
  · obtain rfl := Except.ok.inj h
    nofun
  · intro x hx
    obtain ⟨hnames, hparameters⟩ := yields_inferColumns_names connection _ _ _ _ _ h x hx
    rw [tempTables_withParameters, tempTables_withTempTables] at hnames
    rw [parameters_withParameters] at hparameters
    refine ⟨hnames ▸ hdistinct, fun t ht p hp hkey => ?_⟩
    have hname : t.name ∈ ts.map (·.name) := hnames ▸ List.mem_map_of_mem ht
    apply hclear t.name hname
    change t.key ∈ _
    rw [hkey]
    exact hkeys p (hparameters ▸ hp)

/-- A unit with a clash is at fault before the server is asked anything. -/
theorem infer_of_not_isNamedApart (hown : AreDistinctNames (u.tempTables.map (·.name)))
    (h : ¬ u.IsNamedApart (rules.ruleFor u.key)) :
    ∃ f, u.IsNameFault (rules.ruleFor u.key) f ∧ ∀ connection ctx ordinal (w : World σ),
      (u.infer connection ctx rules ordinal).outcome w = (.error (.fault f), w) := by
  cases hattach : u.withRuleTables (rules.ruleFor u.key) with
  | error f =>
      refine ⟨f, isNameFault_of_withRuleTables hattach, fun connection ctx ordinal w => ?_⟩
      unfold infer
      dsimp only
      rw [hattach]
      rfl
  | ok v =>
      have hnames := map_name_of_withRuleTables hattach
      obtain ⟨ts, hts, rfl⟩ := map_eq_ok.1 hattach
      cases hcheck : checkTempTableNames (u.withTempTables ts).label
          (u.withTempTables ts).parameterKeys (u.withTempTables ts).tempTables with
      | ok _ =>
          -- Then all names are apart.
          refine absurd ⟨?_, fun name hname => ?_⟩ h
          · rw [← hnames, tempTables_withTempTables]
            exact areDistinctNames_of_foldlM hts hown
          · rw [← hnames] at hname
            obtain ⟨t, ht, rfl⟩ := List.mem_map.1 hname
            have hnot := not_mem_of_checkTempTableNames hcheck t ht
            rwa [parameterKeys_withTempTables] at hnot
      | error f =>
          refine ⟨f, ?_, fun connection ctx ordinal w => ?_⟩
          · obtain ⟨t, ht, hkey, rfl⟩ := checkTempTableNames_eq_error hcheck
            rw [parameterKeys_withTempTables] at hkey
            rw [label_withTempTables]
            exact .shared (hnames ▸ List.mem_map_of_mem ht) hkey
          · unfold infer
            dsimp only
            rw [hattach]
            change Session.outcome
              (inferParameters _ _ (u.withTempTables ts).executable _ >>= _) w = _
            rw [inferParameters_of_clash hcheck]
            rfl

end ModelUnit

end QueryShape
