import QueryShape.Proofs.Groundwork

namespace QueryShape

namespace Warning

/-- What the message ends with that says that a unit is left out. -/
def ending : String := "; the unit is ignored"

/-- Whether a warning says that a unit is left out. -/
def ignoresUnit (w : Warning) : Bool :=
  ending.toList.isSuffixOf w.message.toList

theorem ignoresUnit_append {subject reason : String} :
    ignoresUnit ⟨subject, reason ++ ending⟩ = true := by
  unfold ignoresUnit
  rw [List.isSuffixOf_iff_suffix, String.toList_append]
  exact List.suffix_append _ _

theorem ignoresUnit_eq_false {subject front back : String}
    (hback : ending.toList.isSuffixOf back.toList = false)
    (hending : back.toList.isSuffixOf ending.toList = false) :
    ignoresUnit ⟨subject, front ++ back⟩ = false := by
  rw [← Bool.not_eq_true, List.isSuffixOf_iff_suffix] at hback hending
  unfold ignoresUnit
  rw [← Bool.not_eq_true, List.isSuffixOf_iff_suffix, String.toList_append]
  intro h
  rcases List.suffix_or_suffix_of_suffix h (List.suffix_append _ _) with h | h
  · exact hback h
  · exact hending h

/-- None of the warnings says that a unit is left out. -/
def KeepUnits (ws : List Warning) : Prop :=
  ∀ w ∈ ws, w.ignoresUnit = false

theorem KeepUnits.append {ws vs : List Warning} (hws : KeepUnits ws) (hvs : KeepUnits vs) :
    KeepUnits (ws ++ vs) :=
  List.forall_mem_append.2 ⟨hws, hvs⟩

theorem KeepUnits.filter_eq_nil {ws : List Warning} (h : KeepUnits ws) :
    ws.filter ignoresUnit = [] :=
  List.filter_eq_nil_iff.2 fun w hw => by simp [h w hw]

end Warning

open QueryShape.Warning

theorem TypeCatalog.exists_of_tableTypeOfRows {types : TypeCatalog} {id : Int} {rows : List Row}
    {w : Warning} (h : types.tableTypeOfRows id rows = .error w) :
    ∃ subject column typeName, w = ⟨subject, "column '" ++ column ++ "' has unsupported type '" ++
      typeName ++ "'; the table type is ignored"⟩ := by
  unfold tableTypeOfRows at h
  dsimp only at h
  generalize hcolumns : columnsOfRows types _ rows = columns at h
  cases columns with
  | ok cs => cases h
  | error v =>
      obtain rfl := Except.error.inj h
      obtain ⟨r, -, hr⟩ := exists_of_mapM_eq_error hcolumns
      cases hcolumn : Column.ofRow types r with
      | ok c =>
          rw [hcolumn] at hr
          cases hr
      | error typeName =>
          rw [hcolumn] at hr
          exact ⟨_, _, typeName, (Except.error.inj hr).symm⟩

theorem TypeCatalog.exists_of_mem_ofRows {typeRows tableTypeRows : List Row} {w : Warning}
    (h : w ∈ (TypeCatalog.ofRows typeRows tableTypeRows).2) :
    ∃ subject column typeName, w = ⟨subject, "column '" ++ column ++ "' has unsupported type '" ++
      typeName ++ "'; the table type is ignored"⟩ := by
  obtain ⟨result, hresult, hw⟩ := List.mem_filterMap.1 h
  obtain ⟨⟨id, rows⟩, -, rfl⟩ := List.mem_map.1 hresult
  dsimp only at hw
  split at hw
  · cases hw
  · rename_i v herror
    obtain rfl := Option.some.inj hw
    exact exists_of_tableTypeOfRows herror

theorem Table.exists_of_mem_allOfRows {types : TypeCatalog} {rules : RuleSet}
    {columnRows keyRows : List Row} {w : Warning}
    (h : w ∈ (Table.allOfRows types rules columnRows keyRows).2) :
    ∃ subject column typeName, w = ⟨subject, "column '" ++ column ++ "' has unsupported type '" ++
      typeName ++ "' and is left out"⟩ := by
  obtain ⟨key, -, hw⟩ := List.mem_flatMap.1 h
  obtain ⟨r, -, hw⟩ := List.mem_filterMap.1 hw
  unfold columnWarning? at hw
  split at hw
  · cases hw
  · rename_i typeName _
    split at hw
    · exact ⟨_, _, typeName, (Option.some.inj hw).symm⟩
    · cases hw

theorem Assembly.exists_of_mem_mergeScripts {scripts added : List Script} {w : Warning}
    (h : w ∈ (mergeScripts scripts added).2) : ∃ subject, w =
      ⟨subject, "a script file replaces the generated script with the same identity"⟩ := by
  induction added generalizing scripts with
  | nil => cases h
  | cons script rest ih =>
      rw [mergeScripts] at h
      cases hreplaced : replaceScript? script scripts with
      | none =>
          rw [hreplaced] at h
          exact ih h
      | some replaced =>
          rw [hreplaced] at h
          rcases List.mem_cons.1 h with rfl | h
          · exact ⟨_, rfl⟩
          · exact ih h

theorem TypeCatalog.keepUnits_ofRows (typeRows tableTypeRows : List Row) :
    KeepUnits (TypeCatalog.ofRows typeRows tableTypeRows).2 := by
  intro w hw
  obtain ⟨_, _, _, rfl⟩ := exists_of_mem_ofRows hw
  exact ignoresUnit_eq_false (by decide) (by decide)

theorem Table.keepUnits_allOfRows (types : TypeCatalog) (rules : RuleSet)
    (columnRows keyRows : List Row) :
    KeepUnits (Table.allOfRows types rules columnRows keyRows).2 := by
  intro w hw
  obtain ⟨_, _, _, rfl⟩ := exists_of_mem_allOfRows hw
  exact ignoresUnit_eq_false (by decide) (by decide)

theorem Assembly.keepUnits_mergeScripts (scripts added : List Script) :
    KeepUnits (mergeScripts scripts added).2 := by
  intro w hw
  obtain ⟨_, rfl⟩ := exists_of_mem_mergeScripts hw
  have hother : ending.toList.isSuffixOf
      "a script file replaces the generated script with the same identity".toList = false := by
    decide
  exact hother

theorem DeclaredRule.keepUnits_unusedOnTables (r : DeclaredRule) (tables : List Table) :
    KeepUnits (r.unusedOnTables tables) := by
  unfold unusedOnTables
  dsimp only
  split
  · refine List.forall_mem_singleton.2 ?_
    have hother : ending.toList.isSuffixOf "matches no table or view".toList = false := by decide
    exact hother
  · refine List.forall_mem_map.2 fun name _ => ?_
    exact ignoresUnit_eq_false (by decide) (by decide)

theorem DeclaredRule.keepUnits_unusedOnUnits (r : DeclaredRule) (names : List String)
    (units : List UnitFacts) : KeepUnits (r.unusedOnUnits names units) := by
  unfold unusedOnUnits
  dsimp only
  split
  · refine List.forall_mem_singleton.2 ?_
    have hback : ∀ scope : RuleScope,
        ending.toList.isSuffixOf scope.label.toList = false ∧
          scope.label.toList.isSuffixOf ending.toList = false := by
      rintro (_ | _ | _) <;> decide
    exact ignoresUnit_eq_false (hback _).1 (hback _).2
  · split
    · exact List.forall_mem_nil _
    · refine KeepUnits.append ?_ ?_
      · refine List.forall_mem_map.2 fun key _ => ?_
        exact ignoresUnit_eq_false (by decide) (by decide)
      · refine List.forall_mem_map.2 fun name _ => ?_
        exact ignoresUnit_eq_false (by decide) (by decide)

theorem keepUnits_unusedRules (rules : List DeclaredRule) (c : Candidates) :
    KeepUnits (unusedRules rules c) := by
  intro w hw
  obtain ⟨r, -, hw⟩ := List.mem_flatMap.1 hw
  have hkeep : KeepUnits (r.unused c) := by
    unfold DeclaredRule.unused
    split
    · exact r.keepUnits_unusedOnTables c.tables
    · exact r.keepUnits_unusedOnUnits c.procedures c.units
    · exact r.keepUnits_unusedOnUnits c.scripts c.units
  exact hkeep w hw

namespace Inference

/-- What the inference of parameters warns about. -/
inductive IsAboutParameter : Warning → Prop
  | unknown (unit complaint key : String) :
      IsAboutParameter ⟨unit,
        "rule names parameter @" ++ key ++ " which the " ++ complaint ++ "; ignored"⟩
  | tableValued (unit name : String) :
      IsAboutParameter ⟨unit, "table-valued parameter " ++ name ++
        " cannot be nullable; the nullable rule is ignored"⟩

theorem isAboutParameter_of_mem_unknownParameters {unit complaint : String} {rule : EffectiveRule}
    {isKnown : String → Bool} :
    ∀ w ∈ unknownParameters unit complaint rule isKnown, IsAboutParameter w := by
  unfold unknownParameters
  split
  · exact List.forall_mem_map.2 fun key _ => .unknown unit complaint key
  · exact List.forall_mem_nil _

theorem isAboutParameter_of_mem_tableWarnings {unit : String} {rule : EffectiveRule}
    {ps : List Parameter} : ∀ w ∈ ps.flatMap (tableWarnings unit rule), IsAboutParameter w := by
  intro w hw
  obtain ⟨p, -, hw⟩ := List.mem_flatMap.1 hw
  unfold tableWarnings at hw
  split at hw
  · obtain rfl := List.mem_singleton.1 hw
    exact .tableValued unit p.name
  · cases hw

theorem yields_isAboutParameter {σ : Type} (connection : Nat) (ctx : InferenceContext)
    (unit : ExecutableUnit) (rule : EffectiveRule) :
    (inferParameters connection ctx unit rule : Session σ Parameters).Yields fun found =>
      ∀ w ∈ found.warnings, IsAboutParameter w := by
  cases unit with
  | procedure p =>
      refine (Session.yields_ofExcept _).mono fun found h => ?_
      obtain ⟨-, -, rfl⟩ := map_eq_ok.1 h
      exact List.forall_mem_append.2
        ⟨isAboutParameter_of_mem_unknownParameters, isAboutParameter_of_mem_tableWarnings⟩
  | script s =>
      unfold inferParameters
      dsimp only
      unfold scriptParameters
      dsimp only
      split
      · refine Session.yields_bind fun _ => Session.yields_bind fun rows =>
          Session.yields_bind fun described => Session.yields_pure ?_
        exact List.forall_mem_append.2
          ⟨isAboutParameter_of_mem_unknownParameters, isAboutParameter_of_mem_tableWarnings⟩
      · exact Session.yields_throw _
  | tempTable t => exact Session.yields_pure (List.forall_mem_nil _)

theorem IsAboutParameter.ignoresUnit_eq_false {w : Warning} (h : IsAboutParameter w) :
    w.ignoresUnit = false := by
  cases h with
  | unknown => exact Warning.ignoresUnit_eq_false (by decide) (by decide)
  | tableValued => exact Warning.ignoresUnit_eq_false (by decide) (by decide)

theorem yields_inferParameters {σ : Type} (connection : Nat) (ctx : InferenceContext)
    (unit : ExecutableUnit) (rule : EffectiveRule) :
    (inferParameters connection ctx unit rule : Session σ Parameters).Yields fun found =>
      KeepUnits found.warnings :=
  (yields_isAboutParameter connection ctx unit rule).mono fun _ h w hw =>
    (h w hw).ignoresUnit_eq_false

end Inference

end QueryShape
