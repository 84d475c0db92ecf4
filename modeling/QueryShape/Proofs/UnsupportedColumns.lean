import QueryShape.Inference.ResultSet
import QueryShape.Proofs.Result

namespace QueryShape.Inference

/-- A column that is described has no supported type, and the rule does not leave it out. It is
given by its name and the name of its type. -/
def Description.Untypable (types : TypeCatalog) (rule : EffectiveRule) (name typeName : String) :
    Description → Prop
  | rows rs => ∃ r ∈ visibleRows rs,
      r.text "name" = name ∧ (r.text? "system_type_name").getD "unknown" = typeName ∧
        leavesOut rule name = false ∧ types.scalarType? (r.int "system_type_id") = none
  | executed cs =>
      ⟨name, typeName⟩ ∈ cs ∧ leavesOut rule name = false ∧ SqlType.ofName? typeName = none

section

variable {ι : Type} {rule : EffectiveRule} {name : ι → String} {column : ι → Except Fault Column}
  {items : List ι}

/-- A result of items has columns for all that are kept, or one of these is at fault. -/
theorem resultSet_cases :
    (∃ columns, resultSet rule name column items = .ok columns ∧
      ∀ i ∈ items, leavesOut rule (name i) = false → ∀ f, column i ≠ .error f) ∨
    ∃ i ∈ items, leavesOut rule (name i) = false ∧
      ∃ f, column i = .error f ∧ resultSet rule name column items = .error f := by
  have hkept (i : ι) : i ∈ items.filter (fun i => !leavesOut rule (name i)) ↔
      i ∈ items ∧ leavesOut rule (name i) = false := by
    simp
  by_cases hitems : items.isEmpty
  · refine .inl ⟨none, if_pos hitems, fun i hi => ?_⟩
    rw [List.isEmpty_iff.1 hitems] at hi
    cases hi
  · unfold resultSet
    rw [if_neg hitems]
    cases htyped : typedColumns rule name column items with
    | ok columns =>
        refine .inl ⟨some columns, rfl, fun i hi hname f hf => ?_⟩
        obtain ⟨c, -, hc⟩ :=
          exists_of_mem_forall₂_left (mapM_eq_ok_iff.1 htyped) i ((hkept i).2 ⟨hi, hname⟩)
        cases hf.symm.trans hc
    | error f =>
        obtain ⟨i, hi, hf⟩ := exists_of_mapM_eq_error htyped
        exact .inr ⟨i, ((hkept i).1 hi).1, ((hkept i).1 hi).2, f, hf, rfl⟩

end

theorem describedColumn_eq_error_iff {types : TypeCatalog} {unit : String} {r : Row} {f : Fault} :
    describedColumn types unit r = .error f ↔
      types.scalarType? (r.int "system_type_id") = none ∧
        f = unsupportedColumn unit (r.text "name")
          ((r.text? "system_type_name").getD "unknown") := by
  unfold describedColumn
  cases types.scalarType? (r.int "system_type_id") <;> simp [eq_comm]

theorem executedColumn_eq_error_iff {unit : String} {placed : ExecutedColumn × Nat} {f : Fault} :
    executedColumn unit placed = .error f ↔
      SqlType.ofName? placed.1.typeName = none ∧
        f = unsupportedColumn unit placed.1.name placed.1.typeName := by
  obtain ⟨c, place⟩ := placed
  unfold executedColumn
  dsimp only
  cases SqlType.ofName? c.typeName <;> simp [eq_comm]

theorem Description.resultSet_cases (d : Description) (types : TypeCatalog) (unit : String)
    (rule : EffectiveRule) :
    (∃ columns allNames, d.resultSet types unit rule = .ok (columns, allNames) ∧
      ∀ name typeName, ¬ d.Untypable types rule name typeName) ∨
    ∃ name typeName, d.Untypable types rule name typeName ∧
      d.resultSet types unit rule = .error (unsupportedColumn unit name typeName) := by
  unfold Description.resultSet
  cases d with
  | rows rs =>
      dsimp only
      rcases Inference.resultSet_cases with
        ⟨columns, hcolumns, htyped⟩ | ⟨r, hr, hname, f, hf, hfault⟩
      · rw [hcolumns]
        refine .inl ⟨columns, _, rfl, ?_⟩
        rintro _ _ ⟨r, hr, rfl, rfl, hname, htype⟩
        exact htyped r hr hname _ (describedColumn_eq_error_iff.2 ⟨htype, rfl⟩)
      · rw [hfault]
        obtain ⟨htype, rfl⟩ := describedColumn_eq_error_iff.1 hf
        exact .inr ⟨_, _, ⟨r, hr, rfl, rfl, hname, htype⟩, rfl⟩
  | executed cs =>
      dsimp only
      rcases Inference.resultSet_cases with
        ⟨columns, hcolumns, htyped⟩ | ⟨placed, hplaced, hname, f, hf, hfault⟩
      · rw [hcolumns]
        refine .inl ⟨columns, _, rfl, ?_⟩
        rintro name typeName ⟨hc, hname, htype⟩
        rw [← List.zipIdx_map_fst 0 cs] at hc
        obtain ⟨⟨_, place⟩, hplaced, rfl⟩ := List.mem_map.1 hc
        exact htyped _ hplaced hname _ (executedColumn_eq_error_iff.2 ⟨htype, rfl⟩)
      · rw [hfault]
        obtain ⟨htype, rfl⟩ := executedColumn_eq_error_iff.1 hf
        exact .inr ⟨_, _, ⟨List.fst_mem_of_mem_zipIdx hplaced, hname, htype⟩, rfl⟩

end QueryShape.Inference
