import Mathlib.Data.List.FinRange
import Mathlib.Logic.Equiv.Fin.Basic
import QueryShape.Proofs.TableTypeBinding

/-!
Columns are matched by their shapes. The main statement says that the columns of a table type are
bound to those of a list whenever the two can be paired off by shape, although namesakes are bound
first and all others in the order in which they come.
-/

namespace QueryShape

open QueryShape.Text

namespace Column

/-- What columns of one shape have in common. -/
def shape (c : Column) : String × Int × Nat × Nat :=
  (c.type.name, c.size, c.precision, c.scale)

theorem sameShape_iff {a b : Column} : a.sameShape b = true ↔ a.shape = b.shape := by
  simp [sameShape, shape, and_assoc]

/-- The columns of two lists can be paired off one to one, each with one of its shape. -/
def PairOff (cs ds : List Column) : Prop :=
  ∃ e : Fin cs.length ≃ Fin ds.length, ∀ i, (ds[e i]).sameShape cs[i] = true

theorem pairOff_iff {cs ds : List Column} :
    PairOff cs ds ↔ (cs.map shape).Perm (ds.map shape) := by
  constructor
  · rintro ⟨e, he⟩
    have hlength : cs.length = ds.length := Fin.equiv_iff_eq.1 ⟨e⟩
    have hcs : cs.map shape =
        List.ofFn ((fun i => (ds[i.cast hlength]).shape) ∘ e.trans (finCongr hlength.symm)) := by
      rw [← List.ofFn_getElem_eq_map]
      congr 1
      funext i
      exact (sameShape_iff.1 (he i)).symm
    have hds : ds.map shape = List.ofFn fun i : Fin cs.length => (ds[i.cast hlength]).shape := by
      rw [← List.ofFn_getElem_eq_map]
      exact List.ofFn_congr hlength.symm _
    rw [hcs, hds]
    exact Equiv.Perm.ofFn_comp_perm _ _
  · intro h
    have hcs : cs.length = (cs.map shape).length := (List.length_map _).symm
    have hds : (ds.map shape).length = ds.length := List.length_map _
    let places : Fin (cs.map shape).length ≃ Fin (ds.map shape).length :=
      ⟨h.idxBij, h.symm.idxBij, h.idxBij_rightInverse_idxBij_symm,
        h.idxBij_leftInverse_idxBij_symm⟩
    refine ⟨((finCongr hcs).trans places).trans (finCongr hds), fun i => ?_⟩
    have hshape := h.getElem_idxBij_eq_getElem (i.cast hcs)
    rw [List.getElem_map, List.getElem_map] at hshape
    exact sameShape_iff.2 hshape

instance (cs ds : List Column) : Decidable (PairOff cs ds) :=
  decidable_of_iff _ pairOff_iff.symm

end Column

open Column

namespace ColumnBinding

variable {columns items : PlacedColumns} {taken : List Nat} {t : Column}

/-- The columns whose places are not taken. -/
def free (columns : PlacedColumns) (taken : List Nat) : PlacedColumns :=
  columns.filter fun item => !taken.contains item.2

theorem mem_free {item : Column × Nat} :
    item ∈ free columns taken ↔ item ∈ columns ∧ item.2 ∉ taken := by
  simp [free]

theorem free_nil (columns : PlacedColumns) : free columns [] = columns := by
  simp [free]

theorem free_perm (hplaces : (columns.map Prod.snd).Nodup) (hsub : items ⊆ free columns taken)
    (hitems : (items.map Prod.snd).Nodup) :
    (free columns taken).Perm (items ++ free columns (items.map Prod.snd ++ taken)) := by
  have hcolumns : columns.Nodup := hplaces.of_map
  have hlater {item : Column × Nat} :
      item ∈ free columns (items.map Prod.snd ++ taken) ↔
        item ∈ free columns taken ∧ item.2 ∉ items.map Prod.snd := by
    rw [mem_free, mem_free, List.mem_append, not_or]
    tauto
  have hdisjoint : List.Disjoint items (free columns (items.map Prod.snd ++ taken)) :=
    fun item hitem hfree => (hlater.1 hfree).2 (List.mem_map_of_mem hitem)
  have hfree (taken : List Nat) : (free columns taken).Nodup := hcolumns.filter _
  refine (List.perm_ext_iff_of_nodup (hfree _)
    (hitems.of_map.append (hfree _) hdisjoint)).2 fun item => ?_
  rw [List.mem_append, hlater]
  constructor
  · intro hitem
    by_cases hplace : item.2 ∈ items.map Prod.snd
    · obtain ⟨other, hother, hsame⟩ := List.mem_map.1 hplace
      have heq := List.inj_on_of_nodup_map hplaces (mem_free.1 (hsub hother)).1
        (mem_free.1 hitem).1 hsame
      exact .inl (heq ▸ hother)
    · exact .inr ⟨hitem, hplace⟩
  · rintro (hitem | hitem)
    · exact hsub hitem
    · exact hitem.1

/-- The type columns that are not bound to namesakes. -/
def nameless (columns : PlacedColumns) (ts : List Column) : List Column :=
  ts.filter fun t => (namesake? columns t).isNone

theorem map_shape_perm (columns : PlacedColumns) (ts : List Column) :
    (ts.map shape).Perm ((nameless columns ts).map shape ++
      (ts.filterMap (namesake? columns)).map fun item => item.1.shape) := by
  induction ts with
  | nil => rfl
  | cons t rest ih =>
      cases hnamesake : namesake? columns t with
      | none => simpa [nameless, hnamesake] using ih
      | some item =>
          have hshape := sameShape_iff.1 (namesake?_eq_some hnamesake).2.1
          simp only [nameless, List.map_cons, List.filterMap_cons, hnamesake, hshape,
            List.filter_cons, Option.isNone_some, Bool.false_eq_true, if_false]
          exact (ih.cons _).trans List.perm_middle.symm

/-- Namesakes have the shapes of their type columns, so they cancel out on both sides. -/
theorem nameless_perm_free {ts : List Column} (hplaces : (columns.map Prod.snd).Nodup)
    (hnamesakes : ((ts.filterMap (namesake? columns)).map Prod.snd).Nodup)
    (h : (ts.map shape).Perm (columns.map fun item => item.1.shape)) :
    ((nameless columns ts).map shape).Perm
      ((free columns ((ts.filterMap (namesake? columns)).map Prod.snd)).map
        fun item => item.1.shape) := by
  have hsub : ts.filterMap (namesake? columns) ⊆ free columns [] := by
    intro item hitem
    obtain ⟨t, -, hnamesake⟩ := List.mem_filterMap.1 hitem
    exact mem_free.2 ⟨(namesake?_eq_some hnamesake).1, List.not_mem_nil⟩
  have hfree := free_perm hplaces hsub hnamesakes
  rw [free_nil, List.append_nil] at hfree
  have hshapes := h.trans (hfree.map fun item => item.1.shape)
  rw [List.map_append] at hshapes
  have hsplit := List.perm_append_comm.trans ((map_shape_perm columns ts).symm.trans hshapes)
  exact (List.perm_append_left_iff _).1 hsplit

/-- Substitutes do not run out if there are as many free columns of each shape as type columns
without namesakes. -/
theorem exists_bindAll {ts : List Column} (hplaces : (columns.map Prod.snd).Nodup)
    (h : ((nameless columns ts).map shape).Perm
      ((free columns taken).map fun item => item.1.shape)) :
    ∃ bindings, bindAll columns taken ts = some bindings := by
  induction ts generalizing taken with
  | nil => exact ⟨[], rfl⟩
  | cons t rest ih =>
      unfold bindAll
      cases hnamesake : namesake? columns t with
      | some item =>
          simp only [nameless, List.filter_cons, hnamesake, Option.isNone_some,
            Bool.false_eq_true, if_false] at h
          obtain ⟨bindings, hbindings⟩ := ih h
          exact ⟨_, Option.map_eq_some_iff.2 ⟨bindings, hbindings, rfl⟩⟩
      | none =>
          simp only [nameless, List.filter_cons, hnamesake, Option.isNone_none, if_true,
            List.map_cons] at h
          cases hsubstitute : substitute? columns taken t with
          | none =>
              obtain ⟨item, hitem, hshape⟩ := List.mem_map.1 (h.subset List.mem_cons_self)
              have hnone := List.find?_eq_none.1 hsubstitute item (mem_free.1 hitem).1
              simp [(mem_free.1 hitem).2, sameShape_iff.2 hshape] at hnone
          | some item =>
              obtain ⟨hmem, hfree, hshape⟩ := substitute?_eq_some hsubstitute
              have hsub : [item] ⊆ free columns taken :=
                List.cons_subset.2 ⟨mem_free.2 ⟨hmem, hfree⟩, List.nil_subset _⟩
              have hperm : (free columns taken).Perm (item :: free columns (item.2 :: taken)) :=
                free_perm hplaces hsub (List.nodup_singleton _)
              have hrest := h.trans (hperm.map fun item => item.1.shape)
              rw [List.map_cons, sameShape_iff.1 hshape] at hrest
              obtain ⟨bindings, hbindings⟩ := ih hrest.cons_inv
              exact ⟨_, Option.map_eq_some_iff.2 ⟨bindings, hbindings, rfl⟩⟩

theorem exists_namesake_or_sameShape {ts : List Column} {bindings : List ColumnBinding}
    (h : bindAll columns taken ts = some bindings) : ∀ b ∈ bindings,
      (∃ place, namesake? columns b.typeColumn = some (b.column, place)) ∨
        namesake? columns b.typeColumn = none ∧ b.column.sameShape b.typeColumn = true := by
  induction ts generalizing taken bindings with
  | nil =>
      obtain rfl := Option.some.inj h
      exact List.forall_mem_nil _
  | cons t rest ih =>
      unfold bindAll at h
      split at h
      · rename_i c place hnamesake
        obtain ⟨others, hothers, rfl⟩ := Option.map_eq_some_iff.1 h
        exact List.forall_mem_cons.2 ⟨.inl ⟨place, hnamesake⟩, ih hothers⟩
      · rename_i hnamesake
        split at h
        · rename_i c place hsubstitute
          obtain ⟨others, hothers, rfl⟩ := Option.map_eq_some_iff.1 h
          have hshape := (substitute?_eq_some hsubstitute).2.2
          exact List.forall_mem_cons.2 ⟨.inr ⟨hnamesake, hshape⟩, ih hothers⟩
        · cases h

end ColumnBinding

section

variable {typeColumns columns : List Column} {bindings : List ColumnBinding}

theorem namesake_or_sameShape_of_mapColumns (h : mapColumns typeColumns columns = some bindings) :
    ∀ b ∈ bindings,
      (∃ place, ColumnBinding.namesake? columns.zipIdx b.typeColumn = some (b.column, place)) ∨
        ColumnBinding.namesake? columns.zipIdx b.typeColumn = none ∧
          b.column.sameShape b.typeColumn = true := by
  unfold mapColumns at h
  split at h
  · exact ColumnBinding.exists_namesake_or_sameShape h
  · cases h

theorem sameShape_of_mapColumns (h : mapColumns typeColumns columns = some bindings) :
    ∀ b ∈ bindings, b.column.sameShape b.typeColumn = true := by
  intro b hb
  rcases namesake_or_sameShape_of_mapColumns h b hb with ⟨place, hnamesake⟩ | ⟨-, hshape⟩
  · exact (ColumnBinding.namesake?_eq_some hnamesake).2.1
  · exact hshape

theorem sameName_of_mapColumns (h : mapColumns typeColumns columns = some bindings) :
    ∀ b ∈ bindings, ∀ c ∈ columns, c.sameShape b.typeColumn = true →
      sameIgnoringCase c.name b.typeColumn.name = true →
        sameIgnoringCase b.column.name b.typeColumn.name = true := by
  intro b hb c hc hshape hname
  rcases namesake_or_sameShape_of_mapColumns h b hb with ⟨place, hnamesake⟩ | ⟨hnone, -⟩
  · exact (ColumnBinding.namesake?_eq_some hnamesake).2.2
  · obtain ⟨place, hplace⟩ := List.mem_iff_getElem?.1 hc
    have hitem : (c, place) ∈ columns.zipIdx := List.mem_zipIdx_iff_getElem?.2 hplace
    have hrefused := List.find?_eq_none.1 hnone _ hitem
    simp [hshape, hname] at hrefused

theorem pairOff_of_mapColumns (hnames : HaveDistinctNames typeColumns)
    (h : mapColumns typeColumns columns = some bindings) : PairOff typeColumns columns := by
  obtain ⟨htypes, hperm⟩ := mapColumns_eq_some hnames h
  have hshapes : (bindings.map (·.typeColumn)).map shape = (bindings.map (·.column)).map shape := by
    rw [List.map_map, List.map_map]
    exact List.map_congr_left fun b hb =>
      (sameShape_iff.1 (sameShape_of_mapColumns h b hb)).symm
  rw [pairOff_iff, ← htypes, hshapes]
  exact hperm.map shape

theorem exists_mapColumns_of_pairOff (hnames : HaveDistinctNames typeColumns)
    (h : PairOff typeColumns columns) :
    ∃ bindings, mapColumns typeColumns columns = some bindings := by
  have hshapes := pairOff_iff.1 h
  have hlength : typeColumns.length = columns.length := by
    simpa using hshapes.length_eq
  have hplaces : (columns.zipIdx.map Prod.snd).Nodup := by
    rw [List.zipIdx_map_snd]
    exact List.nodup_range'
  have hnamesakes :
      ((typeColumns.filterMap (ColumnBinding.namesake? columns.zipIdx)).map Prod.snd).Nodup := by
    refine List.pairwise_map.2 (List.pairwise_filterMap.2 (hnames.imp ?_))
    exact fun hne i hi j hj => ColumnBinding.place_ne hne hi hj
  have hplaced : columns.map shape = columns.zipIdx.map fun item => item.1.shape := by
    conv_lhs => rw [← List.zipIdx_map_fst 0 columns, List.map_map]
    rfl
  rw [hplaced] at hshapes
  unfold mapColumns
  rw [if_pos hlength]
  exact ColumnBinding.exists_bindAll hplaces
    (ColumnBinding.nameless_perm_free hplaces hnamesakes hshapes)

/-- The columns of a table type are bound to those of a list exactly if they can be paired off by
shape. All of them are bound then, in the order of the type and to columns of their shapes, and each
column of the list is taken once. No column is bound past its namesakes. -/
theorem mapColumns_pairs_off (hnames : HaveDistinctNames typeColumns) (columns : List Column) :
    ((∃ bindings, mapColumns typeColumns columns = some bindings) ↔
        PairOff typeColumns columns) ∧
      ∀ bindings, mapColumns typeColumns columns = some bindings →
        bindings.map (·.typeColumn) = typeColumns ∧
          (∀ b ∈ bindings, b.column.sameShape b.typeColumn = true) ∧
          (bindings.map (·.column)).Perm columns ∧
          ∀ b ∈ bindings, (∃ c ∈ columns, c.sameShape b.typeColumn = true ∧
              sameIgnoringCase c.name b.typeColumn.name = true) →
            sameIgnoringCase b.column.name b.typeColumn.name = true := by
  refine ⟨⟨?_, exists_mapColumns_of_pairOff hnames⟩, fun bindings h => ?_⟩
  · rintro ⟨bindings, h⟩
    exact pairOff_of_mapColumns hnames h
  · obtain ⟨htypes, hperm⟩ := mapColumns_eq_some hnames h
    refine ⟨htypes, sameShape_of_mapColumns h, hperm, ?_⟩
    rintro b hb ⟨c, hc, hshape, hname⟩
    exact sameName_of_mapColumns h b hb c hc hshape hname

end

def intColumn (name : String) : Column where
  name
  ordinal := 0
  type := ⟨"int", .int, "0"⟩
  size := 4

def textColumn (name : String) (size : Int) : Column where
  name
  ordinal := 0
  type := ⟨"nvarchar", .nVarChar, "N''"⟩
  size

/-- `Key` comes first in the type and has the shape of `Id`, which is kept for the namesake. -/
theorem keyColumns_pair_off :
    HaveDistinctNames [intColumn "Key", textColumn "Label" 50, intColumn "ID"] ∧
      PairOff [intColumn "Key", textColumn "Label" 50, intColumn "ID"]
        [intColumn "Id", intColumn "Other", textColumn "Name" 50] ∧
      ∃ bindings, mapColumns [intColumn "Key", textColumn "Label" 50, intColumn "ID"]
          [intColumn "Id", intColumn "Other", textColumn "Name" 50] = some bindings ∧
        (bindings.map (·.column)).Perm
          [intColumn "Id", intColumn "Other", textColumn "Name" 50] ∧
        bindings.map (·.column.name) = ["Other", "Name", "Id"] := by
  have hnames : HaveDistinctNames [intColumn "Key", textColumn "Label" 50, intColumn "ID"] := by
    decide +kernel
  have hpairs : PairOff [intColumn "Key", textColumn "Label" 50, intColumn "ID"]
      [intColumn "Id", intColumn "Other", textColumn "Name" 50] := by
    decide +kernel
  obtain ⟨hiff, hbound⟩ := mapColumns_pairs_off hnames
    [intColumn "Id", intColumn "Other", textColumn "Name" 50]
  obtain ⟨bindings, hbindings⟩ := hiff.2 hpairs
  have hcolumns : (mapColumns [intColumn "Key", textColumn "Label" 50, intColumn "ID"]
      [intColumn "Id", intColumn "Other", textColumn "Name" 50]).map
        (fun bs => bs.map (·.column.name)) = some ["Other", "Name", "Id"] := by
    decide +kernel
  rw [hbindings] at hcolumns
  exact ⟨hnames, hpairs, bindings, hbindings, (hbound bindings hbindings).2.2.1,
    Option.some.inj hcolumns⟩

end QueryShape
