import QueryShape.Proofs.Steady.Run
import QueryShape.Proofs.UnsupportedColumns

namespace QueryShape

/-- What a column that was found in a run has of its own; the rest of it are defaults. -/
def Column.outline (c : Column) : String × Int × SqlType :=
  (c.name, c.ordinal, c.type)

namespace Inference

variable {types : TypeCatalog} {rule : EffectiveRule} {unit : String}
  {cs : List ExecutedColumn} {rs shown : List Row} {placed : ExecutedColumn × Nat} {r : Row}

/-- A row about the column at a place. Its type id stands for the type of the given name. -/
structure Describes (types : TypeCatalog) (placed : ExecutedColumn × Nat) (r : Row) : Prop where
  name : r.text "name" = placed.1.name
  ordinal : r.int "column_ordinal" = placed.2 + 1
  type : types.scalarType? (r.int "system_type_id") = SqlType.ofName? placed.1.typeName

/-- In some order, the rows that can be seen are about the columns, one about each. -/
def DescribesAll (types : TypeCatalog) (cs : List ExecutedColumn) (rs : List Row) : Prop :=
  ∃ shown, (rs.filter fun r => !r.flag "is_hidden").Perm shown ∧
    List.Forall₂ (Describes types) cs.zipIdx shown

/-- A column of a result that stands for a described one. -/
structure Surfaces (placed : ExecutedColumn × Nat) (c : Column) : Prop where
  name : c.name = placed.1.name
  ordinal : c.ordinal = narrow32 (placed.2 + 1)
  type : SqlType.ofName? placed.1.typeName = some c.type

/-- The columns that a rule does not leave out, with their places. -/
def survivors (rule : EffectiveRule) (cs : List ExecutedColumn) : List (ExecutedColumn × Nat) :=
  cs.zipIdx.filter fun placed => !leavesOut rule placed.1.name

/-- The first column that cannot be typed among those that are not left out. -/
def IsFirstUnsupported (rule : EffectiveRule) (cs : List ExecutedColumn) (c : ExecutedColumn) :
    Prop :=
  ∃ before after, cs = before ++ c :: after ∧
    leavesOut rule c.name = false ∧ SqlType.ofName? c.typeName = none ∧
      ∀ d ∈ before, leavesOut rule d.name = false → (SqlType.ofName? d.typeName).isSome = true

theorem visibleRows_eq (hperm : (rs.filter fun r => !r.flag "is_hidden").Perm shown)
    (h : List.Forall₂ (Describes types) cs.zipIdx shown) : visibleRows rs = shown := by
  have hordinals : cs.zipIdx.map (fun placed => (placed.2 : Int) + 1) =
      shown.map (·.int "column_ordinal") :=
    map_eq_map_of_forall₂ h fun placed r hr => hr.ordinal.symm
  have hplaces : (cs.zipIdx.map fun placed => (placed.2 : Int) + 1).Pairwise (· < ·) :=
    List.pairwise_map.2 ((Assembly.pairwise_zipIdx cs).imp fun hlt => by omega)
  rw [hordinals] at hplaces
  exact mergeSort_eq_of_perm hperm (List.pairwise_map.1 hplaces)

theorem map_name_eq (h : List.Forall₂ (Describes types) cs.zipIdx shown) :
    shown.map (·.text "name") = cs.map (·.name) := by
  have hnames : cs.zipIdx.map (fun placed => placed.1.name) = shown.map (·.text "name") :=
    map_eq_map_of_forall₂ h fun placed r hr => hr.name.symm
  conv_rhs => rw [← List.zipIdx_map_fst 0 cs, List.map_map]
  exact hnames.symm

theorem forall₂_survivors (h : List.Forall₂ (Describes types) cs.zipIdx shown) :
    List.Forall₂ (Describes types) (survivors rule cs)
      (shown.filter fun r => !leavesOut rule (r.text "name")) :=
  List.rel_filter (fun placed r hr => by dsimp only; rw [hr.name]) h

theorem exists_describedColumn_eq_ok (h : Describes types placed r)
    (htype : (SqlType.ofName? placed.1.typeName).isSome = true) :
    ∃ c, describedColumn types unit r = .ok c ∧ Surfaces placed c := by
  obtain ⟨type, htype⟩ := Option.isSome_iff_exists.1 htype
  unfold describedColumn
  rw [h.type, htype]
  refine ⟨_, rfl, h.name, ?_, htype⟩
  rw [← h.ordinal]

theorem exists_describedColumn_eq_error (h : Describes types placed r)
    (htype : SqlType.ofName? placed.1.typeName = none) : ∃ typeName,
      describedColumn types unit r = .error (unsupportedColumn unit placed.1.name typeName) := by
  rw [← h.name]
  exact ⟨_, describedColumn_eq_error_iff.2 ⟨h.type.trans htype, rfl⟩⟩

theorem exists_executedColumn_eq_ok
    (htype : (SqlType.ofName? placed.1.typeName).isSome = true) :
    ∃ c, executedColumn unit placed = .ok c ∧ Surfaces placed c := by
  obtain ⟨type, htype⟩ := Option.isSome_iff_exists.1 htype
  unfold executedColumn
  dsimp only
  rw [htype]
  refine ⟨_, rfl, rfl, ?_, htype⟩
  dsimp only

theorem Surfaces.outline_eq {c d : Column} (hc : Surfaces placed c) (hd : Surfaces placed d) :
    c.outline = d.outline := by
  have htype := Option.some.inj (hc.type.symm.trans hd.type)
  unfold Column.outline
  rw [hc.name, hd.name, hc.ordinal, hd.ordinal, htype]

theorem outlines_eq {kept : List (ExecutedColumn × Nat)} {columns columns' : List Column}
    (h : List.Forall₂ Surfaces kept columns) (h' : List.Forall₂ Surfaces kept columns') :
    columns.map Column.outline = columns'.map Column.outline := by
  induction h generalizing columns' with
  | nil =>
      obtain rfl := List.forall₂_nil_left_iff.1 h'
      rfl
  | cons hc _ ih =>
      obtain ⟨d, rest, hd, hrest, rfl⟩ := List.forall₂_cons_left_iff.1 h'
      rw [List.map_cons, List.map_cons, hc.outline_eq hd, ih hrest]

theorem mem_survivors {placed : ExecutedColumn × Nat} (h : placed ∈ survivors rule cs) :
    placed.1 ∈ cs ∧ leavesOut rule placed.1.name = false := by
  obtain ⟨hmem, hkept⟩ := List.mem_filter.1 h
  exact ⟨List.fst_mem_of_mem_zipIdx hmem, by simpa using hkept⟩

theorem IsFirstUnsupported.exists_survivors {c : ExecutedColumn}
    (h : IsFirstUnsupported rule cs c) : ∃ before place after,
      survivors rule cs = before ++ (c, place) :: after ∧
        SqlType.ofName? c.typeName = none ∧
          ∀ placed ∈ before, (SqlType.ofName? placed.1.typeName).isSome = true := by
  obtain ⟨before, after, rfl, hkept, hnone, hbefore⟩ := h
  refine ⟨survivors rule before, before.length,
    (after.zipIdx (before.length + 1)).filter fun placed => !leavesOut rule placed.1.name, ?_,
    hnone, fun placed hplaced => ?_⟩
  · simp [survivors, List.zipIdx_append, List.filter_append, hkept]
  · obtain ⟨hmem, hplacedKept⟩ := mem_survivors hplaced
    exact hbefore _ hmem hplacedKept

section

variable {ι : Type} {name : ι → String} {column : ι → Except Fault Column} {items : List ι}

theorem resultSet_eq_ok {columns : List Column} (hitems : items ≠ [])
    (h : typedColumns rule name column items = .ok columns) :
    resultSet rule name column items = .ok (some columns) := by
  unfold resultSet
  rw [if_neg (by simpa using hitems), h]
  rfl

theorem resultSet_eq_error {f : Fault} (h : typedColumns rule name column items = .error f) :
    resultSet rule name column items = .error f := by
  cases items with
  | nil => cases h
  | cons i rest =>
      unfold resultSet
      rw [if_neg (by simp), h]
      rfl

end

section

variable (hsupported : ∀ placed ∈ survivors rule cs,
  (SqlType.ofName? placed.1.typeName).isSome = true)
include hsupported

theorem exists_typedColumns_described (h : List.Forall₂ (Describes types) cs.zipIdx shown) :
    ∃ columns, typedColumns rule (·.text "name") (describedColumn types unit) shown =
      .ok columns ∧ List.Forall₂ Surfaces (survivors rule cs) columns :=
  exists_mapM_eq_ok (forall₂_survivors h) fun placed hplaced _ hr =>
    exists_describedColumn_eq_ok hr (hsupported placed hplaced)

theorem exists_typedColumns_executed :
    ∃ columns, typedColumns rule (·.1.name) (executedColumn unit) cs.zipIdx =
      .ok columns ∧ List.Forall₂ Surfaces (survivors rule cs) columns := by
  have hself : List.Forall₂ (fun a b => b = a) (survivors rule cs) (survivors rule cs) :=
    List.forall₂_same.2 fun _ _ => rfl
  refine exists_mapM_eq_ok hself fun placed hplaced other hother => ?_
  rw [hother]
  exact exists_executedColumn_eq_ok (hsupported placed hplaced)

end

theorem exists_typedColumns_described_eq_error {c : ExecutedColumn}
    (hc : IsFirstUnsupported rule cs c)
    (h : List.Forall₂ (Describes types) cs.zipIdx shown) : ∃ typeName,
      typedColumns rule (·.text "name") (describedColumn types unit) shown =
        .error (unsupportedColumn unit c.name typeName) := by
  obtain ⟨before, place, after, hsurvivors, hnone, hbefore⟩ := hc.exists_survivors
  have hkept : List.Forall₂ (Describes types) (survivors rule cs)
      (shown.filter fun r => !leavesOut rule (r.text "name")) :=
    forall₂_survivors h
  rw [hsurvivors] at hkept
  have hok : ∀ placed ∈ before, ∀ r, Describes types placed r →
      ∃ column, describedColumn types unit r = .ok column := fun placed hplaced r hr =>
    (exists_describedColumn_eq_ok hr (hbefore placed hplaced)).imp fun _ h => h.1
  obtain ⟨r, -, hr, hstop⟩ := exists_mapM_eq_error hkept hok
  obtain ⟨typeName, herror⟩ := exists_describedColumn_eq_error hr hnone
  exact ⟨typeName, hstop _ herror⟩

theorem typedColumns_executed_eq_error {c : ExecutedColumn} (hc : IsFirstUnsupported rule cs c) :
    typedColumns rule (·.1.name) (executedColumn unit) cs.zipIdx =
      .error (unsupportedColumn unit c.name c.typeName) := by
  obtain ⟨before, place, after, hsurvivors, hnone, hbefore⟩ := hc.exists_survivors
  have hself : List.Forall₂ (fun a b => b = a) (before ++ (c, place) :: after)
      (before ++ (c, place) :: after) :=
    List.forall₂_same.2 fun _ _ => rfl
  have hok : ∀ placed ∈ before, ∀ other, other = placed →
      ∃ column, executedColumn unit other = .ok column := by
    rintro placed hplaced _ rfl
    exact (exists_executedColumn_eq_ok (hbefore _ hplaced)).imp fun _ h => h.1
  obtain ⟨_, -, rfl, hstop⟩ := exists_mapM_eq_error hself hok
  change (survivors rule cs).mapM (executedColumn unit) = _
  rw [hsurvivors]
  exact hstop _ (executedColumn_eq_error_iff.2 ⟨hnone, rfl⟩)

theorem exists_isFirstUnsupported {c : ExecutedColumn} (hc : c ∈ cs)
    (hkept : leavesOut rule c.name = false) (hnone : SqlType.ofName? c.typeName = none) :
    ∃ first, IsFirstUnsupported rule cs first := by
  have hfound : (cs.find? fun c =>
      !leavesOut rule c.name && (SqlType.ofName? c.typeName).isNone).isSome = true :=
    List.find?_isSome.2 ⟨c, hc, by simp [hkept, hnone]⟩
  obtain ⟨first, hfirst⟩ := Option.isSome_iff_exists.1 hfound
  obtain ⟨hself, before, after, hcs, hbefore⟩ := List.find?_eq_some_iff_append.1 hfirst
  simp only [Bool.and_eq_true, Bool.not_eq_true', Option.isNone_iff_eq_none] at hself
  refine ⟨first, before, after, hcs, hself.1, hself.2, fun d hd hdkept => ?_⟩
  have hpassed := hbefore d hd
  simpa [hdkept, Option.isSome_iff_ne_none] using hpassed

/-- Rows about columns and the columns found in a run come to the same result. There is none where
there are no columns. If each column that is not left out can be typed, both results have exactly
these columns, in their order, and it may be that no column is left. Or else both descriptions are
refused, because of the first column that cannot be typed. -/
theorem descriptions_agree (h : DescribesAll types cs rs) (unit : String) (rule : EffectiveRule) :
    (cs = [] →
      (Description.rows rs).resultSet types unit rule = .ok (none, []) ∧
        (Description.executed cs).resultSet types unit rule = .ok (none, [])) ∧
    (cs ≠ [] →
      (∀ c ∈ cs, leavesOut rule c.name = false → (SqlType.ofName? c.typeName).isSome = true) →
        ∃ described executed : List Column,
          (Description.rows rs).resultSet types unit rule =
              .ok (some described, cs.map (·.name)) ∧
            (Description.executed cs).resultSet types unit rule =
              .ok (some executed, cs.map (·.name)) ∧
            described.map Column.outline = executed.map Column.outline ∧
            List.Forall₂ Surfaces (survivors rule cs) executed) ∧
    ((∃ c ∈ cs, leavesOut rule c.name = false ∧ SqlType.ofName? c.typeName = none) →
      ∃ c, IsFirstUnsupported rule cs c ∧
        (∃ typeName, (Description.rows rs).resultSet types unit rule =
          .error (unsupportedColumn unit c.name typeName)) ∧
        (Description.executed cs).resultSet types unit rule =
          .error (unsupportedColumn unit c.name c.typeName)) := by
  obtain ⟨shown, hperm, hshown⟩ := h
  unfold Description.resultSet
  dsimp only
  rw [visibleRows_eq hperm hshown, map_name_eq hshown]
  refine ⟨?_, fun hcs htyped => ?_, ?_⟩
  · rintro rfl
    obtain rfl := List.forall₂_nil_left_iff.1 hshown
    exact ⟨rfl, rfl⟩
  · have hsupported : ∀ placed ∈ survivors rule cs,
        (SqlType.ofName? placed.1.typeName).isSome = true := fun placed hplaced =>
      htyped placed.1 (mem_survivors hplaced).1 (mem_survivors hplaced).2
    obtain ⟨described, hdescribed, hsurfaces⟩ := exists_typedColumns_described hsupported hshown
    obtain ⟨executed, hexecuted, hsurfaces'⟩ := exists_typedColumns_executed hsupported
    have hplaces : cs.zipIdx ≠ [] := by simpa using hcs
    have hrows : shown ≠ [] := by
      rintro rfl
      exact hplaces (List.forall₂_nil_right_iff.1 hshown)
    rw [resultSet_eq_ok hrows hdescribed, resultSet_eq_ok hplaces hexecuted]
    exact ⟨described, executed, rfl, rfl, outlines_eq hsurfaces hsurfaces', hsurfaces'⟩
  · rintro ⟨d, hd, hkept, hnone⟩
    obtain ⟨c, hc⟩ := exists_isFirstUnsupported hd hkept hnone
    obtain ⟨typeName, hdescribed⟩ := exists_typedColumns_described_eq_error hc hshown
    rw [resultSet_eq_error hdescribed, resultSet_eq_error (typedColumns_executed_eq_error hc)]
    exact ⟨c, hc, ⟨typeName, rfl⟩, rfl⟩

def columnRow (name : Cell) (ordinal typeId : Int) (isHidden : Bool) : Row :=
  ⟨[("name", name), ("column_ordinal", .int ordinal), ("system_type_id", .int typeId),
    ("is_hidden", .bool isHidden)]⟩

/-- The columns of a visit as they come when it is run. -/
def visitColumns : List ExecutedColumn :=
  [⟨"Id", "int"⟩, ⟨"Place", "geography"⟩, ⟨"", "nvarchar"⟩]

/-- Rows about the columns of a visit, the last one first, with one about a hidden column. -/
def visitRows : List Row :=
  [columnRow .null 3 231 false, columnRow (.text "Id") 1 56 false,
    columnRow (.text "Key") 1 240 true, columnRow (.text "Place") 2 240 false]

/-- Types that the server knows, one of which has no place in a model. -/
def visitTypes : TypeCatalog where
  systemTypes := [(56, "int"), (231, "nvarchar"), (240, "geography")]

theorem visitRows_describe : DescribesAll visitTypes visitColumns visitRows := by
  refine ⟨[columnRow (.text "Id") 1 56 false, columnRow (.text "Place") 2 240 false,
    columnRow .null 3 231 false], ?_, ?_⟩
  · have hshown : (visitRows.filter fun r => !r.flag "is_hidden") =
        [columnRow .null 3 231 false, columnRow (.text "Id") 1 56 false,
          columnRow (.text "Place") 2 240 false] :=
      rfl
    rw [hshown]
    exact (List.perm_append_singleton _ _).symm
  · refine .cons ?_ (.cons ?_ (.cons ?_ .nil))
    all_goals exact ⟨by decide +kernel, by decide +kernel, by decide +kernel⟩

/-- A rule that leaves the place out lets both descriptions through. Without it both are refused
because of the place. -/
theorem visitColumns_agree :
    let skipping := ({} : EffectiveRule).withColumn "place" { skip := some true }
    (∃ described executed : List Column,
      (Description.rows visitRows).resultSet visitTypes "visit" skipping =
          .ok (some described, ["Id", "Place", ""]) ∧
        (Description.executed visitColumns).resultSet visitTypes "visit" skipping =
          .ok (some executed, ["Id", "Place", ""]) ∧
        described.map Column.outline = executed.map Column.outline ∧
        executed.map (fun c => (c.name, c.ordinal)) = [("Id", 1), ("", 3)]) ∧
    ∃ typeName, (Description.rows visitRows).resultSet visitTypes "visit" {} =
      .error (unsupportedColumn "visit" "Place" typeName) := by
  intro skipping
  obtain ⟨-, hagree, -⟩ := descriptions_agree visitRows_describe "visit" skipping
  obtain ⟨-, -, hrefused⟩ := descriptions_agree visitRows_describe "visit" {}
  constructor
  · obtain ⟨described, executed, hrows, hcolumns, houtlines, hsurfaces⟩ :=
      hagree (by decide) (by decide +kernel)
    refine ⟨described, executed, hrows, hcolumns, houtlines, ?_⟩
    have hsurvivors : (survivors skipping visitColumns).map
        (fun placed => (placed.1.name, narrow32 (placed.2 + 1))) = [("Id", 1), ("", 3)] := by
      decide +kernel
    rw [← hsurvivors]
    exact (map_eq_map_of_forall₂ hsurfaces fun placed c hc => by rw [hc.name, hc.ordinal]).symm
  · obtain ⟨c, ⟨before, after, hcolumns, -, hnone, -⟩, hrows, -⟩ :=
      hrefused ⟨⟨"Place", "geography"⟩, by decide, by decide +kernel, by decide +kernel⟩
    have honly : ∀ d ∈ visitColumns, SqlType.ofName? d.typeName = none → d.name = "Place" := by
      decide +kernel
    have hname : c.name = "Place" :=
      honly c (hcolumns ▸ List.mem_append_right before List.mem_cons_self) hnone
    rwa [hname] at hrows

end Inference

end QueryShape
