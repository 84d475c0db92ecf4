import QueryShape.Proofs.ShapeMatching

/-!
The table type that is chosen where none is named. The main statement counts the types whose columns
can be paired off with the given ones: there must be one. No order plays a part in that.
-/

namespace QueryShape

/-- The columns of the type are the given ones up to order and names. -/
def TableType.Fits (t : TableType) (columns : List Column) : Prop :=
  Column.PairOff t.columns columns

instance (t : TableType) (columns : List Column) : Decidable (t.Fits columns) :=
  inferInstanceAs (Decidable (Column.PairOff _ _))

theorem TableType.fits_congr {t : TableType} {columns columns' : List Column}
    (h : columns.Perm columns') : t.Fits columns ↔ t.Fits columns' := by
  unfold TableType.Fits
  rw [Column.pairOff_iff, Column.pairOff_iff]
  have hshapes := h.map Column.shape
  exact ⟨fun hfits => hfits.trans hshapes, fun hfits => hfits.trans hshapes.symm⟩

namespace TableTypeChoice

def candidates (types : List TableType) (columns : List Column) : List TableType :=
  types.filter fun t => t.Fits columns

/-- Two selections choose one type, or fail in the same way and over the same types. -/
inductive Alike : Except Fault TableTypeChoice → Except Fault TableTypeChoice → Prop
  | chosen (t : TableType) (bindings bindings' : List ColumnBinding) :
      Alike (.ok ⟨t, bindings⟩) (.ok ⟨t, bindings'⟩)
  | unmatched (table : QualifiedName) (kind : ScriptKind) (columns columns' : List Column) :
      Alike (.error (.noMatchingTableType table kind columns))
        (.error (.noMatchingTableType table kind columns'))
  | ambiguous (table : QualifiedName) (kind : ScriptKind) (columns columns' : List Column)
      {names names' : List QualifiedName} :
      names.Perm names' →
      Alike (.error (.ambiguousTableType table kind columns names))
        (.error (.ambiguousTableType table kind columns' names'))

variable {types types' : List TableType} {columns columns' : List Column}

theorem ofType?_eq_some_iff {t : TableType} {choice : TableTypeChoice} :
    ofType? columns t = some choice ↔
      choice.type = t ∧ mapColumns t.columns columns = some choice.bindings := by
  unfold ofType?
  constructor
  · intro h
    obtain ⟨bindings, hbindings, rfl⟩ := Option.map_eq_some_iff.1 h
    exact ⟨rfl, hbindings⟩
  · rintro ⟨rfl, hbindings⟩
    exact Option.map_eq_some_iff.2 ⟨_, hbindings, rfl⟩

theorem map_type_filterMap (hnames : ∀ t ∈ types, HaveDistinctNames t.columns) :
    (types.filterMap (ofType? columns)).map (·.type) = candidates types columns := by
  induction types with
  | nil => rfl
  | cons t rest ih =>
      obtain ⟨hfirst, hrest⟩ := List.forall_mem_cons.1 hnames
      have hrest := ih hrest
      unfold candidates at hrest ⊢
      by_cases hfits : t.Fits columns
      · obtain ⟨bindings, hbindings⟩ := exists_mapColumns_of_pairOff hfirst hfits
        have htype : ofType? columns t = some ⟨t, bindings⟩ :=
          ofType?_eq_some_iff.2 ⟨rfl, hbindings⟩
        simp [htype, hfits, hrest]
      · have hnone : ofType? columns t = none := by
          refine Option.eq_none_iff_forall_not_mem.2 fun choice hchoice => hfits ?_
          exact pairOff_of_mapColumns hfirst (ofType?_eq_some_iff.1 hchoice).2
        simp [hnone, hfits, hrest]

section

variable (hnames : ∀ t ∈ types, HaveDistinctNames t.columns) (table : Table) (kind : ScriptKind)
include hnames

theorem select_of_candidates_nil (h : candidates types columns = []) :
    select table kind columns types none =
      .error (.noMatchingTableType table.name kind columns) := by
  change unique table kind columns types = _
  rw [← map_type_filterMap hnames, List.map_eq_nil_iff] at h
  unfold unique
  rw [h]

theorem exists_select_of_candidates_singleton {t : TableType}
    (h : candidates types columns = [t]) :
    ∃ bindings, mapColumns t.columns columns = some bindings ∧
      select table kind columns types none = .ok ⟨t, bindings⟩ := by
  change ∃ bindings, _ ∧ unique table kind columns types = _
  rw [← map_type_filterMap hnames] at h
  obtain ⟨choice, hchoice, rfl⟩ := List.map_eq_singleton_iff.1 h
  have hmem : choice ∈ types.filterMap (ofType? columns) := hchoice ▸ List.mem_singleton_self choice
  obtain ⟨t, -, ht⟩ := List.mem_filterMap.1 hmem
  obtain ⟨rfl, hbindings⟩ := ofType?_eq_some_iff.1 ht
  refine ⟨choice.bindings, hbindings, ?_⟩
  unfold unique
  rw [hchoice]

theorem select_of_candidates_many (h : 1 < (candidates types columns).length) :
    select table kind columns types none =
      .error (.ambiguousTableType table.name kind columns
        ((candidates types columns).map (·.name))) := by
  change unique table kind columns types = _
  rw [← map_type_filterMap hnames] at h ⊢
  unfold unique
  split
  · rename_i hnone
    simp [hnone] at h
  · rename_i hone
    simp [hone] at h
  · rw [List.map_map]
    rfl

end

theorem candidates_cases (types : List TableType) (columns : List Column) :
    candidates types columns = [] ∨ (∃ t, candidates types columns = [t]) ∨
      1 < (candidates types columns).length := by
  match candidates types columns with
  | [] => exact .inl rfl
  | [t] => exact .inr (.inl ⟨t, rfl⟩)
  | t :: u :: rest => exact .inr (.inr (by simp))

theorem candidates_perm (htypes : types.Perm types') (hcolumns : columns.Perm columns') :
    (candidates types columns).Perm (candidates types' columns') := by
  have hfilter : candidates types columns = candidates types columns' :=
    List.filter_congr fun t _ => by simp only [TableType.fits_congr hcolumns]
  rw [hfilter]
  exact htypes.filter _

theorem alike_of_perm (hnames : ∀ t ∈ types, HaveDistinctNames t.columns)
    (htypes : types.Perm types') (hcolumns : columns.Perm columns') (table : Table)
    (kind : ScriptKind) :
    Alike (select table kind columns types none) (select table kind columns' types' none) := by
  have hnames' : ∀ t ∈ types', HaveDistinctNames t.columns :=
    fun t ht => hnames t (htypes.mem_iff.2 ht)
  have hperm := candidates_perm htypes hcolumns
  rcases candidates_cases types columns with hnone | ⟨t, hone⟩ | hmany
  · have hnone' : candidates types' columns' = [] := (hnone ▸ hperm).nil_eq.symm
    rw [select_of_candidates_nil hnames table kind hnone,
      select_of_candidates_nil hnames' table kind hnone']
    exact .unmatched _ _ _ _
  · have hone' : candidates types' columns' = [t] := List.perm_singleton.1 (hone ▸ hperm.symm)
    obtain ⟨bindings, -, hselect⟩ :=
      exists_select_of_candidates_singleton hnames table kind hone
    obtain ⟨bindings', -, hselect'⟩ :=
      exists_select_of_candidates_singleton hnames' table kind hone'
    rw [hselect, hselect']
    exact .chosen t _ _
  · have hmany' : 1 < (candidates types' columns').length := hperm.length_eq ▸ hmany
    rw [select_of_candidates_many hnames table kind hmany,
      select_of_candidates_many hnames' table kind hmany']
    exact .ambiguous _ _ _ _ (hperm.map _)

section

variable (hnames : ∀ t ∈ types, HaveDistinctNames t.columns) {table : Table} {kind : ScriptKind}
include hnames

theorem candidates_of_select_eq_ok {choice : TableTypeChoice}
    (h : select table kind columns types none = .ok choice) :
    candidates types columns = [choice.type] := by
  rcases candidates_cases types columns with hnone | ⟨t, hone⟩ | hmany
  · rw [select_of_candidates_nil hnames table kind hnone] at h
    cases h
  · obtain ⟨bindings, -, hselect⟩ :=
      exists_select_of_candidates_singleton hnames table kind hone
    obtain rfl := Except.ok.inj (hselect.symm.trans h)
    exact hone
  · rw [select_of_candidates_many hnames table kind hmany] at h
    cases h

theorem candidates_of_select_eq_noMatching
    (h : select table kind columns types none =
      .error (.noMatchingTableType table.name kind columns)) : candidates types columns = [] := by
  rcases candidates_cases types columns with hnone | ⟨t, hone⟩ | hmany
  · exact hnone
  · obtain ⟨bindings, -, hselect⟩ :=
      exists_select_of_candidates_singleton hnames table kind hone
    cases hselect.symm.trans h
  · rw [select_of_candidates_many hnames table kind hmany] at h
    cases h

theorem candidates_of_select_eq_ambiguous {names : List QualifiedName}
    (h : select table kind columns types none =
      .error (.ambiguousTableType table.name kind columns names)) :
    1 < (candidates types columns).length ∧
      names = (candidates types columns).map (·.name) := by
  rcases candidates_cases types columns with hnone | ⟨t, hone⟩ | hmany
  · rw [select_of_candidates_nil hnames table kind hnone] at h
    cases h
  · obtain ⟨bindings, -, hselect⟩ :=
      exists_select_of_candidates_singleton hnames table kind hone
    cases hselect.symm.trans h
  · rw [select_of_candidates_many hnames table kind hmany] at h
    cases h
    exact ⟨hmany, rfl⟩

end

/-- A table type is chosen exactly if it is the only one in the list whose columns are the given
ones up to order and names. If there is none, or if there are several, the selection fails with an
error that says so and names all of them. The orders of the types and columns are of no account. -/
theorem select_finds_only_candidate (hnames : ∀ t ∈ types, HaveDistinctNames t.columns)
    (table : Table) (kind : ScriptKind) (columns : List Column) :
    (∀ t, (∃ bindings, select table kind columns types none = .ok ⟨t, bindings⟩) ↔
      types.filter (fun t => t.Fits columns) = [t]) ∧
    (∀ choice, select table kind columns types none = .ok choice →
      mapColumns choice.type.columns columns = some choice.bindings) ∧
    (select table kind columns types none =
        .error (.noMatchingTableType table.name kind columns) ↔
      types.filter (fun t => t.Fits columns) = []) ∧
    (∀ names, select table kind columns types none =
        .error (.ambiguousTableType table.name kind columns names) ↔
      1 < (types.filter fun t => t.Fits columns).length ∧
        names = (types.filter fun t => t.Fits columns).map (·.name)) ∧
    ∀ types' columns', types.Perm types' → columns.Perm columns' →
      Alike (select table kind columns types none) (select table kind columns' types' none) := by
  refine ⟨fun t => ⟨?_, fun hone => ?_⟩, fun choice h => (select_eq_ok h).2,
    ⟨candidates_of_select_eq_noMatching hnames, select_of_candidates_nil hnames table kind⟩,
    fun names => ⟨candidates_of_select_eq_ambiguous hnames, ?_⟩,
    fun types' columns' htypes hcolumns => alike_of_perm hnames htypes hcolumns table kind⟩
  · rintro ⟨bindings, h⟩
    exact candidates_of_select_eq_ok hnames h
  · obtain ⟨bindings, -, hselect⟩ :=
      exists_select_of_candidates_singleton hnames table kind hone
    exact ⟨bindings, hselect⟩
  · rintro ⟨hmany, rfl⟩
    exact select_of_candidates_many hnames table kind hmany

def itemsTable : Table where
  name := ⟨"dbo", "Items"⟩
  columns := [textColumn "Name" 50, intColumn "Id"]
  primaryKey := []
  isView := false

def typeOf (name : String) (columns : List Column) : TableType where
  id := 0
  name := ⟨"dbo", name⟩
  columns

/-- Of three types one has the shapes of the columns. A second one of these shapes makes the
selection fail. -/
theorem itemsTable_finds_only_candidate :
    let wide := typeOf "Wide" [intColumn "Id", textColumn "Name" 100]
    let pairs := typeOf "Pairs" [intColumn "Key", textColumn "Label" 50]
    let ids := typeOf "Ids" [intColumn "Id"]
    let items := typeOf "Items" [textColumn "Name" 50, intColumn "Id"]
    (∀ t ∈ [wide, pairs, ids, items], HaveDistinctNames t.columns) ∧
      (∃ bindings, select itemsTable .getByIdBatch itemsTable.columns [wide, pairs, ids] none =
        .ok ⟨pairs, bindings⟩) ∧
      Alike (select itemsTable .getByIdBatch itemsTable.columns [wide, pairs, ids] none)
        (select itemsTable .getByIdBatch itemsTable.columns.reverse [ids, pairs, wide] none) ∧
      select itemsTable .getByIdBatch itemsTable.columns [wide, pairs, ids, items] none =
        .error (.ambiguousTableType ⟨"dbo", "Items"⟩ .getByIdBatch itemsTable.columns
          [⟨"dbo", "Pairs"⟩, ⟨"dbo", "Items"⟩]) := by
  intro wide pairs ids items
  have hnames : ∀ t ∈ [wide, pairs, ids, items], HaveDistinctNames t.columns := by
    decide +kernel
  have hfirst : ∀ t ∈ [wide, pairs, ids], HaveDistinctNames t.columns :=
    fun t ht => hnames t (List.mem_append_left [items] ht)
  obtain ⟨hchosen, -, -, -, halike⟩ :=
    select_finds_only_candidate hfirst itemsTable .getByIdBatch itemsTable.columns
  obtain ⟨-, -, -, hambiguous, -⟩ :=
    select_finds_only_candidate hnames itemsTable .getByIdBatch itemsTable.columns
  refine ⟨hnames, (hchosen pairs).2 (by decide +kernel), ?_, ?_⟩
  · exact halike _ _ (List.reverse_perm [ids, pairs, wide]) (List.reverse_perm _).symm
  · exact (hambiguous _).2 (by decide +kernel)

end TableTypeChoice

end QueryShape
