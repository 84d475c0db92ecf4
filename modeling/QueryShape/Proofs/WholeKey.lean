import QueryShape.Catalog.Tables
import QueryShape.Proofs.RowSource

namespace QueryShape

open QueryShape.Text

namespace Table

/-- The rows about the key of a table. -/
def keyRowsOf (name : QualifiedName) (keyRows : List Row) : List Row :=
  keyRows.filter fun r => (Key.ofRow r).name = name

def keyOrdinal (r : Row) : Int :=
  r.int "key_ordinal"

/-- A row about a key names a column. -/
def Names (r : Row) (c : Column) : Prop :=
  sameIgnoringCase c.name (r.text "column_name") = true

/-- The key has one column for each row about it, in the order of the key. -/
def HasWholeKey (keyRows : List Row) (t : Table) : Prop :=
  ∃ rows, rows.Perm (keyRowsOf t.name keyRows) ∧
    (rows.Pairwise fun a b => keyOrdinal a < keyOrdinal b) ∧
    List.Forall₂ Names rows t.primaryKey

/-- No two rows about one table name one column. -/
def HaveDistinctColumns (columnRows : List Row) : Prop :=
  ∀ key, (columnRows.filter fun r => Key.ofRow r = key).Pairwise fun a b =>
    sameIgnoringCase (a.text "column_name") (b.text "column_name") = false

/-- No two rows about one key give one place. -/
def HaveDistinctOrdinals (keyRows : List Row) : Prop :=
  ∀ name, (keyRowsOf name keyRows).Pairwise fun a b => keyOrdinal a ≠ keyOrdinal b

end Table

theorem Column.name_of_ofRow {types : TypeCatalog} {r : Row} {c : Column}
    (h : Column.ofRow types r = .ok c) : c.name = r.text "column_name" := by
  unfold Column.ofRow at h
  split at h
  · cases h
  · obtain rfl := Except.ok.inj h
    rfl

namespace Table

variable {types : TypeCatalog} {key : Key} {rows keyRows : List Row} {t : Table}

theorem haveDistinctNames_ofRows
    (h : rows.Pairwise fun a b =>
      sameIgnoringCase (a.text "column_name") (b.text "column_name") = false) :
    HaveDistinctNames (ofRows types key rows keyRows).columns := by
  refine HaveDistinctNames.perm ?_ (List.mergeSort_perm _ _)
  refine List.pairwise_filterMap.2 (h.imp ?_)
  intro a b hne c hc d hd
  have hcname := Column.name_of_ofRow (toOption_eq_some_iff.1 hc)
  have hdname := Column.name_of_ofRow (toOption_eq_some_iff.1 hd)
  rwa [hcname, hdname]

theorem mem_columns_ofRows {c : Column} :
    c ∈ (ofRows types key rows keyRows).columns ↔ ∃ r ∈ rows, Column.ofRow types r = .ok c := by
  unfold ofRows
  dsimp only
  unfold Column.byOrdinal
  rw [(List.mergeSort_perm _ _).mem_iff, List.mem_filterMap]
  simp only [toOption_eq_some_iff]

/-- The rows about a key in the order of the places. -/
def sortedKeyRows (name : QualifiedName) (keyRows : List Row) : List Row :=
  (keyRowsOf name keyRows).mergeSort fun a b => decide (keyOrdinal a ≤ keyOrdinal b)

theorem pairwise_sortedKeyRows {name : QualifiedName} (h : HaveDistinctOrdinals keyRows) :
    (sortedKeyRows name keyRows).Pairwise fun a b => keyOrdinal a < keyOrdinal b :=
  pairwise_lt_mergeSort (h name)

/-- Each row about the key finds its column, and these are the key. -/
def FindsKey (keyRows : List Row) (t : Table) : Prop :=
  List.Forall₂ (fun r c => findColumn? t.columns (r.text "column_name") = some c)
    (sortedKeyRows t.name keyRows) t.primaryKey

theorem findsKey_or_lacksColumn (ht : t = ofRows types key rows keyRows) :
    t.FindsKey keyRows ∨
      t.primaryKey = [] ∧
        ∃ r ∈ keyRowsOf t.name keyRows, findColumn? t.columns (r.text "column_name") = none := by
  have hnames : keyNames t.name keyRows =
      (sortedKeyRows t.name keyRows).map fun r => r.text "column_name" := rfl
  have hkey : t.primaryKey =
      ((keyNames t.name keyRows).mapM (findColumn? t.columns)).getD [] := by
    rw [ht]
    rfl
  rw [hnames] at hkey
  cases hfound : ((sortedKeyRows t.name keyRows).map fun r => r.text "column_name").mapM
      (findColumn? t.columns) with
  | some key =>
      left
      rw [hfound, Option.getD_some] at hkey
      rw [mapM_eq_some_iff, List.forall₂_map_left_iff, ← hkey] at hfound
      exact hfound
  | none =>
      right
      rw [hfound] at hkey
      obtain ⟨name, hname, hnone⟩ := exists_of_mapM_eq_none hfound
      obtain ⟨r, hr, rfl⟩ := List.mem_map.1 hname
      exact ⟨hkey, r, (List.mergeSort_perm _ _).mem_iff.1 hr, hnone⟩

theorem primaryKey_ofRows_nil (ht : t = ofRows types key rows []) : t.primaryKey = [] := by
  have hsorted : sortedKeyRows t.name [] = [] := List.mergeSort_nil
  rcases findsKey_or_lacksColumn ht with hfound | ⟨hnone, -⟩
  · rw [FindsKey, hsorted] at hfound
    exact List.forall₂_nil_left_iff.1 hfound
  · exact hnone

/-- What the rows of the catalog say about a table. Without a key it is a view or lacks a column of
the key. -/
structure IsLoaded (types : TypeCatalog) (columnRows keyRows : List Row) (t : Table) : Prop where
  mem_columns : ∀ c, c ∈ t.columns ↔
    ∃ r ∈ columnRows, Key.ofRow r = ⟨t.name, t.isView⟩ ∧ Column.ofRow types r = .ok c
  names : HaveDistinctNames t.columns
  key : t.FindsKey keyRows ∨
    t.primaryKey = [] ∧ (t.isView = true ∨
      ∃ r ∈ keyRowsOf t.name keyRows, findColumn? t.columns (r.text "column_name") = none)

theorem isLoaded_of_mem_allOfRows {rules : RuleSet} {columnRows : List Row}
    (hcolumns : HaveDistinctColumns columnRows)
    (h : t ∈ (allOfRows types rules columnRows keyRows).1) :
    t.IsLoaded types columnRows keyRows := by
  obtain ⟨key, -, rfl⟩ := List.mem_map.1 h
  refine ⟨fun c => ?_, haveDistinctNames_ofRows (hcolumns key), ?_⟩
  · rw [mem_columns_ofRows]
    simp only [List.mem_filter, decide_eq_true_eq, and_assoc]
    exact .rfl
  · split
    · rename_i hview
      exact .inr ⟨primaryKey_ofRows_nil rfl, .inl (Bool.and_eq_true_iff.1 hview).1⟩
    · rcases findsKey_or_lacksColumn rfl with hfound | ⟨hnone, hlacks⟩
      · exact .inl hfound
      · exact .inr ⟨hnone, .inr hlacks⟩

namespace IsLoaded

variable {columnRows : List Row}

theorem mem_of_mem_primaryKey (h : t.IsLoaded types columnRows keyRows) :
    ∀ c ∈ t.primaryKey, c ∈ t.columns := by
  intro c hc
  rcases h.key with hfound | ⟨hnone, -⟩
  · obtain ⟨r, -, hr⟩ := exists_of_mem_forall₂_right hfound c hc
    exact (findColumn?_eq_some hr).1
  · rw [hnone] at hc
    cases hc

theorem mem_primaryKey_of_names (h : t.IsLoaded types columnRows keyRows) {r : Row} {c : Column}
    (hr : r ∈ keyRowsOf t.name keyRows) (hc : c ∈ t.columns) (hname : Names r c) :
    t.primaryKey = [] ∨ c ∈ t.primaryKey := by
  rcases h.key with hfound | ⟨hnone, -⟩
  · right
    have hsorted : r ∈ sortedKeyRows t.name keyRows := (List.mergeSort_perm _ _).mem_iff.2 hr
    obtain ⟨d, hd, hfind⟩ := exists_of_mem_forall₂_left hfound r hsorted
    rw [h.names.findColumn?_eq hc hname] at hfind
    rwa [Option.some.inj hfind]
  · exact .inl hnone

theorem hasWholeKey_of_findsKey (hordinals : HaveDistinctOrdinals keyRows)
    (h : t.FindsKey keyRows) : t.HasWholeKey keyRows :=
  ⟨sortedKeyRows t.name keyRows, List.mergeSort_perm _ _, pairwise_sortedKeyRows hordinals,
    h.imp fun _ _ hfound => (findColumn?_eq_some hfound).2⟩

theorem whole_or_absent (h : t.IsLoaded types columnRows keyRows)
    (hordinals : HaveDistinctOrdinals keyRows) :
    t.primaryKey = [] ∨ t.HasWholeKey keyRows := by
  rcases h.key with hfound | ⟨hnone, -⟩
  · exact .inr (hasWholeKey_of_findsKey hordinals hfound)
  · exact .inl hnone

theorem hasWholeKey (h : t.IsLoaded types columnRows keyRows)
    (hordinals : HaveDistinctOrdinals keyRows) (htable : t.isView = false)
    (hfound : ∀ r ∈ keyRowsOf t.name keyRows, ∃ c ∈ t.columns, Names r c) :
    t.HasWholeKey keyRows := by
  rcases h.key with hkey | ⟨-, hview | ⟨r, hr, hnone⟩⟩
  · exact hasWholeKey_of_findsKey hordinals hkey
  · rw [htable] at hview
    cases hview
  · obtain ⟨c, hc, hname⟩ := hfound r hr
    rw [h.names.findColumn?_eq hc hname] at hnone
    cases hnone

theorem primaryKey_eq_nil (h : t.IsLoaded types columnRows keyRows)
    (hcolumns : HaveDistinctColumns columnRows) {keyRow row : Row} {typeName : String}
    (hkeyRow : keyRow ∈ keyRowsOf t.name keyRows) (hrow : row ∈ columnRows)
    (hkey : Key.ofRow row = ⟨t.name, t.isView⟩)
    (hname : sameIgnoringCase (row.text "column_name") (keyRow.text "column_name") = true)
    (hunbound : Column.ofRow types row = .error typeName) : t.primaryKey = [] := by
  rcases h.key with hfound | ⟨hnone, -⟩
  · have hsorted : keyRow ∈ sortedKeyRows t.name keyRows :=
      (List.mergeSort_perm _ _).mem_iff.2 hkeyRow
    obtain ⟨c, -, hfind⟩ := exists_of_mem_forall₂_left hfound keyRow hsorted
    obtain ⟨hc, hcname⟩ := findColumn?_eq_some hfind
    obtain ⟨bound, hbound, hboundKey, hcolumn⟩ := (h.mem_columns c).1 hc
    rw [Column.name_of_ofRow hcolumn] at hcname
    -- The row that the key column comes from has the name of the row that gives none.
    have hdistinct := (hcolumns ⟨t.name, t.isView⟩).imp sameIgnoringCase_eq_false_iff.1
    have hsame : folded (row.text "column_name") = folded (bound.text "column_name") :=
      (sameIgnoringCase_iff.1 hname).trans (sameIgnoringCase_iff.1 hcname).symm
    have hrowEq : row = bound :=
      eq_of_key_eq_of_pairwise hdistinct (List.mem_filter.2 ⟨hrow, decide_eq_true hkey⟩)
        (List.mem_filter.2 ⟨hbound, decide_eq_true hboundKey⟩) hsame
    rw [hrowEq, hcolumn] at hunbound
    cases hunbound
  · exact hnone

end IsLoaded

variable {skip : Column → Bool}

/-- Rules leave a key as it is or take it away. -/
theorem primaryKey_without (hcolumns : HaveDistinctNames t.columns)
    (hkey : ∀ c ∈ t.primaryKey, c ∈ t.columns) :
    (t.without skip).primaryKey =
      if ∀ c ∈ t.primaryKey, skip c = false then t.primaryKey else [] := by
  -- What is left is searched by name, which finds a key column just when it is left itself.
  have hkept : ∀ c ∈ t.primaryKey,
      ((t.columns.filter fun c => !skip c).any fun d => d.name == c.name) = !skip c := by
    intro c hc
    rw [Bool.eq_iff_iff, List.any_eq_true]
    constructor
    · rintro ⟨d, hd, hname⟩
      obtain ⟨hdmem, hdkept⟩ := List.mem_filter.1 hd
      have hsame : sameIgnoringCase d.name c.name = true := by
        rw [eq_of_beq hname, sameIgnoringCase_self]
      rwa [← hcolumns.eq_of_sameName hdmem (hkey c hc) hsame]
    · intro hskip
      exact ⟨c, List.mem_filter.2 ⟨hkey c hc, hskip⟩, beq_self_eq_true _⟩
  have hall : (t.primaryKey.all fun k =>
      (t.columns.filter fun c => !skip c).any fun c => c.name == k.name) =
        decide (∀ c ∈ t.primaryKey, skip c = false) := by
    rw [Bool.eq_iff_iff, List.all_eq_true, decide_eq_true_eq]
    refine forall₂_congr fun c hc => ?_
    rw [hkept c hc, Bool.not_eq_true']
  unfold without
  dsimp only
  rw [hall]
  simp only [decide_eq_true_eq]

theorem mem_columns_without (hcolumns : HaveDistinctNames t.columns)
    (hkey : ∀ c ∈ t.primaryKey, c ∈ t.columns) :
    ∀ c ∈ (t.without skip).primaryKey, c ∈ (t.without skip).columns := by
  intro c hc
  rw [primaryKey_without hcolumns hkey] at hc
  split at hc
  · rename_i hkept
    exact List.mem_filter.2 ⟨hkey c hc, by simp [hkept c hc]⟩
  · cases hc

end Table

namespace Statement

variable {table : Table} {r : TableScriptRule} {types : List TableType} {p : ColumnPlan}
  {s : Statement}

theorem conditions_perm_of_ofPlan (hkind : r.kind.requiresKey = true)
    (htypes : ∀ type ∈ types, HaveDistinctNames type.columns)
    (h : ofPlan table r types p = .ok s) : (s.uses.conditions.map (·.column)).Perm p.keys := by
  by_cases htype : r.kind.usesTableType = true
  · obtain ⟨choice, hchoice, rfl⟩ := selectJoined_of_ofPlan htype h
    obtain ⟨hmem, hbindings⟩ := TableTypeChoice.select_eq_ok hchoice
    obtain ⟨-, hperm⟩ := mapColumns_eq_some (htypes _ hmem) hbindings
    simpa [uses, Equation.ofBinding, Function.comp_def] using hperm
  · have hkeys : s.uses.conditions.map (·.column) = p.keys := by
      unfold ofPlan at h
      split at h
      case h_2 | h_8 | h_9 =>
        obtain rfl := eq_of_requireColumns h
        simp [uses, Equation.passed, Equation.drawn, Function.comp_def]
      case h_10 | h_11 | h_12 =>
        obtain rfl := Except.ok.inj h
        simp [uses, Equation.passed, Equation.drawn, Function.comp_def]
      case h_4 hk | h_5 hk => exact absurd (by rw [hk]; rfl) htype
      case h_1 hk | h_3 hk | h_6 hk | h_7 hk =>
        rw [hk] at hkind
        cases hkind
    rw [hkeys]

end Statement

/-- A script that needs a key of the table matches rows on the whole of it, and there is none if the
table has no key. -/
def Table.KeyIsMatched (table : Table) (types : List TableType) (r : TableScriptRule) : Prop :=
  (table.primaryKey = [] →
    synthesizeScript table types r = .error (.missingPrimaryKey table.name r.kind)) ∧
  ∀ script, synthesizeScript table types r = .ok script →
    table.primaryKey ≠ [] ∧ ∃ s : Statement,
      script = s.toScript (r.identity table.name) table.name ∧
      Clause.textOf (s.clauses table.name) = script.text ∧
      Clause.usesOf (s.clauses table.name) = s.uses ∧
      (s.uses.conditions.map (·.column)).Perm table.primaryKey

theorem Table.keyIsMatched {table : Table} {types : List TableType} {r : TableScriptRule}
    (hcolumns : HaveDistinctNames table.columns) (hkey : ∀ c ∈ table.primaryKey, c ∈ table.columns)
    (htypes : ∀ type ∈ types, HaveDistinctNames type.columns)
    (hkind : r.kind.requiresKey = true) : table.KeyIsMatched types r := by
  constructor
  · intro hnone
    have hfilter : r.kind.usesFilterColumns = false := by
      revert hkind
      cases r.kind <;> decide
    have hkeys : ColumnPlan.keysFor table r = .error (.missingPrimaryKey table.name r.kind) := by
      unfold ColumnPlan.keysFor
      rw [if_neg (by simp [hfilter]), if_pos hkind, hnone]
      rfl
    unfold synthesizeScript ColumnPlan.ofRule
    rw [hkeys]
    rfl
  · intro script h
    obtain ⟨p, hp, h⟩ := bind_eq_ok.1 h
    obtain ⟨s, hs, rfl⟩ := map_eq_ok.1 h
    obtain ⟨keys, hkeys, rfl⟩ := map_eq_ok.1 hp
    obtain ⟨hne, rfl⟩ := ColumnPlan.keys_eq_primaryKey hcolumns hkey hkeys hkind
    exact ⟨hne, s, rfl, Statement.textOf_clauses table.name s,
      Statement.usesOf_clauses table.name s, Statement.conditions_perm_of_ofPlan hkind htypes hs⟩

/-- The key of a loaded table is whole or absent, and stays so whatever columns are left out. It is
absent if a column of it cannot be bound or is left out. Scripts that need a key match rows on the
whole of it. -/
theorem Table.key_whole_of_mem_allOfRows {types : TypeCatalog} {rules : RuleSet}
    {columnRows keyRows : List Row} {t : Table} (hcolumns : HaveDistinctColumns columnRows)
    (hordinals : HaveDistinctOrdinals keyRows)
    (ht : t ∈ (allOfRows types rules columnRows keyRows).1) :
    (t.primaryKey = [] ∨ t.HasWholeKey keyRows) ∧
    (∀ c ∈ t.primaryKey, c ∈ t.columns) ∧
    (t.isView = false →
      (∀ r ∈ keyRowsOf t.name keyRows, ∃ c ∈ t.columns, Names r c) → t.HasWholeKey keyRows) ∧
    (∀ r ∈ keyRowsOf t.name keyRows, ∀ row ∈ columnRows, Key.ofRow row = ⟨t.name, t.isView⟩ →
      sameIgnoringCase (row.text "column_name") (r.text "column_name") = true →
      ∀ typeName, Column.ofRow types row = .error typeName → t.primaryKey = []) ∧
    ∀ skip : Column → Bool,
      ((t.without skip).primaryKey = [] ∨ (t.without skip).HasWholeKey keyRows) ∧
      (∀ c ∈ (t.without skip).primaryKey, c ∈ (t.without skip).columns) ∧
      ((∀ c ∈ t.primaryKey, skip c = false) → (t.without skip).primaryKey = t.primaryKey) ∧
      (∀ r ∈ keyRowsOf t.name keyRows, ∀ c ∈ t.columns, Names r c → skip c = true →
        (t.without skip).primaryKey = []) ∧
      ∀ (tableTypes : List TableType) (rule : TableScriptRule),
        (∀ type ∈ tableTypes, HaveDistinctNames type.columns) → rule.kind.requiresKey = true →
          (t.without skip).KeyIsMatched tableTypes rule := by
  have hloaded := isLoaded_of_mem_allOfRows hcolumns ht
  have hmem := hloaded.mem_of_mem_primaryKey
  have hkey : ∀ skip : Column → Bool, (t.without skip).primaryKey =
      if ∀ c ∈ t.primaryKey, skip c = false then t.primaryKey else [] := fun _ =>
    primaryKey_without hloaded.names hmem
  refine ⟨hloaded.whole_or_absent hordinals, hmem, hloaded.hasWholeKey hordinals, ?_, fun skip =>
    ⟨?_, mem_columns_without hloaded.names hmem, ?_, ?_, ?_⟩⟩
  · intro r hr row hrow hrowKey hname typeName hunbound
    exact hloaded.primaryKey_eq_nil hcolumns hr hrow hrowKey hname hunbound
  -- What is left out takes the whole key along or leaves the whole of it.
  · rcases hloaded.whole_or_absent hordinals with hnone | ⟨rows, hperm, hsorted, hnamed⟩
    · left
      rw [hkey skip, hnone, ite_self]
    · by_cases hkept : ∀ c ∈ t.primaryKey, skip c = false
      · right
        refine ⟨rows, hperm, hsorted, ?_⟩
        rwa [hkey skip, if_pos hkept]
      · left
        rw [hkey skip, if_neg hkept]
  · intro hkept
    rw [hkey skip, if_pos hkept]
  · intro r hr c hc hname hskip
    rw [hkey skip]
    rcases hloaded.mem_primaryKey_of_names hr hc hname with hnone | hmemKey
    · rw [hnone, ite_self]
    · rw [if_neg]
      intro hkept
      rw [hkept c hmemKey] at hskip
      cases hskip
  · intro tableTypes rule htypes hkind
    have hkept : HaveDistinctNames (t.without skip).columns :=
      hloaded.names.sublist List.filter_sublist
    exact keyIsMatched hkept (mem_columns_without hloaded.names hmem) htypes hkind

/-- Rows about the columns of a table of lines. -/
def linesColumns : List Row :=
  [("Number", 1), ("Order", 2), ("Amount", 3)].map fun (name, ordinal) =>
    ⟨[("schema_name", .text "dbo"), ("object_name", .text "Lines"), ("is_view", .bool false),
      ("column_id", .int ordinal), ("column_name", .text name), ("system_type_id", .int 56),
      ("max_length", .int 4)]⟩

/-- Rows about a key of two columns, the second first. -/
def linesKeys : List Row :=
  [("Number", 2), ("Order", 1)].map fun (name, ordinal) =>
    ⟨[("schema_name", .text "dbo"), ("object_name", .text "Lines"), ("column_name", .text name),
      ("key_ordinal", .int ordinal)]⟩

/-- A deletion of a line matches it on its order as well as on its number. Where the order is left
out, there is none. -/
theorem linesTable_key_whole :
    ∃ t, (Table.allOfRows { systemTypes := [(56, "int")] } (GlobRules.mk []).toRuleSet linesColumns
        linesKeys).1 = [t] ∧
      t.HasWholeKey linesKeys ∧ t.primaryKey.length = 2 ∧
      (t.without fun c => c.name == "Amount").KeyIsMatched [] { kind := .delete } ∧
      synthesizeScript (t.without fun c => sameIgnoringCase c.name "order") []
          { kind := .delete } =
        .error (.missingPrimaryKey ⟨"dbo", "Lines"⟩ .delete) := by
  have hkeys : (Table.allOfRows { systemTypes := [(56, "int")] } (GlobRules.mk []).toRuleSet
      linesColumns linesKeys).1.map (fun t => (t.name, t.isView)) =
        [(⟨"dbo", "Lines"⟩, false)] := by
    decide +kernel
  obtain ⟨t, hone, hkey⟩ := List.map_eq_singleton_iff.1 hkeys
  obtain ⟨hname, htable⟩ := Prod.mk.inj hkey
  have hcolumns : Table.HaveDistinctColumns linesColumns := fun key =>
    List.Pairwise.sublist List.filter_sublist (by decide +kernel)
  have hordinals : Table.HaveDistinctOrdinals linesKeys := fun name =>
    List.Pairwise.sublist List.filter_sublist (by decide +kernel)
  have ht := hone ▸ List.mem_singleton_self t
  obtain ⟨-, -, hwhole, -, hwithout⟩ :=
    Table.key_whole_of_mem_allOfRows (t := t) hcolumns hordinals ht
  have hloaded := Table.isLoaded_of_mem_allOfRows hcolumns ht
  have hall : (linesKeys.all fun r => linesColumns.any fun row =>
      decide (Table.Key.ofRow row = ⟨⟨"dbo", "Lines"⟩, false⟩) &&
        (Column.ofRow { systemTypes := [(56, "int")] } row).toOption.any fun c =>
          sameIgnoringCase c.name (r.text "column_name")) = true := by
    decide +kernel
  have hfound : ∀ r ∈ Table.keyRowsOf t.name linesKeys, ∃ c ∈ t.columns, Table.Names r c := by
    intro r hr
    obtain ⟨row, hrow, hr⟩ :=
      List.any_eq_true.1 (List.all_eq_true.1 hall r (List.mem_filter.1 hr).1)
    obtain ⟨hrowKey, hr⟩ := Bool.and_eq_true_iff.1 hr
    obtain ⟨c, hc, hnames⟩ := (Option.any_eq_true _ _).1 hr
    refine ⟨c, (hloaded.mem_columns c).2 ⟨row, hrow, ?_, toOption_eq_some_iff.1 hc⟩, hnames⟩
    rw [hname, htable]
    exact of_decide_eq_true hrowKey
  have hwhole := hwhole htable hfound
  refine ⟨t, hone, hwhole, ?_, ?_, ?_⟩
  · obtain ⟨rows, hperm, -, hnamed⟩ := hwhole
    rw [← hnamed.length_eq, hperm.length_eq, hname]
    decide +kernel
  · exact (hwithout _).2.2.2.2 [] { kind := .delete } (List.forall_mem_nil _) rfl
  · have hlast : linesKeys.getLast (by decide) ∈ Table.keyRowsOf t.name linesKeys := by
      rw [hname]
      exact List.mem_filter.2 ⟨List.getLast_mem _, by decide +kernel⟩
    obtain ⟨c, hc, hnames⟩ := hfound _ hlast
    have hskip : sameIgnoringCase c.name "order" = true := by
      have horder : folded "Order" = folded "order" := by decide +kernel
      exact sameIgnoringCase_iff.2 ((sameIgnoringCase_iff.1 hnames).trans horder)
    obtain ⟨-, -, -, habsent, hscripts⟩ := hwithout fun c => sameIgnoringCase c.name "order"
    have hmatched := hscripts [] { kind := .delete } (List.forall_mem_nil _) rfl
    rw [← hname]
    exact hmatched.1 (habsent _ hlast c hc hnames hskip)

end QueryShape
