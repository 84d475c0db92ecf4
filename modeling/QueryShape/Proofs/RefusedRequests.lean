import QueryShape.Proofs.ColumnNames
import QueryShape.Proofs.Result

namespace QueryShape

open QueryShape.Text

namespace Table

/-- No column of the table has the name, in whatever case. -/
def Lacks (table : Table) (name : String) : Prop :=
  ∀ c ∈ table.columns, sameIgnoringCase c.name name = false

instance (table : Table) (name : String) : Decidable (table.Lacks name) :=
  inferInstanceAs (Decidable (∀ c ∈ table.columns, _))

theorem column?_eq_none_iff {table : Table} {name : String} :
    table.column? name = none ↔ table.Lacks name := by
  simp [column?, findColumn?, Lacks]

theorem exists_column?_iff {table : Table} {name : String} :
    (∃ c, table.column? name = some c) ↔ ¬ table.Lacks name := by
  rw [← column?_eq_none_iff]
  exact Option.ne_none_iff_exists'.symm

end Table

/-- What a statement of the kind must find columns for. -/
def ScriptKind.purpose? : ScriptKind → Option ColumnPurpose
  | getAll | getById | getByIdBatch | getByColumns | getByColumnsBatch => some .select
  | insertBatch => some .insert
  | update | updateBatch => some .update
  | insert | merge | mergeBatch | delete => none

/-- Whether a column serves a purpose where the request does not say. -/
def ColumnPurpose.Suits (table : Table) : ColumnPurpose → Column → Prop
  | select, _ => True
  | insert, c => c.isServerGenerated = false
  | update, c => table.isKey c.name = false ∧ c.isServerGenerated = false

namespace TableScriptRule

variable {table : Table} {types : List TableType} {r : TableScriptRule} {keys : List Column}
  {f : Fault}

/-- The request has the column serve the purpose: it says so, or it does not say and the column
suits. -/
def Takes (table : Table) (r : TableScriptRule) (purpose : ColumnPurpose) (c : Column) : Prop :=
  (r.columnRule c.name).inclusion = some true ∨
    (r.columnRule c.name).inclusion = none ∧ purpose.Suits table c

/-- A request takes no column of a table for a purpose. -/
def TakesNone (table : Table) (r : TableScriptRule) (purpose : ColumnPurpose) : Prop :=
  ∀ c ∈ table.columns, ¬ r.Takes table purpose c

/-- The columns that a request matches rows on. -/
inductive MatchesOn (table : Table) (r : TableScriptRule) : List Column → Prop
  | named {names : List String} {keys : List Column} :
      r.kind.usesFilterColumns = true → r.filterColumns = some names → names ≠ [] →
      List.Forall₂ (fun name c => table.column? name = some c) names keys → MatchesOn table r keys
  | key :
      r.kind.requiresKey = true → (∃ k ∈ table.primaryKey, ¬ table.Lacks k.name) →
      MatchesOn table r (table.primaryKey.filterMap fun k => table.column? k.name)
  | nothing :
      r.kind.usesFilterColumns = false → r.kind.requiresKey = false → MatchesOn table r []

/-- The columns to match on are not given, or are not there. -/
inductive CannotMatch (table : Table) (r : TableScriptRule) : Fault → Prop
  | unnamed :
      r.kind.usesFilterColumns = true → r.filterColumns = none ∨ r.filterColumns = some [] →
      CannotMatch table r (.missingFilterColumns table.name r.kind)
  | unknown {before after : List String} {name : String} :
      r.kind.usesFilterColumns = true → r.filterColumns = some (before ++ name :: after) →
      (∀ found ∈ before, ¬ table.Lacks found) → table.Lacks name →
      CannotMatch table r (.unknownColumn table.name r.kind name)
  | keyless :
      r.kind.requiresKey = true → (∀ k ∈ table.primaryKey, table.Lacks k.name) →
      CannotMatch table r (.missingPrimaryKey table.name r.kind)

/-- What stands in the way of a request. Each kind of obstacle supposes that there is none of the
kinds before it. -/
inductive Obstacle (table : Table) (types : List TableType) (r : TableScriptRule) : Fault → Prop
  | cannotMatch {f : Fault} : CannotMatch table r f → Obstacle table types r f
  | takesNone {keys : List Column} {purpose : ColumnPurpose} :
      MatchesOn table r keys → r.kind.purpose? = some purpose → r.TakesNone table purpose →
      Obstacle table types r (.emptyColumnList table.name r.kind purpose)
  | noTableType {keys : List Column} {f : Fault} :
      MatchesOn table r keys → r.kind.usesTableType = true → ¬ r.TakesNone table .select →
      TableTypeChoice.select table r.kind keys types r.tableType = .error f →
      Obstacle table types r f

theorem requiresKey_eq_false (h : r.kind.usesFilterColumns = true) :
    r.kind.requiresKey = false := by
  revert h
  cases r.kind <;> decide

end TableScriptRule

open TableScriptRule

namespace ColumnPlan

variable {table : Table} {types : List TableType} {r : TableScriptRule} {p : ColumnPlan}
  {keys : List Column} {f : Fault}

/-- The column that a request names. -/
def namedColumn (table : Table) (kind : ScriptKind) (name : String) : Except Fault Column :=
  match table.column? name with
  | none => .error (.unknownColumn table.name kind name)
  | some c => .ok c

theorem namedColumn_eq_ok_iff {kind : ScriptKind} {name : String} {c : Column} :
    namedColumn table kind name = .ok c ↔ table.column? name = some c := by
  unfold namedColumn
  cases table.column? name <;> simp

theorem namedColumn_eq_error_iff {kind : ScriptKind} {name : String} :
    namedColumn table kind name = .error f ↔
      table.Lacks name ∧ f = .unknownColumn table.name kind name := by
  rw [← Table.column?_eq_none_iff]
  unfold namedColumn
  cases table.column? name <;> simp [eq_comm]

theorem filterColumns_eq (table : Table) (kind : ScriptKind) (names : List String) :
    filterColumns table kind names = names.mapM (namedColumn table kind) :=
  rfl

theorem filterColumns_eq_ok_iff {kind : ScriptKind} {names : List String} :
    filterColumns table kind names = .ok keys ↔
      List.Forall₂ (fun name c => table.column? name = some c) names keys := by
  rw [filterColumns_eq, mapM_eq_ok_iff]
  simp only [namedColumn_eq_ok_iff]

theorem filterColumns_eq_error_iff {kind : ScriptKind} {names : List String} :
    filterColumns table kind names = .error f ↔
      ∃ before name after, names = before ++ name :: after ∧
        (∀ found ∈ before, ¬ table.Lacks found) ∧ table.Lacks name ∧
        f = .unknownColumn table.name kind name := by
  rw [filterColumns_eq, mapM_eq_error_iff]
  simp only [namedColumn_eq_ok_iff, namedColumn_eq_error_iff, Table.exists_column?_iff]

theorem keysFor_named {names : List String} (hkind : r.kind.usesFilterColumns = true)
    (hnames : r.filterColumns = some names) (hne : names ≠ []) :
    keysFor table r = filterColumns table r.kind names := by
  obtain ⟨name, rest, rfl⟩ := List.exists_cons_of_ne_nil hne
  unfold keysFor
  rw [if_pos hkind, hnames]
  rfl

theorem keysFor_unnamed (hkind : r.kind.usesFilterColumns = true)
    (hnames : r.filterColumns = none ∨ r.filterColumns = some []) :
    keysFor table r = .error (.missingFilterColumns table.name r.kind) := by
  have hnil : r.filterColumns.getD [] = [] := by
    rcases hnames with hnames | hnames <;> rw [hnames] <;> rfl
  unfold keysFor
  rw [if_pos hkind, hnil]

theorem keysFor_key (hkind : r.kind.requiresKey = true)
    (hkey : ∃ k ∈ table.primaryKey, ¬ table.Lacks k.name) :
    keysFor table r = .ok (table.primaryKey.filterMap fun k => table.column? k.name) := by
  have hfilter : ¬ r.kind.usesFilterColumns = true := fun hfilter =>
    Bool.false_ne_true ((requiresKey_eq_false hfilter).symm.trans hkind)
  have hne : (table.primaryKey.filterMap fun k => table.column? k.name) ≠ [] := by
    obtain ⟨k, hk, hfound⟩ := hkey
    obtain ⟨c, hc⟩ := Table.exists_column?_iff.2 hfound
    exact List.ne_nil_of_mem (List.mem_filterMap.2 ⟨k, hk, hc⟩)
  unfold keysFor
  rw [if_neg hfilter, if_pos hkind]
  split
  · contradiction
  · rfl

theorem keysFor_keyless (hkind : r.kind.requiresKey = true)
    (hkey : ∀ k ∈ table.primaryKey, table.Lacks k.name) :
    keysFor table r = .error (.missingPrimaryKey table.name r.kind) := by
  have hfilter : ¬ r.kind.usesFilterColumns = true := fun hfilter =>
    Bool.false_ne_true ((requiresKey_eq_false hfilter).symm.trans hkind)
  have hnil : (table.primaryKey.filterMap fun k => table.column? k.name) = [] :=
    List.filterMap_eq_nil_iff.2 fun k hk => Table.column?_eq_none_iff.2 (hkey k hk)
  unfold keysFor
  rw [if_neg hfilter, if_pos hkind, hnil]

theorem keysFor_nothing (hfilter : r.kind.usesFilterColumns = false)
    (hkey : r.kind.requiresKey = false) : keysFor table r = .ok [] := by
  unfold keysFor
  rw [if_neg (by simp [hfilter]), if_neg (by simp [hkey])]

theorem keysFor_of_matchesOn (h : r.MatchesOn table keys) : keysFor table r = .ok keys := by
  cases h with
  | named hkind hnames hne hkeys =>
      rw [keysFor_named hkind hnames hne]
      exact filterColumns_eq_ok_iff.2 hkeys
  | key hkind hkey => exact keysFor_key hkind hkey
  | nothing hfilter hkey => exact keysFor_nothing hfilter hkey

theorem keysFor_of_cannotMatch (h : r.CannotMatch table f) : keysFor table r = .error f := by
  cases h with
  | unnamed hkind hnames => exact keysFor_unnamed hkind hnames
  | unknown hkind hnames hbefore hlacks =>
      rw [keysFor_named hkind hnames (by simp)]
      exact filterColumns_eq_error_iff.2 ⟨_, _, _, rfl, hbefore, hlacks, rfl⟩
  | keyless hkind hkey => exact keysFor_keyless hkind hkey

theorem matchesOn_or_cannotMatch (table : Table) (r : TableScriptRule) :
    (∃ keys, r.MatchesOn table keys) ∨ ∃ f, r.CannotMatch table f := by
  by_cases hfilter : r.kind.usesFilterColumns = true
  · cases hnames : r.filterColumns with
    | none => exact .inr ⟨_, .unnamed hfilter (.inl hnames)⟩
    | some names =>
        by_cases hnil : names = []
        · exact .inr ⟨_, .unnamed hfilter (.inr (hnames.trans (congrArg some hnil)))⟩
        · cases hkeys : filterColumns table r.kind names with
          | ok keys => exact .inl ⟨_, .named hfilter hnames hnil (filterColumns_eq_ok_iff.1 hkeys)⟩
          | error f =>
              obtain ⟨before, name, after, rfl, hbefore, hlacks, -⟩ :=
                filterColumns_eq_error_iff.1 hkeys
              exact .inr ⟨_, .unknown hfilter hnames hbefore hlacks⟩
  · by_cases hkind : r.kind.requiresKey = true
    · by_cases hkey : ∃ k ∈ table.primaryKey, ¬ table.Lacks k.name
      · exact .inl ⟨_, .key hkind hkey⟩
      · exact .inr ⟨_, .keyless hkind (by simpa using hkey)⟩
    · exact .inl ⟨_, .nothing (by simpa using hfilter) (by simpa using hkind)⟩

theorem keysFor_eq_ok_iff : keysFor table r = .ok keys ↔ r.MatchesOn table keys := by
  refine ⟨fun h => ?_, keysFor_of_matchesOn⟩
  rcases matchesOn_or_cannotMatch table r with ⟨keys', hkeys⟩ | ⟨f, hf⟩
  · obtain rfl := Except.ok.inj (h.symm.trans (keysFor_of_matchesOn hkeys))
    exact hkeys
  · cases h.symm.trans (keysFor_of_cannotMatch hf)

theorem keysFor_eq_error_iff : keysFor table r = .error f ↔ r.CannotMatch table f := by
  refine ⟨fun h => ?_, keysFor_of_cannotMatch⟩
  rcases matchesOn_or_cannotMatch table r with ⟨keys, hkeys⟩ | ⟨f', hf⟩
  · cases h.symm.trans (keysFor_of_matchesOn hkeys)
  · obtain rfl := Except.error.inj (h.symm.trans (keysFor_of_cannotMatch hf))
    exact hf

/-- The columns that a plan has for a purpose. -/
def columnsFor (p : ColumnPlan) : ColumnPurpose → List Column
  | .select => p.select
  | .insert => p.insert
  | .update => p.set

theorem mem_filter_uses_iff {purpose : ColumnPurpose} {ordinarily : Column → Bool} {c : Column}
    (h : ordinarily c = true ↔ purpose.Suits table c) :
    c ∈ table.columns.filter (uses r ordinarily) ↔
      c ∈ table.columns ∧ r.Takes table purpose c := by
  rw [List.mem_filter]
  refine and_congr_right' ?_
  unfold uses Takes
  rw [← h]
  rcases (r.columnRule c.name).inclusion with _ | _ | _ <;> simp

theorem mem_columnsFor_iff {purpose : ColumnPurpose} {c : Column} (h : ofRule table r = .ok p) :
    c ∈ p.columnsFor purpose ↔ c ∈ table.columns ∧ r.Takes table purpose c := by
  obtain ⟨keys, -, rfl⟩ := map_eq_ok.1 h
  cases purpose with
  | select => exact mem_filter_uses_iff (by simp [ColumnPurpose.Suits])
  | insert => exact mem_filter_uses_iff (by simp [ColumnPurpose.Suits])
  | update => exact mem_filter_uses_iff (by simp [ColumnPurpose.Suits])

theorem columnsFor_eq_nil_iff {purpose : ColumnPurpose} (h : ofRule table r = .ok p) :
    p.columnsFor purpose = [] ↔ r.TakesNone table purpose := by
  rw [List.eq_nil_iff_forall_not_mem]
  simp only [mem_columnsFor_iff h, not_and]
  rfl

theorem matchesOn_of_ofRule (h : ofRule table r = .ok p) : r.MatchesOn table p.keys := by
  obtain ⟨keys, hkeys, rfl⟩ := map_eq_ok.1 h
  exact keysFor_eq_ok_iff.1 hkeys

theorem exists_ofRule (h : r.MatchesOn table keys) :
    ∃ p, ofRule table r = .ok p ∧ p.keys = keys :=
  ⟨_, map_eq_ok.2 ⟨keys, keysFor_eq_ok_iff.2 h, rfl⟩, rfl⟩

end ColumnPlan

namespace Statement

variable {table : Table} {types : List TableType} {r : TableScriptRule} {p : ColumnPlan} {f : Fault}

theorem requireColumns_eq_error_iff {kind : ScriptKind} {purpose : ColumnPurpose}
    {cs : List Column} {s : Statement} : requireColumns table kind purpose cs s = .error f ↔
      cs = [] ∧ f = .emptyColumnList table.name kind purpose := by
  cases cs <;> simp [requireColumns, eq_comm]

theorem joined_eq_error_iff : joined table r types p = .error f ↔
    p.select = [] ∧ f = .emptyColumnList table.name r.kind .select ∨
      p.select ≠ [] ∧ TableTypeChoice.select table r.kind p.keys types r.tableType = .error f := by
  unfold joined
  by_cases hselect : p.select = []
  · simp [hselect, eq_comm]
  · rw [if_neg (by simpa using hselect), map_eq_error]
    simp [hselect]

/-- A statement fails for want of columns to serve its purpose, or where the rows to match come as
a table, for want of a type for that. -/
theorem ofPlan_eq_error_iff : ofPlan table r types p = .error f ↔
    (∃ purpose, r.kind.purpose? = some purpose ∧ p.columnsFor purpose = [] ∧
        f = .emptyColumnList table.name r.kind purpose) ∨
      r.kind.usesTableType = true ∧ p.select ≠ [] ∧
        TableTypeChoice.select table r.kind p.keys types r.tableType = .error f := by
  unfold ofPlan
  split <;> rename_i hkind <;>
    simp only [hkind, ScriptKind.purpose?, ScriptKind.usesTableType, ColumnPlan.columnsFor,
      requireColumns_eq_error_iff, joined_eq_error_iff, Option.some.injEq, exists_eq_left',
      false_and, true_and, or_false, reduceCtorEq, exists_false, Bool.false_eq_true]

end Statement

variable {table : Table} {types : List TableType} {r : TableScriptRule} {f : Fault}

/-- A request fails with what stands in its way. -/
theorem synthesizeScript_eq_error_iff :
    synthesizeScript table types r = .error f ↔ r.Obstacle table types f := by
  unfold synthesizeScript
  rw [bind_eq_error]
  simp only [map_eq_error]
  constructor
  · rintro (h | ⟨p, hp, h⟩)
    · exact .cannotMatch (ColumnPlan.keysFor_eq_error_iff.1 (map_eq_error.1 h))
    · have hkeys := ColumnPlan.matchesOn_of_ofRule hp
      have hnone : ∀ purpose, p.columnsFor purpose = [] ↔ r.TakesNone table purpose :=
        fun _ => ColumnPlan.columnsFor_eq_nil_iff hp
      rcases Statement.ofPlan_eq_error_iff.1 h with
        ⟨purpose, hpurpose, hnil, rfl⟩ | ⟨hkind, hselect, hf⟩
      · exact .takesNone hkeys hpurpose ((hnone purpose).1 hnil)
      · exact .noTableType hkeys hkind (fun htakes => hselect ((hnone .select).2 htakes)) hf
  · intro h
    cases h with
    | cannotMatch h => exact .inl (map_eq_error.2 (ColumnPlan.keysFor_eq_error_iff.2 h))
    | takesNone hkeys hpurpose htakes =>
        obtain ⟨p, hp, -⟩ := ColumnPlan.exists_ofRule hkeys
        have hnil := (ColumnPlan.columnsFor_eq_nil_iff hp).2 htakes
        exact .inr ⟨p, hp, Statement.ofPlan_eq_error_iff.2 (.inl ⟨_, hpurpose, hnil, rfl⟩)⟩
    | noTableType hkeys hkind htakes hf =>
        obtain ⟨p, hp, rfl⟩ := ColumnPlan.exists_ofRule hkeys
        have hselect : p.select ≠ [] := fun hnil =>
          htakes ((ColumnPlan.columnsFor_eq_nil_iff hp).1 hnil)
        exact .inr ⟨p, hp, Statement.ofPlan_eq_error_iff.2 (.inr ⟨hkind, hselect, hf⟩)⟩

theorem exists_synthesizeScript_iff :
    (∃ s, synthesizeScript table types r = .ok s) ↔ ∀ f, ¬ r.Obstacle table types f := by
  simp only [← synthesizeScript_eq_error_iff]
  cases synthesizeScript table types r <;> simp

/-- A request fails exactly if something stands in its way, with the first such thing, and otherwise
has a script. The requests for a table have their scripts, in the order of the requests, or fail as
the first of them does that something stands in the way of. -/
theorem synthesizeScripts_meets_requests (table : Table) (types : List TableType) :
    (∀ r : TableScriptRule,
      (∀ f, synthesizeScript table types r = .error f ↔ r.Obstacle table types f) ∧
        ((∃ s, synthesizeScript table types r = .ok s) ↔ ∀ f, ¬ r.Obstacle table types f)) ∧
      ∀ rules : List TableScriptRule,
        (∀ scripts, synthesizeScripts table types rules = .ok scripts ↔
          List.Forall₂ (fun r s => synthesizeScript table types r = .ok s) rules scripts) ∧
        ∀ f, synthesizeScripts table types rules = .error f ↔
          ∃ before r after, rules = before ++ r :: after ∧
            (∀ met ∈ before, ∀ f, ¬ met.Obstacle table types f) ∧ r.Obstacle table types f := by
  refine ⟨fun r => ⟨fun f => synthesizeScript_eq_error_iff, exists_synthesizeScript_iff⟩,
    fun rules => ⟨fun scripts => mapM_eq_ok_iff, fun f => ?_⟩⟩
  unfold synthesizeScripts
  rw [mapM_eq_error_iff]
  simp only [exists_synthesizeScript_iff, synthesizeScript_eq_error_iff]

/-- The name that a read matches on is looked up before its columns are counted. -/
example :
    let id : Column := { name := "Id", ordinal := 0, type := ⟨"int", .int, "0"⟩ }
    let tags : Table := ⟨⟨"dbo", "Tags"⟩, [id], [id], false⟩
    let hidden := KeyMap.empty.update "id" fun _ => { inclusion := some false }
    let byNames (names : List String) : TableScriptRule :=
      { kind := .getByColumns, filterColumns := some names, columnRules := hidden }
    synthesizeScript tags [] (byNames ["ID", "Label"]) =
        .error (.unknownColumn tags.name .getByColumns "Label") ∧
      synthesizeScript tags [] (byNames ["ID"]) =
        .error (.emptyColumnList tags.name .getByColumns .select) := by
  exact ⟨rfl, rfl⟩

end QueryShape
