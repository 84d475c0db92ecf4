import QueryShape.Proofs.Clauses
import QueryShape.Proofs.ColumnParameters
import QueryShape.Proofs.TableTypeBinding

/-!
The rows that generated statements draw on: those of a staging table, those of a merge's own
`SELECT` and those of a table-valued parameter. The main statement says that a statement takes
nothing from them that is not there, and that they hold nothing that it does not take.
-/

namespace QueryShape

open QueryShape.Text

namespace ColumnPlan

variable {table : Table} {r : TableScriptRule} {p : ColumnPlan} {keys : List Column}

theorem map_some_of_filterColumns {kind : ScriptKind} {names : List String} {cs : List Column}
    (h : filterColumns table kind names = .ok cs) : cs.map some = names.map table.column? := by
  induction names generalizing cs with
  | nil =>
      obtain rfl := Except.ok.inj h
      rfl
  | cons name rest ih =>
      obtain ⟨c, others, hc, hothers, rfl⟩ := mapM_cons_eq_ok.1 h
      cases hfound : table.column? name with
      | none =>
          rw [hfound] at hc
          cases hc
      | some d =>
          rw [hfound] at hc
          obtain rfl := Except.ok.inj hc
          rw [List.map_cons, List.map_cons, ih hothers, hfound]

theorem filterMap_column?_eq {cs : List Column} (hcolumns : HaveDistinctNames table.columns)
    (hcs : ∀ c ∈ cs, c ∈ table.columns) : (cs.filterMap fun k => table.column? k.name) = cs := by
  have hfound : ∀ c ∈ cs, table.column? c.name = some c := fun c hc =>
    hcolumns.findColumn?_eq (hcs c hc) (sameIgnoringCase_self c.name)
  rw [List.filterMap_congr hfound, List.filterMap_some]

theorem keys_eq_of_requiresKey (h : keysFor table r = .ok keys)
    (hkind : r.kind.requiresKey = true) :
    keys ≠ [] ∧ keys = table.primaryKey.filterMap fun k => table.column? k.name := by
  have hfilter : r.kind.usesFilterColumns = false := by
    revert hkind
    cases r.kind <;> decide
  unfold keysFor at h
  rw [if_neg (by simp [hfilter]), if_pos hkind] at h
  split at h
  · cases h
  · rename_i hne
    obtain rfl := Except.ok.inj h
    exact ⟨hne, rfl⟩

theorem keys_eq_of_usesFilterColumns (h : keysFor table r = .ok keys)
    (hkind : r.kind.usesFilterColumns = true) :
    keys.map some = (r.filterColumns.getD []).map table.column? := by
  unfold keysFor at h
  rw [if_pos hkind] at h
  split at h
  · cases h
  · exact map_some_of_filterColumns h

theorem keys_eq_primaryKey (hcolumns : HaveDistinctNames table.columns)
    (hkey : ∀ c ∈ table.primaryKey, c ∈ table.columns) (h : keysFor table r = .ok keys)
    (hkind : r.kind.requiresKey = true) : keys ≠ [] ∧ keys = table.primaryKey := by
  obtain ⟨hne, hkeys⟩ := keys_eq_of_requiresKey h hkind
  rw [filterMap_column?_eq hcolumns hkey] at hkeys
  exact ⟨hne, hkeys⟩

theorem nodup_of_map_column?_eq {names : List String} {cs : List Column}
    (hnames : names.Pairwise fun a b => sameIgnoringCase a b = false)
    (h : cs.map some = names.map table.column?) : cs.Nodup := by
  induction names generalizing cs with
  | nil =>
      rw [List.map_eq_nil_iff.1 h]
      exact List.nodup_nil
  | cons name rest ih =>
      obtain ⟨hfirst, hrest⟩ := List.pairwise_cons.1 hnames
      cases cs with
      | nil => cases h
      | cons c others =>
          obtain ⟨hc, hothers⟩ := List.cons.inj h
          refine List.nodup_cons.2 ⟨fun hmem => ?_, ih hrest hothers⟩
          -- A column found twice would have the names of both requests.
          have hagain : some c ∈ rest.map table.column? := hothers ▸ List.mem_map_of_mem hmem
          obtain ⟨other, hother, hfound⟩ := List.mem_map.1 hagain
          have hname := sameIgnoringCase_iff.1 (findColumn?_eq_some hc.symm).2
          have hotherName := sameIgnoringCase_iff.1 (findColumn?_eq_some hfound).2
          exact sameIgnoringCase_eq_false_iff.1 (hfirst other hother) (hname.symm.trans hotherName)

theorem keysFor_nodup (hcolumns : HaveDistinctNames table.columns)
    (hkey : table.primaryKey.Nodup) (hmem : ∀ c ∈ table.primaryKey, c ∈ table.columns)
    (hfilter : (r.filterColumns.getD []).Pairwise fun a b => sameIgnoringCase a b = false)
    (h : keysFor table r = .ok keys) : keys.Nodup := by
  by_cases hfilterKind : r.kind.usesFilterColumns = true
  · exact nodup_of_map_column?_eq hfilter (keys_eq_of_usesFilterColumns h hfilterKind)
  · by_cases hkeyKind : r.kind.requiresKey = true
    · rw [(keys_eq_primaryKey hcolumns hmem h hkeyKind).2]
      exact hkey
    · unfold keysFor at h
      rw [if_neg hfilterKind, if_neg hkeyKind] at h
      obtain rfl := Except.ok.inj h
      exact List.nodup_nil

theorem insert_eq_filter (h : ofRule table r = .ok p) :
    p.insert = table.columns.filter fun c => c ∈ p.insert := by
  obtain ⟨keys, -, rfl⟩ := map_eq_ok.1 h
  apply List.filter_congr
  intro c hc
  simp [hc]

end ColumnPlan

namespace Statement

/-- The columns of the rows that a statement draws on. -/
def sourceColumns : Statement → List Column
  | insertStaged columns _ => columns
  | updateStaged _ _ _ staged => staged
  | merge _ sourceColumns .. => sourceColumns
  | selectJoined _ choice => choice.type.columns
  | _ => []

/-- What stands before the columns of those rows. -/
def sourceQualifier : Statement → String
  | updateStaged .. => "a."
  | merge .. => "s."
  | selectJoined .. => "k."
  | _ => ""

/-- The source lists the columns that the statement uses, each once and in the order of the table,
and each of them is compared with itself or gets its own value. -/
structure ListsSource (table : Table) (s : Statement) : Prop where
  ofTable : ∀ c ∈ s.uses.targets, c ∈ table.columns
  columns : s.sourceColumns = table.columns.filter fun c => c ∈ s.uses.targets
  operands : s.uses.operands = s.uses.targets.map (.drawn s.sourceQualifier)

/-- Each of the columns to match is compared with one column of the type, in the order of the
type. -/
structure JoinsType (keys : List Column) (type : TableType) (s : Statement) : Prop where
  columns : s.sourceColumns = type.columns
  operands : s.uses.operands = type.columns.map (.drawn s.sourceQualifier)
  targets : s.uses.targets.Perm keys

variable {table : Table} {r : TableScriptRule} {types : List TableType} {p : ColumnPlan}
  {s : Statement}

theorem listsSource_insertStaged {columns output : List Column}
    (hcolumns : columns = table.columns.filter fun c => c ∈ columns) :
    (insertStaged columns output).ListsSource table where
  ofTable := by
    have hmem : ∀ c ∈ columns, c ∈ table.columns := by
      rw [hcolumns]
      exact fun c hc => (List.mem_filter.1 hc).1
    simpa [uses, ColumnUses.targets] using hmem
  columns := by simpa [sourceColumns, uses, ColumnUses.targets] using hcolumns
  operands := by simp [sourceQualifier, uses, ColumnUses.targets, ColumnUses.operands]

theorem listsSource_updateStaged {set keys output : List Column}
    (hcolumns : HaveDistinctNames table.columns) (hkeys : ∀ c ∈ keys, c ∈ table.columns)
    (hset : ∀ c ∈ set, c ∈ table.columns) :
    (updateStaged set keys output (ColumnPlan.inTableOrder table (keys ++ set))).ListsSource
      table := by
  have htargets :
      (updateStaged set keys output (ColumnPlan.inTableOrder table (keys ++ set))).uses.targets =
        keys ++ set := by
    simp [uses, ColumnUses.targets, Equation.drawn, Function.comp_def]
  have hmem : ∀ c ∈ keys ++ set, c ∈ table.columns := List.forall_mem_append.2 ⟨hkeys, hset⟩
  constructor
  · rwa [htargets]
  · rw [htargets, sourceColumns, ColumnPlan.inTableOrder_eq hcolumns hmem]
  · rw [htargets]
    simp [sourceQualifier, uses, ColumnUses.operands, Equation.drawn, Function.comp_def]

theorem listsSource_merge {source : MergeSource} {holdlock : Bool}
    (hcolumns : HaveDistinctNames table.columns) (hkeys : ∀ c ∈ p.keys, c ∈ table.columns)
    (hset : ∀ c ∈ p.set, c ∈ table.columns) (hinsert : ∀ c ∈ p.insert, c ∈ table.columns) :
    (merge source (p.mergeColumns table) holdlock p.keys p.set p.insert p.output).ListsSource
      table := by
  have htargets :
      (merge source (p.mergeColumns table) holdlock p.keys p.set p.insert p.output).uses.targets =
        p.keys ++ p.set ++ p.insert := by
    simp [uses, ColumnUses.targets, Equation.drawn, Function.comp_def]
  have hmem : ∀ c ∈ p.keys ++ p.insert ++ p.set, c ∈ table.columns :=
    List.forall_mem_append.2 ⟨List.forall_mem_append.2 ⟨hkeys, hinsert⟩, hset⟩
  constructor
  · rw [htargets]
    exact List.forall_mem_append.2 ⟨List.forall_mem_append.2 ⟨hkeys, hset⟩, hinsert⟩
  · rw [htargets, sourceColumns, ColumnPlan.mergeColumns, ColumnPlan.inTableOrder_eq hcolumns hmem]
    apply List.filter_congr
    intro c _
    simp only [List.mem_append, or_right_comm]
  · rw [htargets]
    simp [sourceQualifier, uses, ColumnUses.operands, Equation.drawn, Function.comp_def]

theorem joinsType_selectJoined {columns keys : List Column} {choice : TableTypeChoice}
    (htypes : HaveDistinctNames choice.type.columns)
    (h : mapColumns choice.type.columns keys = some choice.bindings) :
    (selectJoined columns choice).JoinsType keys choice.type where
  columns := rfl
  operands := by
    obtain ⟨hbound, -⟩ := mapColumns_eq_some htypes h
    simp [sourceQualifier, uses, ColumnUses.operands, Equation.ofBinding, Function.comp_def,
      ← hbound]
  targets := by
    obtain ⟨-, hperm⟩ := mapColumns_eq_some htypes h
    simpa [uses, ColumnUses.targets, Equation.ofBinding, Function.comp_def] using hperm

theorem insertion_eq (s : Statement) : s.uses.insertion = s.uses.contents.map Operand.column := by
  cases s <;> simp [uses, Operand.column, Function.comp_def]

theorem ListsSource.drawn_subset (h : s.ListsSource table) : s.uses.drawn ⊆ s.sourceColumns := by
  intro c hc
  rw [ColumnUses.drawn_eq h.operands] at hc
  rw [h.columns]
  exact List.mem_filter.2 ⟨h.ofTable c hc, decide_eq_true hc⟩

theorem JoinsType.drawn_subset {keys : List Column} {type : TableType} (h : s.JoinsType keys type) :
    s.uses.drawn ⊆ s.sourceColumns := by
  rw [ColumnUses.drawn_eq h.operands, h.columns]
  exact List.Subset.refl _

theorem selectJoined_of_ofPlan (hkind : r.kind.usesTableType = true)
    (h : ofPlan table r types p = .ok s) :
    ∃ choice, TableTypeChoice.select table r.kind p.keys types r.tableType = .ok choice ∧
      s = selectJoined p.select choice := by
  have hjoined : joined table r types p = .ok s := by
    unfold ofPlan at h
    cases hk : r.kind <;> rw [hk] at h hkind <;> first | exact h | cases hkind
  unfold joined at hjoined
  split at hjoined
  · cases hjoined
  · obtain ⟨choice, hchoice, rfl⟩ := map_eq_ok.1 hjoined
    exact ⟨choice, hchoice, rfl⟩

theorem joinsType_of_ofPlan (hkind : r.kind.usesTableType = true)
    (htypes : ∀ type ∈ types, HaveDistinctNames type.columns)
    (h : ofPlan table r types p = .ok s) :
    ∃ type ∈ types, s.JoinsType p.keys type ∧ s.hints = [⟨keysParameter, type.name.full⟩] := by
  obtain ⟨choice, hchoice, rfl⟩ := selectJoined_of_ofPlan hkind h
  obtain ⟨hmem, hbindings⟩ := TableTypeChoice.select_eq_ok hchoice
  exact ⟨choice.type, hmem, joinsType_selectJoined (htypes _ hmem) hbindings, rfl⟩

/-- A batch write lists the columns of its staging table, a merge those of its own rows. -/
theorem listsSource_of_ofPlan (hkind : r.kind.usesStagingTable = true ∨ r.kind = .merge)
    (hcolumns : HaveDistinctNames table.columns) (hp : ColumnPlan.ofRule table r = .ok p)
    (h : ofPlan table r types p = .ok s) :
    s.ListsSource table ∧
      (r.kind.usesStagingTable = true → s.staged? = some s.sourceColumns) ∧
      (r.kind = .merge → s.uses.offered = s.sourceColumns) := by
  have hmem := ColumnPlan.mem_of_ofRule hp
  have hkeys : ∀ c ∈ p.keys, c ∈ table.columns := fun c hc => hmem c (.inl hc)
  have hinsert : ∀ c ∈ p.insert, c ∈ table.columns := fun c hc => hmem c (.inr (.inl hc))
  have hset : ∀ c ∈ p.set, c ∈ table.columns := fun c hc => hmem c (.inr (.inr (.inl hc)))
  -- Only four kinds of request list their source. The hypothesis excludes the others.
  unfold ofPlan at h
  split at h
  case h_7 hk =>
    obtain rfl := eq_of_requireColumns h
    refine ⟨listsSource_insertStaged (ColumnPlan.insert_eq_filter hp), fun _ => rfl, ?_⟩
    rw [hk]
    nofun
  case h_9 hk =>
    obtain rfl := eq_of_requireColumns h
    refine ⟨listsSource_updateStaged hcolumns hkeys hset, fun _ => rfl, ?_⟩
    rw [hk]
    nofun
  case h_10 hk =>
    obtain rfl := Except.ok.inj h
    refine ⟨listsSource_merge hcolumns hkeys hset hinsert, ?_, fun _ => rfl⟩
    rw [hk]
    nofun
  case h_11 hk =>
    obtain rfl := Except.ok.inj h
    refine ⟨listsSource_merge hcolumns hkeys hset hinsert, fun _ => rfl, ?_⟩
    rw [hk]
    nofun
  all_goals
    exfalso
    revert hkind
    simp [*, ScriptKind.usesStagingTable]

theorem drawn_eq_nil_of_ofPlan (hstaging : r.kind.usesStagingTable = false)
    (hmerge : r.kind ≠ .merge) (htype : r.kind.usesTableType = false)
    (h : ofPlan table r types p = .ok s) : s.uses.drawn = [] := by
  unfold ofPlan at h
  split at h
  case h_1 | h_2 | h_3 | h_8 =>
    obtain rfl := eq_of_requireColumns h
    simp [uses, ColumnUses.drawn, ColumnUses.operands, Equation.passed, Operand.drawn?,
      Function.comp_def]
  case h_6 | h_12 =>
    obtain rfl := Except.ok.inj h
    simp [uses, ColumnUses.drawn, ColumnUses.operands, Equation.passed, Operand.drawn?,
      Function.comp_def]
  case h_4 hk | h_5 hk =>
    rw [hk] at htype
    cases htype
  case h_7 hk | h_9 hk | h_11 hk =>
    rw [hk] at hstaging
    cases hstaging
  case h_10 hk => exact absurd hk hmerge

end Statement

/-- A script takes from the rows that it draws on only columns that they have. The staging table of
a batch write and the rows of a merge have the columns that the statement matches, sets and fills,
each once and in the order of the table. A batch read matches each key or filter column with one
column of a table type, and each column of the type with one of those. -/
theorem synthesizeScript_drawsOnSource {table : Table} {types : List TableType}
    {r : TableScriptRule} {script : Script} (hcolumns : HaveDistinctNames table.columns)
    (hkey : table.primaryKey.Nodup) (hkeyColumns : ∀ c ∈ table.primaryKey, c ∈ table.columns)
    (hfilter : (r.filterColumns.getD []).Pairwise fun a b => sameIgnoringCase a b = false)
    (htypes : ∀ type ∈ types, HaveDistinctNames type.columns)
    (h : synthesizeScript table types r = .ok script) :
    ∃ p s, ColumnPlan.ofRule table r = .ok p ∧ Statement.ofPlan table r types p = .ok s ∧
      script = s.toScript (r.identity table.name) table.name ∧
      Clause.textOf (s.clauses table.name) = script.text ∧
      Clause.usesOf (s.clauses table.name) = s.uses ∧
      s.uses.drawn ⊆ s.sourceColumns ∧
      s.uses.insertion = s.uses.contents.map Operand.column ∧
      (r.kind.usesStagingTable = true ∨ r.kind = .merge →
        s.ListsSource table ∧ HaveDistinctNames s.sourceColumns) ∧
      (r.kind.usesStagingTable = true →
        script.tempTables = [Statement.stagingDefinition s.sourceColumns]) ∧
      (r.kind = .merge → s.uses.offered = s.sourceColumns) ∧
      (r.kind.usesTableType = true → ∃ type ∈ types,
        s.JoinsType p.keys type ∧ type.columns.Nodup ∧
        script.hints = [⟨Statement.keysParameter, type.name.full⟩]) ∧
      p.keys.Nodup ∧ (r.kind.requiresKey = true → p.keys = table.primaryKey) ∧
      (r.kind.usesFilterColumns = true →
        p.keys.map some = (r.filterColumns.getD []).map table.column?) := by
  obtain ⟨p, hp, h⟩ := bind_eq_ok.1 h
  obtain ⟨s, hs, rfl⟩ := map_eq_ok.1 h
  have hkeys : ColumnPlan.keysFor table r = .ok p.keys := by
    obtain ⟨keys, hkeys, rfl⟩ := map_eq_ok.1 hp
    exact hkeys
  have hlists := fun hkind => Statement.listsSource_of_ofPlan hkind hcolumns hp hs
  have hjoins := fun hkind => Statement.joinsType_of_ofPlan hkind htypes hs
  refine ⟨p, s, hp, hs, rfl, Statement.textOf_clauses table.name s,
    Statement.usesOf_clauses table.name s, ?_, s.insertion_eq, ?_, ?_, ?_, ?_,
    ColumnPlan.keysFor_nodup hcolumns hkey hkeyColumns hfilter hkeys, ?_,
    ColumnPlan.keys_eq_of_usesFilterColumns hkeys⟩
  -- Rows come from a source that is listed or from a table type, and other kinds draw on none.
  · by_cases hsource : r.kind.usesStagingTable = true ∨ r.kind = .merge
    · exact (hlists hsource).1.drawn_subset
    · by_cases htype : r.kind.usesTableType = true
      · obtain ⟨type, -, hjoins, -⟩ := hjoins htype
        exact hjoins.drawn_subset
      · rw [not_or, Bool.not_eq_true] at hsource
        rw [Statement.drawn_eq_nil_of_ofPlan hsource.1 hsource.2 (by simpa using htype) hs]
        exact List.nil_subset _
  · intro hkind
    have hsource := (hlists hkind).1
    refine ⟨hsource, ?_⟩
    rw [hsource.columns]
    exact hcolumns.sublist List.filter_sublist
  · intro hkind
    have hstaged := (hlists (.inl hkind)).2.1 hkind
    simp [Statement.toScript, hstaged]
  · intro hkind
    exact (hlists (.inr hkind)).2.2 hkind
  · intro hkind
    obtain ⟨type, hmem, hjoin, hhints⟩ := hjoins hkind
    exact ⟨type, hmem, hjoin, (htypes type hmem).nodup, hhints⟩
  · intro hkind
    exact (ColumnPlan.keys_eq_primaryKey hcolumns hkeyColumns hkeys hkind).2

def orderKeysType : TableType where
  id := 1
  name := ⟨"dbo", "OrderKeys"⟩
  columns := [{ name := "Key", ordinal := 1, type := ⟨"int", .int, "0"⟩ }]

/-- A batch read of orders matches their key with the one column of the type. -/
theorem ordersTable_joinsType :
    ∃ s : Statement, s.JoinsType ordersTable.primaryKey orderKeysType ∧
      Clause.textOf (s.clauses ordersTable.name) =
        "SELECT t.[Id],t.[Name] FROM [dbo].[Orders] AS t INNER JOIN @keys AS k" ++
          " ON t.[Id] = k.[Key]" ∧
      s.hints = [⟨"@keys", "[dbo].[OrderKeys]"⟩] := by
  have htext : (synthesizeScript ordersTable [orderKeysType]
      { kind := .getByIdBatch }).toOption.map Script.text =
        some ("SELECT t.[Id],t.[Name] FROM [dbo].[Orders] AS t INNER JOIN @keys AS k" ++
          " ON t.[Id] = k.[Key]") := by
    decide +kernel
  cases hscript : synthesizeScript ordersTable [orderKeysType] { kind := .getByIdBatch } with
  | error f =>
      rw [hscript] at htext
      cases htext
  | ok script =>
      obtain ⟨p, s, -, -, hscriptEq, hclauses, -, -, -, -, -, -, hjoins, -, hkeys, -⟩ :=
        synthesizeScript_drawsOnSource (by decide +kernel) (by decide) (by decide) (by decide)
          (by decide +kernel) hscript
      obtain ⟨type, htype, hjoins, -, hhints⟩ := hjoins rfl
      obtain rfl := List.mem_singleton.1 htype
      rw [hkeys rfl] at hjoins
      rw [hscript] at htext
      refine ⟨s, hjoins, hclauses.trans (Option.some.inj htext), ?_⟩
      rw [hscriptEq] at hhints
      have hname : orderKeysType.name.full = "[dbo].[OrderKeys]" := by decide +kernel
      rw [← hname]
      exact hhints

end QueryShape
