import QueryShape.Proofs.Accounts.Run
import QueryShape.Proofs.Coverage.Columns
import QueryShape.Proofs.WholeKey

/-!
The check for unused rules beside the rows of the catalog. It looks at tables as they are loaded,
without the columns that cannot be bound. So it says of a rule that leaves out such a column that no
table has it.
-/

namespace QueryShape

open QueryShape.Inference
open QueryShape.Text
open QueryShape.Warning

variable {σ : Type}

namespace Warning

/-- None of the warnings is a report of a missing column. -/
def LackReports (ws : List Warning) : Prop :=
  ∀ w ∈ ws, ¬ w.StartsWith reportFront

theorem columnReport_not_mem {ws : List Warning} (h : LackReports ws) (subject name : String) :
    columnReport subject name ∉ ws :=
  fun hmem => h _ hmem (startsWith_columnReport subject name)

end Warning

theorem TypeCatalog.lackReports_ofRows (typeRows tableTypeRows : List Row) :
    LackReports (TypeCatalog.ofRows typeRows tableTypeRows).2 := by
  intro w hw
  obtain ⟨subject, column, typeName, rfl⟩ := exists_of_mem_ofRows hw
  simp only [String.append_assoc]
  exact not_startsWith_append (by decide) (by decide)

theorem Table.lackReports_allOfRows (types : TypeCatalog) (rules : RuleSet)
    (columnRows keyRows : List Row) :
    LackReports (Table.allOfRows types rules columnRows keyRows).2 := by
  intro w hw
  obtain ⟨subject, column, typeName, rfl⟩ := exists_of_mem_allOfRows hw
  simp only [String.append_assoc]
  exact not_startsWith_append (by decide) (by decide)

theorem Assembly.lackReports_mergeScripts (scripts added : List Script) :
    LackReports (mergeScripts scripts added).2 := by
  intro w hw
  obtain ⟨subject, rfl⟩ := exists_of_mem_mergeScripts hw
  have hfront : StartsWith
      ⟨subject, "a script file replaces the generated script with the same identity"⟩
      "a script file replaces the generated script with the same identity" :=
    List.prefix_rfl
  exact hfront.not_startsWith (by decide) (by decide)

theorem Inference.IsAboutParameter.not_startsWith {w : Warning} (h : IsAboutParameter w) :
    ¬ w.StartsWith reportFront := by
  cases h with
  | unknown =>
      simp only [String.append_assoc]
      exact not_startsWith_append (by decide) (by decide)
  | tableValued =>
      simp only [String.append_assoc]
      exact not_startsWith_append (by decide) (by decide)

namespace ModelUnit

theorem prefix_of_parameterObstacle? {u : ModelUnit} {reason : String}
    (h : u.parameterObstacle? = some reason) :
    "script parameter ".toList <+: reason.toList ∨ "parameter ".toList <+: reason.toList := by
  unfold parameterObstacle? at h
  split at h
  · obtain rfl := Option.some.inj h
    left
    simp only [String.toList_append, List.append_assoc, List.prefix_append]
  · obtain rfl := Option.some.inj h
    right
    simp only [String.toList_append, List.append_assoc, List.prefix_append]
  · cases h

theorem prefix_of_columnObstacle? {cs : List Column} {reason : String}
    (h : columnObstacle? cs = some reason) : "the result set has ".toList <+: reason.toList := by
  unfold columnObstacle? at h
  split at h
  · obtain rfl := Option.some.inj h
    decide
  · obtain ⟨c, -, rfl⟩ := Option.map_eq_some_iff.1 h
    have hmore : "the result set has more than one column named '".toList =
        "the result set has ".toList ++ "more than one column named '".toList := by
      decide
    simp only [String.toList_append, hmore, List.append_assoc, List.prefix_append]

theorem lackReports_ignored {u : ModelUnit} {reason : String} {ws : List Warning}
    (hws : LackReports ws) (h : ¬ (u.ignored reason).StartsWith reportFront) :
    LackReports (ws ++ [u.ignored reason]) :=
  List.forall_mem_append.2 ⟨hws, List.forall_mem_singleton.2 h⟩

theorem yields_lackReports (connection : Nat) (ctx : InferenceContext) (rules : RuleSet)
    (ordinal : Nat) (u : ModelUnit) :
    (u.infer connection ctx rules ordinal : Session σ UnitOutcome).Yields fun o =>
      LackReports o.warnings := by
  refine Session.yields_bind fun v => ?_
  refine (Inference.yields_isAboutParameter _ _ _ _).bind fun found hfound => ?_
  have hwarnings : LackReports found.warnings := fun w hw => (hfound w hw).not_startsWith
  dsimp only
  split
  · rename_i reason hreason
    refine Session.yields_pure (lackReports_ignored hwarnings ?_)
    rcases prefix_of_parameterObstacle? hreason with hfront | hfront
    · exact (StartsWith.of_prefix hfront).not_startsWith (by decide) (by decide)
    · exact (StartsWith.of_prefix hfront).not_startsWith (by decide) (by decide)
  · refine Session.yields_bind fun ts => Session.yields_bind fun shape => ?_
    dsimp only
    split
    · rename_i reason hreason
      refine Session.yields_pure (lackReports_ignored hwarnings ?_)
      obtain ⟨cs, -, hcolumns⟩ := Option.bind_eq_some_iff.1 hreason
      exact (StartsWith.of_prefix (prefix_of_columnObstacle? hcolumns)).not_startsWith (by decide)
        (by decide)
    · exact Session.yields_pure hwarnings

end ModelUnit

namespace Table

variable {types : TypeCatalog} {rules : RuleSet} {columnRows keyRows : List Row} {t : Table}

theorem exists_row_of_mem_allOfRows (h : t ∈ (allOfRows types rules columnRows keyRows).1) :
    ∃ row ∈ columnRows, (Key.ofRow row).name = t.name := by
  obtain ⟨key, hkey, rfl⟩ := List.mem_map.1 h
  obtain ⟨row, hrow, rfl⟩ := List.mem_map.1 (mem_orderedKeys.1 hkey)
  exact ⟨row, hrow, rfl⟩

theorem exists_row_of_mem_columns (h : t ∈ (allOfRows types rules columnRows keyRows).1)
    {c : Column} (hc : c ∈ t.columns) :
    ∃ row ∈ columnRows, (Key.ofRow row).name = t.name ∧ Column.ofRow types row = .ok c := by
  obtain ⟨key, -, rfl⟩ := List.mem_map.1 h
  obtain ⟨row, hrow, hcolumn⟩ := mem_columns_ofRows.1 hc
  obtain ⟨hmem, hkey⟩ := List.mem_filter.1 hrow
  obtain rfl := of_decide_eq_true hkey
  exact ⟨row, hmem, rfl, hcolumn⟩

theorem exists_table_of_row (types : TypeCatalog) (rules : RuleSet) (keyRows : List Row) {row : Row}
    (hrow : row ∈ columnRows) :
    ∃ t ∈ (allOfRows types rules columnRows keyRows).1, t.name = (Key.ofRow row).name ∧
      ∀ c, Column.ofRow types row = .ok c → c ∈ t.columns := by
  have hkey : Key.ofRow row ∈ orderedKeys Key.le (columnRows.map Key.ofRow) :=
    mem_orderedKeys.2 (List.mem_map_of_mem hrow)
  refine ⟨_, List.mem_map_of_mem hkey, rfl, fun c hc => ?_⟩
  exact mem_columns_ofRows.2 ⟨row, List.mem_filter.2 ⟨hrow, decide_eq_true rfl⟩, hc⟩

end Table

/-- The row is about a column that can be bound. -/
def Column.IsBound (types : TypeCatalog) (row : Row) : Prop :=
  ∃ c, Column.ofRow types row = .ok c

namespace DeclaredRule

variable (r : DeclaredRule)

/-- The row is about a column of a table or view that the rule is for. -/
def Meets (row : Row) : Prop :=
  r.selector.selects (Table.Key.ofRow row).name.plain = true

/-- The rule meets a column of the name, up to the case of the letters from A to Z. -/
def Finds (name : String) (row : Row) : Prop :=
  r.Meets row ∧ sameIgnoringCase (row.text "column_name") name = true

/-- The rule names a column and meets columns, but finds none of the name among those that
count. -/
structure Misses (counts : Row → Prop) (columnRows : List Row) (name : String) : Prop where
  scope : r.selector.scope = .tables
  named : name ∈ r.columnNames
  meets : ∃ row ∈ columnRows, r.Meets row
  finds : ∀ row ∈ columnRows, counts row → ¬ r.Finds name row

instance (row : Row) : Decidable (r.Meets row) :=
  inferInstanceAs (Decidable (_ = true))

instance (name : String) (row : Row) : Decidable (r.Finds name row) :=
  inferInstanceAs (Decidable (_ ∧ _))

variable {r} {types : TypeCatalog} {rules : RuleSet} {columnRows keyRows : List Row} {name : String}

theorem selectedTables_ne_nil_iff :
    r.selectedTables (Table.allOfRows types rules columnRows keyRows).1 ≠ [] ↔
      ∃ row ∈ columnRows, r.Meets row := by
  constructor
  · intro h
    obtain ⟨t, ht⟩ := List.exists_mem_of_ne_nil _ h
    obtain ⟨hmem, hselected⟩ := List.mem_filter.1 ht
    obtain ⟨row, hrow, hname⟩ := Table.exists_row_of_mem_allOfRows hmem
    exact ⟨row, hrow, by rwa [Meets, hname]⟩
  · rintro ⟨row, hrow, hmeets⟩
    obtain ⟨t, ht, hname, -⟩ := Table.exists_table_of_row types rules keyRows hrow
    refine List.ne_nil_of_mem (List.mem_filter.2 ⟨ht, ?_⟩)
    rwa [hname]

theorem missingOnTables_mem_allOfRows_iff (hscope : r.selector.scope = .tables) :
    r.missingOnTables name ∈
        r.unusedOnTables (Table.allOfRows types rules columnRows keyRows).1 ↔
      r.Misses (Column.IsBound types) columnRows name := by
  rw [missingOnTables_mem_iff, selectedTables_ne_nil_iff]
  constructor
  · rintro ⟨hnamed, hmeets, hnone⟩
    refine ⟨hscope, hnamed, hmeets, ?_⟩
    rintro row hrow ⟨c, hc⟩ ⟨hmet, hname⟩
    obtain ⟨t, ht, htable, hcolumns⟩ := Table.exists_table_of_row types rules keyRows hrow
    have hselected : r.selector.selects t.name.plain = true := by rwa [htable]
    have hdifferent := hnone t (List.mem_filter.2 ⟨ht, hselected⟩) c (hcolumns c hc)
    rw [Column.name_of_ofRow hc, hname] at hdifferent
    cases hdifferent
  · intro h
    refine ⟨h.named, h.meets, fun t ht c hc => ?_⟩
    obtain ⟨hmem, hselected⟩ := List.mem_filter.1 ht
    obtain ⟨row, hrow, htable, hcolumn⟩ := Table.exists_row_of_mem_columns hmem hc
    rw [← Bool.not_eq_true, Column.name_of_ofRow hcolumn]
    intro hname
    refine h.finds row hrow ⟨c, hcolumn⟩ ⟨?_, hname⟩
    rwa [Meets, htable]

theorem lackReports_unusedOnUnits (r : DeclaredRule) (names : List String)
    (units : List UnitFacts) : LackReports (r.unusedOnUnits names units) := by
  rw [unusedOnUnits_eq]
  split
  · exact List.forall_mem_singleton.2 (not_startsWith_append (by decide) (by decide))
  · split
    · exact List.forall_mem_nil _
    · refine List.forall_mem_append.2 ⟨?_, ?_⟩
      · refine List.forall_mem_map.2 fun key _ => ?_
        simp only [warning, String.append_assoc]
        exact not_startsWith_append (by decide) (by decide)
      · rw [unusedResultColumns_eq]
        refine List.forall_mem_map.2 fun column _ => ?_
        exact (r.startsWith_missingOnUnits column).not_startsWith (by decide) (by decide)

theorem subject_of_mem_unusedOnTables {tables : List Table} {w : Warning}
    (h : w ∈ r.unusedOnTables tables) : w.subject = r.description := by
  rw [unusedOnTables_eq] at h
  split at h
  · rw [List.mem_singleton.1 h]
    rfl
  · obtain ⟨column, -, rfl⟩ := List.mem_map.1 h
    rfl

theorem columnReport_mem_unused_iff {c : Candidates} {subject : String} :
    columnReport subject name ∈ r.unused c ↔
      r.description = subject ∧ r.selector.scope = .tables ∧
        r.missingOnTables name ∈ r.unusedOnTables c.tables := by
  by_cases hscope : r.selector.scope = .tables
  · rw [unused_of_tables hscope]
    constructor
    · intro h
      obtain rfl : subject = r.description := subject_of_mem_unusedOnTables h
      exact ⟨rfl, hscope, h⟩
    · rintro ⟨rfl, -, h⟩
      exact h
  · obtain ⟨names, hunused⟩ := exists_unused_eq (c := c) hscope
    rw [hunused]
    refine iff_of_false ?_ fun h => hscope h.2.1
    exact columnReport_not_mem (r.lackReports_unusedOnUnits names c.units) subject name

end DeclaredRule

/-- The types of the server and its rows about the columns of tables and views, as a run reads them
before all else. -/
def Catalog.loadColumns (connection : Nat) : Session σ (TypeCatalog × List Row) := do
  let (types, _) ← loadTypes connection
  let columnRows ← rows connection .readingTables Table.tablesQuery
  return (types, columnRows)

namespace Assembly

variable {schedule : Schedule} {connection : Nat} {canConnect : Bool} {rules : RuleSet}
  {userScripts : List Script} {options : RunOptions} {w : World σ}

namespace Groundwork

variable {g : Groundwork}

theorem exists_columnRows_of_lay
    (h : ((lay connection rules userScripts).outcome w).1 = .ok g) :
    ∃ columnRows keyRows,
      ((Catalog.loadColumns connection).outcome w).1 = .ok (g.types, columnRows) ∧
        g.tables = (Table.allOfRows g.types rules columnRows keyRows).1 := by
  obtain ⟨typeWarnings, v, tableWarnings, v', htypes, htables⟩ := exists_loads_of_lay h
  obtain ⟨columnRows, u, hcolumns, hkeys⟩ :=
    Session.exists_of_outcome_bind_eq_ok (congrArg Prod.fst htables)
  obtain ⟨keyRows, u', -, hall⟩ := Session.exists_of_outcome_bind_eq_ok hkeys
  refine ⟨columnRows, keyRows, ?_, (congrArg Prod.fst (Except.ok.inj hall)).symm⟩
  rw [Catalog.loadColumns, Session.outcome_bind, htypes]
  dsimp only
  rw [Session.outcome_bind, hcolumns]
  rfl

theorem IsLaid.lackReports (h : g.IsLaid rules userScripts) : LackReports g.warnings := by
  cases h with
  | ofRows typeRows tableTypeRows columnRows keyRows _ _ _ _ =>
      refine List.forall_mem_append.2 ⟨List.forall_mem_append.2 ⟨?_, ?_⟩, ?_⟩
      · exact TypeCatalog.lackReports_ofRows typeRows tableTypeRows
      · exact Table.lackReports_allOfRows _ rules columnRows keyRows
      · exact lackReports_mergeScripts _ userScripts

theorem columnReport_mem_model_iff {outcomes : List UnitOutcome}
    (hg : g.IsLaid rules userScripts) (houtcomes : ∀ o ∈ outcomes, LackReports o.warnings)
    (subject name : String) :
    columnReport subject name ∈ (g.model rules outcomes).warnings ↔
      ∃ r ∈ rules.declared, r.description = subject ∧ r.selector.scope = .tables ∧
        r.missingOnTables name ∈ r.unusedOnTables g.tables := by
  have hothers : LackReports (g.warnings ++ outcomes.flatMap (·.warnings)) := by
    refine List.forall_mem_append.2 ⟨hg.lackReports, fun w hw => ?_⟩
    obtain ⟨o, ho, hw⟩ := List.mem_flatMap.1 hw
    exact houtcomes o ho w hw
  have hwarnings : (g.model rules outcomes).warnings =
      g.warnings ++ outcomes.flatMap (·.warnings) ++ unusedRules rules.declared
        ⟨g.catalog.allNames, g.tables, g.scripts.map (·.identity), outcomes.map (·.facts)⟩ :=
    rfl
  rw [hwarnings, List.mem_append, or_iff_right (columnReport_not_mem hothers subject name),
    unusedRules, List.mem_flatMap]
  simp only [DeclaredRule.columnReport_mem_unused_iff]

end Groundwork

/-- Every report of a run is about a rule that finds no column of the name at all. -/
def ReportsTruly (rules : RuleSet) (columnRows : List Row) (ws : List Warning) : Prop :=
  ∀ subject name, columnReport subject name ∈ ws →
    ∃ r ∈ rules.declared, r.description = subject ∧ r.Misses (fun _ => True) columnRows name

/-- A run reports a name that a rule for tables names exactly if none of the columns that the rule
finds under it can be bound, whether or not the rule leaves them out. So every report is true where
of the columns that are found under a name one can be bound, and a report is false where a rule
finds columns under a name and none of them can be bound. In ASCII, rules find the columns that they
are applied to. -/
theorem assembleBy_columnReport_mem_iff {m : Model}
    (h : ((assembleBy schedule connection canConnect rules userScripts options).outcome w).1 =
      .ok m) :
    ∃ (types : TypeCatalog) (columnRows : List Row),
      ((Catalog.loadColumns connection).outcome w).1 = .ok (types, columnRows) ∧
      (∀ subject name, columnReport subject name ∈ m.warnings ↔
        ∃ r ∈ rules.declared, r.description = subject ∧
          r.Misses (Column.IsBound types) columnRows name) ∧
      ((∀ r ∈ rules.declared, ∀ name ∈ r.columnNames, ∀ row ∈ columnRows, r.Finds name row →
          ∃ bound ∈ columnRows, Column.IsBound types bound ∧ r.Finds name bound) →
        ReportsTruly rules columnRows m.warnings) ∧
      (∀ r ∈ rules.declared, r.selector.scope = .tables → ∀ name ∈ r.columnNames,
        (∃ row ∈ columnRows, r.Finds name row) →
        (∀ row ∈ columnRows, r.Finds name row → ¬ Column.IsBound types row) →
          columnReport r.description name ∈ m.warnings) ∧
      ∀ row ∈ columnRows, (∀ ch ∈ (row.text "column_name").toList, ch.toNat < 128) →
        ∀ r : DeclaredRule, r.Meets row → r.Finds (columnKey (row.text "column_name")) row := by
  obtain ⟨g, outcomes, hlay, rfl, hinferred⟩ := exists_outcomes_of_assembleBy h
  have houtcomes := hinferred (fun _ o => LackReports o.warnings) fun connection ordinal u =>
    u.yields_lackReports connection _ rules ordinal
  have hlacking : ∀ o ∈ outcomes, LackReports o.warnings := fun o ho =>
    (exists_of_mem_forall₂_right houtcomes o ho).elim fun _ hu => hu.2
  obtain ⟨columnRows, keyRows, hcolumns, htables⟩ := Groundwork.exists_columnRows_of_lay hlay
  have hreports (subject name : String) :
      columnReport subject name ∈ (g.model rules outcomes).warnings ↔
        ∃ r ∈ rules.declared, r.description = subject ∧
          r.Misses (Column.IsBound g.types) columnRows name := by
    rw [Groundwork.columnReport_mem_model_iff (Groundwork.isLaid_of_lay hlay) hlacking, htables]
    constructor
    · rintro ⟨r, hr, hsubject, hscope, hmissing⟩
      exact ⟨r, hr, hsubject, (DeclaredRule.missingOnTables_mem_allOfRows_iff hscope).1 hmissing⟩
    · rintro ⟨r, hr, hsubject, hmisses⟩
      exact ⟨r, hr, hsubject, hmisses.scope,
        (DeclaredRule.missingOnTables_mem_allOfRows_iff hmisses.scope).2 hmisses⟩
  refine ⟨g.types, columnRows, hcolumns, hreports, ?_, ?_, ?_⟩
  · intro hbound subject name hreported
    obtain ⟨r, hr, hsubject, hmisses⟩ := (hreports subject name).1 hreported
    refine ⟨r, hr, hsubject, hmisses.scope, hmisses.named, hmisses.meets, ?_⟩
    intro row hrow _ hfinds
    obtain ⟨bound, hmem, hcounts, hfound⟩ := hbound r hr name hmisses.named row hrow hfinds
    exact hmisses.finds bound hmem hcounts hfound
  · rintro r hr hscope name hnamed ⟨row, hrow, hmeets, -⟩ hnone
    refine (hreports r.description name).2 ⟨r, hr, rfl, hscope, hnamed, ⟨row, hrow, hmeets⟩, ?_⟩
    exact fun row' hrow' hbound hfinds => hnone row' hrow' hfinds hbound
  · intro row _ hascii r hmeets
    exact ⟨hmeets, sameIgnoringCase_columnKey_of_ascii hascii⟩

/-- The types of the server, without that of the location. -/
def placesTypeRows : List Row :=
  [⟨[("system_type_id", .int 56), ("name", .text "int")]⟩]

/-- The rows about a table with a column that cannot be bound. -/
def placesRows : List Row :=
  [("Id", 1, 56), ("Location", 2, 240)].map fun (name, ordinal, type) =>
    ⟨[("schema_name", .text "dbo"), ("object_name", .text "Places"), ("column_id", .int ordinal),
      ("column_name", .text name), ("system_type_id", .int type)]⟩

/-- A server with one table and without procedures or table types. -/
def placesServer : Server Nat where
  connect _ asked := (.ok (), asked)
  execute _ _ asked := (.ok (), asked)
  query _ _ _ asked :=
    (.ok (match asked with
      | 0 => placesTypeRows
      | 2 => placesRows
      | _ => []), asked + 1)
  describe _ _ asked := (.ok [], asked)

def placesWorld : World Nat :=
  { server := placesServer, state := 0 }

/-- A rule that includes the tables of a schema and leaves out columns. -/
def schemaRule (skipped : List String) : ObjectRule :=
  skipped.foldl (fun r name => r.withColumn name { skip := some true })
    { selector := {
        scope := .tables
        pattern := ⟨"dbo.*", [.char 'd', .char 'b', .char 'o', .char '.', .anyRun]⟩ }
      inclusion := some true }

def placesRun (skipped : List String) : Except Failure Model :=
  ((assembleBy .inTurn 0 false (GlobRules.mk [schemaRule skipped]).toRuleSet []
    { token := .ofText "tok" }).outcome placesWorld).1

theorem loadColumns_places :
    ((Catalog.loadColumns 0).outcome placesWorld).1 =
      .ok ((TypeCatalog.ofRows placesTypeRows []).1, placesRows) :=
  rfl

/-- One of the columns that the rule names can be bound, and the table lacks the other. -/
theorem placesRun_reportsTruly :
    ∃ m : Model, placesRun ["Id", "City"] = .ok m ∧
      columnReport "table rule 'dbo.*'" "city" ∈ m.warnings ∧
      ReportsTruly (GlobRules.mk [schemaRule ["Id", "City"]]).toRuleSet placesRows m.warnings := by
  have hends : (placesRun ["Id", "City"]).toOption.isSome = true := by decide +kernel
  obtain ⟨m, hm⟩ := Option.isSome_iff_exists.1 hends
  have hrun := toOption_eq_some_iff.1 hm
  obtain ⟨types, columnRows, hloads, hreports, htruly, -⟩ := assembleBy_columnReport_mem_iff hrun
  rw [loadColumns_places] at hloads
  obtain ⟨rfl, rfl⟩ := Prod.mk.inj (Except.ok.inj hloads)
  have hall : (placesRows.all fun row =>
      decide (¬ (schemaRule ["Id", "City"]).declared.Finds "city" row) &&
        ((schemaRule ["Id", "City"]).declared.columnNames.all fun name => decide
          ((schemaRule ["Id", "City"]).declared.Finds name row →
            (Column.ofRow (TypeCatalog.ofRows placesTypeRows []).1 row).toOption.isSome = true))) =
        true := by
    decide +kernel
  have hfound := fun row hrow => Bool.and_eq_true_iff.1 (List.all_eq_true.1 hall row hrow)
  refine ⟨m, hrun, ?_, ?_⟩
  · refine (hreports _ _).2 ⟨_, List.mem_singleton_self _, by decide, rfl, by decide, ?_, ?_⟩
    · exact ⟨_, List.mem_cons_self, by decide⟩
    · exact fun row hrow _ => of_decide_eq_true (hfound row hrow).1
  · refine htruly fun r hr name hname row hrow hfinds => ⟨row, hrow, ?_, hfinds⟩
    obtain rfl := List.mem_singleton.1 hr
    have hbound := of_decide_eq_true (List.all_eq_true.1 (hfound row hrow).2 name hname) hfinds
    obtain ⟨c, hc⟩ := Option.isSome_iff_exists.1 hbound
    exact ⟨c, toOption_eq_some_iff.1 hc⟩

/-- The rule leaves out a column that cannot be bound. That silences the warning about the column,
and the run says that the table does not have it. -/
theorem placesRun_reports_location :
    (∀ row ∈ placesRows, ∀ ch ∈ (row.text "column_name").toList, ch.toNat < 128) ∧
      (∃ row ∈ placesRows, (schemaRule ["Location"]).declared.Finds "location" row) ∧
      (placesRun []).toOption.map (·.warnings) = some [⟨"table [dbo].[Places]",
        "column 'Location' has unsupported type 'system type 240' and is left out"⟩] ∧
      ∃ m : Model, placesRun ["Location"] = .ok m ∧
        ((Catalog.loadColumns 0).outcome placesWorld).1 =
          .ok ((TypeCatalog.ofRows placesTypeRows []).1, placesRows) ∧
        m.warnings = [columnReport "table rule 'dbo.*'" "location"] ∧
        ¬ ReportsTruly (GlobRules.mk [schemaRule ["Location"]]).toRuleSet placesRows
          m.warnings := by
  have hwarnings : (placesRun ["Location"]).toOption.map (·.warnings) =
      some [columnReport "table rule 'dbo.*'" "location"] := by
    decide +kernel
  have hfinds : (schemaRule ["Location"]).declared.Finds "location" (placesRows.getLast nofun) := by
    decide +kernel
  obtain ⟨m, hm, hreports⟩ := Option.map_eq_some_iff.1 hwarnings
  refine ⟨?_, ⟨_, List.getLast_mem _, hfinds⟩, by decide +kernel, m, toOption_eq_some_iff.1 hm,
    loadColumns_places, hreports, ?_⟩
  · have hascii : (placesRows.all fun row =>
        (row.text "column_name").toList.all fun ch => decide (ch.toNat < 128)) = true := by
      decide +kernel
    intro row hrow ch hch
    exact of_decide_eq_true (List.all_eq_true.1 (List.all_eq_true.1 hascii row hrow) ch hch)
  · rw [hreports]
    intro htruly
    obtain ⟨r, hr, -, hmisses⟩ := htruly _ _ (List.mem_singleton_self _)
    obtain rfl := List.mem_singleton.1 hr
    exact hmisses.finds _ (List.getLast_mem _) trivial hfinds

end Assembly

end QueryShape
