import QueryShape.Proofs.ColumnParameters
import QueryShape.Rule.Coverage

/-!
The check for unused rules beside the use of rules. The check looks for the column names of a rule
up to the case of the letters A to Z, and rules are applied to columns up to case in all alphabets.
-/

namespace QueryShape

open QueryShape.Text

namespace Warning

/-- Whether the message of a warning begins with a text. -/
def StartsWith (w : Warning) (front : String) : Prop :=
  front.toList <+: w.message.toList

variable {w : Warning} {front front' : String}

theorem StartsWith.not_startsWith (hw : w.StartsWith front) (h : ¬ front.toList <+: front'.toList)
    (h' : ¬ front'.toList <+: front.toList) : ¬ w.StartsWith front' := by
  intro hw'
  rcases List.prefix_or_prefix_of_prefix hw hw' with hprefix | hprefix
  · exact h hprefix
  · exact h' hprefix

theorem StartsWith.of_prefix {subject reason back : String} (h : front.toList <+: reason.toList) :
    StartsWith ⟨subject, reason ++ back⟩ front := by
  simpa only [StartsWith, String.toList_append] using h.trans (List.prefix_append _ _)

theorem not_startsWith_append {subject back : String} (h : ¬ front.toList <+: front'.toList)
    (h' : ¬ front'.toList <+: front.toList) : ¬ StartsWith ⟨subject, front ++ back⟩ front' :=
  (StartsWith.of_prefix List.prefix_rfl).not_startsWith h h'

/-- How reports about columns of tables start. -/
def reportFront : String := "names column '"

/-- The report that no table or view of a rule has a column. -/
def columnReport (subject name : String) : Warning :=
  ⟨subject, reportFront ++ name ++ "' which no matching table or view has"⟩

theorem startsWith_columnReport (subject name : String) :
    (columnReport subject name).StartsWith reportFront := by
  simp only [StartsWith, columnReport, String.toList_append, List.append_assoc, List.prefix_append]

end Warning

open QueryShape.Warning

namespace DeclaredRule

variable (r : DeclaredRule)

/-- The report that no table of a rule has a column. -/
def missingOnTables (name : String) : Warning :=
  columnReport r.description name

/-- The report that no unit of a rule returns a column. -/
def missingOnUnits (name : String) : Warning :=
  r.warning
    ("names result column '" ++ name ++ "' which no matching " ++ r.selector.scope.label ++
      " returns")

theorem missingOnTables_injective : Function.Injective r.missingOnTables := by
  intro a b h
  have hmessage := congrArg Warning.message h
  exact (String.append_right_inj _).1 ((String.append_left_inj _).1 hmessage)

theorem missingOnUnits_injective : Function.Injective r.missingOnUnits := by
  intro a b h
  have hmessage := congrArg Warning.message h
  exact (String.append_right_inj _).1 ((String.append_left_inj _).1
    ((String.append_left_inj _).1 ((String.append_left_inj _).1 hmessage)))

theorem startsWith_missingOnUnits (name : String) :
    (r.missingOnUnits name).StartsWith "names result column '" := by
  simp only [StartsWith, missingOnUnits, warning, String.toList_append, List.append_assoc,
    List.prefix_append]

/-- The tables that a rule is for. -/
def selectedTables (tables : List Table) : List Table :=
  tables.filter fun t => r.selector.selects t.name.plain

/-- What is known of the units that a rule is for. -/
def selectedUnits (units : List UnitFacts) : List UnitFacts :=
  units.filter fun f => f.key.scope == r.selector.scope && r.selector.selects f.key.subject

theorem unusedOnTables_eq (tables : List Table) : r.unusedOnTables tables =
    if (r.selectedTables tables).isEmpty then [r.warning "matches no table or view"]
    else (r.columnNames.filter fun name =>
      !(r.selectedTables tables).any fun t => (t.column? name).isSome).map r.missingOnTables :=
  rfl

theorem unusedResultColumns_eq (selected : List UnitFacts) : r.unusedResultColumns selected =
    (r.columnNames.filter fun name =>
      !selected.any fun f => f.columnNames.any fun c => sameIgnoringCase c name).map
        r.missingOnUnits :=
  rfl

theorem unusedOnUnits_eq (names : List String) (units : List UnitFacts) :
    r.unusedOnUnits names units =
      if !names.any r.selector.selects then
        [r.warning ("matches no " ++ r.selector.scope.label)]
      else if (r.selectedUnits units).isEmpty then []
      else r.unusedParameters (r.selectedUnits units) ++
        r.unusedResultColumns (r.selectedUnits units) :=
  rfl

variable {r}

theorem column?_isSome_eq_false_iff {t : Table} {name : String} :
    (t.column? name).isSome = false ↔ ∀ c ∈ t.columns, sameIgnoringCase c.name name = false := by
  rw [Table.column?, findColumn?, List.isSome_find?, List.any_eq_false]
  simp only [Bool.not_eq_true]

theorem missingOnTables_mem_iff {tables : List Table} {name : String} :
    r.missingOnTables name ∈ r.unusedOnTables tables ↔
      name ∈ r.columnNames ∧ r.selectedTables tables ≠ [] ∧
        ∀ t ∈ r.selectedTables tables, ∀ c ∈ t.columns, sameIgnoringCase c.name name = false := by
  rw [unusedOnTables_eq]
  split
  · rename_i hnone
    refine iff_of_false ?_ fun h => h.2.1 (List.isEmpty_iff.1 hnone)
    intro h
    have hfront : (r.missingOnTables name).StartsWith reportFront := startsWith_columnReport _ _
    rw [List.mem_singleton.1 h] at hfront
    have hother : (r.warning "matches no table or view").StartsWith "matches no table or view" :=
      List.prefix_rfl
    exact hother.not_startsWith (by decide) (by decide) hfront
  · rename_i hsome
    rw [List.isEmpty_iff] at hsome
    rw [List.mem_map_of_injective r.missingOnTables_injective, List.mem_filter, Bool.not_eq_true',
      List.any_eq_false]
    simp only [Bool.not_eq_true, column?_isSome_eq_false_iff, hsome, ne_eq, not_false_eq_true,
      true_and]

theorem missingOnUnits_not_mem_unusedParameters {selected : List UnitFacts} {name : String} :
    r.missingOnUnits name ∉ r.unusedParameters selected := by
  intro h
  obtain ⟨key, -, heq⟩ := List.mem_map.1 h
  have hfront := r.startsWith_missingOnUnits name
  simp only [← heq, warning, String.append_assoc] at hfront
  exact not_startsWith_append (by decide) (by decide) hfront

theorem missingOnUnits_mem_iff {names : List String} {units : List UnitFacts} {name : String} :
    r.missingOnUnits name ∈ r.unusedOnUnits names units ↔
      name ∈ r.columnNames ∧ (∃ n ∈ names, r.selector.selects n = true) ∧
        r.selectedUnits units ≠ [] ∧
        ∀ f ∈ r.selectedUnits units, ∀ c ∈ f.columnNames, sameIgnoringCase c name = false := by
  rw [unusedOnUnits_eq, ← List.any_eq_true]
  split
  · rename_i hnames
    rw [Bool.not_eq_true'] at hnames
    refine iff_of_false (fun h => ?_) fun h => by simp [hnames] at h
    have hfront := r.startsWith_missingOnUnits name
    rw [List.mem_singleton.1 h] at hfront
    exact not_startsWith_append (by decide) (by decide) hfront
  · rename_i hnames
    rw [Bool.not_eq_true', Bool.not_eq_false] at hnames
    split
    · rename_i hnone
      exact iff_of_false List.not_mem_nil fun h => h.2.2.1 (List.isEmpty_iff.1 hnone)
    · rename_i hsome
      rw [List.isEmpty_iff] at hsome
      rw [List.mem_append, or_iff_right missingOnUnits_not_mem_unusedParameters,
        unusedResultColumns_eq, List.mem_map_of_injective r.missingOnUnits_injective,
        List.mem_filter, Bool.not_eq_true', List.any_eq_false]
      simp only [Bool.not_eq_true, List.any_eq_false, hnames, hsome, ne_eq, not_false_eq_true,
        true_and]

theorem unused_of_tables {c : Candidates} (h : r.selector.scope = .tables) :
    r.unused c = r.unusedOnTables c.tables := by
  rw [unused, h]

theorem exists_unused_eq {c : Candidates} (h : r.selector.scope ≠ .tables) :
    ∃ names, r.unused c = r.unusedOnUnits names c.units := by
  unfold unused
  split
  · rename_i hscope
    exact absurd hscope h
  · exact ⟨_, rfl⟩
  · exact ⟨_, rfl⟩

end DeclaredRule

theorem Text.toLower_toLower (c : Char) : c.toLower.toLower = c.toLower := by
  apply Char.toNat_inj.1
  have hlower := toNat_toLower c
  rw [toNat_toLower c.toLower]
  split <;> split at hlower <;> omega

theorem sameIgnoringCase_columnKey_of_ascii {name : String}
    (h : ∀ c ∈ name.toList, c.toNat < 128) : sameIgnoringCase name (columnKey name) = true := by
  rw [sameIgnoringCase_iff, columnKey, lower, lowerFrom_of_ascii h, folded, folded,
    String.toList_ofList, List.map_map]
  exact List.map_congr_left fun c _ => (toLower_toLower c).symm

/-- The names of all columns that rules can find. -/
def Candidates.columnNames (c : Candidates) : List String :=
  (c.tables.flatMap fun t => t.columns.map (·.name)) ++ c.units.flatMap (·.columnNames)

namespace ObjectRule

variable (r : ObjectRule) (c : Candidates)

/-- The check says of a column that the rule names that no object of the rule has it. -/
def ReportsColumn (key : String) : Prop :=
  (if r.selector.scope = .tables then r.declared.missingOnTables key
    else r.declared.missingOnUnits key) ∈ r.declared.unused c

/-- The names of the columns of the tables or units that the rule is for. -/
def columnsMet : List String :=
  if r.selector.scope = .tables then
    (r.declared.selectedTables c.tables).flatMap fun t => t.columns.map (·.name)
  else
    (r.declared.selectedUnits c.units).flatMap (·.columnNames)

variable {r c}

theorem sameIgnoringCase_of_reportsColumn {key name : String} (h : r.ReportsColumn c key)
    (hname : name ∈ r.columnsMet c) : sameIgnoringCase name key = false := by
  unfold ReportsColumn at h
  unfold columnsMet at hname
  split at h
  · rename_i hscope
    rw [if_pos hscope] at hname
    obtain ⟨t, ht, hname⟩ := List.mem_flatMap.1 hname
    obtain ⟨column, hcolumn, rfl⟩ := List.mem_map.1 hname
    rw [DeclaredRule.unused_of_tables hscope, DeclaredRule.missingOnTables_mem_iff] at h
    exact h.2.2 t ht column hcolumn
  · rename_i hscope
    rw [if_neg hscope] at hname
    obtain ⟨f, hf, hname⟩ := List.mem_flatMap.1 hname
    have hunit : r.declared.selector.scope ≠ .tables := hscope
    obtain ⟨names, hunused⟩ := DeclaredRule.exists_unused_eq (c := c) hunit
    rw [hunused, DeclaredRule.missingOnUnits_mem_iff] at h
    exact h.2.2.2 f hf name hname

theorem columnsMet_subset : r.columnsMet c ⊆ c.columnNames := by
  intro name hname
  unfold columnsMet at hname
  unfold Candidates.columnNames
  split at hname
  · obtain ⟨t, ht, hname⟩ := List.mem_flatMap.1 hname
    exact List.mem_append_left _ (List.mem_flatMap.2 ⟨t, (List.mem_filter.1 ht).1, hname⟩)
  · obtain ⟨f, hf, hname⟩ := List.mem_flatMap.1 hname
    exact List.mem_append_right _ (List.mem_flatMap.2 ⟨f, (List.mem_filter.1 hf).1, hname⟩)

end ObjectRule

namespace GlobRules

variable (g : GlobRules) (c : Candidates)

/-- There is a column of a table or unit to which the rules apply what one of them has under a
key. -/
def AppliesTo (r : ObjectRule) (key : String) : Prop :=
  (∃ t ∈ c.tables, r ∈ g.applying .tables t.name.plain ∧
      ∃ column ∈ t.columns, columnKey column.name = key) ∨
    ∃ f ∈ c.units, r ∈ g.applying f.key.scope f.key.subject ∧
      ∃ name ∈ f.columnNames, columnKey name = key

/-- No setting that the rules apply is reported. -/
def SparesColumns : Prop :=
  ∀ r ∈ g.rules, ∀ key ∈ r.columns.keys, r.ReportsColumn c key → ¬ g.AppliesTo c r key

variable {g c}

theorem exists_met_of_appliesTo {r : ObjectRule} {key : String} (h : g.AppliesTo c r key) :
    ∃ name ∈ r.columnsMet c, columnKey name = key := by
  unfold ObjectRule.columnsMet
  rcases h with ⟨t, ht, hr, column, hcolumn, hkey⟩ | ⟨f, hf, hr, name, hname, hkey⟩
  · obtain ⟨hscope, hselects⟩ := Bool.and_eq_true_iff.1 (List.mem_filter.1 hr).2
    rw [if_pos (eq_of_beq hscope)]
    refine ⟨column.name, List.mem_flatMap.2 ⟨t, ?_, List.mem_map_of_mem hcolumn⟩, hkey⟩
    exact List.mem_filter.2 ⟨ht, hselects⟩
  · obtain ⟨hscope, hselects⟩ := Bool.and_eq_true_iff.1 (List.mem_filter.1 hr).2
    have hunit : r.selector.scope ≠ .tables := by
      rw [eq_of_beq hscope]
      cases f.key <;> nofun
    rw [if_neg hunit]
    refine ⟨name, List.mem_flatMap.2 ⟨f, List.mem_filter.2 ⟨hf, ?_⟩, hname⟩, hkey⟩
    rw [Bool.and_eq_true, beq_iff_eq]
    exact ⟨(eq_of_beq hscope).symm, hselects⟩

/-- A rule for all tables that names a column. -/
def skipRule (name : String) : ObjectRule :=
  ({ selector := { scope := .tables, pattern := ⟨"*", [.anyRun]⟩ } } : ObjectRule).withColumn name
    { skip := some true }

def fuelTable (column : String) : Table where
  name := ⟨"dbo", "Fuel"⟩
  columns := [{ name := column, ordinal := 1, type := ⟨"int", .int, "0"⟩ }]
  primaryKey := []
  isView := false

def fuelCandidates (column : String) : Candidates :=
  ⟨[], [fuelTable column], [], []⟩

theorem selects_fuelTable (column : String) :
    (skipRule column).selector.selects (fuelTable column).name.plain = true := by
  have hall : (Selector.mk .tables ⟨"*", [.anyRun]⟩ []).selects
      (QualifiedName.mk "dbo" "Fuel").plain = true := by
    decide
  exact hall

theorem appliesTo_fuelTable (column : String) :
    (GlobRules.mk [skipRule column]).AppliesTo (fuelCandidates column) (skipRule column)
      (columnKey column) := by
  refine .inl ⟨fuelTable column, List.mem_singleton_self _, ?_, _, List.mem_singleton_self _, rfl⟩
  exact List.mem_filter.2 ⟨List.mem_singleton_self _, selects_fuelTable column⟩

theorem reportsColumn_fuelTable {column : String}
    (h : sameIgnoringCase column (columnKey column) = false) :
    (skipRule column).ReportsColumn (fuelCandidates column) (columnKey column) := by
  have hselected : (skipRule column).declared.selectedTables [fuelTable column] =
      [fuelTable column] :=
    List.filter_eq_self.2 (List.forall_mem_singleton.2 (selects_fuelTable column))
  change (skipRule column).declared.missingOnTables (columnKey column) ∈
    (skipRule column).declared.unusedOnTables [fuelTable column]
  rw [DeclaredRule.missingOnTables_mem_iff, hselected]
  refine ⟨List.mem_singleton_self _, List.cons_ne_nil _ _, ?_⟩
  exact List.forall_mem_singleton.2 (List.forall_mem_singleton.2 h)

/-- Settings that rules apply are never reported exactly where the names of columns are
lower-cased by the letters from A to Z alone. -/
theorem sparesColumns_iff (Has : String → Prop) :
    ((∀ (g : GlobRules) (c : Candidates), (∀ name ∈ c.columnNames, Has name) →
        g.SparesColumns c) ↔
      ∀ name, Has name → sameIgnoringCase name (columnKey name) = true) ∧
    ∀ (g : GlobRules) (c : Candidates),
      (∀ name ∈ c.columnNames, ∀ ch ∈ name.toList, ch.toNat < 128) → g.SparesColumns c := by
  have hspares (g : GlobRules) (c : Candidates)
      (h : ∀ name ∈ c.columnNames, sameIgnoringCase name (columnKey name) = true) :
      g.SparesColumns c := by
    intro r _ key _ hreports happlies
    obtain ⟨name, hname, rfl⟩ := exists_met_of_appliesTo happlies
    have hdifferent := ObjectRule.sameIgnoringCase_of_reportsColumn hreports hname
    rw [h name (ObjectRule.columnsMet_subset hname)] at hdifferent
    cases hdifferent
  refine ⟨⟨fun h name hname => ?_, fun h g c hhas => ?_⟩, fun g c hascii => ?_⟩
  · by_contra hdifferent
    rw [Bool.not_eq_true] at hdifferent
    have hfuel : ∀ n ∈ (fuelCandidates name).columnNames, Has n :=
      List.forall_mem_singleton.2 hname
    exact h ⟨[skipRule name]⟩ _ hfuel _ (List.mem_singleton_self _) _ (List.mem_singleton_self _)
      (reportsColumn_fuelTable hdifferent) (appliesTo_fuelTable name)
  · exact hspares g c fun name hname => h name (hhas name hname)
  · exact hspares g c fun name hname => sameIgnoringCase_columnKey_of_ascii (hascii name hname)

/-- The rule names the column as the table does, with a capital letter that is not in ASCII. -/
theorem oilColumn_reported :
    (skipRule "Öl").ReportsColumn (fuelCandidates "Öl") "öl" ∧
      (GlobRules.mk [skipRule "Öl"]).AppliesTo (fuelCandidates "Öl") (skipRule "Öl") "öl" ∧
      ¬ (GlobRules.mk [skipRule "Öl"]).SparesColumns (fuelCandidates "Öl") := by
  have hkey : columnKey "Öl" = "öl" := by decide +kernel
  have hdifferent : sameIgnoringCase "Öl" (columnKey "Öl") = false := by decide +kernel
  have hreports := reportsColumn_fuelTable hdifferent
  have happlies := appliesTo_fuelTable "Öl"
  refine ⟨hkey ▸ hreports, hkey ▸ happlies, fun hspares => ?_⟩
  exact hspares _ (List.mem_singleton_self _) _ (List.mem_singleton_self _) hreports happlies

end GlobRules

end QueryShape
