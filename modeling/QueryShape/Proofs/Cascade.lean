import Mathlib.Data.List.Induction
import QueryShape.Rule.Set

/-!
What rules in the order of their declaration say about an object. Of each setting, under each name
and in each spelling of it, the last rule for the object that makes it has the say, whatever the
others say about other settings.
-/

namespace QueryShape

open QueryShape.Identifier

variable {α γ ι κ : Type}

/-- A setting as the last item makes it that makes it at all. There is none where no item does. -/
inductive LastWins (sets : ι → Option α) : List ι → Option α → Prop
  | unset {items : List ι} (h : ∀ i ∈ items, sets i = none) : LastWins sets items none
  | set {before after : List ι} {i : ι} {a : α} (hi : sets i = some a)
      (hafter : ∀ j ∈ after, sets j = none) : LastWins sets (before ++ i :: after) (some a)

namespace LastWins

variable {sets : ι → Option α} {items : List ι} {setting : Option α}

theorem snoc (h : LastWins sets items setting) (i : ι) :
    LastWins sets (items ++ [i]) (laterSetting setting (sets i)) := by
  cases hi : sets i with
  | some a => exact .set hi (List.forall_mem_nil _)
  | none =>
      cases h with
      | unset h => exact .unset (List.forall_mem_append.2 ⟨h, List.forall_mem_singleton.2 hi⟩)
      | set ha hafter =>
          rw [List.append_assoc, List.cons_append]
          exact .set ha (List.forall_mem_append.2 ⟨hafter, List.forall_mem_singleton.2 hi⟩)

theorem of_foldl (sets : ι → Option α) (field : γ → Option α) {step : γ → ι → γ} {start : γ}
    (hstart : field start = none)
    (hstep : ∀ c i, field (step c i) = laterSetting (field c) (sets i)) (items : List ι) :
    LastWins sets items (field (items.foldl step start)) := by
  induction items using List.reverseRecOn with
  | nil =>
      rw [List.foldl_nil, hstart]
      exact .unset (List.forall_mem_nil _)
  | append_singleton front i ih =>
      rw [List.foldl_append, List.foldl_cons, List.foldl_nil, hstep]
      exact ih.snoc i

theorem getLast?_filterMap (sets : ι → Option α) (items : List ι) :
    LastWins sets items (items.filterMap sets).getLast? := by
  induction items using List.reverseRecOn with
  | nil => exact .unset (List.forall_mem_nil _)
  | append_singleton front i ih =>
      have hlast : ((front ++ [i]).filterMap sets).getLast? =
          laterSetting (front.filterMap sets).getLast? (sets i) := by
        rw [List.filterMap_append]
        cases hi : sets i with
        | none => simp [hi, laterSetting]
        | some a => simp [hi, laterSetting]
      rw [hlast]
      exact ih.snoc i

theorem exists_of_foldl (sets : ι → Option α) (field : γ → α) {step : γ → ι → γ} {start : γ}
    (hstep : ∀ c i, field (step c i) = (sets i).getD (field c)) (items : List ι) :
    ∃ setting, LastWins sets items setting ∧
      field (items.foldl step start) = setting.getD (field start) := by
  induction items using List.reverseRecOn with
  | nil => exact ⟨none, .unset (List.forall_mem_nil _), rfl⟩
  | append_singleton front i ih =>
      obtain ⟨setting, hsetting, hfield⟩ := ih
      refine ⟨_, hsetting.snoc i, ?_⟩
      rw [List.foldl_append, List.foldl_cons, List.foldl_nil, hstep, hfield]
      cases sets i <;> rfl

theorem eq_getLast? (h : LastWins sets items setting) :
    setting = (items.filterMap sets).getLast? := by
  cases h with
  | unset h =>
      rw [List.filterMap_eq_nil_iff.2 h]
      rfl
  | set hi hafter =>
      rw [List.filterMap_append, List.filterMap_cons_some hi, List.filterMap_eq_nil_iff.2 hafter,
        List.getLast?_concat]

theorem isSome_iff (h : LastWins sets items setting) :
    setting.isSome = true ↔ ∃ i ∈ items, (sets i).isSome = true := by
  cases h with
  | unset h =>
      simp only [Option.isSome_none, Bool.false_eq_true, false_iff]
      rintro ⟨i, hi, hsome⟩
      rw [h i hi] at hsome
      cases hsome
  | @set before after i a hi hafter =>
      refine iff_of_true rfl ⟨i, List.mem_append_right before List.mem_cons_self, ?_⟩
      rw [hi]
      rfl

theorem of_filter {p : ι → Bool} (h : LastWins sets (items.filter p) setting) :
    LastWins (fun i => if p i then sets i else none) items setting := by
  rw [h.eq_getLast?, List.filterMap_filter]
  exact getLast?_filterMap _ _

theorem of_map {f : κ → ι} {sources : List κ} (h : LastWins sets (sources.map f) setting) :
    LastWins (fun k => sets (f k)) sources setting := by
  rw [h.eq_getLast?, List.filterMap_map]
  exact getLast?_filterMap _ _

end LastWins

/-- What is added last under a name, in any spelling of it. -/
def addedUnder (key : String → String) (added : List (String × α)) (name : String) : Option α :=
  (added.filterMap fun a => if key a.1 = key name then some a.2 else none).getLast?

/-- A rule as it is written, with the settings for names in the order in which they are added. -/
structure WrittenRule where
  selector : Selector
  inclusion : Option Bool := none
  parameters : List (String × ParameterRule) := []
  columns : List (String × ColumnRule) := []
  tempTables : List String := []
  tableScripts : List TableScriptRule := []
  checkUnused : Option Bool := none

namespace WrittenRule

variable (w : WrittenRule)

/-- The rule without its settings for names. -/
def unnamed : ObjectRule where
  selector := w.selector
  inclusion := w.inclusion
  tempTables := w.tempTables
  tableScripts := w.tableScripts
  checkUnused := w.checkUnused

/-- The rule as it is applied, with its settings under keys. -/
def toObjectRule : ObjectRule :=
  let r := w.parameters.foldl (fun r p => r.withParameter p.1 p.2) w.unnamed
  w.columns.foldl (fun r c => r.withColumn c.1 c.2) r

def parameter? (name : String) : Option ParameterRule :=
  addedUnder parameterKey w.parameters name

def column? (name : String) : Option ColumnRule :=
  addedUnder columnKey w.columns name

def isFor (scope : RuleScope) (name : String) : Bool :=
  w.selector.scope == scope && w.selector.selects name

/-- What the rule sets for an object, if it is for that object. -/
def setFor (scope : RuleScope) (name : String) (sets : WrittenRule → Option α) : Option α :=
  if w.isFor scope name then sets w else none

theorem isSome_setFor {scope : RuleScope} {name : String} {sets : WrittenRule → Option α} :
    (w.setFor scope name sets).isSome = true ↔
      w.isFor scope name = true ∧ (sets w).isSome = true := by
  unfold setFor
  split <;> simp [*]

end WrittenRule

theorem isSome_addedUnder {key : String → String} {added : List (String × α)} {name : String} :
    (addedUnder key added name).isSome = true ↔ ∃ a ∈ added, key a.1 = key name := by
  rw [addedUnder, (LastWins.getLast?_filterMap _ _).isSome_iff]
  refine exists_congr fun a => and_congr_right fun _ => ?_
  split <;> simp [*]

/-- Settings by the keys of the names that they are added under. -/
def keyed (key : String → String) (added : List (String × α)) : KeyMap α :=
  added.foldl (fun m a => m.insert (key a.1) a.2) .empty

theorem get?_keyed (key : String → String) (added : List (String × α)) (name : String) :
    (keyed key added).get? (key name) = addedUnder key added name := by
  refine (LastWins.of_foldl _ (fun m : KeyMap α => m.get? (key name)) rfl
    (fun m a => ?_) added).eq_getLast?
  rw [KeyMap.get?_insert]
  by_cases h : key name = key a.1
  · rw [if_pos h, if_pos h.symm]
    rfl
  · rw [if_neg h, if_neg fun heq => h heq.symm]
    rfl

theorem get?_ofList (entries : List (String × α)) (key : String) :
    (KeyMap.ofList entries).get? key =
      (entries.filterMap fun e => if e.1 = key then some e.2 else none).getLast? :=
  get?_keyed id entries key

namespace WrittenRule

variable (w : WrittenRule)

theorem toObjectRule_eq : w.toObjectRule =
    { w.unnamed with
      parameters := keyed parameterKey w.parameters
      columns := keyed columnKey w.columns } := by
  have hparameters (added : List (String × ParameterRule)) (r : ObjectRule) :
      added.foldl (fun r p => r.withParameter p.1 p.2) r =
        { r with
          parameters :=
            added.foldl (fun m p => m.insert (parameterKey p.1) p.2) r.parameters } := by
    induction added generalizing r with
    | nil => rfl
    | cons p rest ih => exact ih _
  have hcolumns (added : List (String × ColumnRule)) (r : ObjectRule) :
      added.foldl (fun r c => r.withColumn c.1 c.2) r =
        { r with columns := added.foldl (fun m c => m.insert (columnKey c.1) c.2) r.columns } := by
    induction added generalizing r with
    | nil => rfl
    | cons c rest ih => exact ih _
  rw [toObjectRule, hparameters, hcolumns]
  rfl

theorem get?_parameters_toObjectRule (name : String) :
    w.toObjectRule.parameters.get? (parameterKey name) = w.parameter? name := by
  rw [toObjectRule_eq]
  exact get?_keyed parameterKey w.parameters name

theorem get?_columns_toObjectRule (name : String) :
    w.toObjectRule.columns.get? (columnKey name) = w.column? name := by
  rw [toObjectRule_eq]
  exact get?_keyed columnKey w.columns name

theorem appliesTo_toObjectRule (scope : RuleScope) (name : String) :
    w.toObjectRule.appliesTo scope name = w.isFor scope name := by
  rw [toObjectRule_eq]
  rfl

end WrittenRule

/-- A field of merged settings is that of the later ones where they have it. -/
structure Overrides (merge : α → α → α) (bare : α) (field : α → Option γ) : Prop where
  bare : field bare = none
  merge : ∀ a b, field (merge a b) = laterSetting (field a) (field b)

/-- Merges settings for names into those that are there, one after the other. -/
def mergeEntries (merge : α → α → α) (bare : α) (m : KeyMap α) (entries : List (String × α)) :
    KeyMap α :=
  entries.foldl (fun m e => m.update e.1 fun old => merge (old.getD bare) e.2) m

section MergeEntries

variable {merge : α → α → α} {bare : α} {field : α → Option γ}

theorem get?_mergeEntries (m added : KeyMap α) (key : String) :
    (mergeEntries merge bare m added.entries).get? key =
      match added.get? key with
      | some a => some (merge ((m.get? key).getD bare) a)
      | none => m.get? key := by
  obtain ⟨entries, hentries⟩ := added
  change _ = match entries.lookup key with
    | some a => some (merge ((m.get? key).getD bare) a)
    | none => m.get? key
  induction entries generalizing m with
  | nil => rfl
  | cons e rest ih =>
      obtain ⟨j, a⟩ := e
      obtain ⟨hfirst, hrest⟩ := List.pairwise_cons.1 hentries
      have hstep := ih (m.update j fun old => merge (old.getD bare) a) hrest
      rw [KeyMap.get?_update] at hstep
      rw [KeyMap.lookup_entry]
      by_cases hkey : key = j
      · subst hkey
        rw [if_pos rfl, KeyMap.lookup_eq_none hfirst] at hstep
        rw [if_pos rfl]
        exact hstep
      · rw [if_neg hkey] at hstep ⊢
        exact hstep

theorem Overrides.bind_get?_mergeEntries (h : Overrides merge bare field) (m added : KeyMap α)
    (key : String) :
    ((mergeEntries merge bare m added.entries).get? key).bind field =
      laterSetting ((m.get? key).bind field) ((added.get? key).bind field) := by
  rw [get?_mergeEntries]
  cases added.get? key with
  | none => rfl
  | some a =>
      have hold : field ((m.get? key).getD bare) = (m.get? key).bind field := by
        cases m.get? key with
        | none => exact h.bare
        | some old => rfl
      rw [Option.bind_some, Option.bind_some, h.merge, hold]

theorem Overrides.lastWins_foldl (h : Overrides merge bare field) (entry : ι → Option α)
    (items : List ι) :
    LastWins (fun i => (entry i).bind field) items
      (field ((items.filterMap entry).foldl merge bare)) := by
  rw [List.foldl_filterMap]
  refine LastWins.of_foldl _ field h.bare (fun c i => ?_) items
  cases entry i with
  | none => rfl
  | some a => exact h.merge c a

theorem present_mergeEntries (m added : KeyMap α) (key : String) :
    ((mergeEntries merge bare m added.entries).get? key).map (fun _ => ()) =
      laterSetting ((m.get? key).map fun _ => ()) ((added.get? key).map fun _ => ()) := by
  rw [get?_mergeEntries]
  cases added.get? key <;> rfl

end MergeEntries

theorem ObjectRule.addTo_eq (e : EffectiveRule) (r : ObjectRule) : ObjectRule.addTo e r =
    { parameters := mergeEntries ParameterRule.merge {} e.parameters r.parameters.entries
      columns := mergeEntries ColumnRule.merge {} e.columns r.columns.entries
      tempTables := e.tempTables ++ r.tempTables
      checkUnused := r.checkUnused.getD e.checkUnused } := by
  have hparameters {step : EffectiveRule → String × ParameterRule → EffectiveRule}
      (hstep : ∀ e p, step e p = e.addParameter p.1 p.2) (entries : List (String × ParameterRule))
      (e : EffectiveRule) : entries.foldl step e =
        { e with parameters := mergeEntries ParameterRule.merge {} e.parameters entries } := by
    induction entries generalizing e with
    | nil => rfl
    | cons p rest ih =>
        rw [List.foldl_cons, hstep]
        exact ih _
  have hcolumns {step : EffectiveRule → String × ColumnRule → EffectiveRule}
      (hstep : ∀ e c, step e c = e.addColumn c.1 c.2) (entries : List (String × ColumnRule))
      (e : EffectiveRule) : entries.foldl step e =
        { e with columns := mergeEntries ColumnRule.merge {} e.columns entries } := by
    induction entries generalizing e with
    | nil => rfl
    | cons c rest ih =>
        rw [List.foldl_cons, hstep]
        exact ih _
  unfold ObjectRule.addTo
  dsimp only
  rw [hparameters, hcolumns]
  · exact fun _ _ => rfl
  · exact fun _ _ => rfl

/-- The answers of a rule set are those of the last rule for an object that makes the setting. -/
structure RuleSet.Cascades (s : RuleSet) (written : List WrittenRule) : Prop where
  /-- A unit has an entry for the parameters that some rule for it names. -/
  parameter : ∀ unit name, ((s.ruleFor unit).parameter? name).isSome = true ↔
    ∃ w ∈ written, w.isFor unit.scope unit.subject = true ∧
      ∃ a ∈ w.parameters, parameterKey a.1 = parameterKey name
  sqlType : ∀ unit name, LastWins
    (·.setFor unit.scope unit.subject fun w => (w.parameter? name).bind (·.sqlType)) written
    (((s.ruleFor unit).parameter? name).bind (·.sqlType))
  nullable : ∀ unit name, LastWins
    (·.setFor unit.scope unit.subject fun w => (w.parameter? name).bind (·.nullable)) written
    ((s.ruleFor unit).nullable? name)
  buildValue : ∀ unit name, LastWins
    (·.setFor unit.scope unit.subject fun w => (w.parameter? name).bind (·.buildValue)) written
    (((s.ruleFor unit).parameter? name).bind (·.buildValue))
  column : ∀ unit name, ((s.ruleFor unit).column? name).isSome = true ↔
    ∃ w ∈ written, w.isFor unit.scope unit.subject = true ∧
      ∃ a ∈ w.columns, columnKey a.1 = columnKey name
  skip : ∀ unit name, LastWins
    (·.setFor unit.scope unit.subject fun w => (w.column? name).bind (·.skip)) written
    (((s.ruleFor unit).column? name).bind (·.skip))
  inclusion : ∀ unit name, LastWins
    (·.setFor unit.scope unit.subject fun w => (w.column? name).bind (·.inclusion)) written
    (((s.ruleFor unit).column? name).bind (·.inclusion))
  output : ∀ unit name, LastWins
    (·.setFor unit.scope unit.subject fun w => (w.column? name).bind (·.output)) written
    (((s.ruleFor unit).column? name).bind (·.output))
  tempTables : ∀ unit, (s.ruleFor unit).tempTables =
    (written.filter (·.isFor unit.scope unit.subject)).flatMap (·.tempTables)
  checkUnused : ∀ unit, ∃ setting,
    LastWins (·.setFor unit.scope unit.subject (·.checkUnused)) written setting ∧
      (s.ruleFor unit).checkUnused = setting.getD true
  includesProcedure : ∀ name, ∃ setting,
    LastWins (·.setFor .procedures name.plain (·.inclusion)) written setting ∧
      s.includesProcedure name = setting.getD false
  includesTable : ∀ name, ∃ setting,
    LastWins (·.setFor .tables name.plain (·.inclusion)) written setting ∧
      s.includesTable name = setting.getD false
  skipsColumn : ∀ table name, ∃ setting,
    LastWins (·.setFor .tables table.plain fun w => (w.column? name).bind (·.skip)) written
      setting ∧
      s.skipsColumn table name = setting.getD false

namespace GlobRules

/-- Rules as they are written, in the order of their declaration. -/
def ofWritten (written : List WrittenRule) : GlobRules :=
  ⟨written.map WrittenRule.toObjectRule⟩

variable {written : List WrittenRule} {scope : RuleScope} {name : String}

theorem lastWins_of_applying {sets : ObjectRule → Option α} {setting : Option α}
    (h : LastWins sets ((ofWritten written).applying scope name) setting) :
    LastWins (·.setFor scope name fun w => sets w.toObjectRule) written setting := by
  have hwritten := h.of_filter.of_map
  simp only [WrittenRule.appliesTo_toObjectRule] at hwritten
  exact hwritten

theorem lastWins_ruleFor (written : List WrittenRule) (sets : ObjectRule → Option α)
    (field : EffectiveRule → Option α) (hstart : field {} = none)
    (hstep : ∀ e r, field (ObjectRule.addTo e r) = laterSetting (field e) (sets r))
    (unit : UnitKey) :
    LastWins (·.setFor unit.scope unit.subject fun w => sets w.toObjectRule) written
      (field ((ofWritten written).ruleFor unit)) :=
  lastWins_of_applying (LastWins.of_foldl sets field hstart hstep _)

/-- One kind of settings for names: as rules are written, by key, and merged for a unit. -/
structure IsMerged {β : Type} (key : String → String) (merge : β → β → β) (bare : β)
    (added : WrittenRule → List (String × β)) (byKey : ObjectRule → KeyMap β)
    (effective : EffectiveRule → KeyMap β) : Prop where
  get?_start : ∀ k, (effective {}).get? k = none
  addTo : ∀ e r, effective (ObjectRule.addTo e r) =
    mergeEntries merge bare (effective e) (byKey r).entries
  get?_byKey : ∀ w name, (byKey w.toObjectRule).get? (key name) = addedUnder key (added w) name

theorem isMerged_parameters : IsMerged parameterKey ParameterRule.merge {}
    WrittenRule.parameters ObjectRule.parameters EffectiveRule.parameters where
  get?_start _ := rfl
  addTo e r := by rw [ObjectRule.addTo_eq]
  get?_byKey w name := w.get?_parameters_toObjectRule name

theorem isMerged_columns : IsMerged columnKey ColumnRule.merge {}
    WrittenRule.columns ObjectRule.columns EffectiveRule.columns where
  get?_start _ := rfl
  addTo e r := by rw [ObjectRule.addTo_eq]
  get?_byKey w name := w.get?_columns_toObjectRule name

namespace IsMerged

variable {β : Type} {key : String → String} {merge : β → β → β} {bare : β}
  {added : WrittenRule → List (String × β)} {byKey : ObjectRule → KeyMap β}
  {effective : EffectiveRule → KeyMap β}

theorem isSome_iff (h : IsMerged key merge bare added byKey effective)
    (written : List WrittenRule) (unit : UnitKey) (name : String) :
    ((effective ((ofWritten written).ruleFor unit)).get? (key name)).isSome = true ↔
      ∃ w ∈ written, w.isFor unit.scope unit.subject = true ∧
        ∃ a ∈ added w, key a.1 = key name := by
  have hstep (e : EffectiveRule) (r : ObjectRule) :
      ((effective (ObjectRule.addTo e r)).get? (key name)).map (fun _ => ()) =
        laterSetting (((effective e).get? (key name)).map fun _ => ())
          (((byKey r).get? (key name)).map fun _ => ()) := by
    rw [h.addTo]
    exact present_mergeEntries _ _ _
  have hwins := lastWins_ruleFor written (fun r => ((byKey r).get? (key name)).map fun _ => ())
    (fun e => ((effective e).get? (key name)).map fun _ => ()) (by rw [h.get?_start]; rfl) hstep
    unit
  have hiff := hwins.isSome_iff
  simp only [Option.isSome_map, WrittenRule.isSome_setFor, h.get?_byKey, isSome_addedUnder] at hiff
  exact hiff

theorem lastWins {field : β → Option α} (h : IsMerged key merge bare added byKey effective)
    (hfield : Overrides merge bare field) (written : List WrittenRule) (unit : UnitKey)
    (name : String) :
    LastWins (·.setFor unit.scope unit.subject fun w => (addedUnder key (added w) name).bind field)
      written (((effective ((ofWritten written).ruleFor unit)).get? (key name)).bind field) := by
  have hstep (e : EffectiveRule) (r : ObjectRule) :
      ((effective (ObjectRule.addTo e r)).get? (key name)).bind field =
        laterSetting (((effective e).get? (key name)).bind field)
          (((byKey r).get? (key name)).bind field) := by
    rw [h.addTo]
    exact hfield.bind_get?_mergeEntries _ _ _
  have hwins := lastWins_ruleFor written (fun r => ((byKey r).get? (key name)).bind field)
    (fun e => ((effective e).get? (key name)).bind field) (by rw [h.get?_start]; rfl) hstep unit
  simp only [h.get?_byKey] at hwins
  exact hwins

end IsMerged

section Objects

variable (written)

theorem exists_checkUnused (unit : UnitKey) : ∃ setting,
    LastWins (·.setFor unit.scope unit.subject (·.checkUnused)) written setting ∧
      ((ofWritten written).ruleFor unit).checkUnused = setting.getD true := by
  have hstep (e : EffectiveRule) (r : ObjectRule) :
      (ObjectRule.addTo e r).checkUnused = r.checkUnused.getD e.checkUnused := by
    rw [ObjectRule.addTo_eq]
  obtain ⟨setting, hsetting, hfield⟩ :=
    LastWins.exists_of_foldl ObjectRule.checkUnused EffectiveRule.checkUnused hstep
      ((ofWritten written).applying unit.scope unit.subject)
  refine ⟨setting, ?_, hfield⟩
  have hwritten := lastWins_of_applying hsetting
  simp only [WrittenRule.toObjectRule_eq] at hwritten
  exact hwritten

theorem exists_includes (scope : RuleScope) (name : QualifiedName) : ∃ setting,
    LastWins (·.setFor scope name.plain (·.inclusion)) written setting ∧
      (ofWritten written).includes scope name = setting.getD false := by
  refine ⟨_, ?_, rfl⟩
  have happlying := LastWins.getLast?_filterMap ObjectRule.inclusion
    ((ofWritten written).applying scope name.plain)
  have hwritten := lastWins_of_applying happlying
  simp only [WrittenRule.toObjectRule_eq] at hwritten
  exact hwritten

theorem exists_skipsColumn (table : QualifiedName) (column : String) : ∃ setting,
    LastWins (·.setFor .tables table.plain fun w => (w.column? column).bind (·.skip)) written
      setting ∧
      (ofWritten written).skipsColumn table column = setting.getD false := by
  refine ⟨_, ?_, rfl⟩
  have hskip : Overrides ColumnRule.merge {} ColumnRule.skip := ⟨rfl, fun _ _ => rfl⟩
  have happlying := hskip.lastWins_foldl (fun r : ObjectRule => r.columns.get? (columnKey column))
    ((ofWritten written).applying .tables table.plain)
  have hwritten := lastWins_of_applying happlying
  simp only [WrittenRule.get?_columns_toObjectRule] at hwritten
  exact hwritten

theorem tempTables_ruleFor (unit : UnitKey) : ((ofWritten written).ruleFor unit).tempTables =
    (written.filter (·.isFor unit.scope unit.subject)).flatMap (·.tempTables) := by
  have hfold (rules : List ObjectRule) (e : EffectiveRule) :
      (rules.foldl ObjectRule.addTo e).tempTables =
        e.tempTables ++ rules.flatMap (·.tempTables) := by
    induction rules generalizing e with
    | nil => exact (List.append_nil _).symm
    | cons r rest ih =>
        rw [List.foldl_cons, ih, ObjectRule.addTo_eq, List.flatMap_cons, List.append_assoc]
  have happlying : (ofWritten written).applying unit.scope unit.subject =
      (written.filter (·.isFor unit.scope unit.subject)).map WrittenRule.toObjectRule := by
    rw [applying, ofWritten, List.filter_map]
    simp only [Function.comp_def, WrittenRule.appliesTo_toObjectRule]
  rw [ruleFor, hfold, happlying, List.flatMap_map]
  simp only [WrittenRule.toObjectRule_eq]
  rfl

end Objects

/-- Rules answer for every object, under every name and in every spelling, as the last rules for it
that are written say. -/
theorem cascades_toRuleSet (written : List WrittenRule) :
    (ofWritten written).toRuleSet.Cascades written where
  parameter := isMerged_parameters.isSome_iff written
  sqlType := isMerged_parameters.lastWins ⟨rfl, fun _ _ => rfl⟩ written
  nullable := isMerged_parameters.lastWins ⟨rfl, fun _ _ => rfl⟩ written
  buildValue := isMerged_parameters.lastWins ⟨rfl, fun _ _ => rfl⟩ written
  column := isMerged_columns.isSome_iff written
  skip := isMerged_columns.lastWins ⟨rfl, fun _ _ => rfl⟩ written
  inclusion := isMerged_columns.lastWins ⟨rfl, fun _ _ => rfl⟩ written
  output := isMerged_columns.lastWins ⟨rfl, fun _ _ => rfl⟩ written
  tempTables := tempTables_ruleFor written
  checkUnused := exists_checkUnused written
  includesProcedure := exists_includes written .procedures
  includesTable := exists_includes written .tables
  skipsColumn := exists_skipsColumn written

end GlobRules

end QueryShape
