import QueryShape.Proofs.Groundwork

namespace QueryShape

variable {σ : Type}

namespace ModelUnit

theorem addTempTable_eq_ok {unit definition : String} {known ts : List TempTable}
    (h : addTempTable unit known definition = .ok ts) : ∃ t : TempTable, ts = known ++ [t] ∧
      t.definition = definition ∧ createdTableNames definition = some [t.name] ∧
        ∀ k ∈ known, Text.sameIgnoringCase k.name t.name = false := by
  unfold addTempTable at h
  split at h
  · rename_i name hnames
    split at h
    · cases h
    · rename_i hnew
      refine ⟨{ name, definition }, (Except.ok.inj h).symm, rfl, ?_, ?_⟩
      · cases hcreated : createdTableNames definition with
        | none =>
            rw [hcreated] at hnames
            cases hnames
        | some names =>
            rw [hcreated] at hnames
            exact congrArg some hnames
      · intro k hk
        have hall := List.any_eq_false.1 (Bool.eq_false_iff.2 hnew) k hk
        exact Bool.eq_false_iff.2 hall
  · cases h

theorem foldlM_addTempTable_eq_ok {unit : String} {definitions : List String}
    {known ts : List TempTable}
    (h : definitions.foldlM (addTempTable unit) known = .ok ts) : ∃ added, ts = known ++ added ∧
      added.map (·.definition) = definitions ∧
        ∀ t ∈ added, createdTableNames t.definition = some [t.name] := by
  induction definitions generalizing known with
  | nil =>
      cases h
      exact ⟨[], (List.append_nil _).symm, rfl, List.forall_mem_nil _⟩
  | cons definition rest ih =>
      rw [List.foldlM_cons] at h
      obtain ⟨next, hfirst, hrest⟩ := bind_eq_ok.1 h
      obtain ⟨t, rfl, rfl, hcreated, -⟩ := addTempTable_eq_ok hfirst
      obtain ⟨added, rfl, rfl, hadded⟩ := ih hrest
      exact ⟨t :: added, by simp, rfl, List.forall_mem_cons.2 ⟨hcreated, hadded⟩⟩

/-- The tables that a rule adds come after those of the unit, one for each definition. -/
theorem withRuleTables_eq_ok {u attached : ModelUnit} {rule : EffectiveRule}
    (h : u.withRuleTables rule = .ok attached) : ∃ added : List TempTable,
      attached = u.withTempTables (u.tempTables ++ added) ∧
        added.map (·.definition) = rule.tempTables ∧
          ∀ t ∈ added, createdTableNames t.definition = some [t.name] := by
  obtain ⟨ts, hts, rfl⟩ := map_eq_ok.1 h
  obtain ⟨added, rfl, hdefinitions, hadded⟩ := foldlM_addTempTable_eq_ok hts
  exact ⟨added, rfl, hdefinitions, hadded⟩

end ModelUnit

namespace ProcedureCatalog

theorem tempTables_of_ofRows {types : TypeCatalog} {rules : RuleSet}
    {procedureRows parameterRows : List Row} {catalog : ProcedureCatalog}
    (h : ofRows types rules procedureRows parameterRows = .ok catalog) :
    ∀ p ∈ catalog.procedures, p.tempTables = [] := by
  intro p hp
  obtain ⟨r, -, own, hown⟩ := exists_of_mem_forall₂_right (forall₂_of_ofRows h) p hp
  exact (exists_of_procedureOfRow hown).2.1

end ProcedureCatalog

theorem tempTables_of_synthesizeScript {table : Table} {types : List TableType}
    {r : TableScriptRule} {s : Script} (h : synthesizeScript table types r = .ok s) :
    s.tempTables = [] ∨ ∃ columns, s.tempTables = [Statement.stagingDefinition columns] := by
  obtain ⟨p, -, h⟩ := bind_eq_ok.1 h
  obtain ⟨statement, -, rfl⟩ := map_eq_ok.1 h
  unfold Statement.toScript
  cases statement.staged? with
  | none => exact .inl rfl
  | some columns => exact .inr ⟨columns, rfl⟩

namespace Assembly

theorem tempTables_of_requestedScripts {rules : RuleSet} {types : List TableType}
    {tables : List Table} {scripts : List Script}
    (h : requestedScripts rules types tables = .ok scripts) : ∀ s ∈ scripts,
      s.tempTables = [] ∨ ∃ columns, s.tempTables = [Statement.stagingDefinition columns] := by
  obtain ⟨perTable, hperTable, rfl⟩ := map_eq_ok.1 h
  intro s hs
  obtain ⟨ss, hss, hs⟩ := List.mem_flatten.1 hs
  obtain ⟨t, -, ht⟩ := exists_of_mem_mapM hperTable ss hss
  obtain ⟨r, -, hr⟩ := exists_of_mem_mapM ht s hs
  exact tempTables_of_synthesizeScript hr

theorem mem_of_mem_replaceScript? {script : Script} {scripts replaced : List Script}
    (h : replaceScript? script scripts = some replaced) :
    ∀ s ∈ replaced, s = script ∨ s ∈ scripts := by
  induction scripts generalizing replaced with
  | nil => cases h
  | cons t rest ih =>
      unfold replaceScript? at h
      split at h
      · obtain rfl := Option.some.inj h
        intro s hs
        rcases List.mem_cons.1 hs with rfl | hs
        · exact .inl rfl
        · exact .inr (List.mem_cons_of_mem _ hs)
      · obtain ⟨others, hothers, rfl⟩ := Option.map_eq_some_iff.1 h
        intro s hs
        rcases List.mem_cons.1 hs with rfl | hs
        · exact .inr List.mem_cons_self
        · rcases ih hothers s hs with rfl | hs
          · exact .inl rfl
          · exact .inr (List.mem_cons_of_mem _ hs)

theorem mem_of_mem_mergeScripts {scripts added : List Script} :
    ∀ s ∈ (mergeScripts scripts added).1, s ∈ scripts ∨ s ∈ added := by
  induction added generalizing scripts with
  | nil =>
      intro s hs
      exact .inl hs
  | cons script rest ih =>
      unfold mergeScripts
      intro s hs
      split at hs
      · rename_i replaced hreplaced
        rcases ih s hs with hs | hs
        · rcases mem_of_mem_replaceScript? hreplaced s hs with rfl | hs
          · exact .inr List.mem_cons_self
          · exact .inl hs
        · exact .inr (List.mem_cons_of_mem _ hs)
      · rcases ih s hs with hs | hs
        · rcases List.mem_append.1 hs with hs | hs
          · exact .inl hs
          · obtain rfl := List.mem_singleton.1 hs
            exact .inr List.mem_cons_self
        · exact .inr (List.mem_cons_of_mem _ hs)

/-- A unit has no temp tables before its rule adds some, unless it is a generated script that stages
rows or one of the scripts that the run is given. -/
def OwnTables (userScripts : List Script) (u : ModelUnit) : Prop :=
  u.tempTables = [] ∨ (∃ columns, u.tempTables = [Statement.stagingDefinition columns]) ∨
    ∃ s ∈ userScripts, u = .script s

theorem Groundwork.ownTables_of_lay {connection : Nat} {rules : RuleSet}
    {userScripts : List Script} {w : World σ} {g : Groundwork}
    (h : ((lay connection rules userScripts).outcome w).1 = .ok g) :
    ∀ u ∈ g.units, OwnTables userScripts u := by
  cases isLaid_of_lay h with
  | ofRows _ _ _ _ _ _ hcatalog hgenerated =>
      intro u hu
      rcases List.mem_append.1 hu with hu | hu
      · obtain ⟨p, hp, rfl⟩ := List.mem_map.1 hu
        exact .inl (ProcedureCatalog.tempTables_of_ofRows hcatalog p hp)
      · obtain ⟨s, hs, rfl⟩ := List.mem_map.1 hu
        rcases mem_of_mem_mergeScripts s hs with hs | hs
        · rcases tempTables_of_requestedScripts hgenerated s hs with h | h
          · exact .inl h
          · exact .inr (.inl h)
        · exact .inr (.inr ⟨s, hs, rfl⟩)

end Assembly

namespace TempTable

theorem insertInNames_eq_self {insertion cs : List Char} {before : Option Char}
    (h : '#' ∉ insertInNames insertion before cs) : insertInNames insertion before cs = cs := by
  induction cs generalizing before with
  | nil => rfl
  | cons c rest ih =>
      unfold insertInNames at h ⊢
      split
      · rename_i hname
        rw [if_pos hname, hname.1] at h
        exact absurd List.mem_cons_self h
      · rename_i hname
        rw [if_neg hname] at h
        rw [ih fun hmem => h (List.mem_cons_of_mem _ hmem)]

end TempTable

theorem RunToken.globalize_eq_self {token : RunToken} {text : String}
    (h : '#' ∉ (token.globalize text).toList) : token.globalize text = text := by
  unfold globalize at h ⊢
  rw [String.toList_ofList] at h
  rw [TempTable.insertInNames_eq_self h, String.ofList_toList]

namespace Sandbox

theorem placed_eq_self {s : Sandbox} {text : String} (h : '#' ∉ (s.placed text).toList) :
    s.placed text = text := by
  unfold placed at h ⊢
  split
  · rename_i hscope
    rw [hscope] at h
    exact RunToken.globalize_eq_self h
  · rfl

end Sandbox

end QueryShape
