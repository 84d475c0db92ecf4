import QueryShape.Assembly.Assemble
import QueryShape.Proofs.Values

namespace QueryShape

variable {σ : Type}

namespace Assembly.Groundwork

/-- What can be laid from rows of the catalog and the scripts that a run is given. -/
inductive IsLaid (rules : RuleSet) (userScripts : List Script) : Groundwork → Prop
  | ofRows {catalog : ProcedureCatalog} {generated : List Script}
      (typeRows tableTypeRows columnRows keyRows procedureRows parameterRows : List Row)
      (hcatalog : ProcedureCatalog.ofRows (TypeCatalog.ofRows typeRows tableTypeRows).1 rules
        procedureRows parameterRows = .ok catalog)
      (hgenerated : requestedScripts rules (TypeCatalog.ofRows typeRows tableTypeRows).1.tableTypes
        (Table.allOfRows (TypeCatalog.ofRows typeRows tableTypeRows).1 rules columnRows keyRows).1 =
          .ok generated) :
      IsLaid rules userScripts {
        types := (TypeCatalog.ofRows typeRows tableTypeRows).1
        tables :=
          (Table.allOfRows (TypeCatalog.ofRows typeRows tableTypeRows).1 rules columnRows keyRows).1
        catalog
        scripts := (mergeScripts generated userScripts).1
        warnings := (TypeCatalog.ofRows typeRows tableTypeRows).2 ++
          (Table.allOfRows (TypeCatalog.ofRows typeRows tableTypeRows).1 rules columnRows
            keyRows).2 ++
          (mergeScripts generated userScripts).2 }

theorem yields_lay (connection : Nat) (rules : RuleSet) (userScripts : List Script) :
    (lay connection rules userScripts : Session σ Groundwork).Yields
      (IsLaid rules userScripts) := by
  have htypes : (Catalog.loadTypes connection : Session σ _).Yields fun t =>
      ∃ typeRows tableTypeRows, t = TypeCatalog.ofRows typeRows tableTypeRows :=
    Session.yields_bind fun typeRows => Session.yields_bind fun tableTypeRows =>
      Session.yields_pure ⟨typeRows, tableTypeRows, rfl⟩
  have htables (types : TypeCatalog) :
      (Catalog.loadTables connection types rules : Session σ _).Yields fun t =>
        ∃ columnRows keyRows, t = Table.allOfRows types rules columnRows keyRows :=
    Session.yields_bind fun columnRows => Session.yields_bind fun keyRows =>
      Session.yields_pure ⟨columnRows, keyRows, rfl⟩
  have hprocedures (types : TypeCatalog) :
      (Catalog.loadProcedures connection types rules : Session σ _).Yields fun catalog =>
        ∃ procedureRows parameterRows,
          ProcedureCatalog.ofRows types rules procedureRows parameterRows = .ok catalog :=
    Session.yields_bind fun procedureRows => Session.yields_bind fun parameterRows =>
      (Session.yields_ofExcept _).mono fun _ h => ⟨procedureRows, parameterRows, h⟩
  refine htypes.bind ?_
  rintro _ ⟨typeRows, tableTypeRows, rfl⟩
  refine (htables _).bind ?_
  rintro _ ⟨columnRows, keyRows, rfl⟩
  refine (hprocedures _).bind ?_
  rintro catalog ⟨procedureRows, parameterRows, hcatalog⟩
  refine (Session.yields_ofExcept _).bind fun generated hgenerated => ?_
  exact Session.yields_pure
    (.ofRows typeRows tableTypeRows columnRows keyRows procedureRows parameterRows hcatalog
      hgenerated)

theorem isLaid_of_lay {connection : Nat} {rules : RuleSet} {userScripts : List Script}
    {w : World σ} {g : Groundwork} (h : ((lay connection rules userScripts).outcome w).1 = .ok g) :
    g.IsLaid rules userScripts :=
  yields_lay connection rules userScripts w g h

theorem exists_loads_of_lay {connection : Nat} {rules : RuleSet} {userScripts : List Script}
    {w : World σ} {g : Groundwork} (h : ((lay connection rules userScripts).outcome w).1 = .ok g) :
    ∃ typeWarnings v tableWarnings v',
      (Catalog.loadTypes connection).outcome w = (.ok (g.types, typeWarnings), v) ∧
        (Catalog.loadTables connection g.types rules).outcome v =
          (.ok (g.tables, tableWarnings), v') := by
  obtain ⟨⟨types, typeWarnings⟩, v, htypes, h⟩ := Session.exists_of_outcome_bind_eq_ok h
  obtain ⟨⟨tables, tableWarnings⟩, v', htables, h⟩ := Session.exists_of_outcome_bind_eq_ok h
  obtain ⟨catalog, _, -, h⟩ := Session.exists_of_outcome_bind_eq_ok h
  obtain ⟨generated, -, h⟩ := Session.exists_of_outcome_ofExcept_bind_eq_ok h
  obtain rfl := Except.ok.inj h
  exact ⟨typeWarnings, v, tableWarnings, v', htypes, htables⟩

end Assembly.Groundwork

namespace ProcedureCatalog

variable {types : TypeCatalog}

theorem exists_of_procedureOfRow {own : List Row} {r : Row} {p : Procedure}
    (h : procedureOfRow types own r = .ok p) :
    p.name = nameOfRow r ∧ p.tempTables = [] ∧
      own.mapM (Parameter.ofRow types (nameOfRow r)) = .ok p.parameters := by
  unfold procedureOfRow at h
  dsimp only at h
  split at h
  · cases h
  · obtain ⟨parameters, hparameters, rfl⟩ := map_eq_ok.1 h
    exact ⟨rfl, rfl, hparameters⟩

/-- Every procedure of a catalog comes from a row, and from some of the rows about parameters. -/
theorem forall₂_of_ofRows {rules : RuleSet} {procedureRows parameterRows : List Row}
    {catalog : ProcedureCatalog}
    (h : ofRows types rules procedureRows parameterRows = .ok catalog) :
    List.Forall₂ (fun r p => ∃ own, procedureOfRow types own r = .ok p)
      (procedureRows.filter fun r => rules.includesProcedure (nameOfRow r)) catalog.procedures := by
  obtain ⟨procedures, hprocedures, rfl⟩ := map_eq_ok.1 h
  clear h
  dsimp only
  generalize procedureRows.filter _ = rows at hprocedures ⊢
  induction rows generalizing parameterRows procedures with
  | nil =>
      obtain rfl := Except.ok.inj hprocedures
      exact .nil
  | cons r rest ih =>
      obtain ⟨p, hp, hrest⟩ := bind_eq_ok.1 hprocedures
      obtain ⟨others, hothers, rfl⟩ := map_eq_ok.1 hrest
      exact .cons ⟨_, hp⟩ (ih others hothers)

end ProcedureCatalog

end QueryShape
