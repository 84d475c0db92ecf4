import Mathlib.Data.List.Count
import Mathlib.Data.List.Perm.Basic
import Mathlib.Data.String.Basic
import QueryShape.Proofs.Accounts.Unit
import QueryShape.Proofs.Steady.Run

namespace QueryShape

open QueryShape.Warning

variable {σ α β : Type}

namespace Assembly

theorem forall₂_byOrdinal {R : α × Nat → β → Prop} {items : List α} {order : List (α × Nat)}
    {found : List (Nat × β)} (horder : order.Perm items.zipIdx)
    (hfound : List.Forall₂ (fun item result => result.1 = item.2 ∧ R item result.2) order found) :
    List.Forall₂ R items.zipIdx (byOrdinal found) := by
  obtain ⟨sorted, hsorted, hperm⟩ := List.perm_comp_forall₂ horder.symm hfound
  have hnumbers : sorted.map Prod.fst = items.zipIdx.map Prod.snd := by
    rw [← List.forall₂_eq_eq_eq, List.forall₂_map_left_iff, List.forall₂_map_right_iff]
    exact (hsorted.imp fun _ _ h => h.1).flip
  have hpairwise : sorted.Pairwise fun a b => a.1 < b.1 := by
    rw [← List.pairwise_map (f := Prod.fst) (R := (· < ·)), hnumbers]
    exact List.pairwise_map.2 (pairwise_zipIdx items)
  rw [byOrdinal_of_perm hperm.symm hpairwise, List.forall₂_map_right_iff]
  exact hsorted.imp fun _ _ h => h.2

theorem forall₂_of_mapM_id {ε : Type} {R : α → Except ε β → Prop} {S : α → β → Prop}
    (hRS : ∀ a b, R a (.ok b) → S a b) {items : List α} {results : List (Except ε β)} {bs : List β}
    (hitems : List.Forall₂ R items results) (h : results.mapM id = .ok bs) :
    List.Forall₂ S items bs := by
  induction hitems generalizing bs with
  | nil =>
      obtain rfl := Except.ok.inj h
      exact .nil
  | cons hfirst _ ih =>
      obtain ⟨b, rest, hb, hrest, rfl⟩ := mapM_cons_eq_ok.1 h
      obtain rfl : _ = Except.ok b := hb
      exact .cons (hRS _ _ hfirst) (ih hrest)

variable {ctx : InferenceContext} {rules : RuleSet}

theorem yields_inferUnits_of {R : ModelUnit → UnitOutcome → Prop}
    (hinfer : ∀ connection ordinal u,
      (u.infer connection ctx rules ordinal : Session σ UnitOutcome).Yields (R u))
    (schedule : Schedule) (connection : Nat) (parallelism : Nat) (units : List ModelUnit) :
    (inferUnits schedule connection ctx rules parallelism units : Session σ _).Yields
      (List.Forall₂ R units) := by
  have hunits {outcomes : List UnitOutcome}
      (h : List.Forall₂ (fun item o => R item.1 o) units.zipIdx outcomes) :
      List.Forall₂ R units outcomes := by
    rwa [← List.forall₂_map_left_iff (f := Prod.fst), List.zipIdx_map_fst] at h
  unfold inferUnits
  split
  · refine Session.yields_bind fun workers => ?_
    have heach : (inferEach schedule workers ctx rules units : Dialogue σ _).Yields
        (List.Forall₂ (fun item r => ∀ o, r = .ok o → R item.1 o) units.zipIdx) := by
      refine Dialogue.Yields.bind (Dialogue.sequenced_yields.mapM (R := fun item result =>
        result.1 = item.2 ∧ ∀ o, result.2 = .ok o → R item.1 o) ?_) ?_
      · rintro ⟨u, ordinal⟩ -
        refine Dialogue.Yields.bind (hinfer _ ordinal u) fun r hr => ?_
        exact Dialogue.yields_pure ⟨rfl, hr⟩
      · intro found hfound
        exact Dialogue.yields_pure (forall₂_byOrdinal (schedule.order_perm _) hfound)
    refine (Session.yields_lift heach).bind fun results hresults => ?_
    refine Dialogue.yields_pure fun outcomes houtcomes => hunits ?_
    exact forall₂_of_mapM_id (fun _ o ho => ho o rfl) hresults houtcomes
  · refine Session.Yields.mono (Session.sequenced_yields.mapM (R := fun item o => R item.1 o) ?_)
      fun outcomes h => hunits h
    rintro ⟨u, ordinal⟩ -
    exact hinfer connection ordinal u

/-- A run that ends in a model makes it of its groundwork and of an outcome for each unit, of which
holds what holds of the outcomes of every unit. -/
theorem exists_outcomes_of_assembleBy {schedule : Schedule} {connection : Nat} {canConnect : Bool}
    {userScripts : List Script} {options : RunOptions} {w : World σ} {m : Model}
    (h : ((assembleBy schedule connection canConnect rules userScripts options).outcome w).1 =
      .ok m) :
    ∃ (g : Groundwork) (outcomes : List UnitOutcome),
      ((Groundwork.lay connection rules userScripts).outcome w).1 = .ok g ∧
      m = g.model rules outcomes ∧
      ∀ R : ModelUnit → UnitOutcome → Prop,
        (∀ connection ordinal u, (u.infer connection ⟨g.types, options.token, canConnect⟩ rules
          ordinal : Session σ UnitOutcome).Yields (R u)) →
        List.Forall₂ R g.units outcomes := by
  obtain ⟨g, v, hlay, h⟩ := Session.exists_of_outcome_bind_eq_ok h
  obtain ⟨outcomes, v', houtcomes, h⟩ := Session.exists_of_outcome_bind_eq_ok h
  refine ⟨g, outcomes, congrArg Prod.fst hlay, (Except.ok.inj h).symm, fun R hinfer => ?_⟩
  have hunits := yields_inferUnits_of hinfer schedule connection options.parallelism g.units
  exact hunits v outcomes (congrArg Prod.fst houtcomes)

theorem yields_inferUnits (schedule : Schedule) (connection : Nat) (parallelism : Nat)
    (units : List ModelUnit) :
    (inferUnits schedule connection ctx rules parallelism units : Session σ _).Yields
      (List.Forall₂ ModelUnit.AccountedBy units) :=
  yields_inferUnits_of (fun connection ordinal u => u.yields_infer connection ctx rules ordinal)
    schedule connection parallelism units

theorem exists_dropped {units : List ModelUnit} {outcomes : List UnitOutcome}
    (h : List.Forall₂ ModelUnit.AccountedBy units outcomes) :
    ∃ dropped : List UnitKey,
      (units.map ModelUnit.key).Perm
        ((outcomes.filterMap (·.unit?)).map ModelUnit.key ++ dropped) ∧
      ((outcomes.flatMap (·.warnings)).filter ignoresUnit).map (·.subject) =
        dropped.map UnitKey.fullLabel := by
  induction h with
  | nil => exact ⟨[], .nil, rfl⟩
  | @cons u o _ _ hfirst _ ih =>
      obtain ⟨dropped, hperm, hdropped⟩ := ih
      cases hfirst with
      | kept v hunit hkey _ hwarnings =>
          refine ⟨dropped, ?_, ?_⟩
          · rw [List.filterMap_cons_some hunit, List.map_cons, List.map_cons, hkey]
            exact hperm.cons u.key
          · rw [List.flatMap_cons, List.filter_append, hwarnings.filter_eq_nil, List.nil_append,
              hdropped]
      | dropped reason hunit hwarnings =>
          refine ⟨u.key :: dropped, ?_, ?_⟩
          · rw [List.filterMap_cons_none hunit, List.map_cons]
            exact (hperm.cons u.key).trans List.perm_middle.symm
          · have hsubject : (u.ignored reason).subject = u.key.fullLabel := u.label_eq
            rw [List.flatMap_cons, List.filter_append, hwarnings, List.map_append, hdropped,
              List.map_cons, hsubject]
            rfl

theorem isRepresentable_of_mem {units : List ModelUnit} {outcomes : List UnitOutcome}
    (h : List.Forall₂ ModelUnit.AccountedBy units outcomes) :
    ∀ v ∈ outcomes.filterMap (·.unit?), v.IsRepresentable := by
  intro v hv
  obtain ⟨o, ho, hunit⟩ := List.mem_filterMap.1 hv
  obtain ⟨u, -, haccounted⟩ := exists_of_mem_forall₂_right h o ho
  cases haccounted with
  | kept _ hkept _ hrepresentable _ =>
      rw [hkept] at hunit
      rwa [← Option.some.inj hunit]
  | dropped _ hnone _ =>
      rw [hnone] at hunit
      cases hunit

end Assembly

namespace ProcedureCatalog

variable {types : TypeCatalog} {rows parameterRows : List Row}

theorem map_name_of_ofRows {rules : RuleSet} {catalog : ProcedureCatalog}
    (h : ofRows types rules rows parameterRows = .ok catalog) :
    catalog.procedures.map (·.name) =
      (rows.filter fun r => rules.includesProcedure (nameOfRow r)).map nameOfRow := by
  refine (map_eq_map_of_forall₂ (forall₂_of_ofRows h) ?_).symm
  rintro r p ⟨own, hown⟩
  exact (exists_of_procedureOfRow hown).1.symm

end ProcedureCatalog

def Model.units (m : Model) : List ModelUnit :=
  m.procedures.map .procedure ++ m.scripts.map .script

/-- The order of names: by schema, then by name. -/
def QualifiedName.Le (a b : QualifiedName) : Prop :=
  a.schema < b.schema ∨ a.schema = b.schema ∧ a.name ≤ b.name

theorem QualifiedName.le_iff {a b : QualifiedName} : a.le b = true ↔ a.Le b := by
  simp [le, Le]

theorem QualifiedName.Le.refl (a : QualifiedName) : a.Le a :=
  .inr ⟨rfl, le_refl _⟩

theorem QualifiedName.Le.trans {a b c : QualifiedName} (hab : a.Le b) (hbc : b.Le c) : a.Le c := by
  rcases hab with hab | ⟨hab, habName⟩
  · rcases hbc with hbc | ⟨hbc, -⟩
    · exact .inl (lt_trans hab hbc)
    · exact .inl (hbc ▸ hab)
  · rcases hbc with hbc | ⟨hbc, hbcName⟩
    · exact .inl (hab ▸ hbc)
    · exact .inr ⟨hab.trans hbc, le_trans habName hbcName⟩

theorem QualifiedName.Le.total (a b : QualifiedName) : a.Le b ∨ b.Le a := by
  rcases lt_trichotomy a.schema b.schema with hlt | heq | hgt
  · exact .inl (.inl hlt)
  · rcases le_total a.name b.name with hle | hge
    · exact .inl (.inr ⟨heq, hle⟩)
    · exact .inr (.inr ⟨heq.symm, hge⟩)
  · exact .inr (.inl hgt)

theorem QualifiedName.Le.antisymm {a b : QualifiedName} (hab : a.Le b) (hba : b.Le a) : a = b := by
  rcases hab with hab | ⟨hschema, hab⟩
  · rcases hba with hba | ⟨hschema, -⟩
    · exact absurd hba (lt_asymm hab)
    · exact absurd hschema.symm hab.ne
  · rcases hba with hba | ⟨-, hba⟩
    · exact absurd hschema.symm hba.ne
    · exact congrArg₂ QualifiedName.mk hschema (le_antisymm hab hba)

theorem QualifiedName.pairwise_mergeSort (name : α → QualifiedName) (as : List α) :
    (as.mergeSort fun a b => (name a).le (name b)).Pairwise fun a b => (name a).Le (name b) := by
  refine (List.pairwise_mergeSort ?_ ?_ as).imp fun h => le_iff.1 h
  · intro a b c hab hbc
    exact le_iff.2 ((le_iff.1 hab).trans (le_iff.1 hbc))
  · intro a b
    rw [Bool.or_eq_true, le_iff, le_iff]
    exact Le.total _ _

namespace Assembly

theorem units_perm (us : List ModelUnit) :
    ((proceduresIn us).map ModelUnit.procedure ++ (scriptsIn us).map ModelUnit.script).Perm us := by
  induction us with
  | nil => exact .nil
  | cons u rest ih =>
      cases u with
      | procedure p => exact ih.cons _
      | script s => exact List.perm_middle.trans (ih.cons _)

theorem units_modelOf_perm (tables : List Table) (us : List ModelUnit) (ws : List Warning) :
    (modelOf tables us ws).units.Perm us := by
  refine List.Perm.trans ?_ (units_perm us)
  exact ((List.mergeSort_perm _ _).map _).append ((List.mergeSort_perm _ _).map _)

/-- The accounts of a run that ends in a model: each procedure and script goes into the model or has
a warning that it is ignored. -/
structure Accounts (g : Groundwork) (m : Model) : Prop where
  units : ∃ dropped : List UnitKey,
    (g.units.map ModelUnit.key).Perm (m.units.map ModelUnit.key ++ dropped) ∧
      (m.warnings.filter ignoresUnit).map (·.subject) = dropped.map UnitKey.fullLabel
  representable : ∀ u ∈ m.units, u.IsRepresentable
  tables : m.tables.Pairwise fun a b => a.name.Le b.name
  procedures : m.procedures.Pairwise fun a b => a.name.Le b.name
  scripts : m.scripts.Pairwise fun a b => a.identity ≤ b.identity

theorem Groundwork.IsLaid.keepUnits {rules : RuleSet} {userScripts : List Script} {g : Groundwork}
    (h : g.IsLaid rules userScripts) : KeepUnits g.warnings := by
  cases h with
  | ofRows typeRows tableTypeRows columnRows keyRows _ _ _ _ =>
      exact ((TypeCatalog.keepUnits_ofRows _ _).append (Table.keepUnits_allOfRows _ _ _ _)).append
        (keepUnits_mergeScripts _ _)

theorem accounts_model {rules : RuleSet} {userScripts : List Script} {g : Groundwork}
    {outcomes : List UnitOutcome} (hg : g.IsLaid rules userScripts)
    (h : List.Forall₂ ModelUnit.AccountedBy g.units outcomes) :
    Accounts g (g.model rules outcomes) := by
  have hunits : (g.model rules outcomes).units.Perm (outcomes.filterMap (·.unit?)) :=
    units_modelOf_perm _ _ _
  constructor
  · obtain ⟨dropped, hperm, hdropped⟩ := exists_dropped h
    refine ⟨dropped, hperm.trans ((hunits.map _).symm.append_right dropped), ?_⟩
    rw [← hdropped]
    unfold Groundwork.model modelOf
    dsimp only
    rw [List.filter_append, List.filter_append, hg.keepUnits.filter_eq_nil,
      (keepUnits_unusedRules _ _).filter_eq_nil, List.nil_append, List.append_nil]
  · intro u hu
    exact isRepresentable_of_mem h u (hunits.subset hu)
  · exact QualifiedName.pairwise_mergeSort _ _
  · exact QualifiedName.pairwise_mergeSort _ _
  · exact pairwise_le_mergeSort _ _

theorem Accounts.count_eq {g : Groundwork} {m : Model} (h : Accounts g m) (key : UnitKey) :
    (m.units.map ModelUnit.key).count key +
        ((m.warnings.filter ignoresUnit).map (·.subject)).count key.fullLabel =
      (g.units.map ModelUnit.key).count key := by
  obtain ⟨dropped, hperm, hwarnings⟩ := h.units
  rw [hperm.count_eq, List.count_append, hwarnings,
    List.count_map_of_injective _ _ UnitKey.fullLabel_injective]

/-- A server that is asked for types first and at last for the parameters of a script, of which it
finds one that is an output. -/
def outputServer : Server Nat where
  connect _ asked := (.ok (), asked)
  execute _ _ asked := (.ok (), asked)
  query _ _ _ asked :=
    (.ok (match asked with
      | 0 => [⟨[("system_type_id", .int 56), ("name", .text "int")]⟩]
      | 7 => [⟨[("name", .text "@x"), ("suggested_system_type_id", .int 56),
          ("suggested_is_output", .bool true)]⟩]
      | _ => []), asked + 1)
  describe _ _ asked := (.ok [], asked)

/-- A run of two scripts, of which one has an output parameter. -/
def outputRun : Except Failure Model :=
  ((assembleBy .inTurn 0 false (GlobRules.mk []).toRuleSet
    [{ identity := "find", text := "SELECT 1" }, { identity := "fetch", text := "SET @x = 1" }]
    { token := .ofText "tok" }).outcome { server := outputServer, state := 0 }).1

end Assembly

end QueryShape
