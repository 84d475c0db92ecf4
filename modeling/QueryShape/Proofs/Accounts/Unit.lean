import QueryShape.Proofs.Accounts.Warnings
import QueryShape.Proofs.ColumnNames

namespace QueryShape

open QueryShape.Text
open QueryShape.Warning

variable {σ : Type}

-- A name that starts with a closing bracket starts with two of them in brackets.
theorem head?_eq_of_doubled {b : Char} {bs xs ys : List Char}
    (h : ']' :: xs = Identifier.doubled ']' (b :: bs) ++ ys) : xs.head? = some ']' := by
  rw [Identifier.doubled_cons] at h
  split at h
  · rename_i hb
    rw [(List.cons.inj h).2, hb]
    rfl
  · rename_i hb
    exact absurd (List.cons.inj h).1.symm hb

theorem eq_of_doubled_append {as bs xs ys : List Char} (hxs : xs.head? ≠ some ']')
    (hys : ys.head? ≠ some ']')
    (h : Identifier.doubled ']' as ++ ']' :: xs = Identifier.doubled ']' bs ++ ']' :: ys) :
    as = bs ∧ xs = ys := by
  induction as generalizing bs with
  | nil =>
      cases bs with
      | nil => exact ⟨rfl, (List.cons.inj h).2⟩
      | cons b bs => exact absurd (head?_eq_of_doubled h) hxs
  | cons a as ih =>
      cases bs with
      | nil => exact absurd (head?_eq_of_doubled h.symm) hys
      | cons b bs =>
          have hab : a = b := by
            rw [Identifier.doubled_cons, Identifier.doubled_cons] at h
            split at h <;> split at h <;> exact (List.cons.inj h).1
          rw [Identifier.doubled_cons, Identifier.doubled_cons, hab, List.append_assoc,
            List.append_assoc] at h
          obtain ⟨rfl, hrest⟩ := ih (List.append_cancel_left h)
          exact ⟨by rw [hab], hrest⟩

theorem QualifiedName.full_injective : Function.Injective QualifiedName.full := by
  rintro ⟨schema, name⟩ ⟨schema', name'⟩ h
  have hdot : ".".toList = ['.'] := by decide
  have hchars := congrArg String.toList h
  simp only [full, Identifier.quote, String.toList_append, String.toList_ofList, hdot,
    List.cons_append, List.append_assoc, List.nil_append, List.cons.injEq, true_and] at hchars
  obtain ⟨hschema, hrest⟩ := eq_of_doubled_append (by simp) (by simp) hchars
  simp only [List.cons.injEq, true_and] at hrest
  obtain ⟨hname, -⟩ : name.toList = name'.toList ∧ ([] : List Char) = [] :=
    eq_of_doubled_append (by simp) (by simp) hrest
  rw [String.toList_inj.1 hschema, String.toList_inj.1 hname]

/-- What the warnings about a unit call it. -/
def UnitKey.fullLabel : UnitKey → String
  | procedure name => "procedure " ++ name.full
  | script identity => "script '" ++ identity ++ "'"

theorem UnitKey.fullLabel_injective : Function.Injective UnitKey.fullLabel := by
  have hkinds (name : QualifiedName) (identity : String) :
      (UnitKey.procedure name).fullLabel ≠ (UnitKey.script identity).fullLabel := by
    intro h
    have hfirst := congrArg (fun label => label.toList.head?) h
    simp [fullLabel] at hfirst
  rintro (name | identity) (name' | identity') h
  · have hfull : name.full = name'.full := (String.append_right_inj _).1 h
    rw [QualifiedName.full_injective hfull]
  · exact absurd h (hkinds name identity')
  · exact absurd h.symm (hkinds name' identity)
  · have hquoted : "script '" ++ identity = "script '" ++ identity' :=
      (String.append_left_inj _).1 h
    have hidentity : identity = identity' := (String.append_right_inj _).1 hquoted
    rw [hidentity]

namespace ModelUnit

theorem label_eq (u : ModelUnit) : u.label = u.key.fullLabel := by
  unfold label executable ExecutableUnit.label key UnitKey.fullLabel
  cases u <;> rfl

def resultSet : ModelUnit → ResultSet
  | procedure p => p.resultSet
  | script s => s.resultSet

/-- A unit that code can be generated for. -/
structure IsRepresentable (u : ModelUnit) : Prop where
  outputs : ∀ s, u = .script s → ∀ p ∈ s.parameters, p.isOutput = false
  cursors : ∀ p ∈ u.parameters, p.isCursor = false
  distinct : ∀ cs, u.resultSet = some cs → HaveDistinctNames cs
  named : ∀ cs, u.resultSet = some cs → 1 < cs.length → ∀ c ∈ cs, c.name ≠ ""

theorem repeatedColumn?_eq_none {seen cs : List Column} (h : repeatedColumn? seen cs = none) :
    (∀ d ∈ seen, ∀ c ∈ cs, sameIgnoringCase d.name c.name = false) ∧ HaveDistinctNames cs := by
  induction cs generalizing seen with
  | nil => exact ⟨fun _ _ => List.forall_mem_nil _, .nil⟩
  | cons c rest ih =>
      unfold repeatedColumn? at h
      split at h
      · cases h
      · rename_i hnew
        have hfirst : ∀ d ∈ seen, sameIgnoringCase d.name c.name = false := by
          simpa using hnew
        obtain ⟨hseen, hrest⟩ := ih h
        obtain ⟨hseen, hc⟩ := List.forall_mem_append.1 hseen
        refine ⟨fun d hd => List.forall_mem_cons.2 ⟨hfirst d hd, hseen d hd⟩, ?_⟩
        exact List.pairwise_cons.2 ⟨hc c (List.mem_singleton_self c), hrest⟩

theorem columnObstacle?_eq_none {cs : List Column} (h : columnObstacle? cs = none) :
    HaveDistinctNames cs ∧ (1 < cs.length → ∀ c ∈ cs, c.name ≠ "") := by
  unfold columnObstacle? at h
  split at h
  · cases h
  · rename_i hnamed
    refine ⟨(repeatedColumn?_eq_none (Option.map_eq_none_iff.1 h)).2, fun hlength c hc hempty => ?_⟩
    refine hnamed ⟨hlength, List.any_eq_true.2 ⟨c, hc, ?_⟩⟩
    rw [hempty]
    rfl

theorem parameterObstacle?_eq_none {u : ModelUnit} (h : u.parameterObstacle? = none) :
    (∀ s, u = .script s → ∀ p ∈ s.parameters, p.isOutput = false) ∧
      ∀ p ∈ u.parameters, p.isCursor = false := by
  unfold parameterObstacle? at h
  split at h
  · cases h
  · cases h
  · rename_i houtputs hcursors
    constructor
    · rintro s rfl p hp
      have hnone : s.parameters.filter Parameter.isOutput = [] := List.head?_eq_none_iff.1 houtputs
      simpa using List.filter_eq_nil_iff.1 hnone p hp
    · intro p hp
      simpa using List.find?_eq_none.1 hcursors p hp

/-- How the outcome of a unit accounts for it. -/
inductive AccountedBy (u : ModelUnit) (o : UnitOutcome) : Prop
  | kept (v : ModelUnit) (hunit : o.unit? = some v) (hkey : v.key = u.key)
      (hrepresentable : v.IsRepresentable) (hwarnings : KeepUnits o.warnings)
  | dropped (reason : String) (hunit : o.unit? = none)
      (hwarnings : o.warnings.filter ignoresUnit = [u.ignored reason])

theorem key_withTempTables (u : ModelUnit) (ts : List TempTable) :
    (u.withTempTables ts).key = u.key := by
  cases u <;> rfl

theorem key_withParameters (u : ModelUnit) (ps : List Parameter) :
    (u.withParameters ps).key = u.key := by
  cases u <;> rfl

theorem parameterObstacle?_withTempTables (u : ModelUnit) (ts : List TempTable) :
    (u.withTempTables ts).parameterObstacle? = u.parameterObstacle? := by
  cases u <;> rfl

theorem key_withResultSet (u : ModelUnit) (columns : ResultSet) (names : List String) :
    (u.withResultSet columns names).key = u.key := by
  cases u <;> rfl

@[simp] theorem parameters_withTempTables (u : ModelUnit) (ts : List TempTable) :
    (u.withTempTables ts).parameters = u.parameters := by
  cases u <;> rfl

@[simp] theorem parameters_withParameters (u : ModelUnit) (ps : List Parameter) :
    (u.withParameters ps).parameters = ps := by
  cases u <;> rfl

@[simp] theorem parameters_withResultSet (u : ModelUnit) (columns : ResultSet)
    (names : List String) : (u.withResultSet columns names).parameters = u.parameters := by
  cases u <;> rfl

theorem isRepresentable_withResultSet {u : ModelUnit} {columns : ResultSet} {names : List String}
    (hparameters : u.parameterObstacle? = none)
    (hcolumns : columns.bind columnObstacle? = none) :
    (u.withResultSet columns names).IsRepresentable := by
  obtain ⟨houtputs, hcursors⟩ := parameterObstacle?_eq_none hparameters
  have hshape : ∀ cs, (u.withResultSet columns names).resultSet = some cs →
      columnObstacle? cs = none := by
    intro cs hcs
    have hset : columns = some cs := by
      cases u <;> exact hcs
    rwa [hset, Option.bind_some] at hcolumns
  constructor
  · intro s hs p hp
    cases u with
    | procedure q => cases hs
    | script t =>
        cases hs
        exact houtputs t rfl p hp
  · cases u <;> exact hcursors
  · exact fun cs hcs => (columnObstacle?_eq_none (hshape cs hcs)).1
  · exact fun cs hcs => (columnObstacle?_eq_none (hshape cs hcs)).2

theorem accountedBy_ignored {u v : ModelUnit} {facts : UnitFacts} {ws : List Warning}
    (hkey : v.key = u.key) (hws : KeepUnits ws) (reason : String) :
    u.AccountedBy ⟨none, facts, ws ++ [v.ignored reason]⟩ := by
  refine .dropped reason rfl ?_
  have hignored : v.ignored reason = u.ignored reason := by
    rw [ignored, ignored, label_eq, label_eq, hkey]
  rw [List.filter_append, hws.filter_eq_nil, List.nil_append, hignored]
  exact List.filter_cons_of_pos ignoresUnit_append

theorem yields_inferColumns {u v : ModelUnit} {ctx : InferenceContext} {rule : EffectiveRule}
    {ws : List Warning} (connection : Nat) (hkey : v.key = u.key) (hws : KeepUnits ws)
    (h : v.parameterObstacle? = none) :
    (v.inferColumns connection ctx rule ws : Session σ UnitOutcome).Yields u.AccountedBy := by
  refine Session.yields_bind fun ts => Session.yields_bind fun shape => ?_
  have hkey' : (v.withTempTables ts).key = u.key := (key_withTempTables v ts).trans hkey
  dsimp only
  split
  · exact Session.yields_pure (accountedBy_ignored hkey' hws _)
  · rename_i hcolumns
    refine Session.yields_pure (.kept _ rfl ?_ (isRepresentable_withResultSet ?_ hcolumns) hws)
    · rw [key_withResultSet, hkey']
    · rw [parameterObstacle?_withTempTables, h]

theorem yields_infer (connection : Nat) (ctx : InferenceContext) (rules : RuleSet) (ordinal : Nat)
    (u : ModelUnit) :
    (u.infer connection ctx rules ordinal : Session σ UnitOutcome).Yields u.AccountedBy := by
  refine (Session.yields_ofExcept _).bind fun v hv => ?_
  have hkey : v.key = u.key := by
    obtain ⟨ts, -, rfl⟩ := map_eq_ok.1 hv
    exact key_withTempTables u ts
  refine (Inference.yields_inferParameters _ _ _ _).bind fun found hfound => ?_
  have hkey' : (v.withParameters found.parameters).key = u.key :=
    (key_withParameters v _).trans hkey
  dsimp only
  split
  · exact Session.yields_pure (accountedBy_ignored hkey' hfound _)
  · rename_i hparameters
    exact yields_inferColumns connection hkey' hfound hparameters

end ModelUnit

end QueryShape
