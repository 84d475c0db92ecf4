import QueryShape.Distinct
import QueryShape.Script.Synthesis

namespace QueryShape

open QueryShape.Text

/-- No two columns have one name, up to case. -/
def HaveDistinctNames (cs : List Column) : Prop :=
  cs.Pairwise fun c d => sameIgnoringCase c.name d.name = false

instance (cs : List Column) : Decidable (HaveDistinctNames cs) :=
  inferInstanceAs (Decidable (cs.Pairwise _))

theorem sameIgnoringCase_self (s : String) : sameIgnoringCase s s = true :=
  sameIgnoringCase_iff.2 rfl

theorem sameIgnoringCase_comm (a b : String) : sameIgnoringCase a b = sameIgnoringCase b a :=
  Bool.eq_iff_iff.2 (by rw [sameIgnoringCase_iff, sameIgnoringCase_iff, eq_comm])

theorem sameIgnoringCase_eq_false_iff {a b : String} :
    sameIgnoringCase a b = false ↔ folded a ≠ folded b := by
  rw [← Bool.not_eq_true, sameIgnoringCase_iff]

theorem findColumn?_eq_some {cs : List Column} {name : String} {c : Column}
    (h : findColumn? cs name = some c) : c ∈ cs ∧ sameIgnoringCase c.name name = true := by
  unfold findColumn? at h
  exact ⟨List.mem_of_find?_eq_some h, by simpa using List.find?_some h⟩

namespace HaveDistinctNames

variable {cs : List Column}

theorem folded_ne (h : HaveDistinctNames cs) :
    cs.Pairwise fun c d => folded c.name ≠ folded d.name :=
  h.imp sameIgnoringCase_eq_false_iff.1

theorem eq_of_sameName (h : HaveDistinctNames cs) {c d : Column} (hc : c ∈ cs) (hd : d ∈ cs)
    (hname : sameIgnoringCase c.name d.name = true) : c = d :=
  eq_of_key_eq_of_pairwise h.folded_ne hc hd (sameIgnoringCase_iff.1 hname)

theorem findColumn?_eq (h : HaveDistinctNames cs) {c : Column} {name : String} (hc : c ∈ cs)
    (hname : sameIgnoringCase c.name name = true) : findColumn? cs name = some c := by
  unfold findColumn? sameIgnoringCase
  rw [← sameIgnoringCase_iff.1 hname]
  exact find?_eq_some_of_pairwise h.folded_ne hc

theorem sublist {ds : List Column} (h : HaveDistinctNames cs) (hsub : ds.Sublist cs) :
    HaveDistinctNames ds :=
  List.Pairwise.sublist hsub h

theorem perm {ds : List Column} (h : HaveDistinctNames cs) (hperm : ds.Perm cs) :
    HaveDistinctNames ds := by
  refine hperm.symm.pairwise h ?_
  intro c d hcd
  rwa [sameIgnoringCase_comm]

theorem nodup (h : HaveDistinctNames cs) : cs.Nodup := by
  refine h.imp ?_
  rintro c _ hne rfl
  rw [sameIgnoringCase_self] at hne
  cases hne

end HaveDistinctNames

namespace ColumnPlan

theorem inTableOrder_eq {table : Table} {cs : List Column} (h : HaveDistinctNames table.columns)
    (hcs : ∀ c ∈ cs, c ∈ table.columns) :
    inTableOrder table cs = table.columns.filter fun c => c ∈ cs := by
  apply List.filter_congr
  intro c hc
  rw [Bool.eq_iff_iff, List.any_eq_true, decide_eq_true_eq]
  constructor
  · rintro ⟨d, hd, hname⟩
    have hsame : sameIgnoringCase d.name c.name = true := by
      rw [eq_of_beq hname, sameIgnoringCase_self]
    rwa [← h.eq_of_sameName (hcs d hd) hc hsame]
  · intro hmem
    exact ⟨c, hmem, beq_self_eq_true _⟩

end ColumnPlan

end QueryShape
