namespace QueryShape

/-- Values under text keys, in the order of the keys. -/
structure KeyMap (α : Type) where
  entries : List (String × α)
  increasing : entries.Pairwise fun a b => a.1 < b.1

namespace KeyMap

variable {α : Type}

instance [DecidableEq α] : DecidableEq (KeyMap α) := fun a b =>
  if h : a.entries = b.entries then
    isTrue (by cases a; cases b; cases h; rfl)
  else
    isFalse fun e => h (e ▸ rfl)

def empty : KeyMap α := ⟨[], .nil⟩

instance : Inhabited (KeyMap α) := ⟨empty⟩

/-- Puts `f` of the value under the key, or of none, in its place. -/
def updateEntries (k : String) (f : Option α → α) : List (String × α) → List (String × α)
  | [] => [(k, f none)]
  | (j, v) :: rest =>
      if k < j then (k, f none) :: (j, v) :: rest
      else if k = j then (k, f (some v)) :: rest
      else (j, v) :: updateEntries k f rest

theorem key_of_mem_updateEntries {k : String} {f : Option α → α} {es : List (String × α)}
    {e : String × α} (h : e ∈ updateEntries k f es) : e.1 = k ∨ e ∈ es := by
  induction es with
  | nil =>
      left
      simp only [updateEntries, List.mem_singleton] at h
      rw [h]
  | cons head rest ih =>
      obtain ⟨j, v⟩ := head
      simp only [updateEntries] at h
      split at h
      · rcases List.mem_cons.1 h with rfl | h
        · exact .inl rfl
        · exact .inr h
      split at h
      · rcases List.mem_cons.1 h with rfl | h
        · exact .inl rfl
        · exact .inr (List.mem_cons_of_mem _ h)
      · rcases List.mem_cons.1 h with rfl | h
        · exact .inr List.mem_cons_self
        · exact (ih h).imp_right (List.mem_cons_of_mem _)

theorem pairwise_updateEntries {k : String} {f : Option α → α} {es : List (String × α)}
    (h : es.Pairwise fun a b => a.1 < b.1) :
    (updateEntries k f es).Pairwise fun a b => a.1 < b.1 := by
  induction es with
  | nil => exact List.pairwise_singleton _ _
  | cons head rest ih =>
      obtain ⟨j, v⟩ := head
      obtain ⟨hhead, hrest⟩ := List.pairwise_cons.1 h
      simp only [updateEntries]
      split
      · rename_i hlt
        refine List.pairwise_cons.2 ⟨fun e he => ?_, h⟩
        rcases List.mem_cons.1 he with rfl | he
        · exact hlt
        · exact String.lt_trans hlt (hhead e he)
      split
      · rename_i heq
        subst heq
        exact List.pairwise_cons.2 ⟨hhead, hrest⟩
      · rename_i hlt hne
        refine List.pairwise_cons.2 ⟨fun e he => ?_, ih hrest⟩
        rcases key_of_mem_updateEntries he with hk | he
        · rw [hk]
          rcases String.le_total j k with hle | hle
          · exact Decidable.byContradiction fun hn =>
              hne (String.le_antisymm (String.not_lt.1 hn) hle)
          · exact absurd (String.le_antisymm hle (String.not_lt.1 hlt)) hne
        · exact hhead e he

/-- Changes what is kept under a key. -/
def update (m : KeyMap α) (k : String) (f : Option α → α) : KeyMap α :=
  ⟨updateEntries k f m.entries, pairwise_updateEntries m.increasing⟩

def insert (m : KeyMap α) (k : String) (v : α) : KeyMap α :=
  m.update k fun _ => v

def get? (m : KeyMap α) (k : String) : Option α :=
  m.entries.lookup k

def contains (m : KeyMap α) (k : String) : Bool :=
  (m.get? k).isSome

def keys (m : KeyMap α) : List String :=
  m.entries.map (·.1)

/-- A later entry replaces an earlier one with its key. -/
def ofList (es : List (String × α)) : KeyMap α :=
  es.foldl (fun m e => m.insert e.1 e.2) empty

theorem lookup_entry (j i : String) (v : α) (es : List (String × α)) :
    ((i, v) :: es).lookup j = if j = i then some v else es.lookup j := by
  rw [List.lookup_cons]
  split
  · rename_i heq
    rw [if_pos (eq_of_beq heq)]
  · rename_i hne
    rw [if_neg (beq_eq_false_iff_ne.1 hne)]

theorem lookup_eq_none {k : String} {es : List (String × α)} (h : ∀ e ∈ es, k < e.1) :
    es.lookup k = none := by
  induction es with
  | nil => rfl
  | cons head rest ih =>
      obtain ⟨i, v⟩ := head
      rw [lookup_entry, if_neg (String.ne_of_lt (h (i, v) List.mem_cons_self))]
      exact ih fun e he => h e (List.mem_cons_of_mem _ he)

theorem lookup_updateEntries {k : String} {f : Option α → α} {es : List (String × α)}
    (h : es.Pairwise fun a b => a.1 < b.1) (j : String) :
    (updateEntries k f es).lookup j = if j = k then some (f (es.lookup k)) else es.lookup j := by
  induction es with
  | nil => exact lookup_entry j k (f none) []
  | cons head rest ih =>
      obtain ⟨i, v⟩ := head
      obtain ⟨hhead, hrest⟩ := List.pairwise_cons.1 h
      simp only [updateEntries]
      split
      · rename_i hlt
        have hnone : ((i, v) :: rest).lookup k = none := by
          refine lookup_eq_none fun e he => ?_
          rcases List.mem_cons.1 he with rfl | he
          · exact hlt
          · exact String.lt_trans hlt (hhead e he)
        rw [lookup_entry, hnone]
      split
      · rename_i heq
        subst heq
        simp only [lookup_entry, if_true]
        split <;> rfl
      · rename_i hne
        rw [lookup_entry, ih hrest, lookup_entry, lookup_entry, if_neg hne]
        by_cases hj : j = i
        · rw [if_pos hj, if_pos hj, if_neg fun hk => hne (hk.symm.trans hj)]
        · rw [if_neg hj, if_neg hj]

theorem get?_update (m : KeyMap α) (k : String) (f : Option α → α) (j : String) :
    (m.update k f).get? j = if j = k then some (f (m.get? k)) else m.get? j :=
  lookup_updateEntries m.increasing j

theorem get?_insert (m : KeyMap α) (k : String) (v : α) (j : String) :
    (m.insert k v).get? j = if j = k then some v else m.get? j :=
  get?_update m k _ j

end KeyMap

end QueryShape
