namespace QueryShape

variable {α κ : Type}

/-- The first element of each key, in order. -/
def firstOfEach [BEq κ] (key : α → κ) : List α → List α
  | [] => []
  | a :: rest => a :: (firstOfEach key rest).filter fun b => key b != key a

theorem firstOfEach_sublist [BEq κ] (key : α → κ) (as : List α) :
    (firstOfEach key as).Sublist as := by
  induction as with
  | nil => exact .slnil
  | cons a rest ih => exact .cons_cons a (List.filter_sublist.trans ih)

theorem pairwise_firstOfEach [BEq κ] [LawfulBEq κ] (key : α → κ) (as : List α) :
    (firstOfEach key as).Pairwise fun a b => key a ≠ key b := by
  induction as with
  | nil => exact .nil
  | cons a rest ih =>
      refine List.pairwise_cons.2 ⟨fun b hb => ?_, ih.sublist List.filter_sublist⟩
      have hne := (List.mem_filter.1 hb).2
      intro heq
      simp [heq] at hne

theorem mem_map_firstOfEach [BEq κ] [LawfulBEq κ] {key : α → κ} {as : List α} {k : κ} :
    k ∈ (firstOfEach key as).map key ↔ k ∈ as.map key := by
  induction as with
  | nil => exact .rfl
  | cons a rest ih =>
      have hfilter : k ∈ ((firstOfEach key rest).filter fun b => key b != key a).map key ↔
          k ∈ (firstOfEach key rest).map key ∧ k ≠ key a := by
        constructor
        · intro h
          obtain ⟨b, hb, rfl⟩ := List.mem_map.1 h
          obtain ⟨hmem, hne⟩ := List.mem_filter.1 hb
          exact ⟨List.mem_map_of_mem hmem, by simpa using hne⟩
        · rintro ⟨h, hne⟩
          obtain ⟨b, hb, rfl⟩ := List.mem_map.1 h
          exact List.mem_map_of_mem (List.mem_filter.2 ⟨hb, by simpa using hne⟩)
      rw [firstOfEach, List.map_cons, List.map_cons, List.mem_cons, List.mem_cons, hfilter, ih]
      by_cases h : k = key a <;> simp [h]

theorem firstOfEach_eq_self [BEq κ] [LawfulBEq κ] {key : α → κ} {as : List α}
    (h : as.Pairwise fun a b => key a ≠ key b) : firstOfEach key as = as := by
  induction as with
  | nil => rfl
  | cons a rest ih =>
      obtain ⟨hfirst, hrest⟩ := List.pairwise_cons.1 h
      have hothers : (rest.filter fun b => key b != key a) = rest := by
        apply List.filter_eq_self.2
        intro b hb
        exact bne_iff_ne.2 (hfirst b hb).symm
      rw [firstOfEach, ih hrest, hothers]

theorem firstOfEach_map [BEq κ] {β : Type} (key : β → κ) (f : α → β) (as : List α) :
    firstOfEach key (as.map f) = (firstOfEach (fun a => key (f a)) as).map f := by
  induction as with
  | nil => rfl
  | cons a rest ih =>
      rw [List.map_cons, firstOfEach, firstOfEach, ih, List.map_cons, List.filter_map]
      rfl

theorem firstOfEach_append [BEq κ] [LawfulBEq κ] (key : α → κ) (as bs : List α) :
    firstOfEach key (as ++ bs) =
      firstOfEach key as ++
        (firstOfEach key bs).filter fun b => !(as.map key).contains (key b) := by
  induction as with
  | nil => exact (List.filter_eq_self.2 fun b _ => rfl).symm
  | cons a rest ih =>
      rw [List.cons_append, firstOfEach, firstOfEach, ih, List.filter_append, List.filter_filter,
        List.cons_append]
      congr 2
      apply List.filter_congr
      intro b hb
      simp [bne]

theorem find?_eq_some_of_pairwise [BEq κ] [LawfulBEq κ] {key : α → κ} {as : List α} {a : α}
    (h : as.Pairwise fun a b => key a ≠ key b) (ha : a ∈ as) :
    as.find? (fun b => key b == key a) = some a := by
  induction as with
  | nil => cases ha
  | cons b rest ih =>
      obtain ⟨hfirst, hrest⟩ := List.pairwise_cons.1 h
      rcases List.mem_cons.1 ha with rfl | ha
      · exact List.find?_cons_of_pos (beq_self_eq_true _)
      · rw [List.find?_cons_of_neg]
        · exact ih hrest ha
        · intro hkey
          exact hfirst a ha (eq_of_beq hkey)

theorem eq_of_key_eq_of_pairwise [BEq κ] [LawfulBEq κ] {key : α → κ} {as : List α} {a b : α}
    (h : as.Pairwise fun a b => key a ≠ key b) (ha : a ∈ as) (hb : b ∈ as)
    (hkey : key a = key b) : a = b := by
  have hfinda := find?_eq_some_of_pairwise h ha
  have hfindb := find?_eq_some_of_pairwise h hb
  rw [hkey, hfindb] at hfinda
  exact (Option.some.inj hfinda).symm

section Sorted

variable [LE κ] [DecidableLE κ] [Std.IsLinearOrder κ]

theorem decide_le_trans (a b c : κ) (hab : decide (a ≤ b) = true) (hbc : decide (b ≤ c) = true) :
    decide (a ≤ c) = true :=
  decide_eq_true (Std.le_trans (of_decide_eq_true hab) (of_decide_eq_true hbc))

theorem decide_le_total (a b : κ) : (decide (a ≤ b) || decide (b ≤ a)) = true := by
  rw [Bool.or_eq_true, decide_eq_true_eq, decide_eq_true_eq]
  exact Std.le_total

theorem pairwise_le_mergeSort (key : α → κ) (as : List α) :
    (as.mergeSort fun a b => decide (key a ≤ key b)).Pairwise fun a b => key a ≤ key b := by
  refine (List.pairwise_mergeSort ?_ ?_ as).imp of_decide_eq_true
  · exact fun a b c => decide_le_trans (key a) (key b) (key c)
  · exact fun a b => decide_le_total (key a) (key b)

variable [LT κ] [Std.LawfulOrderLT κ] {key : α → κ}

theorem pairwise_lt_mergeSort {as : List α} (h : as.Pairwise fun a b => key a ≠ key b) :
    (as.mergeSort fun a b => decide (key a ≤ key b)).Pairwise fun a b => key a < key b := by
  have hdistinct : (as.mergeSort fun a b => decide (key a ≤ key b)).Pairwise
      fun a b => key a ≠ key b :=
    (List.mergeSort_perm _ _).symm.pairwise h Ne.symm
  exact ((pairwise_le_mergeSort key as).and hdistinct).imp fun hab =>
    Std.lt_of_le_of_ne hab.1 hab.2

/-- What stands in the order of distinct keys is what every order of it is sorted to. -/
theorem mergeSort_eq_of_perm [BEq κ] [LawfulBEq κ] {found sorted : List α}
    (h : found.Perm sorted) (hsorted : sorted.Pairwise fun a b => key a < key b) :
    found.mergeSort (fun a b => decide (key a ≤ key b)) = sorted := by
  have hperm : (found.mergeSort fun a b => decide (key a ≤ key b)).Perm sorted :=
    (List.mergeSort_perm _ _).trans h
  refine hperm.eq_of_pairwise ?_ (pairwise_le_mergeSort key found) (hsorted.imp Std.le_of_lt)
  intro a b ha hb hab hba
  exact eq_of_key_eq_of_pairwise (hsorted.imp Std.ne_of_lt) (hperm.subset ha) hb
    (Std.le_antisymm hab hba)

theorem mergeSort_congr [BEq κ] [LawfulBEq κ] {as bs : List α} (h : as.Perm bs)
    (hdistinct : as.Pairwise fun a b => key a ≠ key b) :
    as.mergeSort (fun a b => decide (key a ≤ key b)) =
      bs.mergeSort fun a b => decide (key a ≤ key b) :=
  mergeSort_eq_of_perm (h.trans (List.mergeSort_perm _ _).symm)
    (pairwise_lt_mergeSort (h.pairwise hdistinct Ne.symm))

end Sorted

/-- The keys that occur in a list, each once and in order. -/
def orderedKeys [BEq κ] (le : κ → κ → Bool) (keys : List κ) : List κ :=
  (firstOfEach id keys).mergeSort le

theorem mem_orderedKeys [BEq κ] [LawfulBEq κ] {le : κ → κ → Bool} {keys : List κ} {k : κ} :
    k ∈ orderedKeys le keys ↔ k ∈ keys := by
  unfold orderedKeys
  rw [(List.mergeSort_perm _ le).mem_iff]
  have h : k ∈ (firstOfEach id keys).map id ↔ k ∈ keys.map id := mem_map_firstOfEach
  rwa [List.map_id, List.map_id] at h

theorem nodup_orderedKeys [BEq κ] [LawfulBEq κ] (le : κ → κ → Bool) (keys : List κ) :
    (orderedKeys le keys).Nodup := by
  have hfirst : (firstOfEach id keys).Nodup := pairwise_firstOfEach id keys
  exact (List.mergeSort_perm _ le).nodup_iff.2 hfirst

theorem orderedKeys_eq_of_mem_iff [BEq κ] [LawfulBEq κ] {le : κ → κ → Bool}
    (htrans : ∀ a b c, le a b = true → le b c = true → le a c = true)
    (htotal : ∀ a b, (le a b || le b a) = true)
    (hantisymm : ∀ a b, le a b = true → le b a = true → a = b) {keys keys' : List κ}
    (h : ∀ k, k ∈ keys ↔ k ∈ keys') : orderedKeys le keys = orderedKeys le keys' := by
  have hperm : (orderedKeys le keys).Perm (orderedKeys le keys') := by
    refine (List.perm_ext_iff_of_nodup (nodup_orderedKeys le keys)
      (nodup_orderedKeys le keys')).2 fun k => ?_
    rw [mem_orderedKeys, mem_orderedKeys, h]
  exact hperm.eq_of_pairwise (fun a b _ _ => hantisymm a b)
    (List.pairwise_mergeSort htrans htotal _) (List.pairwise_mergeSort htrans htotal _)

section Sorted

variable [LE κ] [DecidableLE κ] [Std.IsLinearOrder κ] [BEq κ] [LawfulBEq κ]

theorem orderedKeys_congr {keys keys' : List κ} (h : ∀ k, k ∈ keys ↔ k ∈ keys') :
    orderedKeys (fun a b => decide (a ≤ b)) keys =
      orderedKeys (fun a b => decide (a ≤ b)) keys' := by
  refine orderedKeys_eq_of_mem_iff decide_le_trans decide_le_total ?_ h
  intro a b hab hba
  exact Std.le_antisymm (of_decide_eq_true hab) (of_decide_eq_true hba)

theorem pairwise_lt_orderedKeys [LT κ] [Std.LawfulOrderLT κ] (keys : List κ) :
    (orderedKeys (fun a b => decide (a ≤ b)) keys).Pairwise (· < ·) := by
  have hdistinct : (firstOfEach id keys).Pairwise fun a b => id a ≠ id b :=
    pairwise_firstOfEach id keys
  exact pairwise_lt_mergeSort hdistinct

end Sorted

end QueryShape
