import Mathlib.Data.List.Perm.Basic
import QueryShape.Proofs.ColumnNames
import QueryShape.Proofs.Result

namespace QueryShape

open QueryShape.Text

namespace ColumnBinding

variable {columns : PlacedColumns} {taken : List Nat} {t : Column} {item : Column × Nat}

theorem namesake?_eq_some (h : namesake? columns t = some item) :
    item ∈ columns ∧ item.1.sameShape t = true ∧ sameIgnoringCase item.1.name t.name = true := by
  unfold namesake? at h
  have hfound : (item.1.sameShape t && sameIgnoringCase item.1.name t.name) = true := by
    simpa using List.find?_some h
  exact ⟨List.mem_of_find?_eq_some h, Bool.and_eq_true_iff.1 hfound⟩

theorem substitute?_eq_some (h : substitute? columns taken t = some item) :
    item ∈ columns ∧ item.2 ∉ taken ∧ item.1.sameShape t = true := by
  unfold substitute? at h
  have hfound : (!taken.contains item.2 && item.1.sameShape t) = true := by
    simpa using List.find?_some h
  obtain ⟨hfree, hshape⟩ := Bool.and_eq_true_iff.1 hfound
  exact ⟨List.mem_of_find?_eq_some h, by simpa using hfree, hshape⟩

theorem place_ne {cs : List Column} {t u : Column} {i j : Column × Nat}
    (hne : sameIgnoringCase t.name u.name = false) (hi : namesake? cs.zipIdx t = some i)
    (hj : namesake? cs.zipIdx u = some j) : i.2 ≠ j.2 := by
  intro hplace
  obtain ⟨himem, -, hi⟩ := namesake?_eq_some hi
  obtain ⟨hjmem, -, hj⟩ := namesake?_eq_some hj
  have hcolumn : some i.1 = some j.1 := by
    rw [← List.mem_zipIdx_iff_getElem?.1 himem, ← List.mem_zipIdx_iff_getElem?.1 hjmem, hplace]
  rw [Option.some.inj hcolumn] at hi
  apply sameIgnoringCase_eq_false_iff.1 hne
  rw [← sameIgnoringCase_iff.1 hi, ← sameIgnoringCase_iff.1 hj]

/-- Where columns of a type are bound: in the place of a namesake or in one that was free. -/
def Bound (columns : PlacedColumns) (taken : List Nat) (ts : List Column) (place : Nat) : Prop :=
  (∃ t ∈ ts, ∃ item, namesake? columns t = some item ∧ item.2 = place) ∨ place ∉ taken

theorem Bound.mono {taken' : List Nat} {ts : List Column} {place : Nat}
    (h : Bound columns taken' ts place) (hsub : taken ⊆ taken') :
    Bound columns taken (t :: ts) place := by
  rcases h with ⟨u, hu, hat⟩ | hfree
  · exact .inl ⟨u, List.mem_cons_of_mem t hu, hat⟩
  · exact .inr fun hplace => hfree (hsub hplace)

theorem nodup_cons_of_bound {ts : List Column} {items : PlacedColumns} (htaken : item.2 ∈ taken)
    (hothers : ∀ t ∈ ts, ∀ other, namesake? columns t = some other → other.2 ≠ item.2)
    (hbound : ∀ other ∈ items, Bound columns taken ts other.2)
    (hnodup : (items.map Prod.snd).Nodup) : ((item :: items).map Prod.snd).Nodup := by
  refine List.nodup_cons.2 ⟨fun hmem => ?_, hnodup⟩
  obtain ⟨other, hother, hsame⟩ := List.mem_map.1 hmem
  rcases hbound other hother with ⟨t, ht, namesake, hnamesake, hat⟩ | hfree
  · exact hothers t ht namesake hnamesake (hat.trans hsame)
  · exact hfree (hsame ▸ htaken)

/-- No place is bound twice if the namesakes have places of their own, which count as taken. -/
theorem exists_items_of_bindAll {ts : List Column} {bindings : List ColumnBinding}
    (hplaces : ts.Pairwise fun t u => ∀ i j,
      namesake? columns t = some i → namesake? columns u = some j → i.2 ≠ j.2)
    (htaken : ∀ t ∈ ts, ∀ item, namesake? columns t = some item → item.2 ∈ taken)
    (h : bindAll columns taken ts = some bindings) :
    bindings.map (·.typeColumn) = ts ∧ ∃ items : PlacedColumns,
      bindings.map (·.column) = items.map Prod.fst ∧ items ⊆ columns ∧
        (items.map Prod.snd).Nodup ∧ ∀ item ∈ items, Bound columns taken ts item.2 := by
  -- A substitute's place becomes taken, so the taken places are general in the induction.
  induction ts generalizing taken bindings with
  | nil =>
      obtain rfl := Option.some.inj h
      exact ⟨rfl, [], rfl, List.nil_subset _, List.nodup_nil, List.forall_mem_nil _⟩
  | cons t rest ih =>
      obtain ⟨hfirst, hrest⟩ := List.pairwise_cons.1 hplaces
      obtain ⟨hown, hothers⟩ := List.forall_mem_cons.1 htaken
      unfold bindAll at h
      split at h
      · rename_i c place hnamesake
        obtain ⟨bound, hbindings, rfl⟩ := Option.map_eq_some_iff.1 h
        obtain ⟨htypes, items, hcolumns, hsub, hnodup, hbound⟩ := ih hrest hothers hbindings
        refine ⟨by simp [htypes], (c, place) :: items, by simp [hcolumns], ?_, ?_, ?_⟩
        · exact List.cons_subset.2 ⟨(namesake?_eq_some hnamesake).1, hsub⟩
        · refine nodup_cons_of_bound (hown _ hnamesake) (fun u hu other hother => ?_) hbound hnodup
          exact (hfirst u hu _ _ hnamesake hother).symm
        · refine List.forall_mem_cons.2 ⟨?_, fun item hitem => ?_⟩
          · exact .inl ⟨t, List.mem_cons_self, _, hnamesake, rfl⟩
          · exact (hbound item hitem).mono (List.Subset.refl _)
      · split at h
        · rename_i c place hsubstitute
          obtain ⟨bound, hbindings, rfl⟩ := Option.map_eq_some_iff.1 h
          obtain ⟨hmem, hfree, -⟩ := substitute?_eq_some hsubstitute
          -- The namesakes' places stay taken, so the substitute is none of them.
          have hstill : ∀ u ∈ rest, ∀ item, namesake? columns u = some item →
              item.2 ∈ place :: taken := fun u hu item hitem =>
            List.mem_cons_of_mem place (hothers u hu item hitem)
          obtain ⟨htypes, items, hcolumns, hsub, hnodup, hbound⟩ := ih hrest hstill hbindings
          refine ⟨by simp [htypes], (c, place) :: items, by simp [hcolumns], ?_, ?_, ?_⟩
          · exact List.cons_subset.2 ⟨hmem, hsub⟩
          · refine nodup_cons_of_bound List.mem_cons_self (fun u hu other hother heq => ?_) hbound
              hnodup
            have hat : other.2 = place := heq
            exact hfree (hat ▸ hothers u hu other hother)
          · refine List.forall_mem_cons.2 ⟨.inr hfree, fun item hitem => ?_⟩
            exact (hbound item hitem).mono (List.subset_cons_self _ _)
        · cases h

end ColumnBinding

/-- A binding is one to one: it goes through the columns of the type in their order and through the
columns of the list in some order. -/
theorem mapColumns_eq_some {typeColumns columns : List Column} {bindings : List ColumnBinding}
    (hnames : HaveDistinctNames typeColumns)
    (h : mapColumns typeColumns columns = some bindings) :
    bindings.map (·.typeColumn) = typeColumns ∧ (bindings.map (·.column)).Perm columns := by
  unfold mapColumns at h
  split at h
  · rename_i hlength
    have hplaces : typeColumns.Pairwise fun t u => ∀ i j,
        ColumnBinding.namesake? columns.zipIdx t = some i →
          ColumnBinding.namesake? columns.zipIdx u = some j → i.2 ≠ j.2 :=
      hnames.imp fun hne _ _ hi hj => ColumnBinding.place_ne hne hi hj
    have htaken : ∀ t ∈ typeColumns, ∀ item,
        ColumnBinding.namesake? columns.zipIdx t = some item →
          item.2 ∈ (typeColumns.filterMap (ColumnBinding.namesake? columns.zipIdx)).map Prod.snd :=
      fun t ht item hitem => List.mem_map_of_mem (List.mem_filterMap.2 ⟨t, ht, hitem⟩)
    obtain ⟨htypes, items, hcolumns, hsub, hnodup, -⟩ :=
      ColumnBinding.exists_items_of_bindAll hplaces htaken h
    have hcount : columns.zipIdx.length ≤ items.length := by
      have hitems := congrArg List.length hcolumns
      have htypeCount := congrArg List.length htypes
      simp only [List.length_map] at hitems htypeCount
      rw [List.length_zipIdx]
      omega
    have hitems : items.Nodup :=
      List.Pairwise.of_map Prod.snd (fun _ _ hne heq => hne (congrArg Prod.snd heq)) hnodup
    have hperm := (List.subperm_of_subset hitems hsub).perm_of_length_le hcount
    refine ⟨htypes, ?_⟩
    rw [hcolumns]
    simpa using hperm.map Prod.fst
  · cases h

theorem TableTypeChoice.select_eq_ok {table : Table} {kind : ScriptKind} {columns : List Column}
    {types : List TableType} {explicit : Option String} {choice : TableTypeChoice}
    (h : TableTypeChoice.select table kind columns types explicit = .ok choice) :
    choice.type ∈ types ∧ mapColumns choice.type.columns columns = some choice.bindings := by
  have hofType : ∀ type, ofType? columns type = some choice →
      choice.type = type ∧ mapColumns choice.type.columns columns = some choice.bindings := by
    intro type htype
    obtain ⟨bindings, hbindings, rfl⟩ := Option.map_eq_some_iff.1 htype
    exact ⟨rfl, hbindings⟩
  unfold select at h
  split at h
  · unfold named at h
    split at h
    · cases h
    · rename_i type hfound
      split at h
      · cases h
      · rename_i choice' htype
        obtain rfl := Except.ok.inj h
        obtain ⟨rfl, hbindings⟩ := hofType type htype
        exact ⟨List.mem_of_find?_eq_some hfound, hbindings⟩
  · unfold unique at h
    split at h
    · cases h
    · rename_i choice' hchoices
      obtain rfl := Except.ok.inj h
      obtain ⟨type, hmem, htype⟩ := List.mem_filterMap.1 (hchoices ▸ List.mem_singleton_self _)
      obtain ⟨rfl, hbindings⟩ := hofType type htype
      exact ⟨hmem, hbindings⟩
    · cases h

end QueryShape
