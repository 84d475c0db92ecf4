import QueryShape.Catalog.Load
import QueryShape.Proofs.WholeKey
import QueryShape.Proofs.WholeTypes

namespace QueryShape

variable {σ τ α β γ δ ε κ : Type}

namespace Table

namespace Key

theorem le_iff {a b : Key} : a.le b = true ↔
    a.name.Le b.name ∧ (a.name = b.name → a.isView = true → b.isView = true) := by
  unfold le
  split
  · rename_i hname
    rw [hname]
    simp only [QualifiedName.Le.refl, true_and, forall_const]
    cases a.isView <;> simp
  · rename_i hname
    simp only [hname, false_implies, and_true, QualifiedName.le_iff]

theorem le_trans (a b c : Key) (hab : a.le b = true) (hbc : b.le c = true) : a.le c = true := by
  rw [le_iff] at hab hbc ⊢
  refine ⟨hab.1.trans hbc.1, fun hname hview => ?_⟩
  have hnameab : a.name = b.name := hab.1.antisymm (hname ▸ hbc.1)
  exact hbc.2 (hnameab.symm.trans hname) (hab.2 hnameab hview)

theorem le_total (a b : Key) : (a.le b || b.le a) = true := by
  rw [Bool.or_eq_true, le_iff, le_iff]
  by_cases hname : a.name = b.name
  · cases hview : a.isView
    · exact .inl ⟨hname ▸ .refl _, nofun⟩
    · exact .inr ⟨hname ▸ .refl _, fun _ _ => rfl⟩
  · rcases QualifiedName.Le.total a.name b.name with h | h
    · exact .inl ⟨h, fun heq => absurd heq hname⟩
    · exact .inr ⟨h, fun heq => absurd heq.symm hname⟩

theorem le_antisymm (a b : Key) (hab : a.le b = true) (hba : b.le a = true) : a = b := by
  rw [le_iff] at hab hba
  have hname : a.name = b.name := hab.1.antisymm hba.1
  have hview : a.isView = b.isView := Bool.eq_iff_iff.2 ⟨hab.2 hname, hba.2 hname.symm⟩
  exact congrArg₂ Key.mk hname hview

end Key

end Table

/-- Ids of 32 bits tell the columns of each object apart. -/
structure HaveDistinctColumnIds (object : Row → κ) (rows : List Row) : Prop where
  fit : ∀ r ∈ rows, FitsIn32 (r.int "column_id")
  distinct : rows.Pairwise fun a b =>
    object a = object b → a.int "column_id" ≠ b.int "column_id"

theorem HaveDistinctColumnIds.pairwise_filter {object : Row → κ} {rows : List Row} {p : Row → Bool}
    {o : κ} (h : HaveDistinctColumnIds object rows) (hp : ∀ r, p r = true → object r = o) :
    (rows.filter p).Pairwise fun a b => Column.ordinalOf a ≠ Column.ordinalOf b := by
  refine (h.distinct.filter p).imp_of_mem fun {a b} ha hb hne => ?_
  obtain ⟨ha, hpa⟩ := List.mem_filter.1 ha
  obtain ⟨hb, hpb⟩ := List.mem_filter.1 hb
  rw [Column.ordinalOf_eq (h.fit a ha), Column.ordinalOf_eq (h.fit b hb)]
  exact hne ((hp a hpa).trans (hp b hpb).symm)

namespace TypeCatalog

variable {rows rows' : List Row} {name : QualifiedName} {columns : List Column} {w : Warning}

/-- The rows about one table type agree on its name. -/
def AgreeOnNames (rows : List Row) : Prop :=
  ∀ a ∈ rows, ∀ b ∈ rows, typeId a = typeId b → nameOf a = nameOf b

theorem systemTypesOf_congr {entries entries' : List (Int × String)} (h : entries.Perm entries')
    (hdistinct : entries.Pairwise fun a b => a.1 ≠ b.1) :
    systemTypesOf entries = systemTypesOf entries' := by
  have hids : orderedKeys (fun a b => decide (a ≤ b)) (entries.map (·.1)) =
      orderedKeys (fun a b => decide (a ≤ b)) (entries'.map (·.1)) :=
    orderedKeys_congr fun _ => (h.map _).mem_iff
  unfold systemTypesOf
  rw [hids]
  refine List.filterMap_congr fun id _ => congrArg List.getLast? ?_
  -- An id has one entry at most, so there is nothing to rearrange.
  refine (h.filter _).eq_of_pairwise ?_ (hdistinct.filter _)
    ((h.pairwise hdistinct Ne.symm).filter _)
  intro a b ha hb hne
  exact absurd ((eq_of_beq (List.mem_filter.1 ha).2).trans
    (eq_of_beq (List.mem_filter.1 hb).2).symm) hne

theorem exists_columnsOfRows_of_perm {types : TypeCatalog} (h : rows.Perm rows')
    (hcolumns : types.columnsOfRows name rows = .ok columns) :
    ∃ columns', types.columnsOfRows name rows' = .ok columns' ∧ columns.Perm columns' := by
  obtain ⟨columns', hrows, hperm⟩ :=
    List.perm_comp_forall₂ h.symm (columnsOfRows_eq_ok_iff.1 hcolumns)
  exact ⟨columns', columnsOfRows_eq_ok_iff.2 hrows, hperm.symm⟩

theorem subject_of_columnsOfRows {types : TypeCatalog}
    (h : types.columnsOfRows name rows = .error w) : w.subject = "table type " ++ name.full := by
  obtain ⟨before, r, after, -, -, -, rfl⟩ := columnsOfRows_eq_error_iff.1 h
  rfl

/-- A table type is the same in every order of its rows. If it is ignored, the order has a say in
which of its columns the warning names. -/
theorem tableTypeOfRows_congr (types : TypeCatalog) (id : Int) (h : rows.Perm rows')
    (hdistinct : rows.Pairwise fun a b => Column.ordinalOf a ≠ Column.ordinalOf b)
    (hnames : ∀ a ∈ rows, ∀ b ∈ rows, nameOf a = nameOf b) :
    (types.tableTypeOfRows id rows).mapError (·.subject) =
      (types.tableTypeOfRows id rows').mapError (·.subject) := by
  cases rows with
  | nil => rw [h.nil_eq]
  | cons first rest =>
      obtain ⟨first', rest', rfl⟩ : ∃ first' rest', rows' = first' :: rest' := by
        refine List.exists_cons_of_ne_nil fun hnil => ?_
        rw [hnil] at h
        exact absurd h.eq_nil nofun
      -- The name is that of the first row, which may be another one here.
      have hname : nameOf first' = nameOf first :=
        hnames first' (h.mem_iff.2 List.mem_cons_self) first List.mem_cons_self
      rw [tableTypeOfRows_cons, tableTypeOfRows_cons, hname]
      cases hcolumns : types.columnsOfRows (nameOf first) (first :: rest) with
      | ok columns =>
          obtain ⟨columns', hcolumns', hperm⟩ := exists_columnsOfRows_of_perm h hcolumns
          have hsorted : Column.byOrdinal columns = Column.byOrdinal columns' := by
            refine mergeSort_congr hperm (List.pairwise_map.1 ?_)
            rw [← map_ordinalOf_of_forall₂ (columnsOfRows_eq_ok_iff.1 hcolumns)]
            exact List.pairwise_map.2 hdistinct
          rw [hcolumns', Except.map, Except.map, hsorted]
      | error w =>
          cases hcolumns' : types.columnsOfRows (nameOf first) (first' :: rest') with
          | ok columns' =>
              obtain ⟨columns, hok, -⟩ := exists_columnsOfRows_of_perm h.symm hcolumns'
              rw [hcolumns] at hok
              cases hok
          | error w' =>
              rw [Except.map, Except.map, Except.mapError, Except.mapError,
                subject_of_columnsOfRows hcolumns, subject_of_columnsOfRows hcolumns']

theorem loaded_eq_of_mapError_eq {x y : Except Warning TableType}
    (h : x.mapError (·.subject) = y.mapError (·.subject)) :
    x.toOption = y.toOption ∧
      (warning? x).map (·.subject) = (warning? y).map (·.subject) := by
  cases x with
  | ok t =>
      cases y with
      | ok u => exact ⟨congrArg some (Except.ok.inj h), rfl⟩
      | error w => cases h
  | error w =>
      cases y with
      | ok t => cases h
      | error w' => exact ⟨rfl, congrArg some (Except.error.inj h)⟩

theorem tableTypesOfRows_congr (types : TypeCatalog) (h : rows.Perm rows')
    (hids : HaveDistinctColumnIds typeId rows) (hnames : AgreeOnNames rows) :
    (types.tableTypesOfRows rows).1 = (types.tableTypesOfRows rows').1 ∧
      (types.tableTypesOfRows rows).2.map (·.subject) =
        (types.tableTypesOfRows rows').2.map (·.subject) := by
  have htypeIds : typeIds rows = typeIds rows' := orderedKeys_congr fun _ => (h.map _).mem_iff
  have hloaded (id : Int) := loaded_eq_of_mapError_eq
    (tableTypeOfRows_congr types id (h.filter fun r => typeId r == id)
      (hids.pairwise_filter fun r hr => eq_of_beq hr) fun a ha b hb => by
        obtain ⟨ha, hida⟩ := List.mem_filter.1 ha
        obtain ⟨hb, hidb⟩ := List.mem_filter.1 hb
        exact hnames a ha b hb ((eq_of_beq hida).trans (eq_of_beq hidb).symm))
  rw [tableTypesOfRows_eq, tableTypesOfRows_eq, ← htypeIds, List.map_filterMap, List.map_filterMap]
  exact ⟨List.filterMap_congr fun id _ => (hloaded id).1,
    List.filterMap_congr fun id _ => (hloaded id).2⟩

theorem ofRows_congr {typeRows typeRows' : List Row} (htypes : typeRows.Perm typeRows')
    (hdistinct : (typeRows.filterMap systemTypeOfRow?).Pairwise fun a b => a.1 ≠ b.1)
    (h : rows.Perm rows') (hids : HaveDistinctColumnIds typeId rows)
    (hnames : AgreeOnNames rows) :
    (ofRows typeRows rows).1 = (ofRows typeRows' rows').1 ∧
      (ofRows typeRows rows).2.map (·.subject) = (ofRows typeRows' rows').2.map (·.subject) := by
  unfold ofRows ofParts
  rw [systemTypesOf_congr (htypes.filterMap _) hdistinct]
  obtain ⟨htableTypes, hwarnings⟩ := tableTypesOfRows_congr
    ⟨systemTypesOf (typeRows'.filterMap systemTypeOfRow?), []⟩ h hids hnames
  exact ⟨congrArg (TypeCatalog.mk _) htableTypes, hwarnings⟩

end TypeCatalog

namespace Table

variable {rows rows' keyRows keyRows' : List Row}

theorem keyNames_congr (name : QualifiedName) (h : keyRows.Perm keyRows')
    (hordinals : HaveDistinctOrdinals keyRows) : keyNames name keyRows = keyNames name keyRows' :=
  congrArg (List.map fun r : Row => r.text "column_name")
    (mergeSort_congr (h.filter _) (hordinals name))

theorem ofRows_congr (types : TypeCatalog) (key : Key) (h : rows.Perm rows')
    (hdistinct : rows.Pairwise fun a b => Column.ordinalOf a ≠ Column.ordinalOf b)
    (hkeys : keyRows.Perm keyRows') (hordinals : HaveDistinctOrdinals keyRows) :
    ofRows types key rows keyRows = ofRows types key rows' keyRows' := by
  have hcolumns : Column.byOrdinal (rows.filterMap fun r => (Column.ofRow types r).toOption) =
      Column.byOrdinal (rows'.filterMap fun r => (Column.ofRow types r).toOption) := by
    refine mergeSort_congr (h.filterMap _) (List.pairwise_filterMap.2 (hdistinct.imp ?_))
    intro a b hne c hc d hd
    rwa [Column.ordinal_of_ofRow (toOption_eq_some_iff.1 hc),
      Column.ordinal_of_ofRow (toOption_eq_some_iff.1 hd)]
  unfold ofRows
  rw [hcolumns, keyNames_congr key.name hkeys hordinals]

theorem allOfRows_congr (types : TypeCatalog) (rules : RuleSet) (h : rows.Perm rows')
    (hids : HaveDistinctColumnIds Key.ofRow rows) (hkeys : keyRows.Perm keyRows')
    (hordinals : HaveDistinctOrdinals keyRows) :
    (allOfRows types rules rows keyRows).1 = (allOfRows types rules rows' keyRows').1 ∧
      (allOfRows types rules rows keyRows).2.Perm (allOfRows types rules rows' keyRows').2 := by
  have horder : orderedKeys Key.le (rows.map Key.ofRow) =
      orderedKeys Key.le (rows'.map Key.ofRow) :=
    orderedKeys_eq_of_mem_iff Key.le_trans Key.le_total Key.le_antisymm fun _ => (h.map _).mem_iff
  unfold allOfRows
  dsimp only
  rw [horder]
  refine ⟨List.map_congr_left fun key _ => ?_,
    List.Perm.flatMap_left _ fun key _ => (h.filter _).filterMap _⟩
  have hdistinct := hids.pairwise_filter (p := fun r => decide (Key.ofRow r = key))
    fun r hr => of_decide_eq_true hr
  split
  · exact ofRows_congr types key (h.filter _) hdistinct .nil fun _ => .nil
  · exact ofRows_congr types key (h.filter _) hdistinct hkeys hordinals

end Table

/-- Computations that end in related values, or both in one error. -/
inductive EndAlike (R : α → β → Prop) : Except ε α → Except ε β → Prop
  | ok {a : α} {b : β} (h : R a b) : EndAlike R (.ok a) (.ok b)
  | error (e : ε) : EndAlike R (.error e) (.error e)

theorem EndAlike.mapError {R : α → β → Prop} {x : Except ε α} {y : Except ε β}
    (h : EndAlike R x y) (f : ε → δ) : EndAlike R (x.mapError f) (y.mapError f) := by
  cases h with
  | ok h => exact .ok h
  | error e => exact .error (f e)

theorem EndAlike.exists_of_ok {R : α → β → Prop} {x : Except ε α} {y : Except ε β} {a : α}
    (h : EndAlike R x y) (hx : x = .ok a) : ∃ b, y = .ok b ∧ R a b := by
  subst hx
  cases h with
  | ok h => exact ⟨_, rfl, h⟩

/-- Ids tell apart what stands in the rows that answer a query of the catalog. -/
structure AreKeyed (sql : String) (rows : List Row) : Prop where
  systemTypes : sql = TypeCatalog.systemTypesQuery →
    (rows.filterMap TypeCatalog.systemTypeOfRow?).Pairwise fun a b => a.1 ≠ b.1
  tableTypes : sql = TypeCatalog.tableTypesQuery →
    HaveDistinctColumnIds TypeCatalog.typeId rows ∧ TypeCatalog.AgreeOnNames rows
  tables : sql = Table.tablesQuery → HaveDistinctColumnIds Table.Key.ofRow rows
  keys : sql = Table.primaryKeysQuery → Table.HaveDistinctOrdinals rows

/-- In related states the servers answer a query with the same rows, in any two orders, or with the
same error. -/
structure Server.Rearranges (same : σ → τ → Prop) (s : Server σ) (t : Server τ) : Prop where
  answer : ∀ {x y}, same x y → ∀ connection sql,
    EndAlike (fun rows rows' => rows.Perm rows' ∧ AreKeyed sql rows)
      (s.query connection sql [] x).1 (t.query connection sql [] y).1
  state : ∀ {x y}, same x y → ∀ connection sql,
    same (s.query connection sql [] x).2 (t.query connection sql [] y).2

/-- What the server of a world answers is what that of another answers, up to the order of rows. -/
def World.Rearranged (w : World σ) (v : World τ) : Prop :=
  ∃ same, w.server.Rearranges same v.server ∧ same w.state v.state

namespace Session

/-- Work in worlds that differ in the order of rows ends alike and leaves such worlds. -/
def Matches (x : Session σ α) (y : Session τ β) (R : α → β → Prop) : Prop :=
  ∀ (w : World σ) (v : World τ), w.Rearranged v →
    EndAlike R (x.outcome w).1 (y.outcome v).1 ∧ (x.outcome w).2.Rearranged (y.outcome v).2

theorem matches_pure {a : α} {b : β} {R : α → β → Prop} (h : R a b) :
    Matches (pure a : Session σ α) (pure b : Session τ β) R :=
  fun _ _ hworlds => ⟨.ok h, hworlds⟩

theorem Matches.bind {x : Session σ α} {y : Session τ β} {f : α → Session σ γ}
    {g : β → Session τ δ} {R : α → β → Prop} {S : γ → δ → Prop} (hx : Matches x y R)
    (hf : ∀ a b, R a b → Matches (f a) (g b) S) : Matches (x >>= f) (y >>= g) S := by
  intro w v hworlds
  obtain ⟨hend, hafter⟩ := hx w v hworlds
  rw [outcome_bind, outcome_bind]
  generalize x.outcome w = r at hend hafter
  generalize y.outcome v = q at hend hafter
  obtain ⟨r, w'⟩ := r
  obtain ⟨q, v'⟩ := q
  cases hend with
  | ok h => exact hf _ _ h w' v' hafter
  | error e => exact ⟨.error e, hafter⟩

end Session

namespace Catalog

open QueryShape.Session

theorem outcome_rows (connection : Nat) (activity : Activity) (sql : String) (w : World σ) :
    (rows connection activity sql).outcome w =
      let answer := (Dialogue.query connection sql []).outcome w
      (answer.1.mapError fun e => .fault (.database activity e), answer.2) := by
  have hquery : Session.outcome
      (liftM (Dialogue.query connection sql [] : Dialogue σ (Answer (List Row)))) w =
        (.ok ((Dialogue.query connection sql []).outcome w).1,
          ((Dialogue.query connection sql []).outcome w).2) :=
    rfl
  rw [Catalog.rows, require, outcome_bind, hquery]
  dsimp only
  cases ((Dialogue.query connection sql []).outcome w).1 with
  | ok rows => rfl
  | error e => rfl

theorem matches_rows (connection : Nat) (activity : Activity) (sql : String) :
    Matches (rows connection activity sql : Session σ (List Row))
      (rows connection activity sql : Session τ (List Row))
      fun rows rows' => rows.Perm rows' ∧ AreKeyed sql rows := by
  rintro w v ⟨same, hserver, hstate⟩
  rw [outcome_rows, outcome_rows]
  exact ⟨(hserver.answer hstate connection sql).mapError _, same, hserver,
    hserver.state hstate connection sql⟩

theorem matches_loadTypes (connection : Nat) :
    Matches (loadTypes connection : Session σ _) (loadTypes connection : Session τ _)
      fun a b => a.1 = b.1 ∧ a.2.map (·.subject) = b.2.map (·.subject) := by
  refine (matches_rows connection _ _).bind fun typeRows typeRows' htypes => ?_
  refine (matches_rows connection _ _).bind fun rows rows' hrows => matches_pure ?_
  obtain ⟨hids, hnames⟩ := hrows.2.tableTypes rfl
  exact TypeCatalog.ofRows_congr htypes.1 (htypes.2.systemTypes rfl) hrows.1 hids hnames

theorem matches_loadTables (connection : Nat) (types : TypeCatalog) (rules : RuleSet) :
    Matches (loadTables connection types rules : Session σ _)
      (loadTables connection types rules : Session τ _)
      fun a b => a.1 = b.1 ∧ a.2.Perm b.2 := by
  refine (matches_rows connection _ _).bind fun rows rows' hrows => ?_
  refine (matches_rows connection _ _).bind fun keyRows keyRows' hkeys => matches_pure ?_
  exact Table.allOfRows_congr types rules hrows.1 (hrows.2.tables rfl) hkeys.1 (hkeys.2.keys rfl)

/-- From the same rows in other orders the same types and tables are loaded. About tables there are
the same warnings, and about table types as many, on the same ones. -/
theorem loads_of_rearranged {w : World σ} {v : World τ} (h : w.Rearranged v) (connection : Nat) :
    EndAlike (fun a b => a.1 = b.1 ∧ a.2.map (·.subject) = b.2.map (·.subject))
      ((loadTypes connection).outcome w).1 ((loadTypes connection).outcome v).1 ∧
    ∀ (types : TypeCatalog) (rules : RuleSet),
      EndAlike (fun a b => a.1 = b.1 ∧ a.2.Perm b.2)
        ((loadTables connection types rules).outcome w).1
        ((loadTables connection types rules).outcome v).1 :=
  ⟨(matches_loadTypes connection w v h).1, fun types rules =>
    (matches_loadTables connection types rules w v h).1⟩

/-- The rows of a catalog with one table and two table types. -/
def stockRows (sql : String) : List Row :=
  if sql = TypeCatalog.systemTypesQuery then
    [(56, "int"), (167, "varchar")].map fun (id, name) =>
      ⟨[("system_type_id", .int id), ("name", .text name)]⟩
  else if sql = TypeCatalog.tableTypesQuery then
    TypeCatalog.mixedRows
  else if sql = Table.tablesQuery then
    linesColumns
  else
    linesKeys

theorem areKeyed_stockRows (sql : String) : AreKeyed sql (stockRows sql) where
  systemTypes := by
    rintro rfl
    rw [stockRows, if_pos rfl]
    decide +kernel
  tableTypes := by
    rintro rfl
    rw [stockRows, if_neg (by decide +kernel), if_pos rfl]
    refine ⟨⟨by decide +kernel, by decide +kernel⟩, ?_⟩
    unfold TypeCatalog.AgreeOnNames
    decide +kernel
  tables := by
    rintro rfl
    rw [stockRows, if_neg (by decide +kernel), if_neg (by decide +kernel), if_pos rfl]
    exact ⟨by decide +kernel, by decide +kernel⟩
  keys := by
    rintro rfl
    rw [stockRows, if_neg (by decide +kernel), if_neg (by decide +kernel),
      if_neg (by decide +kernel)]
    exact fun name => List.Pairwise.sublist List.filter_sublist (by decide +kernel)

/-- A server that gives the rows of the catalog in some order. -/
def stockWorld (order : List Row → List Row) : World Unit where
  server :=
    { connect := fun _ _ => (.ok (), ())
      execute := fun _ _ _ => (.ok (), ())
      query := fun _ sql _ _ => (.ok (order (stockRows sql)), ())
      describe := fun _ _ _ => (.ok [], ()) }
  state := ()

theorem stockWorld_loaded_backwards :
    (stockWorld id).Rearranged (stockWorld List.reverse) ∧
    (∃ a b, ((loadTypes 0).outcome (stockWorld id)).1 = .ok a ∧
      ((loadTypes 0).outcome (stockWorld List.reverse)).1 = .ok b ∧ a.1 = b.1) ∧
    ∃ a b, ((loadTables 0 TypeCatalog.intTypes (GlobRules.mk []).toRuleSet).outcome
        (stockWorld id)).1 = .ok a ∧
      ((loadTables 0 TypeCatalog.intTypes (GlobRules.mk []).toRuleSet).outcome
        (stockWorld List.reverse)).1 = .ok b ∧ a.1 = b.1 ∧ a.2.Perm b.2 := by
  have hworlds : (stockWorld id).Rearranged (stockWorld List.reverse) :=
    ⟨Eq, ⟨fun _ _ sql => .ok ⟨(List.reverse_perm _).symm, areKeyed_stockRows sql⟩,
      fun _ _ _ => rfl⟩, rfl⟩
  obtain ⟨htypes, htables⟩ := loads_of_rearranged hworlds 0
  refine ⟨hworlds, ?_, ?_⟩
  · obtain ⟨b, hb, hsame, -⟩ := htypes.exists_of_ok rfl
    exact ⟨_, b, rfl, hb, hsame⟩
  · obtain ⟨b, hb, hsame⟩ := (htables _ _).exists_of_ok rfl
    exact ⟨_, b, rfl, hb, hsame⟩

end Catalog

end QueryShape
