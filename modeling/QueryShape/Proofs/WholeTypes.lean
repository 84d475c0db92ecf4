import Mathlib.Data.List.Perm.Basic
import QueryShape.Proofs.UsedTypes

namespace QueryShape

section Groups

variable {β κ : Type} [BEq κ] [LawfulBEq κ] {key : β → κ} {f : κ → List β} {keys : List κ} {k : κ}

theorem filter_flatMap_of_not_mem (hf : ∀ k ∈ keys, ∀ b ∈ f k, key b = k) (hk : k ∉ keys) :
    (keys.flatMap f).filter (fun b => key b == k) = [] := by
  refine List.filter_eq_nil_iff.2 fun b hb hkey => hk ?_
  obtain ⟨l, hl, hb⟩ := List.mem_flatMap.1 hb
  rwa [← eq_of_beq hkey, hf l hl b hb]

theorem filter_flatMap_of_mem (hkeys : keys.Nodup) (hf : ∀ k ∈ keys, ∀ b ∈ f k, key b = k)
    (hk : k ∈ keys) : (keys.flatMap f).filter (fun b => key b == k) = f k := by
  obtain ⟨before, after, rfl⟩ := List.append_of_mem hk
  obtain ⟨-, hrest, hdisjoint⟩ := List.nodup_append.1 hkeys
  have hbefore : k ∉ before := fun h => hdisjoint k h k List.mem_cons_self rfl
  rw [List.flatMap_append, List.flatMap_cons, List.filter_append, List.filter_append,
    filter_flatMap_of_not_mem (fun l hl => hf l (List.mem_append_left _ hl)) hbefore,
    filter_flatMap_of_not_mem
      (fun l hl => hf l (List.mem_append_right _ (List.mem_cons_of_mem k hl)))
      (List.nodup_cons.1 hrest).1, List.nil_append, List.append_nil]
  exact List.filter_eq_self.2 fun b hb => beq_iff_eq.2 (hf k hk b hb)

end Groups

namespace Column

variable {types : TypeCatalog} {r : Row} {c : Column} {typeName : String}

/-- The place of a column among those of its table or type, as the column keeps it. -/
def ordinalOf (r : Row) : Int :=
  narrow32 (r.int "column_id")

theorem ordinalOf_eq (h : FitsIn32 (r.int "column_id")) : ordinalOf r = r.int "column_id" :=
  narrow32_eq_self h.1 h.2

theorem ordinal_of_ofRow (h : ofRow types r = .ok c) : c.ordinal = ordinalOf r := by
  unfold ofRow at h
  split at h
  · cases h
  · obtain rfl := Except.ok.inj h
    rfl

theorem ofRow_eq_error_iff : ofRow types r = .error typeName ↔
    types.scalarType? (r.int "system_type_id") = none ∧
      types.describe (r.int "system_type_id") = typeName := by
  unfold ofRow
  cases types.scalarType? (r.int "system_type_id") <;> simp

end Column

namespace TypeCatalog

variable {types : TypeCatalog} {rows : List Row} {r : Row} {id : Int} {name : QualifiedName}
  {columns : List Column} {t : TableType} {w : Warning}

/-- The column in the row has a type whose values can be bound. -/
def Supports (types : TypeCatalog) (r : Row) : Prop :=
  (types.scalarType? (r.int "system_type_id")).isSome = true

instance (types : TypeCatalog) (r : Row) : Decidable (types.Supports r) :=
  inferInstanceAs (Decidable (_ = true))

theorem supports_iff : types.Supports r ↔ ∃ c, Column.ofRow types r = .ok c := by
  unfold Supports Column.ofRow
  cases types.scalarType? (r.int "system_type_id") <;> simp

theorem not_supports_iff : ¬ types.Supports r ↔
    Column.ofRow types r = .error (types.describe (r.int "system_type_id")) := by
  rw [Column.ofRow_eq_error_iff, Supports, Bool.not_eq_true, Option.isSome_eq_false_iff,
    Option.isNone_iff_eq_none, and_iff_left rfl]

/-- The warning that a table type is ignored because of a column. -/
def ignoring (types : TypeCatalog) (name : QualifiedName) (r : Row) : Warning :=
  ⟨"table type " ++ name.full,
    "column '" ++ r.text "column_name" ++ "' has unsupported type '" ++
      types.describe (r.int "system_type_id") ++ "'; the table type is ignored"⟩

theorem columnsOfRows_eq_ok_iff : types.columnsOfRows name rows = .ok columns ↔
    List.Forall₂ (fun r c => Column.ofRow types r = .ok c) rows columns := by
  unfold columnsOfRows
  rw [mapM_eq_ok_iff]
  have hrow (r : Row) (f : String → Warning) (c : Column) :
      (Column.ofRow types r).mapError f = .ok c ↔ Column.ofRow types r = .ok c := by
    cases Column.ofRow types r <;> simp [Except.mapError]
  simp only [hrow]

theorem columnsOfRows_eq_error_iff : types.columnsOfRows name rows = .error w ↔
    ∃ before r after, rows = before ++ r :: after ∧ (∀ b ∈ before, types.Supports b) ∧
      ¬ types.Supports r ∧ w = types.ignoring name r := by
  unfold columnsOfRows
  rw [mapM_eq_error_iff]
  refine exists_congr fun before => exists_congr fun r => exists_congr fun after => ?_
  refine and_congr_right fun _ => and_congr ?_ ?_
  · refine forall₂_congr fun b _ => ?_
    rw [supports_iff]
    cases Column.ofRow types b <;> simp [Except.mapError]
  · rw [not_supports_iff]
    cases hcolumn : Column.ofRow types r with
    | ok c => simp [Except.mapError]
    | error typeName =>
        obtain ⟨-, rfl⟩ := Column.ofRow_eq_error_iff.1 hcolumn
        simp [Except.mapError, ignoring, eq_comm]

theorem map_ordinalOf_of_forall₂
    (h : List.Forall₂ (fun r c => Column.ofRow types r = .ok c) rows columns) :
    rows.map Column.ordinalOf = columns.map (·.ordinal) :=
  map_eq_map_of_forall₂ h fun _ _ hc => (Column.ordinal_of_ofRow hc).symm

theorem exists_ordered_of_forall₂
    (h : List.Forall₂ (fun r c => Column.ofRow types r = .ok c) rows columns) :
    ∃ ordered, ordered.Perm rows ∧
      List.Forall₂ (fun r c => Column.ofRow types r = .ok c) ordered (Column.byOrdinal columns) ∧
      ordered.Pairwise fun a b => Column.ordinalOf a ≤ Column.ordinalOf b := by
  have hperm : (Column.byOrdinal columns).Perm columns := List.mergeSort_perm _ _
  obtain ⟨ordered, hordered, hrows⟩ := List.perm_comp_forall₂ hperm h.flip
  refine ⟨ordered, hrows, hordered.flip, ?_⟩
  have hsorted : ((Column.byOrdinal columns).map (·.ordinal)).Pairwise (· ≤ ·) :=
    List.pairwise_map.2 (pairwise_le_mergeSort _ _)
  rw [← map_ordinalOf_of_forall₂ hordered.flip] at hsorted
  exact List.pairwise_map.1 hsorted

def typeId (r : Row) : Int :=
  r.int "user_type_id"

/-- The rows about a table type. -/
def rowsOf (id : Int) (rows : List Row) : List Row :=
  rows.filter fun r => typeId r == id

def nameOf (r : Row) : QualifiedName :=
  ⟨(r.text? "schema_name").getD "dbo", r.text "type_name"⟩

/-- The table type has one column for each of the rows, in the order of their places. Places of 32
bits are the ids of the columns. -/
structure IsWhole (types : TypeCatalog) (rows : List Row) (t : TableType) : Prop where
  name : rows.head?.map nameOf = some t.name
  columns : ∃ ordered, ordered.Perm rows ∧
    List.Forall₂ (fun r c => Column.ofRow types r = .ok c) ordered t.columns ∧
    (ordered.Pairwise fun a b => Column.ordinalOf a ≤ Column.ordinalOf b) ∧
    ((∀ r ∈ rows, FitsIn32 (r.int "column_id")) →
      ordered.Pairwise fun a b => a.int "column_id" ≤ b.int "column_id")

/-- The warning is about the first of the rows whose column cannot be bound. -/
def IsRefused (types : TypeCatalog) (rows : List Row) (w : Warning) : Prop :=
  ∃ before r after, rows = before ++ r :: after ∧ (∀ b ∈ before, types.Supports b) ∧
    ¬ types.Supports r ∧ (rows.head?.map fun first => types.ignoring (nameOf first) r) = some w

theorem tableTypeOfRows_cons (types : TypeCatalog) (id : Int) (first : Row) (rest : List Row) :
    types.tableTypeOfRows id (first :: rest) =
      (types.columnsOfRows (nameOf first) (first :: rest)).map fun columns =>
        ⟨narrow32 id, nameOf first, Column.byOrdinal columns⟩ :=
  rfl

theorem isWhole_of_tableTypeOfRows (hrows : rows ≠ []) (h : types.tableTypeOfRows id rows = .ok t) :
    (∀ r ∈ rows, types.Supports r) ∧ IsWhole types rows t := by
  obtain ⟨first, rest, rfl⟩ := List.exists_cons_of_ne_nil hrows
  rw [tableTypeOfRows_cons] at h
  obtain ⟨columns, hcolumns, rfl⟩ := map_eq_ok.1 h
  rw [columnsOfRows_eq_ok_iff] at hcolumns
  obtain ⟨ordered, hperm, hordered, hplaces⟩ := exists_ordered_of_forall₂ hcolumns
  refine ⟨fun r hr => ?_, rfl, ordered, hperm, hordered, hplaces, fun hids => ?_⟩
  · obtain ⟨c, -, hc⟩ := exists_of_mem_forall₂_left hcolumns r hr
    exact supports_iff.2 ⟨c, hc⟩
  · refine hplaces.imp_of_mem fun {a b} ha hb hle => ?_
    rwa [Column.ordinalOf_eq (hids a (hperm.subset ha)),
      Column.ordinalOf_eq (hids b (hperm.subset hb))] at hle

theorem isRefused_of_tableTypeOfRows (hrows : rows ≠ [])
    (h : types.tableTypeOfRows id rows = .error w) :
    (∃ r ∈ rows, ¬ types.Supports r) ∧ IsRefused types rows w := by
  obtain ⟨first, rest, rfl⟩ := List.exists_cons_of_ne_nil hrows
  rw [tableTypeOfRows_cons, map_eq_error] at h
  obtain ⟨before, r, after, hsplit, hbefore, hr, rfl⟩ := columnsOfRows_eq_error_iff.1 h
  refine ⟨⟨r, ?_, hr⟩, before, r, after, hsplit, hbefore, hr, rfl⟩
  rw [hsplit]
  exact List.mem_append_right before List.mem_cons_self

/-- The ids of the table types in rows, by rising id. -/
def typeIds (rows : List Row) : List Int :=
  orderedKeys (· ≤ ·) (rows.map typeId)

def warning? : Except Warning TableType → Option Warning
  | .ok _ => none
  | .error w => some w

theorem tableTypesOfRows_eq (types : TypeCatalog) (rows : List Row) :
    types.tableTypesOfRows rows =
      ((typeIds rows).filterMap fun id => (types.tableTypeOfRows id (rowsOf id rows)).toOption,
        (typeIds rows).filterMap fun id =>
          warning? (types.tableTypeOfRows id (rowsOf id rows))) := by
  unfold tableTypesOfRows rowsById
  dsimp only
  rw [List.map_map, List.filterMap_map, List.filterMap_map]
  rfl

theorem mem_typeIds_iff : id ∈ typeIds rows ↔ ∃ r ∈ rows, typeId r = id := by
  rw [typeIds, mem_orderedKeys, List.mem_map]

theorem rowsOf_eq_nil (h : id ∉ typeIds rows) : rowsOf id rows = [] := by
  refine List.filter_eq_nil_iff.2 fun r hr hid => h ?_
  exact mem_typeIds_iff.2 ⟨r, hr, eq_of_beq hid⟩

theorem rowsOf_ne_nil (h : id ∈ typeIds rows) : rowsOf id rows ≠ [] := by
  obtain ⟨r, hr, rfl⟩ := mem_typeIds_iff.1 h
  exact List.ne_nil_of_mem (List.mem_filter.2 ⟨hr, beq_self_eq_true _⟩)

theorem rowsOf_rowsOf (id : Int) (rows : List Row) :
    rowsOf id (rowsOf id rows) = rowsOf id rows :=
  List.filter_eq_self.2 fun _ hr => (List.mem_filter.1 hr).2

theorem typeIds_rowsOf (h : id ∈ typeIds rows) : typeIds (rowsOf id rows) = [id] := by
  have hone : orderedKeys (fun a b : Int => decide (a ≤ b)) [id] = [id] :=
    List.mergeSort_singleton id
  rw [← hone, typeIds]
  refine orderedKeys_congr fun k => ?_
  rw [List.mem_map, List.mem_singleton]
  constructor
  · rintro ⟨r, hr, rfl⟩
    exact eq_of_beq (List.mem_filter.1 hr).2
  · rintro rfl
    obtain ⟨r, hr, rfl⟩ := mem_typeIds_iff.1 h
    exact ⟨r, List.mem_filter.2 ⟨hr, beq_self_eq_true _⟩, rfl⟩

theorem tableTypesOfRows_rowsOf (types : TypeCatalog) (h : id ∈ typeIds rows) :
    types.tableTypesOfRows (rowsOf id rows) =
      ((types.tableTypeOfRows id (rowsOf id rows)).toOption.toList,
        (warning? (types.tableTypeOfRows id (rowsOf id rows))).toList) := by
  rw [tableTypesOfRows_eq, typeIds_rowsOf h, List.filterMap_eq_flatMap_toList,
    List.filterMap_eq_flatMap_toList, List.flatMap_singleton, List.flatMap_singleton, rowsOf_rowsOf]

theorem tableTypesOfRows_rowsOf_of_not_mem (types : TypeCatalog) (h : id ∉ typeIds rows) :
    types.tableTypesOfRows (rowsOf id rows) = ([], []) := by
  have hnone : typeIds [] = [] := List.mergeSort_nil
  rw [rowsOf_eq_nil h, tableTypesOfRows_eq, hnone, List.filterMap_nil, List.filterMap_nil]

/-- The rows about each table type come to what they come to by themselves. -/
theorem tableTypesOfRows_eq_flatMap (types : TypeCatalog) (rows : List Row) :
    types.tableTypesOfRows rows =
      ((typeIds rows).flatMap fun id => (types.tableTypesOfRows (rowsOf id rows)).1,
        (typeIds rows).flatMap fun id => (types.tableTypesOfRows (rowsOf id rows)).2) := by
  rw [tableTypesOfRows_eq, List.filterMap_eq_flatMap_toList, List.filterMap_eq_flatMap_toList]
  refine Prod.ext ?_ ?_
  · refine List.flatMap_congr fun id hid => ?_
    rw [tableTypesOfRows_rowsOf types hid]
  · refine List.flatMap_congr fun id hid => ?_
    rw [tableTypesOfRows_rowsOf types hid]

theorem id_of_mem_tableTypesOfRows_rowsOf (h : id ∈ typeIds rows)
    (ht : t ∈ (types.tableTypesOfRows (rowsOf id rows)).1) : t.id = narrow32 id := by
  rw [tableTypesOfRows_rowsOf types h, Option.mem_toList] at ht
  exact id_of_tableTypeOfRows (toOption_eq_some_iff.1 ht)

/-- Rows come to one table type with all of its columns or, if a column cannot be bound, to one
warning. -/
def IsAllOrNone (types : TypeCatalog) (id : Int) (rows : List Row)
    (loaded : List TableType × List Warning) : Prop :=
  ((∀ r ∈ rows, types.Supports r) ∧ ∃ t, loaded = ([t], []) ∧ t.id = id ∧ IsWhole types rows t) ∨
    ((∃ r ∈ rows, ¬ types.Supports r) ∧ ∃ w, loaded = ([], [w]) ∧ IsRefused types rows w)

theorem isAllOrNone_of_mem_typeIds (types : TypeCatalog) (h : id ∈ typeIds rows) :
    IsAllOrNone types (narrow32 id) (rowsOf id rows)
      (types.tableTypesOfRows (rowsOf id rows)) := by
  rw [tableTypesOfRows_rowsOf types h]
  cases hresult : types.tableTypeOfRows id (rowsOf id rows) with
  | ok t =>
      obtain ⟨hsupported, hwhole⟩ := isWhole_of_tableTypeOfRows (rowsOf_ne_nil h) hresult
      exact .inl ⟨hsupported, t, rfl, id_of_tableTypeOfRows hresult, hwhole⟩
  | error w =>
      obtain ⟨hunsupported, hrefused⟩ := isRefused_of_tableTypeOfRows (rowsOf_ne_nil h) hresult
      exact .inr ⟨hunsupported, w, rfl, hrefused⟩

/-- Each id in the rows has one table type with all of its columns or, if a column cannot be bound,
one warning. The rows about the others play no part in it, and other ids have no table types. -/
theorem tableTypesOfRows_all_or_none (types : TypeCatalog) {rows : List Row}
    (hids : ∀ r ∈ rows, FitsIn32 (typeId r)) :
    (∀ r ∈ rows, IsAllOrNone types (typeId r) (rowsOf (typeId r) rows)
      (types.tableTypesOfRows (rowsOf (typeId r) rows))) ∧
    (∀ id, (types.tableTypesOfRows rows).1.filter (·.id == id) =
      (types.tableTypesOfRows (rowsOf id rows)).1) ∧
    (∀ t ∈ (types.tableTypesOfRows rows).1, ∃ r ∈ rows, typeId r = t.id) ∧
    ∃ ids : List Int, ids.Pairwise (· < ·) ∧ (∀ id, id ∈ ids ↔ ∃ r ∈ rows, typeId r = id) ∧
      types.tableTypesOfRows rows =
        (ids.flatMap fun id => (types.tableTypesOfRows (rowsOf id rows)).1,
          ids.flatMap fun id => (types.tableTypesOfRows (rowsOf id rows)).2) := by
  have hkept : ∀ id ∈ typeIds rows, narrow32 id = id := by
    intro id hid
    obtain ⟨r, hr, rfl⟩ := mem_typeIds_iff.1 hid
    exact narrow32_eq_self (hids r hr).1 (hids r hr).2
  have hown : ∀ id ∈ typeIds rows,
      ∀ t ∈ (types.tableTypesOfRows (rowsOf id rows)).1, t.id = id := by
    intro id hid t ht
    rw [id_of_mem_tableTypesOfRows_rowsOf hid ht, hkept id hid]
  have hall := tableTypesOfRows_eq_flatMap types rows
  refine ⟨fun r hr => ?_, fun id => ?_, fun t ht => ?_, typeIds rows, pairwise_lt_orderedKeys _,
    fun id => mem_typeIds_iff, hall⟩
  · have hid : typeId r ∈ typeIds rows := mem_typeIds_iff.2 ⟨r, hr, rfl⟩
    have hloaded := isAllOrNone_of_mem_typeIds types hid
    rwa [hkept _ hid] at hloaded
  · rw [hall]
    by_cases hid : id ∈ typeIds rows
    · exact filter_flatMap_of_mem (nodup_orderedKeys _ _) hown hid
    · rw [filter_flatMap_of_not_mem hown hid, tableTypesOfRows_rowsOf_of_not_mem types hid]
  · rw [hall] at ht
    obtain ⟨id, hid, ht⟩ := List.mem_flatMap.1 ht
    rw [hown id hid t ht]
    exact mem_typeIds_iff.1 hid

def typeRow (id : Int) (typeName : String) (columnId : Int) (name : String) (type : Int) : Row :=
  ⟨[("user_type_id", .int id), ("schema_name", .text "dbo"), ("type_name", .text typeName),
    ("column_id", .int columnId), ("column_name", .text name), ("system_type_id", .int type)]⟩

/-- A catalog with integers only. -/
def intTypes : TypeCatalog :=
  { systemTypes := [(56, "int")] }

/-- Rows about a pair, and between them a row about a type with a column that cannot be bound. -/
def mixedRows : List Row :=
  [typeRow 257 "Pair" 2 "Name" 56, typeRow 258 "Spot" 1 "Place" 240, typeRow 257 "Pair" 1 "Id" 56]

theorem mixedRows_loaded :
    (∃ t, (intTypes.tableTypesOfRows mixedRows).1.filter (·.id == 257) = [t] ∧
      t.columns.length = 2 ∧ IsWhole intTypes (rowsOf 257 mixedRows) t) ∧
    (intTypes.tableTypesOfRows mixedRows).1.filter (·.id == 258) = [] ∧
    ∃ w, (intTypes.tableTypesOfRows (rowsOf 258 mixedRows)).2 = [w] := by
  have hids : ∀ r ∈ mixedRows, FitsIn32 (typeId r) := by decide +kernel
  obtain ⟨hloaded, hfilter, -⟩ := tableTypesOfRows_all_or_none intTypes hids
  obtain ⟨hpair, hspot, -⟩ := List.forall_mem_cons.1 hloaded |>.imp_right List.forall_mem_cons.1
  have hpairId : typeId (typeRow 257 "Pair" 2 "Name" 56) = 257 := by decide +kernel
  have hspotId : typeId (typeRow 258 "Spot" 1 "Place" 240) = 258 := by decide +kernel
  rw [hpairId] at hpair
  rw [hspotId] at hspot
  rw [hfilter, hfilter]
  refine ⟨?_, ?_⟩
  · obtain ⟨-, t, ht, -, hwhole⟩ | ⟨hunsupported, -⟩ := hpair
    · obtain ⟨ordered, hperm, hcolumns, -⟩ := hwhole.columns
      refine ⟨t, congrArg Prod.fst ht, ?_, hwhole⟩
      rw [← hcolumns.length_eq, hperm.length_eq]
      decide +kernel
    · exact absurd hunsupported (by decide +kernel)
  · obtain ⟨hsupported, -⟩ | ⟨-, w, hw, -⟩ := hspot
    · exact absurd hsupported (by decide +kernel)
    · exact ⟨congrArg Prod.fst hw, w, congrArg Prod.snd hw⟩

/-- The first column id is cut to 1. -/
def wideRows : List Row :=
  [typeRow 257 "Pair" 4294967297 "Id" 56, typeRow 257 "Pair" 2 "Name" 56]

/-- Column ids of more than 32 bits do not order the columns. -/
theorem wideRows_out_of_order :
    (∀ r ∈ wideRows, FitsIn32 (typeId r)) ∧
    ∃ t, intTypes.tableTypesOfRows wideRows = ([t], []) ∧
      ¬ ∃ ordered : List Row, ordered.Perm wideRows ∧
        List.Forall₂ (fun r c => Column.ofRow intTypes r = .ok c) ordered t.columns ∧
        ordered.Pairwise fun a b => a.int "column_id" ≤ b.int "column_id" := by
  have hids : typeIds wideRows = [257] := by decide +kernel
  have hrows : rowsOf 257 wideRows = wideRows := List.filter_eq_self.2 (by decide +kernel)
  have hfound : (intTypes.columnsOfRows ⟨"dbo", "Pair"⟩ wideRows).toOption.map
      (fun columns => columns.map (·.ordinal)) = some [1, 2] := by
    decide +kernel
  obtain ⟨columns, hcolumns, hplaces⟩ := Option.map_eq_some_iff.1 hfound
  have hsorted : Column.byOrdinal columns = columns := by
    refine mergeSort_eq_of_perm (.refl _) (List.pairwise_map.1 ?_)
    rw [hplaces]
    decide
  have hone : intTypes.tableTypeOfRows 257 wideRows = .ok ⟨257, ⟨"dbo", "Pair"⟩, columns⟩ := by
    have hname : nameOf (typeRow 257 "Pair" 4294967297 "Id" 56) = ⟨"dbo", "Pair"⟩ := by
      decide +kernel
    rw [wideRows, tableTypeOfRows_cons, hname]
    refine map_eq_ok.2 ⟨columns, toOption_eq_some_iff.1 hcolumns, ?_⟩
    rw [hsorted]
    rfl
  refine ⟨by decide +kernel, ⟨257, ⟨"dbo", "Pair"⟩, columns⟩, ?_, ?_⟩
  · rw [tableTypesOfRows_eq, hids, List.filterMap_cons, List.filterMap_cons, hrows, hone]
    rfl
  · rintro ⟨ordered, hperm, hordered, hsortedIds⟩
    have hplaced : ordered.map Column.ordinalOf = [1, 2] :=
      (map_ordinalOf_of_forall₂ hordered).trans hplaces
    have hidOf : ∀ r ∈ wideRows, r.int "column_id" =
        if Column.ordinalOf r = 1 then 4294967297 else 2 := by
      decide +kernel
    have hcolumnIds : ordered.map (·.int "column_id") = [4294967297, 2] := by
      have hmap : ordered.map (·.int "column_id") = (ordered.map Column.ordinalOf).map
          fun place => if place = 1 then 4294967297 else 2 := by
        rw [List.map_map]
        exact List.map_congr_left fun r hr => hidOf r (hperm.subset hr)
      rw [hmap, hplaced]
      decide
    have hle := List.pairwise_map.2 hsortedIds
    rw [hcolumnIds] at hle
    exact absurd hle (by decide)

end TypeCatalog

end QueryShape
