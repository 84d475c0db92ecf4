import Mathlib.Data.List.DropRight
import QueryShape.Catalog.Types
import QueryShape.Inference.Parameters
import QueryShape.Proofs.Accounts.Unit
import QueryShape.Proofs.GlobalNames
import QueryShape.Proofs.RowSource

/-!
Names in brackets that are read again. A reader takes any run of brackets and quotes off the ends
of an identifier and leaves a doubled bracket inside it doubled, so a name comes back exactly if it
holds no closing bracket and neither starts nor ends with a mark that is taken off.
-/

namespace QueryShape

open QueryShape.Text
open QueryShape.Unicode

namespace Text

theorem toLower_eq_iff {c d : Char} (hd : d.isAlpha = false) : c.toLower = d ↔ c = d := by
  rw [← Bool.not_eq_true, isAlpha_iff] at hd
  rw [← Char.toNat_inj, ← Char.toNat_inj, toNat_toLower]
  split <;> omega

theorem mem_folded_iff {s : String} {d : Char} (hd : d.isAlpha = false) :
    d ∈ folded s ↔ d ∈ s.toList := by
  simp [folded, toLower_eq_iff hd]

theorem folded_ofList (cs : List Char) : folded (String.ofList cs) = cs.map Char.toLower := by
  rw [folded, String.toList_ofList]

end Text

namespace Identifier

variable {cs part u w : List Char} {c : Char}

/-- The marks that a reader takes off the front of an identifier. -/
def opensPart (c : Char) : Bool :=
  c == '[' || c == '"'

/-- The marks that a reader takes off the end of an identifier. -/
def closesPart (c : Char) : Bool :=
  c == ']' || c == '"'

theorem bare_eq (cs : List Char) :
    bare cs = (((cs.dropWhile isBlank).rdropWhile isBlank).dropWhile opensPart).rdropWhile
      closesPart :=
  rfl

theorem opensPart_toLower (c : Char) : opensPart c.toLower = opensPart c := by
  rw [Bool.eq_iff_iff]
  simp [opensPart, toLower_eq_iff (d := '[') (by decide), toLower_eq_iff (d := '"') (by decide)]

theorem closesPart_toLower (c : Char) : closesPart c.toLower = closesPart c := by
  rw [Bool.eq_iff_iff]
  simp [closesPart, toLower_eq_iff (d := ']') (by decide), toLower_eq_iff (d := '"') (by decide)]

/-- An identifier that is the same after it is put in brackets and read again. -/
structure IsQuotable (cs : List Char) : Prop where
  unbroken : ']' ∉ cs
  front : ∀ c, cs.head? = some c → opensPart c = false
  back : ∀ c, cs.getLast? = some c → closesPart c = false

theorem head?_doubled (cs : List Char) : (doubled ']' cs).head? = cs.head? := by
  cases cs with
  | nil => rfl
  | cons c rest =>
      rw [doubled_cons, List.head?_append]
      split <;> rfl

theorem length_le_length_doubled (cs : List Char) : cs.length ≤ (doubled ']' cs).length := by
  induction cs with
  | nil => exact Nat.le_refl _
  | cons c rest ih =>
      rw [doubled_cons, List.length_append, List.length_cons]
      split <;> simp only [List.length_cons, List.length_nil] <;> omega

theorem eq_of_take_doubled {n : Nat}
    (h : ((List.replicate (n + 1) ']' ++ doubled ']' cs).take cs.length).map Char.toLower =
      cs.map Char.toLower) : ∀ c ∈ cs, c = ']' := by
  induction cs generalizing n with
  | nil => exact List.forall_mem_nil _
  | cons c rest ih =>
      rw [List.replicate_succ, List.cons_append, List.length_cons, List.take_succ_cons,
        List.map_cons, List.map_cons, List.cons.injEq] at h
      obtain ⟨hc, hrest⟩ := h
      obtain rfl : c = ']' := (toLower_eq_iff (by decide)).1 hc.symm
      refine List.forall_mem_cons.2 ⟨rfl, ih (n := n + 1) ?_⟩
      rw [← hrest, doubled_cons, if_pos rfl, List.replicate_succ', List.replicate_succ']
      simp only [List.append_assoc, List.cons_append, List.nil_append]

theorem not_mem_of_take_doubled
    (h : ((doubled ']' cs).take cs.length).map Char.toLower = cs.map Char.toLower)
    (hlast : cs.getLast? ≠ some ']') : ']' ∉ cs := by
  induction cs with
  | nil => exact List.not_mem_nil
  | cons c rest ih =>
      by_cases hc : c = ']'
      · subst hc
        rw [doubled_cons, if_pos rfl, List.cons_append, List.length_cons, List.take_succ_cons,
          List.map_cons, List.map_cons, List.cons.injEq] at h
        have hall := eq_of_take_doubled (n := 0) h.2
        refine absurd ?_ hlast
        cases hrest : rest.getLast? with
        | none =>
            rw [List.getLast?_eq_none_iff.1 hrest]
            rfl
        | some d =>
            rw [List.getLast?_cons, hrest, hall d (List.mem_of_getLast? hrest)]
            rfl
      · rw [doubled_cons, if_neg hc, List.singleton_append, List.length_cons, List.take_succ_cons,
          List.map_cons, List.map_cons, List.cons.injEq] at h
        refine List.not_mem_cons_of_ne_of_not_mem (Ne.symm hc) (ih h.2 fun hrest => hlast ?_)
        rw [List.getLast?_cons, hrest]
        rfl

theorem exists_front_of_bare (u : List Char) : ∃ v, v <+: u ∧
    bare ('[' :: u) = (v.dropWhile opensPart).rdropWhile closesPart := by
  have hfront : ('[' :: u).dropWhile isBlank = '[' :: u :=
    List.dropWhile_cons_of_neg (by decide)
  rw [bare_eq, hfront]
  rcases List.prefix_cons_iff.1 (List.rdropWhile_prefix isBlank ('[' :: u)) with h | ⟨v, h, hv⟩
  · exact ⟨[], List.nil_prefix, by rw [h]⟩
  · refine ⟨v, hv, ?_⟩
    rw [h, List.dropWhile_cons_of_pos (by decide)]

theorem head?_eq_of_front {xs ys : List Char} (h : xs <+: ys) (hc : xs.head? = some c) :
    ys.head? = some c := by
  obtain ⟨zs, rfl⟩ := h
  rw [List.head?_append, hc, Option.some_or]

theorem front_of_bare {v : List Char} :
    ∀ c, ((v.dropWhile opensPart).rdropWhile closesPart).head? = some c → opensPart c = false := by
  intro c hc
  have hstarts := List.rdropWhile_prefix closesPart (v.dropWhile opensPart)
  have hhead := List.head?_dropWhile_not opensPart v
  rw [head?_eq_of_front hstarts hc] at hhead
  exact hhead

theorem back_of_bare {v : List Char} :
    ∀ c, (v.rdropWhile closesPart).getLast? = some c → closesPart c = false := by
  intro c hc
  have hne : v.rdropWhile closesPart ≠ [] := by
    intro hnil
    rw [hnil] at hc
    cases hc
  have hlast := List.rdropWhile_last_not closesPart v hne
  rw [List.getLast?_eq_some_getLast hne] at hc
  rwa [Option.some.inj hc, Bool.not_eq_true] at hlast

theorem dropWhile_opensPart_of_prefix (hfront : ∀ c, part.head? = some c → opensPart c = false)
    (hu : u <+: doubled ']' part ++ ']' :: w) : u.dropWhile opensPart = u := by
  cases u with
  | nil => rfl
  | cons c u =>
      have hhead : (doubled ']' part ++ ']' :: w).head? = some c := head?_eq_of_front hu rfl
      apply List.dropWhile_cons_of_neg
      rw [Bool.not_eq_true]
      rw [List.head?_append, head?_doubled] at hhead
      cases hpart : part.head? with
      | none =>
          rw [hpart] at hhead
          obtain rfl := Option.some.inj hhead
          rfl
      | some d =>
          rw [hpart] at hhead
          obtain rfl := Option.some.inj hhead
          exact hfront d hpart

/-- What is read between a bracket and a text that starts like a part in brackets is not that part,
whatever its case, unless the part is quotable. -/
theorem isQuotable_of_bare (hu : u <+: doubled ']' part ++ ']' :: w)
    (h : (bare ('[' :: u)).map Char.toLower = part.map Char.toLower) : IsQuotable part := by
  obtain ⟨v, hv, hbare⟩ := exists_front_of_bare u
  rw [hbare] at h
  have hlength := congrArg List.length h
  rw [List.length_map, List.length_map] at hlength
  have hfront : ∀ c, part.head? = some c → opensPart c = false := by
    intro c hc
    have hfold := congrArg List.head? h
    rw [List.head?_map, List.head?_map, hc] at hfold
    obtain ⟨d, hd, hdc⟩ := Option.map_eq_some_iff.1 hfold
    rw [← opensPart_toLower, ← hdc, opensPart_toLower]
    exact front_of_bare d hd
  have hback : ∀ c, part.getLast? = some c → closesPart c = false := by
    intro c hc
    have hfold := congrArg List.getLast? h
    rw [List.getLast?_map, List.getLast?_map, hc] at hfold
    obtain ⟨d, hd, hdc⟩ := Option.map_eq_some_iff.1 hfold
    rw [← closesPart_toLower, ← hdc, closesPart_toLower]
    exact back_of_bare d hd
  refine ⟨?_, hfront, hback⟩
  -- The front of the part stays, so what is read is how its doubled form starts.
  have hkept := dropWhile_opensPart_of_prefix hfront (hv.trans hu)
  rw [hkept] at h hlength
  have hstarts : v.rdropWhile closesPart <+: doubled ']' part ++ ']' :: w :=
    (List.rdropWhile_prefix closesPart v).trans (hv.trans hu)
  rw [List.prefix_iff_eq_take, hlength,
    List.take_append_of_le_length (length_le_length_doubled part)] at hstarts
  rw [hstarts] at h
  refine not_mem_of_take_doubled h fun hlast => ?_
  have hclosing := hback ']' hlast
  cases hclosing

theorem IsQuotable.bare_eq_self (h : IsQuotable part) : bare ('[' :: (part ++ [']'])) = part := by
  have hfront : (part ++ [']']).dropWhile opensPart = part ++ [']'] := by
    cases part with
    | nil => rfl
    | cons c rest => exact List.dropWhile_cons_of_neg (by simp [h.front c rfl])
  have hback : part.rdropWhile closesPart = part := by
    rw [List.rdropWhile_eq_self_iff]
    intro hne
    rw [Bool.not_eq_true]
    exact h.back _ (List.getLast?_eq_some_getLast hne)
  rw [bare_eq, List.dropWhile_cons_of_neg (by decide), ← List.cons_append,
    List.rdropWhile_concat_neg _ _ _ (by decide), List.cons_append,
    List.dropWhile_cons_of_pos (by decide), hfront, List.rdropWhile_concat_pos _ _ _ (by decide),
    hback]

end Identifier

namespace QualifiedName

variable {n : QualifiedName} {cs head tail : List Char} {closing : Option Char}

/-- Both parts of a name can be put in brackets and read again. -/
def IsQuotable (n : QualifiedName) : Prop :=
  Identifier.IsQuotable n.schema.toList ∧ Identifier.IsQuotable n.name.toList

/-- Names that differ by case only. -/
def isSame (a b : QualifiedName) : Bool :=
  sameIgnoringCase a.schema b.schema && sameIgnoringCase a.name b.name

theorem isSame_iff {a b : QualifiedName} :
    a.isSame b = true ↔ folded a.schema = folded b.schema ∧ folded a.name = folded b.name := by
  rw [isSame, Bool.and_eq_true, sameIgnoringCase_iff, sameIgnoringCase_iff]

theorem toList_full (n : QualifiedName) : n.full.toList =
    '[' :: (Identifier.doubled ']' n.schema.toList ++
      ']' :: '.' :: '[' :: (Identifier.doubled ']' n.name.toList ++ [']'])) := by
  have hdot : ".".toList = ['.'] := by decide
  simp [full, Identifier.quote, hdot]

theorem trimBlanks_full (n : QualifiedName) : trimBlanks n.full.toList = n.full.toList := by
  have hlast : n.full.toList = '[' :: (Identifier.doubled ']' n.schema.toList ++
      ']' :: '.' :: '[' :: Identifier.doubled ']' n.name.toList) ++ [']'] := by
    simp [toList_full]
  unfold trimBlanks
  rw [hlast, List.cons_append, List.dropWhile_cons_of_neg (by decide), ← List.cons_append]
  exact List.rdropWhile_concat_neg _ _ _ (by decide)

theorem eq_of_cutAtDot (h : cutAtDot closing cs = some (head, tail)) :
    cs = head ++ '.' :: tail := by
  induction cs generalizing closing head with
  | nil => cases h
  | cons c rest ih =>
      unfold cutAtDot at h
      split at h
      · rename_i hcut
        obtain ⟨rfl, rfl⟩ := Prod.mk.inj (Option.some.inj h)
        rw [hcut.2, List.nil_append]
      · obtain ⟨⟨front, back⟩, hrest, heq⟩ := Option.map_eq_some_iff.1 h
        obtain ⟨rfl, rfl⟩ := Prod.mk.inj heq
        rw [ih hrest, List.cons_append]

theorem cutAtDot_bracketed {part : List Char} (h : ']' ∉ part) (tail : List Char) :
    cutAtDot none ('[' :: (part ++ ']' :: '.' :: tail)) = some ('[' :: (part ++ [']']), tail) := by
  have hinside : cutAtDot (some ']') (part ++ ']' :: '.' :: tail) = some (part ++ [']'], tail) := by
    induction part with
    | nil => simp [cutAtDot, quotationAfter]
    | cons c rest ih =>
        obtain ⟨hc, hrest⟩ := List.ne_and_not_mem_of_not_mem_cons h
        simp [cutAtDot, quotationAfter, Ne.symm hc, ih hrest]
  simp [cutAtDot, quotationAfter, hinside]

theorem IsQuotable.parse_full (h : n.IsQuotable) (defaultSchema : String) :
    parse defaultSchema n.full = n := by
  unfold parse
  rw [trimBlanks_full, toList_full, Identifier.doubled_eq_self h.1.unbroken,
    Identifier.doubled_eq_self h.2.unbroken]
  dsimp only
  rw [cutAtDot_bracketed h.1.unbroken]
  dsimp only
  rw [h.1.bare_eq_self, h.2.bare_eq_self, String.ofList_toList, String.ofList_toList]

/-- A name that is read as itself up to case, once it is in brackets, is quotable. -/
theorem isQuotable_of_isSame_parse (h : n.isSame (parse "dbo" n.full) = true) : n.IsQuotable := by
  rw [isSame_iff] at h
  unfold parse at h
  rw [trimBlanks_full, toList_full] at h
  dsimp only at h
  have hschema : Identifier.IsQuotable n.schema.toList := by
    split at h
    · rename_i head tail hcut
      have hparts := eq_of_cutAtDot hcut
      cases head with
      | nil => cases hparts
      | cons c u =>
          obtain ⟨rfl, hu⟩ := List.cons.inj hparts
          have hread : (Identifier.bare ('[' :: u)).map Char.toLower = folded n.schema := by
            rw [h.1, folded_ofList]
          exact Identifier.isQuotable_of_bare ⟨'.' :: tail, hu.symm⟩ hread
    · rename_i hnone
      have hdefault : folded n.schema = folded "dbo" := h.1
      have hbracket : ']' ∉ n.schema.toList := by
        rw [← mem_folded_iff (by decide), hdefault]
        decide
      rw [Identifier.doubled_eq_self hbracket, cutAtDot_bracketed hbracket] at hnone
      cases hnone
  refine ⟨hschema, ?_⟩
  rw [Identifier.doubled_eq_self hschema.unbroken, cutAtDot_bracketed hschema.unbroken] at h
  have hname : (Identifier.bare ('[' :: (Identifier.doubled ']' n.name.toList ++ [']']))).map
      Char.toLower = folded n.name := by
    rw [h.2, folded_ofList]
  exact Identifier.isQuotable_of_bare (List.prefix_refl _) hname

theorem parse_full_eq_iff :
    (∀ defaultSchema, parse defaultSchema n.full = n) ↔ n.IsQuotable := by
  refine ⟨fun h => ?_, fun h => h.parse_full⟩
  apply isQuotable_of_isSame_parse
  rw [h, isSame_iff]
  exact ⟨rfl, rfl⟩

end QualifiedName

/-- No two types have one name, up to case. -/
def HaveDistinctTypeNames (types : List TableType) : Prop :=
  types.Pairwise fun t u => t.name.isSame u.name = false

instance (types : List TableType) : Decidable (HaveDistinctTypeNames types) :=
  inferInstanceAs (Decidable (types.Pairwise _))

theorem findTableType?_eq_find? (types : List TableType) (text : String) :
    findTableType? types text =
      types.find? fun t => t.name.isSame (QualifiedName.parse "dbo" text) :=
  rfl

theorem HaveDistinctTypeNames.findTableType?_eq {types : List TableType} {t : TableType}
    (h : HaveDistinctTypeNames types) (ht : t ∈ types) {text : String}
    (htext : QualifiedName.parse "dbo" text = t.name) : findTableType? types text = some t := by
  have hkeys : types.Pairwise fun t u => (folded t.name.schema, folded t.name.name) ≠
      (folded u.name.schema, folded u.name.name) := by
    refine h.imp fun {t u} hne heq => ?_
    rw [Prod.mk.injEq, ← QualifiedName.isSame_iff, hne] at heq
    cases heq
  rw [findTableType?_eq_find?, htext, ← find?_eq_some_of_pairwise hkeys ht]
  rfl

theorem findTableType?_full_iff {types : List TableType} {t : TableType}
    (h : HaveDistinctTypeNames types) (ht : t ∈ types) :
    findTableType? types t.name.full = some t ↔ t.name.IsQuotable := by
  constructor
  · intro hfound
    rw [findTableType?_eq_find?] at hfound
    have hsame := List.find?_some hfound
    exact QualifiedName.isQuotable_of_isSame_parse hsame
  · intro hquotable
    exact h.findTableType?_eq ht (hquotable.parse_full "dbo")

namespace Inference

theorem pinnedType?_eq_table_iff {types : TypeCatalog} {script : Script} {rule : EffectiveRule}
    {name declaration : String} {t : TableType}
    (hrule : (rule.parameter? name).bind (·.sqlType) = none)
    (hhints : script.hints = [⟨name, declaration⟩]) :
    pinnedType? types script rule name = some (.table t) ↔
      types.tableTypeNamed? declaration = some t := by
  unfold pinnedType?
  simp only [hrule, hhints, List.find?_cons, beq_self_eq_true, Option.none_or, Option.map_some,
    Option.some.injEq]
  cases types.tableTypeNamed? declaration with
  | none => exact iff_of_false nofun nofun
  | some u => rw [PinnedType.table.injEq, Option.some.injEq]

end Inference

theorem hints_of_batchRead {table : Table} {types : List TableType} {r : TableScriptRule}
    {s : Script} (hkind : r.kind.usesTableType = true)
    (h : synthesizeScript table types r = .ok s) :
    ∃ p choice, ColumnPlan.ofRule table r = .ok p ∧
      TableTypeChoice.select table r.kind p.keys types r.tableType = .ok choice ∧
        choice.type ∈ types ∧ s.hints = [⟨Statement.keysParameter, choice.type.name.full⟩] := by
  obtain ⟨p, hp, h⟩ := bind_eq_ok.1 h
  obtain ⟨statement, hstatement, rfl⟩ := map_eq_ok.1 h
  obtain ⟨choice, hchoice, rfl⟩ := Statement.selectJoined_of_ofPlan hkind hstatement
  exact ⟨p, choice, hp, hchoice, (TableTypeChoice.select_eq_ok hchoice).1, rfl⟩

open Inference in
/-- Names are what they were after they are put in brackets and read again exactly if they are
quotable. So these are the table types that a catalog finds by their full names, and the ones that
the keys of a batch read are pinned to where they were chosen for it. -/
theorem TypeCatalog.tableTypeNamed?_full_iff {types : TypeCatalog}
    (hdistinct : HaveDistinctTypeNames types.tableTypes) :
    (∀ n : QualifiedName,
      (∀ defaultSchema, QualifiedName.parse defaultSchema n.full = n) ↔ n.IsQuotable) ∧
    (∀ t ∈ types.tableTypes,
      types.tableTypeNamed? t.name.full = some t ↔ t.name.IsQuotable) ∧
    ∀ (table : Table) (r : TableScriptRule) (s : Script), r.kind.usesTableType = true →
      synthesizeScript table types.tableTypes r = .ok s →
        ∃ p choice, ColumnPlan.ofRule table r = .ok p ∧
          TableTypeChoice.select table r.kind p.keys types.tableTypes r.tableType = .ok choice ∧
          s.hints = [⟨Statement.keysParameter, choice.type.name.full⟩] ∧
          ∀ rule : EffectiveRule,
            (rule.parameter? Statement.keysParameter).bind (·.sqlType) = none →
              (pinnedType? types s rule Statement.keysParameter = some (.table choice.type) ↔
                choice.type.name.IsQuotable) := by
  refine ⟨fun n => QualifiedName.parse_full_eq_iff,
    fun t ht => findTableType?_full_iff hdistinct ht, fun table r s hkind hs => ?_⟩
  obtain ⟨p, choice, hp, hchoice, hmem, hhints⟩ := hints_of_batchRead hkind hs
  refine ⟨p, choice, hp, hchoice, hhints, fun rule hrule => ?_⟩
  rw [pinnedType?_eq_table_iff hrule hhints]
  exact findTableType?_full_iff hdistinct hmem

def idsColumn : Column :=
  { name := "Id", ordinal := 1, type := ⟨"int", .int, "0"⟩ }

def idsType (name : QualifiedName) : TableType :=
  { id := 2, name, columns := [idsColumn] }

/-- A catalog of two types, only one of which has a column. -/
def idsCatalog (name : QualifiedName) : TypeCatalog :=
  { tableTypes := [{ id := 1, name := ⟨"dbo", "Id"⟩, columns := [] }, idsType name] }

def idsTable : Table :=
  { name := ⟨"dbo", "Widgets"⟩, columns := [idsColumn], primaryKey := [idsColumn], isView := false }

/-- A name with a dot, blanks, quotes and an opening bracket. -/
def dottedName : QualifiedName :=
  ⟨"my.schema", " the \"Ids\" [1"⟩

/-- Marks inside a name do no harm. -/
theorem idsCatalog_finds_dottedName :
    HaveDistinctTypeNames (idsCatalog dottedName).tableTypes ∧
      dottedName.full = "[my.schema].[ the \"Ids\" [1]" ∧
      (idsCatalog dottedName).tableTypeNamed? "[my.schema].[ the \"Ids\" [1]" =
        some (idsType dottedName) := by
  have hdistinct : HaveDistinctTypeNames (idsCatalog dottedName).tableTypes := by decide
  have hfull : dottedName.full = "[my.schema].[ the \"Ids\" [1]" := by decide
  have hquotable : dottedName.IsQuotable :=
    ⟨⟨by decide, by rintro _ ⟨⟩; rfl, by rintro _ ⟨⟩; rfl⟩,
      ⟨by decide, by rintro _ ⟨⟩; rfl, by rintro _ ⟨⟩; rfl⟩⟩
  obtain ⟨-, hfinds, -⟩ := TypeCatalog.tableTypeNamed?_full_iff hdistinct
  refine ⟨hdistinct, hfull, ?_⟩
  rw [← hfull]
  exact (hfinds (idsType dottedName) (by decide)).2 hquotable

open Inference in
/-- A type is not found by its own full name, and the keys of the batch read that it is chosen for
are taken for a scalar. -/
theorem idsCatalog_loses_bracket :
    HaveDistinctTypeNames (idsCatalog ⟨"dbo", "Id]List"⟩).tableTypes ∧
      (idsCatalog ⟨"dbo", "Id]List"⟩).tableTypeNamed? (QualifiedName.full ⟨"dbo", "Id]List"⟩) =
        none ∧
      (synthesizeScript idsTable (idsCatalog ⟨"dbo", "Id]List"⟩).tableTypes
        { kind := .getByIdBatch }).toOption.map (fun s =>
          (s.hints, pinnedType? (idsCatalog ⟨"dbo", "Id]List"⟩) s {} "@keys")) =
        some ([⟨"@keys", "[dbo].[Id]]List]"⟩], some (.scalar "[dbo].[Id]]List]")) := by
  decide +kernel

end QueryShape
