import QueryShape.Proofs.GlobalNames
import QueryShape.Proofs.Result
import QueryShape.Script.Synthesis

/-!
The parameters of generated scripts. The main statement says that a script can pass the values of
any row, each under the type of its column, exactly if no two of its columns share a parameter.
-/

namespace QueryShape

open QueryShape.Identifier
open QueryShape.Text
open QueryShape.Unicode

/-- The key of the parameter that stands for a column. -/
def Column.parameterKey (c : Column) : String :=
  Identifier.parameterKey (parameterName c.name)

theorem forall_exists_byKey_iff {α κ : Type} [DecidableEq α] [BEq κ] [LawfulBEq κ] (key : α → κ)
    (as : List α) :
    (∀ value : α → String, ∃ byKey : κ → String, ∀ a ∈ as, byKey (key a) = value a) ↔
      ∀ a ∈ as, ∀ b ∈ as, key a = key b → a = b := by
  constructor
  · intro h a ha b hb hkey
    -- Values that tell one element from all others.
    obtain ⟨byKey, hvalues⟩ := h fun x => if x = a then "own" else "other"
    have hown : byKey (key a) = "own" := by
      rw [hvalues a ha, if_pos rfl]
    by_cases hba : b = a
    · exact hba.symm
    · have hother : byKey (key b) = "other" := by
        rw [hvalues b hb, if_neg hba]
      rw [← hkey, hown] at hother
      simp at hother
  · intro h value
    refine ⟨fun k => ((as.find? fun a => key a == k).map value).getD "", ?_⟩
    intro a ha
    have hfound : as.find? (fun b => key b == key a) = some a := by
      cases hfind : as.find? fun b => key b == key a with
      | none => exact absurd (beq_self_eq_true (key a)) (List.find?_eq_none.1 hfind a ha)
      | some b =>
          have hkey := List.find?_some hfind
          rw [h b (List.mem_of_find?_eq_some hfind) a ha (eq_of_beq hkey)]
    dsimp only
    rw [hfound]
    rfl

namespace Statement

/-- Whatever values a row has, there are values for the parameters so that each column gets its
own. -/
def PassesRows (s : Statement) : Prop :=
  ∀ row : Column → String, ∃ passed : String → String,
    ∀ c ∈ s.valueColumns, passed c.parameterKey = row c

/-- The type of a parameter is the type of each column that it stands for. -/
def TypesColumns (s : Statement) : Prop :=
  ∀ h ∈ s.hints, ∀ c ∈ s.valueColumns, Identifier.parameterKey h.name = c.parameterKey →
    h.declaration = c.declaration

/-- No two columns that a statement takes values for share a parameter. -/
def SeparatesColumns (s : Statement) : Prop :=
  ∀ c ∈ s.valueColumns, ∀ d ∈ s.valueColumns, c.parameterKey = d.parameterKey → c = d

/-- There is one hint for each parameter, about a column that it stands for. -/
structure HintsParameters (s : Statement) : Prop where
  keys : s.hints.Pairwise fun h i =>
    Identifier.parameterKey h.name ≠ Identifier.parameterKey i.name
  columns : ∀ h ∈ s.hints, ∃ c ∈ s.valueColumns, h = ⟨parameterName c.name, c.declaration⟩
  parameters : ∀ c ∈ s.valueColumns, ∃ h ∈ s.hints,
    Identifier.parameterKey h.name = c.parameterKey

variable {s : Statement}

theorem passesRows_iff_separatesColumns : s.PassesRows ↔ s.SeparatesColumns :=
  forall_exists_byKey_iff Column.parameterKey s.valueColumns

theorem valueEquations_congr {value value' : Column → String} {cs : List Column}
    (h : ∀ c ∈ cs, value c = value' c) : valueEquations value cs = valueEquations value' cs := by
  apply List.map_congr_left
  intro c hc
  rw [h c hc]

theorem textWith_congr {value value' : Column → String}
    (h : ∀ c ∈ s.valueColumns, value c = value' c) (table : QualifiedName) :
    s.textWith value table = s.textWith value' table := by
  cases s with
  | selectJoined columns choice => rfl
  | insertStaged columns output => rfl
  | updateStaged set keys output staged => rfl
  | select columns keys =>
      have hkeys : valueEquations value keys = valueEquations value' keys := valueEquations_congr h
      unfold textWith selectText
      dsimp only
      rw [hkeys]
  | insert columns output =>
      have hcolumns : columns.map value = columns.map value' := List.map_congr_left h
      unfold textWith insertText
      dsimp only
      rw [hcolumns]
  | update set keys output =>
      obtain ⟨hset, hkeys⟩ := List.forall_mem_append.1 h
      unfold textWith
      dsimp only
      rw [valueEquations_congr hset, valueEquations_congr hkeys]
  | delete keys output =>
      have hkeys : valueEquations value keys = valueEquations value' keys := valueEquations_congr h
      unfold textWith
      dsimp only
      rw [hkeys]
  | merge source sourceColumns holdlock keys set inserted output =>
      cases source with
      | staging => rfl
      | parameters =>
          have hsource : (sourceColumns.map fun c => value c ++ " AS " ++ quote c.name) =
              sourceColumns.map fun c => value' c ++ " AS " ++ quote c.name := by
            apply List.map_congr_left
            intro c hc
            rw [h c hc]
          unfold textWith sourceText
          dsimp only
          rw [hsource]

theorem PassesRows.exists_textWith_eq (h : s.PassesRows) (table : QualifiedName)
    (row : Column → String) :
    ∃ passed : String → String,
      s.textWith (fun c => passed c.parameterKey) table = s.textWith row table := by
  obtain ⟨passed, hpassed⟩ := h row
  exact ⟨passed, textWith_congr hpassed table⟩

theorem hintsParameters (h : ∀ columns choice, s ≠ .selectJoined columns choice) :
    s.HintsParameters := by
  have hhints : s.hints = firstOfEach (fun h => Identifier.parameterKey h.name)
      (s.valueColumns.map fun c => ⟨parameterName c.name, c.declaration⟩) := by
    cases s with
    | selectJoined columns choice => exact absurd rfl (h columns choice)
    | _ => rfl
  constructor
  · rw [hhints]
    exact pairwise_firstOfEach _ _
  · rw [hhints]
    intro i hi
    obtain ⟨c, hc, rfl⟩ := List.mem_map.1 ((firstOfEach_sublist _ _).subset hi)
    exact ⟨c, hc, rfl⟩
  · intro c hc
    have hkeys : (s.valueColumns.map fun d =>
        (⟨parameterName d.name, d.declaration⟩ : ParameterHint)).map
          (fun i => Identifier.parameterKey i.name) = s.valueColumns.map Column.parameterKey := by
      rw [List.map_map]
      rfl
    have hkey : c.parameterKey ∈ s.valueColumns.map Column.parameterKey := List.mem_map_of_mem hc
    rw [← hkeys, ← mem_map_firstOfEach, ← hhints] at hkey
    exact List.mem_map.1 hkey

theorem HintsParameters.typesColumns (h : s.HintsParameters) (hseparates : s.SeparatesColumns) :
    s.TypesColumns := by
  intro i hi c hc hkey
  obtain ⟨d, hd, rfl⟩ := h.columns i hi
  rw [hseparates d hd c hc hkey]

end Statement

namespace ColumnPlan

variable {table : Table} {r : TableScriptRule} {p : ColumnPlan}

theorem mem_of_filterColumns {kind : ScriptKind} {names : List String} {cs : List Column}
    (h : filterColumns table kind names = .ok cs) : ∀ c ∈ cs, c ∈ table.columns := by
  intro c hc
  obtain ⟨name, -, hname⟩ := exists_of_mem_mapM h c hc
  cases hfound : table.column? name with
  | none =>
      rw [hfound] at hname
      cases hname
  | some d =>
      rw [hfound] at hname
      obtain rfl := Except.ok.inj hname
      exact List.mem_of_find?_eq_some hfound

theorem mem_of_keysFor {keys : List Column} (h : keysFor table r = .ok keys) :
    ∀ c ∈ keys, c ∈ table.columns := by
  unfold keysFor at h
  split at h
  · split at h
    · cases h
    · exact mem_of_filterColumns h
  · split at h
    · split at h
      · cases h
      · rename_i keys' hkeys
        obtain rfl := Except.ok.inj h
        intro c hc
        obtain ⟨k, -, hk⟩ := List.mem_filterMap.1 hc
        exact List.mem_of_find?_eq_some hk
    · obtain rfl := Except.ok.inj h
      exact List.forall_mem_nil _

theorem mem_of_ofRule (h : ofRule table r = .ok p) :
    ∀ c, c ∈ p.keys ∨ c ∈ p.insert ∨ c ∈ p.set ∨ c ∈ p.mergeColumns table → c ∈ table.columns := by
  obtain ⟨keys, hkeys, rfl⟩ := map_eq_ok.1 h
  rintro c (hc | hc | hc | hc)
  · exact mem_of_keysFor hkeys c hc
  · exact (List.mem_filter.1 hc).1
  · exact (List.mem_filter.1 hc).1
  · exact (List.mem_filter.1 hc).1

end ColumnPlan

namespace Statement

variable {table : Table} {r : TableScriptRule} {types : List TableType} {p : ColumnPlan}
  {s s' : Statement}

theorem eq_of_requireColumns {purpose : ColumnPurpose} {cs : List Column}
    (h : requireColumns table r.kind purpose cs s' = .ok s) : s = s' := by
  unfold requireColumns at h
  split at h
  · cases h
  · exact (Except.ok.inj h).symm

theorem valueColumns_of_ofPlan (h : ofPlan table r types p = .ok s) :
    (r.kind.usesTableType = false → ∀ columns choice, s ≠ .selectJoined columns choice) ∧
      ∀ c ∈ s.valueColumns, c ∈ p.keys ∨ c ∈ p.insert ∨ c ∈ p.set ∨ c ∈ p.mergeColumns table := by
  have hjoined : joined table r types p = .ok s → s.valueColumns = [] := by
    intro hjoined
    unfold joined at hjoined
    split at hjoined
    · cases hjoined
    · obtain ⟨choice, -, rfl⟩ := map_eq_ok.1 hjoined
      rfl
  unfold ofPlan at h
  split at h
  case h_1 | h_2 | h_3 =>
    obtain rfl := eq_of_requireColumns h
    exact ⟨nofun, fun c hc => .inl hc⟩
  case h_4 hkind | h_5 hkind =>
    rw [hkind, hjoined h]
    exact ⟨nofun, List.forall_mem_nil _⟩
  case h_6 =>
    obtain rfl := Except.ok.inj h
    exact ⟨nofun, fun c hc => .inr (.inl hc)⟩
  case h_7 | h_9 =>
    obtain rfl := eq_of_requireColumns h
    exact ⟨nofun, List.forall_mem_nil _⟩
  case h_8 =>
    obtain rfl := eq_of_requireColumns h
    refine ⟨nofun, fun c hc => ?_⟩
    rcases List.mem_append.1 hc with hset | hkey
    · exact .inr (.inr (.inl hset))
    · exact .inl hkey
  case h_10 =>
    obtain rfl := Except.ok.inj h
    exact ⟨nofun, fun c hc => .inr (.inr (.inr hc))⟩
  case h_11 =>
    obtain rfl := Except.ok.inj h
    exact ⟨nofun, List.forall_mem_nil _⟩
  case h_12 =>
    obtain rfl := Except.ok.inj h
    exact ⟨nofun, fun c hc => .inl hc⟩

end Statement

theorem Text.lowerFrom_of_ascii {cs : List Char} (h : ∀ c ∈ cs, c.toNat < 128)
    (before : List Char) : lowerFrom before cs = cs.map Char.toLower := by
  induction cs generalizing before with
  | nil => rfl
  | cons c rest ih =>
      obtain ⟨hc, hrest⟩ := List.forall_mem_cons.1 h
      have hsigma : c ≠ 'Σ' := by
        rintro rfl
        revert hc
        decide
      rw [lowerFrom_cons, ih hrest]
      unfold lowerAt lowerChar
      rw [if_neg hsigma, if_pos hc]
      rfl

/-- A name of letters A to Z, digits and underscores. -/
def IsPlainName (name : String) : Prop :=
  name.toList ≠ [] ∧ ∀ c ∈ name.toList, c.isAlpha = true ∨ IsCaseless c

instance (name : String) : Decidable (IsPlainName name) :=
  letI := List.decidableBAll (fun c : Char => c.isAlpha = true ∨ IsCaseless c) name.toList
  inferInstanceAs (Decidable (_ ∧ _))

theorem isAlphanumeric_of_plain {c : Char} (h : c.isAlpha = true ∨ IsCaseless c) :
    (isAlphanumeric c || c == '_') = true ∧ c.toNat < 128 ∧ c.toLower.toNat ≠ 64 ∧
      c.toLower.toLower = c.toLower := by
  have hbound : c.toNat < 128 := by
    rcases h with h | h
    · rw [isAlpha_iff] at h
      omega
    · have := h.toNat_lt
      omega
  refine ⟨?_, hbound, ?_, ?_⟩
  · rcases h with h | h | rfl
    · simp [isAlphanumeric, isAlphabetic, hbound, h]
    · simp [isAlphanumeric, isNumeric, hbound, h]
    · decide +kernel
  · rw [toNat_toLower]
    rcases h with h | h | rfl
    · rw [isAlpha_iff] at h
      split <;> omega
    · rw [isDigit_iff] at h
      split <;> omega
    · decide
  · apply Char.toNat_inj.1
    rw [toNat_toLower c.toLower, if_neg]
    rw [toNat_toLower]
    split <;> omega

theorem Column.parameterKey_of_isPlainName {c : Column} (h : IsPlainName c.name) :
    c.parameterKey.toList = folded c.name := by
  obtain ⟨hne, hplain⟩ := h
  -- Nothing is dropped from such a name, and only its first character changes.
  have hkept : c.name.toList.filter (fun d => isAlphanumeric d || d == '_') = c.name.toList := by
    apply List.filter_eq_self.2
    intro d hd
    exact (isAlphanumeric_of_plain (hplain d hd)).1
  cases hname : c.name.toList with
  | nil => exact absurd hname hne
  | cons d rest =>
      rw [hname] at hplain hkept
      obtain ⟨-, hascii, hat, hlower⟩ := isAlphanumeric_of_plain (hplain d List.mem_cons_self)
      have hfirst : lowerChar d = [d.toLower] := by
        unfold lowerChar
        rw [if_pos hascii]
      have hparameter : (parameterName c.name).toList = '@' :: d.toLower :: rest := by
        unfold parameterName
        rw [hname, hkept]
        simp [hfirst]
      have hnotAt : d.toLower ≠ '@' := by
        rintro heq
        exact hat (by rw [heq]; rfl)
      have hrest : ∀ x ∈ d.toLower :: rest, x.toNat < 128 := by
        refine List.forall_mem_cons.2 ⟨?_, ?_⟩
        · rw [toNat_toLower]
          split <;> omega
        · intro x hx
          exact (isAlphanumeric_of_plain (hplain x (List.mem_cons_of_mem _ hx))).2.1
      unfold Column.parameterKey folded
      rw [toList_parameterKey, hparameter, List.dropWhile_cons_of_pos (by decide),
        List.dropWhile_cons_of_neg (by simpa using hnotAt), lowerFrom_of_ascii hrest, hname,
        List.map_cons, List.map_cons, hlower]

/-- Names are plain and different regardless of case. -/
structure Table.HasPlainNames (table : Table) : Prop where
  plain : ∀ c ∈ table.columns, IsPlainName c.name
  distinct : table.columns.Pairwise fun c d => sameIgnoringCase c.name d.name = false

theorem Table.HasPlainNames.separatesColumns {table : Table} {s : Statement}
    (h : table.HasPlainNames) (hs : ∀ c ∈ s.valueColumns, c ∈ table.columns) :
    s.SeparatesColumns := by
  intro c hc d hd hkey
  have hdistinct : table.columns.Pairwise fun c d => folded c.name ≠ folded d.name := by
    refine h.distinct.imp ?_
    intro c d hne
    rwa [← Bool.not_eq_true, sameIgnoringCase_iff] at hne
  have hnames : folded c.name = folded d.name := by
    rw [← Column.parameterKey_of_isPlainName (h.plain c (hs c hc)), hkey,
      Column.parameterKey_of_isPlainName (h.plain d (hs d hd))]
  exact eq_of_key_eq_of_pairwise hdistinct (hs c hc) (hs d hd) hnames

/-- A script that takes values one by one takes them for columns of its table, with one hint for
each parameter. Any row can be passed to it, each value under the type of its column, exactly if no
two of the columns share a parameter. The script then says what it says with the values themselves.
Plain names see to that. -/
theorem synthesizeScript_passesRows_iff {table : Table} {types : List TableType}
    {r : TableScriptRule} {script : Script} (hkind : r.kind.usesTableType = false)
    (h : synthesizeScript table types r = .ok script) :
    ∃ p s, ColumnPlan.ofRule table r = .ok p ∧ Statement.ofPlan table r types p = .ok s ∧
      script = s.toScript (r.identity table.name) table.name ∧
      (∀ c ∈ s.valueColumns, c ∈ table.columns) ∧ s.HintsParameters ∧
      (s.PassesRows ∧ s.TypesColumns ↔ s.SeparatesColumns) ∧
      (s.SeparatesColumns → ∀ row : Column → String, ∃ passed : String → String,
        s.textWith (fun c => passed c.parameterKey) table.name = s.textWith row table.name) ∧
      (table.HasPlainNames → s.SeparatesColumns) := by
  obtain ⟨p, hp, h⟩ := bind_eq_ok.1 h
  obtain ⟨s, hs, rfl⟩ := map_eq_ok.1 h
  obtain ⟨hjoined, hcolumns⟩ := Statement.valueColumns_of_ofPlan hs
  have hhints := Statement.hintsParameters (hjoined hkind)
  have hmem : ∀ c ∈ s.valueColumns, c ∈ table.columns := by
    intro c hc
    exact ColumnPlan.mem_of_ofRule hp c (hcolumns c hc)
  refine ⟨p, s, hp, hs, rfl, hmem, hhints, ⟨?_, ?_⟩, ?_, ?_⟩
  · rintro ⟨hpasses, -⟩
    exact Statement.passesRows_iff_separatesColumns.1 hpasses
  · intro hseparates
    exact ⟨Statement.passesRows_iff_separatesColumns.2 hseparates,
      hhints.typesColumns hseparates⟩
  · intro hseparates
    exact (Statement.passesRows_iff_separatesColumns.2 hseparates).exists_textWith_eq table.name
  · intro hplain
    exact hplain.separatesColumns hmem

/-- A table of orders under a key. -/
def ordersTable : Table where
  name := ⟨"dbo", "Orders"⟩
  columns := [
    { name := "Id", ordinal := 1, type := ⟨"int", .int, "0"⟩ },
    { name := "Name", ordinal := 2, type := ⟨"nvarchar", .nVarChar, "N''"⟩, size := 20 }]
  primaryKey := [{ name := "Id", ordinal := 1, type := ⟨"int", .int, "0"⟩ }]
  isView := false

/-- An update of the orders can be passed any name for any key. -/
theorem ordersTable_passesRows :
    ∃ s : Statement, s.PassesRows ∧ s.TypesColumns ∧
      (∀ row : Column → String, ∃ passed : String → String,
        s.textWith (fun c => passed c.parameterKey) ordersTable.name =
          s.textWith row ordersTable.name) ∧
      s.text ordersTable.name = "UPDATE [dbo].[Orders] SET [Name] = @name WHERE [Id] = @id" := by
  have htext : (synthesizeScript ordersTable [] { kind := .update }).toOption.map Script.text =
      some "UPDATE [dbo].[Orders] SET [Name] = @name WHERE [Id] = @id" := by
    decide +kernel
  have hplain : ordersTable.HasPlainNames := ⟨by decide +kernel, by decide +kernel⟩
  cases hscript : synthesizeScript ordersTable [] { kind := .update } with
  | error f =>
      rw [hscript] at htext
      cases htext
  | ok script =>
      obtain ⟨p, s, -, -, rfl, -, -, hiff, hvalues, hseparates⟩ :=
        synthesizeScript_passesRows_iff (by decide) hscript
      obtain ⟨hpasses, htypes⟩ := hiff.2 (hseparates hplain)
      rw [hscript] at htext
      exact ⟨s, hpasses, htypes, hvalues (hseparates hplain), Option.some.inj htext⟩

/-- A table with two columns whose names differ by a blank. -/
def invoicesTable : Table where
  name := ⟨"dbo", "Invoices"⟩
  columns := [
    { name := "Unit Price", ordinal := 1, type := ⟨"int", .int, "0"⟩, size := 4 },
    { name := "UnitPrice", ordinal := 2, type := ⟨"nvarchar", .nVarChar, "N''"⟩, size := 20 }]
  primaryKey := []
  isView := false

/-- Two columns whose names differ by a blank get one value, under the type of the first. -/
theorem invoicesTable_shares_parameter :
    (invoicesTable.columns.Pairwise fun c d => sameIgnoringCase c.name d.name = false) ∧
    (synthesizeScript invoicesTable [] { kind := .insert }).toOption.map Script.text =
      some ("INSERT INTO [dbo].[Invoices] ([Unit Price],[UnitPrice])" ++
        " VALUES (@unitPrice,@unitPrice)") ∧
    (synthesizeScript invoicesTable [] { kind := .insert }).toOption.map Script.hints =
      some [⟨"@unitPrice", "int"⟩] ∧
    ∃ c ∈ invoicesTable.columns, ∃ d ∈ invoicesTable.columns, c ≠ d ∧
      c.parameterKey = d.parameterKey ∧ c.declaration ≠ d.declaration := by
  decide +kernel

end QueryShape
