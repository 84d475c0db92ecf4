import QueryShape.Proofs.Clauses
import QueryShape.Proofs.ColumnParameters
import QueryShape.Proofs.GeneratedText.Phrases
import QueryShape.Proofs.TableTypeBinding

namespace QueryShape

open QueryShape.Identifier
open QueryShape.TempTable
open QueryShape.Unicode

/-- All of a column name that a variable name can hold is ASCII. -/
def HasAsciiParameter (column : String) : Prop :=
  ∀ c ∈ column.toList, isAlphanumeric c = true → c.toNat < 128

instance (column : String) : Decidable (HasAsciiParameter column) :=
  List.decidableBAll (fun c => isAlphanumeric c = true → c.toNat < 128) column.toList

theorem isAlphanum_of_isAlphanumeric {c : Char} (h : isAlphanumeric c = true)
    (hascii : c.toNat < 128) : c.isAlphanum = true := by
  simpa [isAlphanumeric, isAlphabetic, isNumeric, hascii, Char.isAlphanum] using h

theorem toLower_of_isAlphanum {c : Char} (h : (c.isAlphanum || c == '_') = true) :
    c.toNat < 128 ∧ Token.isIdentifierPart c.toLower = true ∧ c.toLower ≠ '@' := by
  have hcode : c.toNat < 128 := by
    simp only [Char.isAlphanum, Bool.or_eq_true, Text.isAlpha_iff, Text.isDigit_iff,
      beq_iff_eq] at h
    rcases h with (h | h) | rfl
    · omega
    · omega
    · decide
  have hall : ∀ n < 128, ((Char.ofNat n).isAlphanum || Char.ofNat n == '_') = true →
      Token.isIdentifierPart (Char.ofNat n).toLower = true ∧ (Char.ofNat n).toLower ≠ '@' := by
    decide +kernel
  have hlower := hall c.toNat hcode (by rwa [Char.ofNat_toNat])
  rw [Char.ofNat_toNat] at hlower
  exact ⟨hcode, hlower⟩

theorem isRegularVariable_parameterName {column : String} (h : HasAsciiParameter column) :
    IsRegularVariable (parameterName column) := by
  have hkept : ∀ c ∈ column.toList.filter fun c => isAlphanumeric c || c == '_',
      (c.isAlphanum || c == '_') = true := by
    intro c hc
    obtain ⟨hmem, hc⟩ := List.mem_filter.1 hc
    rw [Bool.or_eq_true] at hc ⊢
    exact hc.imp_left fun halpha => isAlphanum_of_isAlphanumeric halpha (h c hmem halpha)
  unfold parameterName
  split
  · exact ⟨'p', [], rfl, by decide, List.forall_mem_singleton.2 (by decide)⟩
  · rename_i c cs heq
    rw [heq] at hkept
    obtain ⟨hc, hcs⟩ := List.forall_mem_cons.1 hkept
    obtain ⟨hascii, hpart, hat⟩ := toLower_of_isAlphanum hc
    have hlower : lowerChar c = [c.toLower] := by
      unfold lowerChar
      rw [if_pos hascii]
    refine ⟨c.toLower, cs, ?_, hat, List.forall_mem_cons.2 ⟨hpart, ?_⟩⟩
    · rw [String.toList_ofList, hlower]
      rfl
    · exact fun d hd => isIdentifierPart_of_isAlphanum (hcs d hd)

variable {qualifier rest : String} {names ns : List String} {table : QualifiedName}

/-- The names that statements give to sets of rows. -/
def rowNames : List String :=
  ["t", "s", "a", "k", "inserted", "deleted"]

/-- What stands before the columns of a set of rows: nothing, or its name and a period. -/
def IsQualifier (qualifier : String) : Prop :=
  qualifier = "" ∨ qualifier ∈ rowNames.map (· ++ ".")

instance (qualifier : String) : Decidable (IsQualifier qualifier) :=
  inferInstanceAs (Decidable (_ ∨ _))

/-- The wording that statements begin with. -/
def openings : List String :=
  ["SELECT ", "(SELECT ", "INSERT INTO ", "UPDATE ", "UPDATE t SET ", "DELETE FROM ", "MERGE "]

/-- The wording inside statements and at their end. -/
def clauseWords : List String :=
  [",", " AND ", " (", ")", ";", " FROM ", " WHERE ", " SELECT ", " SET ", " VALUES (",
    ") VALUES (", " OUTPUT ", " AS ", " AS t INNER JOIN ", " AS a ON ", " AS k ON ", " AS t USING ",
    " AS s ON ", " WITH (HOLDLOCK)", " WHEN MATCHED THEN UPDATE SET ",
    " WHEN NOT MATCHED THEN INSERT ("]

theorem mentions_opening (text : String) (htext : text ∈ openings) (hrest : Mentions rest ns) :
    Mentions (text ++ rest) ns := by
  have hclosed : ∀ text ∈ openings, isClosedWording text = true := by decide +kernel
  exact mentions_closed (hclosed text htext) hrest

theorem trails_clause (text : String) (htext : text ∈ clauseWords) (hrest : Mentions rest ns) :
    Trails (text ++ rest) ns := by
  have hclosed : ∀ text ∈ clauseWords,
      isClosedWording text = true ∧ endsWordBefore text = true := by decide +kernel
  obtain ⟨htext, hfront⟩ := hclosed text htext
  exact ⟨mentions_closed htext hrest, endsWord_append hfront rest⟩

theorem isQualifier_t : IsQualifier "t." := by
  decide

theorem isQualifier_s : IsQualifier "s." := by
  decide

theorem isQualifier_a : IsQualifier "a." := by
  decide

theorem isQualifier_k : IsQualifier "k." := by
  decide

theorem isQualifier_inserted : IsQualifier "inserted." := by
  decide

theorem isQualifier_deleted : IsQualifier "deleted." := by
  decide

theorem isPhrase_qualified {name : String} (hqualifier : IsQualifier qualifier)
    (hname : LacksSigil name) : IsPhrase (qualifier ++ quote name) [] := by
  rcases hqualifier with rfl | hqualifier
  · rw [String.empty_append]
    exact isPhrase_quote hname
  · intro rest ns hrest
    obtain ⟨rows, hrows, rfl⟩ := List.mem_map.1 hqualifier
    have hfixed : ∀ r ∈ rowNames, isFixedWording r = true := by decide +kernel
    have hquote := isPhrase_quote hname hrest
    have hperiod : Mentions ("." ++ (quote name ++ rest)) ns := by
      refine mentions_append_of_nameless [.period] hquote (fun us hus => ?_)
        (List.forall_mem_singleton.2 rfl) rfl
      rw [String.toList_append] at hus ⊢
      rw [String.toList_append]
      refine .cons ?_ hus
      rw [quote, String.toList_ofList]
      rfl
    have hmentions := mentions_wording (hfixed rows hrows)
      (.inr (endsWord_append (by decide) _)) hperiod
    simpa only [String.append_assoc, List.nil_append] using hmentions

theorem trails_comma (h : Mentions rest ns) : Trails ("," ++ rest) ns :=
  trails_clause "," (by decide) h

theorem trails_and (h : Mentions rest ns) : Trails (" AND " ++ rest) ns :=
  trails_clause " AND " (by decide) h

theorem isPhrase_columnList {cs : List Column} (hqualifier : IsQualifier qualifier)
    (hcs : ∀ c ∈ cs, LacksSigil c.name) : IsPhrase (Statement.columnList qualifier cs) [] := by
  have hphrase : IsPhrase (Statement.columnList qualifier cs) (cs.flatMap fun _ => []) :=
    IsPhrase.intercalate trails_comma
      fun c hc => isPhrase_qualified hqualifier (hcs c hc)
  rwa [List.flatMap_eq_nil_iff.2 fun _ _ => rfl] at hphrase

/-- What a column is compared with or gets, if it reads as what it is. -/
def Operand.IsReadable : Operand → Prop
  | passed c => HasAsciiParameter c.name
  | drawn qualifier c => IsQualifier qualifier ∧ LacksSigil c.name

/-- The variables in a value. -/
def Operand.passedNames : Operand → List String
  | passed c => [parameterName c.name]
  | drawn _ _ => []

theorem Operand.isPhrase {v : Operand} (h : v.IsReadable) : IsPhrase v.text v.passedNames := by
  cases v with
  | passed c => exact isPhrase_variable (isRegularVariable_parameterName h)
  | drawn qualifier c => exact isPhrase_qualified h.1 h.2

/-- An equation in which no name reads as a variable. -/
structure Equation.IsReadable (e : Equation) : Prop where
  qualifier : IsQualifier e.qualifier
  column : LacksSigil e.column.name
  value : e.value.IsReadable

theorem trails_equals (h : Mentions rest ns) : Trails (" = " ++ rest) ns := by
  refine ⟨mentions_append_of_nameless [.blank, .equals, .blank] h
    (fun us hus => ?_) (by decide) rfl, endsWord_append (by decide) _⟩
  rw [String.toList_append]
  exact .cons rfl (.cons rfl (.cons rfl hus))

theorem Equation.IsReadable.isPhrase {e : Equation} (h : e.IsReadable) :
    IsPhrase e.text e.value.passedNames := by
  intro rest ns hrest
  have hmentions := isPhrase_qualified h.qualifier h.column
    (trails_equals (Operand.isPhrase h.value hrest))
  simpa only [Equation.text, String.append_assoc, List.nil_append] using hmentions

theorem isPhrase_condition {es : List Equation} (h : ∀ e ∈ es, e.IsReadable) :
    IsPhrase (" AND ".intercalate (es.map Equation.text))
      (es.flatMap fun e => e.value.passedNames) :=
  IsPhrase.intercalate trails_and fun e he => (h e he).isPhrase

theorem isPhrase_assignment {es : List Equation} (h : ∀ e ∈ es, e.IsReadable) :
    IsPhrase (",".intercalate (es.map Equation.text)) (es.flatMap fun e => e.value.passedNames) :=
  IsPhrase.intercalate trails_comma fun e he => (h e he).isPhrase

theorem isPhrase_contents {vs : List Operand} (h : ∀ v ∈ vs, v.IsReadable) :
    IsPhrase (",".intercalate (vs.map Operand.text)) (vs.flatMap Operand.passedNames) :=
  IsPhrase.intercalate trails_comma fun v hv => Operand.isPhrase (h v hv)

theorem trails_outputClause {cs : List Column} (hqualifier : IsQualifier qualifier)
    (hcs : ∀ c ∈ cs, LacksSigil c.name) (h : Trails rest ns) :
    Trails (Statement.outputClause qualifier cs ++ rest) ns := by
  unfold Statement.outputClause
  split
  · rwa [String.empty_append]
  · rw [String.append_assoc]
    exact trails_clause " OUTPUT " (by decide)
      (isPhrase_columnList hqualifier hcs h)

/-- A column whose name reads as a name and whose parameter reads as a variable. -/
structure Column.IsReadable (c : Column) : Prop where
  lacksSigil : LacksSigil c.name
  hasAsciiParameter : HasAsciiParameter c.name

theorem Equation.isReadable_passed {cs : List Column} (h : ∀ c ∈ cs, c.IsReadable) :
    ∀ e ∈ cs.map Equation.passed, e.IsReadable :=
  List.forall_mem_map.2 fun c hc => ⟨.inl rfl, (h c hc).lacksSigil, (h c hc).hasAsciiParameter⟩

theorem Equation.isReadable_drawn {target source : String} {cs : List Column}
    (htarget : IsQualifier target) (hsource : IsQualifier source)
    (h : ∀ c ∈ cs, c.IsReadable) : ∀ e ∈ cs.map (Equation.drawn target source), e.IsReadable :=
  List.forall_mem_map.2 fun c hc =>
    ⟨htarget, (h c hc).lacksSigil, hsource, (h c hc).lacksSigil⟩

theorem passedNames_passed (cs : List Column) :
    (cs.map Equation.passed).flatMap (fun e => e.value.passedNames) =
      cs.map fun c => parameterName c.name := by
  rw [List.flatMap_map, List.map_eq_flatMap]
  rfl

theorem passedNames_drawn (target source : String) (cs : List Column) :
    (cs.map (Equation.drawn target source)).flatMap (fun e => e.value.passedNames) = [] := by
  simp [List.flatMap_map, Equation.drawn, Operand.passedNames]

theorem passedNames_ofBinding (bs : List ColumnBinding) :
    (bs.map Equation.ofBinding).flatMap (fun e => e.value.passedNames) = [] := by
  simp [List.flatMap_map, Equation.ofBinding, Operand.passedNames]

theorem contents_passed (cs : List Column) :
    (cs.map Operand.passed).flatMap Operand.passedNames = cs.map fun c => parameterName c.name := by
  rw [List.flatMap_map, List.map_eq_flatMap]
  rfl

theorem contents_drawn (qualifier : String) (cs : List Column) :
    (cs.map (Operand.drawn qualifier)).flatMap Operand.passedNames = [] := by
  simp [List.flatMap_map, Operand.passedNames]

theorem isPhrase_offer {cs : List Column} (h : ∀ c ∈ cs, c.IsReadable) :
    IsPhrase (Clause.offer cs).text (cs.map fun c => parameterName c.name) := by
  have hitem : ∀ c ∈ cs, IsPhrase (parameterName c.name ++ " AS " ++ quote c.name)
      [parameterName c.name] := by
    intro c hc rest ns hrest
    have hmentions := isPhrase_variable
      (isRegularVariable_parameterName (h c hc).hasAsciiParameter)
      (trails_clause " AS " (by decide)
        (isPhrase_quote (h c hc).lacksSigil hrest))
    simpa only [String.append_assoc, List.nil_append] using hmentions
  intro rest ns hrest
  have hclosed : Trails (")" ++ rest) ns :=
    trails_clause ")" (by decide) hrest.mentions
  have hmentions := mentions_opening "(SELECT " (by decide)
    (IsPhrase.intercalate trails_comma hitem hclosed)
  rw [← List.map_eq_flatMap] at hmentions
  simpa only [Clause.text, Statement.sourceText, String.append_assoc] using hmentions

namespace Statement

/-- The columns of its table that a statement names. -/
def tableColumns : Statement → List Column
  | select columns keys => columns ++ keys
  | selectJoined columns choice => columns ++ choice.bindings.map (·.column)
  | insert columns output | insertStaged columns output => columns ++ output
  | update set keys output | updateStaged set keys output _ => set ++ keys ++ output
  | merge _ sourceColumns _ keys set inserted output =>
      sourceColumns ++ keys ++ set ++ inserted ++ output
  | delete keys output => keys ++ output

/-- The columns of a table type that a statement names. -/
def typeColumns : Statement → List Column
  | selectJoined _ choice => choice.bindings.map (·.typeColumn)
  | _ => []

/-- The variables of a statement in the order of its text. -/
def passedNames : Statement → List String
  | selectJoined .. => [keysParameter]
  | s => s.valueColumns.map fun c => parameterName c.name

theorem map_name_hints (s : Statement) :
    s.hints.map (·.name) = firstOfEach parameterKey s.passedNames := by
  have hnames : (firstOfEach (fun h : ParameterHint => parameterKey h.name)
      (s.valueColumns.map fun c => ⟨parameterName c.name, c.declaration⟩)).map (·.name) =
        firstOfEach parameterKey (s.valueColumns.map fun c => parameterName c.name) := by
    rw [← firstOfEach_map, List.map_map]
    rfl
  cases s with
  | selectJoined columns choice => rfl
  | _ => exact hnames

section Texts

variable {columns keys set inserted output staged : List Column}

theorem trails_condition {es : List Equation} (h : ∀ e ∈ es, e.IsReadable) :
    Trails (" WHERE " ++ " AND ".intercalate (es.map Equation.text))
      (es.flatMap fun e => e.value.passedNames) := by
  have htrails := trails_clause " WHERE " (by decide)
    (isPhrase_condition h trails_empty)
  rwa [String.append_empty, List.append_nil] at htrails

theorem mentions_select (hschema : LacksSigil table.schema) (hname : LacksSigil table.name)
    (hcolumns : ∀ c ∈ columns, c.IsReadable) (hkeys : ∀ c ∈ keys, c.IsReadable) :
    Mentions ((select columns keys).text table) (keys.map fun c => parameterName c.name) := by
  have hwhere : Trails (Clause.textOf (if keys.isEmpty then [] else
      [.words " WHERE ", .condition (keys.map .passed)]))
        (keys.map fun c => parameterName c.name) := by
    split
    · rename_i hempty
      rw [List.isEmpty_iff.1 hempty]
      exact trails_empty
    · have htrails := trails_condition (Equation.isReadable_passed hkeys)
      rw [passedNames_passed] at htrails
      simpa only [Clause.textOf_cons, Clause.textOf_nil, Clause.text, String.append_empty]
        using htrails
  have hfrom := trails_clause " FROM " (by decide)
    (isPhrase_fullName hschema hname hwhere)
  have hmentions := mentions_opening "SELECT " (by decide)
    (isPhrase_columnList (.inl rfl) (fun c hc => (hcolumns c hc).lacksSigil) hfrom)
  rw [← textOf_clauses]
  simpa only [clauses, Clause.textOf_append, Clause.textOf_cons, Clause.textOf_nil, Clause.text,
    String.append_assoc, String.append_empty, String.empty_append, List.nil_append] using hmentions

theorem mentions_selectJoined {choice : TableTypeChoice} (hschema : LacksSigil table.schema)
    (hname : LacksSigil table.name) (hcolumns : ∀ c ∈ columns, c.IsReadable)
    (hbindings : ∀ b ∈ choice.bindings, b.column.IsReadable ∧ LacksSigil b.typeColumn.name) :
    Mentions ((selectJoined columns choice).text table) [keysParameter] := by
  have hreadable : ∀ e ∈ choice.bindings.map Equation.ofBinding, e.IsReadable :=
    List.forall_mem_map.2 fun b hb =>
      ⟨isQualifier_t, (hbindings b hb).1.lacksSigil, isQualifier_k, (hbindings b hb).2⟩
  have hkeys : IsRegularVariable keysParameter :=
    ⟨'k', "eys".toList, rfl, by decide, List.all_eq_true.1 (by decide)⟩
  have hjoin := trails_clause " AS k ON " (by decide)
    (isPhrase_condition hreadable trails_empty)
  have hkeysTable := trails_clause " AS t INNER JOIN " (by decide)
    (isPhrase_variable hkeys hjoin)
  have hfrom := trails_clause " FROM " (by decide)
    (isPhrase_fullName hschema hname hkeysTable)
  have hmentions := mentions_opening "SELECT " (by decide)
    (isPhrase_columnList isQualifier_t (fun c hc => (hcolumns c hc).lacksSigil) hfrom)
  rw [passedNames_ofBinding] at hmentions
  rw [← textOf_clauses]
  simpa only [clauses, Clause.textOf_cons, Clause.textOf_nil, Clause.text, String.append_assoc,
    List.nil_append, List.append_nil] using hmentions

theorem mentions_insert (hschema : LacksSigil table.schema) (hname : LacksSigil table.name)
    (hcolumns : ∀ c ∈ columns, c.IsReadable) (houtput : ∀ c ∈ output, c.IsReadable) :
    Mentions ((insert columns output).text table)
      (columns.map fun c => parameterName c.name) := by
  have houtputNames : ∀ c ∈ output, LacksSigil c.name := fun c hc => (houtput c hc).lacksSigil
  rw [← textOf_clauses]
  unfold clauses
  dsimp only
  split
  · rename_i hempty
    have hvalues : Trails (" DEFAULT VALUES" ++ "") [] :=
      ⟨mentions_wording (by decide +kernel) (.inr endsWord_nil) trails_empty.mentions,
        endsWord_append (by decide) _⟩
    have hmentions := mentions_opening "INSERT INTO " (by decide)
      (isPhrase_fullName hschema hname
        (trails_outputClause isQualifier_inserted houtputNames hvalues))
    rw [List.isEmpty_iff.1 hempty]
    simpa only [Clause.textOf_cons, Clause.textOf_nil, Clause.text, String.append_assoc,
      List.nil_append, List.map_nil] using hmentions
  · have hpassed : ∀ v ∈ columns.map Operand.passed, v.IsReadable :=
      List.forall_mem_map.2 fun c hc => (hcolumns c hc).hasAsciiParameter
    have hend := trails_clause ")" (by decide) trails_empty.mentions
    have hvalues := trails_clause " VALUES (" (by decide)
      (isPhrase_contents hpassed hend)
    have hlist := trails_clause ")" (by decide)
      (trails_outputClause isQualifier_inserted houtputNames
        hvalues).mentions
    have hfront := trails_clause " (" (by decide)
      (isPhrase_columnList (.inl rfl) (fun c hc => (hcolumns c hc).lacksSigil) hlist)
    have hmentions := mentions_opening "INSERT INTO " (by decide)
      (isPhrase_fullName hschema hname hfront)
    rw [contents_passed] at hmentions
    simpa only [Clause.textOf_cons, Clause.textOf_nil, Clause.text, String.append_assoc,
      List.nil_append, List.append_nil] using hmentions

theorem isPhrase_stagingTable : IsPhrase stagingTable [] := by
  have hregular : IsRegularName stagingTable :=
    ⟨'a', "rgs".toList, rfl, List.all_eq_true.1 (by decide)⟩
  have hquiet : (Token.word ⟨stagingTable, none⟩).isQuiet = true := by decide
  have hphrase := isPhrase_of_spells hquiet
    fun hend hspells => spells_localName hregular hend hspells
  rwa [show (Token.word ⟨stagingTable, none⟩).variableName? = none by decide] at hphrase

theorem mentions_insertStaged (hschema : LacksSigil table.schema) (hname : LacksSigil table.name)
    (hcolumns : ∀ c ∈ columns, c.IsReadable) (houtput : ∀ c ∈ output, c.IsReadable) :
    Mentions ((insertStaged columns output).text table) [] := by
  have hnames : ∀ c ∈ columns, LacksSigil c.name := fun c hc => (hcolumns c hc).lacksSigil
  have hdrawn : ∀ v ∈ columns.map (Operand.drawn ""), v.IsReadable :=
    List.forall_mem_map.2 fun c hc => ⟨.inl rfl, hnames c hc⟩
  have hfrom := trails_clause " FROM " (by decide)
    (isPhrase_stagingTable trails_empty)
  have hselect := trails_clause " SELECT " (by decide)
    (isPhrase_contents hdrawn hfrom)
  have hlist := trails_clause ")" (by decide)
    (trails_outputClause isQualifier_inserted
      (fun c hc => (houtput c hc).lacksSigil) hselect).mentions
  have hfront := trails_clause " (" (by decide)
    (isPhrase_columnList (.inl rfl) hnames hlist)
  have hmentions := mentions_opening "INSERT INTO " (by decide)
    (isPhrase_fullName hschema hname hfront)
  rw [contents_drawn] at hmentions
  rw [← textOf_clauses]
  simpa only [clauses, Clause.textOf_cons, Clause.textOf_nil, Clause.text, String.append_assoc,
    String.append_empty, List.nil_append] using hmentions

theorem mentions_update (hschema : LacksSigil table.schema) (hname : LacksSigil table.name)
    (hset : ∀ c ∈ set, c.IsReadable) (hkeys : ∀ c ∈ keys, c.IsReadable)
    (houtput : ∀ c ∈ output, c.IsReadable) :
    Mentions ((update set keys output).text table)
      ((set ++ keys).map fun c => parameterName c.name) := by
  have hwhere := trails_outputClause isQualifier_inserted
    (fun c hc => (houtput c hc).lacksSigil) (trails_condition (Equation.isReadable_passed hkeys))
  have hassigned := trails_clause " SET " (by decide)
    (isPhrase_assignment (Equation.isReadable_passed hset) hwhere)
  have hmentions := mentions_opening "UPDATE " (by decide)
    (isPhrase_fullName hschema hname hassigned)
  rw [passedNames_passed, passedNames_passed, ← List.map_append] at hmentions
  rw [← textOf_clauses]
  simpa only [clauses, Clause.textOf_cons, Clause.textOf_nil, Clause.text, String.append_assoc,
    String.append_empty, List.nil_append] using hmentions

theorem mentions_updateStaged (hschema : LacksSigil table.schema) (hname : LacksSigil table.name)
    (hset : ∀ c ∈ set, c.IsReadable) (hkeys : ∀ c ∈ keys, c.IsReadable)
    (houtput : ∀ c ∈ output, c.IsReadable) :
    Mentions ((updateStaged set keys output staged).text table) [] := by
  have hdrawn : ∀ cs : List Column, (∀ c ∈ cs, c.IsReadable) →
      ∀ e ∈ cs.map (Equation.drawn "t." "a."), e.IsReadable := fun _ h =>
    Equation.isReadable_drawn isQualifier_t isQualifier_a h
  have hjoin := trails_clause " AS a ON " (by decide)
    (isPhrase_condition (hdrawn keys hkeys) trails_empty)
  have hstaged := trails_clause " AS t INNER JOIN " (by decide)
    (isPhrase_stagingTable hjoin)
  have hfrom := trails_clause " FROM " (by decide)
    (isPhrase_fullName hschema hname hstaged)
  have hmentions := mentions_opening "UPDATE t SET " (by decide)
    (isPhrase_assignment (hdrawn set hset)
      (trails_outputClause isQualifier_inserted
        (fun c hc => (houtput c hc).lacksSigil) hfrom))
  rw [passedNames_drawn, passedNames_drawn] at hmentions
  rw [← textOf_clauses]
  simpa only [clauses, Clause.textOf_cons, Clause.textOf_nil, Clause.text, String.append_assoc,
    List.nil_append] using hmentions

theorem mentions_delete (hschema : LacksSigil table.schema) (hname : LacksSigil table.name)
    (hkeys : ∀ c ∈ keys, c.IsReadable) (houtput : ∀ c ∈ output, c.IsReadable) :
    Mentions ((delete keys output).text table) (keys.map fun c => parameterName c.name) := by
  have hwhere := trails_outputClause isQualifier_deleted
    (fun c hc => (houtput c hc).lacksSigil) (trails_condition (Equation.isReadable_passed hkeys))
  have hmentions := mentions_opening "DELETE FROM " (by decide)
    (isPhrase_fullName hschema hname hwhere)
  rw [passedNames_passed] at hmentions
  rw [← textOf_clauses]
  simpa only [clauses, Clause.textOf_cons, Clause.textOf_nil, Clause.text, String.append_assoc,
    String.append_empty, List.nil_append] using hmentions

theorem trails_matchedClauses {ns : List String} {cs : List Clause}
    (hset : ∀ c ∈ set, c.IsReadable) (h : Trails (Clause.textOf cs) ns) :
    Trails (Clause.textOf (matchedClauses set ++ cs)) ns := by
  unfold matchedClauses
  split
  · exact h
  · have hequations := Equation.isReadable_drawn isQualifier_t isQualifier_s hset
    have htrails := trails_clause " WHEN MATCHED THEN UPDATE SET " (by decide)
      (isPhrase_assignment hequations h)
    rw [passedNames_drawn] at htrails
    simpa only [Clause.textOf_append, Clause.textOf_cons, Clause.textOf_nil, Clause.text,
      String.append_assoc, String.empty_append, List.nil_append] using htrails

theorem trails_unmatchedClauses {ns : List String} {cs : List Clause}
    (hinserted : ∀ c ∈ inserted, c.IsReadable) (h : Trails (Clause.textOf cs) ns) :
    Trails (Clause.textOf (unmatchedClauses inserted ++ cs)) ns := by
  unfold unmatchedClauses
  split
  · have htrails : Trails (" WHEN NOT MATCHED THEN INSERT DEFAULT VALUES" ++ Clause.textOf cs) ns :=
      ⟨mentions_wording (by decide +kernel) (.inr h.endsWord) h.mentions,
        endsWord_append (by decide) _⟩
    simpa only [Clause.textOf_append, Clause.textOf_cons, Clause.textOf_nil, Clause.text,
      String.append_assoc, String.empty_append] using htrails
  · have hnames : ∀ c ∈ inserted, LacksSigil c.name := fun c hc => (hinserted c hc).lacksSigil
    have hdrawn : ∀ v ∈ inserted.map (Operand.drawn "s."), v.IsReadable :=
      List.forall_mem_map.2 fun c hc => ⟨isQualifier_s, hnames c hc⟩
    have hend := trails_clause ")" (by decide) h.mentions
    have hvalues := trails_clause ") VALUES (" (by decide) (isPhrase_contents hdrawn hend)
    have htrails := trails_clause " WHEN NOT MATCHED THEN INSERT (" (by decide)
      (isPhrase_columnList (.inl rfl) hnames hvalues)
    rw [contents_drawn] at htrails
    simpa only [Clause.textOf_append, Clause.textOf_cons, Clause.textOf_nil, Clause.text,
      String.append_assoc, String.empty_append, List.nil_append] using htrails

/-- What a merge says behind its source. -/
def matchingClauses (keys set inserted output : List Column) : List Clause :=
  [.words " AS s ON ", .condition (keys.map (.drawn "t." "s."))] ++ matchedClauses set ++
    unmatchedClauses inserted ++ [.output "inserted." output, .words ";"]

theorem trails_matchingClauses (hkeys : ∀ c ∈ keys, c.IsReadable)
    (hset : ∀ c ∈ set, c.IsReadable) (hinserted : ∀ c ∈ inserted, c.IsReadable)
    (houtput : ∀ c ∈ output, c.IsReadable) :
    Trails (Clause.textOf (matchingClauses keys set inserted output)) [] := by
  have hend : Trails (Clause.textOf [.output "inserted." output, .words ";"]) [] := by
    have htrails := trails_outputClause isQualifier_inserted
      (fun c hc => (houtput c hc).lacksSigil)
      (trails_clause ";" (by decide) trails_empty.mentions)
    simpa only [Clause.textOf_cons, Clause.textOf_nil, Clause.text] using htrails
  have hactions := trails_matchedClauses hset (trails_unmatchedClauses hinserted hend)
  have htrails := trails_clause " AS s ON " (by decide)
    (isPhrase_condition (Equation.isReadable_drawn isQualifier_t isQualifier_s hkeys) hactions)
  rw [passedNames_drawn] at htrails
  simpa only [matchingClauses, Clause.textOf_append, Clause.textOf_cons, Clause.textOf_nil,
    Clause.text, String.append_assoc, String.append_empty, List.nil_append] using htrails

/-- The variables in the source of a merge. -/
def sourceNames (columns : List Column) : MergeSource → List String
  | .staging => []
  | .parameters => columns.map fun c => parameterName c.name

theorem mentions_sourceClauses (source : MergeSource) {ns : List String} {cs : List Clause}
    (hcolumns : ∀ c ∈ columns, c.IsReadable) (h : Trails (Clause.textOf cs) ns) :
    Mentions (Clause.textOf (sourceClauses columns source ++ cs))
      (sourceNames columns source ++ ns) := by
  cases source with
  | staging =>
      have hmentions := isPhrase_stagingTable h
      simpa only [sourceClauses, sourceNames, Clause.textOf_append, Clause.textOf_cons,
        Clause.textOf_nil, Clause.text, String.append_empty] using hmentions
  | parameters =>
      have hmentions := isPhrase_offer hcolumns h
      simpa only [sourceClauses, sourceNames, Clause.textOf_append, Clause.textOf_cons,
        Clause.textOf_nil, String.append_empty] using hmentions

theorem mentions_merge {source : MergeSource} {holdlock : Bool}
    (hschema : LacksSigil table.schema) (hname : LacksSigil table.name)
    (hcolumns : ∀ c ∈ columns, c.IsReadable) (hkeys : ∀ c ∈ keys, c.IsReadable)
    (hset : ∀ c ∈ set, c.IsReadable) (hinserted : ∀ c ∈ inserted, c.IsReadable)
    (houtput : ∀ c ∈ output, c.IsReadable) :
    Mentions ((merge source columns holdlock keys set inserted output).text table)
      (merge source columns holdlock keys set inserted output).passedNames := by
  have hnames : (merge source columns holdlock keys set inserted output).passedNames =
      sourceNames columns source := by
    cases source <;> rfl
  have hsource := mentions_sourceClauses source hcolumns
    (trails_matchingClauses hkeys hset hinserted houtput)
  have husing := trails_clause " AS t USING " (by decide) hsource
  have hlock : Trails ((if holdlock then " WITH (HOLDLOCK)" else "") ++ (" AS t USING " ++
      Clause.textOf (sourceClauses columns source ++ matchingClauses keys set inserted output)))
      (sourceNames columns source ++ []) := by
    cases holdlock with
    | true =>
        exact trails_clause " WITH (HOLDLOCK)" (by decide) husing.mentions
    | false => exact husing
  have hmentions := mentions_opening "MERGE " (by decide)
    (isPhrase_fullName hschema hname hlock)
  rw [← textOf_clauses, hnames]
  simpa only [clauses, matchingClauses, Clause.textOf_append, Clause.textOf_cons,
    Clause.textOf_nil, Clause.text, String.append_assoc, String.append_empty, String.empty_append,
    List.nil_append, List.append_nil] using hmentions

end Texts

/-- The names of a statement read as names, and what it passes values for reads as variables. -/
theorem mentions_text {s : Statement} (hschema : LacksSigil table.schema)
    (hname : LacksSigil table.name) (hcolumns : ∀ c ∈ s.tableColumns, c.IsReadable)
    (htypes : ∀ c ∈ s.typeColumns, LacksSigil c.name) :
    Mentions (s.text table) s.passedNames := by
  cases s with
  | select columns keys =>
      obtain ⟨hcolumns, hkeys⟩ := List.forall_mem_append.1 hcolumns
      exact mentions_select hschema hname hcolumns hkeys
  | selectJoined columns choice =>
      obtain ⟨hcolumns, hbound⟩ := List.forall_mem_append.1 hcolumns
      exact mentions_selectJoined hschema hname hcolumns fun b hb =>
        ⟨hbound _ (List.mem_map_of_mem hb), htypes _ (List.mem_map_of_mem hb)⟩
  | insert columns output =>
      obtain ⟨hcolumns, houtput⟩ := List.forall_mem_append.1 hcolumns
      exact mentions_insert hschema hname hcolumns houtput
  | insertStaged columns output =>
      obtain ⟨hcolumns, houtput⟩ := List.forall_mem_append.1 hcolumns
      exact mentions_insertStaged hschema hname hcolumns houtput
  | update set keys output =>
      obtain ⟨hassigned, houtput⟩ := List.forall_mem_append.1 hcolumns
      obtain ⟨hset, hkeys⟩ := List.forall_mem_append.1 hassigned
      exact mentions_update hschema hname hset hkeys houtput
  | updateStaged set keys output staged =>
      obtain ⟨hassigned, houtput⟩ := List.forall_mem_append.1 hcolumns
      obtain ⟨hset, hkeys⟩ := List.forall_mem_append.1 hassigned
      exact mentions_updateStaged hschema hname hset hkeys houtput
  | merge source columns holdlock keys set inserted output =>
      simp only [tableColumns, List.forall_mem_append] at hcolumns
      obtain ⟨⟨⟨⟨hsource, hkeys⟩, hset⟩, hinserted⟩, houtput⟩ := hcolumns
      exact mentions_merge hschema hname hsource hkeys hset hinserted houtput
  | delete keys output =>
      obtain ⟨hkeys, houtput⟩ := List.forall_mem_append.1 hcolumns
      exact mentions_delete hschema hname hkeys houtput

end Statement

theorem ColumnBinding.mem_of_bindAll {columns : PlacedColumns} {taken : List Nat}
    {ts : List Column} {bindings : List ColumnBinding}
    (h : bindAll columns taken ts = some bindings) {b : ColumnBinding} (hb : b ∈ bindings) :
    b.typeColumn ∈ ts ∧ b.column ∈ columns.map Prod.fst := by
  induction ts generalizing taken bindings with
  | nil =>
      obtain rfl := Option.some.inj h
      cases hb
  | cons t rest ih =>
      unfold bindAll at h
      have hstep : ∀ {c place taken'}, (c, place) ∈ columns →
          (bindAll columns taken' rest).map (⟨t, c⟩ :: ·) = some bindings →
            b.typeColumn ∈ t :: rest ∧ b.column ∈ columns.map Prod.fst := by
        intro c place taken' hc hmap
        obtain ⟨others, hothers, rfl⟩ := Option.map_eq_some_iff.1 hmap
        rcases List.mem_cons.1 hb with rfl | hb
        · exact ⟨List.mem_cons_self, List.mem_map_of_mem hc⟩
        · exact (ih hothers hb).imp_left (List.mem_cons_of_mem t)
      split at h
      · rename_i hnamesake
        exact hstep (namesake?_eq_some hnamesake).1 h
      · split at h
        · rename_i hsubstitute
          exact hstep (substitute?_eq_some hsubstitute).1 h
        · cases h

theorem mem_of_mapColumns {typeColumns columns : List Column} {bindings : List ColumnBinding}
    (h : mapColumns typeColumns columns = some bindings) {b : ColumnBinding} (hb : b ∈ bindings) :
    b.typeColumn ∈ typeColumns ∧ b.column ∈ columns := by
  unfold mapColumns at h
  split at h
  · have hmem := ColumnBinding.mem_of_bindAll h hb
    rwa [List.zipIdx_map_fst] at hmem
  · cases h

theorem ColumnPlan.mem_of_kept {table : Table} {r : TableScriptRule} {p : ColumnPlan}
    (hp : ofRule table r = .ok p) : ∀ c, c ∈ p.select ∨ c ∈ p.output → c ∈ table.columns := by
  obtain ⟨keys, -, rfl⟩ := map_eq_ok.1 hp
  rintro c (hc | hc)
  · exact (List.mem_filter.1 hc).1
  · exact (List.mem_filter.1 hc).1

theorem Statement.mem_columns_of_joined {table : Table} {r : TableScriptRule}
    {types : List TableType} {p : ColumnPlan} {s : Statement}
    (h : joined table r types p = .ok s) :
    (∀ c ∈ s.tableColumns, c ∈ p.select ∨ c ∈ p.keys) ∧
      ∀ c ∈ s.typeColumns, ∃ t ∈ types, c ∈ t.columns := by
  unfold joined at h
  split at h
  · cases h
  obtain ⟨choice, hchoice, rfl⟩ := map_eq_ok.1 h
  obtain ⟨htype, hbindings⟩ := TableTypeChoice.select_eq_ok hchoice
  refine ⟨List.forall_mem_append.2 ⟨fun c hc => .inl hc, ?_⟩, ?_⟩
  · exact List.forall_mem_map.2 fun b hb => .inr (mem_of_mapColumns hbindings hb).2
  · exact List.forall_mem_map.2 fun b hb => ⟨choice.type, htype, (mem_of_mapColumns hbindings hb).1⟩

theorem Statement.mem_tableColumns {table : Table} {r : TableScriptRule} {types : List TableType}
    {p : ColumnPlan} {s : Statement} (hp : ColumnPlan.ofRule table r = .ok p)
    (h : ofPlan table r types p = .ok s) :
    (∀ c ∈ s.tableColumns, c ∈ table.columns) ∧
      ∀ c ∈ s.typeColumns, ∃ t ∈ types, c ∈ t.columns := by
  have hmem := ColumnPlan.mem_of_ofRule hp
  have hkeys : ∀ c ∈ p.keys, c ∈ table.columns := fun c hc => hmem c (.inl hc)
  have hinsert : ∀ c ∈ p.insert, c ∈ table.columns := fun c hc => hmem c (.inr (.inl hc))
  have hset : ∀ c ∈ p.set, c ∈ table.columns := fun c hc => hmem c (.inr (.inr (.inl hc)))
  have hmerge : ∀ c ∈ p.mergeColumns table, c ∈ table.columns :=
    fun c hc => hmem c (.inr (.inr (.inr hc)))
  have hselect : ∀ c ∈ p.select, c ∈ table.columns :=
    fun c hc => ColumnPlan.mem_of_kept hp c (.inl hc)
  have houtput : ∀ c ∈ p.output, c ∈ table.columns :=
    fun c hc => ColumnPlan.mem_of_kept hp c (.inr hc)
  -- Kinds whose statements name columns of the same lists stand together.
  unfold ofPlan at h
  split at h
  case h_1 | h_2 | h_3 =>
    obtain rfl := eq_of_requireColumns h
    refine ⟨?_, List.forall_mem_nil _⟩
    simp only [tableColumns, List.forall_mem_append]
    exact ⟨hselect, hkeys⟩
  case h_4 | h_5 =>
    obtain ⟨htable, htype⟩ := mem_columns_of_joined h
    exact ⟨fun c hc => (htable c hc).elim (hselect c) (hkeys c), htype⟩
  case h_6 =>
    obtain rfl := Except.ok.inj h
    refine ⟨?_, List.forall_mem_nil _⟩
    simp only [tableColumns, List.forall_mem_append]
    exact ⟨hinsert, houtput⟩
  case h_7 =>
    obtain rfl := eq_of_requireColumns h
    refine ⟨?_, List.forall_mem_nil _⟩
    simp only [tableColumns, List.forall_mem_append]
    exact ⟨hinsert, houtput⟩
  case h_8 | h_9 =>
    obtain rfl := eq_of_requireColumns h
    refine ⟨?_, List.forall_mem_nil _⟩
    simp only [tableColumns, List.forall_mem_append]
    exact ⟨⟨hset, hkeys⟩, houtput⟩
  case h_10 | h_11 =>
    obtain rfl := Except.ok.inj h
    refine ⟨?_, List.forall_mem_nil _⟩
    simp only [tableColumns, List.forall_mem_append]
    exact ⟨⟨⟨⟨hmerge, hkeys⟩, hset⟩, hinsert⟩, houtput⟩
  case h_12 =>
    obtain rfl := Except.ok.inj h
    refine ⟨?_, List.forall_mem_nil _⟩
    simp only [tableColumns, List.forall_mem_append]
    exact ⟨hkeys, houtput⟩

/-- A scan of a generated script declares nothing and finds the variables that the hints are about,
in the order of the hints. It takes no name for a variable, whatever else the names hold. -/
theorem synthesizeScript_scanVariables {table : Table} {types : List TableType}
    {r : TableScriptRule} {script : Script} (hschema : LacksSigil table.name.schema)
    (hname : LacksSigil table.name.name) (hcolumns : ∀ c ∈ table.columns, LacksSigil c.name)
    (hascii : ∀ c ∈ table.columns, HasAsciiParameter c.name)
    (htypes : ∀ t ∈ types, ∀ c ∈ t.columns, LacksSigil c.name)
    (h : synthesizeScript table types r = .ok script) :
    ∃ found, scanVariables script.text = some found ∧ found.declared = [] ∧
      found.undeclared.map (·.name) = script.hints.map (·.name) := by
  obtain ⟨p, hp, h⟩ := bind_eq_ok.1 h
  obtain ⟨s, hs, rfl⟩ := map_eq_ok.1 h
  obtain ⟨htable, htype⟩ := Statement.mem_tableColumns hp hs
  have hmentions : Mentions (s.text table.name) s.passedNames := by
    refine Statement.mentions_text hschema hname (fun c hc => ?_) fun c hc => ?_
    · exact ⟨hcolumns c (htable c hc), hascii c (htable c hc)⟩
    · obtain ⟨t, ht, hmem⟩ := htype c hc
      exact htypes t ht c hmem
  obtain ⟨found, hscan, hdeclared, hnames⟩ := hmentions.scanVariables
  exact ⟨found, hscan, hdeclared, hnames.trans s.map_name_hints.symm⟩

/-- A table whose names hold keywords, a comment, a bracket and an at sign. -/
def ledgerTable : Table where
  name := ⟨"dbo", "DECLARE @x"⟩
  columns := [
    { name := "Id", ordinal := 1, type := ⟨"int", .int, "0"⟩ },
    { name := "EXEC ]@y--", ordinal := 2, type := ⟨"int", .int, "0"⟩ }]
  primaryKey := [{ name := "Id", ordinal := 1, type := ⟨"int", .int, "0"⟩ }]
  isView := false

/-- Neither the declaration nor the call nor the comment in the names is read as one. -/
theorem ledgerTable_scanVariables :
    ∃ script found, synthesizeScript ledgerTable [] { kind := .update } = .ok script ∧
      script.text =
        "UPDATE [dbo].[DECLARE @x] SET [EXEC ]]@y--] = @eXECy WHERE [Id] = @id" ∧
      scanVariables script.text = some found ∧ found.declared = [] ∧
      found.undeclared.map (·.name) = script.hints.map (·.name) ∧
      script.hints.map (·.name) = ["@eXECy", "@id"] := by
  have htext : (synthesizeScript ledgerTable [] { kind := .update }).toOption.map
      (fun script => (script.text, script.hints.map (·.name))) =
        some ("UPDATE [dbo].[DECLARE @x] SET [EXEC ]]@y--] = @eXECy WHERE [Id] = @id",
          ["@eXECy", "@id"]) := by
    decide +kernel
  cases hscript : synthesizeScript ledgerTable [] { kind := .update } with
  | error f =>
      rw [hscript] at htext
      cases htext
  | ok script =>
      rw [hscript] at htext
      obtain ⟨htext, hhints⟩ := Prod.mk.inj (Option.some.inj htext)
      obtain ⟨found, hscan, hdeclared, hnames⟩ := synthesizeScript_scanVariables
        (by decide) (by decide) (by decide) (by decide) (List.forall_mem_nil _) hscript
      exact ⟨script, found, rfl, htext, hscan, hdeclared, hnames, hhints⟩

end QueryShape
