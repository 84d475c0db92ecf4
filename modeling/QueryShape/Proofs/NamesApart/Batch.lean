import QueryShape.Proofs.NamesApart.Scans
import QueryShape.Proofs.Variables.Description
import QueryShape.Proofs.Variables.Prologue

namespace QueryShape

open QueryShape.Identifier
open QueryShape.Inference
open QueryShape.TempTable
open QueryShape.Text
open QueryShape.VariableScan

/-- The text reads as tokens of which none is a variable. -/
def IsVariableFree (text : String) : Prop :=
  ∃ ts, tokens text = some ts ∧ ∀ t ∈ ts, t.isVariable = false

namespace Script

/-- The variables that a scan of the text finds, as they are written. -/
def mentioned (s : Script) : List String :=
  ((visibleTokens s.text).map fun ts => (readings {} ts).map (·.1)).getD []

/-- Each variable that is mentioned in a script is a whole one. -/
def HasWholeVariables (s : Script) : Prop :=
  ∀ name ∈ s.mentioned, IsWholeVariable name

/-- No variable of the script begins like a placeholder. -/
def AvoidsPlaceholders (token : RunToken) (s : Script) : Prop :=
  ∀ name ∈ s.mentioned, startsWithIgnoringCase name token.placeholderStem = false

theorem mem_mentioned {s : Script} {ts : List Token} {r : Reading}
    (hts : visibleTokens s.text = some ts) (hr : r ∈ readings {} ts) : r.1 ∈ s.mentioned := by
  rw [mentioned, hts]
  exact List.mem_map_of_mem hr

end Script

namespace VariableScan

variable {stem : String} {v : PinnedVariable} {vs : List PinnedVariable} {rest : List Char}
  {ts us : List Token}

/-- What tokens in front of a script add to a scan, wherever it comes from: declarations of pinned
variables, and placeholders. -/
def AddsOnly (stem : String) (vs : List PinnedVariable) (ts : List Token) : Prop :=
  ∀ s us, ∃ s' rs, readings s (ts ++ us) = rs ++ readings s' us ∧
    ∀ r ∈ rs, ∃ v ∈ vs, r = (v.use.name, true) ∨ r.1 = v.placeholder stem

theorem addsOnly_nil : AddsOnly stem vs [] :=
  fun s _ => ⟨s, [], rfl, nofun⟩

theorem AddsOnly.append (hts : AddsOnly stem [v] ts) (hus : AddsOnly stem vs us) :
    AddsOnly stem (v :: vs) (ts ++ us) := by
  intro s rest
  obtain ⟨s', rs, hrs, hfirst⟩ := hts s (us ++ rest)
  obtain ⟨s'', rs', hrs', hothers⟩ := hus s' rest
  refine ⟨s'', rs ++ rs', by rw [List.append_assoc, hrs, hrs', List.append_assoc], ?_⟩
  refine List.forall_mem_append.2 ⟨fun r hr => ?_, fun r hr => ?_⟩
  · obtain ⟨w, hw, h⟩ := hfirst r hr
    obtain rfl := List.mem_singleton.1 hw
    exact ⟨w, List.mem_cons_self, h⟩
  · obtain ⟨w, hw, h⟩ := hothers r hr
    exact ⟨w, List.mem_cons_of_mem _ hw, h⟩

theorem after_declare (s : State) :
    s.after (.word ⟨"DECLARE", none⟩) = ⟨.declaration true, 0⟩ := by
  have hvariable : (Word.mk "DECLARE" none).isVariable = false := by decide
  have hkeyword : (Word.mk "DECLARE" none).isKeyword "DECLARE" = true := by decide
  simp only [State.after, State.afterWord, hvariable, hkeyword, if_true, Bool.false_eq_true,
    if_false]

theorem readings_declaration (s : State) (ts : List Token) (hname : IsVariableName v.use.name) :
    readings s (.word ⟨"DECLARE", none⟩ :: .word ⟨v.use.name, none⟩ :: ts) =
      (v.use.name, true) :: readings ⟨.declaration false, 0⟩ ts := by
  have hvariable := Word.isVariable_iff (w := ⟨v.use.name, none⟩).2 hname
  rw [readings_cons_of_isVariable _ (by decide), after_declare,
    readings_cons_variable _ hvariable rfl]
  rfl

theorem addsOnly_declaration (hname : IsVariableName v.use.name)
    (hts : ∀ t ∈ ts, t.isVariable = false) :
    AddsOnly stem [v] (.word ⟨"DECLARE", none⟩ :: .word ⟨v.use.name, none⟩ :: ts) := by
  intro s us
  obtain ⟨s', hrest⟩ := exists_readings_append ⟨.declaration false, 0⟩ us hts
  refine ⟨s', [(v.use.name, true)], ?_, ?_⟩
  · rw [List.cons_append, List.cons_append, readings_declaration _ _ hname, hrest]
    rfl
  · exact List.forall_mem_singleton.2 ⟨v, List.mem_singleton_self v, .inl rfl⟩

theorem addsOnly_assignment (hname : IsVariableName v.use.name)
    (hplaceholder : IsVariableName (v.placeholder stem)) (hts : ∀ t ∈ ts, t.isVariable = false) :
    AddsOnly stem [v] (.word ⟨"DECLARE", none⟩ :: .word ⟨v.use.name, none⟩ ::
      (ts ++ [.equals, .word ⟨v.placeholder stem, none⟩, .semicolon])) := by
  intro s us
  have hvariable := Word.isVariable_iff (w := ⟨v.placeholder stem, none⟩).2 hplaceholder
  obtain ⟨s', hrest⟩ := exists_readings_append ⟨.declaration false, 0⟩
    (.equals :: .word ⟨v.placeholder stem, none⟩ :: .semicolon :: us) hts
  have hmention : readings (s'.after .equals)
      (.word ⟨v.placeholder stem, none⟩ :: .semicolon :: us) =
        (v.placeholder stem, (s'.after .equals).declares) :: readings {} us := by
    rw [readings_cons]
    unfold mention?
    dsimp only
    rw [hvariable, readings_cons_of_isVariable _ rfl,
      show ((Token.semicolon :: us).head? == some .equals) = false from rfl, Bool.and_false]
    rfl
  refine ⟨{}, [(v.use.name, true), (v.placeholder stem, (s'.after .equals).declares)], ?_, ?_⟩
  · rw [List.cons_append, List.cons_append, List.append_assoc, readings_declaration _ _ hname]
    simp only [List.cons_append, List.nil_append]
    rw [hrest, readings_cons_of_isVariable _ rfl, hmention]
  · intro r hr
    refine ⟨v, List.mem_singleton_self v, ?_⟩
    rcases List.mem_cons.1 hr with rfl | hr
    · exact .inl rfl
    · obtain rfl := List.mem_singleton.1 hr
      exact .inr rfl

theorem exists_spells_scalar {d : String} (hname : IsRegularVariable v.use.name)
    (hplaceholder : IsRegularVariable (v.placeholder stem)) (htype : IsVariableFree d)
    {cs : List Char} (h : Spells cs us) :
    ∃ ls, Spells (d.toList ++
        ' ' :: ("= ".toList ++ ((v.placeholder stem).toList ++ (";\n".toList ++ cs)))) (ls ++ us) ∧
      AddsOnly stem [v] (.word ⟨"DECLARE", none⟩ :: .word ⟨v.use.name, none⟩ ::
        ls.filter isVisible) := by
  obtain ⟨ts, hts, hfree⟩ := htype
  have hvisible : ∀ t ∈ ts.filter isVisible, t.isVariable = false := fun t ht =>
    hfree t (List.mem_filter.1 ht).1
  have hassigned := spells_assigned hplaceholder h
  -- A type that ends in a comment takes the placeholder behind it along.
  by_cases hcomment : EndsInComment d
  · refine ⟨ts, ?_, addsOnly_declaration hname.isVariableName hvisible⟩
    have hline : '\n' ∉ "= ".toList ++ ((v.placeholder stem).toList ++ [';']) := by
      simp [newline_not_mem_of_isRegularVariable hplaceholder]
    have hspells := spells_of_endsInComment hts hcomment hline h
    simpa using hspells
  · refine ⟨ts ++ [.blank, .equals, .blank, .word ⟨v.placeholder stem, none⟩, .semicolon, .blank],
      ?_, ?_⟩
    · rw [List.append_assoc]
      exact spells_of_not_endsInComment hts hcomment hassigned
    · rw [List.filter_append]
      exact addsOnly_assignment hname.isVariableName hplaceholder.isVariableName hvisible

theorem exists_spells_declaration (hname : IsRegularVariable v.use.name)
    (hplaceholder : IsRegularVariable (v.placeholder stem))
    (htype : ∀ p ∈ v.pin, IsVariableFree p.text) {cs : List Char} (h : Spells cs us) :
    ∃ ls, Spells ((v.declaration stem).toList ++ cs) (ls ++ us) ∧
      AddsOnly stem [v] (ls.filter isVisible) := by
  rcases hpin : v.pin with _ | d | t
  · exact ⟨[], by rwa [PinnedVariable.declaration_of_pin_eq_none hpin], addsOnly_nil⟩
  · have hfree : IsVariableFree d := htype _ hpin
    obtain ⟨ls, hls, hadds⟩ := exists_spells_scalar hname hplaceholder hfree h
    refine ⟨.word ⟨"DECLARE", none⟩ :: .blank :: .word ⟨v.use.name, none⟩ :: .blank :: ls, ?_,
      hadds⟩
    have hline := spells_declared hname hls
    simpa [PinnedVariable.declaration, hpin, PinnedVariable.placeholder] using hline
  · obtain ⟨ts, hts, hfree⟩ := htype _ hpin
    obtain rfl := Option.some.inj ((tokens_fullName t.name).symm.trans hts)
    refine ⟨_, PinnedVariable.spells_tableDeclaration hname hpin h, ?_⟩
    have hbody : ∀ u ∈ [Token.word ⟨t.name.schema, some .bracket⟩, .period,
        .word ⟨t.name.name, some .bracket⟩, .semicolon], u.isVariable = false := by
      simpa [Token.isVariable] using hfree
    exact addsOnly_declaration hname.isVariableName hbody

theorem exists_spells_declarations (hnames : ∀ v ∈ vs, IsRegularVariable v.use.name)
    (hplaceholders : ∀ v ∈ vs, IsRegularVariable (v.placeholder stem))
    (htypes : ∀ v ∈ vs, ∀ p ∈ v.pin, IsVariableFree p.text) {cs : List Char} (h : Spells cs us) :
    ∃ ls, Spells ((String.join (vs.map (·.declaration stem))).toList ++ cs) (ls ++ us) ∧
      AddsOnly stem vs (ls.filter isVisible) := by
  refine PinnedVariable.exists_spells_lines addsOnly_nil AddsOnly.append ?_ h
  intro v hv cs us h
  exact exists_spells_declaration (hnames v hv) (hplaceholders v hv) (htypes v hv) h

end VariableScan

theorem TempTable.IsWholeVariable.placeholder {t : RunToken} (hplain : t.IsPlain)
    {v : PinnedVariable} (h : IsWholeVariable v.use.name) :
    IsWholeVariable (v.placeholder t.placeholderStem) := by
  refine ⟨PinnedVariable.isRegularVariable_placeholder hplain h.1, ?_⟩
  have hname := PinnedVariable.name_toList h.1.isVariableName
  have hparts := h.2
  rw [hname, List.forall_mem_cons] at hparts
  rw [PinnedVariable.placeholder_toList, List.forall_mem_cons, List.forall_mem_append]
  exact ⟨hparts.1, fun d hd =>
    RunToken.isNamePart_of_isAlphanum (hplain.of_mem_placeholderFront hd), hparts.2⟩

section Script

variable {t : RunToken} {script : Script} {scanned found : ScriptVariables} {ts us : List Token}
  {pin : VariableUse → Option PinnedType}

theorem Script.name_mem_mentioned (hscan : scanVariables script.text = some scanned)
    {u : VariableUse} (hu : u ∈ scanned.references) : u.name ∈ script.mentioned := by
  obtain ⟨ts, hts⟩ := exists_visibleTokens hscan
  obtain ⟨ms, hms, hreadings⟩ := exists_scanVariables hts
  obtain rfl := Option.some.inj (hscan.symm.trans hms)
  have hname : u.name ∈ (summary ms).references.map (·.name) := List.mem_map_of_mem hu
  rw [map_name_references, hreadings] at hname
  obtain ⟨r, hr, hrname⟩ := List.mem_map.1 ((firstOfEach_sublist _ _).subset hname)
  rw [← hrname]
  exact Script.mem_mentioned hts hr

/-- The declarations add their variables and placeholders, and a scan of the script goes on from
somewhere. -/
theorem exists_readings_parameterBatch (hplain : t.IsPlain) (hwhole : script.HasWholeVariables)
    (hscan : scanVariables script.text = some scanned)
    (htypes : ∀ v ∈ scanned.pinnedBy pin, ∀ p ∈ v.pin, IsVariableFree p.text)
    (hts : visibleTokens script.text = some ts) :
    ∃ s rs ms, ms.map Mention.reading = rs ++ readings s ts ∧
      scanVariables (t.globalize
        (parameterBatch t.placeholderStem (scanned.pinnedBy pin) script)) = some (summary ms) ∧
      ∀ r ∈ rs, ∃ v ∈ scanned.pinnedBy pin,
        r = (v.use.name, true) ∨ r.1 = v.placeholder t.placeholderStem := by
  have hnames : ∀ v ∈ scanned.pinnedBy pin, IsWholeVariable v.use.name := fun v hv =>
    hwhole _ (Script.name_mem_mentioned hscan (ScriptVariables.use_mem_references hv))
  have hscript : ∀ r ∈ readings {} ts, IsWholeVariable r.1 := fun r hr =>
    hwhole _ (Script.mem_mentioned hts hr)
  obtain ⟨us, hus, rfl⟩ := Option.map_eq_some_iff.1 hts
  obtain ⟨ls, hls, hadds⟩ := exists_spells_declarations (fun v hv => (hnames v hv).1)
    (fun v hv => ((hnames v hv).placeholder hplain).1) htypes (tokens_eq_some_iff.1 hus)
  obtain ⟨s, rs, hreadings, hrs⟩ := hadds {} (us.filter isVisible)
  -- All variables that are read are whole, so they are the same where names are made global.
  rw [← String.toList_append] at hls
  obtain ⟨all, hall, hrenamed⟩ := hls.exists_renamed hplain.isFiller none
  rw [← RunToken.toList_globalize] at hall
  have hwholeAll : ∀ r ∈ readings {} ((ls ++ us).filter isVisible), IsWholeVariable r.1 := by
    rw [List.filter_append, hreadings, List.forall_mem_append]
    refine ⟨fun r hr => ?_, fun r hr => ?_⟩
    · obtain ⟨v, hv, rfl | hname⟩ := hrs r hr
      · exact hnames v hv
      · rw [hname]
        exact (hnames v hv).placeholder hplain
    · obtain ⟨declared, hmem⟩ := (readings_from s 0 _).1 r hr
      exact hscript (r.1, declared) hmem
  have hvisible := congrArg (Option.map (·.filter isVisible)) (tokens_eq_some_iff.2 hall)
  obtain ⟨ms, hms, hmsReadings⟩ := exists_scanVariables hvisible
  rw [readings_of_areRenamed (areRenamed_visible hrenamed) {} hwholeAll, List.filter_append,
    hreadings] at hmsReadings
  exact ⟨s, rs, ms, hmsReadings, hms, hrs⟩

/-- In the text that is described, the undeclared variables are placeholders of undeclared variables
of the script, or such variables themselves. -/
theorem undeclared_parameterBatch (hplain : t.IsPlain) (hwhole : script.HasWholeVariables)
    (havoids : script.AvoidsPlaceholders t)
    (hscan : scanVariables script.text = some scanned)
    (htypes : ∀ v ∈ scanned.pinnedBy pin, ∀ p ∈ v.pin, IsVariableFree p.text)
    (hfound : scanVariables (t.globalize
      (parameterBatch t.placeholderStem (scanned.pinnedBy pin) script)) = some found)
    {name : String} (h : name ∈ found.undeclared.map (·.name)) :
    parameterKey (describedName t.placeholderStem name) ∈
      scanned.undeclared.map VariableUse.key := by
  obtain ⟨ts, hts⟩ := exists_visibleTokens hscan
  obtain ⟨s, rs, ms, hreadings, hms, hrs⟩ :=
    exists_readings_parameterBatch hplain hwhole hscan htypes hts
  obtain rfl := Option.some.inj (hfound.symm.trans hms)
  rw [map_name_undeclared, List.mem_filter, Bool.not_eq_true', map_name_references, hreadings] at h
  obtain ⟨hname, hundeclared⟩ := h
  rw [← Bool.not_eq_true, isDeclared_summary_iff, hreadings] at hundeclared
  obtain ⟨r, hr, rfl⟩ := List.mem_map.1 ((firstOfEach_sublist _ _).subset hname)
  rcases List.mem_append.1 hr with hr | hr
  · obtain ⟨v, hv, rfl | hplaceholder⟩ := hrs r hr
    · exact absurd ⟨_, List.mem_append_left _ hr, rfl, rfl⟩ hundeclared
    · obtain ⟨huse, -⟩ := ScriptVariables.use_mem_of_mem_pinnedBy hv
      have hwholeName := hwhole _ (Script.name_mem_mentioned hscan
        (ScriptVariables.mem_references_of_mem_undeclared huse))
      rw [hplaceholder, PinnedVariable.describedName_placeholder hwholeName.1.isVariableName]
      exact List.mem_map_of_mem huse
  · -- A scan of the script alone finds the variable too, and nothing more declared.
    obtain ⟨hfrom, hdeclaredFrom⟩ := readings_from s 0 ts
    obtain ⟨declared, hmem⟩ := hfrom r hr
    obtain ⟨own, hown, hownReadings⟩ := exists_scanVariables hts
    obtain rfl := Option.some.inj (hscan.symm.trans hown)
    have hownUndeclared : (summary own).isDeclared r.1 = false := by
      rw [← Bool.not_eq_true, isDeclared_summary_iff, hownReadings]
      rintro ⟨d, hd, hdeclared, hkey⟩
      exact hundeclared ⟨d, List.mem_append_right _ (hdeclaredFrom d hd hdeclared), hdeclared, hkey⟩
    have hread : (r.1, declared) ∈ own.map Mention.reading := by
      rw [hownReadings]
      exact hmem
    obtain ⟨u, hu, hukey⟩ := exists_undeclared_of_reading hread hownUndeclared
    have hstem : describedName t.placeholderStem r.1 = r.1 := by
      rw [describedName, havoids _ (Script.mem_mentioned hts hmem)]
      rfl
    rw [hstem, ← hukey]
    exact List.mem_map_of_mem hu

end Script

end QueryShape
