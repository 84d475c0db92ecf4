import QueryShape.Proofs.Variables.Declarations

namespace QueryShape

open QueryShape.Identifier
open QueryShape.Inference
open QueryShape.VariableScan

namespace Inference.PinnedVariable

/-- The placeholder of a variable that is pinned to a scalar type. -/
def placeholder? (stem : String) (v : PinnedVariable) : Option String :=
  match v.pin with
  | some (.scalar _) => some (v.placeholder stem)
  | _ => none

end Inference.PinnedVariable

namespace VariableScan

variable {stem : String} {vs : List PinnedVariable} {v : PinnedVariable} {name : String}

/-- The variables in the declarations of pinned variables. -/
def prologueReadings (stem : String) (vs : List PinnedVariable) : List Reading :=
  vs.flatMap (declarationReadings stem)

theorem prologueReadings_cons (stem : String) (v : PinnedVariable) (vs : List PinnedVariable) :
    prologueReadings stem (v :: vs) = declarationReadings stem v ++ prologueReadings stem vs :=
  List.flatMap_cons

/-- The declarations add their variables, and the scan of the script begins at the start. -/
theorem readings_prologue (rest : List Token)
    (hnames : ∀ v ∈ vs, IsVariableName v.use.name)
    (hplaceholders : ∀ v ∈ vs, IsVariableName (v.placeholder stem))
    (htypes : ∀ v ∈ vs, v.hasInertType = true) :
    readings {} (vs.flatMap (fun v => declarationTokens stem v.typeTokens v) ++ rest) =
      prologueReadings stem vs ++ readings {} rest := by
  induction vs with
  | nil => rfl
  | cons v vs ih =>
      obtain ⟨hname, hnames⟩ := List.forall_mem_cons.1 hnames
      obtain ⟨hplaceholder, hplaceholders⟩ := List.forall_mem_cons.1 hplaceholders
      obtain ⟨htype, htypes⟩ := List.forall_mem_cons.1 htypes
      rw [List.flatMap_cons, prologueReadings_cons, List.append_assoc, List.append_assoc,
        readings_declarationTokens _ hname hplaceholder (PinnedVariable.isInert_typeTokens htype),
        ih hnames hplaceholders htypes]

theorem mem_declarationReadings {r : Reading} (h : r ∈ declarationReadings stem v) :
    v.pin.isSome ∧ r = (v.use.name, true) ∨
      v.placeholder? stem = some r.1 ∧ r.2 = false := by
  unfold declarationReadings at h
  unfold PinnedVariable.placeholder?
  rcases hpin : v.pin with _ | d | t
  · rw [hpin] at h
    cases h
  · rw [hpin] at h
    rcases List.mem_cons.1 h with rfl | h
    · exact .inl ⟨rfl, rfl⟩
    · obtain rfl := List.mem_singleton.1 h
      exact .inr ⟨rfl, rfl⟩
  · rw [hpin] at h
    obtain rfl := List.mem_singleton.1 h
    exact .inl ⟨rfl, rfl⟩

theorem declared_mem_declarationReadings (h : v.pin.isSome) :
    (v.use.name, true) ∈ declarationReadings stem v := by
  unfold declarationReadings
  rcases hpin : v.pin with _ | d | t
  · rw [hpin] at h
    cases h
  · exact List.mem_cons_self
  · exact List.mem_cons_self

theorem filter_map_fst_prologue {p : String → Bool}
    (hdeclared : ∀ v ∈ vs, v.pin.isSome → p v.use.name = false)
    (hplaceholder : ∀ v ∈ vs, p (v.placeholder stem) = true) :
    ((prologueReadings stem vs).map (·.1)).filter p =
      vs.filterMap (·.placeholder? stem) := by
  induction vs with
  | nil => rfl
  | cons v vs ih =>
      obtain ⟨hname, hdeclared⟩ := List.forall_mem_cons.1 hdeclared
      obtain ⟨hvalue, hplaceholder⟩ := List.forall_mem_cons.1 hplaceholder
      have hhere : ((declarationReadings stem v).map (·.1)).filter p =
          (v.placeholder? stem).toList := by
        unfold declarationReadings PinnedVariable.placeholder?
        rcases hpin : v.pin with _ | d | t
        · rfl
        · have hfalse := hname (by rw [hpin]; rfl)
          simp [hfalse, hvalue]
        · have hfalse := hname (by rw [hpin]; rfl)
          simp [hfalse]
      rw [prologueReadings_cons, List.map_append, List.filter_append, hhere,
        ih hdeclared hplaceholder]
      cases hp : v.placeholder? stem with
      | none => rw [List.filterMap_cons_none hp]; rfl
      | some name => rw [List.filterMap_cons_some hp]; rfl

theorem placeholder?_eq_some {name : String} (h : v.placeholder? stem = some name) :
    name = v.placeholder stem := by
  unfold PinnedVariable.placeholder? at h
  split at h
  · exact (Option.some.inj h).symm
  · cases h

theorem isDeclared_prologue_iff {ms script : List Mention}
    (hms : ms.map Mention.reading = prologueReadings stem vs ++ script.map Mention.reading)
    (name : String) :
    (summary ms).isDeclared name = true ↔
      (summary script).isDeclared name = true ∨
        ∃ v ∈ vs, v.pin.isSome ∧ v.use.key = parameterKey name := by
  rw [isDeclared_summary_iff, isDeclared_summary_iff, hms]
  constructor
  · rintro ⟨r, hr, hdeclared, hkey⟩
    rcases List.mem_append.1 hr with hr | hr
    · obtain ⟨v, hv, hr⟩ := List.mem_flatMap.1 hr
      rcases mem_declarationReadings hr with ⟨hpin, rfl⟩ | ⟨-, hundeclared⟩
      · exact .inr ⟨v, hv, hpin, hkey⟩
      · rw [hundeclared] at hdeclared
        cases hdeclared
    · exact .inl ⟨r, hr, hdeclared, hkey⟩
  · rintro (⟨r, hr, hdeclared, hkey⟩ | ⟨v, hv, hpin, hkey⟩)
    · exact ⟨r, List.mem_append_right _ hr, hdeclared, hkey⟩
    · have hr : (v.use.name, true) ∈ prologueReadings stem vs :=
        List.mem_flatMap.2 ⟨v, hv, declared_mem_declarationReadings hpin⟩
      exact ⟨_, List.mem_append_left _ hr, rfl, hkey⟩

end VariableScan

section Script

variable {t : RunToken} {scanned : ScriptVariables} {pin : VariableUse → Option PinnedType}

/-- No variable of a script begins like a placeholder, as variables are compared. -/
def ScriptVariables.SparesPlaceholders (t : RunToken) (scanned : ScriptVariables) : Prop :=
  ∀ u ∈ scanned.references, ¬ (parameterKey t.placeholderStem).toList <+: u.key.toList

variable {v w : PinnedVariable}

theorem key_placeholder_ne (hplain : t.IsPlain) (hspares : scanned.SparesPlaceholders t)
    (hname : IsVariableName v.use.name) {u : VariableUse} (hu : u ∈ scanned.references) :
    parameterKey (v.placeholder t.placeholderStem) ≠ u.key := by
  intro h
  apply hspares u hu
  rw [← h, PinnedVariable.key_placeholder hplain hname]
  exact List.prefix_append _ _

theorem key_placeholder_ne_placeholder (hplain : t.IsPlain) (hv : IsVariableName v.use.name)
    (hw : IsVariableName w.use.name) (hne : v.use.key ≠ w.use.key) :
    parameterKey (v.placeholder t.placeholderStem) ≠
      parameterKey (w.placeholder t.placeholderStem) := by
  intro h
  have hlists := congrArg String.toList h
  rw [PinnedVariable.key_placeholder hplain hv, PinnedVariable.key_placeholder hplain hw] at hlists
  exact hne (String.toList_inj.1 (List.append_cancel_left hlists))

theorem pairwise_prologue (hsound : scanned.Sound) (hplain : t.IsPlain)
    (hspares : scanned.SparesPlaceholders t) :
    ((prologueReadings t.placeholderStem (scanned.pinnedBy pin)).map (·.1)).Pairwise
      fun x y => parameterKey x ≠ parameterKey y := by
  have hreference : ∀ v ∈ scanned.pinnedBy pin, v.use ∈ scanned.references :=
    fun _ hv => ScriptVariables.use_mem_references hv
  have hkeys : (scanned.pinnedBy pin).Pairwise fun v w => v.use.key ≠ w.use.key :=
    List.pairwise_map.2 (hsound.pairwise_undeclared.imp And.left)
  -- A placeholder differs from all variables of the script, and from another placeholder as their
  -- variables differ.
  refine List.pairwise_map.2 (List.pairwise_flatMap.2 ⟨?_, hkeys.imp_of_mem ?_⟩)
  · intro v hv
    unfold declarationReadings
    split
    · exact .nil
    · exact List.pairwise_singleton _ _
    · refine List.pairwise_pair.2 ?_
      exact (key_placeholder_ne hplain hspares (hsound.names _ (hreference v hv))
        (hreference v hv)).symm
  · intro v w hv hw hne x hx y hy
    have hnamev := hsound.names _ (hreference v hv)
    have hnamew := hsound.names _ (hreference w hw)
    rcases mem_declarationReadings hx with ⟨-, rfl⟩ | ⟨hx, -⟩ <;>
      rcases mem_declarationReadings hy with ⟨-, rfl⟩ | ⟨hy, -⟩
    · exact hne
    · rw [placeholder?_eq_some hy]
      exact (key_placeholder_ne hplain hspares hnamew (hreference v hv)).symm
    · rw [placeholder?_eq_some hx]
      exact key_placeholder_ne hplain hspares hnamev (hreference w hw)
    · rw [placeholder?_eq_some hx, placeholder?_eq_some hy]
      exact key_placeholder_ne_placeholder hplain hnamev hnamew hne

theorem exists_pinned_iff (hsound : scanned.Sound) {u : VariableUse}
    (hu : u ∈ scanned.references) :
    (∃ v ∈ scanned.pinnedBy pin, v.pin.isSome ∧ v.use.key = u.key) ↔
      u ∈ scanned.undeclared ∧ (pin u).isSome := by
  constructor
  · rintro ⟨v, hv, hpin, hkey⟩
    obtain ⟨huse, hvpin⟩ := ScriptVariables.use_mem_of_mem_pinnedBy hv
    have heq : v.use = u :=
      hsound.eq_of_key_eq (ScriptVariables.use_mem_references hv) hu hkey
    rw [hvpin, heq] at hpin
    rw [heq] at huse
    exact ⟨huse, hpin⟩
  · rintro ⟨huse, hpin⟩
    exact ⟨⟨u, pin u⟩, List.mem_map_of_mem huse, hpin, rfl⟩

theorem contains_prologue_iff (pin : VariableUse → Option PinnedType) (hsound : scanned.Sound)
    (hplain : t.IsPlain) (hspares : scanned.SparesPlaceholders t) {u : VariableUse}
    (hu : u ∈ scanned.references) :
    ((prologueReadings t.placeholderStem (scanned.pinnedBy pin)).map
        fun r => parameterKey r.1).contains (parameterKey u.name) = true ↔
      u ∈ scanned.undeclared ∧ (pin u).isSome := by
  rw [← exists_pinned_iff hsound hu, List.contains_iff_mem]
  constructor
  · intro h
    obtain ⟨r, hr, hkey⟩ := List.mem_map.1 h
    obtain ⟨v, hv, hr⟩ := List.mem_flatMap.1 hr
    rcases mem_declarationReadings hr with ⟨hpin, rfl⟩ | ⟨hname, -⟩
    · exact ⟨v, hv, hpin, hkey⟩
    · rw [placeholder?_eq_some hname] at hkey
      have hvname := hsound.names _ (ScriptVariables.use_mem_references hv)
      exact absurd hkey (key_placeholder_ne hplain hspares hvname hu)
  · rintro ⟨v, hv, hpin, hkey⟩
    refine List.mem_map.2 ⟨(v.use.name, true), List.mem_flatMap.2 ⟨v, hv, ?_⟩, hkey⟩
    exact declared_mem_declarationReadings hpin

variable {ms script : List Mention}

theorem filter_prologue (hsound : (summary script).Sound) (hplain : t.IsPlain)
    (hspares : (summary script).SparesPlaceholders t)
    (hms : ms.map Mention.reading =
      prologueReadings t.placeholderStem ((summary script).pinnedBy pin) ++
        script.map Mention.reading) :
    ((prologueReadings t.placeholderStem ((summary script).pinnedBy pin)).map (·.1)).filter
        (fun n => !(summary ms).isDeclared n) =
      ((summary script).pinnedBy pin).filterMap (·.placeholder? t.placeholderStem) := by
  have hdeclared : ∀ v ∈ (summary script).pinnedBy pin, v.pin.isSome →
      (summary ms).isDeclared v.use.name = true := by
    intro v hv hpin
    exact (isDeclared_prologue_iff hms _).2 (.inr ⟨v, hv, hpin, rfl⟩)
  have hundeclared : ∀ v ∈ (summary script).pinnedBy pin,
      (summary ms).isDeclared (v.placeholder t.placeholderStem) = false := by
    intro v hv
    have hname := hsound.names _ (ScriptVariables.use_mem_references hv)
    rw [← Bool.not_eq_true, isDeclared_prologue_iff hms]
    rintro (h | ⟨w, hw, -, hkey⟩)
    · obtain ⟨u, hu, hkey⟩ := exists_reference_of_isDeclared h
      exact key_placeholder_ne hplain hspares hname hu hkey.symm
    · exact key_placeholder_ne hplain hspares hname (ScriptVariables.use_mem_references hw)
        hkey.symm
  apply filter_map_fst_prologue
  · intro v hv hpin
    rw [hdeclared v hv hpin]
    rfl
  · intro v hv
    rw [hundeclared v hv]
    rfl

theorem filter_script (hsound : (summary script).Sound) (hplain : t.IsPlain)
    (hspares : (summary script).SparesPlaceholders t)
    (hms : ms.map Mention.reading =
      prologueReadings t.placeholderStem ((summary script).pinnedBy pin) ++
        script.map Mention.reading) :
    (((summary script).references.map (·.name)).filter fun n =>
        !((prologueReadings t.placeholderStem ((summary script).pinnedBy pin)).map
          fun r => parameterKey r.1).contains (parameterKey n) && !(summary ms).isDeclared n) =
      (((summary script).pinnedBy pin).filter (·.pin.isNone)).map (·.use.name) := by
  have hpinned : (((summary script).pinnedBy pin).filter (·.pin.isNone)).map (·.use.name) =
      ((summary script).references.filter fun u =>
        (pin u).isNone && !(summary script).isDeclared u.name).map (·.name) := by
    unfold ScriptVariables.pinnedBy ScriptVariables.undeclared
    rw [List.filter_map, List.filter_filter, List.map_map]
    rfl
  rw [hpinned, List.filter_map]
  congr 1
  apply List.filter_congr
  intro u hu
  have hundeclared : u ∈ (summary script).undeclared ↔
      (summary script).isDeclared u.name = false := by
    unfold ScriptVariables.undeclared
    rw [List.mem_filter, Bool.not_eq_true']
    exact and_iff_right hu
  have hexists : (∃ v ∈ (summary script).pinnedBy pin,
      v.pin.isSome ∧ v.use.key = parameterKey u.name) ↔
      u ∈ (summary script).undeclared ∧ (pin u).isSome :=
    exists_pinned_iff hsound hu
  have hprologue := contains_prologue_iff pin hsound hplain hspares hu
  have hfound := isDeclared_prologue_iff hms u.name
  rw [hexists, hundeclared] at hfound
  rw [hundeclared] at hprologue
  cases hscript : (summary script).isDeclared u.name <;> cases hpin : pin u <;>
    simp_all

/-- In the declarations and the script together, the undeclared variables are the placeholders and
the variables of the script that were not pinned. Of the variables of the script, the pinned ones
are declared and no others than before. -/
theorem scanVariables_parameterBatch {script : Script} (pin : VariableUse → Option PinnedType)
    (hplain : t.IsPlain) (hscan : scanVariables script.text = some scanned)
    (hspares : scanned.SparesPlaceholders t)
    (htypes : ∀ v ∈ scanned.pinnedBy pin, v.hasInertType = true)
    (hreads : ∀ v ∈ scanned.pinnedBy pin, v.IsReadAsMeant) :
    ∃ found,
      scanVariables (parameterBatch t.placeholderStem (scanned.pinnedBy pin) script) =
        some found ∧
      found.undeclared.map (·.name) =
        (scanned.pinnedBy pin).filterMap (·.placeholder? t.placeholderStem) ++
          ((scanned.pinnedBy pin).filter (·.pin.isNone)).map (·.use.name) ∧
      ∀ u ∈ scanned.references, found.isDeclared u.name = true ↔
        scanned.isDeclared u.name = true ∨ u ∈ scanned.undeclared ∧ (pin u).isSome := by
  have hsound := sound_of_scanVariables hscan
  obtain ⟨ts, hts⟩ := exists_visibleTokens hscan
  obtain ⟨own, hown, hownReadings⟩ := exists_scanVariables hts
  obtain rfl := Option.some.inj (hscan.symm.trans hown)
  have htokens := PinnedVariable.visibleTokens_parameterBatch hplain htypes hreads hts
  obtain ⟨ms, hfound, hreadings⟩ := exists_scanVariables htokens
  have hnames : ∀ v ∈ (summary own).pinnedBy pin, IsVariableName v.use.name := by
    intro v hv
    exact hsound.names _ (ScriptVariables.use_mem_references hv)
  have hms : ms.map Mention.reading =
      prologueReadings t.placeholderStem ((summary own).pinnedBy pin) ++
        own.map Mention.reading := by
    rw [hreadings, hownReadings]
    exact readings_prologue ts hnames
      (fun v _ => PinnedVariable.isVariableName_placeholder hplain v) htypes
  refine ⟨summary ms, hfound, ?_, ?_⟩
  · -- The variables of the declarations come first, and the script adds those of other keys.
    rw [map_name_undeclared, map_name_references, hms, List.map_append, firstOfEach_append,
      firstOfEach_eq_self (pairwise_prologue hsound hplain hspares), List.filter_append,
      filter_prologue hsound hplain hspares hms, ← map_name_references, List.filter_filter,
      ← filter_script hsound hplain hspares hms, List.map_map]
    congr 1
    apply List.filter_congr
    intro name _
    exact Bool.and_comm _ _
  · intro u hu
    rw [← exists_pinned_iff hsound hu]
    exact isDeclared_prologue_iff hms u.name

end Script

/-- A script with a declared variable and three undeclared ones. -/
def pricesScript : Script where
  identity := "prices/find"
  text := "DECLARE @n int; SELECT @n, @price, @tags, @name"

/-- Types for two of the variables, one scalar and one table type. -/
def pricesPin (u : VariableUse) : Option PinnedType :=
  if u.name = "@price" then some (.scalar "decimal(10, 2)")
  else if u.name = "@tags" then some (.table ⟨301, ⟨"dbo", "Tags"⟩, []⟩)
  else none

def pricesVariables : ScriptVariables where
  references := [⟨"@n", 8⟩, ⟨"@price", 27⟩, ⟨"@tags", 35⟩, ⟨"@name", 42⟩]
  declared := ["n"]

/-- The comma in the type of the price is inside of parentheses, so it ends no declaration. -/
theorem pricesScript_scanVariables :
    ∃ found,
      scanVariables ("DECLARE @price decimal(10, 2) = @run42_price;\n" ++
        "DECLARE @tags [dbo].[Tags];\n" ++ pricesScript.text) = some found ∧
      found.undeclared.map (·.name) = ["@run42_price", "@name"] := by
  have hscan : scanVariables pricesScript.text = some pricesVariables := by decide +kernel
  have hspares : pricesVariables.SparesPlaceholders (.ofText "run42") := by
    unfold ScriptVariables.SparesPlaceholders
    decide +kernel
  have htext : "DECLARE @price decimal(10, 2) = @run42_price;\n" ++
      "DECLARE @tags [dbo].[Tags];\n" ++ pricesScript.text =
      parameterBatch (RunToken.ofText "run42").placeholderStem
        (pricesVariables.pinnedBy pricesPin) pricesScript := by
    decide +kernel
  obtain ⟨found, hfound, hnames, -⟩ := scanVariables_parameterBatch pricesPin
    (RunToken.isPlain_ofText "run42") hscan hspares (by decide +kernel) (by decide +kernel)
  refine ⟨found, ?_, hnames.trans (by decide +kernel)⟩
  rw [htext]
  exact hfound

/-- The second column is a variable in brackets, as a scan reads it. -/
def spacedScript : Script where
  identity := "sizes/find"
  text := "SELECT @x, [@x y]"

/-- The type of the variable in brackets is pinned by a rule. -/
def spacedPin (u : VariableUse) : Option PinnedType :=
  pinnedType? {} spacedScript
    (({} : EffectiveRule).withParameter "@x y" { sqlType := some "int" }) u.name

def spacedVariables : ScriptVariables where
  references := [⟨"@x", 7⟩, ⟨"@x y", 11⟩]
  declared := []

def spacedBatch : String :=
  "DECLARE @x y int = @run42_x y;\nSELECT @x, [@x y]"

/-- The declaration names the variable without its brackets and so declares another one. The type
begins nothing and the tokens of the batch are those of its line and those of the script, yet its
placeholder is not found, and the variable that is not pinned is declared. -/
theorem spacedScript_loses_placeholder :
    let pinned := spacedVariables.pinnedBy spacedPin
    let stem := (RunToken.ofText "run42").placeholderStem
    scanVariables spacedScript.text = some spacedVariables ∧
    spacedVariables.SparesPlaceholders (.ofText "run42") ∧
    (∀ v ∈ pinned, v.hasInertType = true) ∧
    parameterBatch stem pinned spacedScript = spacedBatch ∧
    (visibleTokens (String.join (pinned.map (·.declaration stem)))).bind (fun lines =>
      (visibleTokens spacedScript.text).map (lines ++ ·)) = visibleTokens spacedBatch ∧
    ∃ found, scanVariables spacedBatch = some found ∧
      found.undeclared.map (·.name) = ["@run42_x", "@x y"] ∧
      pinned.filterMap (·.placeholder? stem) = ["@run42_x y"] ∧
      spacedVariables.isDeclared "@x" = false ∧ spacedPin ⟨"@x", 7⟩ = none ∧
      found.isDeclared "@x" = true := by
  have hspares : spacedVariables.SparesPlaceholders (.ofText "run42") := by
    unfold ScriptVariables.SparesPlaceholders
    decide +kernel
  have hscan : scanVariables spacedBatch =
      some ⟨[⟨"@x", 8⟩, ⟨"@run42_x", 19⟩, ⟨"@x y", 42⟩], ["x"]⟩ := by
    decide +kernel
  refine ⟨by decide +kernel, hspares, by decide +kernel, by decide +kernel, by decide +kernel, _,
    hscan, ?_⟩
  decide +kernel

end QueryShape
