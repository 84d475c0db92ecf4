import QueryShape.Proofs.Result
import QueryShape.Proofs.Traffic.Unit
import QueryShape.Proofs.Variables.Uses

namespace QueryShape

open QueryShape.Identifier
open QueryShape.Text

/-- A parameter as far as its name, place and table type go. -/
structure ParameterOutline where
  name : String
  position : Int
  tableType? : Option TableType
  deriving DecidableEq, Repr

/-- What a parameter is known by besides its scalar type. -/
def Parameter.outline (p : Parameter) : ParameterOutline :=
  ⟨p.name, p.position, p.tableType?⟩

namespace Inference

theorem pairwise_byPosition (ps : List Parameter) :
    (byPosition ps).Pairwise fun a b => a.position ≤ b.position :=
  pairwise_le_mergeSort _ _

theorem map_outline_byPosition {ps : List Parameter} {outlines : List ParameterOutline}
    (hperm : (ps.map Parameter.outline).Perm outlines)
    (hsorted : outlines.Pairwise fun a b => a.position < b.position) :
    (byPosition ps).map Parameter.outline = outlines := by
  have houtlines : ((byPosition ps).map Parameter.outline).Pairwise
      fun a b => a.position ≤ b.position :=
    List.pairwise_map.2 (pairwise_byPosition ps)
  have hfound : ((byPosition ps).map Parameter.outline).Perm outlines :=
    ((List.mergeSort_perm _ _).map _).trans hperm
  have hdistinct : outlines.Pairwise fun a b => a.position ≠ b.position :=
    hsorted.imp Int.ne_of_lt
  -- No two outlines have one position, so only one of their orders is sorted.
  refine hfound.eq_of_pairwise ?_ houtlines (hsorted.imp Int.le_of_lt)
  intro a b ha hb hab hba
  exact eq_of_key_eq_of_pairwise hdistinct (hfound.subset ha) hb (Int.le_antisymm hab hba)

/-- The table type that a row suggests. -/
def rowTable? (types : TypeCatalog) (r : Row) : Option TableType :=
  (r.int? "suggested_user_type_id").bind types.tableType?

/-- A row suggests a table type or a system type whose values can be bound. -/
def Supported (types : TypeCatalog) (r : Row) : Prop :=
  (rowTable? types r).isSome ∨ (types.scalarType? (r.int "suggested_system_type_id")).isSome

namespace PinnedVariable

/-- Whether the server is to describe the variable, itself or its placeholder. -/
def isAsked (v : PinnedVariable) : Bool :=
  v.tableParameter?.isNone

/-- The name under which the server is to describe the variable. -/
def askedName (stem : String) (v : PinnedVariable) : String :=
  match v.pin with
  | some (.scalar _) => v.placeholder stem
  | _ => v.use.name

variable {stem : String} {v : PinnedVariable}

theorem describedName_placeholder (h : IsVariableName v.use.name) :
    describedName stem (v.placeholder stem) = v.use.name := by
  have hstarts : startsWithIgnoringCase (v.placeholder stem) stem = true := by
    simp [startsWithIgnoringCase, folded, placeholder]
  have hrest : (v.placeholder stem).toList.drop stem.length = v.bareName.toList := by
    simp [placeholder, ← String.length_toList]
  apply String.toList_inj.1
  unfold describedName
  rw [if_pos hstarts, hrest, name_toList h]
  simp

theorem describedName_askedName (h : IsVariableName v.use.name)
    (hstem : startsWithIgnoringCase v.use.name stem = false) :
    describedName stem (v.askedName stem) = v.use.name := by
  unfold askedName
  split
  · exact describedName_placeholder h
  · unfold describedName
    rw [hstem]
    rfl

theorem askedName_ne {w : PinnedVariable} (hv : IsVariableName v.use.name)
    (hw : IsVariableName w.use.name) (hstemv : startsWithIgnoringCase v.use.name stem = false)
    (hstemw : startsWithIgnoringCase w.use.name stem = false) (hne : v.use.key ≠ w.use.key) :
    v.askedName stem ≠ w.askedName stem := by
  intro h
  apply hne
  have hname := congrArg (describedName stem) h
  rw [describedName_askedName hv hstemv, describedName_askedName hw hstemw] at hname
  exact congrArg parameterKey hname

end PinnedVariable

/-- The outline of the parameter that a table type, or none, makes of a described name. -/
def outlineOf (stem : String) (scanned : ScriptVariables) (name : String)
    (tableType? : Option TableType) : ParameterOutline where
  name := describedName stem name
  position :=
    match scanned.reference? (describedName stem name) with
    | some u => u.offset
    | none => unknownPosition
  tableType?

variable {types : TypeCatalog} {unit stem : String} {scanned : ScriptVariables}
  {rule : EffectiveRule} {r : Row} {rows : List Row}

theorem describedParameter_of_supported (h : Supported types r) :
    ∃ p, describedParameter types unit stem scanned rule r = .ok p ∧
      p.outline = outlineOf stem scanned (r.text "name") (rowTable? types r) := by
  unfold describedParameter outlineOf
  unfold Supported at h
  dsimp only
  split
  · rename_i t ht
    refine ⟨_, rfl, ?_⟩
    unfold rowTable?
    rw [ht]
    rfl
  · rename_i hnone
    have htable : rowTable? types r = none := hnone
    rw [htable] at h ⊢
    split
    · rename_i hscalar
      simp [hscalar] at h
    · exact ⟨_, rfl, rfl⟩

theorem describedParameters_of_supported (h : ∀ r ∈ rows, Supported types r) :
    ∃ ps, rows.mapM (describedParameter types unit stem scanned rule) = .ok ps ∧
      ps.map Parameter.outline =
        rows.map fun r => outlineOf stem scanned (r.text "name") (rowTable? types r) := by
  induction rows with
  | nil => exact ⟨[], rfl, rfl⟩
  | cons r rest ih =>
      obtain ⟨hr, hrest⟩ := List.forall_mem_cons.1 h
      obtain ⟨p, hp, houtline⟩ : ∃ p, describedParameter types unit stem scanned rule r = .ok p ∧
          p.outline = outlineOf stem scanned (r.text "name") (rowTable? types r) :=
        describedParameter_of_supported hr
      obtain ⟨ps, hps, houtlines⟩ := ih hrest
      refine ⟨p :: ps, mapM_cons_eq_ok.2 ⟨p, ps, hp, hps, rfl⟩, ?_⟩
      rw [List.map_cons, List.map_cons, houtline, houtlines]

/-- The undeclared variables of a script with the types that they are given up front. -/
def pinnedVariables (types : TypeCatalog) (script : Script) (rule : EffectiveRule)
    (scanned : ScriptVariables) : List PinnedVariable :=
  scanned.pinnedBy fun u => pinnedType? types script rule u.name

namespace PinnedVariable

/-- The table type that a variable is pinned to, or else the one in the row about it. -/
def tableFrom? (types : TypeCatalog) (stem : String) (rows : List Row) (v : PinnedVariable) :
    Option TableType :=
  match v.pin with
  | some (.table t) => some t
  | _ => (rows.find? fun r => r.text "name" == v.askedName stem).bind (rowTable? types)

/-- What the parameter of a variable is to be. -/
def outline (types : TypeCatalog) (stem : String) (rows : List Row) (v : PinnedVariable) :
    ParameterOutline :=
  ⟨v.use.name, v.use.offset, v.tableFrom? types stem rows⟩

end PinnedVariable

variable {vs : List PinnedVariable}

theorem map_outline_tableParameters (types : TypeCatalog) (stem : String) (rows : List Row)
    (vs : List PinnedVariable) :
    (vs.filterMap PinnedVariable.tableParameter?).map Parameter.outline =
      (vs.filter fun v => !v.isAsked).map (PinnedVariable.outline types stem rows) := by
  induction vs with
  | nil => rfl
  | cons v rest ih =>
      obtain ⟨use, pin⟩ := v
      rcases pin with _ | d | t
      · exact ih
      · exact ih
      · exact congrArg (List.cons _) ih

/-- Rows under the names asked for, in any order, are about the variables to be described. -/
theorem perm_rows (hsound : scanned.Sound) (huses : ∀ v ∈ vs, v.use ∈ scanned.undeclared)
    (hkeys : vs.Pairwise fun v w => v.use.key ≠ w.use.key)
    (hstem : ∀ u ∈ scanned.undeclared, startsWithIgnoringCase u.name stem = false)
    (hasked : ∀ v ∈ vs, v.isAsked = true)
    (hrows : (rows.map (·.text "name")).Perm (vs.map (·.askedName stem))) :
    (rows.map fun r => outlineOf stem scanned (r.text "name") (rowTable? types r)).Perm
      (vs.map (PinnedVariable.outline types stem rows)) := by
  have hreference : ∀ v ∈ vs, v.use ∈ scanned.references := by
    intro v hv
    exact ScriptVariables.mem_references_of_mem_undeclared (huses v hv)
  have hdistinct : rows.Pairwise fun r s => r.text "name" ≠ s.text "name" := by
    have hasked : (vs.map (·.askedName stem)).Nodup := by
      refine List.pairwise_map.2 (hkeys.imp_of_mem ?_)
      intro v w hv hw hne
      exact PinnedVariable.askedName_ne (hsound.names _ (hreference v hv))
        (hsound.names _ (hreference w hw)) (hstem _ (huses v hv)) (hstem _ (huses w hw)) hne
    exact List.pairwise_map.1 (hrows.symm.nodup hasked)
  -- A row is found by its name, so its outline depends on the name only.
  have hrow : rows.map (fun r => outlineOf stem scanned (r.text "name") (rowTable? types r)) =
      (rows.map (·.text "name")).map fun name => outlineOf stem scanned name
        ((rows.find? fun r => r.text "name" == name).bind (rowTable? types)) := by
    rw [List.map_map]
    apply List.map_congr_left
    intro r hr
    simp only [Function.comp_apply]
    rw [find?_eq_some_of_pairwise hdistinct hr]
    rfl
  have hvariable : (vs.map (·.askedName stem)).map (fun name => outlineOf stem scanned name
        ((rows.find? fun r => r.text "name" == name).bind (rowTable? types))) =
      vs.map (PinnedVariable.outline types stem rows) := by
    rw [List.map_map]
    apply List.map_congr_left
    intro v hv
    have htable : v.tableFrom? types stem rows =
        (rows.find? fun r => r.text "name" == v.askedName stem).bind (rowTable? types) := by
      have hpin := (Script.tableParameter?_eq_none_iff v).1
        (Option.isNone_iff_eq_none.1 (hasked v hv))
      unfold PinnedVariable.tableFrom?
      split
      · rename_i t ht
        exact absurd ht (hpin t)
      · rfl
    simp only [Function.comp_apply]
    unfold outlineOf PinnedVariable.outline
    rw [PinnedVariable.describedName_askedName (hsound.names _ (hreference v hv))
      (hstem _ (huses v hv)), hsound.reference?_name (hreference v hv), htable]
  rw [hrow, ← hvariable]
  exact hrows.map _

/-- The variables that the server is asked to describe. -/
def askedVariables (types : TypeCatalog) (script : Script) (rule : EffectiveRule)
    (scanned : ScriptVariables) : List PinnedVariable :=
  (pinnedVariables types script rule scanned).filter PinnedVariable.isAsked

/-- The batch as it is sent. -/
def sentBatch (ctx : InferenceContext) (script : Script) (rule : EffectiveRule)
    (scanned : ScriptVariables) : String :=
  ctx.token.globalize
    (parameterBatch ctx.token.placeholderStem (pinnedVariables ctx.types script rule scanned)
      script)

variable {σ : Type} {w : World σ} {connection : Nat}

theorem outcome_lift_bind {α β : Type} (x : Dialogue σ α) (f : α → Session σ β) (w : World σ) :
    Session.outcome (ExceptT.lift x >>= f) w = (f (x.outcome w).1).outcome (x.outcome w).2 :=
  rfl

theorem outcome_query (connection : Nat) (sql : String) (parameters : List String) (w : World σ) :
    (Dialogue.query connection sql parameters).outcome w =
      let answer := w.server.query connection sql parameters w.state
      (answer.1,
        { w with
          state := answer.2
          exchanges := w.exchanges ++
            [⟨⟨connection, .query, sql, parameters⟩, refusal? answer.1⟩] }) :=
  rfl

theorem outcome_describedRows {batch : String}
    (h : (w.server.query connection describeParameters [batch] w.state).1 = .ok rows) :
    ((describedRows connection unit batch true).outcome w).1 = .ok rows ∧
      ((describedRows connection unit batch true).outcome w).2.exchanges = w.exchanges ++
        [⟨⟨connection, .query, describeParameters, [batch]⟩, none⟩] := by
  unfold describedRows
  rw [if_pos rfl, outcome_lift_bind, outcome_query]
  dsimp only
  rw [h]
  exact ⟨rfl, rfl⟩

theorem checkTempTableNames_eq_ok {unit : String} {keys : List String} {tables : List TempTable}
    (h : ∀ t ∈ tables, t.key ∉ keys) : checkTempTableNames unit keys tables = .ok () := by
  have hfind : (tables.find? fun t => keys.contains t.key) = none := by
    rw [List.find?_eq_none]
    intro t ht
    simpa using h t ht
  unfold checkTempTableNames
  rw [hfind]

theorem inferParameters_of_scan {ctx : InferenceContext} {script : Script} (connection : Nat)
    (hscan : scanVariables script.text = some scanned)
    (htables : ∀ t ∈ script.tempTables, t.key ∉ scanned.undeclared.map VariableUse.key) :
    (inferParameters connection ctx (.script script) rule : Session σ Parameters) =
      (let vs := pinnedVariables ctx.types script rule scanned
       let unit := (ExecutableUnit.script script).label
       let tables := vs.filterMap PinnedVariable.tableParameter?
       describedRows connection unit (sentBatch ctx script rule scanned)
           (decide (tables.length < vs.length)) >>= fun rows =>
         Session.ofExcept (rows.mapM (describedParameter ctx.types unit ctx.token.placeholderStem
             scanned rule)) >>= fun described =>
           pure {
             parameters := byPosition (tables ++ described)
             warnings :=
               unknownParameters unit "script never uses" rule
                   (fun key => (scanned.reference? key).isSome) ++
                 (tables ++ described).flatMap (tableWarnings unit rule) }) := by
  have hcheck : checkTempTableNames (ExecutableUnit.script script).label
      (scanned.undeclared.map VariableUse.key) script.tempTables = .ok () :=
    checkTempTableNames_eq_ok htables
  unfold inferParameters scriptParameters
  dsimp only
  rw [hscan]
  dsimp only
  rw [hcheck]
  rfl

theorem describedRows_of_answer (unit : String) {batch : String}
    (hanswer : vs.filter PinnedVariable.isAsked ≠ [] →
      (w.server.query connection describeParameters [batch] w.state).1 = .ok rows)
    (hrows : rows.length = (vs.filter PinnedVariable.isAsked).length) :
    let needed := decide ((vs.filterMap PinnedVariable.tableParameter?).length < vs.length)
    ((describedRows connection unit batch needed).outcome w).1 = .ok rows ∧
      ((describedRows connection unit batch needed).outcome w).2.exchanges = w.exchanges ++
        if vs.filter PinnedVariable.isAsked = [] then []
        else [⟨⟨connection, .query, describeParameters, [batch]⟩, none⟩] := by
  intro needed
  have hneeded : needed = true ↔ vs.filter PinnedVariable.isAsked ≠ [] := by
    rw [decide_eq_true_iff, List.length_filterMap_lt_length_iff_exists, ne_eq,
      List.filter_eq_nil_iff]
    simp [PinnedVariable.isAsked]
  by_cases hnone : vs.filter PinnedVariable.isAsked = []
  · have hfalse : needed = false := by
      rw [← Bool.not_eq_true, hneeded]
      exact not_not_intro hnone
    rw [hnone] at hrows
    obtain rfl := List.length_eq_zero_iff.1 hrows
    rw [hfalse, if_pos hnone, List.append_nil]
    exact ⟨rfl, rfl⟩
  · rw [hneeded.2 hnone, if_neg hnone]
    exact outcome_describedRows (hanswer hnone)

theorem perm_outlines {described : List Parameter} (hsound : scanned.Sound)
    (huses : ∀ v ∈ vs, v.use ∈ scanned.undeclared)
    (hkeys : vs.Pairwise fun v w => v.use.key ≠ w.use.key)
    (hstem : ∀ u ∈ scanned.undeclared, startsWithIgnoringCase u.name stem = false)
    (hrows : (rows.map (·.text "name")).Perm
      ((vs.filter PinnedVariable.isAsked).map (·.askedName stem)))
    (hdescribed : described.map Parameter.outline =
      rows.map fun r => outlineOf stem scanned (r.text "name") (rowTable? types r)) :
    ((vs.filterMap PinnedVariable.tableParameter? ++ described).map Parameter.outline).Perm
      (vs.map (PinnedVariable.outline types stem rows)) := by
  have hasked : (described.map Parameter.outline).Perm
      ((vs.filter PinnedVariable.isAsked).map (PinnedVariable.outline types stem rows)) := by
    rw [hdescribed]
    exact perm_rows hsound (fun v hv => huses v (List.mem_filter.1 hv).1)
      (hkeys.sublist List.filter_sublist) hstem (fun v hv => (List.mem_filter.1 hv).2) hrows
  rw [List.map_append, map_outline_tableParameters types stem rows]
  refine (List.Perm.append_left _ hasked).trans ?_
  rw [← List.map_append]
  exact (List.perm_append_comm.trans (List.filter_append_perm _ _)).map _

/-- If the server describes the variables it is asked about, each in a row, then the undeclared
variables of a script become parameters, one each and in the order of first use. The rows may come
in any order. Where no variable is to be described, nothing is asked. -/
theorem inferParameters_of_described {script : Script}
    (ctx : InferenceContext) (rule : EffectiveRule) (connection : Nat) (w : World σ)
    (hscan : scanVariables script.text = some scanned)
    (hstem : ∀ u ∈ scanned.undeclared,
      startsWithIgnoringCase u.name ctx.token.placeholderStem = false)
    (htables : ∀ t ∈ script.tempTables, t.key ∉ scanned.undeclared.map VariableUse.key)
    (hanswer : askedVariables ctx.types script rule scanned ≠ [] →
      (w.server.query connection describeParameters [sentBatch ctx script rule scanned]
        w.state).1 = .ok rows)
    (hrows : (rows.map (·.text "name")).Perm ((askedVariables ctx.types script rule scanned).map
      (·.askedName ctx.token.placeholderStem)))
    (hsupported : ∀ r ∈ rows, Supported ctx.types r) :
    ∃ found,
      ((inferParameters connection ctx (.script script) rule).outcome w).1 = .ok found ∧
      found.parameters.map Parameter.outline =
        (pinnedVariables ctx.types script rule scanned).map
          (PinnedVariable.outline ctx.types ctx.token.placeholderStem rows) ∧
      found.parameters.Pairwise (fun p q => p.position < q.position) ∧
      ((inferParameters connection ctx (.script script) rule).outcome w).2.exchanges =
        w.exchanges ++
          if askedVariables ctx.types script rule scanned = [] then []
          else [⟨⟨connection, .query, describeParameters, [sentBatch ctx script rule scanned]⟩,
            none⟩] := by
  have hsound := sound_of_scanVariables hscan
  have huses : ∀ v ∈ pinnedVariables ctx.types script rule scanned,
      v.use ∈ scanned.undeclared := by
    intro v hv
    exact (ScriptVariables.use_mem_of_mem_pinnedBy hv).1
  have hpairwise : (pinnedVariables ctx.types script rule scanned).Pairwise
      fun v v' => v.use.key ≠ v'.use.key ∧ v.use.offset < v'.use.offset :=
    List.pairwise_map.2 hsound.pairwise_undeclared
  obtain ⟨described, hdescribed, houtlines⟩ : ∃ ps, rows.mapM (describedParameter ctx.types
      (ExecutableUnit.script script).label ctx.token.placeholderStem scanned rule) = .ok ps ∧
      ps.map Parameter.outline = rows.map fun r =>
        outlineOf ctx.token.placeholderStem scanned (r.text "name") (rowTable? ctx.types r) :=
    describedParameters_of_supported hsupported
  have hcount : rows.length = (askedVariables ctx.types script rule scanned).length := by
    simpa using hrows.length_eq
  have hpositions : ((pinnedVariables ctx.types script rule scanned).map
      (PinnedVariable.outline ctx.types ctx.token.placeholderStem rows)).Pairwise
      fun a b => a.position < b.position := by
    refine List.pairwise_map.2 (hpairwise.imp ?_)
    intro v v' h
    exact Int.ofNat_lt.2 h.2
  -- The rows come in any order. It is the places of the variables that the parameters are put by.
  have hfound := map_outline_byPosition
    (perm_outlines hsound huses (hpairwise.imp And.left) hstem hrows houtlines) hpositions
  have hincreasing : (byPosition ((pinnedVariables ctx.types script rule scanned).filterMap
      PinnedVariable.tableParameter? ++ described)).Pairwise
      fun p q => p.position < q.position := by
    rw [← hfound] at hpositions
    exact (List.pairwise_map (f := Parameter.outline)).1 hpositions
  obtain ⟨hvalue, hlog⟩ := describedRows_of_answer (ExecutableUnit.script script).label
    hanswer hcount
  rw [inferParameters_of_scan connection hscan htables, Session.outcome_bind]
  revert hvalue hlog
  rcases (describedRows connection _ _ _).outcome w with ⟨result, v⟩
  rintro rfl hlog
  dsimp only
  rw [hdescribed]
  exact ⟨_, rfl, hfound, hincreasing, hlog⟩

/-- A script with a scalar, a pinned table and a table that is described. -/
def tagsScript : Script where
  identity := "tags/find"
  text := "SELECT @id, @tags, @names"
  hints := [⟨"@id", "int"⟩, ⟨"@tags", "dbo.Tags"⟩]

def tagsContext : InferenceContext where
  types :=
    { systemTypes := [(56, "int")]
      tableTypes := [⟨301, ⟨"dbo", "Tags"⟩, []⟩, ⟨302, ⟨"dbo", "Names"⟩, []⟩] }
  token := .ofText "run42"
  canConnect := false

/-- The rows about the variables of the script, the last variable first. -/
def tagsRows : List Row :=
  [⟨[("name", .text "@names"), ("suggested_user_type_id", .int 302)]⟩,
    ⟨[("name", .text "@run42_id"), ("suggested_system_type_id", .int 56)]⟩]

/-- A server that describes the variables of any batch in the same rows. -/
def tagsServer : Server Unit where
  connect := fun _ state => (.ok (), state)
  execute := fun _ _ state => (.ok (), state)
  query := fun _ _ _ state => (.ok tagsRows, state)
  describe := fun _ _ state => (.ok [], state)

/-- One variable has a scalar type, one a table type and one none, and the rows come last variable
first. -/
theorem tagsScript_of_described :
    ∃ found,
      ((inferParameters 0 tagsContext (.script tagsScript) {}).outcome
        ⟨tagsServer, (), [], 0⟩).1 = .ok found ∧
      found.parameters.map Parameter.outline =
        [⟨"@id", 7, none⟩, ⟨"@tags", 12, some ⟨301, ⟨"dbo", "Tags"⟩, []⟩⟩,
          ⟨"@names", 19, some ⟨302, ⟨"dbo", "Names"⟩, []⟩⟩] := by
  have hscan : scanVariables tagsScript.text =
      some ⟨[⟨"@id", 7⟩, ⟨"@tags", 12⟩, ⟨"@names", 19⟩], []⟩ := by
    decide +kernel
  have hsupported : ∀ r ∈ tagsRows, Supported tagsContext.types r := by
    unfold Supported
    decide +kernel
  obtain ⟨found, hvalue, houtlines, -, -⟩ := inferParameters_of_described tagsContext {} 0
    ⟨tagsServer, (), [], 0⟩ hscan (by decide +kernel) (List.forall_mem_nil _) (fun _ => rfl)
    (by decide +kernel) hsupported
  refine ⟨found, hvalue, houtlines.trans ?_⟩
  decide +kernel

end Inference

end QueryShape
