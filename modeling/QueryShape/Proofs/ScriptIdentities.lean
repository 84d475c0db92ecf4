import Mathlib.Data.List.Nodup
import QueryShape.Proofs.Accounts.Run
import QueryShape.Proofs.MergedScripts
import QueryShape.Proofs.QuotedNames

/-!
The identities of the scripts in a model. Generated scripts have the identities that rules ask for,
and nothing that a run does later gives two scripts one identity or keeps two of them apart. So the
scripts of a model are distinct if the requests are, over all tables and regardless of case.
-/

namespace QueryShape

open QueryShape.Text

/-- No two of the identities are one, up to case. -/
def AreDistinctIdentities (identities : List String) : Prop :=
  identities.Pairwise fun a b => sameIgnoringCase a b = false

instance (identities : List String) : Decidable (AreDistinctIdentities identities) :=
  inferInstanceAs (Decidable (identities.Pairwise _))

theorem areDistinctIdentities_iff_nodup {identities : List String} :
    AreDistinctIdentities identities ↔ (identities.map folded).Nodup := by
  unfold AreDistinctIdentities List.Nodup
  simp only [List.pairwise_map, sameIgnoringCase_eq_false_iff]

namespace Assembly

variable {scripts added : List Script} {keys : List (List Char)}

theorem haveDistinctIdentities_iff :
    HaveDistinctIdentities scripts ↔ AreDistinctIdentities (scripts.map (·.identity)) := by
  unfold HaveDistinctIdentities AreDistinctIdentities
  rw [List.pairwise_map]

theorem haveDistinctIdentities_iff_nodup :
    HaveDistinctIdentities scripts ↔ (scripts.map Script.identityKey).Nodup := by
  rw [haveDistinctIdentities_iff, areDistinctIdentities_iff_nodup, List.map_map]
  rfl

theorem count_withoutFirst (k : List Char) :
    ((withoutFirst keys scripts).map Script.identityKey).count k =
      (scripts.map Script.identityKey).count k - if k ∈ keys then 1 else 0 := by
  induction scripts generalizing keys with
  | nil => simp [withoutFirst]
  | cons s rest ih =>
      by_cases hs : s.identityKey ∈ keys
      · rw [withoutFirst_cons_of_mem hs, ih, List.map_cons, List.count_cons]
        by_cases hk : s.identityKey = k
        · subst hk
          simp [hs]
        · simp [hk, Ne.symm hk]
      · rw [withoutFirst_cons_of_not_mem hs, List.map_cons, List.map_cons, List.count_cons,
          List.count_cons, ih]
        by_cases hk : s.identityKey = k
        · subst hk
          simp [hs]
        · simp [hk]

/-- Scripts of distinct identities can be merged into others without a change to how these are. -/
theorem haveDistinctIdentities_mergeScripts_iff (h : HaveDistinctIdentities added) :
    HaveDistinctIdentities (mergeScripts scripts added).1 ↔ HaveDistinctIdentities scripts := by
  have hperm : (mergeScripts scripts added).1.Perm _ := mergeScripts_perm added
  rw [lastOfEach_eq_self_iff.2 h] at hperm
  rw [haveDistinctIdentities_iff_nodup] at h
  rw [haveDistinctIdentities_iff_nodup, haveDistinctIdentities_iff_nodup,
    (hperm.map Script.identityKey).nodup_iff, List.map_append, List.nodup_iff_count_le_one,
    List.nodup_iff_count_le_one]
  refine forall_congr' fun k => ?_
  rw [List.count_append, count_withoutFirst, h.count]
  split <;> omega

/-- The identities that rules ask for, table by table. -/
def requestedIdentities (rules : RuleSet) (tables : List Table) : List String :=
  tables.flatMap fun t => (rules.tableScripts t.name).map (·.identity t.name)

theorem identity_of_synthesizeScript {table : Table} {types : List TableType}
    {r : TableScriptRule} {s : Script} (h : synthesizeScript table types r = .ok s) :
    s.identity = r.identity table.name := by
  obtain ⟨p, -, h⟩ := bind_eq_ok.1 h
  obtain ⟨statement, -, rfl⟩ := map_eq_ok.1 h
  rfl

theorem map_identity_of_synthesizeScripts {table : Table} {types : List TableType}
    {rs : List TableScriptRule} {ss : List Script}
    (h : synthesizeScripts table types rs = .ok ss) :
    ss.map (·.identity) = rs.map (·.identity table.name) := by
  unfold synthesizeScripts at h
  induction rs generalizing ss with
  | nil =>
      cases h
      rfl
  | cons r rest ih =>
      obtain ⟨s, others, hs, hothers, rfl⟩ := mapM_cons_eq_ok.1 h
      rw [List.map_cons, List.map_cons, identity_of_synthesizeScript hs, ih hothers]

theorem map_identity_of_requestedScripts {rules : RuleSet} {types : List TableType}
    {tables : List Table} {generated : List Script}
    (h : requestedScripts rules types tables = .ok generated) :
    generated.map (·.identity) = requestedIdentities rules tables := by
  obtain ⟨perTable, hperTable, rfl⟩ := map_eq_ok.1 h
  clear h
  unfold requestedIdentities
  induction tables generalizing perTable with
  | nil =>
      cases hperTable
      rfl
  | cons t rest ih =>
      obtain ⟨ss, others, hss, hothers, rfl⟩ := mapM_cons_eq_ok.1 hperTable
      rw [List.flatten_cons, List.map_append, List.flatMap_cons,
        map_identity_of_synthesizeScripts hss, ih others hothers]
      rfl

end Assembly

namespace GlobRules

variable {table : QualifiedName} {request r : TableScriptRule} {requests : List TableScriptRule}

theorem nodup_addScript (h : (requests.map (·.identity table)).Nodup) :
    ((addScript table requests request).map (·.identity table)).Nodup := by
  unfold addScript
  rw [List.map_append, List.map_singleton]
  apply List.Nodup.append
  · exact (List.filter_sublist.map _).nodup h
  · exact List.nodup_singleton _
  · rw [List.disjoint_singleton, List.mem_map]
    rintro ⟨r, hr, heq⟩
    simpa [heq] using (List.mem_filter.1 hr).2

theorem mem_or_eq_of_mem_addScript (h : r ∈ addScript table requests request) :
    r ∈ requests ∨ r = request := by
  rcases List.mem_append.1 h with h | h
  · exact .inl (List.mem_filter.1 h).1
  · exact .inr (List.mem_singleton.1 h)

theorem nodup_tableScripts (g : GlobRules) (table : QualifiedName) :
    ((g.tableScripts table).map (·.identity table)).Nodup := by
  have hfold : ∀ added requests : List TableScriptRule, (requests.map (·.identity table)).Nodup →
      ((added.foldl (addScript table) requests).map (·.identity table)).Nodup := by
    intro added
    induction added with
    | nil => exact fun _ h => h
    | cons request rest ih => exact fun _ h => ih _ (nodup_addScript h)
  exact hfold _ [] List.nodup_nil

theorem exists_of_mem_tableScripts {g : GlobRules} (h : r ∈ g.tableScripts table) :
    ∃ rule ∈ g.rules, r ∈ rule.tableScripts := by
  have hfold : ∀ added requests : List TableScriptRule,
      r ∈ added.foldl (addScript table) requests → r ∈ requests ∨ r ∈ added := by
    intro added
    induction added with
    | nil => exact fun _ h => .inl h
    | cons request rest ih =>
        intro requests h
        rcases ih _ h with h | h
        · refine (mem_or_eq_of_mem_addScript h).imp_right ?_
          rintro rfl
          exact List.mem_cons_self
        · exact .inr (List.mem_cons_of_mem _ h)
  rcases hfold _ [] h with h | h
  · cases h
  · obtain ⟨rule, hrule, hr⟩ := List.mem_flatMap.1 h
    exact ⟨rule, (List.mem_filter.1 hrule).1, hr⟩

end GlobRules

theorem folded_append (a b : String) : folded (a ++ b) = folded a ++ folded b := by
  simp [folded]

theorem eq_of_append_cons_eq {c : Char} {xs xs' ys ys' : List Char} (h : c ∉ xs) (h' : c ∉ xs')
    (heq : xs ++ c :: ys = xs' ++ c :: ys') : xs = xs' ∧ ys = ys' := by
  rcases List.append_eq_append_iff.1 heq with ⟨as, rfl, has⟩ | ⟨as, rfl, has⟩
  all_goals
    cases as with
    | nil =>
        obtain rfl := (List.cons.inj has).2
        simp
    | cons a rest =>
        obtain rfl := (List.cons.inj has).1
        simp at h h'

theorem ScriptKind.eq_of_folded_name {k k' : ScriptKind} (h : folded k.name = folded k'.name) :
    k = k' := by
  have hall : ∀ k ∈ all, ∀ k' ∈ all, folded k.name = folded k'.name → k = k' := by decide
  have hmem : ∀ k : ScriptKind, k ∈ all := by
    intro k
    cases k <;> decide
  exact hall k (hmem k) k' (hmem k') h

namespace QualifiedName

/-- No part holds the mark that stands between the parts of a path. -/
def LacksSlashes (n : QualifiedName) : Prop :=
  '/' ∉ n.schema.toList ∧ '/' ∉ n.name.toList

instance (n : QualifiedName) : Decidable n.LacksSlashes :=
  inferInstanceAs (Decidable (_ ∧ _))

end QualifiedName

namespace TableScriptRule

variable {r r' : TableScriptRule} {table table' : QualifiedName}

theorem folded_identity (h : r.outputPath = none) : folded (r.identity table) =
    folded table.schema ++ '/' :: (folded table.name ++ '/' :: folded r.kind.name) := by
  have hslash : folded "/" = ['/'] := by decide
  rw [identity, h, Option.getD_none, folded_append, folded_append, folded_append, folded_append,
    hslash, List.append_assoc, List.append_assoc, List.append_assoc]
  rfl

/-- The identity that a request without a path has tells its table and kind. -/
theorem eq_of_folded_identity (h : r.outputPath = none) (h' : r'.outputPath = none)
    (htable : table.LacksSlashes) (htable' : table'.LacksSlashes)
    (hsame : folded (r.identity table) = folded (r'.identity table')) :
    table.isSame table' = true ∧ r.kind = r'.kind := by
  have hslash {s : String} (h : '/' ∉ s.toList) : '/' ∉ folded s := by
    rwa [mem_folded_iff (by decide)]
  rw [folded_identity h, folded_identity h'] at hsame
  obtain ⟨hschema, hrest⟩ :=
    eq_of_append_cons_eq (hslash htable.1) (hslash htable'.1) hsame
  obtain ⟨hname, hkind⟩ :=
    eq_of_append_cons_eq (hslash htable.2) (hslash htable'.2) hrest
  exact ⟨QualifiedName.isSame_iff.2 ⟨hschema, hname⟩, ScriptKind.eq_of_folded_name hkind⟩

end TableScriptRule

namespace Assembly

/-- The requests leave their paths out, and the tables can be told by the paths they have then. -/
structure UsesDefaultPaths (g : GlobRules) (tables : List QualifiedName) : Prop where
  paths : ∀ rule ∈ g.rules, ∀ r ∈ rule.tableScripts, r.outputPath = none
  slashes : ∀ n ∈ tables, n.LacksSlashes
  distinct : tables.Pairwise fun a b => a.isSame b = false

theorem UsesDefaultPaths.distinct_requestedIdentities {g : GlobRules} {tables : List Table}
    (h : UsesDefaultPaths g (tables.map (·.name))) :
    AreDistinctIdentities (requestedIdentities g.toRuleSet tables) := by
  have hpath {n : QualifiedName} {r : TableScriptRule} (hr : r ∈ g.tableScripts n) :
      r.outputPath = none := by
    obtain ⟨rule, hrule, hr⟩ := GlobRules.exists_of_mem_tableScripts hr
    exact h.paths rule hrule r hr
  have hslashes : ∀ t ∈ tables, t.name.LacksSlashes := fun t ht =>
    h.slashes t.name (List.mem_map_of_mem ht)
  refine List.pairwise_flatMap.2 ⟨fun t ht => ?_, ?_⟩
  · have hnodup := g.nodup_tableScripts t.name
    rw [List.Nodup, List.pairwise_map] at hnodup
    refine List.pairwise_map.2 (hnodup.imp_of_mem ?_)
    intro r r' hr hr' hne
    rw [sameIgnoringCase_eq_false_iff]
    intro hsame
    obtain ⟨-, hkind⟩ := TableScriptRule.eq_of_folded_identity (hpath hr) (hpath hr')
      (hslashes t ht) (hslashes t ht) hsame
    apply hne
    rw [TableScriptRule.identity, TableScriptRule.identity, hpath hr, hpath hr', hkind]
  · refine (List.pairwise_map.1 h.distinct).imp_of_mem ?_
    intro t u ht hu hdistinct a ha b hb
    obtain ⟨r, hr, rfl⟩ := List.mem_map.1 ha
    obtain ⟨r', hr', rfl⟩ := List.mem_map.1 hb
    rw [sameIgnoringCase_eq_false_iff]
    intro hsame
    obtain ⟨htables, -⟩ := TableScriptRule.eq_of_folded_identity (hpath hr) (hpath hr')
      (hslashes t ht) (hslashes u hu) hsame
    rw [hdistinct] at htables
    cases htables

variable {σ : Type}

theorem Groundwork.IsLaid.distinctIdentities_iff {rules : RuleSet} {userScripts : List Script}
    {g : Groundwork} (h : g.IsLaid rules userScripts)
    (hgiven : HaveDistinctIdentities userScripts) :
    HaveDistinctIdentities g.scripts ↔
      AreDistinctIdentities (requestedIdentities rules g.tables) := by
  cases h with
  | ofRows _ _ _ _ _ _ _ hgenerated =>
      rw [haveDistinctIdentities_mergeScripts_iff hgiven, haveDistinctIdentities_iff,
        map_identity_of_requestedScripts hgenerated]

def scriptIdentity? : UnitKey → Option String
  | .procedure _ => none
  | .script identity => some identity

theorem filterMap_scriptIdentity? (procedures : List Procedure) (scripts : List Script) :
    ((procedures.map ModelUnit.procedure ++ scripts.map ModelUnit.script).map
      ModelUnit.key).filterMap scriptIdentity? = scripts.map (·.identity) := by
  have hnone : ((procedures.map ModelUnit.procedure).map ModelUnit.key).filterMap scriptIdentity? =
      [] := by
    simp [List.filterMap_eq_nil_iff, ModelUnit.key, scriptIdentity?]
  rw [List.map_append, List.filterMap_append, hnone, List.nil_append, List.map_map,
    List.filterMap_map]
  exact congrFun List.filterMap_eq_map scripts

theorem Accounts.perm_identities {g : Groundwork} {m : Model} (h : Accounts g m) :
    ∃ dropped : List String,
      (g.scripts.map (·.identity)).Perm (m.scripts.map (·.identity) ++ dropped) ∧
        ((∀ w ∈ m.warnings, Warning.ignoresUnit w = false) → dropped = []) := by
  obtain ⟨dropped, hperm, hwarnings⟩ := h.units
  refine ⟨dropped.filterMap scriptIdentity?, ?_, ?_⟩
  · have hscripts := hperm.filterMap scriptIdentity?
    rwa [Groundwork.units, filterMap_scriptIdentity?, List.filterMap_append, Model.units,
      filterMap_scriptIdentity?] at hscripts
  · intro hnone
    have hempty : m.warnings.filter Warning.ignoresUnit = [] :=
      List.filter_eq_nil_iff.2 fun w hw => by simp [hnone w hw]
    rw [hempty, List.map_nil, eq_comm, List.map_eq_nil_iff] at hwarnings
    rw [hwarnings]
    rfl

theorem exists_accounts_of_assembleBy {schedule : Schedule} {connection : Nat} {canConnect : Bool}
    {rules : RuleSet} {userScripts : List Script} {options : RunOptions} {w : World σ} {m : Model}
    (h : ((assembleBy schedule connection canConnect rules userScripts options).outcome w).1 =
      .ok m) :
    ∃ g : Groundwork, ((Groundwork.lay connection rules userScripts).outcome w).1 = .ok g ∧
      Accounts g m := by
  obtain ⟨g, v, hlay, hrest⟩ := Session.exists_of_outcome_bind_eq_ok h
  have hg : g.IsLaid rules userScripts := Groundwork.isLaid_of_lay (congrArg Prod.fst hlay)
  refine ⟨g, congrArg Prod.fst hlay, ?_⟩
  exact (yields_inferUnits schedule connection options.parallelism g.units).bind
    (fun outcomes houtcomes => Session.yields_pure (accounts_model hg houtcomes)) v m hrest

/-- Where the scripts that a run is given are distinct, those that it infers are so exactly if the
identities are that rules ask for. Then the scripts of the model are distinct too, and only then
unless a unit is left out. That is so in particular if no request has a path of its own. -/
theorem assembleBy_distinctIdentities_iff {schedule : Schedule} {connection : Nat}
    {canConnect : Bool} {rules : RuleSet} {userScripts : List Script} {options : RunOptions}
    {w : World σ} {m : Model} (hgiven : HaveDistinctIdentities userScripts)
    (h : ((assembleBy schedule connection canConnect rules userScripts options).outcome w).1 =
      .ok m) :
    ∃ g : Groundwork, ((Groundwork.lay connection rules userScripts).outcome w).1 = .ok g ∧
      (HaveDistinctIdentities g.scripts ↔
        AreDistinctIdentities (requestedIdentities rules g.tables)) ∧
      (AreDistinctIdentities (requestedIdentities rules g.tables) →
        HaveDistinctIdentities m.scripts) ∧
      ((∀ warning ∈ m.warnings, Warning.ignoresUnit warning = false) →
        (HaveDistinctIdentities m.scripts ↔
          AreDistinctIdentities (requestedIdentities rules g.tables))) ∧
      ∀ globs : GlobRules, rules = globs.toRuleSet →
        UsesDefaultPaths globs (g.tables.map (·.name)) → HaveDistinctIdentities m.scripts := by
  obtain ⟨g, hlay, haccounts⟩ := exists_accounts_of_assembleBy h
  have hinferred := (Groundwork.isLaid_of_lay hlay).distinctIdentities_iff hgiven
  obtain ⟨dropped, hperm, hkept⟩ := haccounts.perm_identities
  have hfolded := hperm.map folded
  rw [List.map_append] at hfolded
  have hmodel (hdistinct : AreDistinctIdentities (requestedIdentities rules g.tables)) :
      HaveDistinctIdentities m.scripts := by
    have hnodup := hinferred.2 hdistinct
    rw [haveDistinctIdentities_iff, areDistinctIdentities_iff_nodup, hfolded.nodup_iff] at hnodup
    rw [haveDistinctIdentities_iff, areDistinctIdentities_iff_nodup]
    exact hnodup.of_append_left
  refine ⟨g, hlay, hinferred, hmodel, ?_, ?_⟩
  · intro hnone
    rw [hkept hnone, List.map_nil, List.append_nil] at hfolded
    rw [← hinferred, haveDistinctIdentities_iff, areDistinctIdentities_iff_nodup,
      haveDistinctIdentities_iff, areDistinctIdentities_iff_nodup, hfolded.nodup_iff]
  · rintro globs rfl hpaths
    exact hmodel hpaths.distinct_requestedIdentities

/-- A server with one table, which has one column. -/
def ordersServer : Server Nat where
  connect _ asked := (.ok (), asked)
  execute _ _ asked := (.ok (), asked)
  query _ _ _ asked :=
    (.ok (match asked with
      | 0 => [⟨[("system_type_id", .int 56), ("name", .text "int")]⟩]
      | 2 => [⟨[("schema_name", .text "dbo"), ("object_name", .text "Orders"),
          ("column_id", .int 1), ("column_name", .text "Id"), ("system_type_id", .int 56)]⟩]
      | _ => []), asked + 1)
  describe _ _ asked := (.ok [], asked)

/-- Rules that ask for scripts for every table. -/
def ordersRules (requests : List TableScriptRule) : GlobRules :=
  ⟨[{ selector := { scope := .tables, pattern := ⟨"*", [.anyRun]⟩ }, tableScripts := requests }]⟩

/-- Two requests of different kinds, without paths. -/
def defaultRequests : List TableScriptRule :=
  [{ kind := .getAll }, { kind := .insert }]

/-- Two requests of one kind whose paths differ by case. -/
def sharedPathRequests : List TableScriptRule :=
  [{ kind := .getAll, outputPath := some "reports/all" },
    { kind := .getAll, outputPath := some "reports/All" }]

def findScript : Script :=
  { identity := "find", text := "SELECT 1" }

def ordersWorld : World Nat :=
  { server := ordersServer, state := 0 }

def ordersRun (requests : List TableScriptRule) : Except Failure Model :=
  ((assembleBy .inTurn 0 false (ordersRules requests).toRuleSet [findScript]
    { token := .ofText "tok" }).outcome ordersWorld).1

/-- The requests leave their paths out. -/
theorem ordersRun_distinctIdentities : HaveDistinctIdentities [findScript] ∧
    ∃ m : Model, ordersRun defaultRequests = .ok m ∧ HaveDistinctIdentities m.scripts := by
  have hgiven : HaveDistinctIdentities [findScript] := by decide
  refine ⟨hgiven, ?_⟩
  have hends : (ordersRun defaultRequests).toOption.isSome = true := by decide +kernel
  obtain ⟨m, hm⟩ := Option.isSome_iff_exists.1 hends
  have hrun := toOption_eq_some_iff.1 hm
  refine ⟨m, hrun, ?_⟩
  obtain ⟨g, hlay, -, -, -, hdefault⟩ := assembleBy_distinctIdentities_iff hgiven hrun
  have hnames : ((Groundwork.lay 0 (ordersRules defaultRequests).toRuleSet
      [findScript]).outcome ordersWorld).1.toOption.map (fun g => g.tables.map (·.name)) =
        some [⟨"dbo", "Orders"⟩] := by
    decide +kernel
  rw [hlay] at hnames
  refine hdefault _ rfl ?_
  rw [show g.tables.map (·.name) = _ from Option.some.inj hnames]
  exact ⟨by decide, by decide, List.pairwise_singleton _ _⟩

/-- Of one table two scripts are asked for whose paths differ by case only, and both are in the
model. -/
theorem ordersRun_repeats_identity : HaveDistinctIdentities [findScript] ∧
    ∃ m : Model, ordersRun sharedPathRequests = .ok m ∧
      (m.scripts.map (·.identity)).Perm ["reports/all", "reports/All", "find"] ∧
      ¬ HaveDistinctIdentities m.scripts := by
  refine ⟨by decide, ?_⟩
  have hends : (ordersRun sharedPathRequests).toOption.map (·.warnings) = some [] := by
    decide +kernel
  obtain ⟨m, hm, hwarnings⟩ := Option.map_eq_some_iff.1 hends
  have hrun := toOption_eq_some_iff.1 hm
  obtain ⟨g, hlay, haccounts⟩ := exists_accounts_of_assembleBy hrun
  have hscripts : ((Groundwork.lay 0 (ordersRules sharedPathRequests).toRuleSet
      [findScript]).outcome ordersWorld).1.toOption.map (fun g => g.scripts.map (·.identity)) =
        some ["reports/all", "reports/All", "find"] := by
    decide +kernel
  rw [hlay] at hscripts
  -- The model is sorted, so its scripts are compared with those that are inferred.
  obtain ⟨dropped, hperm, hkept⟩ := haccounts.perm_identities
  rw [hkept (hwarnings ▸ List.forall_mem_nil _), List.append_nil,
    show g.scripts.map (·.identity) = _ from Option.some.inj hscripts] at hperm
  refine ⟨m, hrun, hperm.symm, ?_⟩
  rw [haveDistinctIdentities_iff, areDistinctIdentities_iff_nodup,
    ← (hperm.map folded).nodup_iff]
  decide

end Assembly

end QueryShape
