import QueryShape.Proofs.KeptServer
import QueryShape.Proofs.NamesApart.Unit

namespace QueryShape

open QueryShape.Inference
open QueryShape.Text
open QueryShape.VariableScan

variable {σ α β : Type}

namespace Session

theorem exists_of_require_eq_error {activity : Activity} {request : Dialogue σ (Answer α)}
    {w : World σ} {e : Failure} (h : ((require activity request).outcome w).1 = .error e) :
    ∃ cause, e = .fault (.database activity cause) := by
  have hlift : (liftM request : Session σ (Answer α)).outcome w =
      (.ok (request.outcome w).1, (request.outcome w).2) := rfl
  unfold require at h
  rw [outcome_bind, hlift] at h
  dsimp only at h
  cases hanswer : (request.outcome w).1 with
  | ok a =>
      rw [hanswer] at h
      cases h
  | error cause =>
      rw [hanswer] at h
      exact ⟨cause, (Except.error.inj h).symm⟩

end Session

theorem exists_error_of_forall₂ {ε : Type} {R : α × Nat → Except ε β → Prop}
    {items : List (α × Nat)} {results : List (Except ε β)}
    (hsorted : items.Pairwise fun a b => a.2 < b.2) (h : List.Forall₂ R items results)
    {job : α × Nat} (hjob : job ∈ items) {failure : ε}
    (hfails : ∀ r, R job r → r = .error failure) :
    ∃ e, results.mapM id = .error e ∧
      (e = failure ∨ ∃ earlier ∈ items, earlier.2 < job.2 ∧ R earlier (.error e)) := by
  induction h with
  | nil => cases hjob
  | @cons item r items results hfirst _ ih =>
      obtain ⟨hbefore, hsorted⟩ := List.pairwise_cons.1 hsorted
      rw [List.mapM_cons]
      rcases List.mem_cons.1 hjob with rfl | hjob
      · rw [hfails r hfirst]
        exact ⟨failure, rfl, .inl rfl⟩
      · cases r with
        | error e => exact ⟨e, rfl, .inr ⟨item, List.mem_cons_self, hbefore job hjob, hfirst⟩⟩
        | ok b =>
            obtain ⟨e, he, hcause⟩ := ih hsorted hjob
            refine ⟨e, ?_, hcause.imp_right ?_⟩
            · rw [he]
              rfl
            · rintro ⟨earlier, hearlier, hcause⟩
              exact ⟨earlier, List.mem_cons_of_mem _ hearlier, hcause⟩

namespace Assembly

variable {ctx : InferenceContext} {rules : RuleSet} {w : World σ}

/-- A result of the inference of a unit, on some connection and at some time with the server. -/
def InfersTo (s : Server σ) (ctx : InferenceContext) (rules : RuleSet) (job : ModelUnit × Nat)
    (r : Except Failure UnitOutcome) : Prop :=
  ∃ (connection : Nat) (v : World σ), v.server = s ∧
    ((job.1.infer connection ctx rules job.2).outcome v).1 = r

theorem exists_of_openWorkers_eq_error {count : Nat} {e : Failure}
    (h : ((openWorkers count : Session σ (List Nat)).outcome w).1 = .error e) :
    ∃ cause, e = .fault (.database .openingWorker cause) := by
  have hkeeps : (Session.require .openingWorker Dialogue.connect : Session σ Nat).KeepsServer :=
    Session.keepsServer_require Dialogue.keepsServer_connect
  obtain ⟨⟨results, hresults, hopened⟩, -⟩ :=
    Session.returns_mapM (fun i (_ : i ∈ List.range count) => hkeeps.returns w.server) w rfl
  obtain ⟨r, hr, hfailed⟩ := exists_of_mapM_eq_error (hresults.symm.trans h)
  obtain ⟨i, -, v, -, hv⟩ := exists_of_mem_forall₂_right hopened r hr
  exact Session.exists_of_require_eq_error (hv.trans hfailed)

theorem exists_results_inferUnits (schedule : Schedule) (connection parallelism : Nat)
    (units : List ModelUnit) (w : World σ) :
    (∃ cause, ((inferUnits schedule connection ctx rules parallelism units).outcome w).1 =
        .error (.fault (.database .openingWorker cause))) ∨
      ∃ results, ((inferUnits schedule connection ctx rules parallelism units).outcome w).1 =
          results.mapM id ∧
        List.Forall₂ (InfersTo w.server ctx rules) units.zipIdx results := by
  unfold inferUnits
  split
  · unfold inferOnWorkers
    rw [Session.outcome_bind]
    have hkept : ((openWorkers parallelism).outcome w).2.server = w.server :=
      keepsServer_openWorkers parallelism w
    rcases hopened : (openWorkers parallelism).outcome w with ⟨_ | workers, v⟩
    · obtain ⟨cause, rfl⟩ := exists_of_openWorkers_eq_error (congrArg Prod.fst hopened)
      exact .inl ⟨cause, rfl⟩
    · rw [hopened] at hkept
      refine .inr ⟨((inferEach schedule workers ctx rules units).outcome v).1, rfl, ?_⟩
      have hjob (job : ModelUnit × Nat) := Dialogue.KeepsServer.bind (σ := σ)
        (job.1.keepsServer_infer (schedule.connectionOf workers job.2) ctx rules job.2)
        fun result => Dialogue.keepsServer_pure (job.2, result)
      obtain ⟨hjobs, -⟩ := Dialogue.sequenced_returns.mapM
        (fun job (_ : job ∈ schedule.order units.zipIdx) => (hjob job).returns v.server) v rfl
      refine forall₂_byOrdinal (schedule.order_perm _) (hjobs.imp fun job found hfound => ?_)
      obtain ⟨v', hv', rfl⟩ := hfound
      exact ⟨rfl, _, v', hv'.trans hkept, rfl⟩
  · obtain ⟨⟨results, hresults, hunits⟩, -⟩ := Session.returns_mapM
      (fun job (_ : job ∈ units.zipIdx) =>
        (job.1.keepsServer_infer connection ctx rules job.2).returns w.server) w rfl
    refine .inr ⟨results, hresults, hunits.imp fun job r hr => ?_⟩
    obtain ⟨v, hv, hr⟩ := hr
    exact ⟨connection, v, hv, hr⟩

theorem areDistinctNames_of_ownTables {userScripts : List Script} {u : ModelUnit}
    (hown : ∀ s ∈ userScripts, AreDistinctNames (s.tempTables.map (·.name)))
    (h : OwnTables userScripts u) : AreDistinctNames (u.tempTables.map (·.name)) := by
  rcases h with hnone | ⟨columns, hstaged⟩ | ⟨s, hs, rfl⟩
  · rw [hnone]
    exact .nil
  · rw [hstaged]
    exact List.pairwise_singleton _ _
  · exact hown s hs

theorem Groundwork.hasPlainBatch_of_mem {g : Groundwork}
    (hscripts : ∀ s ∈ g.scripts, s.HasWholeVariables ∧ s.AvoidsPlaceholders ctx.token ∧
      s.PinsVariableFree ctx.types (rules.ruleFor (.script s.identity))) :
    ∀ u ∈ g.units, u.HasPlainBatch ctx (rules.ruleFor u.key) := by
  intro u hu
  rcases List.mem_append.1 hu with hu | hu
  · obtain ⟨p, -, rfl⟩ := List.mem_map.1 hu
    exact trivial
  · obtain ⟨s, hs, rfl⟩ := List.mem_map.1 hu
    exact hscripts s hs

section Run

variable {schedule : Schedule} {connection : Nat} {canConnect : Bool} {userScripts : List Script}
  {options : RunOptions} {g : Groundwork}

theorem outcome_assembleBy_of_lay
    (hlay : ((Groundwork.lay connection rules userScripts).outcome w).1 = .ok g) :
    ((assembleBy schedule connection canConnect rules userScripts options).outcome w).1 =
      (((inferUnits schedule connection ⟨g.types, options.token, canConnect⟩ rules
        options.parallelism g.units).outcome
          ((Groundwork.lay connection rules userScripts).outcome w).2).1).map (g.model rules) := by
  unfold assembleBy
  rw [Session.outcome_bind]
  rcases hg : (Groundwork.lay connection rules userScripts).outcome w with ⟨r, v⟩
  rw [hg] at hlay
  obtain rfl : r = .ok g := hlay
  dsimp only
  rw [Session.outcome_bind]
  rcases (inferUnits schedule connection _ rules options.parallelism g.units).outcome v with
    ⟨_ | outcomes, _⟩ <;> rfl

/-- A run opens no worker in vain, or it ends like results of the inference of all units. -/
theorem exists_results_assembleBy
    (hlay : ((Groundwork.lay connection rules userScripts).outcome w).1 = .ok g) :
    (∃ cause, ((assembleBy schedule connection canConnect rules userScripts options).outcome w).1 =
        .error (.fault (.database .openingWorker cause))) ∨
      ∃ results, ((assembleBy schedule connection canConnect rules userScripts options).outcome
          w).1 = (results.mapM id).map (g.model rules) ∧
        List.Forall₂ (InfersTo w.server ⟨g.types, options.token, canConnect⟩ rules)
          g.units.zipIdx results := by
  rw [outcome_assembleBy_of_lay hlay]
  have hkept : ((Groundwork.lay connection rules userScripts).outcome w).2.server = w.server :=
    Groundwork.keepsServer_lay connection rules userScripts w
  rcases exists_results_inferUnits schedule connection options.parallelism g.units
      ((Groundwork.lay connection rules userScripts).outcome w).2 with
    ⟨cause, hrefused⟩ | ⟨results, hresults, hinferred⟩
  · exact .inl ⟨cause, congrArg _ hrefused⟩
  · rw [hkept] at hinferred
    exact .inr ⟨results, congrArg _ hresults, hinferred⟩

theorem hasNamesApart_of_assembleBy (hserver : w.server.DescribesUndeclared)
    (hplain : options.token.IsPlain)
    (hlay : ((Groundwork.lay connection rules userScripts).outcome w).1 = .ok g)
    (hdistinct : ∀ u ∈ g.units, AreDistinctNames (u.tempTables.map (·.name)))
    (hbatch : ∀ u ∈ g.units, u.HasPlainBatch ⟨g.types, options.token, canConnect⟩
      (rules.ruleFor u.key)) {m : Model}
    (hm : ((assembleBy schedule connection canConnect rules userScripts options).outcome w).1 =
      .ok m) : ∀ u ∈ m.units, u.HasNamesApart := by
  intro u hu
  rcases exists_results_assembleBy hlay with ⟨cause, hrefused⟩ | ⟨results, hresults, hinferred⟩
  · cases hrefused.symm.trans hm
  · obtain ⟨outcomes, houtcomes, rfl⟩ := map_eq_ok.1 (hresults.symm.trans hm)
    have hfound := forall₂_of_mapM_id (S := fun job o => InfersTo w.server _ rules job (.ok o))
      (fun _ _ h => h) hinferred houtcomes
    obtain ⟨o, ho, hunit⟩ := List.mem_filterMap.1 ((units_modelOf_perm _ _ _).subset hu)
    obtain ⟨job, hjob, c, v, hv, hinfer⟩ := exists_of_mem_forall₂_right hfound o ho
    have hmem : job.1 ∈ g.units := List.fst_mem_of_mem_zipIdx hjob
    exact ModelUnit.hasNamesApart_of_infer (hv ▸ hserver) hplain (hdistinct _ hmem)
      (hbatch _ hmem) hinfer u hunit

/-- Where a unit fails however it is inferred, the run ends in its failure, in that of an earlier
unit or in that of a worker. -/
theorem exists_error_of_assembleBy
    (hlay : ((Groundwork.lay connection rules userScripts).outcome w).1 = .ok g)
    {job : ModelUnit × Nat} (hjob : job ∈ g.units.zipIdx) {f : Fault}
    (hfails : ∀ (c : Nat) (v : World σ),
      ((job.1.infer c ⟨g.types, options.token, canConnect⟩ rules job.2).outcome v).1 =
        .error (.fault f)) :
    ∃ e, ((assembleBy schedule connection canConnect rules userScripts options).outcome w).1 =
        .error e ∧
      (e = .fault f ∨ (∃ cause, e = .fault (.database .openingWorker cause)) ∨
        ∃ earlier ∈ g.units.zipIdx, earlier.2 < job.2 ∧
          InfersTo w.server ⟨g.types, options.token, canConnect⟩ rules earlier (.error e)) := by
  rcases exists_results_assembleBy hlay with ⟨cause, hrefused⟩ | ⟨results, hresults, hinferred⟩
  · exact ⟨_, hrefused, .inr (.inl ⟨cause, rfl⟩)⟩
  · have hends : ∀ r, InfersTo w.server ⟨g.types, options.token, canConnect⟩ rules job r →
        r = .error (.fault f) := by
      rintro _ ⟨c, v, -, rfl⟩
      exact hfails c v
    obtain ⟨e, he, hcause⟩ :=
      exists_error_of_forall₂ (pairwise_zipIdx g.units) hinferred hjob hends
    exact ⟨e, hresults.trans (congrArg _ he), hcause.imp_right .inr⟩

/-- A unit whose rule and text are at odds with names that are apart ends the run, unless another
unit does before or a worker is refused, and nothing is asked about the unit. -/
theorem assembleBy_refuses_clash
    (hown : ∀ s ∈ userScripts, AreDistinctNames (s.tempTables.map (·.name)))
    (hlay : ((Groundwork.lay connection rules userScripts).outcome w).1 = .ok g)
    {job : ModelUnit × Nat} (hjob : job ∈ g.units.zipIdx)
    (hclash : ¬ job.1.IsNamedApart (rules.ruleFor job.1.key)) :
    let ctx : InferenceContext := ⟨g.types, options.token, canConnect⟩
    ∃ f, job.1.IsNameFault (rules.ruleFor job.1.key) f ∧
      (∀ (c : Nat) (v : World σ),
        (job.1.infer c ctx rules job.2).outcome v = (.error (.fault f), v)) ∧
      ∃ e, ((assembleBy schedule connection canConnect rules userScripts options).outcome w).1 =
          .error e ∧
        (e = .fault f ∨ (∃ cause, e = .fault (.database .openingWorker cause)) ∨
          ∃ earlier ∈ g.units.zipIdx, earlier.2 < job.2 ∧
            InfersTo w.server ctx rules earlier (.error e)) := by
  intro ctx
  have hmem : job.1 ∈ g.units := List.fst_mem_of_mem_zipIdx hjob
  have hdistinct := areDistinctNames_of_ownTables hown (Groundwork.ownTables_of_lay hlay _ hmem)
  obtain ⟨f, hf, hinfer⟩ := ModelUnit.infer_of_not_isNamedApart hdistinct hclash
  refine ⟨f, hf, fun c v => hinfer c ctx job.2 v, exists_error_of_assembleBy hlay hjob ?_⟩
  exact fun c v => congrArg Prod.fst (hinfer c ctx job.2 v)

/-- If the server describes nothing but undeclared variables and variables can be told apart in the
texts that it describes, then the temp tables of each unit of a model differ in their names from
each other and from the parameters of the unit. Whatever the server describes, a unit that is at
odds with that ends the run. -/
theorem assembleBy_namesApart
    (hown : ∀ s ∈ userScripts, AreDistinctNames (s.tempTables.map (·.name)))
    (hlay : ((Groundwork.lay connection rules userScripts).outcome w).1 = .ok g) :
    let ctx : InferenceContext := ⟨g.types, options.token, canConnect⟩
    let result :=
      ((assembleBy schedule connection canConnect rules userScripts options).outcome w).1
    (w.server.DescribesUndeclared → options.token.IsPlain →
      (∀ s ∈ g.scripts, s.HasWholeVariables ∧ s.AvoidsPlaceholders options.token ∧
        s.PinsVariableFree g.types (rules.ruleFor (.script s.identity))) →
      ∀ m, result = .ok m → ∀ u ∈ m.units,
        AreDistinctNames (u.tempTables.map (·.name)) ∧
          ∀ t ∈ u.tempTables, ∀ p ∈ u.parameters, t.key ≠ p.key) ∧
    ∀ job ∈ g.units.zipIdx, ¬ job.1.IsNamedApart (rules.ruleFor job.1.key) →
      ∃ f, job.1.IsNameFault (rules.ruleFor job.1.key) f ∧
        (∀ (c : Nat) (v : World σ),
          (job.1.infer c ctx rules job.2).outcome v = (.error (.fault f), v)) ∧
        ∃ e, result = .error e ∧
          (e = .fault f ∨ (∃ cause, e = .fault (.database .openingWorker cause)) ∨
            ∃ earlier ∈ g.units.zipIdx, earlier.2 < job.2 ∧
              InfersTo w.server ctx rules earlier (.error e)) := by
  intro ctx result
  constructor
  · intro hserver hplain hscripts m hm u hu
    have hdistinct : ∀ u ∈ g.units, AreDistinctNames (u.tempTables.map (·.name)) := fun u hu =>
      areDistinctNames_of_ownTables hown (Groundwork.ownTables_of_lay hlay u hu)
    have hbatch : ∀ v ∈ g.units, v.HasPlainBatch ctx (rules.ruleFor v.key) :=
      Groundwork.hasPlainBatch_of_mem hscripts
    have hapart := hasNamesApart_of_assembleBy hserver hplain hlay hdistinct hbatch hm u hu
    exact ⟨hapart.tables, hapart.parameters⟩
  · exact fun job hjob hclash => assembleBy_refuses_clash hown hlay hjob hclash

end Run

/-- A server that describes a variable of one batch as a number. -/
def describingServer (batch name : String) : Server Nat where
  connect _ asked := (.ok (), asked)
  execute _ _ asked := (.ok (), asked)
  query _ sql parameters asked :=
    (.ok (if sql = describeParameters then
        if parameters = [batch] then
          [⟨[("name", .text name), ("suggested_system_type_id", .int 56)]⟩]
        else []
      else if asked = 0 then [⟨[("system_type_id", .int 56), ("name", .text "int")]⟩]
      else []), asked + 1)
  describe _ _ asked := (.ok [], asked)

theorem describesUndeclared_describingServer {batch name : String} {found : ScriptVariables}
    (hscan : scanVariables batch = some found) (hname : name ∈ found.undeclared.map (·.name)) :
    (describingServer batch name).DescribesUndeclared := by
  intro connection asked state rows h r hr
  obtain rfl := Except.ok.inj h
  rw [if_pos rfl] at hr
  split at hr
  · rename_i heq
    obtain rfl := (List.cons.inj heq).1
    obtain rfl := List.mem_singleton.1 hr
    exact ⟨found, hscan, hname⟩
  · cases hr

/-- A script whose rule has a temp table and an integer parameter, the batch that is described for
it, and the variable that the server names. -/
structure LoneScript where
  text : String
  definition : String
  parameter : String
  batch : String
  described : String

namespace LoneScript

def script (l : LoneScript) : Script :=
  { identity := "find", text := l.text }

/-- The rule for every unit. -/
def ruleSet (l : LoneScript) : RuleSet :=
  { (GlobRules.mk []).toRuleSet with
    ruleFor := fun _ => ({ tempTables := [l.definition] } : EffectiveRule).withParameter
      l.parameter { sqlType := some "int" } }

def world (l : LoneScript) : World Nat :=
  { server := describingServer l.batch l.described, state := 0 }

def options : RunOptions :=
  { token := .ofText "tok" }

def groundwork (l : LoneScript) : Except Failure Groundwork :=
  ((Groundwork.lay 0 l.ruleSet [l.script]).outcome l.world).1

def run (l : LoneScript) : Except Failure Model :=
  ((assembleBy .inTurn 0 false l.ruleSet [l.script] options).outcome l.world).1

/-- The names of the temp tables and parameters of each unit of the model. -/
def names (l : LoneScript) : Option (List (List String × List String)) :=
  l.run.toOption.map fun m => m.units.map fun u =>
    (u.tempTables.map (·.name), u.parameters.map (·.name))

/-- The variables of each script that is inferred, and the types that they are given. -/
def pins (l : LoneScript) : Option (List (List String × List String)) :=
  l.groundwork.toOption.map fun g => g.scripts.map fun s =>
    (s.mentioned, s.mentioned.flatMap fun name =>
      ((pinnedType? g.types s (l.ruleSet.ruleFor (.script s.identity)) name).map (·.text)).toList)

theorem exists_of_pins {l : LoneScript} {mentioned texts : List String}
    (h : l.pins = some [(mentioned, texts)]) (htexts : ∀ text ∈ texts, IsVariableFree text) :
    ∃ g, l.groundwork = .ok g ∧ ∀ s ∈ g.scripts, s.mentioned = mentioned ∧
      s.PinsVariableFree g.types (l.ruleSet.ruleFor (.script s.identity)) := by
  obtain ⟨g, hg, hpins⟩ := Option.map_eq_some_iff.1 h
  refine ⟨g, toOption_eq_some_iff.1 hg, fun s hs => ?_⟩
  have hpair := List.eq_of_mem_singleton (hpins ▸ List.mem_map_of_mem hs)
  obtain ⟨hmentioned, hpinned⟩ := Prod.mk.inj hpair
  refine ⟨hmentioned, fun name hname p hp => htexts _ ?_⟩
  rw [← hpinned]
  exact List.mem_flatMap.2 ⟨name, hname, Option.mem_toList.2 (Option.mem_map_of_mem _ hp)⟩

theorem describesUndeclared_world {l : LoneScript} {undeclared : List String}
    (h : (scanVariables l.batch).map (fun v => v.undeclared.map (·.name)) = some undeclared)
    (hdescribed : l.described ∈ undeclared) : l.world.server.DescribesUndeclared := by
  obtain ⟨found, hfound, rfl⟩ := Option.map_eq_some_iff.1 h
  exact describesUndeclared_describingServer hfound hdescribed

end LoneScript

theorem isVariableFree_int : IsVariableFree "int" :=
  ⟨[.word ⟨"int", none⟩], by decide +kernel, by decide⟩

/-- A variable and a temp table of different names. -/
def idLookup : LoneScript where
  text := "SELECT @id FROM #ids"
  definition := "CREATE TABLE #ids (Id int)"
  parameter := "@id"
  batch := "DECLARE @id int = @tok_id;\nSELECT @id FROM ##tok_0_ids"
  described := "@tok_id"

theorem idLookup_namesApart : idLookup.names = some [(["#ids"], ["@id"])] ∧
    ∃ m, idLookup.run = .ok m ∧ ∀ u ∈ m.units, AreDistinctNames (u.tempTables.map (·.name)) ∧
      ∀ t ∈ u.tempTables, ∀ p ∈ u.parameters, t.key ≠ p.key := by
  have hnames : idLookup.names = some [(["#ids"], ["@id"])] := by decide +kernel
  obtain ⟨m, hm, -⟩ := Option.map_eq_some_iff.1 hnames
  have hrun : idLookup.run = .ok m := toOption_eq_some_iff.1 hm
  have hundeclared : (scanVariables idLookup.batch).map
      (fun v => v.undeclared.map (·.name)) = some ["@tok_id"] := by decide +kernel
  have hserver := LoneScript.describesUndeclared_world hundeclared (by decide)
  have hpins : idLookup.pins = some [(["@id"], ["int"])] := by decide +kernel
  obtain ⟨g, hlay, hscripts⟩ :=
    LoneScript.exists_of_pins hpins (List.forall_mem_singleton.2 isVariableFree_int)
  have hown : AreDistinctNames (idLookup.script.tempTables.map (·.name)) := .nil
  have hwhole : ∀ s ∈ g.scripts, s.HasWholeVariables := by
    intro s hs
    rw [Script.HasWholeVariables, (hscripts s hs).1, List.forall_mem_singleton]
    exact ⟨⟨'i', ['d'], rfl, by decide, List.all_eq_true.1 (by decide)⟩,
      List.all_eq_true.1 (by decide)⟩
  have havoids : ∀ s ∈ g.scripts, s.AvoidsPlaceholders LoneScript.options.token := by
    intro s hs
    rw [Script.AvoidsPlaceholders, (hscripts s hs).1]
    decide
  have hplain : LoneScript.options.token.IsPlain := RunToken.isPlain_ofText "tok"
  obtain ⟨hapart, -⟩ := assembleBy_namesApart (List.forall_mem_singleton.2 hown) hlay
  refine ⟨hnames, m, hrun, hapart hserver hplain (fun s hs => ?_) m hrun⟩
  exact ⟨hwhole s hs, havoids s hs, (hscripts s hs).2⟩

/-- The label of a column reads as a variable. -/
def labelLookup : LoneScript where
  text := "SELECT Id AS [@x ] FROM #x"
  definition := "CREATE TABLE #x (Id int)"
  parameter := "@x "
  batch := "DECLARE @x  int = @tok_x ;\nSELECT Id AS [@x ] FROM ##tok_0_x"
  described := "@tok_x"

/-- Declared without its brackets, the label is a variable with the name of the temp table. -/
theorem labelLookup_shares_name :
    labelLookup.world.server.DescribesUndeclared ∧
    (∃ g, labelLookup.groundwork = .ok g ∧ ∀ s ∈ g.scripts,
      s.AvoidsPlaceholders LoneScript.options.token ∧
      s.PinsVariableFree g.types (labelLookup.ruleSet.ruleFor (.script s.identity))) ∧
    ∃ m, labelLookup.run = .ok m ∧
      ∃ u ∈ m.units, ∃ t ∈ u.tempTables, ∃ p ∈ u.parameters, t.key = p.key := by
  have hundeclared : (scanVariables labelLookup.batch).map
      (fun v => v.undeclared.map (·.name)) = some ["@tok_x", "@x "] := by decide +kernel
  have hserver := LoneScript.describesUndeclared_world hundeclared (by decide)
  have hpins : labelLookup.pins = some [(["@x "], ["int"])] := by decide +kernel
  obtain ⟨g, hlay, hscripts⟩ :=
    LoneScript.exists_of_pins hpins (List.forall_mem_singleton.2 isVariableFree_int)
  have hshared : labelLookup.run.toOption.map (fun m => m.units.any fun u =>
      u.tempTables.any fun t => u.parameters.any fun p => t.key == p.key) = some true := by
    decide +kernel
  obtain ⟨m, hm, hany⟩ := Option.map_eq_some_iff.1 hshared
  refine ⟨hserver, ⟨g, hlay, fun s hs => ⟨?_, (hscripts s hs).2⟩⟩, m,
    toOption_eq_some_iff.1 hm, by simpa using hany⟩
  rw [Script.AvoidsPlaceholders, (hscripts s hs).1]
  decide

end Assembly

end QueryShape
