import QueryShape.Assembly.Assemble
import QueryShape.Proofs.Steady.Unit

namespace QueryShape

open QueryShape.Dialogue

variable {σ α : Type} {s : Server σ}

namespace Assembly

theorem byOrdinal_of_perm {found sorted : List (Nat × α)} (h : found.Perm sorted)
    (hsorted : sorted.Pairwise fun a b => a.1 < b.1) : byOrdinal found = sorted.map (·.2) := by
  unfold byOrdinal
  rw [mergeSort_eq_of_perm h hsorted]

theorem pairwise_zipIdx (items : List α) : items.zipIdx.Pairwise fun a b => a.2 < b.2 := by
  rw [← List.pairwise_map (f := Prod.snd) (R := (· < ·)), List.zipIdx_map_snd]
  exact List.pairwise_lt_range'

theorem byOrdinal_map_of_perm {items : List α} {order : List (α × Nat)} {β : Type}
    (h : order.Perm items.zipIdx) (f : α × Nat → β) :
    byOrdinal (order.map fun item => (item.2, f item)) = items.zipIdx.map f := by
  rw [byOrdinal_of_perm (h.map _) (List.pairwise_map.2 (pairwise_zipIdx items)), List.map_map]
  rfl

section

variable (hs : s.Steady)
include hs

theorem returns_openWorkers (count : Nat) :
    (openWorkers count : Session σ (List Nat)).Returns s fun r => ∃ workers, r = .ok workers := by
  have hrequire : (Session.require .openingWorker connect : Session σ Nat).Returns s
      fun r => ∃ n, r = .ok n := by
    refine Session.returns_lift_bind (returns_connect hs) ?_
    rintro _ ⟨n, rfl⟩
    exact Session.returns_pure ⟨n, rfl⟩
  intro w hw
  obtain ⟨⟨results, hresults, hopened⟩, hserver⟩ :=
    Session.returns_mapM (fun i (_ : i ∈ List.range count) => hrequire) w hw
  cases hworkers : results.mapM id with
  | ok workers => exact ⟨⟨workers, hresults.trans hworkers⟩, hserver⟩
  | error e =>
      obtain ⟨_, hr, hfailed⟩ := exists_of_mapM_eq_error hworkers
      obtain ⟨-, -, n, rfl⟩ := exists_of_mem_forall₂_right hopened _ hr
      cases hfailed

variable (state : σ)
include state

/-- However units are shared out, the inference ends as that of the units one after the other. -/
theorem exists_returns_inferUnits (ctx : InferenceContext) (rules : RuleSet)
    (units : List ModelUnit) :
    ∃ r, ∀ (schedule : Schedule) (connection parallelism : Nat),
      (inferUnits schedule connection ctx rules parallelism units :
        Session σ (List UnitOutcome)).Returns s (· = r) := by
  obtain ⟨found, hfound⟩ := Classical.skolem.1 fun job : ModelUnit × Nat =>
    ModelUnit.definite_infer hs state ctx rules job.2 job.1
  refine ⟨units.zipIdx.mapM found, fun schedule connection parallelism => ?_⟩
  unfold inferUnits
  split
  · refine (returns_openWorkers hs parallelism).bind ?_ fun _ ⟨_, h⟩ => nomatch h
    intro workers _
    have heach : (inferEach schedule workers ctx rules units :
        Dialogue σ (List (Except Failure UnitOutcome))).Returns s
          (· = units.zipIdx.map found) := by
      have hjob (job : ModelUnit × Nat) : (do
            let result ←
              (job.1.infer (schedule.connectionOf workers job.2) ctx rules job.2).run
            return (job.2, result) : Dialogue σ (Nat × Except Failure UnitOutcome)).Returns s
              (· = (job.2, found job)) := by
        refine Dialogue.Returns.bind (hfound job _) ?_
        rintro _ rfl
        exact returns_pure rfl
      have hjobs := returns_mapM_eq fun job (_ : job ∈ schedule.order units.zipIdx) => hjob job
      refine hjobs.bind ?_
      rintro _ rfl
      exact returns_pure (byOrdinal_map_of_perm (schedule.order_perm _) found)
    refine Session.returns_lift_bind heach ?_
    rintro _ rfl
    refine Dialogue.returns_pure ?_
    rw [List.mapM_map]
    rfl
  · exact Session.returns_mapM_eq fun job _ => hfound job connection

end

theorem Groundwork.definite_lay (hs : s.Steady) (state : σ) (rules : RuleSet)
    (userScripts : List Script) : Session.Definite s fun c => lay c rules userScripts := by
  have hrows (activity : Activity) (sql : String) :
      Session.Definite s fun c => Catalog.rows c activity sql :=
    Session.definite_require (definite_query hs state sql [])
  have htypes : Session.Definite s fun c => Catalog.loadTypes c := by
    refine (hrows _ _).bind fun types => (hrows _ _).bind fun tableTypes => ?_
    exact Session.definite_pure _
  have htables (types : TypeCatalog) :
      Session.Definite s fun c => Catalog.loadTables c types rules := by
    refine (hrows _ _).bind fun columns => (hrows _ _).bind fun keys => ?_
    exact Session.definite_pure _
  have hprocedures (types : TypeCatalog) :
      Session.Definite s fun c => Catalog.loadProcedures c types rules := by
    refine (hrows _ _).bind fun procedures => (hrows _ _).bind fun parameters => ?_
    exact Session.definite_ofExcept _
  refine htypes.bind ?_
  rintro ⟨types, typeWarnings⟩
  refine (htables types).bind ?_
  rintro ⟨tables, tableWarnings⟩
  refine (hprocedures types).bind fun catalog => ?_
  refine (Session.definite_ofExcept _).bind fun generated => ?_
  exact Session.definite_pure _

theorem exists_returns_assembleBy (hs : s.Steady) (state : σ) (canConnect : Bool)
    (rules : RuleSet) (userScripts : List Script) (token : RunToken) :
    ∃ r, ∀ (schedule : Schedule) (connection parallelism : Nat),
      (assembleBy schedule connection canConnect rules userScripts
        { parallelism, token } : Session σ Model).Returns s (· = r) := by
  obtain ⟨laid, hlaid⟩ := Groundwork.definite_lay hs state rules userScripts
  cases laid with
  | error e =>
      refine ⟨.error e, fun schedule connection parallelism => ?_⟩
      refine Session.Returns.bind (hlaid connection) ?_ ?_
      · intro g hg
        cases hg
      · intro e' he
        exact congrArg Except.error (Except.error.inj he)
  | ok g =>
      obtain ⟨r, hr⟩ := exists_returns_inferUnits hs state ⟨g.types, token, canConnect⟩ rules
        g.units
      refine ⟨r.map (g.model rules), fun schedule connection parallelism => ?_⟩
      refine Session.Returns.bind (hlaid connection) ?_ ?_
      · intro g' hg
        obtain rfl := Except.ok.inj hg
        refine Session.Returns.bind (hr schedule connection parallelism) ?_ ?_
        · rintro outcomes rfl
          exact Session.returns_pure rfl
        · rintro e rfl
          rfl
      · intro e he
        cases he

/-- Workers make no difference: the run ends in the same model, or in the same failure, as the run
that infers the units one after the other on its own connection. -/
theorem assembleBy_eq_assemble (schedule : Schedule) (connection : Nat) (canConnect : Bool)
    (rules : RuleSet) (userScripts : List Script) (options : RunOptions) (parallelism : Nat)
    (w : World σ) (h : w.server.Steady) :
    ((assembleBy schedule connection canConnect rules userScripts
        { options with parallelism }).outcome w).1 =
      ((assemble connection canConnect rules userScripts
        { options with parallelism := 1 }).outcome w).1 := by
  obtain ⟨r, hr⟩ :=
    exists_returns_assembleBy h w.state canConnect rules userScripts options.token
  exact ((hr schedule connection parallelism).eq rfl).trans ((hr .inTurn connection 1).eq rfl).symm

/-- A server that grants everything and has nothing to show. -/
def quietServer : Server Unit where
  connect _ _ := (.ok (), ())
  execute _ _ _ := (.ok (), ())
  query _ _ _ _ := (.ok [], ())
  describe _ _ _ := (.ok [], ())

def quietWorld : World Unit where
  server := quietServer
  state := ()

/-- As many scripts as are shared out among workers. -/
def eightScripts : List Script :=
  (List.range 8).map fun i => { identity := toString i, text := "SELECT 1" }

theorem eightScripts_assembleBy_eq_assemble :
    parallelThreshold ≤ eightScripts.length ∧ quietWorld.server.Steady ∧
      ((assembleBy .inTurn 0 true (GlobRules.mk []).toRuleSet eightScripts
          { parallelism := 3, token := .ofText "tok" }).outcome quietWorld).1 =
        ((assemble 0 true (GlobRules.mk []).toRuleSet eightScripts
          { parallelism := 1, token := .ofText "tok" }).outcome quietWorld).1 := by
  have hsteady : quietWorld.server.Steady := by
    constructor
    · intro n state
      rfl
    · intro c d sql state state'
      rfl
    · intro c d sql parameters state state'
      rfl
    · intro c d sql state state'
      rfl
  refine ⟨by decide, hsteady, ?_⟩
  exact assembleBy_eq_assemble .inTurn 0 true (GlobRules.mk []).toRuleSet eightScripts
    { token := .ofText "tok" } 3 quietWorld hsteady

end Assembly

end QueryShape
