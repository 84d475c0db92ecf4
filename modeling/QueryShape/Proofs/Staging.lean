import QueryShape.Proofs.Traffic.Run
import QueryShape.Server.Scripted

/-!
Where the temp tables of a unit stand while the server is asked about its text. They stand whenever
columns are asked for. They never stand when parameters are, so a run keeps the tables of all its
units in place just when no unit with temp tables has its parameters described.
-/

namespace QueryShape

open QueryShape.Exchange
open QueryShape.Inference

variable {σ : Type}

/-- Whether a request has the server look at a text. -/
def Call.asks (c : Call) : Prop :=
  c.kind = .query ∨ c.kind = .describe

theorem not_asks_execution (connection : Nat) (sql : String) :
    ¬ (execution connection sql).asks := by
  rintro (h | h) <;> cases h

theorem not_asks_of_map_call {log : List Exchange} {ι : Type} {items : List ι} {connection : Nat}
    {text : ι → String} (h : log.map (·.call) = items.map fun i => execution connection (text i)) :
    ∀ x ∈ log, ¬ x.call.asks := by
  intro x hx
  obtain ⟨i, -, hcall⟩ := exists_of_map_call_eq h x hx
  rw [hcall]
  exact not_asks_execution connection (text i)

namespace Sandbox

/-- Whether the tables stand after exchanges: the last of these on the connection made them all. -/
def StandsAfter (s : Sandbox) (connection : Nat) (past : List Exchange) : Prop :=
  s.definitions.map (Exchange.granted connection) <:+ onConnection connection past

/-- Whether the tables stand wherever something is asked. -/
def Covers (s : Sandbox) (log : List Exchange) : Prop :=
  ∀ before x after, log = before ++ x :: after → x.call.asks →
    s.StandsAfter x.call.connection before

variable {s : Sandbox} {connection : Nat} {log more : List Exchange}

theorem StandsAfter.append_left (h : s.StandsAfter connection log) (past : List Exchange) :
    s.StandsAfter connection (past ++ log) := by
  unfold StandsAfter
  rw [onConnection_append]
  exact h.trans (List.suffix_append _ _)

theorem standsAfter_nil_iff : s.StandsAfter connection [] ↔ s.tables = [] := by
  simp [StandsAfter, onConnection, definitions]

theorem standsAfter_definitions (s : Sandbox) (connection : Nat) :
    s.StandsAfter connection (s.definitions.map (Exchange.granted connection)) := by
  have honly : ∀ x ∈ s.definitions.map (Exchange.granted connection),
      x.call.connection = connection :=
    List.forall_mem_map.2 fun _ _ => rfl
  exact ⟨[], (onConnection_eq_self honly).symm⟩

theorem covers_of_silent (h : ∀ x ∈ log, ¬ x.call.asks) : s.Covers log := by
  rintro before x after rfl hasks
  exact absurd hasks (h x (by simp))

theorem covers_nil : s.Covers [] :=
  covers_of_silent (List.forall_mem_nil _)

theorem covers_of_tables_eq_nil (h : s.tables = []) : s.Covers log := by
  rintro before x after - -
  simp [StandsAfter, definitions, h]

theorem Covers.append (h : s.Covers log) (hmore : s.Covers more) : s.Covers (log ++ more) := by
  intro before x after hsplit hasks
  rcases append_eq_split hsplit with ⟨rest, hlog, -⟩ | ⟨front, rfl, hfront⟩
  · exact h before x rest hlog hasks
  · exact (hmore front x after hfront hasks).append_left log

theorem covers_congr {t : Sandbox} (h : s.definitions = t.definitions) :
    s.Covers log ↔ t.Covers log := by
  unfold Covers StandsAfter
  rw [h]

/-- Whether nothing is asked after the first exchange, which is on the given connection. -/
def AsksFirst (connection : Nat) (work : List Exchange) : Prop :=
  ∃ x rest, work = x :: rest ∧ x.call.connection = connection ∧ ∀ y ∈ rest, ¬ y.call.asks

theorem AsksFirst.append (h : AsksFirst connection log) (hmore : ∀ x ∈ more, ¬ x.call.asks) :
    AsksFirst connection (log ++ more) := by
  obtain ⟨x, rest, rfl, hx, hrest⟩ := h
  exact ⟨x, rest ++ more, rfl, hx, List.forall_mem_append.2 ⟨hrest, hmore⟩⟩

theorem covers_definitions_append (h : AsksFirst connection log) :
    s.Covers (s.definitions.map (Exchange.granted connection) ++ log) := by
  obtain ⟨y, rest, rfl, rfl, hrest⟩ := h
  intro before x after hsplit hasks
  rcases append_eq_split hsplit with ⟨front, hdefinitions, -⟩ | ⟨front, rfl, hfront⟩
  · have hmem : x ∈ s.definitions.map (Exchange.granted y.call.connection) := by
      rw [hdefinitions]
      simp
    obtain ⟨definition, -, rfl⟩ := List.mem_map.1 hmem
    exact absurd hasks (not_asks_execution _ _)
  · cases front with
    | nil =>
        obtain ⟨rfl, -⟩ := List.cons.inj hfront
        rw [List.append_nil]
        exact s.standsAfter_definitions _
    | cons z front =>
        obtain ⟨-, rfl⟩ := List.cons.inj hfront
        exact absurd hasks (hrest x (by simp))

theorem Traffic.covers {Work : List Exchange → Prop} (h : s.Traffic connection Work log)
    (hWork : ∀ work, Work work → AsksFirst connection work) : s.Covers log := by
  cases h with
  | worked hwork hdropped =>
      exact covers_definitions_append ((hWork _ hwork).append (not_asks_of_map_call hdropped))
  | @refused made definition name rest e dropped hsteps hdropped =>
      refine covers_of_silent (List.forall_mem_append.2 ⟨?_, List.forall_mem_cons.2 ⟨?_, ?_⟩⟩)
      · exact List.forall_mem_map.2 fun t _ => not_asks_execution connection t.1
      · exact not_asks_execution connection definition
      · exact not_asks_of_map_call hdropped

end Sandbox

theorem Transaction.covers {s : Sandbox} {connection : Nat} {Work : List Exchange → Prop}
    {log : List Exchange} (h : Transaction connection Work log)
    (hWork : ∀ work, Work work → s.Covers work) : s.Covers log := by
  have hexecution (sql : String) (refusal? : Option ServerError) :
      s.Covers [⟨execution connection sql, refusal?⟩] :=
    Sandbox.covers_of_silent (List.forall_mem_singleton.2 (not_asks_execution _ _))
  cases h with
  | unstarted e => exact hexecution _ _
  | rolledBack refusal? hwork =>
      exact (hexecution _ _).append ((hWork _ hwork).append (hexecution _ _))

namespace Inference.Command

variable {c : Command} {token : RunToken} {connection n m : Nat} {made : List Exchange}

theorem CatalogWork.asksFirst {work : List Exchange} (h : c.CatalogWork connection work) :
    Sandbox.AsksFirst connection work := by
  obtain ⟨r, rfl⟩ := h
  refine ⟨_, [], rfl, ?_, nofun⟩
  unfold catalogRequest
  split <;> rfl

theorem SchemaWork.asksFirst {work : List Exchange} (h : c.SchemaWork connection work) :
    Sandbox.AsksFirst connection work := by
  obtain ⟨r, reset, rfl⟩ := h
  exact ⟨_, _, rfl, rfl, List.forall_mem_singleton.2 (not_asks_execution _ _)⟩

theorem RowWork.asksFirst {work : List Exchange} (h : c.RowWork connection work) :
    Sandbox.AsksFirst connection work := by
  obtain ⟨r, rfl⟩ := h
  exact ⟨_, [], rfl, rfl, nofun⟩

/-- Each attempt makes the temp tables before it has the text described. -/
theorem Attempt.covers {strategy : Strategy} (h : c.Attempt token connection strategy n made m) :
    (c.sandbox token).Covers made := by
  have hopening (d : Nat) (refusal? : Option ServerError) :
      (c.sandbox token).Covers [⟨opening d, refusal?⟩] := by
    refine Sandbox.covers_of_silent (List.forall_mem_singleton.2 ?_)
    rintro (h | h) <;> cases h
  cases h with
  | catalog htraffic => exact htraffic.covers fun _ => CatalogWork.asksFirst
  | schemaOnly htraffic => exact htraffic.covers fun _ => SchemaWork.asksFirst
  | unavailable => exact Sandbox.covers_nil
  | unopened => exact hopening _ _
  | isolated htransaction =>
      refine (hopening _ _).append (htransaction.covers ?_)
      intro work hwork
      exact hwork.covers fun _ => RowWork.asksFirst

theorem Traffic.covers (h : c.Traffic token connection n made m) :
    (c.sandbox token).Covers made := by
  obtain ⟨tried, -, hchain⟩ := h
  exact hchain.preserves (fun _ => Sandbox.covers_nil) Sandbox.Covers.append
    fun _ _ _ _ _ => Attempt.covers

end Inference.Command

namespace ModelUnit

/-- Procedures use temp tables as they are written, and scripts use global ones. -/
def sandboxScope : ModelUnit → SandboxScope
  | procedure _ => .procedure
  | script _ => .script

def sandbox (u : ModelUnit) (token : RunToken) : Sandbox :=
  ⟨u.tempTables, u.sandboxScope, token⟩

theorem sandbox_ofUnit (u : ModelUnit) (token : RunToken) (rule : EffectiveRule) :
    (Command.ofUnit token rule u.executable).sandbox token = u.sandbox token := by
  cases u <;> rfl

theorem sandbox_withParameters (u : ModelUnit) (ps : List Parameter) (token : RunToken) :
    (u.withParameters ps).sandbox token = u.sandbox token := by
  cases u <;> rfl

theorem definitions_sandbox_withTempTables {u : ModelUnit} {ts : List TempTable}
    (h : ts.map TempTable.texts = u.tempTables.map TempTable.texts) (token : RunToken) :
    ((u.withTempTables ts).sandbox token).definitions = (u.sandbox token).definitions := by
  have hdefinitions : ts.map (·.definition) = u.tempTables.map (·.definition) := by
    have hmap := congrArg (List.map Prod.snd) h
    rw [List.map_map, List.map_map] at hmap
    exact hmap
  cases u with
  | procedure p => exact hdefinitions
  | script s =>
      have hplaced := congrArg (List.map token.globalize) hdefinitions
      rw [List.map_map, List.map_map] at hplaced
      exact hplaced

variable {rule : EffectiveRule} {types : TypeCatalog} {token : RunToken} {connection n m : Nat}
  {u : ModelUnit} {made : List Exchange}

theorem ColumnTraffic.covers (h : u.ColumnTraffic rule token connection n made m) :
    (u.sandbox token).Covers made := by
  cases h with
  | unasked => exact Sandbox.covers_nil
  | asked htexts htraffic =>
      have hcovers := htraffic.covers
      rw [sandbox_ofUnit] at hcovers
      exact (Sandbox.covers_congr (definitions_sandbox_withTempTables htexts token)).1 hcovers

/-- The request about parameters comes first, when no table has been made. -/
theorem ParameterTraffic.covers_iff (h : u.ParameterTraffic types rule token connection made) :
    (u.sandbox token).Covers made ↔ u.tempTables = [] ∨ ¬ u.AsksForParameters types rule := by
  cases u with
  | procedure p =>
      obtain rfl := h
      exact iff_of_true Sandbox.covers_nil (.inr id)
  | script s =>
      cases h with
      | unasked hunasked => exact iff_of_true Sandbox.covers_nil (.inr hunasked)
      | asked declarations refusal? hasks =>
          constructor
          · intro hcovers
            -- Nothing stands before the request, which is the first exchange.
            left
            exact Sandbox.standsAfter_nil_iff.1 (hcovers [] _ [] rfl (.inl rfl))
          · rintro (hnone | hunasked)
            · exact Sandbox.covers_of_tables_eq_nil hnone
            · exact absurd hasks hunasked

/-- Whether the temp tables of a unit stand wherever the server is asked about the text of the
unit. -/
def KeepsTables (u : ModelUnit) (rule : EffectiveRule) (token : RunToken) (l : UnitLog) : Prop :=
  ∀ attached, u.withRuleTables rule = .ok attached →
    (attached.sandbox token).Covers l.parameters ∧ (attached.sandbox token).Covers l.columns

/-- Whether a unit with temp tables has its parameters described. -/
def AsksBeforeTables (u : ModelUnit) (types : TypeCatalog) (rule : EffectiveRule) : Prop :=
  ∃ attached, u.withRuleTables rule = .ok attached ∧ attached.tempTables ≠ [] ∧
    attached.AsksForParameters types rule

theorem Traffic.keepsTables_iff {l : UnitLog}
    (h : u.Traffic types rule token connection n l m) :
    u.KeepsTables rule token l ↔ ¬ u.AsksBeforeTables types rule := by
  cases h with
  | faulty _ hfaulty =>
      constructor
      · rintro - ⟨attached, hattached, -⟩
        cases hfaulty.symm.trans hattached
      · intro _ attached hattached
        cases hfaulty.symm.trans hattached
  | @attached attached ps _ _ _ hattached hparameters hshape =>
      obtain ⟨-, -, hcolumns⟩ := hshape
      have hcovers := hcolumns.covers
      rw [sandbox_withParameters] at hcovers
      have hiff := hparameters.covers_iff
      constructor
      · rintro hkeeps ⟨attached', hattached', htables, hasks⟩
        obtain rfl := Except.ok.inj (hattached.symm.trans hattached')
        rcases hiff.1 (hkeeps attached hattached).1 with hnone | hunasked
        · exact htables hnone
        · exact hunasked hasks
      · intro hnever attached' hattached'
        obtain rfl := Except.ok.inj (hattached.symm.trans hattached')
        refine ⟨hiff.2 ?_, hcovers⟩
        by_cases hnone : attached.tempTables = []
        · exact .inl hnone
        · right
          intro hasks
          exact hnever ⟨attached, hattached, hnone, hasks⟩

end ModelUnit

namespace Assembly

/-- A run of the units in a log, each with its ordinal. -/
abbrev UnitRuns := List ((ModelUnit × Nat) × UnitLog)

theorem UnitsTraffic.exists_runs {schedule : Schedule} {connection : Nat} {ctx : InferenceContext}
    {rules : RuleSet} {parallelism : Nat} {units : List ModelUnit} {n m : Nat}
    {openings made : List Exchange}
    (h : UnitsTraffic schedule connection ctx rules parallelism units n openings made m) :
    ∃ runs : UnitRuns, made = runs.flatMap (·.2.all) ∧ ∀ r ∈ runs, r.1 ∈ units.zipIdx ∧
      ∃ d k l, r.1.1.Traffic ctx.types (rules.ruleFor r.1.1.key) (ctx.token.forUnit r.1.2) d k
        r.2 l := by
  have hparts {connectionOf : Nat → Nat} {jobs : List (ModelUnit × Nat)} {n m : Nat}
      {made : List Exchange} (hjobs : jobs ⊆ units.zipIdx)
      (hchain : Chain (JobTraffic ctx.types ctx.token rules connectionOf) jobs n made m) :
      ∃ runs : UnitRuns, made = runs.flatMap (·.2.all) ∧ ∀ r ∈ runs, r.1 ∈ units.zipIdx ∧
        ∃ d k l, r.1.1.Traffic ctx.types (rules.ruleFor r.1.1.key) (ctx.token.forUnit r.1.2) d k
          r.2 l := by
    have hjob (job : ModelUnit × Nat) (n : Nat) (made : List Exchange) (m : Nat)
        (h : JobTraffic ctx.types ctx.token rules connectionOf job n made m) :
        ∃ part : UnitLog, made = part.all ∧ ∃ d k l, job.1.Traffic ctx.types
          (rules.ruleFor job.1.key) (ctx.token.forUnit job.2) d k part l := by
      obtain ⟨part, hmade, htraffic⟩ := h
      exact ⟨part, hmade, connectionOf job.2, n, m, htraffic⟩
    obtain ⟨runs, hruns, hmade, htraffic⟩ := hchain.exists_parts hjob
    refine ⟨runs, hmade, ?_⟩
    intro r hr
    refine ⟨hjobs ?_, htraffic r hr⟩
    rw [← hruns]
    exact List.mem_map_of_mem hr
  cases h with
  | inTurn _ hjobs hchain => exact hparts hjobs.subset hchain
  | unopened => exact ⟨[], rfl, fun _ hr => absurd hr List.not_mem_nil⟩
  | onWorkers _ _ _ hchain => exact hparts (schedule.order_perm _).subset hchain

/-- The log of a run ends in the exchanges about its units; none before has a text of a unit in it.
The temp tables of the units stand wherever the server is asked about a unit, unless a unit with
temp tables has its parameters described; then they do not. -/
theorem assembleBy_keepsTables_iff (schedule : Schedule) (connection : Nat) (canConnect : Bool)
    (rules : RuleSet) (userScripts : List Script) (options : RunOptions) (w : World σ) :
    ∃ (before : List Exchange) (runs : UnitRuns),
      ((assembleBy schedule connection canConnect rules userScripts options).outcome
          w).2.exchanges = w.exchanges ++ (before ++ runs.flatMap (·.2.all)) ∧
      (∀ x ∈ before, (x.call.kind = .query ∨ x.call.kind = .connect) ∧ x.call.parameters = []) ∧
      match ((Groundwork.lay connection rules userScripts).outcome w).1 with
      | .error _ => runs = []
      | .ok g =>
          (∀ r ∈ runs, r.1 ∈ g.units.zipIdx ∧ ∃ d k l,
            r.1.1.Traffic g.types (rules.ruleFor r.1.1.key) (options.token.forUnit r.1.2) d k
              r.2 l) ∧
          ((∀ r ∈ runs, r.1.1.KeepsTables (rules.ruleFor r.1.1.key)
              (options.token.forUnit r.1.2) r.2) ↔
            ∀ r ∈ runs, ¬ r.1.1.AsksBeforeTables g.types (rules.ruleFor r.1.1.key)) := by
  obtain ⟨reads, openings, made, m, hlog, hrun⟩ :=
    assembleBy_exchanges schedule connection canConnect rules userScripts options w
  have hreads {n : Nat} (h : Reads connection n reads n) :
      ∀ x ∈ reads, (x.call.kind = .query ∨ x.call.kind = .connect) ∧ x.call.parameters = [] := by
    intro x hx
    obtain ⟨sql, refusal?, rfl⟩ := h.1 x hx
    exact ⟨.inl rfl, rfl⟩
  generalize ((Groundwork.lay connection rules userScripts).outcome w).1 = laid at hrun
  cases hrun with
  | unread hread =>
      exact ⟨reads, [], hlog, hreads hread, rfl⟩
  | @read g _ _ _ _ hread hunits =>
      obtain ⟨runs, rfl, hruns⟩ := hunits.exists_runs
      refine ⟨reads ++ openings, runs, ?_, ?_, hruns, ?_⟩
      · rw [hlog, List.append_assoc]
      · intro x hx
        rcases List.mem_append.1 hx with hx | hx
        · exact hreads hread x hx
        · obtain ⟨count, hcalls⟩ := hunits.exists_openings
          obtain ⟨d, -, hd⟩ := exists_of_map_call_eq hcalls x hx
          rw [hd]
          exact ⟨.inr rfl, rfl⟩
      · constructor
        · intro hkeeps r hr
          obtain ⟨-, d, k, l, htraffic⟩ := hruns r hr
          exact htraffic.keepsTables_iff.1 (hkeeps r hr)
        · intro hnever r hr
          obtain ⟨-, d, k, l, htraffic⟩ := hruns r hr
          exact htraffic.keepsTables_iff.2 (hnever r hr)

/-- Rules by which every unit has a temp table of ids. -/
def idsRules : RuleSet where
  ruleFor _ := { tempTables := ["CREATE TABLE #ids (Id int)"] }
  includesProcedure _ := false
  includesTable _ := false
  skipsColumn _ _ := false
  tableScripts _ := []
  declared := []

/-- A script that reads the temp table and uses a variable. -/
def idsScript : Script where
  identity := "find"
  text := "SELECT @x FROM #ids"

def idsLog : List Exchange :=
  ((assemble 0 false idsRules [idsScript] { token := .ofText "tok" }).outcome
    (Scripted.world { replies := [], strict := false, refusedConnections := [] })).2.exchanges

/-- The text of the script is described before its temp table is made: nothing at all is executed
until then. -/
theorem idsScript_described_before_its_table :
    ((ModelUnit.script idsScript).withRuleTables (idsRules.ruleFor (.script "find"))).toOption.map
        (·.tempTables) = some [⟨"#ids", "CREATE TABLE #ids (Id int)", []⟩] ∧
      (∀ x ∈ idsLog.take 6, x.call.kind = .query) ∧
      (idsLog.drop 6).take 2 =
        [⟨⟨0, .query, describeParameters, ["SELECT @x FROM ##tok_0_ids"]⟩, none⟩,
          Exchange.granted 0 "CREATE TABLE ##tok_0_ids (Id int)"] := by
  decide +kernel

end Assembly

end QueryShape
