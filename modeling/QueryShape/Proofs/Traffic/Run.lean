import QueryShape.Assembly.Assemble
import QueryShape.Proofs.Traffic.Unit

namespace QueryShape

open QueryShape.Exchange
open QueryShape.Inference

variable {σ α β ι : Type}

namespace Chain

variable {Step : ι → Nat → List Exchange → Nat → Prop} {is : List ι} {n m : Nat}
  {made : List Exchange}

/-- What every step keeps and what is kept along the log is kept by all the steps together. -/
theorem preserves {Kept : Nat → List Exchange → Nat → Prop} (h : Chain Step is n made m)
    (hnil : ∀ n, Kept n [] n)
    (happend : ∀ {n k m made more}, Kept n made k → Kept k more m → Kept n (made ++ more) m)
    (hstep : ∀ i ∈ is, ∀ {n made m}, Step i n made m → Kept n made m) : Kept n made m := by
  induction h with
  | nil n => exact hnil n
  | cons hfirst _ ih =>
      apply happend
      · exact hstep _ List.mem_cons_self hfirst
      · exact ih fun i hi => hstep i (List.mem_cons_of_mem _ hi)

theorem exists_parts {κ : Type} {whole : κ → List Exchange} {Part : ι → κ → Prop}
    (h : Chain Step is n made m)
    (hstep : ∀ i n made m, Step i n made m → ∃ part, made = whole part ∧ Part i part) :
    ∃ parts : List (ι × κ), parts.map (·.1) = is ∧
      made = parts.flatMap (fun p => whole p.2) ∧ ∀ p ∈ parts, Part p.1 p.2 := by
  induction h with
  | nil n => exact ⟨[], rfl, rfl, List.forall_mem_nil _⟩
  | @cons i rest n k m made more hfirst _ ih =>
      obtain ⟨part, rfl, hpart⟩ := hstep i n made k hfirst
      obtain ⟨parts, rfl, rfl, hparts⟩ := ih
      exact ⟨(i, part) :: parts, rfl, rfl, List.forall_mem_cons.2 ⟨hpart, hparts⟩⟩

end Chain

/-- Queries without parameters on one connection. They open nothing. -/
def Reads (connection n : Nat) (made : List Exchange) (m : Nat) : Prop :=
  (∀ x ∈ made, ∃ sql refusal?, x = ⟨⟨connection, .query, sql, []⟩, refusal?⟩) ∧ m = n

theorem Reads.append {connection n k m : Nat} {made more : List Exchange}
    (h : Reads connection n made k) (hmore : Reads connection k more m) :
    Reads connection n (made ++ more) m := by
  obtain ⟨hmade, rfl⟩ := h
  obtain ⟨hmore, rfl⟩ := hmore
  exact ⟨List.forall_mem_append.2 ⟨hmade, hmore⟩, rfl⟩

namespace Session

theorem ensures_reads_pure {connection n : Nat} (a : α) :
    (pure a : Session σ α).Ensures n fun made _ m => Reads connection n made m :=
  ensures_pure ⟨nofun, rfl⟩

theorem ensures_reads_ofExcept {connection n : Nat} (x : Except Fault α) :
    (ofExcept x : Session σ α).Ensures n fun made _ m => Reads connection n made m := by
  refine (ensures_ofExcept x).mono ?_
  rintro _ r m ⟨rfl, rfl, -⟩
  exact ⟨nofun, rfl⟩

theorem ensures_reads_bind {connection n : Nat} {x : Session σ α} {f : α → Session σ β}
    (hx : x.Ensures n fun made _ m => Reads connection n made m)
    (hf : ∀ a n, (f a).Ensures n fun made _ m => Reads connection n made m) :
    (x >>= f).Ensures n fun made _ m => Reads connection n made m := by
  refine hx.bind ?_ fun _ _ _ h => h
  intro made a k hmade
  exact (hf a k).mono fun _ _ _ hmore => hmade.append hmore

end Session

namespace Catalog

open QueryShape.Session

theorem ensures_rows (connection : Nat) (activity : Activity) (sql : String) (n : Nat) :
    (rows connection activity sql : Session σ (List Row)).Ensures n fun made _ m =>
      Reads connection n made m := by
  refine (ensures_require (Dialogue.ensures_call _ _)).mono ?_
  rintro _ r m ⟨a, -, rfl, rfl⟩
  exact ⟨List.forall_mem_singleton.2 ⟨sql, refusal? a, rfl⟩, rfl⟩

theorem ensures_loadTypes (connection n : Nat) :
    (loadTypes connection : Session σ (TypeCatalog × List Warning)).Ensures n fun made _ m =>
      Reads connection n made m := by
  refine ensures_reads_bind (ensures_rows connection _ _ n) ?_
  intro types n
  refine ensures_reads_bind (ensures_rows connection _ _ n) ?_
  intro tableTypes n
  exact ensures_reads_pure _

theorem ensures_loadTables (connection : Nat) (types : TypeCatalog) (rules : RuleSet) (n : Nat) :
    (loadTables connection types rules : Session σ (List Table × List Warning)).Ensures n
      fun made _ m => Reads connection n made m := by
  refine ensures_reads_bind (ensures_rows connection _ _ n) ?_
  intro columns n
  refine ensures_reads_bind (ensures_rows connection _ _ n) ?_
  intro keys n
  exact ensures_reads_pure _

theorem ensures_loadProcedures (connection : Nat) (types : TypeCatalog) (rules : RuleSet)
    (n : Nat) :
    (loadProcedures connection types rules : Session σ ProcedureCatalog).Ensures n
      fun made _ m => Reads connection n made m := by
  refine ensures_reads_bind (ensures_rows connection _ _ n) ?_
  intro procedures n
  refine ensures_reads_bind (ensures_rows connection _ _ n) ?_
  intro parameters n
  exact ensures_reads_ofExcept _

end Catalog

namespace Assembly

open QueryShape.Session

theorem Groundwork.ensures_lay (connection : Nat) (rules : RuleSet) (userScripts : List Script)
    (n : Nat) :
    (lay connection rules userScripts : Session σ Groundwork).Ensures n fun made _ m =>
      Reads connection n made m := by
  refine ensures_reads_bind (Catalog.ensures_loadTypes connection n) ?_
  rintro ⟨types, typeWarnings⟩ n
  refine ensures_reads_bind (Catalog.ensures_loadTables connection types rules n) ?_
  rintro ⟨tables, tableWarnings⟩ n
  refine ensures_reads_bind (Catalog.ensures_loadProcedures connection types rules n) ?_
  intro catalog n
  refine ensures_reads_bind (ensures_reads_ofExcept _) ?_
  intro generated n
  exact ensures_reads_pure _

/-- The numbers of connections that are asked for one after the other, after `n` were. -/
def nextConnections (n count : Nat) : List Nat :=
  List.range' (n + 1) count

theorem nextConnections_succ (n count : Nat) :
    nextConnections n (count + 1) = (n + 1) :: nextConnections (n + 1) count :=
  rfl

theorem mem_nextConnections {d n count : Nat} :
    d ∈ nextConnections n count ↔ n < d ∧ d ≤ n + count := by
  unfold nextConnections
  rw [List.mem_range'_1]
  omega

theorem ensures_connectEach (is : List ι) (n : Nat) :
    (is.mapM fun _ => Session.require .openingWorker Dialogue.connect :
      Session σ (List Nat)).Ensures n fun made r m => ∃ count,
        made.map (·.call) = (nextConnections n count).map opening ∧ m = n + count ∧
          count ≤ is.length ∧ ∀ workers, r = .ok workers →
            workers = nextConnections n count ∧ count = is.length := by
  induction is generalizing n with
  | nil =>
      refine ensures_pure ⟨0, rfl, rfl, Nat.le_refl 0, ?_⟩
      rintro _ ⟨⟩
      exact ⟨rfl, rfl⟩
  | cons i rest ih =>
      rw [List.mapM_cons]
      refine (ensures_require Dialogue.ensures_connect).bind ?_ ?_
      · rintro _ d k ⟨a, hvalue, rfl, rfl, hnumber⟩
        cases a with
        | error e => cases hvalue
        | ok d' =>
            cases hvalue
            obtain rfl := hnumber d rfl
            refine (ih (n + 1)).bind ?_ ?_
            · rintro more workers m ⟨count, hcalls, rfl, hle, hworkers⟩
              refine ensures_pure ⟨count + 1, ?_, by omega, Nat.succ_le_succ hle, ?_⟩
              · simp [hcalls, nextConnections_succ]
              · rintro _ ⟨⟩
                obtain ⟨rfl, rfl⟩ := hworkers _ rfl
                exact ⟨rfl, rfl⟩
            · rintro more e m ⟨count, hcalls, rfl, hle, -⟩
              refine ⟨count + 1, ?_, by omega, Nat.succ_le_succ hle, nofun⟩
              simp [hcalls, nextConnections_succ]
      · rintro _ e k ⟨a, -, rfl, rfl, -⟩
        exact ⟨1, rfl, rfl, Nat.succ_le_succ (Nat.zero_le _), nofun⟩

/-- The exchanges about a unit with an ordinal, on the connection for it. -/
def JobTraffic (types : TypeCatalog) (token : RunToken) (rules : RuleSet)
    (connectionOf : Nat → Nat) (job : ModelUnit × Nat) (n : Nat) (made : List Exchange)
    (m : Nat) : Prop :=
  ∃ l : UnitLog, made = l.all ∧
    job.1.Traffic types (rules.ruleFor job.1.key) (token.forUnit job.2) (connectionOf job.2) n l m

/-- How many connections a run asks for beside its own before it infers units. -/
def workerCount (ctx : InferenceContext) (parallelism : Nat) (units : List ModelUnit) : Nat :=
  if usesWorkers ctx parallelism units then parallelism else 0

/-- The openings of workers and the exchanges about units. Without workers all of these are on the
connection of the run and the units after a failure have none. -/
inductive UnitsTraffic (schedule : Schedule) (connection : Nat) (ctx : InferenceContext)
    (rules : RuleSet) (parallelism : Nat) (units : List ModelUnit) (n : Nat) :
    List Exchange → List Exchange → Nat → Prop
  | inTurn {jobs : List (ModelUnit × Nat)} {made : List Exchange} {m : Nat} :
      workerCount ctx parallelism units = 0 →
      jobs <+: units.zipIdx →
      Chain (JobTraffic ctx.types ctx.token rules fun _ => connection) jobs n made m →
      UnitsTraffic schedule connection ctx rules parallelism units n [] made m
  | unopened {openings : List Exchange} {count : Nat} :
      openings.map (·.call) = (nextConnections n count).map opening →
      count ≤ workerCount ctx parallelism units →
      UnitsTraffic schedule connection ctx rules parallelism units n openings [] (n + count)
  | onWorkers {openings made : List Exchange} {count m : Nat} :
      openings.map (·.call) = (nextConnections n count).map opening →
      0 < count →
      count = workerCount ctx parallelism units →
      Chain (JobTraffic ctx.types ctx.token rules
        (schedule.connectionOf (nextConnections n count))) (schedule.order units.zipIdx)
        (n + count) made m →
      UnitsTraffic schedule connection ctx rules parallelism units n openings made m

theorem UnitsTraffic.exists_openings {schedule : Schedule} {connection : Nat}
    {ctx : InferenceContext} {rules : RuleSet} {parallelism : Nat} {units : List ModelUnit}
    {n m : Nat} {openings made : List Exchange}
    (h : UnitsTraffic schedule connection ctx rules parallelism units n openings made m) :
    ∃ count, openings.map (·.call) = (nextConnections n count).map opening := by
  cases h with
  | inTurn => exact ⟨0, rfl⟩
  | unopened hcalls => exact ⟨_, hcalls⟩
  | onWorkers hcalls => exact ⟨_, hcalls⟩

theorem ensures_inferInTurn (connection : Nat) (ctx : InferenceContext) (rules : RuleSet)
    (units : List ModelUnit) (n : Nat) :
    (inferInTurn connection ctx rules units : Session σ (List UnitOutcome)).Ensures n
      fun made _ m => ∃ jobs, jobs <+: units.zipIdx ∧
        Chain (JobTraffic ctx.types ctx.token rules fun _ => connection) jobs n made m :=
  ensures_mapM (fun job n => ModelUnit.ensures_infer connection ctx rules job.2 job.1 n) _ n

theorem ensures_inferEach (schedule : Schedule) (workers : List Nat) (ctx : InferenceContext)
    (rules : RuleSet) (units : List ModelUnit) (n : Nat) :
    (inferEach schedule workers ctx rules units :
      Dialogue σ (List (Except Failure UnitOutcome))).Ensures n fun made _ m =>
        Chain (JobTraffic ctx.types ctx.token rules (schedule.connectionOf workers))
          (schedule.order units.zipIdx) n made m := by
  have hjob : ∀ (job : ModelUnit × Nat) (n : Nat),
      (do
        let result ← (job.1.infer (schedule.connectionOf workers job.2) ctx rules job.2).run
        return (job.2, result) : Dialogue σ (Nat × Except Failure UnitOutcome)).Ensures n
      fun made _ m =>
        JobTraffic ctx.types ctx.token rules (schedule.connectionOf workers) job n made m := by
    intro job n
    refine Dialogue.Ensures.bind (ModelUnit.ensures_infer _ ctx rules job.2 job.1 n) ?_
    intro made r k hmade
    refine Dialogue.ensures_pure ?_
    rwa [List.append_nil]
  refine (Dialogue.ensures_mapM hjob (schedule.order units.zipIdx) n).bind ?_
  intro made found k hchain
  refine Dialogue.ensures_pure ?_
  rwa [List.append_nil]

theorem one_lt_of_usesWorkers {ctx : InferenceContext} {parallelism : Nat}
    {units : List ModelUnit} (h : usesWorkers ctx parallelism units = true) :
    1 < parallelism := by
  simp only [usesWorkers, Bool.and_eq_true, decide_eq_true_eq] at h
  exact h.1.2

theorem ensures_inferUnits (schedule : Schedule) (connection : Nat) (ctx : InferenceContext)
    (rules : RuleSet) (parallelism : Nat) (units : List ModelUnit) (n : Nat) :
    (inferUnits schedule connection ctx rules parallelism units :
      Session σ (List UnitOutcome)).Ensures n fun made _ m => ∃ openings units',
        made = openings ++ units' ∧
          UnitsTraffic schedule connection ctx rules parallelism units n openings units' m := by
  unfold inferUnits
  split
  · rename_i hworkers
    have hpositive := one_lt_of_usesWorkers hworkers
    have hcount : workerCount ctx parallelism units = parallelism := if_pos hworkers
    refine (ensures_connectEach (List.range parallelism) n).bind ?_ ?_
    · rintro openings workers k ⟨count, hcalls, rfl, -, hopened⟩
      obtain ⟨rfl, hlength⟩ := hopened workers rfl
      rw [List.length_range] at hlength
      refine ensures_lift_bind (ensures_inferEach schedule _ ctx rules units _) ?_
      intro made results m hchain
      refine Dialogue.ensures_pure ⟨openings, made, ?_, ?_⟩
      · rw [List.append_nil]
      · exact .onWorkers hcalls (by omega) (hlength.trans hcount.symm) hchain
    · rintro openings e k ⟨count, hcalls, rfl, hle, -⟩
      rw [List.length_range, ← hcount] at hle
      exact ⟨openings, [], (List.append_nil _).symm, .unopened hcalls hle⟩
  · rename_i hworkers
    refine (ensures_inferInTurn connection ctx rules units n).mono ?_
    rintro made r m ⟨jobs, hjobs, hchain⟩
    exact ⟨[], made, rfl, .inTurn (if_neg hworkers) hjobs hchain⟩

/-- The exchanges of a run, in the light of what it knows once it has read the catalogs. -/
inductive RunTraffic (schedule : Schedule) (connection : Nat) (canConnect : Bool)
    (rules : RuleSet) (options : RunOptions) (n : Nat) :
    Except Failure Groundwork → List Exchange → List Exchange → List Exchange → Nat → Prop
  | unread {e : Failure} {reads : List Exchange} :
      Reads connection n reads n →
      RunTraffic schedule connection canConnect rules options n (.error e) reads [] [] n
  | read {g : Groundwork} {reads openings made : List Exchange} {m : Nat} :
      Reads connection n reads n →
      UnitsTraffic schedule connection ⟨g.types, options.token, canConnect⟩ rules
        options.parallelism g.units n openings made m →
      RunTraffic schedule connection canConnect rules options n (.ok g) reads openings made m

theorem assembleBy_exchanges (schedule : Schedule) (connection : Nat) (canConnect : Bool)
    (rules : RuleSet) (userScripts : List Script) (options : RunOptions) (w : World σ) :
    ∃ reads openings made m,
      ((assembleBy schedule connection canConnect rules userScripts options).outcome
          w).2.exchanges = w.exchanges ++ (reads ++ (openings ++ made)) ∧
        RunTraffic schedule connection canConnect rules options w.opened
          ((Groundwork.lay connection rules userScripts).outcome w).1 reads openings made m := by
  obtain ⟨reads, hlog, hreads, hopened⟩ :=
    Groundwork.ensures_lay connection rules userScripts w.opened w rfl
  change ((Groundwork.lay connection rules userScripts).outcome w).2.exchanges = _ at hlog
  change ((Groundwork.lay connection rules userScripts).outcome w).2.opened = _ at hopened
  unfold assembleBy
  rw [outcome_bind]
  rcases hlay : (Groundwork.lay connection rules userScripts).outcome w with ⟨r, v⟩
  rw [hlay] at hlog hopened
  cases r with
  | error e =>
      refine ⟨reads, [], [], w.opened, ?_, .unread ⟨hreads, rfl⟩⟩
      simpa using hlog
  | ok g =>
      have hrest : (do
            let outcomes ← inferUnits schedule connection ⟨g.types, options.token, canConnect⟩
              rules options.parallelism g.units
            return g.model rules outcomes : Session σ Model).Ensures w.opened
          fun made _ m => ∃ openings units', made = openings ++ units' ∧
            UnitsTraffic schedule connection ⟨g.types, options.token, canConnect⟩ rules
              options.parallelism g.units w.opened openings units' m := by
        refine (ensures_inferUnits schedule connection _ rules options.parallelism g.units
          _).bind ?_ fun _ _ _ h => h
        intro made outcomes m h
        refine ensures_pure ?_
        rwa [List.append_nil]
      obtain ⟨_, hrestLog, openings, made, rfl, htraffic⟩ := hrest v hopened
      refine ⟨reads, openings, made, _, ?_, .read ⟨hreads, rfl⟩ htraffic⟩
      rw [← List.append_assoc, ← hlog]
      exact hrestLog

end Assembly

end QueryShape
