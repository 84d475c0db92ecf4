import QueryShape.Proofs.Isolation.Unit
import QueryShape.Proofs.TempTables
import QueryShape.Proofs.Traffic.Run

namespace QueryShape

open QueryShape.Exchange

variable {σ : Type}

namespace Assembly

/-- Whether the tables of a sandbox are temp tables of one of some units of a run. -/
def UsedFor (units : List ModelUnit) (rules : RuleSet) (token : RunToken) (s : Sandbox) : Prop :=
  ∃ job ∈ units.zipIdx, ∃ attached,
    job.1.withRuleTables (rules.ruleFor job.1.key) = .ok attached ∧
      attached.Uses (token.forUnit job.2) s

variable {Used : Sandbox → Prop} {stray : Prop} {schedule : Schedule} {connection n m : Nat}
  {ctx : InferenceContext} {rules : RuleSet} {units : List ModelUnit}
  {openings made : List Exchange}

theorem Schedule.connectionOf_mem (schedule : Schedule) {workers : List Nat}
    (h : 0 < workers.length) (ordinal : Nat) :
    schedule.connectionOf workers ordinal ∈ workers := by
  unfold connectionOf
  rw [List.getD_eq_getElem?_getD, List.getElem?_eq_getElem (Nat.mod_lt _ h)]
  exact List.getElem_mem _

theorem orderly_of_jobs {Shared : Nat → Prop} {connectionOf : Nat → Nat}
    {jobs : List (ModelUnit × Nat)} (hjobs : jobs ⊆ units.zipIdx)
    (hused : ∀ s, UsedFor units rules ctx.token s → Used s)
    (hstray : ∀ s, Used s → rollback ∈ s.definitions → stray)
    (hconnection : ∀ ordinal, Shared (connectionOf ordinal)) (hshared : ∀ d, Shared d → d ≤ n)
    (h : Chain (JobTraffic ctx.types ctx.token rules connectionOf) jobs n made m) :
    Orderly Used stray Shared n made m := by
  refine .of_chain h hshared ?_
  rintro job hjob n _ m hshared ⟨l, rfl, htraffic⟩
  refine htraffic.orderly ?_ hstray (hconnection job.2) hshared
  intro attached s hattached huses
  exact hused s ⟨job, hjobs hjob, attached, hattached, huses⟩

/-- Beside the connection of the run, those that are opened first are shared by units. -/
def SharedUpTo (connection n last d : Nat) : Prop :=
  d = connection ∨ n < d ∧ d ≤ last

theorem UnitsTraffic.exists_orderly {parallelism last : Nat} (hle : connection ≤ n)
    (hlast : last = n + workerCount ctx parallelism units)
    (hused : ∀ s, UsedFor units rules ctx.token s → Used s)
    (hstray : ∀ s, Used s → rollback ∈ s.definitions → stray)
    (h : UnitsTraffic schedule connection ctx rules parallelism units n openings made m) :
    (∀ x ∈ openings, ∃ d, x.call = opening d ∧ n < d ∧ d ≤ last) ∧
      ∃ k, Orderly Used stray (SharedUpTo connection n last) last made k := by
  have hopenings {count : Nat} (hcount : n + count ≤ last)
      (h : openings.map (·.call) = (nextConnections n count).map opening) :
      ∀ x ∈ openings, ∃ d, x.call = opening d ∧ n < d ∧ d ≤ last := by
    intro x hx
    obtain ⟨d, hd, hcall⟩ := exists_of_map_call_eq h x hx
    obtain ⟨hlow, hhigh⟩ := mem_nextConnections.1 hd
    exact ⟨d, hcall, hlow, Nat.le_trans hhigh hcount⟩
  have hshared (d : Nat) (hd : SharedUpTo connection n last d) : d ≤ last := by
    rcases hd with rfl | ⟨-, hd⟩
    · exact Nat.le_trans hle (hlast ▸ Nat.le_add_right n _)
    · exact hd
  cases h with
  | inTurn hnone hjobs hchain =>
      obtain rfl : last = n := by rw [hlast, hnone, Nat.add_zero]
      refine ⟨List.forall_mem_nil _, m, ?_⟩
      exact orderly_of_jobs hjobs.subset hused hstray (fun _ => .inl rfl) hshared hchain
  | unopened hcalls hcount =>
      exact ⟨hopenings (by omega) hcalls, last, .nil last⟩
  | @onWorkers _ _ count _ hcalls hpositive hcount hchain =>
      obtain rfl : last = n + count := by rw [hlast, hcount]
      refine ⟨hopenings (Nat.le_refl _) hcalls, m, ?_⟩
      refine orderly_of_jobs (schedule.order_perm _).subset hused hstray ?_ hshared hchain
      intro ordinal
      have hlength : 0 < (nextConnections n count).length := by
        rwa [nextConnections, List.length_range']
      exact .inr (mem_nextConnections.1 (schedule.connectionOf_mem hlength ordinal))

/-- Whether the tables of a sandbox are temp tables of a unit of a run that starts from the given
end of its reading. -/
def UsedIn (laid : Except Failure Groundwork) (rules : RuleSet) (token : RunToken)
    (s : Sandbox) : Prop :=
  ∃ g, laid = .ok g ∧ UsedFor g.units rules token s

/-- Whether a script comes with a temp table whose definition is in truth a rollback. -/
def BringsRollback (scripts : List Script) : Prop :=
  ∃ s ∈ scripts, ∃ t ∈ s.tempTables, t.definition = rollback

/-- How many connections a run asks for beside its own, given the end of its reading. -/
def workersAfter (laid : Except Failure Groundwork) (canConnect : Bool) (options : RunOptions) :
    Nat :=
  match laid with
  | .error _ => 0
  | .ok g => workerCount ⟨g.types, options.token, canConnect⟩ options.parallelism g.units

theorem RunTraffic.exists_orderly {canConnect : Bool} {options : RunOptions}
    {laid : Except Failure Groundwork} {reads : List Exchange} {last : Nat} (hle : connection ≤ n)
    (hlast : last = n + workersAfter laid canConnect options)
    (hstray : ∀ s, UsedIn laid rules options.token s → rollback ∈ s.definitions → stray)
    (h : RunTraffic schedule connection canConnect rules options n laid reads openings made m) :
    Reads connection n reads n ∧
      (∀ x ∈ openings, ∃ d, x.call = opening d ∧ n < d ∧ d ≤ last) ∧
      ∃ k, Orderly (UsedIn laid rules options.token) stray (SharedUpTo connection n last) last
        made k := by
  cases h with
  | unread hreads => exact ⟨hreads, List.forall_mem_nil _, last, .nil last⟩
  | @read g _ _ _ _ hreads hunits =>
      exact ⟨hreads, hunits.exists_orderly hle hlast (fun s hs => ⟨g, rfl, hs⟩) hstray⟩

theorem UsedFor.bringsRollback {userScripts : List Script} {token : RunToken} {s : Sandbox}
    (h : UsedFor units rules token s) (howns : ∀ u ∈ units, OwnTables userScripts u)
    (hrollback : rollback ∈ s.definitions) : BringsRollback userScripts := by
  obtain ⟨job, hjob, attached, hattached, -, htables⟩ := h
  obtain ⟨t, ht, hplaced⟩ := List.mem_map.1 hrollback
  have hhash : '#' ∉ (s.placed t.definition).toList := by
    rw [hplaced]
    decide +kernel
  -- A text without hashes is never rewritten, so the definition itself is the rollback.
  rw [Sandbox.placed_eq_self hhash] at hplaced
  obtain ⟨t', ht', htexts⟩ := List.mem_map.1 (htables t ht)
  have hdefinition : t'.definition = rollback := (congrArg Prod.snd htexts).trans hplaced
  obtain ⟨added, rfl, -, hadded⟩ := ModelUnit.withRuleTables_eq_ok hattached
  rw [ModelUnit.tempTables_withTempTables] at ht'
  rcases List.mem_append.1 ht' with ht' | ht'
  · rcases howns job.1 (List.fst_mem_of_mem_zipIdx hjob) with hnone | ⟨columns, hstaged⟩ | hscript
    · rw [hnone] at ht'
      cases ht'
    · rw [hstaged] at ht'
      obtain rfl := List.mem_singleton.1 ht'
      refine absurd hdefinition ?_
      unfold Statement.stagingDefinition
      dsimp only
      rw [String.append_assoc, String.append_assoc, String.append_assoc]
      exact append_ne_of_front (by decide +kernel)
    · obtain ⟨u, hu, hjob⟩ := hscript
      rw [hjob] at ht'
      exact ⟨u, hu, t', ht', hdefinition⟩
  · have hcreated := hadded t' ht'
    rw [hdefinition] at hcreated
    have hnone : createdTableNames rollback = some [] := by decide +kernel
    rw [hnone] at hcreated
    cases hcreated

/-- What a log leaves as it was: it executes service texts only, and each connection is either
shared by units or there for one attempt. -/
structure Restoring (Used : Sandbox → Prop) (stray : Prop) (Shared : Nat → Prop)
    (made : List Exchange) : Prop where
  texts : ∀ x ∈ made, x.call.kind = .execute → Service Used x.call.sql
  /-- Where units share a connection, a setting for a description is taken back at once. -/
  shared : ∀ d, Shared d → RestoresSchema (onConnection d made)
  /-- Any other connection is there for one run of a text in a transaction. -/
  others : ∀ d, ¬ Shared d →
    onConnection d made = [] ∨ Dedicated Used stray d (onConnection d made)

/-- A run executes no text of a unit. Descriptions on the connection of the run and on those of its
workers leave no setting behind; any other run of a text is rolled back, once and as the last thing.
In between tables are made and dropped and nothing else is executed. That may read like the rollback
only where a script comes with a temp table of which it is the definition. -/
theorem assembleBy_restores (schedule : Schedule) (connection : Nat) (canConnect : Bool)
    (rules : RuleSet) (userScripts : List Script) (options : RunOptions) (w : World σ)
    (h : connection ≤ w.opened) :
    let laid := ((Groundwork.lay connection rules userScripts).outcome w).1
    ∃ made,
      ((assembleBy schedule connection canConnect rules userScripts options).outcome
          w).2.exchanges = w.exchanges ++ made ∧
      Restoring (UsedIn laid rules options.token) (BringsRollback userScripts)
        (SharedUpTo connection w.opened (w.opened + workersAfter laid canConnect options))
        made := by
  intro laid
  obtain ⟨reads, openings, made, m, hlog, hrun⟩ :=
    assembleBy_exchanges schedule connection canConnect rules userScripts options w
  have hstray (s : Sandbox) (hs : UsedIn laid rules options.token s)
      (hrollback : rollback ∈ s.definitions) : BringsRollback userScripts := by
    obtain ⟨g, hg, hs⟩ := hs
    exact hs.bringsRollback (Groundwork.ownTables_of_lay hg) hrollback
  obtain ⟨⟨hreads, -⟩, hopenings, k, horderly⟩ := hrun.exists_orderly h rfl hstray
  have hreads (x : Exchange) (hx : x ∈ reads) :
      x.call.connection = connection ∧ x.call.kind = .query := by
    obtain ⟨sql, refusal?, rfl⟩ := hreads x hx
    exact ⟨rfl, rfl⟩
  refine ⟨_, hlog, ?_, ?_, ?_⟩
  · intro x hx hkind
    rcases List.mem_append.1 hx with hx | hx
    · cases (hreads x hx).2.symm.trans hkind
    · rcases List.mem_append.1 hx with hx | hx
      · obtain ⟨d, hd, -⟩ := hopenings x hx
        rw [hd] at hkind
        cases hkind
      · exact horderly.texts x hx hkind
  · intro d hd
    rw [onConnection_append, onConnection_append]
    refine RestoresSchema.append ?_ (RestoresSchema.append ?_ (horderly.restores d hd))
    · apply restoresSchema_of_undescribed
      intro x hx hkind
      cases (hreads x (List.mem_filter.1 hx).1).2.symm.trans hkind
    · apply restoresSchema_of_undescribed
      intro x hx hkind
      obtain ⟨d, hd, -⟩ := hopenings x (List.mem_filter.1 hx).1
      rw [hd] at hkind
      cases hkind
  · intro d hd
    have hnoReads : onConnection d reads = [] := by
      apply onConnection_eq_nil
      intro x hx hconnection
      exact hd (.inl (hconnection.symm.trans (hreads x hx).1))
    have hnoOpenings : onConnection d openings = [] := by
      apply onConnection_eq_nil
      intro x hx hconnection
      obtain ⟨d', hd', hrange⟩ := hopenings x hx
      rw [hd'] at hconnection
      obtain rfl : d' = d := hconnection
      exact hd (.inr hrange)
    rw [onConnection_append, onConnection_append, hnoReads, hnoOpenings, List.nil_append,
      List.nil_append]
    -- What is neither read nor worked on was opened for a single unit, if it was opened at all.
    by_cases hopened : w.opened + workersAfter laid canConnect options < d ∧ d ≤ k
    · exact .inr (horderly.dedicated d hopened.1 hopened.2)
    · exact .inl (horderly.onConnection_eq_nil_of_not_shared hd hopened)

/-- A server that knows nothing and can describe nothing without running it. -/
def silentServer : Server Unit where
  connect _ _ := (.ok (), ())
  execute _ _ _ := (.ok (), ())
  query _ _ parameters _ :=
    (if parameters.isEmpty then .ok [] else .error ⟨some 11529, "unknown"⟩, ())
  describe _ sql _ :=
    (if "SET FMTONLY".toList.isPrefixOf sql.toList then .error ⟨some 208, "unknown"⟩ else .ok [],
      ())

def silentWorld : World Unit where
  server := silentServer
  state := ()

/-- Rules that say nothing. -/
def emptyRules : RuleSet :=
  (GlobRules.mk []).toRuleSet

def clockScript : Script where
  identity := "clock"
  text := "SELECT 1"

/-- Here the text has to be run. -/
theorem clockScript_restores :
    0 ≤ silentWorld.opened ∧ ∃ made,
      ((assembleBy .inTurn 0 true emptyRules [clockScript] { token := .ofText "tok" }).outcome
          silentWorld).2.exchanges = silentWorld.exchanges ++ made ∧
      Restoring (UsedIn ((Groundwork.lay 0 emptyRules [clockScript]).outcome silentWorld).1
          emptyRules (.ofText "tok"))
        (BringsRollback [clockScript]) (SharedUpTo 0 0 0) made := by
  have hworkers : workersAfter ((Groundwork.lay 0 emptyRules [clockScript]).outcome silentWorld).1
      true { token := .ofText "tok" } = 0 := by
    decide +kernel
  obtain ⟨made, hlog, hrestoring⟩ := assembleBy_restores .inTurn 0 true emptyRules [clockScript]
    { token := .ofText "tok" } silentWorld (Nat.le_refl 0)
  rw [hworkers] at hrestoring
  exact ⟨Nat.le_refl 0, made, hlog, hrestoring⟩

example : onConnection 1
    ((assemble 0 true emptyRules [clockScript] { token := .ofText "tok" }).outcome
      silentWorld).2.exchanges =
      [⟨opening 1, none⟩, Exchange.granted 1 "BEGIN TRANSACTION",
        ⟨⟨1, .describe, "SET ROWCOUNT 1;\nSELECT 1", []⟩, none⟩, Exchange.granted 1 rollback] := by
  decide +kernel

end Assembly

end QueryShape
