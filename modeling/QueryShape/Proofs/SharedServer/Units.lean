import QueryShape.Proofs.SharedServer.Agenda
import QueryShape.Server.Scripted
import Mathlib.Logic.Function.Basic

namespace QueryShape

open QueryShape.Exchange
open QueryShape.Sandbox

variable {ι : Type} [DecidableEq ι]

/-- Units on one server: the tables that live there, what each unit has left to do, and what was
asked and answered so far. -/
structure SharedRun (ι : Type) where
  live : TableServer.Live
  agenda : ι → Agenda
  log : List (ι × Exchange)

namespace SharedRun

def start (live : TableServer.Live) (units : ι → List Sandbox) : SharedRun ι where
  live
  agenda := fun i => (units i).map Progress.start
  log := []

/-- What one unit asked and was answered. -/
def logOf (i : ι) (s : SharedRun ι) : List Exchange :=
  (s.log.filter fun x => x.1 = i).map (·.2)

variable (server : TableServer) (connectionOf : ι → Nat)

/-- A unit makes its next statement, if it has one. -/
def turn (s : SharedRun ι) (i : ι) : SharedRun ι :=
  match (s.agenda i).next? with
  | none => s
  | some (sql, after) =>
      let (answer, live) := server.execute sql s.live
      { live
        agenda := Function.update s.agenda i (after answer)
        log := s.log ++ [(i, ⟨execution (connectionOf i) sql, refusal? answer⟩)] }

/-- Units make statements in the order of a schedule. -/
def run (schedule : List ι) (s : SharedRun ι) : SharedRun ι :=
  schedule.foldl (turn server connectionOf) s

end SharedRun

/-- What the sandboxes of a unit ask, and are answered, if no other unit uses the server. -/
def aloneLog (server : TableServer) (live : TableServer.Live) (connection : Nat)
    (sandboxes : List Sandbox) : List Exchange :=
  ((inTurn connection sandboxes).outcome (server.world live)).2.exchanges

namespace SharedRun

variable {server : TableServer} {connectionOf : ι → Nat} {i j : ι} {s : SharedRun ι}
  {sql : String} {next : Answer Unit → Agenda}

theorem turn_of_next?_eq_none (h : (s.agenda i).next? = none) :
    s.turn server connectionOf i = s := by
  unfold turn
  rw [h]

theorem turn_of_next?_eq_some (h : (s.agenda i).next? = some (sql, next)) :
    s.turn server connectionOf i =
      { live := (server.execute sql s.live).2
        agenda := Function.update s.agenda i (next (server.execute sql s.live).1)
        log := s.log ++ [(i, ⟨execution (connectionOf i) sql,
          refusal? (server.execute sql s.live).1⟩)] } := by
  unfold turn
  rw [h]

theorem logOf_turn_self (h : (s.agenda i).next? = some (sql, next)) :
    (s.turn server connectionOf i).logOf i = s.logOf i ++
      [⟨execution (connectionOf i) sql, refusal? (server.execute sql s.live).1⟩] := by
  rw [turn_of_next?_eq_some h]
  simp [logOf]

theorem logOf_turn_other (hij : j ≠ i) : (s.turn server connectionOf j).logOf i = s.logOf i := by
  cases hnext : (s.agenda j).next? with
  | none => rw [turn_of_next?_eq_none hnext]
  | some step =>
      rw [turn_of_next?_eq_some hnext]
      simp [logOf, hij]

theorem agenda_turn_other (hij : j ≠ i) :
    (s.turn server connectionOf j).agenda i = s.agenda i := by
  cases hnext : (s.agenda j).next? with
  | none => rw [turn_of_next?_eq_none hnext]
  | some step =>
      rw [turn_of_next?_eq_some hnext]
      exact Function.update_of_ne hij.symm _ _

variable {own : List Char → Prop} {ended w : World TableServer.Live} {turns connection : Nat}

/-- After some turns, a unit has come as far among others as in a world of its own. To go on in that
world leads to a given end. -/
structure Lockstep (server : TableServer) (connection : Nat) (own : List Char → Prop) (i : ι)
    (ended : World TableServer.Live) (turns : Nat) (s : SharedRun ι)
    (w : World TableServer.Live) : Prop where
  server_eq : w.server = server.asServer
  log_eq : w.exchanges = s.logOf i
  agree : TableServer.Agree own s.live w.state
  confined : ∀ p ∈ s.agenda i, p.Confined server own
  leads : (((s.agenda i).finish connection).outcome w).2 = ended
  turns_eq : (s.logOf i).length = turns ∨
    (s.agenda i).next? = none ∧ (s.logOf i).length ≤ turns

theorem outcome_execute_of_server_eq (h : w.server = server.asServer) :
    (Dialogue.execute connection sql).outcome w =
      ((server.execute sql w.state).1,
        { w with
          state := (server.execute sql w.state).2
          exchanges := w.exchanges ++
            [⟨execution connection sql, refusal? (server.execute sql w.state).1⟩] }) := by
  rw [Dialogue.outcome_execute, h]
  rfl

theorem Lockstep.turn_self (h : Lockstep server (connectionOf i) own i ended turns s w) :
    ∃ v, Lockstep server (connectionOf i) own i ended (turns + 1)
      (s.turn server connectionOf i) v := by
  cases hnext : (s.agenda i).next? with
  | none =>
      have hlength : (s.logOf i).length ≤ turns := by
        rcases h.turns_eq with heq | ⟨-, hle⟩
        · exact Nat.le_of_eq heq
        · exact hle
      -- The unit is through, and further turns of it are idle.
      rw [turn_of_next?_eq_none hnext]
      exact ⟨w, { h with turns_eq := .inr ⟨hnext, Nat.le_succ_of_le hlength⟩ }⟩
  | some step =>
      obtain ⟨sql, next⟩ := step
      obtain ⟨name, htouches, hown⟩ := Agenda.touches_of_confined h.confined hnext
      obtain ⟨hanswer, hagree⟩ := TableServer.execute_of_agree h.agree htouches hown
      have hlength : (s.logOf i).length = turns := by
        rcases h.turns_eq with heq | ⟨hnone, -⟩
        · exact heq
        · rw [hnext] at hnone
          cases hnone
      have hagenda : (s.turn server connectionOf i).agenda i =
          next (server.execute sql w.state).1 := by
        rw [turn_of_next?_eq_some hnext, ← hanswer]
        exact Function.update_self _ _ _
      have hlog : (s.turn server connectionOf i).logOf i = s.logOf i ++
          [⟨execution (connectionOf i) sql, refusal? (server.execute sql s.live).1⟩] :=
        logOf_turn_self hnext
      have hleads := h.leads
      rw [Agenda.finish_of_next?_eq_some _ hnext, Dialogue.outcome_bind,
        outcome_execute_of_server_eq h.server_eq] at hleads
      refine ⟨_, ⟨?_, ?_, ?_, ?_, by rw [hagenda]; exact hleads, ?_⟩⟩
      · exact h.server_eq
      · rw [hlog, h.log_eq, hanswer]
      · rw [turn_of_next?_eq_some hnext]
        exact hagree
      · rw [hagenda]
        exact Agenda.confined_after h.confined hnext _
      · left
        rw [hlog, List.length_append, hlength]
        rfl

theorem Lockstep.turn_other {others : List Char → Prop} (hij : j ≠ i)
    (hapart : ∀ k, others k → ¬ own k)
    (hconfined : ∀ p ∈ s.agenda j, p.Confined server others)
    (h : Lockstep server connection own i ended turns s w) :
    Lockstep server connection own i ended turns (s.turn server connectionOf j) w := by
  have hagenda : (s.turn server connectionOf j).agenda i = s.agenda i := agenda_turn_other hij
  have hlog : (s.turn server connectionOf j).logOf i = s.logOf i := logOf_turn_other hij
  constructor
  · exact h.server_eq
  · rw [hlog]
    exact h.log_eq
  · cases hnext : (s.agenda j).next? with
    | none =>
        rw [turn_of_next?_eq_none hnext]
        exact h.agree
    | some step =>
        obtain ⟨sql, next⟩ := step
        obtain ⟨name, htouches, hother⟩ := Agenda.touches_of_confined hconfined hnext
        rw [turn_of_next?_eq_some hnext]
        exact TableServer.agree_execute h.agree htouches (hapart _ hother)
  · rw [hagenda]
    exact h.confined
  · rw [hagenda]
    exact h.leads
  · rw [hagenda, hlog]
    exact h.turns_eq

theorem lockstep_run {own : ι → List Char → Prop} {ended : ι → World TableServer.Live}
    (hapart : ∀ i j, i ≠ j → ∀ k, own i k → ¬ own j k) (schedule : List ι) {turns : ι → Nat}
    (h : ∀ i, ∃ w, Lockstep server (connectionOf i) (own i) i (ended i) (turns i) s w) (i : ι) :
    ∃ w, Lockstep server (connectionOf i) (own i) i (ended i) (turns i + schedule.count i)
      (s.run server connectionOf schedule) w := by
  -- All units are kept in step at once, as a turn of one leaves another in step only because of the
  -- tables that the first keeps to.
  induction schedule generalizing s turns with
  | nil => exact h i
  | cons j rest ih =>
      have hstep : ∀ i', ∃ w, Lockstep server (connectionOf i') (own i') i' (ended i')
          (turns i' + [j].count i') (s.turn server connectionOf j) w := by
        intro i'
        obtain ⟨w, hw⟩ := h i'
        by_cases hj : j = i'
        · subst hj
          rw [List.count_singleton_self]
          exact hw.turn_self
        · obtain ⟨w', hw'⟩ := h j
          rw [List.count_singleton, if_neg (by simpa using hj)]
          exact ⟨w, hw.turn_other hj (hapart j i' hj) hw'.confined⟩
      have hrest := ih hstep
      rw [Nat.add_assoc, ← List.count_append] at hrest
      exact hrest

theorem Lockstep.logOf_eq (h : Lockstep server connection own i ended turns s w) :
    s.logOf i = ended.exchanges.take turns := by
  obtain ⟨more, hmore, -⟩ := Agenda.ensures_finish connection (s.agenda i) w.opened w rfl
  rw [h.leads, h.log_eq] at hmore
  rcases h.turns_eq with hlength | ⟨hnone, hlength⟩
  · rw [hmore, ← hlength, List.take_left']
    rfl
  · have hended : ended.exchanges = s.logOf i := by
      rw [← h.leads, Agenda.finish_of_next?_eq_none _ hnone, ← h.log_eq]
      rfl
    rw [hended, List.take_of_length_le hlength]

theorem logOf_run {units : ι → List Sandbox} (hreads : ∀ i, ∀ b ∈ units i, server.Reads b)
    (hapart : ∀ i j, i ≠ j → ∀ b ∈ units i, ∀ c ∈ units j, ∀ x ∈ b.names, ∀ y ∈ c.names,
      server.keyOf x ≠ server.keyOf y)
    (live : TableServer.Live) (schedule : List ι) (i : ι) :
    ((start live units).run server connectionOf schedule).logOf i =
      (aloneLog server live (connectionOf i) (units i)).take (schedule.count i) := by
  have hstart : ∀ i, ∃ w, Lockstep server (connectionOf i)
      (fun k => ∃ b ∈ units i, ∃ x ∈ b.names, k = server.keyOf x) i
      ((inTurn (connectionOf i) (units i)).outcome (server.world live)).2 0
      (start live units) w := by
    intro i
    refine ⟨server.world live, rfl, rfl, fun k _ => Iff.rfl, ?_, ?_, .inl rfl⟩
    · exact Agenda.confined_start (hreads i) fun b hb x hx => ⟨b, hb, x, hx, rfl⟩
    · rw [Agenda.inTurn_eq_finish]
      rfl
  have hkeys : ∀ i j, i ≠ j → ∀ k, (∃ b ∈ units i, ∃ x ∈ b.names, k = server.keyOf x) →
      ¬ ∃ c ∈ units j, ∃ y ∈ c.names, k = server.keyOf y := by
    rintro i j hij k ⟨b, hb, x, hx, rfl⟩ ⟨c, hc, y, hy, hk⟩
    exact hapart i j hij b hb c hc x hx y hy hk
  obtain ⟨w, hw⟩ := lockstep_run hkeys schedule hstart i
  rw [Nat.zero_add] at hw
  exact hw.logOf_eq

end SharedRun

/-- The sandboxes of a unit, all under one token. -/
def unitSandboxes (t : RunToken) (ordinal : Nat) (tables : List (List TempTable)) :
    List Sandbox :=
  tables.map fun ts => ⟨ts, .script, t.forUnit ordinal⟩

theorem exists_of_mem_names_unitSandboxes {t : RunToken} {ordinal : Nat}
    {tables : List (List TempTable)} {b : Sandbox} (hb : b ∈ unitSandboxes t ordinal tables)
    {x : String} (hx : x ∈ b.names) :
    ∃ ts ∈ tables, ∃ table ∈ ts, x = (t.forUnit ordinal).globalize table.name := by
  obtain ⟨ts, hts, rfl⟩ := List.mem_map.1 hb
  obtain ⟨table, htable, rfl⟩ := List.mem_map.1 hx
  exact ⟨ts, hts, table, htable, rfl⟩

/-- The global tables of units with ordinals of their own never have names that agree up to case,
nor does one of them with a table that is no unit's. So on one server, whatever turns the units
take, each of their statements is answered as if its unit had the server to itself. -/
theorem units_answered_as_alone (t : RunToken) {ordinal : ι → Nat}
    (hordinal : Function.Injective ordinal) (tables : ι → List (List TempTable))
    (hlocal : ∀ i, ∀ ts ∈ tables i, ∀ table ∈ ts, TempTable.IsLocalName table.name) :
    (∀ f : CaseFolding, ∀ i j, i ≠ j → ∀ b ∈ unitSandboxes t (ordinal i) (tables i),
      ∀ c ∈ unitSandboxes t (ordinal j) (tables j), ∀ x ∈ b.names, ∀ y ∈ c.names,
        f.key x ≠ f.key y) ∧
    (∀ f : CaseFolding, ∀ i, ∀ b ∈ unitSandboxes t (ordinal i) (tables i), ∀ x ∈ b.names,
      ∀ name, TempTable.IsLocalName name → f.key x ≠ f.key (t.unscoped.globalize name)) ∧
    ∀ server : TableServer,
      (∀ i, ∀ b ∈ unitSandboxes t (ordinal i) (tables i), server.Reads b) →
      ∀ (connectionOf : ι → Nat) (live : TableServer.Live) (schedule : List ι) (i : ι),
        ((SharedRun.start live fun j => unitSandboxes t (ordinal j) (tables j)).run server
            connectionOf schedule).logOf i =
          (aloneLog server live (connectionOf i) (unitSandboxes t (ordinal i) (tables i))).take
            (schedule.count i) := by
  have hapart : ∀ f : CaseFolding, ∀ i j, i ≠ j →
      ∀ b ∈ unitSandboxes t (ordinal i) (tables i), ∀ c ∈ unitSandboxes t (ordinal j) (tables j),
        ∀ x ∈ b.names, ∀ y ∈ c.names, f.key x ≠ f.key y := by
    intro f i j hij b hb c hc x hx y hy
    obtain ⟨ts, hts, table, htable, rfl⟩ := exists_of_mem_names_unitSandboxes hb hx
    obtain ⟨ts', hts', table', htable', rfl⟩ := exists_of_mem_names_unitSandboxes hc hy
    exact t.key_globalize_forUnit_ne f (hordinal.ne hij) (hlocal i ts hts table htable)
      (hlocal j ts' hts' table' htable')
  refine ⟨hapart, ?_, ?_⟩
  · intro f i b hb x hx name hname
    obtain ⟨ts, hts, table, htable, rfl⟩ := exists_of_mem_names_unitSandboxes hb hx
    exact t.key_globalize_forUnit_ne_unscoped f _ (hlocal i ts hts table htable) hname
  · intro server hreads connectionOf live schedule i
    exact SharedRun.logOf_run hreads (hapart server.folding) live schedule i

/-- A server that finds the table of a statement after the words for what it does. -/
def TableServer.byPhrase : TableServer where
  folding := .ascii
  effect := fun sql =>
    match Scripted.globalNameAfter? "CREATE TABLE" sql with
    | some name => .creates name
    | none =>
        match Scripted.globalNameAfter? "DROP TABLE" sql with
        | some name => .drops name
        | none => .none
  objection? := fun _ => none

def stagingTables : List (List TempTable) :=
  [[{ name := "#staging", definition := "CREATE TABLE #staging (Id int)" }]]

/-- Units 1 and 11 make and drop tables of the same name in turn, and no table is refused. -/
theorem staging_answered_as_alone :
    let units := fun u : Bool =>
      unitSandboxes ⟨"run42", none⟩ (if u then 11 else 1) stagingTables
    ((SharedRun.start [] units).run .byPhrase (fun _ => 0) [true, false, true, false]).logOf true =
      (aloneLog .byPhrase [] 0 (units true)).take 2 ∧
    (aloneLog .byPhrase [] 0 (units true)).map (fun x => (x.call.sql, x.refusal?)) =
      [("CREATE TABLE ##run42_11_staging (Id int)", none),
        ("IF OBJECT_ID('tempdb..##run42_11_staging') IS NOT NULL DROP TABLE ##run42_11_staging",
          none)] := by
  intro units
  have hordinal : Function.Injective fun u : Bool => if u then 11 else 1 := by
    intro u v h
    cases u <;> cases v <;> first | rfl | cases h
  have hlocal : ∀ u : Bool, ∀ ts ∈ stagingTables, ∀ table ∈ ts,
      TempTable.IsLocalName table.name := by
    intro u ts hts table htable
    obtain rfl := List.mem_singleton.1 hts
    obtain rfl := List.mem_singleton.1 htable
    exact ⟨"staging".toList, rfl, by decide⟩
  have hreads : ∀ u, ∀ b ∈ units u, TableServer.byPhrase.Reads b := by
    intro u b hb table htable
    obtain rfl := List.mem_singleton.1 hb
    obtain rfl := List.mem_singleton.1 htable
    cases u <;> decide +kernel
  refine ⟨?_, by decide +kernel⟩
  exact (units_answered_as_alone ⟨"run42", none⟩ hordinal (fun _ => stagingTables) hlocal).2.2
    .byPhrase hreads (fun _ => 0) [] [true, false, true, false] true

end QueryShape
