import QueryShape.Proofs.Traffic.Sandbox

/-!
Logs that leave things as they were. A setting that a description needs is taken back by the next
request on the connection; or else a text is run on a connection of its own, in a transaction that
is rolled back. Logs of work after work are put together from those of the parts, since connections
that are opened get new numbers.
-/

namespace QueryShape

open QueryShape.Exchange

/-- The texts that make and drop the tables of some sandboxes. -/
inductive TableText (Used : Sandbox → Prop) : String → Prop
  | definition {s : Sandbox} {text : String} :
      Used s → text ∈ s.definitions → TableText Used text
  | drop {s : Sandbox} {name : String} :
      Used s → name ∈ s.names → TableText Used (Sandbox.dropStatement name)

/-- The texts that are executed around descriptions. -/
inductive Service (Used : Sandbox → Prop) : String → Prop
  | table {text : String} : TableText Used text → Service Used text
  | start : Service Used "BEGIN TRANSACTION"
  | rollback : Service Used rollback
  | resetSchema : Service Used "SET FMTONLY OFF"

/-- Whether every description asks for the shape of results only, with a setting that the next
request takes back. -/
def RestoresSchema (log : List Exchange) : Prop :=
  ∀ before x after, log = before ++ x :: after → x.call.kind = .describe →
    (∃ text, x.call.sql = "SET FMTONLY ON;\n" ++ text) ∧
      after.head?.map (·.call) = some (execution x.call.connection "SET FMTONLY OFF")

/-- Whether at most one text is run, for one row, and all that is executed makes and drops tables,
which is never a rollback but in a stray case. -/
structure RunsOnce (Used : Sandbox → Prop) (stray : Prop) (work : List Exchange) : Prop where
  text : ∀ x ∈ work, x.call.kind = .describe → ∃ text, x.call.sql = "SET ROWCOUNT 1;\n" ++ text
  tables : ∀ x ∈ work, x.call.kind = .execute → TableText Used x.call.sql
  once : work.countP (fun x => x.call.kind = .describe) ≤ 1
  kept : ∀ x ∈ work, x.call.sql = rollback → stray

/-- The exchanges on a connection that is opened for one run of a text. -/
inductive Dedicated (Used : Sandbox → Prop) (stray : Prop) (connection : Nat) :
    List Exchange → Prop
  | unopened (e : ServerError) : Dedicated Used stray connection [⟨opening connection, some e⟩]
  | unstarted (e : ServerError) :
      Dedicated Used stray connection
        [⟨opening connection, none⟩, ⟨execution connection "BEGIN TRANSACTION", some e⟩]
  | rolledBack {work : List Exchange} (refusal? : Option ServerError) :
      RunsOnce Used stray work →
      Dedicated Used stray connection
        (⟨opening connection, none⟩ :: Exchange.granted connection "BEGIN TRANSACTION" ::
          (work ++ [⟨execution connection rollback, refusal?⟩]))

theorem append_ne_of_front {front rest text : String} (h : ¬ front.toList <+: text.toList) :
    front ++ rest ≠ text := by
  rintro rfl
  rw [String.toList_append] at h
  exact h (List.prefix_append _ _)

theorem restoresSchema_of_undescribed {log : List Exchange}
    (h : ∀ x ∈ log, x.call.kind ≠ .describe) : RestoresSchema log := by
  rintro before x after rfl hkind
  exact absurd hkind (h x (by simp))

theorem restoresSchema_nil : RestoresSchema [] :=
  restoresSchema_of_undescribed (List.forall_mem_nil _)

theorem RestoresSchema.append {log more : List Exchange} (h : RestoresSchema log)
    (hmore : RestoresSchema more) : RestoresSchema (log ++ more) := by
  intro before x after hsplit hkind
  rcases append_eq_split hsplit with ⟨rest, hlog, rfl⟩ | ⟨front, -, hfront⟩
  · obtain ⟨htext, hnext⟩ := h before x rest hlog hkind
    refine ⟨htext, ?_⟩
    cases rest with
    | nil => cases hnext
    | cons y rest => exact hnext
  · exact hmore front x after hfront hkind

/-- Whether exchanges are on a connection and execute nothing but service texts. -/
structure Confined (Used : Sandbox → Prop) (connection : Nat) (log : List Exchange) : Prop where
  connection : ∀ x ∈ log, x.call.connection = connection
  texts : ∀ x ∈ log, x.call.kind = .execute → Service Used x.call.sql

namespace Confined

variable {Used : Sandbox → Prop} {connection : Nat} {log more : List Exchange}

theorem append (h : Confined Used connection log) (hmore : Confined Used connection more) :
    Confined Used connection (log ++ more) := by
  constructor
  · exact List.forall_mem_append.2 ⟨h.connection, hmore.connection⟩
  · exact List.forall_mem_append.2 ⟨h.texts, hmore.texts⟩

theorem nil : Confined Used connection [] := by
  constructor
  · exact List.forall_mem_nil _
  · exact List.forall_mem_nil _

theorem singleton {x : Exchange} (hconnection : x.call.connection = connection)
    (htext : x.call.kind = .execute → Service Used x.call.sql) :
    Confined Used connection [x] := by
  constructor
  · exact List.forall_mem_singleton.2 hconnection
  · exact List.forall_mem_singleton.2 htext

end Confined

namespace RunsOnce

variable {Used : Sandbox → Prop} {stray : Prop} {log more : List Exchange}

theorem countP_describe_eq_zero (hkind : ∀ x ∈ log, x.call.kind ≠ .describe) :
    log.countP (fun x => x.call.kind = .describe) = 0 := by
  apply List.countP_eq_zero.2
  intro x hx
  rw [decide_eq_true_eq]
  exact hkind x hx

theorem of_undescribed (hkind : ∀ x ∈ log, x.call.kind ≠ .describe)
    (htables : ∀ x ∈ log, x.call.kind = .execute → TableText Used x.call.sql)
    (hkept : ∀ x ∈ log, x.call.sql = rollback → stray) : RunsOnce Used stray log where
  text := fun x hx h => absurd h (hkind x hx)
  tables := htables
  once := by
    rw [countP_describe_eq_zero hkind]
    exact Nat.zero_le 1
  kept := hkept

theorem append (h : RunsOnce Used stray log) (hmore : RunsOnce Used stray more)
    (hquiet : (∀ x ∈ log, x.call.kind ≠ .describe) ∨ ∀ x ∈ more, x.call.kind ≠ .describe) :
    RunsOnce Used stray (log ++ more) where
  text := List.forall_mem_append.2 ⟨h.text, hmore.text⟩
  tables := List.forall_mem_append.2 ⟨h.tables, hmore.tables⟩
  once := by
    rw [List.countP_append]
    rcases hquiet with hquiet | hquiet
    · rw [countP_describe_eq_zero hquiet, Nat.zero_add]
      exact hmore.once
    · rw [countP_describe_eq_zero hquiet]
      exact h.once
  kept := List.forall_mem_append.2 ⟨h.kept, hmore.kept⟩

end RunsOnce

/-- The log of work that leaves everything as it was, where some connections are shared and those
numbered after `n` up to `m` are opened on the way. -/
structure Orderly (Used : Sandbox → Prop) (stray : Prop) (Shared : Nat → Prop) (n : Nat)
    (made : List Exchange) (m : Nat) : Prop where
  le : n ≤ m
  connections : ∀ x ∈ made, Shared x.call.connection ∨
    n < x.call.connection ∧ x.call.connection ≤ m
  texts : ∀ x ∈ made, x.call.kind = .execute → Service Used x.call.sql
  restores : ∀ d, Shared d → RestoresSchema (onConnection d made)
  dedicated : ∀ d, n < d → d ≤ m → Dedicated Used stray d (onConnection d made)

namespace Orderly

variable {Used : Sandbox → Prop} {stray : Prop} {Shared : Nat → Prop} {n k m : Nat}
  {made more : List Exchange}

theorem nil (n : Nat) : Orderly Used stray Shared n [] n where
  le := Nat.le_refl n
  connections := List.forall_mem_nil _
  texts := List.forall_mem_nil _
  restores := fun _ _ => restoresSchema_nil
  dedicated := fun _ hlow hhigh => absurd (Nat.lt_of_lt_of_le hlow hhigh) (Nat.lt_irrefl n)

theorem onConnection_eq_nil_of_not_shared {d : Nat} (h : Orderly Used stray Shared n made m)
    (hd : ¬ Shared d) (hrange : ¬ (n < d ∧ d ≤ m)) : onConnection d made = [] := by
  apply onConnection_eq_nil
  rintro x hx rfl
  rcases h.connections x hx with hshared | hopened
  · exact hd hshared
  · exact hrange hopened

/-- A connection that is not shared belongs to one of two pieces of work, since the second opens
connections with higher numbers than the first. -/
theorem append (hshared : ∀ d, Shared d → d ≤ n) (h : Orderly Used stray Shared n made k)
    (hmore : Orderly Used stray Shared k more m) :
    Orderly Used stray Shared n (made ++ more) m where
  le := Nat.le_trans h.le hmore.le
  connections := by
    intro x hx
    have hle := h.le
    have hle' := hmore.le
    rcases List.mem_append.1 hx with hx | hx
    · rcases h.connections x hx with hs | ⟨hlow, hhigh⟩
      · exact .inl hs
      · exact .inr ⟨hlow, by omega⟩
    · rcases hmore.connections x hx with hs | ⟨hlow, hhigh⟩
      · exact .inl hs
      · exact .inr ⟨by omega, hhigh⟩
  texts := List.forall_mem_append.2 ⟨h.texts, hmore.texts⟩
  restores := by
    intro d hd
    rw [onConnection_append]
    exact (h.restores d hd).append (hmore.restores d hd)
  dedicated := by
    intro d hlow hhigh
    -- No piece of work touches the connections that the other one opens.
    have hunshared : ¬ Shared d := fun hd => by
      have := hshared d hd
      omega
    rw [onConnection_append]
    by_cases hd : d ≤ k
    · rw [hmore.onConnection_eq_nil_of_not_shared hunshared (by omega), List.append_nil]
      exact h.dedicated d hlow hd
    · rw [h.onConnection_eq_nil_of_not_shared hunshared (by omega), List.nil_append]
      exact hmore.dedicated d (by omega) hhigh

theorem of_shared {connection : Nat} (hshared : Shared connection)
    (h : Confined Used connection made) (hrestores : RestoresSchema made) :
    Orderly Used stray Shared n made n where
  le := Nat.le_refl n
  connections := by
    intro x hx
    rw [h.connection x hx]
    exact .inl hshared
  texts := h.texts
  restores := by
    intro d hd
    by_cases heq : d = connection
    · subst heq
      rwa [onConnection_eq_self h.connection]
    · rw [onConnection_eq_nil]
      · exact restoresSchema_nil
      · intro x hx
        rw [h.connection x hx]
        exact fun h' => heq h'.symm
  dedicated := fun _ hlow hhigh => absurd (Nat.lt_of_lt_of_le hlow hhigh) (Nat.lt_irrefl n)

theorem of_dedicated (hshared : ∀ d, Shared d → d ≤ n)
    (h : Confined Used (n + 1) made) (hdedicated : Dedicated Used stray (n + 1) made) :
    Orderly Used stray Shared n made (n + 1) where
  le := Nat.le_succ n
  connections := by
    intro x hx
    rw [h.connection x hx]
    exact .inr ⟨Nat.lt_succ_self n, Nat.le_refl _⟩
  texts := h.texts
  restores := by
    intro d hd
    rw [onConnection_eq_nil]
    · exact restoresSchema_nil
    · intro x hx
      rw [h.connection x hx]
      have := hshared d hd
      omega
  dedicated := by
    intro d hlow hhigh
    obtain rfl : d = n + 1 := by omega
    rwa [onConnection_eq_self h.connection]

theorem of_chain {ι : Type} {Step : ι → Nat → List Exchange → Nat → Prop} {is : List ι}
    (h : Chain Step is n made m) (hshared : ∀ d, Shared d → d ≤ n)
    (hstep : ∀ i ∈ is, ∀ {n made m}, (∀ d, Shared d → d ≤ n) → Step i n made m →
      Orderly Used stray Shared n made m) : Orderly Used stray Shared n made m := by
  induction h with
  | nil n => exact nil n
  | cons hfirst _ ih =>
      have hhead := hstep _ List.mem_cons_self hshared hfirst
      refine hhead.append hshared (ih ?_ ?_)
      · intro d hd
        exact Nat.le_trans (hshared d hd) hhead.le
      · intro i hi
        exact hstep i (List.mem_cons_of_mem _ hi)

end Orderly

end QueryShape
