import QueryShape.Proofs.Isolation.Order
import QueryShape.Proofs.Traffic.Unit

namespace QueryShape

open QueryShape.Exchange
open QueryShape.Inference

namespace Sandbox

/-- Whether an exchange makes or drops a table of a sandbox. -/
def Serves (s : Sandbox) (connection : Nat) (x : Exchange) : Prop :=
  ∃ text, x.call = execution connection text ∧
    (text ∈ s.definitions ∨ ∃ name ∈ s.names, text = dropStatement name)

variable {Used : Sandbox → Prop} {s : Sandbox} {connection : Nat} {x : Exchange}

theorem Serves.connection_eq (h : s.Serves connection x) : x.call.connection = connection := by
  obtain ⟨text, hcall, -⟩ := h
  rw [hcall]
  rfl

theorem Serves.kind_ne (h : s.Serves connection x) : x.call.kind ≠ .describe := by
  obtain ⟨text, hcall, -⟩ := h
  rw [hcall]
  exact nofun

theorem Serves.tableText (hs : Used s) (h : s.Serves connection x) :
    TableText Used x.call.sql := by
  obtain ⟨text, hcall, htext⟩ := h
  rw [hcall]
  rcases htext with htext | ⟨name, hname, rfl⟩
  · exact .definition hs htext
  · exact .drop hs hname

theorem dropStatement_ne_rollback (name : String) : dropStatement name ≠ rollback := by
  unfold dropStatement
  rw [String.append_assoc, String.append_assoc]
  exact append_ne_of_front (by decide +kernel)

theorem Serves.rollback_mem (h : s.Serves connection x) (hx : x.call.sql = rollback) :
    rollback ∈ s.definitions := by
  obtain ⟨text, hcall, htext⟩ := h
  rw [hcall] at hx
  obtain rfl : text = rollback := hx
  rcases htext with htext | ⟨name, -, hdrop⟩
  · exact htext
  · exact absurd hdrop.symm (dropStatement_ne_rollback name)

theorem Traffic.exists_frame {Work : List Exchange → Prop} {made : List Exchange}
    (h : s.Traffic connection Work made) : ∃ front work back, made = front ++ (work ++ back) ∧
      (Work work ∨ work = []) ∧ (∀ x ∈ front, s.Serves connection x) ∧
      ∀ x ∈ back, s.Serves connection x := by
  cases h with
  | @worked work dropped hwork hdropped =>
      refine ⟨_, work, dropped, rfl, .inl hwork, ?_, ?_⟩
      · exact List.forall_mem_map.2 fun definition hdefinition =>
          ⟨definition, rfl, .inl hdefinition⟩
      · intro x hx
        obtain ⟨name, hname, hcall⟩ := exists_of_map_call_eq hdropped x hx
        exact ⟨_, hcall, .inr ⟨name, hname, rfl⟩⟩
  | @refused made definition name rest e dropped hsteps hdropped =>
      have hmem (t : String × String) (ht : t ∈ made ++ (definition, name) :: rest) :
          t.1 ∈ s.definitions ∧ t.2 ∈ s.names := by
        rw [← hsteps] at ht
        exact List.of_mem_zip ht
      refine ⟨_, [], [], (List.append_nil _).symm, .inr rfl,
        List.forall_mem_append.2 ⟨?_, List.forall_mem_cons.2 ⟨?_, ?_⟩⟩, List.forall_mem_nil _⟩
      · exact List.forall_mem_map.2 fun t ht =>
          ⟨t.1, rfl, .inl (hmem t (List.mem_append_left _ ht)).1⟩
      · exact ⟨definition, rfl, .inl (hmem (definition, name) (by simp)).1⟩
      · intro x hx
        obtain ⟨t, ht, hcall⟩ := exists_of_map_call_eq hdropped x hx
        exact ⟨_, hcall, .inr ⟨t.2, (hmem t (List.mem_append_left _ ht)).2, rfl⟩⟩

end Sandbox

namespace Confined

variable {Used : Sandbox → Prop} {connection : Nat} {log : List Exchange}

theorem of_serves {s : Sandbox} (hs : Used s) (h : ∀ x ∈ log, s.Serves connection x) :
    Confined Used connection log := by
  constructor
  · intro x hx
    exact (h x hx).connection_eq
  · intro x hx _
    exact .table ((h x hx).tableText hs)

theorem of_traffic {s : Sandbox} {Work : List Exchange → Prop} (hs : Used s)
    (h : s.Traffic connection Work log)
    (hWork : ∀ work, Work work → Confined Used connection work) :
    Confined Used connection log := by
  obtain ⟨front, work, back, rfl, hwork, hfront, hback⟩ := h.exists_frame
  refine (of_serves hs hfront).append (append ?_ (of_serves hs hback))
  rcases hwork with hwork | rfl
  · exact hWork work hwork
  · exact nil

end Confined

theorem RestoresSchema.of_traffic {s : Sandbox} {connection : Nat} {Work : List Exchange → Prop}
    {log : List Exchange} (h : s.Traffic connection Work log)
    (hWork : ∀ work, Work work → RestoresSchema work) : RestoresSchema log := by
  obtain ⟨front, work, back, rfl, hwork, hfront, hback⟩ := h.exists_frame
  refine (restoresSchema_of_undescribed fun x hx => (hfront x hx).kind_ne).append
    (RestoresSchema.append ?_ (restoresSchema_of_undescribed fun x hx => (hback x hx).kind_ne))
  rcases hwork with hwork | rfl
  · exact hWork work hwork
  · exact restoresSchema_nil

theorem RunsOnce.of_traffic {s : Sandbox} {connection : Nat} {Work : List Exchange → Prop}
    {Used : Sandbox → Prop} {stray : Prop} {log : List Exchange} (hs : Used s)
    (hstray : rollback ∈ s.definitions → stray) (h : s.Traffic connection Work log)
    (hWork : ∀ work, Work work → RunsOnce Used stray work) : RunsOnce Used stray log := by
  have hserves {l : List Exchange} (hl : ∀ x ∈ l, s.Serves connection x) :
      RunsOnce Used stray l := by
    apply of_undescribed
    · intro x hx
      exact (hl x hx).kind_ne
    · intro x hx _
      exact (hl x hx).tableText hs
    · intro x hx hrollback
      exact hstray ((hl x hx).rollback_mem hrollback)
  obtain ⟨front, work, back, rfl, hwork, hfront, hback⟩ := h.exists_frame
  refine (hserves hfront).append ?_ (.inl fun x hx => (hfront x hx).kind_ne)
  refine append ?_ (hserves hback) (.inr fun x hx => (hback x hx).kind_ne)
  rcases hwork with hwork | rfl
  · exact hWork work hwork
  · exact hserves (List.forall_mem_nil _)

namespace Inference.Command

variable {Used : Sandbox → Prop} {stray : Prop} {Shared : Nat → Prop} {c : Command}
  {token : RunToken} {connection n m : Nat} {made work : List Exchange}

theorem CatalogWork.kind_eq (h : c.CatalogWork connection work) :
    ∀ x ∈ work, x.call.connection = connection ∧ x.call.kind = .query := by
  obtain ⟨r, rfl⟩ := h
  refine List.forall_mem_singleton.2 ?_
  unfold catalogRequest
  split
  · exact ⟨rfl, rfl⟩
  · exact ⟨rfl, rfl⟩

theorem CatalogWork.confined (h : c.CatalogWork connection work) :
    Confined Used connection work := by
  constructor
  · intro x hx
    exact (h.kind_eq x hx).1
  · intro x hx hkind
    cases (h.kind_eq x hx).2.symm.trans hkind

theorem CatalogWork.restoresSchema (h : c.CatalogWork connection work) : RestoresSchema work := by
  apply restoresSchema_of_undescribed
  intro x hx hkind
  cases (h.kind_eq x hx).2.symm.trans hkind

theorem SchemaWork.confined (h : c.SchemaWork connection work) :
    Confined Used connection work := by
  obtain ⟨r, reset, rfl⟩ := h
  have hask : Confined Used connection [⟨c.schemaRequest connection, r⟩] := .singleton rfl nofun
  have hreset : Confined Used connection [⟨execution connection "SET FMTONLY OFF", reset⟩] :=
    .singleton rfl fun _ => .resetSchema
  exact hask.append hreset

theorem SchemaWork.restoresSchema (h : c.SchemaWork connection work) : RestoresSchema work := by
  obtain ⟨r, reset, rfl⟩ := h
  intro before x after hsplit hkind
  rcases before with _ | ⟨y, _ | ⟨z, before⟩⟩
  · obtain ⟨rfl, rfl⟩ := List.cons.inj hsplit
    exact ⟨⟨c.executable, rfl⟩, rfl⟩
  · obtain ⟨-, hreset⟩ := List.cons.inj hsplit
    obtain ⟨rfl, -⟩ := List.cons.inj hreset
    cases hkind
  · obtain ⟨-, hnone⟩ := List.cons.inj (List.cons.inj hsplit).2
    exact absurd hnone (by simp)

theorem RowWork.confined (h : c.RowWork connection work) : Confined Used connection work := by
  obtain ⟨r, rfl⟩ := h
  exact .singleton rfl nofun

theorem RowWork.runsOnce (h : c.RowWork connection work) : RunsOnce Used stray work := by
  obtain ⟨r, rfl⟩ := h
  constructor
  · exact List.forall_mem_singleton.2 fun _ => ⟨c.executable, rfl⟩
  · exact List.forall_mem_singleton.2 nofun
  · exact List.countP_le_length
  · refine List.forall_mem_singleton.2 fun hrollback => absurd hrollback ?_
    exact append_ne_of_front (by decide +kernel)

theorem dedicated_of_transaction {s : Sandbox} {Work : List Exchange → Prop}
    (hs : Used s) (hstray : rollback ∈ s.definitions → stray)
    (h : Transaction connection (s.Traffic connection Work) made)
    (hconfined : ∀ work, Work work → Confined Used connection work)
    (honce : ∀ work, Work work → RunsOnce Used stray work) :
    Confined Used connection (⟨opening connection, none⟩ :: made) ∧
      Dedicated Used stray connection (⟨opening connection, none⟩ :: made) := by
  have hopening : Confined Used connection [⟨opening connection, none⟩] := .singleton rfl nofun
  have hstart (refusal? : Option ServerError) :
      Confined Used connection [⟨execution connection "BEGIN TRANSACTION", refusal?⟩] :=
    .singleton rfl fun _ => .start
  cases h with
  | unstarted e => exact ⟨hopening.append (hstart (some e)), .unstarted e⟩
  | rolledBack refusal? hwork =>
      have hback : Confined Used connection [⟨execution connection rollback, refusal?⟩] :=
        .singleton rfl fun _ => .rollback
      constructor
      · exact hopening.append ((hstart none).append
          ((Confined.of_traffic hs hwork hconfined).append hback))
      · exact .rolledBack refusal? (.of_traffic hs hstray hwork honce)

theorem Attempt.orderly {strategy : Strategy} (hs : Used (c.sandbox token))
    (hstray : rollback ∈ (c.sandbox token).definitions → stray)
    (hconnection : Shared connection) (hshared : ∀ d, Shared d → d ≤ n)
    (h : c.Attempt token connection strategy n made m) :
    Orderly Used stray Shared n made m := by
  cases h with
  | catalog htraffic =>
      have hconfined := Confined.of_traffic hs htraffic fun _ => CatalogWork.confined
      exact .of_shared hconnection hconfined
        (.of_traffic htraffic fun _ => CatalogWork.restoresSchema)
  | schemaOnly htraffic =>
      have hconfined := Confined.of_traffic hs htraffic fun _ => SchemaWork.confined
      exact .of_shared hconnection hconfined
        (.of_traffic htraffic fun _ => SchemaWork.restoresSchema)
  | unavailable => exact .nil n
  | unopened _ e =>
      have hconfined : Confined Used (n + 1) [⟨opening (n + 1), some e⟩] := .singleton rfl nofun
      exact .of_dedicated hshared hconfined (.unopened e)
  | isolated htransaction =>
      obtain ⟨hconfined, hdedicated⟩ := dedicated_of_transaction hs hstray htransaction
        (fun _ => RowWork.confined) fun _ => RowWork.runsOnce
      exact .of_dedicated hshared hconfined hdedicated

theorem Traffic.orderly (hs : Used (c.sandbox token))
    (hstray : rollback ∈ (c.sandbox token).definitions → stray)
    (hconnection : Shared connection) (hshared : ∀ d, Shared d → d ≤ n)
    (h : c.Traffic token connection n made m) : Orderly Used stray Shared n made m := by
  obtain ⟨tried, -, hchain⟩ := h
  refine .of_chain hchain hshared ?_
  intro strategy _ n made m hshared hattempt
  exact hattempt.orderly hs hstray hconnection hshared

end Inference.Command

/-- The sandbox holds temp tables of the unit, under the unit's token. -/
def ModelUnit.Uses (u : ModelUnit) (token : RunToken) (s : Sandbox) : Prop :=
  s.token = token ∧ ∀ t ∈ s.tables, t.texts ∈ u.tempTables.map TempTable.texts

namespace ModelUnit

variable {Used : Sandbox → Prop} {stray : Prop} {Shared : Nat → Prop} {types : TypeCatalog}
  {rule : EffectiveRule} {token : RunToken} {connection n m : Nat} {u : ModelUnit}
  {made : List Exchange}

theorem uses_tempTable {t : TempTable} (ht : t ∈ u.tempTables) :
    u.Uses token ((Command.ofUnit token {} (.tempTable t)).sandbox token) := by
  refine ⟨rfl, ?_⟩
  exact List.forall_mem_singleton.2 (List.mem_map_of_mem ht)

theorem uses_withParameters {ps : List Parameter} {s : Sandbox} :
    (u.withParameters ps).Uses token s ↔ u.Uses token s := by
  unfold Uses
  rw [tempTables_withParameters]

theorem uses_withTempTables {ts : List TempTable}
    (h : ts.map TempTable.texts = u.tempTables.map TempTable.texts) :
    u.Uses token ((Command.ofUnit token rule (u.withTempTables ts).executable).sandbox token) := by
  refine ⟨rfl, ?_⟩
  intro t ht
  rw [← h]
  refine List.mem_map_of_mem ?_
  cases u with
  | procedure p => exact ht
  | script s => exact ht

theorem ParameterTraffic.orderly (hconnection : Shared connection)
    (h : u.ParameterTraffic types rule token connection made) :
    Orderly Used stray Shared n made n := by
  cases u with
  | procedure p =>
      obtain rfl := h
      exact .nil n
  | script s =>
      cases h with
      | unasked => exact .nil n
      | asked declarations refusal? _ =>
          have hconfined : Confined Used connection
              [⟨⟨connection, .query, describeParameters,
                [token.globalize (declarations ++ s.text)]⟩, refusal?⟩] := .singleton rfl nofun
          refine .of_shared hconnection hconfined ?_
          exact restoresSchema_of_undescribed (List.forall_mem_singleton.2 nofun)

theorem orderly_of_uses {c : Command} (huses : u.Uses token (c.sandbox token))
    (hused : ∀ s, u.Uses token s → Used s)
    (hstray : ∀ s, Used s → rollback ∈ s.definitions → stray) (hconnection : Shared connection)
    (hshared : ∀ d, Shared d → d ≤ n) (h : c.Traffic token connection n made m) :
    Orderly Used stray Shared n made m :=
  h.orderly (hused _ huses) (hstray _ (hused _ huses)) hconnection hshared

theorem orderly_of_tempTables {ts : List TempTable} (hts : ts ⊆ u.tempTables)
    (hused : ∀ s, u.Uses token s → Used s)
    (hstray : ∀ s, Used s → rollback ∈ s.definitions → stray) (hconnection : Shared connection)
    (hshared : ∀ d, Shared d → d ≤ n)
    (h : Chain (TempTable.Traffic token connection) ts n made m) :
    Orderly Used stray Shared n made m := by
  refine .of_chain h hshared ?_
  intro t ht n made m hshared htable
  exact orderly_of_uses (uses_tempTable (hts ht)) hused hstray hconnection hshared htable

theorem ColumnTraffic.orderly (hused : ∀ s, u.Uses token s → Used s)
    (hstray : ∀ s, Used s → rollback ∈ s.definitions → stray) (hconnection : Shared connection)
    (hshared : ∀ d, Shared d → d ≤ n) (h : u.ColumnTraffic rule token connection n made m) :
    Orderly Used stray Shared n made m := by
  cases h with
  | unasked => exact .nil n
  | asked htexts hasked =>
      exact orderly_of_uses (uses_withTempTables htexts) hused hstray hconnection hshared hasked

theorem Traffic.orderly {l : UnitLog}
    (hused : ∀ attached s, u.withRuleTables rule = .ok attached → attached.Uses token s → Used s)
    (hstray : ∀ s, Used s → rollback ∈ s.definitions → stray)
    (hconnection : Shared connection) (hshared : ∀ d, Shared d → d ≤ n)
    (h : u.Traffic types rule token connection n l m) :
    Orderly Used stray Shared n l.all m := by
  obtain ⟨parameters, tempTables, columns⟩ := l
  cases h with
  | faulty => exact .nil n
  | @attached attached ps _ _ _ hattached hparameters hshape =>
      cases hshape with
      | mk hreached htables hcolumns =>
          have hused' (s : Sandbox) (hs : (attached.withParameters ps).Uses token s) : Used s :=
            hused attached s hattached (uses_withParameters.1 hs)
          have htables := orderly_of_tempTables hreached.subset hused' hstray hconnection hshared
            htables
          refine (ParameterTraffic.orderly hconnection hparameters).append hshared
            (htables.append hshared (hcolumns.orderly hused' hstray hconnection ?_))
          intro d hd
          exact Nat.le_trans (hshared d hd) htables.le

end ModelUnit

end QueryShape
