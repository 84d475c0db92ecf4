import QueryShape.Server.Session

/-!
What work adds to the log of requests. A piece of work is judged by the exchanges it makes, its
value and the number of connections opened after it, for every server and every state of it.
-/

namespace QueryShape

variable {σ α β ι : Type}

namespace Exchange

def execution (connection : Nat) (sql : String) : Call :=
  ⟨connection, .execute, sql, []⟩

/-- The request for a connection with a number. -/
def opening (connection : Nat) : Call :=
  ⟨connection, .connect, "", []⟩

end Exchange

/-- What a log has of one connection. -/
def onConnection (connection : Nat) (log : List Exchange) : List Exchange :=
  log.filter fun x => x.call.connection = connection

theorem onConnection_append (connection : Nat) (log more : List Exchange) :
    onConnection connection (log ++ more) =
      onConnection connection log ++ onConnection connection more :=
  List.filter_append log more

theorem onConnection_eq_self {connection : Nat} {log : List Exchange}
    (h : ∀ x ∈ log, x.call.connection = connection) : onConnection connection log = log := by
  apply List.filter_eq_self.2
  intro x hx
  exact decide_eq_true (h x hx)

theorem onConnection_eq_nil {connection : Nat} {log : List Exchange}
    (h : ∀ x ∈ log, x.call.connection ≠ connection) : onConnection connection log = [] := by
  apply List.filter_eq_nil_iff.2
  intro x hx
  rw [decide_eq_true_eq]
  exact h x hx

theorem exists_of_map_call_eq {log : List Exchange} {items : List ι} {f : ι → Call}
    (h : log.map (·.call) = items.map f) : ∀ x ∈ log, ∃ i ∈ items, x.call = f i := by
  intro x hx
  have hcall : x.call ∈ items.map f := by
    rw [← h]
    exact List.mem_map_of_mem hx
  obtain ⟨i, hi, hfi⟩ := List.mem_map.1 hcall
  exact ⟨i, hi, hfi.symm⟩

theorem append_eq_split {log more before after : List ι} {x : ι}
    (h : log ++ more = before ++ x :: after) :
    (∃ rest, log = before ++ x :: rest ∧ after = rest ++ more) ∨
      ∃ front, before = log ++ front ∧ more = front ++ x :: after := by
  rcases List.append_eq_append_iff.1 h with ⟨front, hbefore, hmore⟩ | ⟨rest, hlog, hrest⟩
  · exact .inr ⟨front, hbefore, hmore⟩
  · cases rest with
    | nil => exact .inr ⟨[], by simp [hlog], hrest.symm⟩
    | cons y rest =>
        obtain ⟨rfl, rfl⟩ := List.cons.inj hrest
        exact .inl ⟨rest, hlog, rfl⟩

open QueryShape.Exchange

namespace Dialogue

/-- Whatever the server answers, work that starts after `n` connections were asked for adds
exchanges to the log that satisfy `P`, together with its value and the number of connections asked
for in the end. -/
def Ensures (n : Nat) (x : Dialogue σ α) (P : List Exchange → α → Nat → Prop) : Prop :=
  ∀ w : World σ, w.opened = n → ∃ made,
    (x.outcome w).2.exchanges = w.exchanges ++ made ∧
      P made (x.outcome w).1 (x.outcome w).2.opened

theorem outcome_bind (x : Dialogue σ α) (f : α → Dialogue σ β) (w : World σ) :
    (x >>= f).outcome w = (f (x.outcome w).1).outcome (x.outcome w).2 :=
  rfl

theorem Ensures.mono {n : Nat} {x : Dialogue σ α} {P Q : List Exchange → α → Nat → Prop}
    (h : x.Ensures n P) (hPQ : ∀ made a m, P made a m → Q made a m) : x.Ensures n Q := by
  intro w hw
  obtain ⟨made, hlog, hP⟩ := h w hw
  exact ⟨made, hlog, hPQ _ _ _ hP⟩

theorem Ensures.and {n : Nat} {x : Dialogue σ α} {P Q : List Exchange → α → Nat → Prop}
    (hP : x.Ensures n P) (hQ : x.Ensures n Q) :
    x.Ensures n fun made a m => P made a m ∧ Q made a m := by
  intro w hw
  obtain ⟨made, hlog, hP⟩ := hP w hw
  obtain ⟨made', hlog', hQ⟩ := hQ w hw
  obtain rfl := List.append_cancel_left (hlog.symm.trans hlog')
  exact ⟨made, hlog, hP, hQ⟩

theorem ensures_pure {n : Nat} {a : α} {P : List Exchange → α → Nat → Prop} (h : P [] a n) :
    Ensures n (pure a : Dialogue σ α) P := by
  rintro w rfl
  exact ⟨[], (List.append_nil _).symm, h⟩

theorem Ensures.bind {n : Nat} {x : Dialogue σ α} {f : α → Dialogue σ β}
    {P : List Exchange → α → Nat → Prop} {Q : List Exchange → β → Nat → Prop}
    (hx : x.Ensures n P)
    (hf : ∀ made a k, P made a k → (f a).Ensures k fun more b m => Q (made ++ more) b m) :
    (x >>= f).Ensures n Q := by
  intro w hw
  obtain ⟨made, hlog, hP⟩ := hx w hw
  obtain ⟨more, hlog', hQ⟩ := hf made _ _ hP (x.outcome w).2 rfl
  refine ⟨made ++ more, ?_, hQ⟩
  rw [← List.append_assoc, ← hlog]
  exact hlog'

theorem ensures_call {n : Nat} (made : Call) (answer : Server σ → σ → Answer α × σ) :
    Ensures n (call made answer) fun added a m => added = [⟨made, refusal? a⟩] ∧ m = n := by
  rintro w rfl
  exact ⟨_, rfl, rfl, rfl⟩

theorem ensures_execute {n : Nat} (connection : Nat) (sql : String) :
    Ensures n (execute connection sql : Dialogue σ (Answer Unit)) fun added a m =>
      added = [⟨execution connection sql, refusal? a⟩] ∧ m = n :=
  ensures_call _ _

theorem outcome_connect (w : World σ) :
    connect.outcome w =
      let answer := w.server.connect (w.opened + 1) w.state
      (answer.1.map fun _ => w.opened + 1,
        { w with
          state := answer.2
          exchanges := w.exchanges ++ [⟨opening (w.opened + 1), refusal? answer.1⟩]
          opened := w.opened + 1 }) :=
  rfl

theorem ensures_connect {n : Nat} :
    Ensures n (connect : Dialogue σ (Answer Nat)) fun added a m =>
      added = [⟨opening (n + 1), refusal? a⟩] ∧ m = n + 1 ∧ ∀ d, a = .ok d → d = n + 1 := by
  rintro w rfl
  rw [outcome_connect]
  rcases w.server.connect (w.opened + 1) w.state with ⟨answer, state⟩
  cases answer with
  | error e => exact ⟨_, rfl, rfl, rfl, fun d hd => nomatch hd⟩
  | ok a => exact ⟨_, rfl, rfl, rfl, fun d hd => (Except.ok.inj hd).symm⟩

end Dialogue

/-- Exchanges of steps that each belong to an item, one item after the other. The numbers of
connections asked for before and after are handed on. -/
inductive Chain (Step : ι → Nat → List Exchange → Nat → Prop) :
    List ι → Nat → List Exchange → Nat → Prop
  | nil (n : Nat) : Chain Step [] n [] n
  | cons {i : ι} {rest : List ι} {n k m : Nat} {made more : List Exchange} :
      Step i n made k → Chain Step rest k more m → Chain Step (i :: rest) n (made ++ more) m

namespace Dialogue

theorem ensures_mapM {Step : ι → Nat → List Exchange → Nat → Prop} {f : ι → Dialogue σ β}
    (hf : ∀ i n, (f i).Ensures n fun made _ m => Step i n made m) (is : List ι) (n : Nat) :
    Ensures n (is.mapM f) fun made _ m => Chain Step is n made m := by
  induction is generalizing n with
  | nil => exact ensures_pure (.nil n)
  | cons i rest ih =>
      rw [List.mapM_cons]
      refine (hf i n).bind fun made _ k hstep => ?_
      refine (ih k).bind fun more _ m hrest => ensures_pure ?_
      rw [List.append_nil]
      exact .cons hstep hrest

end Dialogue

namespace Session

/-- What a session ensures, of its value or of the failure that ends it. -/
def Ensures (n : Nat) (x : Session σ α) (P : List Exchange → Except Failure α → Nat → Prop) :
    Prop :=
  Dialogue.Ensures n x.run P

variable {n : Nat} {P Q : List Exchange → Except Failure α → Nat → Prop}

theorem outcome_bind (x : Session σ α) (f : α → Session σ β) (w : World σ) :
    (x >>= f).outcome w = match x.outcome w with
      | (.ok a, v) => (f a).outcome v
      | (.error e, v) => (.error e, v) := by
  change Dialogue.outcome (x.run >>= ExceptT.bindCont f) w = _
  rw [Dialogue.outcome_bind]
  unfold outcome
  rcases Dialogue.outcome x.run w with ⟨r, v⟩
  cases r with
  | ok a => rfl
  | error e => rfl

theorem Ensures.mono {x : Session σ α} (h : x.Ensures n P)
    (hPQ : ∀ made a m, P made a m → Q made a m) : x.Ensures n Q :=
  Dialogue.Ensures.mono h hPQ

theorem ensures_pure {a : α} (h : P [] (.ok a) n) : Ensures n (pure a : Session σ α) P :=
  Dialogue.ensures_pure h

theorem ensures_throw {f : Failure} (h : P [] (.error f) n) :
    Ensures n (throw f : Session σ α) P :=
  Dialogue.ensures_pure h

theorem ensures_ofExcept (x : Except Fault α) :
    Ensures n (ofExcept x : Session σ α) fun made r m =>
      made = [] ∧ m = n ∧ match r with
        | .ok a => x = .ok a
        | .error e => ∃ f, e = .fault f ∧ x = .error f := by
  cases x with
  | ok a => exact ensures_pure ⟨rfl, rfl, rfl⟩
  | error f => exact ensures_throw ⟨rfl, rfl, f, rfl, rfl⟩

theorem ensures_lift {x : Dialogue σ α} (h : x.Ensures n fun made a m => P made (.ok a) m) :
    Ensures n (ExceptT.lift x : Session σ α) P :=
  h.bind fun _ _ _ hP => Dialogue.ensures_pure (by rwa [List.append_nil])

/-- Work after work: what the first ensures of its value is known when the second starts. -/
theorem Ensures.bind {x : Session σ α} {f : α → Session σ β}
    {R : List Exchange → Except Failure β → Nat → Prop} (hx : x.Ensures n P)
    (hok : ∀ made a k, P made (.ok a) k → (f a).Ensures k fun more b m => R (made ++ more) b m)
    (herror : ∀ made e k, P made (.error e) k → R made (.error e) k) :
    (x >>= f).Ensures n R := by
  change Dialogue.Ensures n (x.run >>= ExceptT.bindCont f) R
  refine Dialogue.Ensures.bind hx fun made r k hP => ?_
  cases r with
  | ok a => exact hok made a k hP
  | error e => exact Dialogue.ensures_pure (by rw [List.append_nil]; exact herror made e k hP)

theorem ensures_lift_bind {x : Dialogue σ α} {f : α → Session σ β}
    {R : List Exchange → α → Nat → Prop} {S : List Exchange → Except Failure β → Nat → Prop}
    (hx : x.Ensures n R)
    (hf : ∀ made a k, R made a k → (f a).Ensures k fun more b m => S (made ++ more) b m) :
    Ensures n (ExceptT.lift x >>= f) S := by
  have hlift : Ensures n (ExceptT.lift x : Session σ α) fun made r m =>
      ∃ a, r = .ok a ∧ R made a m :=
    ensures_lift (hx.mono fun made a m hR => ⟨a, rfl, hR⟩)
  refine hlift.bind ?_ ?_
  · rintro made a k ⟨_, ⟨⟩, hR⟩
    exact hf made a k hR
  · rintro made e k ⟨a, h, -⟩
    cases h

theorem ensures_require {activity : Activity} {request : Dialogue σ (Answer α)}
    {R : List Exchange → Answer α → Nat → Prop} (h : request.Ensures n R) :
    (require activity request).Ensures n fun made r m => ∃ a : Answer α,
      r = a.mapError (fun e => .fault (.database activity e)) ∧ R made a m := by
  refine ensures_lift_bind h fun made a k hR => ?_
  cases a with
  | ok v => exact ensures_pure ⟨.ok v, rfl, by rwa [List.append_nil]⟩
  | error e => exact ensures_throw ⟨.error e, rfl, by rwa [List.append_nil]⟩

/-- Work for items stops at the first failure, so some of the items at the front had a step. -/
theorem ensures_mapM {Step : ι → Nat → List Exchange → Nat → Prop} {f : ι → Session σ β}
    (hf : ∀ i n, (f i).Ensures n fun made _ m => Step i n made m) (is : List ι) (n : Nat) :
    Ensures n (is.mapM f) fun made _ m => ∃ reached, reached <+: is ∧
      Chain Step reached n made m := by
  induction is generalizing n with
  | nil => exact ensures_pure ⟨[], List.prefix_rfl, .nil n⟩
  | cons i rest ih =>
      rw [List.mapM_cons]
      refine (hf i n).bind (fun made _ k hstep => ?_) fun made _ k hstep => ?_
      · refine (ih k).bind (fun more _ m hrest => ensures_pure ?_) fun more _ m hrest => ?_
        · obtain ⟨reached, hpre, hchain⟩ := hrest
          rw [List.append_nil]
          exact ⟨i :: reached, List.cons_prefix_cons.2 ⟨rfl, hpre⟩, .cons hstep hchain⟩
        · obtain ⟨reached, hpre, hchain⟩ := hrest
          exact ⟨i :: reached, List.cons_prefix_cons.2 ⟨rfl, hpre⟩, .cons hstep hchain⟩
      · refine ⟨[i], List.cons_prefix_cons.2 ⟨rfl, List.nil_prefix⟩, ?_⟩
        have hchain := Chain.cons hstep (.nil k)
        rwa [List.append_nil] at hchain

theorem ensures_mapM_values {κ : Type} {f : ι → Session σ β} {g : β → κ} {h : ι → κ}
    (hf : ∀ i n, (f i).Ensures n fun _ r _ => ∀ b, r = .ok b → g b = h i) (is : List ι) (n : Nat) :
    Ensures n (is.mapM f) fun _ r _ => ∀ bs, r = .ok bs → bs.map g = is.map h := by
  induction is generalizing n with
  | nil => exact ensures_pure (by rintro _ ⟨⟩; rfl)
  | cons i rest ih =>
      rw [List.mapM_cons]
      refine (hf i n).bind (fun _ b k hb => ?_) (by rintro _ e _ _ _ ⟨⟩)
      refine (ih k).bind (fun _ bs m hbs => ensures_pure ?_) (by rintro _ e _ _ _ ⟨⟩)
      rintro _ ⟨⟩
      rw [List.map_cons, List.map_cons, hb b rfl, hbs bs rfl]

end Session

end QueryShape
