import QueryShape.Proofs.Traffic.Basic

/-!
What work asks the server and what the server answers. A transcript holds every request with its
answer, so work is judged by what it was told and not only by the requests it made.
-/

namespace QueryShape

open QueryShape.Exchange

variable {σ α β : Type}

/-- What a request gives that is granted. -/
inductive Given where
  | done
  | rows (rs : List Row)
  | columns (cs : List ExecutedColumn)

/-- What is asked of the server. -/
structure Request where
  call : Call
  /-- What a refusal of the request is a fault of, if it is a fault. -/
  activity? : Option Activity

structure Step where
  request : Request
  answer : Answer Given

/-- What the log has of a step. -/
def Step.exchange (s : Step) : Exchange :=
  ⟨s.request.call, QueryShape.refusal? s.answer⟩

/-- The answer of a server to a request of any kind, with its state after that. -/
def Server.reply (s : Server σ) (c : Call) (state : σ) : Answer Given × σ :=
  match c.kind with
  | .connect =>
      let (answer, next) := s.connect c.connection state
      (answer.map fun _ => .done, next)
  | .execute =>
      let (answer, next) := s.execute c.connection c.sql state
      (answer.map fun _ => .done, next)
  | .query =>
      let (answer, next) := s.query c.connection c.sql c.parameters state
      (answer.map .rows, next)
  | .describe =>
      let (answer, next) := s.describe c.connection c.sql state
      (answer.map .columns, next)

/-- The server answers requests, one after the other, as the steps say. -/
inductive Transcript (s : Server σ) : σ → List Step → σ → Prop
  | nil (state : σ) : Transcript s state [] state
  | cons {state next last : σ} {step : Step} {rest : List Step} :
      s.reply step.request.call state = (step.answer, next) →
      Transcript s next rest last →
      Transcript s state (step :: rest) last

theorem Transcript.append {s : Server σ} {state next last : σ} {steps more : List Step}
    (h : Transcript s state steps next) (hmore : Transcript s next more last) :
    Transcript s state (steps ++ more) last := by
  induction h with
  | nil => exact hmore
  | cons hreply _ ih => exact .cons hreply (ih hmore)

/-- A world is led to another one by requests that the server answers and that are logged. -/
structure World.Leads (w : World σ) (steps : List Step) (v : World σ) : Prop where
  server : v.server = w.server
  transcript : Transcript w.server w.state steps v.state
  exchanges : v.exchanges = w.exchanges ++ steps.map Step.exchange

theorem World.Leads.append {u v w : World σ} {steps more : List Step} (h : u.Leads steps v)
    (hmore : v.Leads more w) : u.Leads (steps ++ more) w where
  server := hmore.server.trans h.server
  transcript := h.transcript.append (h.server ▸ hmore.transcript)
  exchanges := by
    rw [hmore.exchanges, h.exchanges, List.append_assoc, List.map_append]

namespace Dialogue

/-- Work that starts after `n` connections were asked for takes steps that satisfy `P`, together
with its value and the number of connections asked for in the end. -/
def Enacts (n : Nat) (x : Dialogue σ α) (P : List Step → α → Nat → Prop) : Prop :=
  ∀ w : World σ, w.opened = n → ∃ steps, w.Leads steps (x.outcome w).2 ∧
    P steps (x.outcome w).1 (x.outcome w).2.opened

variable {n : Nat} {P Q : List Step → α → Nat → Prop}

theorem Enacts.mono {x : Dialogue σ α} (h : x.Enacts n P)
    (hPQ : ∀ steps a m, P steps a m → Q steps a m) : x.Enacts n Q := by
  intro w hw
  obtain ⟨steps, hleads, hP⟩ := h w hw
  exact ⟨steps, hleads, hPQ _ _ _ hP⟩

theorem enacts_pure {a : α} (h : P [] a n) : Enacts n (pure a : Dialogue σ α) P := by
  rintro w rfl
  exact ⟨[], ⟨rfl, .nil w.state, (List.append_nil _).symm⟩, h⟩

theorem Enacts.bind {x : Dialogue σ α} {f : α → Dialogue σ β}
    {R : List Step → β → Nat → Prop} (hx : x.Enacts n P)
    (hf : ∀ steps a k, P steps a k → (f a).Enacts k fun more b m => R (steps ++ more) b m) :
    (x >>= f).Enacts n R := by
  intro w hw
  obtain ⟨steps, hleads, hP⟩ := hx w hw
  obtain ⟨more, hmore, hR⟩ := hf steps _ _ hP (x.outcome w).2 rfl
  exact ⟨steps ++ more, hleads.append hmore, hR⟩

theorem refusal?_map (give : α → β) (a : Answer α) : refusal? (a.map give) = refusal? a := by
  cases a <;> rfl

theorem enacts_call {made : Call} {answer : Server σ → σ → Answer α × σ} {give : α → Given}
    (hreply : ∀ s state, s.reply made state = ((answer s state).1.map give, (answer s state).2))
    (activity? : Option Activity) :
    Enacts n (call made answer) fun steps a m =>
      steps = [⟨⟨made, activity?⟩, a.map give⟩] ∧ m = n := by
  rintro w rfl
  refine ⟨[⟨⟨made, activity?⟩, (answer w.server w.state).1.map give⟩], ⟨rfl, ?_, ?_⟩, rfl, rfl⟩
  · exact .cons (hreply _ _) (.nil _)
  · change w.exchanges ++ [⟨made, refusal? (answer w.server w.state).1⟩] = _
    rw [← refusal?_map give]
    rfl

theorem enacts_execute (activity? : Option Activity) (connection : Nat) (sql : String) :
    Enacts n (execute connection sql : Dialogue σ (Answer Unit)) fun steps a m =>
      steps = [⟨⟨execution connection sql, activity?⟩, a.map fun _ => .done⟩] ∧ m = n :=
  enacts_call (fun _ _ => rfl) activity?

theorem enacts_query (connection : Nat) (sql : String) (parameters : List String) :
    Enacts n (query connection sql parameters : Dialogue σ (Answer (List Row))) fun steps a m =>
      steps = [⟨⟨⟨connection, .query, sql, parameters⟩, none⟩, a.map .rows⟩] ∧ m = n :=
  enacts_call (fun _ _ => rfl) none

theorem enacts_describe (connection : Nat) (sql : String) :
    Enacts n (describe connection sql : Dialogue σ (Answer (List ExecutedColumn)))
      fun steps a m =>
        steps = [⟨⟨⟨connection, .describe, sql, []⟩, none⟩, a.map .columns⟩] ∧ m = n :=
  enacts_call (fun _ _ => rfl) none

theorem enacts_connect :
    Enacts n (connect : Dialogue σ (Answer Nat)) fun steps a m =>
      steps = [⟨⟨opening (n + 1), none⟩, a.map fun _ => .done⟩] ∧ m = n + 1 ∧
        ∀ d, a = .ok d → d = n + 1 := by
  rintro w rfl
  rw [outcome_connect]
  rcases hanswer : w.server.connect (w.opened + 1) w.state with ⟨answer, state⟩
  have hreply : w.server.reply (opening (w.opened + 1)) w.state =
      (answer.map fun _ => .done, state) := by
    change ((w.server.connect (w.opened + 1) w.state).1.map (fun _ => Given.done),
      (w.server.connect (w.opened + 1) w.state).2) = _
    rw [hanswer]
  cases answer with
  | error e =>
      exact ⟨_, ⟨rfl, .cons hreply (.nil state), rfl⟩, rfl, rfl, fun d hd => nomatch hd⟩
  | ok a =>
      exact ⟨_, ⟨rfl, .cons hreply (.nil state), rfl⟩, rfl, rfl,
        fun d hd => (Except.ok.inj hd).symm⟩

end Dialogue

namespace Session

/-- The steps of a session, with its value or the failure that ends it. -/
def Enacts (n : Nat) (x : Session σ α) (P : List Step → Except Failure α → Nat → Prop) : Prop :=
  Dialogue.Enacts n x.run P

variable {n : Nat} {P Q : List Step → Except Failure α → Nat → Prop}

theorem Enacts.mono {x : Session σ α} (h : x.Enacts n P)
    (hPQ : ∀ steps a m, P steps a m → Q steps a m) : x.Enacts n Q :=
  Dialogue.Enacts.mono h hPQ

theorem enacts_pure {a : α} (h : P [] (.ok a) n) : Enacts n (pure a : Session σ α) P :=
  Dialogue.enacts_pure h

theorem enacts_throw {f : Failure} (h : P [] (.error f) n) :
    Enacts n (throw f : Session σ α) P :=
  Dialogue.enacts_pure h

theorem enacts_lift {x : Dialogue σ α} (h : x.Enacts n fun steps a m => P steps (.ok a) m) :
    Enacts n (ExceptT.lift x : Session σ α) P :=
  h.bind fun _ _ _ hP => Dialogue.enacts_pure (by rwa [List.append_nil])

theorem Enacts.bind {x : Session σ α} {f : α → Session σ β}
    {R : List Step → Except Failure β → Nat → Prop} (hx : x.Enacts n P)
    (hok : ∀ steps a k, P steps (.ok a) k → (f a).Enacts k fun more b m => R (steps ++ more) b m)
    (herror : ∀ steps e k, P steps (.error e) k → R steps (.error e) k) :
    (x >>= f).Enacts n R := by
  change Dialogue.Enacts n (x.run >>= ExceptT.bindCont f) R
  refine Dialogue.Enacts.bind hx fun steps r k hP => ?_
  cases r with
  | ok a => exact hok steps a k hP
  | error e => exact Dialogue.enacts_pure (by rw [List.append_nil]; exact herror steps e k hP)

theorem enacts_lift_bind {x : Dialogue σ α} {f : α → Session σ β}
    {R : List Step → α → Nat → Prop} {S : List Step → Except Failure β → Nat → Prop}
    (hx : x.Enacts n R)
    (hf : ∀ steps a k, R steps a k → (f a).Enacts k fun more b m => S (steps ++ more) b m) :
    Enacts n (ExceptT.lift x >>= f) S := by
  have hlift : Enacts n (ExceptT.lift x : Session σ α) fun steps r m =>
      ∃ a, r = .ok a ∧ R steps a m :=
    enacts_lift (hx.mono fun steps a m hR => ⟨a, rfl, hR⟩)
  refine hlift.bind ?_ ?_
  · rintro steps a k ⟨_, ⟨⟩, hR⟩
    exact hf steps a k hR
  · rintro steps e k ⟨a, h, -⟩
    cases h

end Session

end QueryShape
