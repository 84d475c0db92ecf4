import QueryShape.Proofs.Values

namespace QueryShape

variable {σ α β ι : Type}

/-- Whether the answers of a server depend neither on the connection nor on what it was asked
before, and every connection is granted. -/
structure Server.Steady (s : Server σ) : Prop where
  connect : ∀ n state, (s.connect n state).1 = .ok ()
  execute : ∀ c d sql state state', (s.execute c sql state).1 = (s.execute d sql state').1
  query : ∀ c d sql parameters state state',
    (s.query c sql parameters state).1 = (s.query d sql parameters state').1
  describe : ∀ c d sql state state', (s.describe c sql state).1 = (s.describe d sql state').1

namespace Dialogue

variable {s : Server σ}

/-- Work on connections that ends in one value on all of them. -/
def Definite (s : Server σ) (x : Nat → Dialogue σ α) : Prop :=
  ∃ a, ∀ c, (x c).Returns s (· = a)

theorem definite_pure (a : α) : Definite s fun _ => (pure a : Dialogue σ α) :=
  ⟨a, fun _ => returns_pure rfl⟩

theorem Definite.bind {x : Nat → Dialogue σ α} {f : Nat → α → Dialogue σ β}
    (hx : Definite s x) (hf : ∀ a, Definite s fun c => f c a) :
    Definite s fun c => x c >>= f c := by
  obtain ⟨a, ha⟩ := hx
  obtain ⟨b, hb⟩ := hf a
  refine ⟨b, fun c => (ha c).bind ?_⟩
  rintro _ rfl
  exact hb c

theorem definite_mapM {f : Nat → ι → Dialogue σ β} (is : List ι)
    (hf : ∀ i, Definite s fun c => f c i) : Definite s fun c => is.mapM (f c) := by
  choose g hg using hf
  exact ⟨is.map g, fun c => returns_mapM_eq fun i _ => hg i c⟩

theorem returns_call {made : Call} {answer : Server σ → σ → Answer α × σ} {a : Answer α}
    (h : ∀ state, (answer s state).1 = a) : (call made answer).Returns s (· = a) := by
  rintro w rfl
  exact ⟨h w.state, rfl⟩

theorem definite_execute (hs : s.Steady) (state : σ) (sql : String) :
    Definite s fun c => execute c sql :=
  ⟨(s.execute 0 sql state).1, fun c => returns_call fun _ => hs.execute c 0 sql _ _⟩

theorem definite_query (hs : s.Steady) (state : σ) (sql : String) (parameters : List String) :
    Definite s fun c => query c sql parameters :=
  ⟨(s.query 0 sql parameters state).1, fun c =>
    returns_call fun _ => hs.query c 0 sql parameters _ _⟩

theorem definite_describe (hs : s.Steady) (state : σ) (sql : String) :
    Definite s fun c => describe c sql :=
  ⟨(s.describe 0 sql state).1, fun c => returns_call fun _ => hs.describe c 0 sql _ _⟩

theorem returns_connect (hs : s.Steady) :
    Returns s (connect : Dialogue σ (Answer Nat)) fun a => ∃ n, a = .ok n := by
  rintro w rfl
  rw [outcome_connect]
  dsimp only
  rw [hs.connect]
  exact ⟨⟨_, rfl⟩, rfl⟩

end Dialogue

namespace Session

variable {s : Server σ}

/-- Work on connections that ends in one value or failure on all of them. -/
def Definite (s : Server σ) (x : Nat → Session σ α) : Prop :=
  Dialogue.Definite s fun c => (x c).run

theorem definite_pure (a : α) : Definite s fun _ => (pure a : Session σ α) :=
  ⟨.ok a, fun _ => returns_pure rfl⟩

theorem definite_throw (e : Failure) : Definite s fun _ => (throw e : Session σ α) :=
  ⟨.error e, fun _ => Dialogue.returns_pure rfl⟩

theorem definite_ofExcept (x : Except Fault α) :
    Definite s fun _ => (ofExcept x : Session σ α) := by
  cases x with
  | ok a => exact definite_pure a
  | error f => exact definite_throw (.fault f)

theorem Definite.bind {x : Nat → Session σ α} {f : Nat → α → Session σ β} (hx : Definite s x)
    (hf : ∀ a, Definite s fun c => f c a) : Definite s fun c => x c >>= f c := by
  obtain ⟨r, hr⟩ := hx
  cases r with
  | error e =>
      refine ⟨.error e, fun c => Returns.bind (hr c) ?_ ?_⟩
      · intro a ha
        cases ha
      · intro e' he
        exact congrArg Except.error (Except.error.inj he)
  | ok a =>
      obtain ⟨r, hr'⟩ := hf a
      refine ⟨r, fun c => Returns.bind (hr c) ?_ ?_⟩
      · intro a' ha
        obtain rfl := Except.ok.inj ha
        exact hr' c
      · intro e he
        cases he

theorem definite_lift {x : Nat → Dialogue σ α} (hx : Dialogue.Definite s x) :
    Definite s fun c => (ExceptT.lift (x c) : Session σ α) := by
  obtain ⟨a, ha⟩ := hx
  refine ⟨.ok a, fun c => ?_⟩
  show Dialogue.Returns s (x c >>= fun a => pure (Except.ok a)) (· = Except.ok a)
  refine (ha c).bind ?_
  rintro _ rfl
  exact Dialogue.returns_pure rfl

theorem definite_require {activity : Activity} {request : Nat → Dialogue σ (Answer α)}
    (h : Dialogue.Definite s request) : Definite s fun c => require activity (request c) := by
  refine (definite_lift h).bind fun a => ?_
  cases a with
  | ok v => exact definite_pure v
  | error e => exact definite_throw (.fault (.database activity e))

theorem definite_mapM {f : Nat → ι → Session σ β} (is : List ι)
    (hf : ∀ i, Definite s fun c => f c i) : Definite s fun c => is.mapM (f c) := by
  choose g hg using hf
  exact ⟨is.mapM g, fun c => returns_mapM_eq fun i _ => hg i c⟩

end Session

end QueryShape
