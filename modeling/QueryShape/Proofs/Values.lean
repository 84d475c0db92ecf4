import QueryShape.Proofs.Result
import QueryShape.Proofs.Traffic.Basic

namespace QueryShape

variable {σ α β ι : Type}

namespace Dialogue

/-- A dialogue ends in a value with the property, whatever happens before. -/
def Yields (x : Dialogue σ α) (P : α → Prop) : Prop :=
  ∀ w : World σ, P (x.outcome w).1

variable {P : α → Prop} {Q : β → Prop}

theorem yields_pure {a : α} (h : P a) : Yields (pure a : Dialogue σ α) P :=
  fun _ => h

theorem Yields.bind {x : Dialogue σ α} {f : α → Dialogue σ β} (hx : x.Yields P)
    (hf : ∀ a, P a → (f a).Yields Q) : (x >>= f).Yields Q := by
  intro w
  rw [outcome_bind]
  exact hf _ (hx w) _

theorem sequenced_yields : Sequenced fun α (x : Dialogue σ α) P => x.Yields P :=
  ⟨yields_pure, Yields.bind⟩

/-- With a server, work leaves the server in place and ends in a value that satisfies `P`. -/
def Returns (s : Server σ) (x : Dialogue σ α) (P : α → Prop) : Prop :=
  ∀ w : World σ, w.server = s → P (x.outcome w).1 ∧ (x.outcome w).2.server = s

variable {s : Server σ}

theorem returns_pure {a : α} {P : α → Prop} (h : P a) :
    Returns s (pure a : Dialogue σ α) P := by
  intro w hw
  exact ⟨h, hw⟩

theorem Returns.bind {x : Dialogue σ α} {f : α → Dialogue σ β} {P : α → Prop} {Q : β → Prop}
    (hx : x.Returns s P) (hf : ∀ a, P a → (f a).Returns s Q) : (x >>= f).Returns s Q := by
  intro w hw
  obtain ⟨hP, hserver⟩ := hx w hw
  rw [outcome_bind]
  exact hf _ hP _ hserver

theorem Returns.eq {x : Dialogue σ α} {a : α} (h : x.Returns s (· = a)) {w : World σ}
    (hw : w.server = s) : (x.outcome w).1 = a :=
  (h w hw).1

theorem sequenced_returns : Sequenced fun α (x : Dialogue σ α) P => x.Returns s P :=
  ⟨returns_pure, Returns.bind⟩

theorem returns_mapM_eq {f : ι → Dialogue σ β} {g : ι → β} {is : List ι}
    (h : ∀ i ∈ is, (f i).Returns s (· = g i)) : (is.mapM f).Returns s (· = is.map g) := by
  intro w hw
  obtain ⟨hvalues, hserver⟩ := sequenced_returns.mapM h w hw
  have heq := List.forall₂_map_left_iff.2 (hvalues.imp fun i b hb => hb.symm)
  rw [List.forall₂_eq_eq_eq] at heq
  exact ⟨heq.symm, hserver⟩

end Dialogue

namespace Session

/-- A session that does not fail ends in a value with the property. -/
def Yields (x : Session σ α) (P : α → Prop) : Prop :=
  Dialogue.Yields x.run fun r => ∀ a, r = .ok a → P a

variable {P : α → Prop} {Q : β → Prop}

theorem Yields.mono {x : Session σ α} {Q : α → Prop} (h : x.Yields P) (hPQ : ∀ a, P a → Q a) :
    x.Yields Q :=
  fun w a ha => hPQ a (h w a ha)

theorem yields_pure {a : α} (h : P a) : Yields (pure a : Session σ α) P :=
  Dialogue.yields_pure (by rintro _ ⟨⟩; exact h)

theorem yields_throw (f : Failure) : Yields (throw f : Session σ α) P :=
  Dialogue.yields_pure nofun

theorem yields_ofExcept (x : Except Fault α) :
    Yields (ofExcept x : Session σ α) fun a => x = .ok a := by
  cases x with
  | ok a => exact yields_pure rfl
  | error f => exact yields_throw _

theorem Yields.bind {x : Session σ α} {f : α → Session σ β} (hx : x.Yields P)
    (hf : ∀ a, P a → (f a).Yields Q) : (x >>= f).Yields Q := by
  change Dialogue.Yields (x.run >>= ExceptT.bindCont f) _
  refine Dialogue.Yields.bind hx fun r hP => ?_
  cases r with
  | ok a => exact hf a (hP a rfl)
  | error e => exact Dialogue.yields_pure nofun

theorem yields_bind {x : Session σ α} {f : α → Session σ β} (hf : ∀ a, (f a).Yields Q) :
    (x >>= f).Yields Q :=
  Yields.bind (P := fun _ => True) (fun _ _ _ => trivial) fun a _ => hf a

theorem yields_lift {x : Dialogue σ α} (h : x.Yields P) :
    Yields (ExceptT.lift x : Session σ α) P :=
  h.bind fun _ hP => Dialogue.yields_pure (by rintro _ ⟨⟩; exact hP)

theorem sequenced_yields : Sequenced fun α (x : Session σ α) P => x.Yields P :=
  ⟨yields_pure, Yields.bind⟩

variable {s : Server σ}

/-- With a server, a session leaves the server in place and ends as `P` says of its value or
failure. -/
def Returns (s : Server σ) (x : Session σ α) (P : Except Failure α → Prop) : Prop :=
  Dialogue.Returns s x.run P

theorem returns_pure {a : α} {P : Except Failure α → Prop} (h : P (.ok a)) :
    Returns s (pure a : Session σ α) P :=
  Dialogue.returns_pure h

theorem Returns.bind {x : Session σ α} {f : α → Session σ β} {P : Except Failure α → Prop}
    {Q : Except Failure β → Prop} (hx : x.Returns s P)
    (hok : ∀ a, P (.ok a) → (f a).Returns s Q) (herror : ∀ e, P (.error e) → Q (.error e)) :
    (x >>= f).Returns s Q := by
  change Dialogue.Returns s (x.run >>= ExceptT.bindCont f) Q
  refine Dialogue.Returns.bind hx fun r hP => ?_
  cases r with
  | ok a => exact hok a hP
  | error e => exact Dialogue.returns_pure (herror e hP)

theorem returns_lift_bind {x : Dialogue σ α} {f : α → Session σ β} {P : α → Prop}
    {Q : Except Failure β → Prop} (hx : x.Returns s P) (hf : ∀ a, P a → (f a).Returns s Q) :
    Returns s (ExceptT.lift x >>= f) Q := by
  have hlift : Returns s (ExceptT.lift x : Session σ α) fun r => ∃ a, r = .ok a ∧ P a :=
    Dialogue.Returns.bind hx fun a hP => Dialogue.returns_pure ⟨a, rfl, hP⟩
  refine hlift.bind ?_ ?_
  · rintro a ⟨_, ⟨⟩, hP⟩
    exact hf a hP
  · rintro e ⟨a, h, -⟩
    cases h

/-- Work for items that stops at the first failure ends as results of the work for all of them. -/
theorem returns_mapM {R : ι → Except Failure β → Prop} {f : ι → Session σ β} {is : List ι}
    (h : ∀ i ∈ is, (f i).Returns s (R i)) : Returns s (is.mapM f) fun r =>
      ∃ results, r = results.mapM id ∧ List.Forall₂ R is results := by
  induction is with
  | nil => exact returns_pure ⟨[], rfl, .nil⟩
  | cons i rest ih =>
      have hrest := ih fun j hj => h j (List.mem_cons_of_mem _ hj)
      intro w hw
      -- The items behind a failure are not worked on, and would have results all the same.
      obtain ⟨⟨others, -, hothers⟩, -⟩ := hrest w hw
      suffices hcons : Returns s ((i :: rest).mapM f) fun r =>
          ∃ results, r = results.mapM id ∧ List.Forall₂ R (i :: rest) results from hcons w hw
      rw [List.mapM_cons]
      refine Returns.bind (h i List.mem_cons_self) (fun b hb => ?_) fun e he => ?_
      · refine hrest.bind ?_ ?_
        · rintro bs ⟨results, hresults, hforall⟩
          refine returns_pure ⟨.ok b :: results, ?_, .cons hb hforall⟩
          rw [List.mapM_cons, ← hresults]
          rfl
        · rintro e ⟨results, hresults, hforall⟩
          refine ⟨.ok b :: results, ?_, .cons hb hforall⟩
          rw [List.mapM_cons, ← hresults]
          rfl
      · exact ⟨.error e :: others, rfl, .cons he hothers⟩

theorem returns_mapM_eq {f : ι → Session σ β} {g : ι → Except Failure β} {is : List ι}
    (h : ∀ i ∈ is, (f i).Returns s (· = g i)) : Returns s (is.mapM f) (· = is.mapM g) := by
  intro w hw
  obtain ⟨⟨results, hresults, hforall⟩, hserver⟩ := returns_mapM h w hw
  have heq := List.forall₂_map_left_iff.2 (hforall.imp fun i r hr => hr.symm)
  rw [List.forall₂_eq_eq_eq] at heq
  refine ⟨?_, hserver⟩
  rw [hresults, ← heq, List.mapM_map]
  rfl

theorem exists_of_outcome_bind_eq_ok {x : Session σ α} {f : α → Session σ β} {w : World σ} {b : β}
    (h : ((x >>= f).outcome w).1 = .ok b) :
    ∃ a v, x.outcome w = (.ok a, v) ∧ ((f a).outcome v).1 = .ok b := by
  rw [outcome_bind] at h
  cases hx : x.outcome w with
  | mk r v =>
      rw [hx] at h
      cases r with
      | ok a => exact ⟨a, v, rfl, h⟩
      | error e => cases h

theorem exists_of_outcome_ofExcept_bind_eq_ok {x : Except Fault α} {f : α → Session σ β}
    {w : World σ} {b : β} (h : ((ofExcept x >>= f).outcome w).1 = .ok b) :
    ∃ a, x = .ok a ∧ ((f a).outcome w).1 = .ok b := by
  cases x with
  | ok a => exact ⟨a, rfl, h⟩
  | error e => cases h

end Session

end QueryShape
