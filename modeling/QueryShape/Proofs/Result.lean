import Mathlib.Data.List.Forall2
import QueryShape.Fault

namespace QueryShape

variable {ε α β : Type}

theorem bind_eq_ok {x : Except ε α} {f : α → Except ε β} {b : β} :
    x.bind f = .ok b ↔ ∃ a, x = .ok a ∧ f a = .ok b := by
  cases x with
  | error e =>
      constructor
      · intro h
        cases h
      · rintro ⟨a, h, -⟩
        cases h
  | ok a =>
      constructor
      · intro h
        exact ⟨a, rfl, h⟩
      · rintro ⟨_, ⟨⟩, h⟩
        exact h

theorem map_eq_ok {x : Except ε α} {f : α → β} {b : β} :
    x.map f = .ok b ↔ ∃ a, x = .ok a ∧ f a = b := by
  cases x with
  | error e =>
      constructor
      · intro h
        cases h
      · rintro ⟨a, h, -⟩
        cases h
  | ok a =>
      constructor
      · intro h
        exact ⟨a, rfl, Except.ok.inj h⟩
      · rintro ⟨_, ⟨⟩, h⟩
        exact congrArg Except.ok h

theorem bind_eq_error {x : Except ε α} {f : α → Except ε β} {e : ε} :
    x.bind f = .error e ↔ x = .error e ∨ ∃ a, x = .ok a ∧ f a = .error e := by
  cases x with
  | error d => simp [Except.bind]
  | ok a => simp [Except.bind]

theorem map_eq_error {x : Except ε α} {f : α → β} {e : ε} : x.map f = .error e ↔ x = .error e := by
  cases x with
  | error d => simp [Except.map]
  | ok a => simp [Except.map]

theorem toOption_eq_some_iff {x : Except ε α} {a : α} : x.toOption = some a ↔ x = .ok a := by
  cases x <;> simp [Except.toOption]

theorem mapM_cons_eq_ok {f : α → Except ε β} {x : α} {rest : List α} {ys : List β} :
    (x :: rest).mapM f = .ok ys ↔
      ∃ y zs, f x = .ok y ∧ rest.mapM f = .ok zs ∧ ys = y :: zs := by
  rw [List.mapM_cons]
  constructor
  · intro h
    obtain ⟨y, hy, h⟩ := bind_eq_ok.1 h
    obtain ⟨zs, hzs, h⟩ := bind_eq_ok.1 h
    exact ⟨y, zs, hy, hzs, (Except.ok.inj h).symm⟩
  · rintro ⟨y, zs, hy, hzs, rfl⟩
    exact bind_eq_ok.2 ⟨y, hy, bind_eq_ok.2 ⟨zs, hzs, rfl⟩⟩

theorem exists_of_mem_forall₂_right {R : α → β → Prop} {xs : List α} {ys : List β}
    (h : List.Forall₂ R xs ys) : ∀ y ∈ ys, ∃ x ∈ xs, R x y := by
  induction h with
  | nil => exact List.forall_mem_nil _
  | cons hxy _ ih =>
      refine List.forall_mem_cons.2 ⟨⟨_, List.mem_cons_self, hxy⟩, ?_⟩
      intro y hy
      obtain ⟨x, hx, hR⟩ := ih y hy
      exact ⟨x, List.mem_cons_of_mem _ hx, hR⟩

theorem exists_of_mem_forall₂_left {R : α → β → Prop} {xs : List α} {ys : List β}
    (h : List.Forall₂ R xs ys) : ∀ x ∈ xs, ∃ y ∈ ys, R x y :=
  exists_of_mem_forall₂_right h.flip

theorem map_eq_map_of_forall₂ {γ : Type} {R : α → β → Prop} {f : α → γ} {g : β → γ} {xs : List α}
    {ys : List β} (h : List.Forall₂ R xs ys) (hR : ∀ x y, R x y → f x = g y) :
    xs.map f = ys.map g := by
  rw [← List.forall₂_eq_eq_eq, List.forall₂_map_left_iff, List.forall₂_map_right_iff]
  exact h.imp hR

theorem exists_mapM_eq_ok {γ : Type} {R : α → β → Prop} {S : α → γ → Prop}
    {f : β → Except ε γ} {xs : List α} {ys : List β} (h : List.Forall₂ R xs ys)
    (hf : ∀ x ∈ xs, ∀ y, R x y → ∃ z, f y = .ok z ∧ S x z) :
    ∃ zs, ys.mapM f = .ok zs ∧ List.Forall₂ S xs zs := by
  induction h with
  | nil => exact ⟨[], rfl, .nil⟩
  | cons hxy _ ih =>
      obtain ⟨hfirst, hrest⟩ := List.forall_mem_cons.1 hf
      obtain ⟨z, hz, hS⟩ := hfirst _ hxy
      obtain ⟨zs, hzs, hSs⟩ := ih hrest
      exact ⟨z :: zs, mapM_cons_eq_ok.2 ⟨z, zs, hz, hzs, rfl⟩, .cons hS hSs⟩

theorem exists_mapM_eq_error {γ : Type} {R : α → β → Prop} {f : β → Except ε γ}
    {before after : List α} {x : α} {ys : List β}
    (h : List.Forall₂ R (before ++ x :: after) ys)
    (hf : ∀ w ∈ before, ∀ y, R w y → ∃ z, f y = .ok z) :
    ∃ y ∈ ys, R x y ∧ ∀ e, f y = .error e → ys.mapM f = .error e := by
  induction before generalizing ys with
  | nil =>
      obtain ⟨y, rest, hxy, -, rfl⟩ := List.forall₂_cons_left_iff.1 h
      refine ⟨y, List.mem_cons_self, hxy, fun e he => ?_⟩
      rw [List.mapM_cons, he]
      rfl
  | cons w before ih =>
      obtain ⟨y, rest, hwy, hrest, rfl⟩ := List.forall₂_cons_left_iff.1 h
      obtain ⟨hfirst, hothers⟩ := List.forall_mem_cons.1 hf
      obtain ⟨z, hz⟩ := hfirst y hwy
      obtain ⟨y', hy', hxy', hstop⟩ := ih hrest hothers
      refine ⟨y', List.mem_cons_of_mem y hy', hxy', fun e he => ?_⟩
      rw [List.mapM_cons, hz, hstop e he]
      rfl

theorem mapM_eq_ok_iff {f : α → Except ε β} {xs : List α} {ys : List β} :
    xs.mapM f = .ok ys ↔ List.Forall₂ (fun x y => f x = .ok y) xs ys := by
  induction xs generalizing ys with
  | nil =>
      rw [List.forall₂_nil_left_iff]
      constructor
      · intro h
        exact (Except.ok.inj h).symm
      · rintro rfl
        rfl
  | cons x rest ih =>
      rw [mapM_cons_eq_ok, List.forall₂_cons_left_iff]
      constructor
      · rintro ⟨y, zs, hy, hzs, rfl⟩
        exact ⟨y, zs, hy, ih.1 hzs, rfl⟩
      · rintro ⟨y, zs, hy, hzs, rfl⟩
        exact ⟨y, zs, hy, ih.2 hzs, rfl⟩

theorem mapM_eq_some_iff {f : α → Option β} {xs : List α} {ys : List β} :
    xs.mapM f = some ys ↔ List.Forall₂ (fun x y => f x = some y) xs ys := by
  induction xs generalizing ys with
  | nil => simp [eq_comm]
  | cons x rest ih =>
      rw [List.mapM_cons, List.forall₂_cons_left_iff]
      simp only [Option.bind_eq_bind, Option.bind_eq_some_iff, Option.pure_def, Option.some.injEq,
        ih, eq_comm (b := ys)]
      constructor
      · rintro ⟨y, hy, zs, hzs, hys⟩
        exact ⟨y, zs, hy, hzs, hys⟩
      · rintro ⟨y, zs, hy, hzs, hys⟩
        exact ⟨y, hy, zs, hzs, hys⟩

theorem mapM_eq_error_iff {f : α → Except ε β} {xs : List α} {e : ε} :
    xs.mapM f = .error e ↔ ∃ before x after, xs = before ++ x :: after ∧
      (∀ w ∈ before, ∃ y, f w = .ok y) ∧ f x = .error e := by
  constructor
  · intro h
    induction xs with
    | nil => cases h
    | cons x rest ih =>
        rw [List.mapM_cons] at h
        cases hx : f x with
        | error d =>
            rw [hx] at h
            obtain rfl := Except.error.inj h
            exact ⟨[], x, rest, rfl, List.forall_mem_nil _, hx⟩
        | ok y =>
            cases hrest : rest.mapM f with
            | error d =>
                rw [hx, hrest] at h
                obtain rfl := Except.error.inj h
                obtain ⟨before, z, after, rfl, hbefore, hz⟩ := ih hrest
                exact ⟨x :: before, z, after, rfl, List.forall_mem_cons.2 ⟨⟨y, hx⟩, hbefore⟩, hz⟩
            | ok ys =>
                rw [hx, hrest] at h
                cases h
  · rintro ⟨before, x, after, rfl, hbefore, hx⟩
    have hsame : List.Forall₂ Eq (before ++ x :: after) (before ++ x :: after) :=
      List.forall₂_refl _
    obtain ⟨y, -, rfl, hstop⟩ := exists_mapM_eq_error hsame fun w hw _ hwy => hwy ▸ hbefore w hw
    exact hstop e hx

theorem exists_of_mapM_eq_error {f : α → Except ε β} {xs : List α} {e : ε}
    (h : xs.mapM f = .error e) : ∃ x ∈ xs, f x = .error e := by
  obtain ⟨before, x, after, rfl, -, hx⟩ := mapM_eq_error_iff.1 h
  exact ⟨x, List.mem_append_right before List.mem_cons_self, hx⟩

theorem exists_of_mapM_eq_none {f : α → Option β} {xs : List α} (h : xs.mapM f = none) :
    ∃ x ∈ xs, f x = none := by
  induction xs with
  | nil => cases h
  | cons x rest ih =>
      cases hx : f x with
      | none => exact ⟨x, List.mem_cons_self, hx⟩
      | some y =>
          cases hrest : rest.mapM f with
          | none =>
              obtain ⟨z, hz, hnone⟩ := ih hrest
              exact ⟨z, List.mem_cons_of_mem x hz, hnone⟩
          | some ys =>
              rw [List.mapM_cons, hx, hrest] at h
              cases h

theorem exists_of_mem_mapM {f : α → Except ε β} {xs : List α} {ys : List β}
    (h : xs.mapM f = .ok ys) : ∀ y ∈ ys, ∃ x ∈ xs, f x = .ok y :=
  exists_of_mem_forall₂_right (mapM_eq_ok_iff.1 h)

/-- The rules of a judgement on work and the values it ends in. It holds of a value that has the
property, and of work in two parts when it holds of both. -/
structure Sequenced {m : Type → Type} [Monad m]
    (Holds : ∀ α : Type, m α → (α → Prop) → Prop) : Prop where
  pure {α : Type} {P : α → Prop} {a : α} : P a → Holds α (pure a) P
  bind {α β : Type} {P : α → Prop} {Q : β → Prop} {x : m α} {f : α → m β} :
    Holds α x P → (∀ a, P a → Holds β (f a) Q) → Holds β (x >>= f) Q

theorem Sequenced.mapM {m : Type → Type} [Monad m] [LawfulMonad m]
    {Holds : ∀ α : Type, m α → (α → Prop) → Prop} (h : Sequenced Holds) {ι : Type}
    {R : ι → β → Prop} {f : ι → m β} {is : List ι} (hf : ∀ i ∈ is, Holds β (f i) (R i)) :
    Holds (List β) (is.mapM f) (List.Forall₂ R is) := by
  induction is with
  | nil => exact h.pure .nil
  | cons i rest ih =>
      rw [List.mapM_cons]
      refine h.bind (hf i List.mem_cons_self) fun b hb => ?_
      refine h.bind (ih fun j hj => hf j (List.mem_cons_of_mem _ hj)) fun bs hbs => ?_
      exact h.pure (.cons hb hbs)

end QueryShape
