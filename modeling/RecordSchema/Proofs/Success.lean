import Mathlib.Data.List.Forall2

/-!
# Taking success apart

A computation with exceptions that ends well has ended well at every
step. The lemmas read a success of a bind, a map or a lift off as
successes of the parts.
-/

namespace Except

variable {ε α β : Type}

theorem bind_eq_ok {x : Except ε α} {f : α → Except ε β} {b : β} :
    (x >>= f) = .ok b ↔ ∃ a, x = .ok a ∧ f a = .ok b := by
  cases x with
  | ok a =>
    constructor
    · intro h
      exact ⟨a, rfl, h⟩
    · rintro ⟨_, ⟨⟩, h⟩
      exact h
  | error e =>
    constructor
    · intro h
      cases h
    · rintro ⟨_, ⟨⟩, _⟩

theorem map_eq_ok {x : Except ε α} {f : α → β} {b : β} :
    x.map f = .ok b ↔ ∃ a, x = .ok a ∧ f a = b := by
  cases x <;> simp [Except.map]

@[simp] theorem pure_eq_ok {a b : α} : (pure a : Except ε α) = .ok b ↔ a = b :=
  Except.ok.injEq a b ▸ Iff.rfl

@[simp] theorem throw_ne_ok {e : ε} {b : α} : (throw e : Except ε α) ≠ .ok b := nofun

/-- A traversal that succeeds has succeeded at every member. -/
theorem forall₂_of_mapM {f : α → Except ε β} {xs : List α} {ys : List β}
    (h : xs.mapM f = .ok ys) : List.Forall₂ (fun x y => f x = .ok y) xs ys := by
  induction xs generalizing ys with
  | nil =>
    cases h
    exact .nil
  | cons x r ih =>
    simp only [List.mapM_cons, bind_eq_ok, pure_eq_ok] at h
    obtain ⟨y, hy, rest, hrest, rfl⟩ := h
    exact .cons hy (ih hrest)

/-- A traversal fails as the first member at which it does not succeed. -/
theorem mapM_eq_error {f : α → Except ε β} {xs : List α} {e : ε} : xs.mapM f = .error e ↔
    ∃ pre x post, xs = pre ++ x :: post ∧ (∀ y ∈ pre, (f y).isOk = true) ∧ f x = .error e := by
  induction xs with
  | nil =>
    refine iff_of_false nofun ?_
    rintro ⟨pre, x, post, heq, -⟩
    exact List.append_ne_nil_of_right_ne_nil _ (List.cons_ne_nil x post) heq.symm
  | cons x r ih =>
    rw [List.mapM_cons]
    cases hx : f x with
    | error e' =>
      constructor
      · rintro ⟨⟩
        exact ⟨[], x, r, rfl, nofun, hx⟩
      · rintro ⟨_ | ⟨y, pre⟩, z, post, heq, hpre, hz⟩
        · cases heq
          exact congrArg (· >>= _) (hx.symm.trans hz)
        · cases heq
          have hok := hpre x (.head _)
          rw [hx] at hok
          cases hok
    | ok y =>
      have hrest : (do let y ← Except.ok y; let ys ← r.mapM f; pure (y :: ys)) = .error e ↔
          r.mapM f = .error e := by
        cases r.mapM f with
        | error e' => exact Iff.rfl
        | ok ys => exact iff_of_false nofun nofun
      rw [hrest, ih]
      constructor
      · rintro ⟨pre, z, post, rfl, hpre, hz⟩
        exact ⟨x :: pre, z, post, rfl, List.forall_mem_cons.2 ⟨by rw [hx]; rfl, hpre⟩, hz⟩
      · rintro ⟨_ | ⟨w, pre⟩, z, post, heq, hpre, hz⟩
        · cases heq
          cases hx.symm.trans hz
        · cases heq
          exact ⟨pre, z, post, rfl, fun y hy => hpre y (.tail _ hy), hz⟩

theorem isOk_map (f : α → β) (x : Except ε α) : (x.map f).isOk = x.isOk := by
  cases x <;> rfl

/-- A traversal succeeds when it succeeds at every member. -/
theorem isOk_mapM {f : α → Except ε β} {xs : List α} :
    (xs.mapM f).isOk = xs.all fun x => (f x).isOk := by
  induction xs with
  | nil => rfl
  | cons x r ih =>
    rw [List.mapM_cons, List.all_cons, ← ih]
    cases f x with
    | error e => rfl
    | ok y => cases r.mapM f <;> rfl

theorem eq_ok_of_toOption {x : Except ε α} {a : α} (h : x.toOption = some a) : x = .ok a := by
  cases x <;> cases h
  rfl

theorem isOk_iff {x : Except ε α} : x.isOk = true ↔ ∃ a, x = .ok a := by
  cases x with
  | ok a => exact iff_of_true rfl ⟨a, rfl⟩
  | error e => exact iff_of_false Bool.false_ne_true nofun

/-- The result of a computation that is known to succeed. -/
def result [Inhabited α] : Except ε α → α
  | .ok a => a
  | .error _ => default

theorem eq_ok_result [Inhabited α] {x : Except ε α} (h : x.isOk = true) : x = .ok x.result := by
  cases x with
  | ok a => rfl
  | error e => cases h

end Except

/-- A traversal that has a result for every member has one. -/
theorem Option.exists_mapM {α β : Type} {f : α → Option β} {xs : List α}
    (h : ∀ x ∈ xs, ∃ y, f x = some y) : ∃ ys, xs.mapM f = some ys := by
  induction xs with
  | nil => exact ⟨[], rfl⟩
  | cons x r ih =>
    obtain ⟨⟨y, hy⟩, hr⟩ := List.forall_mem_cons.1 h
    obtain ⟨ys, hys⟩ := ih hr
    exact ⟨y :: ys, by simp [List.mapM_cons, hy, hys]⟩
