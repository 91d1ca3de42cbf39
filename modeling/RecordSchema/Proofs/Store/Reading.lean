import RecordSchema.Proofs.Success
import RecordSchema.Store.Filter

/-!
# Readings

A reading carries faults along while it goes on. A reading that is
settled well has collected none, and what it lifts from outside has
succeeded.
-/

namespace RecordSchema

namespace Reading

variable {α β : Type}

/-- A reading that ends well ends with what it has read. -/
theorem settle_ok {x : Reading α} {a : α} (h : x.settle = .ok a) : x.run [] = .ok (a, []) := by
  simp only [settle, Except.bind_eq_ok] at h
  obtain ⟨⟨b, faults⟩, hrun, h⟩ := h
  dsimp only at h
  split at h
  · exact absurd h Except.throw_ne_ok
  · exact absurd h Except.throw_ne_ok
  · cases h
    exact hrun

theorem bind_run {x : Reading α} {f : α → Reading β} {faults : List Fault} {r : β × List Fault} :
    (x >>= f).run faults = .ok r ↔ ∃ a m, x.run faults = .ok (a, m) ∧ (f a).run m = .ok r := by
  rw [StateT.run_bind, Except.bind_eq_ok]
  constructor
  · rintro ⟨⟨a, m⟩, hx, hf⟩
    exact ⟨a, m, hx, hf⟩
  · rintro ⟨a, m, hx, hf⟩
    exact ⟨(a, m), hx, hf⟩

theorem liftM_run {x : Except Fault α} {faults faults' : List Fault} {a : α} :
    (liftM x : Reading α).run faults = .ok (a, faults') ↔ x = .ok a ∧ faults = faults' := by
  cases x with
  | ok b =>
    constructor
    · intro h
      cases h
      exact ⟨rfl, rfl⟩
    · rintro ⟨⟨⟩, rfl⟩
      rfl
  | error e =>
    constructor
    · intro h
      cases h
    · rintro ⟨⟨⟩, -⟩

theorem pure_run {faults faults' : List Fault} {a b : α} :
    (pure a : Reading α).run faults = .ok (b, faults') ↔ a = b ∧ faults = faults' := by
  constructor
  · intro h
    cases h
    exact ⟨rfl, rfl⟩
  · rintro ⟨rfl, rfl⟩
    rfl

/-- An operand without a fault is its cell. -/
theorem operand_run {x : Except Fault Cell} {c : Cell} {faults : List Fault}
    (h : (operand x).run faults = .ok (c, [])) : x = .ok c ∧ faults = [] := by
  cases x with
  | ok c' =>
    cases h
    exact ⟨rfl, rfl⟩
  | error f =>
    have hlast : faults ++ [f] = [] := (Prod.mk.inj (Except.ok.inj h)).2
    simp at hlast

end Reading

end RecordSchema
