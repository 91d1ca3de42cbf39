import RecordSchema.Proofs.Request.Driver
import RecordSchema.Proofs.Request.Growth

/-!
# Restricted work

Work may do what other work does but succeed only under a condition: it
is the other work where the condition holds, and fails wherever it does
not (`Work.Restricts`). Work that goes on is restricted by what restricts
its parts, so a restriction of the creation of records is handed on to
the links that create them.
-/

namespace RecordSchema

/-! ## Work -/

/-- Whether work does what other work does where a condition holds, and succeeds nowhere else. -/
structure Work.Restricts {α : Type} (x y : Work α) (P : Prop) : Prop where
  eq_of : P → x = y
  holds : ∀ s a s', x.Yields s a s' → P

namespace Work.Restricts

variable {α β : Type} {x y : Work α} {f g : α → Work β} {P Q : Prop}

theorem refl (x : Work α) : x.Restricts x True :=
  ⟨fun _ => rfl, fun _ _ _ _ => trivial⟩

theorem congr (h : x.Restricts y P) (hPQ : P ↔ Q) : x.Restricts y Q :=
  ⟨fun hQ => h.eq_of (hPQ.2 hQ), fun s a s' hx => hPQ.1 (h.holds s a s' hx)⟩

theorem yields_iff (h : x.Restricts y P) {s s' : Session} {a : α} :
    x.Yields s a s' ↔ P ∧ y.Yields s a s' := by
  constructor
  · intro hx
    have hP := h.holds s a s' hx
    exact ⟨hP, h.eq_of hP ▸ hx⟩
  · rintro ⟨hP, hy⟩
    exact h.eq_of hP ▸ hy

/-- Work that goes on is restricted by what restricts either part. -/
theorem bind (hx : x.Restricts y P)
    (hf : ∀ a s m, y.Yields s a m → (f a).Restricts (g a) Q) :
    (x >>= f).Restricts (y >>= g) (P ∧ Q) := by
  constructor
  · rintro ⟨hP, hQ⟩
    rw [hx.eq_of hP]
    exact bind_congr fun a s m hy => (hf a s m hy).eq_of hQ
  · intro s b s' h
    obtain ⟨a, m, ha, hb⟩ := bind_yields.1 h
    obtain ⟨hP, hy⟩ := hx.yields_iff.1 ha
    exact ⟨hP, (hf a s m hy).holds m b s' hb⟩

theorem bind_left (hf : ∀ a s m, x.Yields s a m → (f a).Restricts (g a) Q) :
    (x >>= f).Restricts (x >>= g) Q :=
  ((refl x).bind hf).congr (Iff.of_eq (true_and Q))

theorem bind_right (hx : x.Restricts y P) (f : α → Work β) :
    (x >>= f).Restricts (y >>= f) P :=
  (hx.bind fun a _ _ _ => refl (f a)).congr (Iff.of_eq (and_true P))

end Work.Restricts

/-! ## Links -/

namespace Worker

variable {w : Worker} {create create' : String → Value → Work Int} {P : String → Value → Prop}
  (hcreate : ∀ list v, (create list v).Restricts (create' list v) (P list v))
include hcreate

theorem createAll_restricts (list : String) (items : List Value) :
    (createAll create list items).Restricts (createAll create' list items)
      (∀ v ∈ items, P list v) := by
  induction items with
  | nil => exact (Work.Restricts.refl _).congr (by simp)
  | cons v r ih =>
    have hrest (id : Int) := ih.bind_right fun ids => (pure (id :: ids) : Work (List Int))
    exact ((hcreate list v).bind fun id _ _ _ => hrest id).congr List.forall_mem_cons.symm

theorem applyOne_restricts (list field target : String) (id : Int) (a : OneAction) :
    (w.applyOne create list field target id a).Restricts
      (w.applyOne create' list field target id a)
      (∀ v ∈ (Resolve.LinkAction.one a).newItems, P target v) := by
  obtain ⟨verb, value⟩ := a
  cases verb with
  | create =>
    refine ((hcreate target value).bind_right fun t => w.connect list field id [t]).congr ?_
    exact List.forall_mem_singleton.symm
  | disconnect | connect =>
    refine (Work.Restricts.refl _).congr ?_
    simp [Resolve.LinkAction.newItems]

theorem applyStep_restricts (list field target : String) (id : Int) (verb : ManyVerb)
    (items : List Value) :
    (w.applyStep create list field target id verb items).Restricts
      (w.applyStep create' list field target id verb items)
      (∀ v ∈ stepItems (verb, items), P target v) := by
  cases verb with
  | create =>
    exact (createAll_restricts hcreate target items).bind_right fun ts => w.connect list field id ts
  | set | disconnect | connect =>
    refine (Work.Restricts.refl _).congr ?_
    simp [stepItems]

theorem applySteps_restricts (list field target : String) (id : Int)
    (steps : List (ManyVerb × List Value)) :
    (w.applySteps create list field target id steps).Restricts
      (w.applySteps create' list field target id steps)
      (∀ v ∈ steps.flatMap stepItems, P target v) := by
  induction steps with
  | nil => exact (Work.Restricts.refl _).congr (by simp)
  | cons step r ih =>
    refine ((applyStep_restricts hcreate list field target id step.1 step.2).bind
      fun _ _ _ _ => ih).congr ?_
    rw [List.flatMap_cons, List.forall_mem_append]

/-- What restricts the creation of records restricts the links that create them. -/
theorem applyLinks_restricts (list : String) (id : Int)
    (links : List (String × Resolve.LinkAction)) :
    (w.applyLinks create list id links).Restricts (w.applyLinks create' list id links)
      (∀ e ∈ links, ∀ p, w.db.plan list e.1 = .ok p → ∀ v ∈ e.2.newItems, P p.target v) := by
  induction links with
  | nil => exact (Work.Restricts.refl _).congr (by simp)
  | cons e r ih =>
    obtain ⟨field, action⟩ := e
    refine Work.Restricts.bind_left fun p _ _ hp => ?_
    have hplan : w.db.plan list field = .ok p := (Work.ofExcept_yields.1 hp).1
    have hhere : (∀ v ∈ action.newItems, P p.target v) ↔
        ∀ p, w.db.plan list field = .ok p → ∀ v ∈ action.newItems, P p.target v := by
      simp [hplan]
    rw [List.forall_mem_cons, ← hhere]
    cases action with
    | one a =>
      exact (applyOne_restricts hcreate list field p.target id a).bind fun _ _ _ _ => ih
    | many plan =>
      have hsteps := applySteps_restricts (w := w) hcreate list field p.target id plan.steps
      rw [flatMap_stepItems] at hsteps
      exact hsteps.bind fun _ _ _ _ => ih

end Worker

end RecordSchema
