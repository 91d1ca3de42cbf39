import RecordSchema.Request.Write

/-!
# Outcomes of work

Work on a session ends with a result or a fault, and with a session in
both cases. `Work.outcome` says what that is, and `Work.Yields` that the
work succeeds. Work that succeeds is taken apart at its binds
(`bind_yields`): a success of the whole is a success of both parts, with
the session of the first handed to the second.
-/

namespace RecordSchema

namespace Work

variable {α β : Type}

/-- What work ends with when it starts from a session. -/
def outcome (x : Work α) (s : Session) : Except Fault α × Session :=
  Id.run (x.run.run s)

/-- The work succeeds with a result and leaves a session. -/
def Yields (x : Work α) (s : Session) (a : α) (s' : Session) : Prop :=
  x.outcome s = (.ok a, s')

/-! ## Outcomes of single steps -/

@[simp] theorem outcome_pure (a : α) (s : Session) :
    (pure a : Work α).outcome s = (.ok a, s) := rfl

@[simp] theorem outcome_throw (f : Fault) (s : Session) :
    (throw f : Work α).outcome s = (.error f, s) := rfl

@[simp] theorem outcome_ofExcept (r : Except Fault α) (s : Session) :
    (ofExcept r).outcome s = (r, s) := by
  cases r <;> rfl

@[simp] theorem outcome_get (s : Session) :
    (get : Work Session).outcome s = (.ok s, s) := rfl

@[simp] theorem outcome_store (s : Session) :
    store.outcome s = (.ok s.store, s) := rfl

@[simp] theorem outcome_setStore (t : Store) (s : Session) :
    (setStore t).outcome s = (.ok (), { s with store := t }) := rfl

theorem outcome_bind (x : Work α) (f : α → Work β) (s : Session) :
    (x >>= f).outcome s =
      match x.outcome s with
      | (.ok a, m) => (f a).outcome m
      | (.error e, m) => (.error e, m) := by
  simp only [outcome, bind, ExceptT.bind, ExceptT.run, ExceptT.mk, StateT.bind, StateT.run, Id.run]
  rcases x s with ⟨r, m⟩
  cases r <;> rfl

/-- What holds however the first part ends, and however the second ends after it, holds
however the whole ends. -/
theorem bind_ends {x : Work α} {f : α → Work β} {P : Session → Prop} {s : Session}
    (hx : P (x.outcome s).2) (hf : ∀ a m, x.Yields s a m → P m → P ((f a).outcome m).2) :
    P ((x >>= f).outcome s).2 := by
  rw [outcome_bind]
  rcases ho : x.outcome s with ⟨r, m⟩
  rw [ho] at hx
  cases r with
  | ok a => exact hf a m ho hx
  | error e => exact hx

theorem Yields.outcome_bind {x : Work α} {f : α → Work β} {a : α} {s m : Session}
    (h : x.Yields s a m) : (x >>= f).outcome s = (f a).outcome m := by
  rw [Work.outcome_bind, h]

theorem outcome_bind_error {x : Work α} {f : α → Work β} {e : Fault} {s m : Session}
    (h : x.outcome s = (.error e, m)) : (x >>= f).outcome s = (.error e, m) := by
  rw [Work.outcome_bind, h]

/-! ## Taking success apart -/

theorem exists_yields {x : Work α} {s : Session} (h : (x.outcome s).1.isOk = true) :
    ∃ a s', x.Yields s a s' := by
  unfold Yields
  generalize x.outcome s = o at h
  obtain ⟨r, s'⟩ := o
  cases r with
  | ok a => exact ⟨a, s', rfl⟩
  | error => cases h

@[simp] theorem pure_yields {a b : α} {s s' : Session} :
    (pure a : Work α).Yields s b s' ↔ a = b ∧ s = s' := by
  simp [Yields]

@[simp] theorem not_throw_yields {f : Fault} {b : α} {s s' : Session} :
    ¬ (throw f : Work α).Yields s b s' := by
  simp [Yields]

@[simp] theorem ofExcept_yields {r : Except Fault α} {b : α} {s s' : Session} :
    (ofExcept r).Yields s b s' ↔ r = .ok b ∧ s = s' := by
  simp [Yields]

@[simp] theorem store_yields {t : Store} {s s' : Session} :
    store.Yields s t s' ↔ s.store = t ∧ s = s' := by
  simp [Yields]

@[simp] theorem setStore_yields {t : Store} {s s' : Session} :
    (setStore t).Yields s () s' ↔ { s with store := t } = s' := by
  simp [Yields]

@[simp] theorem get_yields {r s s' : Session} :
    (get : Work Session).Yields s r s' ↔ s = r ∧ s = s' := by
  simp [Yields]

theorem bind_yields {x : Work α} {f : α → Work β} {b : β} {s s' : Session} :
    (x >>= f).Yields s b s' ↔ ∃ a m, x.Yields s a m ∧ (f a).Yields m b s' := by
  simp only [Yields, outcome_bind]
  rcases x.outcome s with ⟨r, m⟩
  cases r with
  | ok a =>
    constructor
    · intro h
      exact ⟨a, m, rfl, h⟩
    · rintro ⟨_, _, ⟨⟩, h⟩
      exact h
  | error e => simp

/-- Generated values are drawn without a look at the store. -/
theorem generate_yields {g : Generated α} {a : α} {s s' : Session}
    (h : (generate g).Yields s a s') :
    ∃ supply, g.run s.supply = .ok (a, supply) ∧ s' = { s with supply } := by
  simp only [generate, bind_yields, get_yields, ofExcept_yields, pure_yields] at h
  obtain ⟨_, _, ⟨rfl, rfl⟩, ⟨b, supply⟩, _, ⟨hg, rfl⟩, _, m, hm, rfl, rfl⟩ := h
  exact ⟨supply, hg, (Prod.mk.inj hm).2.symm⟩

theorem generate_store (g : Generated α) (s : Session) :
    ((generate g).outcome s).2.store = s.store := by
  simp only [generate, outcome_bind, outcome_get, outcome_ofExcept]
  cases g.run s.supply <;> rfl

theorem yields_generate {g : Generated α} {a : α} {s : Session} {supply : Supply}
    (h : g.run s.supply = .ok (a, supply)) : (generate g).Yields s a { s with supply } := by
  simp only [generate, bind_yields, get_yields, ofExcept_yields, pure_yields]
  exact ⟨s, s, ⟨rfl, rfl⟩, (a, supply), s, ⟨h, rfl⟩, (), _, rfl, rfl, rfl⟩

/-! ## Work that only reads -/

/-- The work leaves every session as it is, however it ends. -/
def Reads (x : Work α) : Prop :=
  ∀ s, (x.outcome s).2 = s

theorem Reads.eq {x : Work α} (hx : x.Reads) {a : α} {s s' : Session} (h : x.Yields s a s') :
    s = s' := by
  have hs := hx s
  rw [h] at hs
  exact hs.symm

theorem reads_pure (a : α) : (pure a : Work α).Reads := fun _ => rfl

theorem reads_throw (f : Fault) : (throw f : Work α).Reads := fun _ => rfl

theorem reads_ofExcept (r : Except Fault α) : (ofExcept r).Reads := fun s => by
  rw [outcome_ofExcept]

theorem reads_get : (get : Work Session).Reads := fun _ => rfl

theorem reads_store : store.Reads := fun _ => rfl

theorem Reads.bind_ends {x : Work α} {f : α → Work β} {P : Session → Prop} {s : Session}
    (hx : x.Reads) (hs : P s) (hf : ∀ a, x.Yields s a s → P ((f a).outcome s).2) :
    P ((x >>= f).outcome s).2 := by
  refine Work.bind_ends ((hx s).symm ▸ hs) fun a m ha _ => ?_
  obtain rfl := hx.eq ha
  exact hf a ha

theorem Reads.bind {x : Work α} {f : α → Work β} (hx : x.Reads) (hf : ∀ a, (f a).Reads) :
    (x >>= f).Reads :=
  fun s => hx.bind_ends (P := fun m => m = s) rfl fun a _ => hf a s

end Work

end RecordSchema
