import RecordSchema.Default
import RecordSchema.Proofs.Shape.Column
import RecordSchema.Proofs.Value.Json

/-!
# Values of defaults

The value that a legal default gives at creation has the shape that the
column takes: a literal has become a value of the scalar type or is one
of the texts of the enum, whatever is generated is a text or a date where
those are stored, and what storage fills in is left out.
-/

namespace RecordSchema

/-! ## Literals -/

/-- A literal stands for a value of the scalar type. -/
theorem Scalar.admits_of_ofLiteral {s : Scalar} {v w : Value} (h : s.ofLiteral v = .ok w) :
    s.admits w = true := by
  unfold ofLiteral at h
  split at h
  case h_10 | h_13 | h_17 =>
    split at h <;> cases h
    rfl
  case h_15 =>
    split at h
    · next hread =>
      cases h
      exact Json.read_isJson hread
    · cases h
  all_goals cases h
  all_goals rfl

/-! ## Generated values -/

namespace Generated

variable {v : Value} {m m' : Supply}

theorem cuid_text (h : cuid.run m = .ok (v, m')) : ∃ s, v = .text s := by
  cases h
  exact ⟨_, rfl⟩

theorem now_dateTime (h : now.run m = .ok (v, m')) : ∃ t, v = .dateTime t := by
  cases h
  exact ⟨_, rfl⟩

theorem randomText_text {count encoding : Value}
    (h : (randomText count encoding).run m = .ok (v, m')) : ∃ s, v = .text s := by
  simp only [randomText, StateT.run_bind, Except.bind_eq_ok] at h
  obtain ⟨_, -, _, -, h⟩ := h
  cases h
  exact ⟨_, rfl⟩

end Generated

/-- What a legal policy gives a scalar column is one of its values, or left to storage. -/
theorem Policy.generate_ok {p : Policy} {s : Scalar} (hp : s.allows (.policy p) = true) {v : Value}
    {m m' : Supply} (h : (p.generate (some s)).run m = .ok (v, m')) :
    (v = .unset ∧ (p = .autoincrement ∨ ∃ e, p = .dbGenerated e)) ∨ s.admits v = true := by
  cases p with
  | literal w =>
    simp only [generate, StateT.run_monadLift, Except.bind_eq_ok, Except.pure_eq_ok] at h
    obtain ⟨a, ha, heq⟩ := h
    obtain ⟨rfl, -⟩ := Prod.mk.inj heq
    exact .inr (Scalar.admits_of_ofLiteral ha)
  | cuid =>
    obtain ⟨t, rfl⟩ := Generated.cuid_text h
    cases s <;> first | exact .inr rfl | cases hp
  | uuid =>
    simp only [generate, StateT.run_bind, Except.bind_eq_ok] at h
    obtain ⟨⟨bs, _⟩, -, h⟩ := h
    cases h
    cases s <;> first | exact .inr rfl | cases hp
  | random count encoding =>
    obtain ⟨t, rfl⟩ := Generated.randomText_text h
    cases s <;> first | exact .inr rfl | cases hp
  | now =>
    obtain ⟨t, rfl⟩ := Generated.now_dateTime h
    cases s <;> first | exact .inr rfl | cases hp
  | autoincrement =>
    cases h
    exact .inl ⟨rfl, .inl rfl⟩
  | dbGenerated e =>
    cases h
    exact .inl ⟨rfl, .inr ⟨e, rfl⟩⟩

namespace Storage

/-! ## Columns -/

/-- The default of a scalar column whose declaration has no problems gives it a value. -/
theorem scalar_defaultValue_conforms {f : ScalarField}
    (hd : defaultProblems (.scalar f) = .ok []) {v : Value} {m m' : Supply}
    (h : (defaultValue (.scalar f)).run m = .ok (v, m')) :
    (Shape.ofColumn (.scalar f.scalar) f.mode .create).conforms v = true := by
  rw [defaultValue] at h
  rw [defaultProblems] at hd
  split at h
  · next d hdefault =>
    rw [hdefault] at hd
    dsimp only at hd
    split at hd
    · cases hd
    · next hmode =>
      rw [if_neg hmode] at h
      unfold ScalarField.defaultProblems at hd
      split at hd
      · cases hd
      · next hallows =>
        rw [Bool.not_eq_true', Bool.not_eq_false] at hallows
        cases d with
        | bare w => cases hallows
        | policy p =>
          rcases p.generate_ok hallows h with ⟨rfl, -⟩ | hv
          · exact Shape.conforms_ofColumn_unset (.inl rfl)
          · exact Shape.conforms_ofColumn_value (.inl rfl) hmode hv
  · cases h
    exact Shape.conforms_ofColumn_unset (.inl rfl)

/-- The default of an enum column whose declaration has no problems is one of its texts. -/
theorem enum_defaultValue_conforms {f : EnumField} (hd : defaultProblems (.enum f) = .ok [])
    {v : Value} {m m' : Supply} (h : (defaultValue (.enum f)).run m = .ok (v, m')) :
    (Shape.ofColumn (.enum f.name f.values) f.mode .create).conforms v = true := by
  rw [defaultValue] at h
  rw [defaultProblems] at hd
  split at h
  · next d hdefault =>
    rw [hdefault] at hd
    dsimp only at hd
    split at hd
    · cases hd
    · next hmode =>
      rw [if_neg hmode] at h
      unfold EnumField.defaultProblems at hd
      split at hd
      · next w =>
        cases h
        have hany : f.values.any (fun s => v.isText s) = true := by
          simpa [complain] using hd
        obtain ⟨s, hs, htext⟩ := List.any_eq_true.1 hany
        obtain rfl := Value.isText_iff.1 htext
        refine Shape.conforms_ofColumn_value (.inl rfl) hmode ?_
        rw [Shape.conforms]
        exact List.contains_iff_mem.2 hs
      · cases hd
  · cases h
    exact Shape.conforms_ofColumn_unset (.inl rfl)

theorem defaultValue_conforms {s : Storage} (hd : s.defaultProblems = .ok []) {shape : Shape}
    (hshape : s.columnShapeFor? .create = some shape) {v : Value} {m m' : Supply}
    (h : s.defaultValue.run m = .ok (v, m')) : shape.conforms v = true := by
  cases s with
  | scalar f =>
    cases hshape
    exact scalar_defaultValue_conforms hd h
  | enum f =>
    cases hshape
    exact enum_defaultValue_conforms hd h
  | _ => cases hshape

/-! ## Columns of composites -/

theorem subfieldDefaultProblems_ok {fields : List (String × Storage)}
    (h : subfieldDefaultProblems fields = .ok []) :
    ∀ e ∈ fields, e.2.defaultProblems = .ok [] := by
  induction fields with
  | nil => nofun
  | cons e r ih =>
    obtain ⟨name, s⟩ := e
    simp only [subfieldDefaultProblems, Except.bind_eq_ok, Except.pure_eq_ok,
      List.append_eq_nil_iff, List.map_eq_nil_iff] at h
    obtain ⟨_, hs, _, hr, rfl, rfl⟩ := h
    exact List.forall_mem_cons.2 ⟨hs, ih hr⟩

end Storage

end RecordSchema
