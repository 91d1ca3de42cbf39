import RecordSchema.Proofs.Field.BuiltIn
import RecordSchema.Proofs.Shape.Column

/-!
# Outputs of built-in fields

Output shows a value of a field when the value has the shape of output
and the resolver of the output takes it. Scalar fields have no resolver,
choices take their members and null, and composites take every column
that is no list of choices. So the output of a choice is decided by the
shape alone, and that of a composite by its columns.
-/

namespace RecordSchema

open FieldSpec

/-! ## Wiring -/

/-- Whether an output is that of a built-in field of a kind. A relation without a target
has none. -/
inductive Storage.HasOutput : Storage → Option FieldOutput → Prop where
  | virtual (o : FieldOutput) (g : Call → Except Fault Value) (h : o.resolve = some (.compute g)) :
    HasOutput .none (some o)
  | scalar (s : ScalarField) (o : FieldOutput) (h : o.resolve = Option.none) :
    HasOutput (.scalar s) (some o)
  | select (e : EnumField) (o : FieldOutput) (hone : e.mode ≠ .many)
    (h : o.resolve = some (.compute fun c =>
      if c.value.isNull then .ok .null else memberOf e.name e.values c.value)) :
    HasOutput (.enum e) (some o)
  | missing (r : RelationField) : HasOutput (.relation r) Option.none
  | follow (r : RelationField) (o : FieldOutput) (hone : r.mode = .one)
    (h : o.resolve = some .follow) : HasOutput (.relation r) (some o)
  | search (r : RelationField) (o : FieldOutput) (hmany : r.mode = .many)
    (h : o.resolve = some .search) : HasOutput (.relation r) (some o)
  | composite (fields : List (String × Storage)) (o : FieldOutput) (base : String)
    (h : o.resolve = some (.compute fun c => compositeOutput base fields c.value)) :
    HasOutput (.multi fields) (some o)

namespace FieldSpec

theorem select_hasOutput {o : SelectOptions} {d : BuildData} {t : FieldType}
    (h : (select o).build d = .ok t) (hp : t.storage.problems = []) :
    t.storage.HasOutput t.output := by
  simp only [select] at h
  split at h
  · next hvalues =>
    obtain rfl := Except.pure_eq_ok.1 h
    simp only [Bool.or_eq_true] at hvalues
    dsimp only [Storage.problems, Storage.enumProblems, Storage.complain] at hp
    split at hp
    · cases hp
    · next hempty => rw [if_pos (hvalues.resolve_left hempty)] at hp; cases hp
  · obtain ⟨_, -, h⟩ := Except.bind_eq_ok.1 h
    obtain rfl := Except.pure_eq_ok.1 h
    have hone : Mode.of o.required false ≠ .many := by cases o.required <;> decide
    exact .select _ _ hone rfl

theorem relationship_hasOutput {o : RelationOptions} {d : BuildData} {t : FieldType}
    (h : (relationship o).build d = .ok t) : t.storage.HasOutput t.output := by
  simp only [relationship] at h
  split at h
  · cases h
    exact .missing _
  · split at h <;> cases h
    · exact .search _ _ rfl rfl
    · exact .follow _ _ rfl rfl

theorem composite_hasOutput {fields : List (String × Storage)} {label description : Option String}
    {d : BuildData} {t : FieldType} (h : (composite fields label description).build d = .ok t)
    (hp : t.storage.problems = []) : t.storage.HasOutput t.output := by
  simp only [composite] at h
  split at h
  · next hnone =>
    obtain rfl := Except.pure_eq_ok.1 h
    refine absurd hnone (Option.ne_none_iff_exists'.2 (Option.exists_mapM fun e he => ?_))
    have hs := (Storage.legal_of_mem hp he).1
    obtain ⟨name, s⟩ := e
    cases s <;> first | exact ⟨_, rfl⟩ | cases hs
  · obtain ⟨_, -, h⟩ := Except.bind_eq_ok.1 h
    obtain rfl := Except.pure_eq_ok.1 h
    exact .composite _ _ _ rfl

/-- Every built-in field has the output of its kind. -/
theorem IsBuiltIn.hasOutput {spec : FieldSpec} (hb : spec.IsBuiltIn) {d : BuildData} {f : Field}
    (h : spec.assemble d = .ok f) : f.storage.HasOutput f.output := by
  obtain ⟨t, hbuild, ht⟩ := assemble_ok h
  obtain ⟨hp, -, -, -, hstorage, -⟩ := FieldType.assemble_ok ht
  rw [hstorage, FieldType.assemble_output ht]
  cases hb with
  | scalar =>
    cases hbuild
    exact .scalar _ _ rfl
  | select => exact select_hasOutput hbuild hp
  | relationship => exact relationship_hasOutput hbuild
  | virtual =>
    cases hbuild
    exact .virtual _ _ rfl
  | composite => exact composite_hasOutput hbuild hp

/-- Whether a specification computes its value by a function that never fails, if it
computes it. -/
inductive Answers : FieldSpec → Prop where
  | virtual (returns : TypeExpr) (resolve : Call → Except Fault Value)
    (label description : Option String) (h : ∀ c, (resolve c).isOk = true) :
    Answers (virtual returns resolve label description)
  | stored (spec : FieldSpec) (h : ∀ d t, spec.build d = .ok t → t.storage ≠ .none) : Answers spec

theorem Answers.scalar (s : Scalar) (o : ScalarOptions) : (scalar s o).Answers :=
  .stored _ fun d t h => by
    cases h
    nofun

theorem Answers.composite (fields : List (String × Storage)) (label description : Option String) :
    (composite fields label description).Answers :=
  .stored _ fun d t h => by
    rw [composite_storage h]
    nofun

theorem Answers.isOk_compute {spec : FieldSpec} (ha : spec.Answers) {d : BuildData} {f : Field}
    (h : spec.assemble d = .ok f) (hs : f.storage = .none) {o : FieldOutput}
    (ho : f.output = some o) {g : Call → Except Fault Value} (hg : o.resolve = some (.compute g))
    (c : Call) : (g c).isOk = true := by
  obtain ⟨t, hbuild, ht⟩ := assemble_ok h
  obtain ⟨-, -, -, -, hstorage, -⟩ := FieldType.assemble_ok ht
  rw [FieldType.assemble_output ht] at ho
  cases ha with
  | virtual returns resolve label description hresolve =>
    cases hbuild
    cases ho
    cases hg
    exact hresolve _
  | stored _ hne => exact absurd (hstorage.symm.trans hs) (hne d t hbuild)

end FieldSpec

/-! ## Resolvers -/

namespace Shape

theorem conforms_enum {name : String} {values : List String} {v : Value} :
    (Shape.enum name values).conforms v = values.any fun s => v.isText s := by
  cases v with
  | text t =>
    rw [conforms, List.contains_eq_any_beq]
    rfl
  | _ => exact (List.any_eq_false.2 fun _ _ => Bool.false_ne_true).symm

end Shape

namespace FieldSpec

theorem isOk_memberOf (name : String) (values : List String) (v : Value) :
    (memberOf name values v).isOk = (Shape.enum name values).conforms v := by
  rw [Shape.conforms_enum, memberOf]
  split
  · next h => exact h.symm
  · next h => exact (Bool.not_eq_true _ ▸ h).symm

theorem isOk_compositeOutput (base : String) (fields : List (String × Storage))
    (es : Value.Entries) : (compositeOutput base fields (.map es)).isOk =
      fields.all fun e => (subfieldOutput base es e.1 e.2).isOk := by
  rw [← Except.isOk_mapM, compositeOutput]
  cases fields.mapM fun e => subfieldOutput base es e.1 e.2 <;> rfl

theorem isOk_subfieldOutput_enum (base : String) (es : Value.Entries) (name : String)
    (f : EnumField) : (subfieldOutput base es name (.enum f)).isOk =
      (((es.value? name).getD .null).isNull ||
        f.values.any fun s => ((es.value? name).getD .null).isText s) := by
  rw [subfieldOutput]
  dsimp only [choices?]
  cases ((es.value? name).getD .null).isNull with
  | true => rfl
  | false => rw [if_neg Bool.false_ne_true, Except.isOk_map, isOk_memberOf, Shape.conforms_enum]; rfl

end FieldSpec

namespace Storage

/-- Whether a column holds a list of choices. -/
def isManyChoice : Storage → Bool
  | .enum f => f.mode == .many
  | _ => false

theorem gives_scalar {f : ScalarField} {v : Value} :
    (Storage.scalar f).gives v = true ↔ (Shape.scalar f.scalar).IsHeld f.mode v :=
  Shape.conforms_ofColumn_output

theorem gives_enum {f : EnumField} {v : Value} :
    (Storage.enum f).gives v = true ↔ (Shape.enum f.name f.values).IsHeld f.mode v :=
  Shape.conforms_ofColumn_output

theorem not_isHeld_unset {value : Shape} (hvalue : value.conforms .unset = false) (mode : Mode) :
    ¬ value.IsHeld mode .unset := by
  cases mode with
  | many => exact nofun
  | required => exact fun h => Bool.false_ne_true (hvalue.symm.trans h)
  | nullable => exact fun h => h.elim (fun h => Bool.false_ne_true (hvalue.symm.trans h)) nofun

theorem gives_unset (s : Storage) : s.gives .unset = false := by
  refine Bool.eq_false_iff.2 fun h => ?_
  cases s with
  | scalar f =>
    have hvalue : (Shape.scalar f.scalar).conforms .unset = false := by cases f.scalar <;> rfl
    exact not_isHeld_unset hvalue f.mode (gives_scalar.1 h)
  | enum f => exact not_isHeld_unset rfl f.mode (gives_enum.1 h)
  | _ => cases h

/-- A composite shows every value that one of its columns gives back, but no list of
choices. -/
theorem isOk_subfieldOutput {base : String} {es : Value.Entries} {name : String} {s : Storage}
    (h : s.gives (es.get name) = true) :
    (subfieldOutput base es name s).isOk = !s.isManyChoice := by
  have hvalue : (es.value? name).getD .null = es.get name := by
    unfold Value.Entries.get at h ⊢
    cases hv : es.value? name with
    | some v => rfl
    | none =>
      rw [hv, Option.getD_none, gives_unset] at h
      cases h
  cases s with
  | enum f =>
    rw [isOk_subfieldOutput_enum, hvalue]
    change _ = !(f.mode == .many)
    have hheld := gives_enum.1 h
    generalize es.get name = v at hheld
    generalize f.mode = mode at hheld
    cases mode with
    | many =>
      obtain ⟨vs, hvs, -⟩ := Shape.conforms_listOf.1 hheld
      cases v <;> cases hvs <;> simp [Value.isNull, Value.isText]
    | required =>
      rw [← Shape.conforms_enum, show Shape.conforms _ v = true from hheld, Bool.or_true]
      rfl
    | nullable =>
      rcases hheld with hheld | rfl
      · rw [← Shape.conforms_enum, hheld, Bool.or_true]
        rfl
      · rfl
  | _ => rfl

end Storage

/-! ## Outputs -/

namespace Field

variable {f : Field} {reach : Reach} {c : Call}

/-- Output shows a value of its shape that its resolver takes. -/
theorem isOk_resolveOutput : (f.resolveOutput reach c).isOk =
    ((f.shape .output).conforms c.value &&
      (f.output.bind (·.resolve)).all fun r => (callOutput reach r c).isOk) := by
  unfold resolveOutput
  cases (f.shape .output).conforms c.value with
  | false => rfl
  | true =>
    cases f.output.bind (·.resolve) with
    | none => rfl
    | some r => cases hr : callOutput reach r c <;> simp [hr, Except.mapError, Except.isOk, Except.toBool]

theorem isOwn_of_resolveOutput {fault : Fault} (h : f.resolveOutput reach c = .error fault) :
    fault.isOwn = true := by
  unfold resolveOutput at h
  split at h
  · cases h
    rfl
  · split at h
    · cases h
    · next r _ =>
      cases hr : callOutput reach r c with
      | ok v => rw [hr] at h; cases h
      | error e =>
        rw [hr] at h
        cases h
        unfold wrap
        split
        · assumption
        · rfl

theorem isOk_resolveOutput_column (ho : f.storage.HasOutput f.output)
    (hs : f.storage.isScalarish = true) :
    (f.resolveOutput reach c).isOk = f.storage.gives c.value := by
  rw [isOk_resolveOutput, Field.shape]
  generalize f.storage = s, f.output = o at ho hs
  cases ho with
  | scalar s o h =>
    rw [Option.bind_some, h, Option.all_none, Bool.and_true]
    rfl
  | select e o hone h =>
    change ((Storage.enum e).gives c.value && _) = (Storage.enum e).gives c.value
    rw [Option.bind_some, h, Option.all_some, callOutput]
    refine Bool.and_eq_left_iff_imp.2 fun hgives => ?_
    have hheld := Storage.gives_enum.1 hgives
    generalize c.value = v at hheld
    split
    · rfl
    · next hnull =>
      rw [isOk_memberOf]
      unfold Shape.IsHeld at hheld
      split at hheld
      · next hmany => exact absurd hmany hone
      · exact hheld
      · exact hheld.resolve_right fun hv => hnull (hv ▸ rfl)
  | _ => cases hs

/-- A composite shows what its columns give back when none is a list of choices. -/
theorem isOk_resolveOutput_composite (ho : f.storage.HasOutput f.output)
    (hp : f.storage.problems = []) {fields : List (String × Storage)}
    (hs : f.storage = .multi fields) {es : Value.Entries} (hv : c.value = .map es) :
    (f.resolveOutput reach c).isOk =
      fields.all fun e => e.2.gives (es.get e.1) && !e.2.isManyChoice := by
  obtain ⟨shape, hshape⟩ := Storage.exists_shape hp .output
  rw [isOk_resolveOutput, Field.shape, hshape]
  rw [hs] at ho hshape
  obtain ⟨fs, hfs, rfl⟩ := Storage.multi_shape_ok (by decide) hshape
  have hconforms : (Shape.record fs).conforms (.map es) =
      fields.all fun e => e.2.gives (es.get e.1) := by
    rw [Bool.eq_iff_iff, List.all_eq_true]
    exact Storage.conformsFields_iff hfs
  dsimp only
  rw [hv, hconforms]
  generalize f.output = o at ho
  cases ho with
  | composite fields o base h =>
    rw [Option.bind_some, h, Option.all_some, callOutput, hv, isOk_compositeOutput]
    rw [Bool.eq_iff_iff, Bool.and_eq_true]
    simp only [List.all_eq_true, Bool.and_eq_true]
    constructor
    · rintro ⟨hgives, hok⟩ e he
      exact ⟨hgives e he, Storage.isOk_subfieldOutput (hgives e he) ▸ hok e he⟩
    · intro hall
      refine ⟨fun e he => (hall e he).1, fun e he => ?_⟩
      rw [Storage.isOk_subfieldOutput (hall e he).1]
      exact (hall e he).2

end Field

end RecordSchema
