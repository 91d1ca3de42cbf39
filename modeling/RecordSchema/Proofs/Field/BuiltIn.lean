import RecordSchema.Field.Factory
import RecordSchema.Proofs.Lists
import RecordSchema.Proofs.Success
import RecordSchema.Schema.Declaration

/-!
# Assembled fields

What is known of a field that was assembled: its storage is legal and it
keeps every input that its type wires. Of the built-in fields more is
known, since they are made by few factories. A key that storage numbers
is set by no client, and the client's value for a relation reaches
storage as it is, with null in the role of a value that was not sent.
-/

namespace RecordSchema

namespace FieldType

/-- The inputs that are wired to operations. -/
def operations (inputs : List (Wired × FieldInput)) : List (Operation × FieldInput) :=
  inputs.filterMap fun
    | (.operation op, i) => some (op, i)
    | (.unknown _, _) => none

theorem checkInput_kept {s : Storage} {w : Wired} {i : FieldInput} {op : Operation} {v : Verdict}
    {p : Option String} (h : s.checkInput w i = .ok (.kept op v p)) : w = .operation op := by
  cases w with
  | unknown => cases h
  | operation op' =>
    simp only [Storage.checkInput] at h
    split at h
    · cases h
    · split at h
      · cases h
      · split at h <;> cases h
        rfl

/-- Checks without problems keep every wired input. -/
theorem kept_eq_operations {s : Storage} {inputs : List (Wired × FieldInput)}
    {checks : List (InputCheck × FieldInput)}
    (h : List.Forall₂ (fun e c => (do return (← s.checkInput e.1 e.2, e.2)) = .ok c) inputs checks)
    (hnone : checks.flatMap (fun c => c.1.problems) = []) :
    (checks.filterMap fun
      | (.kept op v _, i) => some (op, i, v)
      | _ => none).map (fun e => (e.1, e.2.1)) = operations inputs := by
  induction h with
  | nil => rfl
  | @cons e c es cs hc _ ih =>
    obtain ⟨w, i⟩ := e
    simp only [Except.bind_eq_ok, Except.pure_eq_ok] at hc
    obtain ⟨check, hcheck, rfl⟩ := hc
    rw [List.flatMap_cons, List.append_eq_nil_iff] at hnone
    cases check with
    | refused p => cases hnone.1
    | kept op v p =>
      obtain rfl := checkInput_kept hcheck
      exact congrArg ((op, i) :: ·) (ih hnone.2)

/-- A field is assembled from checks that found no problem. -/
theorem assemble_checked {t : FieldType} {list key : String} {label : Option String} {f : Field}
    (h : t.assemble list key label = .ok f) :
    ∃ kept, t.checked = .ok ([], kept) ∧ f.list = list ∧ f.key = key ∧ f.storage = t.storage ∧
      f.inputs = kept.map (fun e => (e.1, e.2.1)) ∧ f.output = t.output := by
  simp only [assemble, Except.bind_eq_ok] at h
  obtain ⟨⟨problems, kept⟩, hchecked, h⟩ := h
  simp only at h
  split at h
  · exact absurd h Except.throw_ne_ok
  · next hnone =>
    rw [List.map_eq_nil_iff] at hnone
    subst hnone
    obtain rfl := Except.pure_eq_ok.1 h
    exact ⟨kept, hchecked, rfl, rfl, rfl, rfl, rfl⟩

/-- Everything that assembling a field has checked. -/
theorem assemble_ok {t : FieldType} {list key : String} {label : Option String} {f : Field}
    (h : t.assemble list key label = .ok f) :
    t.storage.problems = [] ∧ t.storage.defaultProblems = .ok [] ∧ f.list = list ∧ f.key = key ∧
      f.storage = t.storage ∧ f.inputs = operations t.inputs := by
  obtain ⟨kept, hchecked, hlist, hkey, hstorage, hinputs, -⟩ := assemble_checked h
  unfold checked at hchecked
  split at hchecked
  · cases hchecked
  · next hlegal =>
    simp only [Except.bind_eq_ok, Except.pure_eq_ok, Prod.mk.injEq,
      List.append_eq_nil_iff] at hchecked
    obtain ⟨_, hdefaults, checks, hchecks, ⟨rfl, hproblems⟩, rfl⟩ := hchecked
    refine ⟨hlegal, hdefaults, hlist, hkey, hstorage, hinputs.trans ?_⟩
    exact kept_eq_operations (Except.forall₂_of_mapM hchecks) hproblems

/-- An input that is kept by checks without problems has none itself. -/
theorem checkInput_of_checked {t : FieldType} {kept : List (Operation × FieldInput × Verdict)}
    (h : t.checked = .ok ([], kept)) {e : Operation × FieldInput × Verdict} (he : e ∈ kept) :
    ∃ w, t.storage.checkInput w e.2.1 = .ok (.kept e.1 e.2.2 none) := by
  unfold checked at h
  split at h
  · cases h
  · simp only [Except.bind_eq_ok, Except.pure_eq_ok, Prod.mk.injEq, List.append_eq_nil_iff] at h
    obtain ⟨_, -, checks, hchecks, ⟨-, hproblems⟩, rfl⟩ := h
    obtain ⟨⟨check, i⟩, hc, hkept⟩ := List.mem_filterMap.1 he
    have hnone : check.problems = [] := List.flatMap_eq_nil_iff.1 hproblems _ hc
    obtain ⟨⟨w, i'⟩, -, hcheck⟩ := (Except.forall₂_of_mapM hchecks).exists_left hc
    simp only [Except.bind_eq_ok, Except.pure_eq_ok, Prod.mk.injEq] at hcheck
    obtain ⟨check', hcheck, rfl, rfl⟩ := hcheck
    cases check' with
    | refused => cases hkept
    | kept op v p =>
      cases hkept
      cases p with
      | none => exact ⟨w, hcheck⟩
      | some p => cases hnone

/-- Creation without an argument obliges to a resolver. -/
theorem obligation_create {s : Storage} {v : Verdict} (h : s.obligation .create none = .ok v) :
    v.isMandatory = true := by
  obtain ⟨target, -, h⟩ := Except.bind_eq_ok.1 h
  obtain rfl := Except.pure_eq_ok.1 h
  rfl

/-- Wiring without an argument has a resolver if there is no problem with it. -/
theorem resolve_of_checkInput {s : Storage} {w : Wired} {i : FieldInput} {op : Operation}
    {v : Verdict} (h : s.checkInput w i = .ok (.kept op v none)) (hi : i.arg.isNone = true) :
    ∃ g, i.resolve = some g := by
  obtain rfl := checkInput_kept h
  simp only [Storage.checkInput] at h
  split at h
  · cases h
  · split at h
    · cases h
    · next hcreate =>
      obtain rfl : op = .create := by simpa [hi] using hcreate
      rw [Option.isNone_iff_eq_none.1 hi] at h
      split at h
      · next v' hv =>
        obtain ⟨-, rfl, hproblem⟩ := InputCheck.kept.inj (Except.ok.inj h)
        rw [Verdict.problem?, obligation_create hv, Bool.true_and] at hproblem
        cases hg : i.resolve with
        | some g => exact ⟨g, rfl⟩
        | none =>
          rw [hg] at hproblem
          cases hproblem
      · cases h
      · cases h

/-- A field has a resolver wherever it is wired without an argument. -/
theorem assemble_resolves {t : FieldType} {list key : String} {label : Option String} {f : Field}
    (h : t.assemble list key label = .ok f) {e : Operation × FieldInput} (he : e ∈ f.inputs)
    (hi : e.2.arg.isNone = true) : ∃ g, e.2.resolve = some g := by
  obtain ⟨kept, hchecked, -, -, -, hinputs, -⟩ := assemble_checked h
  rw [hinputs] at he
  obtain ⟨k, hk, rfl⟩ := List.mem_map.1 he
  obtain ⟨w, hw⟩ := checkInput_of_checked hchecked hk
  exact resolve_of_checkInput hw hi

/-- A field has the output of its type. -/
theorem assemble_output {t : FieldType} {list key : String} {label : Option String} {f : Field}
    (h : t.assemble list key label = .ok f) : f.output = t.output := by
  obtain ⟨kept, -, -, -, -, -, houtput⟩ := assemble_checked h
  exact houtput

end FieldType

namespace FieldSpec

theorem assemble_ok {spec : FieldSpec} {d : BuildData} {f : Field} (h : spec.assemble d = .ok f) :
    ∃ t, spec.build d = .ok t ∧ t.assemble d.list d.key spec.label = .ok f :=
  Except.bind_eq_ok.1 h

theorem problems_eq_nil {spec : FieldSpec} {d : BuildData} {f : Field}
    (h : spec.assemble d = .ok f) : f.storage.problems = [] := by
  obtain ⟨t, -, ht⟩ := assemble_ok h
  obtain ⟨hlegal, -, -, -, hstorage, -⟩ := FieldType.assemble_ok ht
  rw [hstorage, hlegal]

theorem defaultProblems_eq_nil {spec : FieldSpec} {d : BuildData} {f : Field}
    (h : spec.assemble d = .ok f) : f.storage.defaultProblems = .ok [] := by
  obtain ⟨t, -, ht⟩ := assemble_ok h
  obtain ⟨-, hdefaults, -, -, hstorage, -⟩ := FieldType.assemble_ok ht
  rw [hstorage, hdefaults]

/-! ## Built-in fields -/

/-- The specifications that the factories make; keys, whole and exact numbers,
checkboxes, dates and JSON values are scalar columns. -/
inductive IsBuiltIn : FieldSpec → Prop where
  | scalar (s : Scalar) (o : ScalarOptions) : IsBuiltIn (scalar s o)
  | select (o : SelectOptions) : IsBuiltIn (select o)
  | relationship (o : RelationOptions) : IsBuiltIn (relationship o)
  | virtual (returns : TypeExpr) (resolve : Call → Except Fault Value)
    (label description : Option String) : IsBuiltIn (virtual returns resolve label description)
  | composite (fields : List (String × Storage)) (label description : Option String) :
    IsBuiltIn (composite fields label description)

/-- A column that a client cannot set at creation cannot be set at all. -/
theorem columnInputs_update (path : String) (type : TypeExpr) (mode : Mode)
    (filterType : Option TypeExpr) (unique sortable settable : Bool) :
    ((FieldType.operations
        (columnInputs path type mode filterType unique sortable settable)).lookup .update).isSome =
      ((FieldType.operations
        (columnInputs path type mode filterType unique sortable settable)).lookup .create).isSome := by
  cases mode <;> cases filterType <;> cases unique <;> cases sortable <;> cases settable <;> rfl

/-- A column identifies records by plain values, and only when it is unique. -/
theorem columnInputs_identify {path : String} {type : TypeExpr} {mode : Mode}
    {filterType : Option TypeExpr} {unique sortable settable : Bool} {i : FieldInput}
    (h : (FieldType.operations (columnInputs path type mode filterType unique sortable
      settable)).lookup .identify = some i) : i.resolve = none ∧ unique = true := by
  cases mode <;> cases filterType <;> cases unique <;> cases sortable <;> cases settable <;>
    cases h <;> exact ⟨rfl, rfl⟩

theorem select_storage {o : SelectOptions} {d : BuildData} {t : FieldType}
    (h : (select o).build d = .ok t) : ∃ e, t.storage = .enum e := by
  simp only [select] at h
  split at h
  · obtain rfl := Except.pure_eq_ok.1 h
    exact ⟨_, rfl⟩
  · obtain ⟨_, -, h⟩ := Except.bind_eq_ok.1 h
    obtain rfl := Except.pure_eq_ok.1 h
    exact ⟨_, rfl⟩

theorem composite_storage {fields : List (String × Storage)} {label description : Option String}
    {d : BuildData} {t : FieldType} (h : (composite fields label description).build d = .ok t) :
    t.storage = .multi fields := by
  simp only [composite] at h
  split at h
  · obtain rfl := Except.pure_eq_ok.1 h
    rfl
  · obtain ⟨_, -, h⟩ := Except.bind_eq_ok.1 h
    obtain rfl := Except.pure_eq_ok.1 h
    rfl

/-- A relation is wired for writing and filtering, unless its target is missing. -/
theorem relationship_wiring {o : RelationOptions} {d : BuildData} {t : FieldType}
    (h : (relationship o).build d = .ok t) :
    (∃ r, t.storage = .relation r) ∧
      (t.inputs = [] ∨ ∃ create update filter : FieldInput,
        create.resolve = some nullAsUnset ∧ update.resolve = some nullAsUnset ∧
          t.inputs = [(.operation .create, create), (.operation .update, update),
            (.operation .filter, filter)]) := by
  simp only [relationship] at h
  split at h
  · cases h
    exact ⟨⟨_, rfl⟩, .inl rfl⟩
  · split at h <;> cases h
    · exact ⟨⟨_, rfl⟩, .inr ⟨_, _, _, rfl, rfl, rfl⟩⟩
    · exact ⟨⟨_, rfl⟩, .inr ⟨_, _, _, rfl, rfl, rfl⟩⟩

/-- No client sets a key that storage numbers. -/
theorem IsBuiltIn.accepts_eq_false {spec : FieldSpec} (hb : spec.IsBuiltIn) {d : BuildData}
    {f : Field} (h : spec.assemble d = .ok f) (hn : Declarations.isNumberedKey f = true) :
    f.accepts .create = false ∧ f.accepts .update = false := by
  obtain ⟨t, hbuild, ht⟩ := assemble_ok h
  obtain ⟨-, -, -, -, hstorage, hinputs⟩ := FieldType.assemble_ok ht
  simp only [Declarations.isNumberedKey] at hn
  split at hn
  · next s hs =>
    have hcreate : f.accepts .create = false := by
      simp only [Bool.and_eq_true, Bool.not_eq_true'] at hn
      exact hn.2
    refine ⟨hcreate, ?_⟩
    rw [hstorage] at hs
    cases hb with
    | scalar =>
      cases hbuild
      simp only [Field.accepts, Field.input?, hinputs] at hcreate ⊢
      rw [columnInputs_update]
      exact hcreate
    | select o =>
      obtain ⟨e, he⟩ := select_storage hbuild
      rw [he] at hs
      cases hs
    | relationship o =>
      obtain ⟨⟨r, hr⟩, -⟩ := relationship_wiring hbuild
      rw [hr] at hs
      cases hs
    | virtual =>
      cases hbuild
      cases hs
    | composite =>
      rw [composite_storage hbuild] at hs
      cases hs
  · cases hn

/-- The client's value for a relation is taken as it is, and null as not sent. -/
theorem IsBuiltIn.relation_resolve {spec : FieldSpec} (hb : spec.IsBuiltIn) {d : BuildData}
    {f : Field} (h : spec.assemble d = .ok f) {r : RelationField} (hr : f.storage = .relation r)
    {op : Operation} (hop : op = .create ∨ op = .update) {i : FieldInput}
    (hi : f.input? op = some i) : i.resolve = some nullAsUnset := by
  obtain ⟨t, hbuild, ht⟩ := assemble_ok h
  obtain ⟨-, -, -, -, hstorage, hinputs⟩ := FieldType.assemble_ok ht
  rw [hstorage] at hr
  cases hb with
  | relationship o =>
    obtain ⟨-, hnone | ⟨create, update, filter, hcreate, hupdate, hwired⟩⟩ :=
      relationship_wiring hbuild
    · rw [Field.input?, hinputs, hnone] at hi
      cases hi
    · rw [Field.input?, hinputs, hwired] at hi
      rcases hop with rfl | rfl <;> cases hi <;> assumption
  | scalar =>
    cases hbuild
    cases hr
  | select o =>
    obtain ⟨e, he⟩ := select_storage hbuild
    rw [he] at hr
    cases hr
  | virtual =>
    cases hbuild
    cases hr
  | composite =>
    rw [composite_storage hbuild] at hr
    cases hr

/-- Only a unique column identifies records, and it takes the client's value as it is. -/
theorem IsBuiltIn.identify {spec : FieldSpec} (hb : spec.IsBuiltIn) {d : BuildData} {f : Field}
    (h : spec.assemble d = .ok f) {i : FieldInput} (hi : f.input? .identify = some i) :
    i.resolve = none ∧ f.storage.isScalarish = true ∧ f.storage.index? = some .unique := by
  obtain ⟨t, hbuild, ht⟩ := assemble_ok h
  obtain ⟨-, -, -, -, hstorage, hinputs⟩ := FieldType.assemble_ok ht
  rw [Field.input?, hinputs] at hi
  rw [hstorage]
  cases hb with
  | scalar s o =>
    cases hbuild
    obtain ⟨hresolve, hunique⟩ := columnInputs_identify hi
    exact ⟨hresolve, rfl, by simp only [Storage.index?, IndexKind.of?, hunique, if_true]⟩
  | select o =>
    simp only [FieldSpec.select] at hbuild
    split at hbuild
    · cases Except.pure_eq_ok.1 hbuild
      cases hi
    · obtain ⟨_, -, hbuild⟩ := Except.bind_eq_ok.1 hbuild
      cases Except.pure_eq_ok.1 hbuild
      obtain ⟨hresolve, hunique⟩ := columnInputs_identify hi
      exact ⟨hresolve, rfl, by simp only [Storage.index?, IndexKind.of?, hunique, if_true]⟩
  | relationship o =>
    obtain ⟨-, hnone | ⟨create, update, filter, -, -, hwired⟩⟩ := relationship_wiring hbuild
    · rw [hnone] at hi
      cases hi
    · rw [hwired] at hi
      cases hi
  | virtual =>
    cases hbuild
    cases hi
  | composite =>
    simp only [FieldSpec.composite] at hbuild
    split at hbuild
    · cases Except.pure_eq_ok.1 hbuild
      cases hi
    · obtain ⟨_, -, hbuild⟩ := Except.bind_eq_ok.1 hbuild
      cases Except.pure_eq_ok.1 hbuild
      cases hi

end FieldSpec

/-- A key that storage numbers is no stamped column. -/
theorem Declarations.not_isStamped_of_isNumberedKey {f : Field} (hp : f.storage.problems = [])
    (hn : Declarations.isNumberedKey f = true) : f.storage.isStamped = false := by
  simp only [Declarations.isNumberedKey] at hn
  split at hn
  · next s hs =>
    simp only [Bool.and_eq_true, beq_iff_eq] at hn
    simp only [hs, Storage.problems, Storage.scalarProblems, Storage.complain, hn.1.1] at hp
    rw [hs, Storage.isStamped]
    cases hu : s.updatedAt with
    | false => rfl
    | true => simp [hu] at hp
  · cases hn

end RecordSchema
