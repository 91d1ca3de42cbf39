import RecordSchema.Proofs.Request.Typed

/-!
# Legal defaults generate

Legality and generation are written apart: the one reads a declaration,
the other runs it. A declaration without problems always generates, and
what it generates has the shape that the field takes at creation. The
one exception is a size that no machine has: random bytes are counted by
a machine word, legality asks only that there be some, and a number of
bytes past the longest string of bytes fails when they are drawn.

`Generated.Succeeds` says both of a computation at once, so that a
composite generates just when its columns do.
-/

namespace RecordSchema

/-! ## Computations that fail by size alone -/

namespace Generated

/-- Whether a computation overflows when it is oversized, and ends well otherwise. -/
def Succeeds {α : Type} (g : Generated α) (oversized : Bool) : Prop :=
  ∀ m, if oversized then g.run m = .error .overflow else ∃ r, g.run m = .ok r

variable {α β : Type} {a b : Bool}

theorem succeeds_pure (x : α) : (pure x : Generated α).Succeeds false :=
  fun _ => ⟨_, rfl⟩

/-- What runs behind a computation need only succeed on what the computation gives. -/
theorem Succeeds.bind_run {g : Generated α} {f : α → Generated β} (hg : g.Succeeds a)
    (hf : ∀ m x m', g.run m = .ok (x, m') → (f x).Succeeds b) : (g >>= f).Succeeds (a || b) := by
  intro m
  have hm := hg m
  rw [StateT.run_bind]
  cases a with
  | true =>
    rw [if_pos rfl] at hm
    rw [Bool.true_or, if_pos rfl, hm]
    rfl
  | false =>
    obtain ⟨⟨x, m'⟩, hx⟩ := hm
    rw [Bool.false_or, hx]
    exact hf m x m' hx m'

theorem Succeeds.bind {g : Generated α} {f : α → Generated β} (hg : g.Succeeds a)
    (hf : ∀ x, (f x).Succeeds b) : (g >>= f).Succeeds (a || b) :=
  hg.bind_run fun _ x _ _ => hf x

theorem succeeds_bytes (n : Nat) : (bytes n).Succeeds false :=
  fun _ => ⟨_, rfl⟩

theorem succeeds_ofExcept {x : Except Fault α} (h : ∃ v, x = .ok v) :
    (liftM x : Generated α).Succeeds false := by
  obtain ⟨v, rfl⟩ := h
  exact succeeds_pure v

/-- Whether a value asks for more bytes than a string of bytes can hold. -/
def isExcessive : Value → Bool
  | .int n => (maxBytes : Int) < n
  | _ => false

/-- A legal number of bytes is counted out unless it is excessive. -/
theorem succeeds_byteCount {count : Value} (h : isByteCount count = true) :
    (liftM (byteCount count) : Generated Nat).Succeeds (isExcessive count) := by
  cases count with
  | int n =>
    have hpos : 0 < n := of_decide_eq_true h
    have hcount : byteCount (.int n) =
        if n.toNat ≤ maxBytes then .ok n.toNat else .error .overflow := by
      rw [byteCount, if_neg (by omega), if_neg (by omega)]
    rw [hcount]
    by_cases hsize : n.toNat ≤ maxBytes
    · have hexcess : isExcessive (.int n) = false := decide_eq_false (by omega)
      rw [if_pos hsize, hexcess]
      exact succeeds_pure _
    · have hexcess : isExcessive (.int n) = true := decide_eq_true (by omega)
      rw [if_neg hsize, hexcess]
      exact fun _ => rfl
  | _ => cases h

theorem succeeds_randomText {count encoding : Value} (h : isByteCount count = true) :
    (randomText count encoding).Succeeds (isExcessive count) := by
  have hrest (n : Nat) : (do
      let bs ← bytes n
      return .text (if encoding.isText "hex" then hexText bs else String.ofList (base64Chars bs)) :
        Generated Value).Succeeds false :=
    (succeeds_bytes n).bind fun _ => succeeds_pure _
  simpa only [randomText, Bool.or_false] using (succeeds_byteCount h).bind hrest

end Generated

open Generated (isExcessive)

/-! ## Columns -/

/-- Whether a default asks for more random bytes than a string of bytes can hold. -/
def Default.isOversized : Default → Bool
  | .policy (.random count _) => isExcessive count
  | _ => false

namespace Storage

/-- The columns of a field that holds values. -/
def columns : Storage → List Storage
  | .scalar f => [.scalar f]
  | .enum f => [.enum f]
  | .multi fields => fields.map Prod.snd
  | _ => []

/-- Whether the default of one of the columns is oversized. -/
def isOversized (s : Storage) : Bool :=
  s.columns.any fun c => c.default?.any Default.isOversized

theorem isOversized_column {s : Storage} (hs : s.isScalarish = true) :
    s.isOversized = s.default?.any Default.isOversized := by
  cases s <;> first | exact Bool.or_false _ | cases hs

theorem isOversized_multi {fields : List (String × Storage)}
    (hcolumns : ∀ e ∈ fields, e.2.isScalarish = true) :
    (multi fields).isOversized = fields.any fun e => e.2.isOversized := by
  rw [isOversized, columns, List.any_map]
  refine List.any_congr_left fun e he => ?_
  rw [isOversized_column (hcolumns e he), Function.comp_apply]

mutual

/-- The columns of a field at every depth. -/
def leaves : Storage → List Storage
  | .scalar f => [.scalar f]
  | .enum f => [.enum f]
  | .multi fields => leavesOf fields
  | _ => []

/-- The columns of several fields at every depth. -/
def leavesOf : List (String × Storage) → List Storage
  | [] => []
  | (_, s) :: r => leaves s ++ leavesOf r

end

theorem any_leaves_column {s : Storage} (hs : s.isScalarish = true) (p : Storage → Bool) :
    s.leaves.any p = p s := by
  cases s <;> first | exact Bool.or_false _ | cases hs

theorem any_leavesOf {fields : List (String × Storage)}
    (hcolumns : ∀ e ∈ fields, e.2.isScalarish = true) (p : Storage → Bool) :
    (leavesOf fields).any p = fields.any fun e => p e.2 := by
  induction fields with
  | nil => rfl
  | cons e r ih =>
    obtain ⟨he, hr⟩ := List.forall_mem_cons.1 hcolumns
    rw [leavesOf, List.any_append, any_leaves_column he, ih hr, List.any_cons]

end Storage

/-! ## Policies -/

/-- A legal literal of a scalar column stands for one of its values. -/
theorem ScalarField.exists_ofLiteral {f : ScalarField} {w : Value}
    (h : f.defaultProblems (.policy (.literal w)) = .ok []) :
    ∃ v, f.scalar.ofLiteral w = .ok v ∧ f.scalar.admits v = true := by
  have hallows : f.scalar.allows (.policy (.literal w)) = true := by
    cases f.scalar <;> rfl
  unfold defaultProblems at h
  rw [hallows] at h
  cases hw : f.scalar.ofLiteral w with
  | ok v => exact ⟨v, rfl, Scalar.admits_of_ofLiteral hw⟩
  | error e =>
    simp only [hw, Bool.not_true, Bool.false_eq_true, if_false] at h
    split at h <;> cases h

/-- A legal literal of an enum column is one of its texts. -/
theorem EnumField.exists_text {f : EnumField} {w : Value}
    (h : f.defaultProblems (.policy (.literal w)) = []) : ∃ t ∈ f.values, w = .text t := by
  have hany : f.values.any (fun s => w.isText s) = true := by
    simpa [defaultProblems, Storage.complain] using h
  obtain ⟨t, ht, htext⟩ := List.any_eq_true.1 hany
  exact ⟨t, ht, Value.isText_iff.1 htext⟩

theorem ScalarField.allows_of_defaultProblems {f : ScalarField} {d : Default}
    (h : f.defaultProblems d = .ok []) : f.scalar.allows d = true := by
  unfold defaultProblems at h
  split at h
  · cases h
  · next hallows => simpa using hallows

/-- A legal default of a scalar column generates unless it is oversized. -/
theorem ScalarField.succeeds_generate {f : ScalarField} {d : Default}
    (h : f.defaultProblems d = .ok []) :
    (d.generate (some f.scalar)).Succeeds d.isOversized := by
  have hallows := f.allows_of_defaultProblems h
  cases d with
  | bare v => cases hallows
  | policy p =>
    cases p with
    | literal w =>
      obtain ⟨v, hv, -⟩ := exists_ofLiteral h
      exact Generated.succeeds_ofExcept ⟨v, hv⟩
    | random count encoding =>
      unfold defaultProblems at h
      rw [hallows] at h
      have hproblems : randomProblems count encoding = [] := Except.ok.inj h
      have hcount : isByteCount count = true := by
        simpa [Storage.complain] using (List.append_eq_nil_iff.1 hproblems).1
      exact Generated.succeeds_randomText hcount
    | _ => exact fun _ => ⟨_, rfl⟩

theorem EnumField.succeeds_generate {f : EnumField} {d : Default} (h : f.defaultProblems d = []) :
    (d.generate none).Succeeds d.isOversized := by
  unfold defaultProblems at h
  split at h
  · exact Generated.succeeds_pure _
  · cases h

namespace Storage

/-! ## Fields -/

/-- The declared default of a legal scalar column is legal itself. -/
theorem scalar_default_legal {f : ScalarField} (h : defaultProblems (.scalar f) = .ok [])
    {d : Default} (hdefault : f.default = some d) :
    f.mode ≠ .many ∧ f.defaultProblems d = .ok [] := by
  rw [defaultProblems, hdefault] at h
  dsimp only at h
  split at h
  · cases h
  · exact ⟨‹_›, h⟩

theorem enum_default_legal {f : EnumField} (h : defaultProblems (.enum f) = .ok [])
    {d : Default} (hdefault : f.default = some d) : f.mode ≠ .many ∧ f.defaultProblems d = [] := by
  rw [defaultProblems, hdefault] at h
  dsimp only at h
  split at h
  · cases h
  · exact ⟨‹_›, Except.ok.inj h⟩

/-- A legal column generates unless its default is oversized. -/
theorem succeeds_defaultValue_column {s : Storage} (hs : s.isScalarish = true)
    (hd : s.defaultProblems = .ok []) : s.defaultValue.Succeeds s.isOversized := by
  rw [isOversized_column hs]
  cases s with
  | scalar f =>
    rw [defaultValue, default?]
    cases hdefault : f.default with
    | none => exact Generated.succeeds_pure _
    | some d =>
      obtain ⟨hmode, hlegal⟩ := scalar_default_legal hd hdefault
      simp only [if_neg hmode]
      exact f.succeeds_generate hlegal
  | enum f =>
    rw [defaultValue, default?]
    cases hdefault : f.default with
    | none => exact Generated.succeeds_pure _
    | some d =>
      obtain ⟨hmode, hlegal⟩ := enum_default_legal hd hdefault
      simp only [if_neg hmode]
      exact f.succeeds_generate hlegal
  | _ => cases hs

mutual

/-- A field whose defaults have no problems generates unless that of a leaf is oversized. -/
theorem succeeds_defaultValue_leaves : ∀ {s : Storage}, s.defaultProblems = .ok [] →
    s.defaultValue.Succeeds (s.leaves.any isOversized)
  | .scalar f, hd => by
    rw [any_leaves_column rfl]
    exact succeeds_defaultValue_column rfl hd
  | .enum f, hd => by
    rw [any_leaves_column rfl]
    exact succeeds_defaultValue_column rfl hd
  | .multi fields, hd => by
    rw [defaultProblems] at hd
    rw [leaves, defaultValue]
    simpa only [Bool.or_false] using (succeeds_subfieldDefaults hd).bind fun vs =>
      Generated.succeeds_pure (Value.ofFields vs)
  | .none, _ | .relation _, _ | .unsupported _, _ => Generated.succeeds_pure _

theorem succeeds_subfieldDefaults : ∀ {fields : List (String × Storage)},
    subfieldDefaultProblems fields = .ok [] →
    (subfieldDefaults fields).Succeeds ((leavesOf fields).any isOversized)
  | [], _ => Generated.succeeds_pure _
  | (name, s) :: r, hd => by
    simp only [subfieldDefaultProblems, Except.bind_eq_ok, Except.pure_eq_ok,
      List.append_eq_nil_iff, List.map_eq_nil_iff] at hd
    obtain ⟨_, hs, _, hr, rfl, rfl⟩ := hd
    rw [subfieldDefaults, leavesOf, List.any_append]
    refine (succeeds_defaultValue_leaves hs).bind fun v => ?_
    simpa only [Bool.or_false] using (succeeds_subfieldDefaults hr).bind fun vs =>
      Generated.succeeds_pure ((name, v) :: vs)

end

/-- The leaves of a legal field are its columns. -/
theorem isOversized_of_legal {s : Storage} (hs : s.problems = []) :
    s.leaves.any isOversized = s.isOversized := by
  cases s with
  | multi fields =>
    have hcolumns (e) (he : e ∈ fields) : e.2.isScalarish = true := (legal_of_mem hs he).1
    rw [isOversized_multi hcolumns, leaves, any_leavesOf hcolumns]
  | scalar f | enum f => exact any_leaves_column rfl isOversized
  | none | relation r | unsupported v => rfl

/-- A legal field generates unless the default of a column is oversized. -/
theorem succeeds_defaultValue {s : Storage} (hs : s.problems = [])
    (hd : s.defaultProblems = .ok []) : s.defaultValue.Succeeds s.isOversized :=
  isOversized_of_legal hs ▸ succeeds_defaultValue_leaves hd

/-- Each column of a composite finds its own default under its name. -/
theorem get_of_subfieldDefaults {fields : List (String × Storage)}
    (hnames : (fields.map Prod.fst).Nodup) {vs : List (String × Value)} {m m' : Supply}
    (h : (subfieldDefaults fields).run m = .ok (vs, m')) {e : String × Storage} (he : e ∈ fields) :
    ∃ m₁ m₂, e.2.defaultValue.run m₁ =
      .ok (Value.Entries.get (vs.map fun (k, v) => (.text k, v)) e.1, m₂) := by
  induction fields generalizing vs m with
  | nil => cases he
  | cons field r ih =>
    obtain ⟨name, s⟩ := field
    obtain ⟨hname, hr⟩ := List.nodup_cons.1 hnames
    simp only [subfieldDefaults, StateT.run_bind, Except.bind_eq_ok] at h
    obtain ⟨⟨v, m₁⟩, hv, ⟨rest, m₂⟩, hrest, h⟩ := h
    cases h
    rcases List.mem_cons.1 he with rfl | he
    · refine ⟨m, m₁, ?_⟩
      rw [List.map_cons, Value.Entries.get_cons_self]
      exact hv
    · have hne : name ≠ e.1 := fun heq => hname (List.mem_map.2 ⟨e, he, heq.symm⟩)
      rw [List.map_cons, Value.Entries.get_cons_ne fun htext => hne (Value.text.inj htext)]
      exact ih hr hrest he

/-- What a legal field generates has the shape that it takes at creation. -/
theorem conforms_defaultValue {s : Storage} (hs : s.problems = []) (hd : s.defaultProblems = .ok [])
    (hnames : s.namesOnce = true) {shape : Shape} (hshape : s.shape .create = .ok shape) {v : Value}
    {m m' : Supply} (h : s.defaultValue.run m = .ok (v, m')) : shape.conforms v = true := by
  cases s with
  | scalar f =>
    cases hshape
    exact scalar_defaultValue_conforms hd h
  | enum f =>
    cases hshape
    exact enum_defaultValue_conforms hd h
  | multi fields =>
    rw [defaultProblems] at hd
    obtain ⟨fs, hfs, rfl⟩ := multi_shape_ok (by decide) hshape
    simp only [defaultValue, StateT.run_bind, Except.bind_eq_ok] at h
    obtain ⟨⟨vs, m₁⟩, hvs, h⟩ := h
    cases h
    refine Shape.conforms_record.2 ⟨_, rfl, (conformsFields_iff hfs).2 fun e he => ?_⟩
    obtain ⟨m₂, m₃, hv⟩ := get_of_subfieldDefaults (of_decide_eq_true hnames) hvs he
    exact takes_defaultValue (legal_of_mem hs he).1 (subfieldDefaultProblems_ok hd e he) hv
  | none =>
    obtain rfl := Except.ok.inj hshape
    obtain ⟨rfl, -⟩ := Prod.mk.inj (Except.ok.inj h)
    rfl
  | relation r =>
    obtain rfl := Except.ok.inj hshape
    obtain ⟨rfl, -⟩ := Prod.mk.inj (Except.ok.inj h)
    exact Shape.conforms_union.2 ⟨.undefined, by simp, rfl⟩
  | unsupported v => cases hs

/-- The defaults of the columns of a legal field are legal. -/
theorem legal_of_mem_columns {s c : Storage} (hd : s.defaultProblems = .ok [])
    (hc : c ∈ s.columns) : c.defaultProblems = .ok [] := by
  cases s with
  | scalar f | enum f =>
    obtain rfl := List.mem_singleton.1 hc
    exact hd
  | multi fields =>
    rw [defaultProblems] at hd
    obtain ⟨e, he, rfl⟩ := List.mem_map.1 hc
    exact subfieldDefaultProblems_ok hd e he
  | _ => cases hc

/-- A composite with a default of each kind: random, a date, a decimal and an enum. -/
def badge : Storage := .multi [
  ("code", .scalar {
    scalar := .text, default := some (.policy (.random (.int 4) (.text "hex"))) }),
  ("issued", .scalar {
    scalar := .dateTime, mode := .required,
    default := some (.policy (.literal (.text "2020-01-02T03:04:05Z"))) }),
  ("price", .scalar {
    scalar := .decimal, default := some (.policy (.literal (.text "1.50"))) }),
  ("state", .enum {
    name := "State", values := ["new", "used"],
    default := some (.policy (.literal (.text "new"))) })]

/-- A text of more random bytes than any machine holds. -/
def endless : Storage := .scalar {
  scalar := .text, default := some (.policy (.random (.int 0x8000000000000000) (.text "hex"))) }

end Storage

end RecordSchema
