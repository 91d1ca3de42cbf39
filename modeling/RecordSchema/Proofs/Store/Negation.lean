import RecordSchema.Proofs.Relation.Filtered
import RecordSchema.Proofs.Store.Faults
import RecordSchema.Proofs.Store.Operands
import RecordSchema.Proofs.Store.Paging
import RecordSchema.Proofs.Store.Slots
import RecordSchema.Proofs.Value.Entries

/-!
# Negated column filters

A filter on a column and its negation under `not` are complements among
the records that hold something there, as long as the filter compares
with something (`Compiles.finds_denied`). The logic has a third value, so
this is not for free: no part of such a filter may be unknown. What keeps
it so is that every test is decided by a cell that is something
(`Test.eval_ne_unknown`), and that connectives and negations of decided
conditions are decided (`Condition.IsDecided`).

A nested filter without a mode has the one of the filter around it. Writing
that mode into it changes nothing (`Filter.cellCondition_spelled`).
-/

namespace RecordSchema

/-- The filter of a field that negates another one. -/
def Value.denied (inner : Value) : Value :=
  .map [(.text "not", inner)]

/-- Whether an operand can be compared with every value. -/
def Value.isComparable (v : Value) : Bool :=
  !v.isNull && !v.isNaN

/-! ## Decided conditions -/

namespace Truth

variable {t u : Truth}

theorem ofBool_ne_unknown (b : Bool) : ofBool b ≠ .unknown := by
  cases b <;> nofun

theorem not_ne_unknown (h : t ≠ .unknown) : t.not ≠ .unknown := by
  cases t with
  | unknown => exact absurd rfl h
  | _ => nofun

theorem and_ne_unknown (h : t ≠ .unknown) (h' : u ≠ .unknown) : t.and u ≠ .unknown := by
  cases t with
  | yes => cases u <;> exact h'
  | no => cases u <;> nofun
  | unknown => exact absurd rfl h

theorem isYes_not (h : t ≠ .unknown) : t.not.isYes = !t.isYes := by
  cases t with
  | unknown => exact absurd rfl h
  | _ => rfl

end Truth

namespace Test

/-- Whether a test has nothing among its operands. -/
def isSet : Test → Bool
  | .isNull => true
  | .compare _ o => !o.isNull
  | .among os => os.all fun o => !o.isNull
  | .holds .. => true
  | .folded t => t.isSet

theorem evalAmong_ne_unknown {os : List Cell} (hos : ∀ o ∈ os, o.isNull = false) (c : Cell) :
    evalAmong os c ≠ .unknown := by
  have hnone : os.any Cell.isNull = false := by
    rw [List.any_eq_false]
    exact fun o ho => Bool.not_eq_true _ ▸ hos o ho
  rw [evalAmong, hnone]
  split <;> nofun

/-- A cell that is something decides a test that compares it with something. -/
theorem eval_ne_unknown {t : Test} (ht : t.isSet = true) {c : Cell} (hc : c.isNull = false) :
    t.eval c ≠ .unknown := by
  induction t generalizing c with
  | isNull => exact Truth.ofBool_ne_unknown _
  | compare op o =>
    have ho : o.isNull = false := by simpa only [isSet, Bool.not_eq_true'] using ht
    rw [eval, hc, ho]
    exact Truth.ofBool_ne_unknown _
  | among os =>
    have hos : ∀ o ∈ os, o.isNull = false := by
      simpa only [isSet, List.all_eq_true, Bool.not_eq_true'] using ht
    rw [eval]
    split
    · nofun
    · rw [hc]
      exact evalAmong_ne_unknown hos c
  | holds p needle =>
    rw [eval, hc]
    exact Truth.ofBool_ne_unknown _
  | folded t ih => exact ih ht (c.fold_isNull.trans hc)

end Test

namespace Condition

/-- Whether a condition is known of every row that holds something in a column. -/
def IsDecided (column : String) (c : Condition) : Prop :=
  ∀ s r, (r.cell column).isNull = false → c.eval s r ≠ .unknown

variable {column : String} {c : Condition} {cs : List Condition}

theorem isDecided_cell {t : Test} (ht : t.isSet = true) : (cell column t).IsDecided column :=
  fun _ _ hr => Test.eval_ne_unknown ht hr

theorem IsDecided.not (h : c.IsDecided column) : (not c).IsDecided column :=
  fun s r hr => Truth.not_ne_unknown (h s r hr)

theorem isDecided_all (h : ∀ c ∈ cs, c.IsDecided column) : (all cs).IsDecided column := by
  intro s r hr
  rw [eval]
  induction cs with
  | nil =>
    intro hall
    cases hall
  | cons c cs ih =>
    obtain ⟨hc, hcs⟩ := List.forall_mem_cons.1 h
    exact Truth.and_ne_unknown (hc s r hr) (ih hcs)

/-- What is known of a row satisfies a condition or its negation. -/
theorem IsDecided.selects_not (h : c.IsDecided column) {s : Store} {r : Row}
    (hr : (r.cell column).isNull = false) : (Condition.not c).selects s r = !c.selects s r :=
  Truth.isYes_not (h s r hr)

end Condition

/-! ## Definite filters -/

namespace Filter

/-- Whether an operator is given operands to compare with; `equals` also takes null. -/
def takesOperand (o : FilterOperator) (v : Value) : Bool :=
  match o with
  | .equals => !v.isNaN
  | .among | .notAmong =>
    match ManyPlan.membersOf v with
    | .ok vs => vs.all Value.isComparable
    | .error _ => true
  | _ => v.isComparable

mutual

/-- Whether null stands in a column filter only behind `equals` and `not`, and what is
not a number stands nowhere. -/
def isDefinite : Value → Bool
  | .map es => areDefinite es
  | _ => true

def areDefinite : List (Value × Value) → Bool
  | [] => true
  | (k, v) :: r =>
    (if k.isText "not" then isDefinite v
      else match FilterOperator.read k with
        | .ok o => takesOperand o v
        | .error _ => true) && areDefinite r

end

variable {t : Target} {insensitive : Bool} {v : Value} {test : Test}

open Reading

theorem isNull_of_isComparable (hv : v.isComparable = true) :
    v.isNull = false ∧ v.isNaN = false := by
  simpa only [Value.isComparable, Bool.and_eq_true, Bool.not_eq_true'] using hv

/-- A comparison that ignores case takes every value that is something. -/
theorem foldedOperand_set {c : Cell} (hnull : v.isNull = false) (hnan : v.isNaN = false)
    (h : foldedOperand v = .ok c) : c.isNull = false := by
  obtain ⟨c, hc, rfl⟩ := Except.map_eq_ok.1 h
  rw [Cell.fold_isNull]
  split at hc
  · exact Cell.binary_set hnan hc
  · cases hc
    rfl
  · exact Cell.ofValue_set hnull hnan hc

theorem equalsTest_isSet (hv : v.isNaN = false)
    (h : (equalsTest t insensitive v).settle = .ok test) : test.isSet = true := by
  rw [equalsTest] at h
  split at h
  · cases settle_pure.1 h
    rfl
  · next hnull =>
    rw [Bool.not_eq_true] at hnull
    split at h
    · obtain ⟨c, hc, rfl⟩ := settle_bind_pure.1 h
      have hset := foldedOperand_set hnull hv (settle_operand.1 hc)
      simp only [Test.isSet, hset, Bool.not_false]
    · obtain ⟨c, hc, rfl⟩ := settle_bind_pure.1 h
      have hset := ColumnType.operand_set hnull hv (settle_operand.1 hc)
      simp only [Test.isSet, hset, Bool.not_false]

theorem orderTest_isSet {op : Comparison} (hv : v.isComparable = true)
    (h : (orderTest t op v).settle = .ok test) : test.isSet = true := by
  obtain ⟨hnull, hnan⟩ := isNull_of_isComparable hv
  have hset (h : (operand (t.type.operand v) >>= fun c => pure (Test.compare op c)).settle =
      .ok test) : test.isSet = true := by
    obtain ⟨c, hc, rfl⟩ := settle_bind_pure.1 h
    have hset := ColumnType.operand_set hnull hnan (settle_operand.1 hc)
    simp only [Test.isSet, hset, Bool.not_false]
  cases v with
  | null => cases hnull
  | bool b => exact absurd h settle_throw
  | _ => exact hset h

theorem amongTest_isSet (hv : takesOperand .among v = true)
    (h : (amongTest t insensitive v).settle = .ok test) : test.isSet = true := by
  cases hvs : ManyPlan.membersOf v with
  | error e =>
    rw [amongTest, hvs] at h
    cases h
  | ok vs =>
    rw [takesOperand, hvs] at hv
    rw [amongTest, hvs, liftM_ok, pure_bind] at h
    split at h
    · -- Without regard to case every member is a text.
      cases settle_pure.1 h
      simp only [Test.isSet, List.all_map, Function.comp_def, Cell.isNull, Bool.not_false,
        List.all_eq_true, implies_true]
    · obtain ⟨os, hos, rfl⟩ := settle_bind_pure.1 h
      rw [Test.isSet, List.all_eq_true]
      intro o ho
      obtain ⟨u, hu, hcell⟩ := (settle_mapM (memberOperand_keeps t) hos).exists_left ho
      obtain ⟨hnull, hnan⟩ := isNull_of_isComparable (List.all_eq_true.1 hv u hu)
      rw [memberOperand, hnull, if_neg Bool.false_ne_true, settle_operand] at hcell
      rw [ColumnType.operand_set hnull hnan hcell]
      rfl

theorem needleTest_isSet {p : Placement} (h : (needleTest t p v).settle = .ok test) :
    test.isSet = true := by
  cases v with
  | text s =>
    rw [needleTest] at h
    split at h
    · obtain ⟨-, -, rfl⟩ := settle_bind_pure.1 h
      rfl
    · cases settle_pure.1 h
      rfl
  | _ => exact absurd h settle_throw

theorem operatorCondition_isDecided {o : FilterOperator} (hv : takesOperand o v = true)
    {c : Condition} (h : (operatorCondition t insensitive o v).settle = .ok c) :
    c.IsDecided t.column := by
  cases o with
  | equals =>
    obtain ⟨test, htest, rfl⟩ := settle_bind_pure.1 h
    rw [takesOperand, Bool.not_eq_true'] at hv
    exact Condition.isDecided_cell (equalsTest_isSet hv htest)
  | lt | lte | gt | gte =>
    obtain ⟨test, htest, rfl⟩ := settle_bind_pure.1 h
    exact Condition.isDecided_cell (orderTest_isSet hv htest)
  | contains | startsWith | endsWith =>
    obtain ⟨test, htest, rfl⟩ := settle_bind_pure.1 h
    exact Condition.isDecided_cell (needleTest_isSet htest)
  | among =>
    obtain ⟨test, htest, rfl⟩ := settle_bind_pure.1 h
    exact Condition.isDecided_cell (amongTest_isSet hv htest)
  | notAmong =>
    obtain ⟨test, htest, rfl⟩ := settle_bind_pure.1 h
    exact (Condition.isDecided_cell (amongTest_isSet hv htest)).not

theorem operatorConditions_isDecided {es : Value.Entries} (hes : areDefinite es = true)
    {cs : List Condition} (h : (operatorConditions t insensitive es).settle = .ok cs) :
    ∀ c ∈ cs, c.IsDecided t.column := by
  induction es generalizing cs with
  | nil =>
    cases settle_pure.1 h
    nofun
  | cons e r ih =>
    obtain ⟨k, v⟩ := e
    rw [areDefinite, Bool.and_eq_true] at hes
    rw [operatorConditions] at h
    split at h
    · exact ih hes.2 h
    · next hk =>
      obtain ⟨hv, hr⟩ := hes
      rw [isModifier, Bool.or_eq_true, not_or] at hk
      rw [if_neg hk.2] at hv
      cases ho : FilterOperator.read k with
      | error e =>
        rw [ho] at h
        cases h
      | ok o =>
        rw [ho] at hv
        rw [ho, liftM_ok, pure_bind, settle_bind fun c => .bind
          (operatorConditions_keeps t insensitive r) fun cs => .pure (c :: cs)] at h
        obtain ⟨c, hc, h⟩ := h
        obtain ⟨cs, hcs, rfl⟩ := settle_bind_pure.1 h
        exact List.forall_mem_cons.2 ⟨operatorCondition_isDecided hv hc, ih hr hcs⟩

mutual

theorem cellCondition_isDecided (inherited : Bool) (v : Value) (hv : isDefinite v = true)
    {c : Condition} (h : (cellCondition t inherited v).settle = .ok c) :
    c.IsDecided t.column := by
  cases v with
  | null =>
    cases settle_pure.1 h
    exact Condition.isDecided_cell rfl
  | map es =>
    rw [cellCondition, settle_bind fun own => .bind (negatedConditions_keeps t _ es) fun negated =>
      .pure (Condition.all (own ++ negated))] at h
    obtain ⟨own, hown, h⟩ := h
    obtain ⟨negated, hnegated, rfl⟩ := settle_bind_pure.1 h
    exact Condition.isDecided_all (List.forall_mem_append.2
      ⟨operatorConditions_isDecided hv hown, negatedConditions_isDecided _ es hv hnegated⟩)
  | _ => exact absurd h settle_throw

theorem negatedConditions_isDecided (insensitive : Bool) (es : List (Value × Value))
    (hes : areDefinite es = true) {cs : List Condition}
    (h : (negatedConditions t insensitive es).settle = .ok cs) :
    ∀ c ∈ cs, c.IsDecided t.column := by
  match es with
  | [] =>
    cases settle_pure.1 h
    nofun
  | (k, v) :: r =>
    rw [areDefinite, Bool.and_eq_true] at hes
    obtain ⟨hv, hr⟩ := hes
    rw [negatedConditions] at h
    split at h
    · next hk =>
      rw [if_pos hk] at hv
      rw [settle_bind fun c => .bind (negatedConditions_keeps t insensitive r) fun cs =>
        .pure (Condition.not c :: cs)] at h
      obtain ⟨c, hc, h⟩ := h
      obtain ⟨cs, hcs, rfl⟩ := settle_bind_pure.1 h
      exact List.forall_mem_cons.2 ⟨(cellCondition_isDecided insensitive v hv hc).not,
        negatedConditions_isDecided insensitive r hr hcs⟩
    · exact negatedConditions_isDecided insensitive r hr h

end

/-! ## Modes -/

/-- Whether the mode of a column filter, or else the one that it inherits, ignores case. -/
def modeOf (inherited : Bool) (es : Value.Entries) : Bool :=
  if es.has "mode" then (es.get "mode").isText "insensitive" else inherited

mutual

/-- A column filter in which every mode that is inherited from one that ignores case is
written down. -/
def spelled (inherited : Bool) : Value → Value
  | .map es =>
    let entries := spelledNots (modeOf inherited es) es
    .map (if inherited && !Value.Entries.has es "mode" then
      entries ++ [(.text "mode", .text "insensitive")] else entries)
  | v => v

def spelledNots (insensitive : Bool) : List (Value × Value) → List (Value × Value)
  | [] => []
  | (k, v) :: r =>
    (k, if k.isText "not" then spelled insensitive v else v) :: spelledNots insensitive r

end

theorem ignoresCase_eq (t : Target) (inherited : Bool) (es : Value.Entries) :
    ignoresCase t inherited es = (t.textual && modeOf inherited es) := rfl

section Modes

variable (i j : Bool) (es : Value.Entries)

theorem has_spelledNots : Value.Entries.has (spelledNots i es) "mode" = es.has "mode" := by
  simp only [Value.Entries.has]
  induction es with
  | nil => rfl
  | cons e r ih => rw [spelledNots, List.any_cons, List.any_cons, ih]

theorem get_spelledNots : Value.Entries.get (spelledNots i es) "mode" = es.get "mode" := by
  simp only [Value.Entries.get, Value.Entries.value?]
  induction es with
  | nil => rfl
  | cons e r ih =>
    obtain ⟨k, v⟩ := e
    rw [spelledNots, List.find?_cons, List.find?_cons]
    cases hk : k.isText "mode" with
    | false => exact ih
    | true =>
      obtain rfl := Value.isText_iff.1 hk
      rfl

theorem modeOf_spelledNots : modeOf j (spelledNots i es) = modeOf j es := by
  rw [modeOf, has_spelledNots, get_spelledNots, modeOf]

theorem modeOf_append (hmode : es.has "mode" = false) :
    modeOf j (es ++ [(.text "mode", .text "insensitive")]) = true := by
  have hnone : List.find? (fun e : Value × Value => e.1.isText "mode") es = none :=
    List.find?_eq_none.2 (List.any_eq_false.1 hmode)
  have hhas : Value.Entries.has (es ++ [(.text "mode", .text "insensitive")]) "mode" = true :=
    List.any_eq_true.2 ⟨_, List.mem_append_right _ (List.mem_singleton_self _), rfl⟩
  rw [modeOf, if_pos hhas, Value.Entries.get, Value.Entries.value?, List.find?_append, hnone]
  rfl

/-- What is written down is what is inherited. -/
theorem ignoresCase_spelled (t : Target) :
    ignoresCase t (t.textual && i) (if i && !Value.Entries.has es "mode" then
        spelledNots j es ++ [(.text "mode", .text "insensitive")] else spelledNots j es) =
      ignoresCase t (t.textual && i) es := by
  simp only [ignoresCase_eq]
  cases t.textual with
  | false => rfl
  | true =>
    cases i with
    | false => exact modeOf_spelledNots j false es
    | true =>
      cases hmode : Value.Entries.has es "mode" with
      | true => exact modeOf_spelledNots j true es
      | false =>
        have hnone : Value.Entries.has (spelledNots j es) "mode" = false :=
          (has_spelledNots j es).trans hmode
        simp only [Bool.not_false, Bool.and_self, if_true, Bool.true_and, modeOf_append _ _ hnone]
        rw [modeOf, hmode]
        rfl

theorem operatorConditions_spelledNots : operatorConditions t insensitive (spelledNots i es) =
    operatorConditions t insensitive es := by
  induction es with
  | nil => rfl
  | cons e r ih =>
    obtain ⟨k, v⟩ := e
    rw [spelledNots, operatorConditions, operatorConditions, ih]
    cases hk : k.isText "not" with
    | false => rfl
    | true =>
      have hmodifier : isModifier k = true := by rw [isModifier, hk, Bool.or_true]
      rw [if_pos hmodifier, if_pos hmodifier]

theorem operatorConditions_mode (v : Value) :
    operatorConditions t insensitive (es ++ [(.text "mode", v)]) =
      operatorConditions t insensitive es := by
  induction es with
  | nil => rfl
  | cons e r ih => rw [List.cons_append, operatorConditions, operatorConditions, ih]

theorem negatedConditions_mode (v : Value) :
    negatedConditions t insensitive (es ++ [(.text "mode", v)]) =
      negatedConditions t insensitive es := by
  induction es with
  | nil => rfl
  | cons e r ih => rw [List.cons_append, negatedConditions, negatedConditions, ih]

end Modes

mutual

/-- A filter asks the same when the modes that it inherits are written down. -/
theorem cellCondition_spelled (t : Target) (i : Bool) (v : Value) :
    cellCondition t (t.textual && i) (spelled i v) = cellCondition t (t.textual && i) v := by
  cases v with
  | map es =>
    have hmode : (t.textual && modeOf (t.textual && i) es) = (t.textual && modeOf i es) := by
      cases t.textual <;> rfl
    have hnegated := negatedConditions_spelledNots t (modeOf i es) es
    rw [spelled, cellCondition, cellCondition, ignoresCase_spelled, ignoresCase_eq, hmode]
    split
    · rw [operatorConditions_mode, operatorConditions_spelledNots, negatedConditions_mode, hnegated]
    · rw [operatorConditions_spelledNots, hnegated]
  | _ => rfl

theorem negatedConditions_spelledNots (t : Target) (i : Bool) (es : List (Value × Value)) :
    negatedConditions t (t.textual && i) (spelledNots i es) =
      negatedConditions t (t.textual && i) es := by
  match es with
  | [] => rfl
  | (k, v) :: r =>
    rw [spelledNots, negatedConditions, negatedConditions, negatedConditions_spelledNots t i r]
    split
    · rw [cellCondition_spelled t i v]
    · rfl

end

/-- The negation of a column filter reads what the filter reads. -/
theorem cellCondition_denied (t : Target) (w : Value) : cellCondition t false w.denied =
    (fun c => .all [.not c]) <$> cellCondition t false w := by
  have hmode : ignoresCase t false [(.text "not", w)] = false := Bool.and_false _
  rw [Value.denied, cellCondition, hmode]
  simp only [operatorConditions, negatedConditions, isModifier, Value.isText, beq_self_eq_true,
    Bool.or_true, if_true, pure_bind, bind_assoc, List.nil_append, map_eq_pure_bind]

end Filter

/-! ## Filters on a field -/

namespace Database.Compiles

open Layout

variable {db : Database} {d : Declarations} {l : ListType} {key : String} {f : Field}

theorem column_eq (h : db.Compiles d) (hl : l ∈ db.schema.lists) (hf : (key, f) ∈ l.fields)
    (hs : f.storage.isScalarish = true) (hid : key ≠ "id") :
    db.layout.column l.key key = .ok ((nonempty? f.storage.map?).getD key) := by
  obtain ⟨part, hpart, hplace⟩ := exists_partOf? hs key
  simp only [Layout.column, h.table?_eq hl, Option.bind_some, h.fields_lookup hl hf hid hpart,
    hplace]

/-- A field that is kept in one column has a column. -/
theorem exists_column_eq (h : db.Compiles d) (hl : l ∈ db.schema.lists) (hf : (key, f) ∈ l.fields)
    (hs : f.storage.isScalarish = true) : ∃ column, db.layout.column l.key key = .ok column := by
  by_cases hid : key = "id"
  · subst hid
    exact ⟨"id", h.column_id hl⟩
  · exact ⟨_, h.column_eq hl hf hs hid⟩

/-- What a filter on a field that is kept in one column asks. -/
theorem condition_column (h : db.Compiles d) (hl : l ∈ db.schema.lists) (hf : (key, f) ∈ l.fields)
    (hs : f.storage.isScalarish = true) {column : String}
    (hcolumn : db.layout.column l.key key = .ok column) (w : Value) :
    Filter.condition db l.key (.through key w) = (fun c => .all [c]) <$>
      Filter.cellCondition ⟨column, (db.layout.columnType? l.key column).getD .string,
        Filter.isTextual f.storage⟩ false w := by
  have hsubject : Filter.subjectOf db l.key key = .ok (.column ⟨column,
      (db.layout.columnType? l.key column).getD .string, Filter.isTextual f.storage⟩) := by
    have hfield : db.schema.field? l.key key = some f := by
      rw [Schema.field?, h.list?_eq hl, Option.bind_some, h.field?_eq hl hf]
    rw [Filter.subjectOf, hfield]
    cases hstorage : f.storage with
    | relation r =>
      rw [hstorage] at hs
      cases hs
    | _ =>
      simp only [hstorage, hcolumn]
      rfl
  rw [Value.through, Filter.condition, Filter.ofValue, Filter.ofEntries]
  simp only [Filter.fieldKey, Reading.liftM_ok, pure_bind, h.not_logicalKey hl hf, hsubject,
    if_neg Bool.false_ne_true, Filter.ofEntries, bind_assoc, map_eq_pure_bind]

/-- What a filter of a field finds, by its column. -/
theorem finds_column (h : db.Compiles d) (hl : l ∈ db.schema.lists) (hf : (key, f) ∈ l.fields)
    (hs : f.storage.isScalarish = true) {column : String}
    (hcolumn : db.layout.column l.key key = .ok column) {s : Store} {r : Row}
    (hr : r ∈ s.rows l.key) (w : Value) : db.finds s l.key (.through key w) r =
      (Filter.cellCondition ⟨column, (db.layout.columnType? l.key column).getD .string,
        Filter.isTextual f.storage⟩ false w).settle.map fun c => c.selects s r = true := by
  rw [finds, findMany_filter (h.table_ok hl), h.condition_column hl hf hs hcolumn,
    Reading.settle_map]
  cases (Filter.cellCondition _ false w).settle with
  | error e => rfl
  | ok c =>
    simp only [Except.map, Store.mem_select, hr, Condition.selects_all_singleton, true_and]

/-- Among the records that hold something in the column of a field, the negation of a filter
finds those that the filter does not find; null and its negation tell apart all records; and
a filter inside a negation ignores case when the one around it does and it names no mode. -/
theorem finds_denied (h : db.Compiles d) (hl : l ∈ db.schema.lists) (hf : (key, f) ∈ l.fields)
    (hs : f.storage.isScalarish = true) : ∃ column, db.layout.column l.key key = .ok column ∧
      ∀ s : Store,
        (∀ r ∈ s.rows l.key,
          ((r.cell column).isNull = false → ∀ w, Filter.isDefinite w = true →
            db.finds s l.key (.through key w.denied) r =
              (db.finds s l.key (.through key w) r).map (¬ ·)) ∧
          db.finds s l.key (.through key .null) r = .ok ((r.cell column).isNull = true) ∧
          db.finds s l.key (.through key (Value.denied .null)) r =
            .ok ((r.cell column).isNull = false)) ∧
        ∀ w, db.findMany s l.key { filter := .through key w } =
          db.findMany s l.key { filter := .through key (Filter.spelled false w) } := by
  obtain ⟨column, hcolumn⟩ := h.exists_column_eq hl hf hs
  refine ⟨column, hcolumn, fun s => ⟨fun r hr => ⟨fun hset w hw => ?_, ?_, ?_⟩, fun w => ?_⟩⟩
  · rw [h.finds_column hl hf hs hcolumn hr, h.finds_column hl hf hs hcolumn hr,
      Filter.cellCondition_denied, Reading.settle_map]
    cases hc : (Filter.cellCondition _ false w).settle with
    | error e => rfl
    | ok c =>
      have hnot := (Filter.cellCondition_isDecided false w hw hc).selects_not (s := s) hset
      simp only [Except.map, Condition.selects_all_singleton, hnot, Bool.not_eq_true',
        Bool.not_eq_true]
  · rw [h.finds_column hl hf hs hcolumn hr]
    change Except.ok ((Truth.ofBool (r.cell column).isNull).isYes = true) = _
    rw [Truth.isYes_ofBool]
  · rw [h.finds_column hl hf hs hcolumn hr, Filter.cellCondition_denied, Reading.settle_map]
    change Except.ok ((Condition.all [.not (.cell column .isNull)]).selects s r = true) = _
    rw [Condition.selects_all_singleton]
    change Except.ok ((Truth.ofBool (r.cell column).isNull).not.isYes = true) = _
    rw [Truth.isYes_not_ofBool, Bool.not_eq_true']
  · have hspelled := Filter.cellCondition_spelled ⟨column,
      (db.layout.columnType? l.key column).getD .string, Filter.isTextual f.storage⟩ false w
    rw [Bool.and_false] at hspelled
    rw [findMany_filter (h.table_ok hl), findMany_filter (h.table_ok hl),
      h.condition_column hl hf hs hcolumn, h.condition_column hl hf hs hcolumn, hspelled]

end Database.Compiles

/-! ## Names in any case -/

/-- Asks that a name is not Ann in any case; the mode stands outside. -/
def notAnn : Value :=
  .map [(.text "mode", .text "insensitive"),
    (.text "not", .map [(.text "equals", .text "ANN")])]

theorem named_facts : (∃ l ∈ family.database.result.schema.lists, l.key = "Person" ∧
      ∃ e ∈ l.fields, e.1 = "name" ∧ e.2.storage.isScalarish = true) ∧
    (family.database.result.layout.column "Person" "name").toOption = some "name" ∧
    (∃ r ∈ familyStore.rows "Person", r.id = 1 ∧ (r.cell "name").isNull = false) := by
  decide +kernel

/-- Ann is found by the filter or by its negation; the mode could stand inside as well. -/
theorem finds_denied_family : ∃ ann ∈ familyStore.rows "Person", ann.id = 1 ∧
    Filter.isDefinite notAnn = true ∧
    family.database.result.finds familyStore "Person" (.through "name" notAnn.denied) ann =
      (family.database.result.finds familyStore "Person" (.through "name" notAnn) ann).map (¬ ·) ∧
    family.database.result.findMany familyStore "Person" { filter := .through "name" notAnn } =
      family.database.result.findMany familyStore "Person" { filter := .through "name" (.map
        [(.text "mode", .text "insensitive"), (.text "not", .map [(.text "equals", .text "ANN"),
          (.text "mode", .text "insensitive")])]) } := by
  obtain ⟨⟨l, hl, hkey, ⟨key, f⟩, hf, rfl, hs⟩, hname, ann, hann, hid, hset⟩ := named_facts
  obtain ⟨column, hcolumn, hfinds⟩ := family_compiles.finds_denied hl hf hs
  rw [hkey] at hcolumn hfinds
  obtain rfl : "name" = column :=
    Except.ok.inj ((Except.eq_ok_of_toOption hname).symm.trans hcolumn)
  obtain ⟨hrows, hspelled⟩ := hfinds familyStore
  exact ⟨ann, hann, hid, by decide, (hrows ann hann).1 hset notAnn (by decide), hspelled notAnn⟩

end RecordSchema
