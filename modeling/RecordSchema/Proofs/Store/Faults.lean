import RecordSchema.Proofs.Store.Searching

/-!
# The faults of readings

No reading drops a fault that was found before it (`Reading.Keeps`). So a
reading in two parts ends well just when both parts do on their own
(`settle_bind`), wherever the faults of the first part would have been
reported.
-/

namespace RecordSchema

namespace Reading

variable {α β : Type}

/-- A reading that ends without faults has started without any. -/
def Keeps (x : Reading α) : Prop :=
  ∀ ⦃faults a⦄, x.run faults = .ok (a, []) → faults = []

theorem Keeps.pure (a : α) : Keeps (Pure.pure a) := fun _ _ h => (pure_run.1 h).2

theorem Keeps.liftM (x : Except Fault α) : Keeps (MonadLiftT.monadLift x) :=
  fun _ _ h => (liftM_run.1 h).2

theorem Keeps.throw (f : Fault) : Keeps (MonadExcept.throw f : Reading α) := nofun

theorem Keeps.operand (x : Except Fault Cell) : Keeps (operand x) := fun _ _ h => (operand_run h).2

theorem Keeps.bind {x : Reading α} {f : α → Reading β} (hx : x.Keeps) (hf : ∀ a, (f a).Keeps) :
    (x >>= f).Keeps := by
  intro faults b h
  obtain ⟨a, m, hfirst, hsecond⟩ := bind_run.1 h
  obtain rfl := hf a hsecond
  exact hx hfirst

theorem Keeps.mapM {f : α → Reading β} (hf : ∀ a, (f a).Keeps) (xs : List α) :
    (xs.mapM f).Keeps := by
  induction xs with
  | nil => exact .pure []
  | cons x r ih =>
    rw [List.mapM_cons]
    exact .bind (hf x) fun b => .bind ih fun bs => .pure (b :: bs)

theorem settle_eq_ok {x : Reading α} {a : α} : x.settle = .ok a ↔ x.run [] = .ok (a, []) := by
  refine ⟨settle_ok, fun h => ?_⟩
  rw [settle, h]
  rfl

theorem settle_pure {a b : α} : (Pure.pure a : Reading α).settle = .ok b ↔ a = b := by
  rw [settle_eq_ok, pure_run, and_iff_left rfl]

theorem settle_operand {x : Except Fault Cell} {c : Cell} :
    (Reading.operand x).settle = .ok c ↔ x = .ok c := by
  refine ⟨fun h => (operand_run (settle_ok h)).1, ?_⟩
  rintro rfl
  rfl

theorem settle_throw {f : Fault} {a : α} : (MonadExcept.throw f : Reading α).settle ≠ .ok a := nofun

/-- A reading in two parts ends well when both parts do. -/
theorem settle_bind {x : Reading α} {f : α → Reading β} (hf : ∀ a, (f a).Keeps) {b : β} :
    (x >>= f).settle = .ok b ↔ ∃ a, x.settle = .ok a ∧ (f a).settle = .ok b := by
  simp only [settle_eq_ok, bind_run]
  constructor
  · rintro ⟨a, m, hfirst, hsecond⟩
    obtain rfl := hf a hsecond
    exact ⟨a, hfirst, hsecond⟩
  · rintro ⟨a, hfirst, hsecond⟩
    exact ⟨a, [], hfirst, hsecond⟩

theorem settle_bind_pure {x : Reading α} {f : α → β} {b : β} :
    (x >>= fun a => Pure.pure (f a)).settle = .ok b ↔ ∃ a, x.settle = .ok a ∧ f a = b := by
  simp only [settle_bind fun a => Keeps.pure (f a), settle_pure]

theorem settle_mapM {f : α → Reading β} (hf : ∀ a, (f a).Keeps) {xs : List α} {ys : List β}
    (h : (xs.mapM f).settle = .ok ys) : List.Forall₂ (fun x y => (f x).settle = .ok y) xs ys := by
  induction xs generalizing ys with
  | nil =>
    rw [List.mapM_nil, settle_pure] at h
    exact h ▸ .nil
  | cons x r ih =>
    rw [List.mapM_cons, settle_bind fun b => .bind (.mapM hf r) fun bs => .pure (b :: bs)] at h
    obtain ⟨y, hy, h⟩ := h
    obtain ⟨rest, hrest, rfl⟩ := settle_bind_pure.1 h
    exact .cons hy (ih hrest)

end Reading

namespace Filter

open Reading (Keeps)

/-! ## Filters on a column -/

variable (t : Target) (insensitive : Bool) (v : Value)

theorem needleTest_keeps (p : Placement) : (needleTest t p v).Keeps := by
  cases v with
  | text s =>
    rw [needleTest]
    split
    · exact .bind (.operand _) fun _ => .pure _
    · exact .pure _
  | _ => exact .throw _

theorem orderTest_keeps (c : Comparison) : (orderTest t c v).Keeps := by
  cases v with
  | null => exact .throw _
  | bool b => exact .throw _
  | _ => exact .bind (.operand _) fun _ => .pure _

theorem memberOperand_keeps : (memberOperand t v).Keeps := by
  rw [memberOperand]
  split
  · exact .pure _
  · exact .operand _

theorem equalsTest_keeps : (equalsTest t insensitive v).Keeps := by
  rw [equalsTest]
  split
  · exact .pure _
  · split <;> exact .bind (.operand _) fun _ => .pure _

theorem amongTest_keeps : (amongTest t insensitive v).Keeps := by
  rw [amongTest]
  refine .bind (.liftM _) fun vs => ?_
  split
  · exact .pure _
  · exact .bind (.mapM (memberOperand_keeps t) vs) fun _ => .pure _

theorem operatorCondition_keeps (o : FilterOperator) :
    (operatorCondition t insensitive o v).Keeps := by
  cases o with
  | equals => exact .bind (equalsTest_keeps t insensitive v) fun _ => .pure _
  | among => exact .bind (amongTest_keeps t insensitive v) fun _ => .pure _
  | notAmong => exact .bind (amongTest_keeps t insensitive v) fun _ => .pure _
  | lt => exact .bind (orderTest_keeps t v .lt) fun _ => .pure _
  | lte => exact .bind (orderTest_keeps t v .le) fun _ => .pure _
  | gt => exact .bind (orderTest_keeps t v .gt) fun _ => .pure _
  | gte => exact .bind (orderTest_keeps t v .ge) fun _ => .pure _
  | contains => exact .bind (needleTest_keeps t v .anywhere) fun _ => .pure _
  | startsWith => exact .bind (needleTest_keeps t v .atStart) fun _ => .pure _
  | endsWith => exact .bind (needleTest_keeps t v .atEnd) fun _ => .pure _

theorem operatorConditions_keeps (es : Value.Entries) :
    (operatorConditions t insensitive es).Keeps := by
  induction es with
  | nil => exact .pure []
  | cons e r ih =>
    rw [operatorConditions]
    split
    · exact ih
    · refine .bind (.liftM _) fun o => .bind (operatorCondition_keeps t insensitive _ o) fun c => ?_
      exact .bind ih fun cs => .pure (c :: cs)

mutual

theorem cellCondition_keeps (inherited : Bool) (v : Value) :
    (cellCondition t inherited v).Keeps := by
  cases v with
  | null => exact .pure _
  | map es =>
    rw [cellCondition]
    exact .bind (operatorConditions_keeps t _ es) fun own =>
      .bind (negatedConditions_keeps _ es) fun negated => .pure (Condition.all (own ++ negated))
  | _ => exact .throw _

theorem negatedConditions_keeps (insensitive : Bool) (es : List (Value × Value)) :
    (negatedConditions t insensitive es).Keeps := by
  match es with
  | [] => exact .pure []
  | (k, v) :: r =>
    rw [negatedConditions]
    split
    · exact .bind (cellCondition_keeps insensitive v) fun c =>
        .bind (negatedConditions_keeps insensitive r) fun cs => .pure (Condition.not c :: cs)
    · exact negatedConditions_keeps insensitive r

end

/-! ## Filters on a list -/

variable (db : Database)

mutual

theorem ofValue_keeps (list : String) (v : Value) : (ofValue db list v).Keeps := by
  rw [ofValue.eq_def]
  split
  · exact .bind (ofEntries_keeps list _) fun cs => .pure (Condition.all cs)
  · split
    · exact .throw _
    · exact .pure _

theorem ofEntries_keeps (list : String) (es : List (Value × Value)) :
    (ofEntries db list es).Keeps := by
  match es with
  | [] => exact .pure []
  | (k, v) :: r =>
    have hrest (c : Condition) : Keeps (ofEntries db list r >>= fun cs => pure (c :: cs)) :=
      .bind (ofEntries_keeps list r) fun cs => .pure (c :: cs)
    rw [ofEntries]
    refine .bind (.liftM _) fun key => ?_
    dsimp only
    split
    · exact .bind (ofMembers_keeps list v) fun cs => .bind (.pure (combine key cs)) hrest
    · refine .bind (.liftM _) fun subject => ?_
      split
      · exact .bind (cellCondition_keeps _ false v) hrest
      · split
        · split
          · exact .bind (.pure _) hrest
          · exact .bind (ofValue_keeps _ v) fun _ => .bind (.pure _) hrest
        · exact .bind (ofQuantified_keeps _ v) fun _ => .bind (.pure _) hrest

theorem ofMembers_keeps (list : String) (v : Value) : (ofMembers db list v).Keeps := by
  rw [ofMembers.eq_def]
  split
  · exact ofAll_keeps list _
  · exact ofAll_keeps list _
  · exact .pure []
  · exact .pure []
  · exact .throw _

theorem ofAll_keeps (list : String) (vs : List Value) : (ofAll db list vs).Keeps := by
  match vs with
  | [] => exact .pure []
  | v :: r =>
    rw [ofAll]
    exact .bind (ofValue_keeps list v) fun c =>
      .bind (ofAll_keeps list r) fun cs => .pure (c :: cs)

theorem ofQuantified_keeps (plan : RelationPlan) (v : Value) :
    (ofQuantified db plan v).Keeps := by
  rw [ofQuantified.eq_def]
  split
  · exact ofQuantifiers_keeps plan _
  · split
    · exact .throw _
    · exact .pure []

theorem ofQuantifiers_keeps (plan : RelationPlan) (es : List (Value × Value)) :
    (ofQuantifiers db plan es).Keeps := by
  match es with
  | [] => exact .pure []
  | (k, v) :: r =>
    rw [ofQuantifiers]
    exact .bind (ofValue_keeps plan.target v) fun c => .bind (.liftM _) fun q =>
      .bind (ofQuantifiers_keeps plan r) fun cs => .pure (quantified plan q c :: cs)

end

end Filter

end RecordSchema
