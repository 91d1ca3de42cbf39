import RecordSchema.Proofs.Relation.Quantified
import RecordSchema.Proofs.Store.Searching

/-!
# Filters through key columns

The link of a relation is told twice: a filter looks for rows that are
tied to the row at hand, and reading looks for rows that are reached from
an id. Through a key column both are one condition on two cells
(`Store.isTied_eq_isReached`), so a filter selects a record just when
reading its relation with the inner filter finds something
(`filter_agrees`), whatever the inner filter is.

`every` is the exception (`every_iff`). It asks that no linked record
satisfies the *negation* of the inner filter, and a comparison with
nothing satisfies neither the filter nor its negation: such a record
passes although no search for it would find it.
-/

namespace RecordSchema

/-- The filter that asks something of one field. -/
def Value.through (field : String) (inner : Value) : Value :=
  .map [(.text field, inner)]

/-- The filter that negates another one. -/
def Value.negated (inner : Value) : Value :=
  .map [(.text "NOT", .list [inner])]

/-! ## Tied rows -/

namespace Store

variable {s : Store} {p : RelationPlan} {c : Condition} {r : Row}

/-- A key column ties a row to the rows that are reached from its id. -/
theorem isTied_eq_isReached (hs : s.Keyed) (hkey : ∀ table side, p.link ≠ .join table side)
    (hr : r ∈ s.rows p.list) (t : Row) : s.isTied p r t = s.isReached p r.id t := by
  cases hlink : p.link with
  | ownKey column unique => simp only [isTied, isReached, hlink, row?_eq_some hs hr]
  | targetKey column unique => simp only [isTied, isReached, hlink]
  | join table side => exact absurd hlink (hkey table side)

/-- A condition on related rows holds when a row that satisfies it is counted. -/
theorem related_keyed (hs : s.Keyed) (hkey : ∀ table side, p.link ≠ .join table side)
    (hr : r ∈ s.rows p.list) : (Condition.related p c).selects s r = true ↔
      1 ≤ s.count p.target (s.isReached p r.id) c := by
  simp only [Condition.selects_related, List.any_eq_true, Bool.and_eq_true, count_pos,
    isTied_eq_isReached hs hkey hr]

theorem not_related_keyed (hs : s.Keyed) (hkey : ∀ table side, p.link ≠ .join table side)
    (hr : r ∈ s.rows p.list) : (Condition.not (.related p c)).selects s r = true ↔
      s.count p.target (s.isReached p r.id) c = 0 := by
  rw [Condition.selects_not_related, Bool.not_eq_true', ← Bool.not_eq_true,
    related_keyed hs hkey hr, Nat.one_le_iff_ne_zero, not_not]

/-- Among rows of a list, a row of the list is known by its id. -/
theorem contains_id_iff (hs : s.Keyed) {list : String} {rows : List Row}
    (hrows : ∀ o ∈ rows, o ∈ s.rows list) (hr : r ∈ s.rows list) :
    (rows.map (·.id)).contains r.id = true ↔ r ∈ rows := by
  rw [List.contains_iff_mem, List.mem_map]
  constructor
  · rintro ⟨o, ho, hid⟩
    exact eq_of_mem_rows hs (hrows o ho) hr hid ▸ ho
  · intro hmem
    exact ⟨r, hmem, rfl⟩

/-- A quantifier over the ids of rows is one over the rows. -/
theorem holds_ids_iff (hs : s.Keyed) {list : String} {related found : List Row}
    (hrelated : ∀ o ∈ related, o ∈ s.rows list) (hfound : ∀ o ∈ found, o ∈ s.rows list) :
    (Quantifier.every.holds (related.map (·.id)) (found.map (·.id)).contains = true ↔
      ∀ t ∈ related, t ∈ found) ∧
    (Quantifier.none.holds (related.map (·.id)) (found.map (·.id)).contains = true ↔
      ∀ t ∈ related, t ∉ found) := by
  have hid (t : Row) (ht : t ∈ related) := contains_id_iff hs hfound (hrelated t ht)
  simp only [Quantifier.holds, List.all_map, List.any_map, List.all_eq_true, Bool.not_eq_true',
    List.any_eq_false, Function.comp_apply]
  exact ⟨forall₂_congr hid, forall₂_congr fun t ht => not_congr (hid t ht)⟩

/-- When nothing that is found is refused, some rows are all found just when none of
them is refused, unless one is neither. -/
theorem refused_iff_found {related selected refused : List Row}
    (hdisjoint : ∀ t ∈ selected, t ∉ refused) :
    ((∀ t ∈ related, t ∉ refused) ↔ ∀ t ∈ related, t ∈ selected) ↔
      (∃ t ∈ related, t ∈ refused) ∨ ∀ t ∈ related, t ∈ selected := by
  constructor
  · intro hagree
    by_cases hall : ∀ t ∈ related, t ∈ selected
    · exact .inr hall
    · refine .inl (by_contra fun hnone => hall (hagree.1 fun t ht hrefused => ?_))
      exact hnone ⟨t, ht, hrefused⟩
  · rintro (⟨t, ht, hrefused⟩ | hall)
    · exact iff_of_false (fun hnone => hnone t ht hrefused)
        fun hall => hdisjoint t (hall t ht) hrefused
    · exact iff_of_true (fun t ht => hdisjoint t (hall t ht)) hall

end Store

namespace Database

/-- Whether a search with a filter finds a row, if it ends well. -/
def finds (db : Database) (s : Store) (list : String) (filter : Value) (r : Row) :
    Except Fault Prop :=
  (db.findMany s list { filter }).map (r ∈ ·)

theorem finds_eq_ok {db : Database} {s : Store} {list : String} {filter : Value} {r : Row} {P : Prop}
    (h : db.finds s list filter r = .ok P) :
    ∃ rows, db.findMany s list { filter } = .ok rows ∧ (r ∈ rows ↔ P) := by
  obtain ⟨rows, hrows, hmem⟩ := Except.map_eq_ok.1 h
  exact ⟨rows, hrows, iff_of_eq hmem⟩

namespace Compiles

variable {db : Database} {d : Declarations} {p : RelationPlan} {s : Store} {r : Row} {w : Value}

/-! ## What filters ask -/

/-- A filter on a relation asks one thing of a row, which its mode tells. -/
theorem condition_relation (h : db.Compiles d) (hp : p ∈ db.schema.plans) (v : Value) :
    Filter.condition db p.list (.through p.field v) = (fun c => .all [c]) <$>
      match p.mode with
      | .one =>
        if v.isNull then pure (.not (.related p (.all [])))
        else (.related p ·) <$> Filter.condition db p.target v
      | .many => .all <$> Filter.ofQuantified db p v := by
  obtain ⟨⟨l, hl, hkey⟩, -⟩ := h.exists_ends hp
  obtain ⟨f, r, hf, -⟩ := h.exists_relation hp hl hkey.symm
  have hlogical := h.not_logicalKey hl hf
  rw [Value.through, Filter.condition, Filter.ofValue, Filter.ofEntries]
  simp only [Filter.fieldKey, Reading.liftM_ok, pure_bind, hlogical, if_neg Bool.false_ne_true,
    h.subjectOf_eq hp, Filter.ofEntries, Filter.condition, map_eq_pure_bind]
  cases p.mode with
  | one =>
    cases hv : v.isNull with
    | true => simp only [if_true, pure_bind]
    | false => simp only [if_neg Bool.false_ne_true, bind_assoc, pure_bind]
  | many => simp only [bind_assoc, pure_bind]

theorem condition_through (h : db.Compiles d) (hp : p ∈ db.schema.plans) (hone : p.mode = .one)
    (hw : w.isNull = false) : Filter.condition db p.list (.through p.field w) =
      (fun c => .all [.related p c]) <$> Filter.condition db p.target w := by
  rw [h.condition_relation hp, hone]
  simp only [hw, if_neg Bool.false_ne_true, Functor.map_map]

/-- Null asks that there is no related row at all. -/
theorem condition_null (h : db.Compiles d) (hp : p ∈ db.schema.plans) (hone : p.mode = .one) :
    Filter.condition db p.list (.through p.field .null) =
      (fun c => .all [.not (.related p c)]) <$> Filter.condition db p.target (.map []) := by
  rw [h.condition_relation hp, hone]
  rfl

theorem condition_quantified (h : db.Compiles d) (hp : p ∈ db.schema.plans) (hmany : p.mode = .many)
    (q : Quantifier) : Filter.condition db p.list (.quantified p.field q w) =
      (fun c => .all [.all [Filter.quantified p q c]]) <$> Filter.condition db p.target w := by
  have hquantified : Filter.ofQuantified db p (.map [(.text (Spelled.spelling q), w)]) =
      (fun c => [Filter.quantified p q c]) <$> Filter.condition db p.target w := by
    simp only [Filter.ofQuantified, Filter.ofQuantifiers, q.read_spelling, Reading.liftM_ok,
      pure_bind, Filter.condition, map_eq_pure_bind]
  rw [Value.quantified]
  refine (h.condition_relation hp _).trans ?_
  rw [hmany]
  simp only [hquantified, Functor.map_map]

theorem condition_negated (db : Database) (list : String) (w : Value) :
    Filter.condition db list w.negated =
      (fun c => .all [.not (.any [c])]) <$> Filter.condition db list w := by
  have hlogical : logicalKeys.contains "NOT" = true := by decide
  have hcombine (cs : List Condition) : Filter.combine "NOT" cs = .not (.any cs) := rfl
  rw [Value.negated, Filter.condition, Filter.ofValue, Filter.ofEntries]
  simp only [Filter.fieldKey, Reading.liftM_ok, pure_bind, hlogical, if_true, hcombine,
    Filter.ofEntries, bind_assoc, Filter.condition, map_eq_pure_bind, Filter.ofMembers, Filter.ofAll]

/-! ## Filtering and reading -/

/-- A filter that wraps the condition of another one finds rows just when the
other one can be read. -/
theorem finds_eq (h : db.Compiles d) {list target : String}
    (hlist : ∃ l ∈ db.schema.lists, l.key = list) (hr : r ∈ s.rows list)
    {filter : Value} {wrap : Condition → Condition}
    (hfilter : Filter.condition db list filter = wrap <$> Filter.condition db target w) :
    db.finds s list filter r =
      (Filter.condition db target w).settle.map fun c => (wrap c).selects s r = true := by
  obtain ⟨l, hl, rfl⟩ := hlist
  rw [finds, findMany_filter (h.table_ok hl), hfilter, Reading.settle_map]
  cases (Filter.condition db target w).settle with
  | error e => rfl
  | ok c => simp only [Except.map, Store.mem_select, hr, true_and]

variable (h : db.Compiles d) (hp : p ∈ db.schema.plans)
  (hkey : ∀ table side, p.link ≠ .join table side) (hs : s.Keyed) (hr : r ∈ s.rows p.list)

include h hp hkey hs hr

theorem finds_through (hone : p.mode = .one) (hw : w.isNull = false) :
    db.finds s p.list (.through p.field w) r =
      (db.findRelated s p.list p.field r.id { filter := w }).map (· ≠ []) := by
  rw [h.finds_eq (h.exists_ends hp).1 hr (h.condition_through hp hone hw),
    findRelated_filter (h.plan_eq_ok hp)]
  cases (Filter.condition db p.target w).settle with
  | error e => rfl
  | ok c =>
    simp only [Except.map, Condition.selects_all_singleton, Store.related_keyed hs hkey hr,
      Nat.one_le_iff_ne_zero, ne_eq, Store.select_eq_nil]

theorem finds_null (hone : p.mode = .one) :
    db.finds s p.list (.through p.field .null) r =
      (db.findRelated s p.list p.field r.id {}).map (· = []) := by
  rw [h.finds_eq (h.exists_ends hp).1 hr (h.condition_null hp hone),
    findRelated_filter (h.plan_eq_ok hp)]
  cases (Filter.condition db p.target (.map [])).settle with
  | error e => rfl
  | ok c =>
    simp only [Except.map, Condition.selects_all_singleton, Store.not_related_keyed hs hkey hr,
      Store.select_eq_nil]

theorem finds_some (hmany : p.mode = .many) :
    db.finds s p.list (.quantified p.field .some w) r =
      (db.countRelated s p.list p.field r.id w).map (1 ≤ ·) := by
  rw [h.finds_eq (h.exists_ends hp).1 hr (h.condition_quantified hp hmany .some),
    countRelated_filter (h.plan_eq_ok hp)]
  cases (Filter.condition db p.target w).settle with
  | error e => rfl
  | ok c =>
    simp only [Except.map, Condition.selects_all_singleton, Filter.quantified,
      Store.related_keyed hs hkey hr]

theorem finds_none (hmany : p.mode = .many) :
    db.finds s p.list (.quantified p.field .none w) r =
      (db.countRelated s p.list p.field r.id w).map (· = 0) := by
  rw [h.finds_eq (h.exists_ends hp).1 hr (h.condition_quantified hp hmany .none),
    countRelated_filter (h.plan_eq_ok hp)]
  cases (Filter.condition db p.target w).settle with
  | error e => rfl
  | ok c =>
    simp only [Except.map, Condition.selects_all_singleton, Filter.quantified,
      Store.not_related_keyed hs hkey hr]

/-- The negation stands inside: what is counted are rows of which the filter is false. -/
theorem finds_every (hmany : p.mode = .many) :
    db.finds s p.list (.quantified p.field .every w) r =
      (db.countRelated s p.list p.field r.id w.negated).map (· = 0) := by
  rw [h.finds_eq (h.exists_ends hp).1 hr (h.condition_quantified hp hmany .every),
    countRelated_filter (h.plan_eq_ok hp), condition_negated, Reading.settle_map]
  cases (Filter.condition db p.target w).settle with
  | error e => rfl
  | ok c =>
    simp only [Except.map, Condition.selects_all_singleton, Filter.quantified,
      Store.not_related_keyed hs hkey hr, Store.count, Condition.selects_not_any_singleton]

/-- Filtering through a key column agrees with reading: both end well for the same
inner filters, a filter through a relation to one finds the records for which
reading finds one, null those for which it finds none, and `some` and `none`
those for which something or nothing is counted. -/
theorem filter_agrees :
    (p.mode = .one →
      (∀ w, w.isNull = false → db.finds s p.list (.through p.field w) r =
        (db.findRelated s p.list p.field r.id { filter := w }).map (· ≠ [])) ∧
      ∃ found, db.findRelated s p.list p.field r.id {} = .ok found ∧
        db.finds s p.list (.through p.field .null) r = .ok (found = [])) ∧
    (p.mode = .many → ∀ w,
      db.finds s p.list (.quantified p.field .some w) r =
        (db.countRelated s p.list p.field r.id w).map (1 ≤ ·) ∧
      db.finds s p.list (.quantified p.field .none w) r =
        (db.countRelated s p.list p.field r.id w).map (· = 0)) ∧
    ∀ w,
      (db.findRelated s p.list p.field r.id { filter := w }).isOk =
        (db.findMany s p.target { filter := w }).isOk ∧
      (db.countRelated s p.list p.field r.id w).isOk =
        (db.findMany s p.target { filter := w }).isOk := by
  obtain ⟨l, hl, hlist⟩ := (h.exists_ends hp).2
  refine ⟨fun hone => ⟨fun w hw => ?_, ?_⟩, fun hmany w => ⟨?_, ?_⟩, fun w => ?_⟩
  · exact h.finds_through hp hkey hs hr hone hw
  · obtain ⟨found, hfound, -⟩ := findRelated_all (h.plan_eq_ok hp) s r.id
    refine ⟨found, hfound, ?_⟩
    rw [h.finds_null hp hkey hs hr hone, hfound]
    rfl
  · exact h.finds_some hp hkey hs hr hmany
  · exact h.finds_none hp hkey hs hr hmany
  · rw [findRelated_filter (h.plan_eq_ok hp), countRelated_filter (h.plan_eq_ok hp),
      findMany_filter (hlist ▸ h.table_ok hl)]
    cases (Filter.condition db p.target w).settle <;> exact ⟨rfl, rfl⟩

/-- `every` passes the linked records that a search for the negation of the filter
does not find. That is right for a record just when one of its linked records is
found by the negation, or all of them are found by the filter itself. -/
theorem every_iff (hmany : p.mode = .many) {selected : List Row}
    (hselected : db.findMany s p.target { filter := w } = .ok selected) :
    ∃ rows related refused,
      db.findMany s p.list { filter := .quantified p.field .every w } = .ok rows ∧
      db.findRelated s p.list p.field r.id {} = .ok related ∧
      db.findMany s p.target { filter := w.negated } = .ok refused ∧
      (r ∈ rows ↔ Quantifier.none.holds (related.map (·.id)) (refused.map (·.id)).contains = true) ∧
      ((r ∈ rows ↔
          Quantifier.every.holds (related.map (·.id)) (selected.map (·.id)).contains = true) ↔
        (∃ t ∈ related, t ∈ refused) ∨ ∀ t ∈ related, t ∈ selected) := by
  obtain ⟨l, hl, hlist⟩ := (h.exists_ends hp).2
  have htable := hlist ▸ h.table_ok hl
  obtain ⟨c, hc, rfl⟩ := Except.map_eq_ok.1 ((findMany_filter htable s w).symm.trans hselected)
  have hnegated : (Filter.condition db p.target w.negated).settle = .ok (.all [.not (.any [c])]) := by
    rw [condition_negated, Reading.settle_map, hc]
    rfl
  have hrefused := findMany_filter htable s w.negated
  have hcount := countRelated_filter (h.plan_eq_ok hp) s r.id w.negated
  rw [hnegated] at hrefused hcount
  have hevery := h.finds_every hp hkey hs hr (w := w) hmany
  rw [hcount] at hevery
  obtain ⟨rows, hrows, hmem⟩ := finds_eq_ok hevery
  have hpassed := hmem.trans Store.count_eq_zero_iff_notMem
  -- All rows at hand are of the target, so their ids tell them apart.
  have htarget {among : Row → Bool} {c : Condition} (t : Row)
      (ht : t ∈ s.select p.target among c []) : t ∈ s.rows p.target := (Store.mem_select.1 ht).1
  have hdisjoint (t : Row) (ht : t ∈ s.select p.target (fun _ => true) c []) :
      t ∉ s.select p.target (fun _ => true) (.all [.not (.any [c])]) [] := by
    obtain ⟨-, -, hfound⟩ := Store.mem_select.1 ht
    simp only [Store.mem_select, Condition.selects_all_singleton,
      Condition.selects_not_any_singleton, Condition.not_selects_not hfound]
    simp only [Bool.false_eq_true, and_false, not_false_eq_true]
  refine ⟨rows, _, _, hrows, findRelated_filter (h.plan_eq_ok hp) s r.id (.map []), hrefused, ?_, ?_⟩
  · rw [hpassed, (Store.holds_ids_iff hs htarget htarget).2]
  · rw [hpassed, (Store.holds_ids_iff hs htarget htarget).1]
    exact Store.refused_iff_found hdisjoint

end Compiles

end Database

/-! ## A parent with a child without a name -/

/-- A schema of persons with a parent and children. -/
def family : Declarations :=
  ({} : Declarations).declare {
    key := "Person"
    specs := [("name", .scalar .text {}),
      ("parent", .relationship { ref := "Person.children" }),
      ("children", .relationship { ref := "Person.parent", many := true })] }

def parentPlan : RelationPlan :=
  ⟨"Person", "parent", "Person", .one, .ownKey "parent_id" false⟩

def childrenPlan : RelationPlan :=
  ⟨"Person", "children", "Person", .many, .targetKey "parent_id" false⟩

/-- Ann and her child, who has no name. -/
def familyStore : Store :=
  (family.database.result.run
    [.create .reject .null "Person" (.map [(.text "name", .text "Ann")]),
      .create .reject .null "Person" (.map [(.text "parent",
        .map [(.text "connect", .map [(.text "id", .int 1)])])])]
    { supply := blogSupply }).store

/-- The filter on a name. -/
def named (name : String) : Value :=
  .through "name" (.map [(.text "equals", .text name)])

/-- The facts about the family that are evaluated, in one go. -/
theorem family_facts : family.database.isOk = true ∧
    parentPlan ∈ family.database.result.schema.plans ∧
    childrenPlan ∈ family.database.result.schema.plans ∧
    (∀ t ∈ familyStore.tables, (t.2.map (·.id)).Nodup) ∧
    (∃ r ∈ familyStore.rows "Person", r.id = 1) ∧
    (family.database.result.findMany familyStore "Person" { filter := named "Bob" }).isOk = true ∧
    (family.database.result.countRelated familyStore "Person" "children" 1
      (named "Bob").negated).toOption = some 0 ∧
    (family.database.result.findRelated familyStore "Person" "children" 1 {}).isOk = true ∧
    Quantifier.every.holds
      ((family.database.result.findRelated familyStore "Person" "children" 1 {}).result.map (·.id))
      ((family.database.result.findMany familyStore "Person" { filter := named "Bob" }).result.map
        (·.id)).contains = false := by
  decide +kernel

theorem family_compiles : family.database.result.Compiles family :=
  Declarations.Declared.compiles (.declare (.start _ _ _) (by decide)) family_facts.1

theorem filter_agrees_family : ∃ ann ∈ familyStore.rows "Person", ann.id = 1 ∧
    family.database.result.finds familyStore "Person"
        (.quantified "children" .some (.through "parent" (named "Ann"))) ann =
      (family.database.result.countRelated familyStore "Person" "children" 1
        (.through "parent" (named "Ann"))).map (1 ≤ ·) ∧
    family.database.result.finds familyStore "Person" (.through "parent" (named "Ann")) ann =
      (family.database.result.findRelated familyStore "Person" "parent" 1
        { filter := named "Ann" }).map (· ≠ []) := by
  obtain ⟨-, hparent, hchildren, hids, ⟨ann, hann, hid⟩, -⟩ := family_facts
  obtain ⟨-, hmany, -⟩ := family_compiles.filter_agrees hchildren nofun (.of_tables hids) hann
  obtain ⟨hone, -, -⟩ := family_compiles.filter_agrees hparent nofun (.of_tables hids) hann
  rw [hid] at hmany hone
  exact ⟨ann, hann, hid, (hmany rfl _).1, (hone rfl).1 (named "Ann") rfl⟩

/-- Ann is found by `every` as her child is not found by the negation. -/
theorem every_iff_family :
    ∃ ann ∈ familyStore.rows "Person", ∃ rows related refused,
      family.database.result.findMany familyStore "Person"
        { filter := .quantified "children" .every (named "Bob") } = .ok rows ∧
      family.database.result.findRelated familyStore "Person" "children" ann.id {} = .ok related ∧
      family.database.result.findMany familyStore "Person" { filter := (named "Bob").negated } =
        .ok refused ∧
      (ann ∈ rows ↔
        Quantifier.none.holds (related.map (·.id)) (refused.map (·.id)).contains = true) := by
  obtain ⟨-, -, hchildren, hids, ⟨ann, hann, -⟩, hbob, -⟩ := family_facts
  obtain ⟨rows, related, refused, hrows, hrelated, hrefused, hmem, -⟩ :=
    family_compiles.every_iff hchildren nofun (.of_tables hids) hann rfl (Except.eq_ok_result hbob)
  exact ⟨ann, hann, rows, related, refused, hrows, hrelated, hrefused, hmem⟩

/-- A search for the name Bob does not find Ann's child, but `every` takes Ann for
one whose children are all found by it. -/
theorem every_unnamed_child :
    ∃ ann ∈ familyStore.rows "Person", ann.id = 1 ∧ ∃ rows related selected,
      family.database.result.findMany familyStore "Person"
        { filter := .quantified "children" .every (named "Bob") } = .ok rows ∧
      family.database.result.findRelated familyStore "Person" "children" 1 {} = .ok related ∧
      family.database.result.findMany familyStore "Person" { filter := named "Bob" } = .ok selected ∧
      ann ∈ rows ∧
      Quantifier.every.holds (related.map (·.id)) (selected.map (·.id)).contains = false := by
  obtain ⟨-, -, hchildren, hids, ⟨ann, hann, hid⟩, hbob, hcount, hrelated, hnot⟩ := family_facts
  have hzero : family.database.result.countRelated familyStore childrenPlan.list
      childrenPlan.field ann.id (named "Bob").negated = .ok 0 :=
    hid ▸ Except.eq_ok_of_toOption hcount
  have hevery := family_compiles.finds_every hchildren nofun (.of_tables hids) hann
    (w := named "Bob") rfl
  rw [hzero] at hevery
  obtain ⟨rows, hrows, hmem⟩ := Database.finds_eq_ok hevery
  exact ⟨ann, hann, hid, rows, _, _, hrows, Except.eq_ok_result hrelated, Except.eq_ok_result hbob,
    hmem.2 rfl, hnot⟩

end RecordSchema
