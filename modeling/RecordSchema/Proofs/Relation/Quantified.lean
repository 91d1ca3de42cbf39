import RecordSchema.Proofs.Request.Runs

/-!
# Quantified filters through join tables

A filter may ask that some or none of the records linked through a field
satisfy another filter. Counting the linked records of one record that
satisfy it should give the same answer, and through a key column it
does. Through a join table the filter only asks whether *any* record of
the list is linked to such a record: it selects all records of the list
or none of them.
-/

namespace RecordSchema

/-- The filter that quantifies over the records linked through a field. -/
def Value.quantified (field : String) (q : Quantifier) (inner : Value) : Value :=
  .map [(.text field, .map [(.text (Spelled.spelling q), inner)])]

theorem Quantifier.read_spelling (q : Quantifier) : read (.text (Spelled.spelling q)) = .ok q := by
  cases q <;> rfl

namespace Store

variable {s : Store} {p : RelationPlan} {c : Condition}

theorem count_pos {list : String} {among : Row → Bool} :
    1 ≤ s.count list among c ↔ ∃ t ∈ s.rows list, among t = true ∧ c.selects s t = true := by
  rw [count, Nat.succ_le_iff, List.length_pos_iff_exists_mem]
  simp only [List.mem_filter, Bool.and_eq_true]

/-- Through a join table a row is tied to whatever any row of its list reaches. -/
theorem isTied_join {table : String} {side : JoinSide} (hlink : p.link = .join table side)
    (own t : Row) : s.isTied p own t = true ↔ ∃ o ∈ s.rows p.list, s.isReached p o.id t = true := by
  simp only [isTied, isReached, hlink, List.any_eq_true]

/-- A condition on related rows holds of all rows when something is counted for one. -/
theorem related_join {table : String} {side : JoinSide} (hlink : p.link = .join table side)
    (r : Row) : (Condition.related p c).selects s r = true ↔
      ∃ o ∈ s.rows p.list, 1 ≤ s.count p.target (s.isReached p o.id) c := by
  have hrelated : (Condition.related p c).selects s r =
      (s.rows p.target).any fun t => s.isTied p r t && c.selects s t := by
    simp only [Condition.selects, Condition.eval]
    generalize (s.rows p.target).any _ = b
    cases b <;> rfl
  simp only [hrelated, List.any_eq_true, Bool.and_eq_true, isTied_join hlink, count_pos]
  constructor
  · rintro ⟨t, ht, ⟨o, ho, hreached⟩, hsel⟩
    exact ⟨o, ho, t, ht, hreached, hsel⟩
  · rintro ⟨o, ho, t, ht, hreached, hsel⟩
    exact ⟨t, ht, ⟨o, ho, hreached⟩, hsel⟩

/-- What holds of all rows is right for one when it has something itself, or none has. -/
theorem answers_iff {rows : List Row} {r : Row} (hr : r ∈ rows) (count : Int → Nat) :
    (((∃ o ∈ rows, 1 ≤ count o.id) ↔ 1 ≤ count r.id) ∧
        ((∀ o ∈ rows, count o.id = 0) ↔ count r.id = 0)) ↔
      (1 ≤ count r.id ∨ ∀ o ∈ rows, count o.id = 0) := by
  constructor
  · rintro ⟨-, hnone⟩
    rcases Nat.eq_zero_or_pos (count r.id) with hzero | hpos
    · exact .inr (hnone.2 hzero)
    · exact .inl hpos
  · rintro (hpos | hzero)
    · have hne : count r.id ≠ 0 := Nat.one_le_iff_ne_zero.1 hpos
      exact ⟨iff_of_true ⟨r, hr, hpos⟩ hpos, iff_of_false (fun hzero => hne (hzero r hr)) hne⟩
    · have hnot (o : Row) (ho : o ∈ rows) : ¬ 1 ≤ count o.id := by
        rw [hzero o ho]
        exact Nat.not_succ_le_zero 0
      refine ⟨iff_of_false ?_ (hnot r hr), iff_of_true hzero (hzero r hr)⟩
      rintro ⟨o, ho, hpos⟩
      exact hnot o ho hpos

end Store

namespace Database

/-- Whether a search with a filter finds a row. -/
def Selects (db : Database) (s : Store) (list : String) (filter : Value) (r : Row) : Prop :=
  ∃ rows, db.findMany s list { filter } = .ok rows ∧ r ∈ rows

/-- A search with a filter alone finds the rows of which its condition is true. -/
theorem selects_iff {db : Database} {s : Store} {list : String} {filter : Value} {c : Condition}
    {t : TableLayout} (ht : db.table list = .ok t)
    (hc : (Filter.condition db list filter).run [] = .ok (c, [])) {r : Row} :
    db.Selects s list filter r ↔ r ∈ s.rows list ∧ c.selects s r = true := by
  have hfind : db.findMany s list { filter } =
      .ok (s.select list (fun _ => true) c []) := by
    simp only [findMany, ht, search, hc]
    rfl
  simp [Selects, hfind, Store.select, List.mem_mergeSort]

namespace Compiles

variable {db : Database} {d : Declarations} {p : RelationPlan} {w : Value} {c : Condition}

theorem subjectOf_eq (h : db.Compiles d) (hp : p ∈ db.schema.plans) :
    Filter.subjectOf db p.list p.field = .ok (.relation p) := by
  obtain ⟨⟨l, hl, hkey⟩, -⟩ := h.exists_ends hp
  obtain ⟨f, r, hf, hr, -⟩ := h.exists_relation hp hl hkey.symm
  have hfield : db.schema.field? p.list p.field = some f := by
    rw [Schema.field?, ← hkey, h.list?_eq hl, Option.bind_some, h.field?_eq hl hf]
  simp only [Filter.subjectOf, hfield, hr, h.plan?_eq hp]
  rfl

/-- What a quantified filter asks of rows. -/
theorem quantified_condition (h : db.Compiles d) (hp : p ∈ db.schema.plans)
    (hmany : p.mode = .many) (hw : (Filter.condition db p.target w).settle = .ok c)
    (q : Quantifier) :
    (Filter.condition db p.list (.quantified p.field q w)).run [] =
      .ok (.all [.all [Filter.quantified p q c]], []) := by
  obtain ⟨⟨l, hl, hkey⟩, -⟩ := h.exists_ends hp
  obtain ⟨f, r, hf, -⟩ := h.exists_relation hp hl hkey.symm
  have hinner : (Filter.ofQuantified db p (.map [(.text (Spelled.spelling q), w)])).run [] =
      .ok ([Filter.quantified p q c], []) := by
    rw [Filter.ofQuantified, Filter.ofQuantifiers]
    refine Reading.bind_run.2 ⟨c, [], Reading.settle_ok hw, ?_⟩
    refine Reading.bind_run.2 ⟨q, [], Reading.liftM_run.2 ⟨q.read_spelling, rfl⟩, ?_⟩
    rw [Filter.ofQuantifiers]
    rfl
  rw [Value.quantified, Filter.condition, Filter.ofValue, Filter.ofEntries]
  refine Reading.bind_run.2 ⟨[.all [Filter.quantified p q c]], [], ?_, rfl⟩
  refine Reading.bind_run.2 ⟨p.field, [], rfl, ?_⟩
  rw [h.not_logicalKey hl hf, if_neg Bool.false_ne_true]
  refine Reading.bind_run.2 ⟨.relation p, [], Reading.liftM_run.2 ⟨h.subjectOf_eq hp, rfl⟩, ?_⟩
  simp only [hmany]
  refine Reading.bind_run.2 ⟨_, [], hinner, ?_⟩
  rw [Filter.ofEntries]
  rfl

theorem countRelated_eq (h : db.Compiles d) (hp : p ∈ db.schema.plans)
    (hw : (Filter.condition db p.target w).settle = .ok c) (s : Store) (i : Int) :
    db.countRelated s p.list p.field i w = .ok (s.count p.target (s.isReached p i) c) := by
  simp only [countRelated, plan, h.plan?_eq hp, tally]
  exact Except.bind_eq_ok.2 ⟨p, rfl, Except.bind_eq_ok.2 ⟨c, hw, rfl⟩⟩

theorem selects_quantified (h : db.Compiles d) (hp : p ∈ db.schema.plans) (hmany : p.mode = .many)
    (hw : (Filter.condition db p.target w).settle = .ok c) (q : Quantifier) {s : Store} {r : Row}
    (hr : r ∈ s.rows p.list) :
    db.Selects s p.list (.quantified p.field q w) r ↔
      (Filter.quantified p q c).selects s r = true := by
  obtain ⟨⟨l, hl, hkey⟩, -⟩ := h.exists_ends hp
  rw [selects_iff (hkey ▸ h.table_ok hl) (h.quantified_condition hp hmany hw q), and_iff_right hr]
  simp only [Condition.selects, Condition.eval, Condition.evalAll]
  generalize (Filter.quantified p q c).eval s r = v
  cases v <;> exact Iff.rfl

/-- A filter on some linked records selects a row when any row of the list has one. -/
theorem selects_some (h : db.Compiles d) (hp : p ∈ db.schema.plans) {table : String}
    {side : JoinSide} (hlink : p.link = .join table side)
    (hw : (Filter.condition db p.target w).settle = .ok c) {s : Store} {r : Row}
    (hr : r ∈ s.rows p.list) :
    db.Selects s p.list (.quantified p.field .some w) r ↔
      ∃ o ∈ s.rows p.list, 1 ≤ s.count p.target (s.isReached p o.id) c := by
  rw [h.selects_quantified hp (h.planned.mode_of_join hp hlink) hw .some hr]
  exact Store.related_join hlink r

/-- A filter on no linked record selects a row when no row of the list has one. -/
theorem selects_none (h : db.Compiles d) (hp : p ∈ db.schema.plans) {table : String}
    {side : JoinSide} (hlink : p.link = .join table side)
    (hw : (Filter.condition db p.target w).settle = .ok c) {s : Store} {r : Row}
    (hr : r ∈ s.rows p.list) :
    db.Selects s p.list (.quantified p.field .none w) r ↔
      ∀ o ∈ s.rows p.list, s.count p.target (s.isReached p o.id) c = 0 := by
  have hnot : (Condition.not (.related p c)).selects s r = !(Condition.related p c).selects s r := by
    simp only [Condition.selects, Condition.eval]
    generalize (s.rows p.target).any _ = b
    cases b <;> rfl
  rw [h.selects_quantified hp (h.planned.mode_of_join hp hlink) hw .none hr, Filter.quantified,
    hnot, Bool.not_eq_true', ← Bool.not_eq_true, Store.related_join hlink r]
  simp only [not_exists, not_and, Nat.one_le_iff_ne_zero, not_not]

/-- A quantified filter through a join table selects by all records of the list:
it agrees with the count for a record just when that record has a linked one
that satisfies the filter, or no record of the list has. -/
theorem quantified_iff (h : db.Compiles d) (hp : p ∈ db.schema.plans) {table : String}
    {side : JoinSide} (hlink : p.link = .join table side)
    (hw : (Filter.condition db p.target w).settle = .ok c) (s : Store) :
    ∃ count : Int → Nat, (∀ i, db.countRelated s p.list p.field i w = .ok (count i)) ∧
      ∀ r ∈ s.rows p.list,
        (db.Selects s p.list (.quantified p.field .some w) r ↔
          ∃ o ∈ s.rows p.list, 1 ≤ count o.id) ∧
        (db.Selects s p.list (.quantified p.field .none w) r ↔
          ∀ o ∈ s.rows p.list, count o.id = 0) ∧
        (((db.Selects s p.list (.quantified p.field .some w) r ↔ 1 ≤ count r.id) ∧
            (db.Selects s p.list (.quantified p.field .none w) r ↔ count r.id = 0)) ↔
          (1 ≤ count r.id ∨ ∀ o ∈ s.rows p.list, count o.id = 0)) := by
  refine ⟨fun i => s.count p.target (s.isReached p i) c, h.countRelated_eq hp hw s, fun r hr => ?_⟩
  have hsome := h.selects_some hp hlink hw hr
  have hnone := h.selects_none hp hlink hw hr
  refine ⟨hsome, hnone, ?_⟩
  rw [hsome, hnone]
  exact Store.answers_iff hr fun i => s.count p.target (s.isReached p i) c

end Compiles

end Database

/-! ## A post with a tag and one without -/

def tagsPlan : RelationPlan :=
  ⟨"Post", "tags", "Tag", .many, .join "_Post_tags" .first⟩

/-- A post that is linked to the only tag, and a bare one. -/
def taggedStore : Store :=
  (blog.database.result.run
    [.create .reject .null "Tag" (.map [(.text "name", .text "a")]),
      .create .reject .null "Post" (.map [(.text "title", .text "linked"),
        (.text "tags", .map [(.text "connect", .list [.map [(.text "name", .text "a")]])])]),
      .create .reject .null "Post" (.map [(.text "title", .text "bare")])]
    { supply := blogSupply }).store

theorem tagsPlan_mem : tagsPlan ∈ blog.database.result.schema.plans := by
  decide +kernel

/-- Both posts are selected as one of them has a tag. -/
theorem quantified_iff_tagged :
    ∃ count : Int → Nat,
      (∀ i, blog.database.result.countRelated taggedStore "Post" "tags" i (.map []) =
        .ok (count i)) ∧
      ∀ r ∈ taggedStore.rows "Post",
        (blog.database.result.Selects taggedStore "Post" (.quantified "tags" .some (.map [])) r ↔
          ∃ o ∈ taggedStore.rows "Post", 1 ≤ count o.id) ∧
        (blog.database.result.Selects taggedStore "Post" (.quantified "tags" .none (.map [])) r ↔
          ∀ o ∈ taggedStore.rows "Post", count o.id = 0) := by
  have hw : (Filter.condition blog.database.result "Tag" (.map [])).settle = .ok (.all []) := rfl
  obtain ⟨count, hcount, hrows⟩ := blog_compiles.quantified_iff tagsPlan_mem rfl hw taggedStore
  exact ⟨count, hcount, fun r hr => ⟨(hrows r hr).1, (hrows r hr).2.1⟩⟩

/-- The bare post has no tag, but the filters take it for one that has. -/
theorem selects_bare_post :
    ∃ r ∈ taggedStore.rows "Post", r.id = 2 ∧
      blog.database.result.countRelated taggedStore "Post" "tags" 2 (.map []) = .ok 0 ∧
      blog.database.result.Selects taggedStore "Post" (.quantified "tags" .some (.map [])) r ∧
      ¬ blog.database.result.Selects taggedStore "Post" (.quantified "tags" .none (.map [])) r := by
  have hw : (Filter.condition blog.database.result "Tag" (.map [])).settle = .ok (.all []) := rfl
  obtain ⟨r, hr, hid⟩ : ∃ r ∈ taggedStore.rows "Post", r.id = 2 := by decide +kernel
  have hlinked : ∃ o ∈ taggedStore.rows "Post",
      1 ≤ taggedStore.count "Tag" (taggedStore.isReached tagsPlan o.id) (.all []) := by
    decide +kernel
  refine ⟨r, hr, hid, Except.eq_ok_of_toOption (by decide +kernel), ?_, fun hnone => ?_⟩
  · exact (blog_compiles.selects_some tagsPlan_mem rfl hw hr).2 hlinked
  · obtain ⟨o, ho, hpos⟩ := hlinked
    have hzero := (blog_compiles.selects_none tagsPlan_mem rfl hw hr).1 hnone o ho
    exact Nat.one_le_iff_ne_zero.1 hpos hzero

end RecordSchema
