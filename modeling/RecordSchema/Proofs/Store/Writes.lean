import RecordSchema.Proofs.Store.Columns
import RecordSchema.Proofs.Store.Reading
import RecordSchema.Proofs.Store.Rows

/-!
# Writing rows

Data name fields, so a write assigns only columns that fields are kept
in. A new row has an id that no row of its list has, and its key columns
are null; a changed row keeps its id and its key columns.
-/

namespace RecordSchema

namespace TableLayout

/-! ## Assigned columns -/

/-- The columns of a composite take entries that were sent, each under its name. -/
theorem mem_assignSubfields {subs : List (String × String)} {es : Value.Entries}
    {e : String × Value} (he : e ∈ assignSubfields subs es) :
    ∃ name, (.text name, e.2) ∈ es ∧ e.2.isUnset = false ∧ subs.lookup name = some e.1 := by
  have later {es r : Value.Entries} (hr : r ⊆ es)
      (h : ∃ name, (.text name, e.2) ∈ r ∧ e.2.isUnset = false ∧ subs.lookup name = some e.1) :
      ∃ name, (.text name, e.2) ∈ es ∧ e.2.isUnset = false ∧ subs.lookup name = some e.1 := by
    obtain ⟨name, hmem, h⟩ := h
    exact ⟨name, hr hmem, h⟩
  fun_induction assignSubfields subs es with
  | case1 => cases he
  | case2 name v r c hc hv ih => exact later (List.subset_cons_self _ _) (ih he)
  | case3 name v r c hc hv ih =>
    rcases List.mem_cons.1 he with rfl | he
    · exact ⟨name, List.mem_cons_self, by simpa using hv, hc⟩
    · exact later (List.subset_cons_self _ _) (ih he)
  | case4 name v r hc ih => exact later (List.subset_cons_self _ _) (ih he)
  | case5 k r hk ih => exact later (List.subset_cons_self _ _) (ih he)

theorem assignField_names {place : FieldColumns} {v : Value} {given : List (String × Value)}
    (h : assignField place v = .ok given) {e : String × Value} (he : e ∈ given) :
    e.1 ∈ place.names := by
  unfold assignField at h
  split at h
  · cases h
    rw [List.mem_singleton.1 he]
    exact List.mem_singleton_self _
  · split at h
    · cases h
      obtain ⟨name, -, -, hlookup⟩ := mem_assignSubfields he
      exact List.mem_map.2 ⟨_, Keys.mem_of_lookup hlookup, rfl⟩
    · split at h <;> cases h
      cases he

/-- Data assign columns of the fields that they name, from the values that were sent under their
keys. -/
theorem mem_assign {t : TableLayout} {data : Value.Entries} {given : List (String × Value)}
    (h : t.assign data = .ok given) {e : String × Value} (he : e ∈ given) :
    ∃ key v place here, (.text key, v) ∈ data ∧ v.isUnset = false ∧
      t.fields.lookup key = some place ∧ assignField place v = .ok here ∧ e ∈ here := by
  induction data generalizing given with
  | nil =>
    cases h
    cases he
  | cons entry r ih =>
    have later {given : List (String × Value)} (h : t.assign r = .ok given) (he : e ∈ given) :
        ∃ key v place here, (.text key, v) ∈ entry :: r ∧ v.isUnset = false ∧
          t.fields.lookup key = some place ∧ assignField place v = .ok here ∧ e ∈ here := by
      obtain ⟨key, v, place, here, hkey, hplace⟩ := ih h he
      exact ⟨key, v, place, here, List.mem_cons_of_mem _ hkey, hplace⟩
    unfold assign at h
    split at h
    · cases ‹_ :: _ = []›
    · next key v r' heq =>
      cases heq
      split at h
      · next place hplace =>
        split at h
        · exact later h he
        · next hsent =>
          simp only [Except.bind_eq_ok, Except.pure_eq_ok] at h
          obtain ⟨here, hhere, rest, hrest, rfl⟩ := h
          rcases List.mem_append.1 he with he | he
          · have hset : v.isUnset = false := Bool.eq_false_of_not_eq_true hsent
            exact ⟨key, v, place, here, List.mem_cons_self, hset, hplace, hhere, he⟩
          · exact later hrest he
      · exact later h he
    · next heq =>
      cases heq
      exact later h he

/-- Data assign every column of a value that was sent. -/
theorem assign_of_mem {t : TableLayout} {data : Value.Entries} {given : List (String × Value)}
    (h : t.assign data = .ok given) {key : String} {v : Value} (hv : (.text key, v) ∈ data)
    (hset : v.isUnset = false) {place : FieldColumns} (hplace : t.fields.lookup key = some place) :
    ∃ here, assignField place v = .ok here ∧ here ⊆ given := by
  induction data generalizing given with
  | nil => cases hv
  | cons entry r ih =>
    rcases List.mem_cons.1 hv with rfl | hv
    · simp only [assign, hplace, hset, Except.bind_eq_ok, Except.pure_eq_ok, Bool.false_eq_true,
        if_false] at h
      obtain ⟨here, hhere, rest, -, rfl⟩ := h
      exact ⟨here, hhere, List.subset_append_left here rest⟩
    · have later {given : List (String × Value)} (h : t.assign r = .ok given) :
          ∃ here, assignField place v = .ok here ∧ here ⊆ given := ih h hv
      unfold assign at h
      split at h
      · cases ‹_ :: _ = []›
      · next heq =>
        cases heq
        split at h
        · split at h
          · exact later h
          · simp only [Except.bind_eq_ok, Except.pure_eq_ok] at h
            obtain ⟨first, -, rest, hrest, rfl⟩ := h
            obtain ⟨here, hhere, hsub⟩ := later hrest
            exact ⟨here, hhere, fun e he => List.mem_append_right first (hsub he)⟩
        · exact later h
      · next heq =>
        cases heq
        exact later h

/-- Data assign columns of the fields that they name. -/
theorem assign_names {t : TableLayout} {data : Value.Entries} {given : List (String × Value)}
    (h : t.assign data = .ok given) {e : String × Value} (he : e ∈ given) :
    ∃ key place, .text key ∈ data.map Prod.fst ∧ t.fields.lookup key = some place ∧
      e.1 ∈ place.names := by
  obtain ⟨key, v, place, here, hkey, -, hplace, hhere, he⟩ := mem_assign h he
  exact ⟨key, place, List.mem_map.2 ⟨_, hkey, rfl⟩, hplace, assignField_names hhere he⟩

theorem bindAll_names {given : List (String × Value)} {columns : List Column}
    {faults faults' : List Fault} {cells : List (String × Cell)}
    (h : (bindAll given columns).run faults = .ok (cells, faults')) {e : String × Cell}
    (he : e ∈ cells) : e.1 ∈ given.map Prod.fst := by
  induction columns generalizing faults faults' cells with
  | nil =>
    cases h
    cases he
  | cons c r ih =>
    unfold bindAll at h
    split at h
    · next v hv =>
      simp only [Reading.bind_run, Reading.pure_run] at h
      obtain ⟨cell, _, -, rest, _, hrest, rfl, -⟩ := h
      rcases List.mem_cons.1 he with rfl | he
      · exact List.mem_map.2 ⟨_, List.mem_reverse.1 (Keys.mem_of_lookup hv), rfl⟩
      · exact ih hrest he
    · exact ih h he

theorem bind_names {t : TableLayout} {given : List (String × Value)} {cells : List (String × Cell)}
    (h : t.bind given = .ok cells) {e : String × Cell} (he : e ∈ cells) :
    e.1 ∈ given.map Prod.fst :=
  bindAll_names (Reading.settle_ok h) he

theorem numbered_names {t : TableLayout} {rows : List Row} {given : List (String × Value)}
    {e : String × Value} (he : e ∈ t.numbered rows given) : e.1 ∈ t.sequences := by
  obtain ⟨c, hc, rfl⟩ := List.mem_map.1 he
  exact (List.mem_filter.1 hc).1

theorem filled_names {t : TableLayout} {now : DateTime} {given : List (String × Cell)}
    {e : String × Cell} (he : e ∈ t.filled now given) :
    ∃ c ∈ t.columns, c.expression.isSome ∧ c.name = e.1 := by
  obtain ⟨c, hc, he⟩ := List.mem_filterMap.1 he
  split at he
  · next hexp =>
    split at he
    · cases he
    · cases he
      exact ⟨c, hc, by simp [hexp], rfl⟩
  · cases he

/-- A row that is accepted has an id of its own. -/
theorem check_ok {t : TableLayout} {others : List Row} {r : Row} (h : t.check others r = .ok ()) :
    ∀ o ∈ others, o.id ≠ r.id := by
  unfold check at h
  split at h
  · cases h
  · split at h
    · cases h
    · next hnone =>
      simpa using hnone

end TableLayout

namespace Database

/-! ## New and changed rows -/

/-- The row after giving it cells other than the id. -/
theorem changed_ok {r r' : Row} {cells : List (String × Cell)} (h : changed r cells = .ok r')
    (hid : "id" ∉ cells.map Prod.fst) : r' = r.setAll (TableLayout.withoutId cells) := by
  have hnone : cells.lookup "id" = none := Keys.lookup_eq_none_iff.2 hid
  simp only [changed, hnone] at h
  exact (Except.ok.inj h).symm

namespace Compiles

variable {db : Database} {d : Declarations} {l : ListType}

open Layout

/-- Data that do not name the id assign columns that fields are kept in. -/
theorem assign_fieldColumns {data : Value.Entries} {given : List (String × Value)}
    (ha : (tableOf db.schema.plans l).assign data = .ok given)
    (hid : .text "id" ∉ data.map Prod.fst) {e : String × Value} (he : e ∈ given) :
    e.1 ∈ fieldColumns l := by
  obtain ⟨key, place, hkey, hplace, hn⟩ := TableLayout.assign_names ha he
  refine place_fieldColumns hplace ?_ hn
  rintro rfl
  exact hid hkey

/-- Data that do not name the id bind no cell for it. -/
theorem id_notMem_bind (h : db.Compiles d) (hl : l ∈ db.schema.lists) {data : Value.Entries}
    {given : List (String × Value)} (ha : (tableOf db.schema.plans l).assign data = .ok given)
    {cells : List (String × Cell)} (hb : (tableOf db.schema.plans l).bind given = .ok cells)
    (hid : .text "id" ∉ data.map Prod.fst) : "id" ∉ cells.map Prod.fst := by
  intro hmem
  obtain ⟨e, he, hname⟩ := List.mem_map.1 hmem
  obtain ⟨g, hg, heq⟩ := List.mem_map.1 (TableLayout.bind_names hb he)
  exact h.fieldColumns_ne_id hl (assign_fieldColumns ha hid hg) (heq.trans hname)

theorem assign_not_isKey (h : db.Compiles d) (hl : l ∈ db.schema.lists) {data : Value.Entries}
    {given : List (String × Value)} (ha : (tableOf db.schema.plans l).assign data = .ok given)
    {e : String × Value} (he : e ∈ given) : ¬ db.IsKey l.key e.1 := by
  obtain ⟨key, place, -, hplace, hn⟩ := TableLayout.assign_names ha he
  intro hk
  by_cases hid : key = "id"
  · subst hid
    simp only [tableOf, Store.lookup_cons_self, Option.some.injEq] at hplace
    subst hplace
    exact h.isKey_ne_id hk (List.mem_singleton.1 hn)
  · exact h.fieldColumns_not_isKey hl (place_fieldColumns hplace hid hn) hk

/-- A new row stands at the end of its list, with cells for what data give and what
storage fills in. -/
theorem insert_row (h : db.Compiles d) (hl : l ∈ db.schema.lists) {s s' : Store} {now : DateTime}
    {data : Value.Entries} {row : Row} (hi : db.insert s now l.key data = .ok (row, s')) :
    s' = s.setRows l.key (s.rows l.key ++ [row]) ∧
      (tableOf db.schema.plans l).check (s.rows l.key) row = .ok () ∧
      ∃ given cells, (tableOf db.schema.plans l).assign data = .ok given ∧
        (tableOf db.schema.plans l).bind
          (given ++ (tableOf db.schema.plans l).numbered (s.rows l.key) given) = .ok cells ∧
        row.cells =
          TableLayout.withoutId cells ++ (tableOf db.schema.plans l).filled now cells := by
  simp only [insert, h.table_ok hl, Except.bind_eq_ok, Except.ok.injEq] at hi
  obtain ⟨t, rfl, given, hgiven, cells, hcells, id, -, ⟨⟩, hcheck, hi⟩ := hi
  obtain ⟨rfl, rfl⟩ := Prod.mk.inj (Except.pure_eq_ok.1 hi)
  exact ⟨rfl, hcheck, given, cells, hgiven, hcells, rfl⟩

/-- A new row stands at the end of its list, has an id of its own and no links. -/
theorem insert_ok (h : db.Compiles d) (hl : l ∈ db.schema.lists) {s s' : Store} {now : DateTime}
    {data : Value.Entries} {row : Row} (hi : db.insert s now l.key data = .ok (row, s')) :
    s' = s.setRows l.key (s.rows l.key ++ [row]) ∧ row.id ∉ s.ids l.key ∧
      ∀ column, db.IsKey l.key column → row.cell column = .null := by
  obtain ⟨hstore, hcheck, given, cells, hgiven, hcells, hrow⟩ := h.insert_row hl hi
  refine ⟨hstore, ?_, fun column hk => Row.cell_of_notMem (h.isKey_ne_id hk) ?_⟩
  · rintro hmem
    obtain ⟨o, ho, hid⟩ := Store.mem_ids.1 hmem
    exact TableLayout.check_ok hcheck o ho hid
  · rw [hrow]
    intro hmem
    obtain ⟨e, he, rfl⟩ := List.mem_map.1 hmem
    rcases List.mem_append.1 he with he | he
    · have hgiven' := TableLayout.bind_names hcells (List.mem_filter.1 he).1
      rw [List.map_append, List.mem_append] at hgiven'
      rcases hgiven' with hmem | hmem
      · obtain ⟨g, hg, hname⟩ := List.mem_map.1 hmem
        exact h.assign_not_isKey hl hgiven hg (hname ▸ hk)
      · obtain ⟨g, hg, hname⟩ := List.mem_map.1 hmem
        exact h.fieldColumns_not_isKey hl
          (sequences_fieldColumns (TableLayout.numbered_names hg)) (hname ▸ hk)
    · obtain ⟨c, hc, hexp, hname⟩ := TableLayout.filled_names he
      exact h.not_isKey_of_expression hl hc hexp (hname ▸ hk)

/-- A changed row stands in the place of the one with its id, if there is one. -/
theorem update_row (h : db.Compiles d) (hl : l ∈ db.schema.lists) {s s' : Store} {id : Int}
    {data : Value.Entries} (hu : db.update s l.key id data = .ok s') :
    ∃ given cells, (tableOf db.schema.plans l).assign data = .ok given ∧
      (tableOf db.schema.plans l).bind given = .ok cells ∧
      ((s.row? l.key id = none ∧ s' = s) ∨
        ∃ r r', s.row? l.key id = some r ∧ changed r cells = .ok r' ∧
          (tableOf db.schema.plans l).check ((s.rows l.key).filter fun o => o.id != id) r' =
            .ok () ∧ s' = s.modifyRows l.key (fun o => o.id == id) fun _ => r') := by
  simp only [update, h.table_ok hl, Except.bind_eq_ok, Except.ok.injEq] at hu
  obtain ⟨t, rfl, given, hgiven, cells, hcells, hu⟩ := hu
  refine ⟨given, cells, hgiven, hcells, ?_⟩
  cases hr : s.row? l.key id with
  | none =>
    rw [hr] at hu
    exact .inl ⟨rfl, (Except.pure_eq_ok.1 hu).symm⟩
  | some r =>
    rw [hr] at hu
    simp only [Except.bind_eq_ok] at hu
    obtain ⟨r', hr', ⟨⟩, hcheck, hu⟩ := hu
    exact .inr ⟨r, r', rfl, hr', hcheck, (Except.pure_eq_ok.1 hu).symm⟩

/-- A changed row gets cells in columns that fields are kept in, if there is one. -/
theorem update_ok (h : db.Compiles d) (hl : l ∈ db.schema.lists) {s s' : Store} {id : Int}
    {data : Value.Entries} (hid : .text "id" ∉ data.map Prod.fst)
    (hu : db.update s l.key id data = .ok s') :
    (s.row? l.key id = none ∧ s' = s) ∨
      ∃ r cells, s.row? l.key id = some r ∧ (∀ e ∈ cells, e.1 ∈ fieldColumns l) ∧
        s' = s.modifyRows l.key (fun o => o.id == id) fun _ => r.setAll cells := by
  obtain ⟨given, cells, hgiven, hcells, hnone | ⟨r, r', hr, hr', -, rfl⟩⟩ := h.update_row hl hu
  · exact .inl hnone
  · have hnames : ∀ e ∈ cells, e.1 ∈ fieldColumns l := by
      intro e he
      obtain ⟨g, hg, hname⟩ := List.mem_map.1 (TableLayout.bind_names hcells he)
      exact hname ▸ assign_fieldColumns hgiven hid hg
    obtain rfl := changed_ok hr' (h.id_notMem_bind hl hgiven hcells hid)
    exact .inr ⟨r, TableLayout.withoutId cells, hr,
      fun e he => hnames e (List.mem_filter.1 he).1, rfl⟩

end Compiles

end Database

end RecordSchema
