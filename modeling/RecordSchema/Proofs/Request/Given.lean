import RecordSchema.Proofs.Field.Stamps
import RecordSchema.Proofs.Request.Inserted

/-!
# What data give a column

A column belongs to one field, so the values that data give it come from
the entries of that field alone (`Database.Compiles.entry_of_given`), and
from its own entries in the mappings of a composite. A column that is
given holds one of its values behind the write; any other is filled in by
storage when the row is new, and is as it was when the row is changed.

A key can have several entries here, since nothing about data says that
it has one.
-/

namespace RecordSchema

open Layout

/-- Whether a cell is bound from one of the values that a column is given. -/
def TableLayout.IsBound (given : List (String × Value)) (c : Column) (cell : Cell) : Prop :=
  ∃ v, (c.name, v) ∈ given ∧ c.type.bind v = .ok cell

/-- The cells of a changed row other than its id. -/
theorem Database.changed_cell {r r' : Row} {cells : List (String × Cell)}
    (h : changed r cells = .ok r') {column : String} (hid : column ≠ "id") :
    r'.cell column = (r.setAll (TableLayout.withoutId cells)).cell column := by
  unfold changed at h
  split at h
  · rw [← Except.pure_eq_ok.1 h]
  · cases h
  · obtain ⟨id, -, h⟩ := Except.bind_eq_ok.1 h
    rw [← Except.pure_eq_ok.1 h, Row.cell, Row.cell, if_neg hid, if_neg hid]

/-- The row that is found under its id behind a change is the changed one. -/
theorem Store.row?_modifyRows {s : Store} {list : String} {id : Int} {changed r : Row}
    (h : (s.modifyRows list (fun o => o.id == id) fun _ => changed).row? list id = some r) :
    r = changed := by
  obtain ⟨hmem, hid⟩ := Store.row?_mem h
  obtain ⟨o, -, rfl⟩ := Store.mem_rows_modifyRows.1 hmem
  split at hid
  · next hq => rw [if_pos hq]
  · next hq => exact absurd (beq_iff_eq.2 hid) hq

namespace Database.Compiles

variable {db : Database} {d : Declarations} {l : ListType} {key key' name : String} {f f' : Field}
  {data : Value.Entries} {given : List (String × Value)} {s s' : Store}

/-! ## Fields of columns -/

theorem columnKinds_ne_id (h : db.Compiles d) (hl : l ∈ db.schema.lists)
    {slot : String × Storage} (hslot : slot ∈ columnKinds l) : slot.1 ≠ "id" := by
  obtain ⟨c, -, hcolumn, hid⟩ := h.exists_column hl hslot
  exact hcolumn.name ▸ hid

/-- The columns of the fields of a list, field by field. -/
theorem fieldKinds_nodup (h : db.Compiles d) (hl : l ∈ db.schema.lists) :
    (l.fields.flatMap fun e =>
      if e.1 == "id" then [] else (fieldKinds e.1 e.2.storage).map Prod.fst).Nodup := by
  have hnodup := h.columnKinds_nodup hl
  rw [columnKinds, List.map_flatMap] at hnodup
  refine (List.flatMap_congr fun e _ => ?_) ▸ hnodup
  obtain ⟨key, f⟩ := e
  dsimp only
  split <;> rfl

/-- A column belongs to one field. -/
theorem eq_of_column (h : db.Compiles d) (hl : l ∈ db.schema.lists) (hf : (key, f) ∈ l.fields)
    (hf' : (key', f') ∈ l.fields) (hid : key ≠ "id") (hid' : key' ≠ "id") {column : String}
    (hc : column ∈ (fieldKinds key f.storage).map Prod.fst)
    (hc' : column ∈ (fieldKinds key' f'.storage).map Prod.fst) : (key, f) = (key', f') := by
  refine Keys.eq_of_flatMap (h.fieldKinds_nodup hl) hf hf' (b := column) ?_ ?_
  · rwa [if_neg (by simpa using hid)]
  · rwa [if_neg (by simpa using hid')]

/-- A column of a composite belongs to one subfield. -/
theorem eq_of_subfieldColumn (h : db.Compiles d) (hl : l ∈ db.schema.lists)
    (hf : (key, f) ∈ l.fields) (hid : key ≠ "id") {fields : List (String × Storage)}
    (hs : f.storage = .multi fields) {e e' : String × Storage} (he : e ∈ fields)
    (he' : e' ∈ fields) (heq : subfieldColumn key e.1 e.2 = subfieldColumn key e'.1 e'.2) :
    e = e' := by
  have hnodup := (List.nodup_flatMap.1 (h.fieldKinds_nodup hl)).1 (key, f) hf
  dsimp only at hnodup
  rw [if_neg (by simpa using hid), hs, fieldKinds, List.map_map] at hnodup
  exact List.inj_on_of_nodup_map hnodup he he' heq

/-- What a column is given comes from an entry of its field. -/
theorem entry_of_given (h : db.Compiles d) (hl : l ∈ db.schema.lists) (hf : (key, f) ∈ l.fields)
    (hid : key ≠ "id") (ha : (tableOf db.schema.plans l).assign data = .ok given)
    {part : FieldPart} (hpart : partOf? key f.storage = some part) {slot : String × Storage}
    (hslot : slot ∈ fieldKinds key f.storage) {v : Value} (hv : (slot.1, v) ∈ given) :
    ∃ w here, (.text key, w) ∈ data ∧ TableLayout.assignField part.place w = .ok here ∧
      (slot.1, v) ∈ here := by
  have hne : slot.1 ≠ "id" := h.columnKinds_ne_id hl (mem_columnKinds.2 ⟨key, f, hf, hid, hslot⟩)
  obtain ⟨key', w, place, here, hw, -, hplace, hhere, he⟩ := TableLayout.mem_assign ha hv
  rcases mem_fields.1 (Keys.mem_of_lookup hplace) with
    ⟨-, rfl⟩ | ⟨hid', f', part', hf', hpart', rfl⟩
  · exact absurd (List.mem_singleton.1 (TableLayout.assignField_names hhere he)) hne
  · have hc' : slot.1 ∈ (fieldKinds key' f'.storage).map Prod.fst := by
      rw [← place_names_eq hpart']
      exact TableLayout.assignField_names hhere he
    obtain ⟨rfl, rfl⟩ := Prod.mk.inj
      (h.eq_of_column hl hf hf' hid hid' (List.mem_map_of_mem hslot) hc')
    obtain rfl := Option.some.inj (hpart.symm.trans hpart')
    exact ⟨w, here, hw, hhere, he⟩

/-- The column of a field is given what the entries of the field are. -/
theorem entry_of_given_scalarish (h : db.Compiles d) (hl : l ∈ db.schema.lists)
    (hf : (key, f) ∈ l.fields) (hid : key ≠ "id") (hs : f.storage.isScalarish = true)
    (ha : (tableOf db.schema.plans l).assign data = .ok given) {slot : String × Storage}
    (hslot : slot ∈ fieldKinds key f.storage) {v : Value} (hv : (slot.1, v) ∈ given) :
    (.text key, v) ∈ data := by
  obtain ⟨part, hpart, hplace⟩ := exists_partOf? hs key
  obtain ⟨w, here, hw, hhere, he⟩ := h.entry_of_given hl hf hid ha hpart hslot hv
  rw [hplace] at hhere
  cases hhere
  obtain ⟨-, rfl⟩ := Prod.mk.inj (List.mem_singleton.1 he)
  exact hw

/-- The column of a field that has an entry is given something. -/
theorem given_of_entry (h : db.Compiles d) (hl : l ∈ db.schema.lists) (hf : (key, f) ∈ l.fields)
    (hid : key ≠ "id") (hs : f.storage.isScalarish = true)
    (ha : (tableOf db.schema.plans l).assign data = .ok given) {slot : String × Storage}
    (hslot : slot ∈ fieldKinds key f.storage) {v : Value} (hv : (.text key, v) ∈ data)
    (hset : v.isUnset = false) : (slot.1, v) ∈ given := by
  obtain ⟨part, hpart, hplace⟩ := exists_partOf? hs key
  obtain ⟨here, hhere, hsub⟩ :=
    TableLayout.assign_of_mem ha hv hset (h.fields_lookup hl hf hid hpart)
  rw [hplace] at hhere
  cases hhere
  rw [fieldKinds_scalarish hs, List.mem_singleton] at hslot
  exact hslot ▸ hsub (List.mem_singleton_self _)

/-- A column of a composite is given nothing by data that omit it. -/
theorem not_given_of_omits (h : db.Compiles d) (hl : l ∈ db.schema.lists)
    (hf : (key, f) ∈ l.fields) (hid : key ≠ "id") {fields : List (String × Storage)}
    (hs : f.storage = .multi fields) {sub : Storage} (hsub : (name, sub) ∈ fields)
    (ha : (tableOf db.schema.plans l).assign data = .ok given) (homits : data.Omits key name)
    (v : Value) : (subfieldColumn key name sub, v) ∉ given := by
  intro hv
  have hslot : (subfieldColumn key name sub, sub) ∈ fieldKinds key f.storage := by
    rw [hs]
    exact List.mem_map.2 ⟨(name, sub), hsub, rfl⟩
  obtain ⟨part, hpart, hplace⟩ : ∃ part, partOf? key f.storage = some part ∧
      part.place = .many (fields.map fun e => (e.1, subfieldColumn key e.1 e.2)) := by
    rw [hs]
    exact ⟨_, rfl, rfl⟩
  obtain ⟨w, here, hw, hhere, he⟩ := h.entry_of_given hl hf hid ha hpart hslot hv
  rw [hplace] at hhere
  unfold TableLayout.assignField at hhere
  dsimp only at hhere
  split at hhere
  · next es =>
    cases hhere
    obtain ⟨name', hmem, hset, hlookup⟩ := TableLayout.mem_assignSubfields he
    obtain ⟨e, hfield, heq⟩ := List.mem_map.1 (Keys.mem_of_lookup hlookup)
    obtain ⟨rfl, hcolumn⟩ := Prod.mk.inj heq
    obtain rfl := h.eq_of_subfieldColumn hl hf hid hs hfield hsub hcolumn
    have hunset := homits es hw v hmem
    rw [hset] at hunset
    cases hunset
  · split at hhere <;> cases hhere
    cases he

/-! ## Cells behind a write -/

/-- A new row holds a value of every column that is given, and nothing in any other
column without a default. -/
theorem insert_given (h : db.Compiles d) (hl : l ∈ db.schema.lists) {now : DateTime} {row : Row}
    (hi : db.insert s now l.key data = .ok (row, s')) :
    ∃ given, (tableOf db.schema.plans l).assign data = .ok given ∧
      ∀ slot ∈ columnKinds l, ∀ c ∈ (tableOf db.schema.plans l).columns, IsColumnOf slot c →
        (∀ v, (slot.1, v) ∈ given → TableLayout.IsBound given c (row.cell slot.1)) ∧
        (slot.2.default? = none → (∀ v, (slot.1, v) ∉ given) → row.cell slot.1 = .null) := by
  obtain ⟨-, -, given, cells, hgiven, hcells, hrow⟩ := h.insert_row hl hi
  refine ⟨given, hgiven, fun slot hslot c hc hcolumn => ?_⟩
  have hid : c.name ≠ "id" := hcolumn.name ▸ h.columnKinds_ne_id hl hslot
  rw [← hcolumn.name]
  constructor
  · intro v hv
    rcases TableLayout.cell_cases (h.columns_nodup hl) hcells hrow hc hid with
      ⟨u, hu, hbind⟩ | ⟨hnot, -⟩
    · rcases List.mem_append.1 hu with hu | hu
      · exact ⟨u, hu, hbind⟩
      · -- Storage numbers what is not given.
        obtain ⟨column, hnumbered, heq⟩ := List.mem_map.1 hu
        obtain ⟨rfl, -⟩ := Prod.mk.inj heq
        have hnone := (List.mem_filter.1 hnumbered).2
        rw [Bool.not_eq_true', List.any_eq_false] at hnone
        exact absurd (beq_self_eq_true _) (hnone _ hv)
    · exact absurd (List.mem_append_left _ hv) (hnot v)
  · intro hdefault hnot
    rcases TableLayout.cell_cases (h.columns_nodup hl) hcells hrow hc hid with
      ⟨u, hu, hbind⟩ | ⟨-, hexpression | hnull⟩
    · rcases List.mem_append.1 hu with hu | hu
      · exact absurd hu (hnot u)
      · have hsequence := TableLayout.numbered_names hu
        obtain ⟨⟨key, part⟩, hpart, hsequence⟩ := List.mem_flatMap.1 hsequence
        obtain ⟨hkey, f, hf, hpart⟩ := mem_parts.1 hpart
        obtain ⟨kind, hkind, hnumbered, -⟩ :=
          TableLayout.isNumbered_of_sequences hpart (h.defaultProblems_eq_nil hl hf) hsequence
        have hmem := mem_columnKinds.2 ⟨key, f, hf, hkey, hkind⟩
        rw [hcolumn.name] at hmem
        obtain rfl := Keys.eq_of_mem (h.columnKinds_nodup hl) hslot hmem
        rw [Storage.isNumbered, hdefault] at hnumbered
        cases hnumbered
    · obtain ⟨column, nullable, hof, rfl⟩ := hcolumn
      have hexpressed := Storage.isExpressed_of_expression hof hexpression
      rw [Storage.isExpressed, hdefault] at hexpressed
      cases hexpressed
    · exact hnull

/-- A changed row holds a value of every column that is given, and what it held in any other. -/
theorem changed_given (h : db.Compiles d) (hl : l ∈ db.schema.lists)
    {cells : List (String × Cell)} (hcells : (tableOf db.schema.plans l).bind given = .ok cells)
    {r r' : Row} (hchanged : changed r cells = .ok r') {slot : String × Storage}
    (hslot : slot ∈ columnKinds l) {c : Column} (hc : c ∈ (tableOf db.schema.plans l).columns)
    (hcolumn : IsColumnOf slot c) :
    (∀ v, (slot.1, v) ∈ given → TableLayout.IsBound given c (r'.cell slot.1)) ∧
      ((∀ v, (slot.1, v) ∉ given) → r'.cell slot.1 = r.cell slot.1) := by
  have hid : c.name ≠ "id" := hcolumn.name ▸ h.columnKinds_ne_id hl hslot
  have hlookup : (TableLayout.withoutId cells).lookup c.name = cells.lookup c.name :=
    TableLayout.lookup_withoutId hid
  rw [← hcolumn.name, changed_cell hchanged hid]
  rcases TableLayout.bind_cases (h.columns_nodup hl) hcells hc with
    ⟨u, cell, hu, hbind, hsome⟩ | ⟨hnot, hnone⟩
  · have hmem := Keys.mem_of_lookup (hlookup.trans hsome)
    have hnodup : ((TableLayout.withoutId cells).map Prod.fst).Nodup :=
      (TableLayout.bind_nodup (h.columns_nodup hl) hcells).sublist (List.filter_sublist.map _)
    have hcell := Row.cell_setAll_of_mem r hnodup hid hmem
    exact ⟨fun _ _ => ⟨u, hu, hcell.symm ▸ hbind⟩, fun hnot => absurd hu (hnot u)⟩
  · have hmem : c.name ∉ (TableLayout.withoutId cells).map Prod.fst :=
      Keys.lookup_eq_none_iff.1 (hlookup.trans hnone)
    exact ⟨fun v hv => absurd hv (hnot v), fun _ => Row.cell_setAll_of_notMem r hmem⟩

/-- A changed row that keeps its id holds a value of every column that is given, and what it
held in any other. -/
theorem update_given (h : db.Compiles d) (hl : l ∈ db.schema.lists) {id : Int}
    (hu : db.update s l.key id data = .ok s') {r r' : Row} (hr : s.row? l.key id = some r)
    (hr' : s'.row? l.key id = some r') :
    ∃ given, (tableOf db.schema.plans l).assign data = .ok given ∧
      ∀ slot ∈ columnKinds l, ∀ c ∈ (tableOf db.schema.plans l).columns, IsColumnOf slot c →
        (∀ v, (slot.1, v) ∈ given → TableLayout.IsBound given c (r'.cell slot.1)) ∧
        ((∀ v, (slot.1, v) ∉ given) → r'.cell slot.1 = r.cell slot.1) := by
  obtain ⟨given, cells, hgiven, hcells, ⟨hnone, -⟩ | ⟨o, r'', ho, hchanged, -, rfl⟩⟩ :=
    h.update_row hl hu
  · rw [hr] at hnone
    cases hnone
  obtain rfl := Option.some.inj (hr.symm.trans ho)
  obtain rfl := Store.row?_modifyRows hr'
  exact ⟨given, hgiven, fun slot hslot c hc => h.changed_given hl hcells hchanged hslot hc⟩

end Database.Compiles

end RecordSchema
