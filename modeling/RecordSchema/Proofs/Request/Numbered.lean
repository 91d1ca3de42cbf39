import RecordSchema.Proofs.Request.Carried
import RecordSchema.Proofs.Request.Identified
import RecordSchema.Proofs.Request.Omitted
import RecordSchema.Proofs.Store.Sequences

/-!
# Numbered columns

A column that storage numbers holds whole numbers and nothing else, since
its field takes nothing else (`ScalarField.IsNumbered.isWhole`). A new row
that is given nothing there holds the next number
(`ListType.IsNumbered.insert_next`), and a changed one keeps its own
(`ListType.IsNumbered.update_column`). A record reads the number back
(`ListType.IsNumbered.record_part`).
-/

namespace RecordSchema

open Layout

/-! ## Columns of whole numbers -/

namespace ColumnType

variable {t : ColumnType} {n : Int} {cell : Cell}

theorem bind_int (ht : t = .integer ∨ t = .bigInteger) (h : t.bind (.int n) = .ok cell) :
    cell = .int n := by
  have hsettled : (if fitsWord n then .ok (.int n) else .error .overflow :
      Except Fault Cell).map t.settle = .ok cell := by
    rcases ht with rfl | rfl <;> exact h
  split at hsettled
  · rcases ht with rfl | rfl <;> exact (Except.ok.inj hsettled).symm
  · cases hsettled

theorem bind_null (ht : t = .integer ∨ t = .bigInteger) (h : t.bind .null = .ok cell) :
    cell = .null := by
  rcases ht with rfl | rfl <;> exact (Except.ok.inj h).symm

theorem read_int (ht : t = .integer ∨ t = .bigInteger) (n : Int) : t.read (.int n) = .int n := by
  rcases ht with rfl | rfl <;> rfl

end ColumnType

/-- Whether a field is one whose column storage numbers. -/
structure ScalarField.IsNumbered (f : ScalarField) : Prop where
  legal : (Storage.scalar f).problems = []
  default : f.default = some (.policy .autoincrement)
  single : f.mode ≠ .many
  whole : f.scalar = .int ∨ f.scalar = .bigInt

namespace ScalarField.IsNumbered

variable {f : ScalarField} {column : String} {c : Column} {v : Value} {cell : Cell}

/-- A numbered column is one of whole numbers, without an expression. -/
theorem column_whole (h : f.IsNumbered) (hc : IsColumnOf (column, .scalar f) c) :
    (c.type = .integer ∨ c.type = .bigInteger) ∧ c.expression = none := by
  obtain ⟨_, nullable, hof, rfl⟩ := hc
  cases hof
  dsimp only
  rw [if_neg h.single, h.default, Column.scalarType]
  refine ⟨?_, rfl⟩
  rcases h.whole with hscalar | hscalar
  · exact .inl (by rw [hscalar])
  · exact .inr (by rw [hscalar])

theorem isGiven (h : f.IsNumbered) (hv : (Storage.scalar f).IsGiven v) :
    v = .null ∨ ∃ n, v = .int n := by
  have hadmits (hconforms : (Shape.scalar f.scalar).conforms v = true) : ∃ n, v = .int n := by
    rcases h.whole with hscalar | hscalar <;> rw [hscalar] at hconforms <;> cases v <;>
      first | exact ⟨_, rfl⟩ | cases hconforms
  rcases hv.isHeld h.legal rfl rfl with hheld | ⟨hmany, -⟩
  · cases hmode : f.mode with
    | required =>
      rw [hmode] at hheld
      exact .inr (hadmits hheld)
    | nullable =>
      rw [hmode] at hheld
      exact hheld.symm.imp_right hadmits
    | many => exact absurd hmode h.single
  · exact absurd hmany h.single

/-- What a numbered column is given it holds as a whole number or as nothing. -/
theorem isWhole (h : f.IsNumbered) (hc : IsColumnOf (column, .scalar f) c)
    (hv : (Storage.scalar f).IsGiven v) (hbind : c.type.bind v = .ok cell) : cell.IsWhole := by
  obtain ⟨htype, -⟩ := h.column_whole hc
  obtain rfl | ⟨n, rfl⟩ := h.isGiven hv
  · exact .inl (ColumnType.bind_null htype hbind)
  · exact .inr ⟨n, ColumnType.bind_int htype hbind⟩

end ScalarField.IsNumbered

/-- A field whose column storage numbers adds that column to the sequences. -/
theorem Layout.exists_sequence {s : Storage} (hn : s.isNumbered = true) (key : String) :
    ∃ part, partOf? key s = some part ∧ (nonempty? s.map?).getD key ∈ part.sequences := by
  cases s with
  | scalar | enum =>
    refine ⟨_, rfl, ?_⟩
    dsimp only
    rw [if_pos hn]
    exact List.mem_singleton_self _
  | _ => cases hn

namespace ListType.IsNumbered

variable {db : Database} {d : Declarations} {l : ListType} {column key : String}
  {name : Option String} {s s' : Store} {data : Value.Entries} {now : DateTime} {row : Row}

theorem exists_slot (hn : l.IsNumbered column key name) (h : db.Compiles d)
    (hl : l ∈ db.schema.lists) :
    ∃ f : ScalarField, (column, .scalar f) ∈ columnKinds l ∧ f.IsNumbered := by
  cases hn with
  | @field _ f hf hid hnumbered =>
    have hs := Storage.isScalarish_of_isNumbered hnumbered
    obtain ⟨sf, hsf, hdefault, hmode, hwhole⟩ :=
      Storage.exists_of_isNumbered hs (h.defaultProblems_eq_nil hl hf) hnumbered
    have hlegal := h.problems_eq_nil hl hf
    refine ⟨sf, mem_columnKinds.2 ⟨key, f, hf, hid, ?_⟩, hsf ▸ hlegal, hdefault, hmode, hwhole⟩
    rw [fieldKinds_scalarish hs, ← hsf]
    exact List.mem_singleton_self _
  | @subfield _ name f fields sub hf hid hs hsub hnumbered =>
    have hlegal := Storage.legal_of_mem (hs ▸ h.problems_eq_nil hl hf) hsub
    have hdefaults := hs ▸ h.defaultProblems_eq_nil hl hf
    rw [Storage.defaultProblems] at hdefaults
    obtain ⟨sf, hsf, hdefault, hmode, hwhole⟩ := Storage.exists_of_isNumbered hlegal.1
      (Storage.subfieldDefaultProblems_ok hdefaults _ hsub) hnumbered
    dsimp only at hsf
    subst hsf
    refine ⟨sf, mem_columnKinds.2 ⟨key, f, hf, hid, ?_⟩, hlegal.2, hdefault, hmode, hwhole⟩
    rw [hs]
    exact List.mem_map.2 ⟨_, hsub, rfl⟩

/-- A numbered column is one of those that storage numbers. -/
theorem mem_sequences (hn : l.IsNumbered column key name) (plans : List RelationPlan) :
    column ∈ (tableOf plans l).sequences := by
  have hpart {f : Field} {part : FieldPart} (hf : (key, f) ∈ l.fields) (hid : key ≠ "id")
      (hpart : partOf? key f.storage = some part) (hc : column ∈ part.sequences) :
      column ∈ (tableOf plans l).sequences :=
    List.mem_flatMap.2 ⟨(key, part), mem_parts.2 ⟨hid, f, hf, hpart⟩, hc⟩
  cases hn with
  | field hf hid hnumbered =>
    obtain ⟨part, hmade, hc⟩ := exists_sequence hnumbered key
    exact hpart hf hid hmade hc
  | @subfield _ name f fields sub hf hid hs hsub hnumbered =>
    refine hpart hf hid (by rw [hs]; rfl) ?_
    exact List.mem_filterMap.2 ⟨(name, sub), hsub, if_pos hnumbered⟩

/-! ## New rows -/

/-- Data that fill fields put a whole number or nothing into a numbered column. -/
theorem insert_isWhole (hn : l.IsNumbered column key name) (h : db.Compiles d)
    (hl : l ∈ db.schema.lists) (hdata : l.IsFilled data)
    (hi : db.insert s now l.key data = .ok (row, s')) : (row.cell column).IsWhole := by
  obtain ⟨f, hslot, hnumbered⟩ := hn.exists_slot h hl
  obtain ⟨c, hc, hcolumn, hid⟩ := h.exists_column hl hslot
  obtain ⟨-, -, given, cells, hgiven, hcells, hrow⟩ := h.insert_row hl hi
  obtain rfl : c.name = column := hcolumn.name
  rcases TableLayout.cell_cases (h.columns_nodup hl) hcells hrow hc hid with
    ⟨v, hv, hbind⟩ | ⟨-, hexpression | hnull⟩
  · obtain ⟨kind, hkind, hv⟩ := h.isGiven_of_mem hl hdata hgiven hv hid
    obtain rfl := Keys.eq_of_mem (h.columnKinds_nodup hl) hslot hkind
    exact hnumbered.isWhole hcolumn hv hbind
  · rw [(hnumbered.column_whole hcolumn).2] at hexpression
    cases hexpression
  · exact .inl hnull

/-- A numbered column that data leave out holds the next number in the new row. -/
theorem insert_next (hn : l.IsNumbered column key name) (h : db.Compiles d)
    (hl : l ∈ db.schema.lists) (hleft : (tableOf db.schema.plans l).Leaves data column)
    (hi : db.insert s now l.key data = .ok (row, s')) :
    row.cell column = .int (Cell.next (s.column l.key column)) := by
  obtain ⟨f, hslot, hnumbered⟩ := hn.exists_slot h hl
  obtain ⟨c, hc, hcolumn, hid⟩ := h.exists_column hl hslot
  obtain ⟨-, -, given, cells, hgiven, hcells, hrow⟩ := h.insert_row hl hi
  obtain rfl : c.name = column := hcolumn.name
  have hmem : (c.name, .int (TableLayout.nextNumber (s.rows l.key) c.name)) ∈
      (tableOf db.schema.plans l).numbered (s.rows l.key) given := by
    refine List.mem_map.2 ⟨c.name, List.mem_filter.2 ⟨hn.mem_sequences _, ?_⟩, rfl⟩
    rw [Bool.not_eq_true', List.any_eq_false]
    rintro ⟨other, v⟩ hv heq
    obtain rfl := eq_of_beq heq
    exact hleft given hgiven v hv
  rcases TableLayout.cell_cases (h.columns_nodup hl) hcells hrow hc hid with
    ⟨v, hv, hbind⟩ | ⟨hnot, -⟩
  · rcases List.mem_append.1 hv with hv | hv
    · exact absurd hv (hleft given hgiven v)
    · obtain ⟨other, -, heq⟩ := List.mem_map.1 hv
      obtain ⟨rfl, rfl⟩ := Prod.mk.inj heq
      rw [ColumnType.bind_int (hnumbered.column_whole hcolumn).1 hbind, TableLayout.nextNumber_eq,
        Store.column]
  · exact absurd (List.mem_append_right _ hmem) (hnot _)

/-! ## Changed rows -/

/-- Data that fill fields leave a numbered column with whole numbers or nothing. -/
theorem update_isWhole (hn : l.IsNumbered column key name) (h : db.Compiles d)
    (hl : l ∈ db.schema.lists) (hdata : l.IsFilled data) {id : Int}
    (hu : db.update s l.key id data = .ok s') (hs : ∀ c ∈ s.column l.key column, c.IsWhole) :
    ∀ c ∈ s'.column l.key column, c.IsWhole := by
  obtain ⟨f, hslot, hnumbered⟩ := hn.exists_slot h hl
  obtain ⟨c, hc, hcolumn, hid⟩ := h.exists_column hl hslot
  obtain ⟨given, cells, hgiven, hcells, ⟨-, rfl⟩ | ⟨r, r', hr, hchanged, -, rfl⟩⟩ :=
    h.update_row hl hu
  · exact hs
  have hnew : (r'.cell column).IsWhole := by
    obtain ⟨hbound, hkept⟩ := h.changed_given hl hcells hchanged hslot hc hcolumn
    by_cases hv : ∃ v, (column, v) ∈ given
    · obtain ⟨v, hv⟩ := hv
      obtain ⟨u, hu, hbind⟩ := hbound v hv
      obtain ⟨kind, hkind, hgivenTo⟩ := h.isGiven_of_assign hl hdata hgiven hu hid
      rw [show c.name = column from hcolumn.name] at hkind
      obtain rfl := Keys.eq_of_mem (h.columnKinds_nodup hl) hslot hkind
      exact hnumbered.isWhole hcolumn hgivenTo hbind
    · rw [hkept fun v hmem => hv ⟨v, hmem⟩]
      exact hs _ (Store.mem_column (Store.row?_mem hr).1 column)
  intro cell hcell
  obtain ⟨o, ho, rfl⟩ := List.mem_map.1 hcell
  obtain ⟨o', ho', rfl⟩ := Store.mem_rows_modifyRows.1 ho
  split
  · exact hnew
  · exact hs _ (Store.mem_column ho' column)

/-- A column that data leave out is as it was. -/
theorem update_column (hn : l.IsNumbered column key name) (h : db.Compiles d)
    (hl : l ∈ db.schema.lists) (hs : s.Keyed)
    (hleft : (tableOf db.schema.plans l).Leaves data column) {id : Int}
    (hu : db.update s l.key id data = .ok s') :
    s'.column l.key column = s.column l.key column := by
  obtain ⟨f, hslot, hnumbered⟩ := hn.exists_slot h hl
  obtain ⟨c, hc, hcolumn, hid⟩ := h.exists_column hl hslot
  obtain ⟨given, cells, hgiven, hcells, ⟨-, rfl⟩ | ⟨r, r', hr, hchanged, -, rfl⟩⟩ :=
    h.update_row hl hu
  · rfl
  obtain ⟨-, hkept⟩ := h.changed_given hl hcells hchanged hslot hc hcolumn
  obtain ⟨hmem, hrid⟩ := Store.row?_mem hr
  rw [Store.column, Store.column, Store.rows_modifyRows, if_pos rfl, List.map_map]
  refine List.map_congr_left fun o ho => ?_
  rw [Function.comp_apply]
  split
  · next hq =>
    obtain rfl : r = o := Store.eq_of_mem_rows hs hmem ho (hrid.trans (eq_of_beq hq).symm)
    exact hkept (hleft given hgiven)
  · rfl

/-! ## Records -/

/-- The record of a row reads a numbered column as the number that it holds. -/
theorem record_part (hn : l.IsNumbered column key name) (hd : db.Compiles d)
    (hl : l ∈ db.schema.lists) (hnames : ∀ e ∈ l.fields, e.2.storage.namesOnce = true) {r : Row}
    {n : Int} (hr : r.cell column = .int n) : (db.record l.key r).part key name = .int n := by
  obtain ⟨f, hslot, hnumbered⟩ := hn.exists_slot hd hl
  obtain ⟨c, hc, hcolumn, -⟩ := hd.exists_column hl hslot
  have htype := (hnumbered.column_whole hcolumn).1
  have hname : c.name = column := hcolumn.name
  cases hn with
  | @field _ f hf hid hfield =>
    have hs := Storage.isScalarish_of_isNumbered hfield
    obtain ⟨place, hplace, hvalue⟩ := hd.record_column hl hf hid hs r
    rw [fieldKinds_scalarish hs] at hplace
    obtain ⟨rfl, -⟩ := Prod.mk.inj (List.mem_singleton.1 hplace)
    rw [Value.Entries.part, Value.Entries.get, hvalue, Option.getD_some, ← hname,
      hd.readColumn_eq hl hc, hname, hr, ColumnType.read_int htype]
  | @subfield _ _ f fields sub hf hid hs hsub =>
    obtain ⟨-, -, c', hc', hcolumn', hreads⟩ := hd.record_subfield hl hf hs (hnames _ hf) hsub
    obtain rfl := List.inj_on_of_nodup_map (hd.columns_nodup hl) hc hc'
      (hname.trans hcolumn'.name.symm)
    rw [Value.Entries.part, hreads, hr, ColumnType.read_int htype]

end ListType.IsNumbered

end RecordSchema
