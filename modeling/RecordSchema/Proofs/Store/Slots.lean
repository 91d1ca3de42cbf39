import RecordSchema.Proofs.Shape.Column
import RecordSchema.Proofs.Store.Writes

/-!
# What a new row holds

Every column of a field has one kind: that of the field, or that of one
subfield of a composite. The names of columns are names of their own, so
the kind of a column is known by its name (`Layout.columnKinds`).

A column of a new row holds what data give it, or what storage numbers
it with, or what its expression fills in, or nothing
(`Database.Compiles.insert_cell`), and the value that the record has for
a field is what its columns read (`Database.Compiles.record_value?`).
-/

namespace RecordSchema

/-! ## Kinds of columns -/

namespace Layout

/-- The columns that a field is kept in, each with its kind. -/
def fieldKinds (key : String) : Storage → List (String × Storage)
  | .multi fields => fields.map fun (name, s) => (subfieldColumn key name s, s)
  | s => if s.isScalarish then [((nonempty? s.map?).getD key, s)] else []

/-- The columns that the fields of a list are kept in, the id apart, each with its kind. -/
def columnKinds (l : ListType) : List (String × Storage) :=
  l.fields.flatMap fun (key, f) => if key == "id" then [] else fieldKinds key f.storage

theorem mem_columnKinds {l : ListType} {slot : String × Storage} : slot ∈ columnKinds l ↔
    ∃ key f, (key, f) ∈ l.fields ∧ key ≠ "id" ∧ slot ∈ fieldKinds key f.storage := by
  simp only [columnKinds, List.mem_flatMap]
  constructor
  · rintro ⟨⟨key, f⟩, hf, h⟩
    dsimp only at h
    split at h
    · cases h
    · next hid => exact ⟨key, f, hf, by simpa using hid, h⟩
  · rintro ⟨key, f, hf, hid, h⟩
    exact ⟨(key, f), hf, by simpa [hid] using h⟩

theorem fieldKinds_scalarish {key : String} {s : Storage} (hs : s.isScalarish = true) :
    fieldKinds key s = [((nonempty? s.map?).getD key, s)] := by
  cases s <;> first | rfl | cases hs

theorem exists_partOf? {s : Storage} (hs : s.isScalarish = true) (key : String) :
    ∃ part, partOf? key s = some part ∧ part.place = .one ((nonempty? s.map?).getD key) := by
  cases s <;> first | exact ⟨_, rfl, rfl⟩ | cases hs

theorem place_names_eq {key : String} {s : Storage} {part : FieldPart}
    (h : partOf? key s = some part) : part.place.names = (fieldKinds key s).map Prod.fst := by
  cases s with
  | multi fields =>
    cases h
    simp only [FieldColumns.names, fieldKinds, List.map_map, Function.comp_def]
  | scalar | enum =>
    cases h
    rfl
  | _ => cases h

/-- The kinds of the columns of a legal field are legal kinds of single columns. -/
theorem fieldKinds_legal {key : String} {s : Storage} (hs : s.problems = [])
    {slot : String × Storage} (h : slot ∈ fieldKinds key s) :
    slot.2.isScalarish = true ∧ slot.2.problems = [] := by
  cases s with
  | multi fields =>
    obtain ⟨⟨name, sub⟩, he, rfl⟩ := List.mem_map.1 h
    exact Storage.legal_of_mem hs (e := (name, sub)) he
  | scalar | enum =>
    obtain rfl := List.mem_singleton.1 h
    exact ⟨rfl, hs⟩
  | _ => cases h

/-- Whether a column is the one that a kind asks for, whether or not it may be empty. -/
def IsColumnOf (slot : String × Storage) (c : Column) : Prop :=
  ∃ column nullable, Column.ofStorage? slot.1 slot.2 = some column ∧
    c = { column with nullable := nullable }

theorem IsColumnOf.name {slot : String × Storage} {c : Column} (h : IsColumnOf slot c) :
    c.name = slot.1 := by
  obtain ⟨column, nullable, hcolumn, rfl⟩ := h
  exact ofStorage?_name (c := column) hcolumn

/-- A legal field adds a column for each of its kinds to the table. -/
theorem forall₂_fieldKinds {key : String} {s : Storage} (hs : s.problems = []) :
    List.Forall₂ IsColumnOf (fieldKinds key s) ((partOf? key s).elim [] (·.columns)) := by
  cases s with
  | multi fields =>
    have hall : ∀ e ∈ fields, e.2.isScalarish = true := fun e he => (Storage.legal_of_mem hs he).1
    clear hs
    simp only [fieldKinds, partOf?, Option.elim_some]
    induction fields with
    | nil => exact .nil
    | cons e r ih =>
      obtain ⟨he, hr⟩ := List.forall_mem_cons.1 hall
      obtain ⟨c, hc⟩ := exists_ofStorage? he (subfieldColumn key e.1 e.2)
      have hpart : subfieldPart? key e.1 e.2 = some { c with nullable := true } := by
        rw [subfieldPart?, hc, Option.map_some]
      simp only [List.map_cons, List.filterMap_cons, hpart]
      exact .cons ⟨c, true, hc, rfl⟩ (ih hr)
  | scalar | enum => exact .cons ⟨_, _, rfl, rfl⟩ .nil
  | _ => exact .nil

theorem fieldKinds_names {key : String} {s : Storage} (hs : s.problems = []) :
    (fieldKinds key s).map Prod.fst = ((partOf? key s).elim [] (·.columns)).map (·.name) := by
  have h : List.Forall₂ IsColumnOf (fieldKinds key s) ((partOf? key s).elim [] (·.columns)) :=
    forall₂_fieldKinds hs
  generalize fieldKinds key s = slots, (partOf? key s).elim [] (·.columns) = columns at h
  induction h with
  | nil => rfl
  | cons hc _ ih => rw [List.map_cons, List.map_cons, ih, hc.name]

/-- The kinds of the columns of a list are those of the columns of its table. -/
theorem columnKinds_names {l : ListType} (hl : ∀ e ∈ l.fields, e.2.storage.problems = []) :
    (columnKinds l).map Prod.fst = ((parts l).flatMap (·.2.columns)).map (·.name) := by
  unfold columnKinds parts
  generalize l.fields = fields at hl
  induction fields with
  | nil => rfl
  | cons e r ih =>
    obtain ⟨key, f⟩ := e
    obtain ⟨hf, hr⟩ := List.forall_mem_cons.1 hl
    rw [List.flatMap_cons, List.map_append, ih hr]
    dsimp only
    split
    · next hid => rw [List.filterMap_cons_none (by simp [hid])]; rfl
    · next hid =>
      rw [fieldKinds_names hf]
      cases hpart : partOf? key f.storage with
      | none => rw [List.filterMap_cons_none (by simp [hid, hpart])]; rfl
      | some part =>
        rw [List.filterMap_cons_some (b := (key, part)) (by simp [hid, hpart]), List.flatMap_cons,
          List.map_append]
        rfl

/-- The column of a required field is one that may not be empty. -/
theorem exists_required {plans : List RelationPlan} {l : ListType} {key : String} {f : Field}
    (hf : (key, f) ∈ l.fields) (hid : key ≠ "id") (hmode : f.storage.mode? = some .required)
    {slot : String × Storage} (hslot : slot ∈ fieldKinds key f.storage) :
    ∃ c ∈ (tableOf plans l).columns, c.name = slot.1 ∧ c.nullable = false := by
  obtain ⟨c, part, hpart, hcolumns, hname, hnullable⟩ : ∃ c part,
      partOf? key f.storage = some part ∧ part.columns = [c] ∧ c.name = slot.1 ∧
        c.nullable = false := by
    cases hs : f.storage with
    | scalar s | enum s =>
      rw [hs] at hmode hslot
      obtain rfl := List.mem_singleton.1 hslot
      have hrequired : s.mode = .required := Option.some.inj hmode
      exact ⟨_, _, rfl, rfl, rfl, by simp [hrequired]⟩
    | _ =>
      rw [hs] at hmode
      cases hmode
  refine ⟨c, List.mem_append_left _ (List.mem_cons_of_mem _ (List.mem_flatMap.2
    ⟨(key, part), mem_parts.2 ⟨hid, f, hf, hpart⟩, ?_⟩)), hname, hnullable⟩
  rw [hcolumns]
  exact List.mem_singleton_self c

theorem parts_sublist (l : ListType) :
    ((parts l).map Prod.fst).Sublist (l.fields.map Prod.fst) := by
  refine Keys.filterMap_sublist (fun e b hb => ?_) l.fields
  obtain ⟨key, f⟩ := e
  dsimp only at hb
  split at hb
  · cases hb
  · obtain ⟨_, -, rfl⟩ := Option.map_eq_some_iff.1 hb
    rfl

end Layout

namespace TableLayout

variable {t : TableLayout}

/-! ## Cells of a new row -/

/-- Binding values without a fault has bound every one of them. -/
theorem bindAll_run {given : List (String × Value)} {columns : List Column} {faults : List Fault}
    {cells : List (String × Cell)} (h : (bindAll given columns).run faults = .ok (cells, [])) :
    faults = [] ∧ (cells.map Prod.fst).Sublist (columns.map (·.name)) ∧
      ∀ c ∈ columns, ∀ v, given.reverse.lookup c.name = some v →
        ∃ cell, c.type.bind v = .ok cell ∧ (c.name, cell) ∈ cells := by
  induction columns generalizing faults cells with
  | nil =>
    cases h
    exact ⟨rfl, List.Sublist.refl _, List.forall_mem_nil _⟩
  | cons c r ih =>
    unfold bindAll at h
    cases hv : given.reverse.lookup c.name with
    | none =>
      rw [hv] at h
      obtain ⟨hfaults, hsub, hr⟩ := ih h
      refine ⟨hfaults, hsub.cons c.name, List.forall_mem_cons.2 ⟨fun v hv' => ?_, hr⟩⟩
      rw [hv] at hv'
      cases hv'
    | some v =>
      rw [hv] at h
      simp only [Reading.bind_run, Reading.pure_run] at h
      obtain ⟨cell, m, hcell, rest, m', hrest, rfl, rfl⟩ := h
      obtain ⟨rfl, hsub, hr⟩ := ih hrest
      obtain ⟨hbound, rfl⟩ := Reading.operand_run hcell
      refine ⟨rfl, hsub.cons_cons c.name, List.forall_mem_cons.2 ⟨fun v' hv' => ?_, fun c' hc' v' hv' => ?_⟩⟩
      · obtain rfl := Option.some.inj (hv.symm.trans hv')
        exact ⟨cell, hbound, List.mem_cons_self⟩
      · obtain ⟨cell', hbound', hmem⟩ := hr c' hc' v' hv'
        exact ⟨cell', hbound', List.mem_cons_of_mem _ hmem⟩

/-- A row that is accepted leaves no required column empty. -/
theorem check_notNull {others : List Row} {r : Row} (h : t.check others r = .ok ()) {c : Column}
    (hc : c ∈ t.columns) (hrequired : c.nullable = false) : r.cell c.name ≠ .null := by
  unfold check at h
  split at h
  · cases h
  · next hnone =>
    intro hnull
    have hfull := List.find?_eq_none.1 hnone c hc
    simp [hrequired, hnull, Cell.isNull] at hfull

theorem bind_nodup (hnames : (t.columns.map (·.name)).Nodup) {given : List (String × Value)}
    {cells : List (String × Cell)} (hcells : t.bind given = .ok cells) :
    (cells.map Prod.fst).Nodup :=
  (bindAll_run (Reading.settle_ok hcells)).2.1.nodup hnames

theorem lookup_withoutId {cells : List (String × Cell)} {column : String} (hid : column ≠ "id") :
    (withoutId cells).lookup column = cells.lookup column := by
  unfold withoutId
  induction cells with
  | nil => rfl
  | cons e r ih =>
    by_cases he : e.1 = "id"
    · have hne : column ≠ e.1 := fun heq => hid (heq.trans he)
      rw [List.filter_cons_of_neg (by simp [he]), ih, Store.lookup_cons_ne hne]
    · rw [List.filter_cons_of_pos (by simp [he])]
      by_cases hcolumn : column = e.1
      · subst hcolumn
        rw [Store.lookup_cons_self, Store.lookup_cons_self]
      · rw [Store.lookup_cons_ne hcolumn, Store.lookup_cons_ne hcolumn, ih]

/-- A column that is given is bound from one of its values, and any other is not bound. -/
theorem bind_cases (hnames : (t.columns.map (·.name)).Nodup) {given : List (String × Value)}
    {cells : List (String × Cell)} (hcells : t.bind given = .ok cells) {c : Column}
    (hc : c ∈ t.columns) :
    (∃ v cell, (c.name, v) ∈ given ∧ c.type.bind v = .ok cell ∧ cells.lookup c.name = some cell) ∨
      (∀ v, (c.name, v) ∉ given) ∧ cells.lookup c.name = none := by
  obtain ⟨-, hsub, hbound⟩ := bindAll_run (Reading.settle_ok hcells)
  cases hv : given.reverse.lookup c.name with
  | some v =>
    obtain ⟨cell, hbind, hmem⟩ := hbound c hc v hv
    exact .inl ⟨v, cell, List.mem_reverse.1 (Keys.mem_of_lookup hv), hbind,
      Keys.lookup_of_mem (hsub.nodup hnames) hmem⟩
  | none =>
    rw [Keys.lookup_eq_none_iff, List.map_reverse, List.mem_reverse] at hv
    refine .inr ⟨fun v hmem => hv (List.mem_map.2 ⟨_, hmem, rfl⟩), ?_⟩
    refine Keys.lookup_eq_none_iff.2 fun hmem => hv ?_
    obtain ⟨e, he, hname⟩ := List.mem_map.1 hmem
    exact hname ▸ bind_names hcells he

/-- The cell of a column of a row that holds bound values and what storage fills in. -/
theorem cell_cases (hnames : (t.columns.map (·.name)).Nodup) {given : List (String × Value)}
    {cells : List (String × Cell)} (hcells : t.bind given = .ok cells) {now : DateTime} {r : Row}
    (hr : r.cells = withoutId cells ++ t.filled now cells) {c : Column} (hc : c ∈ t.columns)
    (hid : c.name ≠ "id") :
    (∃ v, (c.name, v) ∈ given ∧ c.type.bind v = .ok (r.cell c.name)) ∨
      (∀ v, (c.name, v) ∉ given) ∧ (c.expression.isSome = true ∨ r.cell c.name = .null) := by
  have hcell : r.cell c.name =
      ((cells.lookup c.name).or ((t.filled now cells).lookup c.name)).getD .null := by
    rw [Row.cell, if_neg hid, hr, List.lookup_append, lookup_withoutId hid]
  rcases bind_cases hnames hcells hc with ⟨v, cell, hv, hbind, hlookup⟩ | ⟨hnot, hnone⟩
  · rw [hlookup] at hcell
    exact .inl ⟨v, hv, hcell ▸ hbind⟩
  · refine .inr ⟨hnot, ?_⟩
    cases hf : (t.filled now cells).lookup c.name with
    | none =>
      rw [hnone, hf] at hcell
      exact .inr hcell
    | some cell =>
      obtain ⟨c', hc', hexpression, hname⟩ := filled_names (Keys.mem_of_lookup hf)
      obtain rfl := List.inj_on_of_nodup_map hnames hc' hc hname
      exact .inl hexpression

/-! ## Values of a record -/

theorem value?_map {α : Type} {places : List (String × α)} {key : String} {place : α}
    (h : places.lookup key = some place) (read : α → Value) :
    Value.Entries.value? (places.map fun (key, place) => (.text key, read place)) key =
      some (read place) := by
  induction places with
  | nil => cases h
  | cons e r ih =>
    obtain ⟨k, p⟩ := e
    by_cases hk : key = k
    · subst hk
      rw [Store.lookup_cons_self] at h
      cases h
      simp [Value.Entries.value?, Value.isText]
    · rw [Store.lookup_cons_ne hk] at h
      have hother : (Value.text k).isText key = false := beq_eq_false_iff_ne.2 (Ne.symm hk)
      simpa [Value.Entries.value?, List.find?_cons, hother] using ih h

end TableLayout

namespace Database.Compiles

open Layout

variable {db : Database} {d : Declarations} {l : ListType} {key : String} {f : Field}

/-- A column of a field has one kind. -/
theorem columnKinds_nodup (h : db.Compiles d) (hl : l ∈ db.schema.lists) :
    ((columnKinds l).map Prod.fst).Nodup := by
  have hnodup := h.columns_nodup hl
  rw [column_names, List.nodup_cons, List.nodup_append] at hnodup
  rw [columnKinds_names fun _ he => h.problems_eq_nil hl he]
  exact hnodup.2.1

/-- No column of a field is a key column. -/
theorem columnKinds_not_isKey (h : db.Compiles d) (hl : l ∈ db.schema.lists)
    {slot : String × Storage} (hslot : slot ∈ columnKinds l) : ¬ db.IsKey l.key slot.1 := by
  intro hk
  obtain ⟨c, hc, hname⟩ := isKey_iff.1 hk
  have hnodup := h.columns_nodup hl
  rw [column_names, List.nodup_cons, List.nodup_append,
    ← columnKinds_names fun _ he => h.problems_eq_nil hl he] at hnodup
  exact hnodup.2.2.2 slot.1 (List.mem_map.2 ⟨slot, hslot, rfl⟩) c.name
    (List.mem_map.2 ⟨c, hc, rfl⟩) hname.symm

/-- The table has a column for every kind. -/
theorem exists_column (h : db.Compiles d) (hl : l ∈ db.schema.lists) {slot : String × Storage}
    (hslot : slot ∈ columnKinds l) :
    ∃ c ∈ (tableOf db.schema.plans l).columns, IsColumnOf slot c ∧ c.name ≠ "id" := by
  obtain ⟨key, f, hf, hid, hslot⟩ := mem_columnKinds.1 hslot
  obtain ⟨c, hc, hcolumn⟩ :=
    (forall₂_fieldKinds (h.problems_eq_nil hl hf)).exists_right hslot
  cases hpart : partOf? key f.storage with
  | none =>
    rw [hpart] at hc
    cases hc
  | some part =>
    rw [hpart] at hc
    have hmem : c ∈ (parts l).flatMap (·.2.columns) :=
      List.mem_flatMap.2 ⟨(key, part), mem_parts.2 ⟨hid, f, hf, hpart⟩, hc⟩
    refine ⟨c, List.mem_append_left _ (List.mem_cons_of_mem _ hmem), hcolumn, ?_⟩
    have hnodup := h.columns_nodup hl
    rw [column_names, List.nodup_cons] at hnodup
    intro hname
    exact hnodup.1 (List.mem_append_left _ (List.mem_map.2 ⟨c, hmem, hname⟩))

theorem readColumn_eq (h : db.Compiles d) (hl : l ∈ db.schema.lists) {c : Column}
    (hc : c ∈ (tableOf db.schema.plans l).columns) (r : Row) :
    (tableOf db.schema.plans l).readColumn r c.name = c.type.read (r.cell c.name) := by
  have hfind : (tableOf db.schema.plans l).column? c.name = some c :=
    Keys.find?_of_mem (h.columns_nodup hl) hc
  rw [TableLayout.readColumn, hfind]

theorem record_eq (h : db.Compiles d) (hl : l ∈ db.schema.lists) (r : Row) :
    db.record l.key r = (tableOf db.schema.plans l).record r := by
  rw [record, h.table?_eq hl]

/-- The id of a record is that of its row. -/
theorem record_id (h : db.Compiles d) (hl : l ∈ db.schema.lists) (r : Row) :
    (db.record l.key r).value? "id" = some (.int r.id) := by
  rw [h.record_eq hl]
  have hread : (tableOf db.schema.plans l).readColumn r Column.id.name = .int r.id :=
    h.readColumn_eq hl (List.mem_append_left _ List.mem_cons_self) r
  have hplace : (tableOf db.schema.plans l).fields.lookup "id" = some (.one "id") :=
    Store.lookup_cons_self ..
  exact (TableLayout.value?_map hplace _).trans (congrArg some hread)

theorem fields_lookup (h : db.Compiles d) (hl : l ∈ db.schema.lists) (hf : (key, f) ∈ l.fields)
    (hid : key ≠ "id") {part : FieldPart} (hpart : partOf? key f.storage = some part) :
    (tableOf db.schema.plans l).fields.lookup key = some part.place := by
  have hkeys : (((parts l).map fun p => (p.1, p.2.place)).map Prod.fst).Nodup := by
    rw [List.map_map]
    exact (h.fields_nodup hl).sublist (parts_sublist l)
  have hmem : (key, part.place) ∈ (parts l).map fun p => (p.1, p.2.place) :=
    List.mem_map.2 ⟨(key, part), mem_parts.2 ⟨hid, f, hf, hpart⟩, rfl⟩
  exact (Store.lookup_cons_ne hid ..).trans (Keys.lookup_of_mem hkeys hmem)

/-- The value of a field of a record is what its columns read. -/
theorem record_value? (h : db.Compiles d) (hl : l ∈ db.schema.lists) (hf : (key, f) ∈ l.fields)
    (hid : key ≠ "id") {part : FieldPart} (hpart : partOf? key f.storage = some part) (r : Row) :
    (db.record l.key r).value? key =
      some ((tableOf db.schema.plans l).readField r part.place) := by
  rw [h.record_eq hl]
  exact TableLayout.value?_map (h.fields_lookup hl hf hid hpart) _

/-- The value of a field in one column is what the column reads. -/
theorem record_column (h : db.Compiles d) (hl : l ∈ db.schema.lists) (hf : (key, f) ∈ l.fields)
    (hid : key ≠ "id") (hs : f.storage.isScalarish = true) (row : Row) :
    ∃ column, (column, f.storage) ∈ fieldKinds key f.storage ∧
      (db.record l.key row).value? key =
        some ((tableOf db.schema.plans l).readColumn row column) := by
  obtain ⟨part, hpart, hplace⟩ := exists_partOf? hs key
  have hvalue := h.record_value? hl hf hid hpart row
  rw [hplace] at hvalue
  rw [fieldKinds_scalarish hs]
  exact ⟨_, List.mem_singleton_self _, hvalue⟩

/-- The value of a composite holds what each of its columns reads. -/
theorem record_composite (h : db.Compiles d) (hl : l ∈ db.schema.lists) (hf : (key, f) ∈ l.fields)
    (hid : key ≠ "id") {fields : List (String × Storage)} (hs : f.storage = .multi fields)
    (hnames : (fields.map Prod.fst).Nodup) (row : Row) :
    ∃ es : Value.Entries, (db.record l.key row).value? key = some (.map es) ∧ ∀ e ∈ fields,
      es.get e.1 = (tableOf db.schema.plans l).readColumn row (subfieldColumn key e.1 e.2) := by
  obtain ⟨part, hpart, hplace⟩ : ∃ part, partOf? key f.storage = some part ∧
      part.place = .many (fields.map fun e => (e.1, subfieldColumn key e.1 e.2)) := by
    rw [hs]
    exact ⟨_, rfl, rfl⟩
  have hvalue := h.record_value? hl hf hid hpart row
  rw [hplace] at hvalue
  refine ⟨_, hvalue, fun e he => ?_⟩
  have hlookup : (fields.map fun e => (e.1, subfieldColumn key e.1 e.2)).lookup e.1 =
      some (subfieldColumn key e.1 e.2) := by
    refine Keys.lookup_of_mem ?_ (List.mem_map.2 ⟨e, he, rfl⟩)
    rwa [List.map_map]
  rw [Value.Entries.get, TableLayout.value?_map hlookup, Option.getD_some]

end Database.Compiles

end RecordSchema
