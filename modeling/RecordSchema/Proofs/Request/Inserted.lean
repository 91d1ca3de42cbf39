import RecordSchema.Proofs.Request.Typed
import RecordSchema.Proofs.Store.RoundTrip
import RecordSchema.Proofs.Store.Slots

/-!
# What creation puts into columns

The data of a creation give every column a value that it takes, and so
does the number that storage gives a column. What a column takes it
gives back in the shape of output, so each column of a new row holds a
value of output, or nothing, or what its expression filled in
(`Database.Holds`); only the last may be anything.
-/

namespace RecordSchema

/-- Whether the value of an absent column is left to an expression of storage. -/
def Storage.isExpressed (s : Storage) : Bool :=
  match s.default? with
  | some (.policy (.dbGenerated _)) => true
  | _ => false

/-- Whether a row has nothing in its columns but values of output and what expressions
fill in, and something wherever a field is required. -/
structure Database.Holds (db : Database) (l : ListType) (r : Row) : Prop where
  columns : ∀ slot ∈ Layout.columnKinds l, slot.2.isExpressed = true ∨ r.cell slot.1 = .null ∨
    slot.2.gives ((Layout.tableOf db.schema.plans l).readColumn r slot.1) = true
  required : ∀ key f, (key, f) ∈ l.fields → key ≠ "id" → f.storage.mode? = some .required →
    ∀ slot ∈ Layout.fieldKinds key f.storage, r.cell slot.1 ≠ .null

open Layout

/-! ## Given values -/

namespace Storage

theorem isExpressed_of_expression {name : String} {s : Storage} {c : Column}
    (hc : Column.ofStorage? name s = some c) (h : c.expression.isSome = true) :
    s.isExpressed = true := by
  have hdefault : (Column.expressionOf? s.default?).isSome = true := by
    cases s <;> cases hc <;> exact h
  unfold Column.expressionOf? at hdefault
  unfold isExpressed
  split at hdefault
  · next hd => rw [hd]
  · cases hdefault

/-- A numbered column is a column of single whole numbers. -/
theorem exists_of_isNumbered {s : Storage} (hs : s.isScalarish = true)
    (hd : s.defaultProblems = .ok []) (hn : s.isNumbered = true) :
    ∃ f, s = .scalar f ∧ f.default = some (.policy .autoincrement) ∧ f.mode ≠ .many ∧
      (f.scalar = .int ∨ f.scalar = .bigInt) := by
  have hdefault : s.default? = some (.policy .autoincrement) := by
    unfold isNumbered at hn
    split at hn
    · assumption
    · cases hn
  cases s with
  | scalar f =>
    rw [defaultProblems, show f.default = _ from hdefault] at hd
    dsimp only at hd
    split at hd
    · cases hd
    · next hmode =>
      refine ⟨f, rfl, hdefault, hmode, ?_⟩
      unfold ScalarField.defaultProblems at hd
      split at hd
      · cases hd
      · next hallows =>
        cases hscalar : f.scalar <;> rw [hscalar] at hallows <;>
          first
          | exact .inl rfl
          | exact .inr rfl
          | exact absurd rfl hallows
  | enum f =>
    rw [defaultProblems, show f.default = _ from hdefault] at hd
    dsimp only at hd
    split at hd <;> cases hd
  | _ => cases hs

/-- A numbered column takes numbers. -/
theorem isGiven_int {s : Storage} (hs : s.isScalarish = true) (hd : s.defaultProblems = .ok [])
    (hn : s.isNumbered = true) (n : Int) : s.IsGiven (.int n) := by
  obtain ⟨f, rfl, -, hmode, hscalar⟩ := exists_of_isNumbered hs hd hn
  refine ⟨rfl, .inl (Shape.conforms_ofColumn_value (.inl rfl) hmode ?_)⟩
  rcases hscalar with hscalar | hscalar <;> rw [hscalar] <;> rfl

end Storage

/-! ## Columns of a new row -/

/-- A value that fills a field gives the columns of the field what they take. -/
theorem TableLayout.isGiven_of_fills {key : String} {s : Storage} {part : FieldPart}
    (hpart : partOf? key s = some part) {v : Value} (hv : s.Fills v)
    {given : List (String × Value)} (h : assignField part.place v = .ok given)
    {e : String × Value} (he : e ∈ given) :
    ∃ kind, (e.1, kind) ∈ fieldKinds key s ∧ kind.IsGiven e.2 := by
  have one (hs : s.isScalarish = true) (hplace : part.place = .one ((nonempty? s.map?).getD key)) :
      ∃ kind, (e.1, kind) ∈ fieldKinds key s ∧ kind.IsGiven e.2 := by
    rw [hplace] at h
    cases h
    obtain rfl := List.mem_singleton.1 he
    rw [fieldKinds_scalarish hs]
    exact ⟨s, List.mem_singleton_self _, (Storage.fills_iff_isGiven hs).1 hv⟩
  cases s with
  | multi fields =>
    cases hpart
    obtain ⟨es, rfl, heach⟩ := hv
    cases h
    obtain ⟨name, hmem, hset, hlookup⟩ := mem_assignSubfields he
    obtain ⟨⟨name', sub⟩, hsub, heq⟩ := List.mem_map.1 (Keys.mem_of_lookup hlookup)
    obtain ⟨rfl, hcolumn⟩ := Prod.mk.inj heq
    refine ⟨sub, ?_, hset, .inl (heach _ hsub e.2 hmem hset)⟩
    exact List.mem_map.2 ⟨(name', sub), hsub, Prod.ext hcolumn rfl⟩
  | scalar | enum =>
    cases hpart
    exact one rfl rfl
  | _ => cases hv.isScalarish

/-- The columns of a field that storage numbers have a number for their default. -/
theorem TableLayout.isNumbered_of_sequences {key : String} {s : Storage} {part : FieldPart}
    (hpart : partOf? key s = some part) (hd : s.defaultProblems = .ok []) {c : String}
    (hc : c ∈ part.sequences) : ∃ kind, (c, kind) ∈ fieldKinds key s ∧ kind.isNumbered = true ∧
      kind.defaultProblems = .ok [] := by
  have one (hs : s.isScalarish = true)
      (hsequences : part.sequences =
        if s.isNumbered then [(nonempty? s.map?).getD key] else []) :
      ∃ kind, (c, kind) ∈ fieldKinds key s ∧ kind.isNumbered = true ∧
        kind.defaultProblems = .ok [] := by
    rw [hsequences] at hc
    split at hc
    · next hnumbered =>
      rw [List.mem_singleton.1 hc, fieldKinds_scalarish hs]
      exact ⟨s, List.mem_singleton_self _, hnumbered, hd⟩
    · cases hc
  cases s with
  | multi fields =>
    cases hpart
    obtain ⟨⟨name, sub⟩, hsub, hc⟩ := List.mem_filterMap.1 hc
    dsimp only at hc
    split at hc
    · next hnumbered =>
      cases hc
      exact ⟨sub, List.mem_map.2 ⟨(name, sub), hsub, rfl⟩, hnumbered,
        Storage.subfieldDefaultProblems_ok hd _ hsub⟩
    · cases hc
  | scalar | enum =>
    cases hpart
    exact one rfl rfl
  | _ => cases hpart

namespace Database.Compiles

variable {db : Database} {d : Declarations} {l : ListType}

/-- Data that fill fields give columns what they take. -/
theorem isGiven_of_assign (h : db.Compiles d) (hl : l ∈ db.schema.lists) {data : Value.Entries}
    (hdata : l.IsFilled data) {given : List (String × Value)}
    (ha : (tableOf db.schema.plans l).assign data = .ok given) {e : String × Value} (he : e ∈ given)
    (hid : e.1 ≠ "id") : ∃ kind, (e.1, kind) ∈ columnKinds l ∧ kind.IsGiven e.2 := by
  obtain ⟨key, v, place, here, hv, -, hplace, hhere, he⟩ := TableLayout.mem_assign ha he
  rcases mem_fields.1 (Keys.mem_of_lookup hplace) with
    ⟨-, rfl⟩ | ⟨hkey, f, part, hf, hpart, rfl⟩
  · exact absurd (List.mem_singleton.1 (TableLayout.assignField_names hhere he)) hid
  · have hfills := hdata.fills_of_mem (h.fields_nodup hl) hf hv
    obtain ⟨kind, hkind, hgiven⟩ := TableLayout.isGiven_of_fills hpart hfills hhere he
    exact ⟨kind, mem_columnKinds.2 ⟨key, f, hf, hkey, hkind⟩, hgiven⟩

/-- Storage numbers columns that take numbers. -/
theorem isGiven_of_numbered (h : db.Compiles d) (hl : l ∈ db.schema.lists) {rows : List Row}
    {given : List (String × Value)} {e : String × Value}
    (he : e ∈ (tableOf db.schema.plans l).numbered rows given) :
    ∃ kind, (e.1, kind) ∈ columnKinds l ∧ kind.IsGiven e.2 := by
  obtain ⟨c, hc, rfl⟩ := List.mem_map.1 he
  obtain ⟨⟨key, part⟩, hpart, hc⟩ := List.mem_flatMap.1 (List.mem_filter.1 hc).1
  obtain ⟨hkey, f, hf, hpart⟩ := mem_parts.1 hpart
  obtain ⟨kind, hkind, hnumbered, hdefault⟩ :=
    TableLayout.isNumbered_of_sequences hpart (h.defaultProblems_eq_nil hl hf) hc
  have hlegal := fieldKinds_legal (h.problems_eq_nil hl hf) hkind
  exact ⟨kind, mem_columnKinds.2 ⟨key, f, hf, hkey, hkind⟩,
    Storage.isGiven_int hlegal.1 hdefault hnumbered _⟩

/-- Whatever a new row is given it is given by data or by storage, and its column takes it. -/
theorem isGiven_of_mem (h : db.Compiles d) (hl : l ∈ db.schema.lists) {data : Value.Entries}
    (hdata : l.IsFilled data) {given : List (String × Value)}
    (ha : (tableOf db.schema.plans l).assign data = .ok given) {rows : List Row}
    {e : String × Value} (he : e ∈ given ++ (tableOf db.schema.plans l).numbered rows given)
    (hid : e.1 ≠ "id") : ∃ kind, (e.1, kind) ∈ columnKinds l ∧ kind.IsGiven e.2 := by
  rcases List.mem_append.1 he with he | he
  · exact h.isGiven_of_assign hl hdata ha he hid
  · exact h.isGiven_of_numbered hl he

/-- A row that is inserted with data that fill fields holds what output expects. -/
theorem insert_holds (h : db.Compiles d) (hl : l ∈ db.schema.lists) {s s' : Store} {now : DateTime}
    {data : Value.Entries} (hdata : l.IsFilled data) {row : Row}
    (hi : db.insert s now l.key data = .ok (row, s')) : db.Holds l row := by
  obtain ⟨-, hcheck, given, cells, hgiven, hcells, hrow⟩ := h.insert_row hl hi
  refine ⟨fun slot hslot => ?_, fun key f hf hid hmode slot hslot => ?_⟩
  · obtain ⟨c, hc, hcolumn, hid⟩ := h.exists_column hl hslot
    obtain ⟨key, f, hf, -, hkind⟩ := mem_columnKinds.1 hslot
    have hp := (fieldKinds_legal (h.problems_eq_nil hl hf) hkind).2
    rw [← hcolumn.name, h.readColumn_eq hl hc]
    obtain ⟨column, nullable, hof, rfl⟩ := hcolumn
    -- A cell is bound from a value, comes from an expression, or is empty.
    rcases TableLayout.cell_cases (h.columns_nodup hl) hcells hrow hc hid with
      ⟨v, hv, hbind⟩ | ⟨-, hexpression | hnull⟩
    · obtain ⟨kind, hkind, hv⟩ := h.isGiven_of_mem hl hdata hgiven hv hid
      obtain rfl := Keys.eq_of_mem (h.columnKinds_nodup hl) hslot (ofStorage?_name hof ▸ hkind)
      have hgives := Storage.gives_of_bind hp hof hv hbind
      exact .inr hgives
    · have hexpressed := Storage.isExpressed_of_expression hof hexpression
      exact .inl hexpressed
    · exact .inr (.inl hnull)
  · obtain ⟨c, hc, hname, hnullable⟩ := exists_required hf hid hmode hslot
    exact hname ▸ TableLayout.check_notNull hcheck hc hnullable

end Database.Compiles

end RecordSchema
