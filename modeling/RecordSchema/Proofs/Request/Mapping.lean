import RecordSchema.Proofs.Request.Driver
import RecordSchema.Proofs.Request.Omitted

/-!
# Data through rows

A table lays data out in columns and makes records of columns, by one
assignment of columns to fields and to subfields of composites: the
slots of the table. The column of a subfield may be named by anyone, so
that slots do not share columns is no matter of how names are made up;
it holds because a table has no two columns of one name.

Given that, a column is given a value by its own slot and by no other
(`TableLayout.mem_assign_iff`), and a row of nulls under the values of
data reads as the data with null for whatever they leave out
(`Database.Compiles.gives_back`). A composite that data give in part
keeps its other columns null, and one that is null gives none of them.
-/

namespace RecordSchema

open Layout

/-! ## Parts of values -/

namespace Value

/-- Null in the place of a value that was not sent. -/
def orNull (v : Value) : Value :=
  if v.isUnset then .null else v

/-- What a value holds for the field itself, or for one of its subfields. -/
def sub (v : Value) : Option String → Value
  | none => v
  | some name => (v.entries?.getD []).get name

namespace Entries

variable {es : Entries} {key : String} {v : Value}

/-- An entry under a key that is there once is what is read by the key. -/
theorem get_of_mem (hes : (es.map Prod.fst).Nodup) (h : (.text key, v) ∈ es) :
    es.get key = v := by
  have hkey : (text key).isText key = true := isText_iff.2 rfl
  refine Holds.get_eq ⟨List.ne_nil_of_mem (List.mem_filter.2 ⟨h, hkey⟩), fun e he => ?_⟩
  obtain ⟨hmem, htext⟩ := List.mem_filter.1 he
  rw [List.inj_on_of_nodup_map hes hmem h (isText_iff.1 htext)]

theorem part_eq (es : Entries) (key : String) (name : Option String) :
    es.part key name = (es.get key).sub name := by
  cases name <;> rfl

end Entries

/-- Whether the columns of a composite can take what a value holds: a mapping with each of its
keys once, or nothing. -/
def IsParts (v : Value) : Prop :=
  (∃ es : Entries, v = .map es ∧ (es.map Prod.fst).Nodup) ∨ v.isTruthy = false

theorem sub_unset (name : Option String) : Value.unset.sub name = .unset := by
  cases name <;> rfl

theorem sub_of_not_isTruthy {v : Value} (hv : v.isTruthy = false) (name : String) :
    v.sub (some name) = .unset := by
  cases v with
  | map es =>
    cases es with
    | nil => rfl
    | cons => cases hv
  | _ => rfl

end Value

/-! ## Slots -/

namespace FieldColumns

/-- The columns of a field, each with the subfield that it is for. -/
def slots (key : String) : FieldColumns → List ((String × Option String) × String)
  | .one c => [((key, none), c)]
  | .many subs => subs.map fun e => ((key, some e.1), e.2)

/-- The value of a field whose columns hold the values of a row. -/
def valueIn (row : String → Value) : FieldColumns → Value
  | .one c => row c
  | .many subs => .map (subs.map fun e => (.text e.1, row e.2))

theorem slots_columns (key : String) (place : FieldColumns) :
    (place.slots key).map Prod.snd = place.names := by
  cases place with
  | one c => rfl
  | many subs =>
    rw [slots, List.map_map]
    rfl

theorem fst_of_mem_slots {key : String} {place : FieldColumns}
    {slot : (String × Option String) × String} (h : slot ∈ place.slots key) :
    slot.1.1 = key := by
  cases place with
  | one c =>
    rw [List.mem_singleton.1 h]
  | many subs =>
    obtain ⟨e, -, rfl⟩ := List.mem_map.1 h
    rfl

/-- Whether a value can be laid out in the columns of a field. -/
def Fits (v : Value) : FieldColumns → Prop
  | .one _ => True
  | .many _ => v.IsParts

end FieldColumns

namespace TableLayout

/-- The fields of a table, and the subfields of its composites, each with its column. -/
def slots (t : TableLayout) : List ((String × Option String) × String) :=
  t.fields.flatMap fun e => e.2.slots e.1

/-- The record of a row that holds values in its columns. -/
def recordOf (t : TableLayout) (row : String → Value) : Record :=
  t.fields.map fun e => (.text e.1, e.2.valueIn row)

/-- A row of nulls that given values are laid over; the last value of a column counts. -/
def overlay (given : List (String × Value)) (column : String) : Value :=
  (given.reverse.lookup column).getD .null

/-- Reading a record is reading its columns. -/
theorem record_eq_recordOf (t : TableLayout) (r : Row) :
    t.record r = t.recordOf (t.readColumn r) := by
  refine List.map_congr_left fun e _ => ?_
  obtain ⟨key, place⟩ := e
  cases place <;> rfl

variable {t : TableLayout}

theorem mem_slots {slot : (String × Option String) × String} :
    slot ∈ t.slots ↔ ∃ e ∈ t.fields, slot ∈ e.2.slots e.1 :=
  List.mem_flatMap

/-! ## Assigned columns -/

variable {data : Value.Entries} {given : List (String × Value)}

/-- An entry that was sent is assigned to the column under its name. -/
theorem mem_assignSubfields_of_mem {subs : List (String × String)} {es : Value.Entries}
    {name column : String} {v : Value} (hv : (.text name, v) ∈ es) (hset : v.isUnset = false)
    (hcolumn : subs.lookup name = some column) : (column, v) ∈ assignSubfields subs es := by
  fun_induction assignSubfields subs es with
  | case1 => cases hv
  | case2 name' w r c hc hunset ih =>
    rcases List.mem_cons.1 hv with heq | hv
    · obtain ⟨-, rfl⟩ := Prod.mk.inj heq
      rw [hset] at hunset
      cases hunset
    · exact ih hv
  | case3 name' w r c hc hsent ih =>
    rcases List.mem_cons.1 hv with heq | hv
    · obtain ⟨hname, rfl⟩ := Prod.mk.inj heq
      rw [Value.text.inj hname] at hcolumn
      rw [Option.some.inj (hcolumn.symm.trans hc)]
      exact List.mem_cons_self
    · exact List.mem_cons_of_mem _ (ih hv)
  | case4 name' w r hc ih =>
    rcases List.mem_cons.1 hv with heq | hv
    · obtain ⟨hname, -⟩ := Prod.mk.inj heq
      rw [Value.text.inj hname, hc] at hcolumn
      cases hcolumn
    · exact ih hv
  | case5 e r hk ih =>
    rcases List.mem_cons.1 hv with rfl | hv
    · exact absurd rfl (hk name v)
    · exact ih hv

/-- A composite that is nothing gives none of its columns. -/
theorem assignField_of_not_isTruthy {subs : List (String × String)} {v : Value}
    (hv : v.isTruthy = false) : assignField (.many subs) v = .ok [] := by
  cases v with
  | map es =>
    cases es with
    | nil => rfl
    | cons => cases hv
  | _ => simp [assignField, hv]

/-- A value gives a column of a field what it holds for the subfield of the column, if anything. -/
theorem mem_assignField {key : String} {place : FieldColumns}
    (hnames : ((place.slots key).map Prod.fst).Nodup) {v : Value} (hv : place.Fits v)
    (hset : v.isUnset = false) {here : List (String × Value)} (h : assignField place v = .ok here)
    {column : String} {w : Value} :
    (column, w) ∈ here ↔ ∃ slot ∈ place.slots key, slot.2 = column ∧ w = v.sub slot.1.2 ∧
      w.isUnset = false := by
  cases place with
  | one c =>
    cases h
    simp only [FieldColumns.slots, List.mem_singleton, Prod.mk.injEq, exists_eq_left, Value.sub]
    constructor
    · rintro ⟨rfl, rfl⟩
      exact ⟨rfl, rfl, hset⟩
    · rintro ⟨rfl, rfl, -⟩
      exact ⟨rfl, rfl⟩
  | many subs =>
    have hsubs : (subs.map Prod.fst).Nodup := by
      refine List.Nodup.of_map (fun name => (key, some name)) ?_
      rw [FieldColumns.slots, List.map_map] at hnames
      rwa [List.map_map]
    have hslots : (∃ slot ∈ FieldColumns.slots key (.many subs), slot.2 = column ∧
        w = v.sub slot.1.2 ∧ w.isUnset = false) ↔
          ∃ name, (name, column) ∈ subs ∧ w = v.sub (some name) ∧ w.isUnset = false := by
      simp only [FieldColumns.slots, List.mem_map, exists_exists_and_eq_and]
      constructor
      · rintro ⟨⟨name, c⟩, he, rfl, hw⟩
        exact ⟨name, he, hw⟩
      · rintro ⟨name, he, hw⟩
        exact ⟨_, he, rfl, hw⟩
    rw [hslots]
    rcases hv with ⟨es, rfl, hes⟩ | hfalse
    · cases h
      constructor
      · intro hmem
        obtain ⟨name, hentry, hsent, hlookup⟩ := mem_assignSubfields hmem
        have hget := Value.Entries.get_of_mem hes hentry
        exact ⟨name, Keys.mem_of_lookup hlookup, hget.symm, hsent⟩
      · rintro ⟨name, hname, rfl, hsent⟩
        exact mem_assignSubfields_of_mem (Value.Entries.mem_of_get hsent) hsent
          (Keys.lookup_of_mem hsubs hname)
    · rw [assignField_of_not_isTruthy hfalse] at h
      cases h
      constructor
      · intro hmem
        cases hmem
      · rintro ⟨name, -, rfl, hsent⟩
        rw [Value.sub_of_not_isTruthy hfalse] at hsent
        cases hsent

theorem exists_assignField {place : FieldColumns} {v : Value} (hv : place.Fits v) :
    ∃ here, assignField place v = .ok here := by
  cases place with
  | one c => exact ⟨_, rfl⟩
  | many subs =>
    rcases hv with ⟨es, rfl, -⟩ | hfalse
    · exact ⟨_, rfl⟩
    · exact ⟨_, assignField_of_not_isTruthy hfalse⟩

/-- Data whose values fit in the columns of their fields can be assigned. -/
theorem exists_assign (h : ∀ key v place, (.text key, v) ∈ data →
    t.fields.lookup key = some place → place.Fits v) : ∃ given, t.assign data = .ok given := by
  induction data with
  | nil => exact ⟨_, rfl⟩
  | cons entry r ih =>
    obtain ⟨rest, hrest⟩ := ih fun key v place hv => h key v place (List.mem_cons_of_mem _ hv)
    unfold assign
    split
    · cases ‹_ :: _ = []›
    · next key v r' heq =>
      cases heq
      split
      · next place hplace =>
        split
        · exact ⟨rest, hrest⟩
        · obtain ⟨here, hhere⟩ := exists_assignField (h key v place List.mem_cons_self hplace)
          exact ⟨here ++ rest, by simp only [hhere, hrest]; rfl⟩
      · exact ⟨rest, hrest⟩
    · next heq =>
      cases heq
      exact ⟨rest, hrest⟩

/-- Data give a column what they hold for the slot of the column, if anything. -/
theorem mem_assign_iff (hkeys : (t.fields.map Prod.fst).Nodup)
    (hpaths : (t.slots.map Prod.fst).Nodup) (hdata : (data.map Prod.fst).Nodup)
    (hfits : ∀ e ∈ t.fields, e.2.Fits (data.get e.1)) (h : t.assign data = .ok given)
    {column : String} {w : Value} :
    (column, w) ∈ given ↔ ∃ slot ∈ t.slots, slot.2 = column ∧
      w = data.part slot.1.1 slot.1.2 ∧ w.isUnset = false := by
  have honce : ∀ e ∈ t.fields, ((e.2.slots e.1).map Prod.fst).Nodup := by
    intro e he
    rw [slots, List.map_flatMap] at hpaths
    exact (List.nodup_flatMap.1 hpaths).1 e he
  constructor
  · intro hmem
    obtain ⟨key, v, place, here, hv, hset, hplace, hhere, hmem⟩ := mem_assign h hmem
    have he : (key, place) ∈ t.fields := Keys.mem_of_lookup hplace
    have hget : data.get key = v := Value.Entries.get_of_mem hdata hv
    have hfit : place.Fits v := hget ▸ hfits _ he
    obtain ⟨slot, hslot, hcolumn, hw, hsent⟩ :=
      (mem_assignField (honce _ he) hfit hset hhere).1 hmem
    refine ⟨slot, mem_slots.2 ⟨_, he, hslot⟩, hcolumn, ?_, hsent⟩
    rw [Value.Entries.part_eq, FieldColumns.fst_of_mem_slots hslot, hget]
    exact hw
  · rintro ⟨slot, hslot, hcolumn, hw, hsent⟩
    obtain ⟨⟨key, place⟩, he, hslot⟩ := mem_slots.1 hslot
    rw [Value.Entries.part_eq, FieldColumns.fst_of_mem_slots hslot] at hw
    have hset : (data.get key).isUnset = false := by
      rw [Bool.eq_false_iff]
      intro hunset
      rw [Value.eq_unset hunset, Value.sub_unset] at hw
      rw [hw] at hsent
      cases hsent
    have hplace : t.fields.lookup key = some place := Keys.lookup_of_mem hkeys he
    obtain ⟨here, hhere, hsub⟩ := assign_of_mem h (Value.Entries.mem_of_get hset) hset hplace
    exact hsub ((mem_assignField (honce _ he) (hfits _ he) hset hhere).2
      ⟨slot, hslot, hcolumn, hw, hsent⟩)

/-- Where no two slots share a column, a row of nulls under the data holds in the column of a slot
what the data hold for the slot, and null if they hold nothing. -/
theorem overlay_eq (hkeys : (t.fields.map Prod.fst).Nodup)
    (hpaths : (t.slots.map Prod.fst).Nodup) (hcolumns : (t.slots.map Prod.snd).Nodup)
    (hdata : (data.map Prod.fst).Nodup) (hfits : ∀ e ∈ t.fields, e.2.Fits (data.get e.1))
    (h : t.assign data = .ok given) {slot : (String × Option String) × String}
    (hslot : slot ∈ t.slots) :
    overlay given slot.2 = (data.part slot.1.1 slot.1.2).orNull := by
  have hmem {w : Value} (hw : (slot.2, w) ∈ given) :
      w = data.part slot.1.1 slot.1.2 ∧ w.isUnset = false := by
    obtain ⟨slot', hslot', hcolumn, h⟩ := (mem_assign_iff hkeys hpaths hdata hfits h).1 hw
    obtain rfl := List.inj_on_of_nodup_map hcolumns hslot' hslot hcolumn
    exact h
  unfold overlay
  cases hlookup : given.reverse.lookup slot.2 with
  | some w =>
    obtain ⟨hw, hsent⟩ := hmem (List.mem_reverse.1 (Keys.mem_of_lookup hlookup))
    rw [← hw, Value.orNull, hsent]
    rfl
  | none =>
    rw [Keys.lookup_eq_none_iff, List.map_reverse, List.mem_reverse] at hlookup
    have hunset : (data.part slot.1.1 slot.1.2).isUnset = true := by
      by_contra hset
      have hgiven := (mem_assign_iff hkeys hpaths hdata hfits h).2
        ⟨slot, hslot, rfl, rfl, Bool.eq_false_of_not_eq_true hset⟩
      exact hlookup (List.mem_map.2 ⟨_, hgiven, rfl⟩)
    rw [Value.orNull, hunset]
    rfl

end TableLayout

/-! ## Slots of a list -/

namespace Layout

variable {l : ListType}

theorem slots_tableOf (plans : List RelationPlan) (l : ListType) :
    (tableOf plans l).slots =
      (("id", none), "id") :: (parts l).flatMap fun p => p.2.place.slots p.1 := by
  rw [TableLayout.slots, tableOf, List.flatMap_cons, List.flatMap_map]
  rfl

/-- The columns of the slots are those of the fields, and the id. -/
theorem slots_tableOf_columns (plans : List RelationPlan) (l : ListType) :
    (tableOf plans l).slots.map Prod.snd = "id" :: fieldColumns l := by
  rw [slots_tableOf, List.map_cons, List.map_flatMap, fieldColumns]
  simp only [FieldColumns.slots_columns]

/-- The columns that legal fields are kept in are the columns that they add, in order. -/
theorem fieldColumns_eq (hl : ∀ e ∈ l.fields, e.2.storage.problems = []) :
    fieldColumns l = ((parts l).flatMap (·.2.columns)).map (·.name) := by
  rw [fieldColumns, List.map_flatMap]
  refine List.flatMap_congr fun p hp => ?_
  obtain ⟨-, f, hf, hpart⟩ := mem_parts.1 hp
  rw [place_names_eq hpart, fieldKinds_names (hl _ hf), hpart]
  rfl

/-- A field is kept in one column, or it is a composite and kept in a column for every subfield. -/
theorem place_cases {key : String} {s : Storage} {part : FieldPart}
    (h : partOf? key s = some part) :
    (s.isScalarish = true ∧ ∃ c, part.place = .one c) ∨ ∃ fields, s = .multi fields ∧
      part.place = .many (fields.map fun e => (e.1, subfieldColumn key e.1 e.2)) := by
  cases s with
  | multi fields =>
    cases h
    exact .inr ⟨fields, rfl, rfl⟩
  | scalar | enum =>
    cases h
    exact .inl ⟨rfl, _, rfl⟩
  | _ => cases h

/-- The subfields of a composite have slots of their own if they have names of their own. -/
theorem place_slots_nodup {key : String} {s : Storage} (hnames : s.namesOnce = true)
    {part : FieldPart} (h : partOf? key s = some part) :
    ((part.place.slots key).map Prod.fst).Nodup := by
  rcases place_cases h with ⟨-, c, hplace⟩ | ⟨fields, rfl, hplace⟩
  · rw [hplace]
    exact List.nodup_singleton _
  · have hpaths : ((fields.map Prod.fst).map fun name => (key, some name)).Nodup :=
      (of_decide_eq_true hnames).map fun a b hab => Option.some.inj (Prod.mk.inj hab).2
    rw [hplace]
    simpa only [FieldColumns.slots, List.map_map, Function.comp_def] using hpaths

/-- Parts and stored fields, the id apart, are the same up to what is made of each. -/
theorem parts_map_eq {α : Type} (hl : ∀ e ∈ l.fields, e.2.storage.problems = [])
    {fromPart : String × FieldPart → α} {fromStored : String × Storage → α}
    (h : ∀ key f part, (key, f) ∈ l.fields → key ≠ "id" → partOf? key f.storage = some part →
      fromPart (key, part) = fromStored (key, f.storage)) :
    (parts l).map fromPart = (l.storedFields.filter (·.1 != "id")).map fromStored := by
  rw [parts, ListType.storedFields, List.filter_filterMap, List.map_filterMap, List.map_filterMap]
  refine List.filterMap_congr fun e he => ?_
  obtain ⟨key, f⟩ := e
  dsimp only
  by_cases hid : key = "id"
  · rw [if_pos (beq_iff_eq.2 hid)]
    split <;> simp [hid, Option.filter]
  · rw [if_neg (beq_iff_eq.not.2 hid)]
    have hmake {part : FieldPart} := h key f part he hid
    cases hs : f.storage with
    | scalar | enum | multi =>
      rw [hs] at hmake
      have hkept : (key != "id") = true := bne_iff_ne.2 hid
      simp only [Option.filter, hkept, if_true, Option.map_some, ← hmake rfl]
      rfl
    | relation | none => rfl
    | unsupported v =>
      have hlegal := hl _ he
      rw [hs] at hlegal
      cases hlegal

end Layout

/-! ## Completed data -/

/-- What a record has for a field that is given a value: null in the place of everything that the
value does not give. -/
def Storage.completed (v : Value) : Storage → Value
  | .multi fields => .map (fields.map fun e => (.text e.1, (v.sub (some e.1)).orNull))
  | _ => v.orNull

theorem Storage.completed_of_isScalarish {s : Storage} (hs : s.isScalarish = true) (v : Value) :
    s.completed v = v.orNull := by
  cases s <;> first | rfl | cases hs

/-- Data over the stored fields of a list, with null for every field and every subfield that they
do not give. The value of a composite is always a mapping of all its subfields. -/
def ListType.completed (l : ListType) (data : Value.Entries) : Record :=
  (.text "id", (data.get "id").orNull) ::
    (l.storedFields.filter (·.1 != "id")).map fun e => (.text e.1, e.2.completed (data.get e.1))

/-- Whether data are a mapping that has each of its keys once, and a composite, if it is there and
not null, is one as well. -/
structure ListType.Fits (l : ListType) (data : Value.Entries) : Prop where
  keys : (data.map Prod.fst).Nodup
  parts : ∀ key fields, (key, .multi fields) ∈ l.storedFields → key ≠ "id" →
    (data.get key).IsParts

/-! ## Kept values -/

/-- What a column gives back of a value that is written to it, if it takes the value at all. -/
def ColumnType.keep (t : ColumnType) (v : Value) : Value :=
  match t.bind v with
  | .ok cell => t.read cell
  | .error _ => .null

/-- Whatever a column does to values, it gives null back as null. -/
theorem ColumnType.keep_null (t : ColumnType) : t.keep .null = .null := by
  cases t <;> rfl

namespace TableLayout

variable {t : TableLayout} {given : List (String × Value)}

/-- A row of bound values and nothing else holds what its columns keep of a row of nulls under the
values. -/
theorem readColumn_bind (hnames : (t.columns.map (·.name)).Nodup)
    {cells : List (String × Cell)} (hcells : t.bind given = .ok cells) (id : Int) {c : Column}
    (hc : c ∈ t.columns) (hid : c.name ≠ "id") :
    t.readColumn { id, cells := withoutId cells } c.name = c.type.keep (overlay given c.name) := by
  have hcolumn : t.column? c.name = some c := Keys.find?_of_mem hnames hc
  obtain ⟨-, -, hbound⟩ := bindAll_run (Reading.settle_ok hcells)
  rw [readColumn, hcolumn]
  dsimp only
  rw [Row.cell, if_neg hid, lookup_withoutId hid, overlay]
  cases hgiven : given.reverse.lookup c.name with
  | some v =>
    obtain ⟨cell, hbind, hmem⟩ := hbound c hc v hgiven
    rw [Keys.lookup_of_mem (bind_nodup hnames hcells) hmem, Option.getD_some, Option.getD_some,
      ColumnType.keep, hbind]
  | none =>
    rw [Keys.lookup_eq_none_iff, List.map_reverse, List.mem_reverse] at hgiven
    have hnone : cells.lookup c.name = none := by
      refine Keys.lookup_eq_none_iff.2 fun hmem => hgiven ?_
      obtain ⟨e, he, hname⟩ := List.mem_map.1 hmem
      exact hname ▸ bind_names hcells he
    rw [hnone, Option.getD_none, Option.getD_none, ColumnType.keep_null]
    cases c.type <;> rfl

end TableLayout

/-- Data that are a mapping fit in the columns of every field. -/
theorem ListType.Fits.fields {l : ListType} {data : Value.Entries} (h : l.Fits data)
    (plans : List RelationPlan) : ∀ e ∈ (tableOf plans l).fields, e.2.Fits (data.get e.1) := by
  rintro ⟨key, place⟩ he
  rcases mem_fields.1 he with ⟨-, rfl⟩ | ⟨hid, f, part, hf, hpart, rfl⟩
  · trivial
  · show part.place.Fits (data.get key)
    rcases place_cases hpart with ⟨-, c, hplace⟩ | ⟨fields, hs, hplace⟩
    · rw [hplace]
      trivial
    · rw [hplace]
      exact h.parts key fields (hs ▸ ListType.mem_storedFields_of_mem hf (hs ▸ rfl)) hid

/-! ## Records of data -/

/-- Whether a table keeps apart what data give to the fields of a list, and gives it back. -/
structure TableLayout.GivesBack (t : TableLayout) (l : ListType) : Prop where
  /-- No field and no subfield has two columns. -/
  paths : (t.slots.map Prod.fst).Nodup
  /-- No column is for two of them. -/
  columns : (t.slots.map Prod.snd).Nodup
  reads : ∀ row, t.record row = t.recordOf (t.readColumn row)
  back : ∀ data, l.Fits data →
    ∃ given, t.assign data = .ok given ∧ t.recordOf (overlay given) = l.completed data
  /-- In storage a column has its own form of the value that is laid over it, and null for null. -/
  stored : ∀ given cells, t.bind given = .ok cells → ∀ id, ∀ c ∈ t.columns, c.name ≠ "id" →
    t.readColumn { id, cells := withoutId cells } c.name = c.type.keep (overlay given c.name)

namespace Database.Compiles

variable {db : Database} {d : Declarations} {l : ListType}

/-- No two slots of a list share a column. -/
theorem slots_columns_nodup (h : db.Compiles d) (hl : l ∈ db.schema.lists) :
    ((tableOf db.schema.plans l).slots.map Prod.snd).Nodup := by
  have hnodup := h.columns_nodup hl
  rw [column_names, ← fieldColumns_eq fun _ he => h.problems_eq_nil hl he, List.nodup_cons,
    List.nodup_append] at hnodup
  obtain ⟨hid, hfields, -⟩ := hnodup
  rw [slots_tableOf_columns, List.nodup_cons]
  exact ⟨fun hmem => hid (List.mem_append_left _ hmem), hfields⟩

theorem fields_keys_nodup (h : db.Compiles d) (hl : l ∈ db.schema.lists) :
    ((tableOf db.schema.plans l).fields.map Prod.fst).Nodup := by
  have hfields : (tableOf db.schema.plans l).fields.map Prod.fst =
      "id" :: (parts l).map Prod.fst := by
    rw [tableOf, List.map_cons, List.map_map]
    rfl
  rw [hfields, List.nodup_cons]
  refine ⟨fun hid => ?_, (h.fields_nodup hl).sublist (parts_sublist l)⟩
  obtain ⟨⟨key, part⟩, hpart, rfl⟩ := List.mem_map.1 hid
  exact (mem_parts.1 hpart).1 rfl

/-- No field and no subfield of a list has two slots. -/
theorem slots_paths_nodup (h : db.Compiles d) (hl : l ∈ db.schema.lists)
    (hnames : ∀ e ∈ l.fields, e.2.storage.namesOnce = true) :
    ((tableOf db.schema.plans l).slots.map Prod.fst).Nodup := by
  rw [TableLayout.slots, List.map_flatMap]
  refine Keys.nodup_flatMap (h.fields_keys_nodup hl) (fun e he => ?once) ?apart
  case once =>
    obtain ⟨key, place⟩ := e
    rcases mem_fields.1 he with ⟨-, rfl⟩ | ⟨-, f, part, hf, hpart, rfl⟩
    · exact List.nodup_singleton _
    · exact place_slots_nodup (hnames _ hf) hpart
  case apart =>
    intro e _ e' _ path hpath hpath'
    obtain ⟨slot, hslot, rfl⟩ := List.mem_map.1 hpath
    obtain ⟨slot', hslot', heq⟩ := List.mem_map.1 hpath'
    rw [← FieldColumns.fst_of_mem_slots hslot, ← FieldColumns.fst_of_mem_slots hslot', heq]

/-- The record of a row that holds in every slot what data hold for it, or null, is the data with
null for all that they do not give. -/
theorem recordOf_eq (h : db.Compiles d) (hl : l ∈ db.schema.lists) {data : Value.Entries}
    {row : String → Value} (hrow : ∀ slot ∈ (tableOf db.schema.plans l).slots,
      row slot.2 = (data.part slot.1.1 slot.1.2).orNull) :
    (tableOf db.schema.plans l).recordOf row = l.completed data := by
  rw [slots_tableOf, List.forall_mem_cons] at hrow
  obtain ⟨hid, hrow⟩ := hrow
  have hparts : (parts l).map (fun p => ((.text p.1, p.2.place.valueIn row) : Value × Value)) =
      (l.storedFields.filter (·.1 != "id")).map
        fun e => (.text e.1, e.2.completed (data.get e.1)) := by
    refine parts_map_eq (fun _ he => h.problems_eq_nil hl he) fun key f part hf hne hpart => ?_
    have hslots : ∀ slot ∈ part.place.slots key,
        row slot.2 = (data.part slot.1.1 slot.1.2).orNull := fun slot hslot =>
      hrow slot (List.mem_flatMap.2 ⟨_, mem_parts.2 ⟨hne, f, hf, hpart⟩, hslot⟩)
    refine congrArg (Prod.mk (Value.text key)) ?_
    show part.place.valueIn row = f.storage.completed (data.get key)
    rcases place_cases hpart with ⟨hs, c, hplace⟩ | ⟨fields, hs, hplace⟩
    · rw [hplace] at hslots ⊢
      rw [Storage.completed_of_isScalarish hs]
      exact hslots _ (List.mem_singleton_self _)
    · rw [hplace] at hslots ⊢
      rw [hs, FieldColumns.valueIn, List.map_map]
      refine congrArg Value.map (List.map_congr_left fun e he => ?_)
      refine congrArg (Prod.mk (Value.text e.1)) ?_
      refine hslots ((key, some e.1), subfieldColumn key e.1 e.2) (List.mem_map.2 ?_)
      exact ⟨(e.1, subfieldColumn key e.1 e.2), List.mem_map.2 ⟨e, he, rfl⟩, rfl⟩
  rw [ListType.completed, ← hparts, TableLayout.recordOf, tableOf, List.map_cons, List.map_map]
  exact congrArg (· :: _) (congrArg (Prod.mk (Value.text "id")) hid)

/-- No two fields or subfields of a list share a column, and the record of a row of nulls under
the values of data is the data, with null for every field and subfield that they do not give. -/
theorem gives_back (h : db.Compiles d) (hl : l ∈ db.schema.lists)
    (hnames : ∀ e ∈ l.fields, e.2.storage.namesOnce = true) :
    ∃ t, db.table l.key = .ok t ∧ t.GivesBack l := by
  have hkeys := h.fields_keys_nodup hl
  have hpaths := h.slots_paths_nodup hl hnames
  have hcolumns := h.slots_columns_nodup hl
  refine ⟨_, h.table_ok hl, hpaths, hcolumns, TableLayout.record_eq_recordOf _, ?_,
    fun given cells hcells id c hc hid =>
      TableLayout.readColumn_bind (h.columns_nodup hl) hcells id hc hid⟩
  intro data hdata
  have hfits := hdata.fields db.schema.plans
  obtain ⟨given, hgiven⟩ : ∃ given, (tableOf db.schema.plans l).assign data = .ok given := by
    refine TableLayout.exists_assign fun key v place hv hplace => ?_
    have hget : data.get key = v := Value.Entries.get_of_mem hdata.keys hv
    exact hget ▸ hfits _ (Keys.mem_of_lookup hplace)
  exact ⟨given, hgiven, h.recordOf_eq hl fun slot hslot =>
    TableLayout.overlay_eq hkeys hpaths hcolumns hdata.keys hfits hgiven hslot⟩

end Database.Compiles

/-- A parcel of which only a part of the size is given. -/
def widthOnly : Value.Entries :=
  [(.text "size", .map [(.text "width", .int 3)])]

theorem gives_back_parcels :
    ∃ l ∈ parcels.database.result.schema.lists,
      (∀ e ∈ l.fields, e.2.storage.namesOnce = true) ∧
      (∃ t, parcels.database.result.table l.key = .ok t ∧ t.GivesBack l) ∧
      l.Fits widthOnly ∧
      ((l.completed widthOnly).column "size" "width").same (.int 3) = true ∧
      ((l.completed widthOnly).column "size" "unit").isNull = true ∧
      ((l.completed widthOnly).get "packed").isNull = true := by
  obtain ⟨hlists, hfacts⟩ : parcels.database.result.schema.lists ≠ [] ∧
      ∀ l ∈ parcels.database.result.schema.lists,
        (∀ e ∈ l.fields, e.2.storage.namesOnce = true) ∧
        (∀ e ∈ l.storedFields, e.2.isScalarish = true ∨ e.1 = "size") ∧
        ((l.completed widthOnly).column "size" "width").same (.int 3) = true ∧
        ((l.completed widthOnly).column "size" "unit").isNull = true ∧
        ((l.completed widthOnly).get "packed").isNull = true := by decide +kernel
  have hl := List.head_mem hlists
  obtain ⟨hnames, hstored, hcompleted⟩ := hfacts _ hl
  refine ⟨_, hl, hnames, Database.Compiles.gives_back parcels_compiles hl hnames, ⟨?once, ?parts⟩,
    hcompleted⟩
  case once => exact List.nodup_singleton _
  case parts =>
    intro key fields hmem _
    rcases hstored _ hmem with hscalarish | rfl
    · cases hscalarish
    · exact .inl ⟨_, rfl, List.nodup_singleton _⟩

end RecordSchema
