import RecordSchema.Proofs.Schema.Compiled
import RecordSchema.Proofs.Shape.Column

/-!
# Columns of tables

The columns of a table fall into three kinds: the id, the columns of
fields, and the key columns of relations. No name is used twice, so a
write to the columns of fields leaves ids and links alone, and a write
to a key column leaves everything else alone.
-/

namespace RecordSchema

namespace Layout

/-! ## Columns of fields -/

/-- The names of the columns that the fields of a list are kept in, the id apart. -/
def fieldColumns (l : ListType) : List String :=
  (parts l).flatMap fun p => p.2.place.names

theorem ofStorage?_name {name : String} {s : Storage} {c : Column}
    (h : Column.ofStorage? name s = some c) : c.name = name := by
  cases s <;> cases h <;> rfl

theorem exists_ofStorage? {s : Storage} (hs : s.isScalarish = true) (name : String) :
    ∃ c, Column.ofStorage? name s = some c := by
  cases s <;> cases hs <;> exact ⟨_, rfl⟩

theorem place_names_subset {key : String} {s : Storage} {part : FieldPart}
    (hs : s.problems = []) (h : partOf? key s = some part) {n : String}
    (hn : n ∈ part.place.names) : n ∈ part.columns.map (·.name) := by
  unfold partOf? at h
  split at h
  · next subs =>
    cases h
    simp only [FieldColumns.names, List.map_map, List.mem_map, Function.comp_apply] at hn
    obtain ⟨⟨name, sub⟩, hmem, rfl⟩ := hn
    obtain ⟨c, hc⟩ := exists_ofStorage? (Storage.legal_of_mem hs hmem).1 (subfieldColumn key name sub)
    have hname : c.name = subfieldColumn key name sub := ofStorage?_name hc
    refine List.mem_map.2 ⟨{ c with nullable := true }, List.mem_filterMap.2 ⟨_, hmem, ?_⟩, hname⟩
    simp only [subfieldPart?, hc, Option.map_some]
  · obtain ⟨c, hc, rfl⟩ := Option.map_eq_some_iff.1 h
    simpa [FieldColumns.names, ofStorage?_name hc] using hn

theorem sequences_subset {key : String} {s : Storage} {part : FieldPart}
    (h : partOf? key s = some part) {n : String} (hn : n ∈ part.sequences) :
    n ∈ part.place.names := by
  unfold partOf? at h
  split at h
  · cases h
    obtain ⟨⟨name, sub⟩, hmem, hsub⟩ := List.mem_filterMap.1 hn
    simp only [Option.ite_none_right_eq_some, Option.some.injEq] at hsub
    rw [← hsub.2]
    exact List.mem_map.2 ⟨(name, subfieldColumn key name sub), List.mem_map.2 ⟨_, hmem, rfl⟩, rfl⟩
  · obtain ⟨c, hc, rfl⟩ := Option.map_eq_some_iff.1 h
    dsimp only at hn
    split at hn
    · exact hn
    · cases hn

theorem mem_parts {l : ListType} {key : String} {part : FieldPart} :
    (key, part) ∈ parts l ↔ key ≠ "id" ∧ ∃ f, (key, f) ∈ l.fields ∧ partOf? key f.storage = some part := by
  simp only [parts, List.mem_filterMap]
  constructor
  · rintro ⟨⟨k, f⟩, hf, h⟩
    dsimp only at h
    split at h
    · cases h
    · next hk =>
      obtain ⟨p, hp, heq⟩ := Option.map_eq_some_iff.1 h
      obtain ⟨rfl, rfl⟩ := Prod.mk.inj heq
      exact ⟨by simpa using hk, f, hf, hp⟩
  · rintro ⟨hk, f, hf, hp⟩
    exact ⟨(key, f), hf, by simp [hk, hp]⟩

theorem sequences_fieldColumns {plans : List RelationPlan} {l : ListType} {n : String}
    (hn : n ∈ (tableOf plans l).sequences) : n ∈ fieldColumns l := by
  obtain ⟨⟨key, part⟩, hpart, hn⟩ := List.mem_flatMap.1 hn
  obtain ⟨-, f, -, hp⟩ := mem_parts.1 hpart
  exact List.mem_flatMap.2 ⟨_, hpart, sequences_subset hp hn⟩

/-- A table keeps the id in a column of its own, and every other field in its part. -/
theorem mem_fields {plans : List RelationPlan} {l : ListType} {key : String}
    {place : FieldColumns} : (key, place) ∈ (tableOf plans l).fields ↔
      key = "id" ∧ place = .one "id" ∨ key ≠ "id" ∧ ∃ f part, (key, f) ∈ l.fields ∧
        partOf? key f.storage = some part ∧ part.place = place := by
  have hpart : (key, place) ∈ (parts l).map (fun p => (p.1, p.2.place)) ↔ key ≠ "id" ∧
      ∃ f part, (key, f) ∈ l.fields ∧ partOf? key f.storage = some part ∧ part.place = place := by
    rw [List.mem_map]
    constructor
    · rintro ⟨⟨_, part⟩, hmem, heq⟩
      obtain ⟨rfl, rfl⟩ := Prod.mk.inj heq
      obtain ⟨hkey, f, hf, hpart⟩ := mem_parts.1 hmem
      exact ⟨hkey, f, part, hf, hpart, rfl⟩
    · rintro ⟨hkey, f, part, hf, hpart, rfl⟩
      exact ⟨(key, part), mem_parts.2 ⟨hkey, f, hf, hpart⟩, rfl⟩
  rw [← hpart, ← Prod.mk.injEq]
  exact List.mem_cons

/-- Where a field other than the id is kept. -/
theorem place_fieldColumns {plans : List RelationPlan} {l : ListType} {key : String}
    {place : FieldColumns} (h : (tableOf plans l).fields.lookup key = some place)
    (hkey : key ≠ "id") {n : String} (hn : n ∈ place.names) : n ∈ fieldColumns l := by
  rcases mem_fields.1 (Keys.mem_of_lookup h) with ⟨hid, -⟩ | ⟨-, f, part, hf, hpart, rfl⟩
  · exact absurd hid hkey
  · exact List.mem_flatMap.2 ⟨_, mem_parts.2 ⟨hkey, f, hf, hpart⟩, hn⟩

/-! ## Key columns -/

theorem mem_keyColumns {plans : List RelationPlan} {list : String} {c : Column} :
    c ∈ keyColumns plans list ↔ ∃ p ∈ plans, p.list = list ∧
      ∃ name unique, p.link = .ownKey name unique ∧ c = .key name p.target unique := by
  simp only [keyColumns, List.mem_filterMap]
  constructor
  · rintro ⟨p, hp, h⟩
    split at h
    · next name unique hlink =>
      split at h
      · next hlist =>
        exact ⟨p, hp, eq_of_beq hlist, name, unique, hlink, (Option.some.inj h).symm⟩
      · cases h
    · cases h
  · rintro ⟨p, hp, rfl, name, unique, hlink, rfl⟩
    exact ⟨p, hp, by simp [hlink]⟩

/-! ## Tables -/

theorem checkTables_eq_ok {plans : List RelationPlan} {ls : List ListType}
    {tables : List TableLayout} :
    checkTables plans ls = .ok tables ↔ tables = ls.map (tableOf plans) ∧ ∀ l ∈ ls,
      hasOddExpression l = false ∧ ((tableOf plans l).columns.map (·.name)).Nodup := by
  induction ls generalizing tables with
  | nil =>
    constructor
    · intro h
      cases h
      exact ⟨rfl, List.forall_mem_nil _⟩
    · rintro ⟨rfl, -⟩
      rfl
  | cons l r ih =>
    simp only [checkTables, List.forall_mem_cons, hasClash, Bool.not_eq_true', decide_eq_false_iff_not]
    split
    · next hodd => simp [hodd]
    · next hodd =>
      split
      · next hclash => simp [hclash]
      · next hnodup =>
        rw [Except.map_eq_ok]
        constructor
        · rintro ⟨rest, hrest, rfl⟩
          obtain ⟨rfl, hr⟩ := ih.1 hrest
          exact ⟨rfl, ⟨by simpa using hodd, not_not.1 hnodup⟩, hr⟩
        · rintro ⟨rfl, -, hr⟩
          exact ⟨_, ih.2 ⟨rfl, hr⟩, rfl⟩

/-- There are tables just when no names clash and every expression is a text. -/
theorem ofSchema_eq_ok {s : Schema} {layout : Layout} :
    ofSchema s = .ok layout ↔
      (layout.tables = s.lists.map (tableOf s.plans) ∧ layout.joins = joinsOf s.plans) ∧
      (∀ l ∈ s.lists,
        hasOddExpression l = false ∧ ((tableOf s.plans l).columns.map (·.name)).Nodup) ∧
      ∀ j ∈ joinsOf s.plans, ∀ l ∈ s.lists, l.key ≠ j.name := by
  have hnames : ((joinsOf s.plans).any fun j =>
      (s.lists.map (tableOf s.plans)).any fun t => t.list == j.name) = true ↔
        ¬ ∀ j ∈ joinsOf s.plans, ∀ l ∈ s.lists, l.key ≠ j.name := by
    simp [tableOf]
  simp only [ofSchema, Except.bind_eq_ok, checkTables_eq_ok]
  constructor
  · rintro ⟨_, ⟨rfl, hlists⟩, h⟩
    split at h
    · cases h
    · next hjoins =>
      obtain rfl := Except.pure_eq_ok.1 h
      exact ⟨⟨rfl, rfl⟩, hlists, not_not.1 (hnames.not.1 hjoins)⟩
  · rintro ⟨⟨htables, hjoins⟩, hlists, hall⟩
    refine ⟨_, ⟨rfl, hlists⟩, ?_⟩
    rw [if_neg (hnames.not.2 (not_not.2 hall)), ← htables, ← hjoins]
    rfl

theorem ofSchema_ok {s : Schema} {layout : Layout} (h : ofSchema s = .ok layout) :
    layout.tables = s.lists.map (tableOf s.plans) ∧ layout.joins = joinsOf s.plans ∧
      ∀ l ∈ s.lists, ((tableOf s.plans l).columns.map (·.name)).Nodup := by
  obtain ⟨⟨htables, hjoins⟩, hlists, -⟩ := ofSchema_eq_ok.1 h
  exact ⟨htables, hjoins, fun l hl => (hlists l hl).2⟩

end Layout

namespace Database

/-- Whether a column holds the links of a relation that the list owns. -/
def IsKey (db : Database) (list column : String) : Prop :=
  ∃ p ∈ db.schema.plans, p.list = list ∧ ∃ unique, p.link = .ownKey column unique

namespace Compiles

variable {db : Database} {d : Declarations} {l : ListType} {p q : RelationPlan}

open Layout

theorem column_names (plans : List RelationPlan) (l : ListType) :
    (tableOf plans l).columns.map (·.name) =
      "id" :: (((parts l).flatMap (·.2.columns)).map (·.name) ++
        (keyColumns plans l.key).map (·.name)) := by
  simp only [tableOf, List.map_append, List.cons_append, List.map_cons]
  rfl

theorem columns_nodup (h : db.Compiles d) (hl : l ∈ db.schema.lists) :
    ((tableOf db.schema.plans l).columns.map (·.name)).Nodup :=
  (ofSchema_ok h.laidOut).2.2 l hl

theorem table?_eq (h : db.Compiles d) (hl : l ∈ db.schema.lists) :
    db.layout.table? l.key = some (tableOf db.schema.plans l) := by
  rw [table?, (ofSchema_ok h.laidOut).1, List.find?_map]
  exact congrArg (Option.map _) (Keys.find?_of_mem h.keys_nodup hl)

theorem table_ok (h : db.Compiles d) (hl : l ∈ db.schema.lists) :
    db.table l.key = .ok (tableOf db.schema.plans l) := by
  rw [table, h.table?_eq hl]

theorem isKey_iff {column : String} :
    db.IsKey l.key column ↔ ∃ c ∈ keyColumns db.schema.plans l.key, c.name = column := by
  constructor
  · rintro ⟨p, hp, hlist, unique, hlink⟩
    exact ⟨_, mem_keyColumns.2 ⟨p, hp, hlist, column, unique, hlink, rfl⟩, rfl⟩
  · rintro ⟨c, hc, rfl⟩
    obtain ⟨p, hp, hlist, name, unique, hlink, rfl⟩ := mem_keyColumns.1 hc
    exact ⟨p, hp, hlist, unique, hlink⟩

theorem exists_list_of_isKey (h : db.Compiles d) {list column : String}
    (hk : db.IsKey list column) : ∃ l ∈ db.schema.lists, l.key = list := by
  obtain ⟨p, hp, rfl, -⟩ := hk
  exact (h.exists_ends hp).1

theorem isKey_ne_id (h : db.Compiles d) {list column : String} (hk : db.IsKey list column) :
    column ≠ "id" := by
  obtain ⟨l, hl, rfl⟩ := h.exists_list_of_isKey hk
  obtain ⟨c, hc, rfl⟩ := isKey_iff.1 hk
  have hnodup := h.columns_nodup hl
  rw [column_names, List.nodup_cons] at hnodup
  intro hid
  exact hnodup.1 (hid ▸ List.mem_append_right _ (List.mem_map.2 ⟨c, hc, rfl⟩))

theorem mem_columns_of_fieldColumns (h : db.Compiles d) (hl : l ∈ db.schema.lists) {n : String}
    (hn : n ∈ fieldColumns l) : n ∈ ((parts l).flatMap (·.2.columns)).map (·.name) := by
  obtain ⟨⟨key, part⟩, hpart, hn⟩ := List.mem_flatMap.1 hn
  obtain ⟨-, f, hf, hp⟩ := mem_parts.1 hpart
  obtain ⟨c, hc, rfl⟩ := List.mem_map.1 (place_names_subset (h.problems_eq_nil hl hf) hp hn)
  exact List.mem_map.2 ⟨c, List.mem_flatMap.2 ⟨_, hpart, hc⟩, rfl⟩

theorem fieldColumns_ne_id (h : db.Compiles d) (hl : l ∈ db.schema.lists) {n : String}
    (hn : n ∈ fieldColumns l) : n ≠ "id" := by
  have hnodup := h.columns_nodup hl
  rw [column_names, List.nodup_cons] at hnodup
  rintro rfl
  exact hnodup.1 (List.mem_append_left _ (h.mem_columns_of_fieldColumns hl hn))

/-- No field is kept in a key column. -/
theorem fieldColumns_not_isKey (h : db.Compiles d) (hl : l ∈ db.schema.lists) {n : String}
    (hn : n ∈ fieldColumns l) : ¬ db.IsKey l.key n := by
  intro hk
  obtain ⟨c, hc, hname⟩ := isKey_iff.1 hk
  have hnodup := h.columns_nodup hl
  rw [column_names, List.nodup_cons, List.nodup_append] at hnodup
  exact hnodup.2.2.2 n (h.mem_columns_of_fieldColumns hl hn) c.name (List.mem_map.2 ⟨c, hc, rfl⟩)
    hname.symm

/-- A key column leads to one list and is unique for one reason. -/
theorem key_eq (h : db.Compiles d) (hp : p ∈ db.schema.plans) (hq : q ∈ db.schema.plans)
    (hlist : p.list = q.list) {column : String} {unique unique' : Bool}
    (hplink : p.link = .ownKey column unique) (hqlink : q.link = .ownKey column unique') :
    p.target = q.target ∧ unique = unique' := by
  obtain ⟨⟨l, hl, hkey⟩, -⟩ := h.exists_ends hp
  have hcp := mem_keyColumns.2 ⟨p, hp, hkey.symm, column, unique, hplink, rfl⟩
  have hcq := mem_keyColumns.2 ⟨q, hq, hlist ▸ hkey.symm, column, unique', hqlink, rfl⟩
  have hnodup := h.columns_nodup hl
  rw [column_names, List.nodup_cons, List.nodup_append] at hnodup
  have heq := List.inj_on_of_nodup_map hnodup.2.2.1 hcp hcq rfl
  simp only [Column.key, Column.mk.injEq, Option.some.injEq, Reference.mk.injEq] at heq
  exact ⟨heq.2.2.2.2.2.2.1.1, heq.2.2.2.2.1⟩

theorem not_isKey_of_expression (h : db.Compiles d) (hl : l ∈ db.schema.lists) {c : Column}
    (hc : c ∈ (tableOf db.schema.plans l).columns) (he : c.expression.isSome) :
    ¬ db.IsKey l.key c.name := by
  intro hk
  obtain ⟨c', hc', hname⟩ := isKey_iff.1 hk
  have hmem : c' ∈ (tableOf db.schema.plans l).columns := List.mem_append_right _ hc'
  have heq := List.inj_on_of_nodup_map (h.columns_nodup hl) hc hmem hname.symm
  obtain ⟨p, -, -, name, unique, -, rfl⟩ := mem_keyColumns.1 hc'
  rw [heq] at he
  cases he

theorem column_not_isKey (h : db.Compiles d) {list field column : String}
    (hc : db.layout.column list field = .ok column) : ¬ db.IsKey list column := by
  intro hk
  obtain ⟨l, hl, rfl⟩ := h.exists_list_of_isKey hk
  simp only [Layout.column, h.table?_eq hl, Option.bind_some] at hc
  split at hc
  · next c hplace =>
    cases hc
    by_cases hid : field = "id"
    · subst hid
      simp only [tableOf, Store.lookup_cons_self, Option.some.injEq, FieldColumns.one.injEq]
        at hplace
      exact h.isKey_ne_id hk hplace.symm
    · exact h.fieldColumns_not_isKey hl
        (place_fieldColumns hplace hid (List.mem_singleton_self _)) hk
  · cases hc
  · cases hc

end Compiles

end Database

end RecordSchema
