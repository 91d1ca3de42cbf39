import Mathlib.Data.List.Perm.Basic
import RecordSchema.Proofs.Relation.Agreement
import RecordSchema.Proofs.Store.Slots

/-!
# Clashes of names

A schema that compiles names the columns of its tables: the id, the
columns of fields, and the key columns of relations
(`Schema.columnNames`). Compiling does not compare these names, so that
two of them may be the same, and then there are no tables. There are
tables just when no names clash, within a list or between a join table
and a list, and every expression that storage fills in is a text
(`Declarations.Declared.laysOut`).

Names clash only where something renames a column or the key of a field
has an underscore in it (`ListType.HasPlainNames`).
-/

namespace RecordSchema

/-! ## Names of columns -/

/-- Whether a relation keeps its links in a column of its own list: it is to one record, and not
the side of a one-to-one relation that leaves the key to the other. -/
def Relations.ownsKey (rs : Relations) (r : RelationField) : Bool :=
  r.mode == .one &&
    (r.ownsForeignKey || (r.field.bind (rs.relation? r.list)).map (·.mode) != some .one)

/-- The key column that a field adds to the table of its list. -/
def Relations.keyName? (rs : Relations) (key : String) : Storage → Option String
  | .relation r => if rs.ownsKey r then some (r.keyColumn key) else none
  | _ => none

/-- The names of the columns of a list: the id, the columns of fields, and the key columns. -/
def Schema.columnNames (s : Schema) (l : ListType) : List String :=
  "id" :: ((Layout.columnKinds l).map Prod.fst ++
    l.fields.filterMap fun e => (Declarations.kinds s.lists).keyName? e.1 e.2.storage)

/-- The column of the own list that a plan keeps links in. -/
def RelationPlan.ownKey? (p : RelationPlan) : Option String :=
  match p.link with
  | .ownKey column _ => some column
  | _ => none

namespace Relations

variable {rs : Relations} {ps : List RelationPlan} {list field : String} {r : RelationField}

theorem ownKey?_of_planOf {p : RelationPlan} (h : rs.planOf list field r = .ok p) :
    p.ownKey? = if rs.ownsKey r then some (r.keyColumn field) else none := by
  obtain ⟨-, -, -, -, other, hother, hlink⟩ := planOf_ok h
  have hback : r.field.bind (rs.relation? r.list) = other.map Prod.snd := by
    obtain ⟨-, ⟨hnone, rfl⟩ | ⟨back, o, hback, rfl, ho, -⟩⟩ := otherSide_ok hother
    · rw [hnone, Option.bind_none, Option.map_none]
    · rw [hback, Option.bind_some, ho, Option.map_some]
  rw [RelationPlan.ownKey?, ownsKey, hback]
  cases hr : r.mode with
  | many =>
    split
    · next hown =>
      rw [hown] at hlink
      rw [(RelationField.link_ownKey hlink).1] at hr
      cases hr
    · rfl
  | one =>
    simp only [RelationField.link, hr, RelationField.planOne] at hlink
    cases other with
    | none =>
      rw [← Except.ok.inj hlink]
      simp
    | some e =>
      obtain ⟨back, o⟩ := e
      cases ho : o.mode with
      | many =>
        simp only [ho, Except.ok.injEq] at hlink
        simp [← hlink, ho]
      | one =>
        simp only [ho] at hlink
        split at hlink
        · cases hlink
        · split at hlink
          · next howns => simp [← Except.ok.inj hlink, howns]
          · next howns => simp [← Except.ok.inj hlink, howns, ho]

/-- The plan of a field, if the field is a relation that has one. -/
def planned? (rs : Relations) (list field : String) (s : Storage) : Option RelationPlan :=
  (rs.outcome? list field s).bind Except.toOption

theorem planned?_relation (rs : Relations) (list field : String) (r : RelationField) :
    rs.planned? list field (.relation r) = (rs.planOf list field r).toOption := by
  rw [planned?, outcome?, Option.bind_some]
  cases rs.planOf list field r <;> rfl

theorem plans_eq (rs : Relations) :
    rs.plan.1 = rs.flatMap fun (list, fields) => fields.filterMap fun (field, s) =>
      rs.planned? list field s := by
  simp only [plan, outcomes, planned?, List.filterMap_flatMap, List.filterMap_filterMap]

theorem list_of_planned? {p : RelationPlan} {s : Storage} (h : rs.planned? list field s = some p) :
    p.list = list := by
  cases s with
  | relation r =>
    rw [planned?_relation] at h
    exact (planOf_ok (Except.eq_ok_of_toOption h)).1
  | _ => cases h

/-- The plan of a field keeps links in the key column that the field adds. -/
theorem Planned.ownKey?_eq (h : rs.Planned ps) {fields : List (String × Storage)}
    (hl : (list, fields) ∈ rs) {s : Storage} (hf : (field, s) ∈ fields) :
    (rs.planned? list field s).bind RelationPlan.ownKey? = rs.keyName? field s := by
  cases s with
  | relation r =>
    obtain ⟨p, -, hp⟩ := h.exists_planOf (h.isMapping.relation?_of_mem hl hf)
    rw [planned?_relation, hp]
    exact ownKey?_of_planOf hp
  | _ => rfl

/-- The key columns of a list are those that its fields add. -/
theorem Planned.ownKeys_eq (h : rs.Planned ps) {fields : List (String × Storage)}
    (hl : (list, fields) ∈ rs) :
    (ps.filterMap fun p => if p.list == list then p.ownKey? else none) =
      fields.filterMap fun e => rs.keyName? e.1 e.2 := by
  obtain rfl : rs.plan.1 = ps := congrArg Prod.fst h.plan
  rw [plans_eq, List.filterMap_flatMap, Keys.flatMap_eq h.lists hl ?other]
  case other =>
    rintro ⟨list', fields'⟩ - hne
    rw [List.filterMap_filterMap, List.filterMap_eq_nil_iff]
    rintro ⟨field, s⟩ -
    refine Option.bind_eq_none_iff.2 fun p hp => if_neg ?_
    rwa [list_of_planned? hp, beq_iff_eq]
  rw [List.filterMap_filterMap]
  refine List.filterMap_congr fun e he => ?_
  obtain ⟨field, s⟩ := e
  refine (Option.bind_congr fun p hp => if_pos ?_).trans (h.ownKey?_eq hl he)
  rw [list_of_planned? hp, beq_self_eq_true]

end Relations

namespace Layout

variable {plans : List RelationPlan} {ls : List ListType} {l : ListType} {s : Schema}

/-! ## Tables -/

theorem keyColumns_names (plans : List RelationPlan) (list : String) :
    (keyColumns plans list).map (·.name) =
      plans.filterMap fun p => if p.list == list then p.ownKey? else none := by
  rw [keyColumns, List.map_filterMap]
  refine List.filterMap_congr fun p _ => ?_
  rw [RelationPlan.ownKey?]
  cases p.link with
  | ownKey column unique =>
    dsimp only
    split <;> rfl
  | _ =>
    dsimp only
    split <;> rfl

/-- Whether an expression that fills in a column is a text. -/
def HasTextExpression (s : Storage) : Prop :=
  ∀ v, s.default? = some (.policy (.dbGenerated v)) → ∃ t, v = .text t

theorem hasTextExpression_iff {s : Storage} :
    HasTextExpression s ↔ (match s.default? with
      | some (.policy (.dbGenerated (.text _))) => false
      | some (.policy (.dbGenerated _)) => true
      | _ => false) = false := by
  constructor
  · intro h
    split
    · rfl
    · next v hne hv =>
      obtain ⟨t, rfl⟩ := h v hv
      exact absurd rfl (hne t)
    · rfl
  · intro h v hv
    rw [hv] at h
    cases v with
    | text t => exact ⟨t, rfl⟩
    | _ => cases h

/-- Whether every expression that fills in a column of a list is a text. -/
def TextExpressions (l : ListType) : Prop :=
  ∀ key f, (key, f) ∈ l.fields → ∀ slot ∈ fieldKinds key f.storage, HasTextExpression slot.2

theorem hasOddExpression_eq_false : hasOddExpression l = false ↔ TextExpressions l := by
  simp only [hasOddExpression, List.any_eq_false, Bool.not_eq_true]
  constructor
  · intro h key f hf slot hslot
    have hodd := h (key, f) hf
    cases hs : f.storage with
    | multi subs =>
      rw [hs] at hslot hodd
      obtain ⟨e, he, rfl⟩ := List.mem_map.1 hslot
      exact hasTextExpression_iff.2 (Bool.eq_false_iff.2 (List.any_eq_false.1 hodd e he))
    | scalar | enum =>
      rw [hs] at hslot hodd
      obtain rfl := List.mem_singleton.1 hslot
      exact hasTextExpression_iff.2 hodd
    | _ =>
      rw [hs] at hslot
      cases hslot
  · rintro h ⟨key, f⟩ hf
    have hslots := h key f hf
    cases hs : f.storage with
    | multi subs =>
      rw [hs] at hslots
      refine List.any_eq_false.2 fun e he => Bool.eq_false_iff.1 (hasTextExpression_iff.1 ?_)
      exact hslots (subfieldColumn key e.1 e.2, e.2) (List.mem_map.2 ⟨e, he, rfl⟩)
    | scalar | enum =>
      rw [hs] at hslots
      exact hasTextExpression_iff.1 (hslots _ (List.mem_singleton_self _))
    | _ => rfl

theorem mem_of_mem_distinctJoins {ts : List JoinTable} {t : JoinTable} (h : t ∈ distinctJoins ts) :
    t ∈ ts := by
  induction ts with
  | nil => cases h
  | cons t' r ih =>
    rw [distinctJoins] at h
    rcases List.mem_cons.1 h with rfl | h
    · exact List.mem_cons_self
    · exact List.mem_cons_of_mem _ (ih (List.mem_filter.1 h).1)

theorem exists_joinsOf {name : String} :
    (∃ j ∈ joinsOf plans, j.name = name) ↔ ∃ p ∈ plans, ∃ side, p.link = .join name side := by
  constructor
  · rintro ⟨j, hj, rfl⟩
    obtain ⟨p, hp, h⟩ := List.mem_filterMap.1 (mem_of_mem_distinctJoins hj)
    split at h
    · next table side hlink =>
      cases h
      exact ⟨p, hp, side, hlink⟩
    · cases h
  · rintro ⟨p, hp, side, hlink⟩
    exact exists_join hp hlink

theorem checkTables_duplicate (htext : ∀ l ∈ ls, hasOddExpression l = false) (hl : l ∈ ls)
    (hclash : hasClash (tableOf plans l) = true) :
    checkTables plans ls = .error .duplicateColumn := by
  induction ls with
  | nil => cases hl
  | cons l' r ih =>
    obtain ⟨hodd, hr⟩ := List.forall_mem_cons.1 htext
    simp only [checkTables, hodd, Bool.false_eq_true, if_false]
    split
    · rfl
    · next hnone =>
      rcases List.mem_cons.1 hl with rfl | hl
      · exact absurd hclash hnone
      · rw [ih hr hl]
        rfl

/-- There are no tables where the names of columns clash. -/
theorem ofSchema_duplicate (htext : ∀ l ∈ s.lists, hasOddExpression l = false) (hl : l ∈ s.lists)
    (hclash : hasClash (tableOf s.plans l) = true) : ofSchema s = .error .duplicateColumn := by
  rw [ofSchema, checkTables_duplicate htext hl hclash]
  rfl

end Layout

/-! ## Plain names -/

/-- Whether nothing renames a column of a field. -/
def Storage.IsUnnamed : Storage → Prop
  | .multi subs => (subs.map Prod.fst).Nodup ∧ ∀ e ∈ subs, nonempty? e.2.map? = Option.none
  | .relation r => (r.foreignKey.bind fun k => nonempty? k.map) = Option.none
  | s => nonempty? s.map? = Option.none

/-- Whether the columns of a list have the names that its fields give them, and the keys of its
fields have no underscores. -/
def ListType.HasPlainNames (l : ListType) : Prop :=
  ∀ key f, (key, f) ∈ l.fields → '_' ∉ key.toList ∧ f.storage.IsUnnamed

/-- The names of the columns that a field adds to the table of its list. -/
def Relations.fieldNames (rs : Relations) (key : String) (s : Storage) : List String :=
  (if key == "id" then [] else (Layout.fieldKinds key s).map Prod.fst) ++
    (rs.keyName? key s).toList

/-- Whether a name is the key of a field, which is not the id, or the key with something behind an
underscore. -/
def IsNameOf (key name : String) : Prop :=
  (name = key ∧ key ≠ "id") ∨ ∃ rest, name = key ++ "_" ++ rest

/-- A name of a field says which field it is of. -/
theorem IsNameOf.takeWhile_eq {key name : String} (hkey : '_' ∉ key.toList) (h : IsNameOf key name) :
    name.toList.takeWhile (· != '_') = key.toList := by
  have hall : ∀ c ∈ key.toList, (c != '_') = true := fun c hc =>
    bne_iff_ne.2 fun heq => hkey (heq ▸ hc)
  rcases h with ⟨rfl, -⟩ | ⟨rest, rfl⟩
  · rw [← List.append_nil name.toList, List.takeWhile_append_of_pos hall, List.takeWhile_nil]
  · rw [String.toList_append, String.toList_append, List.append_assoc,
      List.takeWhile_append_of_pos hall]
    simp

theorem IsNameOf.ne_id {key name : String} (h : IsNameOf key name) : name ≠ "id" := by
  rcases h with ⟨rfl, hid⟩ | ⟨rest, rfl⟩
  · exact hid
  · intro heq
    have hmem : '_' ∈ (key ++ "_" ++ rest).toList := by simp
    rw [heq] at hmem
    exact absurd hmem (by decide)

namespace Relations

variable {rs : Relations} {key : String} {s : Storage}

theorem isNameOf_of_mem (hs : s.IsUnnamed) {name : String} (h : name ∈ rs.fieldNames key s) :
    IsNameOf key name := by
  rcases List.mem_append.1 h with h | h
  · split at h
    · cases h
    · next hid =>
      have hid : key ≠ "id" := by simpa using hid
      cases s with
      | multi subs =>
        simp only [Layout.fieldKinds, List.map_map, List.mem_map, Function.comp_apply] at h
        obtain ⟨e, he, rfl⟩ := h
        exact .inr ⟨e.1, by rw [Layout.subfieldColumn, hs.2 e he, Option.getD_none]⟩
      | scalar | enum =>
        obtain rfl := List.mem_singleton.1 h
        replace hs : nonempty? (Storage.map? _) = none := hs
        exact .inl ⟨by dsimp only; rw [hs, Option.getD_none], hid⟩
      | _ => cases h
  · rw [Option.mem_toList] at h
    cases s with
    | relation r =>
      rw [keyName?] at h
      split at h
      · obtain rfl := Option.some.inj h
        replace hs : (r.foreignKey.bind fun k => nonempty? k.map) = none := hs
        refine .inr ⟨"id", ?_⟩
        rw [RelationField.keyColumn, hs, Option.getD_none, String.append_assoc]
        rfl
      · cases h
    | _ => cases h

theorem fieldNames_nodup (hs : s.IsUnnamed) : (rs.fieldNames key s).Nodup := by
  have hkey : (rs.keyName? key s).toList.Nodup := by
    cases rs.keyName? key s with
    | none => exact List.nodup_nil
    | some name => exact List.nodup_singleton name
  unfold fieldNames
  split
  · exact hkey
  · cases s with
    | multi subs =>
      have hnames : (Layout.fieldKinds key (.multi subs)).map Prod.fst =
          (subs.map Prod.fst).map (key ++ "_" ++ ·) := by
        rw [Layout.fieldKinds, List.map_map, List.map_map]
        refine List.map_congr_left fun e he => ?_
        dsimp only [Function.comp_apply]
        rw [Layout.subfieldColumn, hs.2 e he, Option.getD_none]
      rw [hnames]
      refine (List.append_nil _).symm ▸ hs.1.map fun a b heq => ?_
      simpa [← String.toList_inj] using heq
    | scalar | enum => exact List.nodup_singleton _
    | _ => exact hkey

end Relations

/-- Plain names do not clash. -/
theorem Schema.columnNames_nodup {s : Schema} {l : ListType} (hl : (l.fields.map Prod.fst).Nodup)
    (hplain : l.HasPlainNames) : (s.columnNames l).Nodup := by
  let names (e : String × Field) := (Declarations.kinds s.lists).fieldNames e.1 e.2.storage
  have hperm : ((Layout.columnKinds l).map Prod.fst ++
      l.fields.filterMap fun e => (Declarations.kinds s.lists).keyName? e.1 e.2.storage).Perm
      (l.fields.flatMap names) := by
    rw [Layout.columnKinds, List.map_flatMap, List.filterMap_eq_flatMap_toList]
    refine (List.flatMap_append_perm ..).trans (.of_eq (List.flatMap_congr fun e _ => ?_))
    simp only [names, Relations.fieldNames]
    split <;> rfl
  have hname {e : String × Field} (he : e ∈ l.fields) {n : String} (hn : n ∈ names e) :
      IsNameOf e.1 n :=
    Relations.isNameOf_of_mem (hplain e.1 e.2 he).2 hn
  rw [columnNames, (hperm.cons "id").nodup_iff, List.nodup_cons, List.nodup_flatMap]
  refine ⟨fun hid => ?_, fun e he => Relations.fieldNames_nodup (hplain e.1 e.2 he).2, ?_⟩
  · obtain ⟨e, he, hn⟩ := List.mem_flatMap.1 hid
    exact (hname he hn).ne_id rfl
  · refine (List.pairwise_map.1 hl).imp_of_mem fun {a b} ha hb hne n hna hnb => hne ?_
    have hkey := (hname ha hna).takeWhile_eq (hplain a.1 a.2 ha).1
    exact String.toList_inj.1 (hkey.symm.trans ((hname hb hnb).takeWhile_eq (hplain b.1 b.2 hb).1))

/-! ## Tables of schemas that compile -/

namespace Declarations.Declared

variable {d : Declarations} {s : Schema} {l : ListType}

/-- The columns of a table have the names of the columns of its list. -/
theorem tableOf_names (hd : d.Declared) (hs : d.compile = .ok s) (hl : l ∈ s.lists) :
    (Layout.tableOf s.plans l).columns.map (·.name) = s.columnNames l := by
  have hkeys := (hd.planned hs).ownKeys_eq (List.mem_map_of_mem hl)
  rw [List.filterMap_map] at hkeys
  rw [Database.Compiles.column_names, Layout.keyColumns_names, hkeys,
    ← Layout.columnKinds_names fun _ he => problems_eq_nil hs hl he]
  rfl

/-- There are tables just when no names clash, within a list or between a join table and a list,
and every expression is a text. The names of the columns are those of the lists, and plain ones do
not clash. -/
theorem laysOut (hd : d.Declared) (hs : d.compile = .ok s) :
    ((Layout.ofSchema s).isOk = true ↔
      (∀ l ∈ s.lists, (s.columnNames l).Nodup) ∧ (∀ l ∈ s.lists, Layout.TextExpressions l) ∧
        ∀ p ∈ s.plans, ∀ table side, p.link = .join table side → ∀ l ∈ s.lists, l.key ≠ table) ∧
    (∀ layout, Layout.ofSchema s = .ok layout →
      layout.tables.map (fun t => (t.list, t.columns.map (·.name))) =
        s.lists.map fun l => (l.key, s.columnNames l)) ∧
    ((∀ l ∈ s.lists, Layout.TextExpressions l) → ∀ l ∈ s.lists, ¬ (s.columnNames l).Nodup →
      Layout.ofSchema s = .error .duplicateColumn) ∧
    ∀ l ∈ s.lists, l.HasPlainNames → (s.columnNames l).Nodup := by
  have hjoins : (∀ j ∈ Layout.joinsOf s.plans, ∀ l ∈ s.lists, l.key ≠ j.name) ↔
      ∀ p ∈ s.plans, ∀ table side, p.link = .join table side → ∀ l ∈ s.lists, l.key ≠ table := by
    constructor
    · intro h p hp table side hlink
      obtain ⟨j, hj, rfl⟩ := Layout.exists_joinsOf.2 ⟨p, hp, side, hlink⟩
      exact h j hj
    · intro h j hj
      obtain ⟨p, hp, side, hlink⟩ := Layout.exists_joinsOf.1 ⟨j, hj, rfl⟩
      exact h p hp j.name side hlink
  have hlists : (∀ l ∈ s.lists, Layout.hasOddExpression l = false ∧
      ((Layout.tableOf s.plans l).columns.map (·.name)).Nodup) ↔
        (∀ l ∈ s.lists, (s.columnNames l).Nodup) ∧ ∀ l ∈ s.lists, Layout.TextExpressions l := by
    rw [← forall₂_and]
    refine forall₂_congr fun l hl => ?_
    rw [Layout.hasOddExpression_eq_false, hd.tableOf_names hs hl, and_comm]
  refine ⟨⟨fun h => ?laidOut, fun ⟨hnames, htext, hother⟩ => ?sound⟩, fun layout h => ?names,
    fun htext l hl hclash => ?clash, fun l hl hplain => ?plain⟩
  case laidOut =>
    obtain ⟨layout, hlayout⟩ := Except.isOk_iff.1 h
    obtain ⟨-, hsound, hother⟩ := Layout.ofSchema_eq_ok.1 hlayout
    exact ⟨(hlists.1 hsound).1, (hlists.1 hsound).2, hjoins.1 hother⟩
  case sound =>
    exact Except.isOk_iff.2 ⟨⟨s.lists.map (Layout.tableOf s.plans), Layout.joinsOf s.plans⟩,
      Layout.ofSchema_eq_ok.2 ⟨⟨rfl, rfl⟩, hlists.2 ⟨hnames, htext⟩, hjoins.2 hother⟩⟩
  case names =>
    obtain ⟨⟨htables, -⟩, -⟩ := Layout.ofSchema_eq_ok.1 h
    rw [htables, List.map_map]
    exact List.map_congr_left fun l hl => Prod.ext rfl (hd.tableOf_names hs hl)
  case clash =>
    refine Layout.ofSchema_duplicate
      (fun l hl => Layout.hasOddExpression_eq_false.2 (htext l hl)) hl ?_
    rw [Layout.hasClash, hd.tableOf_names hs hl]
    simpa using hclash
  case plain => exact s.columnNames_nodup (hd.fields_nodup hs hl) hplain

end Declarations.Declared

/-! ## Cars and their drivers -/

/-- Cars that may have a driver. -/
def cars : Declarations :=
  (({} : Declarations).declare {
    key := "Car"
    specs := [("plate", .scalar .text {}),
      ("driver", .relationship { ref := "Person.car", foreignKey := some {} })] }).declare {
    key := "Person"
    specs := [
      ("name", .composite [("first", .scalar { scalar := .text }), ("last", .scalar { scalar := .text })]
        none none),
      ("car", .relationship { ref := "Car.driver" }),
      ("friends", .relationship { ref := "Person", many := true })] }

theorem cars_facts : cars.compile.isOk = true ∧
    (∀ l ∈ cars.compile.result.lists, (cars.compile.result.columnNames l).Nodup ∧
      Layout.hasOddExpression l = false ∧
      ∀ j ∈ Layout.joinsOf cars.compile.result.plans, l.key ≠ j.name) ∧
    cars.compile.result.lists.map (fun l => (l.key, cars.compile.result.columnNames l)) =
      [("Car", ["id", "plate", "driver_id"]), ("Person", ["id", "name_first", "name_last"])] := by
  decide +kernel

/-- The car holds the key of its driver, and the names of a person have a column each. -/
theorem laysOut_cars : ∃ layout, Layout.ofSchema cars.compile.result = .ok layout ∧
    layout.tables.map (fun t => (t.list, t.columns.map (·.name))) =
      [("Car", ["id", "plate", "driver_id"]), ("Person", ["id", "name_first", "name_last"])] := by
  obtain ⟨hok, hsound, hnames⟩ := cars_facts
  have hdeclared : cars.Declared := .declare (.declare (.start _ _ _) (by decide)) (by decide)
  obtain ⟨hiff, htables, -⟩ := hdeclared.laysOut (Except.eq_ok_result hok)
  have hother : ∀ p ∈ cars.compile.result.plans, ∀ table side, p.link = .join table side →
      ∀ l ∈ cars.compile.result.lists, l.key ≠ table := by
    intro p hp table side hlink l hl
    obtain ⟨j, hj, rfl⟩ := Layout.exists_joinsOf.2 ⟨p, hp, side, hlink⟩
    exact (hsound l hl).2.2 j hj
  obtain ⟨layout, hlayout⟩ := Except.isOk_iff.1 (hiff.2 ⟨fun l hl => (hsound l hl).1,
    fun l hl => Layout.hasOddExpression_eq_false.1 (hsound l hl).2.1, hother⟩)
  exact ⟨layout, hlayout, (htables layout hlayout).trans hnames⟩

/-! ## Items and their owners -/

/-- Items that have an owner, and the number of an owner besides. -/
def items : Declarations :=
  ({} : Declarations).declare {
    key := "Item"
    specs := [("name", .scalar .text {}), ("owner", .relationship { ref := "Item" }),
      ("owner_id", .scalar .int {})] }

theorem items_facts : items.compile.isOk = true ∧
    (∀ l ∈ items.compile.result.lists, Layout.hasOddExpression l = false) ∧
    ∃ l ∈ items.compile.result.lists,
      Layout.hasClash (Layout.tableOf items.compile.result.plans l) = true ∧
      items.compile.result.columnNames l = ["id", "name", "owner_id", "owner_id"] := by
  decide +kernel

/-- The items compile, and have no table: two of its columns would have one name. -/
theorem items_clash : ∃ s, items.compile = .ok s ∧ Layout.ofSchema s = .error .duplicateColumn ∧
    ∃ l ∈ s.lists, s.columnNames l = ["id", "name", "owner_id", "owner_id"] := by
  obtain ⟨hok, htext, l, hl, hclash, hnames⟩ := items_facts
  exact ⟨_, Except.eq_ok_result hok, Layout.ofSchema_duplicate htext hl hclash, l, hl, hnames⟩

end RecordSchema
