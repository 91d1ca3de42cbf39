import Mathlib.Data.List.Forall2
import RecordSchema.Proofs.Store.Agree
import RecordSchema.Proofs.Store.Searching

/-!
# Places of links

Every relation keeps its links at one place, a key column of one list or
a join table. A write to links through a relation changes nothing but
its place (`Store.KeepsBut`), and what a relation yields depends on no
place but its own. So a relation can only disturb one that keeps its
links at the same place.
-/

namespace RecordSchema

/-- Where links are kept. -/
inductive Place where
  | column (list column : String)
  | table (name : String)
deriving DecidableEq

def RelationPlan.place (p : RelationPlan) : Place :=
  match p.link with
  | .ownKey column _ => .column p.list column
  | .targetKey column _ => .column p.target column
  | .join table _ => .table table

theorem Database.Compiles.isKey_of_place {db : Database} {d : Declarations} (h : db.Compiles d)
    {p : RelationPlan} (hp : p ∈ db.schema.plans) {list column : String}
    (hplace : p.place = .column list column) : db.IsKey list column := by
  unfold RelationPlan.place at hplace
  split at hplace
  · next hlink =>
    cases hplace
    exact isKey_of_ownKey hp hlink
  · next hlink =>
    cases hplace
    exact h.isKey_of_targetKey hp hlink
  · cases hplace

namespace Database.Compiles

variable {db : Database} {d : Declarations} {p q : RelationPlan}

/-- A key column is that of one relation. -/
theorem eq_of_ownKey (h : db.Compiles d) (hp : p ∈ db.schema.plans) (hq : q ∈ db.schema.plans)
    (hlist : p.list = q.list) {column : String} {unique unique' : Bool}
    (hplink : p.link = .ownKey column unique) (hqlink : q.link = .ownKey column unique') :
    p = q := by
  obtain ⟨⟨l, hl, hkey⟩, -⟩ := h.exists_ends hp
  obtain ⟨htarget, rfl⟩ := h.key_eq hp hq hlist hplink hqlink
  have hnodup := h.columns_nodup hl
  rw [column_names, List.nodup_cons, List.nodup_append] at hnodup
  refine Keys.eq_of_filterMap hnodup.2.2.1.of_map hp hq (b := .key column p.target unique) ?_ ?_
  · simp [hplink, hkey]
  · simp [hqlink, hkey, hlist, htarget]

/-- Relations that keep their links at one place are the two sides of a relation
or have a join table in common. -/
theorem place_eq (h : db.Compiles d) (hp : p ∈ db.schema.plans) (hq : q ∈ db.schema.plans)
    (hne : p ≠ q) (hsides : ¬ (Declarations.kinds db.schema.lists).AreSides p q)
    (heq : p.place = q.place) :
    ∃ table side side', p.link = .join table side ∧ q.link = .join table side' := by
  have hback := fun hs => hsides (h.planned.areSides_symm hq hp hs)
  unfold RelationPlan.place at heq
  cases hplink : p.link with
  | ownKey column unique =>
    cases hqlink : q.link with
    | ownKey column' unique' =>
      simp only [hplink, hqlink, Place.column.injEq] at heq
      obtain ⟨hlist, rfl⟩ := heq
      exact absurd (h.eq_of_ownKey hp hq hlist hplink hqlink) hne
    | targetKey column' unique' =>
      simp only [hplink, hqlink, Place.column.injEq] at heq
      obtain ⟨hlist, rfl⟩ := heq
      obtain ⟨x, hx, hqx, hxlink, -⟩ := h.planned.exists_owner hq hqlink
      rw [h.planned.target_eq hq hx hqx] at hlist
      obtain rfl := h.eq_of_ownKey hp hx hlist hplink hxlink
      exact absurd hqx hback
    | join table side => simp [hplink, hqlink] at heq
  | targetKey column unique =>
    obtain ⟨x, hx, hpx, hxlink, -⟩ := h.planned.exists_owner hp hplink
    cases hqlink : q.link with
    | ownKey column' unique' =>
      simp only [hplink, hqlink, Place.column.injEq] at heq
      obtain ⟨hlist, rfl⟩ := heq
      rw [h.planned.target_eq hp hx hpx] at hlist
      obtain rfl := h.eq_of_ownKey hx hq hlist hxlink hqlink
      exact absurd hpx hsides
    | targetKey column' unique' =>
      simp only [hplink, hqlink, Place.column.injEq] at heq
      obtain ⟨hlist, rfl⟩ := heq
      obtain ⟨y, hy, hqy, hylink, -⟩ := h.planned.exists_owner hq hqlink
      rw [h.planned.target_eq hp hx hpx, h.planned.target_eq hq hy hqy] at hlist
      obtain rfl := h.eq_of_ownKey hx hy hlist hxlink hylink
      exact absurd (h.planned.side_unique hp hq (h.planned.areSides_symm hp hx hpx)
        (h.planned.areSides_symm hq hx hqy)) hne
    | join table side => simp [hplink, hqlink] at heq
  | join table side =>
    cases hqlink : q.link with
    | ownKey column' unique' => simp [hplink, hqlink] at heq
    | targetKey column' unique' => simp [hplink, hqlink] at heq
    | join table' side' =>
      simp only [hplink, hqlink, Place.table.injEq] at heq
      obtain rfl := heq
      exact ⟨table, side, side', rfl, rfl⟩

end Database.Compiles

namespace Store

variable {s s' s'' : Store} {place : Place}

/-! ## Writes to one place -/

/-- Whether two stores have the same rows and the same pairs, one place apart. -/
structure KeepsBut (place : Place) (s s' : Store) : Prop where
  rows : s.AgreeOn (fun list column => place ≠ .column list column) s'
  pairs : ∀ table, place ≠ .table table → s.pairs table = s'.pairs table

namespace KeepsBut

theorem refl (place : Place) (s : Store) : s.KeepsBut place s :=
  ⟨.refl _ s, fun _ _ => rfl⟩

theorem trans (h : s.KeepsBut place s') (h' : s'.KeepsBut place s'') : s.KeepsBut place s'' :=
  ⟨h.rows.trans h'.rows, fun table ht => (h.pairs table ht).trans (h'.pairs table ht)⟩

theorem modifyRows (s : Store) (list column : String) (q : Row → Bool) (c : Cell) :
    s.KeepsBut (.column list column) (s.modifyRows list q fun r => r.set column c) := by
  refine ⟨AgreeOn.of_modifyRows fun r _ _ => ⟨rfl, fun other hother => ?_⟩, fun _ _ => rfl⟩
  rw [Row.cell_set_of_ne]
  rintro rfl
  exact hother rfl

theorem setPairs (s : Store) (table : String) (ps : List (Int × Int)) :
    s.KeepsBut (.table table) (s.setPairs table ps) := by
  refine ⟨.refl _ s, fun other hother => ?_⟩
  rw [pairs_setPairs, if_neg]
  rintro rfl
  exact hother rfl

end KeepsBut

theorem keepsBut_connect (s : Store) (p : RelationPlan) (i : Int) (ts : List Int) :
    s.KeepsBut p.place (s.connect p i ts) := by
  unfold connect RelationPlan.place
  cases ts.getLast? with
  | none => exact .refl _ s
  | some last =>
    cases p.link with
    | ownKey column unique =>
      cases unique with
      | true => exact (KeepsBut.modifyRows s ..).trans (KeepsBut.modifyRows _ ..)
      | false => exact KeepsBut.modifyRows s ..
    | targetKey column unique =>
      cases p.mode with
      | one => exact (KeepsBut.modifyRows s ..).trans (KeepsBut.modifyRows _ ..)
      | many => exact KeepsBut.modifyRows s ..
    | join table side => exact KeepsBut.setPairs s table _

theorem keepsBut_unlink (s : Store) (p : RelationPlan) (i : Int) (among : Int → Bool) :
    s.KeepsBut p.place (s.unlink p i among) := by
  unfold unlink RelationPlan.place
  cases p.link with
  | ownKey column unique => exact KeepsBut.modifyRows s ..
  | targetKey column unique => exact KeepsBut.modifyRows s ..
  | join table side => exact KeepsBut.setPairs s table _

/-! ## Reading another place -/

theorem KeepsBut.isReached_eq (h : s.KeepsBut place s') {q : RelationPlan} (hq : q.place ≠ place)
    (o : Int) {r r' : Row}
    (hr : Row.AgreeOn (fun column => place ≠ .column q.target column) r r') :
    s'.isReached q o r' = s.isReached q o r := by
  unfold isReached
  cases hlink : q.link with
  | ownKey column unique =>
    have hcolumn : place ≠ .column q.list column := by
      simpa only [RelationPlan.place, hlink] using hq.symm
    have hown := h.rows.row? q.list o
    generalize s.row? q.list o = own, s'.row? q.list o = own' at hown
    cases hown with
    | none => rfl
    | some hown =>
      have hcell := hown.2 column hcolumn
      simp only [hcell, hr.1]
  | targetKey column unique =>
    have hcolumn : place ≠ .column q.target column := by
      simpa only [RelationPlan.place, hlink] using hq.symm
    have hcell := hr.2 column hcolumn
    simp only [hcell]
  | join table side =>
    have htable : place ≠ .table table := by
      simpa only [RelationPlan.place, hlink] using hq.symm
    have hpairs := h.pairs table htable
    cases side <;> simp only [linksFrom, hpairs, hr.1]

end Store

/-- Sorting rows by id goes along with what relates rows of one id. -/
theorem RowOrder.forall₂_mergeSort {R : Row → Row → Prop} (hid : ∀ r r', R r r' → r.id = r'.id)
    {rs rs' : List Row} (h : List.Forall₂ R rs rs') :
    List.Forall₂ R (rs.mergeSort (before [])) (rs'.mergeSort (before [])) := by
  -- Both lists are the projections of one list of pairs, which is sorted once.
  obtain ⟨zs, hzs, rfl, rfl⟩ : ∃ zs : List (Row × Row), (∀ z ∈ zs, R z.1 z.2) ∧
      zs.map Prod.fst = rs ∧ zs.map Prod.snd = rs' := by
    induction h with
    | nil => exact ⟨[], nofun, rfl, rfl⟩
    | @cons r r' rest rest' hr _ ih =>
      obtain ⟨zs, hzs, rfl, rfl⟩ := ih
      exact ⟨(r, r') :: zs, List.forall_mem_cons.2 ⟨hr, hzs⟩, rfl, rfl⟩
  have hbefore : ∀ z ∈ zs, ∀ y ∈ zs, before [] z.1 y.1 = before [] z.2 y.2 := by
    intro z hz y hy
    rw [Bool.eq_iff_iff, Store.before_nil_iff, Store.before_nil_iff, hid _ _ (hzs z hz),
      hid _ _ (hzs y hy)]
  rw [← List.map_mergeSort (r := fun z y => before [] z.1 y.1) fun z _ y _ => rfl,
    ← List.map_mergeSort hbefore]
  refine List.forall₂_map_left_iff.2 (List.forall₂_map_right_iff.2 ?_)
  exact List.forall₂_same.2 fun z hz => hzs z (List.mem_mergeSort.1 hz)

namespace Store

variable {s s' : Store} {place : Place}

/-- A relation reaches rows that agree when all that changes is another place. -/
theorem KeepsBut.select_reached (h : s.KeepsBut place s') {q : RelationPlan}
    (hq : q.place ≠ place) (o : Int) :
    List.Forall₂ (Row.AgreeOn fun column => place ≠ .column q.target column)
      (s.select q.target (s.isReached q o) (.all []) [])
      (s'.select q.target (s'.isReached q o) (.all []) []) := by
  unfold select
  refine RowOrder.forall₂_mergeSort (fun r r' hr => hr.1) (List.rel_filter ?_ (h.rows q.target))
  intro r r' hr
  simp only [Condition.selects_all_nil, Bool.and_true, h.isReached_eq hq o hr]

end Store

namespace Database

variable {db : Database} {d : Declarations} {s s' : Store} {p q : RelationPlan}

/-! ## Records that relations yield -/

/-- The records that a relation yields for an owner. -/
def related (db : Database) (s : Store) (list field : String) (i : Int) :
    Except Fault (List Record) := do
  let plan ← db.plan list field
  return (← db.findRelated s list field i {}).map (db.record plan.target)

theorem related_eq {list field : String} (hp : db.plan list field = .ok p) (s : Store) (i : Int) :
    db.related s list field i =
      .ok ((s.select p.target (s.isReached p i) (.all []) []).map (db.record p.target)) := by
  simp only [related, findRelated, hp]
  rfl

/-- A relation yields a record for every id that it links an owner to. -/
theorem exists_related {list field : String} (hp : db.plan list field = .ok p) (s : Store)
    (i : Int) : ∃ rs, db.related s list field i = .ok rs ∧ rs.length = (s.linked p i).length := by
  refine ⟨_, related_eq hp s i, ?_⟩
  simp [Store.select, Store.linked]

namespace Compiles

/-- A record shows no key column. -/
theorem record_agree (h : db.Compiles d) {l : ListType} (hl : l ∈ db.schema.lists) {r r' : Row}
    (hr : Row.AgreeOn (fun column => ¬ db.IsKey l.key column) r r') :
    db.record l.key r = db.record l.key r' := by
  unfold Database.record
  rw [h.table?_eq hl]
  have hcolumn {column : String} (hkey : ¬ db.IsKey l.key column) :
      (Layout.tableOf db.schema.plans l).readColumn r column =
        (Layout.tableOf db.schema.plans l).readColumn r' column := by
    simp only [TableLayout.readColumn, hr.2 column hkey]
  refine List.map_congr_left fun e he => ?_
  rcases List.mem_cons.1 he with rfl | he
  · have hid : ¬ db.IsKey l.key "id" := fun hk => h.isKey_ne_id hk rfl
    simp only [TableLayout.readField, hcolumn hid]
  · obtain ⟨⟨key, part⟩, hpart, rfl⟩ := List.mem_map.1 he
    have hnot {column : String} (hmem : column ∈ part.place.names) : ¬ db.IsKey l.key column :=
      h.fieldColumns_not_isKey hl (List.mem_flatMap.2 ⟨_, hpart, hmem⟩)
    cases hplace : part.place with
    | one column =>
      rw [hplace] at hnot
      simp only [TableLayout.readField, hcolumn (hnot (List.mem_singleton_self _))]
    | many subs =>
      rw [hplace] at hnot
      have hsubs : ∀ sub ∈ subs, (Layout.tableOf db.schema.plans l).readColumn r sub.2 =
          (Layout.tableOf db.schema.plans l).readColumn r' sub.2 :=
        fun sub hsub => hcolumn (hnot (List.mem_map.2 ⟨sub, hsub, rfl⟩))
      simp only [TableLayout.readField]
      rw [List.map_congr_left fun sub hsub => by rw [hsubs sub hsub]]

/-- A write to links changes nothing that a relation with another place yields. -/
theorem related_of_keepsBut (h : db.Compiles d) (hp : p ∈ db.schema.plans)
    (hq : q ∈ db.schema.plans) (hs : s.KeepsBut p.place s') (hne : q.place ≠ p.place) (o : Int) :
    db.related s' q.list q.field o = db.related s q.list q.field o := by
  rw [related_eq (h.plan_eq_ok hq), related_eq (h.plan_eq_ok hq)]
  obtain ⟨-, l, hl, htarget⟩ := h.exists_ends hq
  have hrows := hs.select_reached hne o
  rw [← htarget] at hrows ⊢
  generalize s.select l.key _ _ _ = rs, s'.select l.key _ _ _ = rs' at hrows
  congr 1
  induction hrows with
  | nil => rfl
  | @cons r r' _ _ hr _ ih =>
    have hagree : Row.AgreeOn (fun column => ¬ db.IsKey l.key column) r r' :=
      ⟨hr.1, fun column hk => hr.2 column fun hplace => hk (h.isKey_of_place hp hplace)⟩
    rw [List.map_cons, List.map_cons, ih, h.record_agree hl hagree]

end Compiles

end Database

end RecordSchema
