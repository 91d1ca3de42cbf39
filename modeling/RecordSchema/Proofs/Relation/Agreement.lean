import RecordSchema.Proofs.Store.Columns

/-!
# Agreement of plans

The two sides of a relation are planned one at a time, each from its own
view. Where one side has a plan the other has one as well, and the two
name the same column or the same join table (`RelationField.Agree`), so
the column that one side expects in the table of its target is the
column that the other side makes. In the layout of a compiled schema
every column and every join table that a plan names is there
(`Layout.Keeps`).
-/

namespace RecordSchema

/-- A join table has both columns, whichever side comes first. -/
theorem JoinTable.column_mem (j : JoinTable) (s : JoinSide) :
    s.column ∈ j.columns.map (·.name) := by
  obtain ⟨name, own, list, target⟩ := j
  cases own <;> cases s <;> simp [columns, Column.joinKey, JoinSide.other]

namespace Layout

/-- The column of a name in the table of a list. -/
def column? (l : Layout) (list name : String) : Option Column :=
  (l.table? list).bind fun t => t.columns.find? fun c => c.name == name

def join? (l : Layout) (name : String) : Option JoinTable :=
  l.joins.find? fun j => j.name == name

/-- A layout has all that is looked up for a plan: the ids of both lists, and the key
column or the join table of the links. -/
structure Keeps (l : Layout) (p : RelationPlan) : Prop where
  ids : l.column? p.list "id" = some .id ∧ l.column? p.target "id" = some .id
  ownKey : ∀ column unique, p.link = .ownKey column unique →
    l.column? p.list column = some (.key column p.target unique)
  targetKey : ∀ column unique, p.link = .targetKey column unique →
    l.column? p.target column = some (.key column p.list unique)
  join : ∀ table side, p.link = .join table side →
    ∃ j, l.join? table = some j ∧ ∀ s : JoinSide, s.column ∈ j.columns.map (·.name)

theorem exists_mem_distinctJoins {ts : List JoinTable} {t : JoinTable} (ht : t ∈ ts) :
    ∃ u ∈ distinctJoins ts, u.name = t.name := by
  induction ts with
  | nil => cases ht
  | cons t' r ih =>
    rw [distinctJoins]
    rcases List.mem_cons.1 ht with rfl | ht
    · exact ⟨t, List.mem_cons_self, rfl⟩
    · obtain ⟨u, hu, hname⟩ := ih ht
      by_cases heq : u.name = t'.name
      · exact ⟨t', List.mem_cons_self, heq.symm.trans hname⟩
      · exact ⟨u, List.mem_cons_of_mem _ (List.mem_filter.2 ⟨hu, by simpa using heq⟩), hname⟩

/-- Every join table that a plan names is made. -/
theorem exists_join {plans : List RelationPlan} {p : RelationPlan} (hp : p ∈ plans)
    {table : String} {side : JoinSide} (hlink : p.link = .join table side) :
    ∃ j ∈ joinsOf plans, j.name = table :=
  exists_mem_distinctJoins (t := ⟨table, side, p.list, p.target⟩)
    (List.mem_filterMap.2 ⟨p, hp, by simp only [hlink]⟩)

end Layout

namespace Database.Compiles

variable {db : Database} {d : Declarations} {l : ListType} {p : RelationPlan}

open Layout

theorem column?_eq (h : db.Compiles d) (hl : l ∈ db.schema.lists) {c : Column}
    (hc : c ∈ (tableOf db.schema.plans l).columns) :
    db.layout.column? l.key c.name = some c := by
  rw [column?, h.table?_eq hl]
  exact Keys.find?_of_mem (h.columns_nodup hl) hc

theorem column?_id (h : db.Compiles d) (hl : l ∈ db.schema.lists) :
    db.layout.column? l.key "id" = some .id :=
  h.column?_eq (c := .id) hl List.mem_cons_self

/-- The key column of a relation is in the table of the list that owns it. -/
theorem column?_ownKey (h : db.Compiles d) (hp : p ∈ db.schema.plans) {column : String}
    {unique : Bool} (hlink : p.link = .ownKey column unique) :
    db.layout.column? p.list column = some (.key column p.target unique) := by
  obtain ⟨⟨l, hl, hkey⟩, -⟩ := h.exists_ends hp
  have hc := mem_keyColumns.2 ⟨p, hp, hkey.symm, column, unique, hlink, rfl⟩
  rw [← hkey]
  exact h.column?_eq hl (List.mem_append_right _ hc)

/-- All that is looked up for a plan is in the layout. -/
theorem keeps (h : db.Compiles d) (hp : p ∈ db.schema.plans) : db.layout.Keeps p where
  ids := by
    obtain ⟨⟨l, hl, hown⟩, ⟨t, ht, htarget⟩⟩ := h.exists_ends hp
    exact ⟨hown ▸ h.column?_id hl, htarget ▸ h.column?_id ht⟩
  ownKey _ _ hlink := h.column?_ownKey hp hlink
  targetKey column unique hlink := by
    -- The plan of the other side makes the column.
    obtain ⟨q, hq, hsides, hqlink, -⟩ := h.planned.exists_owner hp hlink
    rw [h.planned.target_eq hp hq hsides,
      ← h.planned.target_eq hq hp (h.planned.areSides_symm hp hq hsides)]
    exact h.column?_ownKey hq hqlink
  join table side hlink := by
    obtain ⟨j, hj, hname⟩ := exists_join hp hlink
    have hsome : (db.layout.join? table).isSome := by
      rw [join?, (ofSchema_ok h.laidOut).2.1]
      exact List.find?_isSome.2 ⟨j, hj, by simpa using hname⟩
    obtain ⟨j, hj⟩ := Option.isSome_iff_exists.1 hsome
    exact ⟨j, hj, j.column_mem⟩

end Database.Compiles

/-- Where a relation with another side has a plan, the other side has just one, and the
links of both agree. In the layout of a compiled schema there is all that its plans look
up. -/
theorem plans_agree :
    (∀ rs : Relations, rs.IsMapping → ∀ p ∈ rs.plan.1, ∀ r back,
      rs.relation? p.list p.field = some r → r.field = some back →
      (p.list, p.field) ≠ (r.list, back) →
      ∃ o, rs.relation? r.list back = some o ∧
        (∃ q ∈ rs.plan.1, q.list = r.list ∧ q.field = back) ∧
        ∀ q ∈ rs.plan.1, q.list = r.list → q.field = back →
          q.target = p.list ∧ q.mode = o.mode ∧ r.Agree o p.link q.link) ∧
      ∀ (db : Database) (d : Declarations), db.Compiles d →
        ∀ p ∈ db.schema.plans, db.layout.Keeps p := by
  refine ⟨fun rs hrs p hp r back hr hback hne => ?_, fun db d h p hp => h.keeps hp⟩
  obtain ⟨o, ho, q, hq, hlist, hfield, htarget, hmode, hagree⟩ := hrs.exists_agree hp hr hback hne
  refine ⟨o, ho, ⟨q, hq, hlist, hfield⟩, fun q' hq' hlist' hfield' => ?_⟩
  obtain rfl := hrs.eq_of_mem hq' hq (hlist'.trans hlist.symm) (hfield'.trans hfield.symm)
  exact ⟨htarget, hmode, hagree⟩

/-- Clubs and their members, whose join table has a name on one side only. The owner
of a club has no plan. -/
def clubs : Relations := [
  ("Club", [
    ("members", .relation
      { mode := .many, list := "Member", field := some "clubs", relationName := some "memberships" }),
    ("owner", .relation { mode := .one, list := "Owner" })]),
  ("Member", [("clubs", .relation { mode := .many, list := "Club", field := some "members" })])]

def membersPlan : RelationPlan :=
  ⟨"Club", "members", "Member", .many, .join "memberships" .first⟩

def clubsPlan : RelationPlan :=
  ⟨"Member", "clubs", "Club", .many, .join "memberships" .second⟩

theorem plans_agree_clubs :
    clubs.IsMapping ∧ membersPlan ∈ clubs.plan.1 ∧ clubsPlan ∈ clubs.plan.1 ∧
      membersPlan.link.Mirrors clubsPlan.link ∧
      ∃ p ∈ blog.database.result.schema.plans, blog.database.result.layout.Keeps p := by
  have hclubs : clubs.IsMapping := ⟨by decide, by decide⟩
  have hmembers : membersPlan ∈ clubs.plan.1 := by decide +kernel
  have hback : clubsPlan ∈ clubs.plan.1 := by decide +kernel
  obtain ⟨o, -, -, hagree⟩ := plans_agree.1 clubs hclubs membersPlan hmembers
    { mode := .many, list := "Member", field := some "clubs", relationName := some "memberships" }
    "clubs" rfl rfl (by decide)
  obtain ⟨-, -, hagree⟩ := hagree clubsPlan hback rfl rfl
  have htags : ⟨"Post", "tags", "Tag", .many, .join "_Post_tags" .first⟩ ∈
      blog.database.result.schema.plans := by decide +kernel
  exact ⟨hclubs, hmembers, hback, hagree.mirrors, _, htags,
    plans_agree.2 _ _ blog_compiles _ htags⟩

end RecordSchema
