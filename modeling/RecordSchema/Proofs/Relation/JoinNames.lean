import RecordSchema.Proofs.Request.Runs
import RecordSchema.Proofs.Store.Places

/-!
# Names of join tables

The two sides of a relation between many and many read one join table.
Its name is the one that a side declares, or else it is made of the list
and the field of the side that comes first, joined by underscores. Since
keys may have underscores themselves, and anything may be declared,
relations that have nothing to do with each other can come by the same
name (`Relations.Confused`). They then share a table, and linking
records through one of them links records through the other.

No other relations disturb each other: a key column has one relation.
-/

namespace RecordSchema

/-! ## Names that are made -/

/-- The name of the join table of a relation that declares none. -/
def joinName (path : String × String) : String :=
  "_" ++ path.1 ++ "_" ++ path.2

/-- Whether the list of a path goes on with an underscore and the beginning of the
other path's field. -/
def GoesOn (a b : String × String) : Prop :=
  ∃ rest, b.1 = a.1 ++ "_" ++ rest ∧ a.2 = rest ++ "_" ++ b.2

theorem joinName_of_goesOn {a b : String × String} (h : GoesOn a b) : joinName a = joinName b := by
  obtain ⟨rest, hlist, hfield⟩ := h
  simp only [joinName, hlist, hfield, String.append_assoc]

/-- Two paths make the same name when the list of one of them goes on as the other. -/
theorem joinName_eq_iff {a b : String × String} (hne : a ≠ b) :
    joinName a = joinName b ↔ GoesOn a b ∨ GoesOn b a := by
  constructor
  · intro h
    have hchars : a.1.toList ++ '_' :: a.2.toList = b.1.toList ++ '_' :: b.2.toList := by
      have htext := congrArg String.toList h
      simpa [joinName] using htext
    have hcut {a b : String × String} (hne : a ≠ b) {m : List Char}
        (hlist : b.1.toList = a.1.toList ++ m)
        (hrest : '_' :: a.2.toList = m ++ '_' :: b.2.toList) : GoesOn a b := by
      cases m with
      | nil =>
        rw [List.append_nil] at hlist
        rw [List.nil_append, List.cons.injEq] at hrest
        exact absurd (Prod.ext (String.toList_inj.1 hlist).symm (String.toList_inj.1 hrest.2)) hne
      | cons c m =>
        rw [List.cons_append, List.cons.injEq] at hrest
        obtain ⟨rfl, hfield⟩ := hrest
        refine ⟨String.ofList m, String.toList_inj.1 ?_, String.toList_inj.1 ?_⟩
        · simp [hlist]
        · simp [hfield]
    rcases List.append_eq_append_iff.1 hchars with ⟨m, hlist, hrest⟩ | ⟨m, hlist, hrest⟩
    · exact .inl (hcut hne hlist hrest)
    · exact .inr (hcut hne.symm hlist hrest)
  · rintro (h | h)
    · exact joinName_of_goesOn h
    · exact (joinName_of_goesOn h).symm

namespace Relations

variable {rs : Relations} {ps : List RelationPlan} {p q q' : RelationPlan}

/-! ## Names of tables -/

/-- The name that one of the sides of a relation declares. -/
def declaredName? (rs : Relations) (p : RelationPlan) : Option String :=
  (rs.relation? p.list p.field).bind fun r =>
    (nonempty? r.relationName).or
      ((r.field.bind (rs.relation? r.list)).bind fun o => nonempty? o.relationName)

/-- The list and the field of the side of a relation that comes first. -/
def firstPath (rs : Relations) (p : RelationPlan) : String × String :=
  match (rs.relation? p.list p.field).bind fun r => r.field.map (r.list, ·) with
  | none => (p.list, p.field)
  | some other => if pathBefore (p.list, p.field) other then (p.list, p.field) else other

/-- The name of the join table of a relation. -/
def tableName (rs : Relations) (p : RelationPlan) : String :=
  (rs.declaredName? p).getD (joinName (rs.firstPath p))

/-- Unrelated relations whose join tables have one name. -/
inductive Confused (rs : Relations) (p q : RelationPlan) : Prop where
  | declared {name : String} (own : rs.declaredName? p = some name)
    (other : rs.declaredName? q = some name)
  /-- One declares the name that is made for the other. -/
  | ownDeclared (own : rs.declaredName? p = some (joinName (rs.firstPath q)))
    (other : rs.declaredName? q = none)
  | otherDeclared (own : rs.declaredName? p = none)
    (other : rs.declaredName? q = some (joinName (rs.firstPath p)))
  /-- The list of one goes on as the list of the other, up to an underscore. -/
  | made (own : rs.declaredName? p = none) (other : rs.declaredName? q = none)
    (split : GoesOn (rs.firstPath p) (rs.firstPath q) ∨ GoesOn (rs.firstPath q) (rs.firstPath p))

theorem tableName_eq_iff (hne : rs.firstPath p ≠ rs.firstPath q) :
    rs.tableName p = rs.tableName q ↔ rs.Confused p q := by
  unfold tableName
  constructor
  · intro h
    cases hp : rs.declaredName? p with
    | some name =>
      rw [hp, Option.getD_some] at h
      cases hq : rs.declaredName? q with
      | some name' =>
        rw [hq, Option.getD_some] at h
        exact .declared hp (h ▸ hq)
      | none =>
        rw [hq, Option.getD_none] at h
        exact .ownDeclared (h ▸ hp) hq
    | none =>
      rw [hp, Option.getD_none] at h
      cases hq : rs.declaredName? q with
      | some name' =>
        rw [hq, Option.getD_some] at h
        exact .otherDeclared hp (h ▸ hq)
      | none =>
        rw [hq, Option.getD_none] at h
        exact .made hp hq ((joinName_eq_iff hne).1 h)
  · intro h
    cases h with
    | declared hp hq => rw [hp, hq, Option.getD_some, Option.getD_some]
    | ownDeclared hp hq => rw [hp, hq, Option.getD_some, Option.getD_none]
    | otherDeclared hp hq => rw [hp, hq, Option.getD_some, Option.getD_none]
    | made hp hq hsplit =>
      rw [hp, hq, Option.getD_none, Option.getD_none]
      exact (joinName_eq_iff hne).2 hsplit

namespace Planned

theorem table_eq (h : rs.Planned ps) (hp : p ∈ ps) {table : String} {side : JoinSide}
    (hlink : p.link = .join table side) : table = rs.tableName p := by
  obtain ⟨r, hr, hplan⟩ := h.planOf_of_mem hp
  obtain ⟨-, -, -, -, other, hother, hrlink⟩ := Relations.planOf_ok hplan
  rw [hlink] at hrlink
  have hmany := RelationField.link_join hrlink
  simp only [RelationField.link, hmany] at hrlink
  obtain ⟨-, ⟨hnone, rfl⟩ | ⟨back, o, hback, rfl, ho, -⟩⟩ := otherSide_ok hother
  · simp only [RelationField.planMany, Except.ok.injEq, Link.join.injEq] at hrlink
    simp [tableName, declaredName?, firstPath, hr, hnone, joinName, ← hrlink.1]
  · cases homode : o.mode with
    | one => simp [RelationField.planMany, homode] at hrlink
    | many =>
      obtain ⟨-, heq⟩ := (RelationField.planMany_many homode).1 hrlink
      rw [Link.join.injEq] at heq
      simp only [tableName, declaredName?, firstPath, hr, hback, Option.bind_some, Option.map_some,
        ho, heq.1]
      cases pathBefore (p.list, p.field) (r.list, back) <;> rfl

/-- The first path of a relation is that of one of its sides. -/
theorem exists_firstPath (h : rs.Planned ps) (hp : p ∈ ps) :
    ∃ x ∈ ps, rs.firstPath p = (x.list, x.field) ∧ (x = p ∨ rs.AreSides p x) := by
  obtain ⟨r, hr, -⟩ := h.planOf_of_mem hp
  unfold firstPath
  cases hback : r.field with
  | none =>
    simp only [hr, Option.bind_some, hback, Option.map_none]
    exact ⟨p, hp, rfl, .inl rfl⟩
  | some back =>
    obtain ⟨x, hx, rfl, hs⟩ := h.exists_side hp hr hback
    obtain ⟨r', hr', hlist, -⟩ := id hs
    obtain rfl := Option.some.inj (hr.symm.trans hr')
    simp only [hr, Option.bind_some, hback, Option.map_some]
    split
    · exact ⟨p, hp, rfl, .inl rfl⟩
    · exact ⟨x, hx, by rw [hlist], .inr hs⟩

/-- Only the two sides of a relation have the same first path. -/
theorem firstPath_ne (h : rs.Planned ps) (hp : p ∈ ps) (hq : q ∈ ps) (hne : p ≠ q)
    (hsides : ¬ rs.AreSides p q) : rs.firstPath p ≠ rs.firstPath q := by
  intro heq
  obtain ⟨x, hx, hpath, hpx⟩ := h.exists_firstPath hp
  obtain ⟨y, hy, hpath', hqy⟩ := h.exists_firstPath hq
  rw [hpath, hpath', Prod.mk.injEq] at heq
  obtain rfl := h.eq_of_mem hx hy heq.1 heq.2
  rcases hpx with rfl | hpx
  · rcases hqy with rfl | hqy
    · exact hne rfl
    · exact hsides (h.areSides_symm hq hp hqy)
  · rcases hqy with rfl | hqy
    · exact hsides hpx
    · exact hne (h.side_unique hp hq (h.areSides_symm hp hx hpx) (h.areSides_symm hq hx hqy))

end Planned

end Relations

/-! ## Places that relations share -/

/-- A relation that keeps its links in a join table. -/
def RelationPlan.IsJoin (p : RelationPlan) : Prop :=
  ∃ table side, p.link = .join table side

namespace Database.Compiles

variable {db : Database} {d : Declarations} {p q : RelationPlan}

/-- Unrelated relations keep their links at one place when their join tables have
one name. -/
theorem place_eq_iff (h : db.Compiles d) (hp : p ∈ db.schema.plans) (hq : q ∈ db.schema.plans)
    (hne : p ≠ q) (hsides : ¬ (Declarations.kinds db.schema.lists).AreSides p q) :
    p.place = q.place ↔
      p.IsJoin ∧ q.IsJoin ∧ (Declarations.kinds db.schema.lists).Confused p q := by
  have hname := Relations.tableName_eq_iff (h.planned.firstPath_ne hp hq hne hsides)
  constructor
  · intro heq
    obtain ⟨table, side, side', hplink, hqlink⟩ := h.place_eq hp hq hne hsides heq
    have htable := (h.planned.table_eq hp hplink).symm.trans (h.planned.table_eq hq hqlink)
    exact ⟨⟨table, side, hplink⟩, ⟨table, side', hqlink⟩, hname.1 htable⟩
  · rintro ⟨⟨table, side, hplink⟩, ⟨table', side', hqlink⟩, hconfused⟩
    simp only [RelationPlan.place, hplink, hqlink, Place.table.injEq]
    rw [h.planned.table_eq hp hplink, h.planned.table_eq hq hqlink, hname.2 hconfused]

/-- Linking a record through one relation of a join table links it through all of
them. -/
theorem related_connect_ne (h : db.Compiles d) (hq : q ∈ db.schema.plans) {table : String}
    {side side' : JoinSide} (hplink : p.link = .join table side)
    (hqlink : q.link = .join table side') :
    ∃ s : Store, db.related (s.connect p 1 [1]) q.list q.field 1 ≠
      db.related s q.list q.field 1 := by
  -- One row that nothing is linked to, which is then linked to itself.
  refine ⟨({} : Store).setRows q.target [⟨1, []⟩], ?_⟩
  generalize hs : ({} : Store).setRows q.target [⟨1, []⟩] = s
  have hids : s.ids q.target = [1] := by
    rw [← hs, Store.ids_setRows, if_pos rfl]
    rfl
  have hpairs : s.pairs table = [] := by
    rw [← hs, Store.pairs_setRows]
    rfl
  have hnone : s.linked q 1 = [] := by
    refine List.eq_nil_iff_forall_not_mem.2 fun t ht => ?_
    rw [Store.mem_linked_join hqlink, hpairs] at ht
    exact List.not_mem_nil ht.2
  have hone : 1 ∈ (s.connect p 1 [1]).linked q 1 := by
    rw [Store.mem_linked_join hqlink, Store.ids_connect, hids, Store.pairs_connect hplink,
      if_pos rfl, Store.mem_addPairs]
    refine ⟨List.mem_singleton_self 1, .inr ⟨1, List.mem_singleton_self 1, ?_⟩⟩
    cases side <;> cases side' <;> rfl
  intro heq
  obtain ⟨rs, hrs, hlength⟩ := Database.exists_related (h.plan_eq_ok hq) s 1
  obtain ⟨rs', hrs', hlength'⟩ := Database.exists_related (h.plan_eq_ok hq) (s.connect p 1 [1]) 1
  rw [hrs, hrs', Except.ok.injEq] at heq
  rw [heq, hlength, hnone] at hlength'
  exact List.ne_nil_of_mem hone (List.length_eq_zero_iff.1 hlength'.symm)

/-- Between unrelated relations, connecting through one never changes what the
other yields, just when the two keep their links at different places; and they
do so unless both have join tables, of names that come out the same. -/
theorem undisturbed_iff (h : db.Compiles d) (hp : p ∈ db.schema.plans) (hq : q ∈ db.schema.plans)
    (hne : p ≠ q) (hsides : ¬ (Declarations.kinds db.schema.lists).AreSides p q) :
    ((∀ (s : Store) (i : Int) (ts : List Int) (o : Int),
        db.related (s.connect p i ts) q.list q.field o = db.related s q.list q.field o) ↔
      p.place ≠ q.place) ∧
    (p.place = q.place ↔
      p.IsJoin ∧ q.IsJoin ∧ (Declarations.kinds db.schema.lists).Confused p q) := by
  refine ⟨⟨?_, ?_⟩, h.place_eq_iff hp hq hne hsides⟩
  · intro hsame hplace
    obtain ⟨table, side, side', hplink, hqlink⟩ := h.place_eq hp hq hne hsides hplace
    obtain ⟨s, hs⟩ := h.related_connect_ne hq hplink hqlink
    exact hs (hsame s 1 [1] 1)
  · intro hplace s i ts o
    exact h.related_of_keepsBut hp hq (s.keepsBut_connect p i ts) hplace.symm o

end Database.Compiles

/-! ## Orders, and items of orders -/

/-- A schema in which the tags of the items of an order and the tags of an item
are different relations. -/
def orders : Declarations :=
  ((({} : Declarations).declare {
    key := "Order"
    specs := [("item_tags", .relationship { ref := "Tag", many := true })]
  }).declare {
    key := "Order_item"
    specs := [("tags", .relationship { ref := "Tag", many := true })]
  }).declare {
    key := "Tag"
    specs := [("name", .scalar .text {})] }

def itemTagsPlan : RelationPlan :=
  ⟨"Order", "item_tags", "Tag", .many, .join "_Order_item_tags" .first⟩

def orderItemPlan : RelationPlan :=
  ⟨"Order_item", "tags", "Tag", .many, .join "_Order_item_tags" .first⟩

/-- A tag and an item without tags. -/
def orderCalls : List WriteCall :=
  [.create .reject .null "Tag" (.map [(.text "name", .text "a")]),
    .create .reject .null "Order_item" (.map [])]

/-- An order with the tag, as a tag of its items. -/
def orderCall : WriteCall :=
  .create .reject .null "Order" (.map [(.text "item_tags", .map [
    (.text "connect", .list [.map [(.text "id", .int 1)]])])])

/-- The ids of the tags of the item after calls. -/
def tagsOfItem (calls : List WriteCall) : Except Fault (List Int) :=
  let s := orders.database.result.run calls { supply := blogSupply }
  (orders.database.result.findRelated s.store "Order_item" "tags" 1 {}).map (·.map (·.id))

/-- The facts about orders that are evaluated, in one go. -/
theorem orders_facts :
    orders.database.isOk = true ∧
      (itemTagsPlan ∈ orders.database.result.schema.plans ∧
        orderItemPlan ∈ orders.database.result.schema.plans) ∧
      (Declarations.kinds orders.database.result.schema.lists).relation? "Order" "item_tags" =
        some { mode := .many, list := "Tag" } ∧
      (tagsOfItem orderCalls).toOption = some [] ∧
      (tagsOfItem (orderCalls ++ [orderCall])).toOption = some [1] := by
  decide +kernel

theorem orders_compiles : orders.database.result.Compiles orders :=
  Declarations.Declared.compiles
    (.declare (.declare (.declare (.start _ _ _) (by decide)) (by decide)) (by decide))
    orders_facts.1

theorem orders_unrelated : ¬ (Declarations.kinds orders.database.result.schema.lists).AreSides
    itemTagsPlan orderItemPlan := by
  rintro ⟨r, hr, hlist, -⟩
  obtain rfl := Option.some.inj (orders_facts.2.2.1.symm.trans hr)
  exact absurd hlist (by decide)

/-- Both relations are given the table `_Order_item_tags`. -/
theorem undisturbed_iff_orders :
    itemTagsPlan.place = orderItemPlan.place ∧
      (Declarations.kinds orders.database.result.schema.lists).Confused itemTagsPlan orderItemPlan ∧
      ¬ ∀ (s : Store) (i : Int) (ts : List Int) (o : Int),
        orders.database.result.related (s.connect itemTagsPlan i ts) "Order_item" "tags" o =
          orders.database.result.related s "Order_item" "tags" o := by
  obtain ⟨-, ⟨hp, hq⟩, -⟩ := orders_facts
  have hplace : itemTagsPlan.place = orderItemPlan.place := rfl
  obtain ⟨hsame, hconfused⟩ := orders_compiles.undisturbed_iff hp hq (by decide) orders_unrelated
  exact ⟨hplace, (hconfused.1 hplace).2.2, fun h => hsame.1 h hplace⟩

/-- With the order, the item comes by a tag. -/
theorem tag_of_order :
    tagsOfItem orderCalls = .ok [] ∧ tagsOfItem (orderCalls ++ [orderCall]) = .ok [1] := by
  obtain ⟨-, -, -, hbefore, hafter⟩ := orders_facts
  exact ⟨Except.eq_ok_of_toOption hbefore, Except.eq_ok_of_toOption hafter⟩

end RecordSchema
