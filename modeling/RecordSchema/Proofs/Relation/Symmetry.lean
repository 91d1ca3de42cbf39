import RecordSchema.Proofs.Request.Runs

/-!
# Reading a relation from both ends

The two sides of a relation read the same links, so a record yields
another one through its side just when it is yielded through the other
(`Database.ReadsBack`). A relation between many and many may also name
itself as its other side. Then there is one plan and one column to read
from, so a link leads from the record that was connected to its target
and not back: reading from both ends agrees only as long as every link
is made from both ends.
-/

namespace RecordSchema

/-- Whether a relation yields a record for an owner. -/
def Database.Finds (db : Database) (s : Store) (p : RelationPlan) (a b : Int) : Prop :=
  ∃ rows, db.findRelated s p.list p.field a {} = .ok rows ∧ b ∈ rows.map (·.id)

/-- Whether a relation yields the same links from both ends. -/
def Database.ReadsBack (db : Database) (s : Store) (p q : RelationPlan) : Prop :=
  ∀ a ∈ s.ids p.list, ∀ b ∈ s.ids q.list, db.Finds s p a b ↔ db.Finds s q b a

/-! ## Join tables from one side -/

namespace Store

variable {s : Store} {p : RelationPlan} {table : String} {side : JoinSide} {a o x : Int}

theorem mem_linked_connect_join (hlink : p.link = .join table side) (ts : List Int) :
    x ∈ (s.connect p a ts).linked p o ↔
      x ∈ s.linked p o ∨ (o = a ∧ x ∈ ts ∧ x ∈ s.ids p.target) := by
  rw [mem_linked_join hlink, mem_linked_join hlink, ids_connect, pairs_connect hlink, if_pos rfl,
    mem_addPairs]
  constructor
  · rintro ⟨hids, hpair | ⟨t, ht, hpair⟩⟩
    · exact .inl ⟨hids, hpair⟩
    · obtain ⟨rfl, rfl⟩ := JoinSide.pair_inj hpair
      exact .inr ⟨rfl, ht, hids⟩
  · rintro (⟨hids, hpair⟩ | ⟨rfl, ht, hids⟩)
    · exact ⟨hids, .inl hpair⟩
    · exact ⟨hids, .inr ⟨x, ht, rfl⟩⟩

theorem mem_linked_disconnect_join (hlink : p.link = .join table side) (ts : List Int) :
    x ∈ (s.disconnect p a (some ts)).linked p o ↔ x ∈ s.linked p o ∧ ¬ (o = a ∧ x ∈ ts) := by
  have hpairs : (s.disconnect p a (some ts)).pairs table =
      (s.pairs table).filter fun y => !isPairOf side a (fun t => ts.contains t) y := by
    simp only [disconnect, unlink, hlink, Option.all_some, pairs_setPairs, if_true]
  rw [mem_linked_join hlink, mem_linked_join hlink, ids_disconnect, hpairs, List.mem_filter,
    and_assoc, Bool.not_eq_true', ← Bool.not_eq_true, isPairOf_iff]
  refine and_congr_right fun _ => and_congr_right fun _ => not_congr ⟨?_, ?_⟩
  · rintro ⟨t, hpair, ht⟩
    obtain ⟨rfl, rfl⟩ := JoinSide.pair_inj hpair
    exact ⟨rfl, List.contains_iff_mem.1 ht⟩
  · rintro ⟨rfl, ht⟩
    exact ⟨x, rfl, List.contains_iff_mem.2 ht⟩

end Store

/-- A relation that is its own other side reads its links from the first column. -/
theorem Relations.Planned.self_link {rs : Relations} {ps : List RelationPlan} (h : rs.Planned ps)
    {p : RelationPlan} (hp : p ∈ ps) (hs : rs.AreSides p p) :
    p.target = p.list ∧ ∃ table, p.link = .join table .first := by
  obtain ⟨r, o, hr, ho, hlist, -, -, -, htarget, -, -, -, hlink, -⟩ := h.planOf_sides hp hp hs
  obtain rfl := Option.some.inj (hr.symm.trans ho)
  have hmany := RelationField.link_self hlink
  simp only [RelationField.link, hmany] at hlink
  obtain ⟨-, heq⟩ := (RelationField.planMany_many hmany).1 hlink
  have hfirst : pathBefore (p.list, p.field) (r.list, p.field) = true := by
    simp [pathBefore, hlist]
  rw [if_pos hfirst, if_pos hfirst] at heq
  exact ⟨htarget, _, heq⟩

namespace Database.Compiles

variable {db : Database} {d : Declarations} {p q : RelationPlan} {s : Store} {a b : Int}

theorem finds_iff (h : db.Compiles d) (hp : p ∈ db.schema.plans) :
    db.Finds s p a b ↔ b ∈ s.linked p a := by
  obtain ⟨rows, hrows, hperm⟩ := findRelated_all (h.plan_eq_ok hp) s a
  rw [← hperm.mem_iff]
  constructor
  · rintro ⟨rows', hrows', hb⟩
    obtain rfl := Except.ok.inj (hrows.symm.trans hrows')
    exact hb
  · intro hb
    exact ⟨rows, hrows, hb⟩

/-! ## Two sides -/

/-- The two sides of a relation read the same links. -/
theorem readsBack_sides (h : db.Compiles d) (hp : p ∈ db.schema.plans)
    (hq : q ∈ db.schema.plans) (hsides : (Declarations.kinds db.schema.lists).AreSides p q)
    (hne : p ≠ q) (hs : s.Keyed) : db.ReadsBack s p q := by
  have hback := h.planned.areSides_symm hp hq hsides
  have htarget := h.planned.target_eq hp hq hsides
  have hqtarget := h.planned.target_eq hq hp hback
  intro a ha b hb
  rw [h.finds_iff hp, h.finds_iff hq]
  cases hplink : p.link with
  | ownKey column unique =>
    have hmirrors := h.planned.mirrors hp hq hsides hne
    rw [hplink] at hmirrors
    cases hqlink : q.link <;> rw [hqlink] at hmirrors <;> cases hmirrors
    rw [Store.mem_linked_ownKey hs hplink, Store.mem_linked_targetKey hqlink, htarget, hqtarget]
    exact and_iff_right hb
  | targetKey column unique =>
    have hmirrors := h.planned.mirrors hp hq hsides hne
    rw [hplink] at hmirrors
    cases hqlink : q.link <;> rw [hqlink] at hmirrors <;> cases hmirrors
    rw [Store.mem_linked_targetKey hplink, Store.mem_linked_ownKey hs hqlink, htarget, hqtarget]
    exact (and_iff_right ha).symm
  | join table side =>
    have hmirrors := h.planned.mirrors hp hq hsides hne
    rw [hplink] at hmirrors
    cases hqlink : q.link <;> rw [hqlink] at hmirrors <;> cases hmirrors
    rw [Store.mem_linked_join hplink, Store.mem_linked_join hqlink, htarget, hqtarget,
      JoinSide.pair_other, and_iff_right ha, and_iff_right hb]

/-! ## One side -/

/-- Connecting a record to others through a relation that is its own other side
leaves reading from both ends as it is only where nothing is connected anew. -/
theorem readsBack_connect_iff (h : db.Compiles d) (hp : p ∈ db.schema.plans)
    (htarget : p.target = p.list) {table : String} {side : JoinSide}
    (hlink : p.link = .join table side) (hs : db.ReadsBack s p p) (ha : a ∈ s.ids p.list)
    (ts : List Int) :
    db.ReadsBack (s.connect p a ts) p p ↔
      ∀ t ∈ ts, t ∈ s.ids p.list → t ≠ a → db.Finds s p a t := by
  have hfinds {x y : Int} (hy : y ∈ s.ids p.list) :
      db.Finds (s.connect p a ts) p x y ↔ db.Finds s p x y ∨ (x = a ∧ y ∈ ts) := by
    rw [h.finds_iff hp, h.finds_iff hp, Store.mem_linked_connect_join hlink, htarget,
      and_iff_left hy]
  simp only [ReadsBack, Store.ids_connect]
  constructor
  · intro hback t ht hids hne
    have hto := (hfinds hids).2 (.inr ⟨rfl, ht⟩)
    have hfrom := (hfinds ha).1 ((hback a ha t hids).1 hto)
    rcases hfrom with hfrom | ⟨heq, -⟩
    · exact (hs a ha t hids).2 hfrom
    · exact absurd heq hne
  · intro hold x hx y hy
    have hone {x y : Int} (hx : x ∈ s.ids p.list) (hy : y ∈ s.ids p.list)
        (hxy : db.Finds s p x y ∨ (x = a ∧ y ∈ ts)) : db.Finds s p y x ∨ (y = a ∧ x ∈ ts) := by
      rcases hxy with hxy | ⟨rfl, ht⟩
      · exact .inl ((hs x hx y hy).1 hxy)
      · by_cases hyx : y = x
        · subst hyx
          exact .inr ⟨rfl, ht⟩
        · exact .inl ((hs x hx y hy).1 (hold y ht hy hyx))
    rw [hfinds hy, hfinds hx]
    exact ⟨hone hx hy, hone hy hx⟩

/-- Disconnecting records through a relation that is its own other side leaves
reading from both ends as it is only where nothing was connected. -/
theorem readsBack_disconnect_iff (h : db.Compiles d) (hp : p ∈ db.schema.plans)
    {table : String} {side : JoinSide} (hlink : p.link = .join table side)
    (hs : db.ReadsBack s p p) (ha : a ∈ s.ids p.list) (ts : List Int) :
    db.ReadsBack (s.disconnect p a (some ts)) p p ↔
      ∀ t ∈ ts, t ∈ s.ids p.list → t ≠ a → ¬ db.Finds s p a t := by
  have hfinds {x y : Int} : db.Finds (s.disconnect p a (some ts)) p x y ↔
      db.Finds s p x y ∧ ¬ (x = a ∧ y ∈ ts) := by
    rw [h.finds_iff hp, h.finds_iff hp, Store.mem_linked_disconnect_join hlink]
  simp only [ReadsBack, Store.ids_disconnect]
  constructor
  · intro hback t ht hids hne hfound
    have hfrom : db.Finds (s.disconnect p a (some ts)) p t a :=
      hfinds.2 ⟨(hs a ha t hids).1 hfound, fun heq => hne heq.1⟩
    exact (hfinds.1 ((hback a ha t hids).2 hfrom)).2 ⟨rfl, ht⟩
  · intro hnone x hx y hy
    have hone {x y : Int} (hx : x ∈ s.ids p.list) (hy : y ∈ s.ids p.list)
        (hxy : db.Finds s p x y ∧ ¬ (x = a ∧ y ∈ ts)) :
        db.Finds s p y x ∧ ¬ (y = a ∧ x ∈ ts) := by
      obtain ⟨hfound, hnot⟩ := hxy
      have hfrom := (hs x hx y hy).1 hfound
      refine ⟨hfrom, ?_⟩
      rintro ⟨rfl, ht⟩
      have hne : x ≠ y := by
        rintro rfl
        exact hnot ⟨rfl, ht⟩
      exact hnone x ht hx hne hfrom
    rw [hfinds, hfinds]
    exact ⟨hone hx hy, hone hy hx⟩

/-- A relation of two fields reads the same links from both ends in every store.
A relation of one field reads the pairs of a table from their first end, so
that reading from both ends agrees as long as the pairs do, and every link
that is made or removed from one end ends it. -/
theorem readsBack_iff (h : db.Compiles d) (hp : p ∈ db.schema.plans) (hq : q ∈ db.schema.plans)
    (hsides : (Declarations.kinds db.schema.lists).AreSides p q) :
    (p ≠ q → ∀ s : Store, s.Keyed → db.ReadsBack s p q) ∧
    (p = q → ∃ table,
      (∀ (s : Store) (a b : Int),
        db.Finds s p a b ↔ b ∈ s.ids p.list ∧ (a, b) ∈ s.pairs table) ∧
      ∀ s : Store, db.ReadsBack s p p → ∀ a ∈ s.ids p.list, ∀ ts : List Int,
        (db.ReadsBack (s.connect p a ts) p p ↔
          ∀ t ∈ ts, t ∈ s.ids p.list → t ≠ a → db.Finds s p a t) ∧
        (db.ReadsBack (s.disconnect p a (some ts)) p p ↔
          ∀ t ∈ ts, t ∈ s.ids p.list → t ≠ a → ¬ db.Finds s p a t)) := by
  refine ⟨fun hne s hs => h.readsBack_sides hp hq hsides hne hs, ?_⟩
  rintro rfl
  obtain ⟨htarget, table, hlink⟩ := h.planned.self_link hp hsides
  refine ⟨table, fun s a b => ?_, fun s hs a ha ts => ⟨?_, ?_⟩⟩
  · rw [h.finds_iff hp, Store.mem_linked_join hlink, htarget]
    rfl
  · exact h.readsBack_connect_iff hp htarget hlink hs ha ts
  · exact h.readsBack_disconnect_iff hp hlink hs ha ts

end Database.Compiles

/-! ## Friends, parents and children -/

/-- A schema of people whose friends are their own other side. -/
def people : Declarations :=
  ({} : Declarations).declare {
    key := "Person"
    specs := [
      ("friends", .relationship { ref := "Person.friends", many := true }),
      ("parents", .relationship { ref := "Person.children", many := true }),
      ("children", .relationship { ref := "Person.parents", many := true })] }

def personFriends : RelationPlan :=
  ⟨"Person", "friends", "Person", .many, .join "_Person_friends" .first⟩

def personParents : RelationPlan :=
  ⟨"Person", "parents", "Person", .many, .join "_Person_children" .second⟩

def personChildren : RelationPlan :=
  ⟨"Person", "children", "Person", .many, .join "_Person_children" .first⟩

/-- A person, and another one who is connected to the first as a friend. -/
def peopleCalls : List WriteCall :=
  [.create .reject .null "Person" (.map []),
    .create .reject .null "Person" (.map [(.text "friends", .map [
      (.text "connect", .list [.map [(.text "id", .int 1)]])])])]

/-- The ids of the friends of a person. -/
def friendsOf (id : Int) : Except Fault (List Int) :=
  let s := people.database.result.run peopleCalls { supply := blogSupply }
  (people.database.result.findRelated s.store "Person" "friends" id {}).map (·.map (·.id))

/-- The facts about people that are evaluated, in one go. -/
theorem people_facts :
    people.database.isOk = true ∧
      (personFriends ∈ people.database.result.schema.plans ∧
        personParents ∈ people.database.result.schema.plans ∧
        personChildren ∈ people.database.result.schema.plans) ∧
      ((Declarations.kinds people.database.result.schema.lists).relation? "Person" "friends" =
          some { mode := .many, list := "Person", field := some "friends" } ∧
        (Declarations.kinds people.database.result.schema.lists).relation? "Person" "parents" =
          some { mode := .many, list := "Person", field := some "children" }) ∧
      (friendsOf 2).toOption = some [1] ∧ (friendsOf 1).toOption = some [] := by
  decide +kernel

theorem people_compiles : people.database.result.Compiles people :=
  Declarations.Declared.compiles (.declare (.start _ _ _) (by decide)) people_facts.1

/-- Parents and children agree; friends disagree once the second person is
connected to the first. -/
theorem readsBack_iff_people :
    (∀ s : Store, s.Keyed → people.database.result.ReadsBack s personParents personChildren) ∧
      ∀ s : Store, people.database.result.ReadsBack s personFriends personFriends →
        1 ∈ s.ids "Person" → 2 ∈ s.ids "Person" →
        (people.database.result.ReadsBack (s.connect personFriends 2 [1]) personFriends
            personFriends ↔
          people.database.result.Finds s personFriends 2 1) := by
  obtain ⟨-, ⟨hfriends, hparents, hchildren⟩, ⟨hself, hother⟩, -⟩ := people_facts
  have htwo := (people_compiles.readsBack_iff hparents hchildren ⟨_, hother, rfl, rfl⟩).1
  obtain ⟨table, -, hone⟩ :=
    (people_compiles.readsBack_iff hfriends hfriends ⟨_, hself, rfl, rfl⟩).2 rfl
  refine ⟨htwo (by decide), fun s hs hfirst hsecond => ?_⟩
  rw [(hone s hs 2 hsecond [1]).1, List.forall_mem_singleton]
  simp [personFriends, hfirst]

/-- The first person is a friend of the second, who is no friend of the first. -/
theorem friend_of_friend : friendsOf 2 = .ok [1] ∧ friendsOf 1 = .ok [] := by
  obtain ⟨-, -, -, htwo, hone⟩ := people_facts
  exact ⟨Except.eq_ok_of_toOption htwo, Except.eq_ok_of_toOption hone⟩

end RecordSchema
