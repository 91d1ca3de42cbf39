import RecordSchema.Proofs.Store.Sound
import RecordSchema.Proofs.Store.Statements

/-!
# Links between one and one

A relation between one and one is kept in a key column of one side that
holds no key twice. Connecting through either side runs the same two
statements: the column is emptied wherever it has the key, then written.
So both sides agree on who the partners are, whoever was linked before
is left without a partner, and all other pairs stay.
-/

namespace RecordSchema

/-! ## Statements of links -/

/-- The statements that link a record to one target through a key column. -/
def RelationPlan.connecting (p : RelationPlan) (i t : Int) : List KeyWrite :=
  match p.link with
  | .ownKey column unique =>
    if unique then KeyWrite.moving p.list column unique i t
    else [⟨p.list, column, unique, some t, fun r => r.id == i⟩]
  | .targetKey column unique =>
    match p.mode with
    | .one => KeyWrite.moving p.target column unique t i
    | .many => [⟨p.target, column, unique, some i, fun r => r.id == t⟩]
  | .join _ _ => []

namespace Store

/-- Whether no key column of a relation holds a key twice. -/
def KeyedOnce (s : Store) (p : RelationPlan) : Prop :=
  match p.link with
  | .ownKey column _ => s.HoldsOnce p.list column
  | .targetKey column _ => s.HoldsOnce p.target column
  | .join _ _ => True

/-- How two records become partners: `a` and `t` have each other, whoever was
linked to one of them has nobody, and all others have whom they had. -/
structure Repartners (p q : RelationPlan) (a t : Int) (s s' : Store) : Prop where
  own : s'.linked p a = [t]
  back : s'.linked q t = [a]
  ownLeft : ∀ y ∈ s.linked p a, y ≠ t → s'.linked q y = []
  backLeft : ∀ x ∈ s.linked q t, x ≠ a → s'.linked p x = []
  ownKept : ∀ x ≠ a, ∀ y ≠ t, y ∈ s'.linked p x ↔ y ∈ s.linked p x
  backKept : ∀ y ≠ t, ∀ x ≠ a, x ∈ s'.linked q y ↔ x ∈ s.linked q y

/-- How a record loses its partner: `a` has nobody and nobody has `a`, and all
others have whom they had. -/
structure Unpartners (p q : RelationPlan) (a : Int) (s s' : Store) : Prop where
  own : s'.linked p a = []
  back : ∀ y, a ∉ s'.linked q y
  ownKept : ∀ x ≠ a, ∀ y, y ∈ s'.linked p x ↔ y ∈ s.linked p x
  backKept : ∀ y, ∀ x ≠ a, x ∈ s'.linked q y ↔ x ∈ s.linked q y

theorem Repartners.symm {p q : RelationPlan} {a t : Int} {s s' : Store}
    (h : Repartners p q a t s s') : Repartners q p t a s s' :=
  ⟨h.back, h.own, h.backLeft, h.ownLeft, h.backKept, h.ownKept⟩

end Store

/-! ## The side that owns the key -/

/-- The two sides of a one-to-one relation: the first owns the key column. -/
structure RelationPlan.Owns (p q : RelationPlan) (column : String) : Prop where
  own : p.link = .ownKey column true
  back : q.link = .targetKey column true
  mode : q.mode = .one
  target : q.target = p.list
  ne_id : column ≠ "id"

/-- One of the two sides of a one-to-one relation owns the key column. -/
theorem Database.Compiles.owns {db : Database} {d : Declarations} (h : db.Compiles d)
    {p q : RelationPlan} (hp : p ∈ db.schema.plans) (hq : q ∈ db.schema.plans)
    (hs : (Declarations.kinds db.schema.lists).AreSides p q) (hpone : p.mode = .one)
    (hqone : q.mode = .one) : ∃ column, p.Owns q column ∨ q.Owns p column := by
  have hback := h.planned.areSides_symm hp hq hs
  obtain ⟨r, o, hr, ho, hlist, -, holist, -, htarget, hmode, hqtarget, hqmode, hlink, hqlink⟩ :=
    h.planned.planOf_sides hp hq hs
  have hne : p ≠ q := by
    rintro rfl
    obtain rfl := Option.some.inj (hr.symm.trans ho)
    rw [hmode, RelationField.link_self hlink] at hpone
    cases hpone
  have hmirrors := h.planned.mirrors hp hq hs hne
  cases hpl : p.link with
  | ownKey column unique =>
    rw [hpl] at hlink
    obtain rfl : unique = true :=
      (RelationField.link_ownKey hlink).2.2 ⟨_, _, rfl, hqmode ▸ hqone⟩
    rw [hpl] at hmirrors
    cases hql : q.link <;> rw [hql] at hmirrors <;> cases hmirrors
    exact ⟨column, .inl ⟨hpl, hql, hqone, hqtarget, h.isKey_ne_id ⟨p, hp, rfl, true, hpl⟩⟩⟩
  | targetKey column unique =>
    rw [hpl] at hlink
    obtain rfl : unique = true := (RelationField.link_targetKey hlink).2.2 (hmode ▸ hpone)
    rw [hpl] at hmirrors
    cases hql : q.link <;> rw [hql] at hmirrors <;> cases hmirrors
    exact ⟨column, .inr ⟨hql, hpl, hpone, htarget, h.isKey_ne_id ⟨q, hq, rfl, true, hql⟩⟩⟩
  | join table side =>
    rw [h.planned.mode_of_join hp hpl] at hpone
    cases hpone

namespace RelationPlan.Owns

variable {p q : RelationPlan} {column : String} {s s' : Store} {a t x y : Int}

/-! ## Both sides read one column -/

theorem mem_linked_own (h : p.Owns q column) (hs : s.Keyed) :
    y ∈ s.linked p x ↔ y ∈ s.ids p.target ∧ s.HasKey p.list column x y :=
  Store.mem_linked_ownKey hs h.own

theorem mem_linked_back (h : p.Owns q column) :
    x ∈ s.linked q y ↔ s.HasKey p.list column x y := by
  rw [Store.mem_linked_targetKey h.back, h.target]

theorem connect_own (h : p.Owns q column) (s : Store) (a t : Int) :
    s.connect p a [t] = s.moveKey p.list column a t := by
  simp only [Store.connect, List.getLast?_singleton, h.own, if_true]
  rfl

theorem connect_back (h : p.Owns q column) (s : Store) (a t : Int) :
    s.connect q t [a] = s.moveKey p.list column a t := by
  simp only [Store.connect, List.getLast?_singleton, h.back, h.mode, h.target]
  rfl

theorem keyedOnce_iff (h : p.Owns q column) :
    (s.KeyedOnce p ↔ s.HoldsOnce p.list column) ∧
      (s.KeyedOnce q ↔ s.HoldsOnce p.list column) := by
  simp only [Store.KeyedOnce, h.own, h.back, h.target, and_self]

/-! ## Connecting and disconnecting -/

/-- The record that a key is moved to becomes the partner of the key's record. -/
theorem repartners (h : p.Owns q column) (hs : s.Keyed) (honce : s.HoldsOnce p.list column)
    (ha : a ∈ s.ids p.list) (ht : t ∈ s.ids p.target) :
    Store.Repartners p q a t s (s.moveKey p.list column a t) := by
  have hs' : (s.moveKey p.list column a t).Keyed := fun other => by
    rw [Store.ids_moveKey]
    exact hs other
  have own {x y : Int} : y ∈ (s.moveKey p.list column a t).linked p x ↔
      (x = a ∧ y = t) ∨ (x ≠ a ∧ y ≠ t ∧ y ∈ s.linked p x) := by
    rw [h.mem_linked_own hs', h.mem_linked_own hs, Store.ids_moveKey, Store.hasKey_moveKey h.ne_id]
    constructor
    · rintro ⟨hy, ⟨rfl, rfl, -⟩ | ⟨hx, hne, hkey⟩⟩
      · exact .inl ⟨rfl, rfl⟩
      · exact .inr ⟨hx, hne, hy, hkey⟩
    · rintro (⟨rfl, rfl⟩ | ⟨hx, hne, hy, hkey⟩)
      · exact ⟨ht, .inl ⟨rfl, rfl, ha⟩⟩
      · exact ⟨hy, .inr ⟨hx, hne, hkey⟩⟩
  have back {x y : Int} : x ∈ (s.moveKey p.list column a t).linked q y ↔
      (x = a ∧ y = t) ∨ (x ≠ a ∧ y ≠ t ∧ x ∈ s.linked q y) := by
    rw [h.mem_linked_back, h.mem_linked_back, Store.hasKey_moveKey h.ne_id]
    simp only [ha, and_true]
  exact {
    own := Store.linked_eq_singleton hs' fun y => by simp [own]
    back := Store.linked_eq_singleton hs' fun x => by simp [back]
    ownLeft := fun y hy hne => List.eq_nil_iff_forall_not_mem.2 fun x hx => by
      obtain ⟨-, heq⟩ | ⟨hxa, -, hx⟩ := back.1 hx
      · exact hne heq
      · exact hxa (honce x a y (h.mem_linked_back.1 hx) ((h.mem_linked_own hs).1 hy).2)
    backLeft := fun x hx hne => List.eq_nil_iff_forall_not_mem.2 fun y hy => by
      obtain ⟨heq, -⟩ | ⟨-, hyt, hy⟩ := own.1 hy
      · exact hne heq
      · exact hyt (((h.mem_linked_own hs).1 hy).2.eq hs (h.mem_linked_back.1 hx))
    ownKept := fun x hx y hy => by simp [own, hx, hy]
    backKept := fun y hy x hx => by simp [back, hx, hy] }

/-- When some keys are taken away, the links of these keys are gone on both sides. -/
theorem linked_of_hasKey (h : p.Owns q column) (hs : s.Keyed)
    (hids : ∀ list, s'.ids list = s.ids list) {P : Int → Int → Prop}
    (hkey : ∀ x y, s'.HasKey p.list column x y ↔ s.HasKey p.list column x y ∧ P x y) :
    (∀ x y, y ∈ s'.linked p x ↔ y ∈ s.linked p x ∧ P x y) ∧
      ∀ x y, x ∈ s'.linked q y ↔ x ∈ s.linked q y ∧ P x y := by
  have hs' : s'.Keyed := fun list => by
    rw [hids]
    exact hs list
  refine ⟨fun x y => ?_, fun x y => ?_⟩
  · rw [h.mem_linked_own hs', h.mem_linked_own hs, hkey, hids, and_assoc]
  · rw [h.mem_linked_back, h.mem_linked_back, hkey]

/-- Disconnecting the owner empties its key column. -/
theorem unpartners_own (h : p.Owns q column) (hs : s.Keyed) (a : Int) :
    Store.Unpartners p q a s (s.disconnect p a none) := by
  have hkey (x y : Int) : (s.disconnect p a none).HasKey p.list column x y ↔
      s.HasKey p.list column x y ∧ x ≠ a := by
    simp only [Store.disconnect, Store.unlink, h.own]
    refine Store.hasKey_clearKey h.ne_id fun r hx hcell => ?_
    simp [hx, hcell]
  obtain ⟨own, back⟩ := h.linked_of_hasKey hs (s.ids_disconnect p a none) hkey
  exact {
    own := List.eq_nil_iff_forall_not_mem.2 fun y hy => ((own a y).1 hy).2 rfl
    back := fun y ha => ((back a y).1 ha).2 rfl
    ownKept := fun x hx y => by rw [own, and_iff_left hx]
    backKept := fun y x hx => by rw [back, and_iff_left hx] }

/-- Disconnecting the other side empties the key column where it has its key. -/
theorem unpartners_back (h : p.Owns q column) (hs : s.Keyed) (t : Int) :
    Store.Unpartners q p t s (s.disconnect q t none) := by
  have hkey (x y : Int) : (s.disconnect q t none).HasKey p.list column x y ↔
      s.HasKey p.list column x y ∧ y ≠ t := by
    simp only [Store.disconnect, Store.unlink, h.back, h.target]
    refine Store.hasKey_clearKey h.ne_id fun r _ hcell => ?_
    simp [hcell, Cell.isKey]
  obtain ⟨own, back⟩ := h.linked_of_hasKey hs (s.ids_disconnect q t none) hkey
  exact {
    own := List.eq_nil_iff_forall_not_mem.2 fun x hx => ((back x t).1 hx).2 rfl
    back := fun x ht => ((own x t).1 ht).2 rfl
    ownKept := fun y hy x => by rw [back, and_iff_left hy]
    backKept := fun x y hy => by rw [own, and_iff_left hy] }

end RelationPlan.Owns

/-- In a sound store the key column of a relation between one and one is as
connecting finds it and leaves it. -/
theorem Database.Sound.keyedOnce {db : Database} {d : Declarations} {s : Store} (hs : db.Sound s)
    (h : db.Compiles d) {p q : RelationPlan} (hp : p ∈ db.schema.plans) (hq : q ∈ db.schema.plans)
    (hsides : (Declarations.kinds db.schema.lists).AreSides p q) (hpone : p.mode = .one)
    (hqone : q.mode = .one) : s.KeyedOnce p := by
  obtain ⟨column, howns | howns⟩ := h.owns hp hq hsides hpone hqone
  · exact howns.keyedOnce_iff.1.2 (hs.once p hp column howns.own)
  · exact howns.keyedOnce_iff.2.2 (hs.once q hq column howns.own)

/-- Connecting two records through either side of a relation between one and one
is never refused, makes the two partners and leaves all other pairs; and
disconnecting a record through either side leaves it without a partner. -/
theorem Database.Compiles.connect_repartners {db : Database} {d : Declarations}
    (h : db.Compiles d) {p q : RelationPlan} (hp : p ∈ db.schema.plans) (hq : q ∈ db.schema.plans)
    (hsides : (Declarations.kinds db.schema.lists).AreSides p q) (hpone : p.mode = .one)
    (hqone : q.mode = .one) {s : Store} (hs : s.Keyed) (honce : s.KeyedOnce p) {a t : Int}
    (ha : a ∈ s.ids p.list) (ht : t ∈ s.ids p.target) :
    KeyWrite.runAll (p.connecting a t) s = .ok (s.connect p a [t]) ∧
      Store.Repartners p q a t s (s.connect p a [t]) ∧ (s.connect p a [t]).KeyedOnce p ∧
      Store.Unpartners p q a s (s.disconnect p a none) := by
  obtain ⟨column, howns | howns⟩ := h.owns hp hq hsides hpone hqone
  · have honce' := howns.keyedOnce_iff.1.1 honce
    rw [howns.connect_own]
    refine ⟨?_, howns.repartners hs honce' ha ht, ?_, howns.unpartners_own hs a⟩
    · simp only [RelationPlan.connecting, howns.own, if_true]
      exact KeyWrite.runAll_moving hs howns.ne_id true a t
    · exact howns.keyedOnce_iff.1.2 (honce'.moveKey howns.ne_id a t)
  · have honce' := howns.keyedOnce_iff.2.1 honce
    have htarget := howns.target
    rw [howns.connect_back]
    refine ⟨?_, ?_, ?_, howns.unpartners_back hs a⟩
    · simp only [RelationPlan.connecting, howns.back, hpone, htarget]
      exact KeyWrite.runAll_moving hs howns.ne_id true t a
    · refine (howns.repartners hs honce' (htarget ▸ ht) ?_).symm
      rwa [h.planned.target_eq hq hp (h.planned.areSides_symm hp hq hsides)]
    · exact howns.keyedOnce_iff.2.2 (honce'.moveKey howns.ne_id t a)

/-! ## Passports and their owners -/

/-- A schema of users with one passport each. -/
def passports : Declarations :=
  (({} : Declarations).declare {
    key := "User"
    specs := [("passport", .relationship { ref := "Passport.owner", foreignKey := some {} })]
  }).declare {
    key := "Passport"
    specs := [("owner", .relationship { ref := "User.passport" })] }

theorem passports_compiles : passports.database.result.Compiles passports :=
  Declarations.Declared.compiles (.declare (.declare (.start _ _ _) (by decide)) (by decide))
    (by decide +kernel)

def passportPlan : RelationPlan :=
  ⟨"User", "passport", "Passport", .one, .ownKey "passport_id" true⟩

def ownerPlan : RelationPlan :=
  ⟨"Passport", "owner", "User", .one, .targetKey "passport_id" true⟩

/-- Two users, each with a passport. -/
def passportStore : Store where
  tables := [
    ("User", [⟨1, [("passport_id", .int 1)]⟩, ⟨2, [("passport_id", .int 2)]⟩]),
    ("Passport", [⟨1, []⟩, ⟨2, []⟩])]

/-- The facts about passports that are evaluated, in one go. -/
theorem passports_facts :
    passportPlan ∈ passports.database.result.schema.plans ∧
      ownerPlan ∈ passports.database.result.schema.plans ∧
      (Declarations.kinds passports.database.result.schema.lists).relation? "User" "passport" =
        some { mode := .one, list := "Passport", field := some "owner", foreignKey := some {} } := by
  decide +kernel

/-- The first user takes over the passport of the second one. -/
theorem connect_repartners_passports :
    KeyWrite.runAll (passportPlan.connecting 1 2) passportStore =
        .ok (passportStore.connect passportPlan 1 [2]) ∧
      Store.Repartners passportPlan ownerPlan 1 2 passportStore
        (passportStore.connect passportPlan 1 [2]) := by
  obtain ⟨hp, hq, hrelation⟩ := passports_facts
  have hsides : (Declarations.kinds passports.database.result.schema.lists).AreSides
      passportPlan ownerPlan := ⟨_, hrelation, rfl, rfl⟩
  have huser : 1 ∈ passportStore.ids passportPlan.list := by decide
  have hpassport : 2 ∈ passportStore.ids passportPlan.target := by decide
  have honce : passportStore.KeyedOnce passportPlan := by
    rintro x x' y ⟨r, hr, rfl, hcell⟩ ⟨r', hr', rfl, hcell'⟩
    have hkey : ∀ o ∈ passportStore.rows "User", o.cell "passport_id" = .int o.id :=
      List.forall_mem_cons.2 ⟨rfl, List.forall_mem_singleton.2 rfl⟩
    rw [hkey r hr] at hcell
    rw [hkey r' hr'] at hcell'
    exact Cell.int.inj (hcell.trans hcell'.symm)
  obtain ⟨hrun, hpartners, -, -⟩ := passports_compiles.connect_repartners hp hq hsides rfl rfl
    (.of_tables (by decide)) honce huser hpassport
  exact ⟨hrun, hpartners⟩

end RecordSchema
