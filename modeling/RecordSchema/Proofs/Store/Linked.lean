import RecordSchema.Proofs.Store.Columns
import RecordSchema.Proofs.Store.Keys

/-!
# Linked records

`Store.linked` lists the ids of the records that a relation links an
owner to. The lemmas say what connecting and disconnecting do to it,
first for key columns and join tables apart and then for relations to
many at large. No link write adds or removes a row, or touches anything
but key columns and join tables.
-/

namespace RecordSchema

/-! ## Pairs of join tables -/

/-- The pair of an owner and a target, with the owner at a side. -/
def JoinSide.pair (side : JoinSide) (owner target : Int) : Int × Int :=
  match side with
  | .first => (owner, target)
  | .second => (target, owner)

theorem JoinSide.pair_inj {side : JoinSide} {o o' t t' : Int}
    (h : side.pair o t = side.pair o' t') : o = o' ∧ t = t' := by
  cases side <;> cases h <;> exact ⟨rfl, rfl⟩

@[simp] theorem JoinSide.pair_other (side : JoinSide) (o t : Int) :
    side.other.pair o t = side.pair t o := by
  cases side <;> rfl

namespace Store

theorem eraseDups_nodup (n : Nat) (ts : List Int) (h : ts.length ≤ n) : ts.eraseDups.Nodup := by
  -- On the length: what is erased from is not the tail but a part of it.
  induction n generalizing ts with
  | zero =>
    rw [List.length_eq_zero_iff.1 (Nat.le_zero.1 h)]
    exact List.nodup_nil
  | succ n ih =>
    cases ts with
    | nil => exact List.nodup_nil
    | cons t r =>
      have hshorter : (r.filter fun b => !b == t).length ≤ n := by
        have hfilter := List.length_filter_le (fun b => !b == t) r
        rw [List.length_cons] at h
        omega
      rw [List.eraseDups_cons, List.nodup_cons]
      refine ⟨?_, ih _ hshorter⟩
      rw [List.mem_eraseDups, List.mem_filter]
      simp

theorem mem_linksFrom {s : Store} {table : String} {side : JoinSide} {o t : Int} :
    (o, t) ∈ s.linksFrom table side ↔ side.pair o t ∈ s.pairs table := by
  cases side with
  | first => rfl
  | second =>
    simp only [linksFrom, JoinSide.pair, List.mem_map]
    constructor
    · rintro ⟨⟨a, b⟩, hmem, ⟨⟩⟩
      exact hmem
    · intro hmem
      exact ⟨_, hmem, rfl⟩

theorem addPairs_eq (pairs : List (Int × Int)) (side : JoinSide) (owner : Int) (ts : List Int) :
    addPairs pairs side owner ts =
      pairs ++ (ts.eraseDups.map (side.pair owner)).filter fun p => !pairs.contains p := by
  cases side <;> rfl

theorem mem_addPairs {pairs : List (Int × Int)} {side : JoinSide} {owner : Int} {ts : List Int}
    {x : Int × Int} : x ∈ addPairs pairs side owner ts ↔ x ∈ pairs ∨ ∃ t ∈ ts, side.pair owner t = x := by
  rw [addPairs_eq, List.mem_append, List.mem_filter, List.mem_map]
  simp only [List.mem_eraseDups, Bool.not_eq_true', List.contains_eq_mem, decide_eq_false_iff_not]
  constructor
  · rintro (h | ⟨h, -⟩)
    · exact .inl h
    · exact .inr h
  · rintro (h | h)
    · exact .inl h
    · by_cases hx : x ∈ pairs
      · exact .inl hx
      · exact .inr ⟨h, hx⟩

/-- A pair is added once, and only when it is not there. -/
theorem addPairs_nodup {pairs : List (Int × Int)} (h : pairs.Nodup) (side : JoinSide) (owner : Int)
    (ts : List Int) : (addPairs pairs side owner ts).Nodup := by
  rw [addPairs_eq, List.nodup_append]
  refine ⟨h, ?_, ?_⟩
  · refine List.Nodup.filter _ ((eraseDups_nodup _ ts le_rfl).map fun t t' heq => ?_)
    exact (JoinSide.pair_inj heq).2
  · rintro x hx y hy rfl
    simp [hx] at hy

theorem isPairOf_iff {side : JoinSide} {owner : Int} {among : Int → Bool} {x : Int × Int} :
    isPairOf side owner among x = true ↔ ∃ t, side.pair owner t = x ∧ among t = true := by
  obtain ⟨a, b⟩ := x
  cases side <;> simp only [isPairOf, JoinSide.pair, Bool.and_eq_true, beq_iff_eq, Prod.mk.injEq]
  · constructor
    · rintro ⟨rfl, hb⟩
      exact ⟨b, ⟨rfl, rfl⟩, hb⟩
    · rintro ⟨t, ⟨rfl, rfl⟩, ht⟩
      exact ⟨rfl, ht⟩
  · constructor
    · rintro ⟨rfl, ha⟩
      exact ⟨a, ⟨rfl, rfl⟩, ha⟩
    · rintro ⟨t, ⟨rfl, rfl⟩, ht⟩
      exact ⟨rfl, ht⟩

/-! ## Linked ids -/

/-- The ids of the records that a relation links an owner to. -/
def linked (s : Store) (p : RelationPlan) (owner : Int) : List Int :=
  ((s.rows p.target).filter (s.isReached p owner)).map (·.id)

variable {s : Store} {p : RelationPlan} {column table : String} {unique : Bool} {side : JoinSide}
  {o t : Int}

theorem mem_linked :
    t ∈ s.linked p o ↔ ∃ r ∈ s.rows p.target, r.id = t ∧ s.isReached p o r = true := by
  simp only [linked, List.mem_map, List.mem_filter, and_assoc]
  constructor
  · rintro ⟨r, hr, hreached, hid⟩
    exact ⟨r, hr, hid, hreached⟩
  · rintro ⟨r, hr, hid, hreached⟩
    exact ⟨r, hr, hreached, hid⟩

theorem linked_sublist (s : Store) (p : RelationPlan) (o : Int) :
    (s.linked p o).Sublist (s.ids p.target) :=
  List.filter_sublist.map _

theorem linked_nodup (hs : s.Keyed) (p : RelationPlan) (o : Int) : (s.linked p o).Nodup :=
  (hs p.target).sublist (s.linked_sublist p o)

theorem linked_eq_singleton (hs : s.Keyed) (h : ∀ x, x ∈ s.linked p o ↔ x = t) :
    s.linked p o = [t] := by
  refine List.perm_singleton.1 ?_
  refine (List.perm_ext_iff_of_nodup (linked_nodup hs p o) (List.nodup_singleton t)).2 fun x => ?_
  rw [h, List.mem_singleton]

theorem mem_linked_ownKey (hs : s.Keyed) (hlink : p.link = .ownKey column unique) :
    t ∈ s.linked p o ↔ t ∈ s.ids p.target ∧ s.HasKey p.list column o t := by
  rw [mem_linked]
  constructor
  · rintro ⟨r, hr, rfl, hreached⟩
    refine ⟨mem_ids.2 ⟨r, hr, rfl⟩, ?_⟩
    simp only [isReached, hlink] at hreached
    split at hreached
    · next own hown =>
      obtain ⟨hmem, hid⟩ := row?_mem hown
      exact ⟨own, hmem, hid, Cell.isKey_iff.1 hreached⟩
    · cases hreached
  · rintro ⟨hids, own, hown, rfl, hcell⟩
    obtain ⟨r, hr, rfl⟩ := mem_ids.1 hids
    refine ⟨r, hr, rfl, ?_⟩
    simp only [isReached, hlink, row?_eq_some hs hown]
    exact Cell.isKey_iff.2 hcell

theorem mem_linked_targetKey (hlink : p.link = .targetKey column unique) :
    t ∈ s.linked p o ↔ s.HasKey p.target column t o := by
  simp only [mem_linked, isReached, hlink, Cell.isKey_iff]
  exact Iff.rfl

theorem mem_linked_join (hlink : p.link = .join table side) :
    t ∈ s.linked p o ↔ t ∈ s.ids p.target ∧ side.pair o t ∈ s.pairs table := by
  simp only [mem_linked, isReached, hlink, List.contains_eq_mem, decide_eq_true_eq, mem_linksFrom]
  constructor
  · rintro ⟨r, hr, rfl, hpair⟩
    exact ⟨mem_ids.2 ⟨r, hr, rfl⟩, hpair⟩
  · rintro ⟨hids, hpair⟩
    obtain ⟨r, hr, rfl⟩ := mem_ids.1 hids
    exact ⟨r, hr, rfl, hpair⟩

/-! ## Rows stay -/

theorem ids_connect (s : Store) (p : RelationPlan) (i : Int) (ts : List Int) (list : String) :
    (s.connect p i ts).ids list = s.ids list := by
  unfold connect
  split
  · rfl
  · split
    · dsimp only
      split
      · rw [ids_writeKey, ids_clearKey]
      · rw [ids_writeKey]
    · split
      · rw [ids_writeKey, ids_clearKey]
      · rw [ids_writeKey]
    · rfl

theorem ids_unlink (s : Store) (p : RelationPlan) (i : Int) (among : Int → Bool) (list : String) :
    (s.unlink p i among).ids list = s.ids list := by
  unfold unlink
  split
  · exact ids_clearKey ..
  · exact ids_clearKey ..
  · rfl

theorem ids_disconnect (s : Store) (p : RelationPlan) (i : Int) (ts : Option (List Int))
    (list : String) : (s.disconnect p i ts).ids list = s.ids list :=
  ids_unlink ..

theorem ids_setRelated (s : Store) (p : RelationPlan) (i : Int) (ts : List Int) (list : String) :
    (s.setRelated p i ts).ids list = s.ids list := by
  rw [setRelated, ids_connect, ids_disconnect]

end Store

/-! ## Relations to many -/

/-- A plan that keeps links to many records, in a key column of the target or in
a join table. -/
inductive RelationPlan.ToMany (p : RelationPlan) : Prop where
  | targetKey {column : String} {unique : Bool} (mode : p.mode = .many)
    (link : p.link = .targetKey column unique) (ne_id : column ≠ "id")
  | join {table : String} {side : JoinSide} (link : p.link = .join table side)

theorem Database.Compiles.toMany {db : Database} {d : Declarations} (h : db.Compiles d)
    {p : RelationPlan} (hp : p ∈ db.schema.plans) (hmode : p.mode = .many) : p.ToMany := by
  cases hlink : p.link with
  | ownKey column unique =>
    rw [h.planned.mode_of_ownKey hp hlink] at hmode
    cases hmode
  | targetKey column unique =>
    obtain ⟨q, hq, -, hqlink, -⟩ := h.planned.exists_owner hp hlink
    exact .targetKey hmode hlink (h.isKey_ne_id ⟨q, hq, rfl, unique, hqlink⟩)
  | join table side => exact .join hlink

namespace Store

variable {s : Store} {p : RelationPlan} {i o t : Int} {ts : List Int}

theorem pairs_connect {table : String} {side : JoinSide} (hlink : p.link = .join table side)
    (s : Store) (i : Int) (ts : List Int) (other : String) :
    (s.connect p i ts).pairs other =
      if other = table then addPairs (s.pairs table) side i ts else s.pairs other := by
  unfold connect
  split
  · next hnone =>
    rw [List.getLast?_eq_none_iff] at hnone
    subst hnone
    split
    · next heq => simp [addPairs, heq]
    · rfl
  · rw [hlink]
    exact pairs_setPairs ..

/-- Connecting adds the targets that exist. -/
theorem mem_linked_connect (hp : p.ToMany) :
    t ∈ (s.connect p i ts).linked p i ↔ t ∈ s.linked p i ∨ (t ∈ ts ∧ t ∈ s.ids p.target) := by
  unfold connect
  split
  · next hnone =>
    rw [List.getLast?_eq_none_iff] at hnone
    simp [hnone]
  · cases hp with
    | targetKey hmode hlink hid =>
      rw [hlink, hmode]
      dsimp only
      rw [mem_linked_targetKey hlink, mem_linked_targetKey hlink,
        hasKey_writeKey hid fun r hx => by rw [List.contains_iff_mem, hx]]
      constructor
      · rintro (⟨ht, -, hids⟩ | ⟨-, hkey⟩)
        · exact .inr ⟨ht, hids⟩
        · exact .inl hkey
      · intro h
        by_cases ht : t ∈ ts
        · exact .inl ⟨ht, rfl, h.elim HasKey.mem_ids And.right⟩
        · exact .inr ⟨ht, h.resolve_right fun h => ht h.1⟩
    | join hlink =>
      rw [hlink]
      dsimp only
      rw [mem_linked_join hlink, mem_linked_join hlink, pairs_setPairs, if_pos rfl, ids_setPairs,
        mem_addPairs]
      constructor
      · rintro ⟨hids, hpair | ⟨t', ht', hpair⟩⟩
        · exact .inl ⟨hids, hpair⟩
        · obtain ⟨-, rfl⟩ := JoinSide.pair_inj hpair
          exact .inr ⟨ht', hids⟩
      · rintro (⟨hids, hpair⟩ | ⟨ht, hids⟩)
        · exact ⟨hids, .inl hpair⟩
        · exact ⟨hids, .inr ⟨t, ht, rfl⟩⟩

/-- Removing links to certain targets leaves the others. -/
theorem mem_linked_unlink (hp : p.ToMany) {among : Int → Bool} :
    t ∈ (s.unlink p i among).linked p i ↔ t ∈ s.linked p i ∧ among t = false := by
  cases hp with
  | targetKey _ hlink hid =>
    rw [unlink, hlink]
    dsimp only
    rw [mem_linked_targetKey hlink, mem_linked_targetKey hlink,
      hasKey_clearKey hid fun r hx hcell => by
        rw [Bool.and_eq_true, Cell.isKey_iff, and_iff_right hcell, hx], Bool.not_eq_true]
  | @join table side hlink =>
    rw [unlink, hlink]
    dsimp only
    rw [mem_linked_join hlink, mem_linked_join hlink, pairs_setPairs, if_pos rfl, ids_setPairs,
      List.mem_filter, and_assoc]
    refine and_congr_right fun _ => and_congr_right fun _ => ?_
    rw [Bool.not_eq_true', ← Bool.not_eq_true, isPairOf_iff, ← Bool.not_eq_true]
    refine not_congr ⟨?_, fun h => ⟨t, rfl, h⟩⟩
    rintro ⟨t', hpair, hamong⟩
    exact (JoinSide.pair_inj hpair).2 ▸ hamong

theorem mem_linked_disconnect (hp : p.ToMany) :
    t ∈ (s.disconnect p i (some ts)).linked p i ↔ t ∈ s.linked p i ∧ t ∉ ts := by
  rw [disconnect, mem_linked_unlink hp]
  simp

/-- Setting the links leaves exactly the targets that exist. -/
theorem mem_linked_setRelated (hp : p.ToMany) :
    t ∈ (s.setRelated p i ts).linked p i ↔ t ∈ ts ∧ t ∈ s.ids p.target := by
  rw [setRelated, mem_linked_connect hp, disconnect, mem_linked_unlink hp, ids_unlink]
  simp

end Store

/-! ## Reading links -/

/-- Without a filter, an order or a page, all linked records are found. -/
theorem Database.findRelated_all {db : Database} {list field : String} {p : RelationPlan}
    (hp : db.plan list field = .ok p) (s : Store) (i : Int) :
    ∃ rows, db.findRelated s list field i {} = .ok rows ∧
      (rows.map (·.id)).Perm (s.linked p i) := by
  refine ⟨s.select p.target (s.isReached p i) (.all []) [], ?_, ?_⟩
  · simp only [findRelated, hp]
    rfl
  · have hall (r : Row) : (Condition.all []).selects s r = true := rfl
    simp only [Store.select, Store.linked, hall, Bool.and_true]
    exact (List.mergeSort_perm _ _).map _

end RecordSchema
