import RecordSchema.Proofs.Store.Agree

/-!
# Sound stores

A store is sound when every link leads from a record that exists to a
record that exists, no link is kept twice, and no two records share a
partner in a relation between one and one. Every write to links between
records that exist keeps a store sound, and so do new records and writes
to fields.

Relations that share a join table would read each other's links, so join
tables are kept apart (`Database.JoinsApart`).
-/

namespace RecordSchema

namespace Database

/-- Whether only the two sides of a relation share a join table. -/
def JoinsApart (db : Database) : Prop :=
  ∀ p ∈ db.schema.plans, ∀ q ∈ db.schema.plans, ∀ table side side',
    p.link = .join table side → q.link = .join table side' →
      p = q ∨ (Declarations.kinds db.schema.lists).AreSides p q

/-- Whether all links of a store lead to records. -/
structure Sound (db : Database) (s : Store) : Prop where
  keyed : s.Keyed
  /-- A key column is null or has the id of a record of the target. -/
  keys : ∀ p ∈ db.schema.plans, ∀ column unique, p.link = .ownKey column unique →
    ∀ r ∈ s.rows p.list, r.cell column = .null ∨ ∃ t ∈ s.ids p.target, r.cell column = .int t
  /-- No key column of a relation between one and one has the same id twice. -/
  once : ∀ p ∈ db.schema.plans, ∀ column, p.link = .ownKey column true → s.HoldsOnce p.list column
  /-- The pairs of a join table are of records. -/
  ends : ∀ p ∈ db.schema.plans, ∀ table side, p.link = .join table side →
    ∀ o t, side.pair o t ∈ s.pairs table → o ∈ s.ids p.list ∧ t ∈ s.ids p.target
  /-- No join table has a pair twice. -/
  pairs : ∀ table, (s.pairs table).Nodup

theorem sound_empty (db : Database) : db.Sound {} where
  keyed _ := List.nodup_nil
  keys _ _ _ _ _ _ hr := absurd hr List.not_mem_nil
  once _ _ _ _ _ _ _ h := absurd h.mem_ids List.not_mem_nil
  ends _ _ _ _ _ _ _ hpair := absurd hpair List.not_mem_nil
  pairs _ := List.nodup_nil

/-- Relations that share a join table agree on the ends of its pairs. -/
theorem Compiles.ends_of_table {db : Database} {d : Declarations} (h : db.Compiles d)
    (hapart : db.JoinsApart) {p q : RelationPlan} (hp : p ∈ db.schema.plans)
    (hq : q ∈ db.schema.plans) {table : String} {side side' : JoinSide}
    (hplink : p.link = .join table side) (hqlink : q.link = .join table side') :
    (q.list = p.list ∧ q.target = p.target ∧ side' = side) ∨
      (q.list = p.target ∧ q.target = p.list ∧ side' = side.other) := by
  by_cases heq : p = q
  · subst heq
    rw [hplink] at hqlink
    cases hqlink
    exact .inl ⟨rfl, rfl, rfl⟩
  · have hsides := (hapart p hp q hq table side side' hplink hqlink).resolve_left heq
    have hmirrors := h.planned.mirrors hp hq hsides heq
    rw [hplink, hqlink] at hmirrors
    cases hmirrors
    exact .inr ⟨(h.planned.target_eq hp hq hsides).symm,
      h.planned.target_eq hq hp (h.planned.areSides_symm hp hq hsides), rfl⟩

namespace Sound

variable {db : Database} {d : Declarations} {s s' : Store} {p : RelationPlan} {column : String}
  {unique : Bool} {q : Row → Bool} {i : Int} {ts : List Int}

/-! ## Writing key columns -/

/-- A key column may be emptied, or given ids of the target. -/
theorem modifyKey (hs : db.Sound s) (h : db.Compiles d) (hp : p ∈ db.schema.plans)
    (hlink : p.link = .ownKey column unique) {c : Cell}
    (hc : c = .null ∨ ∃ t ∈ s.ids p.target, c = .int t)
    (honce : unique = true →
      (s.modifyRows p.list q fun r => r.set column c).HoldsOnce p.list column) :
    db.Sound (s.modifyRows p.list q fun r => r.set column c) := by
  have hids (list : String) : (s.modifyRows p.list q fun r => r.set column c).ids list = s.ids list :=
    s.ids_modifyRows p.list list fun _ _ _ => rfl
  constructor
  case keyed =>
    intro list
    rw [hids]
    exact hs.keyed list
  case keys =>
    intro p' hp' column' unique' hlink' r hr
    obtain ⟨o, ho, -, hcells⟩ := Store.exists_row_modifyRows hr
    rw [hids]
    rcases hcells column' with heq | ⟨hlist, rfl, heq⟩
    · rw [heq]
      exact hs.keys p' hp' column' unique' hlink' o ho
    · rw [heq, (h.key_eq hp' hp hlist hlink' hlink).1]
      exact hc
  case once =>
    intro p' hp' column' hlink'
    by_cases hsame : p'.list = p.list ∧ column' = column
    · obtain ⟨hlist, rfl⟩ := hsame
      rw [hlist]
      exact honce (h.key_eq hp' hp hlist hlink' hlink).2.symm
    · intro x x' y
      rw [Store.hasKey_modifyRows_of_ne (not_and_or.1 hsame),
        Store.hasKey_modifyRows_of_ne (not_and_or.1 hsame)]
      exact hs.once p' hp' column' hlink' x x' y
  case ends =>
    intro p' hp' table side hlink' o t hpair
    rw [hids, hids]
    exact hs.ends p' hp' table side hlink' o t hpair
  case pairs => exact hs.pairs

theorem clearKey (hs : db.Sound s) (h : db.Compiles d) (hp : p ∈ db.schema.plans)
    (hlink : p.link = .ownKey column unique) (q : Row → Bool) :
    db.Sound (s.clearKey p.list column q) := by
  refine hs.modifyKey h hp hlink (.inl rfl) fun hunique => ?_
  subst hunique
  exact (hs.once p hp column hlink).clearKey (h.isKey_ne_id ⟨p, hp, rfl, true, hlink⟩) q

theorem writeKey (hs : db.Sound s) (h : db.Compiles d) (hp : p ∈ db.schema.plans)
    (hlink : p.link = .ownKey column false) {key : Int} (hkey : key ∈ s.ids p.target)
    (q : Row → Bool) : db.Sound (s.writeKey p.list column key q) :=
  hs.modifyKey h hp hlink (.inr ⟨key, hkey, rfl⟩) nofun

/-- A key column that holds no key twice is written where the key moves to. -/
theorem moveKey (hs : db.Sound s) (h : db.Compiles d) (hp : p ∈ db.schema.plans)
    (hlink : p.link = .ownKey column true) {key : Int} (hkey : key ∈ s.ids p.target) (row : Int) :
    db.Sound (s.moveKey p.list column row key) := by
  have hcleared := hs.clearKey h hp hlink fun r => (r.cell column).isKey key
  refine hcleared.modifyKey h hp hlink (.inr ⟨key, ?_, rfl⟩) fun _ => ?_
  · rwa [Store.ids_clearKey]
  · exact (hs.once p hp column hlink).moveKey (h.isKey_ne_id ⟨p, hp, rfl, true, hlink⟩) row key

/-! ## Writing join tables -/

/-- A pair may be taken out of a join table, or be one of records at its ends. -/
theorem setPairs (hs : db.Sound s) {table : String} {pairs : List (Int × Int)}
    (hnodup : pairs.Nodup)
    (hends : ∀ x ∈ pairs, x ∈ s.pairs table ∨
      ∀ p ∈ db.schema.plans, ∀ side, p.link = .join table side →
        ∀ o t, side.pair o t = x → o ∈ s.ids p.list ∧ t ∈ s.ids p.target) :
    db.Sound (s.setPairs table pairs) := by
  constructor
  case keyed => exact hs.keyed
  case keys => exact hs.keys
  case once => exact hs.once
  case ends =>
    intro p hp table' side hlink o t hpair
    rw [Store.ids_setPairs, Store.ids_setPairs]
    rw [Store.pairs_setPairs] at hpair
    split at hpair
    · next heq =>
      subst heq
      rcases hends _ hpair with hold | hnew
      · exact hs.ends p hp table' side hlink o t hold
      · exact hnew p hp side hlink o t rfl
    · exact hs.ends p hp table' side hlink o t hpair
  case pairs =>
    intro table'
    rw [Store.pairs_setPairs]
    split
    · exact hnodup
    · exact hs.pairs table'

theorem addPairs (hs : db.Sound s) (h : db.Compiles d) (hapart : db.JoinsApart)
    (hp : p ∈ db.schema.plans) {table : String} {side : JoinSide}
    (hlink : p.link = .join table side) (hi : i ∈ s.ids p.list) (hts : ∀ t ∈ ts, t ∈ s.ids p.target) :
    db.Sound (s.setPairs table (Store.addPairs (s.pairs table) side i ts)) := by
  refine hs.setPairs (Store.addPairs_nodup (hs.pairs table) side i ts) fun x hx => ?_
  refine (Store.mem_addPairs.1 hx).imp_right ?_
  rintro ⟨t', ht', rfl⟩ p' hp' side' hlink' o t hpair
  obtain ⟨hlist, htarget, rfl⟩ | ⟨hlist, htarget, rfl⟩ := h.ends_of_table hapart hp hp' hlink hlink'
  · obtain ⟨rfl, rfl⟩ := JoinSide.pair_inj hpair
    rw [hlist, htarget]
    exact ⟨hi, hts t ht'⟩
  · rw [JoinSide.pair_other] at hpair
    obtain ⟨rfl, rfl⟩ := JoinSide.pair_inj hpair
    rw [hlist, htarget]
    exact ⟨hts o ht', hi⟩

/-! ## Connecting and disconnecting -/

/-- Records that exist may be linked. -/
theorem connect (hs : db.Sound s) (h : db.Compiles d) (hapart : db.JoinsApart)
    (hp : p ∈ db.schema.plans) (hi : i ∈ s.ids p.list) (hts : ∀ t ∈ ts, t ∈ s.ids p.target) :
    db.Sound (s.connect p i ts) := by
  unfold Store.connect
  split
  · exact hs
  · next last hlast =>
    have hlast := hts last (List.mem_of_getLast? hlast)
    split
    · next column unique hlink =>
      cases unique with
      | true => exact hs.moveKey h hp hlink hlast i
      | false => exact hs.writeKey h hp hlink hlast _
    · next column unique hlink =>
      obtain ⟨q, hq, hsides, hqlink, hunique⟩ := h.planned.exists_owner hp hlink
      rw [h.planned.target_eq hp hq hsides] at hts ⊢
      rw [← h.planned.target_eq hq hp (h.planned.areSides_symm hp hq hsides)] at hi
      cases unique with
      | true =>
        rw [hunique.1 rfl]
        exact hs.moveKey h hq hqlink hi last
      | false =>
        split
        · next hone => cases hunique.2 hone
        · exact hs.writeKey h hq hqlink hi _
    · next table side hlink => exact hs.addPairs h hapart hp hlink hi hts

theorem unlink (hs : db.Sound s) (h : db.Compiles d) (hp : p ∈ db.schema.plans) (i : Int)
    (among : Int → Bool) : db.Sound (s.unlink p i among) := by
  unfold Store.unlink
  split
  · next hlink => exact hs.clearKey h hp hlink _
  · next hlink =>
    obtain ⟨q, hq, hsides, hqlink, -⟩ := h.planned.exists_owner hp hlink
    rw [h.planned.target_eq hp hq hsides]
    exact hs.clearKey h hq hqlink _
  · next table side hlink =>
    exact hs.setPairs ((hs.pairs table).filter _) fun x hx => .inl (List.mem_filter.1 hx).1

theorem setRelated (hs : db.Sound s) (h : db.Compiles d) (hapart : db.JoinsApart)
    (hp : p ∈ db.schema.plans) (hi : i ∈ s.ids p.list) (hts : ∀ t ∈ ts, t ∈ s.ids p.target) :
    db.Sound (s.setRelated p i ts) := by
  refine (hs.unlink h hp i _).connect h hapart hp ?_ ?_
  · rwa [Store.ids_unlink]
  · simpa only [Store.ids_unlink] using hts

/-! ## Writing rows -/

/-- A row with an id of its own and no keys may be added. -/
theorem append (hs : db.Sound s) {list : String} {row : Row} (hid : row.id ∉ s.ids list)
    (hnull : ∀ column, db.IsKey list column → row.cell column = .null) :
    db.Sound (s.setRows list (s.rows list ++ [row])) := by
  have hids := s.ids_subset_append list row
  constructor
  case keyed => exact hs.keyed.append hid
  case keys =>
    intro p hp column unique hlink r hr
    rcases Store.mem_rows_append hr with hr | ⟨rfl, rfl⟩
    · exact (hs.keys p hp column unique hlink r hr).imp_right fun ⟨t, ht, hcell⟩ =>
        ⟨t, hids p.target ht, hcell⟩
    · exact .inl (hnull column ⟨p, hp, rfl, unique, hlink⟩)
  case once =>
    intro p hp column hlink x x' y hx hx'
    have hold {x : Int} (hx : (s.setRows list (s.rows list ++ [row])).HasKey p.list column x y) :
        s.HasKey p.list column x y := by
      obtain ⟨r, hr, hid, hcell⟩ := hx
      rcases Store.mem_rows_append hr with hr | ⟨rfl, rfl⟩
      · exact ⟨r, hr, hid, hcell⟩
      · rw [hnull column ⟨p, hp, rfl, true, hlink⟩] at hcell
        cases hcell
    exact hs.once p hp column hlink x x' y (hold hx) (hold hx')
  case ends =>
    intro p hp table side hlink o t hpair
    obtain ⟨ho, ht⟩ := hs.ends p hp table side hlink o t hpair
    exact ⟨hids p.list ho, hids p.target ht⟩
  case pairs => exact hs.pairs

theorem of_sameLinks (hs : db.Sound s) (hsame : db.SameLinks s s') : db.Sound s' := by
  have hids (list : String) : s'.ids list = s.ids list := (hsame.rows.ids_eq list).symm
  have hkey {list column : String} (hk : db.IsKey list column) {x y : Int}
      (hx : s'.HasKey list column x y) : s.HasKey list column x y := by
    obtain ⟨r, hr, hid, hcell⟩ := hx
    obtain ⟨o, ho, hagree⟩ := (hsame.rows list).exists_left hr
    exact ⟨o, ho, hagree.1.trans hid, (hagree.2 column hk).trans hcell⟩
  constructor
  case keyed =>
    intro list
    rw [hids]
    exact hs.keyed list
  case keys =>
    intro p hp column unique hlink r hr
    obtain ⟨o, ho, hagree⟩ := (hsame.rows p.list).exists_left hr
    rw [← hagree.2 column ⟨p, hp, rfl, unique, hlink⟩, hids]
    exact hs.keys p hp column unique hlink o ho
  case once =>
    intro p hp column hlink x x' y hx hx'
    have hk : db.IsKey p.list column := ⟨p, hp, rfl, true, hlink⟩
    exact hs.once p hp column hlink x x' y (hkey hk hx) (hkey hk hx')
  case ends =>
    intro p hp table side hlink o t hpair
    rw [hids, hids]
    rw [← hsame.pairs] at hpair
    exact hs.ends p hp table side hlink o t hpair
  case pairs =>
    intro table
    rw [← hsame.pairs]
    exact hs.pairs table

end Sound

end Database

end RecordSchema
