import RecordSchema.Proofs.Store.Linked

/-!
# Link writes done twice

What a write leaves is put where it read from, so of two writes to one
place only the later one shows. Connecting and disconnecting records of
a relation to many, and setting all of its links, therefore change
nothing once they have been done.
-/

namespace RecordSchema

/-! ## Writes to one place -/

theorem Store.putEntry_putEntry {α : Type} (es : List (String × α)) (name : String) (a b : α) :
    putEntry (putEntry es name a) name b = putEntry es name b := by
  induction es with
  | nil => simp [putEntry]
  | cons e r ih =>
    by_cases h : e.1 = name
    · simp [putEntry, h]
    · simp [putEntry, h, ih]

@[simp] theorem Row.set_set (r : Row) (column : String) (c c' : Cell) :
    (r.set column c).set column c' = r.set column c' := by
  simp only [set, putCell_eq, Store.putEntry_putEntry]

namespace Store

@[simp] theorem setRows_setRows (s : Store) (list : String) (rs rs' : List Row) :
    (s.setRows list rs).setRows list rs' = s.setRows list rs' := by
  simp only [setRows, putEntry_putEntry]

@[simp] theorem setPairs_setPairs (s : Store) (table : String) (ps ps' : List (Int × Int)) :
    (s.setPairs table ps).setPairs table ps' = s.setPairs table ps' := by
  simp only [setPairs, putEntry_putEntry]

/-- Changes every row of a list. -/
def mapRows (s : Store) (list : String) (f : Row → Row) : Store :=
  s.setRows list ((s.rows list).map f)

theorem mapRows_mapRows (s : Store) (list : String) (f g : Row → Row) :
    (s.mapRows list f).mapRows list g = s.mapRows list (g ∘ f) := by
  simp only [mapRows, rows_setRows, if_true, setRows_setRows, List.map_map]

/-! ## Rows and their keys -/

/-- Empties the key column of a row that holds a key and has one of certain ids. -/
def dropKey (column : String) (key : Int) (among : Int → Bool) (r : Row) : Row :=
  if (r.cell column).isKey key && among r.id then r.set column .null else r

/-- Writes the key column of a row that has one of certain ids. -/
def giveKey (column : String) (key : Int) (ts : List Int) (r : Row) : Row :=
  if ts.contains r.id then r.set column (.int key) else r

variable {column : String} {key : Int}

theorem dropKey_comp_dropKey (hid : column ≠ "id") (among : Int → Bool) :
    dropKey column key among ∘ dropKey column key among = dropKey column key among := by
  funext r
  simp only [Function.comp_apply, dropKey]
  split
  · rw [Row.cell_set_self r hid]
    rfl
  · rfl

theorem giveKey_comp_giveKey (ts : List Int) :
    giveKey column key ts ∘ giveKey column key ts = giveKey column key ts := by
  funext r
  simp only [Function.comp_apply, giveKey]
  by_cases h : ts.contains r.id = true
  · have hset : ts.contains (r.set column (.int key)).id = true := h
    simp only [if_pos h, if_pos hset, Row.set_set]
  · simp only [if_neg h]

/-- Rows that lose a key and get it back end up as those that have just got it. -/
theorem giveKey_comp_dropKey (hid : column ≠ "id") (ts : List Int) :
    (giveKey column key ts ∘ dropKey column key fun _ => true) ∘
        (giveKey column key ts ∘ dropKey column key fun _ => true) =
      giveKey column key ts ∘ dropKey column key fun _ => true := by
  funext r
  have hdrop : (dropKey column key (fun _ => true) r).id = r.id := by
    unfold dropKey
    split <;> rfl
  simp only [Function.comp_apply]
  by_cases h : ts.contains r.id = true
  · -- A row among the targets has the key written, whatever it held.
    have hgive : giveKey column key ts (dropKey column key (fun _ => true) r) =
        r.set column (.int key) := by
      rw [giveKey, hdrop, if_pos h, dropKey]
      split
      · exact Row.set_set ..
      · rfl
    have hset : ts.contains (r.set column .null).id = true := h
    rw [hgive, dropKey, Row.cell_set_self r hid, if_pos (by simp [Cell.isKey]), Row.set_set,
      giveKey, if_pos hset, Row.set_set]
  · have hgive : giveKey column key ts (dropKey column key (fun _ => true) r) =
        dropKey column key (fun _ => true) r := by
      rw [giveKey, hdrop, if_neg h]
    rw [hgive, ← Function.comp_apply (f := dropKey column key fun _ => true),
      dropKey_comp_dropKey hid, hgive]

/-! ## Pairs of an owner -/

theorem addPairs_addPairs (pairs : List (Int × Int)) (side : JoinSide) (owner : Int)
    (ts : List Int) :
    addPairs (addPairs pairs side owner ts) side owner ts = addPairs pairs side owner ts := by
  rw [addPairs_eq (addPairs pairs side owner ts), List.append_right_eq_self, List.filter_eq_nil_iff]
  intro x hx
  obtain ⟨t, ht, rfl⟩ := List.mem_map.1 hx
  have hmem : side.pair owner t ∈ addPairs pairs side owner ts :=
    mem_addPairs.2 (.inr ⟨t, List.mem_eraseDups.1 ht, rfl⟩)
  simpa using hmem

/-- The pairs of other owners are those that are left when all pairs of an owner go,
also when some were added before. -/
theorem filter_addPairs (pairs : List (Int × Int)) (side : JoinSide) (owner : Int)
    (ts : List Int) :
    (addPairs (pairs.filter fun x => !isPairOf side owner (fun _ => true) x) side owner ts).filter
        (fun x => !isPairOf side owner (fun _ => true) x) =
      pairs.filter fun x => !isPairOf side owner (fun _ => true) x := by
  rw [addPairs_eq, List.filter_append, List.filter_filter, List.append_right_eq_self.2]
  · simp only [Bool.and_self]
  · refine List.filter_eq_nil_iff.2 fun x hx => ?_
    obtain ⟨t, -, rfl⟩ := List.mem_map.1 (List.mem_filter.1 hx).1
    have hpair : isPairOf side owner (fun _ => true) (side.pair owner t) = true :=
      isPairOf_iff.2 ⟨t, rfl, rfl⟩
    simp [hpair]

/-! ## Links to many -/

variable {p : RelationPlan} {table : String} {unique : Bool} {side : JoinSide}

theorem connect_nil (s : Store) (p : RelationPlan) (i : Int) : s.connect p i [] = s := rfl

theorem connect_targetKey (hmode : p.mode = .many) (hlink : p.link = .targetKey column unique)
    (s : Store) (i : Int) {ts : List Int} (hts : ts ≠ []) :
    s.connect p i ts = s.mapRows p.target (giveKey column i ts) := by
  have ht := List.getLast?_eq_some_getLast hts
  simp only [connect, ht, hlink, hmode]
  rfl

theorem connect_join (hlink : p.link = .join table side) (s : Store) (i : Int) {ts : List Int}
    (hts : ts ≠ []) :
    s.connect p i ts = s.setPairs table (addPairs (s.pairs table) side i ts) := by
  have ht := List.getLast?_eq_some_getLast hts
  simp only [connect, ht, hlink]

theorem unlink_targetKey (hlink : p.link = .targetKey column unique) (s : Store) (i : Int)
    (among : Int → Bool) :
    s.unlink p i among = s.mapRows p.target (dropKey column i among) := by
  simp only [unlink, hlink]
  rfl

theorem unlink_join (hlink : p.link = .join table side) (s : Store) (i : Int)
    (among : Int → Bool) :
    s.unlink p i among =
      s.setPairs table ((s.pairs table).filter fun x => !isPairOf side i among x) := by
  simp only [unlink, hlink]

theorem connect_connect (hp : p.ToMany) (s : Store) (i : Int) (ts : List Int) :
    (s.connect p i ts).connect p i ts = s.connect p i ts := by
  by_cases hts : ts = []
  · subst hts
    rfl
  · cases hp with
    | targetKey hmode hlink _ =>
      rw [connect_targetKey hmode hlink s i hts, connect_targetKey hmode hlink _ i hts,
        mapRows_mapRows, giveKey_comp_giveKey]
    | join hlink =>
      rw [connect_join hlink s i hts, connect_join hlink _ i hts, pairs_setPairs, if_pos rfl,
        setPairs_setPairs, addPairs_addPairs]

theorem unlink_unlink (hp : p.ToMany) (s : Store) (i : Int) (among : Int → Bool) :
    (s.unlink p i among).unlink p i among = s.unlink p i among := by
  cases hp with
  | targetKey _ hlink hid =>
    rw [unlink_targetKey hlink s, unlink_targetKey hlink, mapRows_mapRows,
      dropKey_comp_dropKey hid]
  | join hlink =>
    rw [unlink_join hlink s, unlink_join hlink, pairs_setPairs, if_pos rfl, setPairs_setPairs,
      List.filter_filter]
    simp only [Bool.and_self]

theorem disconnect_none (s : Store) (p : RelationPlan) (i : Int) :
    s.disconnect p i none = s.unlink p i fun _ => true := rfl

theorem setRelated_setRelated (hp : p.ToMany) (s : Store) (i : Int) (ts : List Int) :
    (s.setRelated p i ts).setRelated p i ts = s.setRelated p i ts := by
  simp only [setRelated, disconnect_none]
  by_cases hts : ts = []
  · subst hts
    exact unlink_unlink hp s i _
  · cases hp with
    | targetKey hmode hlink hid =>
      simp only [unlink_targetKey hlink, connect_targetKey hmode hlink _ i hts, mapRows_mapRows]
      rw [← Function.comp_assoc]
      exact congrArg _ (giveKey_comp_dropKey hid ts)
    | join hlink =>
      simp only [unlink_join hlink, connect_join hlink _ i hts, pairs_setPairs, if_true,
        setPairs_setPairs, filter_addPairs]

end Store

end RecordSchema
