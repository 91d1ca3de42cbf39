import RecordSchema.Proofs.Store.Agree
import RecordSchema.Proofs.Store.Order

/-!
# Pages

A page is a slice of what the same search yields without a page, whether
it starts at an offset or behind the row that a cursor names
(`findMany_page`, `findMany_behind`). So pages that are fetched one behind
the other until one is empty make up the whole, in order and with every
row once (`Paged.iff_drop`, `pages_agree`).

Offsets are handed to storage, which counts in words of 64 bits; behind a
cursor the slice is cut outside of storage, and offsets of any size will do.
-/

namespace RecordSchema

/-! ## Slices -/

section Slices

variable {α : Type} (xs : List α)

theorem page_nat (skip take : Nat) : page xs skip (some take) = (xs.drop skip).take take := by
  rw [page, Int.toNat_natCast]
  exact if_neg (Int.natCast_nonneg take).not_gt

theorem placeIn_nat (length n : Nat) : placeIn length n = min n length := by
  rw [placeIn, if_neg (Int.natCast_nonneg n).not_gt, Int.toNat_natCast]

theorem sliceFrom_nat (n : Nat) : sliceFrom xs n = xs.drop n := by
  rw [sliceFrom, placeIn_nat]
  rcases le_total n xs.length with h | h
  · rw [min_eq_left h]
  · rw [min_eq_right h, List.drop_length, List.drop_eq_nil_of_le h]

theorem sliceTo_nat (n : Nat) : sliceTo xs n = xs.take n := by
  rw [sliceTo, placeIn_nat, ← List.take_eq_take_min]

variable {xs}

/-- A page of what is left behind `k` members ends with one of them, and behind that
one the rest is left. -/
theorem exists_last_of_page {k n : Nat} (hn : 1 ≤ n) (hk : k < xs.length) :
    ∃ front j, ∃ hj : j < xs.length, k ≤ j ∧ (xs.drop k).take n = front ++ [xs[j]] ∧
      xs.drop k = front ++ xs[j] :: xs.drop (j + 1) := by
  have hleft : (xs.drop k).length = xs.length - k := List.length_drop
  obtain ⟨m, hm⟩ : ∃ m, m + 1 = min n (xs.length - k) :=
    ⟨min n (xs.length - k) - 1, by omega⟩
  have hj : k + m < xs.length := by omega
  have hlast : (xs.drop k).take (m + 1) = (xs.drop k).take m ++ [xs[k + m]] := by
    rw [List.take_succ_eq_append_getElem (by omega), List.getElem_drop]
  refine ⟨(xs.drop k).take m, k + m, hj, by omega, ?_, ?_⟩
  · rw [List.take_eq_take_min, hleft, ← hm, hlast]
  · calc xs.drop k
        = (xs.drop k).take (m + 1) ++ (xs.drop k).drop (m + 1) := (List.take_append_drop _ _).symm
      _ = (xs.drop k).take m ++ xs[k + m] :: xs.drop (k + m + 1) := by
        rw [hlast, List.drop_drop, List.append_assoc, List.singleton_append]
        rfl

end Slices

/-! ## Behind a row -/

section Behind

variable {rows : List Row} {i : Nat}

theorem rowsBehind_getElem (hids : (rows.map (·.id)).Nodup) (hi : i < rows.length) :
    rowsBehind rows rows[i].id = rows.drop (i + 1) := by
  have hindex : rows.findIdx (fun r => !(r.id != rows[i].id)) = i := by
    rw [List.findIdx_eq hi]
    refine ⟨by simp, fun j hj => ?_⟩
    have hj' : j < rows.length := hj.trans hi
    have hne : rows[j].id ≠ rows[i].id :=
      List.pairwise_iff_getElem.1 (List.pairwise_map.1 hids) j i hj' hi hj
    simpa using hne
  rw [rowsBehind, List.dropWhile_eq_drop_findIdx_not, hindex, List.drop_drop]

theorem pageBehind_getElem (hids : (rows.map (·.id)).Nodup) (hi : i < rows.length)
    (skip take : Nat) : pageBehind rows rows[i].id skip (some take) =
      (rows.drop (i + 1 + skip)).take take := by
  have hoffset : offsetBehind rows rows[i].id = i + 1 := by
    rw [offsetBehind, rowsBehind_getElem hids hi, List.length_drop]
    omega
  simp only [pageBehind, hoffset, sliceTo_nat]
  rw [← Int.natCast_add, sliceFrom_nat]

end Behind

/-! ## Fetching until a page is empty -/

/-- What is fetched page after page, each from behind the last row of the one before,
until a page is empty. -/
inductive Paged (fetch : Option Int → Except Fault (List Row)) : Option Int → List Row → Prop
  | done {start : Option Int} (h : fetch start = .ok []) : Paged fetch start []
  | next {start : Option Int} {front : List Row} {last : Row} {rest : List Row}
      (h : fetch start = .ok (front ++ [last])) (hrest : Paged fetch (some last.id) rest) :
      Paged fetch start (front ++ last :: rest)

/-- Pages that are slices make up what is left of the rows, and nothing else. -/
theorem Paged.iff_drop {fetch : Option Int → Except Fault (List Row)} {rows : List Row} {n : Nat}
    (hn : 1 ≤ n)
    (hbehind : ∀ i (hi : i < rows.length),
      fetch (some rows[i].id) = .ok ((rows.drop (i + 1)).take n))
    {start : Option Int} {k : Nat} (hstart : fetch start = .ok ((rows.drop k).take n))
    (out : List Row) : Paged fetch start out ↔ out = rows.drop k := by
  -- By what is left: the last row of a page stands at `k` or behind it.
  induction hm : rows.length - k using Nat.strong_induction_on generalizing start k out with
  | _ m ih =>
    subst hm
    rcases Nat.lt_or_ge k rows.length with hk | hk
    · obtain ⟨front, j, hj, hkj, hpage, hleft⟩ := exists_last_of_page hn hk
      have hrest (out : List Row) := ih _ (by omega) (hbehind j hj) out rfl
      rw [hpage] at hstart
      rw [hleft]
      constructor
      · intro h
        cases h with
        | done h =>
          rw [hstart] at h
          simp at h
        | @next _ _ last rest h hpaged =>
          obtain ⟨rfl, hlast⟩ := List.append_inj' (Except.ok.inj (hstart.symm.trans h)) rfl
          obtain rfl := List.singleton_inj.1 hlast
          rw [(hrest rest).1 hpaged]
      · rintro rfl
        exact .next hstart ((hrest _).2 rfl)
    · rw [List.drop_eq_nil_of_le hk, List.take_nil] at hstart
      rw [List.drop_eq_nil_of_le hk]
      constructor
      · intro h
        cases h with
        | done => rfl
        | next h =>
          rw [hstart] at h
          simp at h
      · rintro rfl
        exact .done hstart

/-! ## Pages of a search -/

/-- The unique filter that names a row by its id. -/
def Value.byId (id : Int) : Value.Entries :=
  [(.text "id", .int id)]

/-- A condition that is true of one row alone finds that row. -/
theorem Store.selectOne_eq_some {s : Store} {list : String} {c : Condition} (hs : s.Keyed) {r : Row}
    (hr : r ∈ s.rows list) (hc : ∀ o, c.selects s o = true ↔ o.id = r.id) :
    s.selectOne list c = some r := by
  cases hone : s.selectOne list c with
  | none =>
    have hnot := selectOne_none hone hr
    rw [(hc r).2 rfl] at hnot
    cases hnot
  | some o =>
    obtain ⟨ho, hsel, -⟩ := selectOne_some hone
    rw [eq_of_mem_rows hs ho hr ((hc o).1 hsel)]

namespace Database

variable {db : Database} {d : Declarations} {s : Store} {list : String} {among : Row → Bool}
  {filter : Value} {order : List SortKey} {c : Condition} {ks : List RowOrder}

/-- A search that succeeds has read its filter and its order. -/
theorem search_ok {rows : List Row} (h : db.search s list among { filter, order } = .ok rows) :
    ∃ c ks, (Filter.condition db list filter).settle = .ok c ∧
      order.mapM (db.rowOrder list) = .ok ks ∧ rows = s.select list among c ks := by
  simp only [search, Except.bind_eq_ok] at h
  obtain ⟨r, hrun, ks, hks, c, hc, -, -, h⟩ := h
  rw [Reading.settle_run hrun] at hc
  exact ⟨c, ks, hc, hks, (Except.ok.inj h).symm⟩

theorem checkPage_nat (skip take : Nat) : checkPage skip (some take) =
    if skip < 2 ^ 63 ∧ take < 2 ^ 63 then .ok () else .error .overflow := by
  have hword (n : Nat) : fitsWord n = true ↔ n < 2 ^ 63 := by
    simp only [fitsWord, Bool.and_eq_true, decide_eq_true_eq]
    omega
  have hfits : (fitsWord skip && fitsWord take) = true ↔ skip < 2 ^ 63 ∧ take < 2 ^ 63 := by
    rw [Bool.and_eq_true, hword, hword]
  rw [checkPage, Option.all_some]
  exact if_congr hfits rfl rfl

/-- Without a cursor, storage cuts the page. -/
theorem search_page (hc : (Filter.condition db list filter).settle = .ok c)
    (hks : order.mapM (db.rowOrder list) = .ok ks) (skip : Int) (take : Option Int) :
    db.search s list among { filter, order, take, skip } =
      (checkPage skip take).map fun _ => page (s.select list among c ks) skip take := by
  have hrun := Reading.settle_ok hc
  simp only [search, hrun, hks]
  cases checkPage skip take <;> rfl

theorem search_behind (hc : (Filter.condition db list filter).settle = .ok c)
    (hks : order.mapM (db.rowOrder list) = .ok ks) {u : Value.Entries} {uc : Condition}
    (hu : db.uniqueCondition list u = .ok uc) {r : Row} (hr : s.selectOne list uc = some r)
    (skip : Int) (take : Option Int) :
    db.search s list among { filter, order, take, skip, cursor := some (.map u) } =
      .ok (pageBehind (s.select list among c ks) r.id skip take) := by
  have hrun := Reading.settle_ok hc
  have hu' : db.uniqueCondition list ((Value.map u).entries?.getD []) = .ok uc := hu
  calc db.search s list among { filter, order, take, skip, cursor := some (.map u) }
      = s.run list among { condition := c, order := ks, take, skip, cursor := some (uc, u) } := by
        simp only [search, hrun, hks, hu']
        rfl
    _ = .ok (pageBehind (s.select list among c ks) r.id skip take) := by
        simp only [Store.run, hr]

theorem findOne_ok {u : Value.Entries} {r : Row} (h : db.findOne s list u = .ok (some r)) :
    ∃ uc, db.uniqueCondition list u = .ok uc ∧ s.selectOne list uc = some r := by
  simp only [findOne, Except.bind_eq_ok, Except.pure_eq_ok] at h
  obtain ⟨-, -, uc, hu, hr⟩ := h
  exact ⟨uc, hu, hr⟩

namespace Compiles

variable {l : ListType}

section Keys

variable (h : db.Compiles d) (hl : l ∈ db.schema.lists)

include h hl

theorem column_id : db.layout.column l.key "id" = .ok "id" := by
  rw [Layout.column, h.table?_eq hl]
  rfl

theorem columnType?_id : db.layout.columnType? l.key "id" = some .integer := by
  rw [Layout.columnType?, h.table?_eq hl]
  rfl

theorem uniqueCondition_id {id : Int} (hid : fitsWord id = true) :
    db.uniqueCondition l.key (Value.byId id) =
      .ok (.all [.cell "id" (.compare .eq (.int id))]) := by
  have hoperand : ColumnType.integer.operand (.int id) = .ok (.int id) := by
    simp only [ColumnType.operand, Cell.ofValue, if_pos hid]
    rfl
  simp only [uniqueCondition, Value.byId, entryConditions, Filter.fieldKey, Reading.liftM_ok,
    pure_bind, h.column_id hl, h.columnType?_id hl, Option.getD_some, Filter.equalsTest,
    Value.isNull, hoperand]
  rfl

theorem findOne_byId (hs : s.Keyed) {r : Row} (hr : r ∈ s.rows l.key)
    (hid : fitsWord r.id = true) : db.findOne s l.key (Value.byId r.id) = .ok (some r) := by
  have hone : s.selectOne l.key (.all [.cell "id" (.compare .eq (.int r.id))]) = some r := by
    refine Store.selectOne_eq_some hs hr fun o => ?_
    rw [Condition.selects_all_singleton]
    change (Truth.ofBool (compare o.id r.id == .eq)).isYes = true ↔ o.id = r.id
    rw [Truth.isYes_ofBool, beq_iff_eq, compare_eq_iff_eq]
  rw [findOne, h.table_ok hl, h.uniqueCondition_id hl hid, ← hone]
  rfl

end Keys

section Pages

variable {full : List Row} (h : db.Compiles d) (hl : l ∈ db.schema.lists) (hs : s.Keyed)
  (hwords : ∀ r ∈ s.rows l.key, fitsWord r.id = true)
  (hfull : db.findMany s l.key { filter, order } = .ok full)

include h hl hfull in
theorem findMany_ok : ∃ c ks, (Filter.condition db l.key filter).settle = .ok c ∧
    order.mapM (db.rowOrder l.key) = .ok ks ∧ full = s.select l.key (fun _ => true) c ks := by
  rw [findMany, h.table_ok hl] at hfull
  exact search_ok hfull

include h hl hfull in
theorem findMany_page (skip take : Nat) :
    db.findMany s l.key { filter, order, skip, take := some take } =
      if skip < 2 ^ 63 ∧ take < 2 ^ 63 then .ok ((full.drop skip).take take)
      else .error .overflow := by
  obtain ⟨c, ks, hc, hks, rfl⟩ := h.findMany_ok hl hfull
  rw [findMany, h.table_ok hl]
  refine (search_page hc hks skip (some take)).trans ?_
  rw [checkPage_nat, page_nat]
  split <;> rfl

include h hl hs hfull in
theorem findMany_behind {i : Nat} (hi : i < full.length) {u : Value.Entries}
    (hu : db.findOne s l.key u = .ok (some full[i])) (skip take : Nat) :
    db.findMany s l.key { filter, order, skip, take := some take, cursor := some (.map u) } =
      .ok ((full.drop (i + 1 + skip)).take take) := by
  obtain ⟨c, ks, hc, hks, rfl⟩ := h.findMany_ok hl hfull
  obtain ⟨uc, huc, hone⟩ := findOne_ok hu
  rw [findMany, h.table_ok hl, ← pageBehind_getElem (Store.select_ids_nodup hs) hi]
  exact search_behind hc hks huc hone skip (some take)

include h hl hs hwords hfull in
theorem findOne_id {i : Nat} (hi : i < full.length) :
    db.findOne s l.key (Value.byId full[i].id) = .ok (some full[i]) := by
  obtain ⟨c, ks, hc, hks, rfl⟩ := h.findMany_ok hl hfull
  have hmem := (Store.mem_select.1 (List.getElem_mem hi)).1
  exact h.findOne_byId hl hs hmem (hwords _ hmem)

include h hl hs hwords hfull in
theorem findMany_pages {n : Nat} (hn : 1 ≤ n) (hfits : n < 2 ^ 63) (out : List Row) :
    Paged (fun start => db.findMany s l.key
      { filter, order, take := some n, cursor := start.map fun id => .map (Value.byId id) })
      none out ↔ out = full := by
  refine Paged.iff_drop hn (fun i hi => ?_) (k := 0) ?_ out
  · exact h.findMany_behind hl hs hfull hi (h.findOne_id hl hs hwords hfull hi) 0 n
  · exact (h.findMany_page hl hfull 0 n).trans (if_pos ⟨by decide, hfits⟩)

include h hl hs hwords hfull in
/-- Every page is a slice of the whole, and pages fetched one behind the other make it
up; the whole has every row that the filter selects, in order. -/
theorem pages_agree (hrows : ∀ r ∈ s.rows l.key, r.IsOrdered) :
    (∀ skip take : Nat, db.findMany s l.key { filter, order, skip, take := some take } =
      if skip < 2 ^ 63 ∧ take < 2 ^ 63 then .ok ((full.drop skip).take take)
      else .error .overflow) ∧
    (∀ i (hi : i < full.length),
      db.findOne s l.key (Value.byId full[i].id) = .ok (some full[i]) ∧
      ∀ u, db.findOne s l.key u = .ok (some full[i]) → ∀ skip take : Nat,
        db.findMany s l.key { filter, order, skip, take := some take, cursor := some (.map u) } =
          .ok ((full.drop (i + 1 + skip)).take take)) ∧
    (∀ n : Nat, 1 ≤ n → n < 2 ^ 63 → ∀ out, Paged (fun start => db.findMany s l.key
      { filter, order, take := some n, cursor := start.map fun id => .map (Value.byId id) })
      none out ↔ out = full) ∧
    ∃ c ks, (Filter.condition db l.key filter).settle = .ok c ∧
      order.mapM (db.rowOrder l.key) = .ok ks ∧
      full.Perm ((s.rows l.key).filter fun r => c.selects s r) ∧
      full.Pairwise fun a b => RowOrder.compareAll ks a b = .lt := by
  refine ⟨h.findMany_page hl hfull, fun i hi => ⟨?_, fun u hu skip take => ?_⟩,
    fun n hn hfits out => ?_, ?_⟩
  · exact h.findOne_id hl hs hwords hfull hi
  · exact h.findMany_behind hl hs hfull hi hu skip take
  · exact h.findMany_pages hl hs hwords hfull hn hfits out
  · obtain ⟨c, ks, hc, hks, rfl⟩ := h.findMany_ok hl hfull
    exact ⟨c, ks, hc, hks, Store.select_perm, Store.select_pairwise hs hrows ks⟩

end Pages

end Compiles

end Database

/-! ## Books of the same year -/

/-- A schema of books. -/
def shelf : Declarations :=
  ({} : Declarations).declare {
    key := "Book"
    specs := [("title", .scalar .text {}), ("year", .scalar .int {})] }

/-- Three books, two of them of the same year. -/
def shelfStore : Store where
  tables := [("Book", [⟨1, [("title", .text "A"), ("year", .int 1990)]⟩,
    ⟨2, [("title", .text "B"), ("year", .int 2001)]⟩,
    ⟨3, [("title", .text "C"), ("year", .int 1990)]⟩])]

/-- The latest books first. -/
def latest : List SortKey :=
  [⟨.text "year", .text "desc"⟩]

theorem shelf_facts : shelf.database.isOk = true ∧
    (∃ l ∈ shelf.database.result.schema.lists, l.key = "Book") ∧
    (∀ t ∈ shelfStore.tables, (t.2.map (·.id)).Nodup) ∧
    (∀ r ∈ shelfStore.rows "Book", fitsWord r.id = true ∧ ∀ e ∈ r.cells, e.2.isNaN = false) ∧
    (shelfStore.rows "Book").length = 3 ∧
    (shelf.database.result.findMany shelfStore "Book" { order := latest }).isOk = true := by
  decide +kernel

theorem shelf_compiles : shelf.database.result.Compiles shelf :=
  Declarations.Declared.compiles (.declare (.start _ _ _) (by decide)) shelf_facts.1

/-- Fetched two at a time, all three books come, though two of them tie. -/
theorem pages_agree_shelf : ∃ full,
    shelf.database.result.findMany shelfStore "Book" { order := latest } = .ok full ∧
    full.length = 3 ∧
    shelf.database.result.findMany shelfStore "Book"
      { order := latest, skip := 2, take := some 2 } = .ok ((full.drop 2).take 2) ∧
    Paged (fun start => shelf.database.result.findMany shelfStore "Book"
      { order := latest, take := some 2, cursor := start.map fun id => .map (Value.byId id) })
      none full := by
  obtain ⟨-, ⟨l, hl, hkey⟩, hids, hrows, hlength, hok⟩ := shelf_facts
  obtain ⟨full, hfull⟩ : ∃ full, shelf.database.result.findMany shelfStore "Book"
      { order := latest } = .ok full := ⟨_, Except.eq_ok_result hok⟩
  rw [← hkey] at hrows hfull hlength ⊢
  obtain ⟨hpage, -, hpaged, c, ks, hc, -, hperm, -⟩ :=
    shelf_compiles.pages_agree hl (.of_tables hids) (fun r hr => (hrows r hr).1) hfull
      fun r hr => .of_cells (hrows r hr).2
  refine ⟨full, hfull, ?_, (hpage 2 2).trans (if_pos (by decide)),
    (hpaged 2 (by decide) (by decide) full).2 rfl⟩
  obtain rfl : Condition.all [] = c := Except.ok.inj hc
  simp only [hperm.length_eq, Condition.selects_all_nil, List.filter_true, hlength]

/-- Storage refuses to skip as many rows as no word counts, where the whole has no row left. -/
theorem page_past_word : ∃ full,
    shelf.database.result.findMany shelfStore "Book" { order := latest } = .ok full ∧
    shelf.database.result.findMany shelfStore "Book"
        { order := latest, skip := (2 ^ 63 : Nat), take := some (1 : Nat) } = .error .overflow ∧
    shelf.database.result.findMany shelfStore "Book"
        { order := latest, skip := (2 ^ 63 : Nat), take := some (1 : Nat) } ≠
      .ok ((full.drop (2 ^ 63)).take 1) := by
  obtain ⟨-, ⟨l, hl, hkey⟩, -, -, -, hok⟩ := shelf_facts
  obtain ⟨full, hfull⟩ : ∃ full, shelf.database.result.findMany shelfStore "Book"
      { order := latest } = .ok full := ⟨_, Except.eq_ok_result hok⟩
  rw [← hkey] at hfull ⊢
  have hpage := shelf_compiles.findMany_page hl hfull (2 ^ 63) 1
  rw [if_neg (by decide)] at hpage
  exact ⟨full, hfull, hpage, hpage ▸ nofun⟩

end RecordSchema
