import RecordSchema.Proofs.Store.Agree
import RecordSchema.Proofs.Store.Order

/-!
# Unique columns

A table takes a row only when no other row has its id, or its value of a
unique column. So rows are told apart by what they hold there
(`Database.Distinct`): a value is one place in the order of cells, and
two rows with one place have one id. Nothing has no part in this, any
number of rows may hold it.

Key columns are left out, since links are written without a check.
-/

namespace RecordSchema

open Layout

/-! ## Cells with one place -/

namespace Cell

theorem same_iff {a b : Cell} (ha : a.isNaN = false) (hb : b.isNaN = false) :
    a.same b = true ↔ a.place = b.place := by
  rw [same, order_eq ha hb, beq_iff_eq, compare_eq_iff_eq]

theorem rank_eq_of_place {a b : Cell} (h : a.place = b.place) : a.rank = b.rank :=
  congrArg (fun p => (ofLex p).1) h

/-- What has the place of something is something. -/
theorem ne_null_of_place {a b : Cell} (h : a.place = b.place) (ha : a ≠ .null) : b ≠ .null := by
  rintro rfl
  have hrank : a.rank = 0 := rank_eq_of_place h
  cases a with
  | null => exact ha rfl
  | _ => cases hrank

theorem int_eq_of_place {m n : Int} (h : (int m).place = (int n).place) : m = n := by
  have hmagnitude : (int m).magnitude = (int n).magnitude :=
    congrArg (fun p => (ofLex (ofLex p).2).1) h
  have hratio : (m : ℚ) = n := WithTop.coe_inj.1 (WithBot.coe_inj.1 hmagnitude)
  exact_mod_cast hratio

end Cell

/-- Whether two rows hold the same value in a column. -/
def Row.Shares (column : String) (r r' : Row) : Prop :=
  r.cell column ≠ .null ∧ (r.cell column).place = (r'.cell column).place

theorem Row.Shares.symm {column : String} {r r' : Row} (h : r.Shares column r') :
    r'.Shares column r :=
  ⟨Cell.ne_null_of_place h.2 h.1, h.2.symm⟩

/-! ## Accepted rows -/

/-- A row that is accepted has no other row's value in a unique column. -/
theorem TableLayout.check_unique {t : TableLayout} {others : List Row} {r : Row}
    (h : t.check others r = .ok ()) {c : Column} (hc : c ∈ t.columns) (hunique : c.unique = true)
    (hnull : r.cell c.name ≠ .null) :
    ∀ o ∈ others, (o.cell c.name).same (r.cell c.name) = false := by
  have hset : (r.cell c.name).isNull = false := by
    rw [← Bool.not_eq_true, Cell.isNull_iff]
    exact hnull
  unfold check at h
  split at h
  · cases h
  · split at h
    · cases h
    · split at h
      · cases h
      · next hnone =>
        have hkept := List.find?_eq_none.1 hnone c (List.mem_reverse.2 hc)
        simpa [hunique, hset] using hkept

namespace Store

/-- Whether no two rows hold the same value in a column. -/
def Distinct (s : Store) (list column : String) : Prop :=
  ∀ r ∈ s.rows list, ∀ r' ∈ s.rows list, r.Shares column r' → r.id = r'.id

/-- A row in the place of another one keeps ids apart when no third row has its id. -/
theorem Keyed.replace {s : Store} (h : s.Keyed) {list : String} {id : Int} {row : Row}
    (hfresh : ∀ o ∈ s.rows list, o.id ≠ id → o.id ≠ row.id) :
    (s.modifyRows list (fun o => o.id == id) fun _ => row).Keyed := by
  intro other
  unfold ids
  rw [rows_modifyRows]
  split
  · rw [List.map_map]
    refine List.pairwise_map.2 ((List.pairwise_map.1 (h list)).imp_of_mem ?_)
    intro o o' ho ho' hne
    simp only [Function.comp_apply, beq_iff_eq]
    split
    · next heq =>
      have hother : o'.id ≠ id := fun heq' => hne (heq.trans heq'.symm)
      rw [if_neg hother]
      exact (hfresh o' ho' hother).symm
    · next hother =>
      split
      · exact hfresh o ho hother
      · exact hne
  · exact h other

end Store

/-! ## Rows told apart -/

namespace Database

/-- Whether the table of a list has a unique column of a name that is no key column. -/
def IsUnique (db : Database) (l : ListType) (column : String) : Prop :=
  ¬ db.IsKey l.key column ∧
    ∃ c ∈ (tableOf db.schema.plans l).columns, c.name = column ∧ c.unique = true

/-- Whether the rows of a store are told apart by their ids and by their values in
unique columns, which are values that have a place. -/
structure Distinct (db : Database) (s : Store) : Prop where
  keyed : s.Keyed
  ordered : ∀ l ∈ db.schema.lists, ∀ r ∈ s.rows l.key, ∀ column, ¬ db.IsKey l.key column →
    (r.cell column).isNaN = false
  distinct : ∀ l ∈ db.schema.lists, ∀ column, db.IsUnique l column → s.Distinct l.key column

theorem distinct_empty (db : Database) : db.Distinct {} where
  keyed _ := List.nodup_nil
  ordered _ _ _ hr := absurd hr List.not_mem_nil
  distinct _ _ _ _ _ hr := absurd hr List.not_mem_nil

namespace Distinct

variable {db : Database} {d : Declarations} {s s' : Store} {l : ListType} {row : Row}

/-- A row that is accepted among some rows of a list may stand beside them. -/
theorem of_check (h : db.Distinct s) (hd : db.Compiles d) (hl : l ∈ db.schema.lists)
    {others : List Row} (hothers : others ⊆ s.rows l.key)
    (hcheck : (tableOf db.schema.plans l).check others row = .ok ())
    (hordered : ∀ column, ¬ db.IsKey l.key column → (row.cell column).isNaN = false)
    (hkeyed : s'.Keyed) (hrows : ∀ r ∈ s'.rows l.key, r ∈ others ∨ r = row)
    (hlists : ∀ list, list ≠ l.key → s'.rows list = s.rows list) : db.Distinct s' := by
  refine ⟨hkeyed, ?_, ?_⟩
  · intro l' hl' r hr column hk
    by_cases hlist : l'.key = l.key
    · obtain rfl := hd.eq_of_key hl' hl hlist
      rcases hrows r hr with hr | rfl
      · exact h.ordered l' hl r (hothers hr) column hk
      · exact hordered column hk
    · rw [hlists l'.key hlist] at hr
      exact h.ordered l' hl' r hr column hk
  · intro l' hl' column hcolumn r hr r' hr' hshares
    by_cases hlist : l'.key = l.key
    · obtain rfl := hd.eq_of_key hl' hl hlist
      have hnot {o : Row} (ho : o ∈ others) : ¬ row.Shares column o := by
        rintro ⟨hnull, hplace⟩
        obtain ⟨hk, c, hc, rfl, hunique⟩ := hcolumn
        have hne := TableLayout.check_unique hcheck hc hunique hnull o ho
        have hsame := (Cell.same_iff (h.ordered l' hl o (hothers ho) c.name hk)
          (hordered c.name hk)).2 hplace.symm
        rw [hne] at hsame
        cases hsame
      rcases hrows r hr with hr | rfl
      · rcases hrows r' hr' with hr' | rfl
        · exact h.distinct l' hl column hcolumn r (hothers hr) r' (hothers hr') hshares
        · exact absurd hshares.symm (hnot hr)
      · rcases hrows r' hr' with hr' | rfl
        · exact absurd hshares (hnot hr')
        · rfl
    · rw [hlists l'.key hlist] at hr hr'
      exact h.distinct l' hl' column hcolumn r hr r' hr' hshares

/-- A new row is told apart from the others. -/
theorem insert (h : db.Distinct s) (hd : db.Compiles d) (hl : l ∈ db.schema.lists)
    {now : DateTime} {data : Value.Entries} (hi : db.insert s now l.key data = .ok (row, s')) :
    db.Distinct s' := by
  obtain ⟨rfl, hcheck, -⟩ := hd.insert_row hl hi
  refine h.of_check hd hl (List.Subset.refl _) hcheck (fun column _ => insert_isOrdered hi column)
    (h.keyed.append (hd.insert_ok hl hi).2.1) (fun r hr => ?_) (fun list hlist => ?_)
  · exact (Store.mem_rows_append hr).imp_right (·.2)
  · rw [Store.rows_setRows, if_neg hlist]

/-- A changed row is told apart from the others, also when its id is changed. -/
theorem update (h : db.Distinct s) (hd : db.Compiles d) (hl : l ∈ db.schema.lists) {id : Int}
    {data : Value.Entries} (hu : db.update s l.key id data = .ok s') : db.Distinct s' := by
  obtain ⟨given, cells, -, hcells, ⟨-, rfl⟩ | ⟨r, r', hr, hr', hcheck, rfl⟩⟩ := hd.update_row hl hu
  · exact h
  · have hother {o : Row} (ho : o ∈ s.rows l.key) (hne : o.id ≠ id) :
        o ∈ (s.rows l.key).filter fun o => o.id != id :=
      List.mem_filter.2 ⟨ho, bne_iff_ne.2 hne⟩
    have hordered : ∀ column, ¬ db.IsKey l.key column → (r'.cell column).isNaN = false :=
      fun column hk => changed_isNaN (TableLayout.bind_isNaN hcells) hr'
        (h.ordered l hl r (Store.row?_mem hr).1 column hk)
    refine h.of_check hd hl List.filter_sublist.subset hcheck hordered
      (h.keyed.replace fun o ho hne => TableLayout.check_ok hcheck o (hother ho hne))
      (fun o ho => ?_) (fun list hlist => ?_)
    · obtain ⟨o', ho', rfl⟩ := Store.mem_rows_modifyRows.1 ho
      split
      · exact .inr rfl
      · next hne => exact .inl (hother ho' (by simpa using hne))
    · rw [Store.rows_modifyRows, if_neg hlist]

/-- Writing keys leaves rows as far apart as they were. -/
theorem of_sameFields (h : db.Distinct s) (hs : db.SameFields s s') : db.Distinct s' where
  keyed list := hs.ids_eq list ▸ h.keyed list
  ordered l hl r hr column hk := by
    obtain ⟨o, ho, -, hcells⟩ := (hs l.key).exists_left hr
    exact hcells column hk ▸ h.ordered l hl o ho column hk
  distinct l hl column hcolumn r hr r' hr' hshares := by
    obtain ⟨o, ho, hid, hcells⟩ := (hs l.key).exists_left hr
    obtain ⟨o', ho', hid', hcells'⟩ := (hs l.key).exists_left hr'
    rw [Row.Shares, ← hcells column hcolumn.1, ← hcells' column hcolumn.1] at hshares
    exact hid.symm.trans ((h.distinct l hl column hcolumn o ho o' ho' hshares).trans hid')

/-- Rows of a list that share a value of a unique column are one row. -/
theorem eq_of_shares (h : db.Distinct s) (hl : l ∈ db.schema.lists) {column : String}
    (hcolumn : db.IsUnique l column) {r r' : Row} (hr : r ∈ s.rows l.key)
    (hr' : r' ∈ s.rows l.key) (hshares : r.Shares column r') : r = r' :=
  Store.eq_of_mem_rows h.keyed hr hr' (h.distinct l hl column hcolumn r hr r' hr' hshares)

end Distinct

end Database

end RecordSchema
