import RecordSchema.Proofs.Request.Data
import RecordSchema.Proofs.Request.Work
import RecordSchema.Proofs.Store.Agree
import RecordSchema.Proofs.Store.Writes

/-!
# Writing the columns of a record

The part of a write that comes before its links. A new record is a row
at the end of its list without any links; a record that is changed keeps
its id and its links.
-/

namespace RecordSchema

open Layout

namespace Worker

variable {w : Worker} {d : Declarations} {s s' : Session} {list : String} {id : Int} {data : Value}
  {links : List (String × Resolve.LinkAction)}

theorem listOf_yields {l : ListType} :
    (w.listOf list).Yields s l s' ↔ w.db.schema.list? list = some l ∧ s' = s := by
  simp only [listOf, Work.ofExcept_yields, Resolve.listOf]
  constructor
  · rintro ⟨h, rfl⟩
    split at h
    · next hl =>
      cases h
      exact ⟨hl, rfl⟩
    · cases h
  · rintro ⟨hl, rfl⟩
    rw [hl]
    exact ⟨rfl, rfl⟩

theorem insert_yields {values : Value.Entries} {row : Row}
    (h : (w.insert list values).Yields s row s') :
    ∃ store, w.db.insert s.store s.supply.now.1 list values = .ok (row, store) ∧
      s' = { s with store } := by
  simp only [insert, Work.bind_yields, Work.get_yields, Work.ofExcept_yields,
    Work.pure_yields] at h
  obtain ⟨_, _, ⟨rfl, rfl⟩, ⟨row', store⟩, _, ⟨hinsert, rfl⟩, _, _, hset, rfl, rfl⟩ := h
  exact ⟨store, hinsert, (Work.setStore_yields.1 hset).symm⟩

/-- The columns of a new record are inserted with the resolved data and their defaults. -/
theorem insertColumns_inserts {row : Row}
    (h : (w.insertColumns list data).Yields s (row, links) s') :
    ∃ l ∈ w.db.schema.lists, l.key = list ∧
      ∃ c, Resolve.changes l .create w.setPolicy w.context data = .ok c ∧ links = c.links ∧
        ∃ values supply store,
          (Storage.fillAll l.storedFields c.values).run s.supply = .ok (values, supply) ∧
            w.db.insert s.store supply.now.1 l.key values = .ok (row, store) ∧
              s' = { store, supply } := by
  simp only [insertColumns, Work.bind_yields, listOf_yields, Work.ofExcept_yields,
    Work.pure_yields] at h
  obtain ⟨l, _, ⟨hl, rfl⟩, c, m, ⟨hc, hm⟩, values, m', hvalues, row', m'', hrow, heq, rfl⟩ := h
  obtain ⟨rfl, rfl⟩ := Prod.mk.inj heq
  subst hm
  obtain ⟨supply, hfill, rfl⟩ := Work.generate_yields hvalues
  obtain ⟨store, hinsert, rfl⟩ := insert_yields hrow
  obtain ⟨hmem, rfl⟩ := Schema.mem_of_list? hl
  exact ⟨l, hmem, rfl, c, hc, rfl, values, supply, store, hfill, hinsert, rfl⟩

/-- A new row stands at the end of its list, has an id of its own and no links. -/
theorem insertColumns_yields (hd : w.db.Compiles d) {row : Row}
    (h : (w.insertColumns list data).Yields s (row, links) s') :
    ∃ l ∈ w.db.schema.lists, l.key = list ∧
      (∃ c, Resolve.changes l .create w.setPolicy w.context data = .ok c ∧ links = c.links) ∧
      s'.store = s.store.setRows list (s.store.rows list ++ [row]) ∧
      row.id ∉ s.store.ids list ∧ ∀ column, w.db.IsKey list column → row.cell column = .null := by
  obtain ⟨l, hl, rfl, c, hc, hlinks, values, supply, store, -, hinsert, rfl⟩ :=
    insertColumns_inserts h
  obtain ⟨rfl, hfresh, hnull⟩ := hd.insert_ok hl hinsert
  exact ⟨l, hl, rfl, ⟨c, hc, hlinks⟩, rfl, hfresh, hnull⟩

theorem change_yields {values : Value.Entries} (h : (w.change list id values).Yields s () s') :
    ∃ store, w.db.update s.store list id values = .ok store ∧ (store.row? list id).isSome = true ∧
      s' = { s with store } := by
  simp only [change, Work.bind_yields, Work.store_yields, Work.ofExcept_yields] at h
  obtain ⟨_, _, ⟨rfl, rfl⟩, store, _, ⟨hupdate, rfl⟩, _, m, hset, h⟩ := h
  obtain rfl := Work.setStore_yields.1 hset
  obtain ⟨_, _, ⟨rfl, rfl⟩, h⟩ := h
  refine ⟨store, hupdate, ?_⟩
  split at h
  · exact absurd h Work.not_throw_yields
  · next hsome =>
    exact ⟨by simpa [Option.isSome_iff_ne_none] using hsome, (Work.pure_yields.1 h).2.symm⟩

/-- The columns of a record are changed to the resolved data and their stamps. -/
theorem changeColumns_changes (h : (w.changeColumns list id data).Yields s links s') :
    ∃ l ∈ w.db.schema.lists, l.key = list ∧
      ∃ c, Resolve.changes l .update w.setPolicy w.context data = .ok c ∧ links = c.links ∧
        ∃ values supply,
          (Storage.stampAll l.storedFields c.values).run s.supply = .ok (values, supply) ∧
            ((∃ store, w.db.update s.store l.key id values = .ok store ∧
                (store.row? l.key id).isSome = true ∧ s' = { store, supply }) ∨
              (values = [] ∧ s' = { s with supply })) := by
  simp only [changeColumns, Work.bind_yields, listOf_yields, Work.ofExcept_yields] at h
  obtain ⟨l, _, ⟨hl, rfl⟩, c, m, ⟨hc, hm⟩, values, m', hvalues, h⟩ := h
  subst hm
  obtain ⟨supply, hstamp, rfl⟩ := Work.generate_yields hvalues
  obtain ⟨hmem, rfl⟩ := Schema.mem_of_list? hl
  refine ⟨l, hmem, rfl, c, hc, ?_⟩
  split at h
  · simp only [Work.bind_yields, Work.pure_yields] at h
    obtain ⟨_, _, hchange, rfl, rfl⟩ := h
    obtain ⟨store, hupdate, hsome, rfl⟩ := change_yields hchange
    exact ⟨rfl, values, supply, hstamp, .inl ⟨store, hupdate, hsome, rfl⟩⟩
  · next hempty =>
    obtain ⟨rfl, rfl⟩ := Work.pure_yields.1 h
    exact ⟨rfl, values, supply, hstamp, .inr ⟨by simpa using hempty, rfl⟩⟩

/-- A change of columns keeps all links. -/
theorem changeColumns_yields (hd : w.db.Compiles d) (hb : d.UsesBuiltIns) (hs : s.store.Keyed)
    (h : (w.changeColumns list id data).Yields s links s') :
    ∃ l ∈ w.db.schema.lists, l.key = list ∧
      (∃ c, Resolve.changes l .update w.setPolicy w.context data = .ok c ∧ links = c.links) ∧
      w.db.SameLinks s.store s'.store := by
  obtain ⟨l, hmem, rfl, c, hc, hlinks, values, supply, hstamp, hwritten⟩ := changeColumns_changes h
  refine ⟨l, hmem, rfl, ⟨c, hc, hlinks⟩, ?_⟩
  obtain ⟨store, hupdate, -, rfl⟩ | ⟨-, rfl⟩ := hwritten
  · exact hd.update_sameLinks hmem hs (hd.update_keys hb hmem hc hstamp) hupdate
  · exact .refl w.db s.store

end Worker

end RecordSchema
