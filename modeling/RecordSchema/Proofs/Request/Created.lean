import RecordSchema.Proofs.Request.Inserted
import RecordSchema.Proofs.Request.Keeps
import RecordSchema.Proofs.Store.Places

/-!
# Created records

A created record is read after its links are done, and links are written
into key columns only, which no record shows. So creation answers the
record of the row that was inserted, however many others it has created
on the way.
-/

namespace RecordSchema

open Layout

namespace Worker

variable {w : Worker} {d : Declarations} {s s' : Session} {list : String} {data : Value}

theorem createWithin_inserts {depth : Nat} {id : Int}
    (h : (w.createWithin depth list data).Yields s id s') :
    ∃ l ∈ w.db.schema.lists, l.key = list ∧
      ∃ c, Resolve.changes l .create w.setPolicy w.context data = .ok c ∧
        ∃ values supply row store,
          (Storage.fillAll l.storedFields c.values).run s.supply = .ok (values, supply) ∧
            w.db.insert s.store supply.now.1 l.key values = .ok (row, store) ∧
              Relation.ReflTransGen w.db.Step { store, supply } s' ∧ row.id = id := by
  cases depth with
  | zero => exact absurd h Work.not_throw_yields
  | succ depth =>
    simp only [createWithin, Work.bind_yields] at h
    obtain ⟨⟨row, links⟩, m, hcolumns, _, m', hlinks, h⟩ := h
    obtain ⟨rfl, rfl⟩ := Work.pure_yields.1 h
    obtain ⟨l, hl, rfl, c, hc, -, values, supply, store, hfill, hinsert, rfl⟩ :=
      insertColumns_inserts hcolumns
    have hwalk := w.linksWithin_walks depth l.key row.id links
    exact ⟨l, hl, rfl, c, hc, values, supply, row, store, hfill, hinsert,
      hwalk.of_yields hlinks, rfl⟩

/-- Creation answers the record of the row that it inserts. -/
theorem create_inserts (hd : w.db.Compiles d) {record : Record}
    (h : (w.create list data).Yields s record s') :
    ∃ l ∈ w.db.schema.lists, l.key = list ∧
      ∃ c, Resolve.changes l .create w.setPolicy w.context data = .ok c ∧
        ∃ values supply row store,
          (Storage.fillAll l.storedFields c.values).run s.supply = .ok (values, supply) ∧
            w.db.insert s.store supply.now.1 l.key values = .ok (row, store) ∧
              Relation.ReflTransGen w.db.Step { store, supply } s' ∧
                record = w.db.record l.key row := by
  simp only [create, recordOf, Work.bind_yields, Work.store_yields, Work.pure_yields] at h
  obtain ⟨id, m, hid, _, _, ⟨rfl, rfl⟩, rfl, rfl⟩ := h
  obtain ⟨l, hl, rfl, c, hc, values, supply, row, store, hfill, hinsert, hsteps, rfl⟩ :=
    createWithin_inserts hid
  refine ⟨l, hl, rfl, c, hc, values, supply, row, store, hfill, hinsert, hsteps, ?_⟩
  obtain ⟨rfl, hfresh, -⟩ := hd.insert_ok hl hinsert
  have hkeeps := Database.KeepsRows.of_steps hsteps hd
  obtain ⟨row', hrow', hagree⟩ := hkeeps l.key row.id row (Store.row?_append hfresh)
  rw [hrow', Option.map_some, Option.getD_some, hd.record_agree hl hagree]

/-- Creation answers the record of a row that holds what output expects. -/
theorem create_holds (hd : w.db.Compiles d)
    (hnames : ∀ l ∈ w.db.schema.lists, ∀ e ∈ l.fields, e.2.storage.namesOnce = true)
    {record : Record} (h : (w.create list data).Yields s record s') :
    ∃ l ∈ w.db.schema.lists, l.key = list ∧
      ∃ row, record = w.db.record list row ∧ w.db.Holds l row := by
  obtain ⟨l, hl, rfl, c, hc, values, supply, row, store, hfill, hinsert, -, rfl⟩ :=
    create_inserts hd h
  have hfilled := hd.isFilled_of_fillAll hnames hl hc hfill
  exact ⟨l, hl, rfl, row, rfl, hd.insert_holds hl hfilled hinsert⟩

end Worker

end RecordSchema
