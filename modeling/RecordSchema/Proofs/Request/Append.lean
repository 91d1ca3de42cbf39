import RecordSchema.Proofs.Request.Columns
import RecordSchema.Proofs.Request.Mentioned

/-!
# Creating records without links

Records whose data mention no relation are rows at the end of their
list, each with a new id. Nothing else changes, so whatever was linked
stays linked.
-/

namespace RecordSchema

namespace Store

/-- Whether a store is another with certain rows at the end of a list. -/
structure Appends (list : String) (new : List Row) (s s' : Store) : Prop where
  rows : s'.rows list = s.rows list ++ new
  others : ∀ other, other ≠ list → s'.rows other = s.rows other
  pairs : ∀ table, s'.pairs table = s.pairs table

namespace Appends

variable {list : String} {new later : List Row} {s s' s'' : Store}

theorem refl (list : String) (s : Store) : Appends list [] s s :=
  ⟨(List.append_nil _).symm, fun _ _ => rfl, fun _ => rfl⟩

theorem trans (h : Appends list new s s') (h' : Appends list later s' s'') :
    Appends list (new ++ later) s s'' where
  rows := by rw [h'.rows, h.rows, List.append_assoc]
  others other ho := (h'.others other ho).trans (h.others other ho)
  pairs table := (h'.pairs table).trans (h.pairs table)

theorem of_setRows (s : Store) (list : String) (row : Row) :
    Appends list [row] s (s.setRows list (s.rows list ++ [row])) where
  rows := by rw [rows_setRows, if_pos rfl]
  others other ho := by rw [rows_setRows, if_neg ho]
  pairs _ := rfl

theorem ids_eq (h : Appends list new s s') : s'.ids list = s.ids list ++ new.map (·.id) := by
  rw [ids, h.rows, List.map_append]
  rfl

/-- New rows at the end leave the linked records linked. -/
theorem linked_eq {p : RelationPlan} (hp : p.ToMany) (h : Appends p.target new s s') (i : Int) :
    s'.linked p i = s.linked p i ++ (new.filter (s.isReached p i)).map (·.id) := by
  have hreached : s'.isReached p i = s.isReached p i := by
    funext r
    cases hp with
    | targetKey _ hlink => simp only [isReached, hlink]
    | @join table side hlink =>
      simp only [isReached, hlink]
      cases side <;> simp only [linksFrom, h.pairs]
  rw [linked, h.rows, hreached, List.filter_append, List.map_append]
  rfl

end Appends

end Store

namespace Worker

variable {w : Worker} {d : Declarations} {s s' : Session} {list : String}

/-- A record without links is created as one row at the end. -/
theorem createWithin_appends (hd : w.db.Compiles d) (hb : d.UsesBuiltIns) {depth : Nat}
    {data : Value} (hdata : w.Mentions list [] data) {id : Int}
    (h : (w.createWithin depth list data).Yields s id s') :
    ∃ row : Row, row.id = id ∧ id ∉ s.store.ids list ∧
      Store.Appends list [row] s.store s'.store := by
  cases depth with
  | zero => exact absurd h Work.not_throw_yields
  | succ depth =>
    simp only [createWithin, Work.bind_yields] at h
    obtain ⟨⟨row, links⟩, m, hcolumns, _, m', hlinks, h⟩ := h
    obtain ⟨l, hl, rfl, ⟨c, hc, rfl⟩, hstore, hfresh, -⟩ := insertColumns_yields hd hcolumns
    obtain ⟨_, hvs, -⟩ := Except.bind_eq_ok.1 hc
    obtain ⟨es, rfl, -⟩ := Resolve.data_ok hvs
    have hnone := hd.links_eq_nil hb hl (.inl rfl) (hdata l hl rfl) hc
    simp only [hnone, applyLinks] at hlinks
    obtain ⟨-, rfl⟩ := Work.pure_yields.1 hlinks
    obtain ⟨rfl, rfl⟩ := Work.pure_yields.1 h
    exact ⟨row, rfl, hfresh, hstore ▸ Store.Appends.of_setRows s.store l.key row⟩

/-- Records without links are created as rows at the end, with different ids. -/
theorem createAll_appends (hd : w.db.Compiles d) (hb : d.UsesBuiltIns) {items : List Value}
    (hitems : ∀ v ∈ items, w.Mentions list [] v) {ids : List Int}
    (h : (createAll w.createId list items).Yields s ids s') :
    ∃ new : List Row, new.map (·.id) = ids ∧ new.length = items.length ∧ ids.Nodup ∧
      (∀ id ∈ ids, id ∉ s.store.ids list) ∧ Store.Appends list new s.store s'.store := by
  induction items generalizing s ids with
  | nil =>
    obtain ⟨rfl, rfl⟩ := Work.pure_yields.1 h
    exact ⟨[], rfl, rfl, List.nodup_nil, nofun, .refl list s.store⟩
  | cons v r ih =>
    obtain ⟨hv, hr⟩ := List.forall_mem_cons.1 hitems
    simp only [createAll, Work.bind_yields, Work.pure_yields] at h
    obtain ⟨id, m, hid, rest, m', hrest, rfl, rfl⟩ := h
    obtain ⟨row, rfl, hfresh, happends⟩ := createWithin_appends hd hb hv hid
    obtain ⟨new, rfl, hlength, hnodup, hfresh', happends'⟩ := ih hr hrest
    rw [happends.ids_eq] at hfresh'
    refine ⟨row :: new, rfl, by rw [List.length_cons, List.length_cons, hlength], ?_, ?_,
      happends.trans happends'⟩
    · refine List.nodup_cons.2 ⟨fun hmem => hfresh' _ hmem ?_, hnodup⟩
      exact List.mem_append_right _ List.mem_cons_self
    · refine List.forall_mem_cons.2 ⟨hfresh, fun id hid hmem => hfresh' id hid ?_⟩
      exact List.mem_append_left _ hmem

end Worker

end RecordSchema
