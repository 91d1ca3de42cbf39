import RecordSchema.Proofs.Request.Work
import RecordSchema.Proofs.Store.Agree

/-!
# Named records

`Worker.Names` says which record a unique filter names. A filter names
one record at most, and link writes do not change which: so in a request
that makes several changes to links, every filter means what it meant
before the first of them.
-/

namespace RecordSchema

namespace Worker

variable {w : Worker} {d : Declarations} {s s' : Session} {list : String} {filter : Value}
  {id : Int}

/-- Whether a unique filter names the record of an id. -/
def Names (w : Worker) (s : Session) (list : String) (filter : Value) (id : Int) : Prop :=
  ∃ unique r, Resolve.identify w.db.schema w.context list filter = .ok unique ∧
    w.db.findOne s.store list unique = .ok (some r) ∧ r.id = id

theorem Names.eq {id' : Int} (h : w.Names s list filter id) (h' : w.Names s list filter id') :
    id = id' := by
  obtain ⟨unique, r, hu, hr, rfl⟩ := h
  obtain ⟨unique', r', hu', hr', rfl⟩ := h'
  obtain rfl := Except.ok.inj (hu.symm.trans hu')
  rw [Option.some.inj (Except.ok.inj (hr.symm.trans hr'))]

theorem Names.mem (h : w.Names s list filter id) : id ∈ s.store.ids list := by
  obtain ⟨unique, r, -, hr, rfl⟩ := h
  simp only [Database.findOne, Except.bind_eq_ok, Except.pure_eq_ok] at hr
  obtain ⟨_, -, c, -, hone⟩ := hr
  exact Store.mem_ids.2 ⟨r, (Store.selectOne_some hone).1, rfl⟩

theorem Names.agree (h : w.Names s list filter id) (hd : w.db.Compiles d)
    (hs : w.db.SameFields s.store s'.store) : w.Names s' list filter id := by
  obtain ⟨unique, r, hu, hr, rfl⟩ := h
  obtain ⟨r', hr', hid⟩ := hd.findOne_agree hs hr
  cases r' with
  | none => cases hid
  | some r' => exact ⟨unique, r', hu, hr', Option.some.inj hid⟩

/-- A unique filter names the same record in stores that agree. -/
theorem names_agree (hd : w.db.Compiles d) (hs : w.db.SameFields s.store s'.store) :
    w.Names s list filter id ↔ w.Names s' list filter id :=
  ⟨fun h => h.agree hd hs, fun h => h.agree hd hs.symm⟩

/-! ## Finding records -/

theorem find_yields {r : Option Row} :
    (w.find list filter).Yields s r s' ↔
      (∃ unique, Resolve.identify w.db.schema w.context list filter = .ok unique ∧
        w.db.findOne s.store list unique = .ok r) ∧ s' = s := by
  simp only [find, Work.bind_yields, Work.ofExcept_yields, Work.store_yields]
  constructor
  · rintro ⟨unique, _, ⟨hu, rfl⟩, _, _, ⟨rfl, rfl⟩, hr, rfl⟩
    exact ⟨⟨unique, hu, hr⟩, rfl⟩
  · rintro ⟨⟨unique, hu, hr⟩, rfl⟩
    exact ⟨unique, _, ⟨hu, rfl⟩, _, _, ⟨rfl, rfl⟩, hr, rfl⟩

theorem find_reads (w : Worker) (list : String) (filter : Value) : (w.find list filter).Reads :=
  (Work.reads_ofExcept _).bind fun _ => Work.reads_store.bind fun _ => Work.reads_ofExcept _

theorem require_reads (w : Worker) (list : String) (filter : Value) :
    (w.require list filter).Reads := by
  refine (w.find_reads list filter).bind fun r => ?_
  cases r with
  | none => exact Work.reads_throw _
  | some r => exact Work.reads_pure _

theorem requireAll_reads (w : Worker) (list : String) (filters : List Value) :
    (w.requireAll list filters).Reads := by
  induction filters with
  | nil => exact Work.reads_pure _
  | cons f r ih =>
    exact (w.require_reads list f).bind fun _ => ih.bind fun _ => Work.reads_pure _

theorem findAll_reads (w : Worker) (list : String) (filters : List Value) :
    (w.findAll list filters).Reads := by
  induction filters with
  | nil => exact Work.reads_pure _
  | cons f r ih =>
    exact (w.find_reads list f).bind fun _ => ih.bind fun _ => Work.reads_pure _

theorem recordOf_reads (w : Worker) (list : String) (id : Int) : (w.recordOf list id).Reads :=
  Work.reads_store.bind fun _ => Work.reads_pure _

theorem require_yields :
    (w.require list filter).Yields s id s' ↔ w.Names s list filter id ∧ s' = s := by
  simp only [require, Work.bind_yields, find_yields]
  constructor
  · rintro ⟨r, m, ⟨⟨unique, hu, hr⟩, rfl⟩, h⟩
    cases r with
    | none => exact absurd h Work.not_throw_yields
    | some r =>
      obtain ⟨rfl, rfl⟩ := Work.pure_yields.1 h
      exact ⟨⟨unique, r, hu, hr, rfl⟩, rfl⟩
  · rintro ⟨⟨unique, r, hu, hr, rfl⟩, rfl⟩
    exact ⟨some r, _, ⟨⟨unique, hu, hr⟩, rfl⟩, Work.pure_yields.2 ⟨rfl, rfl⟩⟩

theorem names_of_outcome (h : ((w.require list filter).outcome s).1.toOption = some id) :
    w.Names s list filter id :=
  (require_yields.1 (Prod.ext (Except.eq_ok_of_toOption h) rfl)).1

/-- Records that must exist are found for all filters or for none. -/
theorem requireAll_yields {filters : List Value} {ids : List Int}
    (h : (w.requireAll list filters).Yields s ids s') :
    s' = s ∧ List.Forall₂ (w.Names s list) filters ids := by
  induction filters generalizing ids with
  | nil =>
    obtain ⟨rfl, rfl⟩ := Work.pure_yields.1 h
    exact ⟨rfl, .nil⟩
  | cons f r ih =>
    simp only [requireAll, Work.bind_yields, require_yields, Work.pure_yields] at h
    obtain ⟨id, _, ⟨hid, rfl⟩, rest, _, hrest, rfl, rfl⟩ := h
    obtain ⟨rfl, hnames⟩ := ih hrest
    exact ⟨rfl, .cons hid hnames⟩

theorem mem_requireAll {filters : List Value} {ids : List Int}
    (h : (w.requireAll list filters).Yields s ids s') :
    id ∈ ids ↔ ∃ f ∈ filters, w.Names s list f id := by
  obtain ⟨-, hnames⟩ := requireAll_yields h
  constructor
  · exact hnames.exists_left
  · rintro ⟨f, hf, hid⟩
    obtain ⟨id', hmem, hid'⟩ := hnames.exists_right hf
    exact hid.eq hid' ▸ hmem

/-- Filters that name no record are passed over. -/
theorem findAll_yields {filters : List Value} {ids : List Int}
    (h : (w.findAll list filters).Yields s ids s') :
    s' = s ∧ ∀ id, id ∈ ids ↔ ∃ f ∈ filters, w.Names s list f id := by
  induction filters generalizing ids with
  | nil =>
    obtain ⟨rfl, rfl⟩ := Work.pure_yields.1 h
    exact ⟨rfl, fun id => by simp⟩
  | cons f r ih =>
    simp only [findAll, Work.bind_yields, find_yields, Work.pure_yields] at h
    obtain ⟨row, m, ⟨⟨unique, hu, hrow⟩, hm⟩, rest, m', hrest, rfl, rfl⟩ := h
    subst hm
    obtain ⟨rfl, hids⟩ := ih hrest
    refine ⟨rfl, fun id => ?_⟩
    have hhere : id ∈ row.toList.map (·.id) ↔ w.Names m' list f id := by
      rw [List.mem_map]
      constructor
      · rintro ⟨r, hr, rfl⟩
        exact ⟨unique, r, hu, Option.mem_toList.1 hr ▸ hrow, rfl⟩
      · rintro ⟨unique', r, hu', hr, rfl⟩
        obtain rfl := Except.ok.inj (hu.symm.trans hu')
        rw [Except.ok.inj (hrow.symm.trans hr)]
        exact ⟨r, by simp, rfl⟩
    rw [List.mem_append, hhere, hids, List.exists_mem_cons_iff]

end Worker

end RecordSchema
