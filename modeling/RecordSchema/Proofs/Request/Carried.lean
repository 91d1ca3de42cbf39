import RecordSchema.Proofs.Request.Steps
import RecordSchema.Proofs.Request.Typed

/-!
# What steps carry

A write takes steps with data of a kind (`Database.Writes`) when the data
of every record are of the kind that it creates or changes, at any depth
(`Worker.createWithin_writes`, `Worker.update_writes`). What these data are
is known only behind resolution and defaults, so the condition is on what
they resolve to.

Whatever is called, each step writes values of the fields
(`Database.Compiles.run_fills`).
-/

namespace RecordSchema

/-- A step that writes values of the fields. -/
abbrev Database.Fills (db : Database) : Session → Session → Prop :=
  db.Writes ListType.IsFilled

theorem Database.relinks_writes (db : Database) (P : ListType → Value.Entries → Prop) :
    db.Relinks (db.Writes P) where
  connect _ hp _ := .connect hp
  disconnect _ hp _ := .disconnect hp

namespace Worker

variable {w : Worker} {P : ListType → Value.Entries → Prop} {D : Nat → String → Value → Prop}
  {list : String} {data : Value}

/-! ## Columns -/

/-- Whether what data resolve to has a property once creation has filled in the rest. -/
def CarriesNew (w : Worker) (P : ListType → Value.Entries → Prop) (list : String) (data : Value) :
    Prop :=
  ∀ l ∈ w.db.schema.lists, l.key = list → ∀ c,
    Resolve.changes l .create w.setPolicy w.context data = .ok c → ∀ m values m',
      (Storage.fillAll l.storedFields c.values).run m = .ok (values, m') → P l values

/-- Whether what data resolve to has a property once an update has stamped it. -/
def CarriesChanged (w : Worker) (P : ListType → Value.Entries → Prop) (list : String)
    (data : Value) : Prop :=
  ∀ l ∈ w.db.schema.lists, l.key = list → ∀ c,
    Resolve.changes l .update w.setPolicy w.context data = .ok c → ∀ m values m',
      (Storage.stampAll l.storedFields c.values).run m = .ok (values, m') → P l values

/-- Whether the data of all records that the links of a write create have a property. -/
def CarriesBelow (w : Worker) (Q : String → Value → Prop) (op : Operation) (list : String)
    (data : Value) : Prop :=
  ∀ l ∈ w.db.schema.lists, l.key = list → ∀ c,
    Resolve.changes l op w.setPolicy w.context data = .ok c → ∀ e ∈ c.links, ∀ p,
      w.db.plan list e.1 = .ok p → ∀ v ∈ e.2.newItems, Q p.target v

theorem insertColumns_writes (h : w.CarriesNew P list data) :
    (w.insertColumns list data).Walks (w.db.Writes P) := by
  refine (Work.reads_ofExcept _).bind_walks fun l _ hl => ?_
  obtain ⟨hmem, rfl⟩ := Schema.mem_of_list? (listOf_yields.1 hl).1
  refine (Work.reads_ofExcept _).bind_walks fun c _ hc => ?_
  have hc := (Work.ofExcept_yields.1 hc).1
  refine (Work.generate_walks fun _ _ supply _ => .draw supply).bind fun values s m hvalues => ?_
  obtain ⟨supply, hfill, rfl⟩ := Work.generate_yields hvalues
  have hcarried := h l hmem rfl c hc _ _ _ hfill
  have hinsert : (w.insert l.key values).Walks (w.db.Writes P) := by
    intro s
    simp only [insert, Work.outcome_bind, Work.outcome_get, Work.outcome_ofExcept]
    cases hi : w.db.insert s.store s.supply.now.1 l.key values with
    | error e => exact .refl
    | ok r => exact .single (.insert hmem hcarried hi)
  exact hinsert.bind fun row _ _ _ => (Work.reads_pure _).walks

theorem changeColumns_writes (h : w.CarriesChanged P list data) (id : Int) :
    (w.changeColumns list id data).Walks (w.db.Writes P) := by
  refine (Work.reads_ofExcept _).bind_walks fun l _ hl => ?_
  obtain ⟨hmem, rfl⟩ := Schema.mem_of_list? (listOf_yields.1 hl).1
  refine (Work.reads_ofExcept _).bind_walks fun c _ hc => ?_
  have hc := (Work.ofExcept_yields.1 hc).1
  refine (Work.generate_walks fun _ _ supply _ => .draw supply).bind fun values s m hvalues => ?_
  obtain ⟨supply, hstamp, rfl⟩ := Work.generate_yields hvalues
  have hcarried := h l hmem rfl c hc _ _ _ hstamp
  have hchange : (w.change l.key id values).Walks (w.db.Writes P) := by
    intro s
    simp only [change, Work.outcome_bind, Work.outcome_store, Work.outcome_ofExcept]
    cases hu : w.db.update s.store l.key id values with
    | error e => exact .refl
    | ok t =>
      have hone : Relation.ReflTransGen (w.db.Writes P) s { s with store := t } :=
        .single (.update hmem hcarried hu)
      simp only [Work.outcome_setStore]
      split <;> exact hone
  split
  · exact hchange.bind fun _ _ _ _ => (Work.reads_pure _).walks
  · exact (Work.reads_pure _).walks

/-! ## Records -/

/-- Creating a record at any depth carries what its data and those of the records below it
carry. -/
theorem createWithin_writes (hown : ∀ depth list data, D (depth + 1) list data →
      w.CarriesNew P list data ∧ w.CarriesBelow (D depth) .create list data)
    {depth : Nat} (h : D depth list data) :
    (w.createWithin depth list data).Walks (w.db.Writes P) := by
  induction depth generalizing list data with
  | zero => exact (Work.reads_throw _).walks
  | succ depth ih =>
    obtain ⟨hnew, hbelow⟩ := hown depth list data h
    refine (insertColumns_writes hnew).bind fun ⟨row, links⟩ _ _ hcolumns => ?_
    obtain ⟨l, hl, rfl, c, hc, rfl, -⟩ := insertColumns_inserts hcolumns
    have hlinks : (w.applyLinks (w.createWithin depth) l.key row.id c.links).Walks
        (w.db.Writes P) :=
      applyLinks_walks (w.db.relinks_writes P) fun e he p hp v hv =>
        ih (hbelow l hl rfl c hc e he p hp v hv)
    exact hlinks.bind fun _ _ _ _ => (Work.reads_pure _).walks

theorem create_writes (h : (w.createId list data).Walks (w.db.Writes P)) :
    (w.create list data).Walks (w.db.Writes P) :=
  h.bind fun id _ _ _ => (w.recordOf_reads list id).walks

/-- Updating a record carries what its data and those of the records below it carry. -/
theorem update_writes (hchanged : w.CarriesChanged P list data)
    (hbelow : w.CarriesBelow (fun list data => (w.createId list data).Walks (w.db.Writes P))
      .update list data) (filter : Value) :
    (w.update list filter data).Walks (w.db.Writes P) := by
  refine (w.require_reads list filter).bind_walks fun id _ _ => ?_
  refine (w.recordOf_reads list id).bind_walks fun before _ _ => ?_
  refine (changeColumns_writes hchanged id).bind fun links _ _ hcolumns => ?_
  obtain ⟨l, hl, rfl, c, hc, rfl, -⟩ := changeColumns_changes hcolumns
  have hlinks : (w.applyLinks w.createId l.key id c.links).Walks (w.db.Writes P) :=
    applyLinks_walks (w.db.relinks_writes P) (hbelow l hl rfl c hc)
  refine hlinks.bind fun _ _ _ _ => ?_
  refine Work.reads_store.bind_walks fun t _ _ => ?_
  split <;> exact (Work.reads_pure _).walks

end Worker

/-! ## Values of the fields -/

namespace Database.Compiles

variable {w : Worker} {db : Database} {d : Declarations}

theorem carriesNew_isFilled (h : w.db.Compiles d)
    (hnames : ∀ l ∈ w.db.schema.lists, ∀ e ∈ l.fields, e.2.storage.namesOnce = true)
    (list : String) (data : Value) : w.CarriesNew ListType.IsFilled list data :=
  fun _ hl _ _ hc _ _ _ hfill => h.isFilled_of_fillAll hnames hl hc hfill

theorem carriesChanged_isFilled (h : w.db.Compiles d) (list : String) (data : Value) :
    w.CarriesChanged ListType.IsFilled list data := by
  intro l hl _ c hc m values m' hstamp
  have hfilled := Resolve.changes_isFilled (.inr rfl) (h.fields_nodup hl) hc
  exact Storage.stampAll_isFilled (List.Subset.refl _) hfilled hstamp

theorem createWithin_fills (h : w.db.Compiles d)
    (hnames : ∀ l ∈ w.db.schema.lists, ∀ e ∈ l.fields, e.2.storage.namesOnce = true)
    (depth : Nat) (list : String) (data : Value) :
    (w.createWithin depth list data).Walks w.db.Fills :=
  Worker.createWithin_writes (D := fun _ _ _ => True) (fun _ list data _ =>
    ⟨h.carriesNew_isFilled hnames list data, fun _ _ _ _ _ _ _ _ _ _ _ => trivial⟩) trivial

theorem work_fills (h : db.Compiles d)
    (hnames : ∀ l ∈ db.schema.lists, ∀ e ∈ l.fields, e.2.storage.namesOnce = true)
    (c : WriteCall) : (c.work db).Walks db.Fills := by
  cases c with
  | create setPolicy context list data =>
    let w : Worker := { db, setPolicy, context }
    exact w.create_writes (h.createWithin_fills (w := w) hnames w.db.depth list data)
  | update setPolicy context list filter data =>
    let w : Worker := { db, setPolicy, context }
    exact w.update_writes (h.carriesChanged_isFilled (w := w) list data)
      (fun _ _ _ _ _ _ _ p _ v _ => h.createWithin_fills (w := w) hnames w.db.depth p.target v)
      filter

/-- Whatever is called writes values of the fields. -/
theorem run_fills (h : db.Compiles d)
    (hnames : ∀ l ∈ db.schema.lists, ∀ e ∈ l.fields, e.2.storage.namesOnce = true)
    (calls : List WriteCall) (s : Session) : Relation.ReflTransGen db.Fills s (db.run calls s) :=
  run_walks (fun c _ => h.work_fills hnames c) s

end Database.Compiles

end RecordSchema
