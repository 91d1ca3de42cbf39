import RecordSchema.Proofs.Request.Created
import RecordSchema.Proofs.Request.Given

/-!
# Stamped records

A write that succeeds answers a record with a time of its own in every
stamped field of the list. The stamp replaces whatever the data say, and
the rest of the write generates values for other records and changes
links, so it is still there when the record is read.

The columns of composites are not stamped, though they may be declared so.
One that has no default and that the data leave out is null in a new
record and stays what it was in one that is updated, so the time of the
write is nowhere to be found.
-/

namespace RecordSchema

open Layout

/-- What a record holds for a column of a composite. -/
def Value.Entries.column (record : Value.Entries) (key name : String) : Value :=
  ((record.get key).entries?.getD []).get name

/-- Whether a record holds a time taken between two supplies in every stamped field. -/
def ListType.IsStamped (l : ListType) (record : Record) (m m' : Supply) : Prop :=
  ∀ key f, (key, f) ∈ l.fields → f.storage.isStamped = true →
    ∃ t, m.IsStamp m' (.dateTime t) ∧ record.value? key = some (.dateTime t.naive)

/-- Whether a record is empty in the columns of composites that have no default and that data
leave out. -/
def ListType.LeavesEmpty (l : ListType) (record : Record) (data : Value.Entries) : Prop :=
  ∀ key f fields name sub, (key, f) ∈ l.fields → f.storage = .multi fields → (name, sub) ∈ fields →
    sub.default? = none → data.Omits key name → record.column key name = .null

/-- Whether a record is as before in the columns of composites that data leave out. -/
def ListType.LeavesAs (l : ListType) (record before : Record) (data : Value.Entries) : Prop :=
  ∀ key f fields name sub, (key, f) ∈ l.fields → f.storage = .multi fields → (name, sub) ∈ fields →
    data.Omits key name → record.column key name = before.column key name

theorem ListType.mem_storedFields_of_mem {l : ListType} {key : String} {f : Field}
    (hf : (key, f) ∈ l.fields) (hs : f.storage.isStored = true) :
    (key, f.storage) ∈ l.storedFields := by
  refine List.mem_filterMap.2 ⟨(key, f), hf, ?_⟩
  dsimp only
  split
  · next h =>
    rw [h] at hs
    cases hs
  · next h =>
    rw [h] at hs
    cases hs
  · rfl

theorem ListType.storedFields_nodup {l : ListType} (h : (l.fields.map Prod.fst).Nodup) :
    (l.storedFields.map Prod.fst).Nodup := by
  refine h.sublist (Keys.filterMap_sublist (fun e b hb => ?_) l.fields)
  obtain ⟨key, f⟩ := e
  dsimp only at hb
  split at hb <;> cases hb
  rfl

/-! ## Reading stamps -/

namespace Storage

variable {s : Storage}

theorem isScalarish_of_isStamped (hs : s.isStamped = true) : s.isScalarish = true := by
  cases s <;> first | rfl | cases hs

theorem isStored_of_isStamped (hs : s.isStamped = true) : s.isStored = true := by
  cases s <;> first | rfl | cases hs

/-- A column that takes a stamp gives it back without its offset. -/
theorem read_stamp (hs : s.isStamped = true) (hp : s.problems = []) {column : String}
    {c : Column} (hc : IsColumnOf (column, s) c) {t : DateTime} {cell : Cell}
    (hb : c.type.bind (.dateTime t) = .ok cell) : c.type.read cell = .dateTime t.naive := by
  cases s with
  | scalar f =>
    obtain ⟨c, nullable, hof, rfl⟩ := hc
    have hscalar : f.scalar = .dateTime := by
      simp only [isStamped] at hs
      simpa [problems, scalarProblems, complain, hs] using hp
    cases hof
    dsimp only at hb ⊢
    by_cases hmany : f.mode = .many
    · rw [if_pos hmany] at hb
      cases hb
    · rw [if_neg hmany, Column.scalarType, hscalar] at hb ⊢
      cases hb
      rfl
  | _ => cases hs

end Storage

namespace Database.Compiles

variable {db : Database} {d : Declarations} {l : ListType} {key name : String} {f : Field}
  {values : Value.Entries} {given : List (String × Value)} {m m' : Supply}

/-- A row that holds what it is given has a record with every stamp. -/
theorem record_isStamped (h : db.Compiles d) (hl : l ∈ db.schema.lists) {r : Row}
    (hvalues : ∀ key f, (key, f) ∈ l.fields → f.storage.isStamped = true →
      values.IsStamped key m m')
    (ha : (tableOf db.schema.plans l).assign values = .ok given)
    (hbound : ∀ slot ∈ columnKinds l, ∀ c ∈ (tableOf db.schema.plans l).columns,
      IsColumnOf slot c → ∀ v, (slot.1, v) ∈ given →
        TableLayout.IsBound given c (r.cell slot.1)) :
    l.IsStamped (db.record l.key r) m m' := by
  intro key f hf hstamped
  have hs := Storage.isScalarish_of_isStamped hstamped
  have hid : key ≠ "id" := by
    rintro rfl
    rw [Declarations.not_isStamped_of_isNumberedKey (h.problems_eq_nil hl hf)
      (h.isNumberedKey hl hf)] at hstamped
    cases hstamped
  obtain ⟨column, hslot, hvalue⟩ := h.record_column hl hf hid hs r
  have hmem := mem_columnKinds.2 ⟨key, f, hf, hid, hslot⟩
  obtain ⟨c, hc, hcolumn, -⟩ := h.exists_column hl hmem
  obtain ⟨⟨v, hv⟩, hall⟩ := hvalues key f hf hstamped
  have hset : v.isUnset = false := by
    obtain ⟨n, -, -, rfl⟩ := hall v hv
    rfl
  have hgiven := h.given_of_entry hl hf hid hs ha hslot hv hset
  obtain ⟨u, hu, hbind⟩ := hbound _ hmem c hc hcolumn v hgiven
  rw [hcolumn.name] at hu
  have hstamp := hall u (h.entry_of_given_scalarish hl hf hid hs ha hslot hu)
  obtain ⟨n, hle, hlt, rfl⟩ := hstamp
  refine ⟨m.clock n, ⟨n, hle, hlt, rfl⟩, ?_⟩
  have hname : c.name = column := hcolumn.name
  rw [hvalue, ← hname, h.readColumn_eq hl hc, hname,
    Storage.read_stamp hstamped (h.problems_eq_nil hl hf) hcolumn hbind]

/-- What a record holds for a column of a composite is what the column reads. -/
theorem record_subfield (h : db.Compiles d) (hl : l ∈ db.schema.lists) (hf : (key, f) ∈ l.fields)
    {fields : List (String × Storage)} (hs : f.storage = .multi fields)
    (hnames : f.storage.namesOnce = true) {sub : Storage} (hsub : (name, sub) ∈ fields) :
    key ≠ "id" ∧ (subfieldColumn key name sub, sub) ∈ columnKinds l ∧
      ∃ c ∈ (tableOf db.schema.plans l).columns, IsColumnOf (subfieldColumn key name sub, sub) c ∧
        ∀ r : Row, (db.record l.key r).column key name =
          c.type.read (r.cell (subfieldColumn key name sub)) := by
  have hid : key ≠ "id" := by
    rintro rfl
    have hn := h.isNumberedKey hl hf
    rw [Declarations.isNumberedKey, hs] at hn
    cases hn
  have hmem : (subfieldColumn key name sub, sub) ∈ columnKinds l := by
    refine mem_columnKinds.2 ⟨key, f, hf, hid, ?_⟩
    rw [hs]
    exact List.mem_map.2 ⟨(name, sub), hsub, rfl⟩
  obtain ⟨c, hc, hcolumn, -⟩ := h.exists_column hl hmem
  refine ⟨hid, hmem, c, hc, hcolumn, fun r => ?_⟩
  rw [hs] at hnames
  obtain ⟨es, hvalue, hreads⟩ := h.record_composite hl hf hid hs (of_decide_eq_true hnames) r
  have hname : c.name = subfieldColumn key name sub := hcolumn.name
  have hget : Value.Entries.get (db.record l.key r) key = .map es := by
    rw [Value.Entries.get, hvalue, Option.getD_some]
  rw [Value.Entries.column, hget]
  exact (hreads _ hsub).trans (hname ▸ h.readColumn_eq hl hc r)

end Database.Compiles

/-! ## Writes -/

theorem Database.Step.leads {db : Database} {s m : Session} (h : db.Step s m) :
    s.supply.Leads m.supply := by
  cases h with
  | fill hl hrun => exact Storage.draws_fillAll _ _ _ _ _ hrun
  | insert hl hrun => exact .refl s.supply
  | connect hp id targets => exact .refl s.supply
  | disconnect hp id targets => exact .refl s.supply

/-- Steps of creation do nothing to the supply but draw on it. -/
theorem Supply.Leads.of_steps {db : Database} {s m : Session}
    (h : Relation.ReflTransGen db.Step s m) : s.supply.Leads m.supply := by
  induction h with
  | refl => exact .refl s.supply
  | tail _ hstep ih => exact ih.trans hstep.leads

theorem ListType.IsStamped.mono {l : ListType} {record : Record} {m m' m'' : Supply}
    (h : l.IsStamped record m m') (hm : m'.Leads m'') : l.IsStamped record m m'' := by
  intro key f hf hs
  obtain ⟨t, ht, hvalue⟩ := h key f hf hs
  exact ⟨t, ht.mono (.refl m) hm, hvalue⟩

namespace Worker

variable {w : Worker} {d : Declarations} {s s' : Session} {list : String} {data : Value}
  {record : Record}

/-- A new record is stamped in its fields, and empty in the columns of composites that
nothing fills in. -/
theorem create_isStamped (hd : w.db.Compiles d)
    (hnames : ∀ l ∈ w.db.schema.lists, ∀ e ∈ l.fields, e.2.storage.namesOnce = true)
    (h : (w.create list data).Yields s record s') :
    ∃ l ∈ w.db.schema.lists, l.key = list ∧
      ∃ c, Resolve.changes l .create w.setPolicy w.context data = .ok c ∧
        l.IsStamped record s.supply s'.supply ∧ l.LeavesEmpty record c.values := by
  obtain ⟨l, hl, rfl, c, hc, values, supply, row, store, hfill, hinsert, hsteps, rfl⟩ :=
    create_inserts hd h
  have hkeys := ListType.storedFields_nodup (hd.fields_nodup hl)
  obtain ⟨given, hgiven, hcells⟩ := hd.insert_given hl hinsert
  refine ⟨l, hl, rfl, c, hc, ?_, ?_⟩
  · have hvalues (key : String) (f : Field) (hf : (key, f) ∈ l.fields)
        (hs : f.storage.isStamped = true) : values.IsStamped key s.supply supply := by
      have hstored := ListType.mem_storedFields_of_mem hf (Storage.isStored_of_isStamped hs)
      exact Storage.fillAll_isStamped hfill hkeys hstored hs
    have hstamped := hd.record_isStamped hl (r := row) hvalues hgiven
      fun slot hslot c hc hcolumn => (hcells slot hslot c hc hcolumn).1
    exact hstamped.mono (Supply.Leads.of_steps hsteps)
  · intro key f fields name sub hf hs hsub hdefault homits
    obtain ⟨hid, hslot, column, hcolumn, hof, hreads⟩ :=
      hd.record_subfield hl hf hs (hnames l hl _ hf) hsub
    have hlegal := Storage.legal_of_mem (hs ▸ hd.problems_eq_nil hl hf) hsub
    have hnodup : (fields.map Prod.fst).Nodup := by
      have honce := hnames l hl _ hf
      rw [hs] at honce
      exact of_decide_eq_true honce
    have hstored : (key, .multi fields) ∈ l.storedFields :=
      hs ▸ ListType.mem_storedFields_of_mem hf (hs ▸ rfl)
    have hleft : values.Omits key name := by
      refine Storage.fillAll_omits hfill hkeys hstored (fun other hother => ?_) homits
      obtain rfl := Keys.eq_of_mem hnodup hsub hother
      exact Storage.defaultValue_eq_unset hlegal.1 hdefault
    have hnot := hd.not_given_of_omits hl hf hid hs hsub hgiven hleft
    rw [hreads, (hcells _ hslot column hcolumn hof).2 hdefault hnot]
    cases column.type <;> rfl

/-- An update answers the record of the row that it changes, if there is anything to change. -/
theorem update_changes (hd : w.db.Compiles d) {filter : Value}
    (h : (w.update list filter data).Yields s record s') :
    ∃ l ∈ w.db.schema.lists, l.key = list ∧
      ∃ c, Resolve.changes l .update w.setPolicy w.context data = .ok c ∧
        ∃ id before after values supply store, w.Names s list filter id ∧
          s.store.row? list id = some before ∧
          (Storage.stampAll l.storedFields c.values).run s.supply = .ok (values, supply) ∧
          (w.db.update s.store l.key id values = .ok store ∨ values = [] ∧ after = before) ∧
          store.row? l.key id = some after ∧
          Relation.ReflTransGen w.db.Step { store, supply } s' ∧
          record = w.db.record l.key after := by
  simp only [update, Work.bind_yields, require_yields] at h
  obtain ⟨id, m, ⟨hid, rfl⟩, _, m₀, hrecord, links, m₁, hcolumns, _, m₂, hlinks, h⟩ := h
  obtain rfl := (w.recordOf_reads list id).eq hrecord
  obtain ⟨l, hl, rfl, c, hc, rfl, values, supply, hstamp, hwritten⟩ :=
    changeColumns_changes hcolumns
  have hsteps : Relation.ReflTransGen w.db.Step m₁ m₂ :=
    (w.linksWithin_walks w.db.depth l.key id c.links).of_yields hlinks
  obtain ⟨before, hbefore⟩ : ∃ before, m.store.row? l.key id = some before := by
    obtain ⟨r, hr, rfl⟩ := Store.mem_ids.1 hid.mem
    exact Keys.exists_find? hr Row.id
  obtain ⟨after, hafter, hupdate⟩ : ∃ after, m₁.store.row? l.key id = some after ∧
      (w.db.update m.store l.key id values = .ok m₁.store ∨ values = [] ∧ after = before) := by
    obtain ⟨store, hupdate, hsome, rfl⟩ | ⟨hnone, rfl⟩ := hwritten
    · obtain ⟨after, hafter⟩ := Option.isSome_iff_exists.1 hsome
      exact ⟨after, hafter, .inl hupdate⟩
    · exact ⟨before, hbefore, .inr ⟨hnone, rfl⟩⟩
  have hsupply : m₁ = { store := m₁.store, supply } := by
    obtain ⟨store, -, -, rfl⟩ | ⟨-, rfl⟩ := hwritten <;> rfl
  obtain ⟨row, hrow, hagree⟩ := Database.KeepsRows.of_steps hsteps hd l.key id after hafter
  obtain ⟨_, _, ⟨rfl, rfl⟩, h⟩ := h
  rw [hrow] at h
  obtain ⟨rfl, rfl⟩ := Work.pure_yields.1 h
  exact ⟨l, hl, rfl, c, hc, id, before, after, values, supply, m₁.store, hid, hbefore, hstamp,
    hupdate, hafter, hsupply ▸ hsteps, (hd.record_agree hl hagree).symm⟩

/-- A changed record is stamped in its fields, and is as it was in the columns of composites
that the data leave out. -/
theorem update_isStamped (hd : w.db.Compiles d)
    (hnames : ∀ l ∈ w.db.schema.lists, ∀ e ∈ l.fields, e.2.storage.namesOnce = true)
    {filter : Value} (h : (w.update list filter data).Yields s record s') :
    ∃ l ∈ w.db.schema.lists, l.key = list ∧
      ∃ c, Resolve.changes l .update w.setPolicy w.context data = .ok c ∧
        ∃ id before, w.Names s list filter id ∧ s.store.row? list id = some before ∧
          l.IsStamped record s.supply s'.supply ∧
          l.LeavesAs record (w.db.record list before) c.values := by
  obtain ⟨l, hl, rfl, c, hc, id, before, after, values, supply, store, hid, hbefore, hstamp,
    hupdate, hafter, hsteps, rfl⟩ := update_changes hd h
  have hkeys := ListType.storedFields_nodup (hd.fields_nodup hl)
  have hvalues (key : String) (f : Field) (hf : (key, f) ∈ l.fields)
      (hs : f.storage.isStamped = true) : values.IsStamped key s.supply supply := by
    have hstored := ListType.mem_storedFields_of_mem hf (Storage.isStored_of_isStamped hs)
    exact Storage.stampAll_isStamped hstamp hkeys hstored hs
  refine ⟨l, hl, rfl, c, hc, id, before, hid, hbefore, ?_⟩
  obtain hupdate | ⟨rfl, rfl⟩ := hupdate
  · obtain ⟨given, hgiven, hcells⟩ := hd.update_given hl hupdate hbefore hafter
    constructor
    · have hstamped := hd.record_isStamped hl (r := after) hvalues hgiven
        fun slot hslot c hc hcolumn => (hcells slot hslot c hc hcolumn).1
      exact hstamped.mono (Supply.Leads.of_steps hsteps)
    · intro key f fields name sub hf hs hsub homits
      obtain ⟨hid, hslot, column, hcolumn, hof, hreads⟩ :=
        hd.record_subfield hl hf hs (hnames l hl _ hf) hsub
      have hstored : (key, .multi fields) ∈ l.storedFields :=
        hs ▸ ListType.mem_storedFields_of_mem hf (hs ▸ rfl)
      have hleft := Storage.stampAll_omits hstamp hkeys hstored homits
      have hnot := hd.not_given_of_omits hl hf hid hs hsub hgiven hleft
      rw [hreads, hreads, (hcells _ hslot column hcolumn hof).2 hnot]
  · -- Without values there is no stamped field.
    constructor
    · intro key f hf hs
      obtain ⟨⟨v, hv⟩, -⟩ := hvalues key f hf hs
      cases hv
    · exact fun _ _ _ _ _ _ _ _ _ => rfl

end Worker

/-- Every write that succeeds puts a time of its own into every stamped field of the record
that it answers. The columns of composites are not stamped: one that the data leave out
is null in a new record unless it has a default, and the old one in a changed record. -/
theorem Database.Compiles.writes_stamp {w : Worker} {d : Declarations} (hd : w.db.Compiles d)
    (hnames : ∀ l ∈ w.db.schema.lists, ∀ e ∈ l.fields, e.2.storage.namesOnce = true)
    (list : String) (data : Value) {s s' : Session} {record : Record} :
    ((w.create list data).Yields s record s' →
      ∃ l ∈ w.db.schema.lists, l.key = list ∧
        ∃ c, Resolve.changes l .create w.setPolicy w.context data = .ok c ∧
          l.IsStamped record s.supply s'.supply ∧ l.LeavesEmpty record c.values) ∧
    (∀ filter, (w.update list filter data).Yields s record s' →
      ∃ l ∈ w.db.schema.lists, l.key = list ∧
        ∃ c, Resolve.changes l .update w.setPolicy w.context data = .ok c ∧
          ∃ id before, w.Names s list filter id ∧ s.store.row? list id = some before ∧
            l.IsStamped record s.supply s'.supply ∧
            l.LeavesAs record (w.db.record list before) c.values) :=
  ⟨Worker.create_isStamped hd hnames, fun _ => Worker.update_isStamped hd hnames⟩

/-! ## Posts with an audit -/

/-- The columns of an audit, one of which is declared to be stamped. -/
def auditColumns : List (String × Storage) :=
  [("note", .scalar { scalar := .text }),
    ("at", .scalar { scalar := .dateTime, updatedAt := true })]

/-- A schema of posts with the time of their last change, and with an audit. -/
def audits : Declarations :=
  ({} : Declarations).declare {
    key := "Post"
    specs := [
      ("title", .scalar .text {}),
      ("changed", .timestamp false { updatedAt := true }),
      ("audit", .composite auditColumns none none)] }

def auditWorker : Worker where
  db := audits.database.result
  setPolicy := .reject

/-- What creating a post ends with. -/
def auditPosted (data : Value.Entries) : Except Fault Record × Session :=
  (auditWorker.create "Post" (.map data)).outcome { supply := blogSupply }

/-- What changing the title of a post without an audit ends with. -/
def auditChanged : Except Fault Record × Session :=
  (auditWorker.update "Post" (.map [(.text "id", .int 1)])
    (.map [(.text "title", .text "y")])).outcome (auditPosted [(.text "title", .text "x")]).2

/-- Whether a composite has a column of a name without a default. -/
def Storage.hasPlain (s : Storage) (name : String) : Bool :=
  match s with
  | .multi fields => fields.any fun e => e.1 == name && e.2.default?.isNone
  | _ => false

theorem Storage.exists_of_hasPlain {s : Storage} {name : String} (h : s.hasPlain name = true) :
    ∃ fields sub, s = .multi fields ∧ (name, sub) ∈ fields ∧ sub.default? = Option.none := by
  cases s with
  | multi fields =>
    obtain ⟨⟨other, sub⟩, hsub, hcolumn⟩ := List.any_eq_true.1 h
    rw [Bool.and_eq_true, beq_iff_eq, Option.isNone_iff_eq_none] at hcolumn
    obtain ⟨rfl, hdefault⟩ := hcolumn
    exact ⟨fields, sub, rfl, hsub, hdefault⟩
  | _ => cases h

/-- Whether mappings under a key are seen to say nothing of a name. -/
def Value.Entries.leavesOut (es : Value.Entries) (key name : String) : Bool :=
  es.all fun
    | (k, .map sub) => !k.isText key || sub.all fun e => !e.1.isText name || e.2.isUnset
    | _ => true

theorem Value.Entries.omits_of_leavesOut {es : Value.Entries} {key name : String}
    (h : es.leavesOut key name = true) : es.Omits key name := by
  intro sub hsub v hv
  have hmap := List.all_eq_true.1 h _ hsub
  simp only [isText_iff.2 rfl, Bool.not_true, Bool.false_or] at hmap
  have hentry := List.all_eq_true.1 hmap _ hv
  simpa only [isText_iff.2 rfl, Bool.not_true, Bool.false_or] using hentry

/-- The facts about posts with an audit that are evaluated, in one go. -/
theorem audits_facts :
    audits.database.isOk = true ∧
      ((auditPosted [(.text "title", .text "x")]).1.isOk = true ∧
        ((auditPosted [(.text "title", .text "x")]).1.result.column "audit" "at").isNull = true) ∧
      (auditChanged.1.isOk = true ∧
        (auditChanged.1.result.column "audit" "at").isNull = true) ∧
      ((auditPosted [(.text "audit", .map [(.text "note", .text "n")])]).1.isOk = true ∧
        ((auditPosted [(.text "audit", .map [(.text "note", .text "n")])]).1.result.column "audit"
          "at").isNull = true) ∧
      ∀ l ∈ auditWorker.db.schema.lists,
        (∀ e ∈ l.fields, e.2.storage.namesOnce = true) ∧
        (∃ e ∈ l.fields, e.1 = "changed" ∧ e.2.storage.isStamped = true) ∧
        (∃ e ∈ l.fields, e.1 = "audit" ∧ e.2.storage.hasPlain "at" = true) ∧
        ((Resolve.changes l .create .reject .null (.map [(.text "title", .text "x")])).toOption.all
          fun c => c.values.leavesOut "audit" "at") = true ∧
        ((Resolve.changes l .update .reject .null (.map [(.text "title", .text "y")])).toOption.all
          fun c => c.values.leavesOut "audit" "at") = true := by
  decide +kernel

theorem audits_compiles : audits.database.result.Compiles audits :=
  Declarations.Declared.compiles (.declare (.start _ _ _) (by decide)) audits_facts.1

/-- A post is stamped when it is created and when its title is changed, and its audit is not. -/
theorem writes_stamp_audits : ∃ record s record' s' before,
    (auditWorker.create "Post" (.map [(.text "title", .text "x")])).Yields
        { supply := blogSupply } record s ∧
      (auditWorker.update "Post" (.map [(.text "id", .int 1)])
        (.map [(.text "title", .text "y")])).Yields s record' s' ∧
      (∃ t, blogSupply.IsStamp s.supply (.dateTime t) ∧
        record.value? "changed" = some (.dateTime t.naive)) ∧
      record.column "audit" "at" = .null ∧
      (∃ t, s.supply.IsStamp s'.supply (.dateTime t) ∧
        record'.value? "changed" = some (.dateTime t.naive)) ∧
      record'.column "audit" "at" =
        (auditWorker.db.record "Post" before).column "audit" "at" := by
  obtain ⟨-, ⟨hposted, -⟩, ⟨hchanged, -⟩, -, hfacts⟩ := audits_facts
  have hnames : ∀ l ∈ auditWorker.db.schema.lists, ∀ e ∈ l.fields,
      e.2.storage.namesOnce = true := fun l hl => (hfacts l hl).1
  have homits {x : Except Fault Resolve.Changes} {c : Resolve.Changes} (hc : x = .ok c)
      (h : (x.toOption.all fun c => c.values.leavesOut "audit" "at") = true) :
      c.values.Omits "audit" "at" := by
    subst hc
    exact Value.Entries.omits_of_leavesOut h
  obtain ⟨record, s, h⟩ := Work.exists_yields hposted
  rw [auditChanged, show (auditPosted _).2 = s from congrArg Prod.snd h] at hchanged
  obtain ⟨record', s', h'⟩ := Work.exists_yields hchanged
  obtain ⟨l, hl, -, c, hc, hstamped, hleft⟩ :=
    (audits_compiles.writes_stamp (w := auditWorker) hnames "Post" _).1 h
  obtain ⟨-, ⟨⟨_, f⟩, hf, rfl, hs⟩, ⟨⟨_, g⟩, hg, rfl, hplain⟩, hcreate, -⟩ := hfacts l hl
  obtain ⟨fields, sub, hmulti, hsub, hdefault⟩ := Storage.exists_of_hasPlain hplain
  obtain ⟨l', hl', -, c', hc', id, before, -, -, hstamped', hleft'⟩ :=
    (audits_compiles.writes_stamp (w := auditWorker) hnames "Post" _).2 _ h'
  obtain ⟨-, ⟨⟨_, f'⟩, hf', rfl, hs'⟩, ⟨⟨_, g'⟩, hg', rfl, hplain'⟩, -, hupdate⟩ := hfacts l' hl'
  obtain ⟨fields', sub', hmulti', hsub', -⟩ := Storage.exists_of_hasPlain hplain'
  exact ⟨record, s, record', s', before, h, h', hstamped _ f hf hs,
    hleft _ g fields _ sub hg hmulti hsub hdefault (homits hc hcreate), hstamped' _ f' hf' hs',
    hleft' _ g' fields' _ sub' hg' hmulti' hsub' (homits hc' hupdate)⟩

/-- The time of an audit is declared to be stamped, but no write puts one there. -/
theorem audit_without_time :
    (auditColumns.lookup "at").any (·.isStamped) = true ∧
      (auditPosted [(.text "title", .text "x")]).1.isOk = true ∧
      ((auditPosted [(.text "title", .text "x")]).1.result.column "audit" "at").isNull = true ∧
      auditChanged.1.isOk = true ∧
      (auditChanged.1.result.column "audit" "at").isNull = true ∧
      (auditPosted [(.text "audit", .map [(.text "note", .text "n")])]).1.isOk = true ∧
      ((auditPosted [(.text "audit", .map [(.text "note", .text "n")])]).1.result.column "audit"
        "at").isNull = true := by
  obtain ⟨-, ⟨hposted, hnone⟩, ⟨hchanged, hkept⟩, ⟨hnoted, hleft⟩, -⟩ := audits_facts
  exact ⟨rfl, hposted, hnone, hchanged, hkept, hnoted, hleft⟩

end RecordSchema
