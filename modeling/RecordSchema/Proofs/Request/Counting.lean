import RecordSchema.Proofs.Request.Numbered

/-!
# Counting on

Whatever is called, a numbered column holds whole numbers, so the number
that storage gives a new row is greater than all that are there, and one
when there is none (`Cell.Follows`).

What is called in between decides whether the numbers of records follow
one another. Calls that leave a numbered column out take only steps that
give it nothing. Each such step leaves the column as it is or adds a row
with the next number, so all of them together count on from the number
behind what was there (`ListType.IsNumbered.counts_of_steps`). A nested
record of the same list takes a number as well, or sets it off with one of
its own, so a call has to leave out the column at every depth
(`WriteCall.leaves`).
-/

namespace RecordSchema

open Layout

/-! ## Steps -/

namespace Database

variable {db : Database}

/-- Rows that agree up to key columns hold the same in a column that is none. -/
theorem SameFields.column {s s' : Store} {list column : String} (h : db.SameFields s s')
    (hk : ¬ db.IsKey list column) : s'.column list column = s.column list column := by
  have hrows := h list
  unfold Store.column
  generalize s.rows list = rs, s'.rows list = rs' at hrows ⊢
  induction hrows with
  | nil => rfl
  | cons hr _ ih => rw [List.map_cons, List.map_cons, ih, hr.2 column hk]

/-- Whether data give a column of a list nothing, if they are for that list. -/
def GivesNothing (db : Database) (list column : String) (l : ListType) (data : Value.Entries) :
    Prop :=
  l.key = list → (tableOf db.schema.plans l).Leaves data column

end Database

namespace ListType.IsNumbered

variable {db : Database} {d : Declarations} {l : ListType} {column key : String}
  {name : Option String} {s m : Session}

theorem not_isKey (hn : l.IsNumbered column key name) (h : db.Compiles d)
    (hl : l ∈ db.schema.lists) : ¬ db.IsKey l.key column := by
  obtain ⟨f, hslot, -⟩ := hn.exists_slot h hl
  exact h.columnKinds_not_isKey hl hslot

/-- What a step does to a column: it adds or changes a row of the list, or leaves the column. -/
theorem column_of_step {P : ListType → Value.Entries → Prop} (hn : l.IsNumbered column key name)
    (h : db.Compiles d) (hl : l ∈ db.schema.lists) (hstep : db.Writes P s m) :
    m.store.column l.key column = s.store.column l.key column ∨
      (∃ now values row, P l values ∧
        db.insert s.store now l.key values = .ok (row, m.store) ∧
        m.store.column l.key column = s.store.column l.key column ++ [row.cell column]) ∨
      ∃ id values, P l values ∧ db.update s.store l.key id values = .ok m.store := by
  cases hstep with
  | draw => exact .inl rfl
  | @insert l' hl' now values row store hcarried hi =>
    obtain ⟨rfl, -⟩ := h.insert_ok hl' hi
    by_cases hkey : l'.key = l.key
    · obtain rfl := h.eq_of_key hl' hl hkey
      exact .inr (.inl ⟨now, values, row, hcarried, hi, Store.column_append s.store _ column row⟩)
    · refine .inl (Store.column_of_rows ?_)
      rw [Store.rows_setRows, if_neg (Ne.symm hkey)]
  | @update l' hl' id values store hcarried hu =>
    by_cases hkey : l'.key = l.key
    · obtain rfl := h.eq_of_key hl' hl hkey
      exact .inr (.inr ⟨id, values, hcarried, hu⟩)
    · refine .inl (Store.column_of_rows ?_)
      obtain ⟨_, _, -, -, ⟨-, rfl⟩ | ⟨_, r', -, -, -, rfl⟩⟩ := h.update_row hl' hu
      · rfl
      · rw [Store.rows_modifyRows, if_neg (Ne.symm hkey)]
  | connect hp id ts =>
    exact .inl ((h.sameFields_connect hp s.store id ts).column (hn.not_isKey h hl))
  | disconnect hp id ts =>
    exact .inl ((h.sameFields_unlink hp s.store id _).column (hn.not_isKey h hl))

/-- Steps that write values of the fields leave a numbered column with whole numbers or
nothing. -/
theorem isWhole_of_steps (hn : l.IsNumbered column key name) (h : db.Compiles d)
    (hl : l ∈ db.schema.lists) (hsteps : Relation.ReflTransGen db.Fills s m)
    (hs : ∀ c ∈ s.store.column l.key column, c.IsWhole) :
    ∀ c ∈ m.store.column l.key column, c.IsWhole := by
  induction hsteps with
  | refl => exact hs
  | tail _ hstep ih =>
    obtain hsame | ⟨now, values, row, hfilled, hi, hgrown⟩ | ⟨id, values, hfilled, hu⟩ :=
      hn.column_of_step h hl hstep
    · rwa [hsame]
    · rw [hgrown]
      exact List.forall_mem_append.2
        ⟨ih, List.forall_mem_singleton.2 (hn.insert_isWhole h hl hfilled hi)⟩
    · exact hn.update_isWhole h hl hfilled hu ih

/-- Steps that give a numbered column nothing count on in it. -/
theorem counts_of_steps (hn : l.IsNumbered column key name) (h : db.Compiles d)
    (hl : l ∈ db.schema.lists)
    (hsteps : Relation.ReflTransGen (db.Writes (db.GivesNothing l.key column)) s m)
    (hs : db.Distinct s.store) :
    s.store.Counts m.store l.key column ∧ db.Distinct m.store := by
  induction hsteps with
  | refl => exact ⟨.of_eq rfl, hs⟩
  | @tail m m' _ hstep ih =>
    obtain ⟨hcounts, hdistinct⟩ := ih
    refine ⟨hcounts.trans ?_, hstep.distinct h hdistinct⟩
    obtain hsame | ⟨now, values, row, hleft, hi, hgrown⟩ | ⟨id, values, hleft, hu⟩ :=
      hn.column_of_step h hl hstep
    · exact .of_eq hsame
    · rw [hn.insert_next h hl (hleft rfl) hi] at hgrown
      refine ⟨1, hgrown.trans ?_⟩
      simp [Cell.counted]
    · exact .of_eq (hn.update_column h hl hdistinct.keyed (hleft rfl) hu)

end ListType.IsNumbered

/-! ## Data that leave out a column -/

/-- Whether data for a record of one list leave out a field, or a subfield of a composite, of
another: in the record itself if it is of that list, and in those that its links create, down to
a depth. -/
def Worker.leaves (w : Worker) (list key : String) (name : Option String) :
    (depth : Nat) → Operation → (target : String) → Value → Bool
  | 0, _, _, _ => true
  | depth + 1, op, target, data =>
    match (w.db.schema.list? target).map fun l =>
      Resolve.changes l op w.setPolicy w.context data with
    | some (.ok c) =>
      (target != list || (c.values.part key name).isUnset) &&
        c.links.all fun e =>
          match w.db.plan target e.1 with
          | .ok p => e.2.newItems.all (w.leaves list key name depth .create p.target)
          | .error _ => true
    | _ => true

namespace Worker

variable {w : Worker} {d : Declarations} {l : ListType} {column key : String}
  {name : Option String} {depth : Nat} {op : Operation} {target : String} {data : Value}
  {s s' : Session} {id : Int} {record : Record}

theorem leaves_succ (hd : w.db.Compiles d) {list : String}
    (h : w.leaves list key name (depth + 1) op target data = true) {l : ListType}
    (hl : l ∈ w.db.schema.lists) (hkey : l.key = target) {c : Resolve.Changes}
    (hc : Resolve.changes l op w.setPolicy w.context data = .ok c) :
    (target = list → (c.values.part key name).isUnset = true) ∧
      ∀ e ∈ c.links, ∀ p, w.db.plan target e.1 = .ok p → ∀ v ∈ e.2.newItems,
        w.leaves list key name depth .create p.target v = true := by
  subst hkey
  simp only [leaves, hd.list?_eq hl, Option.map_some, hc, Bool.and_eq_true, Bool.or_eq_true,
    bne_iff_ne, ne_eq, List.all_eq_true] at h
  refine ⟨fun heq => h.1.resolve_left (not_not.2 heq), fun e he p hp => ?_⟩
  have hlinks := h.2 e he
  rw [hp] at hlinks
  exact List.all_eq_true.1 hlinks

/-- The first level of data is the record itself. -/
theorem leaves_one (hd : w.db.Compiles d) (hl : l ∈ w.db.schema.lists) :
    w.leaves l.key key name 1 op l.key data = true ↔
      ∀ c, Resolve.changes l op w.setPolicy w.context data = .ok c →
        (c.values.part key name).isUnset = true := by
  constructor
  · exact fun h c hc => (leaves_succ hd h hl rfl hc).1 rfl
  · intro h
    unfold leaves
    rw [hd.list?_eq hl, Option.map_some]
    cases hc : Resolve.changes l op w.setPolicy w.context data with
    | error => rfl
    | ok c =>
      refine Bool.and_eq_true_iff.2 ⟨Bool.or_eq_true_iff.2 (.inr (h c hc)), ?_⟩
      refine List.all_eq_true.2 fun e _ => ?_
      cases w.db.plan l.key e.1 with
      | ok p => exact List.all_eq_true.2 fun _ _ => rfl
      | error => rfl

section

variable (hn : l.IsNumbered column key name) (hd : w.db.Compiles d)
  (hl : l ∈ w.db.schema.lists)
include hn hd hl

theorem carriesChanged_leaves (h : w.leaves l.key key name (depth + 1) .update target data = true) :
    w.CarriesChanged (w.db.GivesNothing l.key column) target data := by
  intro l' hl' htarget c hc m values m' hstamp hkey
  obtain rfl := hd.eq_of_key hl' hl hkey
  obtain ⟨hleft, -⟩ := leaves_succ hd h hl htarget hc
  exact hn.leaves_of_stampAll hd hl hc (hleft htarget.symm) hstamp

variable (hnames : ∀ l ∈ w.db.schema.lists, ∀ e ∈ l.fields, e.2.storage.namesOnce = true)
include hnames

theorem carriesNew_leaves (h : w.leaves l.key key name (depth + 1) .create target data = true) :
    w.CarriesNew (w.db.GivesNothing l.key column) target data := by
  intro l' hl' htarget c hc m values m' hfill hkey
  obtain rfl := hd.eq_of_key hl' hl hkey
  obtain ⟨hleft, -⟩ := leaves_succ hd h hl htarget hc
  exact hn.leaves_of_fillAll hd hl (hnames _ hl) hc (hleft htarget.symm) hfill

/-- Creating a record whose data leave out a numbered column at all depths takes steps that
give it nothing. -/
theorem createWithin_leaves (h : w.leaves l.key key name depth .create target data = true) :
    (w.createWithin depth target data).Walks (w.db.Writes (w.db.GivesNothing l.key column)) :=
  createWithin_writes
    (D := fun depth target data => w.leaves l.key key name depth .create target data = true)
    (fun _ _ _ h => ⟨carriesNew_leaves hn hd hl hnames h,
      fun _ hl' hkey _ hc => (leaves_succ hd h hl' hkey hc).2⟩) h

/-- A new record that leaves out a numbered column has the next number in it. -/
theorem createWithin_numbers (hleft : w.leaves l.key key name 1 .create l.key data = true)
    (h : (w.createWithin depth l.key data).Yields s id s') :
    ∃ r, s'.store.row? l.key id = some r ∧
      r.cell column = .int (Cell.next (s.store.column l.key column)) := by
  obtain ⟨l', hl', hkey, c, hc, values, supply, row, store, hfill, hinsert, hsteps, rfl⟩ :=
    createWithin_inserts h
  obtain rfl := hd.eq_of_key hl' hl hkey
  have hgives := hn.leaves_of_fillAll hd hl (hnames _ hl) hc ((leaves_one hd hl).1 hleft c hc) hfill
  have hnumber := hn.insert_next hd hl hgives hinsert
  obtain ⟨rfl, hfresh, -⟩ := hd.insert_ok hl hinsert
  obtain ⟨r, hr, -, hagree⟩ :=
    Database.KeepsRows.of_steps hsteps hd _ row.id row (Store.row?_append hfresh)
  exact ⟨r, hr, (hagree column (hn.not_isKey hd hl)).symm.trans hnumber⟩

/-- Creation answers a record with the number that it takes, and the row with that number is
there. -/
theorem create_numbers (hleft : w.leaves l.key key name 1 .create l.key data = true)
    (h : (w.create l.key data).Yields s record s') :
    record.part key name = .int (Cell.next (s.store.column l.key column)) ∧
      .int (Cell.next (s.store.column l.key column)) ∈ s'.store.column l.key column := by
  simp only [create, recordOf, Work.bind_yields, Work.store_yields, Work.pure_yields] at h
  obtain ⟨id, m, hid, _, _, ⟨rfl, rfl⟩, rfl, rfl⟩ := h
  obtain ⟨r, hr, hnumber⟩ := createWithin_numbers hn hd hl hnames hleft hid
  rw [hr, Option.map_some, Option.getD_some]
  exact ⟨hn.record_part hd hl (hnames l hl) hnumber,
    hnumber ▸ Store.mem_column (Store.row?_mem hr).1 column⟩

end

end Worker

/-! ## Calls that leave out a column -/

/-- Whether a call leaves out a field of a list in all records that it creates or changes. -/
def WriteCall.leaves (db : Database) (list key : String) (name : Option String) :
    WriteCall → Bool
  | .create setPolicy context target data =>
    Worker.leaves { db, setPolicy, context } list key name db.depth .create target data
  | .update setPolicy context target _ data =>
    Worker.leaves { db, setPolicy, context } list key name (db.depth + 1) .update target data

/-- Whether a call creates a record of a list. -/
def WriteCall.creates (list : String) : WriteCall → Bool
  | .create _ _ target _ => target == list
  | .update .. => false

namespace ListType.IsNumbered

variable {db : Database} {d : Declarations} {l : ListType} {column key : String}
  {name : Option String} {c : WriteCall} {calls : List WriteCall} {s s' : Session}
  {record : Record} {records : List Record}

section

variable (hn : l.IsNumbered column key name) (hd : db.Compiles d) (hl : l ∈ db.schema.lists)
  (hnames : ∀ l ∈ db.schema.lists, ∀ e ∈ l.fields, e.2.storage.namesOnce = true)
include hn hd hl hnames

/-- A call that leaves out a numbered column takes steps that give it nothing. -/
theorem work_leaves (h : c.leaves db l.key key name = true) :
    (c.work db).Walks (db.Writes (db.GivesNothing l.key column)) := by
  cases c with
  | create setPolicy context target data =>
    let w : Worker := { db, setPolicy, context }
    exact w.create_writes (w.createWithin_leaves hn hd hl hnames h)
  | update setPolicy context target filter data =>
    let w : Worker := { db, setPolicy, context }
    refine w.update_writes (w.carriesChanged_leaves hn hd hl h) ?_ filter
    intro l' hl' hkey c hc e he p hp v hv
    have hbelow := (w.leaves_succ hd h hl' hkey hc).2
    exact w.createWithin_leaves hn hd hl hnames (hbelow e he p hp v hv)

/-- A call that creates a record and leaves out a numbered column answers the next number, and
the row with that number is there. -/
theorem work_numbers (hcreates : c.creates l.key = true)
    (hleft : c.leaves db l.key key name = true) (h : (c.work db).Yields s record s') :
    record.part key name = .int (Cell.next (s.store.column l.key column)) ∧
      .int (Cell.next (s.store.column l.key column)) ∈ s'.store.column l.key column := by
  cases c with
  | update => cases hcreates
  | create setPolicy context target data =>
    obtain rfl : target = l.key := eq_of_beq hcreates
    let w : Worker := { db, setPolicy, context }
    have hown : w.leaves l.key key name 1 .create l.key data = true :=
      (Worker.leaves_one hd hl).2 fun c hc => (w.leaves_succ hd hleft hl rfl hc).1 rfl
    exact w.create_numbers hn hd hl hnames hown h

/-- Calls that create records and leave out a numbered column number their records one after
the other, if nothing else takes a number in between. -/
theorem creates_numbers
    (hcalls : ∀ c ∈ calls, c.creates l.key = true ∧ c.leaves db l.key key name = true)
    (hs : db.Distinct s.store) (h : (calls.mapM (WriteCall.work db)).Yields s records s') :
    ∃ more, s'.store.column l.key column = s.store.column l.key column ++
        Cell.counted (Cell.next (s.store.column l.key column)) (calls.length + more) ∧
      (more = 0 → records.map (·.part key name) = (List.range calls.length).map fun i : Nat =>
        .int (Cell.next (s.store.column l.key column) + i)) := by
  induction calls generalizing s records with
  | nil =>
    obtain ⟨rfl, rfl⟩ := Work.pure_yields.1 h
    exact ⟨0, (List.append_nil _).symm, fun _ => rfl⟩
  | cons c r ih =>
    obtain ⟨⟨hcreates, hleft⟩, hr⟩ := List.forall_mem_cons.1 hcalls
    simp only [List.mapM_cons, Work.bind_yields, Work.pure_yields] at h
    obtain ⟨record, m, hrecord, rest, m', hrest, rfl, rfl⟩ := h
    obtain ⟨hcounts, hm⟩ :=
      hn.counts_of_steps hd hl ((hn.work_leaves hd hl hnames hleft).of_yields hrecord) hs
    obtain ⟨hnumber, hmem⟩ := hn.work_numbers hd hl hnames hcreates hleft hrecord
    obtain ⟨j, hj⟩ := hcounts.exists_succ hmem
    obtain ⟨k, hk, hrest⟩ := ih hr hm hrest
    have hnext : Cell.next (m.store.column l.key column) =
        Cell.next (s.store.column l.key column) + (j + 1 : Nat) := by
      rw [hj, Cell.next_counted]
    -- What the records of this call take beyond one number each adds up.
    refine ⟨j + k, ?_, fun hmore => ?_⟩
    · rw [hk, hnext, hj, List.append_assoc, ← Cell.counted_add, List.length_cons]
      congr 2
      omega
    · obtain ⟨rfl, rfl⟩ := Nat.add_eq_zero_iff.1 hmore
      rw [List.map_cons, hnumber, hrest rfl, hnext, List.length_cons, List.range_succ_eq_map,
        List.map_cons, List.map_map]
      simp [Function.comp_def, Int.add_assoc, Int.add_comm]

end

end ListType.IsNumbered

/-! ## Runs -/

/-- How records of a list are numbered from a session on. -/
structure Worker.NumbersFrom (w : Worker) (l : ListType) (column key : String)
    (name : Option String) (m : Session) : Prop where
  /-- The row of a new record holds the number that follows those of the column, also of one
  that is created on the way. -/
  inserted : ∀ depth data id m', w.leaves l.key key name 1 .create l.key data = true →
    (w.createWithin depth l.key data).Yields m id m' →
      ∃ n r, Cell.Follows (m.store.column l.key column) n ∧
        m'.store.row? l.key id = some r ∧ r.cell column = .int n
  /-- So does the record that a call answers. -/
  answered : ∀ data (record : Record) m', w.leaves l.key key name 1 .create l.key data = true →
    (w.create l.key data).Yields m record m' →
      ∃ n, Cell.Follows (m.store.column l.key column) n ∧ record.part key name = .int n
  /-- Whatever calls leave out the column, it only counts on. -/
  counted : ∀ calls : List WriteCall, (∀ c ∈ calls, c.leaves w.db l.key key name = true) →
    m.store.Counts (w.db.run calls m).store l.key column
  /-- Calls that create all the new records between them answer consecutive numbers. -/
  consecutive : ∀ (calls : List WriteCall) (records : List Record) (m' : Session),
    (∀ c ∈ calls, c.creates l.key = true ∧ c.leaves w.db l.key key name = true) →
      (calls.mapM (WriteCall.work w.db)).Yields m records m' →
        (m'.store.rows l.key).length = (m.store.rows l.key).length + calls.length →
          ∃ n, Cell.Follows (m.store.column l.key column) n ∧
            records.map (·.part key name) =
              (List.range calls.length).map fun i : Nat => .int (n + i)

namespace Database.Compiles

variable {w : Worker} {d : Declarations} {l : ListType} {column key : String}
  {name : Option String}

/-- Data of built-in fields leave out a numbered column when the client does. -/
theorem leaves_of_part (hd : w.db.Compiles d) (hb : d.UsesBuiltIns) (hl : l ∈ w.db.schema.lists)
    (hn : l.IsNumbered column key name) {es : Value.Entries}
    (hleft : (es.part key name).isUnset = true) :
    w.leaves l.key key name 1 .create l.key (.map es) = true :=
  (Worker.leaves_one hd hl).2 fun _ hc => hd.part_isUnset hb hl hn (.inl rfl) hc hleft

/-- Behind every run of calls, and in the middle of a call that follows, a numbered column goes
on from what it holds: a new record that leaves it out, at any depth, takes the number that
follows those in the column then, and calls that leave it out throughout number their records
one after the other. Built-in fields leave it out when the client does. -/
theorem counts_on (hd : w.db.Compiles d)
    (hnames : ∀ l ∈ w.db.schema.lists, ∀ e ∈ l.fields, e.2.storage.namesOnce = true)
    (hl : l ∈ w.db.schema.lists) (hn : l.IsNumbered column key name) (supply : Supply)
    (calls : List WriteCall) {m : Session}
    (hm : Relation.ReflTransGen w.db.Fills (w.db.run calls { supply }) m) :
    w.NumbersFrom l column key name m ∧
      (d.UsesBuiltIns → ∀ es : Value.Entries, (es.part key name).isUnset = true →
        w.leaves l.key key name 1 .create l.key (.map es) = true) := by
  have hsteps : Relation.ReflTransGen w.db.Fills { supply } m :=
    (hd.run_fills hnames calls { supply }).trans hm
  have hwhole := hn.isWhole_of_steps hd hl hsteps fun _ hc => by cases hc
  have hfollows := Cell.follows_next hwhole
  have hdistinct : w.db.Distinct m.store := .of_writes hsteps hd w.db.distinct_empty
  refine ⟨?_, fun hb es hleft => hd.leaves_of_part hb hl hn hleft⟩
  constructor
  case inserted =>
    intro depth data id m' hleft h
    obtain ⟨r, hr, hnumber⟩ := Worker.createWithin_numbers hn hd hl hnames hleft h
    exact ⟨_, r, hfollows, hr, hnumber⟩
  case answered =>
    intro data record m' hleft h
    exact ⟨_, hfollows, (Worker.create_numbers hn hd hl hnames hleft h).1⟩
  case counted =>
    intro more hleft
    have hmore := run_walks (fun c hc => hn.work_leaves hd hl hnames (hleft c hc)) m
    exact (hn.counts_of_steps hd hl hmore hdistinct).1
  case consecutive =>
    intro more records m' hleft h hgrown
    obtain ⟨k, hk, hrecords⟩ := hn.creates_numbers hd hl hnames hleft hdistinct h
    have hlengths := congrArg List.length hk
    simp only [Store.column, Cell.counted, List.length_append, List.length_map, List.length_range]
      at hlengths
    exact ⟨_, hfollows, hrecords (by omega)⟩

end Database.Compiles

/-! ## Invoices -/

/-- A schema of invoices with a number, in a column of another name, and with a reference that
holds a serial number. -/
def invoices : Declarations :=
  ({} : Declarations).declare {
    key := "Invoice"
    specs := [
      ("number", .scalar .int { default := some (.policy .autoincrement), map := some "no" }),
      ("reference", .composite [("year", .scalar { scalar := .int }),
        ("serial", .scalar { scalar := .bigInt, default := some (.policy .autoincrement) })]
        none none)] }

def invoiceWorker : Worker where
  db := invoices.database.result
  setPolicy := .reject

/-- A call that creates an invoice. -/
def invoiceCall (data : Value.Entries) : WriteCall :=
  .create .reject .null "Invoice" (.map data)

/-- Invoices with numbers and serial numbers of their own, and one whose number is changed. -/
def invoiceCalls : List WriteCall :=
  [invoiceCall [(.text "number", .int (-5))],
    invoiceCall [(.text "number", .int 7), (.text "reference", .map [(.text "serial", .int 40)])],
    .update .reject .null "Invoice" (.map [(.text "id", .int 1)])
      (.map [(.text "number", .int 3)])]

def invoiced : Session :=
  invoiceWorker.db.run invoiceCalls { supply := blogSupply }

/-- Two invoices without a number, one of them with a year. -/
def moreInvoices : List WriteCall :=
  [invoiceCall [], invoiceCall [(.text "reference", .map [(.text "year", .int 2024)])]]

/-- What the two invoices end with. -/
def invoicedMore : Except Fault (List Record) × Session :=
  (moreInvoices.mapM (WriteCall.work invoiceWorker.db)).outcome invoiced

/-- The facts about invoices that are evaluated, in one go. -/
theorem invoices_facts :
    invoices.database.isOk = true ∧
      (∃ l ∈ invoiceWorker.db.schema.lists, l.key = "Invoice" ∧
        l.numbered = [("no", "number", none), ("reference_serial", "reference", some "serial")]) ∧
      (∀ l ∈ invoiceWorker.db.schema.lists, ∀ e ∈ l.fields, e.2.storage.namesOnce = true) ∧
      (Cell.next (invoiced.store.column "Invoice" "no") = 8 ∧
        Cell.next (invoiced.store.column "Invoice" "reference_serial") = 41) ∧
      (∀ c ∈ moreInvoices, c.creates "Invoice" = true ∧
        c.leaves invoiceWorker.db "Invoice" "number" none = true ∧
        c.leaves invoiceWorker.db "Invoice" "reference" (some "serial") = true) ∧
      invoicedMore.1.isOk = true ∧
      (invoicedMore.2.store.rows "Invoice").length =
        (invoiced.store.rows "Invoice").length + moreInvoices.length := by
  decide +kernel

theorem invoices_compiles : invoices.database.result.Compiles invoices :=
  Declarations.Declared.compiles (.declare (.start _ _ _) (by decide)) invoices_facts.1

/-- Invoices without numbers go on from those that were given, in both columns. -/
theorem counts_on_invoices : ∃ records m,
    (moreInvoices.mapM (WriteCall.work invoiceWorker.db)).Yields invoiced records m ∧
      records.map (·.part "number" none) = [.int 8, .int 9] ∧
      records.map (·.part "reference" (some "serial")) = [.int 41, .int 42] := by
  obtain ⟨-, ⟨l, hl, hkey, hnumbered⟩, hnames, ⟨hno, hserial⟩, hmore, hok, hgrown⟩ :=
    invoices_facts
  obtain ⟨records, m, h⟩ := Work.exists_yields hok
  rw [show invoicedMore.2 = m from congrArg Prod.snd h] at hgrown
  rw [← hkey] at hno hserial hmore hgrown
  have hnumber : l.IsNumbered "no" "number" none :=
    ListType.mem_numbered.1 (hnumbered ▸ by decide)
  have hsubfield : l.IsNumbered "reference_serial" "reference" (some "serial") :=
    ListType.mem_numbered.1 (hnumbered ▸ by decide)
  obtain ⟨hnumbers, -⟩ := Database.Compiles.counts_on (w := invoiceWorker) invoices_compiles hnames
    hl hnumber blogSupply invoiceCalls .refl
  obtain ⟨n, hn, hrecords⟩ := hnumbers.consecutive moreInvoices records m
    (fun c hc => ⟨(hmore c hc).1, (hmore c hc).2.1⟩) h hgrown
  obtain ⟨hserials, -⟩ := Database.Compiles.counts_on (w := invoiceWorker) invoices_compiles hnames
    hl hsubfield blogSupply invoiceCalls .refl
  obtain ⟨n', hn', hrecords'⟩ := hserials.consecutive moreInvoices records m
    (fun c hc => ⟨(hmore c hc).1, (hmore c hc).2.2⟩) h hgrown
  obtain rfl := hn.eq_next.trans hno
  obtain rfl := hn'.eq_next.trans hserial
  exact ⟨records, m, h, hrecords, hrecords'⟩

end RecordSchema
