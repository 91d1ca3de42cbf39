import RecordSchema.Proofs.Request.Columns
import RecordSchema.Proofs.Request.Typed

/-!
# What storage is handed

Creating and updating records hands data to storage, once for every
record that is created on the way and for the columns that are changed.
All of these data are typed: a guard in front of storage that refuses
any others (`Driver.strict`) is never noticed, whatever storage does
with what it is handed.
-/

namespace RecordSchema

/-- What a worker hands data to: new rows of a list, and new values for the columns of
a row. -/
structure Driver where
  insert : String → Value.Entries → Work Row
  change : String → Int → Value.Entries → Work Unit

namespace Driver

/-- Whether data are typed for a write to the list of a key. -/
def Accepts (s : Schema) (list : String) (op : Operation) (values : Value.Entries) : Prop :=
  ∃ l ∈ s.lists, l.key = list ∧ l.IsTyped op values

instance (s : Schema) (list : String) (op : Operation) (values : Value.Entries) :
    Decidable (Accepts s list op values) :=
  inferInstanceAs (Decidable (∃ l ∈ s.lists, _))

/-- A driver behind a guard that refuses data which are not typed. -/
def strict (dr : Driver) (s : Schema) (refusal : Fault) : Driver where
  insert list values :=
    if Accepts s list .create values then dr.insert list values else throw refusal
  change list id values :=
    if Accepts s list .update values then dr.change list id values else throw refusal

theorem strict_insert {dr : Driver} {s : Schema} {refusal : Fault} {list : String}
    {values : Value.Entries} (h : Accepts s list .create values) :
    (dr.strict s refusal).insert list values = dr.insert list values :=
  if_pos h

theorem strict_change {dr : Driver} {s : Schema} {refusal : Fault} {list : String} {id : Int}
    {values : Value.Entries} (h : Accepts s list .update values) :
    (dr.strict s refusal).change list id values = dr.change list id values :=
  if_pos h

end Driver

namespace Worker

/-! ## Writing through a driver -/

/-- The storage that a worker works on itself. -/
def driver (w : Worker) : Driver where
  insert := w.insert
  change := w.change

section Via

variable (w : Worker) (dr : Driver)

def insertColumnsVia (list : String) (data : Value) :
    Work (Row × List (String × Resolve.LinkAction)) := do
  let l ← w.listOf list
  let c ← Work.ofExcept (Resolve.changes l .create w.setPolicy w.context data)
  let values ← Work.generate (Storage.fillAll l.storedFields c.values)
  let row ← dr.insert list values
  return (row, c.links)

def changeColumnsVia (list : String) (id : Int) (data : Value) :
    Work (List (String × Resolve.LinkAction)) := do
  let l ← w.listOf list
  let c ← Work.ofExcept (Resolve.changes l .update w.setPolicy w.context data)
  let values ← Work.generate (Storage.stampAll l.storedFields c.values)
  if !values.isEmpty then dr.change list id values
  return c.links

def createWithinVia : (depth : Nat) → (list : String) → (data : Value) → Work Int
  | 0, _, _ => throw .nesting
  | depth + 1, list, data => do
    let (row, links) ← w.insertColumnsVia dr list data
    w.applyLinks (createWithinVia depth) list row.id links
    return row.id

/-- Creates a record through a driver. -/
def createVia (list : String) (data : Value) : Work Record := do
  w.recordOf list (← w.createWithinVia dr w.db.depth list data)

def updateVia (list : String) (filter data : Value) : Work Record := do
  let id ← w.require list filter
  let before ← w.recordOf list id
  let links ← w.changeColumnsVia dr list id data
  w.applyLinks (w.createWithinVia dr w.db.depth) list id links
  match (← Work.store).row? list id with
  | some r => return w.db.record list r
  | none => return before

end Via

variable {w : Worker} {dr : Driver} {d : Declarations}

theorem createWithinVia_driver (w : Worker) (depth : Nat) :
    w.createWithinVia w.driver depth = w.createWithin depth := by
  induction depth with
  | zero => rfl
  | succ depth ih =>
    funext list data
    rw [createWithinVia, createWithin, ih]
    rfl

/-- A worker creates records through its own storage. -/
theorem createVia_driver (w : Worker) : w.createVia w.driver = w.create := by
  funext list data
  rw [createVia, create, createWithinVia_driver]
  rfl

theorem updateVia_driver (w : Worker) : w.updateVia w.driver = w.update := by
  funext list filter data
  rw [updateVia, update, createWithinVia_driver]
  rfl

end Worker

/-! ## The guard -/

namespace Work

variable {α β : Type}

theorem ext {x y : Work α} (h : ∀ s, x.outcome s = y.outcome s) : x = y :=
  funext h

/-- Work that goes on the same from all results of its first part is the same. -/
theorem bind_congr {x : Work α} {f g : α → Work β}
    (h : ∀ a s m, x.Yields s a m → f a = g a) : (x >>= f) = (x >>= g) := by
  refine ext fun s => ?_
  rw [outcome_bind, outcome_bind]
  rcases hx : x.outcome s with ⟨r, m⟩
  cases r with
  | ok a => exact congrArg (fun x => x.outcome m) (h a s m hx)
  | error e => rfl

end Work

namespace Database.Compiles

variable {w : Worker} {d : Declarations} {l : ListType}

theorem fillAll_accepted (h : w.db.Compiles d)
    (hnames : ∀ l ∈ w.db.schema.lists, ∀ e ∈ l.fields, e.2.storage.namesOnce = true)
    (hl : l ∈ w.db.schema.lists) {policy : SetPolicy} {context data : Value} {c : Resolve.Changes}
    (hc : Resolve.changes l .create policy context data = .ok c) {values : Value.Entries}
    {m m' : Supply} (hv : (Storage.fillAll l.storedFields c.values).run m = .ok (values, m')) :
    Driver.Accepts w.db.schema l.key .create values := by
  have hfilled := h.isFilled_of_fillAll hnames hl hc hv
  exact ⟨l, hl, rfl, hfilled.isTyped (.inl rfl) fun _ he => h.problems_eq_nil hl he⟩

theorem stampAll_accepted (h : w.db.Compiles d) (hl : l ∈ w.db.schema.lists) {policy : SetPolicy}
    {context data : Value} {c : Resolve.Changes}
    (hc : Resolve.changes l .update policy context data = .ok c) {values : Value.Entries}
    {m m' : Supply} (hv : (Storage.stampAll l.storedFields c.values).run m = .ok (values, m')) :
    Driver.Accepts w.db.schema l.key .update values := by
  have hfilled := Storage.stampAll_isFilled (List.Subset.refl _)
    (Resolve.changes_isFilled (.inr rfl) (h.fields_nodup hl) hc) hv
  exact ⟨l, hl, rfl, hfilled.isTyped (.inr rfl) fun _ he => h.problems_eq_nil hl he⟩

theorem insertColumnsVia_strict (h : w.db.Compiles d)
    (hnames : ∀ l ∈ w.db.schema.lists, ∀ e ∈ l.fields, e.2.storage.namesOnce = true) (dr : Driver)
    (refusal : Fault) (list : String) (data : Value) :
    w.insertColumnsVia (dr.strict w.db.schema refusal) list data =
      w.insertColumnsVia dr list data := by
  -- Both go the same way up to the driver, and what that is handed then is typed.
  refine Work.bind_congr fun l _ _ hl => ?_
  obtain ⟨hmem, rfl⟩ := Schema.mem_of_list? (Worker.listOf_yields.1 hl).1
  refine Work.bind_congr fun c _ _ hc => ?_
  refine Work.bind_congr fun values _ _ hvalues => ?_
  obtain ⟨_, hv, -⟩ := Work.generate_yields hvalues
  rw [Driver.strict_insert (h.fillAll_accepted hnames hmem (Work.ofExcept_yields.1 hc).1 hv)]

theorem changeColumnsVia_strict (h : w.db.Compiles d) (dr : Driver) (refusal : Fault)
    (list : String) (id : Int) (data : Value) :
    w.changeColumnsVia (dr.strict w.db.schema refusal) list id data =
      w.changeColumnsVia dr list id data := by
  refine Work.bind_congr fun l _ _ hl => ?_
  obtain ⟨hmem, rfl⟩ := Schema.mem_of_list? (Worker.listOf_yields.1 hl).1
  refine Work.bind_congr fun c _ _ hc => ?_
  refine Work.bind_congr fun values _ _ hvalues => ?_
  obtain ⟨_, hv, -⟩ := Work.generate_yields hvalues
  rw [Driver.strict_change (h.stampAll_accepted hmem (Work.ofExcept_yields.1 hc).1 hv)]

theorem createWithinVia_strict (h : w.db.Compiles d)
    (hnames : ∀ l ∈ w.db.schema.lists, ∀ e ∈ l.fields, e.2.storage.namesOnce = true) (dr : Driver)
    (refusal : Fault) (depth : Nat) :
    w.createWithinVia (dr.strict w.db.schema refusal) depth = w.createWithinVia dr depth := by
  induction depth with
  | zero => rfl
  | succ depth ih =>
    funext list data
    rw [Worker.createWithinVia, Worker.createWithinVia, ih, h.insertColumnsVia_strict hnames]

/-- A guard in front of storage that refuses data which are not typed is never noticed,
so storage is handed typed data only. -/
theorem strict_unnoticed (h : w.db.Compiles d)
    (hnames : ∀ l ∈ w.db.schema.lists, ∀ e ∈ l.fields, e.2.storage.namesOnce = true) (dr : Driver)
    (refusal : Fault) :
    w.createVia (dr.strict w.db.schema refusal) = w.createVia dr ∧
      w.updateVia (dr.strict w.db.schema refusal) = w.updateVia dr ∧
      w.createVia (w.driver.strict w.db.schema refusal) = w.create ∧
      w.updateVia (w.driver.strict w.db.schema refusal) = w.update := by
  have hcreate (dr : Driver) : w.createVia (dr.strict w.db.schema refusal) = w.createVia dr := by
    funext list data
    rw [Worker.createVia, Worker.createVia, h.createWithinVia_strict hnames]
  have hupdate (dr : Driver) : w.updateVia (dr.strict w.db.schema refusal) = w.updateVia dr := by
    funext list filter data
    rw [Worker.updateVia, Worker.updateVia, h.createWithinVia_strict hnames]
    refine Work.bind_congr fun id _ _ _ => Work.bind_congr fun before _ _ _ => ?_
    rw [h.changeColumnsVia_strict]
  exact ⟨hcreate dr, hupdate dr, (hcreate w.driver).trans w.createVia_driver,
    (hupdate w.driver).trans w.updateVia_driver⟩

end Database.Compiles

/-- A schema of parcels: their size is kept in two columns, one of which has a default. -/
def parcels : Declarations :=
  ({} : Declarations).declare {
    key := "Parcel"
    specs := [
      ("size", .composite [
        ("width", .scalar { scalar := .int, mode := .required }),
        ("unit", .enum {
          name := "Unit"
          values := ["cm", "in"]
          default := some (.policy (.literal (.text "cm"))) })] none none),
      ("packed", .timestamp false { updatedAt := true })] }

theorem parcels_compiles : parcels.database.result.Compiles parcels :=
  Declarations.Declared.compiles (.declare (.start _ _ _) (by decide)) (by decide +kernel)

def parcelWorker : Worker where
  db := parcels.database.result
  setPolicy := .reject

theorem strict_unnoticed_parcels :
    (∀ l ∈ parcelWorker.db.schema.lists, ∀ e ∈ l.fields, e.2.storage.namesOnce = true) ∧
      ((parcelWorker.create "Parcel" (.map [(.text "size", .map [(.text "width", .int 3)])])).outcome
        { supply := blogSupply }).1.isOk = true ∧
      parcelWorker.createVia (parcelWorker.driver.strict parcelWorker.db.schema .nesting) =
        parcelWorker.create ∧
      parcelWorker.updateVia (parcelWorker.driver.strict parcelWorker.db.schema .nesting) =
        parcelWorker.update := by
  have hnames : ∀ l ∈ parcelWorker.db.schema.lists, ∀ e ∈ l.fields,
      e.2.storage.namesOnce = true := by decide +kernel
  obtain ⟨-, -, hcreate, hupdate⟩ :=
    Database.Compiles.strict_unnoticed (w := parcelWorker) parcels_compiles hnames
      parcelWorker.driver .nesting
  exact ⟨hnames, by decide +kernel, hcreate, hupdate⟩

end RecordSchema
