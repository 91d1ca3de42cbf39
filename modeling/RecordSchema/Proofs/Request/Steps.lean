import Mathlib.Logic.Relation
import RecordSchema.Proofs.Request.Columns
import RecordSchema.Proofs.Request.Named
import RecordSchema.Proofs.Request.Nested
import RecordSchema.Proofs.Request.Runs

/-!
# Steps of writes

A write changes the session step by step, and keeps the steps it has made
when it fails half way. Creating records takes few kinds of steps
(`Database.Step`): values are generated, a row is added, links are made
or removed. An update may also stamp values and change a row
(`Database.Change`). Where it matters what data a step writes, the steps
are those of `Database.Writes`.

So what every step preserves, every write preserves, however deep it
nests and however it ends (`Worker.create_walks`, `Worker.update_walks`).
The order of the steps, and what one of them knows of those before it,
is lost.
-/

namespace RecordSchema

/-! ## Kinds of steps -/

/-- A step of creating records. -/
inductive Database.Step (db : Database) (s : Session) : Session → Prop where
  | fill {l : ListType} (list : l ∈ db.schema.lists) {data values : Value.Entries}
    {supply : Supply}
    (run : (Storage.fillAll l.storedFields data).run s.supply = .ok (values, supply)) :
    db.Step s { s with supply }
  | insert {l : ListType} (list : l ∈ db.schema.lists) {now : DateTime} {values : Value.Entries}
    {row : Row} {store : Store} (run : db.insert s.store now l.key values = .ok (row, store)) :
    db.Step s { s with store }
  | connect {p : RelationPlan} (plan : p ∈ db.schema.plans) (id : Int) (targets : List Int) :
    db.Step s { s with store := s.store.connect p id targets }
  | disconnect {p : RelationPlan} (plan : p ∈ db.schema.plans) (id : Int)
    (targets : Option (List Int)) : db.Step s { s with store := s.store.disconnect p id targets }

/-- A step of a write. -/
inductive Database.Change (db : Database) (s : Session) : Session → Prop where
  | step {m : Session} (step : db.Step s m) : db.Change s m
  | stamp {l : ListType} (list : l ∈ db.schema.lists) {data values : Value.Entries}
    {supply : Supply}
    (run : (Storage.stampAll l.storedFields data).run s.supply = .ok (values, supply)) :
    db.Change s { s with supply }
  | update {l : ListType} (list : l ∈ db.schema.lists) {id : Int} {values : Value.Entries}
    {store : Store} (run : db.update s.store l.key id values = .ok store) :
    db.Change s { s with store }

/-- A step of a write with data of a kind. What it draws is not looked at. -/
inductive Database.Writes (db : Database) (P : ListType → Value.Entries → Prop) (s : Session) :
    Session → Prop where
  | draw (supply : Supply) : db.Writes P s { s with supply }
  | insert {l : ListType} (list : l ∈ db.schema.lists) {now : DateTime} {values : Value.Entries}
    {row : Row} {store : Store} (carried : P l values)
    (run : db.insert s.store now l.key values = .ok (row, store)) : db.Writes P s { s with store }
  | update {l : ListType} (list : l ∈ db.schema.lists) {id : Int} {values : Value.Entries}
    {store : Store} (carried : P l values)
    (run : db.update s.store l.key id values = .ok store) : db.Writes P s { s with store }
  | connect {p : RelationPlan} (plan : p ∈ db.schema.plans) (id : Int) (targets : List Int) :
    db.Writes P s { s with store := s.store.connect p id targets }
  | disconnect {p : RelationPlan} (plan : p ∈ db.schema.plans) (id : Int)
    (targets : Option (List Int)) :
    db.Writes P s { s with store := s.store.disconnect p id targets }

theorem Database.Step.writes {db : Database} {s m : Session} (h : db.Step s m) :
    db.Writes (fun _ _ => True) s m := by
  cases h with
  | fill => exact .draw _
  | insert hl run => exact .insert hl trivial run
  | connect hp id ts => exact .connect hp id ts
  | disconnect hp id ts => exact .disconnect hp id ts

theorem Database.Change.writes {db : Database} {s m : Session} (h : db.Change s m) :
    db.Writes (fun _ _ => True) s m := by
  cases h with
  | step h => exact h.writes
  | stamp => exact .draw _
  | update hl run => exact .update hl trivial run

/-! ## Work in steps -/

/-- Whether work gets from session to session in certain steps, however it ends. -/
def Work.Walks {α : Type} (R : Session → Session → Prop) (x : Work α) : Prop :=
  ∀ s, Relation.ReflTransGen R s (x.outcome s).2

namespace Work

variable {α β : Type} {R Q : Session → Session → Prop} {x : Work α} {f : α → Work β}

theorem Walks.of_yields (hx : x.Walks R) {s s' : Session} {a : α} (h : x.Yields s a s') :
    Relation.ReflTransGen R s s' := by
  have hs := hx s
  rwa [h] at hs

theorem Walks.mono (hx : x.Walks R) (h : ∀ s m, R s m → Q s m) : x.Walks Q :=
  fun s => Relation.ReflTransGen.mono h _ _ (hx s)

theorem Reads.walks (hx : x.Reads) : x.Walks R := by
  intro s
  rw [hx s]

theorem Walks.bind (hx : x.Walks R) (hf : ∀ a s m, x.Yields s a m → (f a).Walks R) :
    (x >>= f).Walks R := by
  intro s
  have hs := hx s
  rw [outcome_bind]
  rcases ho : x.outcome s with ⟨r, m⟩
  rw [ho] at hs
  cases r with
  | ok a => exact hs.trans (hf a s m ho m)
  | error e => exact hs

theorem Reads.bind_walks (hx : x.Reads) (hf : ∀ a s, x.Yields s a s → (f a).Walks R) :
    (x >>= f).Walks R := by
  refine hx.walks.bind fun a s m ha => ?_
  obtain rfl := hx.eq ha
  exact hf a s ha

theorem generate_walks {g : Generated α}
    (h : ∀ s a supply, g.run s.supply = .ok (a, supply) → R s { s with supply }) :
    (generate g).Walks R := by
  intro s
  simp only [generate, outcome_bind, outcome_get, outcome_ofExcept]
  cases hg : g.run s.supply with
  | error e => exact .refl
  | ok r => exact .single (h s r.1 r.2 hg)

end Work

/-- Whether making and removing links takes steps of a kind. -/
structure Database.Relinks (db : Database) (R : Session → Session → Prop) : Prop where
  connect : ∀ p ∈ db.schema.plans, ∀ (s : Session) id targets,
    R s { s with store := s.store.connect p id targets }
  disconnect : ∀ p ∈ db.schema.plans, ∀ (s : Session) id targets,
    R s { s with store := s.store.disconnect p id targets }

theorem Database.relinks_step (db : Database) : db.Relinks db.Step where
  connect _ hp _ := .connect hp
  disconnect _ hp _ := .disconnect hp

/-- Creation is a step of a plan for what the plan has to create. -/
theorem ManyPlan.eq_create_of_mem_steps {p : ManyPlan} {items : List Value}
    (h : (.create, items) ∈ p.steps) : items = p.create := by
  obtain ⟨set, disconnect, connect, create⟩ := p
  rcases List.mem_append.1 h with h | h
  · cases set with
    | none => cases h
    | some vs => cases List.mem_singleton.1 h
  · have hmem := (List.mem_filter.1 h).1
    simpa using hmem

namespace Worker

variable {w : Worker} {R : Session → Session → Prop} {list field target : String} {id : Int}
  {create : String → Value → Work Int}

/-! ## Links -/

theorem relink_walks {f : Store → RelationPlan → Store}
    (hf : ∀ p ∈ w.db.schema.plans, ∀ s : Session,
      Relation.ReflTransGen R s { s with store := f s.store p }) :
    (w.relink list field f).Walks R := by
  refine (Work.reads_ofExcept _).bind_walks fun p _ hp s => ?_
  obtain ⟨hmem, -⟩ := Database.plan_ok (Work.ofExcept_yields.1 hp).1
  exact hf p hmem s

theorem connect_walks (hR : w.db.Relinks R) (list field : String) (id : Int) (ts : List Int) :
    (w.connect list field id ts).Walks R :=
  relink_walks fun p hp s => .single (hR.connect p hp s id ts)

theorem disconnect_walks (hR : w.db.Relinks R) (list field : String) (id : Int)
    (ts : Option (List Int)) : (w.relink list field fun s p => s.disconnect p id ts).Walks R :=
  relink_walks fun p hp s => .single (hR.disconnect p hp s id ts)

theorem setRelated_walks (hR : w.db.Relinks R) (list field : String) (id : Int) (ts : List Int) :
    (w.relink list field fun s p => s.setRelated p id ts).Walks R := by
  refine relink_walks fun p hp s => ?_
  have hnone : R s { s with store := s.store.disconnect p id none } := hR.disconnect p hp s id none
  exact (Relation.ReflTransGen.single hnone).tail (hR.connect p hp _ id ts)

theorem createAll_walks {items : List Value} (hcreate : ∀ v ∈ items, (create list v).Walks R) :
    (createAll create list items).Walks R := by
  induction items with
  | nil => exact (Work.reads_pure _).walks
  | cons v r ih =>
    obtain ⟨hv, hr⟩ := List.forall_mem_cons.1 hcreate
    refine hv.bind fun _ _ _ _ => (ih hr).bind fun _ _ _ _ => ?_
    exact (Work.reads_pure _).walks

theorem applyOne_walks (hR : w.db.Relinks R) {a : OneAction}
    (hcreate : ∀ v ∈ (Resolve.LinkAction.one a).newItems, (create target v).Walks R) :
    (w.applyOne create list field target id a).Walks R := by
  obtain ⟨verb, value⟩ := a
  cases verb with
  | disconnect => exact disconnect_walks hR list field id none
  | connect =>
    refine (w.require_reads target value).bind_walks fun t _ _ => ?_
    exact connect_walks hR list field id [t]
  | create =>
    refine (hcreate value (List.mem_singleton_self value)).bind fun t _ _ _ => ?_
    exact connect_walks hR list field id [t]

theorem applyStep_walks (hR : w.db.Relinks R) {verb : ManyVerb} {items : List Value}
    (hcreate : verb = .create → ∀ v ∈ items, (create target v).Walks R) :
    (w.applyStep create list field target id verb items).Walks R := by
  cases verb with
  | set =>
    refine (w.requireAll_reads target items).bind_walks fun ts _ _ => ?_
    exact setRelated_walks hR list field id ts
  | disconnect =>
    refine (w.findAll_reads target items).bind_walks fun ts _ _ => ?_
    split
    · exact disconnect_walks hR list field id (some ts)
    · exact (Work.reads_pure ()).walks
  | connect =>
    refine (w.requireAll_reads target items).bind_walks fun ts _ _ => ?_
    exact connect_walks hR list field id ts
  | create =>
    refine (createAll_walks (hcreate rfl)).bind fun ts _ _ _ => ?_
    exact connect_walks hR list field id ts

theorem applySteps_walks (hR : w.db.Relinks R) {steps : List (ManyVerb × List Value)}
    (hcreate : ∀ step ∈ steps, step.1 = .create → ∀ v ∈ step.2, (create target v).Walks R) :
    (w.applySteps create list field target id steps).Walks R := by
  induction steps with
  | nil => exact (Work.reads_pure ()).walks
  | cons step r ih =>
    obtain ⟨hstep, hr⟩ := List.forall_mem_cons.1 hcreate
    exact (applyStep_walks hR hstep).bind fun _ _ _ _ => ih hr

/-- Actions on links take steps of a kind when the links do and so does all that the actions
create. -/
theorem applyLinks_walks (hR : w.db.Relinks R) {links : List (String × Resolve.LinkAction)}
    (hcreate : ∀ e ∈ links, ∀ p, w.db.plan list e.1 = .ok p → ∀ v ∈ e.2.newItems,
      (create p.target v).Walks R) : (w.applyLinks create list id links).Walks R := by
  induction links with
  | nil => exact (Work.reads_pure ()).walks
  | cons e r ih =>
    obtain ⟨field, action⟩ := e
    obtain ⟨here, later⟩ := List.forall_mem_cons.1 hcreate
    refine (Work.reads_ofExcept _).bind_walks fun p _ hp => ?_
    have here := here p (Work.ofExcept_yields.1 hp).1
    cases action with
    | one a => exact (applyOne_walks hR here).bind fun _ _ _ _ => ih later
    | many plan =>
      refine (applySteps_walks hR fun step hstep hverb v hv => here v ?_).bind
        fun _ _ _ _ => ih later
      obtain ⟨verb, items⟩ := step
      subst hverb
      obtain rfl := ManyPlan.eq_create_of_mem_steps hstep
      exact hv

/-! ## Columns -/

theorem insert_walks {l : ListType} (hl : l ∈ w.db.schema.lists) (values : Value.Entries) :
    (w.insert l.key values).Walks w.db.Step := by
  intro s
  simp only [insert, Work.outcome_bind, Work.outcome_get, Work.outcome_ofExcept]
  cases hi : w.db.insert s.store s.supply.now.1 l.key values with
  | error e => exact .refl
  | ok r => exact .single (.insert hl hi)

theorem insertColumns_walks (w : Worker) (list : String) (data : Value) :
    (w.insertColumns list data).Walks w.db.Step := by
  refine (Work.reads_ofExcept _).bind_walks fun l _ hl => ?_
  obtain ⟨hmem, rfl⟩ := Schema.mem_of_list? (listOf_yields.1 hl).1
  refine (Work.reads_ofExcept _).bind_walks fun c _ _ => ?_
  refine (Work.generate_walks fun _ _ _ h => .fill hmem h).bind fun values _ _ _ => ?_
  refine (insert_walks hmem values).bind fun row _ _ _ => ?_
  exact (Work.reads_pure _).walks

theorem change_walks {l : ListType} (hl : l ∈ w.db.schema.lists) (id : Int)
    (values : Value.Entries) : (w.change l.key id values).Walks w.db.Change := by
  intro s
  simp only [change, Work.outcome_bind, Work.outcome_store, Work.outcome_ofExcept]
  cases hu : w.db.update s.store l.key id values with
  | error e => exact .refl
  | ok t =>
    have hone : Relation.ReflTransGen w.db.Change s { s with store := t } := .single (.update hl hu)
    simp only [Work.outcome_setStore]
    split
    · exact hone
    · exact hone

theorem changeColumns_walks (w : Worker) (list : String) (id : Int) (data : Value) :
    (w.changeColumns list id data).Walks w.db.Change := by
  refine (Work.reads_ofExcept _).bind_walks fun l _ hl => ?_
  obtain ⟨hmem, rfl⟩ := Schema.mem_of_list? (listOf_yields.1 hl).1
  refine (Work.reads_ofExcept _).bind_walks fun c _ _ => ?_
  refine (Work.generate_walks fun _ _ _ h => .stamp hmem h).bind fun values _ _ _ => ?_
  split
  · refine (change_walks hmem id values).bind fun _ _ _ _ => ?_
    exact (Work.reads_pure _).walks
  · exact (Work.reads_pure _).walks

/-! ## Records -/

theorem createWithin_walks (w : Worker) (depth : Nat) (list : String) (data : Value) :
    (w.createWithin depth list data).Walks w.db.Step := by
  induction depth generalizing list data with
  | zero => exact (Work.reads_throw _).walks
  | succ depth ih =>
    refine (w.insertColumns_walks list data).bind fun ⟨row, links⟩ _ _ _ => ?_
    have hlinks : (w.applyLinks (w.createWithin depth) list row.id links).Walks w.db.Step :=
      applyLinks_walks w.db.relinks_step fun _ _ p _ v _ => ih p.target v
    exact hlinks.bind fun _ _ _ _ => (Work.reads_pure _).walks

/-- Actions on links take steps of creation. -/
theorem linksWithin_walks (w : Worker) (depth : Nat) (list : String) (id : Int)
    (links : List (String × Resolve.LinkAction)) :
    (w.applyLinks (w.createWithin depth) list id links).Walks w.db.Step :=
  applyLinks_walks w.db.relinks_step fun _ _ p _ v _ => w.createWithin_walks depth p.target v

/-- Creating a record takes steps of creation, however it ends. -/
theorem create_walks (w : Worker) (list : String) (data : Value) :
    (w.create list data).Walks w.db.Step := by
  refine (w.createWithin_walks w.db.depth list data).bind fun id _ _ _ => ?_
  exact (w.recordOf_reads list id).walks

/-- Updating a record takes steps of writes, however it ends. -/
theorem update_walks (w : Worker) (list : String) (filter data : Value) :
    (w.update list filter data).Walks w.db.Change := by
  refine (w.require_reads list filter).bind_walks fun id _ _ => ?_
  refine (w.recordOf_reads list id).bind_walks fun before _ _ => ?_
  refine (w.changeColumns_walks list id data).bind fun links _ _ _ => ?_
  have hlinks : (w.applyLinks w.createId list id links).Walks w.db.Step :=
    w.linksWithin_walks w.db.depth list id links
  refine (hlinks.mono fun _ _ => .step).bind fun _ _ _ _ => ?_
  refine Work.reads_store.bind_walks fun t _ _ => ?_
  split
  · exact (Work.reads_pure _).walks
  · exact (Work.reads_pure _).walks

end Worker

/-! ## Runs -/

namespace Database

variable {db : Database}

/-- Calls that take steps of a kind take them one after the other. -/
theorem run_walks {R : Session → Session → Prop} {calls : List WriteCall}
    (h : ∀ c ∈ calls, (c.work db).Walks R) (s : Session) :
    Relation.ReflTransGen R s (db.run calls s) := by
  induction calls generalizing s with
  | nil => exact .refl
  | cons c r ih =>
    obtain ⟨hc, hr⟩ := List.forall_mem_cons.1 h
    exact (hc s).trans (ih hr _)

theorem work_walks (db : Database) (c : WriteCall) : (c.work db).Walks db.Change := by
  cases c with
  | create setPolicy context list data =>
    exact (Worker.create_walks { db, setPolicy, context } list data).mono fun _ _ => .step
  | update setPolicy context list filter data =>
    exact Worker.update_walks { db, setPolicy, context } list filter data

/-- A run of calls takes steps of writes, whether the calls succeed or not. -/
theorem run_steps (db : Database) (calls : List WriteCall) (s : Session) :
    Relation.ReflTransGen db.Change s (db.run calls s) :=
  run_walks (fun c _ => db.work_walks c) s

end Database

end RecordSchema
