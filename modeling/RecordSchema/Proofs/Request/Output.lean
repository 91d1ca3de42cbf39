import RecordSchema.Proofs.Relation.Sides
import RecordSchema.Proofs.Request.Created
import RecordSchema.Proofs.Request.Isolated
import RecordSchema.Request.Read

/-!
# Output of created records

What was written is read. A created record has in every column of a
field a value of output, or nothing, or what an expression of storage
filled in (`Database.Holds`). Nothing is a value of output as well,
unless the column holds a list, or it belongs to a composite that
requires it: such a field has a gap (`Storage.hasGap`). Relations are
followed without a fault whatever is stored, and the fault of one field
never touches another. So the fields that fail in the output of a
created record are those with a gap
(`Database.Compiles.created_faults`).
-/

namespace RecordSchema

open Layout

/-! ## Linked records -/

/-- Without a filter and an order, linked records are found on any page of small numbers. -/
theorem Database.exists_findRelated {db : Database} {list field : String} {p : RelationPlan}
    (hp : db.plan list field = .ok p) (s : Store) (id : Int) (take : Option Int)
    (htake : take.all fitsWord = true) :
    ∃ rows, db.findRelated s list field id { take } = .ok rows := by
  have hpage : checkPage 0 take = .ok () := by
    rw [checkPage, htake]
    rfl
  have hsearch : db.search s p.target (s.isReached p id) { take } =
      .ok (page (s.select p.target (s.isReached p id) (.all []) []) 0 take) :=
    Except.bind_eq_ok.2 ⟨(.all [], []), rfl, Except.bind_eq_ok.2 ⟨[], rfl,
      Except.bind_eq_ok.2 ⟨.all [], rfl, Except.bind_eq_ok.2 ⟨(), hpage, rfl⟩⟩⟩⟩
  exact ⟨_, Except.bind_eq_ok.2 ⟨p, hp, hsearch⟩⟩

namespace Reader

variable {r : Reader} {list field : String} {p : RelationPlan}

theorem exists_follow (hp : r.db.plan list field = .ok p) (id : Int) :
    ∃ v, r.follow (.related .one list field (.int id)) = .ok v := by
  obtain ⟨rows, hrows⟩ := Database.exists_findRelated hp r.store id (some 1) rfl
  have hone : r.relatedOne list field id = .ok (rows.head?.map (r.db.record p.target)) :=
    Except.bind_eq_ok.2 ⟨p, hp, Except.bind_eq_ok.2 ⟨rows, hrows, rfl⟩⟩
  exact ⟨_, Except.bind_eq_ok.2 ⟨_, hone, rfl⟩⟩

/-- A search of a relation to many without arguments ends without a fault. -/
theorem exists_search (hp : r.db.plan list field = .ok p) {l : ListType}
    (hl : r.db.schema.list? p.target = some l) (id : Int) :
    ∃ v, r.reach.many (.related .many list field (.int id)) [] = .ok v := by
  obtain ⟨rows, hrows⟩ := Database.exists_findRelated hp r.store id none rfl
  have hlist : Resolve.listOf r.db.schema p.target = .ok l := by rw [Resolve.listOf, hl]
  have hsearch : Resolve.search r.db.schema r.context r.db.depth p.target {} = .ok {} :=
    Except.bind_eq_ok.2 ⟨.map [], rfl, Except.bind_eq_ok.2 ⟨[],
      Except.bind_eq_ok.2 ⟨l, hlist, rfl⟩, rfl⟩⟩
  have hmany : r.relatedMany list field id {} = .ok (r.records p.target rows) :=
    Except.bind_eq_ok.2 ⟨p, hp, Except.bind_eq_ok.2 ⟨{}, hsearch,
      Except.bind_eq_ok.2 ⟨rows, hrows, rfl⟩⟩⟩
  exact ⟨_, Except.bind_eq_ok.2 ⟨{}, rfl, Except.bind_eq_ok.2 ⟨_, hmany, rfl⟩⟩⟩

end Reader

/-! ## Gaps -/

namespace Storage

/-- Whether output has no null in a column of the kind. -/
def refusesNull : Storage → Bool
  | .scalar f => f.mode == .many || (f.mode == .required && f.scalar != .json)
  | .enum f => f.mode != .nullable
  | _ => false

/-- Whether a column of a composite was left without a value of output. -/
def columnGap (s : Storage) (v : Value) : Bool :=
  if s.isExpressed then !s.gives v else v.isNull && s.refusesNull

/-- Whether the value of a field of a new record is none of output: a list that was not
given, a composite with such a column or with a list of choices, or what an expression
has filled in. -/
def hasGap : Storage → Value → Bool
  | .multi fields, v => fields.any fun (name, s) =>
    s.isManyChoice || s.columnGap ((v.entries?.getD []).get name)
  | s, v => if s.isExpressed then !s.gives v else v.isNull && s.mode? == some .many

theorem hasGap_none (v : Value) : Storage.none.hasGap v = false :=
  Bool.and_false _

theorem hasGap_relation (r : RelationField) (v : Value) : (Storage.relation r).hasGap v = false :=
  Bool.and_false _

theorem gives_null {s : Storage} (hs : s.isScalarish = true) : s.gives .null = !s.refusesNull := by
  cases s with
  | scalar f =>
    have hvalue : f.scalar.admits .null = (f.scalar == .json) := by cases f.scalar <;> rfl
    rw [Bool.eq_iff_iff, gives_scalar]
    unfold refusesNull Shape.IsHeld
    cases hmode : f.mode <;> simp [hmode, hvalue, Shape.conforms, Value.items?]
  | enum f =>
    rw [Bool.eq_iff_iff, gives_enum]
    unfold refusesNull Shape.IsHeld
    cases hmode : f.mode <;> simp [hmode, Shape.conforms, Value.items?]
  | _ => cases hs

/-- Only lists refuse null, unless a single value is required. -/
theorem refusesNull_eq {s : Storage} (hs : s.isScalarish = true)
    (h : s.mode? ≠ some .required ∨ s.refusesNull = false) :
    s.refusesNull = (s.mode? == some .many) := by
  cases s with
  | scalar f | enum f =>
    unfold refusesNull mode? at *
    cases hmode : f.mode <;> simp_all
  | _ => cases hs

theorem isNull_eq_false {v : Value} (h : v ≠ .null) : v.isNull = false := by
  cases v <;> first | rfl | exact absurd rfl h

theorem columnGap_eq {s : Storage} (hs : s.isScalarish = true) {v : Value}
    (hv : s.isExpressed = true ∨ v = .null ∨ s.gives v = true) : s.columnGap v = !s.gives v := by
  unfold columnGap
  split
  · rfl
  · next hexpressed =>
    by_cases hnull : v = .null
    · rw [hnull, gives_null hs, Bool.not_not]
      rfl
    · rw [isNull_eq_false hnull, (hv.resolve_left hexpressed).resolve_left hnull]
      rfl

/-- A field in one column that is filled where it is required has a gap when it holds no
value of output. -/
theorem hasGap_eq {s : Storage} (hs : s.isScalarish = true) {v : Value}
    (hv : s.isExpressed = true ∨ (v = .null ∧ s.mode? ≠ some .required) ∨ s.gives v = true) :
    s.hasGap v = !s.gives v := by
  have hgap : s.hasGap v =
      if s.isExpressed then !s.gives v else v.isNull && s.mode? == some .many := by
    cases s <;> first | rfl | cases hs
  rw [hgap]
  split
  · rfl
  · next hexpressed =>
    have hv := hv.resolve_left hexpressed
    by_cases hnull : v = .null
    · subst hnull
      rw [gives_null hs, Bool.not_not, refusesNull_eq hs]
      · rfl
      · refine hv.imp And.right fun hgives => ?_
        rwa [gives_null hs, Bool.not_eq_true'] at hgives
    · rw [isNull_eq_false hnull, hv.resolve_left fun h => hnull h.1]
      rfl

end Storage

/-! ## Values of a new record -/

namespace Database

variable {db : Database} {d : Declarations} {l : ListType} {key : String} {f : Field} {row : Row}

/-- A column of a new record reads a value of output, or nothing, or what its expression
filled in. -/
theorem Holds.reads (hr : db.Holds l row) (h : db.Compiles d) (hl : l ∈ db.schema.lists)
    {slot : String × Storage} (hslot : slot ∈ columnKinds l) :
    slot.2.isExpressed = true ∨
      (row.cell slot.1 = .null ∧ (tableOf db.schema.plans l).readColumn row slot.1 = .null) ∨
      slot.2.gives ((tableOf db.schema.plans l).readColumn row slot.1) = true := by
  refine (hr.columns slot hslot).imp_right (Or.imp_left fun hnull => ⟨hnull, ?_⟩)
  obtain ⟨c, hc, hcolumn, -⟩ := h.exists_column hl hslot
  rw [← hcolumn.name, h.readColumn_eq hl hc, hcolumn.name, hnull]
  cases c.type <;> rfl

namespace Compiles

theorem gives_id (h : db.Compiles d) (hl : l ∈ db.schema.lists) (hf : ("id", f) ∈ l.fields)
    (n : Int) : f.storage.gives (.int n) = true := by
  have hnumbered := h.isNumberedKey hl hf
  have hp := h.problems_eq_nil hl hf
  have hd := h.defaultProblems_eq_nil hl hf
  unfold Declarations.isNumberedKey at hnumbered
  split at hnumbered
  · next s hs =>
    simp only [Bool.and_eq_true] at hnumbered
    rw [hs] at hp hd hnumbered ⊢
    have hgiven := Storage.isGiven_int rfl hd hnumbered.1.2 n
    rcases hgiven.isHeld hp rfl rfl with hheld | ⟨-, t, ⟨⟩⟩
    exact Storage.gives_scalar.2 hheld
  · cases hnumbered

theorem shows_column (h : db.Compiles d) (hl : l ∈ db.schema.lists) (hf : (key, f) ∈ l.fields)
    (hr : db.Holds l row) (ho : f.storage.HasOutput f.output) (hs : f.storage.isScalarish = true) :
    ∃ v, (db.record l.key row).value? key = some v ∧ ∀ reach c, c.value = v →
      (f.resolveOutput reach c).isOk = !f.storage.hasGap v := by
  suffices hvalue : ∃ v, (db.record l.key row).value? key = some v ∧ (f.storage.isExpressed = true ∨
      (v = .null ∧ f.storage.mode? ≠ some .required) ∨ f.storage.gives v = true) by
    obtain ⟨v, hv, hcases⟩ := hvalue
    refine ⟨v, hv, fun reach c hc => ?_⟩
    rw [Field.isOk_resolveOutput_column ho hs, hc, Storage.hasGap_eq hs hcases, Bool.not_not]
  -- The id is no column of a field: it is read off the row, and is never empty.
  by_cases hid : key = "id"
  · subst hid
    exact ⟨_, h.record_id hl row, .inr (.inr (h.gives_id hl hf row.id))⟩
  · obtain ⟨column, hslot, hvalue⟩ := h.record_column hl hf hid hs row
    have hreads := hr.reads h hl (mem_columnKinds.2 ⟨key, f, hf, hid, hslot⟩)
    refine ⟨_, hvalue, hreads.imp_right (Or.imp_left fun hnull => ⟨hnull.2, fun hmode => ?_⟩)⟩
    exact hr.required key f hf hid hmode _ hslot hnull.1

theorem shows_composite (h : db.Compiles d) (hl : l ∈ db.schema.lists) (hf : (key, f) ∈ l.fields)
    (hr : db.Holds l row) (ho : f.storage.HasOutput f.output) {fields : List (String × Storage)}
    (hs : f.storage = .multi fields) (hnames : (fields.map Prod.fst).Nodup) :
    ∃ v, (db.record l.key row).value? key = some v ∧ ∀ reach c, c.value = v →
      (f.resolveOutput reach c).isOk = !f.storage.hasGap v := by
  have hid : key ≠ "id" := by
    rintro rfl
    have hn := h.isNumberedKey hl hf
    rw [Declarations.isNumberedKey, hs] at hn
    cases hn
  have hp := h.problems_eq_nil hl hf
  obtain ⟨es, hvalue, hreads⟩ := h.record_composite hl hf hid hs hnames row
  refine ⟨.map es, hvalue, fun reach c hc => ?_⟩
  have hgap : ∀ e ∈ fields, e.2.columnGap (es.get e.1) = !e.2.gives (es.get e.1) := by
    intro e he
    refine Storage.columnGap_eq (Storage.legal_of_mem (hs ▸ hp) he).1 ?_
    rw [hreads e he]
    have hslot : (subfieldColumn key e.1 e.2, e.2) ∈ columnKinds l := by
      refine mem_columnKinds.2 ⟨key, f, hf, hid, ?_⟩
      rw [hs]
      exact List.mem_map.2 ⟨e, he, rfl⟩
    exact (hr.reads h hl hslot).imp_right (Or.imp_left And.right)
  rw [Field.isOk_resolveOutput_composite ho hp hs hc, hs]
  change _ = !fields.any fun e => e.2.isManyChoice || e.2.columnGap (es.get e.1)
  rw [List.not_any_eq_all_not, Bool.eq_iff_iff, List.all_eq_true, List.all_eq_true]
  refine forall₂_congr fun e he => ?_
  rw [hgap e he, Bool.not_or, Bool.not_not, Bool.and_comm]

end Compiles

end Database

/-! ## Outputs of a new record -/

namespace Reader

variable {r : Reader} {d : Declarations} {l : ListType} {key : String} {f : Field} {row : Row}

theorem shows_relation (h : r.db.Compiles d) (hl : l ∈ r.db.schema.lists)
    (hf : (key, f) ∈ l.fields) (ho : f.storage.HasOutput f.output) {rel : RelationField}
    (hs : f.storage = .relation rel) {id : Int} {c : Call}
    (hc : c.value = .related rel.mode l.key key (.int id)) (hargs : c.args = []) :
    (f.resolveOutput r.reach c).isOk = true := by
  obtain ⟨p, hp, hlist, rfl⟩ := h.exists_plan hl hf hs
  have hplan : r.db.plan l.key p.field = .ok p := by
    rw [Database.plan, ← hlist, h.plan?_eq hp]
  have hshape : (f.shape .output).conforms c.value = true := by
    rw [Field.shape, hs, hc, Storage.shape]
    cases rel.mode <;> rfl
  rw [Field.isOk_resolveOutput, hshape, Bool.true_and]
  rw [hs] at ho
  generalize f.output = o at ho
  cases ho with
  | missing => rfl
  | follow rel o hone ho =>
    obtain ⟨v, hv⟩ := exists_follow hplan id
    have hcall : Field.callOutput r.reach .follow c = .ok v := by
      rw [← hv, ← hone, ← hc]
      rfl
    rw [Option.bind_some, ho, Option.all_some, hcall]
    rfl
  | search rel o hmany ho =>
    obtain ⟨-, target, htarget, hkey⟩ := h.exists_ends hp
    obtain ⟨v, hv⟩ := exists_search hplan (hkey ▸ h.list?_eq htarget) id
    have hcall : Field.callOutput r.reach .search c = .ok v := by
      rw [← hv, ← hmany, ← hc, ← hargs]
      rfl
    rw [Option.bind_some, ho, Option.all_some, hcall]
    rfl

/-- Whether a field of a record has a value for output, which is shown unless it has a gap. -/
def Shows (r : Reader) (list : String) (record : Record) (f : Field) : Prop :=
  ∃ v, fieldValue list f record = .ok v ∧
    (f.resolveOutput r.reach (r.call record v [])).isOk = !f.storage.hasGap (record.get f.key)

theorem Shows.of_value? {list : String} {record : Record}
    (hvalue : fieldValue list f record = .ok ((record.value? f.key).getD .null))
    (hshows : ∃ v, record.value? f.key = some v ∧ ∀ reach c, c.value = v →
      (f.resolveOutput reach c).isOk = !f.storage.hasGap v) : r.Shows list record f := by
  obtain ⟨v, hv, hshows⟩ := hshows
  rw [hv, Option.getD_some] at hvalue
  refine ⟨v, hvalue, ?_⟩
  rw [Value.Entries.get, hv, Option.getD_some]
  exact hshows r.reach _ rfl

/-- Every field of a new record is shown unless it has a gap. -/
theorem shows_of_holds (h : r.db.Compiles d) (hb : d.UsesBuiltIns)
    (hanswers : ∀ decl ∈ d.lists, ∀ e ∈ decl.specs, e.2.Answers)
    (hnames : ∀ l ∈ r.db.schema.lists, ∀ e ∈ l.fields, e.2.storage.namesOnce = true)
    (hl : l ∈ r.db.schema.lists) (hf : (key, f) ∈ l.fields) (hr : r.db.Holds l row) :
    r.Shows l.key (r.db.record l.key row) f := by
  obtain ⟨decl, hdecl, spec, hspec, hok⟩ := h.assembled hl hf
  have ho := (hb decl hdecl _ hspec).hasOutput hok
  obtain rfl := h.field_key hl hf
  cases hs : f.storage with
  | scalar | enum =>
    refine .of_value? (by rw [fieldValue, hs]) ?_
    exact h.shows_column hl hf hr ho (hs ▸ rfl)
  | multi fields =>
    refine .of_value? (by rw [fieldValue, hs]) ?_
    have hnodup := hnames l hl _ hf
    rw [hs] at hnodup
    exact h.shows_composite hl hf hr ho hs (of_decide_eq_true hnodup)
  | relation rel =>
    refine ⟨.related rel.mode l.key f.key (.int row.id), ?_, ?_⟩
    · rw [fieldValue, hs, h.record_id hl row]
    · rw [shows_relation h hl hf ho hs rfl rfl, hs, Storage.hasGap_relation]
      rfl
  | none =>
    refine ⟨.unset, by rw [fieldValue, hs], ?_⟩
    rw [Field.isOk_resolveOutput, Field.shape, hs, Storage.hasGap_none]
    rw [hs] at ho
    cases houtput : f.output with
    | none =>
      rw [houtput] at ho
      cases ho
    | some o =>
      rw [houtput] at ho
      cases ho with
      | virtual o g hg =>
        rw [Option.bind_some, hg, Option.all_some]
        exact (hanswers decl hdecl _ hspec).isOk_compute hok hs houtput hg _
  | unsupported v =>
    rw [hs] at ho
    cases ho

theorem Shows.fails_eq {list : String} {record : Record} (h : r.Shows list record f) :
    r.fails list record f = f.storage.hasGap (record.get f.key) := by
  obtain ⟨v, hv, hshows⟩ := h
  have halone : r.alone list record f = f.resolveOutput r.reach (r.call record v []) := by
    rw [alone, hv]
    rfl
  rw [← halone, isOk_alone] at hshows
  exact Bool.not_inj hshows

end Reader

theorem Storage.HasOutput.isSome_of_hasGap {s : Storage} {o : Option FieldOutput}
    (h : s.HasOutput o) {v : Value} (hgap : s.hasGap v = true) : o.isSome = true := by
  cases h with
  | missing r =>
    rw [hasGap_relation] at hgap
    cases hgap
  | _ => rfl

/-- The fields of a new record that fail in its output are those with a gap. -/
theorem Reader.output_of_holds {r : Reader} {d : Declarations} {l : ListType} {row : Row}
    (h : r.db.Compiles d) (hb : d.UsesBuiltIns)
    (hanswers : ∀ decl ∈ d.lists, ∀ e ∈ decl.specs, e.2.Answers)
    (hnames : ∀ l ∈ r.db.schema.lists, ∀ e ∈ l.fields, e.2.storage.namesOnce = true)
    (hl : l ∈ r.db.schema.lists) (hr : r.db.Holds l row) :
    ∃ out, r.output l.key (r.db.record l.key row) = .ok out ∧ out.faults.map Prod.fst =
      (l.fields.filter fun e =>
        e.2.storage.hasGap (Value.Entries.get (r.db.record l.key row) e.1)).map Prod.fst := by
  have hid : ∀ e ∈ outputFields l, e.2.relation?.isSome = true →
      ((r.db.record l.key row).value? "id").isSome = true := fun _ _ _ => by
    rw [h.record_id hl row]
    rfl
  refine ⟨_, output_eq h hl hid, (map_fst_told _ _ _ _).trans (congrArg _ ?_)⟩
  -- Fields without an output are passed over, but they have no gap either.
  rw [outputFields, List.filter_filter]
  refine List.filter_congr fun e he => ?_
  obtain ⟨decl, hdecl, spec, hspec, hok⟩ := h.assembled hl he
  have ho := (hb decl hdecl _ hspec).hasOutput hok
  rw [(shows_of_holds h hb hanswers hnames hl he hr).fails_eq, h.field_key hl he]
  exact Bool.and_eq_left_iff_imp.2 ho.isSome_of_hasGap

/-- A created record has an output, in which the fields with a fault are those that creation
has left with a gap: lists that were not given, composites with a list of choices or with
an empty column that has to be filled, and columns that an expression of storage has
filled with something else. -/
theorem Database.Compiles.created_faults {w : Worker} {d : Declarations} (h : w.db.Compiles d)
    (hb : d.UsesBuiltIns) (hanswers : ∀ decl ∈ d.lists, ∀ e ∈ decl.specs, e.2.Answers)
    (hnames : ∀ l ∈ w.db.schema.lists, ∀ e ∈ l.fields, e.2.storage.namesOnce = true)
    {s s' : Session} {list : String} {data : Value} {record : Record}
    (hc : (w.create list data).Yields s record s') (store : Store) (context : Value) :
    ∃ l ∈ w.db.schema.lists, l.key = list ∧
      ∃ out, ({ db := w.db, store, context } : Reader).output list record = .ok out ∧
        out.faults.map Prod.fst =
          (l.fields.filter fun e => e.2.storage.hasGap (record.get e.1)).map Prod.fst := by
  obtain ⟨l, hl, rfl, row, rfl, hholds⟩ := Worker.create_holds h hnames hc
  obtain ⟨out, hout, hfaults⟩ :=
    Reader.output_of_holds (r := { db := w.db, store, context }) h hb hanswers hnames hl hholds
  exact ⟨l, hl, rfl, out, hout, hfaults⟩

/-- The columns of a cover, one of which has to be filled. -/
def coverColumns : List (String × Storage) :=
  [("width", .scalar { scalar := .int, mode := .required }),
    ("format", .enum { name := "Format", values := ["png", "jpg"] })]

/-- A schema of posts, which have a list of tags, a cover, and a kind that is computed. -/
def posts : Declarations :=
  ({} : Declarations).declare {
    key := "Post"
    specs := [
      ("title", .scalar .text {}),
      ("tags", .scalar .text { many := true }),
      ("cover", .composite coverColumns none none),
      ("kind", .virtual (.scalar .text) (fun _ => .ok (.text "post")) none none)] }

theorem posts_compiles : posts.database.result.Compiles posts :=
  Declarations.Declared.compiles (.declare (.start _ _ _) (by decide)) (by decide +kernel)

theorem posts_usesBuiltIns : posts.UsesBuiltIns := by
  have hstart : ({} : Declarations).UsesBuiltIns := nofun
  refine hstart.declare ?_
  refine List.forall_mem_cons.2 ⟨.scalar .text _, List.forall_mem_cons.2 ⟨.scalar .text _, ?_⟩⟩
  refine List.forall_mem_cons.2 ⟨.composite coverColumns none none, List.forall_mem_singleton.2 ?_⟩
  exact .virtual (.scalar .text) (fun _ => .ok (.text "post")) none none

theorem posts_answers : ∀ decl ∈ posts.lists, ∀ e ∈ decl.specs, e.2.Answers := by
  have hstart : ∀ l ∈ ({} : Declarations).lists, ∀ e ∈ l.specs, e.2.Answers := fun _ hl => by cases hl
  refine Declarations.forall_specs_declare hstart (.scalar .int _) ?_
  refine List.forall_mem_cons.2 ⟨.scalar .text _, List.forall_mem_cons.2 ⟨.scalar .text _, ?_⟩⟩
  refine List.forall_mem_cons.2 ⟨.composite coverColumns none none, List.forall_mem_singleton.2 ?_⟩
  exact .virtual (.scalar .text) (fun _ => .ok (.text "post")) none none fun _ => rfl

def postWorker : Worker where
  db := posts.database.result
  setPolicy := .reject

/-- What creating a post ends with. -/
def posted (data : Value.Entries) : Except Fault Record × Session :=
  (postWorker.create "Post" (.map data)).outcome { supply := blogSupply }

def postOutput (data : Value.Entries) : Except Fault Reader.Output :=
  ({ db := postWorker.db, store := (posted data).2.store } : Reader).output "Post"
    (posted data).1.result

/-- The facts about posts that are evaluated, in one go. -/
theorem posts_facts :
    (∀ l ∈ postWorker.db.schema.lists, ∀ e ∈ l.fields, e.2.storage.namesOnce = true) ∧
      (posted [(.text "title", .text "x")]).1.isOk = true ∧
      (∀ l ∈ postWorker.db.schema.lists, (l.fields.filter fun e => e.2.storage.hasGap
        (Value.Entries.get (posted [(.text "title", .text "x")]).1.result e.1)).map Prod.fst =
          ["tags", "cover"]) ∧
      (posted [(.text "title", .text "x"), (.text "cover", .map [(.text "width", .int 3)])]).1.isOk =
        true ∧
      (postOutput [(.text "title", .text "x"),
        (.text "cover", .map [(.text "width", .int 3)])]).toOption.map (·.faults.map Prod.fst) =
          some ["tags"] := by
  decide +kernel

theorem created_faults_posts :
    (posted [(.text "title", .text "x")]).1.isOk = true ∧
      (∀ l ∈ postWorker.db.schema.lists, ∀ e ∈ l.fields, e.2.storage.namesOnce = true) ∧
      ∃ out, postOutput [(.text "title", .text "x")] = .ok out ∧
        out.faults.map Prod.fst = ["tags", "cover"] := by
  obtain ⟨hnames, hok, hgaps, -⟩ := posts_facts
  obtain ⟨l, hl, -, out, hout, hfaults⟩ :=
    Database.Compiles.created_faults (w := postWorker) posts_compiles posts_usesBuiltIns
      posts_answers hnames (Prod.ext (Except.eq_ok_result hok) rfl) (posted _).2.store .null
  exact ⟨hok, hnames, out, hout, hfaults.trans (hgaps l hl)⟩

/-- A post is created without tags, and then its output fails for them. -/
theorem tags_without_output :
    (posted [(.text "title", .text "x"), (.text "cover", .map [(.text "width", .int 3)])]).1.isOk =
        true ∧
      ∃ out, postOutput [(.text "title", .text "x"),
          (.text "cover", .map [(.text "width", .int 3)])] = .ok out ∧
        out.faults.map Prod.fst = ["tags"] := by
  obtain ⟨-, -, -, hok, hfaults⟩ := posts_facts
  obtain ⟨out, hout, hfaults⟩ := Option.map_eq_some_iff.1 hfaults
  exact ⟨hok, out, Except.eq_ok_of_toOption hout, hfaults⟩

end RecordSchema
