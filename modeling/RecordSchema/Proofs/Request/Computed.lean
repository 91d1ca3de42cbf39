import RecordSchema.Proofs.Request.Refused
import RecordSchema.Proofs.Request.Restricted

/-!
# Computed fields

A field that is wired for creation without an argument is computed: the
client is not to set it, and its resolver makes up the value. It has a
resolver always (`Compiles.exists_resolver`), and creation always runs it.

Nothing keeps a value from that resolver, though. Whether a key is taken
is asked of the wiring alone, so data that name a computed field are not
refused, and what they give it is what its resolver is called with. A
guard in front of the resolvers shows how far this goes: it refuses every
value, and a record is created behind it just when it is created without
it and its data leave all computed fields alone, in the record itself and
in those that its links create (`Compiles.guarded_computed`). Only keys
that no field is wired for are refused.
-/

namespace RecordSchema

/-! ## The guard -/

/-- Whether a field is wired for creation without an argument. -/
def Field.isComputed (f : Field) : Bool :=
  f.accepts .create && (f.arg? .create).isNone

/-- A resolver behind a guard that lets nothing pass but the lack of a value. -/
def InputResolver.guarded (g : InputResolver) (refusal : Fault) : InputResolver := fun c =>
  if c.value.isUnset then g c else .error refusal

/-- Wiring with the guard in front of its resolver if there is no argument. -/
def FieldInput.guarded (i : FieldInput) (refusal : Fault) : FieldInput :=
  if i.arg.isNone then { i with resolve := i.resolve.map fun g => g.guarded refusal } else i

def Field.guarded (f : Field) (refusal : Fault) : Field :=
  { f with inputs := f.inputs.map fun e => (e.1, e.2.guarded refusal) }

def ListType.guarded (l : ListType) (refusal : Fault) : ListType :=
  { l with fields := l.fields.map fun e => (e.1, e.2.guarded refusal) }

namespace FieldInput

variable {i : FieldInput} {refusal : Fault} {v context : Value}

/-- The guard is not met by wiring with an argument, nor where there is no value. -/
theorem guarded_give (h : i.arg.isNone = true → v.isUnset = true) :
    (i.guarded refusal).give v context = i.give v context := by
  by_cases hi : i.arg.isNone = true
  · rw [guarded, if_pos hi, give, give]
    cases i.resolve with
    | none => rfl
    | some g => exact if_pos (h hi)
  · rw [guarded, if_neg hi]

theorem guarded_give_of_isNone (hi : i.arg.isNone = true) {g : InputResolver}
    (hg : i.resolve = some g) (hv : v.isUnset = false) :
    (i.guarded refusal).give v context = .error refusal := by
  rw [guarded, if_pos hi, give, hg]
  show g.guarded refusal { value := v, context } = .error refusal
  rw [InputResolver.guarded, hv]
  rfl

end FieldInput

namespace Field

variable {f : Field} {refusal : Fault} {op : Operation} {v context : Value}

theorem guarded_input? (f : Field) (refusal : Fault) (op : Operation) :
    (f.guarded refusal).input? op = (f.input? op).map fun i => i.guarded refusal :=
  List.lookup_map_snd (fun i => FieldInput.guarded i refusal) f.inputs op

theorem guarded_accepts (f : Field) (refusal : Fault) (op : Operation) :
    (f.guarded refusal).accepts op = f.accepts op := by
  rw [accepts, guarded_input?, Option.isSome_map, accepts]

theorem isComputed_iff : f.isComputed = true ↔
    ∃ i, f.input? .create = some i ∧ i.arg.isNone = true := by
  rw [isComputed, accepts, arg?]
  cases f.input? .create with
  | none => simp
  | some i => simp

/-- A field resolves what its wiring gives. -/
theorem resolveInput_eq {i : FieldInput} (hi : f.input? op = some i) :
    f.resolveInput op v context =
      ((i.give v context).mapError (f.wrap (.input op))).bind fun result =>
        if (f.shape op).conforms result then .ok result
        else .error (.resolution f.path (.wrongInput op result (f.shape op)) []) := by
  rw [resolveInput, hi, FieldInput.give]
  cases hg : i.resolve with
  | none =>
    simp only [hg]
    rfl
  | some g =>
    simp only [hg]
    rfl

/-- What is not a value for a computed field is resolved behind the guard as without it. -/
theorem guarded_resolveInput (h : f.isComputed = true → v.isUnset = true) :
    (f.guarded refusal).resolveInput .create v context = f.resolveInput .create v context := by
  cases hi : f.input? .create with
  | none =>
    have hi' : (f.guarded refusal).input? .create = none := by
      rw [guarded_input?, hi]
      rfl
    rw [resolveInput, resolveInput, hi, hi']
    rfl
  | some i =>
    have hi' : (f.guarded refusal).input? .create = some (i.guarded refusal) := by
      rw [guarded_input?, hi]
      rfl
    have hgive : (i.guarded refusal).give v context = i.give v context :=
      FieldInput.guarded_give fun hnone => h (isComputed_iff.2 ⟨i, hi, hnone⟩)
    rw [resolveInput_eq hi, resolveInput_eq hi', hgive]
    rfl

end Field

/-! ## Guarded data -/

/-- Whether data for a record leave the computed fields of its list alone. -/
def ListType.leavesComputed (l : ListType) : Value → Bool
  | .map es => l.fields.all fun e => !e.2.isComputed || (Value.Entries.get es e.1).isUnset
  | _ => true

namespace ListType

variable {l : ListType} {refusal : Fault} {op : Operation} {policy : SetPolicy}
  {context data : Value}

theorem leavesComputed_map {es : Value.Entries} : l.leavesComputed (.map es) = true ↔
    ∀ e ∈ l.fields, e.2.isComputed = true → (es.get e.1).isUnset = true := by
  simp only [leavesComputed, List.all_eq_true, Bool.or_eq_true, Bool.not_eq_true',
    ← Bool.not_eq_true, imp_iff_not_or]

theorem guarded_field? (l : ListType) (refusal : Fault) (key : String) :
    (l.guarded refusal).field? key = (l.field? key).map fun f => f.guarded refusal :=
  List.lookup_map_snd (fun f => Field.guarded f refusal) l.fields key

/-- The same keys are taken behind the guard. -/
theorem guarded_unknownKeys (l : ListType) (refusal : Fault) (op : Operation)
    (keys : List Value) :
    Resolve.unknownKeys (l.guarded refusal) op keys = Resolve.unknownKeys l op keys := by
  refine List.filter_congr fun k _ => ?_
  cases k with
  | text key =>
    simp only [accepting?, guarded_field?]
    cases l.field? key with
    | none => rfl
    | some f =>
      rw [Option.map_some, Option.filter_some, Option.filter_some, Field.guarded_accepts]
      cases f.accepts op <;> rfl
  | _ => rfl

theorem guarded_dataEntries (l : ListType) (refusal : Fault) (op : Operation) (data : Value) :
    Resolve.dataEntries (l.guarded refusal) op data = Resolve.dataEntries l op data := by
  simp only [Resolve.dataEntries, guarded_unknownKeys]
  rfl

/-- Data that leave the computed fields alone have the same outcomes behind the guard. -/
theorem guarded_dataOutcomes {es : Value.Entries} (h : l.leavesComputed (.map es) = true) :
    Resolve.dataOutcomes .create context es (l.guarded refusal).fields =
      Resolve.dataOutcomes .create context es l.fields := by
  rw [Resolve.dataOutcomes, Resolve.dataOutcomes, guarded, List.filterMap_map]
  refine List.filterMap_congr fun e he => ?_
  simp only [Function.comp_apply, Field.guarded_accepts,
    Field.guarded_resolveInput (leavesComputed_map.1 h e he)]

/-- Resolved data are split by what is stored, which the guard does not touch. -/
theorem guarded_split (l : ListType) (refusal : Fault) (op : Operation) (policy : SetPolicy)
    (vs : List (String × Value)) :
    Resolve.split (l.guarded refusal) op policy vs = Resolve.split l op policy vs := by
  induction vs with
  | nil => rfl
  | cons e r ih =>
    rw [Resolve.split, Resolve.split, guarded_field?, ih]
    cases l.field? e.1 <;> rfl

/-- Data that leave the computed fields alone are resolved behind the guard as without it. -/
theorem guarded_data (h : l.leavesComputed data = true) :
    Resolve.data (l.guarded refusal) .create context data =
      Resolve.data l .create context data := by
  rw [Resolve.data, Resolve.data, guarded_dataEntries]
  cases hes : Resolve.dataEntries l .create data with
  | error e => rfl
  | ok es =>
    obtain rfl := Resolve.dataEntries_ok hes
    show (gather l.key
      (Resolve.dataOutcomes .create context es (l.guarded refusal).fields)).bind _ = _
    rw [guarded_dataOutcomes h]
    rfl

theorem guarded_changes (h : l.leavesComputed data = true) :
    Resolve.changes (l.guarded refusal) .create policy context data =
      Resolve.changes l .create policy context data := by
  simp only [Resolve.changes, guarded_data h, guarded_split]

/-- Data that pass the guard leave the computed fields alone. -/
theorem leavesComputed_of_guarded
    (hresolver : ∀ e ∈ l.fields, ∀ i, e.2.input? .create = some i → i.arg.isNone = true →
      ∃ g, i.resolve = some g) {c : Resolve.Changes}
    (h : Resolve.changes (l.guarded refusal) .create policy context data = .ok c) :
    l.leavesComputed data = true := by
  obtain ⟨vs, hvs, -⟩ := Except.bind_eq_ok.1 h
  obtain ⟨es, rfl, -⟩ := Resolve.data_ok hvs
  refine leavesComputed_map.2 fun e he hcomputed => ?_
  obtain ⟨i, hi, hnone⟩ := Field.isComputed_iff.1 hcomputed
  obtain ⟨g, hg⟩ := hresolver e he i hi hnone
  by_contra hset
  have hasked : (e.2.guarded refusal).IsAsked .create (Value.Entries.get es e.1) := by
    refine ⟨?_, .inr rfl⟩
    rw [Field.guarded_accepts, Field.accepts, hi]
    rfl
  have hi' : (e.2.guarded refusal).input? .create = some (i.guarded refusal) := by
    rw [Field.guarded_input?, hi]
    rfl
  -- The field is asked, and its resolver refuses what it is given.
  obtain ⟨v, hv, -⟩ := Resolve.exists_ok_of_data hvs (List.mem_map_of_mem he) hasked
  exact Resolve.resolveInput_ne_ok_of_failing hi'
    (FieldInput.guarded_give_of_isNone hnone hg (Bool.not_eq_true _ ▸ hset)) v hv

end ListType

/-- Wiring without an argument has a resolver. -/
theorem Database.Compiles.exists_resolver {db : Database} {d : Declarations} (h : db.Compiles d)
    {l : ListType} (hl : l ∈ db.schema.lists) {e : String × Field} (he : e ∈ l.fields)
    {op : Operation} {i : FieldInput} (hi : e.2.input? op = some i) (hnone : i.arg.isNone = true) :
    ∃ g, i.resolve = some g := by
  obtain ⟨_, -, spec, -, hok⟩ := h.assembled hl he
  obtain ⟨t, -, ht⟩ := FieldSpec.assemble_ok hok
  exact FieldType.assemble_resolves ht (Keys.mem_of_lookup hi) hnone

namespace Worker

/-! ## Creation behind the guard -/

/-- Whether data leave the computed fields alone, in the record itself and in those that its links
create, down to a depth. -/
def leavesComputed (w : Worker) : (depth : Nat) → (list : String) → Value → Bool
  | 0, _, _ => true
  | depth + 1, list, data =>
    match w.db.schema.list? list with
    | none => true
    | some l =>
      l.leavesComputed data &&
        match Resolve.changes l .create w.setPolicy w.context data with
        | .error _ => true
        | .ok c => c.links.all fun e =>
          match w.db.plan list e.1 with
          | .ok p => e.2.newItems.all (w.leavesComputed depth p.target)
          | .error _ => true

section View

variable (w : Worker) (view : ListType → ListType)

def insertColumnsAs (list : String) (data : Value) :
    Work (Row × List (String × Resolve.LinkAction)) := do
  let l ← w.listOf list
  let c ← Work.ofExcept (Resolve.changes (view l) .create w.setPolicy w.context data)
  let values ← Work.generate (Storage.fillAll l.storedFields c.values)
  let row ← w.insert list values
  return (row, c.links)

def createWithinAs : (depth : Nat) → (list : String) → (data : Value) → Work Int
  | 0, _, _ => throw .nesting
  | depth + 1, list, data => do
    let (row, links) ← w.insertColumnsAs view list data
    w.applyLinks (createWithinAs depth) list row.id links
    return row.id

/-- Creates a record from data that are resolved by other fields than those of the lists. -/
def createAs (list : String) (data : Value) : Work Record := do
  w.recordOf list (← w.createWithinAs view w.db.depth list data)

theorem createWithinAs_id (depth : Nat) : w.createWithinAs id depth = w.createWithin depth := by
  induction depth with
  | zero => rfl
  | succ depth ih =>
    funext list data
    rw [createWithinAs, createWithin, ih]
    rfl

/-- With the fields of the lists themselves, records are created as they are. -/
theorem createAs_id : w.createAs id = w.create := by
  funext list data
  rw [createAs, create, createWithinAs_id]
  rfl

end View

/-- Creates a record with the guard in front of the resolvers. -/
def createGuarded (w : Worker) (refusal : Fault) : String → Value → Work Record :=
  w.createAs fun l => l.guarded refusal

variable {w : Worker} {d : Declarations} {l : ListType} {refusal : Fault} {depth : Nat}
  {list : String} {data : Value} {s s' : Session} {record : Record}

theorem leavesComputed_succ : w.leavesComputed (depth + 1) list data = true ↔
    (∀ l, w.db.schema.list? list = some l → l.leavesComputed data = true) ∧
      ∀ l, w.db.schema.list? list = some l →
        ∀ c, Resolve.changes l .create w.setPolicy w.context data = .ok c →
          ∀ e ∈ c.links, ∀ p, w.db.plan list e.1 = .ok p →
            ∀ v ∈ e.2.newItems, w.leavesComputed depth p.target v = true := by
  rw [leavesComputed]
  cases w.db.schema.list? list with
  | none => simp
  | some l =>
    simp only [Option.some.injEq, forall_eq', Bool.and_eq_true]
    refine and_congr_right fun _ => ?_
    cases Resolve.changes l .create w.setPolicy w.context data with
    | error e => simp
    | ok c =>
      simp only [Except.ok.injEq, forall_eq', List.all_eq_true]
      refine forall₂_congr fun e _ => ?_
      cases w.db.plan list e.1 with
      | error e => simp
      | ok p => simp

theorem insertColumnsAs_restricts (hd : w.db.Compiles d) (refusal : Fault) (list : String)
    (data : Value) :
    (w.insertColumnsAs (fun l => l.guarded refusal) list data).Restricts (w.insertColumns list data)
      (∀ l, w.db.schema.list? list = some l → l.leavesComputed data = true) := by
  constructor
  · intro h
    refine Work.bind_congr fun l _ _ hl => ?_
    rw [ListType.guarded_changes (h l (listOf_yields.1 hl).1)]
  · intro s a s' hyields l hl
    obtain ⟨l', m, hl', hrest⟩ := Work.bind_yields.1 hyields
    obtain ⟨hlist, rfl⟩ := listOf_yields.1 hl'
    obtain rfl : l = l' := Option.some.inj (hl.symm.trans hlist)
    obtain ⟨hmem, -⟩ := Schema.mem_of_list? hl
    obtain ⟨c, m', hc, -⟩ := Work.bind_yields.1 hrest
    exact ListType.leavesComputed_of_guarded
      (fun e he i hi hnone => hd.exists_resolver hmem he hi hnone) (Work.ofExcept_yields.1 hc).1

/-- Creation behind the guard is creation from data that leave the computed fields alone. -/
theorem createWithinAs_restricts (hd : w.db.Compiles d) (refusal : Fault) (depth : Nat)
    (list : String) (data : Value) :
    (w.createWithinAs (fun l => l.guarded refusal) depth list data).Restricts
      (w.createWithin depth list data) (w.leavesComputed depth list data = true) := by
  induction depth generalizing list data with
  | zero => exact (Work.Restricts.refl _).congr (by simp [leavesComputed])
  | succ depth ih =>
    refine ((w.insertColumnsAs_restricts hd refusal list data).bind
      fun ⟨row, links⟩ s m h => ?_).congr leavesComputed_succ.symm
    obtain ⟨l, hl, rfl, c, hc, rfl, -⟩ := insertColumns_inserts h
    have hlinks := (w.applyLinks_restricts ih l.key row.id c.links).bind_right
      fun _ => (pure row.id : Work Int)
    refine hlinks.congr ?_
    simp only [hd.list?_eq hl, Option.some.injEq, forall_eq', hc, Except.ok.injEq]

theorem createGuarded_restricts (hd : w.db.Compiles d) (refusal : Fault) (list : String)
    (data : Value) :
    (w.createGuarded refusal list data).Restricts (w.create list data)
      (w.leavesComputed w.db.depth list data = true) :=
  (w.createWithinAs_restricts hd refusal w.db.depth list data).bind_right (w.recordOf list)

end Worker

/-! ## Keys -/

namespace ListType

variable {l : ListType} {policy : SetPolicy} {context : Value} {es : Value.Entries}

/-- Data with a key that no field is wired for are refused before any resolver runs. -/
theorem changes_of_unknownKeys
    (h : Resolve.unknownKeys l .create (es.map Prod.fst) ≠ []) :
    Resolve.changes l .create policy context (.map es) = .error (.query
      (.notAccepted l.key .create (Resolve.unknownKeys l .create (es.map Prod.fst)))) := by
  cases hkeys : Resolve.unknownKeys l .create (es.map Prod.fst) with
  | nil => exact absurd hkeys h
  | cons k ks =>
    simp only [Resolve.changes, Resolve.data, Resolve.dataEntries, ManyPlan.membersOf, bind,
      Except.bind, hkeys]
    rfl

/-- Data that name settable fields only, as the API has its clients do, leave the computed fields
alone. -/
theorem leavesComputed_of_settable (hkeys : (l.fields.map Prod.fst).Nodup)
    (hown : ∀ e ∈ l.fields, e.2.key = e.1)
    (h : ∀ e ∈ es, ∃ f ∈ l.settable .create, e.1 = .text f.key) :
    l.leavesComputed (.map es) = true := by
  refine leavesComputed_map.2 fun e he hcomputed => ?_
  by_contra hset
  have hsent : (.text e.1, Value.Entries.get es e.1) ∈ es :=
    Value.Entries.mem_of_get (Bool.not_eq_true _ ▸ hset)
  obtain ⟨f, hf, hkey⟩ := h _ hsent
  obtain ⟨hmem, harg⟩ := List.mem_filter.1 hf
  obtain ⟨e', he', rfl⟩ := List.mem_map.1 hmem
  -- The settable field that the entry names is the computed one.
  have hsame : e.1 = e'.1 := (Value.text.inj hkey).trans (hown e' he')
  obtain rfl : e = e' := List.inj_on_of_nodup_map hkeys he he' hsame
  rw [Field.isComputed, Bool.and_eq_true, Option.isNone_iff_eq_none] at hcomputed
  rw [hcomputed.2] at harg
  cases harg

end ListType

/-- Data that are refused behind the guard leave the session as it is. -/
theorem Worker.createGuarded_refused {w : Worker} {l : ListType} {refusal e : Fault}
    {data : Value} {s : Session} (hl : w.db.schema.list? l.key = some l)
    (h : Resolve.changes (l.guarded refusal) .create w.setPolicy w.context data = .error e) :
    (w.createGuarded refusal l.key data).outcome s = (.error e, s) := by
  have hcolumns :
      (w.insertColumnsAs (fun l => l.guarded refusal) l.key data).outcome s = (.error e, s) := by
    rw [insertColumnsAs, (listOf_yields.2 ⟨hl, rfl⟩).outcome_bind]
    exact Work.outcome_bind_error (by rw [h, Work.outcome_ofExcept])
  exact Work.outcome_bind_error (Work.outcome_bind_error hcolumns)

/-- Computed fields have resolvers. Creation from data that leave the computed fields alone, at
all depths, does not notice a guard that keeps values from these resolvers, and behind it records
are created from no other data. To name settable fields only leaves the computed ones alone. Keys
that no field is wired for are refused before any resolver runs. -/
theorem Database.Compiles.guarded_computed {w : Worker} {d : Declarations}
    (hd : w.db.Compiles d) (refusal : Fault) :
    (∀ l ∈ w.db.schema.lists, ∀ e ∈ l.fields, e.2.isComputed = true →
      ∃ i g, e.2.input? .create = some i ∧ i.arg = none ∧ i.resolve = some g) ∧
    (∀ list data, w.leavesComputed w.db.depth list data = true →
      w.createGuarded refusal list data = w.create list data) ∧
    (∀ list data s record s', (w.createGuarded refusal list data).Yields s record s' ↔
      w.leavesComputed w.db.depth list data = true ∧
        (w.create list data).Yields s record s') ∧
    (∀ l ∈ w.db.schema.lists, ∀ es : Value.Entries,
      (∀ e ∈ es, ∃ f ∈ l.settable .create, e.1 = .text f.key) →
        l.leavesComputed (.map es) = true) ∧
    ∀ l ∈ w.db.schema.lists, ∀ es : Value.Entries, (∃ e ∈ es, ¬ l.Takes .create e.1) →
      ∀ s, (w.createGuarded refusal l.key (.map es)).outcome s = (.error (.query (.notAccepted
          l.key .create (Resolve.unknownKeys l .create (es.map Prod.fst)))), s) ∧
        (w.create l.key (.map es)).outcome s = (.error (.query (.notAccepted
          l.key .create (Resolve.unknownKeys l .create (es.map Prod.fst)))), s) := by
  refine ⟨?resolver, fun list data h => (w.createGuarded_restricts hd refusal list data).eq_of h,
    fun list data s record s' => (w.createGuarded_restricts hd refusal list data).yields_iff,
    fun l hl es h => ?settable, fun l hl es h s => ?unknown⟩
  case resolver =>
    intro l hl e he hcomputed
    obtain ⟨i, hi, hnone⟩ := Field.isComputed_iff.1 hcomputed
    obtain ⟨g, hg⟩ := hd.exists_resolver hl he hi hnone
    exact ⟨i, g, hi, Option.isNone_iff_eq_none.1 hnone, hg⟩
  case settable =>
    exact ListType.leavesComputed_of_settable (hd.fields_nodup hl)
      (fun e he => hd.field_key hl he) h
  case unknown =>
    have hunknown : Resolve.unknownKeys l .create (es.map Prod.fst) ≠ [] := by
      intro hnil
      obtain ⟨e, he, hnot⟩ := h
      have htakes := (Resolve.unknownKeys_eq_nil (hd.fields_nodup hl)).1 hnil
      exact hnot (htakes e.1 (List.mem_map_of_mem he))
    have hguarded : Resolve.unknownKeys (l.guarded refusal) .create (es.map Prod.fst) ≠ [] := by
      rwa [ListType.guarded_unknownKeys]
    have hc : Resolve.changes (l.guarded refusal) .create w.setPolicy w.context (.map es) =
        .error (.query (.notAccepted l.key .create
          (Resolve.unknownKeys l .create (es.map Prod.fst)))) := by
      rw [ListType.changes_of_unknownKeys hguarded, ListType.guarded_unknownKeys]
      rfl
    exact ⟨Worker.createGuarded_refused (hd.list?_eq hl) hc,
      Worker.create_refused (hd.list?_eq hl) (ListType.changes_of_unknownKeys hunknown)⟩

/-! ## Slugs -/

/-- A text that a resolver makes up unless it is called with one. -/
def madeText (s : String) : FieldSpec where
  build _ := .ok {
    storage := .scalar { scalar := .text }
    inputs := [(.operation .create, { resolve := some (Resolver.run (.orElse (.text s))) })]
    output := some { type := .optional (.scalar .text) } }

/-- A schema of pages with a computed slug, and of sites that create pages. -/
def sites : Declarations :=
  (({} : Declarations).declare {
    key := "Site"
    specs := [("pages", .relationship { ref := "Page", many := true })] }).declare {
    key := "Page"
    specs := [("title", .scalar .text {}), ("slug", madeText "untitled")] }

def siteWorker : Worker where
  db := sites.database.result
  setPolicy := .reject

/-- A site with a page. -/
def siteWith (page : Value.Entries) : Value :=
  .map [(.text "pages", .map [(.text "create", .list [.map page])])]

/-- A page with a slug of its own. -/
def slugged : Value.Entries :=
  [(.text "title", .text "Home"), (.text "slug", .text "mine")]

/-- The facts about sites that are evaluated, in one go. -/
theorem sites_facts : sites.database.isOk = true ∧
    (∃ l ∈ siteWorker.db.schema.lists, l.key = "Page" ∧
      (∃ e ∈ l.fields, e.1 = "slug" ∧ e.2.isComputed = true) ∧
      (l.accepting? .create (.text "colour")).isSome = false) ∧
    siteWorker.leavesComputed siteWorker.db.depth "Site"
      (siteWith [(.text "title", .text "Home")]) = true ∧
    ((siteWorker.create "Site" (siteWith [(.text "title", .text "Home")])).outcome
      { supply := blogSupply }).1.isOk = true ∧
    siteWorker.leavesComputed siteWorker.db.depth "Site" (siteWith slugged) = false ∧
    ((siteWorker.create "Site" (siteWith slugged)).outcome { supply := blogSupply }).1.isOk =
      true ∧
    ((siteWorker.create "Page" (.map slugged)).outcome { supply := blogSupply }).1.toOption.map
      (fun r => (r.get "slug").isText "mine") = some true := by
  decide +kernel

theorem sites_compiles : sites.database.result.Compiles sites :=
  Declarations.Declared.compiles (.declare (.declare (.start _ _ _) (by decide)) (by decide))
    sites_facts.1

/-- Behind the guard a site is created with a page that leaves its slug alone, and with no page
that brings a slug. A page of a colour is refused. -/
theorem guarded_computed_sites :
    (∃ record s, (siteWorker.createGuarded .nesting "Site"
      (siteWith [(.text "title", .text "Home")])).Yields { supply := blogSupply } record s) ∧
    (∀ record s, ¬ (siteWorker.createGuarded .nesting "Site" (siteWith slugged)).Yields
      { supply := blogSupply } record s) ∧
    (siteWorker.createGuarded .nesting "Page" (.map [(.text "colour", .text "red")])).outcome
      { supply := blogSupply } =
        (.error (.query (.notAccepted "Page" .create [.text "colour"])),
          { supply := blogSupply }) := by
  obtain ⟨-, ⟨l, hl, hkey, -, hcolour⟩, hleaves, hok, hgiven, -, -⟩ := sites_facts
  obtain ⟨-, -, hiff, -, hunknown⟩ :=
    Database.Compiles.guarded_computed (w := siteWorker) sites_compiles .nesting
  obtain ⟨record, s, h⟩ := Work.exists_yields hok
  refine ⟨⟨record, s, (hiff _ _ _ _ _).2 ⟨hleaves, h⟩⟩, fun record s hyields => ?_, ?_⟩
  · have hleaves' := ((hiff _ _ _ _ _).1 hyields).1
    exact Bool.false_ne_true (hgiven.symm.trans hleaves')
  · have hnot : ¬ l.Takes .create (.text "colour") := by
      intro htakes
      have htaken := (Resolve.isSome_accepting? (sites_compiles.fields_nodup hl)).2 htakes
      exact Bool.false_ne_true (hcolour.symm.trans htaken)
    have hkeys : Resolve.unknownKeys l .create [.text "colour"] = [.text "colour"] :=
      List.filter_eq_self.2 (by simpa using hcolour)
    have hrefused := (hunknown l hl [(.text "colour", .text "red")]
      ⟨_, List.mem_cons_self, hnot⟩ { supply := blogSupply }).1
    rw [hkey, List.map_singleton, hkeys] at hrefused
    exact hrefused

/-- A page keeps the slug that its data bring, although the slug is computed. -/
theorem slug_supplied :
    (∃ l ∈ siteWorker.db.schema.lists, l.key = "Page" ∧
      ∃ e ∈ l.fields, e.1 = "slug" ∧ e.2.isComputed = true) ∧
    ∃ record s, (siteWorker.create "Page" (.map slugged)).Yields { supply := blogSupply } record s ∧
      record.get "slug" = .text "mine" := by
  obtain ⟨-, ⟨l, hl, hkey, hcomputed, -⟩, -, -, -, -, hkept⟩ := sites_facts
  obtain ⟨record, hrecord, hslug⟩ := Option.map_eq_some_iff.1 hkept
  refine ⟨⟨l, hl, hkey, hcomputed⟩, record, _, Prod.ext (Except.eq_ok_of_toOption hrecord) rfl, ?_⟩
  exact Value.isText_iff.1 hslug

end RecordSchema
