import RecordSchema.Proofs.Field.Output
import RecordSchema.Proofs.Schema.Compiled
import RecordSchema.Request.Read

/-!
# Isolated outputs

The output of a record shows every field that has an output, each as if
it were the only one. A field fails when its stored value has not the
shape of output or when its resolver does; then it is null, with its
fault beside it, and no other field is any different
(`Reader.output_isolated`).
-/

namespace RecordSchema

theorem Database.Compiles.field_list {db : Database} {d : Declarations} {l : ListType}
    (h : db.Compiles d) (hl : l ∈ db.schema.lists) {key : String} {f : Field}
    (hf : (key, f) ∈ l.fields) : f.list = l.key := by
  obtain ⟨_, -, spec, -, hok⟩ := h.assembled hl hf
  obtain ⟨t, -, ht⟩ := FieldSpec.assemble_ok hok
  obtain ⟨-, -, hlist, -⟩ := FieldType.assemble_ok ht
  exact hlist

namespace Reader

variable {r : Reader} {list : String} {record : Record} {f : Field}

/-! ## One field -/

/-- The output of a field of a record by itself. -/
def alone (r : Reader) (list : String) (record : Record) (f : Field) : Except Fault Value := do
  let v ← fieldValue list f record
  f.resolveOutput r.reach (r.call record v [])

/-- Whether the value of a field has not the shape of output, or its resolver fails. -/
def fails (r : Reader) (list : String) (record : Record) (f : Field) : Bool :=
  match fieldValue list f record with
  | .ok v => !((f.shape .output).conforms v) ||
    (f.output.bind (·.resolve)).any fun g => !(Field.callOutput r.reach g (r.call record v [])).isOk
  | .error _ => true

theorem isOk_alone (r : Reader) (list : String) (record : Record) (f : Field) :
    (r.alone list record f).isOk = !r.fails list record f := by
  unfold alone fails
  cases fieldValue list f record with
  | error e => rfl
  | ok v =>
    change (f.resolveOutput r.reach (r.call record v [])).isOk = _
    rw [Field.isOk_resolveOutput]
    cases f.output.bind (·.resolve) <;> simp [call]

/-- What is shown of an output: its value, or null when it fails. -/
def shown (x : Except Fault Value) : Value :=
  match x with
  | .ok v => v
  | .error _ => .null

/-- What is told of an output that fails. -/
def told? (f : Field) (x : Except Fault Value) : Option Fault :=
  match x with
  | .ok _ => none
  | .error fault => some (outputFault f fault)

theorem fieldOutput_eq {v : Value} (hv : fieldValue list f record = .ok v) :
    r.fieldOutput f record v = .ok {
      values := [(f.key, shown (r.alone list record f))]
      faults := (told? f (r.alone list record f)).toList.map (f.key, ·) } := by
  have halone : r.alone list record f = f.resolveOutput r.reach (r.call record v []) := by
    rw [alone, hv]
    rfl
  rw [halone, fieldOutput]
  split
  · next w hw => rw [hw]; rfl
  · next fault hfault => rw [if_pos (Field.isOwn_of_resolveOutput hfault), hfault]; rfl

/-! ## All fields -/

/-- Each field makes its own entries in the output. -/
theorem exists_outputs_alone {fields : List Field}
    (h : ∀ f ∈ fields, ∃ v, fieldValue list f record = .ok v) :
    ∃ given, (fields.mapM fun f => do return (f, ← fieldValue list f record)) = .ok given ∧
      r.outputs record given = .ok {
        values := fields.map fun f => (f.key, shown (r.alone list record f))
        faults := fields.flatMap fun f =>
          (told? f (r.alone list record f)).toList.map (f.key, ·) } := by
  induction fields with
  | nil => exact ⟨[], rfl, rfl⟩
  | cons f rest ih =>
    obtain ⟨⟨v, hv⟩, hrest⟩ := List.forall_mem_cons.1 h
    obtain ⟨given, hgiven, houtputs⟩ := ih hrest
    refine ⟨(f, v) :: given, ?_, ?_⟩
    · rw [List.mapM_cons, hv, hgiven]
      rfl
    · rw [outputs, fieldOutput_eq hv, houtputs]
      rfl

theorem exists_fieldValue (hid : f.relation?.isSome = true → (record.value? "id").isSome = true) :
    ∃ v, fieldValue list f record = .ok v := by
  unfold fieldValue
  cases hs : f.storage with
  | relation rel =>
    have hrelation : f.relation?.isSome = true := by rw [Field.relation?, hs]; rfl
    obtain ⟨id, hid⟩ := Option.isSome_iff_exists.1 (hid hrelation)
    exact ⟨_, by rw [hid]⟩
  | none | scalar | enum | multi | unsupported => exact ⟨_, rfl⟩

variable {d : Declarations} {l : ListType}

/-- The fields that have an output. -/
def outputFields (l : ListType) : List (String × Field) :=
  l.fields.filter fun e => e.2.output.isSome

/-- The output of a record, entry by entry. -/
theorem output_eq (h : r.db.Compiles d) (hl : l ∈ r.db.schema.lists)
    (hid : ∀ e ∈ outputFields l, e.2.relation?.isSome = true →
      (record.value? "id").isSome = true) :
    r.output l.key record = .ok {
      values := (outputFields l).map fun e => (e.1, shown (r.alone l.key record e.2))
      faults := (outputFields l).flatMap fun e =>
        (told? e.2 (r.alone l.key record e.2)).toList.map (e.1, ·) } := by
  have hlist : Resolve.listOf r.db.schema l.key = .ok l := by rw [Resolve.listOf, h.list?_eq hl]
  have hfields : (l.fields.map Prod.snd).filter (fun f => f.output.isSome) =
      (outputFields l).map Prod.snd := by
    rw [List.filter_map]
    rfl
  have hkey : ∀ e ∈ outputFields l, e.2.key = e.1 := fun e he =>
    h.field_key hl (List.mem_of_mem_filter he)
  have hvalues : ∀ f ∈ (outputFields l).map Prod.snd, ∃ v, fieldValue l.key f record = .ok v := by
    intro f hf
    obtain ⟨e, he, rfl⟩ := List.mem_map.1 hf
    exact exists_fieldValue (hid e he)
  obtain ⟨given, hgiven, houtputs⟩ := exists_outputs_alone (r := r) hvalues
  refine Except.bind_eq_ok.2 ⟨l, hlist, Except.bind_eq_ok.2 ⟨given, ?_, ?_⟩⟩
  · rw [hfields, hgiven]
  · rw [houtputs, List.map_map, List.flatMap_map]
    congr 2
    · exact List.map_congr_left fun e he => by rw [Function.comp_apply, hkey e he]
    · exact List.flatMap_congr fun e he => by rw [hkey e he]

theorem told?_eq (f : Field) (x : Except Fault Value) :
    (told? f x).isSome = !x.isOk := by
  cases x <;> rfl

theorem map_fst_told (r : Reader) (list : String) (record : Record)
    (entries : List (String × Field)) :
    (entries.flatMap fun e => (told? e.2 (r.alone list record e.2)).toList.map (e.1, ·)).map
      Prod.fst = (entries.filter fun e => r.fails list record e.2).map Prod.fst := by
  induction entries with
  | nil => rfl
  | cons e rest ih =>
    have htold : (told? e.2 (r.alone list record e.2)).isSome = r.fails list record e.2 := by
      rw [told?_eq, isOk_alone, Bool.not_not]
    rw [List.flatMap_cons, List.map_append, ih, List.filter_cons, ← htold]
    cases told? e.2 (r.alone list record e.2) <;> rfl

/-- The output of a record shows exactly the fields with an output, and tells of exactly those of
them that fail. Any other field has the value that it has alone; a field that fails is null, and
its fault is one of resolution, under the path of the field when it was another. The record has
the id that every record of storage has, where a relation is to be followed from it. -/
theorem output_isolated (h : r.db.Compiles d) (hl : l ∈ r.db.schema.lists) (record : Record)
    (hid : ∀ e ∈ outputFields l, e.2.relation?.isSome = true →
      (record.value? "id").isSome = true) :
    ∃ out, r.output l.key record = .ok out ∧
      out.values.map Prod.fst = (outputFields l).map Prod.fst ∧
      out.faults.map Prod.fst =
        ((outputFields l).filter fun e => r.fails l.key record e.2).map Prod.fst ∧
      ∀ e ∈ outputFields l,
        (r.fails l.key record e.2 = false → ∃ v, r.alone l.key record e.2 = .ok v ∧
          out.values.lookup e.1 = some v) ∧
        (r.fails l.key record e.2 = true → out.values.lookup e.1 = some .null ∧
          ∃ fault, r.alone l.key record e.2 = .error fault ∧
            out.faults.lookup e.1 = some (if fault.isResolution then fault
              else .resolution [l.key, e.1] (.stated fault.message) [fault])) := by
  have hkeys : (outputFields l).map Prod.fst |>.Nodup :=
    (List.filter_sublist.map Prod.fst).nodup (h.fields_nodup hl)
  have hvalues : ((outputFields l).map fun e => (e.1, shown (r.alone l.key record e.2))).map
      Prod.fst = (outputFields l).map Prod.fst := by
    rw [List.map_map]
    rfl
  have hfaults := map_fst_told r l.key record (outputFields l)
  refine ⟨_, output_eq h hl hid, hvalues, hfaults, fun e he => ?_⟩
  have hmem : (e.1, shown (r.alone l.key record e.2)) ∈
      (outputFields l).map fun e => (e.1, shown (r.alone l.key record e.2)) :=
    List.mem_map.2 ⟨e, he, rfl⟩
  have hshown := Keys.lookup_of_mem (hvalues ▸ hkeys) hmem
  have hok := isOk_alone r l.key record e.2
  constructor
  · intro hfails
    rw [hfails] at hok
    obtain ⟨v, hv⟩ := Except.isOk_iff.1 hok
    rw [hv] at hshown
    exact ⟨v, hv, hshown⟩
  · intro hfails
    rw [hfails] at hok
    cases halone : r.alone l.key record e.2 with
    | ok v =>
      rw [halone] at hok
      cases hok
    | error fault =>
      rw [halone] at hshown
      refine ⟨hshown, fault, rfl, ?_⟩
      have htold : (e.1, outputFault e.2 fault) ∈ (outputFields l).flatMap fun e =>
          (told? e.2 (r.alone l.key record e.2)).toList.map (e.1, ·) :=
        List.mem_flatMap.2 ⟨e, he, by rw [halone]; exact List.mem_singleton_self _⟩
      have hpath : e.2.path = [l.key, e.1] := by
        have hmem := List.mem_of_mem_filter he
        rw [Field.path, h.field_list hl hmem, h.field_key hl hmem]
      have hnodup := hfaults ▸ (List.filter_sublist.map Prod.fst).nodup hkeys
      rw [← hpath]
      exact Keys.lookup_of_mem hnodup htold

/-! ## A page -/

/-- A schema of pages, with a list of tags, another page, and three computed fields: one that
answers, one whose function breaks, and one whose function refuses a query. -/
def pages : Declarations :=
  ({} : Declarations).declare {
    key := "Page"
    specs := [
      ("tags", .scalar .text { many := true }),
      ("next", .relationship { ref := "Page" }),
      ("broken", .virtual (.scalar .text) (fun _ => .error (.host "boom")) none none),
      ("refused", .virtual (.scalar .text) (fun _ => .error (.query (.negativeTake (-1)))) none none),
      ("kind", .virtual (.scalar .text) (fun _ => .ok (.text "page")) none none)] }

def pageReader : Reader where
  db := pages.database.result
  store := { tables := [("Page", [⟨1, []⟩])] }

/-- A page without tags. -/
def page : Record := [(.text "id", .int 1), (.text "tags", .null)]

/-- The facts about pages that are evaluated, in one go. -/
theorem pages_facts :
    pages.database.isOk = true ∧
      ∃ l ∈ pageReader.db.schema.lists, l.key = "Page" ∧
        (outputFields l).map Prod.fst = ["id", "tags", "next", "broken", "refused", "kind"] ∧
        ((outputFields l).filter fun e => pageReader.fails l.key page e.2).map Prod.fst =
          ["tags", "broken", "refused"] := by
  decide +kernel

theorem output_isolated_pages :
    ∃ out, pageReader.output "Page" page = .ok out ∧
      out.values.map Prod.fst = ["id", "tags", "next", "broken", "refused", "kind"] ∧
      out.faults.map Prod.fst = ["tags", "broken", "refused"] := by
  obtain ⟨hok, l, hl, hkey, hfields, hfails⟩ := pages_facts
  have hcompiles : pageReader.db.Compiles pages :=
    Declarations.Declared.compiles (.declare (.start _ _ _) (by decide)) hok
  obtain ⟨out, hout, hvalues, hfaults, -⟩ :=
    output_isolated hcompiles hl page fun _ _ _ => rfl
  rw [hkey] at hout
  exact ⟨out, hout, hvalues.trans hfields, hfaults.trans hfails⟩

end Reader

end RecordSchema
