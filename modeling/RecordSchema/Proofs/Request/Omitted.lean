import RecordSchema.Proofs.Request.Frame

/-!
# Numbered columns that data leave out

Storage numbers a column when a write gives it nothing. Which columns a
write gives something is settled by three functions one after the other:
the data are resolved, defaults or stamps are put in, and the values are
assigned to columns. A numbered column that resolved data leave out is
left out behind all of them (`ListType.IsNumbered.leaves_of_fillAll`,
`ListType.IsNumbered.leaves_of_stampAll`): its default is none of its
own, and a composite is filled in subfield by subfield.

Built-in fields leave out what a client leaves out
(`Database.Compiles.part_isUnset`); other resolvers may compute it.
-/

namespace RecordSchema

open Layout

/-! ## Parts of entries -/

namespace Value.Entries

variable {es : Entries} {key name : String} {v : Value}

/-- What entries hold for a field, or for a subfield of a composite. -/
def part (es : Entries) (key : String) : Option String → Value
  | none => es.get key
  | some name => es.column key name

/-- Whether entries say nothing of a field, or of a subfield of a composite. -/
def LeaveOut (es : Entries) (key : String) : Option String → Prop
  | none => ∀ v, (.text key, v) ∉ es
  | some name => es.Omits key name

/-- Entries that all are set have no entry under a key that reads as unset. -/
theorem notMem_of_get (hset : ∀ w, (.text key, w) ∈ es → w.isUnset = false)
    (h : (es.get key).isUnset = true) : (.text key, v) ∉ es := by
  intro hv
  have hkey : (text key).isText key = true := isText_iff.2 rfl
  cases he : List.find? (fun e : Value × Value => e.1.isText key) es with
  | none => exact absurd hkey (List.find?_eq_none.1 he _ hv)
  | some e =>
    have hmem := List.mem_of_find?_eq_some he
    have hget : es.get key = e.2 := by
      rw [get, value?, he]
      rfl
    rw [hget] at h
    have heq : e = (.text key, e.2) := Prod.ext (isText_iff.1 (key_of_find? he)) rfl
    rw [hset e.2 (heq ▸ hmem)] at h
    cases h

theorem get_eq_unset (h : ∀ v, (.text key, v) ∉ es) : es.get key = .unset := by
  by_contra hne
  have hset : (es.get key).isUnset = false := by
    cases hget : es.get key <;> first | rfl | exact absurd hget hne
  exact h _ (mem_of_get hset)

end Value.Entries

/-- Whether data that a table takes give a column nothing. -/
def TableLayout.Leaves (t : TableLayout) (data : Value.Entries) (column : String) : Prop :=
  ∀ given, t.assign data = .ok given → ∀ v, (column, v) ∉ given

/-- The columns of a list that storage numbers: those of fields, and those of subfields of
composites, the id apart. -/
inductive ListType.IsNumbered (l : ListType) : (column key : String) → Option String → Prop where
  | field {key : String} {f : Field} (mem : (key, f) ∈ l.fields) (other : key ≠ "id")
    (numbered : f.storage.isNumbered = true) :
    l.IsNumbered ((nonempty? f.storage.map?).getD key) key none
  | subfield {key name : String} {f : Field} {fields : List (String × Storage)} {sub : Storage}
    (mem : (key, f) ∈ l.fields) (other : key ≠ "id") (composite : f.storage = .multi fields)
    (member : (name, sub) ∈ fields) (numbered : sub.isNumbered = true) :
    l.IsNumbered (subfieldColumn key name sub) key (some name)

/-- The columns of a list that storage numbers, with the fields and subfields they are of. -/
def ListType.numbered (l : ListType) : List (String × String × Option String) :=
  (l.fields.filter (·.1 != "id")).flatMap fun (key, f) =>
    match f.storage with
    | .multi fields => (fields.filter (·.2.isNumbered)).map fun (name, sub) =>
      (subfieldColumn key name sub, key, some name)
    | s => if s.isNumbered then [((nonempty? s.map?).getD key, key, none)] else []

namespace Storage

variable {s : Storage}

theorem isScalarish_of_isNumbered (hn : s.isNumbered = true) : s.isScalarish = true := by
  cases s <;> first | rfl | cases hn

/-- Updates do not stamp what storage numbers. -/
theorem isStamped_of_isNumbered (hp : s.problems = []) (hd : s.defaultProblems = .ok [])
    (hn : s.isNumbered = true) : s.isStamped = false := by
  obtain ⟨f, rfl, -, -, hscalar⟩ := exists_of_isNumbered (isScalarish_of_isNumbered hn) hd hn
  cases hstamped : f.updatedAt with
  | false => exact hstamped
  | true =>
    have hdate : f.scalar = .dateTime := by
      simpa [problems, scalarProblems, complain, hstamped] using hp
    rw [hdate] at hscalar
    rcases hscalar with h | h <;> cases h

end Storage

theorem ListType.mem_numbered {l : ListType} {column key : String} {name : Option String} :
    (column, key, name) ∈ l.numbered ↔ l.IsNumbered column key name := by
  simp only [numbered, List.mem_flatMap, List.mem_filter, bne_iff_ne]
  constructor
  · rintro ⟨⟨k, f⟩, ⟨hf, hid⟩, hmem⟩
    dsimp only at hmem
    split at hmem
    · next fields hs =>
      obtain ⟨⟨n, sub⟩, hsub, heq⟩ := List.mem_map.1 hmem
      obtain ⟨hsub, hnumbered⟩ := List.mem_filter.1 hsub
      cases heq
      exact .subfield hf hid hs hsub hnumbered
    · split at hmem
      · next hnumbered =>
        cases List.mem_singleton.1 hmem
        exact .field hf hid hnumbered
      · cases hmem
  · intro h
    cases h with
    | @field _ f hf hid hnumbered =>
      refine ⟨_, ⟨hf, hid⟩, ?_⟩
      cases hs : f.storage with
      | multi => rw [hs] at hnumbered; cases hnumbered
      | _ => simp [← hs, hnumbered]
    | @subfield _ name f fields sub hf hid hs hsub hnumbered =>
      refine ⟨_, ⟨hf, hid⟩, ?_⟩
      simp only [hs, List.mem_map]
      exact ⟨(name, sub), List.mem_filter.2 ⟨hsub, hnumbered⟩, rfl⟩

/-! ## Resolved values -/

namespace Resolve

variable {l : ListType} {op : Operation} {policy : SetPolicy} {context data : Value} {c : Changes}
  {key : String} {f : Field}

/-- Every resolved value was made of what the field makes of its input. -/
theorem exists_resolved (hkeys : (l.fields.map Prod.fst).Nodup)
    (hc : changes l op policy context data = .ok c) (hf : (key, f) ∈ l.fields) {w : Value}
    (hw : (.text key, w) ∈ c.values) :
    ∃ (es : Value.Entries) (v : Value) (here : Changes),
      data = .map es ∧ f.accepts op = true ∧ v.isUnset = false ∧
      f.resolveInput op (es.get key) context = .ok v ∧
      change op policy key f.storage v = .ok here ∧ (.text key, w) ∈ here.values := by
  obtain ⟨vs, hvs, hsplit⟩ := Except.bind_eq_ok.1 hc
  obtain ⟨es, rfl, -⟩ := data_ok hvs
  obtain ⟨v, f', here, hv, hf', hhere, hw⟩ := exists_change hsplit hw
  obtain rfl := Option.some.inj ((Keys.lookup_of_mem hkeys hf).symm.trans hf')
  obtain ⟨f', hf', haccepts, hset, hresolve⟩ := mem_data hvs hv
  obtain rfl := Keys.eq_of_mem hkeys hf hf'
  exact ⟨es, v, here, rfl, haccepts, hset, hresolve, hhere, hw⟩

/-- The value of a composite has the entries that were sent of what its field makes of its
input. -/
theorem exists_sent (hkeys : (l.fields.map Prod.fst).Nodup)
    (hc : changes l op policy context data = .ok c) (hf : (key, f) ∈ l.fields)
    {fields : List (String × Storage)} (hs : f.storage = .multi fields) {w : Value}
    (hw : (.text key, w) ∈ c.values) :
    ∃ es sub : Value.Entries, data = .map es ∧ f.accepts op = true ∧
      f.resolveInput op (es.get key) context = .ok (.map sub) ∧ w = .map (sent sub) := by
  obtain ⟨es, v, here, rfl, haccepts, -, hresolve, hhere, hw⟩ := exists_resolved hkeys hc hf hw
  simp only [change, hs] at hhere
  split at hhere
  · next sub =>
    cases hhere
    obtain ⟨-, rfl⟩ := Prod.mk.inj (List.mem_singleton.1 hw)
    exact ⟨es, sub, rfl, haccepts, hresolve, rfl⟩
  · cases hhere

end Resolve

theorem Storage.Fills.isUnset {s : Storage} {v : Value} (h : s.Fills v) : v.isUnset = false := by
  cases s with
  | multi fields =>
    obtain ⟨es, rfl, -⟩ := h
    rfl
  | _ => exact h.1

namespace ListType.IsNumbered

variable {l : ListType} {column key : String} {name : Option String} {op : Operation}
  {policy : SetPolicy} {context data : Value} {c : Resolve.Changes}

/-- What resolved values read as unset they do not hold. -/
theorem leaveOut (hn : l.IsNumbered column key name) (hop : op = .create ∨ op = .update)
    (hkeys : (l.fields.map Prod.fst).Nodup)
    (hc : Resolve.changes l op policy context data = .ok c)
    (hleft : (c.values.part key name).isUnset = true) : c.values.LeaveOut key name := by
  have hset (w : Value) (hw : (.text key, w) ∈ c.values) : w.isUnset = false := by
    obtain ⟨_, -, -, hfills⟩ := Resolve.changes_isFilled hop hkeys hc _ hw
    exact hfills.isUnset
  cases hn with
  | field => exact fun v => Value.Entries.notMem_of_get hset hleft
  | @subfield _ name f fields _ hf _ hs =>
    intro sub hsub v hv
    obtain ⟨es, given, rfl, -, hresolve, heq⟩ := Resolve.exists_sent hkeys hc hf hs hsub
    have hget : c.values.get key = .map sub := by
      have hget : (c.values.get key).isUnset = false := by
        by_contra hunset
        exact Value.Entries.notMem_of_get hset (Bool.not_eq_false _ ▸ hunset) hsub
      obtain ⟨_, given', heq', -, hresolve', hother⟩ :=
        Resolve.exists_sent hkeys hc hf hs (Value.Entries.mem_of_get hget)
      cases heq'
      obtain rfl := Value.map.inj (Except.ok.inj (hresolve.symm.trans hresolve'))
      rw [hother, heq]
    rw [Value.Entries.part, Value.Entries.column, hget] at hleft
    obtain rfl := Value.map.inj heq
    have hall (u : Value) (hu : (.text name, u) ∈ Resolve.sent given) : u.isUnset = false :=
      (Value.Entries.eq_get_of_mem_sent hu).2
    exact absurd hv (Value.Entries.notMem_of_get hall hleft)

/-! ## Defaults and stamps -/

variable {db : Database} {d : Declarations} {values : Value.Entries} {m m' : Supply}

/-- Values that leave out a numbered column do so behind defaults. -/
theorem fillAll (hn : l.IsNumbered column key name) (h : db.Compiles d) (hl : l ∈ db.schema.lists)
    (hnames : ∀ e ∈ l.fields, e.2.storage.namesOnce = true) {data : Value.Entries}
    (hfill : (Storage.fillAll l.storedFields data).run m = .ok (values, m'))
    (hleft : data.LeaveOut key name) : values.LeaveOut key name := by
  have hkeys := ListType.storedFields_nodup (h.fields_nodup hl)
  cases hn with
  | @field _ f hf _ hnumbered =>
    have hs := Storage.isScalarish_of_isNumbered hnumbered
    have hstored : f.storage.isStored = true := by
      cases hf : f.storage <;> rw [hf] at hs <;> first | rfl | cases hs
    exact Storage.fillAll_notMem hfill hkeys (ListType.mem_storedFields_of_mem hf hstored) hs
      (Storage.isStamped_of_isNumbered (h.problems_eq_nil hl hf) (h.defaultProblems_eq_nil hl hf)
        hnumbered)
      (Storage.defaultValue_of_isNumbered hnumbered) hleft
  | @subfield _ name f fields sub hf _ hs hsub hnumbered =>
    have hstored : (key, .multi fields) ∈ l.storedFields :=
      hs ▸ ListType.mem_storedFields_of_mem hf (hs ▸ rfl)
    have hnodup : (fields.map Prod.fst).Nodup := by
      have honce := hnames _ hf
      rw [hs] at honce
      exact of_decide_eq_true honce
    refine Storage.fillAll_omits hfill hkeys hstored (fun other hother => ?_) hleft
    obtain rfl := Keys.eq_of_mem hnodup hsub hother
    exact Storage.defaultValue_of_isNumbered hnumbered

/-- Values that leave out a numbered column do so behind stamps. -/
theorem stampAll (hn : l.IsNumbered column key name) (h : db.Compiles d)
    (hl : l ∈ db.schema.lists) {data : Value.Entries}
    (hstamp : (Storage.stampAll l.storedFields data).run m = .ok (values, m'))
    (hleft : data.LeaveOut key name) : values.LeaveOut key name := by
  cases hn with
  | @field _ f hf _ hnumbered =>
    have hplain (s : Storage) (hs : (key, s) ∈ l.storedFields) : s.isStamped = false := by
      obtain ⟨f', hf', rfl⟩ := ListType.mem_storedFields hs
      obtain rfl := Keys.eq_of_mem (h.fields_nodup hl) hf hf'
      exact Storage.isStamped_of_isNumbered (h.problems_eq_nil hl hf)
        (h.defaultProblems_eq_nil hl hf) hnumbered
    exact fun v hv => hleft v ((Storage.stampAll_ne hstamp hplain).1 hv)
  | @subfield _ name f fields sub hf _ hs hsub hnumbered =>
    have hstored : (key, .multi fields) ∈ l.storedFields :=
      hs ▸ ListType.mem_storedFields_of_mem hf (hs ▸ rfl)
    exact Storage.stampAll_omits hstamp (ListType.storedFields_nodup (h.fields_nodup hl)) hstored
      hleft

/-! ## Columns -/

/-- Values that leave out a numbered column give it nothing. -/
theorem leaves (hn : l.IsNumbered column key name) (h : db.Compiles d) (hl : l ∈ db.schema.lists)
    (hleft : values.LeaveOut key name) : (tableOf db.schema.plans l).Leaves values column := by
  intro given hgiven v
  cases hn with
  | @field _ f hf hid hnumbered =>
    have hs := Storage.isScalarish_of_isNumbered hnumbered
    have hslot : ((nonempty? f.storage.map?).getD key, f.storage) ∈ fieldKinds key f.storage := by
      rw [fieldKinds_scalarish hs]
      exact List.mem_singleton_self _
    exact fun hv => hleft v (h.entry_of_given_scalarish hl hf hid hs hgiven hslot hv)
  | subfield hf hid hs hsub => exact h.not_given_of_omits hl hf hid hs hsub hgiven hleft v

/-- What a creation leaves out behind resolution it gives nothing. -/
theorem leaves_of_fillAll (hn : l.IsNumbered column key name) (h : db.Compiles d)
    (hl : l ∈ db.schema.lists) (hnames : ∀ e ∈ l.fields, e.2.storage.namesOnce = true)
    (hc : Resolve.changes l .create policy context data = .ok c)
    (hleft : (c.values.part key name).isUnset = true)
    (hfill : (Storage.fillAll l.storedFields c.values).run m = .ok (values, m')) :
    (tableOf db.schema.plans l).Leaves values column :=
  have hout := hn.leaveOut (.inl rfl) (h.fields_nodup hl) hc hleft
  hn.leaves h hl (hn.fillAll h hl hnames hfill hout)

/-- What an update leaves out behind resolution it gives nothing. -/
theorem leaves_of_stampAll (hn : l.IsNumbered column key name) (h : db.Compiles d)
    (hl : l ∈ db.schema.lists) (hc : Resolve.changes l .update policy context data = .ok c)
    (hleft : (c.values.part key name).isUnset = true)
    (hstamp : (Storage.stampAll l.storedFields c.values).run m = .ok (values, m')) :
    (tableOf db.schema.plans l).Leaves values column :=
  have hout := hn.leaveOut (.inr rfl) (h.fields_nodup hl) hc hleft
  hn.leaves h hl (hn.stampAll h hl hstamp hout)

end ListType.IsNumbered

/-! ## Built-in fields -/

namespace FieldSpec

theorem columnInputs_write {path : String} {type : TypeExpr} {mode : Mode}
    {filterType : Option TypeExpr} {unique sortable settable : Bool} {op : Operation}
    (hop : op = .create ∨ op = .update) {i : FieldInput}
    (h : (FieldType.operations (columnInputs path type mode filterType unique sortable
      settable)).lookup op = some i) : i.resolve = none ∨ i.resolve = some (refuseNull path) := by
  rcases hop with rfl | rfl <;> cases mode <;> cases filterType <;> cases unique <;>
    cases sortable <;> cases settable <;> cases h <;> first | exact .inl rfl | exact .inr rfl

/-- A column of single values takes the client's value as it is, though it may refuse null. -/
theorem IsBuiltIn.scalar_resolve {spec : FieldSpec} (hb : spec.IsBuiltIn) {d : BuildData}
    {f : Field} (h : spec.assemble d = .ok f) {s : ScalarField} (hs : f.storage = .scalar s)
    {op : Operation} (hop : op = .create ∨ op = .update) {i : FieldInput}
    (hi : f.input? op = some i) :
    i.resolve = none ∨ ∃ path, i.resolve = some (refuseNull path) := by
  obtain ⟨t, hbuild, ht⟩ := assemble_ok h
  obtain ⟨-, -, -, -, hstorage, hinputs⟩ := FieldType.assemble_ok ht
  rw [Field.input?, hinputs] at hi
  rw [hstorage] at hs
  cases hb with
  | scalar =>
    cases hbuild
    exact (columnInputs_write hop hi).imp_right fun hresolve => ⟨_, hresolve⟩
  | select o =>
    obtain ⟨e, he⟩ := select_storage hbuild
    rw [he] at hs
    cases hs
  | relationship o =>
    obtain ⟨⟨r, hr⟩, -⟩ := relationship_wiring hbuild
    rw [hr] at hs
    cases hs
  | virtual =>
    cases hbuild
    cases hs
  | composite =>
    rw [composite_storage hbuild] at hs
    cases hs

end FieldSpec

namespace Database.Compiles

variable {db : Database} {d : Declarations} {l : ListType} {column key : String}
  {name : Option String} {op : Operation} {policy : SetPolicy} {context : Value}
  {es : Value.Entries} {c : Resolve.Changes}

/-- A built-in column makes nothing of what was not sent. -/
theorem resolveInput_unset (h : db.Compiles d) (hb : d.UsesBuiltIns) (hl : l ∈ db.schema.lists)
    {f : Field} (hf : (key, f) ∈ l.fields) {s : ScalarField} (hs : f.storage = .scalar s)
    (hop : op = .create ∨ op = .update) {v : Value}
    (hv : f.resolveInput op .unset context = .ok v) : v = .unset := by
  unfold Field.resolveInput at hv
  split at hv
  · exact (Except.ok.inj hv).symm
  · next i hi =>
    obtain ⟨spec, hspec, hok⟩ := h.builtIn hb hl hf
    have checked (hv : (if (f.shape op).conforms .unset then return .unset
        else throw (.resolution f.path (.wrongInput op .unset (f.shape op)) []) :
          Except Fault Value) = .ok v) : v = .unset := by
      split at hv
      · exact (Except.pure_eq_ok.1 hv).symm
      · exact absurd hv Except.throw_ne_ok
    obtain hresolve | ⟨path, hresolve⟩ := hspec.scalar_resolve hok hs hop hi
    · rw [hresolve] at hv
      exact checked hv
    · rw [hresolve] at hv
      exact checked hv

/-- Data of built-in fields that leave out a numbered column resolve to values that do. -/
theorem part_isUnset (h : db.Compiles d) (hb : d.UsesBuiltIns) (hl : l ∈ db.schema.lists)
    (hn : l.IsNumbered column key name) (hop : op = .create ∨ op = .update)
    (hc : Resolve.changes l op policy context (.map es) = .ok c)
    (hleft : (es.part key name).isUnset = true) : (c.values.part key name).isUnset = true := by
  have hkeys := h.fields_nodup hl
  cases hn with
  | @field _ f hf _ hnumbered =>
    obtain ⟨s, hs, -⟩ := Storage.exists_of_isNumbered (Storage.isScalarish_of_isNumbered hnumbered)
      (h.defaultProblems_eq_nil hl hf) hnumbered
    have hnot (w : Value) : (.text key, w) ∉ c.values := by
      intro hw
      obtain ⟨_, v, -, heq, -, hset, hresolve, -⟩ := Resolve.exists_resolved hkeys hc hf hw
      cases heq
      rw [show es.get key = .unset from Value.eq_unset hleft] at hresolve
      rw [h.resolveInput_unset hb hl hf hs hop hresolve] at hset
      cases hset
    rw [Value.Entries.part, Value.Entries.get_eq_unset hnot]
    rfl
  | @subfield _ name f fields _ hf _ hs =>
    cases hset : (c.values.get key).isUnset with
    | true =>
      rw [Value.Entries.part, Value.Entries.column, Value.eq_unset hset]
      rfl
    | false =>
      obtain ⟨_, sub, heq, haccepts, hresolve, hget⟩ :=
        Resolve.exists_sent hkeys hc hf hs (Value.Entries.mem_of_get hset)
      cases heq
      have hsub := h.composite_input hb hl hf hs haccepts hresolve
      have hread : (Value.Entries.get sub name).isUnset = true := by
        split at hsub
        · rw [Value.Entries.part, Value.Entries.column, ← hsub] at hleft
          exact hleft
        · rw [Value.map.inj hsub]
          rfl
      rw [Value.Entries.part, Value.Entries.column, hget]
      refine congrArg Value.isUnset (Value.Entries.get_eq_unset fun w hw => ?_)
      obtain ⟨rfl, hset⟩ := Value.Entries.eq_get_of_mem_sent hw
      rw [hread] at hset
      cases hset

end Database.Compiles

end RecordSchema
