import RecordSchema.Proofs.Field.Default
import RecordSchema.Proofs.Request.Data

/-!
# Typed data

The data that a write hands to storage name stored fields, and every
value has the shape that its field takes in the write, unless the field
is stamped (`ListType.IsTyped`). Resolution checks the values of clients
and resolvers; what was not sent is dropped, defaults are put in column
by column, and neither spoils the shape.

The shape of a composite speaks of the first entry under a name only, and
that of a stamped field of nothing, which is too little to carry through
defaults and into columns. `ListType.IsFilled` says of every entry that
its column takes it, and of a stamp that it is a time; it is what each
step keeps, and typed data follow from it.
-/

namespace RecordSchema

/-- Whether the values of a kind are held in columns of the list itself. -/
def Storage.isStored : Storage → Bool
  | .none => false
  | .relation _ => false
  | _ => true

/-- Whether all data of a write are values of stored fields, of the shapes that the
fields take or of a field that is stamped. -/
def ListType.IsTyped (l : ListType) (op : Operation) (values : Value.Entries) : Prop :=
  ∀ e ∈ values, ∃ field ∈ l.fields, e.1.isText field.1 = true ∧ field.2.storage.isStored = true ∧
    (field.2.storage.isStamped = true ∨ (field.2.shape op).conforms e.2 = true)

instance (l : ListType) (op : Operation) (values : Value.Entries) :
    Decidable (l.IsTyped op values) :=
  inferInstanceAs (Decidable (∀ e ∈ values, ∃ field ∈ l.fields, _))

/-- Whether the columns of a composite have names of their own, as the entries of a
mapping do. -/
def Storage.namesOnce : Storage → Bool
  | .multi fields => (fields.map Prod.fst).Nodup
  | _ => true

theorem ListType.isStored_of_mem {l : ListType} {key : String} {s : Storage}
    (h : (key, s) ∈ l.storedFields) : s.isStored = true := by
  obtain ⟨⟨k, f⟩, -, h⟩ := List.mem_filterMap.1 h
  dsimp only at h
  split at h
  · cases h
  · cases h
  · next hrelation hnone =>
    cases h
    cases hs : f.storage with
    | none => exact absurd hs hnone
    | relation r => exact absurd hs (hrelation r)
    | _ => rfl

/-- What a field makes of a value that it takes has the shape of the operation. -/
theorem Field.conforms_of_resolveInput {f : Field} {op : Operation} {v context result : Value}
    (haccepts : f.accepts op = true) (h : f.resolveInput op v context = .ok result) :
    (f.shape op).conforms result = true := by
  have checked {w : Value} (h : (if (f.shape op).conforms w then return w
      else throw (.resolution f.path (.wrongInput op w (f.shape op)) []) : Except Fault Value) =
        .ok result) : (f.shape op).conforms result = true := by
    split at h
    · next hconforms => rwa [← Except.pure_eq_ok.1 h]
    · cases h
  obtain ⟨input, hinput⟩ := Option.isSome_iff_exists.1 haccepts
  unfold resolveInput at h
  rw [hinput] at h
  cases hresolve : input.resolve with
  | none =>
    simp only [hresolve] at h
    exact checked h
  | some g =>
    simp only [hresolve, Except.bind_eq_ok] at h
    obtain ⟨w, -, h⟩ := h
    exact checked h

/-! ## Values of fields -/

namespace Storage

/-- Whether the columns of a composite take all entries under their names. -/
def TakeEach (fields : List (String × Storage)) (es : Value.Entries) : Prop :=
  ∀ e ∈ fields, ∀ v, (.text e.1, v) ∈ es → v.isUnset = false → e.2.takes v = true

/-- Whether a value is one that a write gives a field. -/
def Fills (s : Storage) (v : Value) : Prop :=
  match s with
  | .multi fields => ∃ es, v = .map es ∧ TakeEach fields es
  | s => s.IsGiven v

theorem Fills.isStored {s : Storage} {v : Value} (h : s.Fills v) : s.isStored = true := by
  cases s with
  | multi => rfl
  | scalar | enum => rfl
  | _ => cases IsGiven.isScalarish h

theorem fills_iff_isGiven {s : Storage} (hs : s.isScalarish = true) {v : Value} :
    s.Fills v ↔ s.IsGiven v := by
  cases s <;> first | exact Iff.rfl | cases hs

/-- What fills a legal field has the shape of the field, unless the field is stamped. -/
theorem Fills.conforms {s : Storage} {op : Operation} (hop : op = .create ∨ op = .update)
    (hp : s.problems = []) {v : Value} (h : s.Fills v) :
    s.isStamped = true ∨ ∃ shape, s.shape op = .ok shape ∧ shape.conforms v = true := by
  cases s with
  | multi fields =>
    obtain ⟨es, rfl, heach⟩ := h
    obtain ⟨shape, hshape⟩ := exists_shape hp op
    obtain ⟨fs, hfs, rfl⟩ := multi_shape_ok (by rcases hop with rfl | rfl <;> decide) hshape
    refine .inr ⟨_, hshape, Shape.conforms_record.2 ⟨es, rfl, (conformsFields_iff hfs).2 ?_⟩⟩
    intro sub hsub
    rw [columnShapeFor?_of_write hop]
    cases hset : (Value.Entries.get es sub.1).isUnset with
    | false => exact heach sub hsub _ (Value.Entries.mem_of_get hset) hset
    | true =>
      rw [Value.eq_unset hset]
      exact takes_unset (legal_of_mem hp hsub).1
  | _ =>
    obtain ⟨-, htakes | ⟨hstamped, -⟩⟩ := h
    · rw [takes, ← columnShapeFor?_of_write hop] at htakes
      obtain ⟨shape, hshape, hconforms⟩ := (Option.any_eq_true _ _).1 htakes
      exact .inr ⟨shape, shape_of_columnShapeFor? hshape, hconforms⟩
    · exact .inl hstamped

end Storage

/-- Whether all data of a write are values of fields. -/
def ListType.IsFilled (l : ListType) (values : Value.Entries) : Prop :=
  ∀ e ∈ values, ∃ field ∈ l.fields, e.1.isText field.1 = true ∧ field.2.storage.Fills e.2

namespace ListType.IsFilled

variable {l : ListType} {op : Operation} {values : Value.Entries} {key : String} {f : Field}
  {v : Value}

theorem nil : l.IsFilled [] := nofun

theorem append {more : Value.Entries} (h : l.IsFilled values) (hmore : l.IsFilled more) :
    l.IsFilled (values ++ more) := by
  intro e he
  rcases List.mem_append.1 he with he | he
  · exact h e he
  · exact hmore e he

theorem singleton (hf : (key, f) ∈ l.fields) (hv : f.storage.Fills v) :
    l.IsFilled [(.text key, v)] := by
  intro e he
  rw [List.mem_singleton.1 he]
  exact ⟨(key, f), hf, Value.isText_iff.2 rfl, hv⟩

theorem put (h : l.IsFilled values) (hf : (key, f) ∈ l.fields) (hv : f.storage.Fills v) :
    l.IsFilled (values.put key v) := by
  intro e he
  rcases Value.Entries.mem_put he with rfl | he
  · exact ⟨(key, f), hf, Value.isText_iff.2 rfl, hv⟩
  · exact h e he

theorem fills_of_mem (h : l.IsFilled values) (hkeys : (l.fields.map Prod.fst).Nodup)
    (hf : (key, f) ∈ l.fields) (hv : (.text key, v) ∈ values) : f.storage.Fills v := by
  obtain ⟨⟨key', f'⟩, hf', hkey, hv⟩ := h _ hv
  obtain rfl := Value.text.inj (Value.isText_iff.1 hkey)
  rwa [Keys.eq_of_mem hkeys hf hf']

theorem isTyped (h : l.IsFilled values) (hop : op = .create ∨ op = .update)
    (hp : ∀ e ∈ l.fields, e.2.storage.problems = []) : l.IsTyped op values := by
  intro e he
  obtain ⟨⟨key, f⟩, hf, hkey, hv⟩ := h e he
  refine ⟨(key, f), hf, hkey, hv.isStored, (hv.conforms hop (hp _ hf)).imp_right ?_⟩
  rintro ⟨shape, hshape, hconforms⟩
  rwa [Field.shape, hshape]

end ListType.IsFilled

/-! ## Resolved data -/

namespace Resolve

variable {l : ListType} {op : Operation} {policy : SetPolicy}

/-- Storage is asked for no change of a relation, and for a value that fills any other
field. -/
theorem change_fills (hop : op = .create ∨ op = .update) {key : String} {s : Storage} {shape : Shape}
    (hshape : s.shape op = .ok shape) {v : Value} (hset : v.isUnset = false)
    (hv : shape.conforms v = true) {c : Changes} (h : change op policy key s v = .ok c) :
    c.values = [] ∨ ∃ w, s.Fills w ∧ c.values = [(.text key, w)] := by
  cases s with
  | relation r =>
    simp only [change] at h
    split at h
    · obtain ⟨a, -, h⟩ := Except.bind_eq_ok.1 h
      split at h <;> cases h <;> exact .inl rfl
    · obtain ⟨p, -, h⟩ := Except.bind_eq_ok.1 h
      cases h
      exact .inl rfl
  | none =>
    cases h
    exact .inl rfl
  | multi fields =>
    simp only [change] at h
    split at h
    · next es =>
      cases h
      obtain ⟨fs, hfs, rfl⟩ := Storage.multi_shape_ok (by rcases hop with rfl | rfl <;> decide) hshape
      obtain ⟨_, ⟨⟩, hv⟩ := Shape.conforms_record.1 hv
      -- Of the entries under a name only the first is sent, the one that the shape is about.
      refine .inr ⟨_, ⟨sent es, rfl, fun e he w hw _ => ?_⟩, rfl⟩
      rw [(Value.Entries.eq_get_of_mem_sent hw).1, Storage.takes,
        ← Storage.columnShapeFor?_of_write hop]
      exact (Storage.conformsFields_iff hfs).1 hv e he
    · cases h
  | unsupported w => cases hshape
  | _ =>
    cases h
    cases hshape
    refine .inr ⟨v, ⟨hset, .inl ?_⟩, rfl⟩
    rw [Storage.takes, ← Storage.columnShapeFor?_of_write hop]
    exact hv

theorem change_isFilled (hop : op = .create ∨ op = .update) {key : String} {f : Field}
    (hf : (key, f) ∈ l.fields) {v : Value} (hset : v.isUnset = false)
    (hv : (f.shape op).conforms v = true) {c : Changes}
    (h : change op policy key f.storage v = .ok c) : l.IsFilled c.values := by
  unfold Field.shape at hv
  split at hv
  · next shape hshape =>
    rcases change_fills hop hshape hset hv h with hnone | ⟨w, hw, hone⟩
    · rw [hnone]
      exact .nil
    · rw [hone]
      exact .singleton hf hw
  · rw [Shape.conforms, hset] at hv
    cases hv

theorem split_isFilled (hop : op = .create ∨ op = .update) (hkeys : (l.fields.map Prod.fst).Nodup)
    {vs : List (String × Value)} {c : Changes} (h : split l op policy vs = .ok c)
    (hvs : ∀ e ∈ vs, ∃ f, (e.1, f) ∈ l.fields ∧ e.2.isUnset = false ∧
      (f.shape op).conforms e.2 = true) : l.IsFilled c.values := by
  induction vs generalizing c with
  | nil =>
    cases h
    exact .nil
  | cons e r ih =>
    obtain ⟨key, v⟩ := e
    obtain ⟨⟨f, hf, hset, hv⟩, hr⟩ := List.forall_mem_cons.1 hvs
    obtain ⟨here, rest, hhere, hrest, rfl⟩ := split_cons (Keys.lookup_of_mem hkeys hf) h
    exact (change_isFilled hop hf hset hv hhere).append (ih hrest hr)

/-- What clients and resolvers give are values of the fields. -/
theorem changes_isFilled (hop : op = .create ∨ op = .update) (hkeys : (l.fields.map Prod.fst).Nodup)
    {context data : Value} {c : Changes} (h : changes l op policy context data = .ok c) :
    l.IsFilled c.values := by
  obtain ⟨vs, hvs, hsplit⟩ := Except.bind_eq_ok.1 h
  obtain ⟨es, rfl, -⟩ := data_ok hvs
  refine split_isFilled hop hkeys hsplit fun e he => ?_
  obtain ⟨f, hf, haccepts, hset, hresolve⟩ := mem_data hvs he
  exact ⟨f, hf, hset, Field.conforms_of_resolveInput haccepts hresolve⟩

end Resolve

/-! ## Defaults and stamps -/

namespace Storage

variable {l : ListType}

theorem takes_defaultValue {s : Storage} (hs : s.isScalarish = true)
    (hd : s.defaultProblems = .ok []) {v : Value} {m m' : Supply}
    (h : s.defaultValue.run m = .ok (v, m')) : s.takes v = true := by
  obtain ⟨shape, hshape⟩ : ∃ shape, s.columnShapeFor? .create = some shape := by
    cases s <;> first | exact ⟨_, rfl⟩ | cases hs
  rw [takes, hshape, Option.any_some]
  exact defaultValue_conforms hd hshape h

theorem fillSubfields_takeEach {all : List (String × Storage)} (hnames : (all.map Prod.fst).Nodup)
    (hall : ∀ e ∈ all, e.2.isScalarish = true ∧ e.2.defaultProblems = .ok [])
    {fields : List (String × Storage)} (hsub : fields ⊆ all) {es es' : Value.Entries}
    {m m' : Supply} (hes : TakeEach all es) (h : (fillSubfields fields es).run m = .ok (es', m')) :
    TakeEach all es' := by
  induction fields generalizing es m with
  | nil =>
    cases h
    exact hes
  | cons field r ih =>
    obtain ⟨name, s⟩ := field
    obtain ⟨hmem, hr⟩ := List.cons_subset.1 hsub
    unfold fillSubfields at h
    split at h
    · simp only [StateT.run_bind, Except.bind_eq_ok] at h
      obtain ⟨⟨v, m₁⟩, hv, h⟩ := h
      refine ih hr (fun e he w hw hset => ?_) h
      rcases Value.Entries.mem_put hw with heq | hw
      · obtain ⟨hname, rfl⟩ := Prod.mk.inj heq
        obtain ⟨name', s'⟩ := e
        obtain rfl := Value.text.inj hname
        obtain rfl := Keys.eq_of_mem hnames hmem he
        exact takes_defaultValue (hall _ hmem).1 (hall _ hmem).2 hv
      · exact hes e he w hw hset
    · exact ih hr hes h

/-- A field in one column takes the time, its default, or nothing. -/
theorem fill_column {s : Storage} (hs : s.isScalarish = true) (hd : s.defaultProblems = .ok [])
    {key : String} {data data' : Value.Entries} {m m' : Supply}
    (h : (s.fill key data).run m = .ok (data', m')) :
    data' = data ∨ ∃ v, s.IsGiven v ∧ data' = data.put key v := by
  unfold fill at h
  split at h
  · cases hs
  · split at h
    · next hstamped =>
      cases h
      exact .inr ⟨_, ⟨rfl, .inr ⟨hstamped, _, rfl⟩⟩, rfl⟩
    · split at h
      · simp only [StateT.run_bind, Except.bind_eq_ok] at h
        obtain ⟨⟨v, m₁⟩, hv, h⟩ := h
        cases h
        split
        · exact .inl rfl
        · next hset =>
          exact .inr ⟨v, ⟨by simpa using hset, .inl (takes_defaultValue hs hd hv)⟩, rfl⟩
      · cases h
        exact .inl rfl

/-- A composite whose columns take what was given keeps a mapping of which they take each
entry. -/
theorem fill_multi {fields : List (String × Storage)} (hp : (multi fields).problems = [])
    (hd : (multi fields).defaultProblems = .ok []) (hnames : (fields.map Prod.fst).Nodup)
    {key : String} {data data' : Value.Entries} {m m' : Supply}
    (hdata : ∀ es, data.get key = .map es → TakeEach fields es)
    (h : ((multi fields).fill key data).run m = .ok (data', m')) :
    ∃ es, TakeEach fields es ∧ data' = data.put key (.map es) := by
  rw [fill] at h
  rw [defaultProblems] at hd
  obtain ⟨⟨filled, m₁⟩, hfilled, h⟩ := Except.bind_eq_ok.1 h
  cases h
  refine ⟨filled, fillSubfields_takeEach hnames (fun e he => ?_) (List.Subset.refl _) ?given hfilled,
    rfl⟩
  · exact ⟨(legal_of_mem hp he).1, subfieldDefaultProblems_ok hd e he⟩
  case given =>
    split
    · exact hdata _ ‹_›
    · exact fun _ _ _ hv => absurd hv List.not_mem_nil

theorem fill_isFilled (hkeys : (l.fields.map Prod.fst).Nodup) {key : String} {f : Field}
    (hf : (key, f) ∈ l.fields) (hstored : f.storage.isStored = true)
    (hp : f.storage.problems = []) (hd : f.storage.defaultProblems = .ok [])
    (hnames : f.storage.namesOnce = true) {data data' : Value.Entries} {m m' : Supply}
    (hdata : l.IsFilled data) (h : (f.storage.fill key data).run m = .ok (data', m')) :
    l.IsFilled data' := by
  have hput (v : Value) (hv : f.storage.Fills v) : l.IsFilled (data.put key v) := hdata.put hf hv
  have hgiven (es : Value.Entries) (hes : data.get key = .map es) : f.storage.Fills (.map es) := by
    have hset : (data.get key).isUnset = false := by
      rw [hes]
      rfl
    exact hes ▸ hdata.fills_of_mem hkeys hf (Value.Entries.mem_of_get hset)
  cases hs : f.storage with
  | scalar | enum =>
    rw [hs] at h hd hput
    obtain rfl | ⟨v, hv, rfl⟩ := fill_column rfl hd h
    · exact hdata
    · exact hput v hv
  | multi fields =>
    rw [hs] at h hp hd hnames hput hgiven
    have htake (es : Value.Entries) (hes : data.get key = .map es) : TakeEach fields es := by
      obtain ⟨_, ⟨⟩, heach⟩ := hgiven es hes
      exact heach
    obtain ⟨es, heach, rfl⟩ := fill_multi hp hd (of_decide_eq_true hnames) htake h
    exact hput _ ⟨es, rfl, heach⟩
  | unsupported v =>
    rw [hs] at hp
    cases hp
  | none | relation r =>
    rw [hs] at hstored
    cases hstored

theorem fillAll_isFilled (hkeys : (l.fields.map Prod.fst).Nodup)
    (hlegal : ∀ e ∈ l.fields, e.2.storage.problems = [] ∧ e.2.storage.defaultProblems = .ok [] ∧
      e.2.storage.namesOnce = true) {fields : List (String × Storage)} (hsub : fields ⊆ l.storedFields)
    {data data' : Value.Entries} {m m' : Supply} (hdata : l.IsFilled data)
    (h : (fillAll fields data).run m = .ok (data', m')) : l.IsFilled data' := by
  induction fields generalizing data m with
  | nil =>
    cases h
    exact hdata
  | cons e r ih =>
    obtain ⟨key, s⟩ := e
    obtain ⟨hmem, hr⟩ := List.cons_subset.1 hsub
    obtain ⟨f, hf, rfl⟩ := ListType.mem_storedFields hmem
    have hstored := ListType.isStored_of_mem hmem
    obtain ⟨hp, hd, hnames⟩ := hlegal _ hf
    simp only [fillAll, StateT.run_bind, Except.bind_eq_ok] at h
    obtain ⟨⟨data₁, m₁⟩, hfill, h⟩ := h
    exact ih hr (fill_isFilled hkeys hf hstored hp hd hnames hdata hfill) h

theorem stampAll_isFilled {fields : List (String × Storage)} (hsub : fields ⊆ l.storedFields)
    {data data' : Value.Entries} {m m' : Supply} (hdata : l.IsFilled data)
    (h : (stampAll fields data).run m = .ok (data', m')) : l.IsFilled data' := by
  induction fields generalizing data m with
  | nil =>
    cases h
    exact hdata
  | cons e r ih =>
    obtain ⟨key, s⟩ := e
    obtain ⟨hmem, hr⟩ := List.cons_subset.1 hsub
    obtain ⟨f, hf, rfl⟩ := ListType.mem_storedFields hmem
    unfold stampAll at h
    split at h
    · next hstamped =>
      simp only [StateT.run_bind, Except.bind_eq_ok] at h
      obtain ⟨⟨t, m₁⟩, ht, h⟩ := h
      obtain ⟨_, rfl⟩ := Generated.now_dateTime ht
      have hscalarish : f.storage.isScalarish = true := by
        cases hs : f.storage <;> rw [hs] at hstamped <;> first | rfl | cases hstamped
      exact ih hr (hdata.put hf ((fills_iff_isGiven hscalarish).2 ⟨rfl, .inr ⟨hstamped, _, rfl⟩⟩)) h
    · exact ih hr hdata h

end Storage

/-- The resolved data of a new record are values of the fields, and so are its defaults. -/
theorem Database.Compiles.isFilled_of_fillAll {db : Database} {d : Declarations}
    (h : db.Compiles d)
    (hnames : ∀ l ∈ db.schema.lists, ∀ e ∈ l.fields, e.2.storage.namesOnce = true) {l : ListType}
    (hl : l ∈ db.schema.lists) {policy : SetPolicy} {context data : Value} {c : Resolve.Changes}
    (hc : Resolve.changes l .create policy context data = .ok c) {values : Value.Entries}
    {m m' : Supply} (hv : (Storage.fillAll l.storedFields c.values).run m = .ok (values, m')) :
    l.IsFilled values :=
  Storage.fillAll_isFilled (h.fields_nodup hl)
    (fun e he => ⟨h.problems_eq_nil hl he, h.defaultProblems_eq_nil hl he, hnames l hl e he⟩)
    (List.Subset.refl _) (Resolve.changes_isFilled (.inl rfl) (h.fields_nodup hl) hc) hv

end RecordSchema
