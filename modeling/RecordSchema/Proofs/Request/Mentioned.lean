import RecordSchema.Proofs.Request.Data
import RecordSchema.Proofs.Value.Entries

/-!
# Relations that data mention

A write changes the links of the relations that its data mention and of
no others. A relation that is null or not sent is not mentioned.
-/

namespace RecordSchema

/-- Whether data mention no relation but certain fields. -/
def ListType.LinksWithin (l : ListType) (among : List String) (es : Value.Entries) : Prop :=
  ∀ e ∈ l.fields, e.2.relation?.isSome → e.1 ∉ among → (es.get e.1).isPresent = false

/-- Whether the data of a write to a list mention no relation but certain fields. -/
def Worker.Mentions (w : Worker) (list : String) (among : List String) (data : Value) : Prop :=
  ∀ l ∈ w.db.schema.lists, l.key = list → l.LinksWithin among (data.entries?.getD [])

instance (w : Worker) (list : String) (among : List String) (data : Value) :
    Decidable (w.Mentions list among data) :=
  inferInstanceAs (Decidable (∀ l ∈ w.db.schema.lists, l.key = list →
    ∀ e ∈ l.fields, e.2.relation?.isSome → e.1 ∉ among →
      ((data.entries?.getD []).get e.1).isPresent = false))

namespace Resolve

variable {l : ListType} {op : Operation} {context : Value} {es : Value.Entries}

/-- A field that data mention takes input for the operation. -/
theorem accepts_of_get {vs : List (String × Value)}
    (h : Resolve.data l op context (.map es) = .ok vs) {key : String} {f : Field}
    (hf : l.field? key = some f) (hkey : (es.get key).isPresent = true) :
    f.accepts op = true := by
  simp only [Resolve.data, Except.bind_eq_ok] at h
  obtain ⟨_, hes, -⟩ := h
  simp only [dataEntries, ManyPlan.membersOf, Except.bind_eq_ok, Except.ok.injEq] at hes
  obtain ⟨keys, rfl, hes⟩ := hes
  have hnone : unknownKeys l op (es.map Prod.fst) = [] := by
    split at hes
    · assumption
    · assumption
    · exact absurd hes Except.throw_ne_ok
  have hmem : .text key ∈ es.map Prod.fst :=
    List.mem_map.2 ⟨_, Value.Entries.mem_of_get (Value.isUnset_of_isPresent hkey), rfl⟩
  have hknown := List.filter_eq_nil_iff.1 hnone _ hmem
  simp only [ListType.accepting?, hf] at hknown
  cases haccepts : f.accepts op with
  | true => rfl
  | false => simp [Option.filter, haccepts] at hknown

theorem dataOutcomes_keys (op : Operation) (context : Value) (es : Value.Entries)
    (fields : List (String × Field)) :
    ((dataOutcomes op context es fields).map Prod.fst).Sublist (fields.map Prod.fst) := by
  induction fields with
  | nil => exact .slnil
  | cons e r ih =>
    obtain ⟨key, f⟩ := e
    simp only [dataOutcomes, List.filterMap_cons, List.map_cons] at ih ⊢
    split
    · exact ih.cons key
    · next o ho =>
      split at ho
      · cases ho
      · cases ho
        exact ih.cons_cons key

/-- A write has one value for a field at most. -/
theorem data_keys_nodup (hl : (l.fields.map Prod.fst).Nodup) {vs : List (String × Value)}
    (h : Resolve.data l op context (.map es) = .ok vs) : (vs.map Prod.fst).Nodup := by
  obtain ⟨es', heq, all, rfl, hall⟩ := data_ok h
  cases heq
  have hkeys : (dataOutcomes op context es l.fields).map Prod.fst = all.map Prod.fst := by
    rw [hall, List.map_map]
    rfl
  have hnodup := (dataOutcomes_keys op context es l.fields).nodup hl
  rw [hkeys] at hnodup
  exact hnodup.sublist (List.filter_sublist.map Prod.fst)

/-- A field that data mention has made something of its input. -/
theorem exists_mem_data {vs : List (String × Value)}
    (h : Resolve.data l op context (.map es) = .ok vs) {key : String} {f : Field}
    (hf : (key, f) ∈ l.fields) (haccepts : f.accepts op = true)
    (hset : (es.get key).isUnset = false) :
    ∃ v, f.resolveInput op (es.get key) context = .ok v ∧ (v.isUnset = false → (key, v) ∈ vs) := by
  obtain ⟨es', heq, all, rfl, hall⟩ := data_ok h
  cases heq
  have ho : (key, f.resolveInput op (es.get key) context) ∈ dataOutcomes op context es l.fields :=
    mem_dataOutcomes.2 ⟨f, hf, haccepts, .inl hset, rfl⟩
  rw [hall] at ho
  obtain ⟨⟨k, v⟩, hmem, heq⟩ := List.mem_map.1 ho
  obtain ⟨rfl, hv⟩ := Prod.mk.inj heq
  exact ⟨v, hv.symm, fun hkept => List.mem_filter.2 ⟨hmem, by simp [hkept]⟩⟩

end Resolve

namespace Database.Compiles

variable {db : Database} {d : Declarations} {l : ListType} {op : Operation} {policy : SetPolicy}
  {context : Value} {es : Value.Entries}

/-- A relation with a value is one that the data mention. -/
theorem mentioned (h : db.Compiles d) (hb : d.UsesBuiltIns) (hl : l ∈ db.schema.lists)
    (hop : op = .create ∨ op = .update) {among : List String} (hes : l.LinksWithin among es)
    {vs : List (String × Value)} (hvs : Resolve.data l op context (.map es) = .ok vs)
    {e : String × Value} (he : e ∈ vs) {f : Field} (hf : l.field? e.1 = some f)
    {r : RelationField} (hr : f.storage = .relation r) : e.1 ∈ among := by
  obtain ⟨f', hf', haccepts, hset, hresolve⟩ := Resolve.mem_data hvs he
  obtain rfl := Option.some.inj (hf.symm.trans (h.field?_eq hl hf'))
  by_contra hne
  have hnot := hes _ hf' (by simp [Field.relation?, hr]) hne
  have hvalue := h.relation_input hb hl hf' hr hop haccepts hresolve
  rw [hvalue] at hset
  cases hget : es.get e.1 <;> simp [hget, Value.isPresent, Value.isNull, Value.isUnset] at hnot hset

/-- Data that mention no relation change no links. -/
theorem links_eq_nil (h : db.Compiles d) (hb : d.UsesBuiltIns) (hl : l ∈ db.schema.lists)
    (hop : op = .create ∨ op = .update) (hes : l.LinksWithin [] es) {c : Resolve.Changes}
    (hc : Resolve.changes l op policy context (.map es) = .ok c) : c.links = [] := by
  obtain ⟨vs, hvs, hsplit⟩ := Except.bind_eq_ok.1 hc
  refine Resolve.split_links_eq_nil hsplit fun e he f hf r hr => ?_
  exact absurd (h.mentioned hb hl hop hes hvs he hf hr) List.not_mem_nil

/-- Data that mention one relation to many change its links only. -/
theorem links_eq_singleton (h : db.Compiles d) (hb : d.UsesBuiltIns) (hl : l ∈ db.schema.lists)
    (hop : op = .create ∨ op = .update) {field : String} (hes : l.LinksWithin [field] es)
    {f : Field} (hf : (field, f) ∈ l.fields) {r : RelationField} (hr : f.storage = .relation r)
    (hmany : r.mode = .many) {input : Value.Entries} (hinput : es.get field = .map input)
    {c : Resolve.Changes} (hc : Resolve.changes l op policy context (.map es) = .ok c) :
    ∃ p, ManyPlan.ofValue op policy (.map input) = .ok p ∧ c.links = [(field, .many p)] := by
  obtain ⟨vs, hvs, hsplit⟩ := Except.bind_eq_ok.1 hc
  have hfield := h.field?_eq hl hf
  have haccepts := Resolve.accepts_of_get hvs hfield (by rw [hinput]; rfl)
  obtain ⟨v, hv, hmem⟩ := Resolve.exists_mem_data hvs hf haccepts (by rw [hinput]; rfl)
  have hvalue := h.relation_input hb hl hf hr hop haccepts hv
  rw [hinput] at hvalue
  obtain rfl : v = .map input := hvalue
  have hmem := hmem rfl
  obtain ⟨a, b, rfl⟩ := List.append_of_mem hmem
  have hnodup := Resolve.data_keys_nodup (h.fields_nodup hl) hvs
  rw [List.map_append, List.map_cons, List.nodup_middle, List.nodup_cons, List.mem_append,
    not_or] at hnodup
  have hothers {e : String × Value} (he : e ∈ a ++ (field, .map input) :: b) {g : Field}
      (hg : l.field? e.1 = some g) {o : RelationField} (ho : g.storage = .relation o) :
      e.1 = field :=
    List.mem_singleton.1 (h.mentioned hb hl hop hes hvs he hg ho)
  obtain ⟨before, later, hbefore, hlater, hlinks⟩ := Resolve.split_append hsplit
  obtain ⟨here, after, hhere, hafter, rfl⟩ := Resolve.split_cons hfield hlater
  have hbefore' : before.links = [] := by
    refine Resolve.split_links_eq_nil hbefore fun e he g hg o ho => hnodup.1.1 ?_
    exact List.mem_map.2 ⟨e, he, hothers (List.mem_append_left _ he) hg ho⟩
  have hafter' : after.links = [] := by
    refine Resolve.split_links_eq_nil hafter fun e he g hg o ho => hnodup.1.2 ?_
    exact List.mem_map.2
      ⟨e, he, hothers (List.mem_append_right _ (List.mem_cons_of_mem _ he)) hg ho⟩
  simp only [Resolve.change, hr, hmany, Except.bind_eq_ok, Except.pure_eq_ok] at hhere
  obtain ⟨p, hp, rfl⟩ := hhere
  exact ⟨p, hp, by simp [hlinks, hbefore', hafter']⟩

end Database.Compiles

end RecordSchema
