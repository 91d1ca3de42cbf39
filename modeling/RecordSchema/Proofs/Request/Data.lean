import RecordSchema.Proofs.Store.Columns
import RecordSchema.Request.Write

/-!
# Resolved data

What is left of the data of a write after resolution. Every value
belongs to a field that takes input for the operation, so the data of an
update never name the id, and the only links that are changed are those
of the relations that the data mention.
-/

namespace RecordSchema

/-! ## Gathering -/

theorem Outcome.fault?_eq_none {κ α : Type} {o : Outcome κ α} (h : o.fault? = none) :
    ∃ a, o.2 = .ok a := by
  unfold Outcome.fault? at h
  split at h
  · exact ⟨_, ‹_›⟩
  · cases h

/-- Outcomes are gathered just when none of them is a fault. -/
theorem gather_ok {κ α : Type} {list : String} {os : List (Outcome κ α)} {vs : List (κ × α)}
    (h : gather list os = .ok vs) : os = vs.map fun v => (v.1, .ok v.2) := by
  have hnone : Outcome.faults os = [] ∧ os.filterMap Outcome.value? = vs := by
    unfold gather at h
    dsimp only at h
    split at h
    · cases h
    · split at h
      · next hnil => exact ⟨hnil, Except.ok.inj h⟩
      · cases h
      · cases h
  obtain ⟨hnil, rfl⟩ := hnone
  clear h
  induction os with
  | nil => rfl
  | cons o r ih =>
    obtain ⟨k, x⟩ := o
    have hfaults : ∀ p ∈ (k, x) :: r, Outcome.fault? p = none := by
      simpa [Outcome.faults, List.filterMap_eq_nil_iff] using hnil
    obtain ⟨a, rfl⟩ := Outcome.fault?_eq_none (hfaults _ List.mem_cons_self)
    have hrest := ih (List.filterMap_eq_nil_iff.2 fun p hp => hfaults p (List.mem_cons_of_mem _ hp))
    exact congrArg ((k, .ok a) :: ·) hrest

namespace Resolve

/-! ## Values -/

theorem mem_dataOutcomes {op : Operation} {context : Value} {es : Value.Entries}
    {fields : List (String × Field)} {o : Outcome String Value} :
    o ∈ dataOutcomes op context es fields ↔
      ∃ f, (o.1, f) ∈ fields ∧ f.accepts op = true ∧
        ((es.get o.1).isUnset = false ∨ op = .create) ∧
        o.2 = f.resolveInput op (es.get o.1) context := by
  simp only [dataOutcomes, List.mem_filterMap]
  constructor
  · rintro ⟨⟨key, f⟩, hf, ho⟩
    dsimp only at ho
    split at ho
    · cases ho
    · next hc =>
      cases ho
      simp only [Bool.or_eq_true, Bool.not_eq_true', Bool.and_eq_true, bne_iff_ne, not_or,
        not_and, ne_eq, not_not] at hc
      refine ⟨f, hf, by simpa using hc.1, ?_, rfl⟩
      cases hu : (es.get key).isUnset with
      | false => exact .inl rfl
      | true => exact .inr (hc.2 hu)
  · rintro ⟨f, hf, haccepts, hsent, ho⟩
    refine ⟨(o.1, f), hf, ?_⟩
    rw [if_neg]
    · rw [← ho]
    · rcases hsent with hsent | rfl
      · simp [haccepts, hsent]
      · simp [haccepts]

/-- Data that have entries are a mapping of these. -/
theorem dataEntries_ok {l : ListType} {op : Operation} {data : Value} {es : Value.Entries}
    (h : dataEntries l op data = .ok es) : data = .map es := by
  simp only [dataEntries, Except.bind_eq_ok] at h
  obtain ⟨keys, -, h⟩ := h
  split at h
  · cases Except.pure_eq_ok.1 h
    rfl
  · exact absurd h Except.throw_ne_ok
  · exact absurd h Except.throw_ne_ok

/-- The data of a write are a mapping, and its values are what the fields make
of the entries. -/
theorem data_ok {l : ListType} {op : Operation} {context data : Value}
    {vs : List (String × Value)} (h : Resolve.data l op context data = .ok vs) :
    ∃ es, data = .map es ∧ ∃ all : List (String × Value), vs = all.filter (fun e => !e.2.isUnset) ∧
      dataOutcomes op context es l.fields = all.map fun v => (v.1, .ok v.2) := by
  simp only [Resolve.data, Except.bind_eq_ok, Except.pure_eq_ok] at h
  obtain ⟨es, hes, all, hall, rfl⟩ := h
  exact ⟨es, dataEntries_ok hes, all, rfl, gather_ok hall⟩

/-- The values of a write come from fields that take input for it. -/
theorem mem_data {l : ListType} {op : Operation} {context : Value} {es : Value.Entries}
    {vs : List (String × Value)} (h : Resolve.data l op context (.map es) = .ok vs)
    {key : String} {v : Value} (hv : (key, v) ∈ vs) :
    ∃ f, (key, f) ∈ l.fields ∧ f.accepts op = true ∧ v.isUnset = false ∧
      f.resolveInput op (es.get key) context = .ok v := by
  obtain ⟨es', heq, all, rfl, hall⟩ := data_ok h
  cases heq
  obtain ⟨hmem, hset⟩ := List.mem_filter.1 hv
  have ho : (key, .ok v) ∈ dataOutcomes op context es l.fields := by
    rw [hall]
    exact List.mem_map.2 ⟨(key, v), hmem, rfl⟩
  obtain ⟨f, hf, haccepts, -, hresolve⟩ := mem_dataOutcomes.1 ho
  exact ⟨f, hf, haccepts, by simpa using hset, hresolve.symm⟩

/-- What a write does to the links of a field that is no relation: nothing. -/
theorem change_links {op : Operation} {policy : SetPolicy} {key : String} {s : Storage} {v : Value}
    {c : Changes} (h : change op policy key s v = .ok c) (hs : ∀ r, s ≠ .relation r) :
    c.links = [] := by
  cases s with
  | relation r => exact absurd rfl (hs r)
  | multi subs =>
    simp only [change] at h
    split at h <;> cases h
    rfl
  | _ =>
    cases h
    rfl

theorem change_keys {op : Operation} {policy : SetPolicy} {key : String} {s : Storage} {v : Value}
    {c : Changes} (h : change op policy key s v = .ok c) {e : Value × Value} (he : e ∈ c.values) :
    e.1 = .text key := by
  cases s with
  | relation r =>
    simp only [change] at h
    split at h
    · obtain ⟨a, -, h⟩ := Except.bind_eq_ok.1 h
      split at h <;> cases h <;> cases he
    · obtain ⟨p, -, h⟩ := Except.bind_eq_ok.1 h
      cases h
      cases he
  | multi subs =>
    simp only [change] at h
    split at h <;> cases h
    rw [List.mem_singleton.1 he]
  | none =>
    cases h
    cases he
  | _ =>
    cases h
    rw [List.mem_singleton.1 he]

theorem split_cons {l : ListType} {op : Operation} {policy : SetPolicy} {key : String} {v : Value}
    {vs : List (String × Value)} {f : Field} (hf : l.field? key = some f) {c : Changes}
    (h : split l op policy ((key, v) :: vs) = .ok c) :
    ∃ here rest, change op policy key f.storage v = .ok here ∧
      split l op policy vs = .ok rest ∧
      c = { values := here.values ++ rest.values, links := here.links ++ rest.links } := by
  simp only [split, hf, Except.bind_eq_ok, Except.pure_eq_ok] at h
  obtain ⟨here, hhere, rest, hrest, rfl⟩ := h
  exact ⟨here, rest, hhere, hrest, rfl⟩

theorem split_keys {l : ListType} {op : Operation} {policy : SetPolicy}
    {vs : List (String × Value)} {c : Changes} (h : split l op policy vs = .ok c)
    {e : Value × Value} (he : e ∈ c.values) : ∃ v ∈ vs, e.1 = .text v.1 := by
  induction vs generalizing c with
  | nil =>
    cases h
    cases he
  | cons v r ih =>
    obtain ⟨key, v⟩ := v
    have later {c : Changes} (h : split l op policy r = .ok c) (he : e ∈ c.values) :
        ∃ w ∈ (key, v) :: r, e.1 = .text w.1 := by
      obtain ⟨w, hw, hkey⟩ := ih h he
      exact ⟨w, List.mem_cons_of_mem _ hw, hkey⟩
    cases hf : l.field? key with
    | none =>
      simp only [split, hf] at h
      exact later h he
    | some f =>
      obtain ⟨here, rest, hhere, hrest, rfl⟩ := split_cons hf h
      rcases List.mem_append.1 he with he | he
      · exact ⟨_, List.mem_cons_self, change_keys hhere he⟩
      · exact later hrest he

theorem split_links_eq_nil {l : ListType} {op : Operation} {policy : SetPolicy}
    {vs : List (String × Value)} {c : Changes} (h : split l op policy vs = .ok c)
    (hvs : ∀ v ∈ vs, ∀ f, l.field? v.1 = some f → ∀ r, f.storage ≠ .relation r) :
    c.links = [] := by
  induction vs generalizing c with
  | nil =>
    cases h
    rfl
  | cons v r ih =>
    obtain ⟨key, v⟩ := v
    obtain ⟨hv, hr⟩ := List.forall_mem_cons.1 hvs
    cases hf : l.field? key with
    | none =>
      simp only [split, hf] at h
      exact ih h hr
    | some f =>
      obtain ⟨here, rest, hhere, hrest, rfl⟩ := split_cons hf h
      rw [change_links hhere (hv f hf), ih hrest hr]
      rfl

theorem split_append {l : ListType} {op : Operation} {policy : SetPolicy}
    {vs ws : List (String × Value)} {c : Changes} (h : split l op policy (vs ++ ws) = .ok c) :
    ∃ a b, split l op policy vs = .ok a ∧ split l op policy ws = .ok b ∧
      c.links = a.links ++ b.links := by
  induction vs generalizing c with
  | nil => exact ⟨{}, c, rfl, h, rfl⟩
  | cons v r ih =>
    obtain ⟨key, v⟩ := v
    rw [List.cons_append] at h
    cases hf : l.field? key with
    | none =>
      simp only [split, hf] at h ⊢
      exact ih h
    | some f =>
      obtain ⟨here, rest, hhere, hrest, rfl⟩ := split_cons hf h
      obtain ⟨a, b, ha, hb, hlinks⟩ := ih hrest
      refine ⟨{ values := here.values ++ a.values, links := here.links ++ a.links }, b, ?_, hb, ?_⟩
      · simp only [split, hf, hhere, ha]
        rfl
      · simp only [hlinks, List.append_assoc]

end Resolve

/-! ## Stamps -/

theorem Value.Entries.put_keys {es : Value.Entries} {key : String} {v : Value} {e : Value × Value}
    (he : e ∈ es.put key v) : e.1 ∈ es.map Prod.fst ∨ e.1 = .text key := by
  unfold put at he
  split at he
  · obtain ⟨o, ho, rfl⟩ := List.mem_map.1 he
    refine .inl (List.mem_map.2 ⟨o, ho, ?_⟩)
    split <;> rfl
  · rcases List.mem_append.1 he with he | he
    · exact .inl (List.mem_map.2 ⟨e, he, rfl⟩)
    · rw [List.mem_singleton.1 he]
      exact .inr rfl

/-- Stamping adds entries for stamped fields only. -/
theorem Storage.stampAll_keys {fields : List (String × Storage)} {data data' : Value.Entries}
    {supply supply' : Supply} (h : (stampAll fields data).run supply = .ok (data', supply'))
    {e : Value × Value} (he : e ∈ data') :
    e.1 ∈ data.map Prod.fst ∨ ∃ f ∈ fields, f.2.isStamped = true ∧ e.1 = .text f.1 := by
  induction fields generalizing data supply with
  | nil =>
    cases h
    exact .inl (List.mem_map.2 ⟨e, he, rfl⟩)
  | cons f r ih =>
    obtain ⟨key, s⟩ := f
    unfold stampAll at h
    split at h
    · next hs =>
      simp only [StateT.run_bind, Except.bind_eq_ok] at h
      obtain ⟨⟨t, m⟩, -, h⟩ := h
      rcases ih h with hmem | ⟨f, hf, hstamped, hkey⟩
      · obtain ⟨o, ho, hkey⟩ := List.mem_map.1 hmem
        rcases Value.Entries.put_keys ho with hput | hput
        · exact .inl (hkey ▸ hput)
        · exact .inr ⟨_, List.mem_cons_self, hs, hkey ▸ hput⟩
      · exact .inr ⟨f, List.mem_cons_of_mem _ hf, hstamped, hkey⟩
    · rcases ih h with hmem | ⟨f, hf, hstamped, hkey⟩
      · exact .inl hmem
      · exact .inr ⟨f, List.mem_cons_of_mem _ hf, hstamped, hkey⟩

theorem ListType.mem_storedFields {l : ListType} {key : String} {s : Storage}
    (h : (key, s) ∈ l.storedFields) : ∃ f, (key, f) ∈ l.fields ∧ f.storage = s := by
  obtain ⟨⟨k, f⟩, hf, h⟩ := List.mem_filterMap.1 h
  dsimp only at h
  split at h
  · cases h
  · cases h
  · cases h
    exact ⟨f, hf, rfl⟩

namespace Database.Compiles

variable {db : Database} {d : Declarations} {l : ListType}

/-- An update names the id only where the id takes values from updates. -/
theorem accepts_update_of_keys (h : db.Compiles d) (hl : l ∈ db.schema.lists)
    {policy : SetPolicy} {context data : Value} {c : Resolve.Changes}
    (hc : Resolve.changes l .update policy context data = .ok c) {values : Value.Entries}
    {supply supply' : Supply}
    (hv : (Storage.stampAll l.storedFields c.values).run supply = .ok (values, supply'))
    (hmem : .text "id" ∈ values.map Prod.fst) :
    ∃ f, ("id", f) ∈ l.fields ∧ f.accepts .update = true := by
  obtain ⟨e, he, hid⟩ := List.mem_map.1 hmem
  rcases Storage.stampAll_keys hv he with hmem | ⟨⟨key, s⟩, hf, hstamped, hkey⟩
  · obtain ⟨o, ho, hkey⟩ := List.mem_map.1 hmem
    obtain ⟨vs, hvs, hsplit⟩ := Except.bind_eq_ok.1 hc
    obtain ⟨es, rfl, -⟩ := Resolve.data_ok hvs
    obtain ⟨v, hv, hname⟩ := Resolve.split_keys hsplit ho
    obtain ⟨f, hf, haccepts, -⟩ := Resolve.mem_data hvs hv
    rw [hname, hid, Value.text.injEq] at hkey
    exact ⟨f, hkey ▸ hf, haccepts⟩
  · obtain ⟨f, hfield, rfl⟩ := ListType.mem_storedFields hf
    rw [hid, Value.text.injEq] at hkey
    subst hkey
    rw [Declarations.not_isStamped_of_isNumberedKey (h.problems_eq_nil hl hfield)
      (h.isNumberedKey hl hfield)] at hstamped
    cases hstamped

/-- No update names a built-in id. -/
theorem update_keys (h : db.Compiles d) (hb : d.UsesBuiltIns) (hl : l ∈ db.schema.lists)
    {policy : SetPolicy} {context data : Value} {c : Resolve.Changes}
    (hc : Resolve.changes l .update policy context data = .ok c) {values : Value.Entries}
    {supply supply' : Supply}
    (hv : (Storage.stampAll l.storedFields c.values).run supply = .ok (values, supply')) :
    .text "id" ∉ values.map Prod.fst := by
  intro hmem
  obtain ⟨f, hf, haccepts⟩ := h.accepts_update_of_keys hl hc hv hmem
  obtain ⟨spec, hspec, hok⟩ := h.builtIn hb hl hf
  rw [(hspec.accepts_eq_false hok (h.isNumberedKey hl hf)).2] at haccepts
  cases haccepts

/-- What a built-in relation field makes of its input. -/
theorem relation_input (h : db.Compiles d) (hb : d.UsesBuiltIns) (hl : l ∈ db.schema.lists)
    {key : String} {f : Field} (hf : (key, f) ∈ l.fields) {r : RelationField}
    (hr : f.storage = .relation r) {op : Operation} (hop : op = .create ∨ op = .update)
    (haccepts : f.accepts op = true) {v context result : Value}
    (hv : f.resolveInput op v context = .ok result) :
    result = if v.isNull then .unset else v := by
  obtain ⟨i, hi⟩ := Option.isSome_iff_exists.1 haccepts
  obtain ⟨spec, hspec, hok⟩ := h.builtIn hb hl hf
  simp only [Field.resolveInput, hi, hspec.relation_resolve hok hr hop hi, Except.bind_eq_ok] at hv
  obtain ⟨v', hv', hv⟩ := hv
  obtain rfl : (if v.isNull then .unset else v) = v' := Except.ok.inj hv'
  generalize (if v.isNull then .unset else v) = w at hv ⊢
  split at hv
  · exact (Except.pure_eq_ok.1 hv).symm
  · exact absurd hv Except.throw_ne_ok

end Database.Compiles

end RecordSchema
