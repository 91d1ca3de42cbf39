import RecordSchema.Proofs.Relation.Input
import RecordSchema.Proofs.Request.Mentioned

/-!
# Records that data ask to create

Data for a record may hold data for further records: under `create` in
the input of a relation, one mapping for a relation to one and a list of
them for a relation to many, and so on in each of them. `Schema.below`
reads the lists of all these records off the data alone, without a look
at how input is resolved or applied.

The induction is on the data, not on the schema: lists may refer to one
another in a circle, but the data of a nested record are a part of the
data that hold them.
-/

namespace RecordSchema

/-! ## The tree of new records -/

namespace Cardinality

/-- The items for new records in the input of a relation; null is no item. -/
def newItems (mode : Cardinality) : Value → List Value
  | .map es =>
    let given := Value.Entries.get es "create"
    let items := match mode with
      | .one => [given]
      | .many => (ManyPlan.membersOf given).toOption.getD []
    items.filter Value.isPresent
  | _ => []

theorem newItems_one (es : Value.Entries) :
    one.newItems (.map es) = [es.get "create"].filter Value.isPresent := rfl

theorem newItems_many (es : Value.Entries) : many.newItems (.map es) =
    ((ManyPlan.membersOf (es.get "create")).toOption.getD []).filter Value.isPresent := rfl

theorem newItems_of_not_isPresent {mode : Cardinality} {v : Value} (h : v.isPresent = false) :
    mode.newItems v = [] := by
  cases v <;> first | rfl | cases h

theorem mem_newItems {mode : Cardinality} {input v : Value} (h : v ∈ mode.newItems input) :
    v.isPresent = true ∧ ∃ es : Value.Entries, input = .map es ∧ (v = es.get "create" ∨
      ∃ vs, ManyPlan.membersOf (es.get "create") = .ok vs ∧ v ∈ vs) := by
  cases input with
  | map es =>
    obtain ⟨hmem, hpresent⟩ := List.mem_filter.1 h
    refine ⟨hpresent, es, rfl, ?_⟩
    cases mode with
    | one => exact .inl (List.mem_singleton.1 hmem)
    | many =>
      cases hvs : ManyPlan.membersOf (Value.Entries.get es "create") with
      | error e =>
        rw [hvs] at hmem
        cases hmem
      | ok vs =>
        rw [hvs] at hmem
        exact .inr ⟨vs, rfl, hmem⟩
  | _ => cases h

theorem filter_newItems (mode : Cardinality) (input : Value) :
    (mode.newItems input).filter Value.isPresent = mode.newItems input :=
  List.filter_eq_self.2 fun _ hv => (mem_newItems hv).1

end Cardinality

theorem Value.Entries.sizeOf_get_le (es : Entries) (key : String) :
    sizeOf (es.get key) ≤ sizeOf es := by
  cases hset : (es.get key).isUnset with
  | true =>
    rw [eq_unset hset]
    cases es <;> simp
    omega
  | false =>
    have hmem := List.sizeOf_lt_of_mem (mem_of_get hset)
    rw [Prod.mk.sizeOf_spec] at hmem
    omega

/-- A mapping among the members of a value is smaller than the value. -/
theorem ManyPlan.sizeOf_lt_of_mem_membersOf {v : Value} {vs : List Value}
    (h : membersOf v = .ok vs) {es : Value.Entries} (hes : .map es ∈ vs) :
    sizeOf (Value.map es) < sizeOf v := by
  cases v with
  | list items | tuple items =>
    cases h
    have hlt := List.sizeOf_lt_of_mem hes
    simp only [Value.list.sizeOf_spec, Value.tuple.sizeOf_spec]
    omega
  | map entries =>
    cases h
    obtain ⟨⟨k, v⟩, he, rfl⟩ := List.mem_map.1 hes
    have hlt := List.sizeOf_lt_of_mem he
    rw [Prod.mk.sizeOf_spec] at hlt
    rw [Value.map.sizeOf_spec entries]
    omega
  | text s =>
    cases h
    obtain ⟨_, -, ⟨⟩⟩ := List.mem_map.1 hes
  | _ => cases h

/-- The data of a nested record are smaller than the data that hold them. -/
theorem Cardinality.sizeOf_lt_of_mem_newItems {mode : Cardinality} {es nested : Value.Entries}
    {key : String} (h : .map nested ∈ mode.newItems (es.get key)) :
    sizeOf (Value.map nested) < sizeOf (Value.map es) := by
  obtain ⟨-, input, hinput, hitem⟩ := mem_newItems h
  have houter := es.sizeOf_get_le key
  have hinner := Value.Entries.sizeOf_get_le input "create"
  have hnested : sizeOf (Value.map nested) ≤ sizeOf (Value.Entries.get input "create") := by
    rcases hitem with heq | ⟨vs, hvs, hmem⟩
    · rw [heq]
    · exact (ManyPlan.sizeOf_lt_of_mem_membersOf hvs hmem).le
  rw [hinput] at houter
  simp only [Value.map.sizeOf_spec] at houter hnested ⊢
  omega

/-- The relations of a list. -/
def ListType.relations (l : ListType) : List (String × RelationField) :=
  l.fields.filterMap fun e => e.2.relation?.map (e.1, ·)

theorem ListType.flatMap_relations (l : ListType) (g : String × RelationField → List String) :
    l.relations.flatMap g =
      l.fields.flatMap fun e => e.2.relation?.elim [] fun r => g (e.1, r) := by
  unfold relations
  induction l.fields with
  | nil => rfl
  | cons e r ih =>
    rw [List.filterMap_cons, List.flatMap_cons, ← ih]
    cases e.2.relation? <;> rfl

namespace Schema

def relationsOf (s : Schema) (list : String) : List (String × RelationField) :=
  (s.list? list).elim [] ListType.relations

/-- The lists of the records that data for a record ask to create besides it, each as often as it
is asked for, at any depth. -/
def below (s : Schema) (list : String) : Value → List String
  | .map es =>
    (s.relationsOf list).flatMap fun e =>
      (e.2.mode.newItems (Value.Entries.get es e.1)).attach.flatMap fun
        | ⟨.map nested, _⟩ => e.2.list :: below s e.2.list (.map nested)
        | _ => [e.2.list]
  | _ => []
termination_by v => sizeOf v
decreasing_by exact Cardinality.sizeOf_lt_of_mem_newItems ‹_›

/-- The lists of all records that data ask to create: none when there are no data. -/
def creates (s : Schema) (list : String) (v : Value) : List String :=
  if v.isPresent then list :: s.below list v else []

theorem below_eq_nil {s : Schema} {list : String} {v : Value} (h : ∀ es, v ≠ .map es) :
    s.below list v = [] := by
  cases v with
  | map es => exact absurd rfl (h es)
  | _ =>
    rw [below]
    exact h

theorem below_map (s : Schema) (list : String) (es : Value.Entries) :
    s.below list (.map es) = (s.relationsOf list).flatMap fun e =>
      (e.2.mode.newItems (es.get e.1)).flatMap (s.creates e.2.list) := by
  rw [below]
  refine List.flatMap_congr fun e _ => ?_
  have hattach (items : List Value) : items.attach.flatMap (fun v => s.creates e.2.list v.1) =
      items.flatMap (s.creates e.2.list) := by
    rw [← List.flatMap_map Subtype.val, List.attach_map_subtype_val]
  rw [← hattach]
  refine List.flatMap_congr fun ⟨v, hv⟩ _ => ?_
  rw [creates, if_pos (Cardinality.mem_newItems hv).1]
  cases v with
  | map nested => rfl
  | _ => exact congrArg (e.2.list :: ·) (Eq.symm (below_eq_nil (by simp)))

end Schema

theorem Schema.flatMap_creates_filter (s : Schema) (list : String) (items : List Value) :
    (items.filter Value.isPresent).flatMap (s.creates list) = items.flatMap (s.creates list) := by
  induction items with
  | nil => rfl
  | cons v r ih =>
    rw [List.filter_cons, List.flatMap_cons, ← ih]
    split
    · rw [List.flatMap_cons]
    · next hnot => rw [creates, if_neg hnot, List.nil_append]

/-! ## Actions on links -/

namespace Resolve

/-- The items that an action on links creates records from. -/
def LinkAction.newItems : LinkAction → List Value
  | .one a => if a.verb = .create then [a.value] else []
  | .many p => p.create

variable {l : ListType} {op : Operation} {policy : SetPolicy} {key : String} {v : Value}

theorem newItems_one (hop : op = .create ∨ op = .update) {a : Option OneAction}
    (h : OneAction.ofValue? op v = .ok a) :
    a.elim [] (fun a => LinkAction.newItems (.one a)) = Cardinality.one.newItems v := by
  have hcreate : OneVerb.create ∈ OneVerb.allowed op := by rcases hop with rfl | rfl <;> decide
  cases v with
  | map es =>
    have hasked : OneVerb.isAsked es .create = (Value.Entries.get es "create").isPresent :=
      Bool.and_true _
    rw [Cardinality.newItems_one, List.filter_singleton, ← hasked]
    cases a with
    | none =>
      rw [(OneAction.ofEntries?_none h).2 _ hcreate]
      rfl
    | some a =>
      obtain ⟨-, hvalue, honly⟩ := OneAction.ofEntries?_some h
      obtain ⟨verb, value⟩ := a
      by_cases hverb : verb = .create
      · subst hverb
        rw [(honly _ hcreate).2 rfl]
        exact congrArg (fun v => [v]) hvalue
      · rw [Bool.eq_false_iff.2 fun htrue => hverb ((honly _ hcreate).1 htrue).symm]
        exact if_neg hverb
  | null | unset =>
    cases h
    rfl
  | _ => cases h

theorem newItems_many (hop : op = .create ∨ op = .update) {p : ManyPlan}
    (h : ManyPlan.ofValue op policy v = .ok p) :
    p.create.filter Value.isPresent = Cardinality.many.newItems v := by
  have hallowed : (ManyPlan.allowed op).contains .create = true := by
    rcases hop with rfl | rfl <;> decide
  cases v with
  | map es =>
    obtain ⟨-, -, -, -, hcreate, -⟩ := ManyPlan.ofEntries_ok h
    rw [ManyPlan.itemsOf, hallowed, Bool.true_and] at hcreate
    rw [Cardinality.newItems_many]
    change Except.map _ (if (Value.Entries.get es "create").isPresent then
      (ManyPlan.membersOf (Value.Entries.get es "create")).map some else .ok none) = _ at hcreate
    split at hcreate
    · simp only [Except.map_eq_ok] at hcreate
      obtain ⟨_, ⟨vs, hvs, rfl⟩, rfl⟩ := hcreate
      rw [hvs]
      rfl
    · next hnot =>
      obtain ⟨_, ⟨⟩, hnone⟩ := Except.map_eq_ok.1 hcreate
      rw [← hnone]
      cases hgiven : Value.Entries.get es "create" with
      | null | unset => rfl
      | _ =>
        rw [hgiven] at hnot
        exact absurd rfl hnot
  | null | unset =>
    cases h
    rfl
  | _ => cases h

/-- The new records of a relation are those that its input asks for. -/
theorem change_newItems (hop : op = .create ∨ op = .update) {r : RelationField} {c : Changes}
    (h : change op policy key (.relation r) v = .ok c) (creates : String → Value → List String) :
    c.links.flatMap (fun e => (e.2.newItems.filter Value.isPresent).flatMap (creates e.1)) =
      (r.mode.newItems v).flatMap (creates key) := by
  simp only [change] at h
  split at h
  · next hmode =>
    obtain ⟨a, ha, h⟩ := Except.bind_eq_ok.1 h
    have hitems := newItems_one hop ha
    rw [hmode, ← Cardinality.filter_newItems, ← hitems]
    cases a with
    | none =>
      cases h
      rfl
    | some a =>
      cases h
      exact List.append_nil _
  · next hmode =>
    obtain ⟨p, hp, h⟩ := Except.bind_eq_ok.1 h
    cases h
    rw [hmode, ← newItems_many hop hp]
    exact List.append_nil _

end Resolve

/-- What the entry of a field asks to create, as far as it is a relation. -/
def Field.newItems (f : Field) (es : Value.Entries) (key : String)
    (creates : String → Value → List String) : List String :=
  f.relation?.elim [] fun r => (r.mode.newItems (es.get key)).flatMap (creates key)

theorem Field.newItems_of_not_isPresent {f : Field} {es : Value.Entries} {key : String}
    (h : (es.get key).isPresent = false) {creates : String → Value → List String} :
    f.newItems es key creates = [] := by
  unfold newItems
  cases f.relation? with
  | none => rfl
  | some r => rw [Option.elim, Cardinality.newItems_of_not_isPresent h, List.flatMap_nil]

namespace Database.Compiles

variable {db : Database} {d : Declarations} {l : ListType} {op : Operation} {policy : SetPolicy}
  {context : Value} {es : Value.Entries}

/-- What a built-in field makes of its input asks for the new records that the input asks for. -/
theorem change_newItems (h : db.Compiles d) (hb : d.UsesBuiltIns) (hl : l ∈ db.schema.lists)
    (hop : op = .create ∨ op = .update) {key : String} {f : Field} (hf : (key, f) ∈ l.fields)
    (haccepts : f.accepts op = true) {v : Value}
    (hv : f.resolveInput op (es.get key) context = .ok v) (hset : v.isUnset = false)
    {c : Resolve.Changes} (hc : Resolve.change op policy key f.storage v = .ok c)
    (creates : String → Value → List String) :
    c.links.flatMap (fun e => (e.2.newItems.filter Value.isPresent).flatMap (creates e.1)) =
      f.newItems es key creates := by
  unfold Field.newItems Field.relation?
  split
  · next r hr =>
    have hvalue := h.relation_input hb hl hf hr hop haccepts hv
    cases hnull : (es.get key).isNull with
    | true =>
      rw [hvalue, hnull] at hset
      cases hset
    | false =>
      rw [hnull] at hvalue
      subst hvalue
      rw [hr] at hc
      exact Resolve.change_newItems hop hc creates
  · next hnone => rw [Resolve.change_links hc fun r hr => hnone r hr, List.flatMap_nil, Option.elim]

/-- A built-in field that makes nothing of its input asks for no new records. -/
theorem newItems_of_isUnset (h : db.Compiles d) (hb : d.UsesBuiltIns) (hl : l ∈ db.schema.lists)
    (hop : op = .create ∨ op = .update) {key : String} {f : Field} (hf : (key, f) ∈ l.fields)
    (haccepts : f.accepts op = true) {v : Value}
    (hv : f.resolveInput op (es.get key) context = .ok v) (hunset : v.isUnset = true)
    {creates : String → Value → List String} : f.newItems es key creates = [] := by
  cases hs : f.storage with
  | relation r =>
    have hvalue := h.relation_input hb hl hf hs hop haccepts hv
    refine Field.newItems_of_not_isPresent ?_
    rw [hvalue] at hunset
    cases hget : es.get key <;> first | rfl | (rw [hget] at hunset; cases hunset)
  | _ =>
    unfold Field.newItems Field.relation?
    rw [hs]
    rfl

/-- The new records of the changes that some fields make are those that the data ask for in the
relations among them. -/
theorem split_newItems (h : db.Compiles d) (hb : d.UsesBuiltIns) (hl : l ∈ db.schema.lists)
    (hop : op = .create ∨ op = .update)
    (haccepts : ∀ e ∈ l.fields, (es.get e.1).isPresent = true → e.2.accepts op = true)
    (creates : String → Value → List String) {fields : List (String × Field)}
    (hfields : fields ⊆ l.fields) {all : List (String × Value)}
    (hall : Resolve.dataOutcomes op context es fields = all.map fun v => (v.1, .ok v.2))
    {c : Resolve.Changes}
    (hc : Resolve.split l op policy (all.filter fun e => !e.2.isUnset) = .ok c) :
    c.links.flatMap (fun e => (e.2.newItems.filter Value.isPresent).flatMap (creates e.1)) =
      fields.flatMap fun e => e.2.newItems es e.1 creates := by
  induction fields generalizing all c with
  | nil =>
    obtain rfl := List.map_eq_nil_iff.1 hall.symm
    cases hc
    rfl
  | cons field r ih =>
    obtain ⟨key, f⟩ := field
    obtain ⟨hf, hr⟩ := List.cons_subset.1 hfields
    rw [List.flatMap_cons]
    rw [Resolve.dataOutcomes, List.filterMap_cons] at hall
    dsimp only at hall ⊢
    split at hall
    · next hskip =>
      have habsent : (es.get key).isPresent = false := by
        by_contra hpresent
        rw [Bool.not_eq_false] at hpresent
        simp [haccepts _ hf hpresent, Value.isUnset_of_isPresent hpresent] at hskip
      rw [Field.newItems_of_not_isPresent habsent, List.nil_append]
      exact ih hr hall hc
    · next o ho =>
      split at ho
      · cases ho
      · next hsent =>
        cases ho
        obtain ⟨⟨key', v⟩, rest, rfl, heq, hrest⟩ := List.map_eq_cons_iff.1 hall.symm
        obtain ⟨rfl, hv⟩ := Prod.mk.inj heq
        have hf' : f.accepts op = true := by
          simp only [Bool.or_eq_true, Bool.not_eq_true', not_or] at hsent
          simpa using hsent.1
        cases hset : v.isUnset with
        | true =>
          rw [List.filter_cons_of_neg (by simp [hset])] at hc
          rw [h.newItems_of_isUnset hb hl hop hf hf' hv.symm hset, List.nil_append]
          exact ih hr hrest.symm hc
        | false =>
          rw [List.filter_cons_of_pos (by simp [hset])] at hc
          obtain ⟨here, later, hhere, hlater, rfl⟩ := Resolve.split_cons (h.field?_eq hl hf) hc
          rw [List.flatMap_append, ih hr hrest.symm hlater,
            h.change_newItems hb hl hop hf hf' hv.symm hset hhere creates]

/-- The new records of the changes of a write are those that the data ask for in the relations of
the list. -/
theorem changes_newItems (h : db.Compiles d) (hb : d.UsesBuiltIns) (hl : l ∈ db.schema.lists)
    (hop : op = .create ∨ op = .update) {c : Resolve.Changes}
    (hc : Resolve.changes l op policy context (.map es) = .ok c)
    (creates : String → Value → List String) :
    c.links.flatMap (fun e => (e.2.newItems.filter Value.isPresent).flatMap (creates e.1)) =
      l.relations.flatMap fun e => (e.2.mode.newItems (es.get e.1)).flatMap (creates e.1) := by
  obtain ⟨vs, hvs, hsplit⟩ := Except.bind_eq_ok.1 hc
  obtain ⟨_, ⟨⟩, all, rfl, hall⟩ := Resolve.data_ok hvs
  have haccepts : ∀ e ∈ l.fields, (es.get e.1).isPresent = true → e.2.accepts op = true :=
    fun e he hpresent => Resolve.accepts_of_get hvs (h.field?_eq hl he) hpresent
  rw [h.split_newItems hb hl hop haccepts creates (List.Subset.refl _) hall hsplit,
    ListType.flatMap_relations]
  rfl

end Database.Compiles

end RecordSchema
