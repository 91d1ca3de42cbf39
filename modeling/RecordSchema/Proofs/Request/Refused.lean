import RecordSchema.Proofs.Relation.Input
import RecordSchema.Proofs.Request.Columns
import RecordSchema.Proofs.Request.Mentioned
import RecordSchema.Proofs.Request.Named

/-!
# Refused writes

All data of a record are resolved, and all that they do to its links is
settled, before the first write. So data that are refused leave the
session as it was, and with it the store: an unknown key, a resolver
that fails or that gives what its field does not take, and input for a
relation that asks for nothing that can be done (`ListType.Refuses`).

When fields fail, one fault speaks for all of them (`SpeaksFor`). That
fault reaches the caller, since nothing comes between the fields and the
write.
-/

namespace RecordSchema

/-! ## Faults that speak for fields -/

/-- The fault that speaks for the faults of some fields: the first that is not one of resolution,
or a single one, or one that carries all of them. -/
inductive SpeaksFor (list : String) : List Fault → Fault → Prop where
  | other {before later : List Fault} {f : Fault} :
    (∀ g ∈ before, g.isResolution = true) → f.isResolution = false →
      SpeaksFor list (before ++ f :: later) f
  | single {f : Fault} : f.isResolution = true → SpeaksFor list [f] f
  | several {fs : List Fault} : (∀ g ∈ fs, g.isResolution = true) → 2 ≤ fs.length →
      SpeaksFor list fs (.resolution [list] (.several fs.length) fs)

/-- Outcomes with faults are not gathered: the fault that speaks for them is. -/
theorem gather_error {κ α : Type} (list : String) {os : List (Outcome κ α)}
    (h : Outcome.faults os ≠ []) :
    ∃ e, SpeaksFor list (Outcome.faults os) e ∧ gather list os = .error e := by
  unfold gather
  generalize Outcome.faults os = fs at h
  dsimp only
  split
  · next f hother =>
    obtain ⟨hf, before, later, rfl, hbefore⟩ := List.find?_eq_some_iff_append.1 hother
    refine ⟨f, .other (fun g hg => ?_) (by simpa using hf), rfl⟩
    simpa using hbefore g hg
  · next hnone =>
    have hall : ∀ g ∈ fs, g.isResolution = true := by simpa using List.find?_eq_none.1 hnone
    match fs, h with
    | [f], _ => exact ⟨f, .single (hall f List.mem_cons_self), rfl⟩
    | f :: g :: r, _ => exact ⟨_, .several hall (Nat.le_add_left 2 r.length), rfl⟩

/-! ## Why data are refused -/

/-- Whether a key names a field that takes input for the operation. -/
def ListType.Takes (l : ListType) (op : Operation) (k : Value) : Prop :=
  ∃ key f, k = .text key ∧ (key, f) ∈ l.fields ∧ f.accepts op = true

/-- Whether a field has a say in a write: it takes input, and is sent or may compute its value. -/
def Field.IsAsked (f : Field) (op : Operation) (v : Value) : Prop :=
  f.accepts op = true ∧ (v.isUnset = false ∨ op = .create)

instance (f : Field) (op : Operation) (v : Value) : Decidable (f.IsAsked op v) :=
  inferInstanceAs (Decidable (_ ∧ _))

/-- What a field gives for an input, before it is known to conform. -/
def FieldInput.give (i : FieldInput) (v context : Value) : Except Fault Value :=
  match i.resolve with
  | none => .ok v
  | some g => g { value := v, context }

/-- Why the input of a relation is refused: a verb that the operation does not have, two verbs for
one link, or `set` beside another verb where it must stand alone. -/
inductive Cardinality.Refuses (op : Operation) (policy : SetPolicy) :
    Cardinality → Value.Entries → Prop where
  | oneUnsupported {es : Value.Entries} {e : Value × Value} : e ∈ es →
      (∀ verb ∈ OneVerb.allowed op, e.1 ≠ .text (Spelled.spelling verb)) → Refuses op policy .one es
  | oneAmbiguous {es : Value.Entries} {a b : OneVerb} : a ∈ OneVerb.allowed op →
      b ∈ OneVerb.allowed op → a ≠ b → a.isAsked es = true → b.isAsked es = true →
      Refuses op policy .one es
  | manyUnsupported {es : Value.Entries} {e : Value × Value} : e ∈ es →
      (∀ verb ∈ ManyPlan.allowed op, e.1 ≠ .text (Spelled.spelling verb)) →
      Refuses op policy .many es
  | manyAmbiguous {es : Value.Entries} {verb : ManyVerb} {v : Value} {vs : List Value} :
      policy = .reject → (es.get "set").isPresent = true → verb ≠ .set →
      verb ∈ ManyPlan.allowed op →
      ManyPlan.membersOf (es.get (Spelled.spelling verb)) = .ok (v :: vs) →
      Refuses op policy .many es

/-- Why the data of a write are refused. -/
inductive ListType.Refuses (l : ListType) (op : Operation) (policy : SetPolicy) (context : Value) :
    Value → Prop where
  | unaccepted {data : Value} {keys : List Value} {k : Value} :
      ManyPlan.membersOf data = .ok keys → k ∈ keys → ¬ l.Takes op k → Refuses l op policy context data
  | failing {es : Value.Entries} {key : String} {f : Field} {i : FieldInput} {e : Fault} :
      (key, f) ∈ l.fields → f.IsAsked op (es.get key) → f.input? op = some i →
      i.give (es.get key) context = .error e → Refuses l op policy context (.map es)
  | nonconforming {es : Value.Entries} {key : String} {f : Field} {i : FieldInput} {v : Value} :
      (key, f) ∈ l.fields → f.IsAsked op (es.get key) → f.input? op = some i →
      i.give (es.get key) context = .ok v → (f.shape op).conforms v = false →
      Refuses l op policy context (.map es)
  | relation {es input : Value.Entries} {key : String} {f : Field} {r : RelationField} :
      (key, f) ∈ l.fields → f.IsAsked op (es.get key) → f.storage = .relation r →
      f.resolveInput op (es.get key) context = .ok (.map input) → r.mode.Refuses op policy input →
      Refuses l op policy context (.map es)

/-- The fault of a field that fails. -/
def Field.fault? (f : Field) (op : Operation) (v context : Value) : Option Fault :=
  match f.resolveInput op v context with
  | .ok _ => none
  | .error e => some e

/-- The faults of the fields that have a say in a write, in the order of the fields. -/
def ListType.faults (l : ListType) (op : Operation) (context : Value) (es : Value.Entries) :
    List Fault :=
  l.fields.filterMap fun e =>
    if e.2.IsAsked op (es.get e.1) then e.2.fault? op (es.get e.1) context else none

namespace Resolve

variable {l : ListType} {op : Operation} {policy : SetPolicy} {context : Value}

/-! ## Keys -/

theorem isSome_accepting? (hl : (l.fields.map Prod.fst).Nodup) {k : Value} :
    (l.accepting? op k).isSome ↔ l.Takes op k := by
  constructor
  · intro h
    obtain ⟨f, hf⟩ := Option.isSome_iff_exists.1 h
    unfold ListType.accepting? at hf
    split at hf
    · next key =>
      obtain ⟨hlookup, haccepts⟩ := Option.filter_eq_some_iff.1 hf
      exact ⟨key, f, rfl, Keys.mem_of_lookup hlookup, haccepts⟩
    · cases hf
  · rintro ⟨key, f, rfl, hf, haccepts⟩
    have hlookup : l.field? key = some f := Keys.lookup_of_mem hl hf
    simp only [ListType.accepting?, hlookup, Option.filter, haccepts, if_true, Option.isSome_some]

/-- Data are resolved only when all their keys are taken. -/
theorem unknownKeys_eq_nil (hl : (l.fields.map Prod.fst).Nodup) {keys : List Value} :
    unknownKeys l op keys = [] ↔ ∀ k ∈ keys, l.Takes op k := by
  simp only [unknownKeys, List.filter_eq_nil_iff, Option.isNone_iff_eq_none, ← isSome_accepting? hl,
    Option.isSome_iff_ne_none, ne_eq]

/-- Data that are resolved name only fields that take them. -/
theorem takes_of_data (hl : (l.fields.map Prod.fst).Nodup) {data : Value}
    {vs : List (String × Value)} (h : Resolve.data l op context data = .ok vs) {keys : List Value}
    (hkeys : ManyPlan.membersOf data = .ok keys) {k : Value} (hk : k ∈ keys) : l.Takes op k := by
  obtain ⟨es, hes, -⟩ := Except.bind_eq_ok.1 h
  simp only [dataEntries, hkeys, Except.bind_eq_ok, Except.ok.injEq] at hes
  obtain ⟨_, rfl, hes⟩ := hes
  refine (unknownKeys_eq_nil hl).1 ?_ k hk
  split at hes
  · assumption
  · assumption
  · exact absurd hes Except.throw_ne_ok

/-! ## Fields -/

theorem resolveInput_ne_ok_of_failing {f : Field} {i : FieldInput} (hi : f.input? op = some i)
    {v : Value} {e : Fault} (h : i.give v context = .error e) (result : Value) :
    f.resolveInput op v context ≠ .ok result := by
  unfold FieldInput.give at h
  unfold Field.resolveInput
  rw [hi]
  cases hg : i.resolve with
  | none =>
    rw [hg] at h
    cases h
  | some g =>
    simp only [hg] at h ⊢
    rw [h]
    nofun

theorem resolveInput_ne_ok_of_nonconforming {f : Field} {i : FieldInput}
    (hi : f.input? op = some i) {v given : Value} (h : i.give v context = .ok given)
    (hshape : (f.shape op).conforms given = false) (result : Value) :
    f.resolveInput op v context ≠ .ok result := by
  unfold FieldInput.give at h
  unfold Field.resolveInput
  rw [hi]
  cases hg : i.resolve with
  | none =>
    simp only [hg] at h ⊢
    cases h
    simp [hshape, bind, Except.bind, pure, Except.pure]
  | some g =>
    simp only [hg] at h ⊢
    rw [h]
    simp [hshape, bind, Except.bind, Except.mapError]

/-- Data are resolved only when every field that has a say gives a value. -/
theorem exists_ok_of_data {es : Value.Entries} {vs : List (String × Value)}
    (h : Resolve.data l op context (.map es) = .ok vs) {key : String} {f : Field}
    (hf : (key, f) ∈ l.fields) (hasked : f.IsAsked op (es.get key)) :
    ∃ v, f.resolveInput op (es.get key) context = .ok v ∧ (v.isUnset = false → (key, v) ∈ vs) := by
  obtain ⟨_, ⟨⟩, all, rfl, hall⟩ := data_ok h
  have ho : (key, f.resolveInput op (es.get key) context) ∈ dataOutcomes op context es l.fields :=
    mem_dataOutcomes.2 ⟨f, hf, hasked.1, hasked.2, rfl⟩
  rw [hall] at ho
  obtain ⟨⟨k, v⟩, hmem, heq⟩ := List.mem_map.1 ho
  obtain ⟨rfl, hv⟩ := Prod.mk.inj heq
  exact ⟨v, hv.symm, fun hset => List.mem_filter.2 ⟨hmem, by simp [hset]⟩⟩

/-! ## Relations -/

/-- Input that is accepted has no keys but verbs. -/
theorem exists_verb {α : Type} [Spelled α] {verbs : List α} {es : Value.Entries}
    (h : RecordSchema.unknownKeys (verbs.map Spelled.spelling) es = []) {e : Value × Value}
    (he : e ∈ es) : ∃ verb ∈ verbs, e.1 = .text (Spelled.spelling verb) := by
  by_contra hnone
  have hmem : e.1 ∈ RecordSchema.unknownKeys (verbs.map Spelled.spelling) es := by
    refine mem_unknownKeys.2 ⟨List.mem_map_of_mem he, fun verb hverb hkey => ?_⟩
    exact hnone ⟨verb, hverb, hkey⟩
  rw [h] at hmem
  cases hmem

theorem one_ne_ok {input : Value.Entries} (h : Cardinality.one.Refuses op policy input)
    (a : Option OneAction) : OneAction.ofValue? op (.map input) ≠ .ok a := by
  intro ha
  replace ha : OneAction.ofEntries? op input = .ok a := ha
  have hknown : RecordSchema.unknownKeys ((OneVerb.allowed op).map Spelled.spelling) input = [] := by
    cases a with
    | none => exact (OneAction.ofEntries?_none ha).1
    | some a => exact (OneAction.ofEntries?_some ha).1
  cases h with
  | oneUnsupported he hno =>
    obtain ⟨verb, hverb, hkey⟩ := exists_verb hknown he
    exact hno verb hverb hkey
  | oneAmbiguous hv hw hne hasked hasked' =>
    cases a with
    | none => exact Bool.false_ne_true (((OneAction.ofEntries?_none ha).2 _ hv).symm.trans hasked)
    | some a =>
      obtain ⟨-, -, honly⟩ := OneAction.ofEntries?_some ha
      exact hne (((honly _ hv).1 hasked).trans ((honly _ hw).1 hasked').symm)

theorem set_mem_allowed {input : Value.Entries}
    (h : RecordSchema.unknownKeys ((ManyPlan.allowed op).map Spelled.spelling) input = [])
    (hpresent : (input.get "set").isPresent = true) : .set ∈ ManyPlan.allowed op := by
  obtain ⟨verb, hverb, hkey⟩ :=
    exists_verb h (Value.Entries.mem_of_get (Value.isUnset_of_isPresent hpresent))
  cases verb with
  | set => exact hverb
  | _ => exact absurd (Value.text.inj hkey) (by decide)

/-- The items of a verb that the operation has are the members of what is given. -/
theorem itemsOf_of_isPresent {input : Value.Entries} {verb : ManyVerb}
    (hallowed : verb ∈ ManyPlan.allowed op)
    (h : (input.get (Spelled.spelling verb)).isPresent = true) :
    ManyPlan.itemsOf op input verb =
      (ManyPlan.membersOf (input.get (Spelled.spelling verb))).map some := by
  rw [ManyPlan.itemsOf, List.contains_iff_mem.2 hallowed, h]
  rfl

theorem isPresent_of_membersOf {v : Value} {items : List Value}
    (h : ManyPlan.membersOf v = .ok items) : v.isPresent = true := by
  cases v <;> first | rfl | cases h

theorem many_ne_ok {input : Value.Entries} (h : Cardinality.many.Refuses op policy input)
    (p : ManyPlan) : ManyPlan.ofValue op policy (.map input) ≠ .ok p := by
  intro hp
  obtain ⟨hknown, hset, hdisconnect, hconnect, hcreate, halone⟩ := ManyPlan.ofEntries_ok hp
  cases h with
  | manyUnsupported he hno =>
    obtain ⟨verb, hverb, hkey⟩ := exists_verb hknown he
    exact hno verb hverb hkey
  | @manyAmbiguous _ verb v vs hpolicy hpresent hne hallowed hitems =>
    rw [itemsOf_of_isPresent (set_mem_allowed hknown hpresent) hpresent] at hset
    obtain ⟨items, -, hsome⟩ := Except.map_eq_ok.1 hset
    have hempty := halone hpolicy (by rw [← hsome, Option.isSome_some])
    have hgiven : (ManyPlan.itemsOf op input verb).map (·.getD []) = .ok (v :: vs) := by
      rw [itemsOf_of_isPresent hallowed (isPresent_of_membersOf hitems), hitems]
      rfl
    -- Whichever verb it is, the plan has its items beside the set.
    cases verb with
    | set => exact hne rfl
    | disconnect =>
      rw [← Except.ok.inj (hgiven.symm.trans hdisconnect)] at hempty
      cases hc : p.connect <;> rw [hc] at hempty <;> cases hempty
    | connect =>
      rw [← Except.ok.inj (hgiven.symm.trans hconnect)] at hempty
      cases hempty
    | create =>
      rw [← Except.ok.inj (hgiven.symm.trans hcreate)] at hempty
      cases hc : p.connect <;> cases hdis : p.disconnect <;> rw [hc, hdis] at hempty <;> cases hempty

/-- Input for a relation that is refused changes no links. -/
theorem change_ne_ok {key : String} {r : RelationField} {input : Value.Entries}
    (h : r.mode.Refuses op policy input) (c : Changes) :
    change op policy key (.relation r) (.map input) ≠ .ok c := by
  intro hc
  simp only [change] at hc
  split at hc
  · next hmode =>
    rw [hmode] at h
    obtain ⟨a, ha, -⟩ := Except.bind_eq_ok.1 hc
    exact one_ne_ok h a ha
  · next hmode =>
    rw [hmode] at h
    obtain ⟨p, hp, -⟩ := Except.bind_eq_ok.1 hc
    exact many_ne_ok h p hp

/-- Resolved data are split only when every value of a field changes something. -/
theorem exists_change_of_split {vs : List (String × Value)} {c : Changes}
    (h : split l op policy vs = .ok c) {key : String} {v : Value} (hv : (key, v) ∈ vs) {f : Field}
    (hf : l.field? key = some f) : ∃ here, change op policy key f.storage v = .ok here := by
  obtain ⟨before, later, rfl⟩ := List.append_of_mem hv
  obtain ⟨_, rest, -, hrest, -⟩ := split_append h
  obtain ⟨here, -, hhere, -⟩ := split_cons hf hrest
  exact ⟨here, hhere⟩

/-- Data that are refused change nothing. -/
theorem changes_ne_ok (hl : (l.fields.map Prod.fst).Nodup) {data : Value}
    (h : l.Refuses op policy context data) (c : Changes) :
    changes l op policy context data ≠ .ok c := by
  intro hc
  obtain ⟨vs, hvs, hsplit⟩ := Except.bind_eq_ok.1 hc
  cases h with
  | unaccepted hkeys hk hnot => exact hnot (takes_of_data hl hvs hkeys hk)
  | failing hf hasked hi hfails =>
    obtain ⟨v, hv, -⟩ := exists_ok_of_data hvs hf hasked
    exact resolveInput_ne_ok_of_failing hi hfails v hv
  | nonconforming hf hasked hi hgives hshape =>
    obtain ⟨v, hv, -⟩ := exists_ok_of_data hvs hf hasked
    exact resolveInput_ne_ok_of_nonconforming hi hgives hshape v hv
  | @relation es input key f r hf hasked hr hresolve hrefuses =>
    obtain ⟨v, hv, hmem⟩ := exists_ok_of_data hvs hf hasked
    obtain rfl := Except.ok.inj (hresolve.symm.trans hv)
    obtain ⟨here, hhere⟩ := exists_change_of_split hsplit (hmem rfl) (Keys.lookup_of_mem hl hf)
    rw [hr] at hhere
    exact change_ne_ok hrefuses here hhere

/-! ## Several faults -/

theorem faults_dataOutcomes (l : ListType) (op : Operation) (context : Value)
    (es : Value.Entries) :
    Outcome.faults (dataOutcomes op context es l.fields) = l.faults op context es := by
  rw [Outcome.faults, dataOutcomes, List.filterMap_filterMap, ListType.faults]
  refine List.filterMap_congr fun e _ => ?_
  obtain ⟨key, f⟩ := e
  have hasked : (!f.accepts op || (es.get key).isUnset && op != .create) = true ↔
      ¬ f.IsAsked op (es.get key) := by
    cases hf : f.accepts op <;> cases hset : (es.get key).isUnset <;>
      simp [Field.IsAsked, hf, hset]
  dsimp only
  by_cases h : f.IsAsked op (es.get key)
  · rw [if_neg (hasked.not.2 (not_not.2 h)), if_pos h, Option.bind_some, Field.fault?,
      Outcome.fault?]
    cases f.resolveInput op (es.get key) context <;> rfl
  · rw [if_pos (hasked.2 h), if_neg h]
    rfl

/-- Where all keys are taken and fields fail, the fault that speaks for them is what is left of
the data. -/
theorem changes_error (hl : (l.fields.map Prod.fst).Nodup) {es : Value.Entries}
    (hkeys : ∀ e ∈ es, l.Takes op e.1) (h : l.faults op context es ≠ []) :
    ∃ e, SpeaksFor l.key (l.faults op context es) e ∧
      changes l op policy context (.map es) = .error e := by
  rw [← faults_dataOutcomes] at h ⊢
  obtain ⟨e, hspeaks, hgather⟩ := gather_error l.key h
  have hknown : unknownKeys l op (es.map Prod.fst) = [] := by
    refine (unknownKeys_eq_nil hl).2 fun k hk => ?_
    obtain ⟨entry, hentry, rfl⟩ := List.mem_map.1 hk
    exact hkeys entry hentry
  have hentries : dataEntries l op (.map es) = .ok es := by
    simp only [dataEntries, ManyPlan.membersOf, bind, Except.bind, hknown]
    rfl
  refine ⟨e, hspeaks, ?_⟩
  rw [changes, Resolve.data, hentries]
  change (gather l.key (dataOutcomes op context es l.fields) >>= _) >>= _ = _
  rw [hgather]
  rfl

end Resolve

/-! ## Writes -/

namespace Worker

variable {w : Worker} {d : Declarations} {s : Session} {l : ListType} {filter data : Value}
  {e : Fault}

/-- Data that change nothing create nothing. -/
theorem create_refused (hl : w.db.schema.list? l.key = some l)
    (h : Resolve.changes l .create w.setPolicy w.context data = .error e) :
    (w.create l.key data).outcome s = (.error e, s) := by
  have hcolumns : (w.insertColumns l.key data).outcome s = (.error e, s) := by
    rw [insertColumns, (listOf_yields.2 ⟨hl, rfl⟩).outcome_bind]
    exact Work.outcome_bind_error (by rw [h, Work.outcome_ofExcept])
  exact Work.outcome_bind_error (Work.outcome_bind_error hcolumns)

/-- Data that change nothing update nothing. -/
theorem update_refused (hl : w.db.schema.list? l.key = some l) {id : Int}
    (hid : w.Names s l.key filter id)
    (h : Resolve.changes l .update w.setPolicy w.context data = .error e) :
    (w.update l.key filter data).outcome s = (.error e, s) := by
  have hcolumns : (w.changeColumns l.key id data).outcome s = (.error e, s) := by
    rw [changeColumns, (listOf_yields.2 ⟨hl, rfl⟩).outcome_bind]
    exact Work.outcome_bind_error (by rw [h, Work.outcome_ofExcept])
  obtain ⟨before, hbefore⟩ : ∃ before, (w.recordOf l.key id).Yields s before s := ⟨_, rfl⟩
  rw [update, (require_yields.2 ⟨hid, rfl⟩).outcome_bind, hbefore.outcome_bind]
  exact Work.outcome_bind_error hcolumns

/-- Where no record is found, none is updated. -/
theorem update_missing {list : String} {unique : Value.Entries}
    (hunique : Resolve.identify w.db.schema w.context list filter = .ok unique)
    (hnone : w.db.findOne s.store list unique = .ok none) :
    (w.update list filter data).outcome s = (.error (notFound list filter), s) := by
  have hfind : (w.find list filter).Yields s none s :=
    find_yields.2 ⟨⟨unique, hunique, hnone⟩, rfl⟩
  refine Work.outcome_bind_error ?_
  rw [require, hfind.outcome_bind]
  rfl

end Worker

/-- Writes whose data are refused, and updates that find no record, end in a fault and leave the
session as it was. Where fields fail, the fault is the one that speaks for them. -/
theorem Database.Compiles.refused {w : Worker} {d : Declarations} (hd : w.db.Compiles d)
    {l : ListType} (hl : l ∈ w.db.schema.lists) (s : Session) :
    (∀ data, l.Refuses .create w.setPolicy w.context data →
      ∃ e, (w.create l.key data).outcome s = (.error e, s)) ∧
    (∀ filter data, l.Refuses .update w.setPolicy w.context data →
      ∃ e, (w.update l.key filter data).outcome s = (.error e, s)) ∧
    (∀ filter data unique, Resolve.identify w.db.schema w.context l.key filter = .ok unique →
      w.db.findOne s.store l.key unique = .ok none →
      (w.update l.key filter data).outcome s = (.error (Worker.notFound l.key filter), s)) ∧
    (∀ es, (∀ e ∈ es, l.Takes .create e.1) → l.faults .create w.context es ≠ [] →
      ∃ e, SpeaksFor l.key (l.faults .create w.context es) e ∧
        (w.create l.key (.map es)).outcome s = (.error e, s)) ∧
    (∀ filter id es, w.Names s l.key filter id → (∀ e ∈ es, l.Takes .update e.1) →
      l.faults .update w.context es ≠ [] →
      ∃ e, SpeaksFor l.key (l.faults .update w.context es) e ∧
        (w.update l.key filter (.map es)).outcome s = (.error e, s)) := by
  have hnames := hd.fields_nodup hl
  have hlist := hd.list?_eq hl
  have herror {op : Operation} {data : Value}
      (h : l.Refuses op w.setPolicy w.context data) :
      ∃ e, Resolve.changes l op w.setPolicy w.context data = .error e := by
    cases hc : Resolve.changes l op w.setPolicy w.context data with
    | ok c => exact absurd hc (Resolve.changes_ne_ok hnames h c)
    | error e => exact ⟨e, rfl⟩
  refine ⟨fun data h => ?create, fun filter data h => ?update, fun filter data unique hu hnone =>
    Worker.update_missing hu hnone, fun es hkeys hfaults => ?createFaults,
    fun filter id es hid hkeys hfaults => ?updateFaults⟩
  case create =>
    obtain ⟨e, he⟩ := herror h
    exact ⟨e, Worker.create_refused hlist he⟩
  case update =>
    obtain ⟨e, he⟩ := herror h
    have hreads := w.require_reads l.key filter s
    rcases ho : (w.require l.key filter).outcome s with ⟨r, m⟩
    rw [ho] at hreads
    obtain rfl : m = s := hreads
    cases r with
    | error e' => exact ⟨e', Work.outcome_bind_error ho⟩
    | ok id => exact ⟨e, Worker.update_refused hlist (Worker.require_yields.1 ho).1 he⟩
  case createFaults =>
    obtain ⟨e, hspeaks, he⟩ := Resolve.changes_error hnames hkeys hfaults
    exact ⟨e, hspeaks, Worker.create_refused hlist he⟩
  case updateFaults =>
    obtain ⟨e, hspeaks, he⟩ := Resolve.changes_error hnames hkeys hfaults
    exact ⟨e, hspeaks, Worker.update_refused hlist hid he⟩

/-! ## Tickets -/

/-- A text that a resolver gives, whatever is sent. -/
def givenText (give : Except Fault Value) : FieldSpec where
  build _ :=
    let input : FieldInput :=
      { arg := some { type := .optional (.scalar .text) }, resolve := some fun _ => give }
    .ok {
      storage := .scalar { scalar := .text }
      inputs := [(.operation .create, input), (.operation .update, input)] }

/-- Tickets with a resolver that fails and one that gives no text. -/
def tickets : Declarations :=
  ({} : Declarations).declare {
    key := "Ticket"
    specs := [("title", .scalar .text {}), ("code", givenText (.error (.host "no code"))),
      ("seal", givenText (.ok (.int 1))), ("parent", .relationship { ref := "Ticket" })] }

def ticketWorker : Worker where
  db := tickets.database.result
  setPolicy := .reject

def ticketSession : Session where
  store := { tables := [("Ticket", [⟨1, [("title", .text "A")]⟩])] }
  supply := blogSupply

/-- The filter on an id. -/
def ticketOf (id : Int) : Value :=
  .map [(.text "id", .int id)]

/-- What is sent with a code and a seal. -/
def sealedTicket : Value.Entries :=
  [(.text "code", .text "c"), (.text "seal", .text "s")]

/-- The facts about tickets that are evaluated, in one go. -/
theorem tickets_facts : tickets.database.isOk = true ∧
    (∃ l ∈ ticketWorker.db.schema.lists, l.key = "Ticket" ∧
      (l.accepting? .create (.text "colour")).isSome = false ∧
      (l.accepting? .update (.text "colour")).isSome = false ∧
      (l.faults .create .null []).length = 2 ∧
      (∀ e ∈ sealedTicket, (l.accepting? .update e.1).isSome = true) ∧
      (l.faults .update .null sealedTicket).length = 2) ∧
    ((ticketWorker.find "Ticket" (ticketOf 2)).outcome ticketSession).1.toOption.map (·.isNone) =
      some true ∧
    ((ticketWorker.require "Ticket" (ticketOf 1)).outcome ticketSession).1.isOk = true := by
  decide +kernel

theorem tickets_compiles : tickets.database.result.Compiles tickets :=
  Declarations.Declared.compiles (.declare (.start _ _ _) (by decide)) tickets_facts.1

/-- Tickets of a colour, other tickets than there are, and tickets for which both resolvers run are
refused. -/
theorem refused_tickets : ∃ l ∈ ticketWorker.db.schema.lists, l.key = "Ticket" ∧
    (∃ e, (ticketWorker.create "Ticket" (.map [(.text "colour", .text "red")])).outcome
      ticketSession = (.error e, ticketSession)) ∧
    (∃ e, (ticketWorker.update "Ticket" (ticketOf 1) (.map [(.text "colour", .text "red")])).outcome
      ticketSession = (.error e, ticketSession)) ∧
    (ticketWorker.update "Ticket" (ticketOf 2) (.map [])).outcome ticketSession =
      (.error (Worker.notFound "Ticket" (ticketOf 2)), ticketSession) ∧
    (∃ e, SpeaksFor "Ticket" (l.faults .create .null []) e ∧
      (ticketWorker.create "Ticket" (.map [])).outcome ticketSession = (.error e, ticketSession)) ∧
    (∃ e, SpeaksFor "Ticket" (l.faults .update .null sealedTicket) e ∧
      (ticketWorker.update "Ticket" (ticketOf 1) (.map sealedTicket)).outcome ticketSession =
        (.error e, ticketSession)) := by
  obtain ⟨-, ⟨l, hl, hkey, hcreate, hupdate, hfaults, htakes, hsent⟩, hfind, hrequire⟩ :=
    tickets_facts
  have hd : ticketWorker.db.Compiles tickets := tickets_compiles
  have hnames := hd.fields_nodup hl
  have hnot {op : Operation} {k : Value} (h : (l.accepting? op k).isSome = false) :
      ¬ l.Takes op k := fun ht =>
    Bool.false_ne_true (h.symm.trans ((Resolve.isSome_accepting? hnames).2 ht))
  have hcolour {op : Operation} (h : (l.accepting? op (.text "colour")).isSome = false) :
      l.Refuses op .reject .null (.map [(.text "colour", .text "red")]) :=
    .unaccepted rfl List.mem_cons_self (hnot h)
  obtain ⟨id, s', hid⟩ := Work.exists_yields hrequire
  obtain ⟨none?, hrow, hnone⟩ := Option.map_eq_some_iff.1 hfind
  obtain rfl := Option.isNone_iff_eq_none.1 hnone
  obtain ⟨⟨unique, hu, hr⟩, -⟩ := Worker.find_yields.1
    (Prod.ext (Except.eq_ok_of_toOption hrow) rfl : Work.Yields _ _ none _)
  obtain ⟨h₁, h₂, h₃, h₄, h₅⟩ := hd.refused hl ticketSession
  refine ⟨l, hl, hkey, ?_⟩
  rw [hkey] at h₁ h₂ h₃ h₄ h₅
  refine ⟨h₁ _ (hcolour hcreate), h₂ _ _ (hcolour hupdate), h₃ _ _ unique hu hr,
    h₄ [] nofun ?_, h₅ _ id _ (Worker.require_yields.1 hid).1
      (fun e he => (Resolve.isSome_accepting? hnames).1 (htakes e he)) ?_⟩
  · exact List.length_pos_iff.1 (hfaults ▸ Nat.two_pos)
  · exact List.length_pos_iff.1 (hsent ▸ Nat.two_pos)

end RecordSchema
