import RecordSchema.Proofs.Relation.Input

/-!
# The verbs of a relation to many

What becomes of the input of a relation to many. A verb may be left out,
be null, name nothing, or name some items, and all four are different. A
key besides the verbs of the operation is refused first
(`ManyPlan.HasUnknown`); then, where the policy asks for it, `set` beside
a verb that names something (`ManyPlan.Combines`). All other input is a
plan, whose steps are the verbs that were given with just their items:
`set` in front, even when it names nothing, and then `disconnect`,
`connect` and `create`, each only when it names something.
-/

namespace RecordSchema

namespace ManyVerb

/-- The verbs of creation and of updates. A new record has no links that could be
taken away. -/
inductive Serves : ManyVerb → Operation → Prop
  | connect (op : Operation) : Serves .connect op
  | create (op : Operation) : Serves .create op
  | disconnect : Serves .disconnect .update
  | set : Serves .set .update

/-- The items given under a verb, none when it is null or not sent. -/
def items? (es : Value.Entries) (verb : ManyVerb) : Option (List Value) :=
  (es.get (Spelled.spelling verb)).items?

theorem spelling_inj {a b : ManyVerb} (h : Spelled.spelling a = Spelled.spelling b) : a = b := by
  cases a <;> cases b <;> first | rfl | exact absurd h (by decide)

end ManyVerb

namespace ManyPlan

open ManyVerb (items?)

variable {op : Operation} {es : Value.Entries} {verb : ManyVerb}
  {vs : List Value} {p : ManyPlan}

/-- Whether a mapping has a key besides the verbs of an operation. -/
def HasUnknown (op : Operation) (es : Value.Entries) : Prop :=
  ∃ e ∈ es, ∀ verb : ManyVerb, verb.Serves op → e.1 ≠ .text (Spelled.spelling verb)

/-- Whether a mapping gives `set`, and names something under another verb. -/
def Combines (es : Value.Entries) : Prop :=
  (items? es .set).isSome = true ∧
    ∃ verb vs, verb ≠ .set ∧ items? es verb = some vs ∧ vs ≠ []

/-- The order in which verbs are applied. -/
def order : List ManyVerb := [.set, .disconnect, .connect, .create]

/-! ## Keys -/

theorem mem_allowed (hop : op = .create ∨ op = .update) : verb ∈ allowed op ↔ verb.Serves op := by
  rcases hop with rfl | rfl
  · cases verb with
    | connect => exact iff_of_true (by decide) (.connect _)
    | create => exact iff_of_true (by decide) (.create _)
    | set | disconnect => exact iff_of_false (by decide) nofun
  · cases verb <;> exact iff_of_true (by decide) (by constructor)

theorem hasUnknown_iff (hop : op = .create ∨ op = .update) :
    HasUnknown op es ↔ ∃ k, k ∈ unknownKeys ((allowed op).map Spelled.spelling) es := by
  simp only [mem_unknownKeys, mem_allowed hop, List.mem_map]
  constructor
  · rintro ⟨e, he, hkey⟩
    exact ⟨e.1, ⟨e, he, rfl⟩, hkey⟩
  · rintro ⟨_, ⟨e, he, rfl⟩, hkey⟩
    exact ⟨e, he, hkey⟩

/-! ## Items -/

theorem membersOf_of_items? {v : Value} (h : v.items? = some vs) :
    membersOf v = .ok vs ∧ v.isPresent = true := by
  cases v <;> cases h <;> exact ⟨rfl, rfl⟩

/-- Without unknown keys, only verbs of the operation are given. -/
theorem allowed_of_items? (hop : op = .create ∨ op = .update) (hknown : ¬ HasUnknown op es)
    (h : items? es verb = some vs) : verb ∈ allowed op := by
  obtain ⟨-, hpresent⟩ := membersOf_of_items? h
  have hkey := Value.Entries.mem_of_get (Value.isUnset_of_isPresent hpresent)
  by_contra hnot
  refine hknown ⟨_, hkey, fun other hother heq => hnot ?_⟩
  have hverb : verb = other := ManyVerb.spelling_inj (Value.text.inj heq)
  exact hverb ▸ (mem_allowed hop).2 hother

/-- In a mapping of lists, a verb without items is absent. -/
theorem isPresent_of_items? (hlists : ∀ e ∈ es, e.2.isPresent = true → e.2.items?.isSome = true)
    (h : items? es verb = none) : (es.get (Spelled.spelling verb)).isPresent = false := by
  by_contra hpresent
  rw [Bool.not_eq_false] at hpresent
  have hkey := Value.Entries.mem_of_get (Value.isUnset_of_isPresent hpresent)
  have hsome : (items? es verb).isSome = true := hlists _ hkey hpresent
  rw [h] at hsome
  cases hsome

theorem itemsOf_eq (hop : op = .create ∨ op = .update)
    (hlists : ∀ e ∈ es, e.2.isPresent = true → e.2.items?.isSome = true)
    (hknown : ¬ HasUnknown op es) (verb : ManyVerb) : itemsOf op es verb = .ok (items? es verb) := by
  cases hitems : items? es verb with
  | none =>
    rw [itemsOf, isPresent_of_items? hlists hitems, Bool.and_false, if_neg Bool.false_ne_true]
  | some vs =>
    have hallowed : (allowed op).contains verb = true :=
      List.contains_iff_mem.2 (allowed_of_items? hop hknown hitems)
    obtain ⟨hmembers, hpresent⟩ := membersOf_of_items? hitems
    rw [itemsOf, hallowed, hpresent, Bool.and_self, if_pos rfl, hmembers]
    rfl

/-- The plan that does what a mapping gives. -/
def ofGiven (es : Value.Entries) : ManyPlan where
  set := items? es .set
  disconnect := (items? es .disconnect).getD []
  connect := (items? es .connect).getD []
  create := (items? es .create).getD []

theorem others_eq_nil {connect disconnect create : List Value} :
    others connect disconnect create = [] ↔ connect = [] ∧ disconnect = [] ∧ create = [] := by
  cases connect <;> cases disconnect <;> cases create <;> simp [others]

theorem combines_iff : Combines es ↔ ((ofGiven es).set.isSome &&
    !(others (ofGiven es).connect (ofGiven es).disconnect (ofGiven es).create).isEmpty) = true := by
  have hnamed (verb : ManyVerb) :
      (items? es verb).getD [] ≠ [] ↔ ∃ vs, items? es verb = some vs ∧ vs ≠ [] := by
    cases items? es verb <;> simp
  rw [Bool.and_eq_true, Bool.not_eq_true', ← Bool.not_eq_true, List.isEmpty_iff, others_eq_nil]
  refine and_congr_right fun _ => ⟨?_, fun h => ?_⟩
  · rintro ⟨verb, vs, hverb, hgiven, hne⟩ ⟨hconnect, hdisconnect, hcreate⟩
    have hsome := (hnamed verb).2 ⟨vs, hgiven, hne⟩
    cases verb with
    | set => exact hverb rfl
    | disconnect => exact hsome hdisconnect
    | connect => exact hsome hconnect
    | create => exact hsome hcreate
  · by_contra hnone
    have hnil (verb : ManyVerb) (hverb : verb ≠ .set) : (items? es verb).getD [] = [] := by
      by_contra hne
      obtain ⟨vs, hgiven, hvs⟩ := (hnamed verb).1 hne
      exact hnone ⟨verb, vs, hverb, hgiven, hvs⟩
    exact h ⟨hnil .connect nofun, hnil .disconnect nofun, hnil .create nofun⟩

/-! ## Outcomes -/

/-- Unknown keys are refused by name, and nothing else is looked at. -/
theorem ofValue_unknown (hop : op = .create ∨ op = .update) (policy : SetPolicy)
    (h : HasUnknown op es) :
    ∃ keys, ofValue op policy (.map es) = .error (.query (.relationKeys .many op keys)) ∧
      ∀ k, k ∈ keys ↔ k ∈ es.map Prod.fst ∧
        ∀ verb : ManyVerb, verb.Serves op → k ≠ .text (Spelled.spelling verb) := by
  obtain ⟨key, hkey⟩ := (hasUnknown_iff hop).1 h
  cases hkeys : unknownKeys ((allowed op).map Spelled.spelling) es with
  | nil => exact absurd hkey (hkeys ▸ List.not_mem_nil)
  | cons k ks =>
    refine ⟨k :: ks, ?_, fun k => ?_⟩
    · show ofEntries op (.ok policy) es = _
      rw [ofEntries, hkeys]
      rfl
    · rw [← hkeys]
      simp only [mem_unknownKeys, mem_allowed hop]

/-- Known verbs make a plan, unless `set` has to stand alone and does not. -/
theorem ofValue_known (hop : op = .create ∨ op = .update) (policy : SetPolicy)
    (hlists : ∀ e ∈ es, e.2.isPresent = true → e.2.items?.isSome = true)
    (hknown : ¬ HasUnknown op es) :
    (policy = .reject ∧ Combines es → ∃ verbs,
      ofValue op policy (.map es) = .error (.ambiguous (.setCombined verbs))) ∧
      (¬ (policy = .reject ∧ Combines es) → ofValue op policy (.map es) = .ok (ofGiven es)) := by
  have hkeys : unknownKeys ((allowed op).map Spelled.spelling) es = [] :=
    List.eq_nil_iff_forall_not_mem.2 fun k hk => hknown ((hasUnknown_iff hop).2 ⟨k, hk⟩)
  have hread : ofValue op policy (.map es) = (do
      let beside := others (ofGiven es).connect (ofGiven es).disconnect (ofGiven es).create
      if (ofGiven es).set.isSome && !beside.isEmpty then
        if policy = .reject then throw (.ambiguous (.setCombined beside))
      return ofGiven es) := by
    show ofEntries op (.ok policy) es = _
    rw [ofEntries, hkeys]
    simp only [itemsOf_eq hop hlists hknown]
    rfl
  rw [hread]
  constructor
  · rintro ⟨rfl, hcombines⟩
    rw [if_pos (combines_iff.1 hcombines), if_pos rfl]
    exact ⟨_, rfl⟩
  · intro hnot
    by_cases hcombines : Combines es
    · rw [if_pos (combines_iff.1 hcombines), if_neg fun hreject => hnot ⟨hreject, hcombines⟩]
      rfl
    · rw [if_neg fun h => hcombines (combines_iff.2 h)]
      rfl

/-! ## Steps -/

/-- The verbs of the steps come in their order, each once. -/
theorem steps_sublist (p : ManyPlan) : (p.steps.map Prod.fst).Sublist order := by
  obtain ⟨set, disconnect, connect, create⟩ := p
  have hrest : (([(ManyVerb.disconnect, disconnect), (.connect, connect), (.create, create)].filter
      fun s => !s.2.isEmpty).map Prod.fst).Sublist [.disconnect, .connect, .create] :=
    List.filter_sublist.map Prod.fst
  rw [steps, List.map_append]
  cases set with
  | none => exact hrest.cons _
  | some vs => exact hrest.cons_cons _

theorem mem_steps : (verb, vs) ∈ p.steps ↔ (verb = .set ∧ p.set = some vs) ∨
    (vs ≠ [] ∧ ((verb = .disconnect ∧ vs = p.disconnect) ∨ (verb = .connect ∧ vs = p.connect) ∨
      (verb = .create ∧ vs = p.create))) := by
  obtain ⟨set, disconnect, connect, create⟩ := p
  rw [steps, List.mem_append, List.mem_filter]
  refine or_congr ?_ ?_
  · cases set <;> simp [eq_comm]
  · simp [and_comm]

/-- The steps of what was given are the verbs that were given, with their items. -/
theorem mem_steps_ofGiven : (verb, vs) ∈ (ofGiven es).steps ↔
    items? es verb = some vs ∧ (verb = .set ∨ vs ≠ []) := by
  have hitems (verb : ManyVerb) (hne : vs ≠ []) :
      vs = (items? es verb).getD [] ↔ items? es verb = some vs := by
    cases items? es verb with
    | none => simpa using hne
    | some ws => simp [eq_comm]
  rw [mem_steps]
  by_cases hvs : vs = []
  · cases verb <;> simp [hvs, ofGiven]
  · cases verb <;> simp [hvs, ofGiven, hitems]

/-- Input of a relation to many is refused for a key just when it has one besides the verbs of the
operation; otherwise as ambiguous just when the policy wants `set` alone, and it is given beside
something; and otherwise there is a plan, whose steps are the given verbs in order with their items,
less those besides `set` that name nothing. -/
theorem ofValue_settles (hop : op = .create ∨ op = .update) (policy : SetPolicy)
    (hlists : ∀ e ∈ es, e.2.isPresent = true → e.2.items?.isSome = true) :
    ((∃ q, ofValue op policy (.map es) = .error (.query q)) ↔ HasUnknown op es) ∧
      (¬ HasUnknown op es →
        ((∃ a, ofValue op policy (.map es) = .error (.ambiguous a)) ↔
          policy = .reject ∧ Combines es) ∧
        (¬ (policy = .reject ∧ Combines es) →
          ∃ p, ofValue op policy (.map es) = .ok p ∧ (p.steps.map Prod.fst).Sublist order ∧
            ∀ verb vs, (verb, vs) ∈ p.steps ↔
              items? es verb = some vs ∧ (verb = .set ∨ vs ≠ []))) := by
  refine ⟨⟨?query, fun h => ?unknown⟩, fun hknown =>
    ⟨⟨?ambiguous, fun h => ?combined⟩, fun h => ?plan⟩⟩
  case query =>
    rintro ⟨q, hq⟩
    by_contra hknown
    obtain ⟨hcombined, hplan⟩ := ofValue_known hop policy hlists hknown
    by_cases h : policy = .reject ∧ Combines es
    · obtain ⟨verbs, herror⟩ := hcombined h
      cases hq.symm.trans herror
    · cases hq.symm.trans (hplan h)
  case unknown =>
    obtain ⟨keys, hkeys, -⟩ := ofValue_unknown hop policy h
    exact ⟨_, hkeys⟩
  case ambiguous =>
    rintro ⟨a, ha⟩
    by_contra h
    cases ha.symm.trans ((ofValue_known hop policy hlists hknown).2 h)
  case combined =>
    obtain ⟨verbs, hverbs⟩ := (ofValue_known hop policy hlists hknown).1 h
    exact ⟨_, hverbs⟩
  case plan =>
    exact ⟨ofGiven es, (ofValue_known hop policy hlists hknown).2 h, steps_sublist _,
      fun _ _ => mem_steps_ofGiven⟩

/-- A verb in each state: it names nothing, is null, is not sent, and names one record. -/
def retagged : Value.Entries := [
  (.text "set", .list []), (.text "connect", .null), (.text "disconnect", .unset),
  (.text "create", .list [.map [(.text "name", .text "new")]])]

/-- One mapping that ends in all three ways: creation has no `set`, a policy may forbid it beside
`create`, and without one it is a step. -/
theorem ofValue_settles_retagged :
    (∀ e ∈ retagged, e.2.isPresent = true → e.2.items?.isSome = true) ∧
      (∃ q, ofValue .create .setFirst (.map retagged) = .error (.query q)) ∧
      (∃ a, ofValue .update .reject (.map retagged) = .error (.ambiguous a)) ∧
      ∃ p, ofValue .update .setFirst (.map retagged) = .ok p ∧ (.set, []) ∈ p.steps ∧
        ∀ vs, (.connect, vs) ∉ p.steps ∧ (.disconnect, vs) ∉ p.steps := by
  have hlists : ∀ e ∈ retagged, e.2.isPresent = true → e.2.items?.isSome = true := by decide
  have hunknown : HasUnknown .create retagged := by
    refine ⟨_, List.mem_cons_self, fun verb hverb heq => ?_⟩
    cases hverb <;> exact absurd (Value.text.inj heq) (by decide)
  have hknown : ¬ HasUnknown .update retagged := by
    rintro ⟨e, he, hkey⟩
    simp only [retagged, List.mem_cons, List.not_mem_nil, or_false] at he
    rcases he with rfl | rfl | rfl | rfl
    · exact hkey .set .set rfl
    · exact hkey .connect (.connect _) rfl
    · exact hkey .disconnect .disconnect rfl
    · exact hkey .create (.create _) rfl
  have hcombines : Combines retagged := ⟨rfl, .create, _, nofun, rfl, nofun⟩
  have hquery := (ofValue_settles (.inl rfl) .setFirst hlists).1.2 hunknown
  have hambiguous := ((ofValue_settles (.inr rfl) .reject hlists).2 hknown).1.2 ⟨rfl, hcombines⟩
  obtain ⟨p, hp, -, hsteps⟩ := ((ofValue_settles (.inr rfl) .setFirst hlists).2 hknown).2 (by simp)
  refine ⟨hlists, hquery, hambiguous, p, hp, (hsteps _ _).2 ⟨rfl, .inl rfl⟩, fun vs => ⟨?_, ?_⟩⟩
  · intro h
    cases ((hsteps _ _).1 h).1
  · intro h
    cases ((hsteps _ _).1 h).1

end ManyPlan

end RecordSchema
