import RecordSchema.Proofs.Success
import RecordSchema.Proofs.Value.Entries
import RecordSchema.Relation.Input

/-!
# Relation input that is accepted

What is known of the input of a relation once it has become an action or
a plan: all its keys are verbs of the operation, and the verbs that it
asks for go together.
-/

namespace RecordSchema

variable {op : Operation} {policy : SetPolicy} {es : Value.Entries}

/-- A key is unknown when it spells none of the verbs. -/
theorem mem_unknownKeys {α : Type} [Spelled α] {verbs : List α} {k : Value} :
    k ∈ unknownKeys (verbs.map Spelled.spelling) es ↔
      k ∈ es.map Prod.fst ∧ ∀ verb ∈ verbs, k ≠ .text (Spelled.spelling verb) := by
  rw [unknownKeys, List.mem_filter, Bool.not_eq_true', ← Bool.not_eq_true]
  refine and_congr_right fun _ => ?_
  simp only [List.any_eq_true, List.mem_map, exists_exists_and_eq_and, Value.isText_iff, not_exists,
    not_and, ne_eq]

/-! ## Relations to one -/

namespace OneAction

/-- An input that leaves the link alone asks for no verb. -/
theorem ofEntries?_none (h : ofEntries? op es = .ok none) :
    unknownKeys ((OneVerb.allowed op).map Spelled.spelling) es = [] ∧
      ∀ verb ∈ OneVerb.allowed op, verb.isAsked es = false := by
  unfold ofEntries? at h
  dsimp only at h
  split at h
  · cases h
  · next hknown =>
    refine ⟨hknown, ?_⟩
    split at h
    · next hnone => simpa using List.filter_eq_nil_iff.1 hnone
    · cases h
    · cases h

/-- An input that acts on the link asks for one verb. -/
theorem ofEntries?_some {a : OneAction} (h : ofEntries? op es = .ok (some a)) :
    unknownKeys ((OneVerb.allowed op).map Spelled.spelling) es = [] ∧
      a.value = es.get (Spelled.spelling a.verb) ∧
      ∀ verb ∈ OneVerb.allowed op, verb.isAsked es = true ↔ verb = a.verb := by
  unfold ofEntries? at h
  dsimp only at h
  split at h
  · cases h
  · next hknown =>
    split at h
    · cases h
    · next verb hone =>
      cases h
      refine ⟨hknown, rfl, fun other hallowed => ?_⟩
      have hmem := List.mem_singleton (a := other) (b := verb)
      rwa [← hone, List.mem_filter, and_iff_right hallowed] at hmem
    · cases h

end OneAction

/-! ## Relations to many -/

/-- A plan holds the items of each verb, and `set` stands alone when it must. -/
theorem ManyPlan.ofEntries_ok {p : ManyPlan} (h : ofEntries op (.ok policy) es = .ok p) :
    unknownKeys ((allowed op).map Spelled.spelling) es = [] ∧
      itemsOf op es .set = .ok p.set ∧
      (itemsOf op es .disconnect).map (·.getD []) = .ok p.disconnect ∧
      (itemsOf op es .connect).map (·.getD []) = .ok p.connect ∧
      (itemsOf op es .create).map (·.getD []) = .ok p.create ∧
      (policy = .reject → p.set.isSome = true → others p.connect p.disconnect p.create = []) := by
  unfold ofEntries at h
  split at h
  · exact absurd h Except.throw_ne_ok
  · next hknown =>
    simp only [Except.bind_eq_ok] at h
    obtain ⟨set, hset, disconnect, hdisconnect, connect, hconnect, create, hcreate, h⟩ := h
    rw [hset, hdisconnect, hconnect, hcreate]
    split at h
    · obtain ⟨_, ⟨⟩, h⟩ := Except.bind_eq_ok.1 h
      split at h
      · obtain ⟨_, hthrow, -⟩ := Except.bind_eq_ok.1 h
        exact absurd hthrow Except.throw_ne_ok
      · next hpolicy =>
        cases Except.pure_eq_ok.1 h
        exact ⟨hknown, rfl, rfl, rfl, rfl, fun hreject => absurd hreject hpolicy⟩
    · next halone =>
      cases Except.pure_eq_ok.1 h
      refine ⟨hknown, rfl, rfl, rfl, rfl, fun _ hsome => ?_⟩
      simpa [hsome] using halone

end RecordSchema
