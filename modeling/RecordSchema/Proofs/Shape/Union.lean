import RecordSchema.Proofs.Shape.Subtype

/-!
# Values of unions

`Shape.union` sorts its alternatives and keeps each once, which changes
the term and not the values: a value belongs to the union of shapes just
when it belongs to one of them (`conforms_union`).
-/

namespace RecordSchema

namespace Sorting

variable {α : Type} {le : α → α → Bool}

theorem mem_insert {a b : α} {xs : List α} : b ∈ insert le a xs ↔ b = a ∨ b ∈ xs := by
  induction xs with
  | nil => simp [insert]
  | cons c r ih =>
    unfold insert
    split
    · exact List.mem_cons
    · simp only [List.mem_cons, ih]
      exact or_left_comm

theorem mem_sort {b : α} {xs : List α} : b ∈ sort le xs ↔ b ∈ xs := by
  induction xs with
  | nil => exact Iff.rfl
  | cons a r ih => rw [sort, mem_insert, ih, List.mem_cons]

end Sorting

namespace Shape

theorem mem_setOf {s : Shape} {ss : List Shape} : s ∈ setOf ss ↔ s ∈ ss := by
  rw [setOf, Sorting.mem_sort, List.mem_eraseDups]

/-- A union is one of its alternatives or the set of them. -/
theorem union_cases (ss : List Shape) :
    setOf (ss.flatMap alternatives) = [union ss] ∨
      union ss = .oneOf (setOf (ss.flatMap alternatives)) := by
  unfold union
  split
  · next h => exact .inl h
  · exact .inr rfl

/-- A value belongs to a shape just when it belongs to one of its alternatives. -/
theorem conforms_alternatives {s : Shape} {v : Value} :
    (∃ o ∈ s.alternatives, conforms o v = true) ↔ conforms s v = true := by
  cases s with
  | oneOf os => exact conformsAny_iff.symm
  | _ => simp [alternatives]

theorem conforms_union {ss : List Shape} {v : Value} :
    conforms (union ss) v = true ↔ ∃ s ∈ ss, conforms s v = true := by
  have hset : conforms (union ss) v = true ↔
      ∃ o ∈ setOf (ss.flatMap alternatives), conforms o v = true := by
    rcases union_cases ss with h | h
    · simp [h]
    · rw [h]
      exact conformsAny_iff
  rw [hset]
  constructor
  · rintro ⟨o, ho, hv⟩
    obtain ⟨s, hs, ho⟩ := List.mem_flatMap.1 (mem_setOf.1 ho)
    exact ⟨s, hs, conforms_alternatives.1 ⟨o, ho, hv⟩⟩
  · rintro ⟨s, hs, hv⟩
    obtain ⟨o, ho, hv⟩ := conforms_alternatives.2 hv
    exact ⟨o, mem_setOf.2 (List.mem_flatMap.2 ⟨s, hs, ho⟩), hv⟩

end Shape

end RecordSchema
