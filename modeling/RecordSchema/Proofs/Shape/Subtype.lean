import RecordSchema.Shape.Conforms
import RecordSchema.Shape.Subtype

/-!
# Subtyping is sound

A value of a shape is a value of every shape above it, as long as the
lower shape says all about its values. Records do not: they let entries
be that they do not name, and an absent entry counts as not sent. Nor do
input objects and types of lists, which take whatever is sent. Shapes
without those at any depth are strict (`Shape.isStrict`), and for them
`isSubtype` keeps its promise whatever stands on the right.

The JSON rule is a promise of its own: `isJson_of_conforms` says that a
shape which JSON can express has only values which JSON can express.
-/

namespace RecordSchema

/-! ## Members of lists and tuples -/

theorem Value.allJson_iff {vs : List Value} : allJson vs = true ↔ ∀ v ∈ vs, v.isJson = true := by
  induction vs with
  | nil => simp [allJson]
  | cons v r ih => simp [allJson, ih]

theorem Value.isJson_of_items? {v : Value} {vs : List Value} (h : v.items? = some vs) :
    v.isJson = true ↔ ∀ u ∈ vs, u.isJson = true := by
  unfold items? at h
  split at h
  · cases h
    rw [isJson, allJson_iff]
  · cases h
    rw [isJson, allJson_iff]
  · cases h

/-! ## Scalars -/

theorem Scalar.isJson_of_admits {s : Scalar} {v : Value} (hs : s.isJson = true)
    (h : s.admits v = true) : v.isJson = true := by
  cases s with
  | text | boolean | int | float => cases v <;> first | rfl | cases h
  | json => exact h
  | dateTime | decimal | bigInt => cases hs

theorem Scalar.admits_of_widensTo {s t : Scalar} {v : Value} (hst : s.widensTo t = true)
    (h : s.admits v = true) : t.admits v = true := by
  unfold widensTo at hst
  split at hst
  · exact isJson_of_admits hst h
  · cases v <;> first | rfl | cases h
  · cases v <;> first | rfl | cases h
  · cases hst

namespace Shape

/-! ## Strict shapes -/

mutual

/-- Whether a shape says all about its values: at no depth is there a record, an
input object or a type of a list. -/
def isStrict : Shape → Bool
  | .record _ => false
  | .inputObject _ => false
  | .listType .. => false
  | .listOf item => isStrict item
  | .oneOf os => allStrict os
  | _ => true

/-- Whether all the shapes are strict. -/
def allStrict : List Shape → Bool
  | [] => true
  | s :: r => isStrict s && allStrict r

end

theorem allStrict_iff {os : List Shape} : allStrict os = true ↔ ∀ o ∈ os, o.isStrict = true := by
  induction os with
  | nil => simp [allStrict]
  | cons s r ih => simp [allStrict, ih]

/-! ## Conformance -/

theorem conformsAny_iff {os : List Shape} {v : Value} :
    conformsAny os v = true ↔ ∃ o ∈ os, conforms o v = true := by
  induction os with
  | nil => simp [conformsAny]
  | cons s r ih => simp [conformsAny, ih]

theorem conforms_listOf {item : Shape} {v : Value} :
    conforms (.listOf item) v = true ↔
      ∃ vs, v.items? = some vs ∧ ∀ u ∈ vs, conforms item u = true := by
  rw [conforms]
  cases v.items? with
  | none => simp
  | some vs => simp

theorem exists_text_of_conforms {name : String} {values : List String} {v : Value}
    (h : conforms (.enum name values) v = true) : ∃ s ∈ values, v = .text s := by
  cases v with
  | text s => exact ⟨s, List.contains_iff_mem.1 h, rfl⟩
  | _ => cases h

mutual

/-- JSON can express the values of a strict shape that JSON can express. -/
theorem isJson_of_conforms : {s : Shape} → {v : Value} → s.isStrict = true → s.isJson = true →
    conforms s v = true → v.isJson = true
  | .oneOf _, _, hs, hj, h => isJson_of_conformsAny hs hj h
  | .null, v, _, _, h => by cases v <;> first | rfl | cases h
  | .enum .., _, _, _, h => by
    obtain ⟨s, -, rfl⟩ := exists_text_of_conforms h
    rfl
  | .scalar _, _, _, hj, h => Scalar.isJson_of_admits hj h
  | .listOf item, v, hs, hj, h => by
    obtain ⟨vs, hvs, hall⟩ := conforms_listOf.1 h
    rw [isStrict] at hs
    rw [isJson] at hj
    exact (Value.isJson_of_items? hvs).2 fun u hu => isJson_of_conforms hs hj (hall u hu)

/-- JSON can express the values of alternatives that JSON can express. -/
theorem isJson_of_conformsAny : {os : List Shape} → {v : Value} → allStrict os = true →
    allJson os = true → conformsAny os v = true → v.isJson = true
  | s :: r, v, hs, hj, h => by
    simp only [allStrict, allJson, conformsAny, Bool.and_eq_true, Bool.or_eq_true] at hs hj h
    rcases h with h | h
    · exact isJson_of_conforms hs.1 hj.1 h
    · exact isJson_of_conformsAny hs.2 hj.2 h

end

/-! ## Subtyping by its rules -/

theorem isSubtype_oneOf_left {os : List Shape} {b : Shape} (hb : b ≠ .anything) :
    isSubtype (.oneOf os) b = true ↔ ∀ o ∈ os, isSubtype o b = true := by
  rw [isSubtype, if_neg hb]
  simp

theorem isSubtype_oneOf_right {a : Shape} {os : List Shape} (ha : ∀ os, a ≠ .oneOf os) :
    isSubtype a (.oneOf os) = true ↔ ∃ o ∈ os, isSubtype a o = true := by
  rw [isSubtype.eq_2 a os ha, if_neg (by simp)]
  simp

theorem isSubtype_listOf {a b : Shape} (hne : Shape.listOf a ≠ .listOf b) :
    isSubtype (.listOf a) (.listOf b) = isSubtype a b := by
  rw [isSubtype, if_neg (by simp), if_neg hne]

/-- Subtyping of scalars, enums and lists that are JSON values; no strict shape is a
filter. -/
theorem conforms_of_fits {a b : Shape} {v : Value} (ha : a.isStrict = true)
    (h : fits a b = true) (hv : conforms a v = true) : conforms b v = true := by
  unfold fits at h
  split at h
  · exact Scalar.admits_of_widensTo h hv
  · next vs _ ws =>
    obtain ⟨s, hs, rfl⟩ := exists_text_of_conforms hv
    exact List.all_eq_true.1 h s hs
  · next t =>
    obtain ⟨s, -, rfl⟩ := exists_text_of_conforms hv
    simp only [Bool.or_eq_true, beq_iff_eq] at h
    rcases h with rfl | rfl
    · rfl
    · rfl
  · exact isJson_of_conforms ha h hv
  · cases ha
  · cases ha
  · cases ha
  · cases ha
  · cases h

/-- Every value of a strict shape is a value of the shapes above it. -/
theorem conforms_of_isSubtype {a b : Shape} {v : Value} (ha : a.isStrict = true)
    (h : isSubtype a b = true) (hv : conforms a v = true) : conforms b v = true := by
  induction a, b using isSubtype.induct generalizing v with
  | case1 a => rw [conforms]
  | case2 os b hb ih =>
    obtain ⟨o, ho, hov⟩ := conformsAny_iff.1 hv
    exact ih o ho (allStrict_iff.1 ha o ho) ((isSubtype_oneOf_left hb).1 h o ho) hov
  | case3 a os hone _ ih =>
    obtain ⟨o, ho, hsub⟩ := (isSubtype_oneOf_right hone).1 h
    exact conformsAny_iff.2 ⟨o, ho, ih o ho ha hsub hv⟩
  | case4 => exact hv
  | case5 a b _ _ _ hne ih =>
    rw [isSubtype_listOf hne] at h
    obtain ⟨vs, hvs, hall⟩ := conforms_listOf.1 hv
    exact conforms_listOf.2 ⟨vs, hvs, fun u hu => ih ha h (hall u hu)⟩
  | case6 => cases ha
  | case7 a b hlists hrecords hone hone' hb hne =>
    rw [isSubtype.eq_5 a b hone hone' hlists hrecords, if_neg hb, if_neg hne] at h
    exact conforms_of_fits ha h hv

/-- Lists of sizes, of nothing and of lists of numbers. -/
def sizes : Shape :=
  .listOf (.oneOf [.enum "Size" ["s", "m"], .null, .listOf (.scalar .float)])

/-- Such a list, which may be missing, is a JSON value, which may be missing. -/
theorem conforms_sizes :
    isStrict (.oneOf [sizes, .undefined]) = true ∧
      isSubtype (.oneOf [sizes, .undefined]) (.oneOf [.scalar .json, .undefined]) = true ∧
      conforms (.oneOf [sizes, .undefined]) (.list [.text "m", .null, .tuple [.int 1]]) = true ∧
      conforms (.oneOf [.scalar .json, .undefined]) (.list [.text "m", .null, .tuple [.int 1]]) =
        true := by
  have hstrict : isStrict (.oneOf [sizes, .undefined]) = true := by decide
  have hjson : isSubtype sizes (.scalar .json) = true := by
    unfold sizes
    rw [isSubtype.eq_5 _ _ (by simp) (by simp) (by simp) (by simp), if_neg (by simp),
      if_neg (by simp)]
    decide
  have hundefined : isSubtype .undefined .undefined = true := by
    rw [isSubtype.eq_5 _ _ (by simp) (by simp) (by simp) (by simp), if_neg (by simp), if_pos rfl]
  have hsub : isSubtype (.oneOf [sizes, .undefined]) (.oneOf [.scalar .json, .undefined]) = true := by
    refine (isSubtype_oneOf_left (by simp)).2
      (List.forall_mem_cons.2 ⟨?_, List.forall_mem_singleton.2 ?_⟩)
    · exact (isSubtype_oneOf_right (by simp [sizes])).2
        ⟨.scalar .json, List.mem_cons_self, hjson⟩
    · exact (isSubtype_oneOf_right (by simp)).2
        ⟨.undefined, List.mem_cons_of_mem _ List.mem_cons_self, hundefined⟩
  have hv : conforms (.oneOf [sizes, .undefined]) (.list [.text "m", .null, .tuple [.int 1]]) =
      true := by decide
  exact ⟨hstrict, hsub, hv, conforms_of_isSubtype hstrict hsub hv⟩

end Shape

end RecordSchema
