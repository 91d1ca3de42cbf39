import RecordSchema.Proofs.Shape.Union

/-!
# The order of shapes

Subtyping looks through unions on both sides, however deep they are
nested: a shape lies below another one just when each of its *members*,
the shapes in it that are no unions, lies below some member of the other
(`isSubtype_iff_members`). What is left is to compare members, which is
one step (`isSubtype_of_member`) and goes on inside lists alone.

So subtyping is reflexive on all shapes, and transitive from shapes
without records. A record may lie below a record that says less, and that
one below JSON, though JSON cannot express the values of the first.
`Shape.union` is the join: the least shape above its alternatives.
-/

namespace RecordSchema

namespace Shape

/-! ## Members -/

mutual

/-- The shapes in a union that are no unions themselves, at any depth. -/
def members : Shape → List Shape
  | .oneOf os => membersAll os
  | s => [s]

/-- The members of several shapes. -/
def membersAll : List Shape → List Shape
  | [] => []
  | s :: r => members s ++ membersAll r

end

theorem mem_membersAll {x : Shape} {os : List Shape} :
    x ∈ membersAll os ↔ ∃ o ∈ os, x ∈ o.members := by
  induction os with
  | nil => simp [membersAll]
  | cons s r ih => simp [membersAll, ih]

theorem mem_members_oneOf {x : Shape} {os : List Shape} :
    x ∈ (oneOf os).members ↔ ∃ o ∈ os, x ∈ o.members := by
  rw [members, mem_membersAll]

theorem members_of_ne_oneOf {s : Shape} (hs : ∀ os, s ≠ .oneOf os) : s.members = [s] := by
  cases s with
  | oneOf os => exact absurd rfl (hs os)
  | _ => rfl

mutual

theorem ne_oneOf_of_mem_members : {s x : Shape} → x ∈ s.members → ∀ os, x ≠ .oneOf os
  | .oneOf _, _, h => ne_oneOf_of_mem_membersAll h
  | .undefined, _, h | .null, _, h | .anything, _, h | .filter, _, h | .scalar _, _, h
  | .enum .., _, h | .listOf _, _, h | .record _, _, h | .inputObject _, _, h | .listType .., _, h
  | .relationInput .., _, h | .relatedItem _, _, h | .relatedItems _, _, h => by
    cases List.mem_singleton.1 h
    exact fun os => nofun

theorem ne_oneOf_of_mem_membersAll : {ss : List Shape} → {x : Shape} → x ∈ membersAll ss →
    ∀ os, x ≠ .oneOf os
  | _ :: _, _, h => by
    rcases List.mem_append.1 h with h | h
    · exact ne_oneOf_of_mem_members h
    · exact ne_oneOf_of_mem_membersAll h

end

/-! ## Subtyping by members -/

@[simp] theorem isSubtype_anything (a : Shape) : isSubtype a .anything = true := by
  rw [isSubtype.eq_def, if_pos rfl]

/-- A shape lies below another one just when each of its members lies below a member of
the other. -/
theorem isSubtype_iff_members {a b : Shape} :
    isSubtype a b = true ↔ ∀ x ∈ a.members, ∃ y ∈ b.members, isSubtype x y = true := by
  induction a, b using isSubtype.induct with
  | case1 a => simp [members]
  | case2 os b hb ih =>
    rw [isSubtype_oneOf_left hb]
    constructor
    · intro h x hx
      obtain ⟨o, ho, hx⟩ := mem_members_oneOf.1 hx
      exact (ih o ho).1 (h o ho) x hx
    · intro h o ho
      exact (ih o ho).2 fun x hx => h x (mem_members_oneOf.2 ⟨o, ho, hx⟩)
  | case3 a os ha _ ih =>
    simp only [members_of_ne_oneOf ha, List.mem_singleton, forall_eq] at ih ⊢
    rw [isSubtype_oneOf_right ha]
    constructor
    · rintro ⟨o, ho, h⟩
      obtain ⟨y, hy, hay⟩ := (ih o ho).1 h
      exact ⟨y, mem_members_oneOf.2 ⟨o, ho, hy⟩, hay⟩
    · rintro ⟨y, hy, hay⟩
      obtain ⟨o, ho, hy⟩ := mem_members_oneOf.1 hy
      exact ⟨o, ho, (ih o ho).2 ⟨y, hy, hay⟩⟩
  | case4 a ha => simp [members_of_ne_oneOf ha]
  | case5 a b ha hb => simp [members]
  | case6 fs gs ha hb => simp [members]
  | case7 a b _ _ ha hb => simp [members_of_ne_oneOf ha, members_of_ne_oneOf hb]

/-- A shape that is no union lies below another one just when it lies below a member. -/
theorem isSubtype_iff_exists_member {a b : Shape} (ha : ∀ os, a ≠ .oneOf os) :
    isSubtype a b = true ↔ ∃ y ∈ b.members, isSubtype a y = true := by
  rw [isSubtype_iff_members, members_of_ne_oneOf ha]
  simp

theorem isSubtype_self_of_ne_oneOf {a : Shape} (ha : ∀ os, a ≠ .oneOf os) :
    isSubtype a a = true := by
  cases a with
  | oneOf os => exact absurd rfl (ha os)
  | anything => exact isSubtype_anything _
  | listOf item => rw [isSubtype, if_neg (by simp), if_pos rfl]
  | record fs => rw [isSubtype, if_neg (by simp), if_pos rfl]
  | _ =>
    rw [isSubtype.eq_5 _ _ (by simp) (by simp) (by simp) (by simp), if_neg (by simp), if_pos rfl]

theorem isSubtype_refl (a : Shape) : isSubtype a a = true :=
  isSubtype_iff_members.2 fun x hx =>
    ⟨x, hx, isSubtype_self_of_ne_oneOf (ne_oneOf_of_mem_members hx)⟩

theorem isSubtype_listOf_iff {a b : Shape} :
    isSubtype (.listOf a) (.listOf b) = true ↔ isSubtype a b = true := by
  by_cases h : Shape.listOf a = .listOf b
  · cases h
    simp [isSubtype_refl]
  · rw [isSubtype_listOf h]

/-- What it takes for a shape to lie below another one, when neither is a union and they are
not two records. -/
theorem isSubtype_member_iff {a b : Shape} (ha : ∀ os, a ≠ .oneOf os) (hb : ∀ os, b ≠ .oneOf os)
    (hrecords : ∀ fs gs, a = .record fs → b ≠ .record gs) :
    isSubtype a b = true ↔
      b = .anything ∨ a = b ∨
        (∃ i j, a = .listOf i ∧ b = .listOf j ∧ isSubtype i j = true) ∨ fits a b = true := by
  by_cases hlists : ∃ i j, a = .listOf i ∧ b = .listOf j
  · obtain ⟨i, j, rfl, rfl⟩ := hlists
    rw [isSubtype_listOf_iff]
    constructor
    · intro h
      exact .inr (.inr (.inl ⟨i, j, rfl, rfl, h⟩))
    · rintro (h | h | ⟨i', j', hi, hj, h⟩ | h)
      · cases h
      · cases h
        exact isSubtype_refl i
      · cases hi
        cases hj
        exact h
      · cases h
  · rw [isSubtype.eq_5 a b ha hb (fun i j hi hj => hlists ⟨i, j, hi, hj⟩) hrecords]
    split
    · simp [*]
    · split
      · simp [*]
      · simp only [*, false_or]
        constructor
        · exact .inr
        · rintro (⟨i, j, hi, hj, -⟩ | h)
          · exact absurd ⟨i, j, hi, hj⟩ hlists
          · exact h

/-! ## Shapes without records -/

mutual

/-- Whether no record occurs in the shape, at any depth. -/
def isRecordFree : Shape → Bool
  | .record _ => false
  | .listOf item => isRecordFree item
  | .oneOf os => allRecordFree os
  | _ => true

/-- Whether no record occurs in any of the shapes. -/
def allRecordFree : List Shape → Bool
  | [] => true
  | s :: r => isRecordFree s && allRecordFree r

end

theorem allRecordFree_iff {os : List Shape} :
    allRecordFree os = true ↔ ∀ o ∈ os, o.isRecordFree = true := by
  induction os with
  | nil => simp [allRecordFree]
  | cons s r ih => simp [allRecordFree, ih]

theorem allJson_iff {os : List Shape} : allJson os = true ↔ ∀ o ∈ os, o.isJson = true := by
  induction os with
  | nil => simp [allJson]
  | cons s r ih => simp [allJson, ih]

/-! ## Transitivity -/

end Shape

theorem Scalar.widensTo_trans {s t u : Scalar} (hst : s.widensTo t = true)
    (htu : t.widensTo u = true) : s.widensTo u = true := by
  revert hst htu
  cases s <;> cases t <;> cases u <;> decide

/-- Above the scalars that take the texts of an enum there is JSON alone. -/
theorem Scalar.eq_json_of_widensTo {t u : Scalar} (ht : t = .text ∨ t = .json)
    (htu : t.widensTo u = true) : u = .json := by
  rcases ht with rfl | rfl
  · cases u <;> first | rfl | cases htu
  · cases u <;> first | rfl | cases htu

theorem Scalar.isJson_of_widensTo {s t : Scalar} (hst : s.widensTo t = true)
    (ht : t.isJson = true) : s.isJson = true := by
  revert hst ht
  cases s <;> cases t <;> decide

namespace Shape

theorem isJson_of_fits {a b : Shape} (ha : a.isRecordFree = true) (hab : fits a b = true)
    (hb : b.isJson = true) : a.isJson = true := by
  unfold fits at hab
  split at hab
  · exact Scalar.isJson_of_widensTo hab hb
  · rfl
  · rfl
  · exact hab
  · cases ha
  · cases hb
  · cases hb
  · cases hb
  · cases hab

/-- Below a shape that JSON can express there are only such shapes, records apart. -/
theorem isJson_of_isSubtype {a b : Shape} (ha : a.isRecordFree = true)
    (hab : isSubtype a b = true) (hb : b.isJson = true) : a.isJson = true := by
  induction a, b using isSubtype.induct with
  | case1 => cases hb
  | case2 os b hany ih =>
    rw [isJson, allJson_iff]
    exact fun o ho =>
      ih o ho (allRecordFree_iff.1 ha o ho) ((isSubtype_oneOf_left hany).1 hab o ho) hb
  | case3 a os hne _ ih =>
    obtain ⟨o, ho, h⟩ := (isSubtype_oneOf_right hne).1 hab
    exact ih o ho ha h (allJson_iff.1 hb o ho)
  | case4 => exact hb
  | case5 a b _ _ _ _ ih => exact ih ha (isSubtype_listOf_iff.1 hab) hb
  | case6 => cases ha
  | case7 a b hlists hrecords hone hone' hany hne =>
    rw [isSubtype.eq_5 a b hone hone' hlists hrecords, if_neg hany, if_neg hne] at hab
    exact isJson_of_fits ha hab hb

theorem fits_trans {a b c : Shape} (hab : fits a b = true) (hbc : fits b c = true) :
    fits a c = true := by
  unfold fits at hab
  split at hab
  · cases c with
    | scalar u => exact Scalar.widensTo_trans hab hbc
    | _ => cases hbc
  · next vs _ ws =>
    cases c with
    | enum _ xs =>
      simp only [fits, List.all_eq_true, List.contains_iff_mem] at hab hbc ⊢
      exact fun v hv => hbc v (hab v hv)
    | scalar u => exact hbc
    | _ => cases hbc
  · next t =>
    cases c with
    | scalar u =>
      rw [Scalar.eq_json_of_widensTo (by simpa using hab) hbc]
      rfl
    | _ => cases hbc
  · cases c with
    | scalar u => exact Scalar.eq_json_of_widensTo (.inr rfl) hbc ▸ hab
    | _ => cases hbc
  · cases c with
    | scalar u => exact Scalar.eq_json_of_widensTo (.inr rfl) hbc ▸ hab
    | _ => cases hbc
  · cases c <;> cases hbc
  · cases c <;> cases hbc
  · cases c <;> cases hbc
  · cases hab

theorem fits_listOf {item b : Shape} :
    fits (.listOf item) b = true ↔ b = .scalar .json ∧ item.isJson = true := by
  constructor
  · intro h
    cases b with
    | scalar t => cases t <;> first | exact ⟨rfl, h⟩ | cases h
    | _ => cases h
  · rintro ⟨rfl, h⟩
    exact h

theorem isSubtype_of_fits {a b : Shape} (ha : ∀ os, a ≠ .oneOf os) (hb : ∀ os, b ≠ .oneOf os)
    (h : fits a b = true) : isSubtype a b = true := by
  refine (isSubtype_member_iff ha hb ?_).2 (.inr (.inr (.inr h)))
  rintro fs gs rfl rfl
  cases h

/-- What lies above `anything` is `anything`, when it is no union. -/
theorem eq_anything_of_isSubtype {b : Shape} (hb : ∀ os, b ≠ .oneOf os)
    (h : isSubtype .anything b = true) : b = .anything := by
  rcases (isSubtype_member_iff (by simp) hb (by simp)).1 h with h | h | ⟨i, j, hi, -, -⟩ | h
  · exact h
  · exact h.symm
  · cases hi
  · cases b <;> cases h

/-- Transitivity from shapes without records, by the rule that puts `a` below `b`. Members
of `c` decide what is above `b` (`isSubtype_iff_exists_member`). -/
theorem isSubtype_trans {a b c : Shape} (ha : a.isRecordFree = true)
    (hab : isSubtype a b = true) (hbc : isSubtype b c = true) : isSubtype a c = true := by
  induction a, b using isSubtype.induct generalizing c with
  | case1 a =>
    obtain ⟨z, hz, h⟩ := (isSubtype_iff_exists_member (by simp)).1 hbc
    cases eq_anything_of_isSubtype (ne_oneOf_of_mem_members hz) h
    exact isSubtype_iff_members.2 fun x _ => ⟨.anything, hz, isSubtype_anything x⟩
  | case2 os b hany ih =>
    by_cases hc : c = .anything
    · cases hc
      exact isSubtype_anything _
    · exact (isSubtype_oneOf_left hc).2 fun o ho =>
        ih o ho (allRecordFree_iff.1 ha o ho) ((isSubtype_oneOf_left hany).1 hab o ho) hbc
  | case3 a os hne _ ih =>
    by_cases hc : c = .anything
    · cases hc
      exact isSubtype_anything _
    · obtain ⟨o, ho, h⟩ := (isSubtype_oneOf_right hne).1 hab
      exact ih o ho ha h ((isSubtype_oneOf_left hc).1 hbc o ho)
  | case4 => exact hbc
  | case5 a b _ _ _ _ ih =>
    obtain ⟨z, hz, h⟩ := (isSubtype_iff_exists_member (by simp)).1 hbc
    refine (isSubtype_iff_exists_member (by simp)).2 ⟨z, hz, ?_⟩
    have hab := isSubtype_listOf_iff.1 hab
    rcases (isSubtype_member_iff (by simp) (ne_oneOf_of_mem_members hz) (by simp)).1 h with
      rfl | rfl | ⟨i, j, hi, rfl, hij⟩ | hfits
    · exact isSubtype_anything _
    · exact isSubtype_listOf_iff.2 hab
    · cases hi
      exact isSubtype_listOf_iff.2 (ih ha hab hij)
    · obtain ⟨rfl, hjson⟩ := fits_listOf.1 hfits
      exact isSubtype_of_fits (by simp) (by simp)
        (fits_listOf.2 ⟨rfl, isJson_of_isSubtype ha hab hjson⟩)
  | case6 => cases ha
  | case7 a b hlists hrecords hone hone' hany hne =>
    rw [isSubtype.eq_5 a b hone hone' hlists hrecords, if_neg hany, if_neg hne] at hab
    obtain ⟨z, hz, h⟩ := (isSubtype_iff_exists_member hone').1 hbc
    have hz' := ne_oneOf_of_mem_members hz
    refine (isSubtype_iff_exists_member hone).2 ⟨z, hz, ?_⟩
    have hrecord : ∀ fs gs, b = .record fs → z ≠ .record gs := by
      rintro fs gs rfl
      cases a <;> cases hab
    rcases (isSubtype_member_iff hone' hz' hrecord).1 h with
      rfl | rfl | ⟨i, j, rfl, rfl, -⟩ | hfits
    · exact isSubtype_anything _
    · exact isSubtype_of_fits hone hone' hab
    · cases a <;> cases hab
    · exact isSubtype_of_fits hone hz' (fits_trans hab hfits)

/-! ## Unions -/

theorem mem_members_alternatives {x s : Shape} :
    (∃ o ∈ s.alternatives, x ∈ o.members) ↔ x ∈ s.members := by
  cases s with
  | oneOf os => exact mem_members_oneOf.symm
  | _ => simp [alternatives]

theorem mem_members_union {x : Shape} {ss : List Shape} :
    x ∈ (union ss).members ↔ ∃ s ∈ ss, x ∈ s.members := by
  have hset : x ∈ (union ss).members ↔
      ∃ o ∈ setOf (ss.flatMap alternatives), x ∈ o.members := by
    rcases union_cases ss with h | h
    · simp [h]
    · rw [h]
      exact mem_members_oneOf
  rw [hset]
  constructor
  · rintro ⟨o, ho, hx⟩
    obtain ⟨s, hs, ho⟩ := List.mem_flatMap.1 (mem_setOf.1 ho)
    exact ⟨s, hs, mem_members_alternatives.1 ⟨o, ho, hx⟩⟩
  · rintro ⟨s, hs, hx⟩
    obtain ⟨o, ho, hx⟩ := mem_members_alternatives.2 hx
    exact ⟨o, mem_setOf.2 (List.mem_flatMap.2 ⟨s, hs, ho⟩), hx⟩

theorem isSubtype_union {s : Shape} {ss : List Shape} (hs : s ∈ ss) :
    isSubtype s (union ss) = true :=
  isSubtype_iff_members.2 fun x hx =>
    ⟨x, mem_members_union.2 ⟨s, hs, hx⟩, isSubtype_self_of_ne_oneOf (ne_oneOf_of_mem_members hx)⟩

theorem union_isSubtype {ss : List Shape} {c : Shape} (h : ∀ s ∈ ss, isSubtype s c = true) :
    isSubtype (union ss) c = true :=
  isSubtype_iff_members.2 fun x hx => by
    obtain ⟨s, hs, hx⟩ := mem_members_union.1 hx
    exact isSubtype_iff_members.1 (h s hs) x hx

/-- Subtyping is reflexive, and transitive from shapes without records on. The union of
shapes is the least shape above all of them, and its values are theirs. -/
theorem isSubtype_preorder_join :
    (∀ a : Shape, isSubtype a a = true) ∧
      (∀ a b c : Shape, a.isRecordFree = true → isSubtype a b = true → isSubtype b c = true →
        isSubtype a c = true) ∧
      ∀ ss : List Shape,
        (∀ s ∈ ss, isSubtype s (union ss) = true) ∧
          (∀ c, (∀ s ∈ ss, isSubtype s c = true) → isSubtype (union ss) c = true) ∧
          ∀ v, conforms (union ss) v = true ↔ ∃ s ∈ ss, conforms s v = true :=
  ⟨isSubtype_refl, fun _ _ _ => isSubtype_trans, fun _ =>
    ⟨fun _ => isSubtype_union, fun _ => union_isSubtype, fun _ => conforms_union⟩⟩

/-- Lists of integers and sizes are lists of numbers and texts, and those are JSON; the
alternatives of a union may be unions, and JSON may be above all of them. -/
theorem isSubtype_preorder_join_sizes :
    isSubtype (.listOf (.oneOf [.scalar .int, .enum "Size" ["s", "m"]])) (.scalar .json) = true ∧
      isSubtype (.oneOf [.oneOf [.scalar .int, .enum "Size" ["s", "m"]], .listOf .null])
        (union [.oneOf [.oneOf [.scalar .int, .enum "Size" ["s", "m"]], .listOf .null], .null]) =
          true ∧
      isSubtype (union [.scalar .float, .listOf .null]) (.scalar .json) = true := by
  obtain ⟨-, htrans, hjoin⟩ := isSubtype_preorder_join
  have hint : isSubtype (.scalar .int) (.scalar .float) = true :=
    isSubtype_of_fits (by simp) (by simp) rfl
  have hsize : isSubtype (.enum "Size" ["s", "m"]) (.scalar .text) = true :=
    isSubtype_of_fits (by simp) (by simp) rfl
  have hitems : isSubtype (.oneOf [.scalar .int, .enum "Size" ["s", "m"]])
      (.oneOf [.scalar .float, .scalar .text]) = true :=
    isSubtype_iff_members.2 (by simp [members, membersAll, hint, hsize])
  have hjson :
      isSubtype (.listOf (.oneOf [.scalar .float, .scalar .text])) (.scalar .json) = true :=
    isSubtype_of_fits (by simp) (by simp) (by decide)
  have hfloat : isSubtype (.scalar .float) (.scalar .json) = true :=
    isSubtype_of_fits (by simp) (by simp) rfl
  have hnulls : isSubtype (.listOf .null) (.scalar .json) = true :=
    isSubtype_of_fits (by simp) (by simp) rfl
  exact ⟨htrans _ _ _ (by decide) (isSubtype_listOf_iff.2 hitems) hjson,
    (hjoin _).1 _ List.mem_cons_self, (hjoin _).2.1 _ (by simp [hfloat, hnulls])⟩

end Shape

end RecordSchema
