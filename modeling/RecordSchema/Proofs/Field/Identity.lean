import RecordSchema.Field.Type
import RecordSchema.Proofs.Shape.Column
import RecordSchema.Proofs.Success

/-!
# Fields without a resolver

When the verdict on an operation is that a resolver may be left out, the
value of the argument is the value that storage takes: every value that
a request can hand over for the argument has the target shape, so the
field answers it unchanged (`Storage.identity_of_optional`).

Soundness of subtyping for strict shapes does not apply as it is. A
shape of arguments may name an input object, which says nothing of its
values; but a request hands over input objects as mappings
(`Shape.isSent`), and an input object is below filters only. Where the
JSON rule is used there is no input object, and the shape is strict.
-/

namespace RecordSchema

namespace Shape

/-! ## Shapes of arguments -/

mutual

/-- Whether a shape is made of scalars, enums, null, undefined and input objects by
lists and unions, as the shapes of declared types are. -/
def isArgument : Shape → Bool
  | .undefined => true
  | .null => true
  | .scalar _ => true
  | .enum .. => true
  | .inputObject _ => true
  | .listOf item => isArgument item
  | .oneOf os => allArguments os
  | _ => false

/-- Whether all the shapes are shapes of arguments. -/
def allArguments : List Shape → Bool
  | [] => true
  | s :: r => isArgument s && allArguments r

end

theorem allArguments_iff {os : List Shape} :
    allArguments os = true ↔ ∀ o ∈ os, o.isArgument = true := by
  induction os with
  | nil => simp [allArguments]
  | cons s r ih => simp [allArguments, ih]

theorem isArgument_of_alternatives {s o : Shape} (h : s.isArgument = true)
    (ho : o ∈ s.alternatives) : o.isArgument = true := by
  cases s with
  | oneOf os => exact allArguments_iff.1 h o ho
  | _ => exact List.mem_singleton.1 ho ▸ h

theorem isArgument_union {ss : List Shape} (h : ∀ s ∈ ss, s.isArgument = true) :
    (union ss).isArgument = true := by
  have hall : ∀ o ∈ setOf (ss.flatMap alternatives), o.isArgument = true := by
    intro o ho
    obtain ⟨s, hs, ho⟩ := List.mem_flatMap.1 (mem_setOf.1 ho)
    exact isArgument_of_alternatives (h s hs) ho
  rcases union_cases ss with heq | heq
  · exact hall _ (heq ▸ List.mem_singleton_self _)
  · rw [heq]
    exact allArguments_iff.2 hall

theorem isArgument_without {s : Shape} (h : s.isArgument = true) (removed : List Shape) :
    (s.without removed).isArgument = true := by
  unfold without
  split
  · split
    · rfl
    · exact isArgument_union fun o ho => allArguments_iff.1 h o (List.mem_filter.1 ho).1
  · split
    · rfl
    · exact h

mutual

/-- A shape of arguments that JSON can express has no input object in it. -/
theorem isStrict_of_isJson : {s : Shape} → s.isArgument = true → s.isJson = true → s.isStrict = true
  | .null, _, _ => rfl
  | .scalar _, _, _ => rfl
  | .enum .., _, _ => rfl
  | .listOf item, h, hj => by
    rw [isStrict]
    rw [isArgument] at h
    rw [isJson] at hj
    exact isStrict_of_isJson h hj
  | .oneOf os, h, hj => by
    rw [isStrict]
    rw [isArgument] at h
    rw [isJson] at hj
    exact allStrict_of_allJson h hj

theorem allStrict_of_allJson :
    {os : List Shape} → allArguments os = true → allJson os = true → allStrict os = true
  | [], _, _ => rfl
  | s :: r, h, hj => by
    simp only [allArguments, allJson, allStrict, Bool.and_eq_true] at h hj ⊢
    exact ⟨isStrict_of_isJson h.1 hj.1, allStrict_of_allJson h.2 hj.2⟩

end

/-! ## Values of arguments -/

mutual

/-- Whether a request can hand over a value where a shape is expected: the value
conforms, and it is a mapping wherever an input object is expected. -/
def isSent : Shape → Value → Bool
  | .inputObject _, v => v.isMapping
  | .listOf item, v =>
    match v.items? with
    | some vs => vs.all fun v => isSent item v
    | none => false
  | .oneOf os, v => sentAny os v
  | s, v => conforms s v

/-- Whether a request can hand over a value where one of the shapes is expected. -/
def sentAny : List Shape → Value → Bool
  | [], _ => false
  | s :: r, v => isSent s v || sentAny r v

end

theorem sentAny_iff {os : List Shape} {v : Value} :
    sentAny os v = true ↔ ∃ o ∈ os, isSent o v = true := by
  induction os with
  | nil => simp [sentAny]
  | cons s r ih => simp [sentAny, ih]

theorem isSent_listOf {item : Shape} {v : Value} :
    isSent (.listOf item) v = true ↔
      ∃ vs, v.items? = some vs ∧ ∀ u ∈ vs, isSent item u = true := by
  rw [isSent]
  cases v.items? with
  | none => simp
  | some vs => simp

mutual

/-- What a request hands over conforms. -/
theorem conforms_of_isSent : {s : Shape} → {v : Value} → isSent s v = true → conforms s v = true
  | .inputObject _, v, h => by cases v <;> first | rfl | cases h
  | .listOf item, v, h => by
    obtain ⟨vs, hvs, hall⟩ := isSent_listOf.1 h
    exact conforms_listOf.2 ⟨vs, hvs, fun u hu => conforms_of_isSent (hall u hu)⟩
  | .oneOf os, v, h => by
    rw [conforms]
    rw [isSent] at h
    exact conformsAny_of_sentAny h
  | .undefined, _, h | .null, _, h | .anything, _, h | .filter, _, h | .scalar _, _, h
  | .enum .., _, h | .record _, _, h | .listType .., _, h | .relationInput .., _, h
  | .relatedItem _, _, h | .relatedItems _, _, h => by
    rw [isSent] at h
    all_goals first | exact h | nofun

theorem conformsAny_of_sentAny :
    {os : List Shape} → {v : Value} → sentAny os v = true → conformsAny os v = true
  | s :: r, v, h => by
    simp only [sentAny, conformsAny, Bool.or_eq_true] at h ⊢
    exact h.imp conforms_of_isSent conformsAny_of_sentAny

end

/-! ## Subtyping of arguments -/

/-- Subtyping of arguments that are no unions and no lists of another item. -/
theorem conforms_of_fits_of_isSent {a b : Shape} {v : Value} (ha : a.isArgument = true)
    (h : fits a b = true) (hv : isSent a v = true) : conforms b v = true := by
  cases a with
  | inputObject name =>
    cases b <;> first | exact hv | cases h
  | scalar s => exact conforms_of_fits rfl h (conforms_of_isSent hv)
  | enum name values => exact conforms_of_fits rfl h (conforms_of_isSent hv)
  | listOf item =>
    -- Of what is no list itself only JSON is above a list.
    have hjson : item.isJson = true := by
      unfold fits at h
      split at h <;> simp_all
    exact conforms_of_fits (isStrict_of_isJson ha (by rwa [isJson])) h (conforms_of_isSent hv)
  | undefined | null | oneOf os => cases b <;> cases h
  | _ => cases ha

/-- Whatever a request hands over for an argument has every shape above that of the
argument. -/
theorem conforms_of_isSubtype_of_isSent {a b : Shape} {v : Value} (ha : a.isArgument = true)
    (h : isSubtype a b = true) (hv : isSent a v = true) : conforms b v = true := by
  induction a, b using isSubtype.induct generalizing v with
  | case1 a => rw [conforms]
  | case2 os b hb ih =>
    rw [isSent] at hv
    obtain ⟨o, ho, hov⟩ := sentAny_iff.1 hv
    exact ih o ho (allArguments_iff.1 ha o ho) ((isSubtype_oneOf_left hb).1 h o ho) hov
  | case3 a os hone _ ih =>
    obtain ⟨o, ho, hsub⟩ := (isSubtype_oneOf_right hone).1 h
    exact conformsAny_iff.2 ⟨o, ho, ih o ho ha hsub hv⟩
  | case4 => exact conforms_of_isSent hv
  | case5 a b _ _ _ hne ih =>
    rw [isSubtype_listOf hne] at h
    obtain ⟨vs, hvs, hall⟩ := isSent_listOf.1 hv
    exact conforms_listOf.2 ⟨vs, hvs, fun u hu => ih ha h (hall u hu)⟩
  | case6 => cases ha
  | case7 a b hlists hrecords hone hone' hb hne =>
    rw [isSubtype.eq_5 a b hone hone' hlists hrecords, if_neg hb, if_neg hne] at h
    exact conforms_of_fits_of_isSent ha h hv

end Shape

/-! ## Declared types -/

namespace TypeExpr

/-- The values of a declared type, and the items of a list of them, have shapes of
arguments. -/
theorem isArgument_of_shape :
    (∀ (t : TypeExpr) s, t.valueShape = .ok s → s.isArgument = true) ∧
      ∀ (t : TypeExpr) s, t.itemShape = .ok s → s.isArgument = true := by
  apply valueShape.mutual_induct (fun t => ∀ s, t.valueShape = .ok s → s.isArgument = true)
    (fun t => ∀ s, t.itemShape = .ok s → s.isArgument = true)
  case case1 | case7 | case8 =>
    intros
    next h =>
    rw [valueShape] at h
    cases h
    rfl
  case case2 | case4 | case6 =>
    intros
    next ih s h =>
    rw [valueShape] at h
    exact ih s h
  case case3 | case5 =>
    intros
    next h =>
    rw [valueShape] at h
    cases h
  case case9 =>
    intros
    next h =>
    rw [valueShape] at h <;> first | cases h | assumption
  case case10 =>
    intro t ih s h
    rw [itemShape] at h
    exact ih s h
  case case11 =>
    intro spelling ms m hm _ ih s h
    rw [itemShape] at h
    split at h
    · next m' hm' =>
      obtain rfl : m' = m := by simpa using hm'.symm.trans hm
      obtain ⟨item, hitem, rfl⟩ := Except.map_eq_ok.1 h
      have hitem := ih item hitem
      split
      · exact Shape.isArgument_union (List.forall_mem_cons.2 ⟨hitem, List.forall_mem_singleton.2 rfl⟩)
      · exact hitem
    · cases h
  case case12 =>
    intro spelling ms hnone s h
    rw [itemShape] at h
    split at h
    · next m hm => exact absurd hm (hnone m)
    · cases h
  case case13 =>
    intro t hannotated hunion ih s h
    rw [itemShape] at h
    · obtain ⟨item, hitem, rfl⟩ := Except.map_eq_ok.1 h
      exact ih item hitem
    · exact hannotated
    · exact hunion

theorem isArgument_of_argumentShape {t : TypeExpr} {hasDefault : Bool} {s : Shape}
    (h : t.argumentShape hasDefault = .ok s) : s.isArgument = true := by
  simp only [argumentShape, Except.bind_eq_ok, Except.pure_eq_ok] at h
  obtain ⟨⟨value, nullable⟩, -, shape, hshape, rfl⟩ := h
  have hvalue := isArgument_of_shape.1 value shape hshape
  split
  · exact hvalue
  · split
    · exact Shape.isArgument_union
        (List.forall_mem_cons.2 ⟨hvalue, List.forall_mem_singleton.2 rfl⟩)
    · exact Shape.isArgument_union (List.forall_mem_cons.2 ⟨hvalue,
        List.forall_mem_cons.2 ⟨rfl, List.forall_mem_singleton.2 rfl⟩⟩)

end TypeExpr

theorem Arg.inputShape_ok {a : Arg} {s : Shape} (h : a.type.argumentShape a.hasDefault = .ok s)
    (op : Operation) :
    ∃ input, a.inputShape op = .ok input ∧ input.isArgument = true := by
  have hs := TypeExpr.isArgument_of_argumentShape h
  simp only [inputShape, h]
  refine ⟨_, rfl, ?_⟩
  split
  · exact Shape.isArgument_without hs _
  · exact Shape.isArgument_without hs _
  · exact Shape.isArgument_without hs _
  · exact hs

/-! ## Verdicts -/

namespace Storage

/-- Where the verdict on an argument is that a resolver may be left out, a field
without one answers every value that a request can hand over. -/
theorem identity_of_optional {s : Storage} (hs : s.problems = []) (op : Operation) {a : Arg}
    (ha : a.assumeCompatible = Option.none) {shape : Shape}
    (hshape : a.type.argumentShape a.hasDefault = .ok shape) :
    ∃ verdict, s.obligation op (some a) = .ok verdict ∧
      (verdict.obligation = .optional → ∀ f : Field, f.storage = s →
        f.input? op = some { arg := some a, resolve := Option.none } →
        ∀ v, verdict.input.isSent v = true → ∀ context, f.resolveInput op v context = .ok v) := by
  obtain ⟨target, htarget⟩ := exists_shape hs op
  obtain ⟨input, hinput, hargument⟩ := Arg.inputShape_ok hshape op
  have hverdict : s.obligation op (some a) = .ok
      (if input.isSubtype target then ⟨op, .optional, input, target, .fits⟩
        else ⟨op, .mandatory, input, target, .tooWide input target⟩) := by
    simp only [obligation, htarget, hinput, ha]
    rfl
  refine ⟨_, hverdict, ?_⟩
  split
  · next hsub =>
    rintro - f rfl hwired v hv context
    have hconforms : (f.shape op).conforms v = true := by
      rw [Field.shape, htarget]
      exact Shape.conforms_of_isSubtype_of_isSent hargument hsub hv
    simp only [Field.resolveInput, hwired]
    exact if_pos hconforms
  · nofun

/-- A colour, which may be null or left out. -/
def colour : Arg where
  type := .union .typing [.enum "" "Colour" [("RED", .text "red"), ("BLUE", .text "blue")], .null]

/-- A text that takes colours without a resolver. -/
def tint : Field where
  list := "Shelf"
  key := "tint"
  storage := .scalar { scalar := .text }
  inputs := [(.create, { arg := some colour })]
  verdicts := []
  output := Option.none
  extraOutputs := []
  label := "Tint"
  views := .null
  adminMeta := Option.none
  classes := []

theorem colour_argumentShape : colour.type.argumentShape colour.hasDefault =
    .ok (.oneOf [.enum "Colour" ["red", "blue"], .null, .undefined]) := by
  have henum : (TypeExpr.enum "" "Colour" [("RED", .text "red"), ("BLUE", .text "blue")]).valueShape
      = .ok (.enum "Colour" ["red", "blue"]) := by rw [TypeExpr.valueShape]; rfl
  have hsplit : colour.type.plain.splitNull =
      .ok (.enum "" "Colour" [("RED", .text "red"), ("BLUE", .text "blue")], true) := rfl
  have hunion : Shape.union [.enum "Colour" ["red", "blue"], .null, .undefined] =
      .oneOf [.enum "Colour" ["red", "blue"], .null, .undefined] := by decide +kernel
  rw [TypeExpr.argumentShape, hsplit, ← hunion]
  have hdefault : colour.hasDefault = false := rfl
  simp only [Except.mapError, bind, Except.bind, pure, Except.pure, henum, hdefault, Bool.not_true,
    Bool.false_eq_true, if_false]

theorem identity_of_optional_tint :
    tint.storage.problems = [] ∧ colour.assumeCompatible = Option.none ∧
      colour.type.argumentShape colour.hasDefault =
        .ok (.oneOf [.enum "Colour" ["red", "blue"], .null, .undefined]) ∧
      ∃ verdict, tint.storage.obligation .create (some colour) = .ok verdict ∧
        verdict.obligation = .optional ∧ verdict.input.isSent (.text "red") = true ∧
        tint.resolveInput .create (.text "red") .null = .ok (.text "red") := by
  have hproblems : tint.storage.problems = [] := rfl
  obtain ⟨verdict, hverdict, hid⟩ :=
    identity_of_optional hproblems .create (rfl : colour.assumeCompatible = Option.none)
      colour_argumentShape
  have hinput : colour.inputShape .create =
      .ok (.oneOf [.enum "Colour" ["red", "blue"], .null, .undefined]) := by
    rw [Arg.inputShape, colour_argumentShape]
    rfl
  have hsub : Shape.isSubtype (.oneOf [.enum "Colour" ["red", "blue"], .null, .undefined])
      (.oneOf [.null, .scalar .text, .undefined]) = true := by decide +kernel
  have hdecided : tint.storage.obligation .create (some colour) = .ok
      ⟨.create, .optional, .oneOf [.enum "Colour" ["red", "blue"], .null, .undefined],
        .oneOf [.null, .scalar .text, .undefined], .fits⟩ := by
    have hunion : Shape.union [.scalar .text, .null, .undefined] =
        .oneOf [.null, .scalar .text, .undefined] := by decide +kernel
    have htarget : tint.storage.shape .create = .ok (.oneOf [.null, .scalar .text, .undefined]) :=
      congrArg Except.ok hunion
    simp only [obligation, htarget, hinput]
    change Except.ok (if Shape.isSubtype _ _ = true then _ else _) = _
    rw [if_pos hsub]
  obtain rfl := Except.ok.inj (hverdict.symm.trans hdecided)
  exact ⟨hproblems, rfl, colour_argumentShape, _, hverdict, rfl, rfl,
    hid rfl tint rfl rfl (.text "red") rfl .null⟩

end Storage

end RecordSchema
