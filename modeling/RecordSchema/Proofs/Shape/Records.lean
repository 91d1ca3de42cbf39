import Mathlib.Data.Finset.Basic
import Mathlib.Data.Fintype.EquivFin
import Mathlib.Data.String.Basic
import RecordSchema.Proofs.Lists
import RecordSchema.Proofs.Shape.Preorder
import RecordSchema.Proofs.Value.Json

/-!
# Records below other shapes

Subtyping reads a record as if it said all about its values: a field that
it does not name counts as not sent, and JSON can express its values when
JSON can express its fields. Conformance is open, though: an entry that no
field names may hold anything. So a record below another shape is a promise
about the entries that it names, and no promise about the others.

`Closed s v` says that `v` belongs to `s` and has no entry, at any depth,
that the record there does not name. On such values subtyping is sound
(`conforms_of_closed_of_isSubtype`). The others are values of the upper
shape just when their unnamed entries are, and some value of the record
is none of the upper shape as soon as that one looks at an unnamed entry.
-/

namespace RecordSchema

namespace Value

/-- Whether the keys of a mapping are texts, and each stands for one entry. -/
def Entries.HasTextKeys (es : Entries) : Prop :=
  ∀ e ∈ es, ∃ k, e = (.text k, es.get k)

theorem Entries.HasTextKeys.put {es : Entries} (h : es.HasTextKeys) (key : String) (v : Value) :
    (es.put key v).HasTextKeys := by
  intro e he
  rcases mem_put he with rfl | hold
  · exact ⟨key, by rw [get_put_self]⟩
  · obtain ⟨k, hk⟩ := h e hold
    by_cases hkey : k = key
    · subst hkey
      rw [hk] at he
      exact ⟨k, by rw [hk, get_put_self, ← eq_of_mem_put he, eq_of_mem_put he]⟩
    · exact ⟨k, by rw [get_put_ne hkey, hk]⟩

end Value

namespace Shape

open Value (Entries)

/-! ## Shapes of data -/

mutual

/-- Whether a shape is put together from scalars, enums, null, what is not sent, lists,
unions and records. -/
def isData : Shape → Bool
  | .undefined | .null | .scalar _ | .enum .. => true
  | .listOf item => isData item
  | .oneOf os => allData os
  | .record fs => fieldsData fs
  | _ => false

/-- Whether all the shapes are shapes of data. -/
def allData : List Shape → Bool
  | [] => true
  | s :: r => isData s && allData r

/-- Whether all the fields have shapes of data. -/
def fieldsData : List (String × Shape) → Bool
  | [] => true
  | (_, s) :: r => isData s && fieldsData r

end

theorem allData_iff {os : List Shape} : allData os = true ↔ ∀ o ∈ os, o.isData = true := by
  induction os with
  | nil => simp [allData]
  | cons s r ih => simp [allData, ih]

theorem fieldsData_iff {fs : List (String × Shape)} :
    fieldsData fs = true ↔ ∀ f ∈ fs, f.2.isData = true := by
  induction fs with
  | nil => simp [fieldsData]
  | cons f r ih => simp [fieldsData, ih]

theorem conformsFields_iff_forall {fs : List (String × Shape)} {es : Entries} :
    conformsFields fs es = true ↔ ∀ f ∈ fs, conforms f.2 (es.get f.1) = true := by
  induction fs with
  | nil => simp [conformsFields]
  | cons f r ih => simp [conformsFields, ih]

/-- The keys that a record names. -/
def names (fs : List (String × Shape)) : List String :=
  fs.map Prod.fst

theorem fieldOf_mem {fs : List (String × Shape)} {k : String} (h : k ∈ names fs) :
    (k, fieldOf fs k) ∈ fs := by
  cases hs : fs.lookup k with
  | none => exact absurd h (Keys.lookup_eq_none_iff.1 hs)
  | some s =>
    rw [fieldOf, hs]
    exact Keys.mem_of_lookup hs

theorem fieldOf_of_notMem {fs : List (String × Shape)} {k : String} (h : k ∉ names fs) :
    fieldOf fs k = .undefined := by
  cases hs : fs.lookup k with
  | none => rw [fieldOf, hs]; rfl
  | some s => exact absurd (List.mem_map.2 ⟨_, Keys.mem_of_lookup hs, rfl⟩) h

/-! ## Closed values -/

mutual

/-- Whether a value belongs to a shape and holds no entry, at any depth, that the record
there does not name. -/
def Closed : Shape → Value → Prop
  | .oneOf os, v => ClosedAny os v
  | .listOf item, v => ∃ vs, v.items? = some vs ∧ ∀ u ∈ vs, Closed item u
  | .record fs, v =>
    ∃ es : Entries, v = .map es ∧ (∀ e ∈ es, ∃ k ∈ names fs, e = (.text k, es.get k)) ∧
      ClosedFields fs es
  | s, v => conforms s v = true

/-- Whether a value is closed for one of the shapes. -/
def ClosedAny : List Shape → Value → Prop
  | [], _ => False
  | s :: r, v => Closed s v ∨ ClosedAny r v

/-- Whether the entries that the fields name are closed for the shapes of the fields. -/
def ClosedFields : List (String × Shape) → Entries → Prop
  | [], _ => True
  | (k, s) :: r, es => Closed s (es.get k) ∧ ClosedFields r es

end

theorem closedAny_iff {os : List Shape} {v : Value} : ClosedAny os v ↔ ∃ o ∈ os, Closed o v := by
  induction os with
  | nil => simp [ClosedAny]
  | cons s r ih => simp [ClosedAny, ih]

theorem closedFields_iff {fs : List (String × Shape)} {es : Entries} :
    ClosedFields fs es ↔ ∀ f ∈ fs, Closed f.2 (es.get f.1) := by
  induction fs with
  | nil => simp [ClosedFields]
  | cons f r ih => simp [ClosedFields, ih]

mutual

theorem Closed.conforms : {s : Shape} → {v : Value} → Closed s v → conforms s v = true
  | .oneOf _, _, h => ClosedAny.conforms h
  | .listOf _, _, ⟨vs, hvs, hall⟩ => conforms_listOf.2 ⟨vs, hvs, fun u hu => (hall u hu).conforms⟩
  | .record _, _, ⟨_, rfl, _, hfields⟩ => ClosedFields.conforms hfields
  | .undefined, _, h | .null, _, h | .anything, _, h | .filter, _, h | .scalar _, _, h
  | .enum .., _, h | .inputObject _, _, h | .listType .., _, h | .relationInput .., _, h
  | .relatedItem _, _, h | .relatedItems _, _, h => h

theorem ClosedAny.conforms : {os : List Shape} → {v : Value} → ClosedAny os v →
    conformsAny os v = true
  | _ :: _, _, .inl h => by rw [conformsAny, h.conforms, Bool.true_or]
  | _ :: _, _, .inr h => by rw [conformsAny, ClosedAny.conforms h, Bool.or_true]

theorem ClosedFields.conforms : {fs : List (String × Shape)} → {es : Entries} →
    ClosedFields fs es → conformsFields fs es = true
  | [], _, _ => rfl
  | _ :: _, _, ⟨h, hr⟩ => by rw [conformsFields, h.conforms, ClosedFields.conforms hr]; rfl

end

mutual

/-- A strict shape looks into no mapping, so all its values are closed. -/
theorem closed_of_isStrict : {s : Shape} → {v : Value} → s.isStrict = true →
    conforms s v = true → Closed s v
  | .oneOf _, _, hs, h => closedAny_of_allStrict hs h
  | .listOf _, _, hs, h => by
    obtain ⟨vs, hvs, hall⟩ := conforms_listOf.1 h
    exact ⟨vs, hvs, fun u hu => closed_of_isStrict hs (hall u hu)⟩
  | .undefined, _, _, h | .null, _, _, h | .anything, _, _, h | .filter, _, _, h
  | .scalar _, _, _, h | .enum .., _, _, h | .relationInput .., _, _, h | .relatedItem _, _, _, h
  | .relatedItems _, _, _, h => h

theorem closedAny_of_allStrict : {os : List Shape} → {v : Value} → allStrict os = true →
    conformsAny os v = true → ClosedAny os v
  | _ :: _, _, hs, h => by
    obtain ⟨hs, hr⟩ := Bool.and_eq_true_iff.1 hs
    rcases Bool.or_eq_true_iff.1 h with h | h
    · exact .inl (closed_of_isStrict hs h)
    · exact .inr (closedAny_of_allStrict hr h)

end

/-! ## JSON -/

mutual

theorem Closed.isJson : {s : Shape} → {v : Value} → s.isJson = true → Closed s v → v.isJson = true
  | .oneOf _, _, hs, h => ClosedAny.isJson hs h
  | .null, v, _, h => by cases v <;> first | rfl | cases h
  | .enum .., _, _, h => by
    obtain ⟨s, -, rfl⟩ := exists_text_of_conforms h
    rfl
  | .scalar _, _, hs, h => Scalar.isJson_of_admits hs h
  | .listOf item, _, hs, ⟨_, hvs, hall⟩ =>
    (Value.isJson_of_items? hvs).2 fun u hu => Closed.isJson (s := item) hs (hall u hu)
  | .record _, _, hs, ⟨es, hes, hkeys, hfields⟩ => by
    subst hes
    refine Value.entriesJson_iff.2 fun e he => ?_
    obtain ⟨k, hk, heq⟩ := hkeys e he
    obtain ⟨f, hf, rfl⟩ := List.mem_map.1 hk
    rw [heq]
    exact ⟨⟨f.1, rfl⟩, ClosedFields.isJson hs hfields f hf⟩

theorem ClosedAny.isJson : {os : List Shape} → {v : Value} → allJson os = true → ClosedAny os v →
    v.isJson = true
  | _ :: _, _, hs, .inl h => h.isJson (Bool.and_eq_true_iff.1 hs).1
  | _ :: _, _, hs, .inr h => ClosedAny.isJson (Bool.and_eq_true_iff.1 hs).2 h

theorem ClosedFields.isJson : {fs : List (String × Shape)} → {es : Entries} →
    fieldsJson fs = true → ClosedFields fs es → ∀ f ∈ fs, (es.get f.1).isJson = true
  | [], _, _, _ => nofun
  | (_, _) :: _, _, hs, ⟨h, hr⟩ => List.forall_mem_cons.2
    ⟨h.isJson (Bool.and_eq_true_iff.1 hs).1, ClosedFields.isJson (Bool.and_eq_true_iff.1 hs).2 hr⟩

end

/-! ## Soundness on closed values -/

/-- Below JSON and filters: what JSON can express is a value, and a record is a mapping. -/
theorem conforms_of_fits_of_closed {a b : Shape} {v : Value} (ha : a.isData = true)
    (h : fits a b = true) (hv : Closed a v) : conforms b v = true := by
  unfold fits at h
  split at h
  · exact Scalar.admits_of_widensTo h hv
  · next vs _ ws =>
    obtain ⟨s, hs, rfl⟩ := exists_text_of_conforms hv
    exact List.all_eq_true.1 h s hs
  · next t =>
    obtain ⟨s, -, rfl⟩ := exists_text_of_conforms hv
    simp only [Bool.or_eq_true, beq_iff_eq] at h
    rcases h with rfl | rfl
    · rfl
    · rfl
  · next item => exact Closed.isJson (s := .listOf item) h hv
  · next fs => exact Closed.isJson (s := .record fs) h hv
  · cases ha
  · obtain ⟨es, rfl, -⟩ := hv
    rfl
  · cases ha
  · cases h

theorem isSubtype_record {fs gs : List (String × Shape)} (hne : Shape.record fs ≠ .record gs) :
    isSubtype (.record fs) (.record gs) = true ↔
      ∀ f ∈ gs, isSubtype (fieldOf fs f.1) f.2 = true := by
  rw [isSubtype, if_neg (by simp), if_neg hne]
  simp

/-- What a closed mapping holds under a key is closed for the field; under a key that is not
named it holds nothing. -/
theorem closed_get {fs : List (String × Shape)} {es : Entries} (hfields : ClosedFields fs es)
    {k : String} (h : k ∈ names fs ∨ es.get k = .unset) : Closed (fieldOf fs k) (es.get k) := by
  by_cases hk : k ∈ names fs
  · exact closedFields_iff.1 hfields _ (fieldOf_mem hk)
  · rw [fieldOf_of_notMem hk, h.resolve_left hk]
    rfl

theorem isData_fieldOf {fs : List (String × Shape)} (hfs : fieldsData fs = true) (k : String) :
    (fieldOf fs k).isData = true := by
  by_cases hk : k ∈ names fs
  · exact fieldsData_iff.1 hfs _ (fieldOf_mem hk)
  · rw [fieldOf_of_notMem hk]
    rfl

/-- Every closed value of a shape of data is a value of the shapes above it. -/
theorem conforms_of_closed_of_isSubtype {a b : Shape} {v : Value} (ha : a.isData = true)
    (h : isSubtype a b = true) (hv : Closed a v) : conforms b v = true := by
  induction a, b using isSubtype.induct generalizing v with
  | case1 a => rw [Shape.conforms]
  | case2 os b hb ih =>
    obtain ⟨o, ho, hov⟩ := closedAny_iff.1 hv
    exact ih o ho (allData_iff.1 ha o ho) ((isSubtype_oneOf_left hb).1 h o ho) hov
  | case3 a os hone _ ih =>
    obtain ⟨o, ho, hsub⟩ := (isSubtype_oneOf_right hone).1 h
    exact conformsAny_iff.2 ⟨o, ho, ih o ho ha hsub hv⟩
  | case4 => exact hv.conforms
  | case5 a b _ _ _ hne ih =>
    rw [isSubtype_listOf hne] at h
    obtain ⟨vs, hvs, hall⟩ := hv
    exact conforms_listOf.2 ⟨vs, hvs, fun u hu => ih ha h (hall u hu)⟩
  | case6 fs gs _ _ _ hne ih =>
    obtain ⟨es, rfl, hkeys, hfields⟩ := hv
    refine conformsFields_iff_forall.2 fun f hf => ?_
    refine ih f.1 f.2 hf (isData_fieldOf ha f.1) ((isSubtype_record hne).1 h f hf) ?_
    refine closed_get hfields ?_
    by_cases hsent : (es.get f.1).isUnset = true
    · exact .inr (Value.eq_unset hsent)
    · obtain ⟨k, hk, heq⟩ := hkeys _ (Entries.mem_of_get (by simpa using hsent))
      cases heq
      exact .inl hk
  | case7 a b hlists hrecords hone hone' hb hne =>
    rw [isSubtype.eq_5 a b hone hone' hlists hrecords, if_neg hb, if_neg hne] at h
    exact conforms_of_fits_of_closed ha h hv

/-! ## Unnamed entries -/

/-- A mapping whose named entries are closed belongs to an upper record just when its
unnamed entries do. -/
theorem conforms_record_iff_unnamed {fs gs : List (String × Shape)} {es : Entries}
    (hfs : fieldsData fs = true) (hsub : isSubtype (.record fs) (.record gs) = true)
    (hes : ClosedFields fs es) :
    conforms (.record gs) (.map es) = true ↔
      ∀ f ∈ gs, f.1 ∉ names fs → conforms f.2 (es.get f.1) = true := by
  rw [Shape.conforms, conformsFields_iff_forall]
  constructor
  · exact fun h f hf _ => h f hf
  · intro h f hf
    by_cases hk : f.1 ∈ names fs
    · by_cases heq : Shape.record fs = .record gs
      · cases heq
        exact (closedFields_iff.1 hes f hf).conforms
      · exact conforms_of_closed_of_isSubtype (isData_fieldOf hfs f.1)
          ((isSubtype_record heq).1 hsub f hf) (closed_get hes (.inl hk))
    · exact h f hf hk

theorem isSubtype_record_json {fs : List (String × Shape)} :
    isSubtype (.record fs) (.scalar .json) = true ↔ fieldsJson fs = true := by
  rw [isSubtype.eq_5 _ _ (by simp) (by simp) (by simp) (by simp), if_neg (by simp),
    if_neg (by simp)]
  exact Iff.rfl

/-- A mapping whose named entries are closed is JSON just when its unnamed entries are. -/
theorem conforms_json_iff_unnamed {fs : List (String × Shape)} {es : Entries}
    (hsub : isSubtype (.record fs) (.scalar .json) = true) (hkeys : es.HasTextKeys)
    (hes : ClosedFields fs es) :
    conforms (.scalar .json) (.map es) = true ↔
      ∀ e ∈ es, (∀ k ∈ names fs, e.1 ≠ .text k) → e.2.isJson = true := by
  have hjson := isSubtype_record_json.1 hsub
  change Value.entriesJson es = true ↔ _
  rw [Value.entriesJson_iff]
  constructor
  · exact fun h e he _ => (h e he).2
  · intro h e he
    obtain ⟨k, hk⟩ := hkeys e he
    refine ⟨⟨k, by rw [hk]⟩, ?_⟩
    by_cases hnamed : k ∈ names fs
    · obtain ⟨f, hf, rfl⟩ := List.mem_map.1 hnamed
      rw [hk]
      exact hes.isJson hjson f hf
    · refine h e he fun k' hk' heq => hnamed ?_
      rw [hk] at heq
      cases heq
      exact hk'

/-! ## What a record leaves open -/

mutual

/-- No shape of data has byte strings. -/
theorem not_conforms_bytes : {s : Shape} → {bs : List UInt8} → s.isData = true →
    conforms s (.bytes bs) = false
  | .oneOf _, _, h => not_conformsAny_bytes h
  | .scalar s, _, _ => by cases s <;> rfl
  | .undefined, _, _ | .null, _, _ | .enum .., _, _ | .listOf _, _, _ | .record _, _, _ => rfl

theorem not_conformsAny_bytes : {os : List Shape} → {bs : List UInt8} → allData os = true →
    conformsAny os (.bytes bs) = false
  | [], _, _ => rfl
  | _ :: _, _, h => by
    obtain ⟨hs, hr⟩ := Bool.and_eq_true_iff.1 h
    rw [conformsAny, not_conforms_bytes hs, not_conformsAny_bytes hr]
    rfl

end

/-- Whether every mapping of a record, with texts for keys, is a value of a shape. -/
def RecordWithin (fs : List (String × Shape)) (b : Shape) : Prop :=
  ∀ es : Entries, es.HasTextKeys → conforms (.record fs) (.map es) = true →
    conforms b (.map es) = true

/-- Whether some mapping, with texts for keys, belongs to a record. -/
def HasMapping (fs : List (String × Shape)) : Prop :=
  ∃ es : Entries, es.HasTextKeys ∧ conforms (.record fs) (.map es) = true

theorem conforms_record_put {fs : List (String × Shape)} {es : Entries} {k : String} {v : Value}
    (hk : k ∉ names fs) (h : conforms (.record fs) (.map es) = true) :
    conforms (.record fs) (.map (es.put k v)) = true := by
  refine conformsFields_iff_forall.2 fun f hf => ?_
  have hne : f.1 ≠ k := fun heq => hk (List.mem_map.2 ⟨f, hf, heq⟩)
  rw [Entries.get_put_ne hne]
  exact conformsFields_iff_forall.1 h f hf

/-- A record that has a mapping is not within JSON: what it does not name may be anything. -/
theorem not_recordWithin_json {fs : List (String × Shape)} (h : HasMapping fs) :
    ¬ RecordWithin fs (.scalar .json) := by
  obtain ⟨es, hkeys, hes⟩ := h
  obtain ⟨k, hk⟩ := Infinite.exists_notMem_finset (names fs).toFinset
  intro hwithin
  have hjson := hwithin _ (hkeys.put k (.bytes []))
    (conforms_record_put (fun hmem => hk (List.mem_toFinset.2 hmem)) hes)
  have hbytes := (Value.entriesJson_iff.1 hjson _ (Entries.mem_put_self es k (.bytes []))).2
  cases hbytes

/-- A record that has a mapping that is within another one names all that the other names. -/
theorem names_subset_of_recordWithin {fs gs : List (String × Shape)} (hgs : fieldsData gs = true)
    (h : HasMapping fs) (hwithin : RecordWithin fs (.record gs)) : names gs ⊆ names fs := by
  obtain ⟨es, hkeys, hes⟩ := h
  intro k hk
  by_contra hnot
  obtain ⟨f, hf, rfl⟩ := List.mem_map.1 hk
  have hput := conformsFields_iff_forall.1
    (hwithin _ (hkeys.put f.1 (.bytes [])) (conforms_record_put hnot hes)) f hf
  rw [Entries.get_put_self, not_conforms_bytes (fieldsData_iff.1 hgs f hf)] at hput
  cases hput

theorem closedFields_of_allStrict {fs : List (String × Shape)} {es : Entries}
    (hflat : ∀ f ∈ fs, f.2.isStrict = true) (h : conforms (.record fs) (.map es) = true) :
    ClosedFields fs es :=
  closedFields_iff.2 fun f hf =>
    closed_of_isStrict (hflat f hf) (conformsFields_iff_forall.1 h f hf)

/-- What subtyping promises of the values of a record. A closed value belongs to every shape
above. A mapping whose named entries are closed belongs to JSON, or to a record, just when
its unnamed entries do. So the promise is broken for some mapping of the record when JSON is
above it, or a record that names more; and when no records stand in its fields, it is kept
for all mappings under a record that names no more. -/
theorem recordWithin_of_isSubtype {fs : List (String × Shape)} (hfs : fieldsData fs = true) :
    (∀ b v, isSubtype (.record fs) b = true → Closed (.record fs) v → conforms b v = true) ∧
      (isSubtype (.record fs) (.scalar .json) = true →
        (∀ es : Entries, es.HasTextKeys → ClosedFields fs es →
          (conforms (.scalar .json) (.map es) = true ↔
            ∀ e ∈ es, (∀ k ∈ names fs, e.1 ≠ .text k) → e.2.isJson = true)) ∧
        (HasMapping fs → ¬ RecordWithin fs (.scalar .json))) ∧
      ∀ gs, fieldsData gs = true → isSubtype (.record fs) (.record gs) = true →
        (∀ es : Entries, ClosedFields fs es →
          (conforms (.record gs) (.map es) = true ↔
            ∀ f ∈ gs, f.1 ∉ names fs → conforms f.2 (es.get f.1) = true)) ∧
        (HasMapping fs → RecordWithin fs (.record gs) → names gs ⊆ names fs) ∧
        ((∀ f ∈ fs, f.2.isStrict = true) → names gs ⊆ names fs → RecordWithin fs (.record gs)) := by
  refine ⟨fun b v hsub hv =>
    conforms_of_closed_of_isSubtype (a := .record fs) hfs hsub hv, fun hsub =>
    ⟨fun es hkeys hes => conforms_json_iff_unnamed hsub hkeys hes, not_recordWithin_json⟩,
    fun gs hgs hsub => ⟨fun es hes => conforms_record_iff_unnamed hfs hsub hes,
      names_subset_of_recordWithin hgs, fun hflat hnames es _ hes => ?_⟩⟩
  refine (conforms_record_iff_unnamed hfs hsub (closedFields_of_allStrict hflat hes)).2 ?_
  exact fun f hf hnot => absurd (hnames (List.mem_map.2 ⟨f, hf, rfl⟩)) hnot

/-- The field of a titled record. -/
def titled : List (String × Shape) :=
  [("title", .scalar .text)]

/-- The fields of a titled record that may be rated. -/
def rated : List (String × Shape) :=
  titled ++ [("rating", .oneOf [.scalar .int, .undefined])]

theorem titled_isSubtype_rated : isSubtype (.record titled) (.record rated) = true := by
  have hrating : fieldOf titled "rating" = .undefined := by decide
  refine (isSubtype_record (by simp [titled, rated])).2 (List.forall_mem_cons.2
    ⟨isSubtype_refl _, List.forall_mem_singleton.2 ?_⟩)
  rw [hrating]
  exact (isSubtype_oneOf_right (by simp)).2
    ⟨.undefined, List.mem_cons_of_mem _ List.mem_cons_self, isSubtype_refl _⟩

/-- A title and nothing else is a value of the record that may be rated. -/
theorem recordWithin_of_isSubtype_rated :
    fieldsData titled = true ∧ isSubtype (.record titled) (.record rated) = true ∧
      conforms (.record rated) (.map [(.text "title", .text "Emma")]) = true ∧
      ¬ RecordWithin titled (.record rated) := by
  have hdata : fieldsData titled = true := by decide
  obtain ⟨hclosed, -, hrecord⟩ := recordWithin_of_isSubtype hdata
  have hv : Closed (.record titled) (.map [(.text "title", .text "Emma")]) :=
    ⟨_, rfl, List.forall_mem_singleton.2 ⟨"title", List.mem_cons_self, by
      rw [Entries.get_cons_self]⟩, (by decide : conforms (.scalar .text) _ = true), trivial⟩
  have hmapping : HasMapping titled :=
    ⟨[(.text "title", .text "Emma")], List.forall_mem_singleton.2 ⟨"title", by
      rw [Entries.get_cons_self]⟩, by decide⟩
  refine ⟨hdata, titled_isSubtype_rated, hclosed _ _ titled_isSubtype_rated hv, fun hwithin => ?_⟩
  have hnames := (hrecord rated (by decide) titled_isSubtype_rated).2.1 hmapping hwithin
  exact absurd hnames (by decide)

/-- A record with a title lies below one that may be rated, and below JSON. A title with a
word for a rating belongs to the first and not to the second; a title with the bytes of a
cover belongs to the first and is no JSON. -/
theorem titled_breaks_promise :
    (isSubtype (.record titled) (.record rated) = true ∧
      conforms (.record titled)
        (.map [(.text "title", .text "Emma"), (.text "rating", .text "good")]) = true ∧
      conforms (.record rated)
        (.map [(.text "title", .text "Emma"), (.text "rating", .text "good")]) = false) ∧
    (isSubtype (.record titled) (.scalar .json) = true ∧
      conforms (.record titled)
        (.map [(.text "title", .text "Emma"), (.text "cover", .bytes [255])]) = true ∧
      conforms (.scalar .json)
        (.map [(.text "title", .text "Emma"), (.text "cover", .bytes [255])]) = false) :=
  ⟨⟨titled_isSubtype_rated, by decide, by decide⟩,
    isSubtype_record_json.2 (by decide), by decide, by decide⟩

end Shape

end RecordSchema
