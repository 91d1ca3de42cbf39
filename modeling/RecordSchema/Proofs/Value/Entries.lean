import RecordSchema.Request.Resolve

/-!
# Entries of mappings

Setting the entry of one key leaves the others alone, and of the entries
that were sent each is what is read by its key.
-/

namespace RecordSchema

namespace Value

theorem isText_iff {k : Value} {s : String} : k.isText s = true ↔ k = .text s := by
  cases k <;> simp [isText]

theorem eq_unset {v : Value} (h : v.isUnset = true) : v = .unset := by
  cases v <;> first | rfl | cases h

theorem isUnset_of_isPresent {v : Value} (h : v.isPresent = true) : v.isUnset = false := by
  cases v <;> first | rfl | cases h

namespace Entries

variable {es : Entries} {key key' : String} {v : Value} {e : Value × Value}

theorem key_of_find? (h : List.find? (fun e : Value × Value => e.1.isText key) es = some e) :
    e.1.isText key = true := by
  simpa using List.find?_some h

/-- Every entry after setting one is that entry or an old one. -/
theorem mem_put (h : e ∈ es.put key v) : e = (.text key, v) ∨ e ∈ es := by
  unfold put at h
  split at h
  · obtain ⟨o, ho, rfl⟩ := List.mem_map.1 h
    split
    · next hkey => exact .inl (by rw [isText_iff.1 hkey])
    · exact .inr ho
  · rcases List.mem_append.1 h with h | h
    · exact .inr h
    · exact .inl (List.mem_singleton.1 h)

theorem mem_put_self (es : Entries) (key : String) (v : Value) : (.text key, v) ∈ es.put key v := by
  unfold put
  split
  · next h =>
    obtain ⟨e, he, hkey⟩ := List.any_eq_true.1 h
    refine List.mem_map.2 ⟨e, he, ?_⟩
    rw [if_pos hkey, isText_iff.1 hkey]
  · exact List.mem_append_right _ (List.mem_singleton_self _)

/-- Setting an entry replaces every entry under its key. -/
theorem eq_of_mem_put {w : Value} (h : (.text key, w) ∈ es.put key v) : w = v := by
  have htext : (text key).isText key = true := isText_iff.2 rfl
  unfold put at h
  split at h
  · obtain ⟨⟨k, u⟩, -, heq⟩ := List.mem_map.1 h
    dsimp only at heq
    split at heq
    · exact (Prod.mk.inj heq).2.symm
    · next hkey =>
      obtain ⟨rfl, -⟩ := Prod.mk.inj heq
      exact absurd htext hkey
  · next hnone =>
    rcases List.mem_append.1 h with h | h
    · exact absurd (List.any_eq_true.2 ⟨_, h, htext⟩) hnone
    · exact (Prod.mk.inj (List.mem_singleton.1 h)).2

/-! ### Parts of a mapping -/

/-- The entries under a text key. -/
def under (es : Entries) (key : String) : Entries :=
  List.filter (fun e => e.1.isText key) es

/-- The entries under none of some text keys. -/
def outside (es : Entries) (keys : List String) : Entries :=
  List.filter (fun e => !keys.any fun key => e.1.isText key) es

theorem mem_under : (.text key, v) ∈ es.under key ↔ (.text key, v) ∈ es := by
  rw [under, List.mem_filter]
  exact and_iff_left (isText_iff.2 rfl)

/-- Setting an entry leaves a part of the mapping that its key is not in. -/
theorem filter_put {q : Value → Bool} (hq : q (.text key) = false) :
    List.filter (fun e => q e.1) (es.put key v) = List.filter (fun e => q e.1) es := by
  have hmapped : List.filter (fun e => q e.1)
      (List.map (fun e => if e.1.isText key then (e.1, v) else e) es) =
        List.filter (fun e => q e.1) es := by
    induction es with
    | nil => rfl
    | cons e r ih =>
      rw [List.map_cons, List.filter_cons, List.filter_cons, ih]
      cases hkey : e.1.isText key with
      | false => rfl
      | true =>
        rw [if_pos rfl, isText_iff.1 hkey, hq]
        rfl
  unfold put
  split
  · exact hmapped
  · rw [List.filter_append, List.filter_cons, hq]
    exact List.append_nil _

theorem under_put_ne (hne : key' ≠ key) : (es.put key v).under key' = es.under key' := by
  refine filter_put (Bool.not_eq_true _ ▸ fun h => hne ?_)
  exact (text.inj (isText_iff.1 h)).symm

theorem outside_put {keys : List String} (hkey : key ∈ keys) :
    (es.put key v).outside keys = es.outside keys := by
  have hany : (keys.any fun key' => (text key).isText key') = true :=
    List.any_eq_true.2 ⟨key, hkey, isText_iff.2 rfl⟩
  exact filter_put (q := fun k => !keys.any fun key' => k.isText key') (by rw [hany]; rfl)

/-- Whether one mapping is the other one with at most the entry of a key set. -/
def Touches (es : Entries) (key : String) (es' : Entries) : Prop :=
  es' = es ∨ ∃ v, es' = es.put key v

theorem Touches.under {es' : Entries} (h : es.Touches key es') (hne : key' ≠ key) :
    es'.under key' = es.under key' := by
  obtain rfl | ⟨v, rfl⟩ := h
  · rfl
  · exact under_put_ne hne

theorem Touches.outside {es' : Entries} (h : es.Touches key es') {keys : List String}
    (hkey : key ∈ keys) : es'.outside keys = es.outside keys := by
  obtain rfl | ⟨v, rfl⟩ := h
  · rfl
  · exact outside_put hkey

/-- What is the same outside some keys is the same outside more of them. -/
theorem outside_mono {es' : Entries} {keys keys' : List String} (hsub : keys ⊆ keys')
    (h : es'.outside keys = es.outside keys) : es'.outside keys' = es.outside keys' := by
  have hpart (es : Entries) : es.outside keys' = (es.outside keys).outside keys' := by
    rw [outside, outside, outside, List.filter_filter]
    refine List.filter_congr fun e _ => ?_
    cases hany : keys.any fun key => e.1.isText key with
    | false => rw [Bool.not_false, Bool.and_true]
    | true =>
      obtain ⟨key, hkey, htext⟩ := List.any_eq_true.1 hany
      have hany' : (keys'.any fun key => e.1.isText key) = true :=
        List.any_eq_true.2 ⟨key, hsub hkey, htext⟩
      rw [hany', Bool.not_true, Bool.and_false]
  rw [hpart es', hpart es, h]

theorem get_eq_head? (es : Entries) (key : String) :
    es.get key = ((es.under key).head?.map Prod.snd).getD .unset := by
  rw [under, List.head?_filter]
  rfl

theorem get_eq_of_under {es' : Entries} (h : es'.under key = es.under key) :
    es'.get key = es.get key := by
  rw [get_eq_head?, get_eq_head?, h]

theorem mem_put_ne {w : Value} (hne : key' ≠ key) :
    (.text key', w) ∈ es.put key v ↔ (.text key', w) ∈ es := by
  rw [← mem_under, under_put_ne hne, mem_under]

theorem get_put_ne (hne : key' ≠ key) : (es.put key v).get key' = es.get key' :=
  get_eq_of_under (under_put_ne hne)

/-! ### Reading by key -/

/-- A value that is read by key is one of the entries. -/
theorem mem_of_get (h : (es.get key).isUnset = false) : (.text key, es.get key) ∈ es := by
  unfold get value? at h ⊢
  cases he : List.find? (fun e : Value × Value => e.1.isText key) es with
  | none =>
    rw [he] at h
    cases h
  | some e =>
    have hmem := List.mem_of_find?_eq_some he
    rwa [← isText_iff.1 (key_of_find? he)]

theorem get_cons_self (key : String) (v : Value) (r : Entries) :
    get ((.text key, v) :: r) key = v := by
  simp [get, value?, isText]

theorem get_cons_ne {k : Value} (hk : k ≠ .text key) (v : Value) (r : Entries) :
    get ((k, v) :: r) key = get r key := by
  have htext : k.isText key = false := by
    rw [← Bool.not_eq_true, isText_iff]
    exact hk
  simp [get, value?, htext]

theorem put_eq_append (h : es.has key = false) : es.put key v = es ++ [(.text key, v)] :=
  if_neg (by simp [h])

theorem has_append_text (es : Entries) (key key' : String) (v : Value) :
    Entries.has (es ++ [(.text key, v)]) key' = (es.has key' || key == key') := by
  simp only [has, List.any_append, List.any_cons, List.any_nil, Bool.or_false, isText]

theorem get_put_self (es : Entries) (key : String) (v : Value) : (es.put key v).get key = v := by
  have hmem := mem_put_self es key v
  unfold get value?
  cases he : List.find? (fun e : Value × Value => e.1.isText key) (es.put key v) with
  | none => exact absurd (isText_iff.2 rfl) (List.find?_eq_none.1 he _ hmem)
  | some e =>
    obtain ⟨k, w⟩ := e
    cases isText_iff.1 (key_of_find? he)
    exact eq_of_mem_put (List.mem_of_find?_eq_some he)

/-- Whether a value is all that there is under a key. -/
def Holds (es : Entries) (key : String) (v : Value) : Prop :=
  es.under key ≠ [] ∧ ∀ e ∈ es.under key, e.2 = v

theorem holds_put (es : Entries) (key : String) (v : Value) : (es.put key v).Holds key v := by
  refine ⟨List.ne_nil_of_mem (List.mem_filter.2 ⟨mem_put_self es key v, isText_iff.2 rfl⟩), ?_⟩
  rintro ⟨k, w⟩ he
  obtain ⟨hmem, htext⟩ := List.mem_filter.1 he
  obtain rfl := isText_iff.1 htext
  exact eq_of_mem_put hmem

theorem Holds.of_under {es' : Entries} (h : es.Holds key v) (hunder : es'.under key = es.under key) :
    es'.Holds key v := by
  rw [Holds, hunder]
  exact h

theorem Holds.has (h : es.Holds key v) : es.has key = true := by
  obtain ⟨e, he⟩ := List.exists_mem_of_ne_nil _ h.1
  obtain ⟨hmem, htext⟩ := List.mem_filter.1 he
  exact List.any_eq_true.2 ⟨e, hmem, htext⟩

theorem Holds.get_eq (h : es.Holds key v) : es.get key = v := by
  obtain ⟨hne, hall⟩ := h
  rw [get_eq_head?, List.head?_eq_some_head hne]
  exact hall _ (List.head_mem hne)

/-- Setting what is there already changes nothing. -/
theorem Holds.put_eq (h : es.Holds key v) : es.put key v = es := by
  rw [put, if_pos h.has]
  refine (List.map_congr_left fun e he => ?_).trans (List.map_id es)
  split
  · next htext =>
    have hv : e.2 = v := h.2 e (List.mem_filter.2 ⟨he, htext⟩)
    rw [← hv]
    rfl
  · rfl

theorem keys_put (h : es.has key = true) : (es.put key v).map Prod.fst = es.map Prod.fst := by
  rw [put, if_pos h, List.map_map]
  refine List.map_congr_left fun e _ => ?_
  rw [Function.comp_apply]
  split <;> rfl

/-- An entry that was sent is what is read by its key. -/
theorem eq_get_of_mem_sent (h : (.text key, v) ∈ Resolve.sent es) :
    v = es.get key ∧ v.isUnset = false := by
  induction es with
  | nil => cases h
  | cons e r ih =>
    obtain ⟨k, w⟩ := e
    have later (h : (.text key, v) ∈ (Resolve.sent r).filter fun e => !k.same e.1) :
        v = get ((k, w) :: r) key ∧ v.isUnset = false := by
      obtain ⟨hmem, hother⟩ := List.mem_filter.1 h
      have hne : k ≠ .text key := by
        rintro rfl
        simp [same] at hother
      rw [get_cons_ne hne]
      exact ih hmem
    unfold Resolve.sent at h
    dsimp only at h
    split at h
    · exact later h
    · next hset =>
      rcases List.mem_cons.1 h with heq | h
      · cases heq
        exact ⟨(get_cons_self key v r).symm, by simpa using hset⟩
      · exact later h

end Entries

end Value

end RecordSchema
