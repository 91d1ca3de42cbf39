import Mathlib.Data.List.Forall2
import Mathlib.Data.List.Nodup
import Mathlib.Data.List.Pairwise

/-!
# Lists

Where every entry of a list has a key of its own, finding by key and
membership are the same. In two lists whose members are related in
order, every member has its partner. A traversal that may find nothing
is one step after the other. Lists that begin with parts of one length
are compared part by part.
-/

/-- Every member of the second list has a partner in the first. -/
theorem List.Forall₂.exists_left {α β : Type} {R : α → β → Prop} {xs : List α} {ys : List β}
    (h : List.Forall₂ R xs ys) {y : β} (hy : y ∈ ys) : ∃ x ∈ xs, R x y := by
  induction h with
  | nil => cases hy
  | cons hxy _ ih =>
    rcases List.mem_cons.1 hy with rfl | hy
    · exact ⟨_, List.mem_cons_self, hxy⟩
    · obtain ⟨x, hx, hR⟩ := ih hy
      exact ⟨x, List.mem_cons_of_mem _ hx, hR⟩

/-- Every member of the first list has a partner in the second. -/
theorem List.Forall₂.exists_right {α β : Type} {R : α → β → Prop} {xs : List α} {ys : List β}
    (h : List.Forall₂ R xs ys) {x : α} (hx : x ∈ xs) : ∃ y ∈ ys, R x y :=
  h.flip.exists_left hx

/-- Where every member has a partner, there is a list of partners. -/
theorem List.exists_forall₂ {α β : Type} {R : α → β → Prop} {ys : List β}
    (h : ∀ y ∈ ys, ∃ x, R x y) : ∃ xs, List.Forall₂ R xs ys := by
  induction ys with
  | nil => exact ⟨[], .nil⟩
  | cons y r ih =>
    obtain ⟨⟨x, hx⟩, hr⟩ := List.forall_mem_cons.1 h
    obtain ⟨xs, hxs⟩ := ih hr
    exact ⟨x :: xs, .cons hx hxs⟩

/-- A traversal that may find nothing reads a member and then the others. -/
theorem List.mapM_option_cons {α β : Type} (f : α → Option β) (x : α) (xs : List α) :
    (x :: xs).mapM f = (f x).bind fun y => (xs.mapM f).map (y :: ·) := by
  rw [List.mapM_cons]
  cases f x with
  | none => rfl
  | some y => cases xs.mapM f <;> rfl

theorem List.mapM_option_map {α β γ : Type} (f : β → γ) (g : α → Option β) (xs : List α) :
    (xs.mapM fun x => (g x).map f) = (xs.mapM g).map (·.map f) := by
  induction xs with
  | nil => rfl
  | cons x r ih =>
    rw [mapM_option_cons, mapM_option_cons, ih]
    cases g x with
    | none => rfl
    | some y => cases r.mapM g <;> rfl

/-- Whether a member passes is asked alike by tests that agree on the members. -/
theorem List.any_congr_left {α : Type} {p q : α → Bool} {xs : List α}
    (h : ∀ x ∈ xs, p x = q x) : xs.any p = xs.any q := by
  rw [Bool.eq_iff_iff, List.any_eq_true, List.any_eq_true]
  refine exists_congr fun x => and_congr_right fun hx => ?_
  rw [h x hx]

/-- To find by a key and to change what is found is to change every entry and to find. -/
theorem List.lookup_map_snd {α β κ : Type} [BEq κ] (f : α → β) (xs : List (κ × α)) (k : κ) :
    (xs.map fun e => (e.1, f e.2)).lookup k = (xs.lookup k).map f := by
  induction xs with
  | nil => rfl
  | cons e r ih =>
    rw [List.map_cons, List.lookup_cons, List.lookup_cons, ih]
    cases k == e.1 <;> rfl

/-- Lists that begin with parts of one length are compared by these and then by the rest. -/
theorem List.append_lt_append_iff {α : Type} [LT α] {xs ys : List α}
    (hlength : xs.length = ys.length) (us vs : List α) :
    xs ++ us < ys ++ vs ↔ xs < ys ∨ xs = ys ∧ us < vs := by
  induction xs generalizing ys with
  | nil =>
    obtain rfl := List.eq_nil_of_length_eq_zero hlength.symm
    simp
  | cons x xs ih =>
    cases ys with
    | nil => cases hlength
    | cons y ys =>
      rw [List.cons_append, List.cons_append, List.cons_lt_cons_iff, List.cons_lt_cons_iff,
        ih (Nat.succ.inj hlength), List.cons.injEq, and_or_left, or_assoc, and_assoc]

/-- Parts that are joined by a separator are the first part and the others behind separators. -/
theorem List.intercalate_cons {α : Type} (sep first : List α) (rest : List (List α)) :
    sep.intercalate (first :: rest) = first ++ rest.flatMap (sep ++ ·) := by
  induction rest generalizing first with
  | nil => rw [List.intercalate_singleton, List.flatMap_nil, List.append_nil]
  | cons second rest ih =>
    rw [List.intercalate_cons_cons, ih, List.flatMap_cons, List.append_assoc, List.append_assoc]

namespace RecordSchema

namespace Keys

variable {α κ : Type} [DecidableEq κ]

/-- What is found by a key is there and has the key. -/
theorem of_find?_eq_some {xs : List α} {key : α → κ} {k : κ} {a : α}
    (h : xs.find? (fun b => key b == k) = some a) : a ∈ xs ∧ key a = k :=
  ⟨List.mem_of_find?_eq_some h, by simpa using List.find?_some h⟩

theorem exists_find? {xs : List α} {a : α} (ha : a ∈ xs) (key : α → κ) :
    ∃ b, xs.find? (fun b => key b == key a) = some b :=
  Option.isSome_iff_exists.1 (List.find?_isSome.2 ⟨a, ha, beq_self_eq_true _⟩)

theorem find?_of_mem {xs : List α} {key : α → κ} (h : (xs.map key).Nodup) {a : α} (ha : a ∈ xs) :
    xs.find? (fun b => key b == key a) = some a := by
  obtain ⟨b, hb⟩ := exists_find? ha key
  obtain ⟨hmem, hkey⟩ := of_find?_eq_some hb
  rw [hb, List.inj_on_of_nodup_map h hmem ha hkey]

omit [DecidableEq κ] in
theorem eq_of_mem {xs : List (κ × α)} (h : (xs.map Prod.fst).Nodup) {k : κ} {a b : α}
    (ha : (k, a) ∈ xs) (hb : (k, b) ∈ xs) : a = b :=
  (Prod.mk.inj (List.inj_on_of_nodup_map h ha hb rfl)).2

theorem mem_of_lookup {xs : List (κ × α)} {k : κ} {a : α} (h : xs.lookup k = some a) :
    (k, a) ∈ xs := by
  obtain ⟨l, r, rfl, -⟩ := List.lookup_eq_some_iff.1 h
  exact List.mem_append_right l List.mem_cons_self

theorem lookup_eq_none_iff {xs : List (κ × α)} {k : κ} :
    xs.lookup k = none ↔ k ∉ xs.map Prod.fst := by
  rw [List.lookup_eq_none_iff, List.mem_map]
  constructor
  · rintro h ⟨e, he, rfl⟩
    exact absurd rfl (bne_iff_ne.1 (h e he))
  · intro h e he
    exact bne_iff_ne.2 fun heq => h ⟨e, he, heq.symm⟩

theorem lookup_of_mem {xs : List (κ × α)} (h : (xs.map Prod.fst).Nodup) {k : κ} {a : α}
    (ha : (k, a) ∈ xs) : xs.lookup k = some a := by
  cases hb : xs.lookup k with
  | none => exact absurd (List.mem_map.2 ⟨_, ha, rfl⟩) (lookup_eq_none_iff.1 hb)
  | some b => rw [eq_of_mem h (mem_of_lookup hb) ha]

omit [DecidableEq κ] in
/-- What only the entry of one key adds is what that entry adds. -/
theorem flatMap_eq {β : Type} {xs : List (κ × α)} (h : (xs.map Prod.fst).Nodup) {k : κ} {a : α}
    (ha : (k, a) ∈ xs) {f : κ × α → List β} (hf : ∀ e ∈ xs, e.1 ≠ k → f e = []) :
    xs.flatMap f = f (k, a) := by
  obtain ⟨l, r, rfl⟩ := List.append_of_mem ha
  rw [List.map_append, List.map_cons, List.nodup_middle, List.nodup_cons, List.mem_append] at h
  have hnil {ys : List (κ × α)} (hys : ∀ e ∈ ys, e ∈ l ++ (k, a) :: r) (hk : k ∉ ys.map Prod.fst) :
      ys.flatMap f = [] :=
    List.flatMap_eq_nil_iff.2 fun e he =>
      hf e (hys e he) fun heq => hk (heq ▸ List.mem_map_of_mem he)
  rw [List.flatMap_append, List.flatMap_cons,
    hnil (fun e => List.mem_append_left _) fun hk => h.1 (.inl hk),
    hnil (fun e he => List.mem_append_right _ (List.mem_cons_of_mem _ he)) fun hk => h.1 (.inr hk),
    List.nil_append, List.append_nil]

omit [DecidableEq κ] in
/-- What is picked out under its key has the keys in their order. -/
theorem filterMap_sublist {β : Type} {f : κ × α → Option (κ × β)}
    (hf : ∀ e b, f e = some b → b.1 = e.1) (xs : List (κ × α)) :
    ((xs.filterMap f).map Prod.fst).Sublist (xs.map Prod.fst) := by
  induction xs with
  | nil => exact List.Sublist.refl _
  | cons e r ih =>
    rw [List.map_cons, List.filterMap_cons]
    split
    · exact ih.cons e.1
    · next b hb =>
      rw [List.map_cons, hf e b hb]
      exact ih.cons_cons e.1

omit [DecidableEq κ] in
/-- What is there once comes from one member. -/
theorem eq_of_flatMap {f : α → List κ} {as : List α} (h : (as.flatMap f).Nodup) {a a' : α}
    (ha : a ∈ as) (ha' : a' ∈ as) {b : κ} (hb : b ∈ f a) (hb' : b ∈ f a') : a = a' := by
  obtain ⟨-, hapart⟩ := List.nodup_flatMap.1 h
  have hsymm : Std.Symm (Function.onFun List.Disjoint f) :=
    ⟨fun _ _ hd _ hb hb' => hd hb' hb⟩
  by_contra hne
  exact hapart.forall ha ha' hne hb hb'

omit [DecidableEq κ] in
/-- What members with keys of their own add is there once, if it tells their keys apart. -/
theorem nodup_flatMap {β : Type} {key : α → κ} {as : List α} (h : (as.map key).Nodup)
    {f : α → List β} (hone : ∀ a ∈ as, (f a).Nodup)
    (hapart : ∀ a ∈ as, ∀ a' ∈ as, ∀ b ∈ f a, b ∈ f a' → key a = key a') :
    (as.flatMap f).Nodup := by
  refine List.nodup_flatMap.2 ⟨hone, (List.pairwise_map.1 h).imp_of_mem fun ha ha' hne b hb hb' => ?_⟩
  exact hne (hapart _ ha _ ha' b hb hb')

omit [DecidableEq κ] in
/-- What is picked out once is picked out of one member. -/
theorem eq_of_filterMap {f : α → Option κ} {as : List α}
    (h : (as.filterMap f).Nodup) {a a' : α} (ha : a ∈ as) (ha' : a' ∈ as) {b : κ}
    (hb : f a = some b) (hb' : f a' = some b) : a = a' := by
  rw [List.filterMap_eq_flatMap_toList] at h
  exact eq_of_flatMap h ha ha' (Option.mem_toList.2 hb) (Option.mem_toList.2 hb')

end Keys

end RecordSchema
