import RecordSchema.Json.Reader
import RecordSchema.Json.Writer
import RecordSchema.Proofs.Shape.Subtype
import RecordSchema.Proofs.Success
import RecordSchema.Proofs.Value.Entries

/-!
# JSON values

Reading JSON text yields values that JSON can express
(`Json.read_isJson`), and so does putting a value into the form that its
text stands for (`Value.normal?_isJson`).
-/

namespace RecordSchema

namespace Value

theorem entriesJson_iff {es : Entries} :
    entriesJson es = true ↔ ∀ e ∈ es, (∃ s, e.1 = .text s) ∧ e.2.isJson = true := by
  induction es with
  | nil => simp [entriesJson]
  | cons e r ih =>
    obtain ⟨k, v⟩ := e
    cases k <;> simp [entriesJson, ih]

theorem allJson_concat {vs : List Value} {v : Value} (hvs : allJson vs = true)
    (hv : v.isJson = true) : allJson (vs ++ [v]) = true := by
  refine allJson_iff.2 fun w hw => ?_
  rcases List.mem_append.1 hw with hw | hw
  · exact allJson_iff.1 hvs w hw
  · rwa [List.mem_singleton.1 hw]

theorem entriesJson_put {es : Entries} {key : String} {v : Value} (hes : entriesJson es = true)
    (hv : v.isJson = true) : entriesJson (es.put key v) = true := by
  refine entriesJson_iff.2 fun e he => ?_
  rcases Entries.mem_put he with rfl | he
  · exact ⟨⟨key, rfl⟩, hv⟩
  · exact entriesJson_iff.1 hes e he

theorem entriesJson_putAny {es : Entries} {key : String} {v : Value} (hes : entriesJson es = true)
    (hv : v.isJson = true) : entriesJson (es.putAny (.text key) v) = true := by
  refine entriesJson_iff.2 fun e he => ?_
  unfold Entries.putAny at he
  split at he
  · obtain ⟨o, ho, rfl⟩ := List.mem_map.1 he
    obtain ⟨hkey, hjson⟩ := entriesJson_iff.1 hes o ho
    split
    · exact ⟨hkey, hv⟩
    · exact ⟨hkey, hjson⟩
  · rcases List.mem_append.1 he with he | he
    · exact entriesJson_iff.1 hes e he
    · rw [List.mem_singleton.1 he]
      exact ⟨⟨key, rfl⟩, hv⟩

/-! ## Normal forms -/

/-- Entries put together in order are JSON when they are. -/
theorem ofEntries_isJson {es : Entries} (h : entriesJson es = true) :
    (ofEntries es).isJson = true := by
  have hfold : ∀ acc : Entries, entriesJson acc = true →
      entriesJson (es.foldl (fun acc e => Entries.putAny acc e.1 e.2) acc) = true := by
    induction es with
    | nil => exact fun _ hacc => hacc
    | cons e r ih =>
      intro acc hacc
      obtain ⟨⟨⟨key, hkey⟩, hjson⟩, hr⟩ := List.forall_mem_cons.1 (entriesJson_iff.1 h)
      rw [List.foldl_cons, hkey]
      exact ih (entriesJson_iff.2 hr) _ (entriesJson_putAny hacc hjson)
  exact hfold [] rfl

mutual

theorem normal?_isJson : ∀ {v w : Value}, v.normal? = some w → w.isJson = true
  | .null, _, h | .bool _, _, h | .int _, _, h | .float _, _, h | .text _, _, h => by
    cases h
    rfl
  | .list vs, _, h | .tuple vs, _, h => by
    obtain ⟨ws, hws, rfl⟩ := Option.map_eq_some_iff.1 h
    exact normalAll?_allJson hws
  | .map es, _, h => by
    obtain ⟨es', hes', rfl⟩ := Option.map_eq_some_iff.1 h
    exact ofEntries_isJson (normalEntries?_entriesJson hes')

theorem normalAll?_allJson : ∀ {vs ws : List Value}, normalAll? vs = some ws → allJson ws = true
  | [], _, h => by
    cases h
    rfl
  | v :: r, _, h => by
    simp only [normalAll?, bind, Option.bind_eq_some_iff, Option.some.injEq] at h
    obtain ⟨w, hw, rest, hrest, rfl⟩ := h
    rw [allJson, normal?_isJson hw, normalAll?_allJson hrest]
    rfl

theorem normalEntries?_entriesJson : ∀ {es es' : Entries}, normalEntries? es = some es' →
    entriesJson es' = true
  | [], _, h => by
    cases h
    rfl
  | (k, v) :: r, _, h => by
    simp only [normalEntries?, bind, Option.bind_eq_some_iff, Option.some.injEq] at h
    obtain ⟨key, -, w, hw, rest, hrest, rfl⟩ := h
    rw [entriesJson, normal?_isJson hw, normalEntries?_entriesJson hrest]
    rfl

end

/-- The members of a normal form are the normal forms of the members. -/
theorem forall₂_of_normalAll? {vs ws : List Value} (h : normalAll? vs = some ws) :
    List.Forall₂ (fun v w => v.normal? = some w) vs ws := by
  induction vs generalizing ws with
  | nil =>
    cases h
    exact .nil
  | cons v r ih =>
    simp only [normalAll?, bind, Option.bind_eq_some_iff, Option.some.injEq] at h
    obtain ⟨w, hw, rest, hrest, rfl⟩ := h
    exact .cons hw (ih hrest)

end Value

namespace Json

open Value

theorem isJson_of_number {p q : Prop} [Decidable p] [Decidable q] {n : Int} {x : Binary64}
    {u w used : Nat} {v : Value}
    (h : (if p then none else if q then some (.int n, u) else some (.float x, w)) = some (v, used)) :
    v.isJson = true := by
  split at h
  · cases h
  · split at h <;> cases h <;> rfl

theorem numeral?_isJson {cs : List Char} {v : Value} {used : Nat}
    (h : numeral? cs = some (v, used)) : v.isJson = true := by
  unfold numeral? at h
  split at h
  exact isJson_of_number h

theorem readAtom_isJson {c c' : Cursor} {v : Value} (h : readAtom c = .ok (v, c')) :
    v.isJson = true := by
  have hwords : ∀ w ∈ words, w.2.isJson = true := by decide
  unfold readAtom at h
  split at h
  · next hfind =>
    cases h
    exact hwords _ (List.mem_of_find?_eq_some hfind)
  · split at h
    · next hnumeral =>
      cases h
      exact numeral?_isJson hnumeral
    · cases h

/-- Whatever is read with the fuel is JSON: a value, the items and the members behind
those that were read before. -/
structure ReadsJson (fuel : Nat) : Prop where
  value : ∀ {room c v c'}, readValue room c fuel = .ok (v, c') → v.isJson = true
  items : ∀ {room acc c v c'}, allJson acc = true → readItems room acc c fuel = .ok (v, c') →
    v.isJson = true
  members : ∀ {room acc c v c'}, entriesJson acc = true →
    readMembers room acc c fuel = .ok (v, c') → v.isJson = true

namespace ReadsJson

variable {fuel room : Nat} {c c' : Cursor} {v : Value}

theorem zero : ReadsJson 0 where
  value h := by
    unfold readValue at h
    cases h
  items _ h := by
    rw [readItems] at h
    cases h
  members _ h := by
    rw [readMembers] at h
    cases h

theorem value_succ (hfuel : ReadsJson fuel) (h : readValue room c (fuel + 1) = .ok (v, c')) :
    v.isJson = true := by
  unfold readValue at h
  split at h
  · simp only [Except.bind_eq_ok, Except.pure_eq_ok, Prod.mk.injEq] at h
    obtain ⟨_, -, rfl, -⟩ := h
    rfl
  · split at h
    · cases h
    · dsimp only at h
      split at h
      · cases h
        rfl
      · exact hfuel.items rfl h
  · split at h
    · cases h
    · dsimp only at h
      split at h
      · cases h
        rfl
      · exact hfuel.members rfl h
  · exact readAtom_isJson h

theorem items_succ (hfuel : ReadsJson fuel) {acc : List Value} (hacc : allJson acc = true)
    (h : readItems room acc c (fuel + 1) = .ok (v, c')) : v.isJson = true := by
  rw [readItems] at h
  obtain ⟨⟨w, m⟩, hw, h⟩ := Except.bind_eq_ok.1 h
  have hacc := allJson_concat hacc (hfuel.value hw)
  dsimp only at h
  split at h
  · cases h
    exact hacc
  · exact hfuel.items hacc h
  · cases h

theorem members_succ (hfuel : ReadsJson fuel) {acc : Entries} (hacc : entriesJson acc = true)
    (h : readMembers room acc c (fuel + 1) = .ok (v, c')) : v.isJson = true := by
  rw [readMembers] at h
  split at h
  · obtain ⟨⟨key, m⟩, -, h⟩ := Except.bind_eq_ok.1 h
    dsimp only at h
    split at h
    · obtain ⟨⟨w, m'⟩, hw, h⟩ := Except.bind_eq_ok.1 h
      have hacc : entriesJson (Entries.put acc key w) = true := entriesJson_put hacc (hfuel.value hw)
      dsimp only at h
      split at h
      · cases h
        exact hacc
      · exact hfuel.members hacc h
      · cases h
    · cases h
  · cases h

end ReadsJson

theorem readsJson (fuel : Nat) : ReadsJson fuel := by
  induction fuel with
  | zero => exact .zero
  | succ fuel ih => exact ⟨ih.value_succ, ih.items_succ, ih.members_succ⟩

/-- What JSON text stands for is JSON. -/
theorem read_isJson {text : String} {v : Value} (h : read text = .ok v) : v.isJson = true := by
  unfold read at h
  dsimp only at h
  split at h
  · cases h
  · obtain ⟨⟨w, c⟩, hw, h⟩ := Except.bind_eq_ok.1 h
    dsimp only at h
    split at h
    · cases Except.pure_eq_ok.1 h
      exact (readsJson _).value hw
    · cases h

end Json

end RecordSchema
