import Mathlib.Data.List.Nodup
import RecordSchema.Graph.Catalogue
import RecordSchema.Proofs.Lists
import RecordSchema.Proofs.Value.Entries

/-!
# Plain forms

`Value.plain` takes what a client sends down to plain values. A plain
value (`isPlain`) has no member of an enumeration, no tuple and no input
object in it, and every entry of a mapping in it was sent. Plain values
stay as they are, so taking the plain form twice is taking it once.

A `Place` says how to go one step into a value: to an item of a list, or
to an entry by its key, which for an input object is the name in the API.
An entry that was not sent is not there. Along every path the plain form
shows what the value shows (`shows_plain`), so nothing is lost and nothing
is added.

The keys of mappings are never looked into. A predicate `key` says which
values they are, and the plain form has keys of the same kind.
-/

namespace RecordSchema

namespace Value

variable {key : Value → Bool}

/-! ## Plain values -/

mutual

/-- Whether a value is plain, and `key` holds of the keys of mappings. -/
def isPlain (key : Value → Bool) : Value → Bool
  | .member .. | .tuple _ | .input .. | .object .. => false
  | .list vs => allPlain key vs
  | .map es => entriesPlain key es
  | _ => true

/-- Whether all the values are plain. -/
def allPlain (key : Value → Bool) : List Value → Bool
  | [] => true
  | v :: r => isPlain key v && allPlain key r

/-- Whether all the entries were sent and have plain values. -/
def entriesPlain (key : Value → Bool) : List (Value × Value) → Bool
  | [] => true
  | (k, v) :: r => key k && !v.isUnset && isPlain key v && entriesPlain key r

end

theorem allPlain_iff {vs : List Value} :
    allPlain key vs = true ↔ ∀ v ∈ vs, v.isPlain key = true := by
  induction vs with
  | nil => simp [allPlain]
  | cons v r ih => simp [allPlain, ih]

theorem entriesPlain_iff {es : Entries} : entriesPlain key es = true ↔
    ∀ e ∈ es, key e.1 = true ∧ e.2.isUnset = false ∧ e.2.isPlain key = true := by
  induction es with
  | nil => simp [entriesPlain]
  | cons e r ih => simp [entriesPlain, ih, and_assoc]

mutual

/-- Whether a value is what a client may send: members of enumerations have plain values,
and no two attributes of an input object have one name in the API. -/
def isClient (key : Value → Bool) : Value → Bool
  | .member _ v => !v.isUnset && v.isPlain key
  | .list vs => allClient key vs
  | .tuple vs => allClient key vs
  | .map es => entriesClient key es
  | .input t fs => decide (fs.map fun f => t.apiName f.1).Nodup && fieldsClient key fs
  | .object .. => false
  | _ => true

/-- Whether a client may send all the values. -/
def allClient (key : Value → Bool) : List Value → Bool
  | [] => true
  | v :: r => isClient key v && allClient key r

/-- Whether a client may send all the entries. -/
def entriesClient (key : Value → Bool) : List (Value × Value) → Bool
  | [] => true
  | (k, v) :: r => key k && isClient key v && entriesClient key r

/-- Whether a client may send the values of all the attributes. -/
def fieldsClient (key : Value → Bool) : List (String × Value) → Bool
  | [] => true
  | (_, v) :: r => isClient key v && fieldsClient key r

end

theorem allClient_iff {vs : List Value} :
    allClient key vs = true ↔ ∀ v ∈ vs, v.isClient key = true := by
  induction vs with
  | nil => simp [allClient]
  | cons v r ih => simp [allClient, ih]

theorem entriesClient_iff {es : Entries} :
    entriesClient key es = true ↔ ∀ e ∈ es, key e.1 = true ∧ e.2.isClient key = true := by
  induction es with
  | nil => simp [entriesClient]
  | cons e r ih => simp [entriesClient, ih]

theorem fieldsClient_iff {fs : List (String × Value)} :
    fieldsClient key fs = true ↔ ∀ f ∈ fs, f.2.isClient key = true := by
  induction fs with
  | nil => simp [fieldsClient]
  | cons f r ih => simp [fieldsClient, ih]

mutual

theorem isClient_of_isPlain : {v : Value} → v.isPlain key = true → v.isClient key = true
  | .list _, h => allClient_of_allPlain h
  | .map _, h => entriesClient_of_entriesPlain h
  | .unset, _ | .null, _ | .bool _, _ | .int _, _ | .float _, _ | .text _, _ | .decimal _, _
  | .dateTime _, _ | .bytes _, _ | .host _, _ | .callable, _ | .items, _ | .related .., _ => rfl

theorem allClient_of_allPlain : {vs : List Value} → allPlain key vs = true →
    allClient key vs = true
  | [], _ => rfl
  | v :: r, h => by
    simp only [allPlain, allClient, Bool.and_eq_true] at h ⊢
    exact ⟨isClient_of_isPlain h.1, allClient_of_allPlain h.2⟩

theorem entriesClient_of_entriesPlain : {es : Entries} → entriesPlain key es = true →
    entriesClient key es = true
  | [], _ => rfl
  | (k, v) :: r, h => by
    simp only [entriesPlain, entriesClient, Bool.and_eq_true] at h ⊢
    exact ⟨⟨h.1.1.1, isClient_of_isPlain h.1.2⟩, entriesClient_of_entriesPlain h.2⟩

end

/-! ## The plain form is plain -/

mutual

/-- A plain value is its own plain form. -/
theorem plain_of_isPlain : {v : Value} → v.isPlain key = true → v.plain = v
  | .list _, h => by rw [plain, plainAll_of_allPlain h]
  | .map _, h => by rw [plain, plainEntries_of_entriesPlain h]
  | .unset, _ | .null, _ | .bool _, _ | .int _, _ | .float _, _ | .text _, _ | .decimal _, _
  | .dateTime _, _ | .bytes _, _ | .host _, _ | .callable, _ | .items, _ | .related .., _ => rfl

theorem plainAll_of_allPlain : {vs : List Value} → allPlain key vs = true → plainAll vs = vs
  | [], _ => rfl
  | v :: r, h => by
    simp only [allPlain, Bool.and_eq_true] at h
    rw [plainAll, plain_of_isPlain h.1, plainAll_of_allPlain h.2]

theorem plainEntries_of_entriesPlain : {es : Entries} → entriesPlain key es = true →
    plainEntries es = es
  | [], _ => rfl
  | (k, v) :: r, h => by
    simp only [entriesPlain, Bool.and_eq_true, Bool.not_eq_true'] at h
    rw [plainEntries, if_neg (by simp [h.1.1.2]), plain_of_isPlain h.1.2,
      plainEntries_of_entriesPlain h.2]

end

/-- The plain form is sent when the value is. -/
theorem isUnset_plain {v : Value} (hv : v.isClient key = true) : v.plain.isUnset = v.isUnset := by
  cases v with
  | member e v =>
    simp only [isClient, Bool.and_eq_true, Bool.not_eq_true'] at hv
    exact hv.1
  | _ => rfl

theorem entriesPlain_put {es : Entries} {k : String} {v : Value} (hkey : key (.text k) = true)
    (hes : entriesPlain key es = true) (hsent : v.isUnset = false) (hv : v.isPlain key = true) :
    entriesPlain key (es.put k v) = true := by
  refine entriesPlain_iff.2 fun e he => ?_
  rcases Entries.mem_put he with rfl | he
  · exact ⟨hkey, hsent, hv⟩
  · exact entriesPlain_iff.1 hes e he

mutual

theorem isPlain_plain (hkey : ∀ s, key (.text s) = true) :
    {v : Value} → v.isClient key = true → v.plain.isPlain key = true
  | .member _ _, h => (Bool.and_eq_true_iff.1 h).2
  | .list _, h => allPlain_plainAll hkey h
  | .tuple _, h => allPlain_plainAll hkey h
  | .map _, h => entriesPlain_plainEntries hkey h
  | .input _ _, h => entriesPlain_plainFields hkey (Bool.and_eq_true_iff.1 h).2 rfl
  | .unset, _ | .null, _ | .bool _, _ | .int _, _ | .float _, _ | .text _, _ | .decimal _, _
  | .dateTime _, _ | .bytes _, _ | .host _, _ | .callable, _ | .items, _ | .related .., _ => rfl

theorem allPlain_plainAll (hkey : ∀ s, key (.text s) = true) :
    {vs : List Value} → allClient key vs = true → allPlain key (plainAll vs) = true
  | [], _ => rfl
  | v :: r, h => by
    simp only [allClient, plainAll, allPlain, Bool.and_eq_true] at h ⊢
    exact ⟨isPlain_plain hkey h.1, allPlain_plainAll hkey h.2⟩

theorem entriesPlain_plainEntries (hkey : ∀ s, key (.text s) = true) :
    {es : Entries} → entriesClient key es = true → entriesPlain key (plainEntries es) = true
  | [], _ => rfl
  | (k, v) :: r, h => by
    simp only [entriesClient, Bool.and_eq_true] at h
    rw [plainEntries]
    split
    · exact entriesPlain_plainEntries hkey h.2
    · next hsent =>
      simp only [entriesPlain, Bool.and_eq_true, Bool.not_eq_true', isUnset_plain h.1.2]
      exact ⟨⟨⟨h.1.1, by simpa using hsent⟩, isPlain_plain hkey h.1.2⟩,
        entriesPlain_plainEntries hkey h.2⟩

theorem entriesPlain_plainFields (hkey : ∀ s, key (.text s) = true) {name : String → String} :
    {fs : List (String × Value)} → {es : Entries} → fieldsClient key fs = true →
      entriesPlain key es = true → entriesPlain key (plainFields name fs es) = true
  | [], _, _, hes => hes
  | (k, v) :: r, es, h, hes => by
    simp only [fieldsClient, Bool.and_eq_true] at h
    rw [plainFields]
    split
    · exact entriesPlain_plainFields hkey h.2 hes
    · next hsent =>
      refine entriesPlain_plainFields hkey h.2 (entriesPlain_put (hkey _) hes ?_ ?_)
      · simpa [isUnset_plain h.1] using hsent
      · exact isPlain_plain hkey h.1

end

theorem plain_plain (hkey : ∀ s, key (.text s) = true) {v : Value} (hv : v.isClient key = true) :
    v.plain.plain = v.plain :=
  plain_of_isPlain (isPlain_plain hkey hv)

/-! ## Places -/

/-- One step into a value: to an item by its number, or to an entry by its key. -/
inductive Place where
  | item (i : Nat)
  | entry (key : Value)

/-- The entries that were sent, those of an input object by their names in the API. -/
def sentEntries : Value → Entries
  | .map es => es.filter fun e => !e.2.isUnset
  | .input t fs => (fs.filter fun f => !f.2.isUnset).map fun f => (.text (t.apiName f.1), f.2)
  | _ => []

/-- What a value is one step in. Entries that were not sent are not there, and a member of an
enumeration is what its value is. -/
def Has : Value → Place → Value → Prop
  | .list vs, .item i, u => vs[i]? = some u
  | .tuple vs, .item i, u => vs[i]? = some u
  | .map es, .entry k, u => (k, u) ∈ (map es).sentEntries
  | .input t fs, .entry k, u => (k, u) ∈ (input t fs).sentEntries
  | .member _ v, q, u => v.Has q u
  | _, _, _ => False

/-- What is to be seen of a value without going into it. -/
inductive Outline where
  | list (length : Nat)
  /-- A mapping, by the keys of the entries that were sent, in order. -/
  | mapping (keys : List Value)
  | leaf (v : Value)

def outline : Value → Outline
  | .list vs => .list vs.length
  | .tuple vs => .list vs.length
  | .map es => .mapping ((map es).sentEntries.map Prod.fst)
  | .input t fs => .mapping ((input t fs).sentEntries.map Prod.fst)
  | .member _ v => v.outline
  | v => .leaf v

/-- What is to be seen of a value at the end of a path. -/
def Shows : Value → List Place → Outline → Prop
  | v, [], o => v.outline = o
  | v, q :: p, o => ∃ u, v.Has q u ∧ u.Shows p o

/-! ## The plain form has the same places -/

theorem isPlain_of_has {v u : Value} {q : Place} (hv : v.isPlain key = true) (h : v.Has q u) :
    u.isPlain key = true := by
  cases v with
  | member | tuple | input | object => cases hv
  | list vs =>
    cases q with
    | item i => exact allPlain_iff.1 hv _ (List.mem_of_getElem? h)
    | entry k => exact h.elim
  | map es =>
    cases q with
    | item i => exact h.elim
    | entry k => exact (entriesPlain_iff.1 hv _ (List.mem_of_mem_filter h)).2.2
  | _ => exact h.elim

theorem isClient_of_mem_sentEntries {v : Value} (hv : v.isClient key = true) {e : Value × Value}
    (he : e ∈ v.sentEntries) : e.2.isClient key = true := by
  cases v with
  | map es => exact (entriesClient_iff.1 hv e (List.mem_of_mem_filter he)).2
  | input t fs =>
    obtain ⟨f, hf, rfl⟩ := List.mem_map.1 he
    exact fieldsClient_iff.1 (Bool.and_eq_true_iff.1 hv).2 f (List.mem_of_mem_filter hf)
  | _ => cases he

theorem isClient_of_has {v u : Value} {q : Place} (hv : v.isClient key = true) (h : v.Has q u) :
    u.isClient key = true := by
  cases v with
  | member e v => exact isClient_of_isPlain (isPlain_of_has (Bool.and_eq_true_iff.1 hv).2 h)
  | list vs | tuple vs =>
    cases q with
    | item i => exact allClient_iff.1 hv _ (List.mem_of_getElem? h)
    | entry k => exact h.elim
  | map es | input t fs =>
    cases q with
    | item i => exact h.elim
    | entry k => exact isClient_of_mem_sentEntries hv h
  | _ => exact h.elim

theorem plainAll_eq (vs : List Value) : plainAll vs = vs.map plain := by
  induction vs with
  | nil => rfl
  | cons v r ih => rw [plainAll, ih, List.map_cons]

theorem plainEntries_eq (es : Entries) :
    plainEntries es = (es.filter fun e => !e.2.isUnset).map fun e => (e.1, e.2.plain) := by
  induction es with
  | nil => rfl
  | cons e r ih =>
    obtain ⟨k, v⟩ := e
    rw [plainEntries, ih]
    cases hv : v.isUnset <;> simp [hv]

/-- Fields whose names differ from each other and from the keys there are go to the end. -/
theorem plainFields_eq {name : String → String} {fs : List (String × Value)} {es : Entries}
    (hnames : (fs.map fun f => name f.1).Nodup) (hes : ∀ f ∈ fs, es.has (name f.1) = false) :
    plainFields name fs es =
      es ++ (fs.filter fun f => !f.2.isUnset).map fun f => (.text (name f.1), f.2.plain) := by
  induction fs generalizing es with
  | nil => simp [plainFields]
  | cons f r ih =>
    obtain ⟨k, v⟩ := f
    obtain ⟨hk, hr⟩ := List.nodup_cons.1 hnames
    have hlater : ∀ f ∈ r, es.has (name f.1) = false := fun f hf => hes f (.tail _ hf)
    rw [plainFields]
    cases hv : v.isUnset with
    | true => simp [hv, ih hr hlater]
    | false =>
      have hput := Entries.put_eq_append (v := v.plain) (hes (k, v) (.head _))
      have hfresh : ∀ f ∈ r, (es.put (name k) v.plain).has (name f.1) = false := by
        intro f hf
        have hne : name k ≠ name f.1 := fun h => hk (List.mem_map.2 ⟨f, hf, h.symm⟩)
        simp [hput, Entries.has_append_text, hlater f hf, hne]
      rw [if_neg (by simp), ih hr hfresh, hput]
      simp [hv]

/-- Whether a value is a mapping, or an input object with a name for each attribute. -/
def isFields : Value → Bool
  | .map _ => true
  | .input t fs => decide (fs.map fun f => t.apiName f.1).Nodup
  | _ => false

/-- The plain form of fields is the mapping of those that were sent. -/
theorem plain_of_isFields {v : Value} (hv : v.isFields = true) :
    v.plain = .map (v.sentEntries.map fun e => (e.1, e.2.plain)) := by
  cases v with
  | map es => rw [plain, plainEntries_eq, sentEntries]
  | input t fs =>
    rw [plain, plainFields_eq (of_decide_eq_true hv) fun _ _ => rfl, List.nil_append, sentEntries,
      List.map_map]
    rfl
  | _ => cases hv

theorem sentEntries_of_entriesPlain {es : Entries} (hes : entriesPlain key es = true) :
    (map es).sentEntries = es :=
  List.filter_eq_self.2 fun e he => by simp [(entriesPlain_iff.1 hes e he).2.1]

/-- Every entry of the plain form was sent. -/
theorem sentEntries_plain (hkey : ∀ s, key (.text s) = true) {v : Value}
    (hv : v.isClient key = true) (hfields : v.isFields = true) :
    v.plain.sentEntries = v.sentEntries.map fun e => (e.1, e.2.plain) := by
  have hplain := isPlain_plain hkey hv
  rw [plain_of_isFields hfields] at hplain ⊢
  exact sentEntries_of_entriesPlain hplain

theorem outline_of_isFields {v : Value} (hv : v.isFields = true) :
    v.outline = .mapping (v.sentEntries.map Prod.fst) := by
  cases v with
  | map es | input t fs => rfl
  | _ => cases hv

theorem has_of_isFields {v u : Value} (hv : v.isFields = true) (q : Place) :
    v.Has q u ↔ ∃ k, q = .entry k ∧ (k, u) ∈ v.sentEntries := by
  cases v with
  | map es | input t fs => cases q <;> simp [Has]
  | _ => cases hv

theorem isFields_plain {v : Value} (hv : v.isFields = true) : v.plain.isFields = true := by
  rw [plain_of_isFields hv]
  rfl

theorem outline_plain_of_isFields (hkey : ∀ s, key (.text s) = true) {v : Value}
    (hv : v.isClient key = true) (hfields : v.isFields = true) : v.plain.outline = v.outline := by
  rw [outline_of_isFields hfields, outline_of_isFields (isFields_plain hfields),
    sentEntries_plain hkey hv hfields, List.map_map]
  rfl

theorem has_plain_of_isFields (hkey : ∀ s, key (.text s) = true) {v : Value}
    (hv : v.isClient key = true) (hfields : v.isFields = true) (q : Place) (w : Value) :
    v.plain.Has q w ↔ ∃ u, v.Has q u ∧ w = u.plain := by
  simp only [has_of_isFields hfields, has_of_isFields (isFields_plain hfields),
    sentEntries_plain hkey hv hfields, List.mem_map]
  constructor
  · rintro ⟨k, rfl, ⟨_, u⟩, hmem, heq⟩
    cases heq
    exact ⟨u, ⟨_, rfl, hmem⟩, rfl⟩
  · rintro ⟨u, ⟨k, rfl, hmem⟩, rfl⟩
    exact ⟨k, rfl, (k, u), hmem, rfl⟩

/-- What is to be seen of the plain form is what is to be seen of the value. -/
theorem outline_plain (hkey : ∀ s, key (.text s) = true) {v : Value} (hv : v.isClient key = true) :
    v.plain.outline = v.outline := by
  cases v with
  | list vs | tuple vs => simp [plain, outline, plainAll_eq]
  | map es => exact outline_plain_of_isFields hkey hv rfl
  | input t fs => exact outline_plain_of_isFields hkey hv (Bool.and_eq_true_iff.1 hv).1
  | object => cases hv
  | _ => rfl

/-- The plain form is one step in what the value is there, in its plain form. -/
theorem has_plain (hkey : ∀ s, key (.text s) = true) {v : Value} (hv : v.isClient key = true)
    (q : Place) (w : Value) : v.plain.Has q w ↔ ∃ u, v.Has q u ∧ w = u.plain := by
  cases v with
  | member e v =>
    have hplain := (Bool.and_eq_true_iff.1 hv).2
    constructor
    · intro h
      exact ⟨w, h, (plain_of_isPlain (isPlain_of_has hplain h)).symm⟩
    · rintro ⟨u, h, rfl⟩
      rwa [plain_of_isPlain (isPlain_of_has hplain h)]
  | list vs | tuple vs =>
    cases q with
    | item i =>
      simp only [plain, Has, plainAll_eq, List.getElem?_map, Option.map_eq_some_iff,
        eq_comm (a := w)]
    | entry k => simp [plain, Has]
  | map es => exact has_plain_of_isFields hkey hv rfl q w
  | input t fs => exact has_plain_of_isFields hkey hv (Bool.and_eq_true_iff.1 hv).1 q w
  | object => cases hv
  | _ => simp [plain, Has]

/-- Along every path the plain form shows what the value shows. -/
theorem shows_plain (hkey : ∀ s, key (.text s) = true) (p : List Place) (o : Outline) {v : Value}
    (hv : v.isClient key = true) : v.plain.Shows p o ↔ v.Shows p o := by
  induction p generalizing v with
  | nil => rw [Shows, Shows, outline_plain hkey hv]
  | cons q p ih =>
    simp only [Shows, has_plain hkey hv]
    constructor
    · rintro ⟨_, ⟨u, hu, rfl⟩, hw⟩
      exact ⟨u, hu, (ih (isClient_of_has hv hu)).1 hw⟩
    · rintro ⟨u, hu, hw⟩
      exact ⟨u.plain, ⟨u, hu, rfl⟩, (ih (isClient_of_has hv hu)).2 hw⟩

/-! ## The filters on scalar columns -/

/-- An input object of a class that has a name for each attribute is one a client may send. -/
theorem isClient_ofAttributes {t : InputType} {given : List (String × Value)}
    (hnames : (t.attributes.map fun a => t.apiName a.1).Nodup)
    (hgiven : ∀ f ∈ given, f.2.isClient key = true) :
    (ofAttributes t given).isClient key = true := by
  refine Bool.and_eq_true_iff.2 ⟨decide_eq_true ?_, fieldsClient_iff.2 fun f hf => ?_⟩
  · rwa [List.map_map]
  · obtain ⟨a, -, rfl⟩ := List.mem_map.1 hf
    cases h : given.lookup a.1 with
    | none => rfl
    | some v => exact hgiven (a.1, v) (Keys.mem_of_lookup h)

theorem nodup_apiNames : ∀ t ∈ Graph.filterTypes,
    (t.attributes.map fun a => t.apiName a.1).Nodup := by
  decide +kernel

/-! ## What the plain form keeps -/

/-- Whatever a client sends, its plain form is plain and is its own plain form, and along every
path the two show the same: lists of the same length, mappings of the same keys in the same
order, the same leaves, explicit nulls among them. A client may send any filter on a scalar
column, whose attributes then keep their names apart. -/
theorem plain_normalizes (hkey : ∀ s, key (.text s) = true) :
    (∀ v : Value, v.isClient key = true →
      v.plain.plain = v.plain ∧ v.plain.isPlain key = true ∧
        ∀ p o, v.plain.Shows p o ↔ v.Shows p o) ∧
    ∀ t ∈ Graph.filterTypes, ∀ given : List (String × Value),
      (∀ f ∈ given, f.2.isClient key = true) → (ofAttributes t given).isClient key = true := by
  refine ⟨fun v hv => ⟨plain_plain hkey hv, isPlain_plain hkey hv, ?_⟩, fun t ht given hgiven => ?_⟩
  · exact fun p o => shows_plain hkey p o hv
  · exact isClient_ofAttributes (nodup_apiNames t ht) hgiven

/-- A filter on a rating beside an enumeration member and an entry that was not sent. -/
theorem plain_normalizes_rating :
    let key : Value → Bool := fun k => k matches .text _
    let t : InputType := {
      name := "IntFilter"
      attributes := [("equals", "equals"), ("in_", "in"), ("not_in", "notIn"), ("lt", "lt"),
        ("lte", "lte"), ("gt", "gt"), ("gte", "gte"), ("not_", "not")] }
    let given : List (String × Value) :=
      [("not_", .null), ("in_", .tuple [.int 4, .int 5]), ("lt", .unset)]
    let v : Value := .map [(.text "rating", .ofAttributes t given),
      (.text "order", .member "OrderDirection" (.text "asc")), (.text "skip", .unset)]
    v.isClient key = true ∧ v.plain.plain = v.plain ∧ v.plain.isPlain key = true ∧
      v.plain.Shows [] (.mapping [.text "rating", .text "order"]) ∧
      v.plain.Shows [.entry (.text "rating")] (.mapping [.text "in", .text "not"]) ∧
      v.plain.Shows [.entry (.text "rating"), .entry (.text "in")] (.list 2) ∧
      v.plain.Shows [.entry (.text "rating"), .entry (.text "not")] (.leaf .null) := by
  intro key t given v
  obtain ⟨hclient, hfilters⟩ := @plain_normalizes key fun _ => rfl
  have hfilter := hfilters t (by decide +kernel) given (by simp [given, isClient, allClient])
  have hv : v.isClient key = true := by
    simp [v, isClient, entriesClient, key, hfilter, isPlain, isUnset]
  obtain ⟨hidem, hplain, hshows⟩ := hclient v hv
  have hrating : v.Has (.entry (.text "rating")) (ofAttributes t given) := .head _
  have hsent : (ofAttributes t given).sentEntries =
    [(.text "in", .tuple [.int 4, .int 5]), (.text "not", .null)] := rfl
  have hin : (.text "in", .tuple [.int 4, .int 5]) ∈ (ofAttributes t given).sentEntries := by
    rw [hsent]
    exact .head _
  have hnot : (.text "not", .null) ∈ (ofAttributes t given).sentEntries := by
    rw [hsent]
    exact .tail _ (.head _)
  exact ⟨hv, hidem, hplain, (hshows _ _).2 rfl, (hshows _ _).2 ⟨_, hrating, rfl⟩,
    (hshows _ _).2 ⟨_, hrating, _, hin, rfl⟩, (hshows _ _).2 ⟨_, hrating, _, hnot, rfl⟩⟩

end Value

end RecordSchema
