import RecordSchema.Proofs.Success
import RecordSchema.Proofs.Value.Plain
import RecordSchema.Request.Search

/-!
# Arguments of a list query

`Search.ofArgs` reads the arguments of a list query. `SearchArgs.Acceptable`
says when it succeeds: every entry of the ordering names one field and a
direction, no page argument is negative, and a cursor comes with an
ordering. Otherwise it complains of the arguments (`Fault.isArgument`), but
for one way out (`SearchArgs.Unlisted`): the complaint about an entry that
does not name one field lists the keys of the entry in order, and keys of
different kinds have none.

The parts of a search are arguments of a list query again
(`Search.toArgs`), and reading them gives the search back.
-/

namespace RecordSchema

/-- Whether a fault is about the arguments of a query. -/
def Fault.isArgument : Fault → Bool
  | .query _ | .unorderedCursor _ => true
  | _ => false

namespace Value

/-- The fields that an entry of an ordering names: those that were sent and are not null. -/
def namedFields (v : Value) : Entries :=
  v.sentEntries.filter fun e => !e.2.plain.isNull

/-- Whether a value is a number for a page, null or not sent. -/
def isPage : Value → Bool
  | .unset | .null | .int _ | .bool _ => true
  | _ => false

/-- The number for a page. -/
def number? : Value → Option Int
  | .int n => some n
  | .bool b => some (ofBool b)
  | _ => none

theorem pageNumber?_of_isPage {v : Value} (hv : v.isPage = true) :
    pageNumber? v = .ok v.number? := by
  cases v <;> first | rfl | cases hv

/-- Texts can be put in order. -/
theorem sortKeys?_ne_none {keys : List Value} (h : ∀ k ∈ keys, ∃ s, k = .text s) :
    sortKeys? keys ≠ none := by
  have hkinds : ∀ kind ∈ keys.map keyKind?, kind = some .text := by
    intro kind hkind
    obtain ⟨k, hk, rfl⟩ := List.mem_map.1 hkind
    obtain ⟨s, rfl⟩ := h k hk
    rfl
  have hall : (keys.map keyKind?).all
      (fun kind => kind.isSome && kind == (keys.map keyKind?).headD none) = true := by
    refine List.all_eq_true.2 fun kind hkind => ?_
    cases hmap : keys.map keyKind? with
    | nil =>
      rw [hmap] at hkind
      cases hkind
    | cons head r =>
      rw [hkinds kind hkind, List.headD_cons, hkinds head (hmap ▸ .head _)]
      rfl
  rw [sortKeys?, if_pos (by simp only [hall, Bool.or_true])]
  exact Option.some_ne_none _

end Value

/-! ## Entries of an ordering -/

/-- Whether the text of a direction is that of a direction there is. -/
def IsDirection (s : String) : Prop := s = "asc" ∨ s = "desc"

theorem readDirection_of_isDirection {v : Value} (h : IsDirection (directionText v)) :
    readDirection v = .ok (directionText v) := by
  unfold readDirection
  rw [if_pos]
  simpa [IsDirection] using h

theorem readDirection_of_not_isDirection {v : Value} (h : ¬ IsDirection (directionText v)) :
    readDirection v = .error (.direction (directionText v)) := by
  unfold readDirection
  rw [if_neg]
  simpa [IsDirection] using h

/-- The text of a direction is its own text. -/
theorem directionText_text {s : String} (h : IsDirection s) : directionText (.text s) = s := by
  rcases h with rfl | rfl <;> decide +kernel

namespace SortKey

/-- The key is what an entry of an ordering says: the one field that it names, with the
direction that the entry spells. -/
def IsOf (k : SortKey) (v : Value) : Prop :=
  ∃ d, v.namedFields = [(k.field, d)] ∧ IsDirection (directionText d.plain) ∧
    k.direction = .text (directionText d.plain)

theorem filter_plain {v : Value} :
    ((v.sentEntries.map fun e => (e.1, e.2.plain)).filter fun e => !e.2.isNull) =
      v.namedFields.map fun e => (e.1, e.2.plain) := by
  rw [Value.namedFields, List.filter_map]
  rfl

/-- What reading an entry can come to. -/
theorem ofEntry_cases {v : Value} (hv : v.isFields = true) :
    (∃ k, k.IsOf v ∧ ofEntry v.plain = .ok k) ∨
    (∃ k d, v.namedFields = [(k, d)] ∧ ¬ IsDirection (directionText d.plain) ∧
      ofEntry v.plain = .error (.query (.direction (directionText d.plain)))) ∨
    (v.namedFields.length ≠ 1 ∧ ∃ keys, Value.sortKeys? (v.sentEntries.map Prod.fst) = some keys ∧
      ofEntry v.plain = .error (.query (.orderEntry keys))) ∨
    (v.namedFields.length ≠ 1 ∧ Value.sortKeys? (v.sentEntries.map Prod.fst) = none ∧
      ofEntry v.plain = .error .wrongKind) := by
  have hkeys : (v.sentEntries.map fun e => (e.1, e.2.plain)).map Prod.fst =
      v.sentEntries.map Prod.fst := by
    rw [List.map_map]
    rfl
  rw [Value.plain_of_isFields hv, ofEntry, filter_plain, hkeys]
  rcases hnamed : v.namedFields with _ | ⟨⟨k, d⟩, _ | ⟨e, r⟩⟩
  case cons.nil =>
    by_cases hd : IsDirection (directionText d.plain)
    · refine .inl ⟨⟨k, .text (directionText d.plain)⟩, ⟨d, hnamed, hd, rfl⟩, ?_⟩
      simp only [List.map_cons, List.map_nil, readDirection_of_isDirection hd]
    · refine .inr (.inl ⟨k, d, rfl, hd, ?_⟩)
      simp only [List.map_cons, List.map_nil, readDirection_of_not_isDirection hd]
  case nil | cons.cons =>
    cases hsort : Value.sortKeys? (v.sentEntries.map Prod.fst) with
    | some keys => exact .inr (.inr (.inl ⟨by simp, keys, rfl, rfl⟩))
    | none => exact .inr (.inr (.inr ⟨by simp, rfl, rfl⟩))

theorem IsOf.eq {k k' : SortKey} {v : Value} (h : k.IsOf v) (h' : k'.IsOf v) : k = k' := by
  obtain ⟨d, hnamed, -, hk⟩ := h
  obtain ⟨d', hnamed', -, hk'⟩ := h'
  cases k
  cases k'
  cases hnamed.symm.trans hnamed'
  cases hk
  cases hk'
  rfl

/-- An entry is read when it names one field with a direction. -/
theorem ofEntry_eq_ok {v : Value} (hv : v.isFields = true) {k : SortKey} :
    ofEntry v.plain = .ok k ↔ k.IsOf v := by
  constructor
  · intro h
    rcases ofEntry_cases hv with ⟨k', hk', hread⟩ | ⟨_, _, -, -, hread⟩ | ⟨-, _, -, hread⟩ |
      ⟨-, -, hread⟩
    · cases h.symm.trans hread
      exact hk'
    all_goals cases h.symm.trans hread
  · intro h
    rcases ofEntry_cases hv with ⟨k', hk', hread⟩ | ⟨_, d, hnamed, hd, -⟩ | ⟨hlen, -⟩ | ⟨hlen, -⟩
    · rw [hread, h.eq hk']
    · obtain ⟨d', hnamed', hd', -⟩ := h
      cases hnamed.symm.trans hnamed'
      exact absurd hd' hd
    all_goals
      obtain ⟨d', hnamed', -⟩ := h
      exact absurd (congrArg List.length hnamed') hlen

/-- Whether an entry does not name one field and has keys without an order. -/
def IsUnlisted (v : Value) : Prop :=
  v.namedFields.length ≠ 1 ∧ Value.sortKeys? (v.sentEntries.map Prod.fst) = none

theorem ofEntry_of_isUnlisted {v : Value} (hv : v.isFields = true) (h : IsUnlisted v) :
    ofEntry v.plain = .error .wrongKind := by
  obtain ⟨hlen, hsort⟩ := h
  rcases ofEntry_cases hv with ⟨_, ⟨_, hnamed, -⟩, -⟩ | ⟨_, _, hnamed, -⟩ | ⟨-, _, hkeys, -⟩ |
    ⟨-, -, hread⟩
  · exact absurd (congrArg List.length hnamed) hlen
  · exact absurd (congrArg List.length hnamed) hlen
  · cases hsort.symm.trans hkeys
  · exact hread

/-- What is wrong with an entry is wrong with the arguments, unless its keys cannot be listed. -/
theorem ofEntry_eq_error {v : Value} (hv : v.isFields = true) {e : Fault}
    (h : ofEntry v.plain = .error e) : e.isArgument = true ∨ IsUnlisted v := by
  rcases ofEntry_cases hv with ⟨_, -, hread⟩ | ⟨_, _, -, -, hread⟩ | ⟨-, _, -, hread⟩ |
    ⟨hlen, hsort, -⟩
  · cases h.symm.trans hread
  · cases h.symm.trans hread
    exact .inl rfl
  · cases h.symm.trans hread
    exact .inl rfl
  · exact .inr ⟨hlen, hsort⟩

theorem mapM_ofEntry_eq_ok {vs : List Value} (hvs : ∀ v ∈ vs, v.isFields = true)
    {order : List SortKey} :
    (vs.map Value.plain).mapM ofEntry = .ok order ↔ List.Forall₂ IsOf order vs := by
  induction vs generalizing order with
  | nil =>
    rw [List.forall₂_nil_right_iff]
    exact Except.pure_eq_ok.trans eq_comm
  | cons v r ih =>
    obtain ⟨hv, hr⟩ := List.forall_mem_cons.1 hvs
    simp only [List.map_cons, List.mapM_cons, Except.bind_eq_ok, Except.pure_eq_ok,
      ofEntry_eq_ok hv, ih hr, List.forall₂_cons_right_iff]
    constructor
    · rintro ⟨k, hk, rest, hrest, rfl⟩
      exact ⟨k, rest, hk, hrest, rfl⟩
    · rintro ⟨k, rest, hk, hrest, rfl⟩
      exact ⟨k, hk, rest, hrest, rfl⟩

theorem isOk_ofEntry {v : Value} (hv : v.isFields = true) :
    (ofEntry v.plain).isOk = true ↔ ∃ k : SortKey, k.IsOf v := by
  simp only [Except.isOk_iff, ofEntry_eq_ok hv]

/-- Reading entries fails as the first one that is no sort key. -/
theorem mapM_ofEntry_eq_error {vs : List Value} (hvs : ∀ v ∈ vs, v.isFields = true) {e : Fault} :
    (vs.map Value.plain).mapM ofEntry = .error e ↔
      ∃ pre v post, vs = pre ++ v :: post ∧ (∀ u ∈ pre, ∃ k : SortKey, k.IsOf u) ∧
        ofEntry v.plain = .error e := by
  rw [Except.mapM_eq_error]
  constructor
  · rintro ⟨_, _, _, hmap, hpre, hfail⟩
    obtain ⟨pre, rest, rfl, rfl, hrest⟩ := List.map_eq_append_iff.1 hmap
    obtain ⟨v, post, rfl, rfl, rfl⟩ := List.map_eq_cons_iff.1 hrest
    refine ⟨pre, v, post, rfl, fun u hu => ?_, hfail⟩
    exact (isOk_ofEntry (hvs u (List.mem_append_left _ hu))).1 (hpre _ (List.mem_map_of_mem hu))
  · rintro ⟨pre, v, post, rfl, hpre, hfail⟩
    refine ⟨pre.map Value.plain, v.plain, post.map Value.plain, ?_, ?_, hfail⟩
    · rw [List.map_append, List.map_cons]
    · intro w hw
      obtain ⟨u, hu, rfl⟩ := List.mem_map.1 hw
      exact (isOk_ofEntry (hvs u (List.mem_append_left _ hu))).2 (hpre u hu)

/-- The entry that a sort key is. -/
def entry (k : SortKey) : Value := .map [(k.field, k.direction)]

/-- A sort key that was read says of itself what it is. -/
theorem IsOf.entry {k : SortKey} {v : Value} (h : k.IsOf v) : k.IsOf k.entry := by
  obtain ⟨d, -, hd, hk⟩ := h
  have hself : directionText k.direction.plain = directionText d.plain := by
    rw [hk]
    exact directionText_text hd
  refine ⟨k.direction, ?_, ?_, ?_⟩
  · rw [SortKey.entry, Value.namedFields, hk]
    rfl
  · rwa [hself]
  · rw [hself, hk]

end SortKey

/-! ## Reading the arguments -/

namespace Search

/-- The filter that an argument gives: an empty one when it is null or not sent. -/
def filterOf (v : Value) : Value :=
  match v.plain with
  | .null => .map []
  | .unset => .map []
  | w => w

/-- The cursor that an argument gives. -/
def cursorOf (v : Value) : Option Value :=
  match v.plain with
  | .null => none
  | .unset => none
  | w => some w

/-- Checks the page and the cursor of a search. -/
def checked (s : Search) : Except Fault Search :=
  if s.take.getD 0 < 0 then .error (.query (.negativeTake (s.take.getD 0)))
  else if s.skip < 0 then .error (.query (.negativeSkip s.skip))
  else if s.cursor.isSome && s.order.isEmpty then .error (.unorderedCursor none)
  else .ok s

/-- The arguments are read one by one, the ordering first, and checked together. -/
theorem ofArgs_eq {args : SearchArgs} {entries : List Value} {take skip : Option Int}
    (horder : orderEntries args.order = .ok entries) (htake : pageNumber? args.take = .ok take)
    (hskip : pageNumber? args.skip = .ok skip) :
    ofArgs args = entries.mapM SortKey.ofEntry >>= fun order =>
      checked ⟨filterOf args.filter, order, take, skip.getD 0, cursorOf args.cursor⟩ := by
  unfold ofArgs
  rw [horder, htake, hskip]
  change (entries.mapM SortKey.ofEntry >>= _) = _
  cases entries.mapM SortKey.ofEntry with
  | error e => rfl
  | ok order =>
    have hbind (f : List SortKey → Except Fault Search) : (Except.ok order >>= f) = f order := rfl
    cases take with
    | none =>
      simp only [hbind, checked, Option.getD_none, Int.lt_irrefl, if_false]
      rfl
    | some n => rfl

theorem checked_eq_ok {s s' : Search} : checked s = .ok s' ↔
    s = s' ∧ 0 ≤ s.take.getD 0 ∧ 0 ≤ s.skip ∧ (s.cursor.isSome = true → s.order ≠ []) := by
  unfold checked
  split_ifs with htake hskip hcursor
  · exact iff_of_false nofun fun h => absurd h.2.1 (by omega)
  · exact iff_of_false nofun fun h => absurd h.2.2.1 (by omega)
  · simp only [Bool.and_eq_true, List.isEmpty_iff] at hcursor
    exact iff_of_false nofun fun h => h.2.2.2 hcursor.1 hcursor.2
  · simp only [Bool.and_eq_true, List.isEmpty_iff, not_and] at hcursor
    rw [Except.ok.injEq]
    exact (and_iff_left ⟨by omega, by omega, hcursor⟩).symm

theorem isArgument_of_checked {s : Search} {e : Fault} (h : checked s = .error e) :
    e.isArgument = true := by
  unfold checked at h
  split_ifs at h <;> cases h <;> rfl

end Search

namespace SearchArgs

/-- The entries of the ordering. -/
def entries (args : SearchArgs) : List Value := args.order.items?.getD []

/-- The arguments are of the types that a list query takes them in, each of them null or not
sent if need be. -/
structure Typed (args : SearchArgs) : Prop where
  order : args.order.isPresent = true →
    ∃ vs, args.order.items? = some vs ∧ ∀ v ∈ vs, v.isFields = true
  take : args.take.isPage = true
  skip : args.skip.isPage = true

/-- The arguments are such that there is a search. -/
structure Acceptable (args : SearchArgs) : Prop where
  order : ∀ v ∈ args.entries, ∃ k : SortKey, k.IsOf v
  take : ∀ n ∈ args.take.number?, 0 ≤ n
  skip : ∀ n ∈ args.skip.number?, 0 ≤ n
  cursor : args.cursor.plain.isPresent = true → args.entries ≠ []

/-- The first entry that is no sort key cannot be listed. -/
def Unlisted (args : SearchArgs) : Prop :=
  ∃ pre v post, args.entries = pre ++ v :: post ∧ (∀ u ∈ pre, ∃ k : SortKey, k.IsOf u) ∧
    SortKey.IsUnlisted v

/-- Entries whose keys are texts can be listed. -/
theorem not_unlisted_of_text {args : SearchArgs}
    (h : ∀ v ∈ args.entries, ∀ e ∈ v.sentEntries, ∃ name, e.1 = .text name) : ¬ args.Unlisted := by
  rintro ⟨pre, v, post, hsplit, -, -, hsort⟩
  refine Value.sortKeys?_ne_none (fun k hk => ?_) hsort
  obtain ⟨e, he, rfl⟩ := List.mem_map.1 hk
  exact h v (hsplit ▸ List.mem_append_right pre List.mem_cons_self) e he

namespace Typed

variable {args : SearchArgs}

theorem isFields (h : args.Typed) : ∀ v ∈ args.entries, v.isFields = true := by
  intro v hv
  cases hitems : args.order.items? with
  | none =>
    rw [entries, hitems] at hv
    cases hv
  | some vs =>
    have hpresent : args.order.isPresent = true := by
      cases horder : args.order <;> first | rfl | (rw [horder] at hitems; cases hitems)
    obtain ⟨vs', hvs', hall⟩ := h.order hpresent
    rw [entries, hvs'] at hv
    exact hall v hv

theorem orderEntries_eq (h : args.Typed) :
    orderEntries args.order = .ok (args.entries.map Value.plain) := by
  have horder := h.order
  unfold orderEntries entries
  cases hv : args.order with
  | unset | null => rfl
  | list vs | tuple vs => cases vs <;> rfl
  | _ =>
    rw [hv] at horder
    obtain ⟨_, ⟨⟩, -⟩ := horder rfl

end Typed

end SearchArgs

namespace Search

variable {args : SearchArgs} {s : Search}

/-- The search is what the arguments ask for. -/
structure IsOf (s : Search) (args : SearchArgs) : Prop where
  filter : s.filter = filterOf args.filter
  order : List.Forall₂ SortKey.IsOf s.order args.entries
  take : s.take = args.take.number?
  skip : s.skip = args.skip.number?.getD 0
  cursor : s.cursor = cursorOf args.cursor
  take_nonneg : 0 ≤ s.take.getD 0
  skip_nonneg : 0 ≤ s.skip
  ordered : s.cursor.isSome = true → s.order ≠ []

theorem ofArgs_of_typed (h : args.Typed) :
    ofArgs args = (args.entries.map Value.plain).mapM SortKey.ofEntry >>= fun order =>
      checked ⟨filterOf args.filter, order, args.take.number?, args.skip.number?.getD 0,
        cursorOf args.cursor⟩ :=
  ofArgs_eq h.orderEntries_eq (Value.pageNumber?_of_isPage h.take)
    (Value.pageNumber?_of_isPage h.skip)

/-- Reading the arguments yields a search just when it is what they ask for. -/
theorem ofArgs_eq_ok (h : args.Typed) : ofArgs args = .ok s ↔ s.IsOf args := by
  rw [ofArgs_of_typed h]
  simp only [Except.bind_eq_ok, SortKey.mapM_ofEntry_eq_ok h.isFields, checked_eq_ok]
  constructor
  · rintro ⟨order, horder, rfl, htake, hskip, hcursor⟩
    exact ⟨rfl, horder, rfl, rfl, rfl, htake, hskip, hcursor⟩
  · rintro ⟨hfilter, horder, htake, hskip, hcursor, htake', hskip', hordered⟩
    rw [htake] at htake'
    rw [hskip] at hskip'
    rw [hcursor] at hordered
    refine ⟨s.order, horder, ?_, htake', hskip', hordered⟩
    rw [← hfilter, ← htake, ← hskip, ← hcursor]

theorem ofArgs_of_unlisted (h : args.Typed) (hun : args.Unlisted) :
    ofArgs args = .error .wrongKind := by
  obtain ⟨pre, v, post, hsplit, hpre, hv⟩ := hun
  have hfields := h.isFields v (hsplit ▸ List.mem_append_right pre List.mem_cons_self)
  have hread := (SortKey.mapM_ofEntry_eq_error h.isFields).2
    ⟨pre, v, post, hsplit, hpre, SortKey.ofEntry_of_isUnlisted hfields hv⟩
  rw [ofArgs_of_typed h, hread]
  rfl

theorem isArgument_or_unlisted (h : args.Typed) {e : Fault} (he : ofArgs args = .error e) :
    e.isArgument = true ∨ args.Unlisted := by
  rw [ofArgs_of_typed h] at he
  cases hread : (args.entries.map Value.plain).mapM SortKey.ofEntry with
  | ok order =>
    rw [hread] at he
    exact .inl (isArgument_of_checked he)
  | error e' =>
    rw [hread] at he
    cases he
    obtain ⟨pre, v, post, hsplit, hpre, hfail⟩ :=
      (SortKey.mapM_ofEntry_eq_error h.isFields).1 hread
    have hfields := h.isFields v (hsplit ▸ List.mem_append_right pre List.mem_cons_self)
    exact (SortKey.ofEntry_eq_error hfields hfail).imp_right
      fun hv => ⟨pre, v, post, hsplit, hpre, hv⟩

/-! ## When there is a search -/

theorem filterOf_eq (v : Value) : filterOf v = if v.plain.isPresent then v.plain else .map [] := by
  unfold filterOf
  cases v.plain <;> rfl

theorem cursorOf_eq (v : Value) :
    cursorOf v = if v.plain.isPresent then some v.plain else none := by
  unfold cursorOf
  cases v.plain <;> rfl

theorem isSome_cursorOf (v : Value) : (cursorOf v).isSome = v.plain.isPresent := by
  rw [cursorOf_eq]
  split
  · next h => rw [h, Option.isSome_some]
  · next h => simpa using h

theorem getD_nonneg {o : Option Int} : 0 ≤ o.getD 0 ↔ ∀ n ∈ o, 0 ≤ n := by
  cases o <;> simp

theorem IsOf.acceptable (h : s.IsOf args) : args.Acceptable where
  order v hv := by
    obtain ⟨k, -, hk⟩ := h.order.exists_left hv
    exact ⟨k, hk⟩
  take := getD_nonneg.1 (h.take ▸ h.take_nonneg)
  skip := getD_nonneg.1 (h.skip ▸ h.skip_nonneg)
  cursor hcursor hnone := by
    have hsome : s.cursor.isSome = true := by rw [h.cursor, isSome_cursorOf, hcursor]
    have horder := h.order
    rw [hnone, List.forall₂_nil_right_iff] at horder
    exact h.ordered hsome horder

theorem exists_isOf (h : args.Acceptable) : ∃ s : Search, s.IsOf args := by
  obtain ⟨order, horder⟩ := List.exists_forall₂ h.order
  refine ⟨⟨filterOf args.filter, order, args.take.number?, args.skip.number?.getD 0,
    cursorOf args.cursor⟩, rfl, horder, rfl, rfl, rfl, getD_nonneg.2 h.take,
    getD_nonneg.2 h.skip, ?_⟩
  rintro hcursor rfl
  rw [isSome_cursorOf] at hcursor
  exact h.cursor hcursor (List.forall₂_nil_left_iff.1 horder)

/-! ## Reading a search again -/

/-- The parts of a search, as arguments. -/
def toArgs (s : Search) : SearchArgs where
  filter := s.filter
  order := .tuple (s.order.map SortKey.entry)
  take := s.take.elim .null .int
  skip := .int s.skip
  cursor := s.cursor.getD .null

theorem typed_toArgs (s : Search) : s.toArgs.Typed where
  order _ := ⟨_, rfl, by simp [SortKey.entry, Value.isFields]⟩
  take := by
    rw [toArgs]
    cases s.take <;> rfl
  skip := rfl

theorem filterOf_filterOf {v : Value} (hv : v.isClient (fun _ => true) = true) :
    filterOf (filterOf v) = filterOf v := by
  rw [filterOf_eq v]
  split
  · next h => rw [filterOf_eq, Value.plain_plain (fun _ => rfl) hv, if_pos h]
  · rfl

theorem cursorOf_cursorOf {v : Value} (hv : v.isClient (fun _ => true) = true) :
    cursorOf ((cursorOf v).getD .null) = cursorOf v := by
  rw [cursorOf_eq v]
  split
  · next h => rw [Option.getD_some, cursorOf_eq, Value.plain_plain (fun _ => rfl) hv, if_pos h]
  · rfl

/-- What a search asks for is the search. -/
theorem IsOf.self (h : s.IsOf args) (hfilter : args.filter.isClient (fun _ => true) = true)
    (hcursor : args.cursor.isClient (fun _ => true) = true) : s.IsOf s.toArgs where
  filter := by rw [toArgs, h.filter, filterOf_filterOf hfilter]
  order := by
    change List.Forall₂ SortKey.IsOf s.order (s.order.map SortKey.entry)
    rw [List.forall₂_map_right_iff, List.forall₂_same]
    intro k hk
    obtain ⟨v, -, hv⟩ := h.order.exists_right hk
    exact hv.entry
  take := by
    rw [toArgs]
    cases s.take <;> rfl
  skip := rfl
  cursor := by rw [toArgs, h.cursor, cursorOf_cursorOf hcursor]
  take_nonneg := h.take_nonneg
  skip_nonneg := h.skip_nonneg
  ordered := h.ordered

end Search

end RecordSchema
