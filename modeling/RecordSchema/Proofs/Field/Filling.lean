import RecordSchema.Proofs.Field.Generates
import RecordSchema.Proofs.Field.Stamps

/-!
# Filling in defaults

What creation makes of the data that it is given. Defaults go through
the fields one by one, and each touches the entry under its own key
alone. So what a run leaves under a key is what one step makes of it: a
stamped field takes the time, a composite is rebuilt column by column,
and in any other field a value that was given stays and an absent one
gets its default, if there is one that is not left to storage
(`Storage.CompletesAll`).

Afterwards nothing is absent that a default could fill
(`Storage.Settled`), so that a second run, with other random numbers
and at another time, changes the stamps and nothing else. The one way to
fail is a default that asks for more random bytes than a string of bytes
can hold, and it fails only where that default is called for.
-/

namespace RecordSchema

namespace Storage

variable {fields : List (String × Storage)} {s : Storage} {key name : String} {v v' : Value}
  {es es' data data' : Value.Entries} {m m' : Supply}

/-! ## Columns -/

/-- Whether a kind has no problems, neither of structure nor of its defaults. -/
structure IsLegal (s : Storage) : Prop where
  problems : s.problems = []
  defaults : s.defaultProblems = .ok []
  names : s.namesOnce = true

/-- A legal column of a composite is one scalar or enum column. -/
theorem IsLegal.column {e : String × Storage} (h : (multi fields).IsLegal) (he : e ∈ fields) :
    e.2.isScalarish = true ∧ e.2.defaultProblems = .ok [] := by
  have hdefaults := h.defaults
  rw [defaultProblems] at hdefaults
  exact ⟨(legal_of_mem h.problems he).1, subfieldDefaultProblems_ok hdefaults e he⟩

theorem IsLegal.names_nodup (h : (multi fields).IsLegal) : (fields.map Prod.fst).Nodup :=
  of_decide_eq_true h.names

theorem isUnset_of_admits {t : Scalar} (h : t.admits v = true) : v.isUnset = false := by
  cases v with
  | unset => cases t <;> cases h
  | _ => rfl

/-- A field that generates has a default, which is not left to storage. -/
theorem exists_default (h : s.generates = true) : ∃ d, s.default? = some d ∧
    d ≠ .policy .autoincrement ∧ ∀ e, d ≠ .policy (.dbGenerated e) := by
  unfold generates at h
  split at h
  · cases h
  · cases h
  · next d hauto hdb hd => exact ⟨d, hd, hauto, hdb⟩
  · cases h

/-- A legal field is given a value just when its default is not left to storage. -/
theorem isUnset_defaultValue (hs : s.isComposite = false) (hd : s.defaultProblems = .ok [])
    (h : s.defaultValue.run m = .ok (v, m')) : v.isUnset = !s.generates := by
  cases hgen : s.generates with
  | false =>
    rw [defaultValue_of_not_generates hs hgen] at h
    cases h
    rfl
  | true =>
    obtain ⟨d, hdefault, hauto, hdb⟩ := exists_default hgen
    cases s with
    | scalar f =>
      replace hdefault : f.default = some d := hdefault
      obtain ⟨hmode, hlegal⟩ := scalar_default_legal hd hdefault
      simp only [defaultValue, hdefault, if_neg hmode] at h
      have hallows := f.allows_of_defaultProblems hlegal
      cases d with
      | bare w => cases hallows
      | policy p =>
        rcases p.generate_ok hallows h with ⟨-, rfl | ⟨e, rfl⟩⟩ | hadmits
        · exact absurd rfl hauto
        · exact absurd rfl (hdb e)
        · exact isUnset_of_admits hadmits
    | enum f =>
      replace hdefault : f.default = some d := hdefault
      obtain ⟨hmode, hlegal⟩ := enum_default_legal hd hdefault
      simp only [defaultValue, hdefault, if_neg hmode] at h
      unfold EnumField.defaultProblems at hlegal
      split at hlegal
      · next w =>
        cases h
        obtain ⟨t, -, rfl⟩ := EnumField.exists_text hlegal
        rfl
      · cases hlegal
    | _ => cases hdefault

/-! ## Filling single entries -/

/-- What defaults make of the value of one column. What is given stays, and what is absent gets a
value just when there is a default that is not left to storage. -/
structure Completes (s : Storage) (v v' : Value) : Prop where
  given : v.isUnset = false → v' = v
  absent : v.isUnset = true → (v'.isUnset = false ↔ s.generates = true)

theorem completes_self (h : v.isUnset = false ∨ s.generates = false) : s.Completes v v where
  given _ := rfl
  absent hv := by
    rcases h with h | h
    · rw [hv] at h
      cases h
    · rw [hv, h]
      exact iff_of_false nofun nofun

theorem fill_composite (fields : List (String × Storage)) (key : String) (data : Value.Entries) :
    (multi fields).fill key data = (do
      let es ← fillSubfields fields ((data.get key).entries?.getD [])
      return data.put key (.map es)) := by
  rw [fill]
  cases data.get key <;> rfl

theorem fill_simple (hs : s.isComposite = false) (key : String) (data : Value.Entries) :
    s.fill key data = (do
      if s.isStamped then
        let t ← Generated.now
        return data.put key t
      else if (data.get key).isUnset then
        let v ← s.defaultValue
        return if v.isUnset then data else data.put key v
      else return data) := by
  cases s <;> first | rfl | cases hs

/-- What filling a field does: a composite is rebuilt, a stamped field takes the time, a value
that was given stays, and an absent one takes the default. -/
theorem fill_cases (h : (s.fill key data).run m = .ok (data', m')) :
    (∃ fields es, s = .multi fields ∧
      (fillSubfields fields ((data.get key).entries?.getD [])).run m = .ok (es, m') ∧
      data' = data.put key (.map es)) ∨
    (s.isComposite = false ∧
      ((s.isStamped = true ∧ ∃ t, data' = data.put key (.dateTime t)) ∨
        (s.isStamped = false ∧ (data.get key).isUnset = false ∧ data' = data) ∨
        (s.isStamped = false ∧ (data.get key).isUnset = true ∧
          ∃ v, s.defaultValue.run m = .ok (v, m') ∧
            data' = if v.isUnset then data else data.put key v))) := by
  cases hs : s.isComposite with
  | true =>
    cases s with
    | multi fields =>
      rw [fill_composite] at h
      obtain ⟨⟨es, m₁⟩, hes, h⟩ := Except.bind_eq_ok.1 h
      cases h
      exact .inl ⟨fields, es, rfl, hes, rfl⟩
    | _ => cases hs
  | false =>
    rw [fill_simple hs] at h
    refine .inr ⟨rfl, ?_⟩
    cases hstamped : s.isStamped with
    | true =>
      rw [hstamped, if_pos rfl] at h
      cases h
      exact .inl ⟨rfl, _, rfl⟩
    | false =>
      rw [hstamped, if_neg Bool.false_ne_true] at h
      cases hunset : (data.get key).isUnset with
      | true =>
        rw [hunset, if_pos rfl] at h
        obtain ⟨⟨v, m₁⟩, hv, h⟩ := Except.bind_eq_ok.1 h
        cases h
        exact .inr (.inr ⟨rfl, rfl, v, hv, rfl⟩)
      | false =>
        rw [hunset, if_neg Bool.false_ne_true] at h
        cases h
        exact .inr (.inl ⟨rfl, rfl, rfl⟩)

/-! ## Composites -/

/-- What defaults make of the mapping of a composite: they complete its columns, and leave
whatever else is in it. -/
structure CompletesEach (fields : List (String × Storage)) (es es' : Value.Entries) : Prop where
  others : es'.outside (fields.map Prod.fst) = es.outside (fields.map Prod.fst)
  columns : ∀ e ∈ fields, e.2.Completes (es.get e.1) (es'.get e.1)

/-- Whether a column is given, or marked as absent with nothing to fill it. -/
def SettledColumn (s : Storage) (name : String) (es : Value.Entries) : Prop :=
  (es.get name).isUnset = false ∨ (s.defaultValue = pure .unset ∧ es.Holds name .unset)

theorem SettledColumn.of_under (h : s.SettledColumn name es)
    (hunder : es'.under name = es.under name) : s.SettledColumn name es' := by
  rcases h with h | ⟨hnone, hholds⟩
  · exact .inl (by rw [Value.Entries.get_eq_of_under hunder, h])
  · exact .inr ⟨hnone, hholds.of_under hunder⟩

/-- One step sets the entry of its column or nothing, and completes the column. -/
theorem fillSubfields_cons {r : List (String × Storage)} (hs : s.isComposite = false)
    (hd : s.defaultProblems = .ok [])
    (h : (fillSubfields ((name, s) :: r) es).run m = .ok (es', m')) :
    ∃ es₁ m₁, (fillSubfields r es₁).run m₁ = .ok (es', m') ∧ es.Touches name es₁ ∧
      s.Completes (es.get name) (es₁.get name) ∧ s.SettledColumn name es₁ := by
  unfold fillSubfields at h
  cases hunset : (es.get name).isUnset with
  | true =>
    rw [hunset, if_pos rfl] at h
    obtain ⟨⟨v, m₁⟩, hv, h⟩ := Except.bind_eq_ok.1 h
    have hset := isUnset_defaultValue hs hd hv
    have hget := Value.Entries.get_put_self es name v
    refine ⟨_, m₁, h, .inr ⟨v, rfl⟩, ⟨fun hgiven => ?_, fun _ => ?_⟩, ?_⟩
    · rw [hunset] at hgiven
      cases hgiven
    · rw [hget, hset, Bool.not_eq_false']
    · cases hgen : s.generates with
      | true =>
        rw [hgen] at hset
        exact .inl (by rw [hget, hset]; rfl)
      | false =>
        rw [hgen] at hset
        obtain rfl := Value.eq_unset hset
        exact .inr ⟨defaultValue_of_not_generates hs hgen, Value.Entries.holds_put es name _⟩
  | false =>
    rw [hunset, if_neg Bool.false_ne_true] at h
    exact ⟨es, m, h, .inl rfl, completes_self (.inl hunset), .inl hunset⟩

theorem fillSubfields_under (h : (fillSubfields fields es).run m = .ok (es', m'))
    (hname : name ∉ fields.map Prod.fst) : es'.under name = es.under name := by
  induction fields generalizing es m with
  | nil =>
    cases h
    rfl
  | cons e r ih =>
    obtain ⟨hne, hrest⟩ := not_or.1 (List.mem_cons.not.1 hname)
    unfold fillSubfields at h
    split at h
    · obtain ⟨⟨v, m₁⟩, -, h⟩ := Except.bind_eq_ok.1 h
      rw [ih h hrest, Value.Entries.under_put_ne hne]
    · exact ih h hrest

/-- A run completes every column, since the steps behind one leave its entry alone. -/
theorem fillSubfields_completes (hnames : (fields.map Prod.fst).Nodup)
    (hlegal : ∀ e ∈ fields, e.2.isScalarish = true ∧ e.2.defaultProblems = .ok [])
    (h : (fillSubfields fields es).run m = .ok (es', m')) :
    CompletesEach fields es es' ∧ ∀ e ∈ fields, e.2.SettledColumn e.1 es' := by
  induction fields generalizing es m with
  | nil =>
    cases h
    exact ⟨⟨rfl, nofun⟩, nofun⟩
  | cons e r ih =>
    obtain ⟨name, s⟩ := e
    obtain ⟨hname, hr⟩ := List.nodup_cons.1 hnames
    obtain ⟨⟨hs, hd⟩, hlegal⟩ := List.forall_mem_cons.1 hlegal
    obtain ⟨es₁, m₁, h, htouches, hcompletes, hsettled⟩ :=
      fillSubfields_cons (isComposite_of_isScalarish hs) hd h
    obtain ⟨⟨hothers, hcolumns⟩, hall⟩ := ih hr hlegal h
    have hunder := fillSubfields_under h hname
    refine ⟨⟨?_, List.forall_mem_cons.2 ⟨?_, fun e he => ?_⟩⟩,
      List.forall_mem_cons.2 ⟨hsettled.of_under hunder, hall⟩⟩
    · exact (Value.Entries.outside_mono (List.subset_cons_self _ _) hothers).trans
        (htouches.outside List.mem_cons_self)
    · rw [Value.Entries.get_eq_of_under hunder]
      exact hcompletes
    · have hne : e.1 ≠ name := fun heq => hname (List.mem_map.2 ⟨e, he, heq⟩)
      rw [← Value.Entries.get_eq_of_under (htouches.under hne)]
      exact hcolumns e he

/-- A run over settled columns does nothing. -/
theorem fillSubfields_settled (h : ∀ e ∈ fields, e.2.SettledColumn e.1 es) :
    fillSubfields fields es = pure es := by
  induction fields with
  | nil => rfl
  | cons e r ih =>
    obtain ⟨name, s⟩ := e
    obtain ⟨hsettled, hr⟩ := List.forall_mem_cons.1 h
    unfold fillSubfields
    rcases hsettled with hset | ⟨hnone, hholds⟩
    · rw [hset, if_neg Bool.false_ne_true]
      exact ih hr
    · have hunset : (es.get name).isUnset = true := by
        rw [hholds.get_eq]
        rfl
      rw [if_pos hunset, hnone, pure_bind, hholds.put_eq]
      exact ih hr

/-! ## Fields -/

/-- What defaults make of the entry of a field. -/
inductive Completed : Storage → Value → Value → Prop
  | stamped {s : Storage} (hs : s.isStamped = true) (v : Value) (t : DateTime) :
    Completed s v (.dateTime t)
  | simple {s : Storage} {v v' : Value} (hs : s.isComposite = false) (hstamped : s.isStamped = false)
    (h : s.Completes v v') : Completed s v v'
  | composite {fields : List (String × Storage)} {v : Value} {es : Value.Entries}
    (h : CompletesEach fields (v.entries?.getD []) es) : Completed (.multi fields) v (.map es)

/-- Whether defaults have nothing more to do for a field but to stamp it. -/
inductive Settled : Storage → String → Value.Entries → Prop
  | stamped {s : Storage} {key : String} {data : Value.Entries} {v : Value}
    (hs : s.isStamped = true) (h : data.Holds key v) : Settled s key data
  | simple {s : Storage} {key : String} {data : Value.Entries} (hs : s.isComposite = false)
    (hstamped : s.isStamped = false)
    (h : (data.get key).isUnset = false ∨ s.defaultValue = pure .unset) : Settled s key data
  | composite {fields : List (String × Storage)} {key : String} {data es : Value.Entries}
    (h : data.Holds key (.map es)) (hes : ∀ e ∈ fields, e.2.SettledColumn e.1 es) :
    Settled (.multi fields) key data

theorem Settled.of_under (h : s.Settled key data) (hunder : data'.under key = data.under key) :
    s.Settled key data' := by
  cases h with
  | stamped hs h => exact .stamped hs (h.of_under hunder)
  | simple hs hstamped h =>
    rw [← Value.Entries.get_eq_of_under hunder] at h
    exact .simple hs hstamped h
  | composite h hes => exact .composite (h.of_under hunder) hes

/-- Filling a field completes its entry and settles it. -/
theorem fill_completed (hs : s.IsLegal) (h : (s.fill key data).run m = .ok (data', m')) :
    s.Completed (data.get key) (data'.get key) ∧ s.Settled key data' := by
  obtain ⟨fields, es, rfl, hes, rfl⟩ | ⟨hsimple, hstep⟩ := fill_cases h
  · obtain ⟨hcompletes, hsettled⟩ :=
      fillSubfields_completes hs.names_nodup (fun e he => hs.column he) hes
    rw [Value.Entries.get_put_self]
    exact ⟨.composite hcompletes, .composite (Value.Entries.holds_put data key _) hsettled⟩
  · rcases hstep with ⟨hstamped, t, rfl⟩ | ⟨hstamped, hset, rfl⟩ | ⟨hstamped, hunset, v, hv, rfl⟩
    · rw [Value.Entries.get_put_self]
      exact ⟨.stamped hstamped _ t, .stamped hstamped (Value.Entries.holds_put data key _)⟩
    · exact ⟨.simple hsimple hstamped (completes_self (.inl hset)),
        .simple hsimple hstamped (.inl hset)⟩
    · have hset := isUnset_defaultValue hsimple hs.defaults hv
      cases hgen : s.generates with
      | true =>
        rw [hgen, Bool.not_true] at hset
        rw [hset, if_neg Bool.false_ne_true, Value.Entries.get_put_self]
        refine ⟨.simple hsimple hstamped ⟨fun hgiven => ?_, fun _ => iff_of_true hset hgen⟩,
          .simple hsimple hstamped (.inl ?_)⟩
        · rw [hunset] at hgiven
          cases hgiven
        · rw [Value.Entries.get_put_self, hset]
      | false =>
        rw [hgen, Bool.not_false] at hset
        rw [if_pos hset]
        exact ⟨.simple hsimple hstamped (completes_self (.inr hgen)),
          .simple hsimple hstamped (.inr (defaultValue_of_not_generates hsimple hgen))⟩

/-- What defaults make of data: they complete the entry of every field, and leave whatever
else is there. -/
structure CompletesAll (fields : List (String × Storage)) (data data' : Value.Entries) : Prop where
  others : data'.outside (fields.map Prod.fst) = data.outside (fields.map Prod.fst)
  entries : ∀ e ∈ fields, e.2.Completed (data.get e.1) (data'.get e.1)

/-- A run completes and settles every field, since the steps behind one leave its entry alone. -/
theorem fillAll_completed (hkeys : (fields.map Prod.fst).Nodup)
    (hlegal : ∀ e ∈ fields, e.2.IsLegal) (h : (fillAll fields data).run m = .ok (data', m')) :
    CompletesAll fields data data' ∧ ∀ e ∈ fields, e.2.Settled e.1 data' := by
  induction fields generalizing data m with
  | nil =>
    cases h
    exact ⟨⟨rfl, nofun⟩, nofun⟩
  | cons e r ih =>
    obtain ⟨hkey, hr⟩ := List.nodup_cons.1 hkeys
    obtain ⟨hs, hlegal⟩ := List.forall_mem_cons.1 hlegal
    obtain ⟨⟨data₁, m₁⟩, hfill, h⟩ := Except.bind_eq_ok.1 h
    have htouches := fill_touches hfill
    obtain ⟨hcompleted, hsettled⟩ := fill_completed hs hfill
    obtain ⟨⟨hothers, hentries⟩, hall⟩ := ih hr hlegal h
    have hunder := fillAll_under h hkey
    refine ⟨⟨?_, List.forall_mem_cons.2 ⟨?_, fun f hf => ?_⟩⟩,
      List.forall_mem_cons.2 ⟨hsettled.of_under hunder, hall⟩⟩
    · exact (Value.Entries.outside_mono (List.subset_cons_self _ _) hothers).trans
        (htouches.outside List.mem_cons_self)
    · rw [Value.Entries.get_eq_of_under hunder]
      exact hcompleted
    · have hne : f.1 ≠ e.1 := fun heq => hkey (List.mem_map.2 ⟨f, hf, heq⟩)
      rw [← Value.Entries.get_eq_of_under (htouches.under hne)]
      exact hentries f hf

/-! ## A second run -/

/-- The keys of the stamped fields. -/
def stampedKeys (fields : List (String × Storage)) : List String :=
  (fields.filter fun e => e.2.isStamped).map Prod.fst

/-- Filling a settled field takes a new time, or does nothing. -/
theorem fill_settled (h : s.Settled key data) (m : Supply) :
    ∃ data' m', (s.fill key data).run m = .ok (data', m') ∧
      (data' = data ∨ (s.isStamped = true ∧ data.has key = true ∧ ∃ v, data' = data.put key v)) := by
  cases h with
  | stamped hs h =>
    have hsimple : s.isComposite = false := by
      cases s <;> first | rfl | cases hs
    rw [fill_simple hsimple, hs, if_pos rfl]
    exact ⟨_, _, rfl, .inr ⟨rfl, h.has, _, rfl⟩⟩
  | simple hs hstamped h =>
    rw [fill_simple hs, hstamped, if_neg Bool.false_ne_true]
    cases hunset : (data.get key).isUnset with
    | false =>
      rw [if_neg Bool.false_ne_true]
      exact ⟨data, m, rfl, .inl rfl⟩
    | true =>
      rw [hunset] at h
      rw [if_pos rfl, h.resolve_left nofun, pure_bind]
      exact ⟨data, m, rfl, .inl rfl⟩
  | @composite fields _ _ es h hes =>
    have hentries : (Value.map es).entries?.getD [] = es := rfl
    refine ⟨data, m, ?_, .inl rfl⟩
    rw [fill_composite, h.get_eq, hentries, fillSubfields_settled hes, pure_bind, h.put_eq]
    rfl

/-- A run over settled data succeeds, and changes at most the stamps. -/
theorem fillAll_settled (hkeys : (fields.map Prod.fst).Nodup)
    (h : ∀ e ∈ fields, e.2.Settled e.1 data) (m : Supply) :
    ∃ data' m', (fillAll fields data).run m = .ok (data', m') ∧
      data'.map Prod.fst = data.map Prod.fst ∧
      data'.outside (stampedKeys fields) = data.outside (stampedKeys fields) := by
  induction fields generalizing data m with
  | nil => exact ⟨data, m, rfl, rfl, rfl⟩
  | cons e r ih =>
    obtain ⟨hkey, hr⟩ := List.nodup_cons.1 hkeys
    obtain ⟨hsettled, hall⟩ := List.forall_mem_cons.1 h
    obtain ⟨data₁, m₁, hfill, hstep⟩ := fill_settled hsettled m
    have htouches := fill_touches hfill
    have hall₁ : ∀ f ∈ r, f.2.Settled f.1 data₁ := by
      intro f hf
      have hne : f.1 ≠ e.1 := fun heq => hkey (List.mem_map.2 ⟨f, hf, heq⟩)
      exact (hall f hf).of_under (htouches.under hne)
    obtain ⟨data', m', hrun, hsame, hothers⟩ := ih hr hall₁ m₁
    have hmono : data'.outside (stampedKeys (e :: r)) = data₁.outside (stampedKeys (e :: r)) := by
      refine Value.Entries.outside_mono (fun key hmem => ?_) hothers
      obtain ⟨f, hf, rfl⟩ := List.mem_map.1 hmem
      obtain ⟨hf, hstamped⟩ := List.mem_filter.1 hf
      exact List.mem_map.2 ⟨f, List.mem_filter.2 ⟨List.mem_cons_of_mem _ hf, hstamped⟩, rfl⟩
    refine ⟨data', m', Except.bind_eq_ok.2 ⟨_, hfill, hrun⟩, ?_, ?_⟩
    · rw [hsame]
      rcases hstep with rfl | ⟨-, hhas, v, rfl⟩
      · rfl
      · exact Value.Entries.keys_put hhas
    · rw [hmono]
      rcases hstep with rfl | ⟨hstamped, -, v, rfl⟩
      · rfl
      · refine Value.Entries.outside_put ?_
        exact List.mem_map.2 ⟨e, List.mem_filter.2 ⟨List.mem_cons_self, hstamped⟩, rfl⟩

/-! ## Sizes -/

/-- Whether a value of a field calls for an oversized default. -/
def exceeds : Storage → Value → Bool
  | .multi fields, v =>
    fields.any fun e => ((v.entries?.getD []).get e.1).isUnset && e.2.isOversized
  | s, v => !s.isStamped && v.isUnset && s.isOversized

theorem exceeds_simple (hs : s.isComposite = false) (v : Value) :
    s.exceeds v = (!s.isStamped && v.isUnset && s.isOversized) := by
  cases s <;> first | rfl | cases hs

theorem succeeds_fillSubfields (hnames : (fields.map Prod.fst).Nodup)
    (hlegal : ∀ e ∈ fields, e.2.isScalarish = true ∧ e.2.defaultProblems = .ok [])
    (es : Value.Entries) : (fillSubfields fields es).Succeeds
      (fields.any fun e => (es.get e.1).isUnset && e.2.isOversized) := by
  induction fields generalizing es with
  | nil => exact Generated.succeeds_pure es
  | cons e r ih =>
    obtain ⟨name, s⟩ := e
    obtain ⟨hname, hr⟩ := List.nodup_cons.1 hnames
    obtain ⟨⟨hs, hd⟩, hlegal⟩ := List.forall_mem_cons.1 hlegal
    unfold fillSubfields
    rw [List.any_cons]
    cases hunset : (es.get name).isUnset with
    | true =>
      rw [if_pos rfl, Bool.true_and]
      refine (succeeds_defaultValue_column hs hd).bind fun v => ?_
      -- the columns behind this one find what they found before
      have hsame : ∀ e ∈ r, (es.put name v).get e.1 = es.get e.1 := by
        intro e he
        have hne : e.1 ≠ name := fun heq => hname (List.mem_map.2 ⟨e, he, heq⟩)
        exact Value.Entries.get_put_ne hne
      have hflag := List.any_congr_left fun e he =>
        congrArg (fun w => w.isUnset && e.2.isOversized) (hsame e he)
      rw [← hflag]
      exact ih hr hlegal (es.put name v)
    | false =>
      rw [if_neg Bool.false_ne_true, Bool.false_and, Bool.false_or]
      exact ih hr hlegal es

/-- Filling a legal field succeeds unless it calls for an oversized default. -/
theorem succeeds_fill (hs : s.IsLegal) (key : String) (data : Value.Entries) :
    (s.fill key data).Succeeds (s.exceeds (data.get key)) := by
  cases hsimple : s.isComposite with
  | true =>
    cases s with
    | multi fields =>
      rw [fill_composite]
      have hfilled := succeeds_fillSubfields hs.names_nodup (fun e he => hs.column he)
        ((data.get key).entries?.getD [])
      rw [exceeds, ← Bool.or_false (List.any _ _)]
      exact hfilled.bind fun es => Generated.succeeds_pure _
    | _ => cases hsimple
  | false =>
    rw [fill_simple hsimple, exceeds_simple hsimple]
    cases hstamped : s.isStamped with
    | true => exact fun m => ⟨_, rfl⟩
    | false =>
      rw [if_neg Bool.false_ne_true, Bool.not_false, Bool.true_and]
      cases hunset : (data.get key).isUnset with
      | true =>
        rw [if_pos rfl, Bool.true_and]
        have hvalue := succeeds_defaultValue hs.problems hs.defaults
        simpa only [Bool.or_false] using hvalue.bind fun v => Generated.succeeds_pure _
      | false =>
        rw [if_neg Bool.false_ne_true, Bool.false_and]
        exact Generated.succeeds_pure data

/-- Filling legal fields succeeds unless one of them calls for an oversized default. -/
theorem succeeds_fillAll (hkeys : (fields.map Prod.fst).Nodup)
    (hlegal : ∀ e ∈ fields, e.2.IsLegal) (data : Value.Entries) :
    (fillAll fields data).Succeeds (fields.any fun e => e.2.exceeds (data.get e.1)) := by
  induction fields generalizing data with
  | nil => exact Generated.succeeds_pure data
  | cons e r ih =>
    obtain ⟨hkey, hr⟩ := List.nodup_cons.1 hkeys
    obtain ⟨hs, hlegal⟩ := List.forall_mem_cons.1 hlegal
    rw [List.any_cons]
    refine (succeeds_fill hs e.1 data).bind_run fun m data₁ m₁ hfill => ?_
    have htouches := fill_touches hfill
    have hsame : ∀ f ∈ r, data₁.get f.1 = data.get f.1 := by
      intro f hf
      have hne : f.1 ≠ e.1 := fun heq => hkey (List.mem_map.2 ⟨f, hf, heq⟩)
      exact Value.Entries.get_eq_of_under (htouches.under hne)
    have hflag := List.any_congr_left fun f hf => congrArg f.2.exceeds (hsame f hf)
    rw [← hflag]
    exact ih hr hlegal data₁

/-- A number left to storage, a text with a random default, a note, a stamp and a badge. -/
def visit : List (String × Storage) := [
  ("id", .scalar { scalar := .int, mode := .required, default := some (.policy .autoincrement) }),
  ("token", .scalar {
    scalar := .text, default := some (.policy (.random (.int 4) (.text "hex"))) }),
  ("note", .scalar { scalar := .text, default := some (.policy (.literal (.text "none"))) }),
  ("seen", .scalar { scalar := .dateTime, updatedAt := true }),
  ("badge", badge)]

/-- The note and one column of the badge are null, and one key is not that of a field. -/
def sentVisit : Value.Entries := [
  (.text "note", .null),
  (.text "badge", .map [(.text "price", .null)]),
  (.text "comment", .int 7)]

end Storage

end RecordSchema
