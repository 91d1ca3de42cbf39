import RecordSchema.Default
import RecordSchema.Proofs.Lists
import RecordSchema.Proofs.Success
import RecordSchema.Proofs.Value.Entries

/-!
# Stamps

Generating values draws on the supply and never gives back what it has
drawn (`Generated.Draws`). A stamp is a reading of the clock between two
supplies (`Supply.IsStamp`), and both defaults and updates put one under
the key of every stamped field, in place of whatever stood there.

Neither looks for stamps inside a composite: defaults are filled in for
the columns of a composite that have one, and updates pass composites
over. So a column of a composite without a default is as absent behind
both as it was before (`Value.Entries.Omits`).
-/

namespace RecordSchema

/-! ## Supplies -/

/-- Whether a supply is what another one becomes by drawing on it. -/
structure Supply.Leads (m m' : Supply) : Prop where
  clock : m'.clock = m.clock
  used : m.used ≤ m'.used

/-- Whether a value is a reading of the clock that was drawn between two supplies. -/
def Supply.IsStamp (m m' : Supply) (v : Value) : Prop :=
  ∃ n, m.used ≤ n ∧ n < m'.used ∧ v = .dateTime (m.clock n)

namespace Supply

variable {m m' m'' : Supply} {v : Value}

theorem Leads.refl (m : Supply) : m.Leads m :=
  ⟨rfl, Nat.le_refl _⟩

theorem Leads.trans (h : m.Leads m') (h' : m'.Leads m'') : m.Leads m'' :=
  ⟨h'.clock.trans h.clock, Nat.le_trans h.used h'.used⟩

theorem leads_draw (m : Supply) : m.Leads m.draw.2 :=
  ⟨rfl, Nat.le_succ _⟩

theorem leads_now (m : Supply) : m.Leads m.now.2 :=
  ⟨rfl, Nat.le_succ _⟩

theorem leads_bytes (m : Supply) (n : Nat) : m.Leads (m.bytes n).2 := by
  induction n generalizing m with
  | zero => exact .refl m
  | succ n ih => exact (leads_draw m).trans (ih m.draw.2)

theorem isStamp_now (m : Supply) : m.IsStamp m.now.2 (.dateTime m.now.1) :=
  ⟨m.used, Nat.le_refl _, Nat.lt_succ_self _, rfl⟩

/-- A stamp between two supplies lies between any around them. -/
theorem IsStamp.mono {m₀ : Supply} (h : m.IsStamp m' v) (hm : m₀.Leads m) (hm' : m'.Leads m'') :
    m₀.IsStamp m'' v := by
  obtain ⟨n, hle, hlt, rfl⟩ := h
  refine ⟨n, Nat.le_trans hm.used hle, Nat.lt_of_lt_of_le hlt hm'.used, ?_⟩
  rw [hm.clock]

end Supply

/-! ## Generating -/

namespace Generated

variable {α β : Type}

/-- Whether a computation does nothing to the supply but draw on it. -/
def Draws (g : Generated α) : Prop :=
  ∀ m a m', g.run m = .ok (a, m') → m.Leads m'

theorem draws_pure (a : α) : (pure a : Generated α).Draws := by
  intro m _ _ h
  cases h
  exact .refl m

theorem Draws.bind {g : Generated α} {f : α → Generated β} (hg : g.Draws) (hf : ∀ a, (f a).Draws) :
    (g >>= f).Draws := by
  intro m b m' h
  rw [StateT.run_bind] at h
  obtain ⟨⟨a, m₁⟩, ha, hb⟩ := Except.bind_eq_ok.1 h
  exact (hg m a m₁ ha).trans (hf a m₁ b m' hb)

theorem draws_ofExcept (x : Except Fault α) : (liftM x : Generated α).Draws := by
  intro m a m' h
  cases x with
  | ok b =>
    cases h
    exact .refl m
  | error e => cases h

theorem draws_now : now.Draws := by
  intro m _ _ h
  cases h
  exact m.leads_now

theorem draws_bytes (n : Nat) : (bytes n).Draws := by
  intro m _ _ h
  cases h
  exact m.leads_bytes n

theorem draws_cuid : cuid.Draws := by
  intro m _ _ h
  cases h
  exact m.leads_now.trans m.now.2.leads_draw

theorem draws_randomText (count encoding : Value) : (randomText count encoding).Draws := by
  refine (draws_ofExcept _).bind fun n => ?_
  refine (draws_bytes n).bind fun bs => ?_
  exact draws_pure _

end Generated

theorem Default.draws (d : Default) (scalar : Option Scalar) : (d.generate scalar).Draws := by
  cases d with
  | bare v => exact fun _ _ _ h => by cases h
  | policy p =>
    cases p with
    | literal v =>
      cases scalar with
      | none => exact Generated.draws_pure v
      | some s => exact Generated.draws_ofExcept _
    | cuid => exact Generated.draws_cuid
    | uuid => exact (Generated.draws_bytes 16).bind fun _ => Generated.draws_pure _
    | random count encoding => exact Generated.draws_randomText count encoding
    | now => exact Generated.draws_now
    | autoincrement => exact Generated.draws_pure _
    | dbGenerated e => exact Generated.draws_pure _

namespace Value.Entries

/-- Whether everything under a key was stamped between two supplies, and something was. -/
def IsStamped (es : Entries) (key : String) (m m' : Supply) : Prop :=
  (∃ v, (.text key, v) ∈ es) ∧ ∀ v, (.text key, v) ∈ es → m.IsStamp m' v

/-- Whether the mappings under a key say nothing of a name. -/
def Omits (es : Entries) (key name : String) : Prop :=
  ∀ sub, (.text key, .map sub) ∈ es → ∀ v, (.text name, v) ∈ sub → v.isUnset = true

theorem isStamped_put {m m' : Supply} {v : Value} (h : m.IsStamp m' v) (es : Entries)
    (key : String) : (es.put key v).IsStamped key m m' :=
  ⟨⟨v, mem_put_self es key v⟩, fun _ hw => eq_of_mem_put hw ▸ h⟩

end Value.Entries

namespace Storage

variable {fields : List (String × Storage)} {key key' name : String} {s : Storage}
  {data data' : Value.Entries} {m m' : Supply}

mutual

theorem draws_defaultValue : (s : Storage) → s.defaultValue.Draws
  | .scalar f => by
    rw [defaultValue]
    split
    · split
      · exact Generated.draws_pure _
      · exact Default.draws _ _
    · exact Generated.draws_pure _
  | .enum f => by
    rw [defaultValue]
    split
    · split
      · exact Generated.draws_pure _
      · exact Default.draws _ _
    · exact Generated.draws_pure _
  | .multi fields => by
    rw [defaultValue]
    exact (draws_subfieldDefaults fields).bind fun _ => Generated.draws_pure _
  | .none => Generated.draws_pure _
  | .relation _ => Generated.draws_pure _
  | .unsupported _ => Generated.draws_pure _

theorem draws_subfieldDefaults :
    (fields : List (String × Storage)) → (subfieldDefaults fields).Draws
  | [] => Generated.draws_pure []
  | (_, s) :: r => by
    rw [subfieldDefaults]
    refine (draws_defaultValue s).bind fun _ => ?_
    exact (draws_subfieldDefaults r).bind fun _ => Generated.draws_pure _

end

theorem draws_fillSubfields (fields : List (String × Storage)) (es : Value.Entries) :
    (fillSubfields fields es).Draws := by
  induction fields generalizing es with
  | nil => exact Generated.draws_pure es
  | cons e r ih =>
    unfold fillSubfields
    split
    · exact (draws_defaultValue e.2).bind fun v => ih _
    · exact ih es

theorem draws_fill (s : Storage) (key : String) (data : Value.Entries) :
    (s.fill key data).Draws := by
  unfold fill
  split
  · exact (draws_fillSubfields _ _).bind fun _ => Generated.draws_pure _
  · split
    · exact Generated.draws_now.bind fun _ => Generated.draws_pure _
    · split
      · exact (draws_defaultValue _).bind fun _ => Generated.draws_pure _
      · exact Generated.draws_pure data

theorem draws_fillAll (fields : List (String × Storage)) (data : Value.Entries) :
    (fillAll fields data).Draws := by
  induction fields generalizing data with
  | nil => exact Generated.draws_pure data
  | cons e r ih => exact (draws_fill e.2 e.1 data).bind fun data => ih data

theorem draws_stampAll (fields : List (String × Storage)) (data : Value.Entries) :
    (stampAll fields data).Draws := by
  induction fields generalizing data with
  | nil => exact Generated.draws_pure data
  | cons e r ih =>
    unfold stampAll
    split
    · exact Generated.draws_now.bind fun t => ih _
    · exact ih data

/-! ## Entries of single fields -/

/-- Filling a field sets its entry or nothing. -/
theorem fill_touches (h : (s.fill key data).run m = .ok (data', m')) : data.Touches key data' := by
  unfold fill at h
  split at h
  · obtain ⟨⟨filled, m₁⟩, -, h⟩ := Except.bind_eq_ok.1 h
    cases h
    exact .inr ⟨_, rfl⟩
  · split at h
    · cases h
      exact .inr ⟨_, rfl⟩
    · split at h
      · obtain ⟨⟨v, m₁⟩, -, h⟩ := Except.bind_eq_ok.1 h
        cases h
        split
        · exact .inl rfl
        · exact .inr ⟨v, rfl⟩
      · cases h
        exact .inl rfl

theorem fill_ne (h : (s.fill key data).run m = .ok (data', m')) (hne : key' ≠ key) {v : Value} :
    (.text key', v) ∈ data' ↔ (.text key', v) ∈ data := by
  rw [← Value.Entries.mem_under, (fill_touches h).under hne, Value.Entries.mem_under]

theorem fillAll_under (h : (fillAll fields data).run m = .ok (data', m'))
    (hkey : key ∉ fields.map Prod.fst) : data'.under key = data.under key := by
  induction fields generalizing data m with
  | nil =>
    cases h
    rfl
  | cons e r ih =>
    obtain ⟨hne, hrest⟩ := not_or.1 (List.mem_cons.not.1 hkey)
    obtain ⟨⟨data₁, m₁⟩, hfill, h⟩ := Except.bind_eq_ok.1 h
    rw [ih h hrest, (fill_touches hfill).under hne]

theorem fillAll_of_notMem (h : (fillAll fields data).run m = .ok (data', m'))
    (hkey : key ∉ fields.map Prod.fst) {v : Value} :
    (.text key, v) ∈ data' ↔ (.text key, v) ∈ data := by
  rw [← Value.Entries.mem_under, fillAll_under h hkey, Value.Entries.mem_under]

/-- The entry of a field is what filling that field makes of it. -/
theorem fillAll_at (h : (fillAll fields data).run m = .ok (data', m'))
    (hkeys : (fields.map Prod.fst).Nodup) (hmem : (key, s) ∈ fields) :
    ∃ data₁ m₁ data₂ m₂, m.Leads m₁ ∧ (s.fill key data₁).run m₁ = .ok (data₂, m₂) ∧ m₂.Leads m' ∧
      (∀ v, (.text key, v) ∈ data₁ ↔ (.text key, v) ∈ data) ∧
      ∀ v, (.text key, v) ∈ data' ↔ (.text key, v) ∈ data₂ := by
  induction fields generalizing data m with
  | nil => cases hmem
  | cons e r ih =>
    obtain ⟨hnot, hrest⟩ := List.nodup_cons.1 hkeys
    simp only [fillAll, StateT.run_bind, Except.bind_eq_ok] at h
    obtain ⟨⟨data₁, m₁⟩, hfill, h⟩ := h
    rcases List.mem_cons.1 hmem with rfl | hmem
    · exact ⟨data, m, data₁, m₁, .refl m, hfill, draws_fillAll r data₁ m₁ data' m' h,
        fun _ => Iff.rfl, fun _ => fillAll_of_notMem h hnot⟩
    · have hne : key ≠ e.1 := fun heq => hnot (heq ▸ List.mem_map_of_mem hmem)
      obtain ⟨data₂, m₂, data₃, m₃, hm₂, hfill₂, hm₃, hbefore, hafter⟩ := ih h hrest hmem
      have hm₁ := draws_fill e.2 e.1 data m data₁ m₁ hfill
      refine ⟨data₂, m₂, data₃, m₃, hm₁.trans hm₂, hfill₂, hm₃, fun v => ?_, hafter⟩
      rw [hbefore, fill_ne hfill hne]

/-! ## Stamped fields -/

/-- Defaults put a time of their own under the key of a stamped field. -/
theorem fillAll_isStamped (h : (fillAll fields data).run m = .ok (data', m'))
    (hkeys : (fields.map Prod.fst).Nodup) (hmem : (key, s) ∈ fields) (hs : s.isStamped = true) :
    data'.IsStamped key m m' := by
  obtain ⟨data₁, m₁, data₂, m₂, hm, hfill, hm', -, hafter⟩ := fillAll_at h hkeys hmem
  have hput : data₂.IsStamped key m₁ m₂ := by
    unfold fill at hfill
    split at hfill
    · cases hs
    · rw [if_pos hs] at hfill
      cases hfill
      exact Value.Entries.isStamped_put m₁.isStamp_now data₁ key
  obtain ⟨⟨v, hv⟩, hall⟩ := hput
  refine ⟨⟨v, (hafter v).2 hv⟩, fun v hv => ?_⟩
  exact (hall v ((hafter v).1 hv)).mono hm hm'

/-- Stamping leaves the entries of all other fields. -/
theorem stampAll_ne (h : (stampAll fields data).run m = .ok (data', m'))
    (hkey : ∀ s, (key, s) ∈ fields → s.isStamped = false) {v : Value} :
    (.text key, v) ∈ data' ↔ (.text key, v) ∈ data := by
  induction fields generalizing data m with
  | nil =>
    cases h
    exact Iff.rfl
  | cons e r ih =>
    have hrest : ∀ s, (key, s) ∈ r → s.isStamped = false :=
      fun s hs => hkey s (List.mem_cons_of_mem _ hs)
    unfold stampAll at h
    split at h
    · next hstamped =>
      simp only [StateT.run_bind, Except.bind_eq_ok] at h
      obtain ⟨⟨t, m₁⟩, -, h⟩ := h
      have hne : key ≠ e.1 := by
        rintro rfl
        rw [hkey e.2 List.mem_cons_self] at hstamped
        cases hstamped
      rw [ih h hrest, Value.Entries.mem_put_ne hne]
    · exact ih h hrest

/-- Updates put a time of their own under the key of a stamped field. -/
theorem stampAll_isStamped (h : (stampAll fields data).run m = .ok (data', m'))
    (hkeys : (fields.map Prod.fst).Nodup) (hmem : (key, s) ∈ fields) (hs : s.isStamped = true) :
    data'.IsStamped key m m' := by
  induction fields generalizing data m with
  | nil => cases hmem
  | cons e r ih =>
    obtain ⟨hnot, hrest⟩ := List.nodup_cons.1 hkeys
    unfold stampAll at h
    rcases List.mem_cons.1 hmem with rfl | hmem
    · rw [if_pos hs] at h
      simp only [StateT.run_bind, Except.bind_eq_ok] at h
      obtain ⟨⟨t, m₁⟩, ht, h⟩ := h
      cases ht
      have hm : m.now.2.Leads m' := draws_stampAll r _ _ _ _ h
      have hsame {v : Value} :
          (.text key, v) ∈ data' ↔ (.text key, v) ∈ data.put key (.dateTime m.now.1) :=
        stampAll_ne h fun s hs => absurd (List.mem_map_of_mem hs) hnot
      obtain ⟨⟨v, hv⟩, hall⟩ := Value.Entries.isStamped_put m.isStamp_now data key
      refine ⟨⟨v, hsame.2 hv⟩, fun v hv => ?_⟩
      exact (hall v (hsame.1 hv)).mono (.refl m) hm
    · split at h
      · simp only [StateT.run_bind, Except.bind_eq_ok] at h
        obtain ⟨⟨t, m₁⟩, ht, h⟩ := h
        have hm := Generated.draws_now m t m₁ ht
        obtain ⟨hone, hall⟩ := ih h hrest hmem
        exact ⟨hone, fun v hv => (hall v hv).mono hm (.refl m')⟩
      · exact ih h hrest hmem

/-! ## What is left to storage -/

/-- Whether an absent field gets a value at creation. Numbers and the results of
expressions are left to storage. -/
def generates (s : Storage) : Bool :=
  match s.default? with
  | some (.policy .autoincrement) => false
  | some (.policy (.dbGenerated _)) => false
  | some _ => true
  | Option.none => false

/-- Whether a field holds a mapping of columns. -/
def isComposite : Storage → Bool
  | .multi _ => true
  | _ => false

theorem isComposite_of_isScalarish (hs : s.isScalarish = true) : s.isComposite = false := by
  cases s <;> first | rfl | cases hs

/-- A field without a default of its own, or with one that is left to storage, is left out. -/
theorem defaultValue_of_not_generates (hs : s.isComposite = false) (h : s.generates = false) :
    s.defaultValue = pure .unset := by
  have hdefault (d : Default) (scalar : Option Scalar) (hd : s.default? = some d) :
      d.generate scalar = pure .unset := by
    unfold generates at h
    rw [hd] at h
    split at h
    · next heq => cases heq; rfl
    · next heq => cases heq; rfl
    · cases h
    · next heq => cases heq
  cases s with
  | scalar f =>
    rw [defaultValue]
    split
    · next d hd => rw [hdefault d _ hd, ite_self]
    · rfl
  | enum f =>
    rw [defaultValue]
    split
    · next d hd => rw [hdefault d _ hd, ite_self]
    · rfl
  | multi fields => cases hs
  | none | relation r | unsupported v => rfl

theorem defaultValue_eq_unset (hs : s.isScalarish = true) (hnone : s.default? = Option.none) :
    s.defaultValue = pure .unset := by
  refine defaultValue_of_not_generates (isComposite_of_isScalarish hs) ?_
  rw [generates, hnone]

/-- The number of a numbered column is left to storage. -/
theorem defaultValue_of_isNumbered (hn : s.isNumbered = true) : s.defaultValue = pure .unset := by
  unfold isNumbered at hn
  split at hn
  · next hdefault =>
    have hs : s.isComposite = false := by
      cases s <;> first | rfl | cases hdefault
    refine defaultValue_of_not_generates hs ?_
    rw [generates, hdefault]
  · cases hn

/-! ## Columns of composites -/

/-- A field that is absent and gets nothing for it stays absent. -/
theorem fillAll_notMem (h : (fillAll fields data).run m = .ok (data', m'))
    (hkeys : (fields.map Prod.fst).Nodup) (hmem : (key, s) ∈ fields) (hs : s.isScalarish = true)
    (hstamped : s.isStamped = false) (hnone : s.defaultValue = pure .unset)
    (hnot : ∀ v, (.text key, v) ∉ data) (v : Value) : (.text key, v) ∉ data' := by
  obtain ⟨data₁, m₁, data₂, m₂, -, hfill, -, hbefore, hafter⟩ := fillAll_at h hkeys hmem
  have hsame : data₂ = data₁ := by
    unfold fill at hfill
    split at hfill
    · cases hs
    · rw [if_neg (Bool.not_eq_true _ ▸ hstamped), hnone] at hfill
      split at hfill <;> cases hfill <;> rfl
  rw [hafter, hsame, hbefore]
  exact hnot v

/-- A column that is absent and gets nothing for it stays absent. -/
theorem fillSubfields_isUnset {es es' : Value.Entries}
    (h : (fillSubfields fields es).run m = .ok (es', m'))
    (hnone : ∀ s, (name, s) ∈ fields → s.defaultValue = pure .unset)
    (hes : ∀ v, (.text name, v) ∈ es → v.isUnset = true) {v : Value} (hv : (.text name, v) ∈ es') :
    v.isUnset = true := by
  induction fields generalizing es m with
  | nil =>
    cases h
    exact hes v hv
  | cons e r ih =>
    obtain ⟨name', s⟩ := e
    have hrest : ∀ s, (name, s) ∈ r → s.defaultValue = pure .unset :=
      fun s hs => hnone s (List.mem_cons_of_mem _ hs)
    unfold fillSubfields at h
    split at h
    · simp only [StateT.run_bind, Except.bind_eq_ok] at h
      obtain ⟨⟨w, m₁⟩, hw, h⟩ := h
      refine ih h hrest fun v hv => ?_
      by_cases hname : name = name'
      · subst hname
        rw [hnone s List.mem_cons_self] at hw
        cases hw
        rw [Value.Entries.eq_of_mem_put hv]
        rfl
      · exact hes v ((Value.Entries.mem_put_ne hname).1 hv)
    · exact ih h hrest hes

/-- Defaults leave out a column of a composite that gets nothing for being absent. -/
theorem fillAll_omits {subfields : List (String × Storage)}
    (h : (fillAll fields data).run m = .ok (data', m')) (hkeys : (fields.map Prod.fst).Nodup)
    (hmem : (key, .multi subfields) ∈ fields)
    (hnone : ∀ s, (name, s) ∈ subfields → s.defaultValue = pure .unset)
    (homits : data.Omits key name) : data'.Omits key name := by
  obtain ⟨data₁, m₁, data₂, m₂, -, hfill, -, hbefore, hafter⟩ := fillAll_at h hkeys hmem
  intro sub hsub v hv
  rw [hafter] at hsub
  rw [fill] at hfill
  obtain ⟨⟨filled, m₃⟩, hfilled, hfill⟩ := Except.bind_eq_ok.1 hfill
  cases hfill
  obtain rfl := Value.map.inj (Value.Entries.eq_of_mem_put hsub)
  refine fillSubfields_isUnset hfilled hnone (fun w hw => ?_) hv
  split at hw
  · next es hes =>
    have hset : (data₁.get key).isUnset = false := by
      rw [hes]
      rfl
    have hget := Value.Entries.mem_of_get hset
    rw [hes] at hget
    exact homits es ((hbefore _).1 hget) w hw
  · cases hw

/-- Stamping leaves out what composites omit. -/
theorem stampAll_omits {subfields : List (String × Storage)}
    (h : (stampAll fields data).run m = .ok (data', m')) (hkeys : (fields.map Prod.fst).Nodup)
    (hmem : (key, .multi subfields) ∈ fields) (homits : data.Omits key name) :
    data'.Omits key name := by
  intro sub hsub
  refine homits sub ((stampAll_ne h fun s hs => ?_).1 hsub)
  obtain rfl := Keys.eq_of_mem hkeys hmem hs
  rfl

end Storage

end RecordSchema
