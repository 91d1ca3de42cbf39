import RecordSchema.Proofs.Field.BuiltIn
import RecordSchema.Proofs.Request.Given
import RecordSchema.Proofs.Request.Steps
import RecordSchema.Proofs.Store.Paging
import RecordSchema.Proofs.Store.Unique

/-!
# Identified records

A unique filter selects one record at most, whatever was written before.
Every step of a write keeps rows apart (`Database.Writes.distinct`), so
they are apart behind every run of calls and in the middle of one. And a
unique filter compares one column with a value: the id, or the column of
a field that is declared unique (`Database.Compiles.identify_ok`). The
fields that identify are those whose columns storage keeps unique, and
null, which any number of rows may hold, is not taken for a value.
-/

namespace RecordSchema

open Layout

/-! ## Runs keep rows apart -/

namespace Database

variable {db : Database} {d : Declarations} {P : ListType → Value.Entries → Prop} {s m : Session}

theorem Writes.distinct (h : db.Writes P s m) (hd : db.Compiles d) (hs : db.Distinct s.store) :
    db.Distinct m.store := by
  cases h with
  | draw => exact hs
  | insert hl _ run => exact hs.insert hd hl run
  | update hl _ run => exact hs.update hd hl run
  | connect hp id ts => exact hs.of_sameFields (hd.sameFields_connect hp s.store id ts)
  | disconnect hp id ts => exact hs.of_sameFields (hd.sameFields_unlink hp s.store id _)

theorem Distinct.of_writes (h : Relation.ReflTransGen (db.Writes P) s m) (hd : db.Compiles d)
    (hs : db.Distinct s.store) : db.Distinct m.store := by
  induction h with
  | refl => exact hs
  | tail _ hstep ih => exact hstep.distinct hd ih

theorem Distinct.of_steps (h : Relation.ReflTransGen db.Change s m) (hd : db.Compiles d)
    (hs : db.Distinct s.store) : db.Distinct m.store :=
  .of_writes (Relation.ReflTransGen.mono (fun _ _ hstep => hstep.writes) _ _ h) hd hs

end Database

/-! ## Unique filters -/

/-- A unique filter that is resolved has one entry, of a field that identifies. -/
theorem Resolve.identify_ok {s : Schema} {context filter : Value} {list : String}
    {unique : Value.Entries} (h : identify s context list filter = .ok unique) :
    ∃ l ∈ s.lists, l.key = list ∧ ∃ key f v w, (key, f) ∈ l.fields ∧
      f.accepts .identify = true ∧ v.isPresent = true ∧
      f.resolveInput .identify v context = .ok w ∧ unique = [(.text key, w)] := by
  simp only [identify, Except.bind_eq_ok] at h
  obtain ⟨l, hl, h⟩ := h
  have hlist : s.list? list = some l := by
    unfold listOf at hl
    split at hl
    · next hfound => exact Except.ok.inj hl ▸ hfound
    · cases hl
  obtain ⟨hmem, hkey⟩ := Schema.mem_of_list? hlist
  split at h
  · next es =>
    rw [pure_bind] at h
    split at h
    · next k v hes =>
      have hv : (k, v) ∈ es.filter fun e => e.2.isPresent := hes ▸ List.mem_singleton_self _
      split at h
      · exact absurd h Except.throw_ne_ok
      · next f hf =>
        unfold ListType.accepting? at hf
        split at hf
        · next key =>
          obtain ⟨hfield, haccepts⟩ := Option.filter_eq_some_iff.1 hf
          obtain ⟨w, hw, h⟩ := Except.bind_eq_ok.1 h
          exact ⟨l, hmem, hkey, key, f, v, w, Keys.mem_of_lookup hfield, haccepts,
            (List.mem_filter.1 hv).2, hw, (Except.pure_eq_ok.1 h).symm⟩
        · cases hf
    · split at h <;> exact absurd h Except.throw_ne_ok
  · -- What is no mapping has no entries, so it names nothing.
    split at h
    · cases h
    · rw [pure_bind] at h
      dsimp only [List.filter_nil] at h
      split at h <;> exact absurd h Except.throw_ne_ok

namespace Database.Compiles

variable {db : Database} {d : Declarations} {l : ListType} {key column : String}

/-- The column of a field that is declared unique holds no value twice. -/
theorem isUnique (h : db.Compiles d) (hl : l ∈ db.schema.lists) {slot : String × Storage}
    (hslot : slot ∈ columnKinds l) (hunique : slot.2.index? = some .unique) :
    db.IsUnique l slot.1 := by
  obtain ⟨c, hc, hcolumn, -⟩ := h.exists_column hl hslot
  refine ⟨h.columnKinds_not_isKey hl hslot, c, hc, hcolumn.name, ?_⟩
  obtain ⟨name, s⟩ := slot
  obtain ⟨column, nullable, hof, rfl⟩ := hcolumn
  cases s with
  | scalar f | enum f =>
    cases hof
    have hindex : f.index = some .unique := hunique
    simp only [hindex, beq_self_eq_true]
  | _ => cases hof

/-- A unique filter compares the id or a unique column with a value. -/
theorem identify_ok (h : db.Compiles d) (hb : d.UsesBuiltIns) {context filter : Value}
    {list : String} {unique : Value.Entries}
    (hi : Resolve.identify db.schema context list filter = .ok unique) :
    ∃ l ∈ db.schema.lists, l.key = list ∧ ∃ key v column, unique = [(.text key, v)] ∧
      v.isNull = false ∧ db.layout.column list key = .ok column ∧
      (column = "id" ∨ db.IsUnique l column) := by
  obtain ⟨l, hl, rfl, key, f, v, w, hf, haccepts, hpresent, hw, rfl⟩ := Resolve.identify_ok hi
  obtain ⟨spec, hspec, hok⟩ := h.builtIn hb hl hf
  obtain ⟨i, hi⟩ := Option.isSome_iff_exists.1 haccepts
  obtain ⟨hresolve, hs, hindex⟩ := hspec.identify hok hi
  -- Nothing is done to the client's value, so it is still not null.
  have hvalue : w = v := by
    simp only [Field.resolveInput, hi, hresolve, Except.bind_eq_ok, Except.pure_eq_ok] at hw
    obtain ⟨_, rfl, hw⟩ := hw
    split at hw
    · exact (Except.pure_eq_ok.1 hw).symm
    · exact absurd hw Except.throw_ne_ok
  subst hvalue
  have hnull : w.isNull = false := by
    cases w <;> first | rfl | cases hpresent
  refine ⟨l, hl, rfl, key, w, ?_⟩
  by_cases hid : key = "id"
  · subst hid
    exact ⟨"id", rfl, hnull, h.column_id hl, .inl rfl⟩
  · obtain ⟨part, hpart, hplace⟩ := exists_partOf? hs key
    have hslot : ((nonempty? f.storage.map?).getD key, f.storage) ∈ columnKinds l := by
      refine mem_columnKinds.2 ⟨key, f, hf, hid, ?_⟩
      rw [fieldKinds_scalarish hs]
      exact List.mem_singleton_self _
    have hcolumn : db.layout.column l.key key = .ok ((nonempty? f.storage.map?).getD key) := by
      simp only [Layout.column, h.table?_eq hl, Option.bind_some,
        h.fields_lookup hl hf hid hpart, hplace]
    exact ⟨_, rfl, hnull, hcolumn, .inr (h.isUnique hl hslot hindex)⟩

end Database.Compiles

/-- The condition of a unique filter with one entry. -/
theorem Database.uniqueCondition_singleton {db : Database} {list key column : String} {v : Value}
    {c : Condition} (h : db.uniqueCondition list [(.text key, v)] = .ok c)
    (hcolumn : db.layout.column list key = .ok column) (hnull : v.isNull = false) :
    ∃ operand : Cell, operand.isNaN = false ∧ c = .all [.cell column (.compare .eq operand)] := by
  have hrun := Reading.settle_ok h
  simp only [entryConditions, Filter.fieldKey, Filter.equalsTest, hcolumn, hnull,
    Reading.liftM_ok, pure_bind, Bool.false_eq_true, if_false, Reading.bind_run,
    Reading.pure_run] at hrun
  obtain ⟨_, _, ⟨_, _, ⟨operand, _, hoperand, rfl, rfl⟩, rfl, rfl⟩, rfl, rfl⟩ := hrun
  obtain ⟨hcell, -⟩ := Reading.operand_run hoperand
  exact ⟨operand, ColumnType.isNaN_operand hcell, rfl⟩

/-- A row that is selected by a value holds it. -/
theorem Condition.selects_compare_eq {s : Store} {r : Row} {column : String} {operand : Cell}
    (h : (Condition.all [.cell column (.compare .eq operand)]).selects s r = true)
    (hr : (r.cell column).isNaN = false) (ho : operand.isNaN = false) :
    r.cell column ≠ .null ∧ (r.cell column).place = operand.place := by
  rw [selects_all_singleton, selects, eval, Test.eval] at h
  split at h
  · cases h
  · next hset =>
    rw [Truth.isYes_ofBool, Comparison.admits] at h
    rw [Bool.or_eq_true, not_or, Cell.isNull_iff] at hset
    exact ⟨hset.1, (Cell.same_iff hr ho).1 h⟩

namespace Database.Compiles

variable {w : Worker} {d : Declarations} {m : Session} {list : String} {filter : Value}

/-- Behind every run of calls, and in the middle of a call that follows, a unique filter that
is accepted selects one record at most, and that is the record it names: the one that is
found, changed or connected by it. -/
theorem identifies (hd : w.db.Compiles d) (hb : d.UsesBuiltIns) (supply : Supply)
    (calls : List WriteCall)
    (hm : Relation.ReflTransGen w.db.Change (w.db.run calls { supply }) m)
    {unique : Value.Entries}
    (hunique : Resolve.identify w.db.schema w.context list filter = .ok unique) {c : Condition}
    (hc : w.db.uniqueCondition list unique = .ok c) :
    (∀ r ∈ m.store.rows list, ∀ r' ∈ m.store.rows list,
      c.selects m.store r = true → c.selects m.store r' = true → r = r') ∧
    ∀ id, w.Names m list filter id ↔
      ∃ r ∈ m.store.rows list, c.selects m.store r = true ∧ r.id = id := by
  have hdistinct : w.db.Distinct m.store :=
    .of_steps ((w.db.run_steps calls { supply }).trans hm) hd w.db.distinct_empty
  obtain ⟨l, hl, rfl, key, v, column, rfl, hnull, hcolumn, hkind⟩ := hd.identify_ok hb hunique
  have hone : ∀ r ∈ m.store.rows l.key, ∀ r' ∈ m.store.rows l.key,
      c.selects m.store r = true → c.selects m.store r' = true → r = r' := by
    obtain ⟨operand, hoperand, rfl⟩ := uniqueCondition_singleton hc hcolumn hnull
    have hholds {r : Row} (hr : r ∈ m.store.rows l.key)
        (hsel : (Condition.all [.cell column (.compare .eq operand)]).selects m.store r = true) :
        r.cell column ≠ .null ∧ (r.cell column).place = operand.place :=
      Condition.selects_compare_eq hsel
        (hdistinct.ordered l hl r hr column (hd.column_not_isKey hcolumn)) hoperand
    intro r hr r' hr' hsel hsel'
    obtain ⟨hset, hplace⟩ := hholds hr hsel
    obtain ⟨-, hplace'⟩ := hholds hr' hsel'
    have hshares : r.Shares column r' := ⟨hset, hplace.trans hplace'.symm⟩
    rcases hkind with rfl | hkind
    · exact Store.eq_of_mem_rows hdistinct.keyed hr hr' (Cell.int_eq_of_place hshares.2)
    · exact hdistinct.eq_of_shares hl hkind hr hr' hshares
  refine ⟨hone, fun id => ⟨?_, ?_⟩⟩
  · rintro ⟨unique', r, hunique', hfound, rfl⟩
    obtain rfl := Except.ok.inj (hunique.symm.trans hunique')
    simp only [findOne, hc, Except.bind_eq_ok, Except.pure_eq_ok, Except.ok.injEq] at hfound
    obtain ⟨_, -, _, rfl, hfound⟩ := hfound
    obtain ⟨hr, hsel, -⟩ := Store.selectOne_some hfound
    exact ⟨r, hr, hsel, rfl⟩
  · rintro ⟨r, hr, hsel, rfl⟩
    cases hfound : m.store.selectOne l.key c with
    | none =>
      rw [Store.selectOne_none hfound hr] at hsel
      cases hsel
    | some o =>
      obtain ⟨ho, hosel, -⟩ := Store.selectOne_some hfound
      obtain rfl := hone o ho r hr hosel hsel
      refine ⟨_, o, hunique, ?_, rfl⟩
      simp only [findOne, hc, hd.table_ok hl, Except.bind_eq_ok, Except.pure_eq_ok,
        Except.ok.injEq]
      exact ⟨_, rfl, c, rfl, hfound⟩

end Database.Compiles

/-! ## Tags by name -/

def tagger : Worker where
  db := blog.database.result
  setPolicy := .reject

/-- The session behind the calls, with tags `a` and `b`. -/
def tagged : Session :=
  tagger.db.run blogCalls { supply := blogSupply }

/-- The condition of the filter on tags for a name. -/
def nameCondition (name : String) : Except Fault Condition := do
  let unique ← Resolve.identify tagger.db.schema .null "Tag" (.map [(.text "name", .text name)])
  tagger.db.uniqueCondition "Tag" unique

/-- The name of a tag selects that tag alone. -/
theorem identifies_tag : ∃ c, nameCondition "b" = .ok c ∧
    (∀ r ∈ tagged.store.rows "Tag", ∀ r' ∈ tagged.store.rows "Tag",
      c.selects tagged.store r = true → c.selects tagged.store r' = true → r = r') ∧
    tagger.Names tagged "Tag" (.map [(.text "name", .text "b")]) 2 := by
  have hfacts : (nameCondition "b").isOk = true ∧ ∃ r ∈ tagged.store.rows "Tag",
      (nameCondition "b").result.selects tagged.store r = true ∧ r.id = 2 := by
    decide +kernel
  obtain ⟨hok, hrow⟩ := hfacts
  have hcondition := Except.eq_ok_result hok
  obtain ⟨unique, hunique, hc⟩ := Except.bind_eq_ok.1 hcondition
  obtain ⟨hone, hnames⟩ := Database.Compiles.identifies (w := tagger) blog_compiles
    blog_usesBuiltIns blogSupply blogCalls .refl hunique hc
  exact ⟨_, hcondition, hone, (hnames 2).2 hrow⟩

end RecordSchema
