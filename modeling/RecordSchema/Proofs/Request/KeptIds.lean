import RecordSchema.Proofs.Request.Identified
import RecordSchema.Proofs.Request.Stamped

/-!
# Ids that are kept

Links, and every filter by id, rely on ids that stay what they are. New
rows stand behind the old ones and a link is a cell, so creating records
keeps all ids (`Store.KeepsIds`). An update keeps them too unless its
data give the record another id (`Worker.Renumbers`), which takes an id
field that accepts values from updates: compilation refuses only one that
accepts them for new records.

An update that renumbers its record does not find it again. It fails
then, before it links anything, but the row has its new id. So every
update that succeeds answers the record that its filter names.
-/

namespace RecordSchema

open Layout

/-! ## Ids of a store -/

namespace Store

/-- Whether every row keeps its place and its id; new rows stand behind the old ones. -/
def KeepsIds (s s' : Store) : Prop :=
  ∀ list, s.ids list <+: s'.ids list

/-- Whether the row of an id has another one, which was free, and all other rows keep theirs. -/
def Renumbered (s s' : Store) (list : String) (id n : Int) : Prop :=
  n ∉ s.ids list ∧ ∀ other, s'.ids other =
    if other = list then (s.ids list).map fun i => if i = id then n else i else s.ids other

variable {s s' s'' : Store}

theorem KeepsIds.refl (s : Store) : s.KeepsIds s :=
  fun _ => List.prefix_rfl

theorem KeepsIds.trans (h : s.KeepsIds s') (h' : s'.KeepsIds s'') : s.KeepsIds s'' :=
  fun list => (h list).trans (h' list)

theorem KeepsIds.of_ids_eq (h : ∀ list, s'.ids list = s.ids list) : s.KeepsIds s' :=
  fun list => h list ▸ List.prefix_rfl

/-- The old id is gone. -/
theorem Renumbered.not_mem {list : String} {id n : Int} (h : s.Renumbered s' list id n)
    (hn : n ≠ id) : id ∉ s'.ids list := by
  rw [h.2 list, if_pos rfl]
  intro hmem
  obtain ⟨i, -, hi⟩ := List.mem_map.1 hmem
  split at hi
  · exact hn hi
  · next hne => exact hne hi

end Store

/-- Steps of creation keep the ids. -/
theorem Database.Step.keepsIds {db : Database} {d : Declarations} {s m : Session}
    (h : db.Step s m) (hd : db.Compiles d) : s.store.KeepsIds m.store := by
  cases h with
  | fill => exact .refl s.store
  | insert hl hi =>
    obtain ⟨rfl, -⟩ := hd.insert_ok hl hi
    intro list
    rw [Store.ids_setRows]
    split
    · next heq =>
      rw [List.map_append, heq]
      exact List.prefix_append _ _
    · exact List.prefix_rfl
  | connect hp id ts => exact .of_ids_eq (s.store.ids_connect _ id ts)
  | disconnect hp id ts => exact .of_ids_eq (s.store.ids_disconnect _ id ts)

theorem Store.KeepsIds.of_steps {db : Database} {d : Declarations} {s m : Session}
    (h : Relation.ReflTransGen db.Step s m) (hd : db.Compiles d) : s.store.KeepsIds m.store := by
  induction h with
  | refl => exact .refl s.store
  | tail _ hstep ih => exact ih.trans (hstep.keepsIds hd)

/-! ## Ids of a changed row -/

namespace Database

/-- The number that data give to the id of a row, if they give one. -/
def idGiven (db : Database) (list : String) (data : Value.Entries) : Except Fault (Option Int) := do
  let t ← db.table list
  TableLayout.givenId? (← t.bind (← t.assign data))

/-- A changed row has the id that its cells give, or its own. -/
theorem changed_id {r r' : Row} {cells : List (String × Cell)} (h : changed r cells = .ok r') :
    ∃ given, TableLayout.givenId? cells = .ok given ∧ r'.id = given.getD r.id := by
  unfold changed at h
  split at h
  · next hnone =>
    obtain rfl := Except.pure_eq_ok.1 h
    exact ⟨none, by rw [TableLayout.givenId?, hnone], Row.setAll_id r _⟩
  · exact absurd h Except.throw_ne_ok
  · obtain ⟨given, hgiven, h⟩ := Except.bind_eq_ok.1 h
    obtain rfl := Except.pure_eq_ok.1 h
    exact ⟨given, hgiven, rfl⟩

namespace Compiles

variable {db : Database} {d : Declarations} {l : ListType} {s s' : Store} {id n : Int}
  {data : Value.Entries}

theorem idGiven_eq (h : db.Compiles d) (hl : l ∈ db.schema.lists) {given : List (String × Value)}
    (ha : (tableOf db.schema.plans l).assign data = .ok given) {cells : List (String × Cell)}
    (hb : (tableOf db.schema.plans l).bind given = .ok cells) :
    db.idGiven l.key data = TableLayout.givenId? cells := by
  simp only [idGiven, table, h.table?_eq hl, bind, Except.bind, ha, hb]

/-- Data give a number to the id only where they name it. -/
theorem mem_keys_of_idGiven (h : db.Compiles d) (hl : l ∈ db.schema.lists)
    (hgiven : db.idGiven l.key data = .ok (some n)) : .text "id" ∈ data.map Prod.fst := by
  by_contra hid
  simp only [idGiven, h.table_ok hl, Except.bind_eq_ok, Except.ok.injEq] at hgiven
  obtain ⟨t, rfl, given, ha, cells, hb, hgiven⟩ := hgiven
  have hnone : cells.lookup "id" = none :=
    Keys.lookup_eq_none_iff.2 (h.id_notMem_bind hl ha hb hid)
  rw [TableLayout.givenId?, hnone] at hgiven
  cases hgiven

/-- A change of a row gives it the id that the data give, and keeps all other ids. -/
theorem update_ids (h : db.Compiles d) (hl : l ∈ db.schema.lists) (hid : id ∈ s.ids l.key)
    (hu : db.update s l.key id data = .ok s') :
    (s.KeepsIds s' ∧ ∀ n, db.idGiven l.key data = .ok (some n) → n = id) ∨
      ∃ n, n ≠ id ∧ db.idGiven l.key data = .ok (some n) ∧ s.Renumbered s' l.key id n := by
  obtain ⟨given, cells, ha, hb, ⟨hnone, -⟩ | ⟨r, r', hr, hr', hcheck, rfl⟩⟩ := h.update_row hl hu
  · obtain ⟨o, ho, rfl⟩ := Store.mem_ids.1 hid
    exact absurd (beq_self_eq_true o.id) (List.find?_eq_none.1 hnone o ho)
  obtain ⟨-, hrid⟩ := Store.row?_mem hr
  obtain ⟨number, hnumber, hid'⟩ := changed_id hr'
  rw [← h.idGiven_eq hl ha hb] at hnumber
  have hids (other : String) :
      (s.modifyRows l.key (fun o => o.id == id) fun _ => r').ids other =
        if other = l.key then (s.ids l.key).map fun i => if i = id then r'.id else i
        else s.ids other := by
    rw [Store.ids, Store.rows_modifyRows]
    split
    · simp only [Store.ids, List.map_map, Function.comp_def, beq_iff_eq, apply_ite Row.id]
    · rfl
  by_cases hsame : r'.id = id
  · refine .inl ⟨.of_ids_eq fun other => ?_, fun n hn => ?_⟩
    · exact s.ids_modifyRows l.key other fun o _ ho => hsame.trans (eq_of_beq ho).symm
    · obtain rfl := Except.ok.inj (hnumber.symm.trans hn)
      exact hid'.symm.trans hsame
  · cases number with
    | none => exact absurd (hid'.trans hrid) hsame
    | some n =>
      obtain rfl : r'.id = n := hid'
      refine .inr ⟨_, hsame, hnumber, fun hmem => ?_, hids⟩
      obtain ⟨o, ho, heq⟩ := Store.mem_ids.1 hmem
      refine TableLayout.check_ok hcheck o (List.mem_filter.2 ⟨ho, ?_⟩) heq
      exact bne_iff_ne.2 (heq ▸ hsame)

end Compiles

end Database

/-! ## Updates that renumber -/

namespace Worker

variable {w : Worker} {d : Declarations} {s s' : Session} {list : String} {filter data : Value}
  {id n : Int} {record : Record}

/-- Whether an update stores values that give the record of its filter another id. -/
def Renumbers (w : Worker) (s : Session) (list : String) (filter data : Value) (id n : Int) :
    Prop :=
  w.Names s list filter id ∧ n ≠ id ∧ ∃ l ∈ w.db.schema.lists, l.key = list ∧
    ∃ c values supply store, Resolve.changes l .update w.setPolicy w.context data = .ok c ∧
      (Storage.stampAll l.storedFields c.values).run s.supply = .ok (values, supply) ∧
      w.db.idGiven list values = .ok (some n) ∧ w.db.update s.store list id values = .ok store

/-- Only an id that takes values from updates is renumbered. -/
theorem Renumbers.accepts (hd : w.db.Compiles d) (h : w.Renumbers s list filter data id n) :
    ∃ l ∈ w.db.schema.lists, l.key = list ∧ ∃ f, ("id", f) ∈ l.fields ∧
      f.accepts .update = true := by
  obtain ⟨-, -, l, hl, rfl, c, values, supply, store, hc, hstamp, hgiven, -⟩ := h
  exact ⟨l, hl, rfl, hd.accepts_update_of_keys hl hc hstamp (hd.mem_keys_of_idGiven hl hgiven)⟩

/-- An update that renumbers its record fails, and leaves it renumbered. -/
theorem Renumbers.outcome (hd : w.db.Compiles d) (h : w.Renumbers s list filter data id n) :
    ∃ s', (w.update list filter data).outcome s =
        (.error (.notFound list [(.text "id", .int id)]), s') ∧
      s.store.Renumbered s'.store list id n := by
  obtain ⟨hid, hn, l, hl, rfl, c, values, supply, store, hc, hstamp, hgiven, hu⟩ := h
  obtain ⟨-, hsame⟩ | ⟨n', -, hgiven', hrenumbered⟩ := hd.update_ids hl hid.mem hu
  · exact absurd (hsame n hgiven) hn
  obtain rfl := Option.some.inj (Except.ok.inj (hgiven.symm.trans hgiven'))
  refine ⟨{ store, supply }, ?_, hrenumbered⟩
  have hnone : store.row? l.key id = none := by
    refine List.find?_eq_none.2 fun r hr heq => hrenumbered.not_mem hn ?_
    exact Store.mem_ids.2 ⟨r, hr, eq_of_beq heq⟩
  have hchange : (w.change l.key id values).outcome { s with supply } =
      (.error (.notFound l.key [(.text "id", .int id)]), { store, supply }) := by
    simp only [change, Work.outcome_bind, Work.outcome_store, Work.outcome_ofExcept, hu,
      Work.outcome_setStore, hnone, Option.isNone_none, if_true, Work.outcome_throw]
  have hvalues : (!values.isEmpty) = true := by
    cases values with
    | nil => cases hd.mem_keys_of_idGiven hl hgiven
    | cons => rfl
  have hcolumns : (w.changeColumns l.key id data).outcome s =
      (.error (.notFound l.key [(.text "id", .int id)]), { store, supply }) := by
    rw [changeColumns, (listOf_yields.2 ⟨hd.list?_eq hl, rfl⟩).outcome_bind,
      (Work.ofExcept_yields.2 ⟨hc, rfl⟩).outcome_bind, (Work.yields_generate hstamp).outcome_bind]
    dsimp only
    rw [if_pos hvalues]
    exact Work.outcome_bind_error hchange
  obtain ⟨before, hbefore⟩ : ∃ before, (w.recordOf l.key id).Yields s before s := ⟨_, rfl⟩
  rw [update, (require_yields.2 ⟨hid, rfl⟩).outcome_bind, hbefore.outcome_bind]
  exact Work.outcome_bind_error hcolumns

/-! ## Writes that keep the ids -/

theorem create_keepsIds (hd : w.db.Compiles d) (s : Session) (list : String) (data : Value) :
    s.store.KeepsIds ((w.create list data).outcome s).2.store :=
  .of_steps (w.create_walks list data s) hd

theorem change_keepsIds {values : Value.Entries}
    (hu : ∀ store, w.db.update s.store list id values = .ok store → s.store.KeepsIds store) :
    s.store.KeepsIds ((w.change list id values).outcome s).2.store := by
  simp only [change, Work.outcome_bind, Work.outcome_store, Work.outcome_ofExcept]
  cases h : w.db.update s.store list id values with
  | error e => exact .refl s.store
  | ok store =>
    simp only [Work.outcome_setStore]
    split <;> exact hu store h

/-- The columns of a record are changed without a change of ids, unless it is renumbered. -/
theorem changeColumns_keepsIds (hd : w.db.Compiles d) (hid : w.Names s list filter id)
    (hnot : ∀ n, ¬ w.Renumbers s list filter data id n) :
    s.store.KeepsIds ((w.changeColumns list id data).outcome s).2.store := by
  let P (m : Session) : Prop := s.store.KeepsIds m.store
  have hs : P s := .refl s.store
  refine (Work.reads_ofExcept _).bind_ends (P := P) hs fun l hl => ?_
  obtain ⟨hmem, rfl⟩ := Schema.mem_of_list? (listOf_yields.1 hl).1
  refine (Work.reads_ofExcept _).bind_ends (P := P) hs fun c hc => ?_
  obtain ⟨hc, -⟩ := Work.ofExcept_yields.1 hc
  refine Work.bind_ends (P := P) ?_ fun values m hv _ => ?_
  · exact .of_ids_eq fun other => by rw [Work.generate_store]
  obtain ⟨supply, hstamp, rfl⟩ := Work.generate_yields hv
  split
  · refine Work.bind_ends (P := P) ?_ fun _ m _ hm => hm
    refine change_keepsIds (s := { s with supply }) fun store hu => ?_
    obtain ⟨hkeeps, -⟩ | ⟨n, hn, hgiven, -⟩ := hd.update_ids hmem hid.mem hu
    · exact hkeeps
    · exact absurd ⟨hid, hn, l, hmem, rfl, c, values, supply, store, hc, hstamp, hgiven, hu⟩ (hnot n)
  · exact hs

/-- An update keeps the ids when and only when it does not renumber its record. -/
theorem update_keepsIds_iff (hd : w.db.Compiles d) :
    s.store.KeepsIds ((w.update list filter data).outcome s).2.store ↔
      ∀ id n, ¬ w.Renumbers s list filter data id n := by
  constructor
  · intro hkeeps id n h
    obtain ⟨s', houtcome, hrenumbered⟩ := h.outcome hd
    rw [houtcome] at hkeeps
    exact hrenumbered.not_mem h.2.1 ((hkeeps list).subset h.1.mem)
  · intro hnot
    let P (m : Session) : Prop := s.store.KeepsIds m.store
    have hs : P s := .refl s.store
    refine (w.require_reads list filter).bind_ends (P := P) hs fun id hid => ?_
    obtain ⟨hid, -⟩ := require_yields.1 hid
    refine (w.recordOf_reads list id).bind_ends (P := P) hs fun before _ => ?_
    refine Work.bind_ends (P := P) (changeColumns_keepsIds hd hid (hnot id)) fun links m _ hm => ?_
    have hlinks : (w.applyLinks w.createId list id links).Walks w.db.Step :=
      w.linksWithin_walks w.db.depth list id links
    refine Work.bind_ends (P := P) (hm.trans (.of_steps (hlinks m) hd)) fun _ m' _ hm' => ?_
    refine Work.reads_store.bind_ends (P := P) hm' fun t _ => ?_
    split <;> exact hm'

/-- An update that succeeds answers the record that its filter names. -/
theorem update_id (hd : w.db.Compiles d) (h : (w.update list filter data).Yields s record s') :
    ∃ id, w.Names s list filter id ∧ record.value? "id" = some (.int id) := by
  obtain ⟨l, hl, rfl, c, -, id, before, after, values, supply, store, hid, -, -, -, hafter, -,
    rfl⟩ := update_changes hd h
  obtain ⟨-, rfl⟩ := Store.row?_mem hafter
  exact ⟨after.id, hid, hd.record_id hl after⟩

end Worker

/-! ## Runs -/

/-- Whether a call renumbers the record that it changes. -/
def WriteCall.Renumbers (db : Database) (s : Session) : WriteCall → Prop
  | .create .. => False
  | .update setPolicy context list filter data =>
    ∃ id n, Worker.Renumbers { db, setPolicy, context } s list filter data id n

/-- Whether a call updates a list whose id takes values from updates. -/
def WriteCall.TakesId (db : Database) : WriteCall → Prop
  | .create .. => False
  | .update _ _ list _ _ => ∃ l ∈ db.schema.lists, l.key = list ∧
      ∃ f, ("id", f) ∈ l.fields ∧ f.accepts .update = true

/-- Whether some call of a run renumbers the record that it changes. -/
def Database.Renumbers (db : Database) : List WriteCall → Session → Prop
  | [], _ => False
  | c :: cs, s => c.Renumbers db s ∨ db.Renumbers cs ((c.work db).outcome s).2

namespace Database.Compiles

variable {db : Database} {d : Declarations} {w : Worker}

theorem work_keepsIds_iff (hd : db.Compiles d) (c : WriteCall) (s : Session) :
    s.store.KeepsIds ((c.work db).outcome s).2.store ↔ ¬ c.Renumbers db s := by
  cases c with
  | create setPolicy context list data =>
    let w : Worker := { db, setPolicy, context }
    exact ⟨fun _ => id, fun _ => w.create_keepsIds hd s list data⟩
  | update setPolicy context list filter data =>
    let w : Worker := { db, setPolicy, context }
    rw [WriteCall.Renumbers]
    simp only [not_exists]
    exact Worker.update_keepsIds_iff (w := w) hd

theorem takesId_of_renumbers (hd : db.Compiles d) {c : WriteCall} {s : Session}
    (h : c.Renumbers db s) : c.TakesId db := by
  cases c with
  | create => exact h
  | update setPolicy context list filter data =>
    obtain ⟨id, n, h⟩ := h
    exact h.accepts hd

/-- A run in which no call renumbers a record keeps the ids from its beginning to its end. -/
theorem run_keepsIds (hd : db.Compiles d) (calls : List WriteCall) {s : Session}
    (h : ¬ db.Renumbers calls s) : s.store.KeepsIds (db.run calls s).store := by
  induction calls generalizing s with
  | nil => exact .refl s.store
  | cons c r ih =>
    obtain ⟨hc, hr⟩ := not_or.1 h
    exact ((hd.work_keepsIds_iff c s).2 hc).trans (ih hr)

/-- A run that leaves ids alone that take values from updates renumbers nothing. -/
theorem run_not_renumbers (hd : db.Compiles d) (calls : List WriteCall) (s : Session)
    (h : ∀ c ∈ calls, ¬ c.TakesId db) : ¬ db.Renumbers calls s := by
  induction calls generalizing s with
  | nil => exact id
  | cons c r ih =>
    obtain ⟨hc, hr⟩ := List.forall_mem_cons.1 h
    rintro (hrenumbers | hrest)
    · exact hc (hd.takesId_of_renumbers hrenumbers)
    · exact ih _ hr hrest

/-- A call keeps the ids of all records exactly when it does not renumber the record that it
changes, and a run does in which no call renumbers one, such as any run that leaves alone the
lists whose id takes values from updates. An update that renumbers fails behind the change.
Every update that succeeds keeps the ids and answers the record that its filter names. -/
theorem ids_kept (hd : w.db.Compiles d) (s : Session) :
    (∀ c : WriteCall,
      s.store.KeepsIds ((c.work w.db).outcome s).2.store ↔ ¬ c.Renumbers w.db s) ∧
    (∀ calls, (¬ w.db.Renumbers calls s → s.store.KeepsIds (w.db.run calls s).store) ∧
      ((∀ c ∈ calls, ¬ c.TakesId w.db) → ¬ w.db.Renumbers calls s)) ∧
    ∀ list filter data,
      (∀ id n, w.Renumbers s list filter data id n →
        ∃ s', (w.update list filter data).outcome s =
            (.error (.notFound list [(.text "id", .int id)]), s') ∧
          s.store.Renumbered s'.store list id n) ∧
      ∀ record s', (w.update list filter data).Yields s record s' →
        s.store.KeepsIds s'.store ∧
          ∃ id, w.Names s list filter id ∧ record.value? "id" = some (.int id) := by
  refine ⟨fun c => hd.work_keepsIds_iff c s,
    fun calls => ⟨hd.run_keepsIds calls, hd.run_not_renumbers calls s⟩,
    fun list filter data => ⟨fun id n h => h.outcome hd, fun record s' h => ⟨?_, ?_⟩⟩⟩
  · have hkeeps := (Worker.update_keepsIds_iff (s := s) hd).2 fun id n hrenumbers => by
      obtain ⟨m, hm, -⟩ := hrenumbers.outcome hd
      cases hm.symm.trans h
    rwa [h] at hkeeps
  · exact Worker.update_id hd h

end Database.Compiles

/-! ## Cards with a key that updates take -/

/-- A key that storage numbers and that updates take. -/
def cardKey : FieldSpec where
  build _ :=
    let arg : Option Arg := some { type := (TypeExpr.scalar .integer).optional }
    .ok {
      storage := .scalar {
        scalar := .int
        mode := .required
        default := some (.policy .autoincrement) }
      inputs := [
        (.operation .update, { arg, resolve := some fun c => .ok c.value }),
        (.operation .identify, { arg })]
      output := some { type := .scalar .integer } }

def cards : Declarations :=
  ({} : Declarations).declare {
    key := "Card"
    specs := [("id", cardKey), ("title", .scalar .text {})] }

def cardWorker : Worker where
  db := cards.database.result
  setPolicy := .reject

def newCard : WriteCall :=
  .create .reject .null "Card" (.map [(.text "title", .text "a")])

/-- What changing the first card ends with. -/
def cardChanged (data : Value.Entries) : Except Fault Record × Session :=
  (cardWorker.update "Card" (.map [(.text "id", .int 1)]) (.map data)).outcome
    (cardWorker.db.run [newCard] { supply := blogSupply })

/-- The facts about cards that are evaluated, in one go. -/
theorem cards_facts :
    cards.database.isOk = true ∧
      (cardWorker.db.run [newCard] { supply := blogSupply }).store.ids "Card" = [1] ∧
      (cardChanged [(.text "title", .text "b")]).1.isOk = true ∧
      ((cardWorker.require "Card" (.map [(.text "id", .int 1)])).outcome
        (cardWorker.db.run [newCard] { supply := blogSupply })).1.toOption = some 1 ∧
      (cardChanged [(.text "id", .int 5)]).2.store.ids "Card" = [5] := by
  decide +kernel

theorem cards_compiles : cards.database.result.Compiles cards :=
  Declarations.Declared.compiles (.declare (.start _ _ _) (by decide)) cards_facts.1

/-- A card whose title is changed is the first card still. -/
theorem ids_kept_cards : ∃ record s',
    (cardWorker.update "Card" (.map [(.text "id", .int 1)])
        (.map [(.text "title", .text "b")])).Yields
      (cardWorker.db.run [newCard] { supply := blogSupply }) record s' ∧
      record.value? "id" = some (.int 1) ∧ [1] <+: s'.store.ids "Card" := by
  obtain ⟨-, hids, hok, hnamed, -⟩ := cards_facts
  obtain ⟨record, s', h⟩ := Work.exists_yields hok
  obtain ⟨-, -, hupdates⟩ := Database.Compiles.ids_kept (w := cardWorker) cards_compiles
    (cardWorker.db.run [newCard] { supply := blogSupply })
  obtain ⟨hkeeps, id, hid, hvalue⟩ := (hupdates "Card" _ _).2 record s' h
  obtain rfl := hid.eq (Worker.names_of_outcome hnamed)
  exact ⟨record, s', h, hvalue, hids ▸ hkeeps "Card"⟩

/-- A schema compiles, and a call changes the id of a record. -/
theorem card_renumbered : ¬ ∀ (db : Database) (d : Declarations), db.Compiles d →
    ∀ (supply : Supply) (calls : List WriteCall) (c : WriteCall),
      (db.run calls { supply }).store.KeepsIds (db.run (calls ++ [c]) { supply }).store := by
  intro h
  obtain ⟨-, hids, -, -, hrenumbered⟩ := cards_facts
  have hkeeps := h cards.database.result cards cards_compiles blogSupply [newCard]
    (.update .reject .null "Card" (.map [(.text "id", .int 1)]) (.map [(.text "id", .int 5)])) "Card"
  have hprefix : [1] <+: (cardChanged [(.text "id", .int 5)]).2.store.ids "Card" := hids ▸ hkeeps
  rw [hrenumbered] at hprefix
  exact absurd hprefix (by decide)

end RecordSchema
