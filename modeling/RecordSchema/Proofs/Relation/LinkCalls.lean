import Mathlib.Data.Set.Basic
import RecordSchema.Proofs.Relation.Agreement
import RecordSchema.Proofs.Store.Places
import RecordSchema.Proofs.Store.Repeated
import RecordSchema.Proofs.Store.Statements

/-!
# Link calls

Storage connects and disconnects records by statements, each of which
the constraints of a table may refuse (`LinkStatement.run`): a key that
is held twice, a key that is taken from a column that must have one, a
pair that a join table has already. For a relation to many none of them
is ever refused, whichever way the links are kept, and what a call does
can be said of the links alone, as sets of ids (`LinkCall.links`). A key
column links a target to one owner at a time, so a target that is
connected leaves its former owner; a join table has no such bond.
-/

namespace RecordSchema

/-! ## Statements -/

/-- Adds pairs to those of a join table, one by one. A pair is the key of its row,
so one that is there is refused. -/
def insertPairs (table : String) (there : List (Int × Int)) :
    List (Int × Int) → Except Fault (List (Int × Int))
  | [] => .ok there
  | x :: rest =>
    if there.contains x then
      .error (.constraint (.unique table [JoinSide.first.column, JoinSide.second.column]))
    else insertPairs table (there ++ [x]) rest

/-- A statement that changes links. -/
inductive LinkStatement where
  /-- Writes a key column of some rows, or empties it. -/
  | write (list column : String) (key : Option Int) (selects : Row → Bool)
  | insert (table : String) (pairs : List (Int × Int))
  | delete (table : String) (selects : Int × Int → Bool)

namespace LinkStatement

/-- Runs a statement under the constraints of the column or the table. -/
def run (db : Database) (s : Store) : LinkStatement → Except Fault Store
  | .write list column key selects =>
    match db.layout.column? list column with
    | none => .error (.key .unknown)
    | some c =>
      if key.isNone && !c.nullable && (s.rows list).any selects then
        .error (.constraint (.notNull list column))
      else KeyWrite.run ⟨list, column, c.unique, key, selects⟩ s
  | .insert table pairs => (insertPairs table (s.pairs table) pairs).map (s.setPairs table)
  | .delete table selects =>
    .ok (s.setPairs table ((s.pairs table).filter fun x => !selects x))

/-- Runs statements up to the first that is refused. -/
def runAll (db : Database) (s : Store) : List LinkStatement → Except Fault Store
  | [] => .ok s
  | w :: ws => do runAll db (← w.run db s) ws

end LinkStatement

/-- The ids that a join table links an owner to. -/
def Store.partners (s : Store) (table : String) (side : JoinSide) (owner : Int) : List Int :=
  ((s.linksFrom table side).filter fun l => l.1 == owner).map Prod.snd

namespace RelationPlan

/-- The statements that connect a record to targets. Of several targets for one link
the last one counts, and a pair is added when the owner has not got it. -/
def connectStatements (p : RelationPlan) (s : Store) (i : Int) (ts : List Int) : List LinkStatement :=
  match ts.getLast? with
  | none => []
  | some last =>
    match p.link with
    | .ownKey column unique =>
      (if unique then [.write p.list column none fun r => (r.cell column).isKey last] else []) ++
        [.write p.list column (some last) fun r => r.id == i]
    | .targetKey column _ =>
      match p.mode with
      | .one =>
        [.write p.target column none fun r => (r.cell column).isKey i,
          .write p.target column (some i) fun r => r.id == last]
      | .many => [.write p.target column (some i) fun r => ts.contains r.id]
    | .join table side =>
      let there := s.partners table side i
      [.insert table ((ts.eraseDups.filter fun t => !there.contains t).map (side.pair i))]

/-- The statement that disconnects a record from certain targets. -/
def disconnectStatement (p : RelationPlan) (i : Int) (among : Int → Bool) : LinkStatement :=
  match p.link with
  | .ownKey column _ =>
    .write p.list column none fun r =>
      r.id == i && match r.cell column with
        | .int t => among t
        | _ => false
  | .targetKey column _ =>
    .write p.target column none fun r => (r.cell column).isKey i && among r.id
  | .join table side => .delete table (Store.isPairOf side i among)

/-- Whether the links are kept where a target is linked to one owner at a time. -/
def isExclusive (p : RelationPlan) : Bool :=
  match p.link with
  | .join _ _ => false
  | _ => true

end RelationPlan

/-! ## Calls -/

/-- A call that changes the links of an owner; to disconnect no targets is to
disconnect all. -/
inductive LinkCall where
  | connect (ts : List Int)
  | disconnect (ts : Option (List Int))
  | set (ts : List Int)

namespace LinkCall

/-- The ids that a call names. -/
def targets : LinkCall → List Int
  | .connect ts => ts
  | .disconnect ts => ts.getD []
  | .set ts => ts

/-- What a call makes of a store. -/
def apply (c : LinkCall) (p : RelationPlan) (i : Int) (s : Store) : Store :=
  match c with
  | .connect ts => s.connect p i ts
  | .disconnect ts => s.disconnect p i ts
  | .set ts => s.setRelated p i ts

/-- Runs the statements of a call. -/
def run (c : LinkCall) (db : Database) (p : RelationPlan) (i : Int) (s : Store) :
    Except Fault Store :=
  match c with
  | .connect ts => LinkStatement.runAll db s (p.connectStatements s i ts)
  | .disconnect ts =>
    (p.disconnectStatement i fun t => ts.all fun ts => ts.contains t).run db s
  | .set ts => do
    let s ← (p.disconnectStatement i fun _ => true).run db s
    LinkStatement.runAll db s (p.connectStatements s i ts)

/-- What a call makes of the ids that each owner is linked to. -/
def links (c : LinkCall) (exclusive : Bool) (i : Int) (before : Int → Set Int) (o : Int) :
    Set Int :=
  if o = i then
    match c with
    | .connect ts => before i ∪ {t | t ∈ ts}
    | .disconnect (some ts) => before i \ {t | t ∈ ts}
    | .disconnect none => ∅
    | .set ts => {t | t ∈ ts}
  else
    match c with
    | .disconnect _ => before o
    | .connect ts | .set ts => if exclusive then before o \ {t | t ∈ ts} else before o

end LinkCall

/-! ## Statements that are not refused -/

theorem insertPairs_eq_ok (table : String) {there new : List (Int × Int)} (hnodup : new.Nodup)
    (hnew : ∀ x ∈ new, x ∉ there) : insertPairs table there new = .ok (there ++ new) := by
  induction new generalizing there with
  | nil => rw [insertPairs, List.append_nil]
  | cons x rest ih =>
    obtain ⟨hx, hrest⟩ := List.nodup_cons.1 hnodup
    have hfree : ∀ y ∈ rest, y ∉ there ++ [x] := by
      intro y hy
      rw [List.mem_append, List.mem_singleton, not_or]
      refine ⟨hnew y (List.mem_cons_of_mem _ hy), ?_⟩
      rintro rfl
      exact hx hy
    rw [insertPairs, if_neg (by simpa using hnew x List.mem_cons_self), ih hrest hfree,
      List.append_assoc, List.singleton_append]

namespace Store

variable {s : Store} {table : String} {side : JoinSide}

theorem mem_partners {owner t : Int} :
    t ∈ s.partners table side owner ↔ side.pair owner t ∈ s.pairs table := by
  rw [← mem_linksFrom]
  simp [partners]

/-- To leave out the targets that are linked is to leave out the pairs that are there. -/
theorem map_filter_partners (owner : Int) (ts : List Int) :
    (ts.filter fun t => !(s.partners table side owner).contains t).map (side.pair owner) =
      (ts.map (side.pair owner)).filter fun x => !(s.pairs table).contains x := by
  rw [List.filter_map]
  refine congrArg _ (List.filter_congr fun t _ => ?_)
  simp only [Function.comp_apply, List.contains_eq_mem, mem_partners]

end Store

namespace LinkStatement

variable {db : Database} {s : Store}

/-- A key column that may be empty and may hold a key twice takes every write. -/
theorem run_write {list column : String} {c : Column} (hc : db.layout.column? list column = some c)
    (hnullable : c.nullable = true) (hunique : c.unique = false) (key : Option Int)
    (q : Row → Bool) :
    (LinkStatement.write list column key q).run db s =
      .ok (s.modifyRows list q fun r =>
        r.set column (KeyWrite.cell ⟨list, column, c.unique, key, q⟩)) := by
  simp only [run, hc, hnullable, Bool.not_true, Bool.and_false, Bool.false_and,
    Bool.false_eq_true, if_false]
  refine KeyWrite.run_eq_ok fun pre r post _ _ => ?_
  rw [KeyWrite.collides, hunique, Bool.false_and]

theorem runAll_singleton (w : LinkStatement) : runAll db s [w] = w.run db s := by
  rw [runAll]
  cases w.run db s <;> rfl

end LinkStatement

/-! ## Calls that are not refused -/

namespace Database.Compiles

variable {db : Database} {d : Declarations} {p : RelationPlan}

/-- The key column of a relation to many may be empty and holds keys any number of times. -/
theorem column?_many (h : db.Compiles d) (hp : p ∈ db.schema.plans) (hmany : p.mode = .many)
    {column : String} {unique : Bool} (hlink : p.link = .targetKey column unique) :
    db.layout.column? p.target column = some (.key column p.list false) := by
  obtain ⟨-, -, -, -, hone⟩ := h.planned.exists_owner hp hlink
  have hunique : unique = false := by
    rw [← Bool.not_eq_true, hone, hmany]
    exact nofun
  rw [(h.keeps hp).targetKey column unique hlink, hunique]

theorem runAll_connect (h : db.Compiles d) (hp : p ∈ db.schema.plans) (hmany : p.mode = .many)
    (s : Store) (i : Int) (ts : List Int) :
    LinkStatement.runAll db s (p.connectStatements s i ts) = .ok (s.connect p i ts) := by
  by_cases hts : ts = []
  · subst hts
    rfl
  · have hlast := List.getLast?_eq_some_getLast hts
    cases h.toMany hp hmany with
    | targetKey _ hlink _ =>
      simp only [RelationPlan.connectStatements, Store.connect, hlast, hlink, hmany,
        LinkStatement.runAll_singleton]
      exact LinkStatement.run_write (h.column?_many hp hmany hlink) rfl rfl (some i) _
    | @join table side hlink =>
      have hnew : ((ts.eraseDups.map (side.pair i)).filter
          fun x => !(s.pairs table).contains x).Nodup :=
        ((Store.eraseDups_nodup _ ts le_rfl).map fun _ _ heq => (JoinSide.pair_inj heq).2).filter _
      have hfresh : ∀ x ∈ (ts.eraseDups.map (side.pair i)).filter
          (fun x => !(s.pairs table).contains x), x ∉ s.pairs table := by
        intro x hx
        simpa using (List.mem_filter.1 hx).2
      simp only [RelationPlan.connectStatements, Store.connect, hlast, hlink,
        LinkStatement.runAll_singleton, LinkStatement.run, Store.map_filter_partners,
        insertPairs_eq_ok table hnew hfresh, Store.addPairs_eq]
      rfl

theorem run_disconnect (h : db.Compiles d) (hp : p ∈ db.schema.plans) (hmany : p.mode = .many)
    (s : Store) (i : Int) (among : Int → Bool) :
    (p.disconnectStatement i among).run db s = .ok (s.unlink p i among) := by
  cases h.toMany hp hmany with
  | targetKey _ hlink _ =>
    simp only [RelationPlan.disconnectStatement, Store.unlink, hlink]
    exact LinkStatement.run_write (h.column?_many hp hmany hlink) rfl rfl none _
  | join hlink =>
    simp only [RelationPlan.disconnectStatement, Store.unlink, hlink]
    rfl

/-- No call on a relation to many is refused. -/
theorem run_call (h : db.Compiles d) (hp : p ∈ db.schema.plans) (hmany : p.mode = .many)
    (s : Store) (i : Int) (c : LinkCall) : c.run db p i s = .ok (c.apply p i s) := by
  cases c with
  | connect ts => exact h.runAll_connect hp hmany s i ts
  | disconnect ts => exact h.run_disconnect hp hmany s i _
  | set ts =>
    refine Except.bind_eq_ok.2 ⟨_, h.run_disconnect hp hmany s i _, ?_⟩
    exact h.runAll_connect hp hmany _ i ts

end Database.Compiles

/-! ## Other owners -/

namespace Store

variable {s : Store} {p : RelationPlan} {i o t : Int} {ts : List Int}

/-- What is connected to an owner leaves another one where a target has one owner. -/
theorem mem_linked_connect_of_ne (hp : p.ToMany) (ho : o ≠ i) :
    t ∈ (s.connect p i ts).linked p o ↔
      t ∈ s.linked p o ∧ ¬ (p.isExclusive = true ∧ t ∈ ts) := by
  by_cases hts : ts = []
  · subst hts
    simp [connect_nil]
  · cases hp with
    | @targetKey column unique hmode hlink hid =>
      have hexclusive : p.isExclusive = true := by simp only [RelationPlan.isExclusive, hlink]
      have hconnect : s.connect p i ts =
          s.writeKey p.target column i fun r => ts.contains r.id :=
        connect_targetKey hmode hlink s i hts
      rw [hconnect, mem_linked_targetKey hlink, mem_linked_targetKey hlink,
        hasKey_writeKey hid fun r hx => by rw [List.contains_iff_mem, hx],
        and_iff_right hexclusive]
      constructor
      · rintro (⟨-, heq, -⟩ | ⟨hnot, hkey⟩)
        · exact absurd heq ho
        · exact ⟨hkey, hnot⟩
      · rintro ⟨hkey, hnot⟩
        exact .inr ⟨hnot, hkey⟩
    | join hlink =>
      have hexclusive : p.isExclusive = false := by simp only [RelationPlan.isExclusive, hlink]
      rw [connect_join hlink s i hts, mem_linked_join hlink, mem_linked_join hlink,
        pairs_setPairs, if_pos rfl, ids_setPairs, mem_addPairs]
      constructor
      · rintro ⟨hids, hpair | ⟨x, -, heq⟩⟩
        · exact ⟨⟨hids, hpair⟩, by simp [hexclusive]⟩
        · exact absurd (JoinSide.pair_inj heq).1.symm ho
      · rintro ⟨⟨hids, hpair⟩, -⟩
        exact ⟨hids, .inl hpair⟩

/-- To disconnect targets of one owner leaves all others theirs. -/
theorem mem_linked_unlink_of_ne (hp : p.ToMany) (ho : o ≠ i) {among : Int → Bool} :
    t ∈ (s.unlink p i among).linked p o ↔ t ∈ s.linked p o := by
  cases hp with
  | @targetKey column unique _ hlink hid =>
    have hunlink : s.unlink p i among =
        s.clearKey p.target column fun r => (r.cell column).isKey i && among r.id :=
      unlink_targetKey hlink s i among
    rw [hunlink, mem_linked_targetKey hlink, mem_linked_targetKey hlink,
      hasKey_clearKey hid (P := False) fun r _ hcell => ?_, and_iff_left not_false]
    simp [hcell, Cell.isKey, ho]
  | join hlink =>
    rw [unlink_join hlink, mem_linked_join hlink, mem_linked_join hlink, pairs_setPairs,
      if_pos rfl, ids_setPairs, List.mem_filter]
    refine and_congr_right fun _ => and_iff_left ?_
    rw [Bool.not_eq_true', ← Bool.not_eq_true, isPairOf_iff]
    rintro ⟨x, heq, -⟩
    exact ho (JoinSide.pair_inj heq).1.symm

end Store

/-! ## Links as sets -/

/-- The ids of the records that a relation yields for an owner. -/
def Database.linkedTo (db : Database) (s : Store) (list field : String) (o : Int) : Set Int :=
  {t | ∃ rows, db.findRelated s list field o {} = .ok rows ∧ t ∈ rows.map (·.id)}

theorem Database.linkedTo_eq {db : Database} {list field : String} {p : RelationPlan}
    (hp : db.plan list field = .ok p) (s : Store) (o : Int) :
    db.linkedTo s list field o = {t | t ∈ s.linked p o} := by
  obtain ⟨rows, hrows, hperm⟩ := findRelated_all hp s o
  ext t
  constructor
  · rintro ⟨rows', hrows', ht⟩
    obtain rfl := Except.ok.inj (hrows.symm.trans hrows')
    exact hperm.mem_iff.1 ht
  · intro ht
    exact ⟨rows, hrows, hperm.mem_iff.2 ht⟩

namespace LinkCall

variable {c : LinkCall} {s : Store} {p : RelationPlan} {i : Int}

/-- The owner has what the call names and what it leaves. -/
theorem linked_apply_self (hp : p.ToMany) (hc : ∀ t ∈ c.targets, t ∈ s.ids p.target) :
    {t | t ∈ (c.apply p i s).linked p i} =
      c.links p.isExclusive i (fun o => {t | t ∈ s.linked p o}) i := by
  unfold links
  rw [if_pos rfl]
  ext t
  cases c with
  | connect ts =>
    exact (Store.mem_linked_connect hp).trans (or_congr_right (and_iff_left_of_imp (hc t)))
  | disconnect ts =>
    cases ts with
    | none =>
      refine (Store.mem_linked_unlink hp).trans (iff_of_false ?_ (Set.notMem_empty t))
      rintro ⟨-, hgone⟩
      cases hgone
    | some ts => exact Store.mem_linked_disconnect hp
  | set ts => exact (Store.mem_linked_setRelated hp).trans (and_iff_left_of_imp (hc t))

/-- Another owner has what it had, up to what is taken over. -/
theorem linked_apply_of_ne (hp : p.ToMany) {o : Int} (ho : o ≠ i) :
    {t | t ∈ (c.apply p i s).linked p o} =
      c.links p.isExclusive i (fun o => {t | t ∈ s.linked p o}) o := by
  have htaken {s : Store} (ts : List Int) : {t | t ∈ (s.connect p i ts).linked p o} =
      if p.isExclusive then {t | t ∈ s.linked p o} \ {t | t ∈ ts} else {t | t ∈ s.linked p o} := by
    ext t
    refine (Store.mem_linked_connect_of_ne hp ho).trans ?_
    cases p.isExclusive <;> simp
  have hkept (among : Int → Bool) : {t | t ∈ (s.unlink p i among).linked p o} =
      {t | t ∈ s.linked p o} :=
    Set.ext fun t => Store.mem_linked_unlink_of_ne hp ho
  unfold links
  rw [if_neg ho]
  cases c with
  | connect ts => exact htaken ts
  | disconnect ts => exact hkept _
  | set ts =>
    rw [apply, Store.setRelated, htaken, Store.disconnect, hkept]

theorem keepsBut_apply (c : LinkCall) (s : Store) (p : RelationPlan) (i : Int) :
    s.KeepsBut p.place (c.apply p i s) := by
  cases c with
  | connect ts => exact s.keepsBut_connect p i ts
  | disconnect ts => exact s.keepsBut_unlink p i _
  | set ts => exact (s.keepsBut_unlink p i _).trans (Store.keepsBut_connect _ p i ts)

theorem apply_apply (hp : p.ToMany) (c : LinkCall) (s : Store) (i : Int) :
    c.apply p i (c.apply p i s) = c.apply p i s := by
  cases c with
  | connect ts => exact Store.connect_connect hp s i ts
  | disconnect ts => exact Store.unlink_unlink hp s i _
  | set ts => exact Store.setRelated_setRelated hp s i ts

end LinkCall

/-- A call on the links of an owner to existing records does to the sets of linked ids
what is said of it, of this owner and of all others. It touches nothing but the place
where the links are kept, is not refused, and does nothing when it is repeated. -/
theorem Database.Compiles.linkedTo_call {db : Database} {d : Declarations} (h : db.Compiles d)
    {list field : String} {p : RelationPlan} (hplan : db.plan list field = .ok p)
    (hmany : p.mode = .many) (s : Store) (i : Int) (c : LinkCall)
    (hc : ∀ t ∈ c.targets, t ∈ s.ids p.target) :
    ∃ s', c.run db p i s = .ok s' ∧ s' = c.apply p i s ∧
      (∀ o, (db.findRelated s list field o {}).isOk ∧ (db.findRelated s' list field o {}).isOk) ∧
      (∀ o, db.linkedTo s' list field o =
        c.links p.isExclusive i (db.linkedTo s list field) o) ∧
      s.KeepsBut p.place s' ∧ c.run db p i s' = .ok s' := by
  obtain ⟨hp, -⟩ := Database.plan_ok hplan
  have hto := h.toMany hp hmany
  refine ⟨c.apply p i s, h.run_call hp hmany s i c, rfl, fun o => ?_, fun o => ?_,
    c.keepsBut_apply s p i, ?_⟩
  · obtain ⟨rows, hrows, -⟩ := findRelated_all hplan s o
    obtain ⟨rows', hrows', -⟩ := findRelated_all hplan (c.apply p i s) o
    exact ⟨Except.isOk_iff.2 ⟨rows, hrows⟩, Except.isOk_iff.2 ⟨rows', hrows'⟩⟩
  · rw [linkedTo_eq hplan, funext fun o => linkedTo_eq hplan s o]
    by_cases ho : o = i
    · subst ho
      exact LinkCall.linked_apply_self hto hc
    · exact LinkCall.linked_apply_of_ne hto ho
  · rw [h.run_call hp hmany, LinkCall.apply_apply hto]

/-! ## Chairs in rooms -/

/-- A schema of rooms with chairs, each chair in one room, and with guests. -/
def rooms : Declarations :=
  ((({} : Declarations).declare {
    key := "Room"
    specs := [
      ("chairs", .relationship { ref := "Chair.room", many := true }),
      ("guests", .relationship { ref := "Guest", many := true })] }).declare {
    key := "Chair"
    specs := [("room", .relationship { ref := "Room.chairs" })] }).declare {
    key := "Guest"
    specs := [("name", .scalar .text {})] }

def chairsPlan : RelationPlan :=
  ⟨"Room", "chairs", "Chair", .many, .targetKey "room_id" false⟩

def guestsPlan : RelationPlan :=
  ⟨"Room", "guests", "Guest", .many, .join "_Room_guests" .first⟩

/-- Two rooms with a chair each, a chair in none of them, and a guest of both. -/
def roomStore : Store where
  tables := [
    ("Room", [⟨1, []⟩, ⟨2, []⟩]),
    ("Chair", [⟨1, [("room_id", .int 1)]⟩, ⟨2, [("room_id", .int 2)]⟩, ⟨3, []⟩]),
    ("Guest", [⟨1, []⟩, ⟨2, []⟩])]
  joins := [("_Room_guests", [(1, 1), (2, 1)])]

/-- The facts about rooms that are evaluated, in one go. -/
theorem rooms_facts :
    rooms.database.isOk = true ∧
      (rooms.database.result.plan "Room" "chairs").toOption = some chairsPlan ∧
      (rooms.database.result.plan "Room" "guests").toOption = some guestsPlan := by
  decide +kernel

theorem rooms_compiles : rooms.database.result.Compiles rooms :=
  Declarations.Declared.compiles
    (.declare (.declare (.declare (.start _ _ _) (by decide)) (by decide)) (by decide))
    rooms_facts.1

/-- The first room takes over the chair of the second one, which keeps its guest when
the first room is given more guests. -/
theorem linkedTo_call_rooms :
    (∃ s', (LinkCall.set [2, 3, 2]).run rooms.database.result chairsPlan 1 roomStore = .ok s' ∧
      rooms.database.result.linkedTo s' "Room" "chairs" 1 = {t | t ∈ [2, 3, 2]} ∧
      rooms.database.result.linkedTo s' "Room" "chairs" 2 =
        rooms.database.result.linkedTo roomStore "Room" "chairs" 2 \ {t | t ∈ [2, 3, 2]}) ∧
      ∃ s', (LinkCall.connect [1, 2, 2]).run rooms.database.result guestsPlan 1 roomStore =
          .ok s' ∧
        rooms.database.result.linkedTo s' "Room" "guests" 1 =
          rooms.database.result.linkedTo roomStore "Room" "guests" 1 ∪ {t | t ∈ [1, 2, 2]} ∧
        rooms.database.result.linkedTo s' "Room" "guests" 2 =
          rooms.database.result.linkedTo roomStore "Room" "guests" 2 := by
  obtain ⟨-, hchairs, hguests⟩ := rooms_facts
  obtain ⟨s', hrun, -, -, hlinks, -⟩ := rooms_compiles.linkedTo_call
    (Except.eq_ok_of_toOption hchairs) rfl roomStore 1 (.set [2, 3, 2]) (by decide +kernel)
  obtain ⟨s'', hrun', -, -, hlinks', -⟩ := rooms_compiles.linkedTo_call
    (Except.eq_ok_of_toOption hguests) rfl roomStore 1 (.connect [1, 2, 2])
    (by decide +kernel)
  exact ⟨⟨s', hrun, hlinks 1, hlinks 2⟩, s'', hrun', hlinks' 1, hlinks' 2⟩

end RecordSchema
