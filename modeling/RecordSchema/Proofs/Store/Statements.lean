import RecordSchema.Proofs.Store.Keys
import RecordSchema.Proofs.Success

/-!
# Statements on key columns

Storage changes a key column row by row, and refuses a key that another
row holds when the column is unique (`KeyWrite.run`). A link is moved by
two statements, one that empties the column wherever it has the key and
one that writes it. Neither is ever refused, so moving a link needs no
check of its own.
-/

namespace RecordSchema

/-- A statement that writes or empties a key column of some rows. -/
structure KeyWrite where
  list : String
  column : String
  unique : Bool
  key : Option Int
  selects : Row → Bool

namespace KeyWrite

/-- What the statement writes. -/
def cell (w : KeyWrite) : Cell :=
  match w.key with
  | some k => .int k
  | none => .null

/-- What the statement makes of a row. -/
def change (w : KeyWrite) (r : Row) : Row :=
  if w.selects r then r.set w.column w.cell else r

/-- Whether the key of the statement must not be held besides other rows. -/
def collides (w : KeyWrite) (others : List Row) : Bool :=
  w.unique && w.key.any fun k => others.any fun o => (o.cell w.column).isKey k

/-- Changes rows in order; those before them are done. -/
def sweep (w : KeyWrite) (done : List Row) : List Row → Except Fault (List Row)
  | [] => .ok done
  | r :: rest =>
    if w.selects r && w.collides (done ++ rest) then
      .error (.constraint (.unique w.list [w.column]))
    else w.sweep (done ++ [w.change r]) rest

/-- Runs the statement. -/
def run (w : KeyWrite) (s : Store) : Except Fault Store :=
  (w.sweep [] (s.rows w.list)).map (s.setRows w.list)

/-- Runs statements up to the first that is refused. -/
def runAll : List KeyWrite → Store → Except Fault Store
  | [], s => .ok s
  | w :: ws, s => do runAll ws (← w.run s)

/-! ## Statements that are not refused -/

variable {w : KeyWrite} {s : Store}

/-- All rows are changed when none of them collides at its turn. -/
theorem sweep_eq_ok {done rest : List Row}
    (h : ∀ pre r post, rest = pre ++ r :: post → w.selects r = true →
      w.collides (done ++ pre.map w.change ++ post) = false) :
    w.sweep done rest = .ok (done ++ rest.map w.change) := by
  induction rest generalizing done with
  | nil => rw [sweep, List.map_nil, List.append_nil]
  | cons r rest ih =>
    have hfree : (w.selects r && w.collides (done ++ rest)) = false := by
      cases hr : w.selects r with
      | false => rfl
      | true => simpa using h [] r rest rfl hr
    rw [sweep, hfree, if_neg Bool.false_ne_true, ih, List.map_cons, List.append_assoc,
      List.singleton_append]
    intro pre o post heq ho
    have hlater := h (r :: pre) o post (by rw [heq, List.cons_append]) ho
    rwa [List.map_cons, ← List.singleton_append, ← List.append_assoc] at hlater

theorem run_eq_ok (h : ∀ pre r post, s.rows w.list = pre ++ r :: post → w.selects r = true →
      w.collides (pre.map w.change ++ post) = false) :
    w.run s = .ok (s.modifyRows w.list w.selects fun r => r.set w.column w.cell) := by
  rw [run, sweep_eq_ok (by simpa only [List.nil_append] using h)]
  rfl

/-- Emptying a column is never refused. -/
theorem run_clear (list column : String) (unique : Bool) (q : Row → Bool) :
    run ⟨list, column, unique, none, q⟩ s = .ok (s.clearKey list column q) :=
  run_eq_ok fun _ _ _ _ _ => Bool.and_false unique

/-- Giving one row a key that no row holds is never refused. -/
theorem run_write (hs : s.Keyed) {list column : String} (unique : Bool) {key : Int} (row : Int)
    (hfree : ∀ x, ¬ s.HasKey list column x key) :
    run ⟨list, column, unique, some key, fun r => r.id == row⟩ s =
      .ok (s.writeKey list column key fun r => r.id == row) := by
  refine run_eq_ok fun pre r post heq hr => ?_
  obtain rfl : r.id = row := eq_of_beq hr
  dsimp only at heq
  have hids := hs list
  rw [Store.ids, heq, List.map_append, List.map_cons, List.nodup_middle, List.nodup_cons,
    List.mem_append, not_or] at hids
  have hnone : ∀ o ∈ pre ++ post, (o.cell column).isKey key = false := by
    intro o ho
    rw [← Bool.not_eq_true, Cell.isKey_iff]
    intro hcell
    refine hfree o.id ⟨o, ?_, rfl, hcell⟩
    rw [heq]
    exact (List.Sublist.append_left (List.sublist_cons_self r post) pre).subset ho
  have hsame : pre.map (change ⟨list, column, unique, some key, fun o => o.id == r.id⟩) = pre := by
    refine (List.map_congr_left fun o ho => if_neg fun heq => ?_).trans (List.map_id pre)
    exact hids.1.1 (List.mem_map.2 ⟨o, ho, eq_of_beq heq⟩)
  rw [hsame, collides, Option.any_some, List.any_eq_false.2 fun o ho => by simp [hnone o ho],
    Bool.and_false]

/-! ## Moving a key -/

/-- The statements that move a key to a row. -/
def moving (list column : String) (unique : Bool) (row key : Int) : List KeyWrite :=
  [⟨list, column, unique, none, fun r => (r.cell column).isKey key⟩,
    ⟨list, column, unique, some key, fun r => r.id == row⟩]

theorem runAll_moving (hs : s.Keyed) {list column : String} (hid : column ≠ "id") (unique : Bool)
    (row key : Int) :
    runAll (moving list column unique row key) s = .ok (s.moveKey list column row key) := by
  have hkeyed : (s.clearKey list column fun r => (r.cell column).isKey key).Keyed := fun other => by
    rw [Store.ids_clearKey]
    exact hs other
  have hfree (x : Int) : ¬ (s.clearKey list column fun r => (r.cell column).isKey key).HasKey
      list column x key := by
    intro h
    refine ((Store.hasKey_clearKey hid fun r _ hcell => ?_).1 h).2 trivial
    simp [hcell, Cell.isKey]
  rw [moving, runAll, run_clear]
  refine Except.bind_eq_ok.2 ⟨_, rfl, ?_⟩
  exact Except.bind_eq_ok.2 ⟨_, run_write hkeyed unique row hfree, rfl⟩

end KeyWrite

end RecordSchema
