import RecordSchema.Proofs.Request.Steps

/-!
# What creation leaves alone

Creating a record adds rows and writes links. Whatever it creates on the
way, every row that was there keeps its place under its id and all cells
but its keys (`Database.KeepsRows.of_steps`). So the row of a new record still
holds what was inserted when its links are done.

Unlike `Database.Extends` this asks nothing of the store: a row is found
by its id before any that was added behind it.
-/

namespace RecordSchema

/-! ## Stores -/

/-- Whether a store has every row of another one, up to key columns. -/
def Database.KeepsRows (db : Database) (s s' : Store) : Prop :=
  ∀ list id r, s.row? list id = some r → ∃ r', s'.row? list id = some r' ∧
    Row.AgreeOn (fun column => ¬ db.IsKey list column) r r'

namespace Database.KeepsRows

variable {db : Database} {s s' s'' : Store}

theorem refl (db : Database) (s : Store) : db.KeepsRows s s :=
  fun _ _ r hr => ⟨r, hr, rfl, fun _ _ => rfl⟩

theorem trans (h : db.KeepsRows s s') (h' : db.KeepsRows s' s'') : db.KeepsRows s s'' := by
  intro list id r hr
  obtain ⟨r', hr', hid, hcells⟩ := h list id r hr
  obtain ⟨r'', hr'', hid', hcells'⟩ := h' list id r' hr'
  exact ⟨r'', hr'', hid.trans hid', fun column hc => (hcells column hc).trans (hcells' column hc)⟩

/-- Rows that agree in order are found under the same ids. -/
theorem of_sameFields (h : db.SameFields s s') : db.KeepsRows s s' := by
  intro list id r hr
  have hrows := h.row? list id
  rw [hr] at hrows
  cases hrows' : s'.row? list id with
  | none =>
    rw [hrows'] at hrows
    cases hrows
  | some r' =>
    rw [hrows'] at hrows
    obtain ⟨hagree⟩ := hrows
    exact ⟨r', rfl, hagree⟩

theorem of_append (s : Store) (list : String) (row : Row) :
    db.KeepsRows s (s.setRows list (s.rows list ++ [row])) := by
  intro other id r hr
  refine ⟨r, ?_, rfl, fun _ _ => rfl⟩
  unfold Store.row? at hr ⊢
  rw [Store.rows_setRows]
  split
  · next heq =>
    subst heq
    rw [List.find?_append, hr, Option.some_or]
  · exact hr

end Database.KeepsRows

/-! ## Steps -/

theorem Database.Step.keepsRows {db : Database} {d : Declarations} {s m : Session}
    (h : db.Step s m) (hd : db.Compiles d) : db.KeepsRows s.store m.store := by
  cases h with
  | fill => exact .refl db s.store
  | insert hl hi =>
    obtain ⟨rfl, -⟩ := hd.insert_ok hl hi
    exact .of_append s.store _ _
  | connect hp id ts => exact .of_sameFields (hd.sameFields_connect hp s.store id ts)
  | disconnect hp id ts => exact .of_sameFields (hd.sameFields_unlink hp s.store id _)

/-- Steps of creation keep all rows. -/
theorem Database.KeepsRows.of_steps {db : Database} {d : Declarations} {s m : Session}
    (h : Relation.ReflTransGen db.Step s m) (hd : db.Compiles d) :
    db.KeepsRows s.store m.store := by
  induction h with
  | refl => exact .refl db s.store
  | tail _ hstep ih => exact ih.trans (hstep.keepsRows hd)

end RecordSchema
