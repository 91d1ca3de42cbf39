import RecordSchema.Store.Record

/-!
# Numbering on

A numbered column goes on from the largest number that it holds, whether
storage gave it or a client, and starts with one. Only the numbers
decide on the next one (`Cell.next`), so cells that are numbered one
after the other hold consecutive numbers (`Cell.next_counted`).
-/

namespace RecordSchema

namespace Cell

variable {cells : List Cell} {n : Int}

/-- The number that a cell holds. -/
def number? : Cell → Option Int
  | .int n => some n
  | _ => none

/-- The number behind those of a column: one more than the largest, and one at first. -/
def next (cells : List Cell) : Int :=
  ((cells.filterMap number?).max?.map (· + 1)).getD 1

/-- Whether a cell holds a number or nothing. -/
def IsWhole (c : Cell) : Prop :=
  c = .null ∨ ∃ n, c = .int n

/-- Whether a number is the next one of a column. What the column holds are smaller numbers: the
one before it among them, or none at all, and then it is one. -/
structure Follows (cells : List Cell) (n : Int) : Prop where
  greater : ∀ c ∈ cells, c = .null ∨ ∃ m < n, c = .int m
  before : .int (n - 1) ∈ cells ∨ (∀ c ∈ cells, c = .null) ∧ n = 1

/-- So many cells that are numbered one after the other. -/
def counted (n : Int) (k : Nat) : List Cell :=
  (List.range k).map fun i : Nat => .int (n + i)

theorem mem_filterMap_number? : n ∈ cells.filterMap number? ↔ .int n ∈ cells := by
  simp only [List.mem_filterMap]
  constructor
  · rintro ⟨c, hc, hn⟩
    cases c <;> cases hn
    exact hc
  · exact fun h => ⟨_, h, rfl⟩

theorem lt_next (h : .int n ∈ cells) : n < next cells := by
  have hmem := mem_filterMap_number?.2 h
  unfold next
  cases hmax : (cells.filterMap number?).max? with
  | none =>
    rw [List.max?_eq_none_iff.1 hmax] at hmem
    cases hmem
  | some m => exact Int.lt_add_one_of_le ((List.max?_eq_some_iff.1 hmax).2 n hmem)

/-- The number behind those of a column follows them when there is nothing else. -/
theorem follows_next (h : ∀ c ∈ cells, c.IsWhole) : Follows cells (next cells) where
  greater c hc := by
    refine (h c hc).imp_right ?_
    rintro ⟨n, rfl⟩
    exact ⟨n, lt_next hc, rfl⟩
  before := by
    unfold next
    cases hmax : (cells.filterMap number?).max? with
    | none =>
      refine .inr ⟨fun c hc => ?_, rfl⟩
      rcases h c hc with hnull | ⟨n, rfl⟩
      · exact hnull
      · have hmem := mem_filterMap_number?.2 hc
        rw [List.max?_eq_none_iff.1 hmax] at hmem
        cases hmem
    | some m =>
      have hmem := mem_filterMap_number?.1 (List.max?_eq_some_iff.1 hmax).1
      exact .inl (by simpa using hmem)

/-- Numbers below zero are gone on from as well. -/
example : next [.int (-7), .null, .int (-5)] = -4 := rfl

/-- There is one number that follows those of a column. -/
theorem Follows.eq_next (h : Follows cells n) : n = next cells := by
  unfold next
  cases hmax : (cells.filterMap number?).max? with
  | none =>
    rcases h.before with hmem | ⟨-, rfl⟩
    · have hmem := mem_filterMap_number?.2 hmem
      rw [List.max?_eq_none_iff.1 hmax] at hmem
      cases hmem
    · rfl
  | some m =>
    obtain ⟨hmem, hle⟩ := List.max?_eq_some_iff.1 hmax
    have hm := mem_filterMap_number?.1 hmem
    obtain hnull | ⟨_, hlt, heq⟩ := h.greater _ hm
    · cases hnull
    cases heq
    rcases h.before with hbefore | ⟨hnulls, -⟩
    · have hge := hle _ (mem_filterMap_number?.2 hbefore)
      change n = m + 1
      omega
    · cases hnulls _ hm

/-- A column that is numbered on has the next number in the next place. -/
theorem next_concat (cells : List Cell) : next (cells ++ [int (next cells)]) = next cells + 1 := by
  have hmax : ((cells ++ [int (next cells)]).filterMap number?).max? = some (next cells) := by
    rw [List.filterMap_append]
    change (_ ++ [next cells]).max? = _
    refine List.max?_eq_some_iff.2 ⟨List.mem_append_right _ (List.mem_singleton_self _), ?_⟩
    intro m hm
    rcases List.mem_append.1 hm with hm | hm
    · exact Int.le_of_lt (lt_next (mem_filterMap_number?.1 hm))
    · exact Int.le_of_eq (List.mem_singleton.1 hm)
  rw [next, hmax]
  rfl

theorem counted_succ (n : Int) (k : Nat) : counted n (k + 1) = counted n k ++ [.int (n + k)] := by
  rw [counted, List.range_succ, List.map_append]
  rfl

theorem next_counted (cells : List Cell) (k : Nat) :
    next (cells ++ counted (next cells) k) = next cells + k := by
  induction k with
  | zero => simp [counted]
  | succ k ih =>
    rw [counted_succ, ← List.append_assoc, ← ih, next_concat, ih]
    push_cast
    omega

theorem counted_add (n : Int) (j k : Nat) :
    counted n (j + k) = counted n j ++ counted (n + j) k := by
  simp [counted, List.range_add, Function.comp_def, Int.add_assoc]

end Cell

/-- The cells of a column, row by row. -/
def Store.column (s : Store) (list column : String) : List Cell :=
  (s.rows list).map (·.cell column)

/-- Whether a column has some more rows than before, numbered one after the other. -/
def Store.Counts (s s' : Store) (list column : String) : Prop :=
  ∃ k, s'.column list column =
    s.column list column ++ Cell.counted (Cell.next (s.column list column)) k

namespace Store

variable {s s' s'' : Store} {list other column : String}

theorem mem_column {r : Row} (hr : r ∈ s.rows list) (column : String) :
    r.cell column ∈ s.column list column :=
  List.mem_map_of_mem hr

theorem column_of_rows (h : s'.rows list = s.rows list) :
    s'.column list column = s.column list column := by
  rw [Store.column, h, Store.column]

theorem column_append (s : Store) (list column : String) (r : Row) :
    (s.setRows list (s.rows list ++ [r])).column list column =
      s.column list column ++ [r.cell column] := by
  rw [Store.column, rows_setRows, if_pos rfl, List.map_append]
  rfl

theorem Counts.of_eq (h : s'.column list column = s.column list column) :
    s.Counts s' list column :=
  ⟨0, h.trans (List.append_nil _).symm⟩

theorem Counts.trans (h : s.Counts s' list column) (h' : s'.Counts s'' list column) :
    s.Counts s'' list column := by
  obtain ⟨j, hj⟩ := h
  obtain ⟨k, hk⟩ := h'
  refine ⟨j + k, ?_⟩
  rw [hk, hj, Cell.next_counted, Cell.counted_add, List.append_assoc]

/-- A column that counts on to a number that it did not hold has grown. -/
theorem Counts.exists_succ (h : s.Counts s' list column)
    (hnew : .int (Cell.next (s.column list column)) ∈ s'.column list column) :
    ∃ k, s'.column list column =
      s.column list column ++ Cell.counted (Cell.next (s.column list column)) (k + 1) := by
  obtain ⟨k, hk⟩ := h
  cases k with
  | zero =>
    rw [hk] at hnew
    have hold := Cell.lt_next ((List.append_nil (s.column list column)).subst hnew)
    exact absurd hold (Int.lt_irrefl _)
  | succ k => exact ⟨k, hk⟩

end Store

theorem TableLayout.nextNumber_eq (rows : List Row) (column : String) :
    nextNumber rows column = Cell.next (rows.map (·.cell column)) := by
  have hnumbers : (rows.map (·.cell column)).filterMap Cell.number? =
      rows.filterMap fun r => (r.cell column).number? := by
    rw [List.filterMap_map]
    rfl
  unfold nextNumber
  dsimp only
  split
  · next hnone =>
    rw [Cell.next, hnumbers.trans hnone]
    rfl
  · next n ns hsome =>
    rw [Cell.next, hnumbers.trans hsome]
    rfl

end RecordSchema
