import Mathlib.Algebra.Order.Field.Basic
import Mathlib.Algebra.Order.Ring.Rat
import Mathlib.Data.Prod.Lex
import Mathlib.Order.WithBot
import Mathlib.Tactic.NormNum
import RecordSchema.Proofs.Store.Numbers
import RecordSchema.Proofs.Store.Searching

/-!
# The order of rows

Rows come in a strict total order. Every cell has a place
(`Cell.place`): its kind, then its value as an exact number between the
infinities, then its text; `Cell.order` compares places. Rows are
compared by the places of some of their cells, a descending key the
other way round, and at last by id, so no two rows tie
(`Store.select_pairwise`).

What is not a number compares with nothing and has no place, so all of
this is about rows without it (`Row.IsOrdered`).
-/

namespace RecordSchema

/-! ## Exact numbers -/

namespace Binary64

/-- The value of a number, between the infinities. -/
def exact : Binary64 → WithBot (WithTop ℚ)
  | .nan => ((0 : ℚ) : WithTop ℚ)
  | .infinity s => if s then ⊥ else (⊤ : WithTop ℚ)
  | .finite s m e => (((signedRatio s m e).1 / (signedRatio s m e).2 : ℚ) : WithTop ℚ)

theorem signedRatio_pos (s : Bool) (m : Nat) (e : Int) : 0 < (signedRatio s m e).2 := by
  simp only [signedRatio, ratio]
  split
  · exact Nat.pow_pos (by decide)
  · exact Nat.one_pos

/-- Quotients are compared by multiplying crosswise. -/
theorem compare_quotients (a c : Int) {b d : Nat} (hb : 0 < b) (hd : 0 < d) :
    compare (a * d) (c * b) = compare (a / b : ℚ) (c / d) := by
  have hb' : (0 : ℚ) < b := by exact_mod_cast hb
  have hd' : (0 : ℚ) < d := by exact_mod_cast hd
  rcases lt_trichotomy (a * d) (c * b) with h | h | h
  · rw [compare_lt_iff_lt.2 h, eq_comm, compare_lt_iff_lt, div_lt_div_iff₀ hb' hd']
    exact_mod_cast h
  · rw [compare_eq_iff_eq.2 h, eq_comm, compare_eq_iff_eq, div_eq_div_iff hb'.ne' hd'.ne']
    exact_mod_cast h
  · rw [compare_gt_iff_gt.2 h, eq_comm, compare_gt_iff_gt, div_lt_div_iff₀ hd' hb']
    exact_mod_cast h

theorem compare_coe (x y : ℚ) :
    compare ((x : WithTop ℚ) : WithBot (WithTop ℚ)) (y : WithTop ℚ) = compare x y := by
  rw [compare_iff]
  have h := (compare_iff x y).1 rfl
  cases hxy : compare x y <;> simpa [hxy, Ordering.Compares] using h

theorem compare?_eq {x y : Binary64} (hx : x ≠ .nan) (hy : y ≠ .nan) :
    x.compare? y = some (compare x.exact y.exact) := by
  match x, y with
  | .infinity s, .infinity t => revert s t; decide
  | .infinity true, .finite .. =>
    exact congrArg some (compare_lt_iff_lt.2 (WithBot.bot_lt_coe _)).symm
  | .infinity false, .finite .. =>
    exact congrArg some (compare_gt_iff_gt.2 (WithBot.coe_lt_coe.2 (WithTop.coe_lt_top _))).symm
  | .finite .., .infinity true =>
    exact congrArg some (compare_gt_iff_gt.2 (WithBot.bot_lt_coe _)).symm
  | .finite .., .infinity false =>
    exact congrArg some (compare_lt_iff_lt.2 (WithBot.coe_lt_coe.2 (WithTop.coe_lt_top _))).symm
  | .finite s m e, .finite t n f =>
    simp only [compare?, exact, compare_coe]
    rw [compare_quotients _ _ (signedRatio_pos s m e) (signedRatio_pos t n f)]

theorem compareInt?_eq {x : Binary64} (hx : x ≠ .nan) (n : Int) :
    x.compareInt? n = some (compare x.exact ((n : ℚ) : WithTop ℚ)) := by
  match x with
  | .infinity true =>
    exact congrArg some (compare_lt_iff_lt.2 (WithBot.bot_lt_coe _)).symm
  | .infinity false =>
    exact congrArg some (compare_gt_iff_gt.2 (WithBot.coe_lt_coe.2 (WithTop.coe_lt_top _))).symm
  | .finite s m e =>
    simp only [compareInt?, exact, compare_coe]
    simpa using compare_quotients (signedRatio s m e).1 n (signedRatio_pos s m e) Nat.one_pos

end Binary64

/-! ## Places of cells -/

namespace Cell

def magnitude : Cell → WithBot (WithTop ℚ)
  | .int n => ((n : ℚ) : WithTop ℚ)
  | .real x => x.exact
  | _ => ((0 : ℚ) : WithTop ℚ)

def label (c : Cell) : String :=
  if c.rank = 2 then c.shown else ""

/-- The place of a cell in the order of cells: its kind, then what counts in it. -/
def place (c : Cell) : ℕ ×ₗ (WithBot (WithTop ℚ) ×ₗ String) :=
  toLex (c.rank, toLex (c.magnitude, c.label))

theorem compare_place (a b : Cell) : compare a.place b.place =
    (compare a.rank b.rank).then
      ((compare a.magnitude b.magnitude).then (compare a.label b.label)) := by
  simp only [Prod.Lex.compare_def, compareLex, compareOn, place, ofLex_toLex]

theorem compareNumbers_eq {a b : Cell} (ha : a.isNaN = false) (hb : b.isNaN = false)
    (har : a.rank = 1) (hbr : b.rank = 1) :
    a.compareNumbers b = compare a.magnitude b.magnitude := by
  have hnan {x : Binary64} (h : (Cell.real x).isNaN = false) : x ≠ .nan := by
    rintro rfl
    cases h
  match a, b with
  | .int m, .int n =>
    simpa [compareNumbers, magnitude, Binary64.compare_coe] using
      Binary64.compare_quotients m n Nat.one_pos Nat.one_pos
  | .int m, .real y =>
    simp only [compareNumbers, magnitude, Binary64.compareInt?_eq (hnan hb), Option.getD_some]
    exact Std.OrientedCmp.eq_swap.symm
  | .real x, .int n =>
    simp only [compareNumbers, magnitude, Binary64.compareInt?_eq (hnan ha), Option.getD_some]
  | .real x, .real y =>
    simp only [compareNumbers, magnitude, Binary64.compare?_eq (hnan ha) (hnan hb),
      Option.getD_some]

theorem magnitude_of_rank {c : Cell} (h0 : c.rank ≠ 0) (h1 : c.rank ≠ 1) :
    c.rank = 2 ∧ c.magnitude = ((0 : ℚ) : WithTop ℚ) := by
  cases c with
  | null => exact absurd rfl h0
  | int n => exact absurd rfl h1
  | real x => exact absurd rfl h1
  | text s => exact ⟨rfl, rfl⟩
  | time t => exact ⟨rfl, rfl⟩
  | json v => exact ⟨rfl, rfl⟩

/-- Cells are compared by their places. -/
theorem order_eq {a b : Cell} (ha : a.isNaN = false) (hb : b.isNaN = false) :
    a.order b = compare a.place b.place := by
  rw [compare_place, order]
  cases hrank : compare a.rank b.rank with
  | lt => rfl
  | gt => rfl
  | eq =>
    have heq : a.rank = b.rank := Nat.compare_eq_eq.1 hrank
    rw [Ordering.eq_then, Ordering.eq_then]
    split
    · next h =>
      cases a <;> cases h
      cases b <;> cases heq
      decide
    · next h =>
      rw [compareNumbers_eq ha hb h (heq.symm.trans h), label, label, if_neg (by omega),
        if_neg (by omega), compare_eq_iff_eq.2 rfl, Ordering.then_eq]
    · next h0 h1 =>
      obtain ⟨har, ham⟩ := magnitude_of_rank h0 h1
      obtain ⟨hbr, hbm⟩ := magnitude_of_rank (heq ▸ h0) (heq ▸ h1)
      rw [ham, hbm, compare_eq_iff_eq.2 rfl, Ordering.eq_then, label, label, if_pos har,
        if_pos hbr]

end Cell

/-! ## Comparing rows by places -/

namespace RowOrder

def byPlace (k : RowOrder) (a b : Row) : Ordering :=
  let o := Ord.compare (a.cell k.column).place (b.cell k.column).place
  if k.descending then o.swap else o

/-- `compareAll`, told by places. -/
def byPlaces : List RowOrder → Row → Row → Ordering
  | [] => compareOn Row.id
  | k :: ks => compareLex k.byPlace (byPlaces ks)

instance (k : RowOrder) : Std.TransCmp k.byPlace := by
  have hplace : Std.TransCmp (compareOn fun r : Row => (r.cell k.column).place) := inferInstance
  by_cases hk : k.descending
  · have hswap : k.byPlace = fun a b =>
        compareOn (fun r : Row => (r.cell k.column).place) b a := by
      funext a b
      rw [byPlace, if_pos hk]
      exact Std.OrientedCmp.eq_swap.symm
    exact hswap ▸ Std.TransCmp.opposite
  · have hkeep : k.byPlace = compareOn fun r : Row => (r.cell k.column).place := by
      funext a b
      rw [byPlace, if_neg hk]
      rfl
    exact hkeep ▸ hplace

instance (ks : List RowOrder) : Std.TransCmp (byPlaces ks) := by
  induction ks with
  | nil => exact inferInstanceAs (Std.TransCmp (compareOn Row.id))
  | cons k ks ih => exact inferInstanceAs (Std.TransCmp (compareLex k.byPlace (byPlaces ks)))

theorem compareAll_eq (ks : List RowOrder) {a b : Row} (ha : a.IsOrdered) (hb : b.IsOrdered) :
    compareAll ks a b = byPlaces ks a b := by
  induction ks with
  | nil => rfl
  | cons k ks ih =>
    simp only [compareAll, RowOrder.compare, Cell.order_eq (ha k.column) (hb k.column), ih]
    rfl

/-- Only rows with the same id tie. -/
theorem id_eq_of_compareAll {ks : List RowOrder} {a b : Row} (h : compareAll ks a b = .eq) :
    a.id = b.id := by
  induction ks with
  | nil => exact compare_eq_iff_eq.1 h
  | cons k ks ih => exact ih (Ordering.then_eq_eq.1 h).2

end RowOrder

/-! ## Selected rows -/

namespace Store

variable {s : Store} {list : String} {among : Row → Bool} {c : Condition}

/-- Rows come in the order of the keys, and rows that tie on all of them by id. -/
theorem select_pairwise (hs : s.Keyed) (hrows : ∀ r ∈ s.rows list, r.IsOrdered)
    (ks : List RowOrder) :
    (s.select list among c ks).Pairwise fun a b => RowOrder.compareAll ks a b = .lt := by
  -- Places have a lawful order, so sorting by them sorts.
  have hselect : s.select list among c ks =
      ((s.rows list).filter fun r => among r && c.selects s r).mergeSort
        fun a b => (RowOrder.byPlaces ks a b).isLE := by
    have hmem {r : Row} (hr : r ∈ (s.rows list).filter fun r => among r && c.selects s r) :
        r.IsOrdered := hrows r (List.mem_of_mem_filter hr)
    rw [select, ← List.map_id (List.mergeSort _ _), List.map_mergeSort, List.map_id]
    intro a ha b hb
    rw [RowOrder.before, RowOrder.compareAll_eq ks (hmem ha) (hmem hb)]
    exact Bool.eq_iff_iff.2 (by simp [Ordering.isLE_iff_ne_gt])
  have hsorted : (s.select list among c ks).Pairwise fun a b =>
      (RowOrder.byPlaces ks a b).isLE = true := by
    rw [hselect]
    refine List.pairwise_mergeSort (fun _ _ _ => Std.TransCmp.isLE_trans) (fun a b => ?_) _
    rw [(Std.OrientedCmp.eq_swap : RowOrder.byPlaces ks b a = (RowOrder.byPlaces ks a b).swap)]
    cases RowOrder.byPlaces ks a b <;> rfl
  have hids : (s.select list among c ks).Pairwise fun a b => a.id ≠ b.id :=
    List.pairwise_map.1 (select_ids_nodup hs)
  refine (hsorted.and hids).imp_of_mem fun {a b} ha hb hab => ?_
  obtain ⟨hle, hne⟩ := hab
  rw [← RowOrder.compareAll_eq ks (hrows a (mem_select.1 ha).1) (hrows b (mem_select.1 hb).1),
    Ordering.isLE_iff_eq_lt_or_eq_eq] at hle
  exact hle.resolve_right (mt RowOrder.id_eq_of_compareAll hne)

end Store

end RecordSchema
