import Mathlib.Data.Set.Basic
import RecordSchema.Proofs.Lists
import RecordSchema.Proofs.Relation.Filtered
import RecordSchema.Proofs.Store.Faults

/-!
# Logical keys

A filter finds a set of records, if it can be read at all
(`Database.found`). The keys of a filter and the filters under `AND`
intersect what they find on their own, those under `OR` unite it, with
the right set for no filters at all. `NOT` is not the complement, as a
condition may be unknown of a row; but it still obeys De Morgan's law,
excludes what its filters find, and made twice it is undone.

The truth tables give these laws for conditions. That they hold for
filters, faulty ones included, is because a reading in two parts ends
well just when both parts do (`Reading.result?_bind`).
-/

namespace RecordSchema

/-- The filter that puts filters under a logical key. -/
def Value.combined (key : String) (ws : List Value) : Value :=
  .map [(.text key, .list ws)]

/-! ## Truth -/

namespace Truth

variable (t u : Truth)

theorem isYes_and : (t.and u).isYes = (t.isYes && u.isYes) := by
  cases t <;> cases u <;> rfl

theorem isYes_or : (t.or u).isYes = (t.isYes || u.isYes) := by
  cases t <;> cases u <;> rfl

@[simp] theorem not_not : t.not.not = t := by
  cases t <;> rfl

theorem not_or : (t.or u).not = t.not.and u.not := by
  cases t <;> cases u <;> rfl

end Truth

/-! ## What combined conditions select -/

namespace Condition

variable (s : Store) (r : Row) (c : Condition) (cs cs' : List Condition)

theorem selects_all : (all cs).selects s r = cs.all fun c => c.selects s r := by
  simp only [selects, eval]
  induction cs with
  | nil => rfl
  | cons c cs ih => rw [evalAll, Truth.isYes_and, List.all_cons, ih]

theorem selects_any : (any cs).selects s r = cs.any fun c => c.selects s r := by
  simp only [selects, eval]
  induction cs with
  | nil => rfl
  | cons c cs ih => rw [evalAny, Truth.isYes_or, List.any_cons, ih]

theorem selects_all_map (f : Condition → Condition) :
    (all (cs.map f)).selects s r = cs.all fun c => (f c).selects s r := by
  rw [selects_all, List.all_map]
  rfl

/-- De Morgan's law, for three truth values. -/
theorem eval_not_any : (not (any cs)).eval s r = (all (cs.map not)).eval s r := by
  simp only [eval]
  induction cs with
  | nil => rfl
  | cons c cs ih => rw [evalAny, Truth.not_or, ih, List.map_cons, evalAll, eval]

theorem selects_not_any : (not (any cs)).selects s r = cs.all fun c => (not c).selects s r := by
  rw [selects, eval_not_any, ← selects, selects_all_map]

/-- The negations of conditions as filters write them. -/
theorem selects_all_negated : (all (cs.map fun c => all [not (any [c])])).selects s r =
    (not (any cs)).selects s r := by
  rw [selects_all_map, selects_not_any]
  congr 1
  funext c
  rw [selects_all_singleton, selects_not_any_singleton]

/-- The negation of a condition that is negated as by a filter. -/
theorem selects_not_not :
    (not (all [not (any [c])])).selects s r = c.selects s r := by
  simp only [selects, eval, evalAll, evalAny, Truth.or_no, Truth.and_yes, Truth.not_not]

end Condition

/-! ## Readings that end well -/

namespace Reading

variable {α β : Type}

/-- What a reading reads, if it ends well. -/
def result? (x : Reading α) : Option α :=
  x.settle.toOption

theorem result?_eq_some {x : Reading α} {a : α} : x.result? = some a ↔ x.settle = .ok a := by
  rw [result?]
  cases x.settle <;> simp [Except.toOption]

@[simp] theorem result?_pure (a : α) : (pure a : Reading α).result? = some a := rfl

theorem result?_map (f : α → β) (x : Reading α) : (f <$> x).result? = x.result?.map f := by
  rw [result?, settle_map, result?]
  cases x.settle <;> rfl

theorem result?_bind {x : Reading α} {f : α → Reading β} (hf : ∀ a, (f a).Keeps) :
    (x >>= f).result? = x.result?.bind fun a => (f a).result? := by
  ext b
  simp only [result?_eq_some, settle_bind hf, Option.bind_eq_some_iff]

/-- Two readings whose results are joined. -/
theorem result?_join {γ : Type} {x : Reading α} {y : Reading β} (hy : y.Keeps) (f : α → β → γ) :
    (do let a ← x; let b ← y; pure (f a b) : Reading γ).result? =
      x.result?.bind fun a => y.result?.map (f a) := by
  rw [result?_bind fun a => .bind hy fun b => .pure _]
  simp only [← map_eq_pure_bind, result?_map]

end Reading

/-! ## What filters ask -/

namespace Filter

variable (db : Database) (list : String)

/-- The keys of a filter are read one after the other. -/
theorem ofEntries_cons (e : Value × Value) (r : Value.Entries) :
    ofEntries db list (e :: r) =
      ofEntries db list [e] >>= fun cs => ofEntries db list r >>= fun cs' => pure (cs ++ cs') := by
  obtain ⟨k, v⟩ := e
  simp only [ofEntries, bind_assoc, pure_bind]
  congr 1
  funext key
  split
  · simp only [bind_assoc, pure_bind, List.singleton_append]
  · simp only [bind_assoc]
    congr 1
    funext subject
    cases subject with
    | column t => simp only [bind_assoc, pure_bind, List.singleton_append]
    | relation plan =>
      cases hmode : plan.mode with
      | one => cases v.isNull <;> simp [hmode]
      | many => simp only [bind_assoc, pure_bind, List.singleton_append, hmode]

theorem ofValue_map (es : Value.Entries) :
    ofValue db list (.map es) = Condition.all <$> ofEntries db list es := by
  rw [ofValue, map_eq_pure_bind]

theorem condition_combined {key : String} (hkey : logicalKeys.contains key = true)
    (ws : List Value) : condition db list (.combined key ws) =
      (fun cs => .all [combine key cs]) <$> ofAll db list ws := by
  rw [Value.combined, condition, ofValue_map, ofEntries]
  simp only [fieldKey, Reading.liftM_ok, pure_bind, hkey, if_true, ofEntries, ofMembers,
    bind_assoc, map_eq_pure_bind]

theorem result?_ofAll (ws : List Value) :
    (ofAll db list ws).result? = ws.mapM fun w => (condition db list w).result? := by
  induction ws with
  | nil => rfl
  | cons w r ih =>
    rw [ofAll, Reading.result?_join (ofAll_keeps db list r), ih, List.mapM_option_cons]
    rfl

theorem mapM_negated (ws : List Value) :
    ((ws.map Value.negated).mapM fun w => (condition db list w).result?) =
      (ws.mapM fun w => (condition db list w).result?).map
        (·.map fun c => .all [.not (.any [c])]) := by
  rw [List.mapM_map, ← List.mapM_option_map]
  congr 1
  funext w
  exact (congrArg Reading.result? (Database.Compiles.condition_negated db list w)).trans
    (Reading.result?_map _ _)

end Filter

/-! ## What filters find -/

namespace Store

variable (s : Store) (list : String)

/-- The rows of a list that a condition selects. -/
def selected (c : Condition) : Set Row :=
  {r | r ∈ s.rows list ∧ c.selects s r = true}

theorem selected_singleton (c : Condition) :
    s.selected list (.all [c]) = s.selected list c := by
  simp only [selected, Condition.selects_all_singleton]

variable {s list} {r : Row} {cs : List Condition}

theorem mem_intersection {sets : List (Set Row)} {all : Set Row} :
    r ∈ sets.foldr (· ∩ ·) all ↔ r ∈ all ∧ ∀ A ∈ sets, r ∈ A := by
  induction sets with
  | nil => simp
  | cons A sets ih =>
    rw [List.foldr_cons, Set.mem_inter_iff, ih, List.forall_mem_cons]
    exact and_left_comm

theorem mem_union {sets : List (Set Row)} :
    r ∈ sets.foldr (· ∪ ·) ∅ ↔ ∃ A ∈ sets, r ∈ A := by
  induction sets with
  | nil => simp
  | cons A sets ih => rw [List.foldr_cons, Set.mem_union, ih, List.exists_mem_cons_iff]

theorem selected_all : s.selected list (.all cs) =
    (cs.map (s.selected list)).foldr (· ∩ ·) {r | r ∈ s.rows list} := by
  ext r
  rw [mem_intersection, List.forall_mem_map]
  simp only [selected, Set.mem_ofPred_eq, Condition.selects_all, List.all_eq_true]
  exact and_congr_right fun hr => ⟨fun h c hc => ⟨hr, h c hc⟩, fun h c hc => (h c hc).2⟩

theorem selected_any : s.selected list (.any cs) =
    (cs.map (s.selected list)).foldr (· ∪ ·) ∅ := by
  ext r
  rw [mem_union]
  simp only [selected, Set.mem_ofPred_eq, Condition.selects_any, List.any_eq_true,
    List.mem_map, exists_exists_and_eq_and]
  constructor
  · rintro ⟨hr, c, hc, hsel⟩
    exact ⟨c, hc, hr, hsel⟩
  · rintro ⟨c, hc, hr, hsel⟩
    exact ⟨hr, c, hc, hsel⟩

theorem selected_append {cs' : List Condition} : s.selected list (.all (cs ++ cs')) =
    s.selected list (.all cs) ∩ s.selected list (.all cs') := by
  ext r
  simp only [selected, Set.mem_inter_iff, Set.mem_ofPred_eq, Condition.selects_all,
    List.all_append, Bool.and_eq_true]
  exact and_and_left

theorem selected_not_inter {c : Condition} (hc : c ∈ cs) :
    s.selected list (.not (.any cs)) ∩ s.selected list c = ∅ := by
  rw [Set.eq_empty_iff_forall_notMem]
  rintro r ⟨⟨-, hnot⟩, -, hsel⟩
  rw [Condition.selects_not_any, List.all_eq_true] at hnot
  exact Bool.false_ne_true (Condition.not_selects_not hsel ▸ hnot c hc)

end Store

namespace Database

/-- The records that a search with a filter finds, if it ends well. -/
def found (db : Database) (s : Store) (list : String) (filter : Value) : Option (Set Row) :=
  (db.findMany s list { filter }).toOption.map fun rows => {r | r ∈ rows}

variable {db : Database} {list : String} {t : TableLayout} (ht : db.table list = .ok t) (s : Store)

include ht

theorem found_eq (filter : Value) : db.found s list filter =
    (Filter.condition db list filter).result?.map (s.selected list) := by
  rw [found, findMany_filter ht, Reading.result?]
  cases (Filter.condition db list filter).settle with
  | error e => rfl
  | ok c => simp only [Except.map, Except.toOption, Option.map_some, Store.mem_select, true_and,
      Store.selected]

theorem found_combined {key : String} (hkey : logicalKeys.contains key = true) (ws : List Value) :
    db.found s list (.combined key ws) =
      (ws.mapM fun w => (Filter.condition db list w).result?).map fun cs =>
        s.selected list (.all [Filter.combine key cs]) := by
  rw [found_eq ht, Filter.condition_combined db list hkey, Reading.result?_map,
    Filter.result?_ofAll, Option.map_map]
  rfl

theorem mapM_found (ws : List Value) : ws.mapM (db.found s list) =
    (ws.mapM fun w => (Filter.condition db list w).result?).map (·.map (s.selected list)) := by
  rw [← List.mapM_option_map, funext (found_eq ht s)]

/-! ## The laws -/

theorem found_nil : db.found s list (.map []) = some {r | r ∈ s.rows list} := by
  rw [found_eq ht]
  simp only [Filter.condition, Filter.ofValue_map, Filter.ofEntries, Reading.result?_map,
    Reading.result?_pure, Option.map_some, Store.selected_all, List.map_nil, List.foldr_nil]

theorem found_cons (e : Value × Value) (es : Value.Entries) : db.found s list (.map (e :: es)) =
    (db.found s list (.map [e])).bind fun A => (db.found s list (.map es)).map (A ∩ ·) := by
  simp only [found_eq ht, Filter.condition, Filter.ofValue_map, Reading.result?_map]
  rw [Filter.ofEntries_cons, Reading.result?_join (Filter.ofEntries_keeps db list es)]
  cases (Filter.ofEntries db list [e]).result? with
  | none => rfl
  | some cs =>
    cases (Filter.ofEntries db list es).result? with
    | none => rfl
    | some cs' => exact congrArg some Store.selected_append

/-- The keys of a filter intersect what they find. -/
theorem found_map (es : Value.Entries) : db.found s list (.map es) =
    (es.mapM fun e => db.found s list (.map [e])).map
      (·.foldr (· ∩ ·) {r | r ∈ s.rows list}) := by
  induction es with
  | nil => exact found_nil ht s
  | cons e es ih =>
    rw [found_cons ht, ih, List.mapM_option_cons]
    cases db.found s list (.map [e]) with
    | none => rfl
    | some A => cases es.mapM fun e => db.found s list (.map [e]) <;> rfl

/-- The order of the keys does not matter. -/
theorem found_perm {es es' : Value.Entries} (hperm : es.Perm es') :
    db.found s list (.map es) = db.found s list (.map es') := by
  induction hperm with
  | nil => rfl
  | cons e _ ih => rw [found_cons ht, ih, ← found_cons ht]
  | swap e e' es =>
    simp only [found_cons ht s _ (_ :: es), found_cons ht s _ es]
    cases db.found s list (.map [e]) <;> cases db.found s list (.map [e']) <;>
      cases db.found s list (.map es) <;>
      simp only [Option.bind_none, Option.bind_some, Option.map_none, Option.map_some,
        Set.inter_left_comm]
  | trans _ _ ih ih' => exact ih.trans ih'

theorem found_and (ws : List Value) : db.found s list (.combined "AND" ws) =
    (ws.mapM (db.found s list)).map (·.foldr (· ∩ ·) {r | r ∈ s.rows list}) := by
  rw [found_combined ht s (by decide), mapM_found ht s, Option.map_map]
  congr 1
  funext cs
  exact (Store.selected_singleton s list _).trans Store.selected_all

theorem found_or (ws : List Value) : db.found s list (.combined "OR" ws) =
    (ws.mapM (db.found s list)).map (·.foldr (· ∪ ·) ∅) := by
  rw [found_combined ht s (by decide), mapM_found ht s, Option.map_map]
  congr 1
  funext cs
  exact (Store.selected_singleton s list _).trans Store.selected_any

/-- What `NOT` finds is found by none of its filters. -/
theorem found_not_inter {ws : List Value} {sets : List (Set Row)}
    (hsets : ws.mapM (db.found s list) = some sets) :
    ∃ A, db.found s list (.combined "NOT" ws) = some A ∧ ∀ B ∈ sets, A ∩ B = ∅ := by
  rw [mapM_found ht s, Option.map_eq_some_iff] at hsets
  obtain ⟨cs, hcs, rfl⟩ := hsets
  refine ⟨s.selected list (.not (.any cs)), ?_, List.forall_mem_map.2 fun c hc => ?_⟩
  · rw [found_combined ht s (by decide), hcs]
    exact congrArg some (Store.selected_singleton s list _)
  · exact Store.selected_not_inter hc

/-- `NOT` asks that each of its filters is negated. -/
theorem found_not (ws : List Value) : db.found s list (.combined "NOT" ws) =
    db.found s list (.combined "AND" (ws.map Value.negated)) := by
  rw [found_combined ht s (by decide), found_combined ht s (by decide), Filter.mapM_negated,
    Option.map_map]
  congr 1
  funext cs
  calc s.selected list (.all [Filter.combine "NOT" cs])
      = s.selected list (.not (.any cs)) := Store.selected_singleton s list _
    _ = s.selected list (.all (cs.map fun c => .all [.not (.any [c])])) := by
        simp only [Store.selected, Condition.selects_all_negated]
    _ = s.selected list (.all [.all (cs.map fun c => .all [.not (.any [c])])]) :=
        (Store.selected_singleton s list _).symm

theorem found_not_not (w : Value) : db.found s list w.negated.negated = db.found s list w := by
  simp only [found_eq ht, Compiles.condition_negated, Reading.result?_map, Option.map_map]
  congr 1
  funext c
  simp only [Store.selected, Function.comp_def, Condition.selects_all_singleton,
    Condition.selects_not_any_singleton, Condition.selects_not_not]

/-- Filters combine as the sets of records that they find. The keys of a filter, in
any order, and the filters under `AND` intersect them, those under `OR` unite
them; `NOT` is `AND` of the negations, excludes what its filters find, and undoes
itself. A filter can be read just when all its parts can. -/
theorem found_combines :
    (∀ es : Value.Entries,
      db.found s list (.map es) = (es.mapM fun e => db.found s list (.map [e])).map
        (·.foldr (· ∩ ·) {r | r ∈ s.rows list}) ∧
      ∀ es', es.Perm es' → db.found s list (.map es) = db.found s list (.map es')) ∧
    (∀ ws : List Value,
      db.found s list (.combined "AND" ws) = (ws.mapM (db.found s list)).map
        (·.foldr (· ∩ ·) {r | r ∈ s.rows list}) ∧
      db.found s list (.combined "OR" ws) = (ws.mapM (db.found s list)).map (·.foldr (· ∪ ·) ∅) ∧
      db.found s list (.combined "NOT" ws) =
        db.found s list (.combined "AND" (ws.map Value.negated)) ∧
      ∀ sets, ws.mapM (db.found s list) = some sets →
        ∃ A, db.found s list (.combined "NOT" ws) = some A ∧ ∀ B ∈ sets, A ∩ B = ∅) ∧
    ∀ w : Value, db.found s list w.negated.negated = db.found s list w := by
  refine ⟨fun es => ⟨found_map ht s es, fun es' hperm => found_perm ht s hperm⟩, fun ws => ?_,
    found_not_not ht s⟩
  exact ⟨found_and ht s ws, found_or ht s ws, found_not ht s ws,
    fun sets hsets => found_not_inter ht s hsets⟩

end Database

/-- Nobody is found both by the name Bob and by its negation, and no filter at all
finds anybody under `OR`. -/
theorem found_combines_family :
    ∃ t, family.database.result.table "Person" = .ok t ∧ ∃ bob others,
      family.database.result.found familyStore "Person" (named "Bob") = some bob ∧
      family.database.result.found familyStore "Person" (.combined "NOT" [named "Bob"]) =
        some others ∧
      others ∩ bob = ∅ ∧
      family.database.result.found familyStore "Person" (.combined "OR" []) = some ∅ := by
  obtain ⟨-, hparent, -, -, -, hbob, -⟩ := family_facts
  obtain ⟨l, hl, hkey⟩ := (family_compiles.exists_ends hparent).1
  have ht := hkey ▸ family_compiles.table_ok hl
  obtain ⟨-, hmembers, -⟩ := Database.found_combines ht familyStore
  obtain ⟨bob, hfound⟩ : ∃ bob, family.database.result.found familyStore "Person" (named "Bob") =
      some bob := by
    rw [Database.found, Except.eq_ok_result hbob]
    exact ⟨_, rfl⟩
  obtain ⟨-, hor, -, -⟩ := hmembers []
  obtain ⟨-, -, -, hnot⟩ := hmembers [named "Bob"]
  have hsets : [named "Bob"].mapM (family.database.result.found familyStore "Person") =
      some [bob] := by
    rw [List.mapM_option_cons, hfound]
    rfl
  obtain ⟨others, hothers, hdisjoint⟩ := hnot [bob] hsets
  exact ⟨_, ht, bob, others, hfound, hothers, hdisjoint bob (List.mem_singleton_self bob), hor⟩

end RecordSchema
