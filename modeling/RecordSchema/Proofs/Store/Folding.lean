import RecordSchema.Proofs.Store.Negation

/-!
# Ignoring case

Regardless of case, `equals` compares two texts as storage folds them: the
ASCII letters in lower case. `in` and `notIn` bring their operands to lower
case before, and that is done for all of Unicode, while storage still folds
the column in its own way (`Compiles.finds_insensitive`). So `in` is not the
union of `equals`: it is for operands that both ways of folding take to the
same texts, such as all of ASCII, and for no others (`FoldsAlike`).
-/

namespace RecordSchema

/-! ## Two ways of folding -/

namespace Text

theorem toLower_eq_self {c : Char} (h : c.toNat < 65 ∨ 90 < c.toNat) : c.toLower = c := by
  unfold Char.toLower
  split
  · next hcapital =>
    have hfirst : 65 ≤ c.toNat := UInt32.le_iff_toNat_le.1 hcapital.1
    have hlast : c.toNat ≤ 90 := UInt32.le_iff_toNat_le.1 hcapital.2
    omega
  · rfl

theorem toLower_ascii : ∀ n < 128, (Char.ofNat n).toLower.toLower = (Char.ofNat n).toLower := by
  decide

theorem toLower_toLower (c : Char) : c.toLower.toLower = c.toLower := by
  rcases Nat.lt_or_ge c.toNat 128 with h | h
  · exact Char.ofNat_toNat c ▸ toLower_ascii c.toNat h
  · have hself : c.toLower = c := toLower_eq_self (.inr (by omega))
    rw [hself, hself]

set_option maxRecDepth 8000 in
/-- No character has an ASCII capital for its lower case. -/
theorem lowerRuns_beyond : ∀ r ∈ lowerRuns, 90 < (r.first : Int) + r.delta := by
  decide

theorem lowerSpecial_beyond :
    ∀ e ∈ lowerSpecial, ∀ n ∈ e.2, (Char.ofNat n).toLower = Char.ofNat n := by
  decide

theorem toLower_ofNat {n : Nat} (hn : 90 < n) : (Char.ofNat n).toLower = Char.ofNat n := by
  by_cases h : n.isValidChar
  · rw [Char.ofNat, dif_pos h]
    exact toLower_eq_self (.inr hn)
  · rw [Char.ofNat, dif_neg h]
    rfl

theorem mapRuns_toLower {c : Char} (hc : 128 ≤ c.toNat) :
    (mapRuns lowerRuns c).toLower = mapRuns lowerRuns c := by
  unfold mapRuns
  extract_lets n
  split
  · next r hr =>
    have hfirst := List.find?_some hr
    have hbeyond := lowerRuns_beyond r (List.mem_of_find?_eq_some hr)
    simp only [Bool.and_eq_true, decide_eq_true_eq] at hfirst
    exact toLower_ofNat (by omega)
  · exact toLower_eq_self (.inr (by omega))

theorem lowerChar_toLower (c : Char) : ∀ d ∈ lowerChar c, d.toLower = d := by
  unfold lowerChar
  split
  · intro d hd
    rw [List.mem_singleton.1 hd, toLower_toLower]
  · next hc =>
    unfold mapCase
    split
    · next form hform =>
      rintro d hd
      obtain ⟨n, hn, rfl⟩ := List.mem_map.1 hd
      exact lowerSpecial_beyond _ (Keys.mem_of_lookup hform) n hn
    · intro d hd
      rw [List.mem_singleton.1 hd, mapRuns_toLower (by omega)]

theorem lowerFrom_toLower (before cs : List Char) : ∀ d ∈ lowerFrom before cs, d.toLower = d := by
  induction cs generalizing before with
  | nil => nofun
  | cons c rest ih =>
    rw [lowerFrom]
    refine List.forall_mem_append.2 ⟨?_, ih _⟩
    split
    · split <;> exact List.forall_mem_singleton.2 (by decide)
    · exact lowerChar_toLower c

/-- A text in lower case has nothing left to fold. -/
theorem foldText_lower (v : String) : Cell.foldText (lower v) = lower v := by
  rw [Cell.foldText, lower, String.toList_ofList]
  congr 1
  exact (List.map_congr_left (lowerFrom_toLower [] v.toList)).trans (List.map_id _)

theorem foldText_foldText (v : String) : Cell.foldText (Cell.foldText v) = Cell.foldText v := by
  rw [Cell.foldText, Cell.foldText, String.toList_ofList, List.map_map]
  congr 2
  funext c
  exact toLower_toLower c

/-- Lower case changes the letters of ASCII one by one. -/
theorem lowerFrom_ascii (before : List Char) {cs : List Char} (hcs : ∀ c ∈ cs, c.toNat < 128) :
    lowerFrom before cs = cs.map Char.toLower := by
  induction cs generalizing before with
  | nil => rfl
  | cons c rest ih =>
    obtain ⟨hc, hrest⟩ := List.forall_mem_cons.1 hcs
    have hsigma : (c == 'Σ') = false := by
      rw [beq_eq_false_iff_ne]
      rintro rfl
      exact absurd hc (by decide)
    rw [lowerFrom, ih (c :: before) hrest, hsigma, lowerChar, if_pos hc]
    rfl

/-- The texts of ASCII are folded alike. -/
theorem lower_ascii {v : String} (hv : ∀ c ∈ v.toList, c.toNat < 128) :
    lower v = Cell.foldText v := by
  rw [lower, lowerFrom_ascii [] hv, Cell.foldText]

end Text

/-- Whether lower case and folding take several texts to the same ones. -/
def FoldsAlike (vs : List String) : Prop :=
  ∀ w, w ∈ vs.map Text.lower ↔ w ∈ vs.map Cell.foldText

/-- To be in lower case the same text as one of several, and to be folded the same text as one
of them, are one thing just when they are folded alike. -/
theorem foldsAlike_iff {vs : List String} : FoldsAlike vs ↔
    ∀ c, (∃ v ∈ vs, Cell.foldText c = Text.lower v) ↔
      ∃ v ∈ vs, Cell.foldText c = Cell.foldText v := by
  have hmem (f : String → String) (w : String) : w ∈ vs.map f ↔ ∃ v ∈ vs, w = f v := by
    simp only [List.mem_map, eq_comm]
  simp only [FoldsAlike, hmem]
  constructor
  · intro h c
    exact h (Cell.foldText c)
  · -- Every text of either kind is folded already.
    intro h w
    constructor
    · rintro ⟨v, hv, rfl⟩
      have hlower := (h (Text.lower v)).1 ⟨v, hv, Text.foldText_lower v⟩
      rwa [Text.foldText_lower] at hlower
    · rintro ⟨v, hv, rfl⟩
      exact (h v).2 ⟨v, hv, rfl⟩

theorem foldsAlike_ascii {vs : List String} (hvs : ∀ v ∈ vs, ∀ c ∈ v.toList, c.toNat < 128) :
    FoldsAlike vs := by
  intro w
  rw [List.map_congr_left fun v hv => Text.lower_ascii (hvs v hv)]

/-! ## Filters on texts -/

namespace Value

/-- The column filter of one operator. -/
def asking (o : FilterOperator) (v : Value) : Value :=
  .map [(.text (Spelled.spelling o), v)]

/-- The column filter of one operator that ignores case. -/
def insensitive (o : FilterOperator) (v : Value) : Value :=
  .map [(.text (Spelled.spelling o), v), (.text "mode", .text "insensitive")]

def texts (vs : List String) : Value :=
  .list (vs.map .text)

end Value

namespace Filter

theorem FilterOperator.read_spelling (o : FilterOperator) :
    FilterOperator.read (.text (Spelled.spelling o)) = .ok o := by
  cases o <;> rfl

theorem isModifier_spelling (o : FilterOperator) :
    isModifier (.text (Spelled.spelling o)) = false := by
  cases o <;> rfl

section Operators

variable {t : Target} {i : Bool} (o : FilterOperator) (v : Value)

theorem operatorConditions_spelling :
    operatorConditions t i [(.text (Spelled.spelling o), v)] =
      (fun c => [c]) <$> operatorCondition t i o v := by
  simp only [operatorConditions, isModifier_spelling, Bool.false_eq_true, if_false,
    FilterOperator.read_spelling, Reading.liftM_ok, pure_bind, map_eq_pure_bind]

theorem negatedConditions_spelling :
    negatedConditions t i [(.text (Spelled.spelling o), v)] = pure [] := by
  have hnot : (Value.text (Spelled.spelling o)).isText "not" = false := by
    cases o <;> rfl
  simp only [negatedConditions, hnot, Bool.false_eq_true, if_false]

theorem cellCondition_asking : cellCondition t false (.asking o v) =
    (fun c => .all [c]) <$> operatorCondition t false o v := by
  have hmode : ignoresCase t false [(.text (Spelled.spelling o), v)] = false := by
    cases o <;> exact Bool.and_false _
  rw [Value.asking, cellCondition, hmode, operatorConditions_spelling, negatedConditions_spelling]
  simp only [map_eq_pure_bind, bind_assoc, pure_bind, List.append_nil]

theorem cellCondition_insensitive (ht : t.textual = true) :
    cellCondition t false (.insensitive o v) =
      (fun c => .all [c]) <$> operatorCondition t true o v := by
  have hmode : ignoresCase t false ([(.text (Spelled.spelling o), v)] ++
      [(.text "mode", .text "insensitive")]) = true := by
    rw [ignoresCase_eq, ht]
    cases o <;> rfl
  change cellCondition t false (.map ([(.text (Spelled.spelling o), v)] ++
    [(.text "mode", .text "insensitive")])) = _
  rw [cellCondition, hmode, operatorConditions_mode, operatorConditions_spelling,
    negatedConditions_mode, negatedConditions_spelling]
  simp only [map_eq_pure_bind, bind_assoc, pure_bind, List.append_nil]

end Operators

/-! ## Tests of texts -/

section Tests

variable {t : Target} (vs : List String)

/-- Regardless of case the operands are brought to lower case. -/
theorem amongTest_insensitive : amongTest t true (.texts vs) =
    pure (.folded (.among ((vs.map Text.lower).map .text))) := by
  rw [amongTest, Value.texts, ManyPlan.membersOf, Reading.liftM_ok, pure_bind, if_pos rfl,
    List.map_map, List.map_map]
  rfl

theorem amongTest_texts (ht : t.type = .string ∨ t.type = .text) :
    amongTest t false (.texts vs) = pure (.among (vs.map .text)) := by
  have hmember (v : String) : memberOperand t (.text v) = pure (.text v) := by
    rw [memberOperand]
    rcases ht with h | h <;> rw [h] <;> rfl
  have hmembers : (vs.map Value.text).mapM (memberOperand t) = pure (vs.map .text) := by
    induction vs with
    | nil => rfl
    | cons v r ih => rw [List.map_cons, List.mapM_cons, hmember, ih, List.map_cons]; rfl
  rw [amongTest, Value.texts, ManyPlan.membersOf, Reading.liftM_ok, pure_bind, hmembers]
  rfl

theorem operatorCondition_equals (v : String) : operatorCondition t true .equals (.text v) =
    pure (.cell t.column (.folded (.compare .eq (.text (Cell.foldText v))))) := rfl

theorem operatorCondition_among : operatorCondition t true .among (.texts vs) =
    pure (.cell t.column (.folded (.among ((vs.map Text.lower).map .text)))) := by
  simp only [operatorCondition, amongTest_insensitive, pure_bind]

theorem operatorCondition_notAmong : operatorCondition t true .notAmong (.texts vs) =
    pure (.not (.cell t.column (.folded (.among ((vs.map Text.lower).map .text))))) := by
  simp only [operatorCondition, amongTest_insensitive, pure_bind]

theorem operatorCondition_among_sensitive (ht : t.type = .string ∨ t.type = .text) :
    operatorCondition t false .among (.texts vs) =
      pure (.cell t.column (.among (vs.map .text))) := by
  simp only [operatorCondition, amongTest_texts vs ht, pure_bind]

end Tests

end Filter

/-- Whether a field holds one text. -/
def Storage.isString : Storage → Bool
  | .scalar g => g.scalar == .text && g.mode != .many
  | _ => false

theorem Storage.exists_of_isString {s : Storage} (h : s.isString = true) :
    ∃ g, s = .scalar g ∧ g.scalar = .text ∧ g.mode ≠ .many := by
  cases s with
  | scalar g =>
    simp only [isString, Bool.and_eq_true, beq_iff_eq, bne_iff_ne] at h
    exact ⟨g, rfl, h⟩
  | _ => cases h

namespace Cell

/-- Whether a cell holds a text. -/
def holds (c : Cell) (s : String) : Bool :=
  match c with
  | .text t => t == s
  | _ => false

theorem holds_iff {c : Cell} {s : String} : c.holds s = true ↔ c = .text s := by
  cases c <;> simp [holds]

theorem same_text (a b : String) : (text a).same (.text b) = (a == b) := by
  have horder : (text a).order (.text b) = compare a b := rfl
  rw [same, horder, Bool.eq_iff_iff, beq_iff_eq, beq_iff_eq, compare_eq_iff_eq]

end Cell

namespace Test

/-- A text is compared with texts by membership. -/
theorem eval_among_texts (vs : List String) (c : String) :
    (Test.among (vs.map .text)).eval (.text c) = .ofBool (vs.contains c) := by
  have hsame : ((vs.map Cell.text).any fun o => !o.isNull && (Cell.text c).same o) =
      vs.contains c := by
    rw [List.any_map, List.contains_eq_any_beq]
    congr 1
    funext v
    exact Cell.same_text c v
  have hset : (vs.map Cell.text).any Cell.isNull = false := by
    rw [List.any_map]
    exact List.any_eq_false.2 fun v _ => Bool.false_ne_true
  rw [eval, evalAmong, hsame, hset]
  cases vs with
  | nil => rfl
  | cons v r => cases (v :: r).contains c <;> rfl

/-- A test of folded texts is one of the folded text. -/
theorem eval_folded_text (t : Test) (c : String) :
    (Test.folded t).eval (.text c) = t.eval (.text (Cell.foldText c)) := rfl

theorem eval_equals_text (v c : String) :
    (Test.compare .eq (.text v)).eval (.text c) = .ofBool (c == v) := by
  have hcompare : (Test.compare .eq (.text v)).eval (.text c) =
      .ofBool ((Cell.text c).same (.text v)) := rfl
  rw [hcompare, Cell.same_text]

end Test

theorem Database.selects_of_finds {db : Database} {s : Store} {list : String} {filter : Value}
    {r : Row} {P : Prop} (h : db.finds s list filter r = .ok P) :
    db.Selects s list filter r ↔ P := by
  obtain ⟨rows, hrows, hmem⟩ := finds_eq_ok h
  rw [Selects, hrows, ← hmem]
  simp only [Except.ok.injEq, exists_eq_left']

namespace Database.Compiles

open Layout

variable {db : Database} {d : Declarations} {l : ListType} {key : String} {f : Field}

/-- The column of a field of texts is one of texts. -/
theorem columnType_text (h : db.Compiles d) (hl : l ∈ db.schema.lists) (hf : (key, f) ∈ l.fields)
    {g : ScalarField} (hg : f.storage = .scalar g) (htext : g.scalar = .text)
    (hone : g.mode ≠ .many) {column : String} (hcolumn : db.layout.column l.key key = .ok column) :
    (db.layout.columnType? l.key column).getD .string = .string ∨
      (db.layout.columnType? l.key column).getD .string = .text := by
  have hs : f.storage.isScalarish = true := by rw [hg]; rfl
  have hid : key ≠ "id" := by
    rintro rfl
    have hkey := h.isNumberedKey hl hf
    simp only [Declarations.isNumberedKey, hg, htext] at hkey
    cases hkey
  have hslot : ((nonempty? f.storage.map?).getD key, f.storage) ∈ columnKinds l := by
    refine mem_columnKinds.2 ⟨key, f, hf, hid, ?_⟩
    rw [fieldKinds_scalarish hs]
    exact List.mem_singleton_self _
  obtain ⟨c, hc, hkind, -⟩ := h.exists_column hl hslot
  obtain rfl : c.name = column :=
    hkind.name.trans (Except.ok.inj ((h.column_eq hl hf hs hid).symm.trans hcolumn))
  have htype : db.layout.columnType? l.key c.name = some c.type := by
    rw [Layout.columnType?, h.table?_eq hl, Option.bind_some,
      Keys.find?_of_mem (h.columns_nodup hl) hc, Option.map_some]
  rw [htype, Option.getD_some]
  obtain ⟨column, nullable, hof, rfl⟩ := hkind
  rw [hg] at hof
  cases hof
  simp only [if_neg hone, Column.scalarType, htext]
  split
  · exact .inr rfl
  · exact .inl rfl

section Finds

variable (h : db.Compiles d) (hl : l ∈ db.schema.lists) (hf : (key, f) ∈ l.fields)
  {g : ScalarField} (hg : f.storage = .scalar g) (htext : g.scalar = .text) {column : String}
  (hcolumn : db.layout.column l.key key = .ok column) {s : Store} {r : Row}
  (hr : r ∈ s.rows l.key)

include h hl hf hg htext hcolumn hr

/-- What a filter that ignores case finds, by the condition of its operator. -/
theorem finds_insensitive_of {o : FilterOperator} {v : Value} {c : Condition}
    (hc : ∀ t : Filter.Target, t.column = column → Filter.operatorCondition t true o v = pure c) :
    db.finds s l.key (.through key (.insensitive o v)) r = .ok (c.selects s r = true) := by
  have hs : f.storage.isScalarish = true := by rw [hg]; rfl
  have htextual : Filter.isTextual f.storage = true := by
    rw [hg, Filter.isTextual, htext]
    rfl
  rw [h.finds_column hl hf hs hcolumn hr, htextual, Filter.cellCondition_insensitive _ _ rfl,
    hc _ rfl, map_pure, Reading.settle_pure.2 rfl, Except.map, Condition.selects_all_singleton]

variable {c : String} (hcell : r.cell column = .text c)

include hcell

theorem finds_equals (v : String) :
    db.finds s l.key (.through key (.insensitive .equals (.text v))) r =
      .ok (Cell.foldText c = Cell.foldText v) := by
  rw [h.finds_insensitive_of hl hf hg htext hcolumn hr fun t ht =>
      ht ▸ Filter.operatorCondition_equals v,
    Condition.selects, Condition.eval, hcell, Test.eval_folded_text, Test.eval_equals_text,
    Truth.isYes_ofBool, beq_iff_eq]

theorem finds_among (vs : List String) :
    db.finds s l.key (.through key (.insensitive .among (.texts vs))) r =
      .ok (∃ v ∈ vs, Cell.foldText c = Text.lower v) := by
  rw [h.finds_insensitive_of hl hf hg htext hcolumn hr fun t ht =>
      ht ▸ Filter.operatorCondition_among vs,
    Condition.selects, Condition.eval, hcell, Test.eval_folded_text, Test.eval_among_texts,
    Truth.isYes_ofBool, List.contains_iff_mem, List.mem_map]
  simp only [eq_comm]

theorem finds_notAmong (vs : List String) :
    db.finds s l.key (.through key (.insensitive .notAmong (.texts vs))) r =
      .ok (∀ v ∈ vs, Cell.foldText c ≠ Text.lower v) := by
  rw [h.finds_insensitive_of hl hf hg htext hcolumn hr fun t ht =>
      ht ▸ Filter.operatorCondition_notAmong vs,
    Condition.selects, Condition.eval, Condition.eval, hcell, Test.eval_folded_text,
    Test.eval_among_texts, Truth.isYes_not_ofBool, Bool.not_eq_true', ← Bool.not_eq_true,
    List.contains_iff_mem, List.mem_map]
  simp only [not_exists, not_and, ne_eq, eq_comm]

theorem finds_among_sensitive (hone : g.mode ≠ .many) (vs : List String) :
    db.finds s l.key (.through key (.asking .among (.texts vs))) r = .ok (c ∈ vs) := by
  have hs : f.storage.isScalarish = true := by rw [hg]; rfl
  rw [h.finds_column hl hf hs hcolumn hr, Filter.cellCondition_asking,
    Filter.operatorCondition_among_sensitive vs (h.columnType_text hl hf hg htext hone hcolumn),
    map_pure, Reading.settle_pure.2 rfl, Except.map, Condition.selects_all_singleton,
    Condition.selects, Condition.eval, hcell, Test.eval_among_texts, Truth.isYes_ofBool,
    List.contains_iff_mem]

end Finds

/-- What is found among texts regardless of case: `equals` folds both sides alike, `in` and
`notIn` fold the column and bring their operands to lower case. So `in` finds what `equals`
finds for one of the operands just when both ways take the operands to the same texts, as
they do for texts of ASCII; then it also finds what it finds when it minds the case. -/
theorem finds_insensitive (h : db.Compiles d) (hl : l ∈ db.schema.lists) (hf : (key, f) ∈ l.fields)
    (hs : f.storage.isString = true) :
    ∃ column, db.layout.column l.key key = .ok column ∧ ∀ vs : List String,
      (∀ s : Store, ∀ r ∈ s.rows l.key, ∀ c, r.cell column = .text c →
        (∀ v, db.finds s l.key (.through key (.insensitive .equals (.text v))) r =
          .ok (Cell.foldText c = Cell.foldText v)) ∧
        db.finds s l.key (.through key (.insensitive .among (.texts vs))) r =
          .ok (∃ v ∈ vs, Cell.foldText c = Text.lower v) ∧
        db.finds s l.key (.through key (.insensitive .notAmong (.texts vs))) r =
          .ok (∀ v ∈ vs, Cell.foldText c ≠ Text.lower v) ∧
        db.finds s l.key (.through key (.asking .among (.texts vs))) r = .ok (c ∈ vs)) ∧
      (FoldsAlike vs ↔ ∀ c, (∃ v ∈ vs, Cell.foldText c = Text.lower v) ↔
        ∃ v ∈ vs, Cell.foldText c = Cell.foldText v) ∧
      (FoldsAlike vs → ∀ c ∈ vs, ∃ v ∈ vs, Cell.foldText c = Text.lower v) ∧
      ((∀ v ∈ vs, ∀ c ∈ v.toList, c.toNat < 128) → FoldsAlike vs) := by
  obtain ⟨g, hg, htext, hone⟩ := Storage.exists_of_isString hs
  obtain ⟨column, hcolumn⟩ := h.exists_column_eq hl hf (by rw [hg]; rfl)
  refine ⟨column, hcolumn, fun vs => ⟨fun s r hr c hcell => ⟨fun v => ?_, ?_, ?_, ?_⟩,
    foldsAlike_iff, fun halike c hc => ?_, foldsAlike_ascii⟩⟩
  · exact h.finds_equals hl hf hg htext hcolumn hr hcell v
  · exact h.finds_among hl hf hg htext hcolumn hr hcell vs
  · exact h.finds_notAmong hl hf hg htext hcolumn hr hcell vs
  · exact h.finds_among_sensitive hl hf hg htext hcolumn hr hcell hone vs
  · exact (foldsAlike_iff.1 halike c).2 ⟨c, hc, rfl⟩

end Database.Compiles

/-! ## A name with an accent -/

/-- A person whose name begins with a capital that is not of ASCII. -/
def accentStore : Store :=
  (family.database.result.run
    [.create .reject .null "Person" (.map [(.text "name", .text "Éva")])]
    { supply := blogSupply }).store

theorem accent_facts : (∃ l ∈ family.database.result.schema.lists, l.key = "Person" ∧
      ∃ e ∈ l.fields, e.1 = "name" ∧ e.2.storage.isString = true) ∧
    (family.database.result.layout.column "Person" "name").toOption = some "name" ∧
    ∃ r ∈ accentStore.rows "Person", (r.cell "name").holds "Éva" = true := by
  decide +kernel

/-- Among names of ASCII she is looked for as by comparing with one name after the other. -/
theorem finds_insensitive_accent : ∃ r ∈ accentStore.rows "Person",
    FoldsAlike ["eva", "ADAM"] ∧
    family.database.result.finds accentStore "Person"
        (.through "name" (.insensitive .among (.texts ["eva", "ADAM"]))) r =
      .ok (∃ v ∈ ["eva", "ADAM"], Cell.foldText "Éva" = Text.lower v) ∧
    family.database.result.finds accentStore "Person"
        (.through "name" (.insensitive .equals (.text "ADAM"))) r =
      .ok (Cell.foldText "Éva" = Cell.foldText "ADAM") := by
  obtain ⟨⟨l, hl, hkey, ⟨key, f⟩, hf, rfl, hs⟩, hname, r, hr, hcell⟩ := accent_facts
  obtain ⟨column, hcolumn, hfinds⟩ := family_compiles.finds_insensitive hl hf hs
  rw [hkey] at hcolumn hfinds
  obtain rfl : "name" = column :=
    Except.ok.inj ((Except.eq_ok_of_toOption hname).symm.trans hcolumn)
  obtain ⟨hrows, -, -, hascii⟩ := hfinds ["eva", "ADAM"]
  obtain ⟨hequals, hamong, -⟩ := hrows accentStore r hr "Éva" (Cell.holds_iff.1 hcell)
  have hplain : ∀ v ∈ ["eva", "ADAM"], (v.toList.all fun c => c.toNat < 128) = true := by decide
  refine ⟨r, hr, hascii fun v hv c hc => ?_, hamong, hequals "ADAM"⟩
  exact of_decide_eq_true (List.all_eq_true.1 (hplain v hv) c hc)

/-- Her name is among the names when case matters and equals the name when it does not, but it
is not among them when it does not. -/
theorem accent_not_among : ∃ r ∈ accentStore.rows "Person",
    family.database.result.Selects accentStore "Person"
      (.through "name" (.asking .among (.texts ["Éva"]))) r ∧
    family.database.result.Selects accentStore "Person"
      (.through "name" (.insensitive .equals (.text "Éva"))) r ∧
    ¬ family.database.result.Selects accentStore "Person"
      (.through "name" (.insensitive .among (.texts ["Éva"]))) r := by
  obtain ⟨⟨l, hl, hkey, ⟨key, f⟩, hf, rfl, hs⟩, hname, r, hr, hcell⟩ := accent_facts
  obtain ⟨g, hg, htext, hone⟩ := Storage.exists_of_isString hs
  have hcolumn := Except.eq_ok_of_toOption hname
  rw [← hkey] at hr hcolumn ⊢
  rw [Cell.holds_iff] at hcell
  have hsensitive := family_compiles.finds_among_sensitive hl hf hg htext hcolumn hr hcell hone
    ["Éva"]
  have hequals := family_compiles.finds_equals hl hf hg htext hcolumn hr hcell "Éva"
  have hamong := family_compiles.finds_among hl hf hg htext hcolumn hr hcell ["Éva"]
  have hlower : ¬ ∃ v ∈ ["Éva"], Cell.foldText "Éva" = Text.lower v := by decide
  refine ⟨r, hr, ?_, ?_, fun h => hlower ((Database.selects_of_finds hamong).1 h)⟩
  · exact (Database.selects_of_finds hsensitive).2 (List.mem_singleton_self _)
  · exact (Database.selects_of_finds hequals).2 rfl

end RecordSchema
