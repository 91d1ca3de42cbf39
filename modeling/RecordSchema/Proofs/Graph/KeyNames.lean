import RecordSchema.Graph.Catalogue
import RecordSchema.Proofs.Graph.Script

/-!
# Keys as names

The keys of lists and fields are names in the scripts of resolvers and in
the query language. A key that a compilation lets pass is an identifier,
and so it is a name in all these places unless it ends with a line feed:
then it is a name in none of them (`Graph.keys_splice`). A script for an
output under such a key ends the making of the schema, with no report.

Two names can fail for another reason. The singular of a list stands for
a function, and it may be a reserved word though its key is none; and
names that begin with two underscores are kept for the query language.

The functions behind queries and mutations have parameters that are well
named whatever the list, so that it depends on their own names alone
whether they are made (`Graph.Catalogue.ofSchema_eq`).
-/

namespace RecordSchema

/-! ## Identifiers -/

namespace Name

variable {s : String}

/-- An identifier is a word unless it ends with a line feed. -/
theorem isWord_iff_not_endsLine (h : isIdentifier s = true) : IsWord s ↔ ¬ EndsLine s :=
  ⟨IsWord.not_endsLine, fun hline => ((isIdentifier_of_not_endsLine hline).1 h).1⟩

theorem isWordChar_iff_not_endsLine (h : isIdentifier s = true) :
    (∀ c ∈ s.toList, Graph.isWordChar c = true) ↔ ¬ EndsLine s :=
  ⟨Graph.not_endsLine_of_isWordChar,
    fun hline => (Graph.isScriptWord_of_isWord ((isWord_iff_not_endsLine h).2 hline)).2⟩

theorem isNameWord_iff_not_endsLine (h : isIdentifier s = true) :
    Graph.isNameWord s = true ↔ ¬ EndsLine s := by
  refine ⟨Graph.not_endsLine_of_isNameWord, fun hline => ?_⟩
  obtain ⟨hword, hreserved⟩ := (isIdentifier_of_not_endsLine hline).1 h
  exact Graph.isNameWord_of_isWord hword hreserved

/-- A key behind a word makes a word with it unless it ends with a line feed. -/
theorem isNameWord_append_key {w : String} (hw : IsWord w)
    (hnone : ∀ r ∈ reserved, ¬ w.toList <+: r.toList) (h : isIdentifier s = true) :
    Graph.isNameWord (w ++ s) = true ↔ ¬ EndsLine s :=
  (Graph.isNameWord_append_iff hw (Graph.not_reserved_append hnone s)).trans
    (isWordChar_iff_not_endsLine h)

theorem isNameWord_resolverName {list output : String} (hlist : isIdentifier list = true)
    (houtput : isIdentifier output = true) :
    Graph.isNameWord (Graph.resolverName list output) = true ↔
      ¬ EndsLine list ∧ ¬ EndsLine output := by
  have hword : IsWord "resolve_" := spellsWord_iff.1 (by decide)
  have hnone : ∀ r ∈ reserved, ¬ "resolve_".toList <+: r.toList := by decide
  have hbar : ∀ c ∈ "_".toList, Graph.isWordChar c = true :=
    (Graph.isScriptWord_of_isWord (spellsWord_iff.1 (by decide))).2
  rw [Graph.resolverName, String.append_assoc, String.append_assoc,
    Graph.isNameWord_append_iff hword (Graph.not_reserved_append hnone _), String.toList_append,
    String.toList_append, List.forall_mem_append, List.forall_mem_append, and_iff_right hbar,
    isWordChar_iff_not_endsLine hlist, isWordChar_iff_not_endsLine houtput]

theorem toLower_ascii : ∀ n < 128, isInitial (Char.ofNat n) = true →
    isInitial (Char.ofNat n).toLower = true := by
  decide

end Name

/-! ## Names of the query language -/

namespace Graph

/-- Whether a text is a name of the query language that is not kept for the language itself. -/
def IsFreeName (s : String) : Prop :=
  isName s = true ∧ isIntrospective s = false

theorem isName_iff {s : String} : isName s = true ↔ Name.IsWord s := by
  rw [isName, Name.IsWord]
  cases s.toList with
  | nil => simp
  | cons c rest => simp

theorem isIntrospective_iff {s : String} :
    isIntrospective s = true ↔ ∃ w : String, s = "__" ++ w := by
  rw [isIntrospective, List.isPrefixOf_iff_prefix]
  constructor
  · rintro ⟨rest, hrest⟩
    refine ⟨String.ofList rest, String.toList_inj.1 ?_⟩
    rw [String.toList_append, (String.toList_ofList : (String.ofList rest).toList = rest), hrest]
  · rintro ⟨w, rfl⟩
    exact ⟨w.toList, String.toList_append.symm⟩

theorem isFreeName_iff {s : String} (h : Name.isIdentifier s = true) :
    IsFreeName s ↔ ¬ Name.EndsLine s ∧ ¬ ∃ w : String, s = "__" ++ w := by
  rw [IsFreeName, isName_iff, Name.isWord_iff_not_endsLine h, ← isIntrospective_iff,
    Bool.not_eq_true]

end Graph

/-! ## Signatures of queries and mutations -/

namespace Graph

open Signature

/-- The parameters of queries and mutations are well named, whatever the list. -/
theorem wellNamed_root {l : ListType} {o : Output} (ho : o ∈ queries l ++ mutations l) :
    WellNamed (ofArgs o.name o.args).params := by
  simp only [queries, mutations, List.cons_append, List.nil_append, List.mem_cons,
    List.not_mem_nil, or_false] at ho
  obtain rfl | rfl | rfl | rfl | rfl := ho
  · exact .of_names ["where", "orderBy", "take", "skip", "cursor"] rfl
      (by decide) (by decide)
  · exact .of_names ["where"] rfl (by decide) (by decide)
  · exact .of_names ["where"] rfl (by decide) (by decide)
  · exact .of_names ["data"] rfl (by decide) (by decide)
  · exact .of_names ["where", "data"] rfl (by decide) (by decide)

theorem rootSignatures_isReadable (l : ListType) : (rootSignatures l).all (·.isReadable) =
    (queries l ++ mutations l).all fun o => isNameWord o.name := by
  rw [Bool.eq_iff_iff, List.all_eq_true, List.all_eq_true, rootSignatures, List.forall_mem_map]
  exact forall₂_congr fun o ho => isReadable_iff (wellNamed_root ho)

/-- An API has the functions behind its queries and mutations exactly when all of these go by words
that may stand for names. -/
theorem Catalogue.ofSchema_eq (s : Schema) : ofSchema s =
    if s.lists.all fun l => (queries l ++ mutations l).all fun o => isNameWord o.name
    then collect s else .error .badName := by
  simp only [ofSchema, rootSignatures_isReadable]
  split
  · next h => rw [if_neg (by simpa using h)]; rfl
  · next h => rw [if_pos (by simpa using h)]

end Graph

/-! ## Keys of lists -/

namespace IsListKey

variable {key : String}

/-- The singular of a key is a name like the key unless it is a reserved word. -/
theorem isNameWord_singular (h : IsListKey key) : Graph.isNameWord (Text.lowerFirst key) = true ↔
    ¬ Name.EndsLine key ∧ Text.lowerFirst key ∉ Name.reserved := by
  obtain ⟨c, rest, hkey, hlower, -⟩ := h.lowerFirst_toList
  obtain ⟨_, _, hkey', hc, -⟩ := h.exists_initial
  obtain ⟨rfl, rfl⟩ := List.cons.inj (hkey.symm.trans hkey')
  have hlow : Name.isInitial c.toLower = true := by
    have hascii := Name.toLower_ascii c.toNat (Name.toNat_lt_of_isInitial hc)
    rw [Char.ofNat_toNat] at hascii
    exact hascii hc
  have hchar {d : Char} (hd : Name.isInitial d = true) : Graph.isWordChar d = true :=
    Graph.isWordChar_of_isFollowing (Name.isFollowing_of_isInitial hd)
  have hname :
      Graph.mayName (Text.lowerFirst key) = true ↔ Text.lowerFirst key ∉ Name.reserved := by
    rw [Graph.mayName_iff, and_iff_right]
    exact ⟨_, _, hlower, by rw [Graph.isWordInitial, hlow, Bool.true_or]⟩
  rw [Graph.isNameWord, Bool.and_eq_true, hname, List.all_eq_true, hlower, List.forall_mem_cons,
    and_iff_right (hchar hlow), ← Name.isWordChar_iff_not_endsLine h.1, hkey, List.forall_mem_cons,
    and_iff_right (hchar hc)]

set_option maxRecDepth 8000 in
theorem isFreeName_iff (h : IsListKey key) : Graph.IsFreeName key ↔ ¬ Name.EndsLine key := by
  rw [Graph.isFreeName_iff h.1, and_iff_left]
  rintro ⟨w, rfl⟩
  obtain ⟨c, rest, hkey, -, hcapital⟩ := h.exists_initial
  rw [String.toList_append] at hkey
  have hc : c = '_' := (List.cons.inj hkey).1.symm
  rw [hc] at hcapital
  exact absurd hcapital (by decide)

end IsListKey

/-! ## Compiled schemas -/

namespace Declarations

variable {d : Declarations} {s : Schema} {l : ListType}

theorem isIdentifier_field (h : d.compile = .ok s) (hl : l ∈ s.lists) {e : String × Field}
    (he : e ∈ l.fields) : Name.isIdentifier e.1 = true := by
  obtain ⟨decl, -, hmakes⟩ := exists_makes h hl
  have hkey := assembleFields_isFieldKey hmakes.fields he
  rw [isFieldKey, Bool.and_eq_true] at hkey
  exact hkey.1

/-- The fields of the inputs of a list go by the keys of its fields. -/
theorem mem_operationFields (h : d.compile = .ok s) (hl : l ∈ s.lists) {op : Operation}
    {a : String × Arg} (ha : a ∈ Graph.operationFields l op) : ∃ e ∈ l.fields, e.1 = a.1 := by
  obtain ⟨f, hf, hsome⟩ := List.mem_filterMap.1 ha
  obtain ⟨arg, -, rfl⟩ := Option.map_eq_some_iff.1 hsome
  obtain ⟨e, he, rfl⟩ := List.mem_map.1 (List.mem_filter.1 hf).1
  exact ⟨e, he, (field_key h hl he).symm⟩

/-- The outputs of the records of a list go by identifiers. -/
theorem isIdentifier_output (h : d.compile = .ok s) (hl : l ∈ s.lists) {o : Graph.Output}
    (ho : o ∈ Graph.recordOutputs l) : Name.isIdentifier o.name = true := by
  obtain ⟨⟨key, f⟩, hf, ho⟩ := List.mem_flatMap.1 ho
  rcases List.mem_append.1 ho with ho | ho
  · obtain ⟨_, -, rfl⟩ := List.mem_map.1 ho
    have hkey := isIdentifier_field h hl hf
    exact hkey
  · obtain ⟨⟨name, _⟩, hextra, rfl⟩ := List.mem_map.1 ho
    obtain ⟨decl, -, hmakes⟩ := exists_makes h hl
    have hsound := hmakes.sound
    simp only [listProblems, List.append_eq_nil_iff, List.flatMap_eq_nil_iff] at hsound
    have hname := List.flatMap_eq_nil_iff.1 (hsound.1.2 _ hf) _ hextra
    simp only [Storage.complain] at hname
    split at hname
    · cases hname
    · next hclash =>
      rw [Bool.or_eq_true, not_or, Bool.not_eq_true', Bool.not_eq_false] at hclash
      exact hclash.2

theorem toSchema_eq (h : d.compile = .ok s) : d.toSchema =
    if s.lists.all Graph.hasClasses then .ok s else .error .badName := by
  rw [toSchema, h]
  show (if (!s.lists.all Graph.hasClasses) = true then _ else _) = _
  cases s.lists.all Graph.hasClasses <;> rfl

/-- A line feed in the name of a resolver ends the making of the schema. -/
theorem toSchema_badName (h : d.compile = .ok s) (hl : l ∈ s.lists)
    (hline : ∃ o ∈ Graph.recordOutputs l, Name.EndsLine l.key ∨ Name.EndsLine o.name) :
    d.toSchema = .error .badName := by
  obtain ⟨o, ho, hline⟩ := hline
  rw [toSchema_eq h, if_neg]
  intro hall
  have hclasses := List.all_eq_true.1 hall l hl
  rw [Graph.hasClasses, Bool.and_eq_true, List.all_eq_true, List.all_eq_true] at hclasses
  have hword := Graph.Signature.isScriptWord_of_isReadable (hclasses.2 _ (List.mem_map_of_mem ho))
  have hmem : '\n' ∈ (Graph.resolverName l.key o.name).toList := by
    simp only [Graph.resolverName, String.toList_append, List.mem_append]
    exact hline.elim (fun hkey => .inl (.inl (.inr hkey.mem))) fun hname => .inr hname.mem
  exact absurd (hword.2 _ hmem) (by decide)

/-- Without line feeds in its names the schema is made, whatever the fields: only the names of
arguments are not checked before. -/
theorem toSchema_eq_ok (hd : d.Declared) (h : d.compile = .ok s)
    (hnames : ∀ l ∈ s.lists, ¬ Name.EndsLine l.key ∧ (∀ e ∈ l.fields, ¬ Name.EndsLine e.1) ∧
      ∀ o ∈ Graph.recordOutputs l, ¬ Name.EndsLine o.name ∧
        Graph.Signature.WellNamed (Graph.Signature.ofArgs o.name o.args).params) :
    d.toSchema = .ok s := by
  rw [toSchema_eq h, if_pos]
  refine List.all_eq_true.2 fun l hl => ?_
  obtain ⟨hkey, hfields, houtputs⟩ := hnames l hl
  have hattributes (op : Operation) :
      (Graph.operationFields l op).all (fun a => Graph.isNameWord a.1) = true := by
    refine List.all_eq_true.2 fun a ha => ?_
    obtain ⟨e, he, hname⟩ := mem_operationFields h hl ha
    rw [← hname]
    exact (Name.isNameWord_iff_not_endsLine (isIdentifier_field h hl he)).2 (hfields e he)
  have hscripts : ∀ g ∈ Graph.recordSignatures l, g.isReadable = true := by
    intro g hg
    obtain ⟨o, ho, rfl⟩ := List.mem_map.1 hg
    obtain ⟨hline, hparams⟩ := houtputs o ho
    refine (Graph.Signature.isReadable_iff hparams).2 ?_
    exact (Name.isNameWord_resolverName (hd.names_eq h hl).1.1 (isIdentifier_output h hl ho)).2
      ⟨hkey, hline⟩
  have hcombinators : (Graph.combinators l.names).all (fun a => Graph.isNameWord a.1) = true := by
    rw [Graph.combinators, List.all_map]
    show ["AND", "OR", "NOT"].all Graph.isNameWord = true
    decide
  rw [Graph.hasClasses, List.all_eq_true.2 hscripts, Bool.and_true]
  simp only [Graph.operationInputs, List.all_cons, List.all_append, List.all_nil, hattributes,
    hcombinators, Bool.and_true]

end Declarations

namespace Graph

open Signature

/-- What passes for an identifier is a word that is not reserved, or any word with a line feed
behind it. So the keys of a compiled schema are names in the query language and in scripts, alone
and in the names of resolvers and mutations, exactly when they do not end with a line feed. Names
of fields that begin with two underscores are kept for the query language, and the singular of a
list may be a reserved word. -/
theorem keys_splice (text : String) :
    (Name.isIdentifier text = true ↔
      (Name.IsWord text ∧ text ∉ Name.reserved) ∨ ∃ w, Name.IsWord w ∧ text = w ++ "\n") ∧
    ∀ (d : Declarations) (s : Schema), d.Declared → d.compile = .ok s → ∀ l ∈ s.lists,
      (IsFreeName l.key ↔ ¬ Name.EndsLine l.key) ∧
      (∀ e ∈ l.fields,
        (IsFreeName e.1 ↔ ¬ Name.EndsLine e.1 ∧ ¬ ∃ w : String, e.1 = "__" ++ w)) ∧
      (∀ params, WellNamed params →
        (∀ name ∈ [l.key, l.names.create, l.names.update],
          (isReadable ⟨name, params⟩ = true ↔ ¬ Name.EndsLine l.key)) ∧
        (isReadable ⟨l.names.singular, params⟩ = true ↔
          ¬ Name.EndsLine l.key ∧ l.names.singular ∉ Name.reserved) ∧
        ∀ e ∈ l.fields,
          (isReadable ⟨e.1, params⟩ = true ↔ ¬ Name.EndsLine e.1) ∧
          (isReadable ⟨resolverName l.key e.1, params⟩ = true ↔
            ¬ Name.EndsLine l.key ∧ ¬ Name.EndsLine e.1)) ∧
      ((∃ o ∈ recordOutputs l, Name.EndsLine l.key ∨ Name.EndsLine o.name) →
        d.toSchema = .error .badName) := by
  refine ⟨Name.isIdentifier_iff text, fun d s hd h l hl => ?_⟩
  obtain ⟨hkey, plural, hnames⟩ := hd.names_eq h hl
  have hfield (e : String × Field) (he : e ∈ l.fields) : Name.isIdentifier e.1 = true :=
    Declarations.isIdentifier_field h hl he
  refine ⟨hkey.isFreeName_iff, fun e he => isFreeName_iff (hfield e he), fun params hparams => ?_,
    Declarations.toSchema_badName h hl⟩
  rw [hnames]
  refine ⟨?lists, (isReadable_iff hparams).trans hkey.isNameWord_singular,
    fun e he => ⟨?own, ?resolver⟩⟩
  case lists =>
    have hmutation {w : String} (hword : Name.IsWord w)
        (hnone : ∀ r ∈ Name.reserved, ¬ w.toList <+: r.toList) :
        isReadable ⟨w ++ l.key, params⟩ = true ↔ ¬ Name.EndsLine l.key :=
      (isReadable_iff hparams).trans (Name.isNameWord_append_key hword hnone hkey.1)
    have hcreate : Name.IsWord "create" := Name.spellsWord_iff.1 (by decide)
    have hupdate : Name.IsWord "update" := Name.spellsWord_iff.1 (by decide)
    intro name hname
    simp only [List.mem_cons, List.not_mem_nil, or_false] at hname
    obtain rfl | rfl | rfl := hname
    · exact (isReadable_iff hparams).trans (Name.isNameWord_iff_not_endsLine hkey.1)
    · exact hmutation hcreate (by decide)
    · exact hmutation hupdate (by decide)
  case own => exact (isReadable_iff hparams).trans (Name.isNameWord_iff_not_endsLine (hfield e he))
  case resolver =>
    exact (isReadable_iff hparams).trans (Name.isNameWord_resolverName hkey.1 (hfield e he))

/-! ## Notes on classes -/

/-- A list of classes with a title, and with a note behind whose key stands a line feed. -/
def classes (note : FieldSpec) : Declarations :=
  ({} : Declarations).declare {
    key := "Class"
    specs := [("title", .scalar .text {}), ("note\n", note)] }

/-- A column that nothing is wired to. -/
def unwired : FieldSpec where
  build := fun _ => .ok { storage := .scalar { scalar := .text } }

theorem classes_declared (note : FieldSpec) : (classes note).Declared :=
  .declare (.start _ _ _) (by simp)

theorem classes_facts :
    ((classes (.scalar .text {})).compile.isOk = true ∧
      ∃ l ∈ (classes (.scalar .text {})).compile.result.lists,
        (l.key = "Class" ∧ l.names.create = "createClass" ∧ l.names.singular = "class") ∧
        (∃ e ∈ l.fields, e.1 = "title") ∧ (∃ e ∈ l.fields, e.1 = "note\n") ∧
        ∃ o ∈ recordOutputs l, o.name = "note\n") ∧
    (classes unwired).toSchema.isOk = true ∧
      ∃ l ∈ (classes unwired).toSchema.result.lists, ∃ e ∈ l.fields, e.1 = "note\n" := by
  decide +kernel

/-- The parameters of a search. -/
def searchParams : List Parameter :=
  [⟨"where", true⟩, ⟨"orderBy", true⟩, ⟨"take", true⟩, ⟨"skip", true⟩, ⟨"cursor", true⟩]

theorem searchParams_wellNamed : WellNamed searchParams :=
  .of_names ["where", "orderBy", "take", "skip", "cursor"] rfl (by decide) (by decide)

theorem keys_splice_classes : ∃ s, (classes (.scalar .text {})).compile = .ok s ∧
    (∃ l ∈ s.lists, l.key = "Class" ∧ IsFreeName l.key ∧
      isReadable ⟨"createClass", searchParams⟩ = true ∧
      ¬ isReadable ⟨"class", searchParams⟩ = true ∧
      isReadable ⟨resolverName "Class" "title", searchParams⟩ = true ∧
      ¬ isReadable ⟨resolverName "Class" "note\n", searchParams⟩ = true) ∧
    (classes (.scalar .text {})).toSchema = .error .badName := by
  obtain ⟨⟨hok, l, hl, ⟨hkey, hcreate, hsingular⟩, ⟨title, htitle, ht⟩, ⟨note, hnote, hn⟩,
    o, ho, hname⟩, -⟩ := classes_facts
  have hs := Except.eq_ok_result hok
  obtain ⟨hfree, -, hread, hmake⟩ := (keys_splice "Class").2 _ _ (classes_declared _) hs l hl
  obtain ⟨hlists, hone, hfields⟩ := hread searchParams searchParams_wellNamed
  have hplain : ¬ Name.EndsLine l.key := by
    rw [hkey, Name.endsLine_iff]
    decide
  refine ⟨_, hs, ⟨l, hl, hkey, hfree.2 hplain, ?_, ?_, ?_, ?_⟩, hmake ⟨o, ho, .inr ?_⟩⟩
  · rw [← hcreate]
    exact (hlists _ (by simp)).2 hplain
  · rw [← hsingular]
    exact fun hc => (hone.1 hc).2 (by rw [hsingular]; decide)
  · rw [← hkey, ← ht]
    exact (hfields title htitle).2.2 ⟨hplain, by rw [ht, Name.endsLine_iff]; decide⟩
  · rw [← hkey, ← hn]
    exact fun hc => ((hfields note hnote).2.1 hc).2 ⟨"note", hn⟩
  · exact ⟨"note", hname⟩

/-- A line feed passes for the end of an identifier, and a schema is made with a key that no script
and no query can name anything by. -/
theorem note_unspliced :
    (¬ ∀ s : String, Name.isIdentifier s = true ↔ Name.IsWord s ∧ s ∉ Name.reserved) ∧
    ∃ s, (classes unwired).toSchema = .ok s ∧ ∃ l ∈ s.lists, ∃ e ∈ l.fields,
      ¬ IsFreeName e.1 ∧ ∀ params, ¬ isReadable ⟨e.1, params⟩ = true := by
  have hline : Name.EndsLine "note\n" := ⟨"note", rfl⟩
  refine ⟨fun hall => ((hall "note\n").1 (by decide)).1.not_endsLine hline, ?_⟩
  obtain ⟨-, hok, l, hl, e, he, hkey⟩ := classes_facts
  refine ⟨_, Except.eq_ok_result hok, l, hl, e, he, ?_, ?_⟩
  · rw [hkey]
    exact fun hfree => (isName_iff.1 hfree.1).not_endsLine hline
  · rw [hkey]
    exact fun params hread =>
      not_endsLine_of_isWordChar (isScriptWord_of_isReadable hread).2 hline

end Graph

end RecordSchema
