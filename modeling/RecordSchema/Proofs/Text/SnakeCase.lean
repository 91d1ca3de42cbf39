import RecordSchema.Proofs.Field.BuiltIn
import RecordSchema.Proofs.Lists
import RecordSchema.Proofs.Store.Folding

/-!
# Snake case

A name in snake case is made of segments with an underscore between any
two. Each segment begins with a small letter, so that its first character
has a capital, which stands for the underscore in front of it in camel
case and nowhere else. Nothing is lost, and names in snake case come back
from camel case and from Pascal case (`Name.snakeCase_kept`). So the
enumerations of the choices of one list, which are named for the Pascal
case of their keys, are told apart by their names.
-/

namespace RecordSchema

/-! ## Characters of a segment -/

namespace Name

/-- A small letter of ASCII. -/
def isSmall (c : Char) : Bool :=
  'a' ≤ c && c ≤ 'z'

/-- A character that may stand behind the first one of a segment. -/
def isPlain (c : Char) : Bool :=
  isSmall c || ('0' ≤ c && c ≤ '9')

theorem isPlain_of_isSmall {c : Char} (h : isSmall c = true) : isPlain c = true := by
  rw [isPlain, h, Bool.true_or]

theorem ofNat_toNat_of_isPlain {c : Char} (h : isPlain c = true) :
    c.toNat < 128 ∧ c = Char.ofNat c.toNat := by
  refine ⟨?_, (Char.ofNat_toNat c).symm⟩
  simp only [isPlain, isSmall, Bool.or_eq_true, Bool.and_eq_true, decide_eq_true_eq,
    Char.le_def, UInt32.le_iff_toNat_le] at h
  have hz : 'z'.val.toNat = 122 := rfl
  have h9 : '9'.val.toNat = 57 := rfl
  show c.val.toNat < 128
  omega

set_option maxRecDepth 8000 in
theorem plain_facts : ∀ n < 128, isPlain (Char.ofNat n) = true →
    Char.ofNat n ≠ '_' ∧ isCapital (Char.ofNat n) = false ∧
      (Char.ofNat n).toLower = Char.ofNat n := by
  decide

set_option maxRecDepth 8000 in
theorem small_facts : ∀ n < 128, isSmall (Char.ofNat n) = true →
    isCapital (Char.ofNat n).toUpper = true ∧
      (Char.ofNat n).toUpper.toLower = Char.ofNat n ∧ (Char.ofNat n).toUpper.toNat < 128 ∧
      Text.titleChar (Char.ofNat n) = [(Char.ofNat n).toUpper] ∧
      Text.upperChar (Char.ofNat n) = [(Char.ofNat n).toUpper] := by
  decide

/-- What a plain character is not, and that it has no lower case. -/
theorem plain_char {c : Char} (h : isPlain c = true) :
    c ≠ '_' ∧ isCapital c = false ∧ c.toLower = c := by
  obtain ⟨hlt, hc⟩ := ofNat_toNat_of_isPlain h
  rw [hc] at h ⊢
  exact plain_facts c.toNat hlt h

/-- The capital of a small letter. -/
theorem small_char {c : Char} (h : isSmall c = true) :
    isCapital c.toUpper = true ∧ c.toUpper.toLower = c ∧ c.toUpper.toNat < 128 ∧
      Text.titleChar c = [c.toUpper] ∧ Text.upperChar c = [c.toUpper] := by
  obtain ⟨hlt, hc⟩ := ofNat_toNat_of_isPlain (isPlain_of_isSmall h)
  rw [hc] at h ⊢
  exact small_facts c.toNat hlt h

/-! ## Segments -/

/-- A segment of a name: a small letter and then small letters and digits. -/
def isSegment : List Char → Bool
  | [] => false
  | c :: rest => isSmall c && rest.all isPlain

/-- Whether a name is one or more segments with an underscore between any two. -/
def IsSnakeCase (s : String) : Prop :=
  ∃ first rest, isSegment first = true ∧ (∀ seg ∈ rest, isSegment seg = true) ∧
    s.toList = ['_'].intercalate (first :: rest)

/-- A segment with its first letter as a capital. -/
def capital : List Char → List Char
  | [] => []
  | c :: rest => c.toUpper :: rest

theorem isPlain_of_mem_segment {seg : List Char} (h : isSegment seg = true) :
    ∀ c ∈ seg, isPlain c = true := by
  cases seg with
  | nil => nofun
  | cons c rest =>
    obtain ⟨hc, hrest⟩ := Bool.and_eq_true_iff.1 h
    exact List.forall_mem_cons.2 ⟨isPlain_of_isSmall hc, List.all_eq_true.1 hrest⟩

theorem segments_of_notMem {seg : List Char} (h : '_' ∉ seg) : segments seg = [seg] := by
  induction seg with
  | nil => rfl
  | cons c rest ih =>
    obtain ⟨hc, hrest⟩ := not_or.1 (List.mem_cons.not.1 h)
    rw [segments, if_neg (by simpa using Ne.symm hc), ih hrest]

/-- A segment ends at the first underscore. -/
theorem segments_append {seg : List Char} (h : '_' ∉ seg) (cs : List Char) :
    segments (seg ++ '_' :: cs) = seg :: segments cs := by
  induction seg with
  | nil => rfl
  | cons c rest ih =>
    obtain ⟨hc, hrest⟩ := not_or.1 (List.mem_cons.not.1 h)
    rw [List.cons_append, segments, if_neg (by simpa using Ne.symm hc), ih hrest]

/-- Splitting at underscores finds the parts that were joined. -/
theorem segments_intercalate {first : List Char} {rest : List (List Char)}
    (h : ∀ seg ∈ first :: rest, '_' ∉ seg) :
    segments (['_'].intercalate (first :: rest)) = first :: rest := by
  induction rest generalizing first with
  | nil => rw [List.intercalate_singleton, segments_of_notMem (h first (.head _))]
  | cons second rest ih =>
    obtain ⟨hfirst, hrest⟩ := List.forall_mem_cons.1 h
    rw [List.intercalate_cons_cons, List.append_assoc, List.singleton_append,
      segments_append hfirst, ih hrest]

/-! ## Camel case -/

theorem capitalize_segment {seg : List Char} (h : isSegment seg = true) :
    (Text.capitalize (String.ofList seg)).toList = capital seg := by
  cases seg with
  | nil => cases h
  | cons c rest =>
    obtain ⟨hc, hrest⟩ := Bool.and_eq_true_iff.1 h
    have hplain := List.all_eq_true.1 hrest
    have hascii : ∀ d ∈ rest, d.toNat < 128 := fun d hd => (ofNat_toNat_of_isPlain (hplain d hd)).1
    have hlower : rest.map Char.toLower = rest :=
      (List.map_congr_left fun d hd => (plain_char (hplain d hd)).2.2).trans (List.map_id _)
    rw [Text.capitalize, String.toList_ofList]
    show (String.ofList (Text.titleChar c ++ Text.lowerFrom [c] rest)).toList = c.toUpper :: rest
    rw [(small_char hc).2.2.2.1, Text.lowerFrom_ascii [c] hascii, hlower, String.toList_ofList]
    rfl

/-- In camel case all segments but the first have a capital, and nothing stands between them. -/
theorem toList_toCamel {s : String} {first : List Char} {rest : List (List Char)}
    (hfirst : isSegment first = true) (hrest : ∀ seg ∈ rest, isSegment seg = true)
    (hs : s.toList = ['_'].intercalate (first :: rest)) :
    (toCamel s).toList = first ++ rest.flatMap capital := by
  have hnone : ∀ seg ∈ first :: rest, '_' ∉ seg := by
    intro seg hseg hmem
    have hsegment : isSegment seg = true := by
      rcases List.mem_cons.1 hseg with rfl | hseg
      · exact hfirst
      · exact hrest seg hseg
    exact (plain_char (isPlain_of_mem_segment hsegment _ hmem)).1 rfl
  rw [toCamel, hs, segments_intercalate hnone]
  show (String.ofList first ++ String.join _).toList = _
  rw [String.toList_append, String.toList_ofList, String.toList_join, List.flatMap_map]
  exact congrArg (first ++ ·) (List.flatMap_congr fun seg hseg => capitalize_segment (hrest seg hseg))

/-! ## And back -/

theorem splitWords_append (as bs : List Char) :
    splitWords (as ++ bs) = splitWords as ++ splitWords bs :=
  List.flatMap_append

theorem splitWords_plain {cs : List Char} (h : ∀ c ∈ cs, isPlain c = true) : splitWords cs = cs := by
  induction cs with
  | nil => rfl
  | cons c rest ih =>
    obtain ⟨hc, hrest⟩ := List.forall_mem_cons.1 h
    have hhead : splitWords (c :: rest) = (if isCapital c then ['_', c] else [c]) ++ splitWords rest :=
      List.flatMap_cons
    rw [hhead, (plain_char hc).2.1, ih hrest]
    rfl

/-- A capital begins a word, and the rest of a segment goes on with it. -/
theorem splitWords_capital {seg : List Char} (h : isSegment seg = true) :
    splitWords (capital seg) = '_' :: capital seg := by
  cases seg with
  | nil => cases h
  | cons c rest =>
    obtain ⟨hc, hrest⟩ := Bool.and_eq_true_iff.1 h
    have hhead : splitWords (c.toUpper :: rest) =
        (if isCapital c.toUpper then ['_', c.toUpper] else [c.toUpper]) ++ splitWords rest :=
      List.flatMap_cons
    rw [capital, hhead, (small_char hc).1, splitWords_plain (List.all_eq_true.1 hrest)]
    rfl

theorem splitWords_flatMap_capital {segs : List (List Char)}
    (h : ∀ seg ∈ segs, isSegment seg = true) :
    splitWords (segs.flatMap capital) = segs.flatMap fun seg => '_' :: capital seg := by
  induction segs with
  | nil => rfl
  | cons seg rest ih =>
    obtain ⟨hseg, hrest⟩ := List.forall_mem_cons.1 h
    rw [List.flatMap_cons, List.flatMap_cons, splitWords_append, splitWords_capital hseg, ih hrest]

/-- The lower case of a segment with a capital is the segment. -/
theorem lower_capital {seg : List Char} (h : isSegment seg = true) :
    (∀ c ∈ capital seg, c.toNat < 128) ∧ (capital seg).map Char.toLower = seg := by
  cases seg with
  | nil => cases h
  | cons c rest =>
    obtain ⟨hc, hrest⟩ := Bool.and_eq_true_iff.1 h
    have hplain := List.all_eq_true.1 hrest
    refine ⟨List.forall_mem_cons.2 ⟨(small_char hc).2.2.1, fun d hd =>
      (ofNat_toNat_of_isPlain (hplain d hd)).1⟩, ?_⟩
    rw [capital, List.map_cons, (small_char hc).2.1]
    exact congrArg (c :: ·)
      ((List.map_congr_left fun d hd => (plain_char (hplain d hd)).2.2).trans (List.map_id _))

theorem lower_segments {segs : List (List Char)} (h : ∀ seg ∈ segs, isSegment seg = true) :
    (∀ c ∈ segs.flatMap fun seg => '_' :: capital seg, c.toNat < 128) ∧
      (segs.flatMap fun seg => '_' :: capital seg).map Char.toLower =
        segs.flatMap fun seg => ['_'] ++ seg := by
  constructor
  · intro c hc
    obtain ⟨seg, hseg, hc⟩ := List.mem_flatMap.1 hc
    rcases List.mem_cons.1 hc with rfl | hc
    · decide
    · exact (lower_capital (h seg hseg)).1 c hc
  · rw [List.map_flatMap]
    refine List.flatMap_congr fun seg hseg => ?_
    rw [List.map_cons, (lower_capital (h seg hseg)).2]
    rfl

/-- Camel case goes back to snake case, whether or not the first letter is a capital: the first
character is no place to split at. -/
theorem fromCamel_of_toList {s camel : String} {x c : Char} {others : List Char}
    {rest : List (List Char)} (hx : x.toLower = c ∧ x.toNat < 128)
    (hothers : ∀ d ∈ others, isPlain d = true) (hrest : ∀ seg ∈ rest, isSegment seg = true)
    (hcamel : camel.toList = x :: (others ++ rest.flatMap capital))
    (hs : s.toList = ['_'].intercalate ((c :: others) :: rest)) : fromCamel camel = s := by
  obtain ⟨hascii, hlower⟩ := lower_segments hrest
  have hall : ∀ d ∈ x :: (others ++ rest.flatMap fun seg => '_' :: capital seg), d.toNat < 128 := by
    refine List.forall_mem_cons.2 ⟨hx.2, List.forall_mem_append.2 ⟨fun d hd => ?_, hascii⟩⟩
    exact (ofNat_toNat_of_isPlain (hothers d hd)).1
  have hsame : others.map Char.toLower = others :=
    (List.map_congr_left fun d hd => (plain_char (hothers d hd)).2.2).trans (List.map_id _)
  rw [fromCamel, hcamel]
  show Text.lower (String.ofList (x :: splitWords (others ++ rest.flatMap capital))) = s
  rw [splitWords_append, splitWords_plain hothers, splitWords_flatMap_capital hrest, Text.lower,
    String.toList_ofList, Text.lowerFrom_ascii [] hall, List.map_cons, List.map_append, hsame, hlower,
    hx.1, ← String.toList_inj, String.toList_ofList, hs, List.intercalate_cons, List.cons_append]

theorem fromCamel_toCamel {s : String} (h : IsSnakeCase s) : fromCamel (toCamel s) = s := by
  obtain ⟨first, rest, hfirst, hrest, hs⟩ := h
  cases first with
  | nil => cases hfirst
  | cons c others =>
    have hplain := List.forall_mem_cons.1 (isPlain_of_mem_segment hfirst)
    exact fromCamel_of_toList ⟨(plain_char hplain.1).2.2, (ofNat_toNat_of_isPlain hplain.1).1⟩
      hplain.2 hrest (toList_toCamel hfirst hrest hs) hs

theorem fromCamel_pascal {s : String} (h : IsSnakeCase s) : fromCamel (pascal s) = s := by
  obtain ⟨first, rest, hfirst, hrest, hs⟩ := h
  cases first with
  | nil => cases hfirst
  | cons c others =>
    have hplain := List.forall_mem_cons.1 (isPlain_of_mem_segment hfirst)
    have hsmall := small_char (Bool.and_eq_true_iff.1 hfirst).1
    have hpascal : (pascal s).toList = c.toUpper :: (others ++ rest.flatMap capital) := by
      rw [pascal, Text.upperFirst, toList_toCamel hfirst hrest hs]
      show (String.ofList (Text.upperChar c ++ (others ++ rest.flatMap capital))).toList = _
      rw [hsmall.2.2.2.2, String.toList_ofList]
      rfl
    exact fromCamel_of_toList ⟨hsmall.2.1, hsmall.2.2.1⟩ hplain.2 hrest hpascal hs

theorem pascal_inj {s t : String} (hs : IsSnakeCase s) (ht : IsSnakeCase t)
    (h : pascal s = pascal t) : s = t := by
  rw [← fromCamel_pascal hs, h, fromCamel_pascal ht]

end Name

/-! ## Names of enumerations -/

/-- Whether a field is a choice with an enumeration, and is of that type in the API. -/
def Field.IsChoice (f : Field) (e : EnumField) : Prop :=
  f.storage = .enum e ∧ f.output.map (·.type) =
    some (columnOutput (FieldSpec.enumType e.name e.values) e.mode)

/-- A choice whose enumeration is not named is named for its list and its key. -/
theorem FieldSpec.exists_isChoice {o : SelectOptions} {d : BuildData} {f : Field}
    (hname : given? o.enumName = none) (h : (select o).assemble d = .ok f) :
    ∃ e, f.IsChoice e ∧ e.name = d.list ++ Name.pascal d.key ++ "Type" := by
  obtain ⟨t, hbuild, ht⟩ := assemble_ok h
  obtain ⟨hlegal, -, -, -, hstorage, -⟩ := FieldType.assemble_ok ht
  have houtput := FieldType.assemble_output ht
  simp only [select, hname, Option.getD_none] at hbuild
  split at hbuild
  · next hodd =>
    -- Values that no enumeration can have are problems of the storage.
    obtain rfl := Except.pure_eq_ok.1 hbuild
    simp only [Storage.problems, Storage.enumProblems] at hlegal
    split at hlegal
    · cases hlegal
    · next hvalues =>
      rw [Bool.or_eq_true] at hodd
      rw [hodd.resolve_left hvalues] at hlegal
      cases hlegal
  · obtain ⟨_, -, hbuild⟩ := Except.bind_eq_ok.1 hbuild
    obtain rfl := Except.pure_eq_ok.1 hbuild
    exact ⟨_, ⟨hstorage, by rw [houtput, Option.map_some]⟩, rfl⟩

/-- Names in snake case come back from camel case and from Pascal case, so Pascal case tells them
apart. The enumerations of two choices of one list have different names when the keys are in
snake case and nothing else names the enumerations. -/
theorem Name.snakeCase_kept :
    (∀ s, IsSnakeCase s → fromCamel (toCamel s) = s ∧ fromCamel (pascal s) = s) ∧
    (∀ s t, IsSnakeCase s → IsSnakeCase t → pascal s = pascal t → s = t) ∧
    ∀ (o o' : FieldSpec.SelectOptions) (d d' : BuildData) (f f' : Field), d.list = d'.list →
      IsSnakeCase d.key → IsSnakeCase d'.key → d.key ≠ d'.key →
      given? o.enumName = none → given? o'.enumName = none →
      (FieldSpec.select o).assemble d = .ok f → (FieldSpec.select o').assemble d' = .ok f' →
      ∃ e e', f.IsChoice e ∧ f'.IsChoice e' ∧ e.name ≠ e'.name := by
  refine ⟨fun s hs => ⟨fromCamel_toCamel hs, fromCamel_pascal hs⟩, fun s t => pascal_inj, ?_⟩
  intro o o' d d' f f' hlist hkey hkey' hne hname hname' hf hf'
  obtain ⟨e, he, hen⟩ := FieldSpec.exists_isChoice hname hf
  obtain ⟨e', he', hen'⟩ := FieldSpec.exists_isChoice hname' hf'
  refine ⟨e, e', he, he', fun heq => hne (pascal_inj hkey hkey' ?_)⟩
  rw [hen, hen', hlist, ← String.toList_inj] at heq
  simp only [String.toList_append] at heq
  exact String.toList_inj.1 (List.append_cancel_left (List.append_cancel_right heq))

/-- What the builder of a field of a person knows. -/
def personField (key : String) : BuildData where
  list := "Person"
  key := key
  lists := ["Person"]

/-- An underscore in front of a digit or a letter is kept, so that two choices of a person whose
keys differ in underscores only have enumerations of their own. -/
theorem Name.snakeCase_kept_towns : fromCamel (pascal "home_town2") = "home_town2" ∧
    ∃ f f' e e', (FieldSpec.select { options := [.text "a"] }).assemble (personField "home_town2") =
        .ok f ∧
      (FieldSpec.select { options := [.text "a"] }).assemble (personField "hometown2") = .ok f' ∧
      f.IsChoice e ∧ f'.IsChoice e' ∧ e.name ≠ e'.name := by
  have hkey : IsSnakeCase "home_town2" :=
    ⟨"home".toList, ["town2".toList], by decide, by decide, by decide⟩
  have hkey' : IsSnakeCase "hometown2" := ⟨"hometown2".toList, [], by decide, nofun, by decide⟩
  have hassembled : ∀ key ∈ ["home_town2", "hometown2"],
      ((FieldSpec.select { options := [.text "a"] }).assemble (personField key)).isOk = true := by
    decide +kernel
  obtain ⟨f, hf⟩ := Except.isOk_iff.1 (hassembled _ (.head _))
  obtain ⟨f', hf'⟩ := Except.isOk_iff.1 (hassembled _ (.tail _ (.head _)))
  obtain ⟨hback, -, hnames⟩ := snakeCase_kept
  obtain ⟨e, e', he, he', hne⟩ := hnames { options := [.text "a"] } { options := [.text "a"] }
    (personField "home_town2") (personField "hometown2") f f' rfl hkey hkey' (by decide) rfl rfl hf hf'
  exact ⟨(hback _ hkey).2, f, f', e, e', hf, hf', he, he', hne⟩

end RecordSchema
