import Mathlib.Data.List.Flatten
import RecordSchema.Proofs.Schema.Compiled
import RecordSchema.Proofs.Shape.Column

/-!
# Reports of problems

No problem of a schema hides another. A field reports the problems of its
defaults and then those of each wired operation, and what an operation
adds does not depend on the others (`FieldType.assemble_reports`). A
compilation goes on behind a field that could not be assembled, so that
its report holds that of every field (`Declarations.compile_reports`).

There is one mistake that is not reported: the classes of the API are
made before anything is checked, and none can be made for a list with a
null character in its key. The declaration of the list has noted that its
key is no identifier, but the compilation ends before it says so.
-/

namespace RecordSchema

/-- A check that has found `ps` succeeds when these are no problems, and lists them otherwise. -/
def Reports {α : Type} (x : Except Fault α) (ps : List String) : Prop :=
  if ps = [] then ∃ a, x = .ok a else x = .error (.configuration ps)

/-- The problems that a check lists. -/
def reported {α : Type} : Except Fault α → List String
  | .error (.configuration ps) => ps
  | _ => []

theorem Reports.reported_eq {α : Type} {x : Except Fault α} {ps : List String} (h : Reports x ps) :
    reported x = ps := by
  unfold Reports at h
  split at h
  · next hnil =>
    obtain ⟨a, rfl⟩ := h
    exact hnil.symm
  · rw [h, reported]

theorem reports_of_reported {α : Type} {x : Except Fault α} {ps : List String}
    (h : reported x = ps) (hps : ps ≠ []) : Reports x ps := by
  rw [Reports, if_neg hps]
  unfold reported at h
  split at h
  · rw [h]
  · exact absurd h.symm hps

/-! ## Fields -/

namespace Storage

variable {s : Storage}

/-- The obligation of a legal field is settled unless its argument has no shape. -/
theorem obligation_error (hs : s.problems = []) {op : Operation} {arg : Option Arg} {e : Fault}
    (h : s.obligation op arg = .error e) : ∃ c, e = .argumentType c := by
  obtain ⟨target, htarget⟩ := exists_shape hs op
  unfold obligation at h
  rw [htarget] at h
  cases arg with
  | none => cases h
  | some a =>
    cases hshape : a.type.argumentShape a.hasDefault with
    | ok shape =>
      obtain ⟨input, hinput⟩ : ∃ input, a.inputShape op = .ok input := by
        rw [Arg.inputShape, hshape]
        exact ⟨_, rfl⟩
      simp only [Except.mapError, hinput] at h
      rcases hcompatible : a.assumeCompatible with _ | _ | _ <;> rw [hcompatible] at h <;> cases h
    | error c =>
      have hinput : a.inputShape op = .error (.argumentType c) := by
        rw [Arg.inputShape, hshape]
        rfl
      simp only [Except.mapError, hinput] at h
      cases h
      exact ⟨c, rfl⟩

/-- Every wired operation of a legal field is either kept or refused. -/
theorem exists_checkInput (hs : s.problems = []) (w : Wired) (i : FieldInput) :
    ∃ c, s.checkInput w i = .ok c := by
  unfold checkInput
  split
  · exact ⟨_, rfl⟩
  · split
    · exact ⟨_, rfl⟩
    · split
      · exact ⟨_, rfl⟩
      · split
        · exact ⟨_, rfl⟩
        · exact ⟨_, rfl⟩
        · next op _ _ e hother h =>
          obtain ⟨c, rfl⟩ := obligation_error hs h
          exact absurd rfl (hother c)

/-- The problems of one wired operation. -/
def inputProblems (s : Storage) (w : Wired × FieldInput) : List String :=
  match s.checkInput w.1 w.2 with
  | .ok c => c.problems
  | .error _ => []

end Storage

namespace FieldType

variable {t : FieldType}

theorem exists_checks {s : Storage} (hs : s.problems = []) (inputs : List (Wired × FieldInput)) :
    ∃ checks : List (InputCheck × FieldInput),
      inputs.mapM (fun (w, i) => do return (← s.checkInput w i, i)) = .ok checks ∧
      checks.flatMap (fun c => c.1.problems) = inputs.flatMap s.inputProblems := by
  induction inputs with
  | nil => exact ⟨[], rfl, rfl⟩
  | cons e r ih =>
    obtain ⟨w, i⟩ := e
    obtain ⟨c, hc⟩ := Storage.exists_checkInput hs w i
    obtain ⟨checks, hchecks, hproblems⟩ := ih
    refine ⟨(c, i) :: checks, ?_, ?_⟩
    · rw [List.mapM_cons, hchecks]
      dsimp only
      rw [hc]
      rfl
    · rw [List.flatMap_cons, List.flatMap_cons, hproblems, Storage.inputProblems, hc]

theorem exists_checked (hs : t.storage.problems = []) {ds : List String}
    (hd : t.storage.defaultProblems = .ok ds) :
    ∃ kept, t.checked = .ok (ds ++ t.inputs.flatMap t.storage.inputProblems, kept) := by
  obtain ⟨checks, hchecks, hproblems⟩ := exists_checks hs t.inputs
  unfold checked
  rw [hs, hd, hchecks, ← hproblems]
  exact ⟨_, rfl⟩

theorem assemble_of_checked {ps : List String} {kept : List (Operation × FieldInput × Verdict)}
    (h : t.checked = .ok (ps, kept)) (list key : String) (label : Option String) :
    Reports (t.assemble list key label) (ps.map fun p => list ++ "." ++ key ++ ": " ++ p) := by
  unfold assemble
  rw [h]
  cases ps with
  | nil =>
    rw [Reports, if_pos List.map_nil]
    exact ⟨_, rfl⟩
  | cons p r =>
    rw [Reports, if_neg (by simp)]
    rfl

/-- A field reports the problems of its defaults, and then those of each wired operation. -/
theorem assemble_reports (hs : t.storage.problems = []) {ds : List String}
    (hd : t.storage.defaultProblems = .ok ds) (list key : String) (label : Option String) :
    Reports (t.assemble list key label)
      ((ds ++ t.inputs.flatMap t.storage.inputProblems).map fun p =>
        list ++ "." ++ key ++ ": " ++ p) := by
  obtain ⟨kept, hchecked⟩ := exists_checked hs hd
  exact assemble_of_checked hchecked list key label

/-- A field ends in a report whether it is legal or not. -/
theorem exists_reports (hd : ∃ ds, t.storage.defaultProblems = .ok ds) (list key : String)
    (label : Option String) : ∃ ps, Reports (t.assemble list key label) ps := by
  cases hs : t.storage.problems with
  | nil =>
    obtain ⟨ds, hds⟩ := hd
    exact ⟨_, assemble_reports hs hds list key label⟩
  | cons p r =>
    have hchecked : t.checked = .ok (p :: r, []) := by
      rw [checked, hs]
    exact ⟨_, assemble_of_checked hchecked list key label⟩

end FieldType

/-! ## Schemas -/

namespace Declarations

variable {d : Declarations}

/-- A field with a valid key is built, and the problems of its defaults are a list. -/
def Built (d : Declarations) (list : String) (e : String × FieldSpec) : Prop :=
  isFieldKey e.1 = true →
    ∃ t, e.2.build (d.buildData list e.1) = .ok t ∧ ∃ ds, t.storage.defaultProblems = .ok ds

/-- What a compilation reports of a field. -/
def fieldReport (d : Declarations) (list : String) (e : String × FieldSpec) : List String :=
  if isFieldKey e.1 then reported (e.2.assemble (d.buildData list e.1))
  else [list ++ "." ++ e.1 ++ ": not a valid field key"]

/-- What a compilation reports of the fields of a list. -/
def listReport (d : Declarations) (l : ListDeclaration) : List String :=
  l.specs.flatMap (d.fieldReport l.key)

theorem assembleField_valid {list key : String} {spec : FieldSpec} (hkey : isFieldKey key = true) :
    d.assembleField list key spec = match spec.assemble (d.buildData list key) with
      | .ok f => .ok { fields := [(key, f)] }
      | .error (.configuration ps) => .ok { problems := ps }
      | .error e => .error e := by
  rw [assembleField, hkey]
  rfl

theorem Built.reports {list : String} {e : String × FieldSpec} (h : d.Built list e)
    (hkey : isFieldKey e.1 = true) : ∃ ps, Reports (e.2.assemble (d.buildData list e.1)) ps := by
  obtain ⟨t, ht, hds⟩ := h hkey
  rw [FieldSpec.assemble, ht]
  exact t.exists_reports hds list e.1 e.2.label

theorem Built.assembleField {list : String} {e : String × FieldSpec} (h : d.Built list e) :
    ∃ a, d.assembleField list e.1 e.2 = .ok a ∧ a.problems = d.fieldReport list e := by
  by_cases hkey : isFieldKey e.1 = true
  · obtain ⟨ps, hps⟩ := h.reports hkey
    rw [fieldReport, if_pos hkey, assembleField_valid hkey, hps.reported_eq]
    unfold Reports at hps
    split at hps
    · next hnil =>
      obtain ⟨f, hf⟩ := hps
      rw [hf]
      exact ⟨_, rfl, hnil.symm⟩
    · rw [hps]
      exact ⟨_, rfl, rfl⟩
  · rw [fieldReport, if_neg hkey, Declarations.assembleField, if_pos (by simpa using hkey)]
    exact ⟨_, rfl, rfl⟩

/-- Assembling goes on behind a field that has problems. -/
theorem exists_assembleFields {list : String} {specs : List (String × FieldSpec)}
    (hbuilt : ∀ e ∈ specs, d.Built list e) :
    ∃ a, d.assembleFields list specs = .ok a ∧ a.problems = specs.flatMap (d.fieldReport list) := by
  induction specs with
  | nil => exact ⟨{}, rfl, rfl⟩
  | cons e r ih =>
    obtain ⟨he, hr⟩ := List.forall_mem_cons.1 hbuilt
    obtain ⟨here, hhere, hproblems⟩ := he.assembleField
    obtain ⟨rest, hrest, hproblems'⟩ := ih hr
    refine ⟨{ fields := here.fields ++ rest.fields, problems := here.problems ++ rest.problems },
      ?_, ?_⟩
    · rw [assembleFields, hhere, hrest]
      rfl
    · rw [List.flatMap_cons, hproblems, hproblems']

/-- The report of each list stands in one piece in that of all lists, in their order. -/
theorem exists_assembleLists {ls : List ListDeclaration}
    (hbuilt : ∀ l ∈ ls, ∀ e ∈ l.specs, d.Built l.key e) :
    ∃ lists ps, d.assembleLists ls = .ok (lists, ps) ∧ (ls.flatMap d.listReport).Sublist ps ∧
      ∀ l ∈ ls, d.listReport l <:+: ps := by
  induction ls with
  | nil => exact ⟨[], [], rfl, .slnil, nofun⟩
  | cons l r ih =>
    obtain ⟨hl, hr⟩ := List.forall_mem_cons.1 hbuilt
    obtain ⟨a, ha, hproblems⟩ := exists_assembleFields hl
    obtain ⟨lists, ps, hlists, hsublist, hpiece⟩ := ih hr
    refine ⟨{ key := l.key, names := .ofKey l.key l.plural, fields := a.fields,
              description := l.description } :: lists,
      a.problems ++ listProblems l.key a.fields ++ ps, ?_, ?_, ?_⟩
    · rw [assembleLists, ha, hlists]
      rfl
    · rw [List.flatMap_cons, hproblems]
      exact (List.sublist_append_left _ _).append hsublist
    · refine List.forall_mem_cons.2 ⟨?_, fun m hm => (hpiece m hm).trans ?_⟩
      · rw [listReport, ← hproblems, List.append_assoc]
        exact (List.prefix_append _ _).isInfix
      · exact (List.suffix_append _ _).isInfix

/-- Where everything is assembled, the report of a schema ends its compilation. -/
theorem compile_of_assembleLists (hnames : d.checkNames = .ok ()) {lists : List ListType}
    {ps : List String} (hlists : d.assembleLists d.lists = .ok (lists, ps)) :
    Reports d.compile (d.problems ++ Storage.complain d.lists.isEmpty "schema declares no lists"
      ++ ps ++ (Relations.plan (kinds lists)).2) := by
  generalize hqs : d.problems ++ Storage.complain d.lists.isEmpty "schema declares no lists"
    ++ ps ++ (Relations.plan (kinds lists)).2 = qs
  cases qs with
  | cons p ps =>
    rw [Reports, if_neg (List.cons_ne_nil p ps), compile, hnames, hlists]
    simp only [bind, Except.bind, hqs]
    rfl
  | nil =>
    rw [Reports, if_pos rfl, compile, hnames, hlists]
    simp only [bind, Except.bind, hqs]
    exact ⟨_, rfl⟩

/-- Without a null character in the key of a list, compiling goes through all lists and fields. -/
theorem compile_reports (hbuilt : ∀ l ∈ d.lists, ∀ e ∈ l.specs, d.Built l.key e)
    (hnames : d.checkNames = .ok ()) :
    ∃ qs, Reports d.compile qs ∧ (d.lists.flatMap d.listReport).Sublist qs ∧
      ∀ l ∈ d.lists, d.listReport l <:+: qs := by
  obtain ⟨lists, ps, hlists, hsublist, hpiece⟩ := exists_assembleLists hbuilt
  have hpart (before behind : List String) : ps <:+: before ++ ps ++ behind :=
    ⟨before, behind, rfl⟩
  exact ⟨_, compile_of_assembleLists hnames hlists, hsublist.trans (hpart _ _).sublist,
    fun l hl => (hpiece l hl).trans (hpart _ _)⟩

theorem checkNames_ok (h : ∀ l ∈ d.lists, '\x00' ∉ l.key.toList) : d.checkNames = .ok () := by
  have hnone : (d.lists.any fun l => l.key.toList.contains '\x00') = false := by
    simpa [List.any_eq_false] using h
  rw [checkNames, hnone]
  rfl

theorem compile_nullCharacter (h : ∃ l ∈ d.lists, '\x00' ∈ l.key.toList) :
    d.compile = .error (.value .nullCharacter) := by
  have hany : (d.lists.any fun l => l.key.toList.contains '\x00') = true := by
    simpa [List.any_eq_true] using h
  rw [compile, checkNames, hany]
  rfl

/-- The report of a field stands in one piece in that of its list. -/
theorem isInfix_listReport {l : ListDeclaration} {e : String × FieldSpec}
    (hkey : isFieldKey e.1 = true) (he : e ∈ l.specs) {ps : List String}
    (hps : Reports (e.2.assemble (d.buildData l.key e.1)) ps) : ps <:+: d.listReport l := by
  have hreport : d.fieldReport l.key e = ps := by
    rw [fieldReport, if_pos hkey, hps.reported_eq]
  rw [listReport, List.flatMap_def, ← hreport]
  exact List.infix_of_mem_flatten (List.mem_map_of_mem he)

/-- A field reports the problems of its defaults and then, in the order of the wiring, what each
operation alone adds to them. A compilation reports what every field does, however many there
are, unless there is a null character in the key of a list; then it ends before anything is
checked. -/
theorem reports_everything (d : Declarations)
    (hbuilt : ∀ l ∈ d.lists, ∀ e ∈ l.specs, d.Built l.key e) :
    (∀ (t : FieldType) (list key : String) (label : Option String) (ds : List String),
      t.storage.problems = [] → t.storage.defaultProblems = .ok ds →
      ∃ alone : Wired × FieldInput → List String,
        (∀ w, Reports ({ t with inputs := [w] }.assemble list key label)
          ((ds ++ alone w).map fun p => list ++ "." ++ key ++ ": " ++ p)) ∧
        Reports (t.assemble list key label)
          ((ds ++ t.inputs.flatMap alone).map fun p => list ++ "." ++ key ++ ": " ++ p)) ∧
    ((∀ l ∈ d.lists, '\x00' ∉ l.key.toList) → ∃ qs, Reports d.compile qs ∧
      (d.lists.flatMap d.listReport).Sublist qs ∧
      ∀ l ∈ d.lists, ∀ e ∈ l.specs, isFieldKey e.1 = true →
        ∀ ps, Reports (e.2.assemble (d.buildData l.key e.1)) ps → ps <:+: qs) ∧
    ((∃ l ∈ d.lists, '\x00' ∈ l.key.toList) → d.compile = .error (.value .nullCharacter)) := by
  refine ⟨fun t list key label ds hs hd => ?field, fun hnames => ?schema, compile_nullCharacter⟩
  case field =>
    refine ⟨t.storage.inputProblems, fun w => ?_, FieldType.assemble_reports hs hd list key label⟩
    have halone := FieldType.assemble_reports (t := { t with inputs := [w] }) hs hd list key label
    rwa [List.flatMap_singleton] at halone
  case schema =>
    obtain ⟨qs, hqs, hsublist, hpiece⟩ := compile_reports hbuilt (checkNames_ok hnames)
    exact ⟨qs, hqs, hsublist, fun l hl e he hkey ps hps =>
      (isInfix_listReport hkey he hps).trans (hpiece l hl)⟩

/-! ## Drafts -/

/-- A column with a problem in its default and in each of its inputs. -/
def overloaded : FieldType where
  storage := .scalar {
    scalar := .text, mode := .many, default := some (.policy (.literal (.text "x"))) }
  inputs := [
    (.operation .create, { arg := some { type := .foreign "bytes" } }),
    (.operation .update, {}),
    (.operation .output, { arg := some { type := .scalar .text } })]

/-- A list of the key, and posts with an overloaded title and a rank that no key can be made for. -/
def drafts (key : String) : Declarations :=
  (({} : Declarations).declare { key, specs := [("title", .scalar .text {})] }).declare {
    key := "Post"
    specs := [("title", { build := fun _ => .ok overloaded }),
      ("rank", .scalar .int { default := some (.policy .cuid) })] }

theorem drafts_built (key : String) : ∀ l ∈ (drafts key).lists, ∀ e ∈ l.specs,
    (drafts key).Built l.key e := by
  let P (spec : FieldSpec) : Prop := ∀ data, ∃ t, spec.build data = .ok t ∧
    ∃ ds, t.storage.defaultProblems = .ok ds
  have hid : P (.id (some "ID")) := fun _ => ⟨_, rfl, _, rfl⟩
  have hnote : ∀ e ∈ [("title", FieldSpec.scalar .text {})], P e.2 :=
    List.forall_mem_singleton.2 fun _ => ⟨_, rfl, _, rfl⟩
  have hpost : ∀ e ∈ [("title", { build := fun _ => .ok overloaded }),
      ("rank", FieldSpec.scalar .int { default := some (.policy .cuid) })], P e.2 :=
    List.forall_mem_cons.2 ⟨fun _ => ⟨_, rfl, _, rfl⟩,
      List.forall_mem_singleton.2 fun _ => ⟨_, rfl, _, rfl⟩⟩
  have hall : ∀ l ∈ (drafts key).lists, ∀ e ∈ l.specs, P e.2 :=
    forall_specs_declare (forall_specs_declare nofun hid hnote) hid hpost
  exact fun l hl e he _ => hall l hl e he _

theorem drafts_keys (key : String) (hkey : key ≠ "Post") :
    (drafts key).lists.map (·.key) = [key, "Post"] := by
  simp [drafts, declare, hkey]

theorem exists_drafts_rank (key : String) (hkey : key ≠ "Post") :
    ∃ l ∈ (drafts key).lists, l.key = "Post" ∧
      ("rank", FieldSpec.scalar .int { default := some (.policy .cuid) }) ∈ l.specs := by
  simp [drafts, declare, withId, hkey]

theorem exists_nullCharacter : ∃ l ∈ (drafts "No\x00te").lists, '\x00' ∈ l.key.toList := by
  have hkeys := drafts_keys "No\x00te" (by decide)
  obtain ⟨l, hl, hkey⟩ := List.mem_map.1 (hkeys ▸ List.mem_cons_self :
    "No\x00te" ∈ (drafts "No\x00te").lists.map (·.key))
  exact ⟨l, hl, by rw [hkey]; decide⟩

/-- What the field of the rank reports. -/
def rankReport : List String := ["Post.rank: cuid default is not allowed on Int fields"]

theorem rank_reports : ∀ key ∈ ["Note", "No\x00te"],
    Reports ((FieldSpec.scalar .int { default := some (.policy .cuid) }).assemble
      ((drafts key).buildData "Post" "rank")) rankReport := by
  have hreported : ∀ key ∈ ["Note", "No\x00te"],
      reported ((FieldSpec.scalar .int { default := some (.policy .cuid) }).assemble
        ((drafts key).buildData "Post" "rank")) = rankReport := by
    decide +kernel
  exact fun key hkey => reports_of_reported (hreported key hkey) (by simp [rankReport])

theorem reports_everything_drafts :
    (∃ alone : Wired × FieldInput → List String,
      Reports (overloaded.assemble "Post" "title" none)
        (([Storage.manyDefaultProblem] ++ overloaded.inputs.flatMap alone).map fun p =>
          "Post" ++ "." ++ "title" ++ ": " ++ p)) ∧
    (∃ qs, (drafts "Note").compile = .error (.configuration qs) ∧ rankReport <:+: qs) ∧
    (drafts "No\x00te").compile = .error (.value .nullCharacter) := by
  obtain ⟨hfield, hschema, -⟩ := reports_everything (drafts "Note") (drafts_built "Note")
  obtain ⟨-, -, hnull⟩ := reports_everything (drafts "No\x00te") (drafts_built "No\x00te")
  refine ⟨?field, ?schema, hnull exists_nullCharacter⟩
  case field =>
    obtain ⟨alone, -, hall⟩ := hfield overloaded "Post" "title" none [Storage.manyDefaultProblem]
      rfl rfl
    exact ⟨alone, hall⟩
  case schema =>
    have hnames : ∀ l ∈ (drafts "Note").lists, '\x00' ∉ l.key.toList := by
      have hkeys : ∀ k ∈ ["Note", "Post"], '\x00' ∉ k.toList := by decide
      rw [← drafts_keys "Note" (by decide)] at hkeys
      exact fun l hl => hkeys _ (List.mem_map_of_mem hl)
    obtain ⟨qs, hqs, -, hpiece⟩ := hschema hnames
    obtain ⟨l, hl, hkey, he⟩ := exists_drafts_rank "Note" (by decide)
    have hrank := hpiece l hl _ he (by decide) rankReport
      (hkey ▸ rank_reports "Note" List.mem_cons_self)
    have hne : qs ≠ [] := by
      rintro rfl
      simp [rankReport] at hrank
    rw [Reports, if_neg hne] at hqs
    exact ⟨qs, hqs, hrank⟩

/-- The rank of the posts has a problem, and compiling lists none. -/
theorem draft_unreported :
    (∀ l ∈ (drafts "No\x00te").lists, ∀ e ∈ l.specs, (drafts "No\x00te").Built l.key e) ∧
    (∃ l ∈ (drafts "No\x00te").lists, ∃ e ∈ l.specs, isFieldKey e.1 = true ∧
      e.2.assemble ((drafts "No\x00te").buildData l.key e.1) =
        .error (.configuration rankReport)) ∧
    ¬ ∃ qs, (drafts "No\x00te").compile = .error (.configuration qs) := by
  refine ⟨drafts_built _, ?_, ?_⟩
  · obtain ⟨l, hl, hkey, he⟩ := exists_drafts_rank "No\x00te" (by decide)
    refine ⟨l, hl, _, he, by decide, ?_⟩
    have hne : rankReport ≠ [] := by simp [rankReport]
    have hreports := rank_reports "No\x00te" (by simp)
    rw [← hkey] at hreports
    rwa [Reports, if_neg hne] at hreports
  · rintro ⟨qs, hqs⟩
    rw [compile_nullCharacter exists_nullCharacter] at hqs
    cases hqs

end Declarations

end RecordSchema
