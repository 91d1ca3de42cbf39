import Mathlib.Data.List.Forall2
import RecordSchema.Proofs.Field.BuiltIn
import RecordSchema.Proofs.Lists
import RecordSchema.Proofs.Relation.Sides
import RecordSchema.Schema.Declaration
import RecordSchema.Store.Query

/-!
# Compiled schemas

Facts about the schemas that declarations compile to. Lists have keys of
their own and so have the fields of a list; every field is assembled
from one of the declared specifications; the plans are those of
`Relations.plan`, which found no problem. `Database.Compiles` ties a
database to the declarations behind it, and the facts about a database
are stated under it.
-/

namespace RecordSchema

namespace Declarations

/-! ## Declaring -/

/-- Declarations as authors make them: one list after the other, each with
specifications by their keys. -/
inductive Declared : Declarations → Prop where
  | start (provider : String) (setPolicy : SetPolicy) (configuration : Value.Entries) :
    Declared { provider, setPolicy, configuration }
  | declare {d : Declarations} {l : ListDeclaration} :
    Declared d → (l.specs.map Prod.fst).Nodup → Declared (d.declare l)

theorem withId_nodup {specs : List (String × FieldSpec)} (h : (specs.map Prod.fst).Nodup) :
    ((withId specs).map Prod.fst).Nodup := by
  unfold withId
  split
  · exact h
  · next hid =>
    refine List.nodup_cons.2 ⟨fun hmem => hid ?_, h⟩
    obtain ⟨e, he, hk⟩ := List.mem_map.1 hmem
    exact List.any_eq_true.2 ⟨e, he, by simpa using hk⟩

/-- A list that replaces another takes over its key. -/
theorem map_key_replace (ls : List ListDeclaration) (l : ListDeclaration) :
    (ls.map fun m => if m.key == l.key then l else m).map (·.key) = ls.map (·.key) := by
  rw [List.map_map]
  refine List.map_congr_left fun m _ => ?_
  simp only [Function.comp_apply]
  split
  · next h => exact (eq_of_beq h).symm
  · rfl

theorem Declared.keys_nodup {d : Declarations} (h : d.Declared) : (d.lists.map (·.key)).Nodup := by
  induction h with
  | start => exact List.nodup_nil
  | @declare d l _ _ ih =>
    simp only [Declarations.declare]
    split
    · rw [map_key_replace d.lists { l with specs := withId l.specs }]
      exact ih
    · next hnew =>
      rw [List.map_append]
      refine List.nodup_append.2 ⟨ih, List.nodup_singleton _, ?_⟩
      rintro a ha b hb rfl
      obtain ⟨m, hm, hk⟩ := List.mem_map.1 ha
      refine hnew (List.any_eq_true.2 ⟨m, hm, ?_⟩)
      simpa [hk] using List.mem_singleton.1 hb

/-- The specifications of a list have keys of their own. -/
theorem Declared.specs_nodup {d : Declarations} (h : d.Declared) :
    ∀ l ∈ d.lists, (l.specs.map Prod.fst).Nodup := by
  induction h with
  | start => simp
  | @declare d l _ hl ih =>
    intro m hm
    simp only [Declarations.declare] at hm
    split at hm
    · obtain ⟨n, hn, rfl⟩ := List.mem_map.1 hm
      split
      · exact withId_nodup hl
      · exact ih n hn
    · rcases List.mem_append.1 hm with hm | hm
      · exact ih m hm
      · rw [List.mem_singleton.1 hm]
        exact withId_nodup hl

/-- What holds of the specifications of every list and of the key field still holds when
a list is declared. -/
theorem forall_specs_declare {P : FieldSpec → Prop} {d : Declarations}
    (h : ∀ l ∈ d.lists, ∀ e ∈ l.specs, P e.2) (hkey : P (.id (some "ID"))) {l : ListDeclaration}
    (hl : ∀ e ∈ l.specs, P e.2) : ∀ m ∈ (d.declare l).lists, ∀ e ∈ m.specs, P e.2 := by
  have hid : ∀ e ∈ withId l.specs, P e.2 := by
    unfold withId
    split
    · exact hl
    · exact List.forall_mem_cons.2 ⟨hkey, hl⟩
  intro m hm
  simp only [Declarations.declare] at hm
  split at hm
  · obtain ⟨n, hn, rfl⟩ := List.mem_map.1 hm
    split
    · exact hid
    · exact h n hn
  · rcases List.mem_append.1 hm with hm | hm
    · exact h m hm
    · rw [List.mem_singleton.1 hm]
      exact hid

/-- Whether every field is declared through a factory. -/
def UsesBuiltIns (d : Declarations) : Prop :=
  ∀ l ∈ d.lists, ∀ e ∈ l.specs, e.2.IsBuiltIn

theorem UsesBuiltIns.declare {d : Declarations} (h : d.UsesBuiltIns) {l : ListDeclaration}
    (hl : ∀ e ∈ l.specs, e.2.IsBuiltIn) : (d.declare l).UsesBuiltIns :=
  forall_specs_declare h (.scalar .int _) hl

/-! ## Assembling -/

/-- What a builder of a field knows. -/
def buildData (d : Declarations) (list key : String) : BuildData where
  list := list
  key := key
  lists := d.lists.map (·.key)
  provider := d.provider
  configuration := d.configuration

theorem assembleField_isFieldKey {d : Declarations} {list key : String} {spec : FieldSpec}
    {a : Assembled} (h : d.assembleField list key spec = .ok a) {e : String × Field}
    (he : e ∈ a.fields) : isFieldKey key = true := by
  unfold assembleField at h
  split at h
  · cases h
    exact absurd he List.not_mem_nil
  · next hkey => simpa using hkey

theorem assembleField_mem {d : Declarations} {list key : String} {spec : FieldSpec} {a : Assembled}
    (h : d.assembleField list key spec = .ok a) {e : String × Field} (he : e ∈ a.fields) :
    a.fields = [e] ∧ e.1 = key ∧ spec.assemble (d.buildData list key) = .ok e.2 := by
  unfold assembleField at h
  split at h
  · cases h
    exact absurd he List.not_mem_nil
  · dsimp only at h
    split at h
    · next f hf =>
      cases h
      rw [List.mem_singleton] at he
      subst he
      exact ⟨rfl, rfl, hf⟩
    · cases h
      exact absurd he List.not_mem_nil
    · cases h

theorem assembleFields_cons {d : Declarations} {list key : String} {spec : FieldSpec}
    {r : List (String × FieldSpec)} {a : Assembled}
    (h : d.assembleFields list ((key, spec) :: r) = .ok a) :
    ∃ here rest, d.assembleField list key spec = .ok here ∧ d.assembleFields list r = .ok rest ∧
      a = { fields := here.fields ++ rest.fields, problems := here.problems ++ rest.problems } := by
  simp only [assembleFields, Except.bind_eq_ok, Except.pure_eq_ok] at h
  obtain ⟨here, hhere, rest, hrest, rfl⟩ := h
  exact ⟨here, rest, hhere, hrest, rfl⟩

theorem assembleFields_mem {d : Declarations} {list : String} {specs : List (String × FieldSpec)}
    {a : Assembled} (h : d.assembleFields list specs = .ok a) {e : String × Field}
    (he : e ∈ a.fields) :
    ∃ spec, (e.1, spec) ∈ specs ∧ spec.assemble (d.buildData list e.1) = .ok e.2 := by
  induction specs generalizing a with
  | nil =>
    cases h
    exact absurd he List.not_mem_nil
  | cons s r ih =>
    obtain ⟨key, spec⟩ := s
    obtain ⟨here, rest, hhere, hrest, rfl⟩ := assembleFields_cons h
    rcases List.mem_append.1 he with he | he
    · obtain ⟨-, rfl, hf⟩ := assembleField_mem hhere he
      exact ⟨spec, List.mem_cons_self, hf⟩
    · obtain ⟨spec', hmem, hf⟩ := ih hrest he
      exact ⟨spec', List.mem_cons_of_mem _ hmem, hf⟩

theorem assembleFields_isFieldKey {d : Declarations} {list : String}
    {specs : List (String × FieldSpec)} {a : Assembled} (h : d.assembleFields list specs = .ok a)
    {e : String × Field} (he : e ∈ a.fields) : isFieldKey e.1 = true := by
  induction specs generalizing a with
  | nil =>
    cases h
    exact absurd he List.not_mem_nil
  | cons s r ih =>
    obtain ⟨key, spec⟩ := s
    obtain ⟨here, rest, hhere, hrest, rfl⟩ := assembleFields_cons h
    rcases List.mem_append.1 he with he | he
    · obtain ⟨-, rfl, -⟩ := assembleField_mem hhere he
      exact assembleField_isFieldKey hhere he
    · exact ih hrest he

theorem assembleFields_sublist {d : Declarations} {list : String}
    {specs : List (String × FieldSpec)} {a : Assembled}
    (h : d.assembleFields list specs = .ok a) :
    (a.fields.map Prod.fst).Sublist (specs.map Prod.fst) := by
  induction specs generalizing a with
  | nil =>
    cases h
    exact List.Sublist.refl _
  | cons s r ih =>
    obtain ⟨key, spec⟩ := s
    obtain ⟨here, rest, hhere, hrest, rfl⟩ := assembleFields_cons h
    simp only [List.map_append, List.map_cons]
    cases hf : here.fields with
    | nil => exact (ih hrest).cons key
    | cons e es =>
      have hmem : e ∈ here.fields := hf ▸ List.mem_cons_self
      obtain ⟨hone, rfl, -⟩ := assembleField_mem hhere hmem
      rw [← hf, hone]
      exact (ih hrest).cons_cons e.1

/-! ## Compiling -/

/-- What a compilation without problems makes of a declared list. -/
structure Makes (d : Declarations) (decl : ListDeclaration) (l : ListType) : Prop where
  key : l.key = decl.key
  fields : d.assembleFields decl.key decl.specs = .ok { fields := l.fields }
  sound : listProblems l.key l.fields = []

theorem assembleLists_makes {d : Declarations} {ls : List ListDeclaration} {lists : List ListType}
    (h : d.assembleLists ls = .ok (lists, [])) : List.Forall₂ d.Makes ls lists := by
  induction ls generalizing lists with
  | nil =>
    cases h
    exact .nil
  | cons l r ih =>
    simp only [assembleLists, Except.bind_eq_ok, Except.pure_eq_ok, Prod.mk.injEq,
      List.append_eq_nil_iff] at h
    obtain ⟨a, ha, ⟨rest, ps⟩, hrest, rfl, ⟨hps, hlist⟩, rfl⟩ := h
    refine .cons ⟨rfl, ?_, hlist⟩ (ih hrest)
    rw [ha, ← hps]

theorem map_key_of_makes {d : Declarations} {ls : List ListDeclaration} {lists : List ListType}
    (h : List.Forall₂ d.Makes ls lists) : lists.map (·.key) = ls.map (·.key) := by
  induction h with
  | nil => rfl
  | cons hl _ ih => rw [List.map_cons, List.map_cons, hl.key, ih]

/-- Everything that a compilation that succeeds has checked. -/
theorem compile_ok {d : Declarations} {s : Schema} (h : d.compile = .ok s) :
    List.Forall₂ d.Makes d.lists s.lists ∧ Relations.plan (kinds s.lists) = (s.plans, []) := by
  simp only [compile, Except.bind_eq_ok] at h
  obtain ⟨_, -, ⟨lists, fieldProblems⟩, hlists, h⟩ := h
  split at h
  · exact absurd h Except.throw_ne_ok
  · next hnone =>
    simp only [List.append_eq_nil_iff] at hnone
    obtain ⟨⟨-, hfields⟩, hrelations⟩ := hnone
    obtain rfl := Except.pure_eq_ok.1 h
    rw [hfields] at hlists
    exact ⟨assembleLists_makes hlists, Prod.ext rfl hrelations⟩

section Compile

variable {d : Declarations} {s : Schema} {l : ListType}

theorem exists_makes (h : d.compile = .ok s) (hl : l ∈ s.lists) : ∃ decl ∈ d.lists, d.Makes decl l :=
  (compile_ok h).1.exists_left hl

theorem assembled (h : d.compile = .ok s) (hl : l ∈ s.lists) {key : String} {f : Field}
    (hf : (key, f) ∈ l.fields) :
    ∃ decl ∈ d.lists, ∃ spec, (key, spec) ∈ decl.specs ∧
      spec.assemble (d.buildData l.key key) = .ok f := by
  obtain ⟨decl, hdecl, hmakes⟩ := exists_makes h hl
  obtain ⟨spec, hspec, hok⟩ := assembleFields_mem hmakes.fields hf
  exact ⟨decl, hdecl, spec, hspec, hmakes.key ▸ hok⟩

theorem field_key (h : d.compile = .ok s) (hl : l ∈ s.lists) {key : String} {f : Field}
    (hf : (key, f) ∈ l.fields) : f.key = key := by
  obtain ⟨_, -, spec, -, hok⟩ := assembled h hl hf
  obtain ⟨t, -, ht⟩ := FieldSpec.assemble_ok hok
  obtain ⟨-, -, -, hkey, -⟩ := FieldType.assemble_ok ht
  exact hkey

theorem problems_eq_nil (h : d.compile = .ok s) (hl : l ∈ s.lists) {key : String} {f : Field}
    (hf : (key, f) ∈ l.fields) : f.storage.problems = [] := by
  obtain ⟨_, -, spec, -, hok⟩ := assembled h hl hf
  exact FieldSpec.problems_eq_nil hok

theorem Declared.lists_nodup (hd : d.Declared) (h : d.compile = .ok s) :
    (s.lists.map (·.key)).Nodup := by
  rw [map_key_of_makes (compile_ok h).1]
  exact hd.keys_nodup

theorem Declared.fields_nodup (hd : d.Declared) (h : d.compile = .ok s) (hl : l ∈ s.lists) :
    (l.fields.map Prod.fst).Nodup := by
  obtain ⟨decl, hdecl, hmakes⟩ := exists_makes h hl
  exact (assembleFields_sublist hmakes.fields).nodup (hd.specs_nodup decl hdecl)

theorem Declared.planned (hd : d.Declared) (h : d.compile = .ok s) :
    (kinds s.lists).Planned s.plans where
  lists := by
    simpa only [kinds, List.map_map, Function.comp_def] using hd.lists_nodup h
  fields := by
    intro e he
    obtain ⟨l, hl, rfl⟩ := List.mem_map.1 he
    simpa only [List.map_map, Function.comp_def] using hd.fields_nodup h hl
  plan := (compile_ok h).2

end Compile

end Declarations

namespace Database

/-- The database of the lists that are declared. -/
structure Compiles (db : Database) (d : Declarations) : Prop where
  declared : d.Declared
  compiled : d.compile = .ok db.schema
  laidOut : Layout.ofSchema db.schema = .ok db.layout

namespace Compiles

variable {db : Database} {d : Declarations} {l : ListType}

theorem keys_nodup (h : db.Compiles d) : (db.schema.lists.map (·.key)).Nodup :=
  h.declared.lists_nodup h.compiled

theorem eq_of_key (h : db.Compiles d) {l' : ListType} (hl : l ∈ db.schema.lists)
    (hl' : l' ∈ db.schema.lists) (hkey : l.key = l'.key) : l = l' :=
  List.inj_on_of_nodup_map h.keys_nodup hl hl' hkey

theorem exists_makes (h : db.Compiles d) (hl : l ∈ db.schema.lists) :
    ∃ decl ∈ d.lists, d.Makes decl l :=
  Declarations.exists_makes h.compiled hl

theorem fields_nodup (h : db.Compiles d) (hl : l ∈ db.schema.lists) :
    (l.fields.map Prod.fst).Nodup :=
  h.declared.fields_nodup h.compiled hl

theorem assembled (h : db.Compiles d) (hl : l ∈ db.schema.lists) {key : String} {f : Field}
    (hf : (key, f) ∈ l.fields) :
    ∃ decl ∈ d.lists, ∃ spec, (key, spec) ∈ decl.specs ∧
      spec.assemble (d.buildData l.key key) = .ok f :=
  Declarations.assembled h.compiled hl hf

theorem field_key (h : db.Compiles d) (hl : l ∈ db.schema.lists) {key : String} {f : Field}
    (hf : (key, f) ∈ l.fields) : f.key = key :=
  Declarations.field_key h.compiled hl hf

theorem builtIn (h : db.Compiles d) (hb : d.UsesBuiltIns) (hl : l ∈ db.schema.lists)
    {key : String} {f : Field} (hf : (key, f) ∈ l.fields) :
    ∃ spec : FieldSpec, spec.IsBuiltIn ∧ spec.assemble (d.buildData l.key key) = .ok f := by
  obtain ⟨decl, hdecl, spec, hspec, hok⟩ := h.assembled hl hf
  exact ⟨spec, hb decl hdecl _ hspec, hok⟩

theorem not_logicalKey (h : db.Compiles d) (hl : l ∈ db.schema.lists) {key : String} {f : Field}
    (hf : (key, f) ∈ l.fields) : logicalKeys.contains key = false := by
  obtain ⟨decl, -, hmakes⟩ := h.exists_makes hl
  have hkey := Declarations.assembleFields_isFieldKey hmakes.fields hf
  simp only [Declarations.isFieldKey, Bool.and_eq_true, Bool.not_eq_true'] at hkey
  exact hkey.2

theorem list?_eq (h : db.Compiles d) (hl : l ∈ db.schema.lists) :
    db.schema.list? l.key = some l :=
  Keys.find?_of_mem h.keys_nodup hl

theorem field?_eq (h : db.Compiles d) (hl : l ∈ db.schema.lists) {key : String} {f : Field}
    (hf : (key, f) ∈ l.fields) : l.field? key = some f :=
  Keys.lookup_of_mem (h.fields_nodup hl) hf

theorem isNumberedKey (h : db.Compiles d) (hl : l ∈ db.schema.lists) {f : Field}
    (hf : ("id", f) ∈ l.fields) : Declarations.isNumberedKey f = true := by
  obtain ⟨decl, -, hmakes⟩ := h.exists_makes hl
  have hsound := hmakes.sound
  simp only [Declarations.listProblems, List.append_eq_nil_iff,
    Keys.lookup_of_mem (h.fields_nodup hl) hf, Storage.complain] at hsound
  simpa using hsound.1.1

theorem problems_eq_nil (h : db.Compiles d) (hl : l ∈ db.schema.lists) {key : String} {f : Field}
    (hf : (key, f) ∈ l.fields) : f.storage.problems = [] :=
  Declarations.problems_eq_nil h.compiled hl hf

theorem defaultProblems_eq_nil (h : db.Compiles d) (hl : l ∈ db.schema.lists) {key : String}
    {f : Field} (hf : (key, f) ∈ l.fields) : f.storage.defaultProblems = .ok [] := by
  obtain ⟨_, -, spec, -, hok⟩ := h.assembled hl hf
  exact FieldSpec.defaultProblems_eq_nil hok

theorem planned (h : db.Compiles d) :
    (Declarations.kinds db.schema.lists).Planned db.schema.plans :=
  h.declared.planned h.compiled

theorem exists_ends (h : db.Compiles d) {p : RelationPlan} (hp : p ∈ db.schema.plans) :
    (∃ l ∈ db.schema.lists, l.key = p.list) ∧ ∃ l ∈ db.schema.lists, l.key = p.target := by
  have hends := h.planned.ends_mem hp
  simpa only [Declarations.kinds, List.map_map, Function.comp_def, List.mem_map] using hends

theorem plan?_eq (h : db.Compiles d) {p : RelationPlan} (hp : p ∈ db.schema.plans) :
    db.schema.plan? p.list p.field = some p := by
  have hsome : (db.schema.plan? p.list p.field).isSome :=
    List.find?_isSome.2 ⟨p, hp, by simp⟩
  obtain ⟨q, hq⟩ := Option.isSome_iff_exists.1 hsome
  have hkeys := List.find?_some hq
  simp only [Bool.and_eq_true, beq_iff_eq] at hkeys
  rw [hq, h.planned.eq_of_mem (List.mem_of_find?_eq_some hq) hp hkeys.1 hkeys.2]

theorem plan_eq_ok (h : db.Compiles d) {p : RelationPlan} (hp : p ∈ db.schema.plans) :
    db.plan p.list p.field = .ok p := by
  rw [plan, h.plan?_eq hp]

theorem exists_relation (h : db.Compiles d) {p : RelationPlan} (hp : p ∈ db.schema.plans)
    (hl : l ∈ db.schema.lists) (hkey : p.list = l.key) :
    ∃ f r, (p.field, f) ∈ l.fields ∧ f.storage = .relation r ∧ p.target = r.list ∧
      p.mode = r.mode := by
  obtain ⟨r, hr, hplan⟩ := h.planned.planOf_of_mem hp
  obtain ⟨-, -, htarget, hmode, -⟩ := Relations.planOf_ok hplan
  obtain ⟨fields, hfields, hf⟩ := Relations.mem_of_relation? hr
  obtain ⟨l', hl', heq⟩ := List.mem_map.1 hfields
  obtain ⟨hlist, rfl⟩ := Prod.mk.inj heq
  obtain rfl := h.eq_of_key hl' hl (hlist.trans hkey)
  obtain ⟨⟨key, f⟩, hmem, heq⟩ := List.mem_map.1 hf
  obtain ⟨rfl, hstorage⟩ := Prod.mk.inj heq
  exact ⟨f, r, hmem, hstorage, htarget, hmode⟩

/-- A relation field has a plan. -/
theorem exists_plan (h : db.Compiles d) (hl : l ∈ db.schema.lists) {key : String} {f : Field}
    (hf : (key, f) ∈ l.fields) {r : RelationField} (hr : f.storage = .relation r) :
    ∃ p ∈ db.schema.plans, p.list = l.key ∧ p.field = key := by
  have hrelation : (Declarations.kinds db.schema.lists).relation? l.key key = some r :=
    h.planned.isMapping.relation?_of_mem (List.mem_map.2 ⟨l, hl, rfl⟩)
      (List.mem_map.2 ⟨(key, f), hf, Prod.ext rfl hr⟩)
  obtain ⟨p, hp, hplan⟩ := h.planned.exists_planOf hrelation
  obtain ⟨hlist, hfield, -⟩ := Relations.planOf_ok hplan
  exact ⟨p, hp, hlist, hfield⟩

end Compiles

theorem plan_ok {db : Database} {list field : String} {p : RelationPlan}
    (h : db.plan list field = .ok p) :
    p ∈ db.schema.plans ∧ p.list = list ∧ p.field = field := by
  unfold plan at h
  split at h
  · next q hq =>
    cases h
    have hkeys := List.find?_some hq
    simp only [Bool.and_eq_true, beq_iff_eq] at hkeys
    exact ⟨List.mem_of_find?_eq_some hq, hkeys⟩
  · cases h

end Database

theorem Schema.mem_of_list? {s : Schema} {key : String} {l : ListType} (h : s.list? key = some l) :
    l ∈ s.lists ∧ l.key = key :=
  Keys.of_find?_eq_some h

/-! ## Databases of declarations -/

instance : Inhabited Schema :=
  ⟨⟨[], [], "", .reject⟩⟩

instance : Inhabited Database :=
  ⟨{ schema := default, layout := ⟨[], []⟩ }⟩

/-- The database of the declared lists. -/
def Declarations.database (d : Declarations) : Except Fault Database := do
  Database.ofSchema (← d.compile)

theorem Declarations.Declared.compiles {d : Declarations} (hd : d.Declared)
    (h : d.database.isOk = true) : d.database.result.Compiles d := by
  have hok := Except.eq_ok_result h
  generalize d.database.result = db at hok ⊢
  simp only [Declarations.database, Database.ofSchema, Except.bind_eq_ok, Except.map_eq_ok] at hok
  obtain ⟨schema, hschema, layout, hlayout, rfl⟩ := hok
  exact ⟨hd, hschema, hlayout⟩

/-- A schema of posts with tags, of which the posts alone know. -/
def blog : Declarations :=
  (({} : Declarations).declare {
    key := "Post"
    specs := [("title", .scalar .text {}), ("tags", .relationship { ref := "Tag", many := true })]
  }).declare {
    key := "Tag"
    specs := [("name", .scalar .text { unique := true })] }

/-- A supply without any chance. -/
def blogSupply : Supply where
  random := fun n => n
  clock := fun _ => default
  fingerprint := 0

theorem blog_compiles : blog.database.result.Compiles blog :=
  Declarations.Declared.compiles (.declare (.declare (.start _ _ _) (by decide)) (by decide))
    (by decide +kernel)

theorem blog_usesBuiltIns : blog.UsesBuiltIns := by
  have hstart : ({} : Declarations).UsesBuiltIns := nofun
  have hpost : ∀ e ∈ [("title", FieldSpec.scalar .text {}),
      ("tags", .relationship { ref := "Tag", many := true })], e.2.IsBuiltIn :=
    List.forall_mem_cons.2 ⟨.scalar .text _, List.forall_mem_singleton.2 (.relationship _)⟩
  exact (hstart.declare hpost).declare (List.forall_mem_singleton.2 (.scalar .text _))

end RecordSchema
