import Mathlib.Data.List.Flatten
import RecordSchema.Graph.Request
import RecordSchema.Proofs.Graph.KeyNames

/-!
# Root fields

The object classes `Query` and `Mutation` collect the fields of all lists,
list by list. Of several fields of one name the last one counts, in the
place of the first (`find?_foldl_putOutput`), and nobody is told of the
others.

Every list has its own two mutations, since they are named for its key.
Its three queries are its own where the names of the lists are apart
(`Schema.NamesApart`), and compilation does not ask for that: the plural
of `Post` is the singular of `Posts`.
-/

namespace RecordSchema

namespace Graph

/-! ## Fields of one name -/

section Outputs

variable {os : List Output} {o : Output}

/-- An output that takes the place of another has its name. -/
theorem name_replaced (o p : Output) : (if p.name == o.name then o else p).name = p.name := by
  split
  · next h => exact (eq_of_beq h).symm
  · rfl

theorem find?_putOutput (os : List Output) (o : Output) (name : String) :
    (putOutput os o).find? (fun p => p.name == name) =
      if o.name == name then some o else os.find? fun p => p.name == name := by
  unfold putOutput
  split
  · next hany =>
    simp only [List.find?_map, Function.comp_def, name_replaced]
    split
    · next heq =>
      obtain rfl := eq_of_beq heq
      obtain ⟨q, hq⟩ := Option.isSome_iff_exists.1 (List.find?_isSome.2 (List.any_eq_true.1 hany))
      obtain ⟨-, hsame⟩ := Keys.of_find?_eq_some hq
      rw [hq, Option.map_some, if_pos (beq_iff_eq.2 hsame)]
    · next hne =>
      cases hq : os.find? fun p => p.name == name with
      | none => rfl
      | some q =>
        obtain ⟨-, rfl⟩ := Keys.of_find?_eq_some hq
        rw [Option.map_some, if_neg fun heq => hne (BEq.symm heq)]
  · next hnone =>
    rw [List.find?_append, List.find?_singleton]
    split
    · next heq =>
      obtain rfl := eq_of_beq heq
      have hfind : (os.find? fun p => p.name == o.name) = none :=
        List.find?_eq_none.2 fun p hp hsame => hnone (List.any_eq_true.2 ⟨p, hp, hsame⟩)
      rw [hfind, Option.none_or]
    · rw [Option.or_none]

/-- Of the outputs of one name that are put into an object class the last one counts. -/
theorem find?_foldl_putOutput (os before : List Output) (name : String) :
    (os.foldl putOutput before).find? (fun p => p.name == name) =
      (os.reverse.find? fun p => p.name == name).or (before.find? fun p => p.name == name) := by
  induction os generalizing before with
  | nil => rfl
  | cons o r ih =>
    rw [List.foldl_cons, ih, find?_putOutput, List.reverse_cons, List.find?_append, Option.or_assoc,
      List.find?_singleton]
    congr 1
    split
    · exact (Option.some_or ..).symm
    · exact (Option.none_or ..).symm

theorem putOutput_nodup (h : (os.map (·.name)).Nodup) (o : Output) :
    ((putOutput os o).map (·.name)).Nodup := by
  unfold putOutput
  split
  · simpa only [List.map_map, Function.comp_def, name_replaced] using h
  · next hnone =>
    rw [List.map_append]
    refine List.nodup_append.2 ⟨h, List.nodup_singleton _, ?_⟩
    rintro a ha b hb rfl
    obtain ⟨p, hp, rfl⟩ := List.mem_map.1 ha
    exact hnone (List.any_eq_true.2 ⟨p, hp, beq_iff_eq.2 (List.mem_singleton.1 hb)⟩)

theorem foldl_putOutput_nodup (os : List Output) {before : List Output}
    (h : (before.map (·.name)).Nodup) : ((os.foldl putOutput before).map (·.name)).Nodup := by
  induction os generalizing before with
  | nil => exact h
  | cons o r ih => exact ih (putOutput_nodup h o)

/-- Outputs with names of their own are all there. -/
theorem mem_foldl_putOutput (h : (os.map (·.name)).Nodup) (ho : o ∈ os) :
    o ∈ os.foldl putOutput [] := by
  have hlast : os.reverse.find? (fun p => p.name == o.name) = some o := by
    refine Keys.find?_of_mem ?_ (List.mem_reverse.2 ho)
    rw [List.map_reverse]
    exact List.nodup_reverse.2 h
  refine List.mem_of_find?_eq_some (p := fun p => p.name == o.name) ?_
  rw [find?_foldl_putOutput, hlast, Option.some_or]

end Outputs

/-! ## Definitions that are reached -/

section Reach

variable {all seen types : List TypeDef}

/-- The number of references of the definitions that were not seen yet. -/
def unread (all seen : List TypeDef) : Nat :=
  ((all.filter fun t => !seen.any fun u => u.name == t.name).flatMap TypeDef.references).length

/-- A definition that is seen leaves its references less to read. -/
theorem unread_append {t : TypeDef} (ht : t ∈ all)
    (hnew : (seen.any fun u => u.name == t.name) = false) :
    t.references.length + unread all (seen ++ [t]) ≤ unread all seen := by
  have hless (l : List TypeDef) : ((l.filter fun u => !(t.name == u.name)).flatMap
      TypeDef.references).length ≤ (l.flatMap TypeDef.references).length :=
    (List.filter_sublist.flatMap _).length_le
  have hsplit : all.filter (fun u => !(seen ++ [t]).any fun v => v.name == u.name) =
      (all.filter fun u => !seen.any fun v => v.name == u.name).filter
        fun u => !(t.name == u.name) := by
    rw [List.filter_filter]
    refine List.filter_congr fun u _ => ?_
    simp only [List.any_append, List.any_cons, List.any_nil, Bool.or_false, Bool.not_or,
      Bool.and_comm]
  rw [unread, unread, hsplit]
  obtain ⟨l, r, hlist⟩ := List.append_of_mem
    (List.mem_filter.2 ⟨ht, by rw [hnew, Bool.not_false]⟩ :
      t ∈ all.filter fun u => !seen.any fun v => v.name == u.name)
  have hl := hless l
  have hr := hless r
  simp only [hlist, List.filter_append, List.filter_cons, beq_self_eq_true, Bool.not_true,
    Bool.false_eq_true, if_false, List.flatMap_append, List.flatMap_cons, List.length_append]
  omega

/-- With steps enough every name in the queue is reached, by the first definition of its name. -/
theorem reachable_ok {steps : Nat} {queue : List String}
    (h : reachable all steps queue seen = .ok types)
    (hsteps : queue.length + unread all seen < steps)
    (hseen : ∀ t ∈ seen, all.find? (fun u => u.name == t.name) = some t) :
    (∀ t ∈ types, all.find? (fun u => u.name == t.name) = some t) ∧ seen ⊆ types ∧
      ∀ name ∈ queue, ∃ t ∈ types, t.name = name := by
  induction steps generalizing queue seen with
  | zero => exact absurd hsteps (Nat.not_lt_zero _)
  | succ steps ih =>
    cases queue with
    | nil =>
      obtain rfl := Except.ok.inj h
      exact ⟨hseen, List.Subset.refl _, List.forall_mem_nil _⟩
    | cons name rest =>
      rw [List.length_cons] at hsteps
      simp only [reachable] at h
      split at h
      · next hany =>
        obtain ⟨hfirst, hsub, hrest⟩ := ih h (by omega) hseen
        obtain ⟨t, ht, hname⟩ := List.any_eq_true.1 hany
        exact ⟨hfirst, hsub, List.forall_mem_cons.2 ⟨⟨t, hsub ht, eq_of_beq hname⟩, hrest⟩⟩
      · next hnone =>
        split at h
        · cases h
        · next t hfind =>
          obtain ⟨hmem, rfl⟩ := Keys.of_find?_eq_some hfind
          have hless := unread_append hmem (Bool.eq_false_of_not_eq_true hnone)
          obtain ⟨hfirst, hsub, hqueue⟩ := ih h (by rw [List.length_append]; omega) (by
            rintro u hu
            rcases List.mem_append.1 hu with hu | hu
            · exact hseen u hu
            · exact List.mem_singleton.1 hu ▸ hfind)
          refine ⟨hfirst, fun u hu => hsub (List.mem_append_left _ hu),
            List.forall_mem_cons.2 ⟨⟨t, hsub ?_, rfl⟩, fun name hn => ?_⟩⟩
          · exact List.mem_append_right _ (List.mem_singleton_self t)
          · exact hqueue name (List.mem_append_right _ hn)

/-- A name that is started from leads to the first definition of the name. -/
theorem find?_reachable {steps : Nat} {queue : List String}
    (h : reachable all steps queue [] = .ok types)
    (hsteps : queue.length + unread all [] < steps) {name : String} (hname : name ∈ queue) :
    types.find? (fun t => t.name == name) = all.find? fun t => t.name == name := by
  obtain ⟨hfirst, -, hqueue⟩ := reachable_ok h hsteps (List.forall_mem_nil _)
  obtain ⟨t, ht, rfl⟩ := hqueue name hname
  obtain ⟨u, hu⟩ := Keys.exists_find? ht TypeDef.name
  obtain ⟨hmem, hsame⟩ := Keys.of_find?_eq_some hu
  rw [hu, ← hfirst u hmem, hsame]

theorem unread_nil (all : List TypeDef) :
    unread all [] = (all.flatMap TypeDef.references).length := by
  simp [unread]

theorem foldl_references (all : List TypeDef) (n : Nat) :
    all.foldl (fun n t => n + t.references.length) n = n + unread all [] := by
  rw [unread_nil]
  induction all generalizing n with
  | nil => rfl
  | cons t r ih => rw [List.foldl_cons, ih, List.flatMap_cons, List.length_append, Nat.add_assoc]

end Reach

/-! ## The root classes -/

theorem OutputDef.ofOutput_ok {o : Output} {f : OutputDef} (h : ofOutput o = .ok f) :
    f.name = o.name ∧ f.source = o.source := by
  simp only [ofOutput, Except.bind_eq_ok, Except.pure_eq_ok] at h
  obtain ⟨_, -, _, -, rfl⟩ := h
  exact ⟨rfl, rfl⟩

/-- Whether definitions are those of outputs, one by one. -/
def Define (os : List Output) (fs : List OutputDef) : Prop :=
  List.Forall₂ (fun o f => OutputDef.ofOutput o = .ok f) os fs

/-- Whether an object class has fields of the names of outputs that get their values from
where the outputs do. -/
def Serves (fs : List OutputDef) (os : List Output) : Prop :=
  ∀ o ∈ os, ∃ f ∈ fs, f.name = o.name ∧ f.source = o.source

namespace Define

variable {os : List Output} {fs : List OutputDef}

theorem names_eq (h : Define os fs) : fs.map (·.name) = os.map (·.name) := by
  induction h with
  | nil => rfl
  | cons hf _ ih => rw [List.map_cons, List.map_cons, ih, (OutputDef.ofOutput_ok hf).1]

/-- A name leads to the same source in outputs and in their definitions. -/
theorem find?_source (h : Define os fs) (name : String) :
    (fs.find? fun f => f.name == name).map (·.source) =
      (os.find? fun o => o.name == name).map (·.source) := by
  induction h with
  | nil => rfl
  | @cons o f os fs hf _ ih =>
    obtain ⟨hname, hsource⟩ := OutputDef.ofOutput_ok hf
    rw [List.find?_cons, List.find?_cons, hname]
    split
    · rw [Option.map_some, Option.map_some, hsource]
    · exact ih

/-- Outputs with names of their own are all served. -/
theorem serves (h : Define (os.foldl putOutput []) fs) (hos : (os.map (·.name)).Nodup) :
    Serves fs os := by
  intro o ho
  obtain ⟨f, hf, hdefined⟩ := List.Forall₂.exists_right h (mem_foldl_putOutput hos ho)
  exact ⟨f, hf, OutputDef.ofOutput_ok hdefined⟩

end Define

/-- Outputs with sources of their own that are all served have names of their own. -/
theorem Serves.nodup {os : List Output} {fs : List OutputDef} (h : Serves fs os)
    (hfs : (fs.map (·.name)).Nodup) (hos : (os.map (·.source)).Nodup) :
    (os.map (·.name)).Nodup := by
  refine List.Nodup.map_on (fun o ho o' ho' heq => ?_) hos.of_map
  obtain ⟨f, hf, hname, hsource⟩ := h o ho
  obtain ⟨f', hf', hname', hsource'⟩ := h o' ho'
  obtain rfl := List.inj_on_of_nodup_map hfs hf hf' (hname.trans (heq.trans hname'.symm))
  exact List.inj_on_of_nodup_map hos ho ho' (hsource.symm.trans hsource')

theorem TypeDef.ofOutputs_ok {name : String} {description : Option String} {os : List Output}
    {t : TypeDef} (h : ofOutputs name description os = .ok t) :
    ∃ fs, Define os fs ∧ t.name = name ∧ t.body = .object fs := by
  simp only [ofOutputs, Except.bind_eq_ok, Except.pure_eq_ok] at h
  obtain ⟨fs, hfs, rfl⟩ := h
  exact ⟨fs, Except.forall₂_of_mapM hfs, rfl, rfl⟩

namespace Catalogue

variable {s : Schema} {c : Catalogue}

/-- The root classes are the first definitions. -/
theorem definitions_ok {all : List TypeDef} (h : definitions s = .ok all) :
    ∃ query mutation rest, all = query :: mutation :: rest ∧
      TypeDef.ofOutputs "Query" none ((s.lists.flatMap queries).foldl putOutput []) = .ok query ∧
      TypeDef.ofOutputs "Mutation" none ((s.lists.flatMap mutations).foldl putOutput []) =
        .ok mutation := by
  simp only [definitions, Except.bind_eq_ok, Except.pure_eq_ok] at h
  obtain ⟨_, -, _, -, _, -, query, hquery, mutation, hmutation, rfl⟩ := h
  exact ⟨query, mutation, _, rfl, hquery, hmutation⟩

/-- A catalogue has the definitions that the root classes lead to. -/
theorem ofSchema_ok (h : ofSchema s = .ok c) : ∃ all, definitions s = .ok all ∧
    reachable all (3 + unread all []) ["Query", "Mutation"] [] = .ok c.types := by
  rw [ofSchema_eq] at h
  split at h
  · simp only [collect, Except.bind_eq_ok, foldl_references] at h
    obtain ⟨all, hall, types, htypes, h⟩ := h
    split at h
    · obtain ⟨_, h, -⟩ := Except.bind_eq_ok.1 h
      exact absurd h Except.throw_ne_ok
    · split at h
      · obtain rfl := Except.pure_eq_ok.1 h
        exact ⟨all, hall, htypes⟩
      · exact absurd h Except.throw_ne_ok
  · cases h

theorem outputs?_eq {name : String} {t : TypeDef} {fs : List OutputDef}
    (h : c.types.find? (fun t => t.name == name) = some t) (ht : t.body = .object fs) :
    c.outputs? name = some fs := by
  rw [outputs?, body?, type?, h, Option.map_some, ht]

/-- The root classes define the outputs of all lists that are put into them. -/
theorem ofSchema_roots (h : ofSchema s = .ok c) : ∃ qs ms,
    c.outputs? "Query" = some qs ∧ c.outputs? "Mutation" = some ms ∧
      Define ((s.lists.flatMap queries).foldl putOutput []) qs ∧
      Define ((s.lists.flatMap mutations).foldl putOutput []) ms := by
  obtain ⟨all, hall, htypes⟩ := ofSchema_ok h
  have hreached {name : String} (hname : name ∈ ["Query", "Mutation"]) :
      c.types.find? (fun t => t.name == name) = all.find? fun t => t.name == name :=
    find?_reachable htypes (by simp only [List.length_cons, List.length_nil]; omega) hname
  obtain ⟨query, mutation, rest, rfl, hquery, hmutation⟩ := definitions_ok hall
  obtain ⟨qs, hqs, hname, hbody⟩ := TypeDef.ofOutputs_ok hquery
  obtain ⟨ms, hms, hname', hbody'⟩ := TypeDef.ofOutputs_ok hmutation
  refine ⟨qs, ms, outputs?_eq (t := query) ?_ hbody, outputs?_eq (t := mutation) ?_ hbody', hqs, hms⟩
  · rw [hreached (by decide), List.find?_cons, hname]
    rfl
  · rw [hreached (by decide), List.find?_cons, List.find?_cons, hname, hname']
    rfl

end Catalogue

end Graph

open RecordSchema.Graph

/-! ## Names apart -/

/-- Whether no two lists have the same plural, no plural is a singular, and no count is a
singular or a plural. -/
def Schema.NamesApart (s : Schema) : Prop :=
  ∀ l ∈ s.lists, ∀ l' ∈ s.lists,
    (l.key ≠ l'.key → l.names.plural ≠ l'.names.plural) ∧
      l.names.plural ≠ l'.names.singular ∧ l.names.count ≠ l'.names.singular ∧
      l.names.count ≠ l'.names.plural

instance (s : Schema) : Decidable s.NamesApart :=
  inferInstanceAs (Decidable (∀ l ∈ s.lists, ∀ l' ∈ s.lists, _))

namespace Declarations.Declared

variable {d : Declarations} {s : Schema} {c : Catalogue}

/-- The queries of all lists have names of their own exactly when the names of the lists are
apart. -/
theorem queries_nodup_iff (hd : d.Declared) (h : d.compile = .ok s) :
    ((s.lists.flatMap queries).map (·.name)).Nodup ↔ s.NamesApart := by
  rw [List.map_flatMap]
  constructor
  · intro hnodup l hl l' hl'
    have hsame (name : String) (hn : name ∈ (queries l).map (·.name))
        (hn' : name ∈ (queries l').map (·.name)) : l = l' :=
      Keys.eq_of_flatMap hnodup hl hl' hn hn'
    refine ⟨fun hne heq => hne ?_, fun heq => ?_, fun heq => ?_, fun heq => ?_⟩
    · rw [hsame l.names.plural (by simp [queries]) (by simp [queries, heq])]
    · obtain rfl := hsame l.names.plural (by simp [queries]) (by simp [queries, heq])
      exact hd.plural_ne_singular h hl heq
    · obtain rfl := hsame l.names.count (by simp [queries]) (by simp [queries, heq])
      have hone := (List.nodup_flatMap.1 hnodup).1 l hl
      simp [queries, heq] at hone
    · obtain rfl := hsame l.names.count (by simp [queries]) (by simp [queries, heq])
      exact l.names.count_ne_plural heq
  · intro hapart
    refine Keys.nodup_flatMap (hd.lists_nodup h) (fun l hl => ?_) fun l hl l' hl' name hn hn' => ?_
    · obtain ⟨-, hsingular, hcount, hplural⟩ := hapart l hl l hl
      simp [queries, hsingular, hcount.symm, hplural.symm]
    · by_contra hne
      obtain ⟨hplural, hsingular, hcount, hcounts⟩ := hapart l hl l' hl'
      obtain ⟨-, hsingular', hcount', hcounts'⟩ := hapart l' hl' l hl
      simp only [queries, List.map_cons, List.map_nil, List.mem_cons, List.not_mem_nil,
        or_false] at hn hn'
      obtain rfl | rfl | rfl := hn <;> obtain heq | heq | heq := hn'
      · exact hplural hne heq
      · exact hsingular heq
      · exact hcounts' heq.symm
      · exact hsingular' heq.symm
      · exact hne (hd.singular_inj h hl hl' heq)
      · exact hcount' heq.symm
      · exact hcounts heq
      · exact hcount heq
      · exact hplural hne (ListNames.count_injective.1 heq)

/-- The mutations of all lists have names of their own. -/
theorem mutations_nodup (hd : d.Declared) (h : d.compile = .ok s) :
    ((s.lists.flatMap mutations).map (·.name)).Nodup := by
  rw [List.map_flatMap]
  refine Keys.nodup_flatMap (hd.lists_nodup h) (fun l _ => ?_) fun l hl l' hl' name hn hn' => ?_
  · simp [mutations, l.names.create_ne_update l.names]
  · rw [← hd.names_key h hl, ← hd.names_key h hl']
    simp only [mutations, List.map_cons, List.map_nil, List.mem_cons, List.not_mem_nil,
      or_false] at hn hn'
    obtain rfl | rfl := hn <;> obtain heq | heq := hn'
    · exact ListNames.create_injective.1 heq
    · exact absurd heq (ListNames.create_ne_update _ _)
    · exact absurd heq.symm (ListNames.create_ne_update _ _)
    · exact ListNames.update_injective.1 heq

/-- The queries of all lists have sources of their own. -/
theorem sources_nodup (hd : d.Declared) (h : d.compile = .ok s) :
    ((s.lists.flatMap queries).map (·.source)).Nodup := by
  rw [List.map_flatMap]
  refine Keys.nodup_flatMap (hd.lists_nodup h) (fun l _ => ?_) fun l _ l' _ source hn hn' => ?_
  · simp [queries]
  · simp only [queries, List.map_cons, List.map_nil, List.mem_cons, List.not_mem_nil,
      or_false] at hn hn'
    obtain rfl | rfl | rfl := hn <;> simpa using hn'

/-- Every list has its own queries exactly when the names of the lists are apart. -/
theorem serves_queries_iff (hd : d.Declared) (h : d.compile = .ok s) {qs : List OutputDef}
    (hqs : Define ((s.lists.flatMap queries).foldl putOutput []) qs) :
    (∀ l ∈ s.lists, Serves qs (queries l)) ↔ s.NamesApart := by
  rw [← hd.queries_nodup_iff h]
  constructor
  · intro hserves
    have hall : Serves qs (s.lists.flatMap queries) := by
      intro o ho
      obtain ⟨l, hl, ho⟩ := List.mem_flatMap.1 ho
      exact hserves l hl o ho
    refine hall.nodup ?_ (hd.sources_nodup h)
    rw [hqs.names_eq]
    exact foldl_putOutput_nodup _ List.nodup_nil
  · intro hnodup l hl o ho
    exact hqs.serves hnodup o (List.mem_flatMap.2 ⟨l, hl, ho⟩)

end Declarations.Declared

/-! ## Posts and tags, and posts in the plural -/

/-- The query API of declared lists. -/
def Declarations.catalogue (d : Declarations) : Except Fault Catalogue := do
  Catalogue.ofSchema (← d.compile)

theorem Declarations.catalogue_ok {d : Declarations} (h : d.catalogue.isOk = true) :
    ∃ s c, d.compile = .ok s ∧ Catalogue.ofSchema s = .ok c := by
  cases hc : d.catalogue with
  | error =>
    rw [hc] at h
    cases h
  | ok c =>
    obtain ⟨s, hs, hc⟩ := Except.bind_eq_ok.1 hc
    exact ⟨s, c, hs, hc⟩

/-- A list whose key is the plural of another one. -/
def notices : Declarations :=
  (({} : Declarations).declare {
    key := "Post"
    specs := [("title", .scalar .text {})] }).declare {
    key := "Posts"
    specs := [("name", .scalar .text {})] }

/-- The facts about the names of lists that are evaluated, in one go. -/
theorem names_facts :
    (blog.catalogue.isOk = true ∧ ∀ s ∈ blog.compile.toOption, s.NamesApart) ∧
      notices.catalogue.isOk = true ∧ ∀ s ∈ notices.compile.toOption, ¬ s.NamesApart := by
  simp only [Declarations.catalogue, Catalogue.ofSchema_eq]
  decide +kernel

end RecordSchema
