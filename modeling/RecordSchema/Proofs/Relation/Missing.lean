import RecordSchema.Proofs.Relation.LinkCalls
import RecordSchema.Proofs.Relation.Update

/-!
# Targets that are missing

A step of the changes to the links of a record finds all its targets
before it writes. Where links are set or added every target must exist:
the first filter that names no record is the fault of the step, and the
links are as they were. Where links are removed a target that is missing
is passed over, and a step that is left without any target writes
nothing, which is not the same as removing all links.

A filter may also fail to be answered, as one by a number past those that
storage holds does. Then the step ends in that fault, under every verb.
-/

namespace RecordSchema

namespace Worker

variable {w : Worker} {d : Declarations} {s : Session} {list field : String} {p : RelationPlan}
  {items : List Value} {e : Fault} {create : String → Value → Work Int}

/-! ## Lookups -/

/-- The record that a unique filter names, none when it names none. -/
def lookup (w : Worker) (s : Session) (list : String) (filter : Value) :
    Except Fault (Option Row) := do
  let unique ← Resolve.identify w.db.schema w.context list filter
  w.db.findOne s.store list unique

theorem find_outcome (filter : Value) :
    (w.find list filter).outcome s = (w.lookup s list filter, s) := by
  rw [find, lookup, Work.outcome_bind, Work.outcome_ofExcept]
  cases Resolve.identify w.db.schema w.context list filter with
  | ok unique =>
    change (Work.store >>= fun t => Work.ofExcept (w.db.findOne t list unique)).outcome s =
      (w.db.findOne s.store list unique, s)
    rw [Work.outcome_bind, Work.outcome_store]
    exact Work.outcome_ofExcept _ s
  | error e => rfl

theorem names_iff_lookup {filter : Value} {id : Int} :
    w.Names s list filter id ↔ ∃ r, w.lookup s list filter = .ok (some r) ∧ r.id = id := by
  simp only [Names, lookup, Except.bind_eq_ok]
  constructor
  · rintro ⟨unique, r, hu, hr, hid⟩
    exact ⟨r, ⟨unique, hu, hr⟩, hid⟩
  · rintro ⟨r, ⟨unique, hu, hr⟩, hid⟩
    exact ⟨unique, r, hu, hr, hid⟩

/-- The fault of a filter that is not answered. -/
def unanswered? (w : Worker) (s : Session) (list : String) (filter : Value) : Option Fault :=
  match w.lookup s list filter with
  | .ok _ => none
  | .error e => some e

/-- The fault of a filter that has to name a record and does not. -/
def missing? (w : Worker) (s : Session) (list : String) (filter : Value) : Option Fault :=
  match w.lookup s list filter with
  | .ok (some _) => none
  | .ok none => some (notFound list filter)
  | .error e => some e

/-- The id of the record that a filter names. -/
def named? (w : Worker) (s : Session) (list : String) (filter : Value) : Option Int :=
  match w.lookup s list filter with
  | .ok r => r.map (·.id)
  | .error _ => none

theorem named?_eq_some {filter : Value} {id : Int} :
    w.named? s list filter = some id ↔ w.Names s list filter id := by
  rw [names_iff_lookup, named?]
  split
  · next r h => simp [h]
  · next h => simp [h]

/-! ## Targets that must exist -/

theorem require_missing {filter : Value} (h : w.missing? s list filter = some e) :
    (w.require list filter).outcome s = (.error e, s) := by
  rw [require, Work.outcome_bind, find_outcome]
  unfold missing? at h
  split at h
  · cases h
  · next hnone =>
    cases h
    rw [hnone]
    rfl
  · next herror =>
    cases h
    rw [herror]

theorem require_named {filter : Value} (h : w.missing? s list filter = none) :
    ∃ id, (w.require list filter).Yields s id s := by
  unfold missing? at h
  split at h
  · next r hr =>
    exact ⟨r.id, require_yields.2 ⟨names_iff_lookup.2 ⟨r, hr, rfl⟩, rfl⟩⟩
  · cases h
  · cases h

/-- The first filter that does not name a record ends the search. -/
theorem requireAll_missing (h : items.findSome? (w.missing? s list) = some e) :
    (w.requireAll list items).outcome s = (.error e, s) := by
  induction items with
  | nil => cases h
  | cons f r ih =>
    rw [List.findSome?_cons] at h
    rw [requireAll]
    split at h
    · next fault hf =>
      cases h
      exact Work.outcome_bind_error (require_missing hf)
    · next hf =>
      obtain ⟨id, hid⟩ := require_named hf
      rw [hid.outcome_bind]
      exact Work.outcome_bind_error (ih h)

/-! ## Targets that may be missing -/

theorem findAll_unanswered (h : items.findSome? (w.unanswered? s list) = some e) :
    (w.findAll list items).outcome s = (.error e, s) := by
  induction items with
  | nil => cases h
  | cons f r ih =>
    rw [List.findSome?_cons, unanswered?] at h
    rw [findAll, Work.outcome_bind, find_outcome]
    cases hf : w.lookup s list f with
    | error fault =>
      rw [hf] at h
      cases h
      rfl
    | ok row =>
      rw [hf] at h
      exact Work.outcome_bind_error (ih h)

theorem lookup_of_answered {filter : Value} (h : w.unanswered? s list filter = none) :
    ∃ r, w.lookup s list filter = .ok r := by
  unfold unanswered? at h
  split at h
  · next r hr => exact ⟨r, hr⟩
  · cases h

/-- Where all filters are answered, the targets are the records that they name. -/
theorem findAll_answered (h : ∀ f ∈ items, w.unanswered? s list f = none) :
    (w.findAll list items).Yields s (items.filterMap (w.named? s list)) s := by
  induction items with
  | nil => rfl
  | cons f r ih =>
    obtain ⟨hf, hr⟩ := List.forall_mem_cons.1 h
    obtain ⟨row, hrow⟩ := lookup_of_answered hf
    refine Work.bind_yields.2 ⟨row, s, by rw [Work.Yields, find_outcome, hrow],
      Work.bind_yields.2 ⟨_, s, ih hr, Work.pure_yields.2 ⟨?_, rfl⟩⟩⟩
    have hnamed : w.named? s list f = row.map (·.id) := by
      rw [named?, hrow]
    cases row with
    | none => rw [List.filterMap_cons_none hnamed, Option.toList_none, List.map_nil, List.nil_append]
    | some r => rw [List.filterMap_cons_some hnamed, Option.toList_some, List.map_cons, List.map_nil,
        List.singleton_append]

/-! ## Steps -/

variable {i : Int}

/-- A step that sets or adds links does nothing when one of its targets is missing. -/
theorem applyStep_missing {target : String} {verb : ManyVerb} (hverb : verb = .set ∨ verb = .connect)
    (h : items.findSome? (w.missing? s target) = some e) :
    (w.applyStep create list field target i verb items).outcome s = (.error e, s) := by
  rcases hverb with rfl | rfl <;> exact Work.outcome_bind_error (requireAll_missing h)

theorem applyStep_unanswered {target : String}
    (h : items.findSome? (w.unanswered? s target) = some e) :
    (w.applyStep create list field target i .disconnect items).outcome s = (.error e, s) :=
  Work.outcome_bind_error (findAll_unanswered h)

/-- What is left when the links to some targets are removed; no target at all is not the same
as all of them. -/
def unlinked (s : Session) (p : RelationPlan) (i : Int) (ts : List Int) : Session :=
  if ts.isEmpty then s else { s with store := s.store.disconnect p i (some ts) }

/-- The links that are removed are those to the targets that are found. -/
theorem disconnect_answered (create : String → Value → Work Int) (i : Int)
    (hp : w.db.plan list field = .ok p)
    (h : ∀ f ∈ items, w.unanswered? s p.target f = none) :
    (w.applyStep create list field p.target i .disconnect items).Yields s ()
      (unlinked s p i (items.filterMap (w.named? s p.target))) := by
  refine Work.bind_yields.2 ⟨_, s, findAll_answered h, ?_⟩
  generalize items.filterMap (w.named? s p.target) = ts
  unfold unlinked
  cases ts.isEmpty with
  | true => rfl
  | false => exact (relink_yields hp).2 rfl

theorem linkedTo_unlinked (hd : w.db.Compiles d) (hp : w.db.plan list field = .ok p)
    (hmany : p.mode = .many) (s : Session) (i : Int) (ts : List Int) (o : Int) :
    w.db.linkedTo (unlinked s p i ts).store list field o =
      if o = i then w.db.linkedTo s.store list field i \ {t | t ∈ ts}
      else w.db.linkedTo s.store list field o := by
  have hto := hd.toMany (Database.plan_ok hp).1 hmany
  simp only [Database.linkedTo_eq hp]
  unfold unlinked
  cases ts with
  | nil =>
    by_cases ho : o = i
    · subst ho
      rw [if_pos rfl]
      ext t
      simp
    · rw [if_neg ho]
      rfl
  | cons t r =>
    rw [List.isEmpty_cons, if_neg Bool.false_ne_true]
    by_cases ho : o = i
    · subst ho
      rw [if_pos rfl]
      ext t'
      exact Store.mem_linked_disconnect hto
    · rw [if_neg ho]
      exact Set.ext fun t' => Store.mem_linked_unlink_of_ne hto ho

/-- The filters that name a record are answered, and name the same targets. -/
theorem filterMap_named (w : Worker) (s : Session) (list : String) (items : List Value) :
    (items.filter fun f => (w.named? s list f).isSome).filterMap (w.named? s list) =
      items.filterMap (w.named? s list) := by
  rw [List.filterMap_filter]
  refine List.filterMap_congr fun f _ => ?_
  cases w.named? s list f <;> rfl

/-- A step that sets or adds links ends in the fault of the first filter that names no record,
and nothing has changed. A step that removes links passes over these filters: it does what it
does without them, other owners keep their links, and when no filter names a record nothing
changes. A filter that is not answered ends such a step as well. -/
theorem applyStep_targets (hd : w.db.Compiles d) (hp : w.db.plan list field = .ok p)
    (hmany : p.mode = .many) (create : String → Value → Work Int) (s : Session) (i : Int)
    (items : List Value) :
    (∀ verb e, verb = .set ∨ verb = .connect →
      items.findSome? (w.missing? s p.target) = some e →
      (w.applyStep create list field p.target i verb items).outcome s = (.error e, s)) ∧
    (∀ e, items.findSome? (w.unanswered? s p.target) = some e →
      (w.applyStep create list field p.target i .disconnect items).outcome s = (.error e, s)) ∧
    ((∀ f ∈ items, w.unanswered? s p.target f = none) →
      (w.applyStep create list field p.target i .disconnect items).outcome s =
        (w.applyStep create list field p.target i .disconnect
          (items.filter fun f => (w.named? s p.target f).isSome)).outcome s ∧
      ((∀ f ∈ items, w.named? s p.target f = none) →
        (w.applyStep create list field p.target i .disconnect items).Yields s () s) ∧
      ∃ s', (w.applyStep create list field p.target i .disconnect items).Yields s () s' ∧
        ∀ o, w.db.linkedTo s'.store list field o =
          if o = i then
            w.db.linkedTo s.store list field i \ {t | ∃ f ∈ items, w.Names s p.target f t}
          else w.db.linkedTo s.store list field o) := by
  refine ⟨fun verb e hverb h => applyStep_missing hverb h, fun e h => applyStep_unanswered h,
    fun hall => ?_⟩
  have hstep := disconnect_answered create i hp hall
  refine ⟨?filtered, fun hnone => ?nothing, _, hstep, fun o => ?links⟩
  case filtered =>
    have hfound := disconnect_answered create i hp
      (fun f hf => hall f (List.mem_of_mem_filter hf) :
        ∀ f ∈ items.filter fun f => (w.named? s p.target f).isSome, _)
    rw [filterMap_named] at hfound
    exact hstep.trans hfound.symm
  case nothing =>
    rwa [List.filterMap_eq_nil_iff.2 hnone] at hstep
  case links =>
    have htargets : {t | t ∈ items.filterMap (w.named? s p.target)} =
        {t | ∃ f ∈ items, w.Names s p.target f t} := by
      ext t
      simp only [Set.mem_ofPred_eq, List.mem_filterMap, named?_eq_some]
    rw [linkedTo_unlinked hd hp hmany, htargets]

/-! ## Tags that are missing -/

/-- A lookup is known from what its evaluation shows of it. -/
theorem exists_lookup {filter : Value} {id? : Option Int}
    (h : (w.lookup s list filter).toOption.map (·.map (·.id)) = some id?) :
    ∃ r, w.lookup s list filter = .ok r ∧ r.map (·.id) = id? := by
  obtain ⟨r, hr, hid⟩ := Option.map_eq_some_iff.1 h
  exact ⟨r, Except.eq_ok_of_toOption hr, hid⟩

/-- Whether a number does not fit. -/
def overflows {α : Type} : Except Fault α → Bool
  | .error .overflow => true
  | _ => false

theorem eq_of_overflows {α : Type} {x : Except Fault α} (h : overflows x = true) :
    x = .error .overflow := by
  unfold overflows at h
  split at h
  · rfl
  · cases h

/-- A filter by a number past those that storage holds. -/
def farTag : Value :=
  .map [(.text "id", .int 0x8000000000000000)]

/-- The facts about tags that are evaluated, in one go. -/
theorem blog_lookups :
    (blogWorker.lookup blogSession "Tag" (tagNamed "a")).toOption.map (·.map (·.id)) =
        some (some 1) ∧
      (blogWorker.lookup blogSession "Tag" (tagNamed "x")).toOption.map (·.map (·.id)) =
        some none ∧
      overflows (blogWorker.lookup blogSession "Tag" farTag) = true := by
  decide +kernel

/-- A tag that there is and one that there is not: nothing is set, and the tag alone is removed. -/
theorem applyStep_targets_blog :
    (blogWorker.applyStep blogWorker.createId "Post" "tags" "Tag" 1 .set
        [tagNamed "a", tagNamed "x"]).outcome blogSession =
      (.error (.notFound "Tag" [(.text "name", .text "x")]), blogSession) ∧
    ∃ s', (blogWorker.applyStep blogWorker.createId "Post" "tags" "Tag" 1 .disconnect
        [tagNamed "x", tagNamed "a"]).Yields blogSession () s' ∧
      blogWorker.db.linkedTo s'.store "Post" "tags" 1 =
        blogWorker.db.linkedTo blogSession.store "Post" "tags" 1 \
          {t | ∃ f ∈ [tagNamed "x", tagNamed "a"], blogWorker.Names blogSession "Tag" f t} := by
  obtain ⟨ha, hx, -⟩ := blog_lookups
  have hplan := Except.eq_ok_of_toOption retag_facts.1
  obtain ⟨_ | row, ha, hrow⟩ := exists_lookup ha
  · cases hrow
  obtain ⟨_ | row, hx, hrow⟩ := exists_lookup hx
  case some => cases hrow
  obtain ⟨hset, -, -⟩ := applyStep_targets blog_compiles hplan rfl blogWorker.createId
    blogSession 1 [tagNamed "a", tagNamed "x"]
  obtain ⟨-, -, hdisconnect⟩ := applyStep_targets blog_compiles hplan rfl blogWorker.createId
    blogSession 1 [tagNamed "x", tagNamed "a"]
  have hmissing : [tagNamed "a", tagNamed "x"].findSome? (blogWorker.missing? blogSession "Tag") =
      some (notFound "Tag" (tagNamed "x")) := by
    rw [List.findSome?_cons, missing?, ha, List.findSome?_cons, missing?, hx]
  have hanswered : ∀ f ∈ [tagNamed "x", tagNamed "a"],
      blogWorker.unanswered? blogSession "Tag" f = none :=
    List.forall_mem_cons.2 ⟨by rw [unanswered?, hx],
      List.forall_mem_singleton.2 (by rw [unanswered?, ha])⟩
  obtain ⟨-, -, s', hs', hlinks⟩ := hdisconnect hanswered
  exact ⟨hset .set _ (.inl rfl) hmissing, s', hs', hlinks 1⟩

/-- A tag of a number past those that storage holds is a tag that there is not, and connecting
it does not say so. -/
theorem farTag_connected :
    (∀ id ∈ blogSession.store.ids "Tag", id ≠ 0x8000000000000000) ∧
    (blogWorker.applyStep blogWorker.createId "Post" "tags" "Tag" 1 .connect [farTag]).outcome
      blogSession = (.error .overflow, blogSession) := by
  obtain ⟨-, -, hfar⟩ := blog_lookups
  refine ⟨by decide, applyStep_missing (.inr rfl) ?_⟩
  rw [List.findSome?_cons, missing?, eq_of_overflows hfar]

end Worker

end RecordSchema
