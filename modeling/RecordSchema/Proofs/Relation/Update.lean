import RecordSchema.Proofs.Relation.Input
import RecordSchema.Proofs.Request.Append
import RecordSchema.Proofs.Request.Named

/-!
# Updating the links to many records

An update of a relation to many sets links, removes some, adds others,
and links new records, in this order and each part if it is asked for.
The filters of all parts are answered by the store as it is before the
first of them, since no link write changes a field. So what is linked at
the end can be read off the input (`ManyPlan.Leaves`).
-/

namespace RecordSchema

namespace ManyPlan

/-- The items that an input gives under its verbs. -/
structure Reads (input : Value.Entries) (p : ManyPlan) : Prop where
  set : itemsOf .update input .set = .ok p.set
  disconnect : (itemsOf .update input .disconnect).map (·.getD []) = .ok p.disconnect
  connect : (itemsOf .update input .connect).map (·.getD []) = .ok p.connect
  create : (itemsOf .update input .create).map (·.getD []) = .ok p.create

/-- Whether an id is linked after the changes: it is set, or was linked before
when nothing is set, and is not disconnected; or it is connected; or it is that
of a new record. -/
def Leaves (p : ManyPlan) (Names : Value → Int → Prop) (before new : List Int) (t : Int) : Prop :=
  ((match p.set with
      | some fs => ∃ f ∈ fs, Names f t
      | none => t ∈ before) ∧ ¬ ∃ f ∈ p.disconnect, Names f t) ∨
    (∃ f ∈ p.connect, Names f t) ∨ t ∈ new

theorem eq_of_ofValue {policy : SetPolicy} {input : Value.Entries} {p q : ManyPlan}
    (h : ofValue .update policy (.map input) = .ok p) (hq : q.Reads input) : p = q := by
  obtain ⟨-, hset, hdisconnect, hconnect, hcreate, -⟩ := ofEntries_ok h
  have hset := hset.symm.trans hq.set
  have hdisconnect := hdisconnect.symm.trans hq.disconnect
  have hconnect := hconnect.symm.trans hq.connect
  have hcreate := hcreate.symm.trans hq.create
  obtain ⟨set, disconnect, connect, create⟩ := p
  cases hset
  cases hdisconnect
  cases hconnect
  cases hcreate
  rfl

end ManyPlan

namespace Worker

variable {w : Worker} {d : Declarations} {s m s' : Session} {list field : String}
  {p : RelationPlan} {i : Int} {items : List Value} {create : String → Value → Work Int}

/-! ## Single steps -/

theorem relink_yields (hp : w.db.plan list field = .ok p) {f : Store → RelationPlan → Store} :
    (w.relink list field f).Yields s () s' ↔ s' = { s with store := f s.store p } := by
  simp only [relink, hp, Work.bind_yields, Work.ofExcept_yields, Work.store_yields]
  constructor
  · rintro ⟨_, _, ⟨⟨⟩, rfl⟩, _, _, ⟨rfl, rfl⟩, h⟩
    exact (Work.setStore_yields.1 h).symm
  · rintro rfl
    exact ⟨p, s, ⟨rfl, rfl⟩, s.store, s, ⟨rfl, rfl⟩, Work.setStore_yields.2 rfl⟩

theorem set_yields (hd : w.db.Compiles d) (hp : w.db.plan list field = .ok p)
    (hmany : p.mode = .many)
    (h : (w.applyStep create list field p.target i .set items).Yields s () s') :
    w.db.SameFields s.store s'.store ∧
      ∀ t, t ∈ s'.store.linked p i ↔ ∃ f ∈ items, w.Names s p.target f t := by
  simp only [applyStep, Work.bind_yields] at h
  obtain ⟨ts, m, hts, h⟩ := h
  obtain ⟨hmem, -⟩ := Database.plan_ok hp
  obtain ⟨rfl, -⟩ := requireAll_yields hts
  obtain rfl := (relink_yields hp).1 h
  refine ⟨hd.sameFields_setRelated hmem m.store i ts, fun t => ?_⟩
  rw [Store.mem_linked_setRelated (hd.toMany hmem hmany), mem_requireAll hts]
  exact and_iff_left_of_imp fun ⟨f, _, hnames⟩ => hnames.mem

theorem disconnect_yields (hd : w.db.Compiles d) (hp : w.db.plan list field = .ok p)
    (hmany : p.mode = .many)
    (h : (w.applyStep create list field p.target i .disconnect items).Yields s () s') :
    w.db.SameFields s.store s'.store ∧
      ∀ t, t ∈ s'.store.linked p i ↔
        t ∈ s.store.linked p i ∧ ¬ ∃ f ∈ items, w.Names s p.target f t := by
  simp only [applyStep, Work.bind_yields] at h
  obtain ⟨ts, m, hts, h⟩ := h
  obtain ⟨hmem, -⟩ := Database.plan_ok hp
  obtain ⟨rfl, hids⟩ := findAll_yields hts
  cases hempty : ts.isEmpty with
  | true =>
    obtain rfl : m = s' := by simpa [hempty] using h
    refine ⟨.refl _ m.store, fun t => ?_⟩
    rw [← hids, List.isEmpty_iff.1 hempty]
    simp
  | false =>
    obtain rfl := (relink_yields hp).1 (by simpa [hempty] using h)
    refine ⟨hd.sameFields_unlink hmem m.store i _, fun t => ?_⟩
    rw [Store.mem_linked_disconnect (hd.toMany hmem hmany), hids]

theorem connect_yields (hd : w.db.Compiles d) (hp : w.db.plan list field = .ok p)
    (hmany : p.mode = .many)
    (h : (w.applyStep create list field p.target i .connect items).Yields s () s') :
    w.db.SameFields s.store s'.store ∧
      ∀ t, t ∈ s'.store.linked p i ↔
        t ∈ s.store.linked p i ∨ ∃ f ∈ items, w.Names s p.target f t := by
  simp only [applyStep, Work.bind_yields] at h
  obtain ⟨ts, m, hts, h⟩ := h
  obtain ⟨hmem, -⟩ := Database.plan_ok hp
  obtain ⟨rfl, -⟩ := requireAll_yields hts
  obtain rfl := (relink_yields hp).1 h
  refine ⟨hd.sameFields_connect hmem m.store i ts, fun t => ?_⟩
  rw [Store.mem_linked_connect (hd.toMany hmem hmany), mem_requireAll hts]
  exact or_congr_right (and_iff_left_of_imp fun ⟨f, _, hnames⟩ => hnames.mem)

/-- Creating adds new records at the end of the target list and links them. -/
theorem create_yields (hd : w.db.Compiles d) (hb : d.UsesBuiltIns)
    (hp : w.db.plan list field = .ok p) (hmany : p.mode = .many)
    (hitems : ∀ v ∈ items, w.Mentions p.target [] v)
    (h : (w.applyStep w.createId list field p.target i .create items).Yields s () s') :
    ∃ new : List Int, new.length = items.length ∧ new.Nodup ∧ (∀ t ∈ new, t ∉ s.store.ids p.target) ∧
      s'.store.ids p.target = s.store.ids p.target ++ new ∧
      ∀ t, t ∈ s'.store.linked p i ↔ t ∈ s.store.linked p i ∨ t ∈ new := by
  simp only [applyStep, Work.bind_yields] at h
  obtain ⟨ts, m, hts, h⟩ := h
  obtain ⟨hmem, -⟩ := Database.plan_ok hp
  obtain ⟨new, rfl, hlength, hnodup, hfresh, happends⟩ := createAll_appends hd hb hitems hts
  obtain rfl := (relink_yields hp).1 h
  have hids := happends.ids_eq
  have hto := hd.toMany hmem hmany
  refine ⟨new.map (·.id), by rw [List.length_map, hlength], hnodup, hfresh, ?_, fun t => ?_⟩
  · rw [Store.ids_connect, hids]
  · rw [Store.mem_linked_connect hto, happends.linked_eq hto, hids, List.mem_append,
      List.mem_append]
    constructor
    · rintro ((h | h) | ⟨h, -⟩)
      · exact .inl h
      · exact .inr ((List.filter_sublist.map _).subset h)
      · exact .inr h
    · rintro (h | h)
      · exact .inl (.inl h)
      · exact .inr ⟨h, .inr h⟩

/-! ## Whole plans -/

theorem applySteps_cons {target : String} {verb : ManyVerb} {r : List (ManyVerb × List Value)} :
    (w.applySteps create list field target i ((verb, items) :: r)).Yields s () s' ↔
      ∃ m, (w.applyStep create list field target i verb items).Yields s () m ∧
        (w.applySteps create list field target i r).Yields m () s' := by
  simp only [applySteps, Work.bind_yields]
  exact ⟨fun ⟨_, m, h⟩ => ⟨m, h⟩, fun ⟨m, h⟩ => ⟨(), m, h⟩⟩

/-- A verb that names no record changes nothing, unless it sets the links. -/
theorem applyStep_nil (hp : w.db.plan list field = .ok p) {verb : ManyVerb} (hverb : verb ≠ .set) :
    (w.applyStep create list field p.target i verb []).Yields s () s := by
  cases verb with
  | set => exact absurd rfl hverb
  | disconnect => rfl
  | connect => exact Work.bind_yields.2 ⟨[], s, rfl, (relink_yields hp).2 rfl⟩
  | create => exact Work.bind_yields.2 ⟨[], s, rfl, (relink_yields hp).2 rfl⟩

/-- A part of a plan that names nothing is left out, which makes no difference. -/
theorem applySteps_filter (hp : w.db.plan list field = .ok p) {verb : ManyVerb}
    {r : List (ManyVerb × List Value)}
    (h : (w.applySteps create list field p.target i
      (((verb, items) :: r).filter fun s => !s.2.isEmpty)).Yields s () s') (hverb : verb ≠ .set) :
    ∃ m, (w.applyStep create list field p.target i verb items).Yields s () m ∧
      (w.applySteps create list field p.target i
        (r.filter fun s => !s.2.isEmpty)).Yields m () s' := by
  cases items with
  | nil => exact ⟨s, applyStep_nil hp hverb, h⟩
  | cons v vs => exact applySteps_cons.1 h

/-- A plan that sets the links does so first. -/
theorem applySteps_steps (hd : w.db.Compiles d) (hp : w.db.plan list field = .ok p)
    (hmany : p.mode = .many) {plan : ManyPlan}
    (h : (w.applySteps create list field p.target i plan.steps).Yields s () s') :
    ∃ m, w.db.SameFields s.store m.store ∧
      (∀ t, t ∈ m.store.linked p i ↔ match plan.set with
        | some fs => ∃ f ∈ fs, w.Names s p.target f t
        | none => t ∈ s.store.linked p i) ∧
      (w.applySteps create list field p.target i
        ([(.disconnect, plan.disconnect), (.connect, plan.connect), (.create, plan.create)].filter
          fun s => !s.2.isEmpty)).Yields m () s' := by
  obtain ⟨set, disconnect, connect, create⟩ := plan
  cases set with
  | none => exact ⟨s, .refl _ s.store, fun _ => Iff.rfl, h⟩
  | some fs =>
    obtain ⟨m, hstep, hrest⟩ := applySteps_cons.1 h
    obtain ⟨hsame, hlinked⟩ := set_yields hd hp hmany hstep
    exact ⟨m, hsame, hlinked, hrest⟩

/-- A plan leaves what its input says, with filters answered before its steps. -/
theorem applySteps_yields (hd : w.db.Compiles d) (hb : d.UsesBuiltIns)
    (hp : w.db.plan list field = .ok p) (hmany : p.mode = .many) {plan : ManyPlan}
    (hnew : ∀ v ∈ plan.create, w.Mentions p.target [] v)
    (h : (w.applySteps w.createId list field p.target i plan.steps).Yields s () s') :
    ∃ new : List Int, new.length = plan.create.length ∧ new.Nodup ∧
      (∀ t ∈ new, t ∉ s.store.ids p.target) ∧
      s'.store.ids p.target = s.store.ids p.target ++ new ∧
      ∀ t, t ∈ s'.store.linked p i ↔
        plan.Leaves (w.Names s p.target) (s.store.linked p i) new t := by
  obtain ⟨m₀, hsame₀, hlinked₀, h⟩ := applySteps_steps hd hp hmany h
  obtain ⟨m₁, hstep₁, h⟩ := applySteps_filter hp h nofun
  obtain ⟨m₂, hstep₂, h⟩ := applySteps_filter hp h nofun
  obtain ⟨m₃, hstep₃, h⟩ := applySteps_filter hp h nofun
  obtain ⟨-, rfl⟩ := Work.pure_yields.1 h
  obtain ⟨hsame₁, hlinked₁⟩ := disconnect_yields hd hp hmany hstep₁
  obtain ⟨hsame₂, hlinked₂⟩ := connect_yields hd hp hmany hstep₂
  obtain ⟨new, hlength, hnodup, hfresh, hids₃, hlinked₃⟩ :=
    create_yields hd hb hp hmany hnew hstep₃
  have hbefore := hsame₀.trans hsame₁
  have hids : m₂.store.ids p.target = s.store.ids p.target :=
    ((hbefore.trans hsame₂).ids_eq p.target).symm
  rw [hids] at hfresh hids₃
  refine ⟨new, hlength, hnodup, hfresh, hids₃, fun t => ?_⟩
  rw [hlinked₃, hlinked₂, hlinked₁, hlinked₀, or_assoc]
  simp only [← names_agree hd hsame₀, ← names_agree hd hbefore]
  exact Iff.rfl

/-- The columns of an update leave all links, and what is left to do is the plan of
the one relation that its data mention. -/
theorem changeColumns_many (hd : w.db.Compiles d) (hb : d.UsesBuiltIns) (hs : s.store.Keyed)
    (hp : w.db.plan list field = .ok p) (hmany : p.mode = .many) {es input : Value.Entries}
    (honly : w.Mentions list [field] (.map es)) (hinput : es.get field = .map input)
    {plan : ManyPlan} (hplan : plan.Reads input) {links : List (String × Resolve.LinkAction)}
    (h : (w.changeColumns list i (.map es)).Yields s links s') :
    links = [(field, .many plan)] ∧ w.db.SameLinks s.store s'.store := by
  obtain ⟨hmem, hlist, hfield⟩ := Database.plan_ok hp
  obtain ⟨l, hl, rfl, ⟨c, hc, rfl⟩, hlinks⟩ := changeColumns_yields hd hb hs h
  obtain ⟨f, r, hf, hr, -, hmode⟩ := hd.exists_relation hmem hl hlist
  rw [hfield] at hf
  obtain ⟨plan', hplan', hsingle⟩ :=
    hd.links_eq_singleton hb hl (.inr rfl) (honly l hl rfl) hf hr (hmode ▸ hmany) hinput hc
  obtain rfl := ManyPlan.eq_of_ofValue hplan' hplan
  exact ⟨hsingle, hlinks⟩

/-- An update through one relation to many leaves linked what its input says:
the records that are set, or else were linked before, without those that are
disconnected, and with those that are connected and the new ones, each once. -/
theorem update_leaves (hd : w.db.Compiles d) (hb : d.UsesBuiltIns) (hs : s.store.Keyed)
    (hp : w.db.plan list field = .ok p) (hmany : p.mode = .many) {filter : Value}
    (hi : w.Names s list filter i) {es input : Value.Entries}
    (honly : w.Mentions list [field] (.map es)) (hinput : es.get field = .map input)
    {plan : ManyPlan} (hplan : plan.Reads input)
    (hnew : ∀ v ∈ plan.create, w.Mentions p.target [] v) {record : Record}
    (h : (w.update list filter (.map es)).Yields s record s') :
    ∃ m links new before after,
      (w.changeColumns list i (.map es)).Yields s links m ∧
      new.length = plan.create.length ∧ new.Nodup ∧ (∀ t ∈ new, t ∉ s.store.ids p.target) ∧
      s'.store.ids p.target = s.store.ids p.target ++ new ∧
      w.db.findRelated s.store list field i {} = .ok before ∧
      w.db.findRelated s'.store list field i {} = .ok after ∧
      (after.map (·.id)).Nodup ∧
      ∀ t, t ∈ after.map (·.id) ↔
        plan.Leaves (w.Names m p.target) (before.map (·.id)) new t := by
  simp only [update, Work.bind_yields, require_yields] at h
  obtain ⟨j, m₁, ⟨hj, rfl⟩, _, m₀, hrecord, links, m, hcolumns, _, m', happlied, h⟩ := h
  obtain rfl := hi.eq hj
  obtain rfl := (w.recordOf_reads list i).eq hrecord
  obtain ⟨rfl, hlinks⟩ := changeColumns_many hd hb hs hp hmany honly hinput hplan hcolumns
  simp only [applyLinks, hp, Work.bind_yields, Work.ofExcept_yields] at happlied
  obtain ⟨_, _, ⟨⟨⟩, rfl⟩, _, m₂, hsteps, hdone⟩ := happlied
  obtain ⟨-, rfl⟩ := Work.pure_yields.1 hdone
  have hend : s'.store = m₂.store := by
    obtain ⟨_, _, ⟨rfl, rfl⟩, h⟩ := h
    split at h <;> rw [(Work.pure_yields.1 h).2]
  obtain ⟨new, hlength, hnodup, hfresh, hids, hlinked⟩ :=
    applySteps_yields hd hb hp hmany hnew hsteps
  rw [← hlinks.rows.ids_eq] at hfresh hids
  obtain ⟨before, hbefore, hbefore'⟩ := Database.findRelated_all hp m₁.store i
  obtain ⟨after, hafter, hafter'⟩ := Database.findRelated_all hp s'.store i
  rw [← hend] at hids hlinked
  have hdistinct : (s'.store.ids p.target).Nodup := by
    rw [hids, List.nodup_append]
    refine ⟨hs p.target, hnodup, ?_⟩
    rintro t ht _ ht' rfl
    exact hfresh t ht' ht
  refine ⟨m, _, new, before, after, hcolumns, hlength, hnodup, hfresh, hids, hbefore, hafter,
    hafter'.nodup_iff.2 (hdistinct.sublist (s'.store.linked_sublist p i)), fun t => ?_⟩
  rw [hafter'.mem_iff, hlinked]
  simp only [ManyPlan.Leaves, hbefore'.mem_iff, hlinks.linked_iff hd (Database.plan_ok hp).1 hmany]

/-! ## A post with tags -/

/-- A worker on posts that takes all verbs in one input. -/
def blogWorker : Worker where
  db := blog.database.result
  setPolicy := .setFirst

/-- A post with the first of two tags. -/
def blogSession : Session where
  store := {
    tables := [("Post", [⟨1, [("title", .text "linked")]⟩]),
      ("Tag", [⟨1, [("name", .text "a")]⟩, ⟨2, [("name", .text "b")]⟩])]
    joins := [("_Post_tags", [(1, 1)])] }
  supply := blogSupply

/-- The tag of a name, as a filter and as data. -/
def tagNamed (name : String) : Value :=
  .map [(.text "name", .text name)]

/-- Every verb at once, with a tag that is set twice. -/
def retag : ManyPlan where
  set := some [tagNamed "b", tagNamed "b"]
  disconnect := [tagNamed "b"]
  connect := [tagNamed "a"]
  create := [tagNamed "c"]

def retagInput : Value.Entries :=
  [(.text "set", .list [tagNamed "b", tagNamed "b"]), (.text "disconnect", .list [tagNamed "b"]),
    (.text "connect", .list [tagNamed "a"]), (.text "create", .list [tagNamed "c"])]

/-- The facts about the update that are evaluated, in one go. -/
theorem retag_facts :
    (blogWorker.db.plan "Post" "tags").toOption =
        some ⟨"Post", "tags", "Tag", .many, .join "_Post_tags" .first⟩ ∧
      ((blogWorker.require "Post" (.map [(.text "id", .int 1)])).outcome blogSession).1.toOption =
        some 1 ∧
      blogWorker.Mentions "Post" ["tags"] (.map [(.text "tags", .map retagInput)]) ∧
      (∀ v ∈ retag.create, blogWorker.Mentions "Tag" [] v) ∧
      ((blogWorker.update "Post" (.map [(.text "id", .int 1)])
        (.map [(.text "tags", .map retagInput)])).outcome blogSession).1.isOk = true := by
  decide +kernel

theorem update_leaves_blog :
    ∃ record s' m new before after,
      (blogWorker.update "Post" (.map [(.text "id", .int 1)])
        (.map [(.text "tags", .map retagInput)])).Yields blogSession record s' ∧
      new.length = 1 ∧
      blogWorker.db.findRelated blogSession.store "Post" "tags" 1 {} = .ok before ∧
      blogWorker.db.findRelated s'.store "Post" "tags" 1 {} = .ok after ∧
      (after.map (·.id)).Nodup ∧
      ∀ t, t ∈ after.map (·.id) ↔
        retag.Leaves (blogWorker.Names m "Tag") (before.map (·.id)) new t := by
  obtain ⟨hplan, hid, honly, hnew, hok⟩ := retag_facts
  have hkeyed : blogSession.store.Keyed := .of_tables (by decide)
  have hplan : blogWorker.db.plan "Post" "tags" =
      .ok ⟨"Post", "tags", "Tag", .many, .join "_Post_tags" .first⟩ :=
    Except.eq_ok_of_toOption hplan
  have hid := names_of_outcome hid
  obtain ⟨record, s', h⟩ := Work.exists_yields hok
  obtain ⟨m, -, new, before, after, -, hlength, -, -, -, hbefore, hafter, honce, hleaves⟩ :=
    update_leaves blog_compiles blog_usesBuiltIns hkeyed hplan rfl hid honly rfl
      ⟨rfl, rfl, rfl, rfl⟩ hnew h
  exact ⟨record, s', m, new, before, after, h, hlength, hbefore, hafter, honce, hleaves⟩

end Worker

end RecordSchema
