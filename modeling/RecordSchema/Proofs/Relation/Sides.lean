import Mathlib.Data.String.Basic
import RecordSchema.Proofs.Lists
import RecordSchema.Proofs.Success
import RecordSchema.Relation.Plan

/-!
# The two sides of a relation

When every relation has a plan, the plans of the two sides of one
relation mirror each other: a key column that one side owns is the key
column of the target for the other, and a join table is read from its
two ends. So a link that is made through one side is the same link for
the other.
-/

namespace RecordSchema

/-! ## Links of single fields -/

/-- How the links of the two sides of a relation belong together. -/
inductive Link.Mirrors : Link → Link → Prop where
  | ownKey (column : String) (unique : Bool) :
    Mirrors (.ownKey column unique) (.targetKey column unique)
  | targetKey (column : String) (unique : Bool) :
    Mirrors (.targetKey column unique) (.ownKey column unique)
  | join (table : String) (side : JoinSide) : Mirrors (.join table side) (.join table side.other)

/-- Of two paths exactly one comes first. -/
theorem pathBefore_swap {a b : String × String} (h : a ≠ b) : pathBefore b a = !pathBefore a b := by
  rcases lt_trichotomy a.1 b.1 with hlt | heq | hgt
  · simp [pathBefore, hlt, hlt.not_gt, hlt.ne']
  · have hne : a.2 ≠ b.2 := fun h2 => h (Prod.ext heq h2)
    rcases lt_or_gt_of_ne hne with hlt | hgt
    · simp [pathBefore, heq, hlt.le, hlt.not_ge]
    · simp [pathBefore, heq, hgt.le, hgt.not_ge]
  · simp [pathBefore, hgt, hgt.not_gt, hgt.ne']

namespace RelationField

variable {r o : RelationField} {list field back : String} {other : Option (String × RelationField)}
  {column : String} {unique : Bool}

/-- A relation that owns its key column is to one record, and the column holds
no value twice just when the other side is to one as well. -/
theorem link_ownKey (h : r.link list field other = .ok (.ownKey column unique)) :
    r.mode = .one ∧ (unique = true ↔ ∃ back o, other = some (back, o) ∧ o.mode = .one) := by
  cases hr : r.mode with
  | one =>
    simp only [link, hr, planOne] at h
    split at h
    · split at h
      · split at h
        · cases h
        · split at h <;> cases h
          exact ⟨rfl, iff_of_true rfl ⟨_, _, rfl, ‹_›⟩⟩
      · next ho =>
        cases h
        simp [ho]
    · cases h
      simp
  | many =>
    simp only [link, hr, planMany] at h
    split at h
    · cases h
    · split at h
      · cases h
      · split at h
        · split at h <;> cases h
        · cases h

/-- A relation whose key column the target owns has another side, which is to
one record. -/
theorem link_targetKey (h : r.link list field other = .ok (.targetKey column unique)) :
    (∃ back o, other = some (back, o) ∧ o.mode = .one) ∧ (unique = true ↔ r.mode = .one) := by
  cases hr : r.mode with
  | one =>
    simp only [link, hr, planOne] at h
    split at h
    · split at h
      · split at h
        · cases h
        · split at h <;> cases h
          exact ⟨⟨_, _, rfl, ‹_›⟩, iff_of_true rfl rfl⟩
      · cases h
    · cases h
  | many =>
    simp only [link, hr, planMany] at h
    split at h
    · cases h
    · split at h
      · next ho =>
        cases h
        exact ⟨⟨_, _, rfl, ho⟩, by simp⟩
      · split at h
        · split at h <;> cases h
        · cases h

theorem link_join {table : String} {side : JoinSide}
    (h : r.link list field other = .ok (.join table side)) : r.mode = .many := by
  cases hr : r.mode with
  | many => rfl
  | one =>
    simp only [link, hr, planOne] at h
    split at h
    · split at h
      · split at h
        · cases h
        · split at h <;> cases h
      · cases h
    · cases h

/-- A relation between many and many has the join table that one of its sides
names, or else one named for the side that comes first. -/
theorem planMany_many (ho : o.mode = .many) {a : Link} :
    r.planMany list field (some (back, o)) = .ok a ↔
      (∀ m n, nonempty? r.relationName = some m → nonempty? o.relationName = some n → m = n) ∧
        a = .join
          (((nonempty? r.relationName).or (nonempty? o.relationName)).getD
            (if pathBefore (list, field) (r.list, back) then "_" ++ list ++ "_" ++ field
              else "_" ++ r.list ++ "_" ++ back))
          (if pathBefore (list, field) (r.list, back) then .first else .second) := by
  simp only [planMany, ho]
  split
  · next m n hm hn =>
    rw [hm, hn]
    by_cases heq : m = n
    · subst heq
      rw [if_neg (by simp)]
      exact ⟨fun h => ⟨fun x y hx hy => Option.some.inj (hx.symm.trans hy), (Except.ok.inj h).symm⟩,
        fun h => congrArg Except.ok h.2.symm⟩
    · rw [if_pos (by simpa using heq)]
      exact ⟨nofun, fun h => absurd (h.1 m n rfl rfl) heq⟩
  · next hnot =>
    have hnames : ∀ m n, nonempty? r.relationName = some m → nonempty? o.relationName = some n →
        m = n := fun m n hm hn => absurd hn (hnot m n hm)
    cases pathBefore (list, field) (r.list, back) <;>
      exact ⟨fun h => ⟨hnames, (Except.ok.inj h).symm⟩, fun h => congrArg Except.ok h.2.symm⟩

/-- The two sides of a relation between many and many read the same join table
from its two ends. -/
theorem planMany_sides (hr : r.mode = .many) (ho : o.mode = .many) (hlist : o.list = list)
    (hne : (list, field) ≠ (r.list, back)) {a : Link}
    (ha : r.planMany list field (some (back, o)) = .ok a) :
    ∃ table side, a = .join table side ∧
      o.planMany r.list back (some (field, r)) = .ok (.join table side.other) := by
  obtain ⟨hnames, rfl⟩ := (planMany_many ho).1 ha
  refine ⟨_, _, rfl, (planMany_many hr).2 ⟨fun m n hm hn => (hnames n m hn hm).symm, ?_⟩⟩
  have hname : (nonempty? o.relationName).or (nonempty? r.relationName) =
      (nonempty? r.relationName).or (nonempty? o.relationName) := by
    cases hm : nonempty? r.relationName with
    | none => rw [Option.or_none, Option.none_or]
    | some m =>
      cases hn : nonempty? o.relationName with
      | none => rfl
      | some n => rw [hnames m n hm hn]
  -- Exactly one side comes first, so both name the table for the same one.
  rw [hname, hlist, pathBefore_swap hne]
  cases pathBefore (list, field) (r.list, back) <;> rfl

/-- Where the two sides of a relation keep their links, by their modes and, between
one and one, by the side that sets a foreign key. -/
inductive Agree (r o : RelationField) : Link → Link → Prop where
  | ownOne (column : String) (hr : r.mode = .one) (ho : o.mode = .one)
    (hkey : r.ownsForeignKey = true) (hother : o.ownsForeignKey = false) :
    Agree r o (.ownKey column true) (.targetKey column true)
  | targetOne (column : String) (hr : r.mode = .one) (ho : o.mode = .one)
    (hkey : r.ownsForeignKey = false) (hother : o.ownsForeignKey = true) :
    Agree r o (.targetKey column true) (.ownKey column true)
  | ownMany (column : String) (hr : r.mode = .one) (ho : o.mode = .many) :
    Agree r o (.ownKey column false) (.targetKey column false)
  | targetMany (column : String) (hr : r.mode = .many) (ho : o.mode = .one) :
    Agree r o (.targetKey column false) (.ownKey column false)
  | join (table : String) (side : JoinSide) (hr : r.mode = .many) (ho : o.mode = .many) :
    Agree r o (.join table side) (.join table side.other)

theorem Agree.mirrors {a b : Link} (h : r.Agree o a b) : a.Mirrors b := by
  cases h with
  | ownOne column => exact .ownKey column true
  | targetOne column => exact .targetKey column true
  | ownMany column => exact .ownKey column false
  | targetMany column => exact .targetKey column false
  | join table side => exact .join table side

/-- Where one side of a relation has a link, the other side has one that agrees. -/
theorem link_agree (hlist : o.list = list) (hne : (list, field) ≠ (r.list, back)) {a : Link}
    (ha : r.link list field (some (back, o)) = .ok a) :
    ∃ b, o.link r.list back (some (field, r)) = .ok b ∧ r.Agree o a b := by
  cases hr : r.mode with
  | one =>
    cases ho : o.mode with
    | one =>
      simp only [link, planOne, hr, ho] at ha ⊢
      cases hro : r.ownsForeignKey <;> cases hoo : o.ownsForeignKey <;>
        simp [hro, hoo] at ha <;> subst ha
      · exact ⟨_, rfl, .targetOne _ hr ho hro hoo⟩
      · exact ⟨_, rfl, .ownOne _ hr ho hro hoo⟩
    | many =>
      simp only [link, planOne, planMany, hr, ho] at ha ⊢
      cases ha
      exact ⟨_, rfl, .ownMany _ hr ho⟩
  | many =>
    cases ho : o.mode with
    | one =>
      simp only [link, planOne, planMany, hr, ho] at ha ⊢
      cases ha
      exact ⟨_, rfl, .targetMany _ hr ho⟩
    | many =>
      simp only [link, hr] at ha
      simp only [link, ho]
      obtain ⟨table, side, rfl, hb⟩ := planMany_sides hr ho hlist hne ha
      exact ⟨_, hb, .join table side hr ho⟩

/-- A relation that is its own other side is to many. -/
theorem link_self {a : Link} (h : r.link list field (some (back, r)) = .ok a) : r.mode = .many := by
  cases hr : r.mode with
  | many => rfl
  | one => simp [link, planOne, hr] at h

end RelationField

/-! ## Plans of whole schemas -/

namespace Relations

/-- Storage kinds under keys of their own. -/
structure IsMapping (rs : Relations) : Prop where
  lists : (rs.map Prod.fst).Nodup
  fields : ∀ e ∈ rs, (e.2.map Prod.fst).Nodup

/-- Storage kinds under keys of their own, every relation of which has a plan. -/
structure Planned (rs : Relations) (ps : List RelationPlan) : Prop where
  lists : (rs.map Prod.fst).Nodup
  fields : ∀ e ∈ rs, (e.2.map Prod.fst).Nodup
  plan : rs.plan = (ps, [])

/-- Whether the field of one plan names that of another as its other side. -/
def AreSides (rs : Relations) (p q : RelationPlan) : Prop :=
  ∃ r, rs.relation? p.list p.field = some r ∧ r.list = q.list ∧ r.field = some q.field

variable {rs : Relations} {ps : List RelationPlan} {p q q' : RelationPlan}

/-! ## Plans of single fields -/

theorem planOf_ok {list field : String} {r : RelationField} (h : rs.planOf list field r = .ok p) :
    p.list = list ∧ p.field = field ∧ p.target = r.list ∧ p.mode = r.mode ∧
      ∃ other, rs.otherSide list field r = .ok other ∧ r.link list field other = .ok p.link := by
  simp only [planOf, Except.bind_eq_ok, Except.pure_eq_ok] at h
  obtain ⟨other, hother, link, hlink, rfl⟩ := h
  exact ⟨rfl, rfl, rfl, rfl, other, hother, hlink⟩

theorem otherSide_ok {list field : String} {r : RelationField}
    {other : Option (String × RelationField)} (h : rs.otherSide list field r = .ok other) :
    (rs.lookup r.list).isSome ∧
      ((r.field = none ∧ other = none) ∨
        ∃ back o, r.field = some back ∧ other = some (back, o) ∧
          rs.relation? r.list back = some o ∧ o.list = list ∧ o.field = some field) := by
  unfold otherSide at h
  split at h
  · cases h
  · next hlist =>
    refine ⟨by rwa [Option.isNone_iff_eq_none, ← ne_eq, Option.ne_none_iff_isSome] at hlist, ?_⟩
    split at h
    · next hnone =>
      cases h
      exact .inl ⟨hnone, rfl⟩
    · next back hback =>
      split at h
      · cases h
      · next o ho =>
        split at h
        · next hmutual =>
          cases h
          simp only [Bool.and_eq_true, beq_iff_eq] at hmutual
          exact .inr ⟨back, o, hback, rfl, ho, hmutual.1, hmutual.2⟩
        · cases h

theorem otherSide_symm {list field back : String} {r o : RelationField}
    (hr : rs.relation? list field = some r) (hback : r.field = some back)
    (hlist : o.list = list) (hfield : o.field = some field) :
    rs.otherSide r.list back o = .ok (some (field, r)) := by
  have hsome : (rs.lookup list).isSome := by
    unfold relation? at hr
    cases hl : rs.lookup list with
    | none => simp [hl] at hr
    | some => rfl
  simp [otherSide, hlist, hfield, hr, hback, Option.isNone_iff_eq_none,
    Option.ne_none_iff_isSome.2 hsome]

theorem mem_of_relation? {list field : String} {r : RelationField}
    (h : rs.relation? list field = some r) :
    ∃ fields, (list, fields) ∈ rs ∧ (field, .relation r) ∈ fields := by
  unfold relation? at h
  split at h
  · next s hs =>
    cases h
    obtain ⟨fields, hl, hf⟩ := Option.bind_eq_some_iff.1 hs
    exact ⟨fields, Keys.mem_of_lookup hl, Keys.mem_of_lookup hf⟩
  · cases h

theorem mem_outcomes {rs : Relations} {o : Except String RelationPlan} :
    o ∈ rs.outcomes ↔ ∃ list fields field r, (list, fields) ∈ rs ∧ (field, .relation r) ∈ fields ∧
      (rs.planOf list field r).mapError (·.message (list ++ "." ++ field)) = o := by
  simp only [outcomes, List.mem_flatMap, List.mem_filterMap]
  constructor
  · rintro ⟨⟨list, fields⟩, hl, ⟨field, s⟩, hf, ho⟩
    cases s with
    | relation r => exact ⟨list, fields, field, r, hl, hf, Option.some.inj ho⟩
    | _ => cases ho
  · rintro ⟨list, fields, field, r, hl, hf, rfl⟩
    exact ⟨(list, fields), hl, (field, .relation r), hf, rfl⟩

theorem mem_plan_of_planOf {list field : String} {r : RelationField}
    (hr : rs.relation? list field = some r) (h : rs.planOf list field r = .ok p) :
    p ∈ rs.plan.1 := by
  obtain ⟨fields, hl, hf⟩ := mem_of_relation? hr
  exact List.mem_filterMap.2 ⟨.ok p, mem_outcomes.2 ⟨list, fields, field, r, hl, hf, by rw [h]; rfl⟩, rfl⟩

namespace IsMapping

theorem relation?_of_mem (h : rs.IsMapping) {list field : String} {r : RelationField}
    {fields : List (String × Storage)} (hl : (list, fields) ∈ rs)
    (hf : (field, .relation r) ∈ fields) : rs.relation? list field = some r := by
  simp only [relation?, Keys.lookup_of_mem h.lists hl, Option.bind_some,
    Keys.lookup_of_mem (h.fields _ hl) hf]

theorem planOf_of_mem (h : rs.IsMapping) (hp : p ∈ rs.plan.1) :
    ∃ r, rs.relation? p.list p.field = some r ∧ rs.planOf p.list p.field r = .ok p := by
  obtain ⟨o, ho, hok⟩ := List.mem_filterMap.1 hp
  obtain ⟨list, fields, field, r, hl, hf, rfl⟩ := mem_outcomes.1 ho
  cases hplan : rs.planOf list field r with
  | error e =>
    rw [hplan] at hok
    cases hok
  | ok q =>
    rw [hplan] at hok
    obtain rfl : q = p := Option.some.inj hok
    obtain ⟨rfl, rfl, -⟩ := planOf_ok hplan
    exact ⟨r, h.relation?_of_mem hl hf, hplan⟩

theorem eq_of_mem (h : rs.IsMapping) (hp : p ∈ rs.plan.1) (hq : q ∈ rs.plan.1)
    (hlist : p.list = q.list) (hfield : p.field = q.field) : p = q := by
  obtain ⟨r, hr, hplan⟩ := h.planOf_of_mem hp
  obtain ⟨r', hr', hplan'⟩ := h.planOf_of_mem hq
  rw [hlist, hfield] at hr hplan
  obtain rfl := Option.some.inj (hr.symm.trans hr')
  exact Except.ok.inj (hplan.symm.trans hplan')

/-- A relation with a plan that names a field as its other side has one that
points back. -/
theorem other_of_mem (h : rs.IsMapping) (hp : p ∈ rs.plan.1) {r : RelationField} {back : String}
    (hr : rs.relation? p.list p.field = some r) (hback : r.field = some back) :
    p.target = r.list ∧ p.mode = r.mode ∧
      ∃ o, rs.relation? r.list back = some o ∧ o.list = p.list ∧ o.field = some p.field ∧
        r.link p.list p.field (some (back, o)) = .ok p.link := by
  obtain ⟨r', hr', hplan⟩ := h.planOf_of_mem hp
  obtain rfl := Option.some.inj (hr.symm.trans hr')
  obtain ⟨-, -, htarget, hmode, other, hother, hlink⟩ := planOf_ok hplan
  obtain ⟨-, ⟨hnone, -⟩ | ⟨back', o, hback', rfl, ho, holist, hofield⟩⟩ := otherSide_ok hother
  · rw [hback] at hnone
    cases hnone
  · obtain rfl := Option.some.inj (hback.symm.trans hback')
    exact ⟨htarget, hmode, o, ho, holist, hofield, hlink⟩

/-- Where a relation that names a different field as its other side has a plan, that
field has one, and the links of both agree. -/
theorem exists_agree (h : rs.IsMapping) (hp : p ∈ rs.plan.1) {r : RelationField} {back : String}
    (hr : rs.relation? p.list p.field = some r) (hback : r.field = some back)
    (hne : (p.list, p.field) ≠ (r.list, back)) :
    ∃ o, rs.relation? r.list back = some o ∧ ∃ q ∈ rs.plan.1, q.list = r.list ∧ q.field = back ∧
      q.target = p.list ∧ q.mode = o.mode ∧ r.Agree o p.link q.link := by
  obtain ⟨-, -, o, ho, holist, hofield, hlink⟩ := h.other_of_mem hp hr hback
  obtain ⟨link, hqlink, hagree⟩ := RelationField.link_agree holist hne hlink
  refine ⟨o, ho, ⟨r.list, back, o.list, o.mode, link⟩, mem_plan_of_planOf ho ?_, rfl, rfl, holist,
    rfl, hagree⟩
  rw [planOf, otherSide_symm hr hback holist hofield]
  simp only [bind, Except.bind, hqlink]
  rfl

end IsMapping

namespace Planned

theorem isMapping (h : rs.Planned ps) : rs.IsMapping :=
  ⟨h.lists, h.fields⟩

theorem mem_iff (h : rs.Planned ps) : p ∈ ps ↔ p ∈ rs.plan.1 := by
  rw [h.plan]

theorem error_notMem (h : rs.Planned ps) (problem : String) : .error problem ∉ rs.outcomes := by
  intro hmem
  have hnil := (Prod.mk.inj h.plan).2
  exact List.eq_nil_iff_forall_not_mem.1 hnil problem
    (List.mem_filterMap.2 ⟨.error problem, hmem, rfl⟩)

theorem planOf_of_mem (h : rs.Planned ps) (hp : p ∈ ps) :
    ∃ r, rs.relation? p.list p.field = some r ∧ rs.planOf p.list p.field r = .ok p :=
  h.isMapping.planOf_of_mem (h.mem_iff.1 hp)

theorem exists_planOf (h : rs.Planned ps) {list field : String} {r : RelationField}
    (hr : rs.relation? list field = some r) : ∃ p ∈ ps, rs.planOf list field r = .ok p := by
  cases hplan : rs.planOf list field r with
  | ok p => exact ⟨p, h.mem_iff.2 (mem_plan_of_planOf hr hplan), rfl⟩
  | error e =>
    obtain ⟨fields, hl, hf⟩ := mem_of_relation? hr
    have ho := mem_outcomes.2 ⟨list, fields, field, r, hl, hf, rfl⟩
    rw [hplan] at ho
    exact absurd ho (h.error_notMem _)

theorem eq_of_mem (h : rs.Planned ps) (hp : p ∈ ps) (hq : q ∈ ps) (hlist : p.list = q.list)
    (hfield : p.field = q.field) : p = q :=
  h.isMapping.eq_of_mem (h.mem_iff.1 hp) (h.mem_iff.1 hq) hlist hfield

/-! ## Other sides -/

theorem exists_side (h : rs.Planned ps) (hp : p ∈ ps) {r : RelationField} {back : String}
    (hr : rs.relation? p.list p.field = some r) (hback : r.field = some back) :
    ∃ q ∈ ps, q.field = back ∧ rs.AreSides p q := by
  obtain ⟨-, -, o, ho, -⟩ := h.isMapping.other_of_mem (h.mem_iff.1 hp) hr hback
  obtain ⟨q, hq, hqplan⟩ := h.exists_planOf ho
  obtain ⟨hlist, hfield, -⟩ := planOf_ok hqplan
  exact ⟨q, hq, hfield, r, hr, hlist.symm, hfield ▸ hback⟩

theorem planOf_sides (h : rs.Planned ps) (hp : p ∈ ps) (hq : q ∈ ps) (hs : rs.AreSides p q) :
    ∃ r o, rs.relation? p.list p.field = some r ∧ rs.relation? q.list q.field = some o ∧
      r.list = q.list ∧ r.field = some q.field ∧ o.list = p.list ∧ o.field = some p.field ∧
      p.target = q.list ∧ p.mode = r.mode ∧ q.target = p.list ∧ q.mode = o.mode ∧
      r.link p.list p.field (some (q.field, o)) = .ok p.link ∧
      o.link q.list q.field (some (p.field, r)) = .ok q.link := by
  obtain ⟨r, hr, hlist, hback⟩ := hs
  obtain ⟨htarget, hmode, o, ho, holist, hofield, hlink⟩ :=
    h.isMapping.other_of_mem (h.mem_iff.1 hp) hr hback
  rw [hlist] at ho
  obtain ⟨hqtarget, hqmode, r', hr', -, -, hqlink⟩ :=
    h.isMapping.other_of_mem (h.mem_iff.1 hq) ho hofield
  rw [holist, hr] at hr'
  obtain rfl := Option.some.inj hr'
  exact ⟨r, o, hr, ho, hlist, hback, holist, hofield, htarget.trans hlist, hmode,
    hqtarget.trans holist, hqmode, hlink, hqlink⟩

theorem target_eq (h : rs.Planned ps) (hp : p ∈ ps) (hq : q ∈ ps) (hs : rs.AreSides p q) :
    p.target = q.list := by
  obtain ⟨_, _, _, _, _, _, _, _, htarget, _⟩ := h.planOf_sides hp hq hs
  exact htarget

theorem areSides_symm (h : rs.Planned ps) (hp : p ∈ ps) (hq : q ∈ ps) (hs : rs.AreSides p q) :
    rs.AreSides q p := by
  obtain ⟨_, o, _, ho, _, _, holist, hofield, _⟩ := h.planOf_sides hp hq hs
  exact ⟨o, ho, holist, hofield⟩

/-- A field is the other side of one field at most. -/
theorem side_unique (h : rs.Planned ps) (hq : q ∈ ps) (hq' : q' ∈ ps) (hs : rs.AreSides p q)
    (hs' : rs.AreSides p q') : q = q' := by
  obtain ⟨r, hr, hlist, hfield⟩ := hs
  obtain ⟨r', hr', hlist', hfield'⟩ := hs'
  obtain rfl := Option.some.inj (hr.symm.trans hr')
  exact h.eq_of_mem hq hq' (hlist.symm.trans hlist')
    (Option.some.inj (hfield.symm.trans hfield'))

/-- The plans of two different sides mirror each other. -/
theorem mirrors (h : rs.Planned ps) (hp : p ∈ ps) (hq : q ∈ ps) (hs : rs.AreSides p q)
    (hne : p ≠ q) : p.link.Mirrors q.link := by
  obtain ⟨r, hr, hlist, hback⟩ := hs
  have hpaths : (p.list, p.field) ≠ (r.list, q.field) := by
    intro heq
    obtain ⟨hl, hf⟩ := Prod.mk.inj heq
    exact hne (h.eq_of_mem hp hq (hl.trans hlist) hf)
  obtain ⟨o, -, q', hq', hqlist, hqfield, -, -, hagree⟩ :=
    h.isMapping.exists_agree (h.mem_iff.1 hp) hr hback hpaths
  obtain rfl := h.eq_of_mem (h.mem_iff.2 hq') hq (hqlist.trans hlist) hqfield
  exact hagree.mirrors

/-- The side of a one-to-one or one-to-many relation that owns a key column of
the target. -/
theorem exists_owner (h : rs.Planned ps) (hp : p ∈ ps) {column : String} {unique : Bool}
    (hlink : p.link = .targetKey column unique) :
    ∃ q ∈ ps, rs.AreSides p q ∧ q.link = .ownKey column unique ∧
      (unique = true ↔ p.mode = .one) := by
  obtain ⟨r, hr, hplan⟩ := h.planOf_of_mem hp
  obtain ⟨-, -, -, hmode, other, hother, hrlink⟩ := planOf_ok hplan
  rw [hlink] at hrlink
  obtain ⟨⟨back, o, rfl, hone⟩, hunique⟩ := RelationField.link_targetKey hrlink
  obtain ⟨-, ⟨-, hnone⟩ | ⟨back', o', hback, heq, ho, -⟩⟩ := otherSide_ok hother
  · cases hnone
  · cases heq
    obtain ⟨q, hq, hfield, hs⟩ := h.exists_side hp hr hback
    have hne : p ≠ q := by
      rintro rfl
      obtain ⟨r', hr', hlist, -⟩ := hs
      obtain rfl := Option.some.inj (hr.symm.trans hr')
      rw [hlist, ← hfield, hr] at ho
      obtain rfl := Option.some.inj ho
      rw [RelationField.link_self hrlink] at hone
      cases hone
    have hmirrors := h.mirrors hp hq hs hne
    rw [hlink] at hmirrors
    refine ⟨q, hq, hs, ?_, hmode ▸ hunique⟩
    cases hq : q.link <;> rw [hq] at hmirrors <;> cases hmirrors
    rfl

theorem mode_of_ownKey (h : rs.Planned ps) (hp : p ∈ ps) {column : String} {unique : Bool}
    (hlink : p.link = .ownKey column unique) : p.mode = .one := by
  obtain ⟨r, -, hplan⟩ := h.planOf_of_mem hp
  obtain ⟨-, -, -, hmode, _, -, hrlink⟩ := planOf_ok hplan
  rw [hlink] at hrlink
  rw [hmode, (RelationField.link_ownKey hrlink).1]

theorem mode_of_join (h : rs.Planned ps) (hp : p ∈ ps) {table : String} {side : JoinSide}
    (hlink : p.link = .join table side) : p.mode = .many := by
  obtain ⟨r, -, hplan⟩ := h.planOf_of_mem hp
  obtain ⟨-, -, -, hmode, _, -, hrlink⟩ := planOf_ok hplan
  rw [hlink] at hrlink
  rw [hmode, RelationField.link_join hrlink]

theorem ends_mem (h : rs.Planned ps) (hp : p ∈ ps) :
    p.list ∈ rs.map Prod.fst ∧ p.target ∈ rs.map Prod.fst := by
  obtain ⟨r, hr, hplan⟩ := h.planOf_of_mem hp
  obtain ⟨-, -, htarget, -, _, hother, -⟩ := planOf_ok hplan
  obtain ⟨fields, hmem, -⟩ := mem_of_relation? hr
  obtain ⟨target, hlookup⟩ := Option.isSome_iff_exists.1 (otherSide_ok hother).1
  refine ⟨List.mem_map.2 ⟨_, hmem, rfl⟩, ?_⟩
  rw [htarget]
  exact List.mem_map.2 ⟨_, Keys.mem_of_lookup hlookup, rfl⟩

end Planned

end Relations

end RecordSchema
