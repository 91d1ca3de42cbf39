import Mathlib.Data.List.Perm.Basic
import RecordSchema.Proofs.Relation.Sides

/-!
# Accounting for every relation

Planning the relations of a schema goes through its fields one by one,
and each relation ends in a plan or in a problem. Here the two lists are
put together again: the paths of the plans and those of the problems are
the paths of the relations, each of them once
(`Relations.AccountsFor`). The two sides of a relation are planned in
different places, but they share their fate: when one side has a plan,
so has the other, and so they are rejected together as well.
-/

namespace RecordSchema

/-- The field that a plan is for. -/
def RelationPlan.path (p : RelationPlan) : String × String := (p.list, p.field)

namespace Relations

/-- The relations among the fields of a list. -/
def among (fields : List (String × Storage)) : List (String × RelationField) :=
  fields.filterMap fun (field, s) =>
    match s with
    | .relation r => some (field, r)
    | _ => none

/-- The relations of a schema by their paths, in the order of the fields. -/
def relationFields (rs : Relations) : List ((String × String) × RelationField) :=
  rs.flatMap fun (list, fields) => (among fields).map fun (field, r) => ((list, field), r)

/-- Whether plans and problems account for every relation once. The problems are those of
the rejected paths, and no path but that of a relation has a plan or is rejected. -/
structure AccountsFor (rs : Relations) (plans : List RelationPlan) (problems : List String)
    (rejected : List ((String × String) × RelationProblem)) : Prop where
  worded : problems = rejected.map fun e => e.2.message (e.1.1 ++ "." ++ e.1.2)
  once : (plans.map RelationPlan.path ++ rejected.map Prod.fst).Nodup
  relations : ∀ list field, (list, field) ∈ plans.map RelationPlan.path ++ rejected.map Prod.fst ↔
    ∃ r, rs.relation? list field = some r

/-- Whether two relation fields name each other as their other sides. -/
structure PointBack (rs : Relations) (a b : String × String) : Prop where
  forth : ∃ r, rs.relation? a.1 a.2 = some r ∧ r.list = b.1 ∧ r.field = some b.2
  back : ∃ r, rs.relation? b.1 b.2 = some r ∧ r.list = a.1 ∧ r.field = some a.2

variable {rs : Relations} {list field : String} {r : RelationField} {a b : String × String}

theorem PointBack.symm (h : rs.PointBack a b) : rs.PointBack b a :=
  ⟨h.back, h.forth⟩

/-! ## The relations of a schema -/

theorem mem_among {fields : List (String × Storage)} :
    (field, r) ∈ among fields ↔ (field, .relation r) ∈ fields := by
  rw [among, List.mem_filterMap]
  constructor
  · rintro ⟨⟨field', s⟩, hf, heq⟩
    cases s with
    | relation r' =>
      cases heq
      exact hf
    | _ => cases heq
  · intro hf
    exact ⟨_, hf, rfl⟩

theorem among_sublist (fields : List (String × Storage)) :
    ((among fields).map Prod.fst).Sublist (fields.map Prod.fst) := by
  refine Keys.filterMap_sublist (fun e found h => ?_) fields
  obtain ⟨field, s⟩ := e
  cases s <;> cases h
  rfl

theorem mem_relationFields : ((list, field), r) ∈ rs.relationFields ↔
    ∃ fields, (list, fields) ∈ rs ∧ (field, .relation r) ∈ fields := by
  simp only [relationFields, List.mem_flatMap, List.mem_map]
  constructor
  · rintro ⟨⟨list', fields⟩, hl, ⟨field', r'⟩, hf, heq⟩
    cases heq
    exact ⟨fields, hl, mem_among.1 hf⟩
  · rintro ⟨fields, hl, hf⟩
    exact ⟨(list, fields), hl, (field, r), mem_among.2 hf, rfl⟩

/-- There is one outcome for each relation. -/
theorem outcomes_eq (rs : Relations) : rs.outcomes = rs.relationFields.map fun e =>
    (rs.planOf e.1.1 e.1.2 e.2).mapError (·.message (e.1.1 ++ "." ++ e.1.2)) := by
  rw [outcomes, relationFields, List.map_flatMap]
  refine List.flatMap_congr fun e _ => ?_
  obtain ⟨list, fields⟩ := e
  simp only [among, List.map_filterMap]
  refine List.filterMap_congr fun f _ => ?_
  obtain ⟨field, s⟩ := f
  cases s <;> rfl

namespace IsMapping

theorem mem_relationFields_iff (h : rs.IsMapping) :
    ((list, field), r) ∈ rs.relationFields ↔ rs.relation? list field = some r := by
  rw [mem_relationFields]
  constructor
  · rintro ⟨fields, hl, hf⟩
    exact h.relation?_of_mem hl hf
  · exact mem_of_relation?

/-- Paths tell relations apart: by their lists, and within a list by their fields. -/
theorem nodup_paths (h : rs.IsMapping) : (rs.relationFields.map Prod.fst).Nodup := by
  have hpaths (e : String × List (String × Storage)) :
      ((among e.2).map fun (field, r) => ((e.1, field), r)).map Prod.fst =
        ((among e.2).map Prod.fst).map (Prod.mk e.1) := by
    rw [List.map_map, List.map_map]
    rfl
  rw [relationFields, List.map_flatMap]
  refine Keys.nodup_flatMap h.lists (fun e he => ?one) (fun e _ e' _ path hpath hpath' => ?apart)
  case one =>
    rw [hpaths]
    have hfields := (h.fields e he).sublist (among_sublist e.2)
    exact hfields.map (Prod.mk_right_injective e.1)
  case apart =>
    rw [hpaths] at hpath hpath'
    obtain ⟨field, -, rfl⟩ := List.mem_map.1 hpath
    obtain ⟨field', -, heq⟩ := List.mem_map.1 hpath'
    exact (Prod.mk.inj heq).1.symm

end IsMapping

/-! ## Plans and problems -/

/-- The relations without a plan, and what is wrong with them. -/
def rejected (rs : Relations) : List ((String × String) × RelationProblem) :=
  rs.relationFields.filterMap fun e =>
    match rs.planOf e.1.1 e.1.2 e.2 with
    | .ok _ => none
    | .error problem => some (e.1, problem)

theorem plan_fst (rs : Relations) :
    rs.plan.1 = rs.relationFields.filterMap fun e => (rs.planOf e.1.1 e.1.2 e.2).toOption := by
  rw [plan, outcomes_eq]
  dsimp only
  rw [List.filterMap_map]
  refine List.filterMap_congr fun e _ => ?_
  rw [Function.comp_apply]
  cases rs.planOf e.1.1 e.1.2 e.2 <;> rfl

theorem plan_snd (rs : Relations) :
    rs.plan.2 = rs.rejected.map fun e => e.2.message (e.1.1 ++ "." ++ e.1.2) := by
  rw [plan, outcomes_eq]
  dsimp only
  rw [rejected, List.filterMap_map, List.map_filterMap]
  refine List.filterMap_congr fun e _ => ?_
  rw [Function.comp_apply]
  cases rs.planOf e.1.1 e.1.2 e.2 <;> rfl

/-- The relations are those with a plan and those without. -/
theorem paths_perm (rs : Relations) :
    (rs.plan.1.map RelationPlan.path ++ rs.rejected.map Prod.fst).Perm
      (rs.relationFields.map Prod.fst) := by
  rw [plan_fst, rejected]
  induction rs.relationFields with
  | nil => exact .refl _
  | cons e rest ih =>
    obtain ⟨⟨list, field⟩, r⟩ := e
    cases hplan : rs.planOf list field r with
    | ok p =>
      obtain ⟨hlist, hfield, -⟩ := planOf_ok hplan
      have hpath : p.path = (list, field) := Prod.ext hlist hfield
      simp only [List.filterMap_cons, hplan, Except.toOption, List.map_cons, List.cons_append, hpath]
      exact ih.cons _
    | error problem =>
      simp only [List.filterMap_cons, hplan, Except.toOption, List.map_cons]
      exact List.perm_middle.trans (ih.cons _)

theorem IsMapping.accountsFor (h : rs.IsMapping) :
    rs.AccountsFor rs.plan.1 rs.plan.2 rs.rejected where
  worded := rs.plan_snd
  once := rs.paths_perm.nodup_iff.2 h.nodup_paths
  relations list field := by
    rw [rs.paths_perm.mem_iff, List.mem_map]
    constructor
    · rintro ⟨⟨path, r⟩, hr, rfl⟩
      exact ⟨r, h.mem_relationFields_iff.1 hr⟩
    · rintro ⟨r, hr⟩
      exact ⟨_, h.mem_relationFields_iff.2 hr, rfl⟩

/-- When a relation has a plan, so has its other side. -/
theorem IsMapping.planned_back (h : rs.IsMapping) (hback : rs.PointBack a b) (hne : a ≠ b)
    (ha : a ∈ rs.plan.1.map RelationPlan.path) : b ∈ rs.plan.1.map RelationPlan.path := by
  obtain ⟨p, hp, rfl⟩ := List.mem_map.1 ha
  obtain ⟨r, hr, hlist, hfield⟩ := hback.forth
  have hpaths : (p.list, p.field) ≠ (r.list, b.2) := by
    rw [hlist]
    exact hne
  obtain ⟨-, -, q, hq, hqlist, hqfield, -⟩ := h.exists_agree hp hr hfield hpaths
  exact List.mem_map.2 ⟨q, hq, Prod.ext (hqlist.trans hlist) hqfield⟩

/-- Every relation has either one plan or one problem, under its path, and nothing else has any;
and of two relations that point back at each other both have plans, or both have problems. -/
theorem plan_accounts (h : rs.IsMapping) :
    ∃ rejected, rs.AccountsFor rs.plan.1 rs.plan.2 rejected ∧
      ∀ a b, rs.PointBack a b → a ≠ b →
        (a ∈ rs.plan.1.map RelationPlan.path ∧ b ∈ rs.plan.1.map RelationPlan.path) ∨
          (a ∈ rejected.map Prod.fst ∧ b ∈ rejected.map Prod.fst) := by
  have haccounts := h.accountsFor
  have hsettled {a b : String × String} (hback : rs.PointBack a b) :
      a ∈ rs.plan.1.map RelationPlan.path ∨ a ∈ rs.rejected.map Prod.fst := by
    obtain ⟨r, hr, -⟩ := hback.forth
    exact List.mem_append.1 ((haccounts.relations a.1 a.2).2 ⟨r, hr⟩)
  refine ⟨rs.rejected, haccounts, fun a b hback hne => ?_⟩
  rcases hsettled hback with ha | ha
  · exact .inl ⟨ha, h.planned_back hback hne ha⟩
  · rcases hsettled hback.symm with hb | hb
    · exact .inl ⟨h.planned_back hback.symm hne.symm hb, hb⟩
    · exact .inr ⟨ha, hb⟩

/-- Desks and their owners, where both sides set the foreign key, and a team that is no list. -/
def desks : Relations := [
  ("Person", [
    ("name", .scalar { scalar := .text }),
    ("desk", .relation
      { mode := .one, list := "Desk", field := some "owner", foreignKey := some {} }),
    ("team", .relation { mode := .one, list := "Team" })]),
  ("Desk", [
    ("owner", .relation
      { mode := .one, list := "Person", field := some "desk", foreignKey := some {} }),
    ("parts", .relation { mode := .many, list := "Desk" })])]

theorem plan_accounts_desks :
    desks.IsMapping ∧ desks.PointBack ("Person", "desk") ("Desk", "owner") ∧
      ∃ rejected, desks.AccountsFor desks.plan.1 desks.plan.2 rejected ∧
        ("Person", "desk") ∈ rejected.map Prod.fst ∧ ("Desk", "owner") ∈ rejected.map Prod.fst := by
  have hdesks : desks.IsMapping := ⟨by decide, by decide⟩
  have hback : desks.PointBack ("Person", "desk") ("Desk", "owner") :=
    ⟨⟨_, rfl, rfl, rfl⟩, ⟨_, rfl, rfl, rfl⟩⟩
  obtain ⟨rejected, haccounts, hmutual⟩ := plan_accounts hdesks
  have hunplanned : ("Person", "desk") ∉ desks.plan.1.map RelationPlan.path := by decide +kernel
  rcases hmutual _ _ hback (by decide) with ⟨hplanned, -⟩ | hrejected
  · exact absurd hplanned hunplanned
  · exact ⟨hdesks, hback, rejected, haccounts, hrejected⟩

end Relations

end RecordSchema
