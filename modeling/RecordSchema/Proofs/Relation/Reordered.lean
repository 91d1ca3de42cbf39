import RecordSchema.Proofs.Relation.Accounts

/-!
# Plans do not depend on the order of declarations

A schema lists its lists, and each list its fields, in some order. The
storage layout must not follow from it: a declaration that is moved would
otherwise rename the column or the join table in which existing links
are kept, or exchange the two ends of a join table. Planning looks at
other declarations only by their keys, and what it gives to the first of
two sides goes by the order of their paths. So two schemas that are the
same but for their order (`Relations.Reorders`) have the same plans and
the same problems.
-/

namespace RecordSchema

namespace Relations

variable {rs rs' : Relations} {list field : String} {r : RelationField}

/-- Whether a schema has the lists of another one in any order, each with its fields in
any order. -/
def Reorders (rs rs' : Relations) : Prop :=
  ∃ mid : Relations, rs.Perm mid ∧
    List.Forall₂ (fun e e' => e.1 = e'.1 ∧ e.2.Perm e'.2) mid rs'

namespace Reorders

theorem keys_perm (h : rs.Reorders rs') : (rs.map Prod.fst).Perm (rs'.map Prod.fst) := by
  obtain ⟨mid, hperm, hfields⟩ := h
  have hkeys : mid.map Prod.fst = rs'.map Prod.fst := by
    clear hperm
    induction hfields with
    | nil => rfl
    | cons he _ ih => rw [List.map_cons, List.map_cons, he.1, ih]
  exact hkeys ▸ hperm.map Prod.fst

theorem isMapping (h : rs.Reorders rs') (hrs : rs.IsMapping) : rs'.IsMapping where
  lists := h.keys_perm.nodup_iff.1 hrs.lists
  fields e' he' := by
    obtain ⟨mid, hperm, hfields⟩ := h
    obtain ⟨e, he, -, hsame⟩ := hfields.exists_left he'
    exact (hsame.map Prod.fst).nodup_iff.1 (hrs.fields e (hperm.mem_iff.2 he))

/-- The relations of a schema are those of the other one. -/
theorem relationFields_perm (h : rs.Reorders rs') :
    rs.relationFields.Perm rs'.relationFields := by
  obtain ⟨mid, hperm, hfields⟩ := h
  refine (hperm.flatMap_right _).trans ?_
  clear hperm
  induction hfields with
  | nil => exact .refl _
  | @cons e e' mid rest he _ ih =>
    obtain ⟨list, fields⟩ := e
    obtain ⟨list', fields'⟩ := e'
    obtain ⟨rfl, hsame⟩ := he
    rw [List.flatMap_cons, relationFields, List.flatMap_cons]
    exact ((hsame.filterMap _).map _).append ih

/-- Keys find the same lists. -/
theorem isNone_lookup (h : rs.Reorders rs') (list : String) :
    (rs.lookup list).isNone = (rs'.lookup list).isNone := by
  have hnone (xs : Relations) : (xs.lookup list).isNone = true ↔ list ∉ xs.map Prod.fst := by
    rw [Option.isNone_iff_eq_none, Keys.lookup_eq_none_iff]
  rw [Bool.eq_iff_iff, hnone, hnone, h.keys_perm.mem_iff]

/-- Paths find the same relations. -/
theorem relation?_eq (h : rs.Reorders rs') (hrs : rs.IsMapping) (list field : String) :
    rs.relation? list field = rs'.relation? list field := by
  refine Option.ext fun r => ?_
  rw [← hrs.mem_relationFields_iff, ← (h.isMapping hrs).mem_relationFields_iff,
    h.relationFields_perm.mem_iff]

theorem planOf_eq (h : rs.Reorders rs') (hrs : rs.IsMapping) (list field : String)
    (r : RelationField) : rs.planOf list field r = rs'.planOf list field r := by
  have hother : rs.otherSide list field r = rs'.otherSide list field r := by
    simp only [otherSide, h.isNone_lookup, h.relation?_eq hrs]
  rw [planOf, planOf, hother]

end Reorders

/-- Moving lists and fields around leaves every relation its plan, and the problems what they
are. -/
theorem plan_reordered (hrs : rs.IsMapping) (h : rs.Reorders rs') :
    rs.plan.1.Perm rs'.plan.1 ∧ rs.plan.2.Perm rs'.plan.2 ∧
      ∀ p ∈ rs.plan.1, ∀ q ∈ rs'.plan.1, p.path = q.path → p = q := by
  have hplans : rs.plan.1.Perm rs'.plan.1 := by
    simp only [plan_fst, h.planOf_eq hrs]
    exact h.relationFields_perm.filterMap _
  have hrejected : rs.rejected.Perm rs'.rejected := by
    simp only [rejected, h.planOf_eq hrs]
    exact h.relationFields_perm.filterMap _
  refine ⟨hplans, ?_, fun p hp q hq hpath => ?_⟩
  · rw [plan_snd, plan_snd]
    exact hrejected.map _
  · obtain ⟨hlist, hfield⟩ := Prod.mk.inj hpath
    exact hrs.eq_of_mem hp (hplans.mem_iff.2 hq) hlist hfield

/-- Students and courses, whose join table has no name of its own, and a room that is no
list. -/
def courses : Relations := [
  ("Student", [
    ("buddy", .relation { mode := .one, list := "Student" }),
    ("courses", .relation { mode := .many, list := "Course", field := some "students" })]),
  ("Course", [
    ("students", .relation { mode := .many, list := "Student", field := some "courses" }),
    ("room", .relation { mode := .one, list := "Room" })])]

/-- The same declarations, with courses and rooms in front. -/
def coursesMoved : Relations := [
  ("Course", [
    ("room", .relation { mode := .one, list := "Room" }),
    ("students", .relation { mode := .many, list := "Student", field := some "courses" })]),
  ("Student", [
    ("courses", .relation { mode := .many, list := "Course", field := some "students" }),
    ("buddy", .relation { mode := .one, list := "Student" })])]

/-- The plan of the courses of a student, who stand at the second end of the join table. -/
def coursesPlan : RelationPlan :=
  ⟨"Student", "courses", "Course", .many, .join "_Course_students" .second⟩

theorem plan_reordered_courses :
    courses.IsMapping ∧ courses.Reorders coursesMoved ∧ coursesPlan ∈ courses.plan.1 ∧
      coursesPlan ∈ coursesMoved.plan.1 ∧ ∃ problem, problem ∈ courses.plan.2 ∧
        problem ∈ coursesMoved.plan.2 := by
  have hcourses : courses.IsMapping := ⟨by decide, by decide⟩
  have hmoved : courses.Reorders coursesMoved :=
    ⟨_, .swap _ _ [], .cons ⟨rfl, .swap _ _ []⟩ (.cons ⟨rfl, .swap _ _ []⟩ .nil)⟩
  have hplan : coursesPlan ∈ courses.plan.1 := by decide +kernel
  have hproblem : "Course.room: relation target list 'Room' does not exist" ∈ courses.plan.2 := by
    decide +kernel
  obtain ⟨hplans, hproblems, -⟩ := plan_reordered hcourses hmoved
  exact ⟨hcourses, hmoved, hplan, hplans.mem_iff.1 hplan, _, hproblem, hproblems.mem_iff.1 hproblem⟩

end Relations

end RecordSchema
