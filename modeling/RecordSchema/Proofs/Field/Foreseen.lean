import Mathlib.Algebra.Group.Int.Defs
import RecordSchema.Proofs.Field.Generates
import RecordSchema.Proofs.Number.Rounding
import RecordSchema.Proofs.Value.Nesting

/-!
# What legality foresees

Legality is asked of every default before any is generated: whatever
would fail when a record is created is to be a problem of the schema
first. Two literals escape it. A float takes every integer, and one that
no float stands for overflows while it is converted; a JSON text is read,
and one that nests past the room of the reader exhausts it. Neither
fault is about the value, so neither becomes a problem: it ends the whole
report. `Storage.escape?` is the fault of such a literal.

Everything else that fails when it is generated is reported, with the one
exception of random bytes that no machine has room for.
-/

namespace RecordSchema

/-! ## Literals -/

/-- Whether the reader of a JSON text runs out of room for arrays and objects. -/
def Json.nestsTooDeep (text : String) : Bool :=
  match Json.read text with
  | .ok _ => false
  | .error f => f.problem == .tooDeep

theorem Json.openings_of_nestsTooDeep {t : String} (h : nestsTooDeep t = true) :
    maxDepth < openings t.toList := by
  unfold nestsTooDeep at h
  split at h
  · cases h
  · next f hf => exact openings_of_tooDeep hf (eq_of_beq h)

/-- The fault of a literal that no problem of its declaration tells of. -/
def Scalar.escape? : Scalar → Value → Option Fault
  | .float, .int n => if Binary64.overflowBound ≤ n.natAbs then some .overflow else none
  | .json, .text t => if Json.nestsTooDeep t then some .nesting else none
  | _, _ => none

theorem Scalar.escape?_float (n : Int) (e : Fault) :
    float.ofLiteral (.int n) = .error e ∧ e.isValueFault = false ↔
      float.escape? (.int n) = some e := by
  have hnone := Binary64.ofInt?_eq_none_iff n
  simp only [ofLiteral, escape?]
  split
  · next x hx =>
    rw [if_neg fun hle => by rw [hnone.2 hle] at hx; cases hx]
    simp
  · next hx =>
    rw [if_pos (hnone.1 hx), Except.error.injEq, Option.some.injEq]
    refine and_iff_left_of_imp ?_
    rintro rfl
    rfl

theorem Scalar.escape?_json (t : String) (e : Fault) :
    json.ofLiteral (.text t) = .error e ∧ e.isValueFault = false ↔
      json.escape? (.text t) = some e := by
  rw [ofLiteral, escape?, Json.nestsTooDeep]
  cases Json.read t with
  | ok v => simp
  | error f =>
    by_cases hdeep : f.problem = .tooDeep
    · simp only [Fault.ofJson, hdeep, if_true, beq_self_eq_true, Except.error.injEq,
        Option.some.injEq]
      refine and_iff_left_of_imp ?_
      rintro rfl
      rfl
    · simp only [Fault.ofJson, hdeep, if_false, beq_iff_eq, reduceCtorEq, iff_false,
        Except.error.injEq]
      rintro ⟨rfl, hfault⟩
      cases hfault

/-- A conversion that fails is at fault in its value, but for those two. -/
theorem Scalar.isValueFault_of_ofLiteral {s : Scalar} {v : Value} {e : Fault}
    (h : s.ofLiteral v = .error e) (hfloat : ¬ ∃ n, s = .float ∧ v = .int n)
    (hjson : ¬ ∃ t, s = .json ∧ v = .text t) : e.isValueFault = true := by
  cases s with
  | text | boolean | int | bigInt =>
    cases v <;> cases h
    all_goals rfl
  | float =>
    cases v with
    | int n => exact absurd ⟨n, rfl, rfl⟩ hfloat
    | _ => cases h <;> rfl
  | json =>
    cases v with
    | text t => exact absurd ⟨t, rfl, rfl⟩ hjson
    | _ =>
      cases h
      rfl
  | dateTime =>
    cases v with
    | text t =>
      rw [ofLiteral] at h
      split at h <;> cases h
      rfl
    | _ => cases h <;> rfl
  | decimal =>
    rw [ofLiteral] at h
    split at h <;> cases h
    rfl

/-- A literal escapes just when its conversion fails by a fault that is not about its value. -/
theorem Scalar.escape?_iff (s : Scalar) (v : Value) (e : Fault) :
    s.ofLiteral v = .error e ∧ e.isValueFault = false ↔ s.escape? v = some e := by
  by_cases hfloat : ∃ n, s = .float ∧ v = .int n
  · obtain ⟨n, rfl, rfl⟩ := hfloat
    exact escape?_float n e
  by_cases hjson : ∃ t, s = .json ∧ v = .text t
  · obtain ⟨t, rfl, rfl⟩ := hjson
    exact escape?_json t e
  have hnone : s.escape? v = none := by
    unfold escape?
    split
    · exact absurd ⟨_, rfl, rfl⟩ hfloat
    · exact absurd ⟨_, rfl, rfl⟩ hjson
    · rfl
  rw [hnone]
  refine iff_of_false ?_ nofun
  rintro ⟨h, hfault⟩
  rw [isValueFault_of_ofLiteral h hfloat hjson] at hfault
  cases hfault

/-- Integers below the bound and texts with no more openings than there is room for do not
escape. -/
theorem Scalar.escape?_eq_none (s : Scalar) {v : Value}
    (hint : ∀ n, v = .int n → n.natAbs < Binary64.overflowBound)
    (htext : ∀ t, v = .text t → Json.openings t.toList ≤ Json.maxDepth) : s.escape? v = none := by
  unfold escape?
  split
  · next n => exact if_neg (Nat.not_le.2 (hint n rfl))
  · next t => exact if_neg fun h => Nat.not_lt.2 (htext t rfl) (Json.openings_of_nestsTooDeep h)
  · rfl

/-! ## Columns -/

/-- The fault of a default that no problem of its declaration tells of. -/
def Default.escape? (d : Default) (s : Scalar) : Option Fault :=
  match d with
  | .policy (.literal v) => s.escape? v
  | _ => none

theorem ScalarField.error_literal_iff (f : ScalarField) (v : Value) (e : Fault) :
    f.defaultProblems (.policy (.literal v)) = .error e ↔ f.scalar.escape? v = some e := by
  have hallows : f.scalar.allows (.policy (.literal v)) = true := by
    cases f.scalar <;> rfl
  rw [defaultProblems, hallows, ← Scalar.escape?_iff]
  cases f.scalar.ofLiteral v with
  | ok w => simp
  | error fault =>
    by_cases hvalue : fault.isValueFault = true
    · simp only [hvalue, Bool.not_true, Bool.false_eq_true, if_false, if_true,
        Except.error.injEq, reduceCtorEq, false_iff]
      rintro ⟨rfl, hfault⟩
      exact absurd hvalue (Bool.eq_false_iff.1 hfault)
    · simp only [Bool.eq_false_iff.2 hvalue, Bool.not_true, Bool.false_eq_true, if_false,
        Except.error.injEq]
      refine (and_iff_left_of_imp ?_).symm
      rintro rfl
      exact Bool.eq_false_iff.2 hvalue

theorem ScalarField.error_defaultProblems_iff (f : ScalarField) (d : Default) (e : Fault) :
    f.defaultProblems d = .error e ↔ d.escape? f.scalar = some e := by
  cases d with
  | policy p =>
    cases p with
    | literal v => exact f.error_literal_iff v e
    | _ =>
      refine iff_of_false ?_ nofun
      unfold defaultProblems
      split <;> nofun
  | bare v =>
    refine iff_of_false ?_ nofun
    unfold defaultProblems
    split <;> nofun

namespace Storage

/-- The fault of the default of a column that no problem of its declaration tells of; in many
mode there is no default to generate. -/
def escape? : Storage → Option Fault
  | .scalar f => if f.mode = .many then Option.none else f.default.bind (·.escape? f.scalar)
  | _ => Option.none

mutual

theorem error_defaultProblems_iff : ∀ (s : Storage) (e : Fault),
    s.defaultProblems = .error e ↔ s.leaves.findSome? escape? = some e
  | .scalar f, e => by
    rw [defaultProblems, leaves, List.findSome?_singleton, escape?]
    cases f.default with
    | none => simp
    | some d =>
      dsimp only
      split
      · simp
      · exact f.error_defaultProblems_iff d e
  | .enum f, e => by
    rw [defaultProblems, leaves, List.findSome?_singleton]
    cases f.default <;> exact iff_of_false nofun nofun
  | .multi fields, e => by
    rw [defaultProblems, leaves]
    exact error_subfieldDefaultProblems_iff fields e
  | .none, _ | .relation _, _ | .unsupported _, _ => iff_of_false nofun nofun

theorem error_subfieldDefaultProblems_iff : ∀ (fields : List (String × Storage)) (e : Fault),
    subfieldDefaultProblems fields = .error e ↔ (leavesOf fields).findSome? escape? = some e
  | [], _ => iff_of_false nofun nofun
  | (name, s) :: r, e => by
    have hs := error_defaultProblems_iff s
    have hr := error_subfieldDefaultProblems_iff r e
    rw [subfieldDefaultProblems, leavesOf, List.findSome?_append]
    cases h : s.defaultProblems with
    | error fault =>
      rw [(hs fault).1 h, Option.some_or, Option.some_inj]
      exact Except.error.injEq fault e ▸ Iff.rfl
    | ok ps =>
      have hnone : s.leaves.findSome? escape? = Option.none :=
        Option.eq_none_iff_forall_ne_some.2 fun fault hfault => by
          rw [(hs fault).2 hfault] at h
          cases h
      rw [hnone, Option.none_or, ← hr]
      cases subfieldDefaultProblems r with
      | ok rest => exact iff_of_false nofun nofun
      | error fault => exact Iff.rfl

end

/-! ## Fields -/

/-- A float column whose default is an integer. -/
def gauge (n : Int) : Storage :=
  .scalar { scalar := .float, default := some (.policy (.literal (.int n))) }

theorem escape?_gauge {n : Int} (h : Binary64.overflowBound ≤ n.natAbs) :
    (gauge n).leaves.findSome? escape? = some .overflow := by
  rw [gauge, leaves, List.findSome?_singleton]
  exact if_pos h

/-- A gauge beside a text of more random bytes than any machine holds. -/
def sealedGauge : Storage := .multi [("level", gauge 7), ("seal", endless)]

end Storage

end RecordSchema
