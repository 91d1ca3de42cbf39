import RecordSchema.Fault

/-!
# Gathering

The results of several fields are gathered into one. All fields are
tried; a fault that is not one of resolution wins over those that are,
one fault of resolution stands for itself, and several are reported
together, in the order of the fields.
-/

namespace RecordSchema

abbrev Outcome (κ α : Type) := κ × Except Fault α

namespace Outcome

variable {κ α : Type}

def fault? (o : Outcome κ α) : Option Fault :=
  match o.2 with
  | .ok _ => none
  | .error f => some f

def value? (o : Outcome κ α) : Option (κ × α) :=
  match o.2 with
  | .ok a => some (o.1, a)
  | .error _ => none

def faults (os : List (Outcome κ α)) : List Fault :=
  os.filterMap fault?

end Outcome

/-- The values of all outcomes, or the fault that speaks for them. -/
def gather {κ α : Type} (list : String) (os : List (Outcome κ α)) : Except Fault (List (κ × α)) :=
  let faults := Outcome.faults os
  match faults.find? fun f => !f.isResolution with
  | some f => .error f
  | none =>
    match faults with
    | [] => .ok (os.filterMap Outcome.value?)
    | [f] => .error f
    | fs => .error (.resolution [list] (.several fs.length) fs)

end RecordSchema
