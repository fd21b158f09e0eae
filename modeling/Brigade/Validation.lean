/-
Complaints about input, and the failure they become.

Complaints form a tree: a field has leaf complaints, or a record with complaints of its own, or a list with complaints
about some of its elements. A leaf without a message of its own says that its field is invalid. The failure has every
message of the tree once, in increasing order (`summary`), so it depends neither on the shape of the tree nor on the
order in which it was built.
-/
import Brigade.Failure

namespace Brigade

/-- complaints about one field -/
inductive Complaint where
  | leaves (field : String) (messages : List (Option String))
  | inner (field : String) (complaints : List Complaint)
  | elements (field : String) (complaints : List (Nat × List Complaint))
deriving Repr

namespace Complaint

/-- the message of a leaf -/
def leafMessage (field : String) (m : Option String) : String := m.getD (field ++ " is invalid")

mutual
/-- all leaf messages below a complaint -/
def messages : Complaint → List String
  | leaves field ms => ms.map (leafMessage field)
  | inner _ cs => messagesOfAll cs
  | elements _ es => messagesOfElements es

def messagesOfAll : List Complaint → List String
  | [] => []
  | c :: cs => messages c ++ messagesOfAll cs

def messagesOfElements : List (Nat × List Complaint) → List String
  | [] => []
  | (_, cs) :: es => messagesOfAll cs ++ messagesOfElements es
end

end Complaint

namespace Validation

/-- every text once, in increasing order: they are sorted, and then repetitions are dropped -/
def distinctSorted (ss : List String) : List String := ss.mergeSort.eraseReps

/-- the text of all complaints -/
def summary (cs : List Complaint) : String := "; ".intercalate (distinctSorted (Complaint.messagesOfAll cs))

/-- a condition on a field, with what to say if it does not hold -/
def check (holds : Bool) (field : String) (message : Option String) : List Complaint :=
  if holds then [] else [.leaves field [message]]

theorem check_eq_nil {holds : Bool} {field : String} {message : Option String} :
    check holds field message = [] ↔ holds = true := by
  cases holds <;> simp [check]

/-- the failure of complaints, none if there are none -/
def failure? (cs : List Complaint) : Option Failure :=
  if cs.isEmpty then none else some (.validation (summary cs))

/-- a single complaint is told as it is -/
theorem failure?_leaf (field : String) (m : Option String) :
    failure? [.leaves field [m]] = some (.validation (Complaint.leafMessage field m)) := by
  have hsorted : distinctSorted [Complaint.leafMessage field m] = [Complaint.leafMessage field m] := by
    rw [distinctSorted, List.mergeSort_singleton]
    rfl
  exact congrArg (fun ss => some (Failure.validation ("; ".intercalate ss))) hsorted

end Validation

end Brigade
