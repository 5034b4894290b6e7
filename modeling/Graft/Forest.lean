/-!
# Walks through forests

A walk visits every node before its children and the children in order. It keeps the nodes still
to be visited on a stack, and makes no more visits than it is allowed (`length_visit_le`).
-/

namespace Graft.Forest

variable {α : Type}

/-- The nodes of a stack and everything below them, parents before children, as far as `steps`
visits go. -/
def visit (children : α → List α) : Nat → List α → List α
  | 0, _ => []
  | _ + 1, [] => []
  | steps + 1, node :: stack => node :: visit children steps (children node ++ stack)

@[simp] theorem visit_nil (children : α → List α) (steps : Nat) : visit children steps [] = [] := by
  cases steps <;> rfl

/-- A walk makes at most as many visits as it is allowed. -/
theorem length_visit_le (children : α → List α) (steps : Nat) (stack : List α) :
    (visit children steps stack).length ≤ steps := by
  induction steps generalizing stack with
  | zero => simp [visit]
  | succ steps ih =>
      cases stack with
      | nil => simp
      | cons node stack =>
          simp only [visit, List.length_cons]
          have := ih (children node ++ stack)
          omega

end Graft.Forest
