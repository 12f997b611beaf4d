/-! Last in, first out. -/
namespace TapeMachine

structure Stack (α : Type) where
  /-- The items, top first. -/
  items : List α := []
  deriving DecidableEq, Repr

namespace Stack
variable {α : Type}

/-- An empty stack with room for `capacity` items; a negative capacity gives none. -/
def withRoom? (capacity : Int) : Option (Stack α) := if capacity < 0 then none else some {}

def push (s : Stack α) (a : α) : Stack α := ⟨a :: s.items⟩

/-- The top and the rest; an empty stack has no top and stays as it is. -/
def pop (s : Stack α) : Option α × Stack α :=
  match s.items with
  | [] => (none, s)
  | a :: rest => (some a, ⟨rest⟩)

/-- Nothing is left. -/
def clear (_ : Stack α) : Stack α := {}

def peek? (s : Stack α) : Option α := s.items.head?

def size (s : Stack α) : Nat := s.items.length

def isEmpty (s : Stack α) : Bool := s.items.isEmpty

end Stack
end TapeMachine
