import TapeMachine.Store
import TapeMachine.Word

/-! A window on the tape: consecutive cells around a centre. -/
namespace TapeMachine.Inspect

structure Row where
  address : Int
  value : Nat
  /-- Whether the pointer is at this address. -/
  current : Bool
  deriving DecidableEq, Repr

/-- The row for the position that `i` stands for around the ring. -/
def row (s : Store) (i : Int) : Row :=
  let address := s.tape.address i
  ⟨address, s.valueAt address, address == s.pointer⟩

/-- First position and number of rows of the window of a radius around a centre. A window as wide as
the tape shows the whole of it, beginning at the centre. -/
def extent (s : Store) (center radius : Int) : Int × Int :=
  let count := Word.wrap (2 * radius + 1)
  if s.size ≤ count then (center, s.size) else (Word.wrap (center - radius), count)

/-- The rows of a window; there is none of a negative number of rows. -/
def window (s : Store) (center radius : Int) : Option (List Row) :=
  let (first, count) := extent s center radius
  if count < 0 then none
  else some ((List.range count.toNat).map fun (i : Nat) => row s (Word.wrap (first + i)))

end TapeMachine.Inspect
