import TapeMachine.Options
import TapeMachine.Tape

/-! A tape whose cell width is chosen at run time. -/
namespace TapeMachine

structure Store where
  width : Nat
  tape : Tape width
  deriving Repr

namespace Store

/-- A blank store of any width and signed size, as far as there is one. -/
def blank? (width : Nat) (size : Int) : Option Store := (Tape.blank? size).map (⟨width, ·⟩)

/-- The store that options ask for, if nothing speaks against them. -/
def ofOptions (o : Options) : Except Fault Store :=
  match o.fault? with
  | some fault => .error fault
  | none =>
    if o.cellWidth = 16 then .ok ⟨16, Tape.blank o.tapeSize.toNat⟩
    else .ok ⟨8, Tape.blank o.tapeSize.toNat⟩

def size (s : Store) : Nat := s.tape.size

def pointer (s : Store) : Int := s.tape.pointer

def valueAt (s : Store) (i : Int) : Nat := s.tape.valueAt i

def nonzero (s : Store) : List (Nat × Nat) := s.tape.nonzero

def reset (s : Store) : Store := ⟨s.width, s.tape.reset⟩

def attempt (s : Store) (op : Tape.Operation) : Option Store := (s.tape.attempt op).map (⟨s.width, ·⟩)

end Store
end TapeMachine
