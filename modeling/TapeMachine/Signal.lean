/-! Cancellation. A turn runs while its signal is not raised; once raised, a signal stays raised with the
reason it was first raised for. A call on a stream may raise it, and so may whoever runs the turn: a signal
that is pending is raised in the middle of some instruction to come. -/
namespace TapeMachine

inductive Signal
  | clear
  /-- Raised during the instruction that comes after `left` others. -/
  | pending (left : Nat) (reason : String)
  | raised (reason : String)
  deriving DecidableEq, Repr

namespace Signal

/-- A signal raised by whoever runs the turn. -/
def cancelled : Signal := .raised "context canceled"

/-- A signal raised because the time given to the turn is over. -/
def expired : Signal := .raised "context deadline exceeded"

def isRaised : Signal → Bool
  | .clear | .pending .. => false
  | .raised _ => true

/-- Cancels, if `now` says so and the signal is not raised yet. -/
def cancelIf (now : Bool) : Signal → Signal
  | .clear => if now then cancelled else .clear
  | .pending left reason => if now then cancelled else .pending left reason
  | .raised reason => .raised reason

/-- Lets an instruction go by. -/
def advance : Signal → Signal
  | .pending 0 reason => .raised reason
  | .pending (left + 1) reason => .pending left reason
  | signal => signal

end Signal
end TapeMachine
