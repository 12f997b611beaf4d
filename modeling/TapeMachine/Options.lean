import TapeMachine.Fault

/-! The options of a session and the policy for reading past the end of the input. -/
namespace TapeMachine

/-- What an input instruction does to the current cell when the input has ended. Codes beyond the
three policies can be asked for; they are kept as they are and no session accepts them. -/
inductive EofPolicy
  | unchanged
  | zero
  | max
  | unknown (code : Int)
  deriving DecidableEq, Repr

namespace EofPolicy

def ofCode (code : Int) : EofPolicy :=
  if code = 0 then .unchanged else if code = 1 then .zero else if code = 2 then .max
  else .unknown code

def code : EofPolicy → Int
  | .unchanged => 0
  | .zero => 1
  | .max => 2
  | .unknown code => code

def name : EofPolicy → String
  | .unchanged => "unchanged"
  | .zero => "zero"
  | .max => "max"
  | .unknown code => "unknown(" ++ toString code ++ ")"

def isKnown : EofPolicy → Bool
  | .unknown _ => false
  | _ => true

/-- The policy of a name in any case. The three names have no letter whose case forms go beyond
ASCII. -/
def ofName? (name : String) : Except Fault EofPolicy :=
  let lower := String.ofList (name.toList.map Char.toLower)
  if lower = "unchanged" then .ok .unchanged
  else if lower = "zero" then .ok .zero
  else if lower = "max" then .ok .max
  else .error (.caused .invalidOptions (.unknownPolicyName name))

end EofPolicy

structure Options where
  tapeSize : Int := 65536
  cellWidth : Int := 8
  eof : EofPolicy := .unchanged
  /-- The most instructions a turn may execute; zero is no limit. -/
  maxSteps : Int := 0
  deriving DecidableEq, Repr

namespace Options

/-- The largest tape a session accepts. -/
def greatestTapeSize : Int := 16777216

/-- The first objection to the options, if there is one. -/
def objection? (o : Options) : Option Cause :=
  if o.tapeSize ≤ 0 then some (.sizeNotPositive o.tapeSize)
  else if greatestTapeSize < o.tapeSize then some (.sizeTooLarge greatestTapeSize o.tapeSize)
  else if o.cellWidth ≠ 8 ∧ o.cellWidth ≠ 16 then some (.oddWidth o.cellWidth)
  else if ¬o.eof.isKnown then some (.unknownPolicy o.eof.name)
  else if o.maxSteps < 0 then some (.negativeLimit o.maxSteps)
  else none

/-- The objection as a fault. -/
def fault? (o : Options) : Option Fault := o.objection?.map (.caused .invalidOptions)

/-- The number of instructions after which a turn is stopped. -/
def stepLimit? (o : Options) : Option Nat := if 0 < o.maxSteps then some o.maxSteps.toNat else none

end Options

end TapeMachine
