import TapeMachine.Yaml.Cursor

/-! The tokens that a document is cut into. -/
namespace TapeMachine.Yaml

inductive Shape
  | streamStart
  | streamEnd
  | version (major minor : Nat)
  | handle (name replacement : String)
  | documentStart
  | documentEnd
  | blockSequenceStart
  | blockMappingStart
  | blockEnd
  | flowSequenceStart
  | flowSequenceEnd
  | flowMappingStart
  | flowMappingEnd
  | blockEntry
  | flowEntry
  | key
  | value
  | alias (name : String)
  | anchor (name : String)
  | tag (handle suffix : String)
  /-- A scalar, and whether it stands without quotes and marks. -/
  | scalar (text : String) (plain : Bool)
  deriving DecidableEq, Repr

structure Token where
  shape : Shape
  start : Mark
  stop : Mark
  deriving DecidableEq, Repr

end TapeMachine.Yaml
