import TapeMachine.Options

/-! The settings of a command. -/
namespace TapeMachine.Command

structure Settings where
  tapeSize : Int := 65536
  cellWidth : Int := 8
  /-- The name of the policy for the end of the input. -/
  eof : String := "unchanged"
  maxSteps : Int := 0
  prompt : String := "bf> "
  historyFile : String := ""
  /-- Whether the state is shown after each turn. -/
  dumpState : Bool := false
  /-- Where the tape is kept between runs; an empty name stands for nowhere. -/
  stateFile : String := ""
  logLevel : String := "warn"
  /-- Where records are kept besides being shown; an empty name stands for nowhere. -/
  logFile : String := ""
  deriving DecidableEq, Repr

namespace Settings

/-- The names of the settings. -/
def keys : List String :=
  ["tape-size", "cell-width", "eof", "max-steps", "prompt", "history-file", "dump-state",
    "state-file", "log-level", "log-file"]

/-- The options that the settings give, which may still be objected to. -/
def options (s : Settings) : Except Fault Options :=
  (EofPolicy.ofName? s.eof).map fun eof =>
    { tapeSize := s.tapeSize, cellWidth := s.cellWidth, eof, maxSteps := s.maxSteps }

/-- The options that the settings give, if there is nothing to object to. -/
def validOptions (s : Settings) : Except Fault Options :=
  match s.options with
  | .error fault => .error fault
  | .ok options =>
    match options.fault? with
    | some fault => .error fault
    | none => .ok options

end Settings
end TapeMachine.Command
