/-! What can go wrong, and what is said about it.

A fault is a tree: a bare kind, a kind with its cause, a text from the surroundings, a failed file
operation, a fault met during some activity, or two faults at once. Two functions read it: `message`
is the text a user sees, and `isA` tells whether a kind occurs in it. The exit code depends on
the kinds alone. -/
namespace TapeMachine

/-- What a fault can be tested for. -/
inductive Kind
  | unbalancedBrackets
  | io
  | stepLimit
  | interrupted
  | invalidOptions
  | aborted
  | endOfInput
  | missingFile
  deriving DecidableEq, Repr

/-- The text of a bare kind. -/
def Kind.text : Kind → String
  | .unbalancedBrackets => "unbalanced brackets"
  | .io => "i/o error"
  | .stepLimit => "step limit exceeded"
  | .interrupted => "interrupted"
  | .invalidOptions => "invalid options"
  | .aborted => "prompt aborted"
  | .endOfInput => "EOF"
  | .missingFile => "file does not exist"

/-- Every kind, in the order in which they are reported. -/
def Kind.all : List Kind :=
  [.unbalancedBrackets, .io, .stepLimit, .interrupted, .invalidOptions, .aborted, .endOfInput,
    .missingFile]

/-- Why a fault of some kind arose. -/
inductive Cause
  /-- A `[` with no `]` after it to close it. -/
  | unmatchedOpen (offset : Nat)
  /-- A `]` with no `[` before it to open it. -/
  | unmatchedClose (offset : Nat)
  /-- A `[` to be skipped for which the jump table has no entry. -/
  | unrecordedOpen (offset : Nat)
  /-- A `]` reached with no loop open. -/
  | strayClose (offset : Nat)
  | writing (offset : Nat) (reason : String)
  | flushingAt (offset : Nat) (reason : String)
  | flushing (reason : String)
  | reading (offset : Nat) (reason : String)
  | stepsExecuted (steps offset : Nat)
  | afterSteps (steps offset : Nat)
  | cancelled (reason : String)
  | sizeNotPositive (size : Int)
  | sizeTooLarge (most size : Int)
  | oddWidth (width : Int)
  | unknownPolicy (name : String)
  | unknownPolicyName (name : String)
  | negativeLimit (limit : Int)
  | otherTape (size width ownSize ownWidth : Int)
  | pointerOutOfRange (pointer : Int)
  | cellOutOfRange (index : Int)
  | valueTooWide (index : Int) (value : Nat) (width : Int)
  /-- A cause known by its text only. -/
  | text (details : String)
  deriving DecidableEq, Repr

/-- The wording of a cause. -/
def Cause.message : Cause → String
  | .unmatchedOpen i => "unmatched '[' at offset " ++ toString i
  | .unmatchedClose i => "unmatched ']' at offset " ++ toString i
  | .unrecordedOpen i => "no ']' recorded for '[' at offset " ++ toString i
  | .strayClose i => "']' at offset " ++ toString i ++ " closes no open loop"
  | .writing i reason => "writing output at offset " ++ toString i ++ ": " ++ reason
  | .flushingAt i reason => "flushing output at offset " ++ toString i ++ ": " ++ reason
  | .flushing reason => "flushing output: " ++ reason
  | .reading i reason => "reading input at offset " ++ toString i ++ ": " ++ reason
  | .stepsExecuted n i => toString n ++ " steps executed, stopped at offset " ++ toString i
  | .afterSteps n i => "after " ++ toString n ++ " steps at offset " ++ toString i
  | .cancelled reason => reason
  | .sizeNotPositive n => "tape size must be positive, got " ++ toString n
  | .sizeTooLarge m n => "tape size cannot exceed " ++ toString m ++ " cells, got " ++ toString n
  | .oddWidth w => "cell width must be 8 or 16 bits, got " ++ toString w
  | .unknownPolicy name => "unknown eof policy " ++ name
  | .unknownPolicyName name =>
    "unknown eof policy '" ++ name ++ "' (expected one of: unchanged, zero, max)"
  | .negativeLimit n => "max steps cannot be negative, got " ++ toString n
  | .otherTape n w n' w' =>
    "snapshot of a " ++ toString n ++ " cells " ++ toString w
      ++ "-bit tape cannot be restored into a " ++ toString n' ++ " cells " ++ toString w'
      ++ "-bit tape"
  | .pointerOutOfRange p => "snapshot pointer " ++ toString p ++ " out of range"
  | .cellOutOfRange i => "snapshot cell " ++ toString i ++ " out of range"
  | .valueTooWide i v w =>
    "snapshot cell " ++ toString i ++ " value " ++ toString v ++ " does not fit in " ++ toString w
      ++ " bits"
  | .text details => details

/-- Why a file operation failed. -/
inductive FileProblem
  | missing
  | isDirectory
  | notDirectory
  | nameTooLong
  /-- A path with a character that no path can hold. -/
  | invalidPath
  deriving DecidableEq, Repr

def FileProblem.text : FileProblem → String
  | .missing => "no such file or directory"
  | .isDirectory => "is a directory"
  | .notDirectory => "not a directory"
  | .nameTooLong => "file name too long"
  | .invalidPath => "invalid argument"

inductive Fault
  | bare (kind : Kind)
  /-- A fault of the surroundings, known by its text only. -/
  | told (text : String)
  | caused (kind : Kind) (cause : Cause)
  /-- A failed operation on the file at `path`. -/
  | file (operation path : String) (problem : FileProblem)
  /-- A fault met during an activity. -/
  | during (activity : String) (fault : Fault)
  /-- Two faults at once. -/
  | both (first second : Fault)
  deriving DecidableEq, Repr

namespace Fault

/-- What a user is told. -/
def message : Fault → String
  | .bare kind => kind.text
  | .told text => text
  | .caused kind cause => kind.text ++ ": " ++ cause.message
  | .file operation path problem => operation ++ " " ++ path ++ ": " ++ problem.text
  | .during activity fault => activity ++ ": " ++ fault.message
  | .both first second => first.message ++ "\n" ++ second.message

/-- Whether `kind` occurs in the fault. -/
def isA : Fault → Kind → Bool
  | .bare k, kind => k == kind
  | .told _, _ => false
  | .caused k _, kind => k == kind
  | .file _ _ problem, kind => kind == .missingFile && problem == .missing
  | .during _ fault, kind => fault.isA kind
  | .both first second, kind => first.isA kind || second.isA kind

/-- The kinds that occur, in reporting order. -/
def kinds (fault : Fault) : List Kind := Kind.all.filter fault.isA

/-- All the faults of a list as one; there is none for the empty list. -/
def joined : List Fault → Option Fault
  | [] => none
  | fault :: rest =>
    match joined rest with
    | none => some fault
    | some others => some (.both fault others)

end Fault

/-- The exit code of a process that ends with `fault`, or without one. -/
def exitCode : Option Fault → Nat
  | none => 0
  | some fault =>
    if fault.isA .invalidOptions then 1
    else if fault.isA .unbalancedBrackets then 3
    else if fault.isA .io then 4
    else if fault.isA .interrupted || fault.isA .stepLimit then 5
    else 2

end TapeMachine
