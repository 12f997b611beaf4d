import TapeMachine.Text.Quoted
import TapeMachine.Text.Utf8
import TapeMachine.Yaml.Cursor

/-! Why a document cannot be read.

A trouble of the text names the line where it was met, or none for the first line. Values that do
not fit where they are wanted are collected: the rest of the document is read all the same. -/
namespace TapeMachine.Yaml

/-- What is wrong with a text. -/
inductive Problem
  | leadingByte
  | trailingByte
  | incompleteBytes
  | overlongBytes
  | invalidCharacter
  | controlCharacter
  | incompleteUnit
  | incompletePair
  | unexpectedLowHalf
  | missingLowHalf
  | tooDeep
  | noToken
  | valueNotAllowed
  | keyNotAllowed
  | entryNotAllowed
  | missingColon
  | tabInIndentation
  | borderInQuotes
  | endInQuotes
  | unknownEscape
  | missingHexDigit
  | invalidEscapeCode
  | zeroIndentation
  | missingLineBreak
  | tabForBlank
  | missingName
  | missingSpaceAfterTag
  | missingTagEnd
  | missingTagText
  | missingTagMark
  | missingEscape
  | wrongLeadingEscape
  | wrongTrailingEscape
  | missingBlank
  | unknownDirective
  | missingDirectiveName
  | wrongDirectiveName
  | missingVersion
  | missingVersionPoint
  | longVersion
  | repeatedHandle
  | repeatedVersion
  | otherVersion
  | missingDocumentStart
  | undefinedHandle
  | missingContent
  | missingKey
  | missingDash
  | missingSequenceEnd
  | missingMappingEnd
  deriving DecidableEq, Repr

def Problem.text : Problem → String
  | .leadingByte => "invalid leading UTF-8 octet"
  | .trailingByte => "invalid trailing UTF-8 octet"
  | .incompleteBytes => "incomplete UTF-8 octet sequence"
  | .overlongBytes => "invalid length of a UTF-8 sequence"
  | .invalidCharacter => "invalid Unicode character"
  | .controlCharacter => "control characters are not allowed"
  | .incompleteUnit => "incomplete UTF-16 character"
  | .incompletePair => "incomplete UTF-16 surrogate pair"
  | .unexpectedLowHalf => "unexpected low surrogate area"
  | .missingLowHalf => "expected low surrogate area"
  | .tooDeep => "exceeded max depth of 10000"
  | .noToken => "found character that cannot start any token"
  | .valueNotAllowed => "mapping values are not allowed in this context"
  | .keyNotAllowed => "mapping keys are not allowed in this context"
  | .entryNotAllowed => "block sequence entries are not allowed in this context"
  | .missingColon => "could not find expected ':'"
  | .tabInIndentation => "found a tab character that violates indentation"
  | .borderInQuotes => "found unexpected document indicator"
  | .endInQuotes => "found unexpected end of stream"
  | .unknownEscape => "found unknown escape character"
  | .missingHexDigit => "did not find expected hexdecimal number"
  | .invalidEscapeCode => "found invalid Unicode character escape code"
  | .zeroIndentation => "found an indentation indicator equal to 0"
  | .missingLineBreak => "did not find expected comment or line break"
  | .tabForBlank => "found a tab character where an indentation space is expected"
  | .missingName => "did not find expected alphabetic or numeric character"
  | .missingSpaceAfterTag => "did not find expected whitespace or line break"
  | .missingTagEnd => "did not find the expected '>'"
  | .missingTagText => "did not find expected tag URI"
  | .missingTagMark => "did not find expected '!'"
  | .missingEscape => "did not find URI escaped octet"
  | .wrongLeadingEscape => "found an incorrect leading UTF-8 octet"
  | .wrongTrailingEscape => "found an incorrect trailing UTF-8 octet"
  | .missingBlank => "did not find expected whitespace"
  | .unknownDirective => "found unknown directive name"
  | .missingDirectiveName => "could not find expected directive name"
  | .wrongDirectiveName => "found unexpected non-alphabetical character"
  | .missingVersion => "did not find expected version number"
  | .missingVersionPoint => "did not find expected digit or '.' character"
  | .longVersion => "found extremely long version number"
  | .repeatedHandle => "found duplicate %TAG directive"
  | .repeatedVersion => "found duplicate %YAML directive"
  | .otherVersion => "found incompatible YAML document"
  | .missingDocumentStart => "did not find expected <document start>"
  | .undefinedHandle => "found undefined tag handle"
  | .missingContent => "did not find expected node content"
  | .missingKey => "did not find expected key"
  | .missingDash => "did not find expected '-' indicator"
  | .missingSequenceEnd => "did not find expected ',' or ']'"
  | .missingMappingEnd => "did not find expected ',' or '\x7d'"

/-- A value that does not fit where it is wanted. -/
inductive Complaint
  /-- A value of the type `tag` where a `target` is wanted. -/
  | mismatch (line : Nat) (tag value target : String)
  | repeatedKey (line : Nat) (key : String) (firstLine : Nat)
  | repeatedField (line : Nat) (name target : String)
  deriving DecidableEq, Repr

/-- A value as a complaint shows it: beyond ten bytes only its first seven. -/
def excerpt (value : String) : String :=
  let bytes := Text.Utf8.encode value.toList
  if 10 < bytes.length then String.ofList (Text.Utf8.decode (bytes.take 7)) ++ "..." else value

/-- The type of a value and the value. What is marked as a collection follows the mark as it is. -/
def shownValue (tag value : String) : String :=
  if tag = "!!seq" || tag = "!!map" then tag ++ value
  else tag ++ " `" ++ excerpt value ++ "`"

def Complaint.message : Complaint → String
  | .mismatch line tag value target =>
    "line " ++ toString line ++ ": cannot unmarshal " ++ shownValue tag value ++ " into " ++ target
  | .repeatedKey line key firstLine =>
    "line " ++ toString line ++ ": mapping key " ++ Text.Quoted.render key
      ++ " already defined at line " ++ toString firstLine
  | .repeatedField line name target =>
    "line " ++ toString line ++ ": field " ++ name ++ " already set in type " ++ target

inductive Trouble
  /-- A problem of the text, in the line with the given number; zero stands for no line. -/
  | text (line : Nat) (problem : Problem)
  | unknownAnchor (name : String)
  /-- A value of the type `found` that is marked as one of the type `tag`. -/
  | wrongTag (found value tag : String)
  | wrongBase64
  | mergeWithoutMapping
  /-- A value that contains itself, by the name of its anchor. -/
  | endless (name : String)
  | tooManyCopies
  /-- A key that is a collection, as it is shown. -/
  | collectionKey (shown : String)
  /-- A key of a merged mapping that is a collection, by its type. -/
  | incomparableKey (type : String)
  | complaints (all : List Complaint)
  deriving DecidableEq, Repr

namespace Trouble

/-- The line of a trouble that arose at `place` in a stretch that began at `start`: that of the
beginning, unless it is the first one. -/
def lineOf (start place : Mark) : Nat := if start.line ≠ 0 then start.line else place.line

/-- A trouble met while cutting the text into tokens. -/
def scanning (start place : Mark) (problem : Problem) : Trouble :=
  let line := lineOf start place
  .text (if line = 0 then 0 else line + 1) problem

/-- A trouble met while putting tokens together. -/
def composing (start place : Mark) (problem : Problem) : Trouble :=
  .text (lineOf start place) problem

/-- Whether a trouble is that the text ends inside quotes. -/
def isAtEnd : Trouble → Bool
  | .text _ problem => problem == .endInQuotes
  | _ => false

/-- A trouble with the bytes of the text. -/
def reading (problem : Problem) : Trouble := .text 0 problem

def message : Trouble → String
  | .text line problem =>
    "yaml: " ++ (if line = 0 then "" else "line " ++ toString line ++ ": ") ++ problem.text
  | .unknownAnchor name => "yaml: unknown anchor '" ++ name ++ "' referenced"
  | .wrongTag found value tag =>
    "yaml: cannot decode " ++ found ++ " `" ++ value ++ "` as a " ++ tag
  | .wrongBase64 => "yaml: !!binary value contains invalid base64 data"
  | .mergeWithoutMapping => "yaml: map merge requires map or sequence of maps as the value"
  | .endless name => "yaml: anchor '" ++ name ++ "' value contains itself"
  | .tooManyCopies => "yaml: document contains excessive aliasing"
  | .collectionKey shown => "yaml: invalid map key: " ++ shown
  | .incomparableKey type => "yaml: runtime error: hash of unhashable type " ++ type
  | .complaints all =>
    "yaml: unmarshal errors:\n  " ++ "\n  ".intercalate (all.map Complaint.message)

end Trouble
end TapeMachine.Yaml
