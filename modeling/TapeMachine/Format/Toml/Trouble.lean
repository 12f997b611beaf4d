import TapeMachine.Text.Numeral
import TapeMachine.Text.Octets
import TapeMachine.Text.Quoted

/-! Why a TOML text cannot be read. -/
namespace TapeMachine.Format.Toml

/-- The bases in which integers are written. -/
inductive Base
  | decimal
  | hexadecimal
  | octal
  | binary
  deriving DecidableEq, Repr

def Base.text : Base → String
  | .decimal => "decimal"
  | .hexadecimal => "hexadecimal"
  | .octal => "octal"
  | .binary => "binary"

/-- What a name stands for. -/
inductive Kind
  | value
  | table
  | tables
  deriving DecidableEq, Repr

def Kind.text : Kind → String
  | .value => "value"
  | .table => "table"
  | .tables => "array table"

inductive Trouble
  | noNewline (found : Char)
  | loneReturn
  | otherReturn
  | inComment
  | noKey
  | keyStart (found : Char)
  | keyOnly
  | expected (c : Char)
  | expectedAtEnd (c : Char)
  | noValue
  | noWord (word : String)
  | number
  | inNumber (found : Char)
  | lineInLiteral
  | inLiteral
  | openLiteral
  | quotesInLines
  | openLines
  | returnInLines
  | lineInBasic
  | endsInEscape
  | openBasic
  | quotesInBasicLines
  | openBasicLines
  | encoding
  | inBasic (found : Char)
  | unknownEscape (found : Char)
  | shortCode (wanted found : Nat)
  | noHexDigit
  | wrongCode
  | openInlineTable
  | openArray
  | leadingComma
  | noComma
  | leadingUnderscore
  | trailingUnderscore
  | twoUnderscores
  | underscoreBeforeExponent
  | underscoreAfterExponent
  | underscoreAfterPoint
  | underscoreBeforePoint
  | leadingZero
  | integer (base : Base) (digits : String) (problem : Text.Numeral.Problem)
  | leadingPoint
  | trailingPoint
  | secondPoint
  | noDigitBeforePoint
  | noDigitAfterPoint
  | leadingZeros
  | real (digits : String) (problem : Text.Numeral.Problem)
  | dateForm
  | impossibleDate
  | digit
  | dateTimeForm
  | separator
  | timeForm
  | hour
  | afterHour
  | minute
  | afterMinute
  | second
  | fraction
  | fractionAtEnd
  | zoneForm
  | zoneSign
  | zoneColon
  | zoneHour
  | zoneMinute
  | afterZone
  | afterTime
  | afterDateTime
  | noTable (name : String) (kind : Kind)
  | tableExpected (name : String) (kind : Kind)
  | repeatedTable (name : String)
  | tablesExpected (name : String) (kind : Kind)
  | repeatedKey (name : String)
  | closedTable (name : String)
  deriving DecidableEq, Repr

namespace Trouble

/-- The trouble with the digits of a number. -/
def numeral (reading digits : String) (problem : Text.Numeral.Problem) : String :=
  "strconv." ++ reading ++ ": parsing " ++ Text.Quoted.render digits ++ ": " ++ problem.text

def text : Trouble → String
  | .noNewline found => "expected newline but got " ++ Text.Octets.codePoint found
  | .loneReturn => "windows new line expected"
  | .otherReturn => "windows new line should be \\r\\n"
  | .inComment => "invalid character in comment"
  | .noKey => "expected key but found none"
  | .keyStart found => "invalid character at start of key: " ++ String.singleton found
  | .keyOnly => "expected = after a key, but the document ends there"
  | .expected c => "expected character " ++ String.singleton c
  | .expectedAtEnd c =>
    "expected character " ++ String.singleton c ++ " but the document ended here"
  | .noValue => "expected value, not eof"
  | .noWord word => "expected '" ++ word ++ "'"
  | .number => "incomplete number"
  | .inNumber found =>
    "unexpected character '" ++ String.singleton found ++ "' while scanning for a number"
  | .lineInLiteral => "literal strings cannot have new lines"
  | .inLiteral => "invalid character"
  | .openLiteral => "unterminated literal string"
  | .quotesInLines => "''' not allowed in multiline literal string"
  | .openLines => "multiline literal string not terminated by '''"
  | .returnInLines => "need a \\n after \\r"
  | .lineInBasic => "basic strings cannot have new lines"
  | .endsInEscape => "need a character after \\"
  | .openBasic => "basic string not terminated by \""
  | .quotesInBasicLines => "\"\"\" not allowed in multiline basic string"
  | .openBasicLines => "multiline basic string not terminated by \"\"\""
  | .encoding => "invalid UTF-8"
  | .inBasic found => "invalid character " ++ Text.Octets.codePoint found
  | .unknownEscape found => "invalid escaped character " ++ Text.Octets.codePoint found
  | .shortCode wanted found =>
    "unicode point needs " ++ toString wanted ++ " character, not " ++ toString found
  | .noHexDigit => "non-hex character"
  | .wrongCode => "escape sequence is invalid Unicode code point"
  | .openInlineTable => "inline table is incomplete"
  | .openArray => "array is incomplete"
  | .leadingComma => "array cannot start with comma"
  | .noComma => "array elements must be separated by commas"
  | .leadingUnderscore => "number cannot start with underscore"
  | .trailingUnderscore => "number cannot end with underscore"
  | .twoUnderscores => "number must have at least one digit between underscores"
  | .underscoreBeforeExponent => "cannot have underscore before exponent"
  | .underscoreAfterExponent => "cannot have underscore after exponent"
  | .underscoreAfterPoint => "cannot have underscore after decimal point"
  | .underscoreBeforePoint => "cannot have underscore before decimal point"
  | .leadingZero => "leading zero not allowed on decimal number"
  | .integer base digits problem =>
    "couldn't parse " ++ base.text ++ " number: " ++ numeral "ParseInt" digits problem
  | .leadingPoint => "float cannot start with a dot"
  | .trailingPoint => "float cannot end with a dot"
  | .secondPoint => "float can have at most one decimal point"
  | .noDigitBeforePoint => "float decimal point must be preceded by a digit"
  | .noDigitAfterPoint => "float decimal point must be followed by a digit"
  | .leadingZeros => "float integer part cannot have leading zeroes"
  | .real digits problem => "unable to parse float: " ++ numeral "ParseFloat" digits problem
  | .dateForm => "dates are expected to have the format YYYY-MM-DD"
  | .impossibleDate => "impossible date"
  | .digit => "expected digit (0-9)"
  | .dateTimeForm =>
    "local datetimes are expected to have the format YYYY-MM-DDTHH:MM:SS[.NNNNNNNNN]"
  | .separator => "datetime separator is expected to be T or a space"
  | .timeForm => "times are expected to have the format HH:MM:SS[.NNNNNN]"
  | .hour => "hour cannot be greater 23"
  | .afterHour => "expecting colon between hours and minutes"
  | .minute => "minutes cannot be greater 59"
  | .afterMinute => "expecting colon between minutes and seconds"
  | .second => "seconds cannot be greater 60"
  | .fraction => "need at least one digit after fraction point"
  | .fractionAtEnd => "nanoseconds need at least one digit"
  | .zoneForm => "invalid date-time timezone"
  | .zoneSign => "invalid timezone offset character"
  | .zoneColon => "expected a : separator"
  | .zoneHour => "invalid timezone offset hours"
  | .zoneMinute => "invalid timezone offset minutes"
  | .afterZone => "extra bytes at the end of the timezone"
  | .afterTime => "extra characters at the end of a local time"
  | .afterDateTime => "extra characters at the end of a local date time"
  | .noTable name kind => "expected " ++ name ++ " to be a table, not a " ++ kind.text
  | .tableExpected name kind => "key " ++ name ++ " should be a table, not a " ++ kind.text
  | .repeatedTable name => "table " ++ name ++ " already exists"
  | .tablesExpected name kind =>
    "key " ++ kind.text ++ " already exists as a " ++ name ++ ",  but should be an array table"
  | .repeatedKey name => "key " ++ name ++ " is already defined"
  | .closedTable name =>
    "cannot redefine table " ++ name ++ " that has already been explicitly defined"

def message (t : Trouble) : String := "toml: " ++ t.text

end Trouble
end TapeMachine.Format.Toml
