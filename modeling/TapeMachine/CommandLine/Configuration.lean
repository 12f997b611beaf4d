import TapeMachine.CommandLine.Variables
import TapeMachine.Disk
import TapeMachine.Format.Dotenv
import TapeMachine.Format.Hcl
import TapeMachine.Format.Ini
import TapeMachine.Format.Json
import TapeMachine.Format.Properties
import TapeMachine.Format.Toml
import TapeMachine.Path
import TapeMachine.Yaml.Decoding
import TapeMachine.Yaml.Document

/-! Configuration files.

A configuration file is a mapping of names to values in one of several forms, which the ending of its
name tells. Its names are taken in small letters. -/
namespace TapeMachine.CommandLine

abbrev Configuration := List (String × Value)

namespace Configuration

/-- The entries of a mapping whose keys are texts. -/
def ofEntries (entries : List (Value × Value)) : Configuration :=
  entries.filterMap fun
    | (.text name, value) => some (name, value)
    | _ => none

/-- The entries of a document. -/
def ofDocument (document : Yaml.Document) : Except Yaml.Trouble Configuration :=
  let name := "map[string]interface \x7b\x7d"
  let (p, site, n) := ({ document : Yaml.Site }).enter document.root {}
  let generic := Yaml.Value.take document.depth
  let (p, entries) :=
    match n with
    | .mapping _ _ entries =>
      match Yaml.Node.repeatedKeys entries with
      | [] =>
        let f :=
          Yaml.Filling.takeEntries generic (Yaml.Value.target true generic) document.depth site
            entries { progress := p, state := [] }
        (f.progress, f.state)
      | complaints => (p.complain complaints, [])
    | .scalar _ tag text =>
      match Yaml.meaning tag text with
      | .error trouble => (p.fail trouble, [])
      | .ok .null => (p, [])
      | .ok _ => (p.complain [n.mismatch name], [])
    | _ => (p.complain [n.mismatch name], [])
  match p.trouble? with
  | some trouble => .error trouble
  | none => .ok (ofEntries entries)

/-- The small letter of a character, as far as it can be one of those that names consist of. -/
def smallLetter (c : Char) : Char :=
  if c == '\u0130' then 'i' else if c == '\u212a' then 'k' else c.toLower

def lowerName (name : String) : String := String.ofList (name.toList.map smallLetter)

/-- The forms of configuration files. -/
inductive Form
  | yaml
  | json
  | toml
  | hcl
  | properties
  | dotenv
  | ini
  deriving DecidableEq, Repr

/-- The endings of the names of configuration files, in the order in which they are looked for. -/
def forms : List (String × Form) :=
  [("json", .json), ("toml", .toml), ("yaml", .yaml), ("yml", .yaml), ("properties", .properties),
    ("props", .properties), ("prop", .properties), ("hcl", .hcl), ("tfvars", .hcl),
    ("dotenv", .dotenv), ("env", .dotenv), ("ini", .ini)]

def ofYaml (content : List UInt8) : Except String Configuration :=
  match Yaml.read content with
  | .error trouble => .error trouble.message
  | .ok none => .ok []
  | .ok (some document) => (ofDocument document).mapError (·.message)

/-- Properties, where points in a key divide the names of a path. The last name is in small letters. -/
def ofProperties (vars : Variables) (content : List UInt8) : Except String Configuration :=
  match Format.Properties.parse vars.value content with
  | .error trouble => .error trouble.message
  | .ok table =>
    .ok (ofEntries (table.foldl
      (fun entries (key, value) =>
        let path := key.splitOn "."
        Format.Properties.placeAt (path.dropLast ++ [lowerName (path.getLast?.getD "")])
          (.text value) entries)
      []))

/-- The entries of a text of the given form. -/
def ofText (form : Form) (vars : Variables) (content : List UInt8) : Except String Configuration :=
  match form with
  | .yaml => ofYaml content
  | .json => ((Format.Json.parse content).mapError (·.message)).map ofEntries
  | .toml => ((Format.Toml.parse content).mapError (·.message)).map ofEntries
  | .hcl => ((Format.Hcl.parse content).mapError (·.message)).map ofEntries
  | .properties => ofProperties vars content
  | .dotenv => ((Format.Dotenv.parse vars content).mapError (·.message)).map ofEntries
  | .ini => ((Format.Ini.parse content).mapError (·.message)).map ofEntries

/-- Names in small letters. A name that was not in small letters before comes first. -/
def lowered (c : Configuration) : Configuration :=
  let (changed, kept) := c.partition fun (name, _) => lowerName name != name
  changed.map (fun (name, value) => (lowerName name, value)) ++ kept

def parse (form : Form) (vars : Variables) (content : List UInt8) : Except Fault Configuration :=
  match ofText form vars content with
  | .ok c => .ok c.lowered
  | .error message => .error (.during "While parsing config" (.told message))

/-- Reads a file that was named. -/
def ofFile (disk : Disk) (vars : Variables) (path : String) : Except Fault Configuration :=
  match forms.lookup (Path.ending path) with
  | none => .error (.told ("Unsupported Config Type " ++ Text.Quoted.render (Path.ending path)))
  | some form =>
    match disk.read path with
    | .error fault => .error fault
    | .ok content => parse form vars content

/-- Whether a path names a file. -/
def isFile (disk : Disk) (path : String) : Bool :=
  match disk.locate path with
  | .ok place =>
    match disk.find? place with
    | some (.file _) => true
    | _ => false
  | .error _ => false

/-- The directory in which a file is looked for when none is named: the home directory, in which
variables are replaced, as a path from the root. -/
def directory (disk : Disk) (vars : Variables) : String :=
  let home := vars.value "HOME"
  let whole :=
    if home = "$HOME" || home.startsWith "$HOME/" then home.toList ++ home.toList.drop 5
    else home.toList
  let path := String.ofList (vars.expand whole)
  if path.startsWith "/" then Path.clean path
  else Path.join ("/" ++ "/".intercalate disk.workingDirectory) path

/-- The paths at which a file is looked for when none is named. -/
def usualPaths (disk : Disk) (vars : Variables) : List String :=
  let directory := directory disk vars
  forms.map (fun (ending, _) => Path.join directory (".bf." ++ ending)) ++ [Path.join directory ".bf"]

/-- The file that is taken when none is named. It is read as YAML, whatever its ending. -/
def usualFile? (disk : Disk) (vars : Variables) : Option String :=
  (usualPaths disk vars).find? (isFile disk)

end Configuration
end TapeMachine.CommandLine
