import TapeMachine.Yaml.Characters
import TapeMachine.Yaml.Lines
import TapeMachine.Yaml.Reader

/-! Reading a document from bytes. -/
namespace TapeMachine.Yaml

/-- The first document, if there is one. -/
def read (bytes : List UInt8) : Except Trouble (Option Document) :=
  let script := Script.ofBytes bytes
  match script.problem, Lines.read? script.text with
  | none, some root => .ok (some { root, size := script.text.length })
  | _, _ => readScript script

end TapeMachine.Yaml
