/-! The parts of a text between separators. -/
namespace TapeMachine.Text

/-- The parts of a text between the places where `separator` stands. -/
def parts (separator : Char) : List Char → List (List Char)
  | [] => [[]]
  | c :: rest =>
    if c = separator then [] :: parts separator rest
    else
      match parts separator rest with
      | part :: later => (c :: part) :: later
      | [] => [[c]]

end TapeMachine.Text
