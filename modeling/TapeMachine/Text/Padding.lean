/-! Fixed-width columns. A text that is already wide enough is left as it is. -/
namespace TapeMachine.Text

/-- Fills `s` on the right up to `width` characters. -/
def padRight (width : Nat) (fill : Char) (s : List Char) : List Char :=
  s ++ List.replicate (width - s.length) fill

/-- Fills `s` on the left up to `width` characters. -/
def padLeft (width : Nat) (fill : Char) (s : List Char) : List Char :=
  List.replicate (width - s.length) fill ++ s

end TapeMachine.Text
