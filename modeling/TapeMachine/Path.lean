/-! Paths as texts. -/
namespace TapeMachine.Path

/-- Adds a name to a cleaned path, given by its names in reverse. -/
def descend (rooted : Bool) (path : List String) (name : String) : List String :=
  if name = "" || name = "." then path
  else if name = ".." then
    match path with
    | [] => if rooted then [] else [".."]
    | top :: rest => if top = ".." then ".." :: path else rest
  else name :: path

/-- The shortest text for the same path: no empty names, no `.`, and `..` only at the front. -/
def clean (path : String) : String :=
  if path = "" then "."
  else
    let rooted := path.startsWith "/"
    let names := ((path.splitOn "/").foldl (descend rooted) []).reverse
    let body := "/".intercalate names
    if rooted then "/" ++ body else if body = "" then "." else body

/-- Joins two paths, of which an empty one does not count. -/
def join (first second : String) : String :=
  if first = "" then (if second = "" then "" else clean second)
  else if second = "" then clean first
  else clean (first ++ "/" ++ second)

/-- The last name of a path. -/
def base (path : String) : String :=
  if path = "" then "."
  else
    match ((path.splitOn "/").filter (· != "")).getLast? with
    | some name => name
    | none => "/"

/-- The part of the last name after its last dot, without the dot. -/
def ending (path : String) : String :=
  match ((path.splitOn "/").getLast?.getD "").splitOn "." with
  | [] | [_] => ""
  | parts => parts.getLast?.getD ""

end TapeMachine.Path
