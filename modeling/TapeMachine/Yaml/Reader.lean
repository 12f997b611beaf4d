import TapeMachine.Yaml.Lexer
import TapeMachine.Yaml.Node

/-! Putting tokens together to the tree of the first document. -/
namespace TapeMachine.Yaml

/-- How far the reading has come. -/
structure Reading where
  lexer : Lexer
  /-- The numbers of the values that have a name, latest first. -/
  anchors : List (String × Nat) := []
  /-- The values that have a number, as far as they are complete. -/
  anchored : List (Nat × Node) := []
  /-- The number of values and aliases that have a number. -/
  count : Nat := 0
  /-- What handles of tags stand for. -/
  handles : List (String × String) := []

abbrev Reader := StateT Reading (Except Trouble)

namespace Reader

def look : Reader Token := do
  let r ← get
  let (token, lexer) ← r.lexer.look
  set { r with lexer }
  return token

def drop : Reader Unit := modify fun r => { r with lexer := r.lexer.drop }

/-- Takes a token away and looks at the next one. -/
def follow : Reader Token := do
  drop
  look

/-- The value that is meant where none is written. -/
def empty (mark : Mark) : Node := Node.plain (mark.line + 1) ""

def fail {α : Type} (start place : Mark) (problem : Problem) : Reader α :=
  throw (.composing start place problem)

/-- Gives out a number. -/
def number : Reader Nat := do
  let r ← get
  set { r with count := r.count + 1 }
  return r.count

/-- Gives a value its number, if it has a name. Inside the value the name already stands for it. -/
def announce (name : Option String) : Reader (Option Nat) := do
  match name with
  | some name =>
    let n ← number
    modify fun r => { r with anchors := (name, n) :: r.anchors }
    return some n
  | none => return none

/-- Keeps a value that has a number. -/
def keep (number : Option Nat) (node : Node) : Reader Node := do
  match number with
  | some n => modify fun r => { r with anchored := (n, node) :: r.anchored }
  | none => pure ()
  return node

/-- What stands before a value: anchor and tag. -/
structure Properties where
  start : Mark
  anchor : Option String := none
  /-- Handle, suffix and place of the tag. -/
  tag : Option (String × String × Mark) := none

/-- Anchor and tag, in either order. -/
def properties (token : Token) : Reader (Properties × Token) := do
  let p : Properties := { start := token.start }
  match token.shape with
  | .anchor name =>
    let p := { p with anchor := some name }
    let next ← follow
    match next.shape with
    | .tag handle suffix => return ({ p with tag := some (handle, suffix, next.start) }, ← follow)
    | _ => return (p, next)
  | .tag handle suffix =>
    let p := { p with tag := some (handle, suffix, token.start) }
    let next ← follow
    match next.shape with
    | .anchor name => return ({ p with anchor := some name }, ← follow)
    | _ => return (p, next)
  | _ => return (p, token)

/-- The full name that a short type name abbreviates. -/
def commonTag : String := "tag:yaml.org,2002:"

/-- A type name in its short form. -/
def shorten (tag : String) : String :=
  if tag.startsWith commonTag then
    String.ofList ("!!".toList ++ tag.toList.drop commonTag.length)
  else tag

/-- The type name that a tag stands for; a bare mark names none. -/
def tagName (p : Properties) : Reader (Option String) := do
  match p.tag with
  | none => return none
  | some (handle, suffix, place) =>
    let name ←
      if handle = "" then pure suffix
      else
        match ((← get).handles ++ [("!", "!"), ("!!", commonTag)]).lookup handle with
        | some replacement => pure (replacement ++ suffix)
        | none => fail p.start place .undefinedHandle
    return (if name = "!" then none else some (shorten name))

mutual

/-- A value. Inside brackets collections by indentation are not allowed. -/
def node : Nat → Bool → Bool → Reader Node
  | 0, _, _ => return empty {}
  | fuel + 1, block, indentless => do
    let token ← look
    match token.shape with
    | .alias name =>
      match (← get).anchors.lookup name with
      | some target =>
        drop
        return .alias (token.start.line + 1) name (← number) target
      | none => throw (.unknownAnchor name)
    | _ =>
      let (p, token) ← properties token
      let named ← tagName p
      let line := p.start.line + 1
      let finish (node : Node) : Reader Node := do
        keep (← announce p.anchor) node
      let opens (node : List Node → Node) (items : Reader (List Node)) : Reader Node := do
        let n ← announce p.anchor
        keep n (node (← items))
      let opensMapping (items : Reader (List (Node × Node))) : Reader Node := do
        let n ← announce p.anchor
        keep n (Node.mapping line (named.getD "!!map") (← items))
      let sequence := Node.sequence line (named.getD "!!seq")
      match token.shape, block, indentless with
      | .blockEntry, _, true => opens sequence (indentlessItems fuel)
      | .scalar text plain, _, _ =>
        drop
        finish (match named with
          | some tag => .scalar line tag text
          | none => if plain then Node.plain line text else Node.string line text)
      | .flowSequenceStart, _, _ =>
        drop
        opens sequence (flowItems fuel token.start true)
      | .flowMappingStart, _, _ =>
        drop
        opensMapping (flowEntries fuel token.start true)
      | .blockSequenceStart, true, _ =>
        drop
        opens sequence (blockItems fuel token.start)
      | .blockMappingStart, true, _ =>
        drop
        opensMapping (blockEntries fuel token.start)
      | _, _, _ =>
        if p.anchor.isSome || p.tag.isSome then
          finish (match named with
            | some tag => .scalar line tag ""
            | none => Node.plain line "")
        else fail p.start token.start .missingContent

/-- The items of a sequence by indentation that began at `start`. -/
def blockItems : Nat → Mark → Reader (List Node)
  | 0, _ => return []
  | fuel + 1, start => do
    let token ← look
    match token.shape with
    | .blockEntry =>
      let next ← follow
      let item ←
        match next.shape with
        | .blockEntry | .blockEnd => pure (empty token.stop)
        | _ => node fuel true false
      return item :: (← blockItems fuel start)
    | .blockEnd =>
      drop
      return []
    | _ => fail start token.start .missingDash

/-- The items of a sequence at the column of the mapping around it. -/
def indentlessItems : Nat → Reader (List Node)
  | 0 => return []
  | fuel + 1 => do
    let token ← look
    match token.shape with
    | .blockEntry =>
      let next ← follow
      let item ←
        match next.shape with
        | .blockEntry | .key | .value | .blockEnd => pure (empty token.stop)
        | _ => node fuel true false
      return item :: (← indentlessItems fuel)
    | _ => return []

/-- The entries of a mapping by indentation that began at `start`. -/
def blockEntries : Nat → Mark → Reader (List (Node × Node))
  | 0, _ => return []
  | fuel + 1, start => do
    let token ← look
    match token.shape with
    | .key =>
      let next ← follow
      let key ←
        match next.shape with
        | .key | .value | .blockEnd => pure (empty token.stop)
        | _ => node fuel true true
      let colon ← look
      let value ←
        match colon.shape with
        | .value =>
          let next ← follow
          match next.shape with
          | .key | .value | .blockEnd => pure (empty colon.stop)
          | _ => node fuel true true
        | _ => pure (empty colon.start)
      return (key, value) :: (← blockEntries fuel start)
    | .blockEnd =>
      drop
      return []
    | _ => fail start token.start .missingKey

/-- The items of a sequence in brackets that began at `start`. -/
def flowItems : Nat → Mark → Bool → Reader (List Node)
  | 0, _, _ => return []
  | fuel + 1, start, first => do
    let token ← look
    if token.shape = .flowSequenceEnd then
      drop
      return []
    let token ←
      if first then pure token
      else if token.shape = .flowEntry then follow
      else fail start token.start .missingSequenceEnd
    match token.shape with
    | .flowSequenceEnd =>
      drop
      return []
    | .key =>
      let next ← follow
      let key ←
        match next.shape with
        | .value | .flowEntry | .flowSequenceEnd =>
          drop
          pure (empty next.stop)
        | _ => node fuel false false
      let value ← flowValue fuel .flowSequenceEnd
      let pair := Node.mapping (token.start.line + 1) "!!map" [(key, value)]
      return pair :: (← flowItems fuel start false)
    | _ =>
      let item ← node fuel false false
      return item :: (← flowItems fuel start false)

/-- The value behind a key in brackets that end with the token `close`. -/
def flowValue : Nat → Shape → Reader Node
  | 0, _ => return empty {}
  | fuel + 1, close => do
    let token ← look
    match token.shape with
    | .value =>
      let next ← follow
      if next.shape = .flowEntry || next.shape = close then return empty next.start
      else node fuel false false
    | _ => return empty token.start

/-- The entries of a mapping in brackets that began at `start`. -/
def flowEntries : Nat → Mark → Bool → Reader (List (Node × Node))
  | 0, _, _ => return []
  | fuel + 1, start, first => do
    let token ← look
    if token.shape = .flowMappingEnd then
      drop
      return []
    let token ←
      if first then pure token
      else if token.shape = .flowEntry then follow
      else fail start token.start .missingMappingEnd
    match token.shape with
    | .flowMappingEnd =>
      drop
      return []
    | .key =>
      let next ← follow
      let key ←
        match next.shape with
        | .value | .flowEntry | .flowMappingEnd => pure (empty next.start)
        | _ => node fuel false false
      let value ← flowValue fuel .flowMappingEnd
      return (key, value) :: (← flowEntries fuel start false)
    | _ =>
      let key ← node fuel false false
      let next ← look
      return (key, empty next.start) :: (← flowEntries fuel start false)

end

/-- The directives before a document. -/
def directives : Nat → Bool → Reader Token
  | 0, _ => look
  | fuel + 1, versioned => do
    let token ← look
    match token.shape with
    | .version major minor =>
      if versioned then fail token.start token.start .repeatedVersion
      else if major ≠ 1 || minor ≠ 1 then fail token.start token.start .otherVersion
      else
        drop
        directives fuel true
    | .handle name replacement =>
      if ((← get).handles.lookup name).isSome then
        fail {} token.start .repeatedHandle
      modify fun r => { r with handles := (name, replacement) :: r.handles }
      drop
      directives fuel versioned
    | _ => return token

/-- The outermost value of the first document; an empty text has none. -/
def root (fuel : Nat) : Reader (Option Node) := do
  let _ ← look
  let first ← follow
  match first.shape with
  | .streamEnd => return none
  | .version .. | .handle .. | .documentStart =>
    let token ← directives fuel false
    if token.shape ≠ .documentStart then
      fail {} token.start .missingDocumentStart
    let next ← follow
    let root ←
      match next.shape with
      | .version .. | .handle .. | .documentStart | .documentEnd | .streamEnd =>
        pure (empty next.start)
      | _ => node fuel true false
    let _ ← look
    return some root
  | _ =>
    let root ← node fuel true false
    let _ ← look
    return some root

end Reader

/-- Reads the first document of a text. -/
def readScript (script : Script) : Except Trouble (Option Document) :=
  match (Reader.root (2 * script.text.length + 8)).run { lexer := Lexer.ofScript script } with
  | .error trouble => .error trouble
  | .ok (none, _) => .ok none
  | .ok (some root, reading) => .ok (some ⟨root, reading.anchored, script.text.length⟩)

end TapeMachine.Yaml
