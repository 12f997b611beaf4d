import TapeMachine.Format.Hcl.Token

/-! The tree of a text in HCL.

An object is a row of items, each of which has a key of one or more words and a value. Words are taken
one after the other, and the last one can be put back. -/
namespace TapeMachine.Format.Hcl

inductive Node
  | literal (token : Token)
  | object (place : Place) (items : List (List Token × Node))
  | list (place : Place) (items : List Node)
  deriving Repr

abbrev Item := List Token × Node

def Node.place : Node → Place
  | .literal token => token.place
  | .object place _ => place
  | .list place _ => place

/-- Where the reading of words stands. -/
structure Cursor where
  /-- The word that was taken last. -/
  token : Token
  /-- Whether it has been put back. -/
  again : Bool := false
  ahead : List Token
  deriving Repr

namespace Cursor

/-- Takes the next word. At the end the place moves on by a column each time. -/
def take (c : Cursor) : Cursor :=
  if c.again then { c with again := false }
  else
    match c.ahead with
    | [] =>
      let place := { c.token.place with column := c.token.place.column + 1 }
      { c with token := ⟨.ending, [], place, c.token.trouble⟩ }
    | token :: rest => { c with token, ahead := rest }

def putBack (c : Cursor) : Cursor := { c with again := true }

end Cursor

/-- Why the words stop to make sense: the text is over, or something is wrong at a place. -/
inductive Stop
  | ended
  | trouble (t : Trouble)
  deriving DecidableEq, Repr

/-- What reading gives: where it stands then, and a result. -/
abbrev Reading (α : Type) := Cursor × Except Stop α

def wrong {α : Type} (c : Cursor) (text : String) : Reading α :=
  (c, .error (.trouble ⟨c.token.place, text⟩))

/-- The words of a key. Those read before something goes wrong are given as well. -/
def takeKey : Nat → List Token → Cursor → Cursor × List Token × Option Stop
  | 0, keys, c => (c, keys.reverse, some .ended)
  | fuel + 1, keys, c =>
    let c := c.take
    let stop (text : String) : Stop := .trouble ⟨c.token.place, text⟩
    match c.token.kind with
    | .ending => (c, keys.reverse, some .ended)
    | .assign =>
      if 1 < keys.length then (c, [], some (stop "nested object expected: LBRACE got: ASSIGN"))
      else if keys.isEmpty then (c, [], some (stop "no object keys found!"))
      else (c, keys.reverse, none)
    | .openBrace =>
      (c, keys.reverse,
        if keys.isEmpty then some (stop "expected: IDENT | STRING got: LBRACE") else none)
    | .name | .string => takeKey fuel (c.token :: keys) c
    | .illegal => (c, keys.reverse, some (stop "illegal character"))
    | kind =>
      (c, keys.reverse,
        some (stop ("expected: IDENT | STRING | ASSIGN | LBRACE got: " ++ kind.text)))

def isLiteral (kind : Kind) : Bool :=
  [Kind.integer, .real, .flag, .string, .lines].contains kind

mutual
/-- A value behind an equals sign. -/
def takeValue : Nat → Cursor → Reading Node
  | 0, c => (c, .error .ended)
  | fuel + 1, c =>
    let c := c.take
    let token := c.token
    if isLiteral token.kind then (c, .ok (.literal token))
    else
      match token.kind with
      | .openBrace => takeObject fuel c
      | .openBracket => takeList fuel token.place false [] c
      | .ending => (c, .error .ended)
      | _ => wrong c ("Unknown token: " ++ token.shown)

/-- An object behind its opening brace. -/
def takeObject : Nat → Cursor → Reading Node
  | 0, c => (c, .error .ended)
  | fuel + 1, c =>
    let place := c.token.place
    let close (c : Cursor) (items : List Item) : Reading Node :=
      let c := c.take
      if c.token.kind = .closeBrace then (c, .ok (.object place items))
      else wrong c ("object expected closing RBRACE got: " ++ c.token.kind.text)
    match takeItems fuel true [] c with
    | (c, items, none) => close c items
    | (c, items, some stop) =>
      if c.token.kind = .closeBrace then close c items else (c, .error stop)

/-- The items of an object, inside of braces or at the outermost level. -/
def takeItems : Nat → Bool → List Item → Cursor → Cursor × List Item × Option Stop
  | 0, _, items, c => (c, items.reverse, none)
  | fuel + 1, inside, items, c =>
    let c := if inside then c.take.putBack else c
    if inside && c.token.kind = .closeBrace then (c, items.reverse, none)
    else
      match takeItem fuel c with
      | (c, .error .ended) => (c, items.reverse, none)
      | (c, .error stop) => (c, items.reverse, some stop)
      | (c, .ok item) =>
        let next := c.take
        takeItems fuel inside (item :: items)
          (if next.token.kind = .comma then next else next.putBack)

/-- One item. -/
def takeItem : Nat → Cursor → Reading Item
  | 0, c => (c, .error .ended)
  | fuel + 1, c =>
    let (c, keys, stop) := takeKey (c.ahead.length + 2) [] c
    let valueMissing : Reading Item :=
      wrong c ("key '" ++ " ".intercalate (keys.map fun k => String.ofList k.text)
        ++ "' expected start of object ('\x7b') or assignment ('=')")
    let finish (value : Reading Node) : Reading Item :=
      match value with
      | (c, .error stop) => (c, .error stop)
      | (c, .ok node) => (c.take.putBack, .ok (keys, node))
    match stop with
    | none => finish (if c.token.kind = .assign then takeValue fuel c else takeObject fuel c)
    | some .ended => if keys.isEmpty then (c, .error .ended) else valueMissing
    | some stop =>
      if !keys.isEmpty && c.token.kind = .closeBrace then
        match valueMissing with
        | (c, result) => ({ c with token := { c.token with kind := .ending } }, result)
      else (c, .error stop)

/-- The items of a list, where `comma` tells whether a comma has to come first. -/
def takeList : Nat → Place → Bool → List Node → Cursor → Reading Node
  | 0, _, _, _, c => (c, .error .ended)
  | fuel + 1, place, comma, items, c =>
    let c := c.take
    let token := c.token
    let within (what : String) (found : Reading Node) (comma : Bool) : Reading Node :=
      match found with
      | (c, .ok node) => takeList fuel place comma (node :: items) c
      | (c, .error stop) =>
        let text :=
          match stop with
          | .ended => "EOF token found"
          | .trouble t => t.message
        (c, .error (.trouble ⟨token.place,
          "error while trying to parse " ++ what ++ " within list: " ++ text⟩))
    if comma && token.kind ≠ .comma && token.kind ≠ .closeBracket then
      wrong c ("error parsing list, expected comma or list end, got: " ++ token.kind.text)
    else if isLiteral token.kind then takeList fuel place true (.literal token :: items) c
    else
      match token.kind with
      | .comma => takeList fuel place false items c.take.putBack
      | .openBrace => within "object" (takeObject fuel c) true
      | .openBracket => within "list" (takeList fuel token.place false [] c) comma
      | .closeBracket => (c, .ok (.list place items.reverse))
      | kind => wrong c ("unexpected token while parsing list: " ++ kind.text)
end

/-- The items of a text. A trouble with its words goes before one with their order. -/
def readItems (tokens : List Token) : Except Trouble (List Item) :=
  let start : Token := ⟨.ending, [], ⟨1, 0⟩, none⟩
  let (c, items, stop) :=
    takeItems (3 * tokens.length + 4) false [] { token := start, ahead := tokens }
  match c.token.trouble, stop with
  | some trouble, _ => .error trouble
  | none, some (.trouble trouble) => .error trouble
  | none, _ => .ok items

end TapeMachine.Format.Hcl
