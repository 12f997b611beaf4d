/-! Keys in order. -/
namespace TapeMachine.Ordered

/-- The keys of a list, each once, ascending. -/
def keys {α : Type} [BEq α] (le : α → α → Bool) (items : List α) : List α :=
  (items.mergeSort le).eraseReps

/-- Numbers, each once, ascending. -/
def numbers (items : List Int) : List Int := keys (fun a b => decide (a ≤ b)) items

/-- Texts, each once, ascending by their characters. -/
def texts (items : List String) : List String := keys (fun a b => decide (a ≤ b)) items

/-- Sets the value of a key in an association list that is ascending by its keys. -/
def insert {α : Type} (key : Int) (value : α) : List (Int × α) → List (Int × α)
  | [] => [(key, value)]
  | (k, v) :: rest =>
    if key < k then (key, value) :: (k, v) :: rest
    else if key = k then (key, value) :: rest
    else (k, v) :: insert key value rest

/-- The association list of some entries: the last entry of a key counts. -/
def ofEntries {α : Type} (entries : List (Int × α)) : List (Int × α) :=
  entries.foldl (fun cells (key, value) => insert key value cells) []

end TapeMachine.Ordered
