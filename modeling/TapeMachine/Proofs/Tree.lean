import TapeMachine.Brackets

/-! Programs as trees.

The loops of a balanced program nest, so its bytes are the text of one tree. Of any other bytes there
is still an outline: a tree, then the trees that come after a closing bracket which closes nothing, then
those that come after an opening bracket which nothing closes. `outline` reads it from the last byte to
the first, `text_outline` says that it is an outline of those bytes, and `outline_text` that a tree is
the outline of its own text. So a program has a tree exactly if its outline has no loose brackets, and
then only one (`parse?_eq_some_iff`). -/
namespace TapeMachine

/-- Whether a byte opens or closes a loop. -/
def Brackets.isBracket (b : UInt8) : Bool := b == opening || b == closing

/-- A program as loops within loops. -/
inductive Tree
  | done
  /-- A byte that is no bracket. -/
  | plain (byte : UInt8) (simple : Brackets.isBracket byte = false) (rest : Tree)
  | loop (body rest : Tree)

/-- A tree, trees that follow a loose closing bracket each, and trees that follow a loose opening
bracket each. -/
structure Outline where
  first : Tree
  closed : List Tree := []
  opened : List Tree := []

namespace Tree
open Brackets

/-- The bytes of a tree. -/
def text : Tree → List UInt8
  | .done => []
  | .plain b _ rest => b :: rest.text
  | .loop body rest => opening :: (body.text ++ closing :: rest.text)

/-- The number of bytes of a tree. -/
def size : Tree → Nat
  | .done => 0
  | .plain _ _ rest => rest.size + 1
  | .loop body rest => body.size + rest.size + 2

/-- The greatest number of loops around any place of a tree. -/
def depth : Tree → Nat
  | .done => 0
  | .plain _ _ rest => rest.depth
  | .loop body rest => max (body.depth + 1) rest.depth

/-- One tree after the other. -/
def append : Tree → Tree → Tree
  | .done, u => u
  | .plain b h rest, u => .plain b h (rest.append u)
  | .loop body rest, u => .loop body (rest.append u)

/-- The tree without the bytes that `keep` drops. -/
def filter (keep : UInt8 → Bool) : Tree → Tree
  | .done => .done
  | .plain b h rest => if keep b then .plain b h (rest.filter keep) else rest.filter keep
  | .loop body rest => .loop (body.filter keep) (rest.filter keep)

@[simp] theorem length_text (t : Tree) : t.text.length = t.size := by
  induction t with
  | done => rfl
  | plain b h rest ih => simp [text, size, ih]
  | loop body rest ihb ihr =>
    simp only [text, size, List.length_cons, List.length_append, ihb, ihr]
    omega

@[simp] theorem append_done (t : Tree) : t.append .done = t := by
  induction t with
  | done => rfl
  | plain b h rest ih => rw [append, ih]
  | loop body rest _ ihr => rw [append, ihr]

end Tree

namespace Outline
open Brackets

/-- The bytes of an outline. -/
def text (o : Outline) : List UInt8 :=
  o.first.text ++ o.closed.flatMap (closing :: ·.text) ++ o.opened.flatMap (opening :: ·.text)

/-- Puts one byte in front. An opening bracket takes the first loose closing bracket for its partner. -/
def prepend (b : UInt8) (o : Outline) : Outline :=
  if b = closing then ⟨.done, o.first :: o.closed, o.opened⟩
  else if b = opening then
    match o.closed with
    | [] => ⟨.done, [], o.first :: o.opened⟩
    | u :: closed => ⟨.loop o.first u, closed, o.opened⟩
  else if h : isBracket b = false then ⟨.plain b h o.first, o.closed, o.opened⟩
  else o

/-- The outline without the bytes that `keep` drops. -/
def filter (keep : UInt8 → Bool) (o : Outline) : Outline :=
  ⟨o.first.filter keep, o.closed.map (·.filter keep), o.opened.map (·.filter keep)⟩

theorem prepend_closing (o : Outline) :
    o.prepend closing = ⟨.done, o.first :: o.closed, o.opened⟩ := rfl

theorem prepend_opening_nil (first : Tree) (opened : List Tree) :
    prepend opening ⟨first, [], opened⟩ = ⟨.done, [], first :: opened⟩ := rfl

theorem prepend_opening_cons (first u : Tree) (closed opened : List Tree) :
    prepend opening ⟨first, u :: closed, opened⟩ = ⟨.loop first u, closed, opened⟩ := rfl

theorem prepend_plain (b : UInt8) (h : isBracket b = false) (o : Outline) :
    o.prepend b = ⟨.plain b h o.first, o.closed, o.opened⟩ := by
  have hb : b ≠ opening ∧ b ≠ closing := by simpa [isBracket] using h
  simp [prepend, hb, h]

/-- What a byte can be. -/
theorem byte_cases (b : UInt8) : b = closing ∨ b = opening ∨ isBracket b = false := by
  by_cases hc : b = closing
  · exact .inl hc
  · by_cases ho : b = opening
    · exact .inr (.inl ho)
    · exact .inr (.inr (by simp [isBracket, hc, ho]))

theorem text_prepend (b : UInt8) (o : Outline) : (o.prepend b).text = b :: o.text := by
  obtain ⟨first, closed, opened⟩ := o
  rcases byte_cases b with rfl | rfl | h
  · simp [prepend_closing, text, Tree.text]
  · cases closed with
    | nil => simp [prepend_opening_nil, text, Tree.text]
    | cons u closed => simp [prepend_opening_cons, text, Tree.text]
  · simp [prepend_plain b h, text, Tree.text]

/-- Dropping bytes commutes with putting a byte in front that is kept. -/
theorem filter_prepend (keep : UInt8 → Bool) (b : UInt8) (o : Outline) (hb : keep b = true) :
    (o.prepend b).filter keep = (o.filter keep).prepend b := by
  obtain ⟨first, closed, opened⟩ := o
  rcases byte_cases b with rfl | rfl | h
  · rfl
  · cases closed with
    | nil => rfl
    | cons u closed => rfl
  · simp [prepend_plain b h, filter, Tree.filter, hb]

/-- A byte that is dropped leaves no trace. -/
theorem filter_prepend_dropped (keep : UInt8 → Bool) (b : UInt8) (o : Outline)
    (hb : keep b = false) (h : isBracket b = false) : (o.prepend b).filter keep = o.filter keep := by
  simp [prepend_plain b h, filter, Tree.filter, hb]

end Outline

namespace Tree
open Brackets

/-- The outline of any bytes, read from the last to the first. -/
def outline (bytes : List UInt8) : Outline := bytes.foldr Outline.prepend ⟨.done, [], []⟩

/-- The tree of a program whose brackets are balanced. -/
def parse? (bytes : List UInt8) : Option Tree :=
  match outline bytes with
  | ⟨t, [], []⟩ => some t
  | _ => none

@[simp] theorem outline_nil : outline [] = ⟨.done, [], []⟩ := rfl

@[simp] theorem outline_cons (b : UInt8) (bytes : List UInt8) :
    outline (b :: bytes) = (outline bytes).prepend b := rfl

theorem text_outline (bytes : List UInt8) : (outline bytes).text = bytes := by
  induction bytes with
  | nil => rfl
  | cons b bytes ih => rw [outline_cons, Outline.text_prepend, ih]

/-- A tree in front of other bytes becomes part of the first tree of their outline. -/
theorem outline_text_append (t : Tree) (bytes : List UInt8) :
    outline (t.text ++ bytes) = { outline bytes with first := t.append (outline bytes).first } := by
  induction t generalizing bytes with
  | done => rfl
  | plain b h rest ih =>
    rw [text, List.cons_append, outline_cons, ih, Outline.prepend_plain b h]
    rfl
  | loop body rest ihb ihr =>
    have hsplit : (Tree.loop body rest).text ++ bytes =
        opening :: (body.text ++ closing :: (rest.text ++ bytes)) := by
      simp [text]
    rw [hsplit, outline_cons, ihb, outline_cons, ihr, Outline.prepend_closing, append_done,
      Outline.prepend_opening_cons]
    rfl

theorem outline_text (t : Tree) : outline t.text = ⟨t, [], []⟩ := by
  have h := outline_text_append t []
  rw [List.append_nil, outline_nil, append_done] at h
  exact h

/-- A tree ends at the first bracket that closes nothing in it. -/
theorem text_closing_inj {t u : Tree} {x y : List UInt8}
    (h : t.text ++ closing :: x = u.text ++ closing :: y) : t = u ∧ x = y := by
  have hout := congrArg (fun bytes => (outline bytes).first) h
  simp only [outline_text_append, outline_cons, Outline.prepend_closing, append_done] at hout
  subst hout
  exact ⟨rfl, (List.cons.inj (List.append_cancel_left h)).2⟩

theorem parse?_text (t : Tree) : parse? t.text = some t := by
  rw [parse?, outline_text]

theorem text_of_parse? {bytes : List UInt8} {t : Tree} (h : parse? bytes = some t) :
    t.text = bytes := by
  have htext := text_outline bytes
  unfold parse? at h
  split at h
  · next u hout =>
    obtain rfl := Option.some.inj h
    rw [hout] at htext
    simpa [Outline.text] using htext
  · cases h

/-- **A program is read as the tree whose text it is**, and as no other. -/
theorem parse?_eq_some_iff {bytes : List UInt8} {t : Tree} :
    parse? bytes = some t ↔ t.text = bytes :=
  ⟨text_of_parse?, fun h => h ▸ parse?_text t⟩

/-- The outline of what is left of a program when some bytes that are no brackets are dropped. -/
theorem outline_filter (keep : UInt8 → Bool) (hkeep : ∀ b, isBracket b = true → keep b = true)
    (bytes : List UInt8) : outline (bytes.filter keep) = (outline bytes).filter keep := by
  induction bytes with
  | nil => rfl
  | cons b bytes ih =>
    cases hb : keep b with
    | true =>
      rw [List.filter_cons_of_pos hb, outline_cons, ih, outline_cons,
        Outline.filter_prepend keep b _ hb]
    | false =>
      have hplain : isBracket b = false := by
        cases hbr : isBracket b with
        | false => rfl
        | true =>
          rw [hkeep b hbr] at hb
          cases hb
      rw [List.filter_cons_of_neg (by rw [hb]; decide), ih, outline_cons,
        Outline.filter_prepend_dropped keep b _ hb hplain]

end Tree
end TapeMachine
