import Mathlib.Data.List.DropRight
import TapeMachine.Inspect.Viewer
import TapeMachine.Proofs.Hexadecimals
import TapeMachine.Proofs.Windows

/-! The viewer and its keys.

Drawing a table clears the sheet and then sets its cells one by one, from left to right and row by row; each comes right
behind what is there, so nothing else is left on the sheet (`fill_eq`). With cells as wide as those of a session it is
the table that `tableOf` writes out.

A key moves the centre along the ring or back to the pointer and draws the table, or it does nothing
(`press_of_delta?`, `press_home`, `press_other`). So after any keys the centre is as far from the pointer as the keys since
the last `home` have scrolled together, counted around the ring (`IsAt.after`). -/
namespace TapeMachine.Inspect

/-! ### Drawing a table -/

section
variable {α : Type} {blank v a : α}

theorem putAt_length (l : List α) : putAt blank v l.length l = l ++ [v] := by
  induction l with
  | nil => rfl
  | cons b l ih => exact congrArg (b :: ·) ih

theorem putAt_append (l : List α) : putAt blank v l.length (l ++ [a]) = l ++ [v] := by
  induction l with
  | nil => rfl
  | cons b l ih => exact congrArg (b :: ·) ih

end

/-- The cells of a line of texts of one colour. -/
def line (colour : Colour) (texts : List String) : List Cell := texts.map (⟨·, colour⟩)

namespace Sheet
variable {s : Sheet} {cells : List Cell} {c : Cell}

/-- The first cell of a row opens it. -/
theorem setCell_opens : s.setCell s.length 0 c = s ++ [[c]] := by
  have hnone : s.getD s.length [] = [] := by
    rw [List.getD_eq_getElem?_getD, List.getElem?_eq_none (Nat.le_refl _), Option.getD_none]
  rw [setCell, hnone]
  exact putAt_length s

theorem setCell_extends : setCell (s ++ [cells]) s.length cells.length c = s ++ [cells ++ [c]] := by
  have hrow : (s ++ [cells]).getD s.length [] = cells := by
    rw [List.getD_eq_getElem?_getD, List.getElem?_concat_length, Option.getD_some]
  rw [setCell, hrow, putAt_length, putAt_append]

theorem foldl_setCell (colour : Colour) (texts : List String) (cells : List Cell) :
    (texts.zipIdx cells.length).foldl (fun t entry => Sheet.setCell t s.length entry.2 ⟨entry.1, colour⟩)
      (s ++ [cells]) = s ++ [cells ++ line colour texts] := by
  induction texts generalizing cells with
  | nil => rw [line, List.map_nil, List.append_nil]; rfl
  | cons text rest ih =>
    have hlater := ih (cells ++ [⟨text, colour⟩])
    rw [List.length_append, List.length_singleton] at hlater
    rw [List.zipIdx_cons, List.foldl_cons, setCell_extends, hlater, List.append_assoc]
    rfl

/-- Texts for the row behind the last one make a line of their own. -/
theorem setTexts_length (colour : Colour) {texts : List String} (h : texts ≠ []) :
    s.setTexts s.length colour texts = s ++ [line colour texts] := by
  obtain ⟨text, rest, rfl⟩ := List.exists_cons_of_ne_nil h
  rw [setTexts, List.zipIdx_cons, List.foldl_cons, setCell_opens]
  exact foldl_setCell colour rest [⟨text, colour⟩]

theorem foldl_setTexts (width : Int) (rows : List Row) {n : Nat} (h : s.length = n + 1) :
    (rows.zipIdx n).foldl (fun t entry => Sheet.setTexts t (entry.2 + 1) entry.1.colour (entry.1.texts width)) s =
      s ++ rows.map fun r => line r.colour (r.texts width) := by
  induction rows generalizing s n with
  | nil => rw [List.map_nil, List.append_nil]; rfl
  | cons r rest ih =>
    have hline : s.setTexts (n + 1) r.colour (r.texts width) = s ++ [line r.colour (r.texts width)] := by
      rw [← h]
      exact setTexts_length r.colour (List.cons_ne_nil _ _)
    rw [List.zipIdx_cons, List.foldl_cons, hline, ih (by rw [List.length_append, List.length_singleton, h]),
      List.append_assoc]
    rfl

end Sheet

/-- A sheet that is filled shows the header and a line for each row, whatever was on it. -/
theorem fill_eq (s : Sheet) (rows : List Row) (width : Int) :
    s.fill rows width = line .yellow headers :: rows.map fun r => line r.colour (r.texts width) := by
  have hheader : s.clear.setTexts 0 .yellow headers = [line .yellow headers] :=
    Sheet.setTexts_length (s := []) .yellow (List.cons_ne_nil _ _)
  rw [Sheet.fill, hheader]
  exact Sheet.foldl_setTexts width rows rfl

/-! ### The table -/

/-- The hexadecimal digits of a value, with zeros before them up to one digit for four bits of the cell. -/
def hexDigits (width value : Nat) : List Char :=
  List.replicate (width / 4 - (Nat.toDigits 16 value).length) '0' ++ Nat.toDigits 16 value

/-- The line of a row: its address, marked if the pointer is there, and its value in decimal, in hexadecimal and, by its
low byte, as a character. What cannot be shown as one is a point. The line of the pointer is green. -/
def lineOf (width : Nat) (r : Row) : List Cell :=
  let colour : Colour := if r.current then .green else .white
  let low := r.value % 256
  [⟨(if r.current then ">" else " ") ++ toString r.address, colour⟩, ⟨toString r.value, colour⟩,
    ⟨String.ofList ('0' :: 'x' :: hexDigits width r.value), colour⟩,
    ⟨if 0x20 ≤ low ∧ low < 0x7f then String.singleton (Char.ofNat low) else ".", colour⟩]

/-- The table of some rows: a yellow header, and the line of each row. -/
def tableOf (rows : List Row) (width : Nat) : Sheet :=
  [⟨"Cell", .yellow⟩, ⟨"Dec", .yellow⟩, ⟨"Hex", .yellow⟩, ⟨"Char", .yellow⟩] :: rows.map (lineOf width)

theorem printable_eq (value : Nat) : Text.printable value.toUInt8 =
    if 0x20 ≤ value % 256 ∧ value % 256 < 0x7f then String.singleton (Char.ofNat (value % 256)) else "." := by
  have hlow : value.toUInt8.toNat = value % 256 := rfl
  rw [Text.printable, hlow]
  refine if_congr ?_ rfl rfl
  rw [Text.isVisible, Bool.and_eq_true, decide_eq_true_eq, decide_eq_true_eq, UInt8.le_iff_toNat_le,
    UInt8.lt_iff_toNat_lt, hlow]
  rfl

theorem line_texts {width : Nat} (h : width / 4 ≤ Text.Hex.widest) (r : Row) :
    line r.colour (r.texts width) = lineOf width r := by
  have hdigits : (width : Int).tdiv 4 = (width / 4 : Nat) := rfl
  rw [Row.texts, hdigits, Text.Hex.render_of_le h, printable_eq]
  rfl

theorem fill_eq_tableOf (s : Sheet) (rows : List Row) {width : Nat} (h : width / 4 ≤ Text.Hex.widest) :
    s.fill rows width = tableOf rows width := by
  rw [fill_eq, funext (line_texts h)]
  rfl

/-- A cell of a session makes a few hexadecimal digits. -/
theorem quarter_of_wellFormed {o : Options} {s : Session} (h : s.WellFormed o) :
    ∃ k : Nat, (0 < k ∧ k ≤ 16) ∧ s.store.width = 4 * k := by
  obtain ⟨-, -, hwidth, -⟩ := Options.bounds_of_objection? h.valid
  have hown := h.width
  rcases hwidth with hwidth | hwidth
  · exact ⟨2, by decide, by omega⟩
  · exact ⟨4, by decide, by omega⟩

/-! ### One key -/

/-- How far a key scrolls; most keys do not scroll. -/
def Key.delta? (radius : Int) : Key → Option Int
  | .left | .up => some (-1)
  | .right | .down => some 1
  | .pageUp => some (-radius)
  | .pageDown => some radius
  | .home | .escape | .rune _ | .other => none

namespace Viewer
variable {v : Viewer} {key : Key}

theorem press_of_delta? {d : Int} (h : key.delta? v.radius = some d) : v.press key = (none, v.scroll d) := by
  cases key with
  | left | right | up | down | pageUp | pageDown =>
    obtain rfl := Option.some.inj h
    rfl
  | home | escape | rune | other => cases h

theorem press_home : v.press .home = (none, v.goHome) := rfl

/-- Any other key is handed back, unless it quits, and nothing happens. -/
theorem press_other (h : key.delta? v.radius = none) (hhome : key ≠ .home) :
    v.press key = (if quits key then none else some key, v) := by
  cases key with
  | left | right | up | down | pageUp | pageDown => cases h
  | home => exact absurd rfl hhome
  | escape | rune | other => rfl

/-- The viewer after keys one after the other. A key that quits does not keep it from reacting to the next. -/
def after (v : Viewer) (keys : List Key) : Viewer := keys.foldl (fun v key => (v.press key).2) v

theorem after_concat (v : Viewer) (keys : List Key) (key : Key) :
    v.after (keys ++ [key]) = ((v.after keys).press key).2 := List.foldl_append

end Viewer

/-! ### Many keys -/

/-- How far the keys since the last `home` scroll together. -/
def scrolled (radius : Int) (keys : List Key) : Int :=
  (keys.rtakeWhile (· != .home)).foldl (fun total key => total + (key.delta? radius).getD 0) 0

theorem scrolled_home (radius : Int) (keys : List Key) : scrolled radius (keys ++ [.home]) = 0 := by
  rw [scrolled, List.rtakeWhile_concat, if_neg (by decide)]
  rfl

theorem scrolled_concat (radius : Int) (keys : List Key) {key : Key} (h : key ≠ .home) :
    scrolled radius (keys ++ [key]) = scrolled radius keys + (key.delta? radius).getD 0 := by
  rw [scrolled, List.rtakeWhile_concat, if_pos (bne_iff_ne.mpr h), List.foldl_concat, scrolled]

namespace Viewer

/-- The viewer shows the tape of `s`, and its centre is `distance` cells away from the pointer, counted around the
ring. -/
structure IsAt (s : Session) (distance : Int) (v : Viewer) : Prop where
  store : v.store = s.store
  radius : v.radius = 16
  center : v.center = (s.store.pointer + distance) % s.store.size

section
variable {o : Options} {s : Session} {distance : Int} {v : Viewer}

theorem IsAt.range (h : v.IsAt s distance) (hs : s.WellFormed o) : 0 ≤ v.center ∧ v.center < s.store.size := by
  have hpos : (0 : Int) < s.store.size := Int.natCast_pos.mpr hs.size_pos
  rw [h.center]
  exact ⟨Int.emod_nonneg _ (Int.ne_of_gt hpos), Int.emod_lt_of_pos _ hpos⟩

theorem size_le_of_wellFormed (hs : s.WellFormed o) : s.store.size ≤ 16777216 := by
  obtain ⟨-, hlarge, -⟩ := Options.bounds_of_objection? hs.valid
  have hsize := hs.size
  have hgreatest : Options.greatestTapeSize = 16777216 := rfl
  omega

/-- Scrolling adds up: the centre is brought back into the ring at every key, and the sum is a word. -/
theorem IsAt.scroll (h : v.IsAt s distance) (hs : s.WellFormed o) {d : Int} (hd : -16 ≤ d ∧ d ≤ 16) :
    (v.scroll d).IsAt s (distance + d) := by
  refine ⟨h.store, h.radius, ?_⟩
  have hrange := h.range hs
  have hsize := size_le_of_wellFormed hs
  show v.store.tape.address (Word.wrap (v.center + d)) = _
  rw [Word.wrap_eq_self (by omega), h.center, h.store]
  exact (Int.emod_add_emod ..).trans (by rw [Int.add_assoc])

theorem IsAt.goHome (h : v.IsAt s distance) (hs : s.WellFormed o) : v.goHome.IsAt s 0 := by
  refine ⟨h.store, h.radius, ?_⟩
  show v.store.pointer = _
  rw [h.store, Int.add_zero]
  exact (Int.emod_eq_of_lt hs.tape.pointer.1 hs.tape.pointer.2).symm

theorem delta?_bounds {key : Key} {d : Int} (h : key.delta? 16 = some d) : -16 ≤ d ∧ d ≤ 16 := by
  cases key with
  | left | right | up | down | pageUp | pageDown =>
    obtain rfl := Option.some.inj h
    decide
  | home | escape | rune | other => cases h

/-- One key more. -/
theorem IsAt.press {keys : List Key} (h : v.IsAt s (scrolled 16 keys)) (hs : s.WellFormed o) (key : Key) :
    (v.press key).2.IsAt s (scrolled 16 (keys ++ [key])) := by
  by_cases hhome : key = .home
  · subst hhome
    rw [press_home, scrolled_home]
    exact h.goHome hs
  · rw [scrolled_concat 16 keys hhome]
    cases hdelta : key.delta? 16 with
    | none =>
      rw [press_other (by rw [h.radius, hdelta]) hhome, Option.getD_none, Int.add_zero]
      exact h
    | some d =>
      rw [press_of_delta? (by rw [h.radius, hdelta]), Option.getD_some]
      exact h.scroll hs (delta?_bounds hdelta)

/-- Any number of keys. -/
theorem IsAt.after (h : v.IsAt s 0) (hs : s.WellFormed o) (keys : List Key) :
    (v.after keys).IsAt s (scrolled 16 keys) := by
  induction keys using List.reverseRecOn with
  | nil => exact h
  | append_singleton keys key ih =>
    rw [after_concat]
    exact ih.press hs key

theorem isAt_create (hs : s.WellFormed o) (title : String) (output : List UInt8) (result : Option Result) :
    (create s title output result).IsAt s 0 := by
  refine ⟨rfl, rfl, ?_⟩
  show s.store.pointer = _
  rw [Int.add_zero]
  exact (Int.emod_eq_of_lt hs.tape.pointer.1 hs.tape.pointer.2).symm

/-- Drawing shows the window around the centre and nothing else. -/
theorem IsAt.drawn (h : v.refresh.IsAt s distance) (hs : s.WellFormed o) :
    ∃ rows, window s.store v.refresh.center v.radius = some rows ∧ v.refresh.table = tableOf rows s.store.width := by
  have hsize := size_le_of_wellFormed hs
  obtain ⟨first, count, -, hwindow⟩ := window_eq (h.range hs) (show 0 ≤ v.radius ∧ _ from h.radius ▸ by decide)
    (Nat.le_trans hsize (by decide))
  refine ⟨_, hwindow, ?_⟩
  obtain ⟨k, hk, hwidth⟩ := quarter_of_wellFormed hs
  have hdigits : s.store.width / 4 ≤ Text.Hex.widest := by
    rw [hwidth, Nat.mul_div_cancel_left k (by decide)]
    exact Nat.le_trans hk.2 (by decide)
  show v.table.fill ((window v.store v.center v.radius).getD []) v.store.width = _
  rw [show v.store = s.store from h.store, show window s.store v.center v.radius = _ from hwindow, Option.getD_some,
    fill_eq_tableOf v.table _ hdigits]

end

/-- What keys have made of a viewer on the tape of `s`, and what the next one will do. -/
structure IsSteeredBy (s : Session) (keys : List Key) (v : Viewer) : Prop where
  store : v.store = s.store
  radius : v.radius = 16
  range : 0 ≤ v.center ∧ v.center < s.store.size
  center : v.center = (s.store.pointer + scrolled v.radius keys) % s.store.size
  /-- A key that scrolls, and `home`, is used up, and the table is then that of the window around the centre. -/
  moves : ∀ key : Key, (key.delta? v.radius).isSome = true ∨ key = .home → (v.press key).1 = none ∧
    ∃ rows, window s.store (v.press key).2.center v.radius = some rows ∧
      (v.press key).2.table = tableOf rows s.store.width
  /-- Any other key changes nothing, and is handed back unless it quits. -/
  others : ∀ key : Key, key.delta? v.radius = none → key ≠ .home →
    (v.press key).2.center = v.center ∧ (v.press key).2.table = v.table ∧
      (v.press key).1 = if key = .escape ∨ key = .rune 'q' then none else some key

theorem quits_iff (key : Key) : quits key = true ↔ key = .escape ∨ key = .rune 'q' := by
  cases key <;> simp [quits]

/-- **The viewer moves around the ring and only looks.** -/
theorem keys_steer {o : Options} {s : Session} (hs : Session.Reachable o s) (title : String) (output : List UInt8)
    (result : Option Result) (keys : List Key) : ((create s title output result).after keys).IsSteeredBy s keys := by
  have hform := hs.wellFormed
  have hat := (isAt_create hform title output result).after hform keys
  generalize (create s title output result).after keys = v at hat
  refine ⟨hat.store, hat.radius, hat.range hform, ?_, ?_, ?_⟩
  · rw [hat.radius]
    exact hat.center
  · rintro key (hscrolls | rfl)
    · obtain ⟨d, hd⟩ := Option.isSome_iff_exists.mp hscrolls
      have hafter := hat.scroll hform (delta?_bounds (hat.radius ▸ hd))
      rw [press_of_delta? hd]
      exact ⟨rfl, hafter.drawn hform⟩
    · exact ⟨rfl, (hat.goHome hform).drawn hform⟩
  · intro key hdelta hhome
    rw [press_other hdelta hhome, if_congr (quits_iff key) rfl rfl]
    exact ⟨rfl, rfl, rfl⟩

/-- A page on a tape of three cells is five times around it and one cell more; a key that quits does not end the
sequence. Of the three cells shown the pointer is at the last. -/
theorem keys_steer_three :
    let start : Session := { options := { tapeSize := 3 }, store := ⟨8, Tape.blank 3⟩ }
    let moved : Session := { start with store := ⟨8, start.store.tape.moveRight⟩ }
    let s : Session := { moved with store := ⟨8, moved.store.tape.setValue 0x4a⟩ }
    let keys : List Key := [.pageDown, .home, .pageUp, .rune 'x', .rune 'q', .left]
    let v := (create s "p.bf" [] none).after keys
    s.store.pointer = 1 ∧ scrolled 16 keys = -17 ∧ v.center = 2 ∧
    v.table =
      [[⟨"Cell", .yellow⟩, ⟨"Dec", .yellow⟩, ⟨"Hex", .yellow⟩, ⟨"Char", .yellow⟩],
        [⟨" 2", .white⟩, ⟨"0", .white⟩, ⟨"0x00", .white⟩, ⟨".", .white⟩],
        [⟨" 0", .white⟩, ⟨"0", .white⟩, ⟨"0x00", .white⟩, ⟨".", .white⟩],
        [⟨">1", .green⟩, ⟨"74", .green⟩, ⟨"0x4a", .green⟩, ⟨"J", .green⟩]] ∧
    v.IsSteeredBy s keys := by
  intro start moved s keys v
  have hmoved : start.store.attempt .moveRight = some moved.store := rfl
  have hset : moved.store.attempt (.setValue 0x4a) = some s.store := rfl
  have hs : Session.Reachable { tapeSize := 3 } s := .operated (.operated (.created rfl) hmoved) hset
  exact ⟨by decide, by decide, by decide, by decide +kernel, keys_steer hs "p.bf" [] none keys⟩

end Viewer
end TapeMachine.Inspect
