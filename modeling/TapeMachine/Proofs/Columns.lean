import Mathlib.Data.List.Forall2
import TapeMachine.Proofs.Viewing

/-! The columns of the table.

Four bits make a hexadecimal digit, and the cells of a session have eight bits or sixteen. So no cell needs more digits
than its column has places for (`Hex.spells_render_cell`), and the values of the rows can be read off the table
(`showsValues_fill`), whatever was on the sheet before. -/
namespace TapeMachine.Inspect
open Text

/-! ### Reading a table -/

def texts (cells : List Cell) : List String := cells.map (·.text)

theorem texts_line (colour : Colour) (ts : List String) : texts (line colour ts) = ts := by
  rw [texts, line, List.map_map]
  exact List.map_id ts

/-- The texts below a header; a missing one is empty. -/
def Sheet.below (t : Sheet) (header : String) : List String :=
  t.tail.map fun cells => (texts cells).getD ((texts (t.headD [])).idxOf header) ""

theorem below_fill (sheet : Sheet) (rows : List Row) (width : Int) (header : String) :
    (sheet.fill rows width).below header = rows.map fun r => (r.texts width).getD (headers.idxOf header) "" := by
  rw [fill_eq, Sheet.below, List.tail_cons, List.headD_cons, List.map_map]
  refine List.map_congr_left fun r _ => ?_
  rw [Function.comp_apply, texts_line, texts_line]

/-- The values of the rows can be read off the table, in decimal and in as many hexadecimal digits as make a cell of
`width` bits. -/
structure ShowsValues (rows : List Row) (width : Nat) (t : Sheet) : Prop where
  decimal : List.Forall₂ (fun r text => Numeral.unsigned text.toList = .ok r.value) rows (t.below "Dec")
  hexadecimal : List.Forall₂ (fun r text => Hex.Spells r.value (width / 4) text) rows (t.below "Hex")

/-! ### Windows of any radius -/

section
variable {s : Store} {center radius : Int} {rows : List Row}

theorem extent_neg_iff (s : Store) (center radius : Int) :
    (extent s center radius).2 < 0 ↔ Word.wrap (2 * radius + 1) < 0 := by
  simp only [extent]
  split
  · next hwhole => exact iff_of_false (by simp) (by omega)
  · exact Iff.rfl

/-- There is a window unless the number of its rows, as a word, is negative. -/
theorem window_eq_none_iff : window s center radius = none ↔ Word.wrap (2 * radius + 1) < 0 := by
  rw [← extent_neg_iff s center radius]
  simp [window]

theorem value_lt_of_window (h : window s center radius = some rows) {r : Row} (hr : r ∈ rows) :
    r.value < Nat.pow 2 s.width := by
  simp only [window] at h
  split at h
  · cases h
  · obtain rfl := Option.some.inj h
    obtain ⟨i, -, rfl⟩ := List.mem_map.mp hr
    exact BitVec.isLt _

theorem showsValues_fill {k : Nat} (hk : 0 < k ∧ k ≤ 16) (hwidth : s.width = 4 * k)
    (h : window s center radius = some rows) (sheet : Sheet) :
    ShowsValues rows s.width (sheet.fill rows s.width) := by
  have hvalue {r : Row} (hr : r ∈ rows) : r.value < Nat.pow 2 (4 * k) := hwidth ▸ value_lt_of_window h hr
  have hdigits : (s.width : Int).tdiv 4 = k := by
    rw [hwidth, Int.natCast_mul]
    exact Int.mul_tdiv_cancel_left _ (by decide)
  constructor
  · rw [below_fill, List.forall₂_map_right_iff, List.forall₂_same]
    intro r hr
    show Numeral.unsigned (toString r.value).toList = .ok r.value
    rw [Nat.toString_eq_ofList_toDigits, String.toList_ofList]
    exact Numeral.unsigned_digits (Hex.le_greatest_of_lt_pow hk.2 (hvalue hr))
  · rw [below_fill, List.forall₂_map_right_iff, List.forall₂_same]
    intro r hr
    show Hex.Spells r.value (s.width / 4) (Hex.render r.value ((s.width : Int).tdiv 4))
    rw [hdigits, hwidth, Nat.mul_div_cancel_left k (by decide)]
    exact Hex.spells_render_cell hk (hvalue hr)

end

/-! ### The columns of a session -/

/-- **A column spells its value unless it is too wide, and the table of a session shows the values of its cells.** -/
theorem columns_read_back (digits : Nat) :
    (∀ value : UInt64,
      Hex.Spells value.toNat (max digits (Hex.size value.toNat)) (Hex.render value.toNat digits) ↔
        digits ≤ Hex.widest) ∧
    (Function.Injective fun value : UInt64 => Hex.render value.toNat digits) ∧
    ∀ (o : Options) (s : Session), Session.Reachable o s → ∀ center radius : Int,
      (window s.store center radius = none ↔ Word.wrap (2 * radius + 1) < 0) ∧
      ∀ rows, window s.store center radius = some rows → ∀ sheet : Sheet,
        ShowsValues rows s.store.width (sheet.fill rows s.store.width) := by
  have hword (value : UInt64) : value.toNat ≤ Word.unsignedGreatest := Nat.le_of_lt_succ value.toNat_lt
  refine ⟨fun value => ⟨fun hspells => ?_, Hex.spells_render (hword value)⟩, fun value value' h => ?_, ?_⟩
  · exact Nat.le_of_not_lt fun hwide => Hex.not_spells_of_too_wide hwide _ _ hspells
  · exact UInt64.toNat_inj.mp (Hex.render_injective (hword value) (hword value') digits h)
  · intro o s hs center radius
    obtain ⟨k, hk, hwidth⟩ := quarter_of_wellFormed hs.wellFormed
    exact ⟨window_eq_none_iff, fun rows hrows sheet => showsValues_fill hk hwidth hrows sheet⟩

/-- A number in a column wider than itself, and a tape of three cells of sixteen bits. -/
theorem columns_read_back_sixteen :
    let start : Session := { options := { tapeSize := 3, cellWidth := 16 }, store := ⟨16, Tape.blank 3⟩ }
    let s : Session := { start with store := ⟨16, start.store.tape.setValue 0xbeef⟩ }
    let rows : List Row := [⟨0, 0xbeef, true⟩, ⟨1, 0, false⟩, ⟨2, 0, false⟩]
    Hex.render 255 4 = "0x00ff" ∧ Hex.Spells 255 (max 4 (Hex.size 255)) (Hex.render 255 4) ∧
    window s.store 0 1 = some rows ∧ (Sheet.fill [] rows 16).below "Hex" = ["0xbeef", "0x0000", "0x0000"] ∧
    ShowsValues rows 16 (Sheet.fill [] rows 16) := by
  intro start s rows
  have hset : start.store.attempt (.setValue 0xbeef) = some s.store := rfl
  have hs : Session.Reachable { tapeSize := 3, cellWidth := 16 } s := .operated (.created rfl) hset
  have hrows : window s.store 0 1 = some rows := by decide
  obtain ⟨hspells, -, htable⟩ := columns_read_back 4
  exact ⟨by decide, (hspells 255).mpr (by decide), hrows, by decide, (htable _ s hs 0 1).2 rows hrows []⟩

/-- One place beyond the widest column there are no digits behind the mark. -/
theorem no_digits_beyond_widest :
    Hex.render 0 10000010 = "0x%!(NOVERB)%!(EXTRA string=0)" ∧
    ¬Hex.Spells 0 (max 10000010 (Hex.size 0)) (Hex.render 0 10000010) :=
  ⟨by decide, Hex.not_spells_of_too_wide (show Hex.widest < 10000010 by decide) _ _⟩

end TapeMachine.Inspect
