import Mathlib.Data.List.Nodup
import Mathlib.Data.List.Range
import TapeMachine.Inspect.Window
import TapeMachine.Proofs.Atomicity

/-! Windows on the tape.

The positions of a window are words: the first may lie before the tape and the last behind it, and each is brought back
into the ring by a remainder. No tape that can be made is so long that a word overflows on the way (`window_eq`), so the
addresses are those of consecutive cells (`around`). They are at most as many as the ring has cells, and so no cell is
met twice (`nodup_around`); with as many, each is met (`mem_around`). -/
namespace TapeMachine

theorem Word.wrap_eq_self {i : Int} (h : -9223372036854775808 ≤ i ∧ i ≤ 9223372036854775807) : wrap i = i :=
  wrap_of_fits (decide_eq_true h)

/-- There are stores as wide and as long as this one: its cells have one of the widths that cells can have, and a blank
tape of as many can be made. -/
structure Store.IsMakeable (s : Store) : Prop where
  width : s.width ∈ Word.cellSizes.map (8 * ·)
  blank : (Store.blank? s.width s.size).isSome = true

theorem Store.IsMakeable.size_le {s : Store} (h : s.IsMakeable) : s.size ≤ Tape.greatestExtent := by
  have hwidth : 1 ≤ s.width / 8 := by
    obtain ⟨bytes, hbytes, heq⟩ := List.mem_map.mp h.width
    have hpos : ∀ bytes ∈ Word.cellSizes, 1 ≤ bytes := by decide
    have := hpos bytes hbytes
    omega
  have hextent := h.blank
  unfold Store.blank? Tape.blank? at hextent
  split at hextent
  · cases hextent
  · next hno =>
    have hroom : s.size * (s.width / 8) ≤ Tape.greatestExtent := Nat.le_of_not_lt fun hlt => hno (.inr hlt)
    exact Nat.le_trans (Nat.le_mul_of_pos_right _ hwidth) hroom

namespace Inspect

/-! ### Cells in a row -/

/-- The addresses of `count` cells in a row around a ring of `n` cells, from position `first` on. -/
def around (n : Nat) (first : Int) (count : Nat) : List Int := (List.range count).map fun i : Nat => (first + i) % n

section
variable {n count : Nat} {first a : Int}

theorem getElem?_around {i : Nat} (h : i < count) : (around n first count)[i]? = some ((first + i) % n) := by
  rw [around, List.getElem?_map, List.getElem?_range h, Option.map_some]

/-- Positions that are less than the ring apart are not at one address. -/
theorem eq_of_emod_eq {i j : Nat} (hi : i < n) (hj : j < n) (h : (first + i) % (n : Int) = (first + j) % n) : i = j := by
  have hdvd : (n : Int) ∣ i - j := by
    have hzero := Int.emod_eq_emod_iff_emod_sub_eq_zero.mp h
    rw [Int.add_sub_add_left] at hzero
    exact Int.dvd_of_emod_eq_zero hzero
  have hsame := Int.eq_zero_of_dvd_of_natAbs_lt_natAbs hdvd (by omega)
  omega

theorem nodup_around (h : count ≤ n) : (around n first count).Nodup := by
  refine List.Nodup.map_on (fun i hi j hj hsame => ?_) List.nodup_range
  rw [List.mem_range] at hi hj
  exact eq_of_emod_eq (Nat.lt_of_lt_of_le hi h) (Nat.lt_of_lt_of_le hj h) hsame

theorem range_around (hn : 0 < n) (h : a ∈ around n first count) : 0 ≤ a ∧ a < n := by
  obtain ⟨i, -, rfl⟩ := List.mem_map.mp h
  exact ⟨Int.emod_nonneg _ (by omega), Int.emod_lt_of_pos _ (by omega)⟩

theorem isChain_around : (around n first count).IsChain fun a b : Int => b = (a + 1) % n := by
  rw [around, List.isChain_map, List.isChain_iff_getElem]
  intro i hi
  rw [List.getElem_range, List.getElem_range, Int.emod_add_emod, Int.natCast_succ, Int.add_assoc]

/-- Once around the ring every address is met. -/
theorem mem_around (ha : 0 ≤ a ∧ a < n) : a ∈ around n first n := by
  refine List.mem_map.mpr ⟨((a - first) % n).toNat, ?_, ?_⟩
  · have hlt := Int.emod_lt_of_pos (a - first) (show (0 : Int) < n by omega)
    rw [List.mem_range]
    omega
  · rw [Int.toNat_of_nonneg (Int.emod_nonneg _ (by omega)), Int.add_emod_emod, Int.add_comm, Int.sub_add_cancel]
    exact Int.emod_eq_of_lt ha.1 ha.2

end

/-! ### Windows -/

/-- Where a window around `center` begins, and how many rows it has. -/
structure Extent (s : Store) (center radius first : Int) (count : Nat) : Prop where
  count : (count : Int) = min (2 * radius + 1) s.size
  middle : 2 * radius + 1 < s.size → first = center - radius
  whole : s.size ≤ 2 * radius + 1 → first = center

section
variable {s : Store} {center radius : Int}

theorem extent_eq (hcenter : 0 ≤ center ∧ center < s.size) (hradius : 0 ≤ radius ∧ radius < Nat.pow 2 62)
    (hsize : s.size ≤ Tape.greatestExtent) : ∃ (first : Int) (count : Nat),
      extent s center radius = (first, (count : Int)) ∧ Extent s center radius first count ∧
      -radius ≤ first ∧ first < s.size := by
  have hsize' : s.size ≤ 281474976710656 := hsize
  have hradius' : radius < 4611686018427387904 := hradius.2
  unfold extent
  rw [Word.wrap_eq_self (show _ ≤ 2 * radius + 1 ∧ _ by omega),
    Word.wrap_eq_self (show _ ≤ center - radius ∧ _ by omega)]
  by_cases hwhole : (s.size : Int) ≤ 2 * radius + 1
  · exact ⟨center, s.size, if_pos hwhole, ⟨by omega, by omega, fun _ => rfl⟩, by omega, by omega⟩
  · refine ⟨center - radius, (2 * radius + 1).toNat, ?_, ⟨by omega, fun _ => rfl, by omega⟩, by omega, by omega⟩
    rw [if_neg hwhole, Int.toNat_of_nonneg (by omega)]

/-- The rows of a window are those of consecutive positions: no word overflows. -/
theorem window_eq (hcenter : 0 ≤ center ∧ center < s.size) (hradius : 0 ≤ radius ∧ radius < Nat.pow 2 62)
    (hsize : s.size ≤ Tape.greatestExtent) : ∃ (first : Int) (count : Nat), Extent s center radius first count ∧
      window s center radius = some ((List.range count).map fun i : Nat => row s (first + i)) := by
  obtain ⟨first, count, hextent, h, hlow, hhigh⟩ := extent_eq hcenter hradius hsize
  refine ⟨first, count, h, ?_⟩
  have hsize' : s.size ≤ 281474976710656 := hsize
  have hradius' : radius < 4611686018427387904 := hradius.2
  simp only [window, hextent, if_neg (show ¬(count : Int) < 0 by omega), Int.toNat_natCast]
  refine congrArg some (List.map_congr_left fun i hi => ?_)
  rw [List.mem_range] at hi
  have hcount := h.count
  rw [Word.wrap_eq_self (by omega)]

end

/-! ### Rows -/

/-- The addresses that rows are about. -/
def addresses (rows : List Row) : List Int := rows.map (·.address)

section
variable {s : Store}

theorem addresses_rows (s : Store) (first : Int) (count : Nat) :
    addresses ((List.range count).map fun i : Nat => row s (first + i)) = around s.size first count := by
  rw [addresses, List.map_map]
  rfl

/-- A row shows the cell at its address. -/
theorem value_row (hn : 0 < s.size) (i : Int) :
    (s.tape.cells[(row s i).address.toNat]?).map (·.toNat) = some (row s i).value := by
  have hlt : (i % (s.size : Int)).toNat < s.tape.cells.size := by
    have hpos : (0 : Int) < s.size := by omega
    have hbound := Int.emod_lt_of_pos i hpos
    have hnonneg := Int.emod_nonneg i (Int.ne_of_gt hpos)
    show _ < s.size
    omega
  show (s.tape.cells[(i % (s.size : Int)).toNat]?).map (·.toNat) =
    some (s.tape.cells.getD (i % (s.size : Int) % (s.size : Int)).toNat 0).toNat
  rw [Int.emod_emod, Array.getD_eq_getD_getElem?, Array.getElem?_eq_getElem hlt]
  rfl

theorem current_row (s : Store) (i : Int) : (row s i).current = true ↔ (row s i).address = s.pointer := beq_iff_eq

/-- As many rows are marked as the pointer is among the addresses. -/
theorem countP_current {rows : List Row} (h : ∀ r ∈ rows, r.current = true ↔ r.address = s.pointer) :
    rows.countP (·.current) = (addresses rows).count s.pointer := by
  rw [List.count_eq_countP, addresses, List.countP_map]
  refine List.countP_congr fun r hr => ?_
  rw [h r hr, Function.comp_apply, beq_iff_eq]

end

/-- What a window of a radius shows around a centre. -/
structure ShowsAround (s : Store) (center radius : Int) (rows : List Row) : Prop where
  length : (rows.length : Int) = min (2 * radius + 1) s.size
  distinct : (addresses rows).Nodup
  range : ∀ a ∈ addresses rows, 0 ≤ a ∧ a < s.size
  /-- Each row is about the cell behind that of the row before. -/
  consecutive : (addresses rows).IsChain fun a b : Int => b = (a + 1) % s.size
  /-- The radius is the number of rows before the centre, if the tape is longer than the window. -/
  middle : 2 * radius + 1 < s.size → (addresses rows)[radius.toNat]? = some center
  /-- Otherwise the whole tape is listed, from the centre on. -/
  whole : s.size ≤ 2 * radius + 1 → (addresses rows)[0]? = some center ∧
    ∀ a : Int, 0 ≤ a → a < s.size → (addresses rows).count a = 1
  values : ∀ r ∈ rows, (s.tape.cells[r.address.toNat]?).map (·.toNat) = some r.value
  current : ∀ r ∈ rows, r.current = true ↔ r.address = s.pointer
  once : rows.countP (·.current) ≤ 1 ∧ (rows.countP (·.current) = 1 ↔ s.pointer ∈ addresses rows)

/-- **A window shows consecutive, distinct cells around its centre.** -/
theorem window_shows_around {s : Store} (hs : s.IsMakeable) {center radius : Int}
    (hcenter : 0 ≤ center ∧ center < s.size) (hradius : 0 ≤ radius ∧ radius < Nat.pow 2 62) :
    ∃ rows, window s center radius = some rows ∧ ShowsAround s center radius rows := by
  have hn : 0 < s.size := by omega
  obtain ⟨first, count, hextent, hwindow⟩ := window_eq hcenter hradius hs.size_le
  have hcount := hextent.count
  have haddresses := addresses_rows s first count
  have hdistinct : (around s.size first count).Nodup := nodup_around (by omega)
  have hcurrent : ∀ r ∈ (List.range count).map fun i : Nat => row s (first + i),
      r.current = true ↔ r.address = s.pointer := by
    intro r hr
    obtain ⟨i, -, rfl⟩ := List.mem_map.mp hr
    exact current_row s _
  refine ⟨_, hwindow, ?_, ?_, ?_, ?_, ?_, ?_, ?_, hcurrent, ?_⟩
  · rw [List.length_map, List.length_range, hcount]
  · rw [haddresses]
    exact hdistinct
  · rw [haddresses]
    exact fun a ha => range_around hn ha
  · rw [haddresses]
    exact isChain_around
  · intro hlong
    rw [haddresses, getElem?_around (by omega), hextent.middle hlong, Int.toNat_of_nonneg hradius.1, Int.sub_add_cancel,
      Int.emod_eq_of_lt hcenter.1 hcenter.2]
  · intro hshort
    obtain rfl : count = s.size := by omega
    obtain rfl := hextent.whole hshort
    rw [haddresses]
    refine ⟨?_, fun a hlow hhigh => List.count_eq_one_of_mem hdistinct (mem_around ⟨hlow, hhigh⟩)⟩
    rw [getElem?_around hn, Int.natCast_zero, Int.add_zero, Int.emod_eq_of_lt hcenter.1 hcenter.2]
  · intro r hr
    obtain ⟨i, -, rfl⟩ := List.mem_map.mp hr
    exact value_row hn _
  · rw [countP_current hcurrent, haddresses, hdistinct.count]
    split <;> simp_all

/-- A window over the end of a tape of five cells, and one that is as wide as the tape. -/
theorem window_shows_around_five :
    let s : Store := ⟨8, ⟨#[1, 2, 3, 4, 5], 4⟩⟩
    window s 0 1 = some [⟨4, 5, true⟩, ⟨0, 1, false⟩, ⟨1, 2, false⟩] ∧
    ShowsAround s 0 1 [⟨4, 5, true⟩, ⟨0, 1, false⟩, ⟨1, 2, false⟩] ∧
    ∃ rows, window s 3 2 = some rows ∧ addresses rows = [3, 4, 0, 1, 2] ∧ ShowsAround s 3 2 rows := by
  intro s
  have hs : s.IsMakeable := ⟨by decide, by decide⟩
  have hnarrow : window s 0 1 = some [⟨4, 5, true⟩, ⟨0, 1, false⟩, ⟨1, 2, false⟩] := by decide
  have hwide : (window s 3 2).map addresses = some [3, 4, 0, 1, 2] := by decide
  obtain ⟨rows, hrows, hshows⟩ := window_shows_around hs (show 0 ≤ (0 : Int) ∧ _ by decide)
    (show 0 ≤ (1 : Int) ∧ _ by decide)
  obtain ⟨rows', hrows', hshows'⟩ := window_shows_around hs (show 0 ≤ (3 : Int) ∧ _ by decide)
    (show 0 ≤ (2 : Int) ∧ _ by decide)
  obtain rfl := Option.some.inj (hnarrow.symm.trans hrows)
  rw [hrows', Option.map_some, Option.some.injEq] at hwide
  exact ⟨hnarrow, hshows, rows', hrows', hwide, hshows'⟩

end Inspect
end TapeMachine
