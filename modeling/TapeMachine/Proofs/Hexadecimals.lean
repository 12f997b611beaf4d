import Mathlib.Data.Nat.Log
import TapeMachine.Proofs.Decimals
import TapeMachine.Text.Hex

/-! Hexadecimal numbers.

A column is the mark `0x` and the digits of a number, filled up with zeros. The digits are read back as the number, and
the zeros before them do not count (`magnitude_zeros`). A column that is too wide is not written, and what is told in its
place has a percent sign where the digits should be (`not_spells_of_too_wide`); the digits are still told there, so that
different numbers never look the same (`render_injective`). -/
namespace TapeMachine.Text.Hex
open Numeral

/-! ### Digits -/

/-- The lower-case hexadecimal digits. -/
def alphabet : List Char := ['0', '1', '2', '3', '4', '5', '6', '7', '8', '9', 'a', 'b', 'c', 'd', 'e', 'f']

/-- The number of hexadecimal digits of `n`. Zero has one. -/
def size (n : Nat) : Nat := Nat.log 16 n + 1

theorem digitChar_mem_alphabet {d : Nat} (h : d < 16) : d.digitChar ∈ alphabet := by
  have hall : ∀ d < 16, Nat.digitChar d ∈ alphabet := by decide
  exact hall d h

theorem mem_alphabet_of_mem_digits {n : Nat} {c : Char} (h : c ∈ digits n) : c ∈ alphabet := by
  unfold digits at h
  induction n using Nat.base_induction 16 (by decide) with
  | single m hm =>
    rw [Nat.toDigits_of_lt_base hm, List.mem_singleton] at h
    exact h ▸ digitChar_mem_alphabet hm
  | digit m d hd hm ih =>
    rw [← Nat.toDigits_append_toDigits (by decide) hm hd, Nat.toDigits_of_lt_base hd, List.mem_append,
      List.mem_singleton] at h
    rcases h with hfront | hlast
    · exact ih hfront
    · exact hlast ▸ digitChar_mem_alphabet hd

theorem size_le_iff {n k : Nat} (hk : 0 < k) : size n ≤ k ↔ n < Nat.pow 16 k :=
  ⟨Nat.lt_pow_of_log_lt (by decide), Nat.log_lt_of_lt_pow' (Nat.ne_of_gt hk)⟩

theorem length_digits (n : Nat) : (digits n).length = size n := by
  -- Both are the least number of digits that are enough for `n`.
  have hiff {k : Nat} (hk : 0 < k) : (digits n).length ≤ k ↔ size n ≤ k :=
    (Nat.length_toDigits_le_iff (by decide) hk).trans (size_le_iff hk).symm
  exact Nat.le_antisymm ((hiff (Nat.succ_pos _)).mpr (Nat.le_refl _))
    ((hiff Nat.length_toDigits_pos).mp (Nat.le_refl _))

theorem le_greatest_of_lt_pow {n k : Nat} (hk : k ≤ 16) (h : n < Nat.pow 2 (4 * k)) : n ≤ Word.unsignedGreatest :=
  Nat.le_of_lt_succ (Nat.lt_of_lt_of_le h (Nat.pow_le_pow_right (by decide) (show 4 * k ≤ 64 by omega)))

theorem magnitude_hexDigits {n : Nat} (h : n ≤ Word.unsignedGreatest) : magnitude 16 false 0 (digits n) = .ok n :=
  magnitude_toDigits (by decide) false h

/-- Zeros before the digits do not count. -/
theorem magnitude_zeros (k : Nat) (s : List Char) :
    magnitude 16 false 0 (List.replicate k '0' ++ s) = magnitude 16 false 0 s := by
  induction k with
  | zero => rfl
  | succ k ih =>
    rw [List.replicate_succ, List.cons_append]
    exact (magnitude_digitChar (d := 0) (Nat.le_refl 16) false (by decide) (by decide) _).trans ih

theorem digits_injective {m n : Nat} (hm : m ≤ Word.unsignedGreatest) (hn : n ≤ Word.unsignedGreatest)
    (h : digits m = digits n) : m = n := by
  have hread := magnitude_hexDigits hm
  rw [h, magnitude_hexDigits hn] at hread
  exact (Except.ok.inj hread).symm

/-! ### Columns -/

/-- The text is the mark and `count` lower-case digits, and these are read as `value`. -/
def Spells (value count : Nat) (text : String) : Prop :=
  ∃ ds : List Char, text.toList = '0' :: 'x' :: ds ∧ ds.length = count ∧ (∀ c ∈ ds, c ∈ alphabet) ∧
    magnitude 16 false 0 ds = .ok value

/-- No text spells two values. -/
theorem Spells.value_unique {m n k l : Nat} {text : String} (hm : Spells m k text) (hn : Spells n l text) : m = n := by
  obtain ⟨ds, htext, -, -, hread⟩ := hm
  obtain ⟨ds', htext', -, -, hread'⟩ := hn
  obtain rfl : ds = ds' := by
    rw [htext] at htext'
    exact (List.cons.inj (List.cons.inj htext').2).2
  rw [hread] at hread'
  exact Except.ok.inj hread'

section
variable {n width : Nat}

theorem render_of_le (h : width ≤ widest) :
    render n width = String.ofList ('0' :: 'x' :: padLeft width '0' (digits n)) := by
  rw [render, Int.natAbs_natCast, if_neg (Nat.not_lt.mpr h), column, if_pos (Int.natCast_nonneg width),
    Int.toNat_natCast]

theorem render_of_lt (h : widest < width) :
    render n width = "0x%!(NOVERB)%!(EXTRA string=" ++ String.ofList (digits n) ++ ")" := by
  rw [render, Int.natAbs_natCast, if_pos h]

theorem spells_render (hn : n ≤ Word.unsignedGreatest) (h : width ≤ widest) :
    Spells n (max width (size n)) (render n width) := by
  refine ⟨padLeft width '0' (digits n), ?_, ?_, ?_, ?_⟩
  · rw [render_of_le h, String.toList_ofList]
  · rw [padLeft, List.length_append, List.length_replicate, length_digits]
    omega
  · intro c hc
    rcases List.mem_append.mp hc with hzero | hdigit
    · rw [List.eq_of_mem_replicate hzero]
      decide
    · exact mem_alphabet_of_mem_digits hdigit
  · rw [padLeft, magnitude_zeros, magnitude_hexDigits hn]

/-- A cell of `4 * k` bits fills `k` digits. -/
theorem spells_render_cell {k : Nat} (hk : 0 < k ∧ k ≤ 16) (hn : n < Nat.pow 2 (4 * k)) : Spells n k (render n k) := by
  have hsize : size n ≤ k := (size_le_iff hk.1).mpr (Nat.lt_of_lt_of_eq hn (Nat.pow_mul ..))
  have hspells := spells_render (le_greatest_of_lt_pow hk.2 hn) (Nat.le_trans hk.2 (show 16 ≤ widest by decide))
  rwa [Nat.max_eq_left hsize] at hspells

theorem not_spells_of_too_wide (h : widest < width) (value count : Nat) : ¬Spells value count (render n width) := by
  rintro ⟨ds, htext, -, hdigits, -⟩
  rw [render_of_lt h, String.toList_append, String.toList_append] at htext
  -- What is told begins with the mark, and a percent sign follows.
  have hpercent : '%' ∈ ds := by
    rw [← (List.cons.inj (List.cons.inj htext).2).2]
    exact List.mem_cons_self ..
  exact absurd (hdigits _ hpercent) (by decide)

end

/-- Different words look different in a column of any width. -/
theorem render_injective {m n : Nat} (hm : m ≤ Word.unsignedGreatest) (hn : n ≤ Word.unsignedGreatest) (width : Nat)
    (h : render m width = render n width) : m = n := by
  by_cases hwide : width ≤ widest
  · exact (spells_render hm hwide).value_unique (h ▸ spells_render hn hwide)
  · rw [render_of_lt (Nat.not_le.mp hwide), render_of_lt (Nat.not_le.mp hwide)] at h
    have hlist := congrArg String.toList h
    simp only [String.toList_append, String.toList_ofList] at hlist
    exact digits_injective hm hn (List.append_cancel_left (List.append_cancel_right hlist))

end TapeMachine.Text.Hex
