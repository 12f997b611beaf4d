import Mathlib.Data.List.Nodup
import Mathlib.Data.List.Perm.Subperm
import TapeMachine.Proofs.Tree

/-! Brackets without a partner.

Brackets can be paired without reading a program in any direction: take an opening bracket and a closing one after it,
both without a partner and with none but paired brackets between them, and repeat this as long as there are any
(`Pairing`, `IsCanonical`). Whatever is taken first, this comes to an end, no two pairs cross (`IsNested`), and the
brackets left over are the ones that `resolve` finds fault with. The scan from the right keeps as waiting just the
closing brackets whose partner, if they have one, comes further left (`Awaits`), so each opening bracket takes the
partner that the pairing gives it. -/
namespace TapeMachine.Brackets

/-! ### Pairing in any order -/

/-- The position is in one of the pairs. -/
def IsPaired (pairs : List (Nat × Nat)) (i : Nat) : Prop := ∃ p ∈ pairs, p.1 = i ∨ p.2 = i

/-- The positions of an opening bracket and a later closing one, both without a partner, that have none but paired
brackets between them. -/
structure CanPair (program : Program) (pairs : List (Nat × Nat)) (i j : Nat) : Prop where
  lt : i < j
  opens : program[i]? = some opening
  closes : program[j]? = some closing
  openFree : ¬IsPaired pairs i
  closeFree : ¬IsPaired pairs j
  between : ∀ k b, i < k → k < j → program[k]? = some b → isBracket b = true → IsPaired pairs k

/-- Pairs that are made one after the other. -/
inductive Pairing (program : Program) : List (Nat × Nat) → Prop
  | nil : Pairing program []
  | pair {pairs : List (Nat × Nat)} {i j : Nat} : Pairing program pairs → CanPair program pairs i j →
      Pairing program ((i, j) :: pairs)

/-- Pairs made as long as there were any to make. -/
structure IsCanonical (program : Program) (pairs : List (Nat × Nat)) : Prop where
  pairing : Pairing program pairs
  complete : ∀ i j, ¬CanPair program pairs i j

/-- The position holds the bracket `b`, and no pair has it. -/
structure Unmatched (program : Program) (pairs : List (Nat × Nat)) (b : UInt8) (i : Nat) : Prop where
  holds : program[i]? = some b
  free : ¬IsPaired pairs i

variable {program : Program} {pairs : List (Nat × Nat)}

/-- Pairs of brackets of which each has one partner, and which do not cross: what is between the brackets of a pair is
paired there. -/
structure IsNested (program : Program) (pairs : List (Nat × Nat)) : Prop where
  lt : ∀ p ∈ pairs, p.1 < p.2
  opens : ∀ p ∈ pairs, program[p.1]? = some opening
  closes : ∀ p ∈ pairs, program[p.2]? = some closing
  once : (pairs.map Prod.fst).Nodup
  unique : ∀ p ∈ pairs, ∀ q ∈ pairs, p.2 = q.2 → p = q
  inside : ∀ p ∈ pairs, ∀ k b, p.1 < k → k < p.2 → program[k]? = some b → isBracket b = true →
    ∃ q ∈ pairs, (q.1 = k ∨ q.2 = k) ∧ p.1 < q.1 ∧ q.2 < p.2

/-- A pair that can be made crosses none of those made before. -/
theorem CanPair.inside {i j : Nat} (hcan : CanPair program pairs i j) (h : IsNested program pairs) {k : Nat} {b : UInt8}
    (hik : i < k) (hkj : k < j) (hk : program[k]? = some b) (hb : isBracket b = true) :
    ∃ q ∈ pairs, (q.1 = k ∨ q.2 = k) ∧ i < q.1 ∧ q.2 < j := by
  obtain ⟨q, hq, hqk⟩ := hcan.between k b hik hkj hk hb
  have hne : q.1 ≠ i ∧ q.2 ≠ j := ⟨fun hi => hcan.openFree ⟨q, hq, .inl hi⟩, fun hj => hcan.closeFree ⟨q, hq, .inr hj⟩⟩
  have hlt := h.lt q hq
  -- A bracket of the new pair that stood inside of `q` would have a partner already.
  have hopen : ¬(q.1 < i ∧ i < q.2) := by
    intro hin
    obtain ⟨r, hr, hri, -⟩ := h.inside q hq i opening hin.1 hin.2 hcan.opens rfl
    exact hcan.openFree ⟨r, hr, hri⟩
  have hclose : ¬(q.1 < j ∧ j < q.2) := by
    intro hin
    obtain ⟨r, hr, hrj, -⟩ := h.inside q hq j closing hin.1 hin.2 hcan.closes rfl
    exact hcan.closeFree ⟨r, hr, hrj⟩
  exact ⟨q, hq, hqk, by omega, by omega⟩

theorem IsNested.pair {i j : Nat} (h : IsNested program pairs) (hcan : CanPair program pairs i j) :
    IsNested program ((i, j) :: pairs) where
  lt := List.forall_mem_cons.mpr ⟨hcan.lt, h.lt⟩
  opens := List.forall_mem_cons.mpr ⟨hcan.opens, h.opens⟩
  closes := List.forall_mem_cons.mpr ⟨hcan.closes, h.closes⟩
  once := by
    refine List.nodup_cons.mpr ⟨fun hmem => ?_, h.once⟩
    obtain ⟨q, hq, hi⟩ := List.mem_map.mp hmem
    exact hcan.openFree ⟨q, hq, .inl hi⟩
  unique := by
    intro p hp q hq heq
    rcases List.mem_cons.mp hp with rfl | hp
    · rcases List.mem_cons.mp hq with rfl | hq
      · rfl
      · exact absurd ⟨q, hq, .inr heq.symm⟩ hcan.closeFree
    · rcases List.mem_cons.mp hq with rfl | hq
      · exact absurd ⟨p, hp, .inr heq⟩ hcan.closeFree
      · exact h.unique p hp q hq heq
  inside := by
    intro p hp k b hlo hhi hk hb
    have hfound : ∃ q ∈ pairs, (q.1 = k ∨ q.2 = k) ∧ p.1 < q.1 ∧ q.2 < p.2 := by
      rcases List.mem_cons.mp hp with rfl | hp
      · exact hcan.inside h hlo hhi hk hb
      · exact h.inside p hp k b hlo hhi hk hb
    obtain ⟨q, hq, hrest⟩ := hfound
    exact ⟨q, List.mem_cons_of_mem _ hq, hrest⟩

theorem Pairing.isNested (h : Pairing program pairs) : IsNested program pairs := by
  induction h with
  | nil =>
    exact ⟨fun _ hp => (by cases hp), fun _ hp => (by cases hp), fun _ hp => (by cases hp), .nil,
      fun _ hp => (by cases hp), fun _ hp => (by cases hp)⟩
  | pair _ hcan ih => exact ih.pair hcan

namespace IsNested
variable (h : IsNested program pairs)
include h

theorem mem_of_opening {i : Nat} (hi : program[i]? = some opening) (hpaired : IsPaired pairs i) :
    ∃ j, (i, j) ∈ pairs := by
  obtain ⟨p, hp, rfl | rfl⟩ := hpaired
  · exact ⟨p.2, hp⟩
  · cases hi.symm.trans (h.closes p hp)

theorem mem_of_closing {j : Nat} (hj : program[j]? = some closing) (hpaired : IsPaired pairs j) :
    ∃ i, (i, j) ∈ pairs := by
  obtain ⟨p, hp, rfl | rfl⟩ := hpaired
  · cases hj.symm.trans (h.opens p hp)
  · exact ⟨p.1, hp⟩

theorem length_le : pairs.length ≤ program.size := by
  have hsub : pairs.map Prod.fst ⊆ List.range program.size := by
    intro i hi
    obtain ⟨p, hp, rfl⟩ := List.mem_map.mp hi
    exact List.mem_range.mpr (Array.getElem?_eq_some_iff.mp (h.opens p hp)).1
  have hle := (List.subperm_of_subset h.once hsub).length_le
  rwa [List.length_map, List.length_range] at hle

end IsNested

/-- However the pairs are made, it comes to an end. -/
theorem exists_isCanonical (program : Program) : ∃ pairs, IsCanonical program pairs := by
  -- Every pair made leaves fewer positions for the next ones.
  have hgoesOn (left : Nat) : ∀ pairs, Pairing program pairs → program.size ≤ pairs.length + left →
      ∃ pairs, IsCanonical program pairs := by
    induction left with
    | zero =>
      intro pairs hpairing hleft
      refine ⟨pairs, hpairing, fun i j hcan => ?_⟩
      have hlonger := (hpairing.pair hcan).isNested.length_le
      rw [List.length_cons] at hlonger
      omega
    | succ left ih =>
      intro pairs hpairing hleft
      by_cases hmore : ∃ i j, CanPair program pairs i j
      · obtain ⟨i, j, hcan⟩ := hmore
        exact ih _ (hpairing.pair hcan) (by rw [List.length_cons]; omega)
      · exact ⟨pairs, hpairing, fun i j hcan => hmore ⟨i, j, hcan⟩⟩
  exact hgoesOn program.size [] .nil (by simp)

/-! ### The scan -/

/-- The closing brackets from position `n` on whose partner, if they have one, comes before `n`, ascending. Every
opening bracket from there on has a partner. -/
structure Awaits (program : Program) (pairs : List (Nat × Nat)) (n : Nat) (waiting : List Nat) : Prop where
  mem_iff : ∀ j, j ∈ waiting ↔ n ≤ j ∧ program[j]? = some closing ∧ ∀ p ∈ pairs, p.2 = j → p.1 < n
  ascending : waiting.Pairwise (· < ·)
  opened : ∀ i, n ≤ i → program[i]? = some opening → IsPaired pairs i

/-- The bracket that is to be named: the last opening one that is left without a partner or, if there is none, the
first closing one. -/
inductive Blames (program : Program) (pairs : List (Nat × Nat)) : Cause → Prop
  | opening {i : Nat} : Unmatched program pairs opening i → (∀ k, Unmatched program pairs opening k → k ≤ i) →
      Blames program pairs (.unmatchedOpen i)
  | closing {j : Nat} : (∀ k, ¬Unmatched program pairs opening k) → Unmatched program pairs closing j →
      (∀ k, Unmatched program pairs closing k → j ≤ k) → Blames program pairs (.unmatchedClose j)

namespace Awaits
variable {n : Nat} {waiting : List Nat}

theorem start (program : Program) (pairs : List (Nat × Nat)) : Awaits program pairs program.size [] where
  mem_iff j := by
    refine ⟨fun hj => (by cases hj), fun hj => ?_⟩
    cases hj.2.1.symm.trans (Array.getElem?_eq_none hj.1)
  ascending := .nil
  opened i hi hopen := by cases hopen.symm.trans (Array.getElem?_eq_none hi)

theorem mem_iff_of_other (h : Awaits program pairs (n + 1) waiting) (hnested : IsNested program pairs)
    (hn : program[n]? ≠ some opening) {j : Nat} (hj : j ≠ n) :
    j ∈ waiting ↔ n ≤ j ∧ program[j]? = some closing ∧ ∀ p ∈ pairs, p.2 = j → p.1 < n := by
  rw [h.mem_iff]
  constructor
  · rintro ⟨hle, hclose, hleft⟩
    refine ⟨by omega, hclose, fun p hp hpj => ?_⟩
    have hbefore := hleft p hp hpj
    have hother : p.1 ≠ n := fun heq => hn (heq ▸ hnested.opens p hp)
    omega
  · rintro ⟨hle, hclose, hleft⟩
    exact ⟨by omega, hclose, fun p hp hpj => Nat.lt_succ_of_lt (hleft p hp hpj)⟩

theorem opened_of_other (h : Awaits program pairs (n + 1) waiting) (hn : program[n]? ≠ some opening) {i : Nat}
    (hi : n ≤ i) (hopen : program[i]? = some opening) : IsPaired pairs i := by
  have hother : i ≠ n := fun heq => hn (heq ▸ hopen)
  exact h.opened i (by omega) hopen

theorem plain (h : Awaits program pairs (n + 1) waiting) (hnested : IsNested program pairs)
    (hopen : program[n]? ≠ some opening) (hclose : program[n]? ≠ some closing) :
    Awaits program pairs n waiting := by
  refine ⟨fun j => ?_, h.ascending, fun i => h.opened_of_other hopen⟩
  by_cases hj : j = n
  · subst hj
    refine ⟨fun hmem => ?_, fun hmem => absurd hmem.2.1 hclose⟩
    exact absurd ((h.mem_iff j).mp hmem).1 (Nat.not_succ_le_self j)
  · exact h.mem_iff_of_other hnested hopen hj

theorem push (h : Awaits program pairs (n + 1) waiting) (hnested : IsNested program pairs)
    (hn : program[n]? = some closing) : Awaits program pairs n (n :: waiting) := by
  have hopen : program[n]? ≠ some opening := by rw [hn]; decide
  refine ⟨fun j => ?_, ?_, fun i => h.opened_of_other hopen⟩
  · rw [List.mem_cons]
    by_cases hj : j = n
    · subst hj
      exact ⟨fun _ => ⟨Nat.le_refl j, hn, fun p hp hpj => hpj ▸ hnested.lt p hp⟩, fun _ => .inl rfl⟩
    · rw [← h.mem_iff_of_other hnested hopen hj]
      exact ⟨fun hmem => hmem.resolve_left hj, .inr⟩
  · exact List.pairwise_cons.mpr ⟨fun j hj => ((h.mem_iff j).mp hj).1, h.ascending⟩

theorem mem_of_pair (h : Awaits program pairs (n + 1) waiting) (hnested : IsNested program pairs) {j : Nat}
    (hpair : (n, j) ∈ pairs) : j ∈ waiting := by
  refine (h.mem_iff j).mpr ⟨hnested.lt _ hpair, hnested.closes _ hpair, fun q hq hqj => ?_⟩
  rw [hnested.unique q hq _ hpair hqj]
  exact Nat.lt_succ_self n

/-- The closing bracket that an opening one takes is the one that it is paired with. -/
theorem mem_of_opening (hcanonical : IsCanonical program pairs) {j : Nat}
    (h : Awaits program pairs (n + 1) (j :: waiting)) (hn : program[n]? = some opening) : (n, j) ∈ pairs := by
  have hnested := hcanonical.pairing.isNested
  obtain ⟨hj, hclose, hleft⟩ := (h.mem_iff j).mp (List.mem_cons_self ..)
  have hfirst : ∀ k ∈ j :: waiting, j ≤ k := List.forall_mem_cons.mpr
    ⟨Nat.le_refl j, fun k hk => Nat.le_of_lt ((List.pairwise_cons.mp h.ascending).1 k hk)⟩
  by_cases hopenFree : IsPaired pairs n
  · obtain ⟨k, hpair⟩ := hnested.mem_of_opening hn hopenFree
    have hle := hfirst k (h.mem_of_pair hnested hpair)
    by_cases heq : k = j
    · rwa [← heq]
    · -- Then `j` would be paired between the two, and would not wait.
      obtain ⟨q, hq, hqj, hlo, hhi⟩ := hnested.inside _ hpair j closing (by omega) (by omega) hclose rfl
      rcases hqj with hqj | hqj
      · cases hclose.symm.trans (hqj ▸ hnested.opens q hq)
      · have := hleft q hq hqj
        omega
  · by_cases hcloseFree : IsPaired pairs j
    · -- The partner of `j` is before `n`, so `n` is between the two.
      obtain ⟨i, hpair⟩ := hnested.mem_of_closing hclose hcloseFree
      have hbefore := hleft _ hpair rfl
      have hother : i ≠ n := fun heq => hopenFree ⟨_, hpair, .inl heq⟩
      obtain ⟨q, hq, hqn, -⟩ := hnested.inside _ hpair n opening (by omega) (by omega) hn rfl
      exact absurd ⟨q, hq, hqn⟩ hopenFree
    · -- Neither has a partner. All between them have, so that the pairing could go on.
      refine absurd ⟨hj, hn, hclose, hopenFree, hcloseFree, fun k b hlo hhi hk hb => ?_⟩ (hcanonical.complete n j)
      have hcases : b = opening ∨ b = closing := by simpa [isBracket] using hb
      rcases hcases with rfl | rfl
      · exact h.opened k hlo hk
      · apply Classical.byContradiction
        intro hfree
        have hwaits : k ∈ j :: waiting :=
          (h.mem_iff k).mpr ⟨hlo, hk, fun p hp hpk => absurd ⟨p, hp, .inr hpk⟩ hfree⟩
        have := hfirst k hwaits
        omega

theorem pop (hcanonical : IsCanonical program pairs) {j : Nat} (h : Awaits program pairs (n + 1) (j :: waiting))
    (hn : program[n]? = some opening) : Awaits program pairs n waiting := by
  have hnested := hcanonical.pairing.isNested
  have hpair := h.mem_of_opening hcanonical hn
  have hfirst := List.pairwise_cons.mp h.ascending
  refine ⟨fun k => ?_, hfirst.2, fun i hi hopen => ?_⟩
  · constructor
    · intro hk
      obtain ⟨hle, hclose, hleft⟩ := (h.mem_iff k).mp (List.mem_cons_of_mem j hk)
      refine ⟨by omega, hclose, fun p hp hpk => ?_⟩
      have hbefore := hleft p hp hpk
      have hother : p.1 ≠ n := by
        intro heq
        -- The partner of `n` is `j`, which no longer waits.
        obtain rfl := List.inj_on_of_nodup_map hnested.once hp hpair heq
        have := hfirst.1 k hk
        omega
      omega
    · rintro ⟨hle, hclose, hleft⟩
      have hother : k ≠ n := by
        rintro rfl
        cases hn.symm.trans hclose
      have hwaits := (h.mem_iff k).mpr
        ⟨by omega, hclose, fun p hp hpk => Nat.lt_succ_of_lt (hleft p hp hpk)⟩
      rcases List.mem_cons.mp hwaits with rfl | hin
      · exact absurd (hleft _ hpair rfl) (Nat.lt_irrefl n)
      · exact hin
  · by_cases heq : i = n
    · exact ⟨_, hpair, .inl heq.symm⟩
    · exact h.opened i (by omega) hopen

/-- An opening bracket for which nothing waits is the last one without a partner. -/
theorem blames_opening (h : Awaits program pairs (n + 1) []) (hnested : IsNested program pairs)
    (hn : program[n]? = some opening) : Blames program pairs (.unmatchedOpen n) := by
  refine .opening ⟨hn, fun hpaired => ?_⟩ fun k hk => ?_
  · obtain ⟨j, hpair⟩ := hnested.mem_of_opening hn hpaired
    cases h.mem_of_pair hnested hpair
  · apply Nat.le_of_not_lt
    intro hlater
    exact hk.free (h.opened k hlater hk.holds)

/-- Where the scan has come to the first byte, the closing brackets that wait are those without a partner. -/
theorem mem_iff_unmatched (h : Awaits program pairs 0 waiting) (hnested : IsNested program pairs) (j : Nat) :
    j ∈ waiting ↔ Unmatched program pairs closing j := by
  rw [h.mem_iff]
  constructor
  · rintro ⟨-, hclose, hleft⟩
    refine ⟨hclose, fun hpaired => ?_⟩
    obtain ⟨i, hpair⟩ := hnested.mem_of_closing hclose hpaired
    exact absurd (hleft _ hpair rfl) (Nat.not_lt_zero i)
  · intro hfree
    exact ⟨Nat.zero_le j, hfree.holds, fun p hp hpj => absurd ⟨p, hp, .inr hpj⟩ hfree.free⟩

end Awaits

/-- **The scan finds fault with the bracket that the pairing leaves over**, and with none if none is left. -/
theorem scan_blames (hcanonical : IsCanonical program pairs) {n : Nat} (hle : n ≤ program.size) {waiting : List Nat}
    (h : Awaits program pairs n waiting) (table : JumpTable) :
    (∀ cause, scan program n table waiting = .error cause → Blames program pairs cause) ∧
      ∀ filled, scan program n table waiting = .ok filled →
        ∀ i, ¬Unmatched program pairs opening i ∧ ¬Unmatched program pairs closing i := by
  have hnested := hcanonical.pairing.isNested
  induction n generalizing waiting table with
  | zero =>
    have hopened : ∀ k, ¬Unmatched program pairs opening k := fun k hk =>
      hk.free (h.opened k (Nat.zero_le k) hk.holds)
    have hwaits := h.mem_iff_unmatched hnested
    cases waiting with
    | nil =>
      refine ⟨fun cause herror => (by cases herror), fun _ _ i => ⟨hopened i, fun hi => ?_⟩⟩
      cases (hwaits i).mpr hi
    | cons j rest =>
      refine ⟨fun cause herror => ?_, fun filled hok => (by cases hok)⟩
      obtain rfl := Except.error.inj herror
      refine .closing hopened ((hwaits j).mp (List.mem_cons_self ..)) fun k hk => ?_
      rcases List.mem_cons.mp ((hwaits k).mpr hk) with rfl | hin
      · exact Nat.le_refl _
      · exact Nat.le_of_lt ((List.pairwise_cons.mp h.ascending).1 k hin)
  | succ n ih =>
    have hbyte : program[n]? = some program[n] := Array.getElem?_eq_getElem hle
    have hgetD : program.getD n 0 = program[n] := by rw [Array.getD_eq_getD_getElem?, hbyte, Option.getD_some]
    generalize program[n] = b at hbyte hgetD
    simp only [scan, hgetD]
    by_cases hclose : b = closing
    · subst hclose
      rw [if_pos rfl]
      exact ih (Nat.le_of_succ_le hle) (h.push hnested hbyte) table
    rw [if_neg hclose]
    by_cases hopen : b = opening
    · subst hopen
      rw [if_pos rfl]
      cases waiting with
      | nil =>
        refine ⟨fun cause herror => ?_, fun filled hok => (by cases hok)⟩
        obtain rfl := Except.error.inj herror
        exact h.blames_opening hnested hbyte
      | cons j rest => exact ih (Nat.le_of_succ_le hle) (h.pop hcanonical hbyte) (table.link n j)
    · rw [if_neg hopen]
      have hplain := h.plain hnested (by rw [hbyte]; simpa using hopen) (by rw [hbyte]; simpa using hclose)
      exact ih (Nat.le_of_succ_le hle) hplain table

/-- **Resolving names the right bracket.** There is a canonical matching, and whichever it is: there is a fault exactly
if the matching leaves a bracket over. Then the table is the empty one, and the fault names the last opening bracket
that is left or, if none is left, the first closing one. -/
theorem resolution_names_unmatched (program : Program) :
    (∃ pairs, IsCanonical program pairs) ∧ ∀ pairs, IsCanonical program pairs →
      ((resolution program).2 ≠ none ↔
        ∃ i, Unmatched program pairs opening i ∨ Unmatched program pairs closing i) ∧
      ∀ table fault, resolution program = (table, some fault) →
        table = {} ∧
        ((∃ i, Unmatched program pairs opening i ∧ (∀ k, Unmatched program pairs opening k → k ≤ i) ∧
            fault = .caused .unbalancedBrackets (.unmatchedOpen i) ∧
            fault.message = "unbalanced brackets: unmatched '[' at offset " ++ toString i) ∨
          (∀ k, ¬Unmatched program pairs opening k) ∧
            ∃ j, Unmatched program pairs closing j ∧ (∀ k, Unmatched program pairs closing k → j ≤ k) ∧
              fault = .caused .unbalancedBrackets (.unmatchedClose j) ∧
              fault.message = "unbalanced brackets: unmatched ']' at offset " ++ toString j) := by
  refine ⟨exists_isCanonical program, fun pairs hcanonical => ?_⟩
  obtain ⟨hblames, hnone⟩ := scan_blames hcanonical (Nat.le_refl _) (.start program pairs)
    ⟨Array.replicate program.size none, 0⟩
  unfold resolution
  cases hresolve : resolve program with
  | ok filled =>
    have hmatched := hnone filled hresolve
    refine ⟨⟨fun hfault => absurd rfl hfault, fun hleft => ?_⟩, fun table fault hboth => ?_⟩
    · obtain ⟨i, hopen | hclose⟩ := hleft
      · exact absurd hopen (hmatched i).1
      · exact absurd hclose (hmatched i).2
    · cases (Prod.mk.inj hboth).2
  | error cause =>
    have hblame := hblames cause hresolve
    refine ⟨⟨fun _ => ?_, fun _ => by simp⟩, fun table fault hboth => ?_⟩
    · cases hblame with
      | opening hi => exact ⟨_, .inl hi⟩
      | closing _ hj => exact ⟨_, .inr hj⟩
    · obtain ⟨rfl, hfault⟩ := Prod.mk.inj hboth
      obtain rfl := Option.some.inj hfault
      refine ⟨rfl, ?_⟩
      cases hblame with
      | opening hi hlast => exact .inl ⟨_, hi, hlast, rfl, rfl⟩
      | closing hopened hj hfirst => exact .inr ⟨hopened, _, hj, hfirst, rfl, rfl⟩

/-- In `][[]` the last two brackets are a pair. The first one closes nothing, and nothing closes the second, which is
the one named. -/
theorem resolution_names_unmatched_either :
    IsCanonical #[0x5d, 0x5b, 0x5b, 0x5d] [(2, 3)] ∧
      resolution #[0x5d, 0x5b, 0x5b, 0x5d] = ({}, some (.caused .unbalancedBrackets (.unmatchedOpen 1))) ∧
      Unmatched #[0x5d, 0x5b, 0x5b, 0x5d] [(2, 3)] closing 0 ∧
      Unmatched #[0x5d, 0x5b, 0x5b, 0x5d] [(2, 3)] opening 1 ∧
      ∀ k, Unmatched #[0x5d, 0x5b, 0x5b, 0x5d] [(2, 3)] opening k → k ≤ 1 := by
  have hpaired : ∀ k, IsPaired [(2, 3)] k ↔ k = 2 ∨ k = 3 := by
    intro k
    simp [IsPaired, eq_comm]
  have hcanonical : IsCanonical #[0x5d, 0x5b, 0x5b, 0x5d] [(2, 3)] := by
    refine ⟨.pair .nil ⟨by decide, rfl, rfl, by simp [IsPaired], by simp [IsPaired], fun k b hlo hhi => ?_⟩,
      fun i j hcan => ?_⟩
    · omega
    · -- The only closing bracket behind an opening one has a partner.
      have hj : j < 4 := (Array.getElem?_eq_some_iff.mp hcan.closes).1
      have hlt := hcan.lt
      have hfree := mt (hpaired j).mpr hcan.closeFree
      have hopens := hcan.opens
      obtain ⟨rfl, rfl⟩ : i = 0 ∧ j = 1 := by omega
      cases hopens
  obtain ⟨-, hnamed⟩ := ((resolution_names_unmatched #[0x5d, 0x5b, 0x5b, 0x5d]).2 _ hcanonical).2 _ _ rfl
  refine ⟨hcanonical, rfl, ⟨rfl, mt (hpaired 0).mp (by decide)⟩, ?_⟩
  rcases hnamed with ⟨i, hi, hlast, hfault, -⟩ | ⟨-, j, -, -, hfault, -⟩
  · cases hfault
    exact ⟨hi, hlast⟩
  · cases hfault

end TapeMachine.Brackets
