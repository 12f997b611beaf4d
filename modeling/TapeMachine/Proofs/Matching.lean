import TapeMachine.Proofs.Tree

/-! The matching of a tree.

The brackets of a program are balanced exactly if it is the text of a tree (`balanced_word_iff`). `mate`
gives each bracket of a tree its partner. It is an involution, no two of its pairs cross, and between the
brackets of a pair stands the text of a tree again. `record` enters its pairs into a jump table, and
`partner?_record` says what the table then holds. -/
namespace TapeMachine

namespace Brackets

/-- The bracket words: empty, or a word in brackets followed by a word. -/
inductive Balanced : List UInt8 → Prop
  | nil : Balanced []
  | loop {u v : List UInt8} : Balanced u → Balanced v → Balanced (opening :: (u ++ closing :: v))

/-- The brackets of a program, without the bytes between them. -/
def word (bytes : List UInt8) : List UInt8 := bytes.filter isBracket

theorem word_append (x y : List UInt8) : word (x ++ y) = word x ++ word y := List.filter_append ..

theorem word_cons_bracket (b : UInt8) (bytes : List UInt8) (hb : isBracket b = true) :
    word (b :: bytes) = b :: word bytes := List.filter_cons_of_pos hb

/-- The brackets of a tree are a bracket word. -/
theorem balanced_text (t : Tree) : Balanced (word t.text) := by
  induction t with
  | done => exact .nil
  | plain b h rest ih =>
    have hdrop : word (b :: rest.text) = word rest.text :=
      List.filter_cons_of_neg (by rw [h]; decide)
    rw [Tree.text, hdrop]
    exact ih
  | loop body rest ihb ihr =>
    rw [Tree.text, word_cons_bracket opening _ (by decide), word_append,
      word_cons_bracket closing _ (by decide)]
    exact .loop ihb ihr

/-- A bracket word is the text of a tree. -/
theorem Balanced.tree {u : List UInt8} (h : Balanced u) : ∃ t : Tree, t.text = u := by
  induction h with
  | nil => exact ⟨.done, rfl⟩
  | loop _ _ ihu ihv =>
    obtain ⟨body, rfl⟩ := ihu
    obtain ⟨rest, rfl⟩ := ihv
    exact ⟨.loop body rest, rfl⟩

/-- **The brackets of a program are balanced exactly if it is the text of a tree.** -/
theorem balanced_word_iff (bytes : List UInt8) :
    Balanced (word bytes) ↔ ∃ t : Tree, t.text = bytes := by
  constructor
  · intro h
    obtain ⟨u, hu⟩ := h.tree
    -- The outline of the brackets alone has nothing loose, and dropping bytes keeps what is loose.
    have hfilter : (Tree.outline bytes).filter isBracket = ⟨u, [], []⟩ := by
      rw [← Tree.outline_filter isBracket (fun _ hb => hb), ← Tree.outline_text, hu, word]
    have htext := Tree.text_outline bytes
    cases hout : Tree.outline bytes with
    | mk first closed opened =>
      rw [hout] at hfilter htext
      have hclosed : closed = [] := List.map_eq_nil_iff.mp (congrArg Outline.closed hfilter)
      have hopened : opened = [] := List.map_eq_nil_iff.mp (congrArg Outline.opened hfilter)
      subst hclosed hopened
      exact ⟨first, by simpa [Outline.text] using htext⟩
  · intro hex
    obtain ⟨t, rfl⟩ := hex
    exact balanced_text t

end Brackets

/-! ### The matching of a tree -/

namespace Tree
open Brackets

/-- The partner of the bracket at position `i` in a tree whose text starts at position `a`. -/
def mate : Tree → Nat → Nat → Option Nat
  | .done, _, _ => none
  | .plain _ _ rest, a, i => rest.mate (a + 1) i
  | .loop body rest, a, i =>
    if i = a then some (a + body.size + 1)
    else if i = a + body.size + 1 then some a
    else if i < a + body.size + 1 then body.mate (a + 1) i
    else rest.mate (a + body.size + 2) i

/-- The number of loops of a tree. -/
def loopCount : Tree → Nat
  | .done => 0
  | .plain _ _ rest => rest.loopCount
  | .loop body rest => body.loopCount + rest.loopCount + 1

/-- Enters the pairs of a tree whose text starts at position `a`. -/
def record : Tree → Nat → JumpTable → JumpTable
  | .done, _, table => table
  | .plain _ _ rest, a, table => rest.record (a + 1) table
  | .loop body rest, a, table =>
    (body.record (a + 1) (rest.record (a + body.size + 2) table)).link a (a + body.size + 1)

/-- Both brackets of a pair lie in the text, and they are two. -/
theorem mate_bounds {t : Tree} {a i j : Nat} (h : t.mate a i = some j) :
    a ≤ i ∧ i < a + t.size ∧ a ≤ j ∧ j < a + t.size ∧ i ≠ j := by
  induction t generalizing a with
  | done => cases h
  | plain b hb rest ih =>
    have := ih h
    simp only [size]
    omega
  | loop body rest ihb ihr =>
    simp only [mate, size] at h ⊢
    split at h
    · obtain rfl := Option.some.inj h
      omega
    · split at h
      · obtain rfl := Option.some.inj h
        omega
      · split at h
        · have := ihb h
          omega
        · have := ihr h
          omega

theorem mate_eq_none {t : Tree} {a i : Nat} (h : i < a ∨ a + t.size ≤ i) : t.mate a i = none := by
  cases hm : t.mate a i with
  | none => rfl
  | some j =>
    have := mate_bounds hm
    omega

/-- The partner of the partner is the bracket itself. -/
theorem mate_mate {t : Tree} {a i j : Nat} (h : t.mate a i = some j) : t.mate a j = some i := by
  induction t generalizing a with
  | done => cases h
  | plain b hb rest ih => exact ih h
  | loop body rest ihb ihr =>
    simp only [mate] at h ⊢
    split at h
    · next hi =>
      obtain rfl := Option.some.inj h
      rw [if_neg (by omega), if_pos rfl, hi]
    · split at h
      · next hi =>
        obtain rfl := Option.some.inj h
        rw [if_pos rfl, hi]
      · split at h
        · have := mate_bounds h
          rw [if_neg (by omega), if_neg (by omega), if_pos (by omega)]
          exact ihb h
        · have := mate_bounds h
          rw [if_neg (by omega), if_neg (by omega), if_neg (by omega)]
          exact ihr h

/-- No two pairs cross. -/
theorem mate_nested {t : Tree} {a i j k l : Nat} (h : t.mate a i = some j) (h' : t.mate a k = some l)
    (hik : i < k) (hkj : k < j) : l < j ∧ i < l := by
  induction t generalizing a with
  | done => cases h
  | plain b hb rest ih => exact ih h h'
  | loop body rest ihb ihr =>
    simp only [mate] at h h'
    split at h
    · obtain rfl := Option.some.inj h
      rw [if_neg (by omega), if_neg (by omega), if_pos (by omega)] at h'
      have := mate_bounds h'
      omega
    · split at h
      · obtain rfl := Option.some.inj h
        omega
      · split at h
        · have := mate_bounds h
          rw [if_neg (by omega), if_neg (by omega), if_pos (by omega)] at h'
          exact ihb h h'
        · have := mate_bounds h
          rw [if_neg (by omega), if_neg (by omega), if_neg (by omega)] at h'
          exact ihr h h'

/-- An opening bracket, the tree inside and the closing bracket stand next to each other in the text. -/
theorem mate_split {t : Tree} {a i j : Nat} (h : t.mate a i = some j) (hij : i < j) :
    ∃ (pre : List UInt8) (body : Tree) (post : List UInt8),
      t.text = pre ++ opening :: (body.text ++ closing :: post) ∧
        i = a + pre.length ∧ j = i + body.size + 1 := by
  induction t generalizing a with
  | done => cases h
  | plain b hb rest ih =>
    obtain ⟨pre, body, post, htext, hi, hj⟩ := ih h
    exact ⟨b :: pre, body, post, by simp [text, htext], by simp only [List.length_cons]; omega, hj⟩
  | loop body rest ihb ihr =>
    simp only [mate] at h
    split at h
    · next hi =>
      obtain rfl := Option.some.inj h
      exact ⟨[], body, rest.text, rfl, by simpa using hi, by omega⟩
    · split at h
      · obtain rfl := Option.some.inj h
        omega
      · split at h
        · obtain ⟨pre, inner, post, htext, hi, hj⟩ := ihb h
          exact ⟨opening :: pre, inner, post ++ closing :: rest.text, by simp [text, htext],
            by simp only [List.length_cons]; omega, hj⟩
        · obtain ⟨pre, inner, post, htext, hi, hj⟩ := ihr h
          refine ⟨opening :: (body.text ++ closing :: pre), inner, post, by simp [text, htext], ?_, hj⟩
          simp only [List.length_cons, List.length_append, length_text]
          omega

/-- Every bracket has a partner. -/
theorem mate_of_bracket {t : Tree} {k : Nat} {b : UInt8} (a : Nat) (hk : t.text[k]? = some b)
    (hb : isBracket b = true) : ∃ j, t.mate a (a + k) = some j := by
  induction t generalizing a k with
  | done => simp [text] at hk
  | plain c hc rest ih =>
    cases k with
    | zero =>
      obtain rfl : c = b := by simpa [text] using hk
      rw [hc] at hb
      cases hb
    | succ k =>
      obtain ⟨j, hj⟩ := ih (a + 1) (k := k) (by simpa [text] using hk)
      exact ⟨j, by rw [mate, ← hj]; congr 1; omega⟩
  | loop body rest ihb ihr =>
    simp only [mate]
    by_cases h0 : k = 0
    · exact ⟨_, by rw [if_pos (by omega)]⟩
    · by_cases hc : k = body.size + 1
      · exact ⟨_, by rw [if_neg (by omega), if_pos (by omega)]⟩
      · obtain ⟨k, rfl⟩ : ∃ k', k = k' + 1 := ⟨k - 1, by omega⟩
        simp only [text, List.getElem?_cons_succ] at hk
        by_cases hlt : k < body.size
        · rw [List.getElem?_append_left (by simpa using hlt)] at hk
          obtain ⟨j, hj⟩ := ihb (a + 1) hk
          refine ⟨j, ?_⟩
          rw [if_neg (by omega), if_neg (by omega), if_pos (by omega), ← hj]
          congr 1
          omega
        · obtain ⟨k, rfl⟩ : ∃ k', k = body.size + 1 + k' := ⟨k - (body.size + 1), by omega⟩
          rw [List.getElem?_append_right (by simp; omega), length_text,
            show body.size + 1 + k - body.size = k + 1 by omega, List.getElem?_cons_succ] at hk
          obtain ⟨j, hj⟩ := ihr (a + body.size + 2) hk
          refine ⟨j, ?_⟩
          rw [if_neg (by omega), if_neg (by omega), if_neg (by omega), ← hj]
          congr 1
          omega

end Tree

/-! ### The table -/

namespace JumpTable

@[simp] theorem size_link (t : JumpTable) (i j : Nat) : (t.link i j).targets.size = t.targets.size := by
  simp [link]

@[simp] theorem pairCount_link (t : JumpTable) (i j : Nat) :
    (t.link i j).pairCount = t.pairCount + 1 := rfl

theorem partner?_link (t : JumpTable) (i j k : Nat) (hi : i < t.targets.size)
    (hj : j < t.targets.size) :
    (t.link i j).partner? k = if k = j then some i else if k = i then some j else t.partner? k := by
  simp only [partner?, link, Array.getD_eq_getD_getElem?, Array.getElem?_setIfInBounds,
    Array.size_setIfInBounds]
  by_cases hkj : k = j
  · subst hkj
    simp [hj]
  · by_cases hki : k = i
    · subst hki
      simp [hkj, Ne.symm hkj, hi]
    · simp [hkj, hki, Ne.symm hkj, Ne.symm hki]

/-- The pairs before a position, from left to right. -/
theorem pairsBefore_eq (t : JumpTable) (n : Nat) (rest : List (Nat × Nat)) :
    t.pairsBefore n rest =
      (List.range n).filterMap (fun i => (t.partner? i).bind fun j => if i < j then some (i, j) else none)
        ++ rest := by
  induction n generalizing rest with
  | zero => rfl
  | succ n ih =>
    simp only [pairsBefore, List.range_succ, List.filterMap_append]
    cases hp : t.partner? n with
    | none => simp [ih, hp]
    | some j =>
      by_cases hj : n < j
      · simp [ih, hp, hj]
      · simp [ih, hp, hj]

theorem mem_pairs (t : JumpTable) (i j : Nat) :
    (i, j) ∈ t.pairs ↔ t.partner? i = some j ∧ i < j := by
  simp only [pairs, pairsBefore_eq, List.append_nil, List.mem_filterMap, List.mem_range,
    Option.bind_eq_some_iff, Option.ite_none_right_eq_some, Option.some.injEq, Prod.mk.injEq]
  constructor
  · intro hex
    obtain ⟨i, _, j, hp, hij, rfl, rfl⟩ := hex
    exact ⟨hp, hij⟩
  · intro hex
    obtain ⟨hp, hij⟩ := hex
    refine ⟨i, ?_, j, hp, hij, rfl, rfl⟩
    have hsome : (t.targets.getD i none).isSome = true := by
      rw [show t.targets.getD i none = _ from hp]
      rfl
    by_cases hi : i < t.targets.size
    · exact hi
    · simp [Array.getD, hi] at hsome

/-- The pairs are listed by their opening positions, each once. -/
theorem pairs_pairwise (t : JumpTable) : t.pairs.Pairwise (fun p q => p.1 < q.1) := by
  simp only [pairs, pairsBefore_eq, List.append_nil]
  refine List.Pairwise.filterMap _ ?_ List.pairwise_lt_range
  intro i k hik p hp q hq
  simp only [Option.bind_eq_some_iff, Option.ite_none_right_eq_some, Option.some.injEq] at hp hq
  obtain ⟨_, _, _, rfl⟩ := hp
  obtain ⟨_, _, _, rfl⟩ := hq
  exact hik

end JumpTable

namespace Tree
open Brackets

@[simp] theorem size_record (t : Tree) (a : Nat) (table : JumpTable) :
    (t.record a table).targets.size = table.targets.size := by
  induction t generalizing a table with
  | done => rfl
  | plain b h rest ih => exact ih _ _
  | loop body rest ihb ihr => simp only [record, JumpTable.size_link, ihb, ihr]

theorem pairCount_record (t : Tree) (a : Nat) (table : JumpTable) :
    (t.record a table).pairCount = table.pairCount + t.loopCount := by
  induction t generalizing a table with
  | done => rfl
  | plain b h rest ih => exact ih _ _
  | loop body rest ihb ihr =>
    simp only [record, JumpTable.pairCount_link, ihb, ihr, loopCount]
    omega

/-- Recording a tree gives its brackets their partners and leaves all other positions alone. -/
theorem partner?_record (t : Tree) (a : Nat) (table : JumpTable) (i : Nat)
    (hsize : a + t.size ≤ table.targets.size) :
    (t.record a table).partner? i = (t.mate a i).or (table.partner? i) := by
  induction t generalizing a table with
  | done => rfl
  | plain b h rest ih =>
    simp only [size] at hsize
    exact ih (a + 1) table (by omega)
  | loop body rest ihb ihr =>
    simp only [size] at hsize
    rw [record, JumpTable.partner?_link _ _ _ _ (by simp only [size_record]; omega)
      (by simp only [size_record]; omega),
      ihb (a + 1) _ (by simp only [size_record]; omega), ihr (a + body.size + 2) table (by omega)]
    simp only [mate]
    by_cases hclose : i = a + body.size + 1
    · rw [if_pos hclose, if_neg (by omega), if_pos hclose, Option.some_or]
    · by_cases hopen : i = a
      · rw [if_neg hclose, if_pos hopen, if_pos hopen, Option.some_or]
      · rw [if_neg hclose, if_neg hopen, if_neg hopen, if_neg hclose]
        by_cases hlt : i < a + body.size + 1
        · rw [if_pos hlt, mate_eq_none (t := rest) (.inl (by omega)), Option.none_or]
        · rw [if_neg hlt, mate_eq_none (t := body) (.inr (by omega)), Option.none_or]

/-- Of either bracket a tree has one for each of its loops. -/
theorem count_bracket (t : Tree) {b : UInt8} (hb : isBracket b = true) :
    t.text.count b = t.loopCount := by
  induction t with
  | done => rfl
  | plain c hc rest ih =>
    have hne : c ≠ b := by
      intro heq
      subst heq
      rw [hb] at hc
      cases hc
    rw [text, List.count_cons_of_ne hne, ih, loopCount]
  | loop body rest ihb ihr =>
    have hcases : b = opening ∨ b = closing := by simpa [isBracket] using hb
    rw [text, List.count_cons, List.count_append, List.count_cons, ihb, ihr, loopCount]
    rcases hcases with rfl | rfl
    · simp [opening, closing]
    · simp [opening, closing]
      omega

end Tree

end TapeMachine
