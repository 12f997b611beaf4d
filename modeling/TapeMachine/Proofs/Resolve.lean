import TapeMachine.Proofs.Matching

/-! Resolving brackets.

The scan of the text of a tree enters the pairs of that tree and leaves the brackets that wait as they
were (`scan_text`). So `resolve` accepts exactly the programs that have a tree, and its table is the
matching of that tree (`resolve_eq_ok_iff`); of any other program it names the last loose opening bracket,
or else the first loose closing one. `resolve_isMatching` says the same without trees. -/
namespace TapeMachine

namespace Brackets

/-- The bytes of a program from position `a` on start with `bytes`. -/
def Spans (program : Program) (a : Nat) (bytes : List UInt8) : Prop :=
  bytes <+: program.toList.drop a

namespace Spans
variable {program : Program} {a : Nat}

theorem whole (program : Program) : Spans program 0 program.toList := List.prefix_refl _

theorem left {x y : List UInt8} (h : Spans program a (x ++ y)) : Spans program a x :=
  (List.prefix_append x y).trans h

theorem right {x y : List UInt8} (h : Spans program a (x ++ y)) :
    Spans program (a + x.length) y := by
  obtain ⟨post, hpost⟩ := h
  refine ⟨post, ?_⟩
  rw [← List.drop_drop, ← hpost, List.append_assoc, List.drop_left]

theorem head {b : UInt8} {x : List UInt8} (h : Spans program a (b :: x)) : program[a]? = some b := by
  obtain ⟨post, hpost⟩ := h
  have h0 := congrArg (·[0]?) hpost
  simpa using h0.symm

theorem tail {b : UInt8} {x : List UInt8} (h : Spans program a (b :: x)) :
    Spans program (a + 1) x := right (x := [b]) h

/-- Where the parts of a loop are. -/
theorem loop {body rest : Tree} (h : Spans program a (Tree.loop body rest).text) :
    program[a]? = some opening ∧ Spans program (a + 1) body.text ∧
      program[a + body.size + 1]? = some closing ∧ Spans program (a + body.size + 2) rest.text := by
  have hafter := h.tail.right
  rw [Tree.length_text, show a + 1 + body.size = a + body.size + 1 by omega] at hafter
  exact ⟨h.head, h.tail.left, hafter.head, hafter.tail⟩

end Spans

theorem scan_plain {program : Program} {a : Nat} {b : UInt8} (ha : program[a]? = some b)
    (hb : isBracket b = false) (table : JumpTable) (waiting : List Nat) :
    scan program (a + 1) table waiting = scan program a table waiting := by
  have hne : b ≠ opening ∧ b ≠ closing := by simpa [isBracket] using hb
  simp [scan, Array.getD_eq_getD_getElem?, ha, hne]

theorem scan_closing {program : Program} {a : Nat} (ha : program[a]? = some closing)
    (table : JumpTable) (waiting : List Nat) :
    scan program (a + 1) table waiting = scan program a table (a :: waiting) := by
  simp [scan, Array.getD_eq_getD_getElem?, ha]

theorem scan_opening {program : Program} {a : Nat} (ha : program[a]? = some opening)
    (table : JumpTable) (j : Nat) (rest : List Nat) :
    scan program (a + 1) table (j :: rest) = scan program a (table.link a j) rest := by
  simp only [scan, Array.getD_eq_getD_getElem?, ha]
  rfl

theorem scan_opening_nil {program : Program} {a : Nat} (ha : program[a]? = some opening)
    (table : JumpTable) : scan program (a + 1) table [] = .error (.unmatchedOpen a) := by
  simp only [scan, Array.getD_eq_getD_getElem?, ha]
  rfl

/-- The scan of a tree enters its pairs and leaves the brackets that wait as they were. -/
theorem scan_text {program : Program} (t : Tree) {a : Nat} (hp : Spans program a t.text)
    (table : JumpTable) (waiting : List Nat) :
    scan program (a + t.size) table waiting = scan program a (t.record a table) waiting := by
  induction t generalizing a table waiting with
  | done => rfl
  | plain b h rest ih =>
    have hrest := ih hp.tail table waiting
    rw [show a + 1 + rest.size = a + (Tree.plain b h rest).size by rw [Tree.size]; omega] at hrest
    rw [hrest]
    exact scan_plain hp.head h _ _
  | loop body rest ihb ihr =>
    -- From the right: the rest, the closing bracket, the body, the opening bracket.
    obtain ⟨hopen, hbody, hclose, hrest⟩ := hp.loop
    have hsize : a + (Tree.loop body rest).size = a + body.size + 2 + rest.size := by
      rw [Tree.size]
      omega
    calc scan program (a + (Tree.loop body rest).size) table waiting
      _ = scan program (a + body.size + 2) (rest.record (a + body.size + 2) table) waiting := by
        rw [hsize, ihr hrest]
      _ = scan program (a + body.size + 1) (rest.record (a + body.size + 2) table)
            ((a + body.size + 1) :: waiting) := scan_closing hclose _ _
      _ = scan program (a + 1) (body.record (a + 1) (rest.record (a + body.size + 2) table))
            ((a + body.size + 1) :: waiting) := by
        rw [show a + body.size + 1 = a + 1 + body.size by omega, ihb hbody]
      _ = scan program a ((Tree.loop body rest).record a table) waiting := scan_opening hopen _ _ _

/-- The scan of trees that each follow a loose closing bracket leaves the leftmost of these brackets in
front of those that wait. -/
theorem scan_closed {program : Program} (closed : List Tree) {a : Nat}
    (hp : Spans program a (closed.flatMap (closing :: ·.text))) (table : JumpTable)
    (waiting : List Nat) :
    ∃ table' waiting',
      scan program (a + (closed.flatMap (closing :: ·.text)).length) table waiting =
        scan program a table' waiting' ∧
      (closed = [] → table' = table ∧ waiting' = waiting) ∧
      (closed ≠ [] → waiting'.head? = some a) := by
  induction closed generalizing a table waiting with
  | nil => exact ⟨table, waiting, rfl, fun _ => ⟨rfl, rfl⟩, fun h => absurd rfl h⟩
  | cons t closed ih =>
    rw [List.flatMap_cons] at hp ⊢
    obtain ⟨table', waiting', hscan, -, -⟩ := ih hp.right table waiting
    have htext := scan_text t hp.left.tail table' waiting'
    have hsize : a + ((closing :: t.text) ++ closed.flatMap (closing :: ·.text)).length =
        a + (closing :: t.text).length + (closed.flatMap (closing :: ·.text)).length := by
      rw [List.length_append]
      omega
    refine ⟨t.record (a + 1) table', a :: waiting', ?_, (by intro h; cases h), fun _ => rfl⟩
    rw [hsize, hscan, List.length_cons, Tree.length_text, show a + (t.size + 1) = a + 1 + t.size by omega,
      htext]
    exact scan_closing hp.left.head _ _

/-- A program without pairs. -/
def blankTable (program : Program) : JumpTable := ⟨Array.replicate program.size none, 0⟩

@[simp] theorem partner?_blankTable (program : Program) (i : Nat) :
    (blankTable program).partner? i = none := by
  simp only [blankTable, JumpTable.partner?, Array.getD_eq_getD_getElem?, Array.getElem?_replicate]
  split <;> rfl

theorem resolve_text {program : Program} {t : Tree} (ht : t.text = program.toList) :
    resolve program = .ok (t.record 0 (blankTable program)) := by
  have hsize : program.size = 0 + t.size := by
    rw [← Array.length_toList, ← ht, Tree.length_text, Nat.zero_add]
  have hscan := scan_text t (ht ▸ Spans.whole program) (blankTable program) []
  rw [← hsize] at hscan
  exact hscan

/-- The last opening bracket that nothing closes is the one named. -/
theorem resolve_opened {program : Program} {pre : List UInt8} {t : Tree}
    (hp : program.toList = pre ++ opening :: t.text) :
    resolve program = .error (.unmatchedOpen pre.length) := by
  have hspans : Spans program (0 + pre.length) (opening :: t.text) := (hp ▸ Spans.whole program).right
  rw [Nat.zero_add] at hspans
  have hsize : program.size = pre.length + 1 + t.size := by
    rw [← Array.length_toList, hp, List.length_append, List.length_cons, Tree.length_text]
    omega
  have hscan := scan_text t hspans.tail (blankTable program) []
  rw [← hsize, scan_opening_nil hspans.head] at hscan
  exact hscan

/-- Where every opening bracket is closed, the first closing bracket that closes nothing is the one
named. -/
theorem resolve_closed {program : Program} {first : Tree} {closed : List Tree}
    (hp : program.toList = first.text ++ closed.flatMap (closing :: ·.text)) (hne : closed ≠ []) :
    resolve program = .error (.unmatchedClose first.size) := by
  have hspans : Spans program 0 (first.text ++ closed.flatMap (closing :: ·.text)) :=
    hp ▸ Spans.whole program
  have hsize : program.size = 0 + first.text.length + (closed.flatMap (closing :: ·.text)).length := by
    rw [← Array.length_toList, hp, List.length_append]
    omega
  obtain ⟨table, waiting, hscan, -, hhead⟩ :=
    scan_closed closed hspans.right (blankTable program) []
  have hfirst := scan_text first hspans.left table waiting
  obtain ⟨rest, rfl⟩ : ∃ rest, waiting = (0 + first.text.length) :: rest := by
    cases waiting with
    | nil => cases hhead hne
    | cons j rest =>
      obtain rfl := Option.some.inj (hhead hne)
      exact ⟨rest, rfl⟩
  rw [Tree.length_text] at hfirst
  rw [← hsize, Tree.length_text, hfirst, Nat.zero_add] at hscan
  exact hscan

/-- **The programs that are accepted are those that have a tree**, and the table is the matching of that
tree. -/
theorem resolve_eq_ok_iff {program : Program} {table : JumpTable} :
    resolve program = .ok table ↔
      ∃ t : Tree, t.text = program.toList ∧ table = t.record 0 (blankTable program) := by
  constructor
  · intro h
    have htext := Tree.text_outline program.toList
    cases hout : Tree.outline program.toList with
    | mk first closed opened =>
      rw [hout, Outline.text] at htext
      rcases List.eq_nil_or_concat opened with rfl | ⟨others, last, rfl⟩
      · rw [List.flatMap_nil, List.append_nil] at htext
        by_cases hclosed : closed = []
        · subst hclosed
          have ht : first.text = program.toList := by simpa using htext
          rw [resolve_text ht] at h
          exact ⟨first, ht, (Except.ok.inj h).symm⟩
        · rw [resolve_closed htext.symm hclosed] at h
          cases h
      · have hp : program.toList = first.text ++ closed.flatMap (closing :: ·.text) ++
            others.flatMap (opening :: ·.text) ++ opening :: last.text := by
          rw [← htext]
          simp
        rw [resolve_opened hp] at h
        cases h
  · intro hex
    obtain ⟨t, ht, rfl⟩ := hex
    exact resolve_text ht

/-- The tree of an accepted program, with what its table says in terms of that tree. -/
theorem exists_tree {program : Program} {table : JumpTable} (h : resolve program = .ok table) :
    ∃ t : Tree, t.text = program.toList ∧ table.targets.size = program.size ∧
      table.pairCount = t.loopCount ∧ ∀ i, table.partner? i = t.mate 0 i := by
  obtain ⟨t, ht, rfl⟩ := resolve_eq_ok_iff.mp h
  have hsize : 0 + t.size ≤ (blankTable program).targets.size := by
    rw [← Tree.length_text, ht]
    simp [blankTable]
  refine ⟨t, ht, by simp [blankTable], ?_, fun i => ?_⟩
  · rw [Tree.pairCount_record]
    exact Nat.zero_add _
  · rw [Tree.partner?_record t 0 _ i hsize, partner?_blankTable, Option.or_none]

/-! ### What a table says of its program -/

/-- The table of a program whose brackets are balanced. -/
structure IsMatching (program : Program) (table : JumpTable) : Prop where
  /-- The positions that have a partner are those that hold a bracket, among all signed ones. -/
  isSome_iff : ∀ i : Int, (table.lookup i).isSome ↔
    ∃ (k : Nat) (b : UInt8), i = k ∧ program[k]? = some b ∧ (b = opening ∨ b = closing)
  /-- The partner is another position, whose partner is the first. -/
  involution : ∀ (i : Int) (j : Nat), table.lookup i = some j →
    (j : Int) ≠ i ∧ ∃ k : Nat, i = k ∧ table.lookup j = some k
  /-- An opening bracket and a later closing one are partners exactly if what stands between them is
  balanced. -/
  pair_iff : ∀ i j : Nat, i < j → (table.lookup i = some j ↔
    program[i]? = some opening ∧ program[j]? = some closing ∧
      Balanced (word (program.extract (i + 1) j).toList))
  /-- No two pairs cross. -/
  nested : ∀ i j k l : Nat, table.lookup i = some j → table.lookup k = some l →
    i < k → k < j → k < l → l < j
  mem_pairs : ∀ i j : Nat, (i, j) ∈ table.pairs ↔ table.lookup i = some j ∧ i < j
  /-- Each pair is listed once, by the position of its opening bracket. -/
  pairs_ascending : table.pairs.Pairwise (fun p q => p.1 < q.1)
  count_opening : program.toList.count opening = table.pairCount
  count_closing : program.toList.count closing = table.pairCount
  length_pairs : table.pairs.length = table.pairCount

theorem lookup_natCast (table : JumpTable) (i : Nat) : table.lookup i = table.partner? i := by
  rw [JumpTable.lookup, if_neg (by omega), Int.toNat_natCast]

theorem lookup_eq_some {table : JumpTable} {i : Int} {j : Nat} (h : table.lookup i = some j) :
    ∃ k : Nat, i = k ∧ table.partner? k = some j := by
  unfold JumpTable.lookup at h
  split at h
  · cases h
  · exact ⟨i.toNat, by omega, h⟩

/-- A program cut at two of its bytes. -/
theorem split_iff {program : Program} {i j : Nat} {x y : UInt8} {mid : List UInt8} (hij : i < j) :
    program[i]? = some x ∧ program[j]? = some y ∧ (program.extract (i + 1) j).toList = mid ↔
      ∃ pre post, program.toList = pre ++ x :: (mid ++ y :: post) ∧ pre.length = i ∧
        j = i + mid.length + 1 := by
  rw [← Array.getElem?_toList, ← Array.getElem?_toList, Array.toList_extract]
  generalize program.toList = bytes
  constructor
  · intro hex
    obtain ⟨hx, hy, rfl⟩ := hex
    obtain ⟨hi, hx⟩ := List.getElem?_eq_some_iff.mp hx
    obtain ⟨hj, hy⟩ := List.getElem?_eq_some_iff.mp hy
    refine ⟨bytes.take i, bytes.drop (j + 1), ?_, by simp; omega, by simp; omega⟩
    have hafter : bytes.drop (i + 1) =
        (bytes.drop (i + 1)).take (j - (i + 1)) ++ y :: bytes.drop (j + 1) := by
      have hdrop := List.take_append_drop (j - (i + 1)) (bytes.drop (i + 1))
      rw [List.drop_drop, show i + 1 + (j - (i + 1)) = j by omega, List.drop_eq_getElem_cons hj, hy]
        at hdrop
      exact hdrop.symm
    rw [List.extract_eq_take_drop, ← hafter, ← hx, ← List.drop_eq_getElem_cons hi,
      List.take_append_drop]
  · intro hex
    obtain ⟨pre, post, rfl, rfl, rfl⟩ := hex
    refine ⟨by simp, ?_, ?_⟩
    · rw [List.getElem?_append_right (by omega),
        show pre.length + mid.length + 1 - pre.length = mid.length + 1 by omega]
      simp
    · rw [List.extract_eq_take_drop, List.drop_append, List.drop_of_length_le (by omega)]
      simp

section
variable {program : Program} {t : Tree} (ht : t.text = program.toList)
include ht

/-- An opening bracket and a later closing one are a pair of the tree exactly if what stands between
them is balanced. -/
theorem mate_eq_some_iff {i j : Nat} (hij : i < j) :
    t.mate 0 i = some j ↔ program[i]? = some opening ∧ program[j]? = some closing ∧
      Balanced (word (program.extract (i + 1) j).toList) := by
  constructor
  · intro h
    obtain ⟨pre, body, post, htext, hi, hj⟩ := Tree.mate_split h hij
    obtain ⟨hx, hy, hmid⟩ := (split_iff hij).mpr ⟨pre, post, by rw [← ht, htext], by omega,
      by rw [Tree.length_text]; exact hj⟩
    exact ⟨hx, hy, by rw [hmid]; exact balanced_text body⟩
  · intro hex
    obtain ⟨hx, hy, hmid⟩ := hex
    obtain ⟨body, hbody⟩ := (balanced_word_iff _).mp hmid
    obtain ⟨pre, post, hp, hi, hj⟩ := (split_iff hij).mp ⟨hx, hy, hbody.symm⟩
    -- The bracket at `i` has some partner; a tree ends at one place only, so the partner is `j`.
    obtain ⟨k, hk⟩ := Tree.mate_of_bracket 0 (t := t) (k := i) (b := opening)
      (by rw [ht, Array.getElem?_toList, hx]) (by decide)
    rw [Nat.zero_add] at hk
    have hne := (Tree.mate_bounds hk).2.2.2.2
    have hik : i < k := by
      rcases Nat.lt_or_gt_of_ne hne with hlt | hlt
      · exact hlt
      · obtain ⟨pre', body', post', htext, hi', hj'⟩ := Tree.mate_split (Tree.mate_mate hk) hlt
        obtain ⟨-, hclose, -⟩ := (split_iff hlt).mpr ⟨pre', post', by rw [← ht, htext], by omega,
          by rw [Tree.length_text]; exact hj'⟩
        rw [hx] at hclose
        cases hclose
    obtain ⟨pre', body', post', htext, hi', hk'⟩ := Tree.mate_split hk hik
    rw [← ht, htext] at hp
    obtain ⟨-, htail⟩ := List.append_inj hp (by omega)
    obtain ⟨rfl, -⟩ := Tree.text_closing_inj (List.cons.inj htail).2
    rw [hk, hk', hj, Tree.length_text]

/-- The positions that have a partner in the tree are those that hold a bracket. -/
theorem mate_isSome_iff (i : Nat) :
    (t.mate 0 i).isSome ↔ ∃ b, program[i]? = some b ∧ (b = opening ∨ b = closing) := by
  constructor
  · intro h
    obtain ⟨j, hj⟩ := Option.isSome_iff_exists.mp h
    rcases Nat.lt_or_gt_of_ne (Tree.mate_bounds hj).2.2.2.2 with hlt | hlt
    · exact ⟨opening, ((mate_eq_some_iff ht hlt).mp hj).1, .inl rfl⟩
    · exact ⟨closing, ((mate_eq_some_iff ht hlt).mp (Tree.mate_mate hj)).2.1, .inr rfl⟩
  · intro hex
    obtain ⟨b, hi, hb⟩ := hex
    obtain ⟨j, hj⟩ := Tree.mate_of_bracket 0 (t := t) (k := i) (b := b)
      (by rw [ht, Array.getElem?_toList, hi]) (by simpa [isBracket] using hb)
    rw [Nat.zero_add] at hj
    rw [hj]
    rfl

/-- The opening brackets are the positions whose partner comes later. -/
theorem opening_iff_mate (i : Nat) :
    program[i]? = some opening ↔ ∃ j, t.mate 0 i = some j ∧ i < j := by
  constructor
  · intro hi
    obtain ⟨j, hj⟩ := Option.isSome_iff_exists.mp
      ((mate_isSome_iff ht i).mpr ⟨opening, hi, .inl rfl⟩)
    rcases Nat.lt_or_gt_of_ne (Tree.mate_bounds hj).2.2.2.2 with hlt | hlt
    · exact ⟨j, hj, hlt⟩
    · have hclose := ((mate_eq_some_iff ht hlt).mp (Tree.mate_mate hj)).2.1
      rw [hi] at hclose
      cases hclose
  · intro hex
    obtain ⟨j, hj, hlt⟩ := hex
    exact ((mate_eq_some_iff ht hlt).mp hj).1

/-- The closing brackets are the positions whose partner comes earlier. -/
theorem closing_iff_mate (i : Nat) :
    program[i]? = some closing ↔ ∃ j, t.mate 0 i = some j ∧ j < i := by
  constructor
  · intro hi
    obtain ⟨j, hj⟩ := Option.isSome_iff_exists.mp
      ((mate_isSome_iff ht i).mpr ⟨closing, hi, .inr rfl⟩)
    rcases Nat.lt_or_gt_of_ne (Tree.mate_bounds hj).2.2.2.2 with hlt | hlt
    · have hopen := ((mate_eq_some_iff ht hlt).mp hj).1
      rw [hi] at hopen
      cases hopen
    · exact ⟨j, hj, hlt⟩
  · intro hex
    obtain ⟨j, hj, hlt⟩ := hex
    exact ((mate_eq_some_iff ht hlt).mp (Tree.mate_mate hj)).2.1

end

/-- Counting positions is counting bytes. -/
theorem countP_range (bytes : List UInt8) (b : UInt8) :
    (List.range bytes.length).countP (fun i => bytes[i]? = some b) = bytes.count b := by
  induction bytes with
  | nil => rfl
  | cons c bytes ih =>
    rw [List.length_cons, List.range_succ_eq_map, List.countP_cons, List.countP_map, List.count_cons,
      ← ih]
    simp [Function.comp_def]

/-- The pairs of a tree are as many as its loops. -/
theorem length_pairs {program : Program} {table : JumpTable} {t : Tree}
    (ht : t.text = program.toList) (hsize : table.targets.size = program.size)
    (hmate : ∀ i, table.partner? i = t.mate 0 i) : table.pairs.length = t.loopCount := by
  have hopens : ∀ i, ((table.partner? i).bind fun j => if i < j then some (i, j) else none).isSome =
      decide (program.toList[i]? = some opening) := by
    intro i
    rw [Bool.eq_iff_iff, decide_eq_true_iff, Array.getElem?_toList, opening_iff_mate ht, hmate]
    cases t.mate 0 i with
    | none => simp
    | some j =>
      by_cases hlt : i < j
      · simp [hlt]
      · simp [hlt]
  rw [JumpTable.pairs, JumpTable.pairsBefore_eq, List.append_nil, List.length_filterMap_eq_countP, hsize,
    ← Array.length_toList, ← Tree.count_bracket t (b := opening) (by decide), ht, ← countP_range]
  exact List.countP_congr fun i _ => by rw [hopens]

/-- The table of a tree is the matching of its text. -/
theorem isMatching_of_tree {program : Program} {table : JumpTable} {t : Tree}
    (ht : t.text = program.toList) (hsize : table.targets.size = program.size)
    (hcount : table.pairCount = t.loopCount) (hmate : ∀ i, table.partner? i = t.mate 0 i) :
    IsMatching program table where
  isSome_iff := by
    intro i
    constructor
    · intro h
      obtain ⟨j, hj⟩ := Option.isSome_iff_exists.mp h
      obtain ⟨k, rfl, hk⟩ := lookup_eq_some hj
      rw [hmate] at hk
      obtain ⟨b, hb⟩ := (mate_isSome_iff ht k).mp (by rw [hk]; rfl)
      exact ⟨k, b, rfl, hb⟩
    · intro hex
      obtain ⟨k, b, rfl, hb⟩ := hex
      rw [lookup_natCast, hmate]
      exact (mate_isSome_iff ht k).mpr ⟨b, hb⟩
  involution := by
    intro i j h
    obtain ⟨k, rfl, hk⟩ := lookup_eq_some h
    rw [hmate] at hk
    have hne := (Tree.mate_bounds hk).2.2.2.2
    exact ⟨by omega, k, rfl, by rw [lookup_natCast, hmate, Tree.mate_mate hk]⟩
  pair_iff := by
    intro i j hij
    rw [lookup_natCast, hmate]
    exact mate_eq_some_iff ht hij
  nested := by
    intro i j k l h h' hik hkj _
    rw [lookup_natCast, hmate] at h h'
    exact (Tree.mate_nested h h' hik hkj).1
  mem_pairs := by
    intro i j
    rw [lookup_natCast]
    exact JumpTable.mem_pairs table i j
  pairs_ascending := JumpTable.pairs_pairwise table
  count_opening := by rw [← ht, Tree.count_bracket t (by decide), hcount]
  count_closing := by rw [← ht, Tree.count_bracket t (by decide), hcount]
  length_pairs := by rw [length_pairs ht hsize hmate, hcount]

/-- **A program is accepted exactly if its brackets are balanced**, and its table is then their
matching. -/
theorem resolve_isMatching (program : Program) :
    ((∃ table, resolve program = .ok table) ↔ Balanced (word program.toList)) ∧
      ∀ table, resolve program = .ok table → IsMatching program table := by
  constructor
  · rw [balanced_word_iff]
    constructor
    · intro hex
      obtain ⟨table, h⟩ := hex
      obtain ⟨t, ht, -⟩ := exists_tree h
      exact ⟨t, ht⟩
    · intro hex
      obtain ⟨t, ht⟩ := hex
      exact ⟨_, resolve_text ht⟩
  · intro table h
    obtain ⟨t, ht, hsize, hcount, hmate⟩ := exists_tree h
    exact isMatching_of_tree ht hsize hcount hmate

/-- Two loops side by side in a third, with a byte that is no bracket among them. -/
theorem resolve_isMatching_nested :
    resolve #[0x5b, 0x5b, 0x5d, 0x2b, 0x5b, 0x5d, 0x5d] =
        .ok ⟨#[some 6, some 2, some 1, none, some 5, some 4, some 0], 3⟩ ∧
      IsMatching #[0x5b, 0x5b, 0x5d, 0x2b, 0x5b, 0x5d, 0x5d]
        ⟨#[some 6, some 2, some 1, none, some 5, some 4, some 0], 3⟩ :=
  ⟨rfl, (resolve_isMatching _).2 _ rfl⟩

end Brackets
end TapeMachine
