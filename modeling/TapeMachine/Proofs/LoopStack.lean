import TapeMachine.Proofs.Resolve
import TapeMachine.Proofs.Run

/-! The loop stack.

While a program runs with its own table, the stack holds the opening positions of the loops around the
next byte, innermost on top (`OpenAt`). A skipped loop, an entered one, a repeated one and a left one each
change the stack as the nesting asks, because pairs of brackets do not cross; that is proved of the
positions alone, and a step then only picks the right case. So the position popped at a closing bracket is
its partner, no bracket is ever found unbalanced at run time, the stack is never deeper than the program
nests, and it is empty behind the last byte. -/
namespace TapeMachine
open Brackets

/-! ### Positions -/

/-- The items are the opening positions of the loops around position `ip`, innermost first. -/
structure OpenAt (t : Tree) (ip : Nat) (items : List Nat) : Prop where
  descending : items.Pairwise (· > ·)
  mem_iff : ∀ o, o ∈ items ↔ ∃ c, t.mate 0 o = some c ∧ o < ip ∧ ip ≤ c

namespace OpenAt
variable {t : Tree} {ip j : Nat} {items rest : List Nat}

theorem start (t : Tree) : OpenAt t 0 [] := by
  refine ⟨.nil, fun o => ⟨fun h => (by cases h), ?_⟩⟩
  intro hex
  obtain ⟨c, -, ho, -⟩ := hex
  omega

/-- A loop around `ip` does not end at `ip`, unless the bracket there closes it. -/
theorem end_ne (ip : Nat) {o c : Nat} (ho : t.mate 0 o = some c) (hne : t.mate 0 ip ≠ some o) : c ≠ ip := by
  intro heq
  subst heq
  exact hne (Tree.mate_mate ho)

theorem plain (h : OpenAt t ip items) (hip : t.mate 0 ip = none) : OpenAt t (ip + 1) items := by
  refine ⟨h.descending, fun o => ?_⟩
  rw [h.mem_iff]
  constructor
  · intro hex
    obtain ⟨c, hc, hlt, hle⟩ := hex
    have := end_ne ip hc (by rw [hip]; exact Option.some_ne_none o |>.symm)
    exact ⟨c, hc, by omega, by omega⟩
  · intro hex
    obtain ⟨c, hc, hlt, hle⟩ := hex
    have : o ≠ ip := by
      intro heq
      subst heq
      rw [hip] at hc
      cases hc
    exact ⟨c, hc, by omega, by omega⟩

theorem skip (h : OpenAt t ip items) (hip : t.mate 0 ip = some j) (hlt : ip < j) :
    OpenAt t (j + 1) items := by
  refine ⟨h.descending, fun o => ?_⟩
  rw [h.mem_iff]
  constructor
  · intro hex
    obtain ⟨c, hc, ho, hle⟩ := hex
    have hne := end_ne ip hc (by rw [hip]; exact fun h => by have := Option.some.inj h; omega)
    have := Tree.mate_nested hc hip ho (by omega)
    exact ⟨c, hc, by omega, by omega⟩
  · intro hex
    obtain ⟨c, hc, ho, hle⟩ := hex
    have hopen : o ≠ ip := by
      intro heq
      subst heq
      have := Option.some.inj (hc.symm.trans hip)
      omega
    have hclose : o ≠ j := by
      intro heq
      subst heq
      have := Option.some.inj (hc.symm.trans (Tree.mate_mate hip))
      omega
    have hinside : ¬ip < o := by
      intro hin
      have := Tree.mate_nested hip hc hin (by omega)
      omega
    exact ⟨c, hc, by omega, by omega⟩

theorem enter (h : OpenAt t ip items) (hip : t.mate 0 ip = some j) (hlt : ip < j) :
    OpenAt t (ip + 1) (ip :: items) := by
  constructor
  · refine List.pairwise_cons.mpr ⟨fun o ho => ?_, h.descending⟩
    obtain ⟨c, -, hlt, -⟩ := (h.mem_iff o).mp ho
    exact hlt
  · intro o
    rw [List.mem_cons, h.mem_iff]
    constructor
    · intro hex
      rcases hex with rfl | ⟨c, hc, ho, hle⟩
      · exact ⟨j, hip, by omega, by omega⟩
      · have := end_ne ip hc (by rw [hip]; exact fun h => by have := Option.some.inj h; omega)
        exact ⟨c, hc, by omega, by omega⟩
    · intro hex
      obtain ⟨c, hc, ho, hle⟩ := hex
      by_cases heq : o = ip
      · exact .inl heq
      · exact .inr ⟨c, hc, by omega, by omega⟩

/-- At a closing bracket the innermost loop is the one that it closes. -/
theorem top (h : OpenAt t ip items) (hip : t.mate 0 ip = some j) (hlt : j < ip) :
    ∃ rest, items = j :: rest := by
  have hmem : j ∈ items := (h.mem_iff j).mpr ⟨ip, Tree.mate_mate hip, hlt, Nat.le_refl ip⟩
  cases items with
  | nil => cases hmem
  | cons x rest =>
    refine ⟨rest, ?_⟩
    rcases List.mem_cons.mp hmem with rfl | hrest
    · rfl
    · have hx : x > j := (List.pairwise_cons.mp h.descending).1 j hrest
      obtain ⟨c, hc, ho, hle⟩ := (h.mem_iff x).mp (List.mem_cons_self ..)
      have := Tree.mate_nested (Tree.mate_mate hip) hc hx ho
      omega

theorem mem_rest (h : OpenAt t ip (j :: rest)) (o : Nat) : o ∈ rest ↔ o ∈ j :: rest ∧ o ≠ j := by
  constructor
  · intro ho
    have : j > o := (List.pairwise_cons.mp h.descending).1 o ho
    exact ⟨List.mem_cons_of_mem j ho, by omega⟩
  · intro hex
    obtain ⟨ho, hne⟩ := hex
    rcases List.mem_cons.mp ho with rfl | ho
    · exact absurd rfl hne
    · exact ho

theorem leave (h : OpenAt t ip (j :: rest)) (hip : t.mate 0 ip = some j) (hlt : j < ip) :
    OpenAt t (ip + 1) rest := by
  refine ⟨(List.pairwise_cons.mp h.descending).2, fun o => ?_⟩
  rw [h.mem_rest, h.mem_iff]
  constructor
  · intro hex
    obtain ⟨⟨c, hc, ho, hle⟩, hne⟩ := hex
    have := end_ne ip hc (by rw [hip]; exact fun h => hne (Option.some.inj h).symm)
    exact ⟨c, hc, by omega, by omega⟩
  · intro hex
    obtain ⟨c, hc, ho, hle⟩ := hex
    have hclose : o ≠ ip := by
      intro heq
      subst heq
      have := Option.some.inj (hc.symm.trans hip)
      omega
    have hopen : o ≠ j := by
      intro heq
      subst heq
      have := Option.some.inj (hc.symm.trans (Tree.mate_mate hip))
      omega
    exact ⟨⟨c, hc, by omega, by omega⟩, hopen⟩

theorem back (h : OpenAt t ip (j :: rest)) (hip : t.mate 0 ip = some j) (hlt : j < ip) :
    OpenAt t j rest := by
  refine ⟨(List.pairwise_cons.mp h.descending).2, fun o => ?_⟩
  constructor
  · intro hrest
    have ho : j > o := (List.pairwise_cons.mp h.descending).1 o hrest
    obtain ⟨c, hc, -, hle⟩ := (h.mem_iff o).mp (List.mem_cons_of_mem j hrest)
    exact ⟨c, hc, ho, by omega⟩
  · intro hex
    obtain ⟨c, hc, ho, hle⟩ := hex
    have hne := end_ne j hc
      (by rw [Tree.mate_mate hip]; exact fun h => by have := Option.some.inj h; omega)
    have := Tree.mate_nested hc (Tree.mate_mate hip) ho (by omega)
    rw [h.mem_rest, h.mem_iff]
    exact ⟨⟨c, hc, by omega, by omega⟩, by omega⟩

theorem behind (h : OpenAt t ip items) (hip : t.size ≤ ip) : items = [] := by
  cases items with
  | nil => rfl
  | cons o rest =>
    obtain ⟨c, hc, -, hle⟩ := (h.mem_iff o).mp (List.mem_cons_self ..)
    have := Tree.mate_bounds hc
    omega

end OpenAt

/-- There are no more loops around a place than the tree is deep. -/
theorem Tree.length_le_depth (t : Tree) {a ip : Nat} {items : List Nat}
    (hdesc : items.Pairwise (· > ·))
    (hmem : ∀ o ∈ items, ∃ c, t.mate a o = some c ∧ o < ip ∧ ip ≤ c) : items.length ≤ t.depth := by
  induction t generalizing a items with
  | done =>
    cases items with
    | nil => exact Nat.zero_le _
    | cons o rest =>
      obtain ⟨c, hc, -⟩ := hmem o (List.mem_cons_self ..)
      cases hc
  | plain b h rest ih => exact ih hdesc hmem
  | loop body rest ihb ihr =>
    simp only [mate] at hmem
    by_cases hin : ip ≤ a + body.size + 1
    · -- Up to the closing bracket: the loop itself, and the loops of its body.
      have hnodup : items.Nodup := hdesc.imp (fun h => Nat.ne_of_gt h)
      have hbody : ∀ o ∈ items.erase a, ∃ c, body.mate (a + 1) o = some c ∧ o < ip ∧ ip ≤ c := by
        intro o ho
        obtain ⟨hne, ho⟩ := hnodup.mem_erase_iff.mp ho
        obtain ⟨c, hc, hlt, hle⟩ := hmem o ho
        rw [if_neg hne, if_neg (by omega), if_pos (by omega)] at hc
        exact ⟨c, hc, hlt, hle⟩
      have hdepth := ihb (hdesc.sublist List.erase_sublist) hbody
      have hlen := List.length_erase (a := a) (l := items)
      simp only [depth]
      split at hlen <;> omega
    · -- Behind it: the loops of the rest.
      have hrest : ∀ o ∈ items, ∃ c, rest.mate (a + body.size + 2) o = some c ∧ o < ip ∧ ip ≤ c := by
        intro o ho
        obtain ⟨c, hc, hlt, hle⟩ := hmem o ho
        refine ⟨c, ?_, hlt, hle⟩
        split at hc
        · have := Option.some.inj hc
          omega
        · split at hc
          · have := Option.some.inj hc
            omega
          · split at hc
            · have := mate_bounds hc
              omega
            · exact hc
      have hdepth := ihr hdesc hrest
      simp only [depth]
      omega

/-! ### Steps -/

namespace Machine
variable {w : Nat} {task : Task} {t : Tree} (ht : t.text = task.program.toList)
  (hjumps : ∀ i, task.jumps.partner? i = t.mate 0 i)
include ht hjumps

omit hjumps in
theorem mate_of_plain {m : Machine w} {byte : UInt8} (hdue : m.due task = some byte)
    (hplain : isBracket byte = false) : t.mate 0 m.ip = none := by
  cases hm : t.mate 0 m.ip with
  | none => rfl
  | some j =>
    obtain ⟨b, hb, hbracket⟩ := (mate_isSome_iff ht m.ip).mp (by rw [hm]; rfl)
    obtain rfl := Option.some.inj ((program_of_due hdue).symm.trans hb)
    rcases hbracket with rfl | rfl
    · cases hplain
    · cases hplain

/-- A step keeps the stack in agreement with the nesting. -/
theorem openAt_step {m m' : Machine w} (h : OpenAt t m.ip m.loops.items)
    (hstep : m.step task = .running m') : OpenAt t m'.ip m'.loops.items := by
  -- The partner of a closing bracket is on top of the stack.
  have htop {start : Nat} {rest : List Nat} (hdue : m.due task = some closing)
      (hitems : m.loops.items = start :: rest) :
      OpenAt t m.ip (start :: rest) ∧ t.mate 0 m.ip = some start ∧ start < m.ip := by
    obtain ⟨j, hj, hlt⟩ := (closing_iff_mate ht m.ip).mp (program_of_due hdue)
    obtain ⟨others, hothers⟩ := h.top hj hlt
    obtain ⟨rfl, rfl⟩ := List.cons.inj (hitems.symm.trans hothers)
    exact ⟨hitems ▸ h, hj, hlt⟩
  have hsimple {byte : UInt8} (hdue : m.due task = some byte) (hplain : isBracket byte = false) :
      OpenAt t (m.ip + 1) m.loops.items := h.plain (mate_of_plain ht hdue hplain)
  cases advances_of_running hstep with
  | shift hdue hplain => exact hsimple hdue hplain
  | write hdue hi => exact hsimple hdue (Instruction.plain_of_ofByte? hi (by decide) (by decide))
  | read hdue hi => exact hsimple hdue (Instruction.plain_of_ofByte? hi (by decide) (by decide))
  | ended hdue hi => exact hsimple hdue (Instruction.plain_of_ofByte? hi (by decide) (by decide))
  | skip hdue _ hpartner =>
    obtain ⟨j, hj, hlt⟩ := (opening_iff_mate ht m.ip).mp (program_of_due hdue)
    rw [hjumps, hj] at hpartner
    obtain rfl := Option.some.inj hpartner
    exact h.skip hj hlt
  | enter hdue =>
    obtain ⟨j, hj, hlt⟩ := (opening_iff_mate ht m.ip).mp (program_of_due hdue)
    exact h.enter hj hlt
  | leave hdue hitems =>
    obtain ⟨hopen, hj, hlt⟩ := htop hdue hitems
    exact hopen.leave hj hlt
  | back hdue hitems =>
    obtain ⟨hopen, hj, hlt⟩ := htop hdue hitems
    exact hopen.back hj hlt

/-- The stack agrees with the nesting throughout a run. -/
theorem openAt_run {m m' : Machine w} {visited : List (Machine w)} (h : OpenAt t m.ip m.loops.items)
    (hrun : Run task m visited m') : OpenAt t m'.ip m'.loops.items :=
  hrun.invariant (P := fun _ n => OpenAt t n.ip n.loops.items) h
    (fun _ _ _ hn hs => openAt_step ht hjumps hn hs)

omit hjumps in
theorem loops_of_finished {m m' : Machine w} {fault : Option Fault} (h : OpenAt t m.ip m.loops.items)
    (hstop : m.step task = .stopped m' .finished fault) : m'.loops.items = [] := by
  rcases stop_cases hstop with ⟨hend, hf⟩ | ⟨n, given, hgive, -⟩
  · have hsize : t.size ≤ m.ip := by
      rw [← Tree.length_text, ht, Array.length_toList]
      exact Array.getElem?_eq_none_iff.mp hend
    rw [machine_of_finish hf]
    exact h.behind hsize
  · cases hgive

/-- No bracket is found unbalanced while the stack agrees with the nesting. -/
theorem balanced_of_stopped {m m' : Machine w} {reason : StopReason} {fault : Fault}
    (h : OpenAt t m.ip m.loops.items) (hstop : m.step task = .stopped m' reason (some fault)) :
    fault.isA .unbalancedBrackets = false := by
  rcases stop_cases hstop with ⟨-, hf⟩ | ⟨n, given, hgive, habort⟩
  · rcases finish_cases m with ⟨-, hm⟩ | ⟨text, -, hm⟩ <;> rw [hm] at hf
    · cases (Progress.stopped.inj hf).2.2
    · obtain rfl := Option.some.inj (Progress.stopped.inj hf).2.2
      rfl
  · obtain ⟨told, htold, -, hkind⟩ := abort_eq n reason given
    obtain rfl := Option.some.inj (Progress.stopped.inj (htold.symm.trans habort)).2.2
    rw [hkind _ (by decide)]
    cases hgive with
    | spent => rfl
    | interrupted => rfl
    | writing => rfl
    | flushing => rfl
    | reading => rfl
    | unrecorded hdue _ hnone =>
      obtain ⟨j, hj, -⟩ := (opening_iff_mate ht m.ip).mp (program_of_due hdue)
      rw [hjumps, hj] at hnone
      cases hnone
    | stray hdue hnil =>
      obtain ⟨j, hj, hlt⟩ := (closing_iff_mate ht m.ip).mp (program_of_due hdue)
      obtain ⟨rest, hitems⟩ := h.top hj hlt
      rw [hnil] at hitems
      cases hitems

end Machine

/-! ### The stack and the table -/

/-- The loop stack of a machine about to take a step, as the program and its table have it. -/
structure Machine.StackAgrees {w : Nat} (task : Task) (t : Tree) (m : Machine w) : Prop where
  /-- From bottom to top the positions ascend. -/
  ascending : m.loops.items.reverse.Pairwise (· < ·)
  /-- They are the opening brackets before the next byte whose partners are not before it. -/
  mem_iff : ∀ o, o ∈ m.loops.items ↔ task.program[o]? = some opening ∧
    ∃ c, task.jumps.lookup o = some c ∧ o < m.ip ∧ m.ip ≤ c
  /-- What a closing bracket pops is its partner. -/
  popped : task.program[m.ip]? = some closing →
    ∃ o, m.loops.pop.1 = some o ∧ task.jumps.lookup m.ip = some o
  /-- An opening bracket has a partner to go to. -/
  recorded : task.program[m.ip]? = some opening → ∃ c, task.jumps.lookup m.ip = some c
  shallow : m.loops.size ≤ t.depth

theorem OpenAt.stackAgrees {w : Nat} {task : Task} {t : Tree} {m : Machine w}
    (ht : t.text = task.program.toList) (hjumps : ∀ i, task.jumps.partner? i = t.mate 0 i)
    (h : OpenAt t m.ip m.loops.items) : m.StackAgrees task t where
  ascending := List.pairwise_reverse.mpr h.descending
  mem_iff := by
    intro o
    rw [h.mem_iff, lookup_natCast, hjumps, opening_iff_mate ht]
    constructor
    · intro hex
      obtain ⟨c, hc, hlt, hle⟩ := hex
      exact ⟨⟨c, hc, by omega⟩, c, hc, hlt, hle⟩
    · intro hex
      obtain ⟨-, hc⟩ := hex
      exact hc
  popped := by
    intro hclose
    obtain ⟨j, hj, hlt⟩ := (closing_iff_mate ht m.ip).mp hclose
    obtain ⟨rest, hitems⟩ := h.top hj hlt
    exact ⟨j, by rw [Stack.pop, hitems], by rw [lookup_natCast, hjumps, hj]⟩
  recorded := by
    intro hopen
    obtain ⟨j, hj, -⟩ := (opening_iff_mate ht m.ip).mp hopen
    exact ⟨j, by rw [lookup_natCast, hjumps, hj]⟩
  shallow := t.length_le_depth h.descending (fun o ho => (h.mem_iff o).mp ho)

/-- **The loop stack and the jump table agree**, before every step of a program that runs with its own
table: no bracket is found unbalanced on the way, and the stack is empty at a good end. -/
theorem Machine.loops_agree {w : Nat} (task : Task)
    (hresolve : resolve task.program = .ok task.jumps) (tape : Tape w) (input : Input)
    (sink : Option Sink) (signal : Signal) :
    ∃ t, Tree.parse? task.program.toList = some t ∧
      (∀ visited m, Run task (fresh tape input sink signal) visited m → m.StackAgrees task t) ∧
      ∀ h, Halts task (fresh tape input sink signal) h →
        (∀ fault, h.fault = some fault → fault.isA .unbalancedBrackets = false) ∧
        (h.reason = .finished → h.machine.loops.items = []) := by
  obtain ⟨t, ht, -, -, hjumps⟩ := exists_tree hresolve
  have hstart : OpenAt t (fresh tape input sink signal).ip (fresh tape input sink signal).loops.items :=
    OpenAt.start t
  refine ⟨t, Tree.parse?_eq_some_iff.mpr ht, fun visited m hrun => ?_, fun h hhalts => ?_⟩
  · exact (openAt_run ht hjumps hstart hrun).stackAgrees ht hjumps
  · obtain ⟨visited, hafter⟩ := halts_iff.mp hhalts
    cases hafter with
    | cancelled _ hstop =>
      obtain ⟨told, habort, -, hkind⟩ :=
        abort_eq (fresh tape input sink signal) .interrupted (.caused .interrupted (.cancelled _))
      obtain ⟨-, hreason, hfault⟩ := Progress.stopped.inj (habort.symm.trans hstop)
      refine ⟨fun fault hf => ?_, fun hfin => ?_⟩
      · obtain rfl := Option.some.inj (hfault.trans hf)
        rw [hkind _ (by decide)]
        rfl
      · rw [hfin] at hreason
        cases hreason
    | stopped _ hrun hstop =>
      have hlast := openAt_run ht hjumps hstart hrun
      refine ⟨fun fault hf => ?_, fun hfin => ?_⟩
      · rw [hf] at hstop
        exact balanced_of_stopped ht hjumps hlast hstop
      · rw [hfin] at hstop
        exact loops_of_finished ht hlast hstop

/-- Both loops of a nest are on the stack once they are entered. -/
theorem Machine.loops_agree_nest :
    resolve #[0x5b, 0x5b, 0x2d, 0x5d, 0x5d] = .ok ⟨#[some 4, some 3, none, some 1, some 0], 2⟩ ∧
      ∃ (t : Tree) (m : Machine 8), m.loops.items = [1, 0] ∧ m.ip = 2 ∧
        m.StackAgrees
          { program := #[0x5b, 0x5b, 0x2d, 0x5d, 0x5d]
            jumps := ⟨#[some 4, some 3, none, some 1, some 0], 2⟩ } t := by
  obtain ⟨t, -, hstack, -⟩ := loops_agree
    { program := #[0x5b, 0x5b, 0x2d, 0x5d, 0x5d]
      jumps := ⟨#[some 4, some 3, none, some 1, some 0], 2⟩ }
    rfl ⟨#[(1 : BitVec 8)], 0⟩ .absent none .clear
  exact ⟨rfl, t, _, rfl, rfl, hstack _ _ (.cons rfl (.cons rfl (.nil _)))⟩

end TapeMachine
