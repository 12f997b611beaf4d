import TapeMachine.Proofs.Atomicity
import TapeMachine.Proofs.StepLimit

/-! Bytes that do nothing.

The bytes of a program that are no instructions are comments, and its `essence` is what remains without them. An
instruction stands in the essence at its `rank`, the number of instructions before it. The brackets of the essence are
those of the program, renumbered (`Brackets.partner?_essence`).

A machine that runs the program and one that runs the essence differ in their positions and in their counts of steps
only (`Machine.abridged`). A comment is a step of the first machine which the second one does not make
(`Machine.step_comment`); the step of an instruction is one of both (`Machine.step_instruction`). So each of them halts
if the other one does, in the same way, and their counts differ by the comments on the way. -/
namespace TapeMachine

/-! ### Programs without comments -/

/-- The instructions of a program. -/
def essence (program : Program) : Program := program.filter isInstruction

/-- The number of instructions before position `i`. -/
def rank (program : Program) (i : Nat) : Nat := instructionCount (program.toList.take i)

/-- Position `i` holds an instruction. -/
def HoldsInstruction (program : Program) (i : Nat) : Prop := ∃ b, program[i]? = some b ∧ isInstruction b = true

theorem toList_essence (program : Program) : (essence program).toList = program.toList.filter isInstruction :=
  Array.toList_filter

/-- Among some bytes there is an instruction of every rank below the number of instructions. -/
theorem exists_instruction_of_lt {bytes : List UInt8} {k : Nat} (hk : k < instructionCount bytes) :
    ∃ i b, bytes[i]? = some b ∧ isInstruction b = true ∧ instructionCount (bytes.take i) = k := by
  induction bytes generalizing k with
  | nil => cases hk
  | cons first rest ih =>
    rw [instructionCount] at hk
    cases hfirst : isInstruction first with
    | false =>
      have hskip : ¬isInstruction first = true := by rw [hfirst]; decide
      rw [List.countP_cons_of_neg hskip] at hk
      obtain ⟨i, b, hb, hi, hcount⟩ := ih hk
      refine ⟨i + 1, b, hb, hi, ?_⟩
      rw [List.take_succ_cons, instructionCount, List.countP_cons_of_neg hskip]
      exact hcount
    | true =>
      rw [List.countP_cons_of_pos hfirst] at hk
      cases k with
      | zero => exact ⟨0, first, rfl, hfirst, rfl⟩
      | succ k =>
        obtain ⟨i, b, hb, hi, hcount⟩ := ih (Nat.lt_of_succ_lt_succ hk)
        refine ⟨i + 1, b, hb, hi, ?_⟩
        rw [List.take_succ_cons, instructionCount, List.countP_cons_of_pos hfirst]
        exact congrArg (· + 1) hcount

section
variable {program : Program} {i : Nat} {b : UInt8}

theorem rank_succ (hb : program[i]? = some b) :
    rank program (i + 1) = rank program i + if isInstruction b then 1 else 0 := by
  rw [← Array.getElem?_toList] at hb
  rw [rank, rank, instructionCount, instructionCount, List.take_add_one, hb, List.countP_append]
  cases hi : isInstruction b <;> simp [hi]

/-- The rank of the first position behind some bytes. -/
theorem rank_of_append {pre post : List UInt8} (h : program.toList = pre ++ post) :
    rank program pre.length = (pre.filter isInstruction).length := by
  rw [rank, h, List.take_left, instructionCount, List.countP_eq_length_filter]

/-- An instruction stands at its rank. -/
theorem essence_rank (hb : program[i]? = some b) (hi : isInstruction b = true) :
    (essence program)[rank program i]? = some b := by
  obtain ⟨pre, post, hsplit, rfl⟩ : ∃ pre post, program.toList = pre ++ b :: post ∧ pre.length = i := by
    rw [← Array.getElem?_toList] at hb
    obtain ⟨hlt, rfl⟩ := List.getElem?_eq_some_iff.mp hb
    refine ⟨program.toList.take i, program.toList.drop (i + 1), ?_, List.length_take_of_le (Nat.le_of_lt hlt)⟩
    rw [← List.drop_eq_getElem_cons hlt, List.take_append_drop]
  rw [← Array.getElem?_toList, toList_essence, rank_of_append hsplit, hsplit, List.filter_append,
    List.filter_cons_of_pos hi, List.getElem?_append_right (Nat.le_refl _), Nat.sub_self, List.getElem?_cons_zero]

/-- Every position of the essence is the rank of an instruction. -/
theorem exists_rank_eq {k : Nat} (hk : k < (essence program).size) :
    ∃ i, HoldsInstruction program i ∧ rank program i = k := by
  rw [← Array.length_toList, toList_essence, ← List.countP_eq_length_filter] at hk
  obtain ⟨i, b, hb, hi, hcount⟩ := exists_instruction_of_lt hk
  rw [Array.getElem?_toList] at hb
  exact ⟨i, ⟨b, hb, hi⟩, hcount⟩

/-- Behind the program is behind its essence. -/
theorem essence_behind (hend : program[i]? = none) : (essence program)[rank program i]? = none := by
  rw [← Array.getElem?_toList] at hend ⊢
  rw [toList_essence, rank, List.take_of_length_le (List.getElem?_eq_none_iff.mp hend), instructionCount,
    List.countP_eq_length_filter]
  exact List.getElem?_eq_none (Nat.le_refl _)

end

namespace Brackets
variable {program : Program}

theorem isInstruction_of_isBracket {b : UInt8} (h : isBracket b = true) : isInstruction b = true := by
  rcases Bool.or_eq_true_iff.mp h with h | h
  · rw [beq_iff_eq.mp h]
    decide
  · rw [beq_iff_eq.mp h]
    decide

theorem word_filter (bytes : List UInt8) : word (bytes.filter isInstruction) = word bytes := by
  rw [word, word, List.filter_filter]
  refine List.filter_congr fun b _ => ?_
  cases h : isBracket b with
  | false => rfl
  | true => rw [isInstruction_of_isBracket h]; rfl

/-- A program is accepted exactly if its essence is. -/
theorem resolve_essence_iff (program : Program) :
    (∃ table, resolve program = .ok table) ↔ ∃ table, resolve (essence program) = .ok table := by
  rw [← balanced_iff_resolve, ← balanced_iff_resolve, toList_essence, word_filter]

section
variable {t u : Tree} (ht : t.text = program.toList) (hu : u.text = (essence program).toList)
include ht hu

/-- An opening bracket and its partner are a pair in the essence, too. -/
theorem mate_essence_of_lt {i j : Nat} (h : t.mate 0 i = some j) (hij : i < j) :
    u.mate 0 (rank program i) = some (rank program j) := by
  obtain ⟨pre, body, post, htext, hi, hj⟩ := Tree.mate_split h hij
  obtain rfl : pre.length = i := by omega
  have hsplit : program.toList = pre ++ opening :: (body.text ++ closing :: post) := ht.symm.trans htext
  have hopen : rank program pre.length = (pre.filter isInstruction).length := rank_of_append hsplit
  have hclose : rank program j
      = (pre.filter isInstruction).length + (body.text.filter isInstruction).length + 1 := by
    have hbefore : program.toList = (pre ++ opening :: body.text) ++ closing :: post := by
      rw [hsplit, List.append_assoc, List.cons_append]
    have hrank := rank_of_append hbefore
    rw [List.filter_append, List.filter_cons_of_pos (by decide), List.length_append, List.length_cons,
      List.length_append, List.length_cons, Tree.length_text] at hrank
    rw [hj, Nat.add_assoc, hrank, Nat.add_assoc]
  have hpair : rank program pre.length < rank program j := by omega
  obtain ⟨hx, hy, hmid⟩ := (split_iff hpair).mpr ⟨pre.filter isInstruction, post.filter isInstruction, by
    rw [toList_essence, hsplit, List.filter_append, List.filter_cons_of_pos (by decide), List.filter_append,
      List.filter_cons_of_pos (by decide)], hopen.symm, by rw [hopen, hclose]⟩
  refine (mate_eq_some_iff hu hpair).mpr ⟨hx, hy, ?_⟩
  rw [hmid, word_filter]
  exact balanced_text body

/-- The partner in the essence is the partner in the program, renumbered. -/
theorem mate_essence {i : Nat} {b : UInt8} (hb : program[i]? = some b) (hi : isInstruction b = true) :
    u.mate 0 (rank program i) = (t.mate 0 i).map (rank program) := by
  cases hmate : t.mate 0 i with
  | some j =>
    rcases Nat.lt_or_gt_of_ne (Tree.mate_bounds hmate).2.2.2.2 with hlt | hlt
    · exact mate_essence_of_lt ht hu hmate hlt
    · exact Tree.mate_mate (mate_essence_of_lt ht hu (Tree.mate_mate hmate) hlt)
  | none =>
    have hplain : ¬∃ c, program[i]? = some c ∧ (c = opening ∨ c = closing) := by
      rw [← mate_isSome_iff ht, hmate]
      exact Bool.false_ne_true
    cases hother : u.mate 0 (rank program i) with
    | none => rfl
    | some k =>
      obtain ⟨c, hc, hbracket⟩ := (mate_isSome_iff hu _).mp (by rw [hother]; rfl)
      obtain rfl := Option.some.inj ((essence_rank hb hi).symm.trans hc)
      exact absurd ⟨_, hb, hbracket⟩ hplain

end

/-- The tables of a program and of its essence agree up to the numbering, also if there is nothing in them because
the brackets are not balanced. -/
theorem partner?_essence {i : Nat} {b : UInt8} (hb : program[i]? = some b) (hi : isInstruction b = true) :
    (resolution (essence program)).1.partner? (rank program i)
      = ((resolution program).1.partner? i).map (rank program) := by
  have hiff := resolve_essence_iff program
  unfold resolution
  cases hp : resolve program with
  | ok table =>
    obtain ⟨table', hs⟩ := hiff.mp ⟨table, hp⟩
    obtain ⟨t, ht, -, -, hmate⟩ := exists_tree hp
    obtain ⟨u, hu, -, -, hmate'⟩ := exists_tree hs
    simp only [hs, hmate, hmate', mate_essence ht hu hb hi]
  | error cause =>
    cases hs : resolve (essence program) with
    | ok table =>
      obtain ⟨table', hp'⟩ := hiff.mpr ⟨table, hs⟩
      cases hp.symm.trans hp'
    | error cause' => rfl

/-- Only instructions have a partner. -/
theorem holdsInstruction_of_partner? {i j : Nat} (h : (resolution program).1.partner? i = some j) :
    HoldsInstruction program i ∧ HoldsInstruction program j := by
  unfold resolution at h
  cases hp : resolve program with
  | error cause =>
    rw [hp] at h
    cases h
  | ok table =>
    rw [hp] at h
    obtain ⟨t, ht, -, -, hmate⟩ := exists_tree hp
    have hmate : t.mate 0 i = some j := (hmate i).symm.trans h
    have hholds {k l : Nat} (hk : t.mate 0 k = some l) : HoldsInstruction program k := by
      obtain ⟨b, hb, hbracket⟩ := (mate_isSome_iff ht k).mp (by rw [hk]; rfl)
      exact ⟨b, hb, isInstruction_of_isBracket (by simpa [isBracket] using hbracket)⟩
    exact ⟨hholds hmate, hholds (Tree.mate_mate hmate)⟩

/-- The table of an essence gives every instruction the partner that the table of the program gives it, at its rank, and
neither gives one to anything else. -/
structure Renumbered (program : Program) (table table' : JumpTable) : Prop where
  lookup_rank : ∀ i : Nat, HoldsInstruction program i →
    table'.lookup (rank program i) = (table.lookup i).map (rank program)
  source : ∀ i : Int, (table.lookup i).isSome → ∃ k : Nat, i = k ∧ HoldsInstruction program k
  image : ∀ i : Int, (table'.lookup i).isSome → ∃ k : Nat, i = rank program k ∧ HoldsInstruction program k

theorem renumbered {table table' : JumpTable} (hp : resolve program = .ok table)
    (hs : resolve (essence program) = .ok table') : Renumbered program table table' := by
  have htable : (resolution program).1 = table := by rw [resolution, hp]
  have htable' : (resolution (essence program)).1 = table' := by rw [resolution, hs]
  refine ⟨fun i hi => ?_, fun i hi => ?_, fun i hi => ?_⟩
  · obtain ⟨b, hb, hi⟩ := hi
    rw [lookup_natCast, lookup_natCast, ← htable, ← htable']
    exact partner?_essence hb hi
  · obtain ⟨j, hj⟩ := Option.isSome_iff_exists.mp hi
    obtain ⟨k, rfl, hk⟩ := lookup_eq_some hj
    rw [← htable] at hk
    exact ⟨k, rfl, (holdsInstruction_of_partner? hk).1⟩
  · obtain ⟨j, hj⟩ := Option.isSome_iff_exists.mp hi
    obtain ⟨k, rfl, hk⟩ := lookup_eq_some hj
    rw [← htable'] at hk
    obtain ⟨b, hb, -⟩ := (holdsInstruction_of_partner? hk).1
    obtain ⟨l, hl, rfl⟩ := exists_rank_eq (Array.getElem?_eq_some_iff.mp hb).1
    exact ⟨l, rfl, hl⟩

end Brackets

/-! ### Steps -/

namespace Machine
variable {w : Nat} {program : Program} {steps : Nat} {m : Machine w}

/-- The machine on the essence of its program, with a count of its own. -/
def abridged (program : Program) (steps : Nat) (m : Machine w) : Machine w :=
  { m with ip := rank program m.ip, loops := ⟨m.loops.items.map (rank program)⟩, steps }

theorem Calm.abridged (h : m.Calm) : (m.abridged program steps).Calm := ⟨h.signal, h.input, h.outbox⟩

/-- Two steps that lead to the same, the second one on the essence of the program. Their faults are of the same kinds,
but they tell of other positions. -/
inductive Abridges (program : Program) (steps : Nat) : Progress w → Progress w → Prop
  | running (m : Machine w) : Abridges program steps (.running m) (.running (m.abridged program steps))
  | stopped (m : Machine w) (reason : StopReason) {fault fault' : Option Fault} :
      fault'.map Fault.kinds = fault.map Fault.kinds →
      Abridges program steps (.stopped m reason fault) (.stopped (m.abridged program steps) reason fault')

namespace Abridges

theorem finish (m : Machine w) : Abridges program steps m.finish (m.abridged program steps).finish := by
  have hflush : (m.abridged program steps).flush = m.flush.abridged program steps := rfl
  have hfailure : (m.flush.abridged program steps).outbox.failure = m.flush.outbox.failure := rfl
  simp only [Machine.finish, hflush, hfailure]
  cases m.flush.outbox.failure with
  | none => exact .stopped _ _ rfl
  | some text => exact .stopped _ _ rfl

theorem abort (m : Machine w) (reason : StopReason) {fault fault' : Fault}
    (h : ∀ kind, fault'.isA kind = fault.isA kind) :
    Abridges program steps (m.abort reason fault) ((m.abridged program steps).abort reason fault') := by
  have hkinds {f g : Fault} (hfg : ∀ kind, g.isA kind = f.isA kind) : g.kinds = f.kinds :=
    List.filter_congr fun kind _ => hfg kind
  have hflush : (m.abridged program steps).flush = m.flush.abridged program steps := rfl
  have hfailure : (m.flush.abridged program steps).outbox.failure = m.flush.outbox.failure := rfl
  simp only [Machine.abort, hflush, hfailure, h]
  cases m.flush.outbox.failure with
  | none => exact .stopped _ _ (congrArg some (hkinds h))
  | some text =>
    refine .stopped _ _ (congrArg some ?_)
    cases fault.isA .io with
    | true => exact hkinds h
    | false => exact hkinds fun kind => by simp only [Bool.false_eq_true, if_false, Fault.isA, h]

section
variable (hnext : rank program (m.ip + 1) = rank program m.ip + 1)
include hnext

theorem proceed : Abridges program steps m.proceed (m.abridged program steps).proceed := by
  have habridged : (m.abridged program steps).proceed
      = .running (({ m with ip := m.ip + 1 } : Machine w).abridged program steps) := by
    simp only [Machine.proceed, abridged, hnext]
  rw [habridged]
  exact .running _

theorem output : Abridges program steps m.output (m.abridged program steps).output := by
  have hsend : (m.abridged program steps).send (·.put (m.abridged program steps).tape.byte)
      = (m.send (·.put m.tape.byte)).abridged program steps := rfl
  have hsent : rank program ((m.send (·.put m.tape.byte)).ip + 1) = rank program (m.send (·.put m.tape.byte)).ip + 1 :=
    hnext
  simp only [Machine.output, hsend]
  generalize m.send (·.put m.tape.byte) = n at hsent ⊢
  rw [show (n.abridged program steps).outbox.failure = n.outbox.failure from rfl]
  cases n.outbox.failure with
  | none => exact proceed (m := { n with written := n.written + 1 }) hsent
  | some text => exact abort n _ fun _ => rfl

theorem accept (eof : EofPolicy) :
    Abridges program steps (m.accept eof) ((m.abridged program steps).accept eof) := by
  have hflush : (m.abridged program steps).flush = m.flush.abridged program steps := rfl
  have hfailure : (m.flush.abridged program steps).outbox.failure = m.flush.outbox.failure := rfl
  have htake : (m.flush.abridged program steps).take = (m.flush.take.1, m.flush.take.2.abridged program steps) := rfl
  simp only [Machine.accept, hflush, hfailure, htake]
  cases m.flush.outbox.failure with
  | some text => exact abort m.flush _ fun _ => rfl
  | none =>
    have hafter : rank program (m.flush.take.2.ip + 1) = rank program m.flush.take.2.ip + 1 := hnext
    generalize m.flush.take = taken at hafter ⊢
    obtain ⟨answer, n⟩ := taken
    cases answer with
    | ok b => exact proceed (m := { n with tape := n.tape.setByte b, read := n.read + 1 }) hafter
    | error fault =>
      cases hend : fault.isA .endOfInput with
      | true =>
        simp only [hend, if_true]
        exact proceed (m := { n with tape := applyEof eof n.tape }) hafter
      | false =>
        simp only [hend, Bool.false_eq_true, if_false]
        exact abort n _ fun _ => rfl

theorem leave : Abridges program steps m.leave (m.abridged program steps).leave := by
  have hzero : (m.abridged program steps).tape.isZero = m.tape.isZero := rfl
  rcases leave_cases m with ⟨hnil, hm⟩ | ⟨start, rest, hitems, hm⟩
  · have hpop : (m.abridged program steps).loops.pop = (none, (m.abridged program steps).loops) := by
      simp only [abridged, hnil, List.map_nil, Stack.pop]
    rw [hm, Machine.leave, hpop]
    exact abort m _ fun _ => rfl
  · have hpop : (m.abridged program steps).loops.pop = (some (rank program start), ⟨rest.map (rank program)⟩) := by
      simp only [abridged, hitems, List.map_cons, Stack.pop]
    rcases hm with ⟨hz, hm⟩ | ⟨hz, hm⟩
    · rw [hm, Machine.leave, hpop]
      simp only [hzero, hz, if_true]
      exact proceed (m := { m with loops := ⟨rest⟩ }) hnext
    · rw [hm, Machine.leave, hpop]
      simp only [hzero, hz, Bool.false_eq_true, if_false]
      exact .running { m with loops := ⟨rest⟩, ip := start }

theorem enter {jumps jumps' : JumpTable}
    (hjumps : jumps'.partner? (rank program m.ip) = (jumps.partner? m.ip).map (rank program))
    (hlands : ∀ j, jumps.partner? m.ip = some j → rank program (j + 1) = rank program j + 1) :
    Abridges program steps (m.enter jumps) ((m.abridged program steps).enter jumps') := by
  have hpartner : jumps'.partner? (m.abridged program steps).ip = (jumps.partner? m.ip).map (rank program) := hjumps
  have hzero : (m.abridged program steps).tape.isZero = m.tape.isZero := rfl
  simp only [Machine.enter, hpartner, hzero]
  cases m.tape.isZero with
  | false => exact proceed (m := { m with loops := m.loops.push m.ip }) hnext
  | true =>
    cases hj : jumps.partner? m.ip with
    | none => exact abort m _ fun _ => rfl
    | some j =>
      simp only [Option.map_some, if_true, ← hlands j hj]
      exact .running { m with ip := j + 1 }

end

end Abridges
end Machine

/-- The task of running a program as it resolves, without a limit. -/
def Options.freeTask (o : Options) (program : Program) : Task :=
  ({ o with maxSteps := 0 } : Options).task program (Brackets.resolution program).1

namespace Machine
variable {w : Nat} {o : Options} {program : Program} {m m' : Machine w} {b : UInt8}

theorem step_freeTask (hcalm : m.Calm) (hb : program[m.ip]? = some b) :
    m.step (o.freeTask program) = m.counted.execute (o.freeTask program) b :=
  step_of_due ((hcalm.due_unlimited rfl).trans hb)

/-- A comment is passed over, and the machine on the essence is where it was. -/
theorem step_comment (hcalm : m.Calm) (hb : program[m.ip]? = some b) (hi : isInstruction b = false) :
    m.step (o.freeTask program) = .running { m.counted with ip := m.ip + 1 } ∧
      ∀ steps, ({ m.counted with ip := m.ip + 1 } : Machine w).abridged program steps = m.abridged program steps := by
  have hnone : Instruction.ofByte? b = none := Option.not_isSome_iff_eq_none.mp (by rw [← isInstruction, hi]; decide)
  refine ⟨?_, fun steps => ?_⟩
  · rw [step_freeTask hcalm hb, execute, hnone]
    rfl
  · have hrank : rank program (m.ip + 1) = rank program m.ip := by
      rw [rank_succ hb, hi]
      rfl
    simp only [abridged, hrank, counted, hcalm.signal, Signal.advance]

/-- An instruction does the same to both machines. -/
theorem step_instruction (hcalm : m.Calm) (hb : program[m.ip]? = some b) (hi : isInstruction b = true) (steps : Nat) :
    Abridges program (steps + 1) (m.step (o.freeTask program))
      ((m.abridged program steps).step (o.freeTask (essence program))) := by
  have hnext {j : Nat} (hj : HoldsInstruction program j) : rank program (j + 1) = rank program j + 1 := by
    obtain ⟨c, hc, hj⟩ := hj
    rw [rank_succ hc, if_pos hj]
  have hip : rank program (m.counted.ip + 1) = rank program m.counted.ip + 1 := hnext ⟨b, hb, hi⟩
  have hcounted : (m.abridged program steps).counted = m.counted.abridged program (steps + 1) := rfl
  rw [step_freeTask hcalm hb, step_freeTask hcalm.abridged (essence_rank hb hi), hcounted, execute, execute]
  cases hinst : Instruction.ofByte? b with
  | none =>
    rw [isInstruction, hinst] at hi
    cases hi
  | some i =>
    cases i with
    | right => exact .proceed (m := { m.counted with tape := m.tape.moveRight }) hip
    | left => exact .proceed (m := { m.counted with tape := m.tape.moveLeft }) hip
    | increment => exact .proceed (m := { m.counted with tape := m.tape.increment }) hip
    | decrement => exact .proceed (m := { m.counted with tape := m.tape.decrement }) hip
    | output => exact .output hip
    | input => exact .accept hip o.eof
    | loop =>
      exact .enter hip (Brackets.partner?_essence hb hi) fun j hj => hnext (Brackets.holdsInstruction_of_partner? hj).2
    | endLoop => exact .leave hip

/-- Behind the program both machines end. -/
theorem step_behind (hend : program[m.ip]? = none) (steps : Nat) :
    Abridges program steps (m.step (o.freeTask program))
      ((m.abridged program steps).step (o.freeTask (essence program))) := by
  have hstep : m.step (o.freeTask program) = m.finish := step_of_end hend
  have hessence : (m.abridged program steps).step (o.freeTask (essence program)) = (m.abridged program steps).finish :=
    step_of_end (essence_behind hend)
  rw [hstep, hessence]
  exact .finish m

/-- Whether the next byte is a comment. -/
def atComment (program : Program) (m : Machine w) : Bool := (program[m.ip]?.map (!isInstruction ·)).getD false

theorem atComment_of (hb : program[m.ip]? = some b) : m.atComment program = !isInstruction b := by
  rw [atComment, hb]
  rfl

/-- A step that goes on is a comment, which the machine on the essence does not notice, or a step of both. -/
theorem running_cases (hcalm : m.Calm) (hstep : m.step (o.freeTask program) = .running m') (steps : Nat) :
    (m.atComment program = true ∧ m'.abridged program steps = m.abridged program steps) ∨
      m.atComment program = false ∧ (m.abridged program steps).step (o.freeTask (essence program))
        = .running (m'.abridged program (steps + 1)) := by
  obtain ⟨b, hdue, -⟩ := due_of_running hstep
  have hb : program[m.ip]? = some b := program_of_due hdue
  cases hi : isInstruction b with
  | false =>
    obtain ⟨hrunning, hsame⟩ := step_comment (o := o) hcalm hb hi
    obtain rfl := Progress.running.inj (hstep.symm.trans hrunning)
    exact .inl ⟨by rw [atComment_of hb, hi]; rfl, hsame steps⟩
  | true =>
    have halike := step_instruction (o := o) hcalm hb hi steps
    rw [hstep] at halike
    refine .inr ⟨by rw [atComment_of hb, hi]; rfl, ?_⟩
    generalize (m.abridged program steps).step (o.freeTask (essence program)) = p at halike ⊢
    cases halike with
    | running => rfl

/-- Where one machine stops, so does the other, and they count the step or do not count it. -/
theorem stopped_alike (hcalm : m.Calm) {reason : StopReason} {fault : Option Fault}
    (hstop : m.step (o.freeTask program) = .stopped m' reason fault) (steps : Nat) :
    ∃ more fault', (m.abridged program steps).step (o.freeTask (essence program))
        = .stopped (m'.abridged program (steps + more)) reason fault' ∧
      fault'.map Fault.kinds = fault.map Fault.kinds ∧ m'.steps = m.steps + more := by
  have hinv (more : Nat) (halike : Abridges program (steps + more) (m.step (o.freeTask program))
      ((m.abridged program steps).step (o.freeTask (essence program)))) :
      ∃ fault', (m.abridged program steps).step (o.freeTask (essence program))
        = .stopped (m'.abridged program (steps + more)) reason fault' ∧
      fault'.map Fault.kinds = fault.map Fault.kinds := by
    rw [hstop] at halike
    generalize (m.abridged program steps).step (o.freeTask (essence program)) = p at halike ⊢
    cases halike with
    | stopped _ _ hkinds => exact ⟨_, rfl, hkinds⟩
  cases hb : program[m.ip]? with
  | none =>
    obtain ⟨fault', hessence, hkinds⟩ := hinv 0 (step_behind hb steps)
    refine ⟨0, fault', hessence, hkinds, ?_⟩
    have hfinish : m.step (o.freeTask program) = m.finish := step_of_end hb
    rw [machine_of_finish (hfinish.symm.trans hstop)]
    rfl
  | some b =>
    cases hi : isInstruction b with
    | false => cases hstop.symm.trans (step_comment hcalm hb hi).1
    | true =>
      obtain ⟨fault', hessence, hkinds⟩ := hinv 1 (step_instruction hcalm hb hi steps)
      refine ⟨1, fault', hessence, hkinds, ?_⟩
      rcases steps_of_stopped hstop with ⟨-, hcount⟩ | ⟨hnone, -⟩
      · exact hcount
      · cases hnone.symm.trans ((hcalm.due_unlimited rfl).trans hb)

/-! ### Runs -/

variable {visited : List (Machine w)} {last : Machine w}

/-- Along a run of the program the machine on the essence makes all steps but the comments. -/
theorem Run.abridged (hrun : Run (o.freeTask program) m visited last) (hcalm : m.Calm) (steps : Nat) :
    ∃ visited', Run (o.freeTask (essence program)) (m.abridged program steps) visited'
        (last.abridged program (steps + visited'.length)) ∧
      visited.length = visited'.length + visited.countP (·.atComment program) := by
  induction hrun generalizing steps with
  | nil m => exact ⟨[], .nil _, rfl⟩
  | cons hstep _ ih =>
    rcases running_cases hcalm hstep steps with ⟨hat, hsame⟩ | ⟨hat, hessence⟩
    · obtain ⟨visited', hrun', hlen⟩ := ih (hcalm.step hstep) steps
      rw [hsame] at hrun'
      refine ⟨visited', hrun', ?_⟩
      rw [List.length_cons, List.countP_cons_of_pos hat, hlen, Nat.add_assoc]
    · obtain ⟨visited', hrun', hlen⟩ := ih (hcalm.step hstep) (steps + 1)
      rw [Nat.add_assoc, Nat.add_comm 1, ← List.length_cons] at hrun'
      refine ⟨_, .cons hessence hrun', ?_⟩
      rw [List.length_cons, List.countP_cons_of_neg (by rw [hat]; decide), hlen, List.length_cons, Nat.add_right_comm]

/-- A machine gets past the comments before it. -/
theorem run_past_comments (o : Options) (program : Program) (hcalm : m.Calm) :
    ∃ visited last, Run (o.freeTask program) m visited last ∧ last.atComment program = false ∧
      ∀ steps, last.abridged program steps = m.abridged program steps := by
  induction hleft : program.size - m.ip using Nat.strongRecOn generalizing m with
  | ind left ih =>
    cases hat : m.atComment program with
    | false => exact ⟨[], m, .nil m, hat, fun _ => rfl⟩
    | true =>
      obtain ⟨b, hb, hi⟩ : ∃ b, program[m.ip]? = some b ∧ isInstruction b = false := by
        cases hb : program[m.ip]? with
        | none =>
          rw [atComment, hb] at hat
          cases hat
        | some b =>
          rw [atComment_of hb, Bool.not_eq_true'] at hat
          exact ⟨b, rfl, hat⟩
      obtain ⟨hrunning, hsame⟩ := step_comment (o := o) hcalm hb hi
      have hlt : m.ip < program.size := (Array.getElem?_eq_some_iff.mp hb).1
      obtain ⟨visited, last, hrun, hlast, hlater⟩ := ih (program.size - (m.ip + 1)) (by omega) (hcalm.step hrunning) rfl
      exact ⟨m :: visited, last, .cons hrunning hrun, hlast, fun steps => (hlater steps).trans (hsame steps)⟩

/-- If the machine on the essence stops, so does the one on the program. -/
theorem stops_of_essence {fuel steps : Nat} {k : Halt w} (hcalm : m.Calm)
    (hrun : run (o.freeTask (essence program)) fuel (m.abridged program steps) = some k) :
    ∃ visited last, ∃ h : Halt w, Run (o.freeTask program) m visited last ∧
      last.step (o.freeTask program) = .stopped h.machine h.reason h.fault := by
  induction fuel generalizing m steps with
  | zero => cases hrun
  | succ fuel ih =>
    obtain ⟨visited, last, hpast, hat, hsame⟩ := run_past_comments o program hcalm
    have hlast := hcalm.run hpast
    cases hstep : last.step (o.freeTask program) with
    | stopped m' reason fault => exact ⟨visited, last, ⟨m', reason, fault⟩, hpast, hstep⟩
    | running m' =>
      rcases running_cases hlast hstep steps with ⟨hcomment, -⟩ | ⟨-, hessence⟩
      · cases hat.symm.trans hcomment
      · rw [← hsame, run, hessence] at hrun
        obtain ⟨later, final, h, hlater, hstop⟩ := ih (hlast.step hstep) hrun
        exact ⟨visited ++ last :: later, final, h, hpast.append (.cons hstep hlater), hstop⟩

/-- The halt of a program that executes one byte on each of the machines `visited`, and the halt of its essence: they
agree in everything but the positions that faults tell of, and in the steps but for the comments. -/
structure Halt.Matches (program : Program) (visited : List (Machine w)) (h k : Halt w) : Prop where
  tape : k.machine.tape = h.machine.tape
  input : k.machine.input = h.machine.input
  sink : k.machine.outbox.sink = h.machine.outbox.sink
  read : k.result.read = h.result.read
  written : k.result.written = h.result.written
  stop : k.result.stop = h.result.stop
  kinds : k.fault.map Fault.kinds = h.fault.map Fault.kinds
  steps : h.result.steps = k.result.steps + visited.countP (·.atComment program)

/-- A program that halts has an essence that does. -/
theorem HaltsAfter.abridged {h : Halt w} (hafter : HaltsAfter (o.freeTask program) m visited h) (hcalm : m.Calm)
    (hzero : m.steps = 0) :
    ∃ k, Halts (o.freeTask (essence program)) (m.abridged program 0) k ∧ h.Matches program visited k := by
  cases hafter with
  | cancelled hraised => cases hcalm.signal.symm.trans hraised
  | @stopped _ last _ hclear hrun hstop =>
    obtain ⟨visited', hrun', hlen⟩ := hrun.abridged hcalm 0
    obtain ⟨more, fault', hstop', hkinds, hcount⟩ := stopped_alike (hcalm.run hrun) hstop (0 + visited'.length)
    refine ⟨⟨_, h.reason, fault'⟩, halts_iff.mpr ⟨visited', .stopped hclear hrun' hstop'⟩,
      rfl, rfl, rfl, rfl, rfl, rfl, hkinds, ?_⟩
    have hsteps := hrun.steps_eq
    show h.machine.steps = 0 + visited'.length + more + visited.countP (·.atComment program)
    omega

/-- **Comments do not matter.** A program resolves exactly if its essence does, to the same partners up to the
numbering. On any tape and streams, without a limit and with nothing that cancels it, a run of the program halts exactly
if one of the essence does. Then both leave the same and stop for the same reason, and the steps of the program are more
by the comments executed. -/
theorem comments_do_not_matter (program : Program) :
    ((∃ table, Brackets.resolve program = .ok table) ↔ ∃ table, Brackets.resolve (essence program) = .ok table) ∧
      (∀ table table', Brackets.resolve program = .ok table → Brackets.resolve (essence program) = .ok table' →
        Brackets.Renumbered program table table') ∧
      ∀ {w : Nat} (tape : Tape w) (input : Input) (sink : Option Sink) (o : Options), input.Calm →
        (∀ s, sink = some s → s.cancelAt ≤ s.writes.size) →
        ((∃ h, Halts (o.freeTask program) (fresh tape input sink .clear) h) ↔
          ∃ k, Halts (o.freeTask (essence program)) (fresh tape input sink .clear) k) ∧
        ∀ visited h k, HaltsAfter (o.freeTask program) (fresh tape input sink .clear) visited h →
          Halts (o.freeTask (essence program)) (fresh tape input sink .clear) k → h.Matches program visited k := by
  refine ⟨Brackets.resolve_essence_iff program, fun table table' hp hs => Brackets.renumbered hp hs,
    fun tape input sink o hinput hsink => ?_⟩
  have hcalm : (fresh tape input sink .clear).Calm := ⟨rfl, hinput, hsink⟩
  have hsame : (fresh tape input sink .clear).abridged program 0 = fresh tape input sink .clear := rfl
  refine ⟨⟨fun hex => ?_, fun hex => ?_⟩, fun visited h k hafter hhalts => ?_⟩
  · obtain ⟨h, hhalts⟩ := hex
    obtain ⟨visited, hafter⟩ := halts_iff.mp hhalts
    obtain ⟨k, hk, -⟩ := hafter.abridged hcalm rfl
    exact ⟨k, hk⟩
  · obtain ⟨k, fuel, hlaunch⟩ := hex
    rw [launch_eq rfl, ← hsame] at hlaunch
    obtain ⟨visited, last, h, hrun, hstop⟩ := stops_of_essence hcalm hlaunch
    exact ⟨h, halts_iff.mpr ⟨visited, .stopped rfl hrun hstop⟩⟩
  · obtain ⟨k', hk', hmatches⟩ := hafter.abridged hcalm rfl
    obtain rfl := hk'.unique hhalts
    exact hmatches

/-- The program `c++[b-].` makes twelve steps, of which three are comments, and its essence `++[-].` makes nine. -/
theorem comments_do_not_matter_in_loop :
    ∃ (program : Program) (m : Machine 8) (visited : List (Machine 8)) (h k : Halt 8),
      program = #[0x63, 0x2b, 0x2b, 0x5b, 0x62, 0x2d, 0x5d, 0x2e] ∧
      m = fresh (Tape.blank 1) .absent (some {}) .clear ∧
      HaltsAfter (({} : Options).freeTask program) m visited h ∧
      Halts (({} : Options).freeTask (essence program)) m k ∧ h.Matches program visited k ∧
      h.result.steps = 12 ∧ k.result.steps = 9 ∧ visited.countP (·.atComment program) = 3 := by
  let program : Program := #[0x63, 0x2b, 0x2b, 0x5b, 0x62, 0x2d, 0x5d, 0x2e]
  let m : Machine 8 := fresh (Tape.blank 1) .absent (some {}) .clear
  obtain ⟨-, -, hruns⟩ := comments_do_not_matter program
  obtain ⟨-, hmatches⟩ := hruns (w := 8) (Tape.blank 1) .absent (some {}) {} (fun _ hnone => by cases hnone)
    (fun s hs => by obtain rfl := Option.some.inj hs; decide)
  have hprogram : (m.launch (({} : Options).freeTask program) 20).map (·.result.steps) = some 12 := by decide +kernel
  have hessence : (m.launch (({} : Options).freeTask (essence program)) 20).map (·.result.steps) = some 9 := by
    decide +kernel
  obtain ⟨h, hlaunch, hsteps⟩ := Option.map_eq_some_iff.mp hprogram
  obtain ⟨k, hlaunch', hsteps'⟩ := Option.map_eq_some_iff.mp hessence
  obtain ⟨visited, hafter⟩ := halts_iff.mp ⟨20, hlaunch⟩
  have hmatch := hmatches visited h k hafter ⟨20, hlaunch'⟩
  have hcount := hmatch.steps
  exact ⟨program, m, visited, h, k, rfl, rfl, hafter, ⟨20, hlaunch'⟩, hmatch, hsteps, hsteps', by omega⟩

end Machine
end TapeMachine
