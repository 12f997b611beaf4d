import TapeMachine.Proofs.Histories
import TapeMachine.Proofs.Reporting
import TapeMachine.Proofs.StepLimit

/-! Tables of other programs.

A machine follows whatever table it is given. With the table of another program a skipped loop can lead backwards, into
the middle of a loop that was never entered, or behind the end, and then the stack no longer holds the loops around the
place (`OpenAt` is lost). What is left is weaker and enough: only positions of opening brackets are ever pushed, and a
jump goes at most behind the end of the longer one of the two programs (`InRange.step`). So every byte and every cell is
looked for where there is one, and the ways to stop are those of any run. -/
namespace TapeMachine

/-- The table handed out for a program, also for one that is not balanced, leads to places in that program. -/
theorem Brackets.lt_of_partner?_resolution {program : Program} {i j : Nat}
    (h : (resolution program).1.partner? i = some j) : j < program.size := by
  cases hresolve : resolve program with
  | error cause =>
    rw [resolution, hresolve] at h
    simp [JumpTable.partner?] at h
  | ok table =>
    rw [resolution, hresolve] at h
    obtain ⟨t, ht, -, -, hpartner⟩ := exists_tree hresolve
    have hbounds := Tree.mate_bounds ((hpartner i).symm.trans h)
    have hsize : t.size = program.size := by rw [← Tree.length_text, ht, Array.length_toList]
    omega

namespace Machine
variable {w : Nat} {task : Task}

/-! ### What stays in range -/

/-- Whatever the machine looks at next is there: the byte, unless the run is over, the loops to go back to, and the
cell. -/
structure InRange (task : Task) (bound : Nat) (m : Machine w) : Prop where
  ip : m.ip ≤ bound
  next : m.ip < task.program.size ∨ m.step task = m.finish
  loops : ∀ start ∈ m.loops.items, start < task.program.size ∧ task.program[start]? = some Brackets.opening
  cell : m.tape.isReady = true

theorem inside_or_finish (task : Task) (m : Machine w) : m.ip < task.program.size ∨ m.step task = m.finish := by
  rcases Nat.lt_or_ge m.ip task.program.size with hip | hip
  · exact .inl hip
  · exact .inr (step_of_end (Array.getElem?_eq_none hip))

theorem InRange.fresh {bound : Nat} {tape : Tape w} (hready : tape.isReady = true) (input : Input) (sink : Option Sink)
    (signal : Signal) : (fresh tape input sink signal).InRange task bound where
  ip := Nat.zero_le bound
  next := inside_or_finish task _
  loops _ hmem := by cases hmem
  cell := hready

section
variable {bound : Nat} (hprogram : task.program.size ≤ bound)
  (hjumps : ∀ i j, task.jumps.partner? i = some j → j < bound)
include hprogram hjumps

/-- A step goes on with the next byte, behind the partner that the table tells, or at a loop on the stack; and it
pushes nothing but the opening bracket it executes. -/
theorem InRange.step {m m' : Machine w} (h : m.InRange task bound) (hstep : m.step task = .running m') :
    m'.InRange task bound := by
  have hbyte {byte : UInt8} (hdue : m.due task = some byte) :
      m.ip < task.program.size ∧ task.program[m.ip]? = some byte :=
    ⟨(Array.getElem?_eq_some_iff.mp (program_of_due hdue)).1, program_of_due hdue⟩
  have hafter {byte : UInt8} (hdue : m.due task = some byte) : m.ip + 1 ≤ bound :=
    Nat.le_trans (hbyte hdue).1 hprogram
  have hcell : m'.tape.isReady = true := by
    rcases tape_of_running hstep with heq | ⟨op, heq⟩
    · rw [heq]
      exact h.cell
    · rw [heq]
      exact ((Tape.within_of_isReady h.cell).perform op).isReady
  have hrange (hip : m'.ip ≤ bound) (hloops : ∀ start ∈ m'.loops.items,
      start < task.program.size ∧ task.program[start]? = some Brackets.opening) : m'.InRange task bound :=
    ⟨hip, inside_or_finish task m', hloops, hcell⟩
  have hitems {start : Nat} {rest : List Nat} (heq : m.loops.items = start :: rest) :
      ∀ i ∈ start :: rest, i < task.program.size ∧ task.program[i]? = some Brackets.opening :=
    heq ▸ h.loops
  cases advances_of_running hstep with
  | shift hdue => exact hrange (hafter hdue) h.loops
  | write hdue => exact hrange (hafter hdue) h.loops
  | read hdue => exact hrange (hafter hdue) h.loops
  | ended hdue => exact hrange (hafter hdue) h.loops
  | skip _ _ hj => exact hrange (hjumps _ _ hj) h.loops
  | enter hdue =>
    refine hrange (hafter hdue) fun i hi => ?_
    rcases List.mem_cons.mp hi with rfl | hi
    · exact hbyte hdue
    · exact h.loops i hi
  | leave hdue heq => exact hrange (hafter hdue) fun i hi => hitems heq i (List.mem_cons_of_mem _ hi)
  | @back start rest _ heq =>
    have hstart := (hitems heq start List.mem_cons_self).1
    exact hrange (Nat.le_of_lt (Nat.lt_of_lt_of_le hstart hprogram))
      fun i hi => hitems heq i (List.mem_cons_of_mem _ hi)

theorem InRange.run {m last : Machine w} {visited : List (Machine w)} (h : m.InRange task bound)
    (hrun : Run task m visited last) : last.InRange task bound :=
  hrun.invariant (P := fun _ n => n.InRange task bound) h
    fun _ _ _ hn hstep => hn.step hprogram hjumps hstep

end

/-! ### How a run ends -/

/-- A good end has no fault, and any other one has a fault of the kind that belongs to its reason. -/
def Halt.FitsReason (h : Halt w) : Prop :=
  match h.reason with
  | .finished => h.fault = none
  | .failed => h.isA .unbalancedBrackets = true ∨ h.isA .io = true
  | .stepLimit => h.isA .stepLimit = true
  | .interrupted => h.isA .interrupted = true

theorem Halt.Honest.fitsReason {failing : Prop} {h : Halt w} (hhonest : h.Honest failing) : h.FitsReason := by
  unfold FitsReason
  cases hreason : h.reason with
  | finished => exact hhonest.fault_iff.mpr hreason
  | failed => exact (hhonest.failed hreason).symm
  | stepLimit => exact hhonest.stepLimit_iff.mpr hreason
  | interrupted => exact hhonest.interrupted_iff.mpr hreason

/-- A run with a limit always halts, whatever the table and the streams. -/
theorem halts_of_limit {limit : Nat} (hlimit : task.limit = some limit) {m : Machine w} (hstart : m.steps = 0) :
    ∃ h, Halts task m h ∧ h.result.steps ≤ limit := by
  cases hsignal : m.signal.isRaised with
  | true =>
    obtain ⟨reason, hsignal⟩ := Signal.isRaised_iff.mp hsignal
    obtain ⟨told, habort, -⟩ := abort_eq m .interrupted (.caused .interrupted (.cancelled reason))
    refine ⟨⟨m.flush, .interrupted, some told⟩, halts_iff.mpr ⟨[], .cancelled hsignal habort⟩, ?_⟩
    show m.steps ≤ limit
    omega
  | false =>
    have htask : task.limited (some limit) = task := by rw [Task.limited, ← hlimit]
    rcases halts_within_or_goes_on task limit hsignal hstart with ⟨h, -, hhalts, hle⟩ | ⟨visited, last, hrun, hlen, hip⟩
    · rw [htask] at hhalts
      exact ⟨h, hhalts, hle⟩
    · have hsteps : last.steps = limit := by rw [hrun.steps_eq, hstart, hlen, Nat.zero_add]
      have hlimited := hrun.limited (Nat.le_of_eq hsteps)
      rw [htask] at hlimited
      have hspent : last.isSpent task.limit = true := by
        rw [hlimit]
        exact decide_eq_true (Nat.le_of_eq hsteps.symm)
      obtain ⟨told, habort, -⟩ := abort_eq last .stepLimit (.caused .stepLimit (.stepsExecuted last.steps last.ip))
      have hstop : last.step task = .stopped last.flush .stepLimit (some told) := by
        rw [← habort, Machine.step, Array.getElem?_eq_getElem hip]
        exact if_pos hspent
      exact ⟨⟨last.flush, .stepLimit, some told⟩, halts_iff.mpr ⟨visited, .stopped hsignal hlimited hstop⟩,
        Nat.le_of_eq hsteps⟩

/-- **A table of another program does no harm.** Whatever is run with the table that any other program has been given,
or with the empty one given to a program that is not balanced: the machine looks for its next byte inside the program
until the run is over, goes back only to opening brackets of the program, and always has a cell. If it stops, it has
come to the end or tells an unbalanced bracket, a failure of input or output, the limit or the signal. Under a limit it
always stops. -/
theorem foreign_table_safe (program other : Program) (o : Options) (tape : Tape w) (hready : tape.isReady = true)
    (input : Input) (sink : Option Sink) (signal : Signal) :
    let task := o.task program (Brackets.resolution other).1
    let m := fresh tape input sink signal
    (∀ visited last, Run task m visited last → last.InRange task (max program.size other.size)) ∧
    (∀ h, Halts task m h → h.FitsReason) ∧
    (0 < o.maxSteps → ∃ h, Halts task m h ∧ (h.result.steps : Int) ≤ o.maxSteps) := by
  intro task m
  refine ⟨fun visited last hrun => ?_, fun h hhalts => ?_, fun hpos => ?_⟩
  · have hjumps (i j : Nat) (hj : task.jumps.partner? i = some j) : j < max program.size other.size :=
      Nat.lt_of_lt_of_le (Brackets.lt_of_partner?_resolution hj) (Nat.le_max_right ..)
    exact (InRange.fresh hready input sink signal).run (Nat.le_max_left ..) hjumps hrun
  · obtain ⟨visited, last, hat⟩ := hhalts.exists_haltsAt
    exact hat.holds.2.2.fitsReason
  · have hlimit : task.limit = some o.maxSteps.toNat := if_pos hpos
    obtain ⟨h, hhalts, hle⟩ := halts_of_limit hlimit (m := m) rfl
    exact ⟨h, hhalts, by omega⟩

/-- The table of a single loop leads the second of two brackets that are never closed back behind the first one. There
the pointer moves on to a cell that is not zero, and the program ends with both brackets on the stack. -/
theorem foreign_table_safe_unclosed :
    let task := ({ maxSteps := 6 } : Options).task #[0x2b, 0x5b, 0x3e, 0x5b]
      (Brackets.resolution #[0x78, 0x5b, 0x78, 0x5d]).1
    let m : Machine 8 := fresh ⟨#[0, 0], 0⟩ .absent none .clear
    (∀ visited last, Run task m visited last → last.InRange task 4) ∧
      ∃ h, Halts task m h ∧ (h.result.steps : Int) ≤ 6 ∧ h.fault = none ∧ h.machine.loops.items = [3, 1] := by
  intro task m
  obtain ⟨hrange, hfits, hhalts⟩ := foreign_table_safe #[0x2b, 0x5b, 0x3e, 0x5b] #[0x78, 0x5b, 0x78, 0x5d]
    { maxSteps := 6 } (⟨#[0, 0], 0⟩ : Tape 8) (by decide) .absent none .clear
  obtain ⟨h, hh, hle⟩ := hhalts (by decide)
  have hend : (m.launch task 7).map (fun k => (k.reason, k.machine.loops.items)) = some (.finished, [3, 1]) := by
    decide +kernel
  obtain ⟨k, hk, hend⟩ := Option.map_eq_some_iff.mp hend
  obtain rfl := hh.unique ⟨7, hk⟩
  obtain ⟨hreason, hloops⟩ := Prod.mk.inj hend
  have hfault := hfits h hh
  rw [Halt.FitsReason, hreason] at hfault
  exact ⟨hrange, h, hh, hle, hfault, hloops⟩

end Machine
end TapeMachine
