import TapeMachine.Proofs.Cancellation

/-! The number of steps in a result.

A step is counted before the signal is looked at and before its byte is executed. At the end of the program and at the
limit nothing is counted that is not executed, so a result tells how many instructions the machine has executed, and
what is left is what these have led to (`Halt.CountsExecuted`). A signal that is raised already stops the run before
anything is counted. A signal that is found raised later keeps the instruction just counted from being executed, and
then the result tells one more than there were. -/
namespace TapeMachine.Machine
variable {w : Nat} {task : Task}

/-- What a halt leaves is what the machine has come to by as many instructions as the result tells. -/
def Halt.CountsExecuted (task : Task) (sink : Option Sink) (m : Machine w) (h : Halt w) : Prop :=
  ∃ visited last, Run task m visited last ∧ visited.length = h.result.steps ∧ h.LeftAt task sink visited last

theorem flushed_of_unfailed {m : Machine w} {h : Halt w}
    (hstop : m.step task = .stopped h.machine h.reason h.fault) (hreason : h.reason ≠ .failed) :
    (h.reason ≠ .interrupted ∧ h.machine = m.flush) ∨
      (h.reason = .interrupted ∧ h.machine = m.counted.flush ∧ signalInterval ∣ m.steps + 1) := by
  rcases stop_cases hstop with ⟨-, hf⟩ | ⟨n, given, hgive, habort⟩
  · refine .inl ⟨?_, machine_of_finish hf⟩
    rcases finish_cases m with ⟨-, hm⟩ | ⟨text, -, hm⟩ <;> rw [hm] at hf <;>
      exact (Progress.stopped.inj hf).2.1 ▸ (by decide)
  · have hmachine := (machine_of_abort habort).1
    generalize h.reason = reason at hreason hgive ⊢
    cases hgive with
    | spent => exact .inl ⟨by decide, hmachine⟩
    | interrupted _ _ hraised => exact .inr ⟨rfl, hmachine, (isInterrupted_iff.mp hraised).1⟩
    | _ => exact absurd rfl hreason

/-- **The count of steps is that of the instructions executed, unless a run is interrupted on its way.** For a sink that
accepts everything, and a halt that is not a failure: all that is left is what as many instructions have led to as the
result tells, if and only if the run has not been interrupted after its start. If it has, one instruction less was
executed, and the result tells a multiple of 4096. -/
theorem counts_executed_iff (task : Task) (tape : Tape w) (input : Input) (sink : Option Sink) (signal : Signal)
    (hsink : ∀ s, sink = some s → s.AcceptsAll) {h : Halt w} (hhalts : Halts task (fresh tape input sink signal) h)
    (hreason : h.result.stop ≠ .failed) :
    let m := fresh tape input sink signal
    (h.CountsExecuted task sink m ↔ ¬(h.result.stop = .interrupted ∧ signal.isRaised = false)) ∧
    (h.result.stop = .interrupted → signal.isRaised = false → ∃ visited last, Run task m visited last ∧
      visited.length + 1 = h.result.steps ∧ signalInterval ∣ h.result.steps ∧ h.LeftAt task sink visited last) := by
  intro m
  obtain ⟨visited, hafter⟩ := halts_iff.mp hhalts
  cases hafter with
  | cancelled hraised hstop =>
    have hmachine : h.machine = m.flush := (machine_of_abort hstop).1
    have hnone : m.steps = h.result.steps := by
      rw [Halt.result, hmachine]
      rfl
    have hnot : signal.isRaised ≠ false := by
      rw [show signal = _ from hraised]
      exact Bool.noConfusion
    have hexact : h.CountsExecuted task sink m :=
      ⟨[], m, .nil m, hnone, (Run.nil m).leftAt hsink (.inl hmachine)⟩
    exact ⟨iff_of_true hexact fun hlate => hnot hlate.2, fun _ hquiet => absurd hquiet hnot⟩
  | @stopped _ last _ hquiet hrun hstop =>
    have hsteps : last.steps = visited.length := hrun.steps_eq.trans (Nat.zero_add _)
    rcases flushed_of_unfailed hstop hreason with ⟨hother, hmachine⟩ | ⟨hsignal, hmachine, hlook⟩
    · have hcount : visited.length = h.result.steps := by
        rw [Halt.result, hmachine]
        exact hsteps.symm
      have hexact : h.CountsExecuted task sink m := ⟨visited, last, hrun, hcount, hrun.leftAt hsink (.inl hmachine)⟩
      exact ⟨iff_of_true hexact fun hlate => hother hlate.1, fun hsignal => absurd hsignal hother⟩
    · have hcount : visited.length + 1 = h.result.steps := by
        rw [Halt.result, hmachine, ← hsteps]
        rfl
      refine ⟨iff_of_false ?_ fun hnot => hnot ⟨hsignal, hquiet⟩, fun _ _ => ⟨visited, last, hrun, hcount, ?_,
        hrun.leftAt hsink (.inr hmachine)⟩⟩
      · -- The machine does not get as far as the result tells.
        rintro ⟨further, final, hfurther, hlen, -⟩
        have hle := hrun.length_le_of_stopped hstop hfurther
        omega
      · rw [← hcount, ← hsteps]
        exact hlook

/-! ### A cell that flickers -/

/-- A program that reads once and then increments and decrements the cell for ever. -/
def flicker : Task :=
  { program := #[0x2c, 0x5b, 0x2b, 0x2d, 0x5d], jumps := ⟨#[none, some 4, none, none, some 1], 1⟩ }

def readCancels : Machine 8 := fresh ⟨#[0], 0⟩ (.plain { data := [0x41], cancelAt := 1 }) none .clear

theorem counts_executed_limited :
    ∃ h, Halts { flicker with limit := some 3 } readCancels h ∧
      h.result = { steps := 3, read := 1, stop := .stepLimit } ∧ h.machine.tape.cells = #[0x42] ∧
      h.CountsExecuted { flicker with limit := some 3 } none readCancels := by
  obtain ⟨h, hlaunch, hresult, hcell⟩ : ∃ h, readCancels.launch { flicker with limit := some 3 } 4 = some h ∧
      h.result = { steps := 3, read := 1, stop := .stepLimit } ∧ h.machine.tape.cells = #[0x42] :=
    ⟨_, rfl, by decide, by decide⟩
  have hcounts := counts_executed_iff { flicker with limit := some 3 } ⟨#[(0 : BitVec 8)], 0⟩
    (.plain { data := [0x41], cancelAt := 1 }) none .clear (fun s hs => by cases hs) ⟨4, hlaunch⟩
    (by rw [hresult]; decide)
  exact ⟨h, ⟨4, hlaunch⟩, hresult, hcell, hcounts.1.mpr (by rw [hresult]; decide)⟩

/-- The uncancelled twin of that machine in front of the loop, `steps` instructions on. -/
def flickering (steps : Nat) : Machine 8 :=
  { tape := ⟨#[0x41], 0⟩, input := .plain { data := [], calls := 1, served := 1 }, outbox := {}
    ip := 1, steps, read := 1 }

/-- That twin before instruction 4096, which is to take back what instruction 4095 has done to the cell. -/
def lit : Machine 8 := { flickering 4095 with tape := ⟨#[0x42], 0⟩, ip := 3, loops := ⟨[1]⟩ }

theorem run_flicker :
    ∃ visited, Run flicker readCancels.uncancelled visited lit ∧ visited.length = 4095 ∧
      lit.step flicker = .running { flickering 4096 with ip := 4, loops := ⟨[1]⟩ } := by
  have hdue {n : Machine 8} (hclear : n.signal = .clear) : n.due flicker = flicker.program[n.ip]? := by
    simp [due, isSpent, isInterrupted, flicker, hclear, Signal.isRaised]
  have henter (k : Nat) : (flickering k).step flicker = .running { flickering (k + 1) with ip := 2, loops := ⟨[1]⟩ } :=
    (Advances.enter ((hdue rfl).trans rfl) rfl).running
  have hup (k : Nat) : Machine.step flicker { flickering k with ip := 2, loops := ⟨[1]⟩ } =
      .running { flickering (k + 1) with tape := ⟨#[0x42], 0⟩, ip := 3, loops := ⟨[1]⟩ } := by
    have hplus : due flicker { flickering k with ip := 2, loops := ⟨[1]⟩ } = some 0x2b := (hdue rfl).trans rfl
    exact (Advances.shift hplus rfl (by decide) (by decide)).running
  have hdown (k : Nat) : Machine.step flicker { flickering k with tape := ⟨#[0x42], 0⟩, ip := 3, loops := ⟨[1]⟩ } =
      .running { flickering (k + 1) with ip := 4, loops := ⟨[1]⟩ } := by
    have hminus : due flicker { flickering k with tape := ⟨#[0x42], 0⟩, ip := 3, loops := ⟨[1]⟩ } = some 0x2d :=
      (hdue rfl).trans rfl
    have hstep := (Advances.shift hminus rfl (by decide) (by decide)).running
    have htape : shifted 0x2d (⟨#[0x42], 0⟩ : Tape 8) = ⟨#[0x41], 0⟩ := by decide
    rw [htape] at hstep
    exact hstep
  have hback (k : Nat) : Machine.step flicker { flickering k with ip := 4, loops := ⟨[1]⟩ } =
      .running (flickering (k + 1)) :=
    (Advances.back ((hdue rfl).trans rfl) rfl rfl).running
  obtain ⟨rounds, hrounds, hlen⟩ := Run.rounds (f := flickering) (n := 4)
    (fun k => ⟨_, .cons (henter k) (.cons (hup _) (.cons (hdown _) (.cons (hback _) (.nil _)))), rfl⟩) 1 1023
  have hread : readCancels.uncancelled.step flicker = .running (flickering 1) := rfl
  refine ⟨_, .cons hread (hrounds.append (.cons (henter _) (.cons (hup _) (.nil _)))), ?_, hdown _⟩
  simp [hlen]

theorem halts_flicker :
    ∃ h visited, ∃ last : Machine 8, HaltsAfter flicker readCancels visited h ∧ last.uncancelled = lit ∧
      h.reason = .interrupted ∧ h.machine = last.counted.flush := by
  have hlook : IsNextLook 1 4096 :=
    ⟨by decide, by decide, fun j hj hdvd => Nat.le_of_dvd (by omega) hdvd⟩
  have hcancel : CancelledDuring flicker readCancels 1 := ⟨[], _, .nil _, rfl, rfl, by decide, by decide⟩
  obtain ⟨visited, last, h, hrun, hlen, hstop, hnext, hbefore⟩ := hcancel.stops hlook rfl
  obtain ⟨far, hfar, hfarlen, hstep⟩ := run_flicker
  have hreason : h.reason = .interrupted := by
    apply Decidable.not_not.mp
    intro hreason
    obtain ⟨byte, hdue, -⟩ := due_of_running hstep
    have hlate := hfar.steps_lt_of_halts (by rw [hdue]; exact Option.some_ne_none _) rfl
      (halts_uncancelled hrun hstop hreason)
    exact absurd (hbefore hreason) (Nat.not_lt.mpr hlate)
  have hsame : (visited.map Machine.uncancelled).length = far.length := by
    rw [List.length_map, hfarlen]
    exact Nat.succ.inj (hnext hreason)
  obtain ⟨-, -, habort⟩ := interrupted_of_stopped (hreason ▸ hstop)
  exact ⟨h, visited, last, .stopped rfl hrun hstop, (hrun.uncancelled.unique hfar hsame).2, hreason,
    (machine_of_abort habort).1⟩

/-- The result of that run tells 4096 steps, and the cell is left as after 4095: one that executes as many instructions
as told leaves another. -/
theorem interrupted_counts_one_more :
    Brackets.resolve flicker.program = .ok flicker.jumps ∧ ∃ h, Halts flicker readCancels h ∧
      h.result = { steps := 4096, read := 1, stop := .interrupted } ∧ h.machine.tape.cells = #[0x42] ∧
      (∃ visited last, Run flicker readCancels.uncancelled visited last ∧ visited.length = h.result.steps ∧
        last.tape.cells = #[0x41]) ∧
      ¬h.CountsExecuted flicker none readCancels := by
  obtain ⟨h, visited, last, hafter, hlast, hreason, hmachine⟩ := halts_flicker
  obtain ⟨far, hfar, hfarlen, hstep⟩ := run_flicker
  have htwin : h.uncancelled.machine = lit.counted.flush := by
    rw [Halt.uncancelled, hmachine, ← flush_uncancelled, ← hlast]
    rfl
  have hresult : h.result = { steps := 4096, read := 1, stop := .interrupted } := by
    have hcounts : h.uncancelled.result = ⟨4096, 1, 0, h.reason⟩ := by
      rw [Halt.result, htwin]
      rfl
    exact hcounts.trans (by rw [hreason])
  have hcell : h.machine.tape.cells = #[0x42] :=
    congrArg (·.tape.cells) htwin
  have hlonger : Run flicker readCancels.uncancelled (far ++ [lit]) _ := hfar.append (.single hstep)
  have hlen : (far ++ [lit]).length = 4096 := by rw [List.length_append, hfarlen]; rfl
  refine ⟨rfl, h, halts_iff.mpr ⟨visited, hafter⟩, hresult, hcell, ⟨_, _, hlonger, by rw [hlen, hresult], rfl⟩, ?_⟩
  rintro ⟨visited', last', hrun', hlen', hleft⟩
  have hsame : (visited'.map Machine.uncancelled).length = (far ++ [lit]).length := by
    rw [List.length_map, hlen, hlen', hresult]
  have hthere : last'.tape.cells = #[0x41] :=
    congrArg (·.tape.cells) (hrun'.uncancelled.unique hlonger hsame).2
  rw [← hleft.tape, hcell] at hthere
  exact absurd hthere (by decide)

end TapeMachine.Machine
