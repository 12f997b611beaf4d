import TapeMachine.Proofs.Calm
import TapeMachine.Proofs.LoopStack

/-! The step limit.

Below its limit a machine takes the steps that it would take without one (`step_limited`), so the run with a limit of
`n` is the run without, as far as its first `n` instructions. Without a limit, on calm streams and with a sink that
accepts everything, a balanced program stops at its end or at a read that fails, and nowhere else
(`endsOrFailsToRead_of_stopped`). If that happens within `n` instructions, the limit is not noticed, also where the
program ends right behind the last one; if not, the run is given up where the other one has made `n` instructions and
goes on. -/
namespace TapeMachine

/-- The task of running a program under options. -/
def Options.task (o : Options) (program : Program) (jumps : JumpTable) : Task :=
  { program, jumps, eof := o.eof, limit := o.stepLimit? }

def Task.limited (task : Task) (limit : Option Nat) : Task := { task with limit }

theorem Options.task_limited (o : Options) (program : Program) (jumps : JumpTable) {limit : Nat} (h : 1 ≤ limit) :
    ({ o with maxSteps := limit } : Options).task program jumps = (o.task program jumps).limited (some limit) := by
  have hpos : (0 : Int) < limit := by omega
  simp only [Options.task, Task.limited, stepLimit?, hpos, if_true, Int.toNat_natCast]

namespace Machine
variable {w : Nat} {task : Task} {limit : Nat}

/-! ### Below the limit -/

theorem step_limited {m : Machine w} (h : m.steps < limit) :
    m.step (task.limited (some limit)) = m.step (task.limited none) := by
  have hspent : m.isSpent (task.limited (some limit)).limit = m.isSpent (task.limited none).limit := by
    simp [isSpent, Task.limited, h]
  unfold step
  rw [hspent]
  rfl

theorem Run.limited {m last : Machine w} {visited : List (Machine w)}
    (hrun : Run (task.limited none) m visited last) (h : last.steps ≤ limit) :
    Run (task.limited (some limit)) m visited last := by
  have hmap : Run (task.limited (some limit)) (id m) (visited.map id) (id last) := by
    refine hrun.map id fun n hn n' hstep => ?_
    rw [id, step_limited (Nat.lt_of_lt_of_le (hrun.steps_lt_of_mem hn) h)]
    exact hstep
  rwa [List.map_id] at hmap

/-- A run without a limit halts within the limit, and then with it as well, or makes as many instructions and is
still inside the program. -/
theorem halts_within_or_goes_on (task : Task) (limit : Nat) {m : Machine w} (hquiet : m.signal.isRaised = false)
    (hstart : m.steps = 0) :
    (∃ h, Halts (task.limited none) m h ∧ Halts (task.limited (some limit)) m h ∧ h.result.steps ≤ limit) ∨
    ∃ visited last, Run (task.limited none) m visited last ∧ visited.length = limit ∧
      last.ip < task.program.size := by
  have hboth {visited : List (Machine w)} {last : Machine w} {h : Halt w}
      (hrun : Run (task.limited none) m visited last) (hle : last.steps ≤ limit)
      (hstop : last.step (task.limited none) = .stopped h.machine h.reason h.fault)
      (hsame : last.step (task.limited (some limit)) = last.step (task.limited none)) :
      Halts (task.limited none) m h ∧ Halts (task.limited (some limit)) m h :=
    ⟨halts_iff.mpr ⟨visited, .stopped hquiet hrun hstop⟩,
      halts_iff.mpr ⟨visited, .stopped hquiet (hrun.limited hle) (hsame.trans hstop)⟩⟩
  rcases run_or_stops (task.limited none) m limit with ⟨visited, last, hrun, hlen⟩ |
    ⟨visited, last, h, hrun, hlen, hstop⟩
  · have hsteps : last.steps = limit := by rw [hrun.steps_eq, hstart, hlen, Nat.zero_add]
    by_cases hip : last.ip < task.program.size
    · exact .inr ⟨visited, last, hrun, hlen, hip⟩
    · -- The end of the program is found before the limit is looked at.
      have hend (l : Option Nat) : last.step (task.limited l) = last.finish :=
        step_of_end (Array.getElem?_eq_none (Nat.le_of_not_lt hip))
      obtain ⟨h, hfinish⟩ : ∃ h : Halt w, last.finish = .stopped h.machine h.reason h.fault := by
        rcases finish_cases last with ⟨-, hf⟩ | ⟨text, -, hf⟩
        · exact ⟨⟨_, _, _⟩, hf⟩
        · exact ⟨⟨_, _, _⟩, hf⟩
      obtain ⟨hfree, hbound⟩ := hboth hrun (Nat.le_of_eq hsteps) ((hend none).trans hfinish)
        ((hend _).trans (hend _).symm)
      refine .inl ⟨h, hfree, hbound, Nat.le_of_eq ?_⟩
      rw [Halt.result, machine_of_finish hfinish]
      exact hsteps
  · have hsteps : last.steps < limit := by rw [hrun.steps_eq, hstart, Nat.zero_add]; exact hlen
    obtain ⟨hfree, hbound⟩ := hboth hrun (Nat.le_of_lt hsteps) hstop (step_limited hsteps)
    refine .inl ⟨h, hfree, hbound, ?_⟩
    show h.machine.steps ≤ limit
    rcases steps_of_stopped hstop with ⟨-, hcount⟩ | ⟨-, -, hcount⟩ <;> omega

/-! ### Without a limit -/

theorem Calm.due_unlimited {m : Machine w} (h : m.Calm) (hfree : task.limit = none) :
    m.due task = task.program[m.ip]? := by
  have hspent : m.isSpent task.limit = false := by rw [hfree, isSpent]
  rw [due, hspent, h.not_interrupted]
  rfl

/-- The ways for an unlimited run to stop: it has come to the end of the program, or a read has failed. -/
def Halt.EndsOrFailsToRead (h : Halt w) : Prop :=
  (h.reason = .finished ∧ h.fault = none) ∨
    h.reason = .failed ∧ ∃ offset text, h.fault = some (.caused .io (.reading offset text))

/-- Without a limit a calm machine in front of a sink that accepts everything stops in one of these ways, if its
brackets are balanced. -/
theorem endsOrFailsToRead_of_stopped {t : Tree} (ht : t.text = task.program.toList)
    (hjumps : ∀ i, task.jumps.partner? i = t.mate 0 i) (hfree : task.limit = none) {sink : Option Sink}
    {out : List UInt8} {m : Machine w} {h : Halt w} (hcalm : m.Calm) (hcarries : m.outbox.Carries sink out)
    (hopen : OpenAt t m.ip m.loops.items) (hstop : m.step task = .stopped h.machine h.reason h.fault) :
    h.EndsOrFailsToRead := by
  have htold {n : Machine w} {given : Fault} {out : List UInt8}
      (habort : n.abort h.reason given = .stopped h.machine h.reason h.fault) (hn : n.outbox.Carries sink out) :
      h.fault = some given :=
    (Progress.stopped.inj (habort.symm.trans (abort_of_carries hn h.reason given))).2.2
  have hbalanced {given : Fault} (hfault : h.fault = some given) : given.isA .unbalancedBrackets = false := by
    rw [hfault] at hstop
    exact balanced_of_stopped ht hjumps hopen hstop
  rcases stop_cases hstop with ⟨-, hf⟩ | ⟨n, given, hgive, habort⟩
  · rcases finish_cases m with ⟨-, hm⟩ | ⟨text, hfailed, -⟩
    · obtain ⟨-, hreason, hfault⟩ := Progress.stopped.inj (hm.symm.trans hf)
      exact .inl ⟨hreason.symm, hfault.symm⟩
    · cases hfailed.symm.trans hcarries.flush.1.healthy
  · generalize hreason : h.reason = reason at hgive
    cases hgive with
    | spent _ hspent =>
      rw [hfree] at hspent
      cases hspent
    | interrupted _ _ hraised => cases hraised.symm.trans hcalm.not_interrupted
    | writing _ _ hfailed => cases hfailed.symm.trans (hcarries.put _).healthy
    | flushing _ _ hfailed => cases hfailed.symm.trans hcarries.flush.1.healthy
    | reading => exact .inr ⟨hreason, m.ip, _, htold habort hcarries.flush.1⟩
    | unrecorded => cases hbalanced (htold habort hcarries)
    | stray => cases hbalanced (htold habort hcarries)

/-! ### At the limit -/

/-- A halt at the limit, of a run that has come to `last` by executing one instruction on each of the machines
`visited`. -/
structure Halt.CutAt (task : Task) (sink : Option Sink) (visited : List (Machine w)) (last : Machine w)
    (h : Halt w) : Prop where
  stop : h.result.stop = .stepLimit
  fault : h.fault = some (.caused .stepLimit (.stepsExecuted visited.length last.ip))
  steps : h.result.steps = visited.length
  left : h.LeftAt task sink visited last

theorem Run.cutAt {tape : Tape w} {input : Input} {sink : Option Sink}
    (hsink : ∀ s, sink = some s → s.AcceptsAll) {visited : List (Machine w)} {last : Machine w}
    (hrun : Run (task.limited none) (fresh tape input sink .clear) visited last)
    (hip : last.ip < task.program.size) :
    ∃ h, Halts (task.limited (some visited.length)) (fresh tape input sink .clear) h ∧
      h.CutAt (task.limited none) sink visited last := by
  have hsteps : last.steps = visited.length := hrun.steps_eq.trans (Nat.zero_add _)
  have hspent : last.isSpent (task.limited (some visited.length)).limit = true :=
    decide_eq_true (Nat.le_of_eq hsteps.symm)
  have hbyte : (task.limited (some visited.length)).program[last.ip]? = some (task.program[last.ip]) :=
    Array.getElem?_eq_getElem hip
  have hstop : last.step (task.limited (some visited.length)) =
      .stopped last.flush .stepLimit (some (.caused .stepLimit (.stepsExecuted last.steps last.ip))) := by
    simp only [step, hbyte, hspent, if_true]
    exact abort_of_carries (carries_run hsink hrun).1 _ _
  refine ⟨⟨last.flush, .stepLimit, _⟩,
    halts_iff.mpr ⟨visited, .stopped rfl (hrun.limited (Nat.le_of_eq hsteps)) hstop⟩, rfl, ?_, hsteps,
    hrun.leftAt hsink (.inl rfl)⟩
  rw [hsteps]

/-- **The step limit cuts the unlimited run.** A balanced program under a limit always halts, with at most as many
steps as the limit allows. If the run without a limit halts within as many, at the end of the program or at a read
that fails, the two halt alike. If not, the limit is told, and all that is left is what the run without a limit has
come to after as many instructions. -/
theorem limit_cuts (o : Options) (program : Program) (jumps : JumpTable)
    (hresolve : Brackets.resolve program = .ok jumps) (tape : Tape w) (input : Input) (hinput : input.Calm)
    (sink : Option Sink) (hsink : ∀ s, sink = some s → s.IsOpen) (limit : Nat) (hlimit : 1 ≤ limit) :
    let unlimited := ({ o with maxSteps := 0 } : Options).task program jumps
    let limited := ({ o with maxSteps := limit } : Options).task program jumps
    let m := fresh tape input sink .clear
    ∃ h, Halts limited m h ∧ h.result.steps ≤ limit ∧
      (∀ k, Halts unlimited m k → k.result.steps ≤ limit → h = k ∧ k.EndsOrFailsToRead) ∧
      ((¬∃ k, Halts unlimited m k ∧ k.result.steps ≤ limit) →
        ∃ visited last, Run unlimited m visited last ∧ visited.length = limit ∧
          h.CutAt unlimited sink visited last) := by
  intro unlimited limited m
  have haccepts : ∀ s, sink = some s → s.AcceptsAll := fun s hs => (hsink s hs).toAcceptsAll
  have hcalm : m.Calm := ⟨rfl, hinput, fun s hs => (hsink s hs).calm⟩
  obtain ⟨t, ht, -, -, hjumps⟩ := Brackets.exists_tree hresolve
  have hkind {k : Halt w} (hk : Halts unlimited m k) : k.EndsOrFailsToRead := by
    obtain ⟨visited, hafter⟩ := halts_iff.mp hk
    cases hafter with
    | cancelled hraised => cases hraised
    | stopped _ hrun hstop =>
      exact endsOrFailsToRead_of_stopped ht hjumps rfl (hcalm.run hrun) (carries_run haccepts hrun).1
        (openAt_run ht hjumps (OpenAt.start t) hrun) hstop
  have hlimited : limited = (o.task program jumps).limited (some limit) := o.task_limited program jumps hlimit
  rw [hlimited]
  rcases halts_within_or_goes_on (o.task program jumps) limit (m := m) rfl rfl with ⟨h, hfree, hbound, hle⟩ |
    ⟨visited, last, hrun, rfl, hip⟩
  · refine ⟨h, hbound, hle, fun k hk _ => ?_, fun hnone => absurd ⟨h, hfree, hle⟩ hnone⟩
    obtain rfl := hfree.unique hk
    exact ⟨rfl, hkind hk⟩
  · obtain ⟨h, hhalts, hcut⟩ := hrun.cutAt haccepts hip
    refine ⟨h, hhalts, Nat.le_of_eq hcut.steps, fun k hk hle => ?_, fun _ => ⟨visited, last, hrun, rfl, hcut⟩⟩
    -- The next instruction would be counted too.
    have hdue : last.due unlimited ≠ none := by
      rw [(hcalm.run hrun).due_unlimited rfl]
      exact fun hnone => absurd hip (Nat.not_lt.mpr (Array.getElem?_eq_none_iff.mp hnone))
    have hlater := hrun.steps_lt_of_halts hdue rfl hk
    rw [hrun.steps_eq] at hlater
    exact absurd hle (Nat.not_le.mpr (Nat.lt_of_le_of_lt (Nat.le_add_left ..) hlater))

/-- An endless echo of its input is cut after seven instructions, with the second byte read and only the first one
written. -/
theorem limit_cuts_echo :
    let task := ({ maxSteps := 7 } : Options).task #[0x2b, 0x5b, 0x2c, 0x2e, 0x5d]
      ⟨#[none, some 4, none, none, some 1], 1⟩
    let m : Machine 8 := fresh ⟨#[0], 0⟩ (.plain { data := [0x41, 0x42, 0x43] }) (some {}) .clear
    ∃ h, Halts task m h ∧ h.result = { steps := 7, read := 2, written := 1, stop := .stepLimit } ∧
      Option.Rel (Sink.Took [0x41]) (some {}) h.machine.outbox.sink := by
  intro task m
  obtain ⟨h, hhalts, -, -, hcut⟩ := limit_cuts {} #[0x2b, 0x5b, 0x2c, 0x2e, 0x5d]
    ⟨#[none, some 4, none, none, some 1], 1⟩ rfl (⟨#[0], 0⟩ : Tape 8) (.plain { data := [0x41, 0x42, 0x43] })
    (fun s hs => by cases hs; exact Nat.le_refl 0) (some {})
    (fun s hs => by cases hs; exact ⟨⟨rfl, rfl⟩, Nat.le_refl 0⟩)
    7 (by decide)
  -- The run without a limit makes seven instructions and goes on.
  have hseven : Run { task with limit := none } m _ _ :=
    .cons rfl (.cons rfl (.cons rfl (.cons rfl (.cons rfl (.cons rfl (.cons rfl (.nil _)))))))
  obtain ⟨visited, last, hrun, hlen, hcut⟩ := hcut fun hex => by
    obtain ⟨k, hk, hle⟩ := hex
    exact absurd hle (Nat.not_le.mpr (hseven.steps_lt_of_halts (by decide) rfl hk))
  obtain ⟨rfl, rfl⟩ := hrun.unique hseven hlen
  have hresult : h.result = ⟨7, 2, 1, .stepLimit⟩ := by
    rw [Halt.result, Result.mk.injEq]
    exact ⟨hcut.steps, hcut.left.read, hcut.left.written, hcut.stop⟩
  exact ⟨h, hhalts, hresult, hcut.left.delivered⟩

end Machine
end TapeMachine
