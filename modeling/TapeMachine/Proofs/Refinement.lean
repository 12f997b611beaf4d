import TapeMachine.Proofs.Delivery
import TapeMachine.Proofs.Evaluation
import TapeMachine.Proofs.Resolve
import TapeMachine.Proofs.Supply

/-! The machine does what the program means.

A machine mirrors a scene if it has the same tape, can still read the same bytes and has written the same
ones (`Mirrors`). Each instruction keeps this, and a machine that stands before a tree gets behind it in
the number of instructions that the tree takes, with the loop stack as it was (`reaches_of_evaluates`).
Conversely a run that stops has gone through every tree it began, which gives the evaluation of that tree
back (`evaluates_of_run`); the fuel left decreases, also where a loop is begun once more. -/
namespace TapeMachine
open Brackets

/-- A tree stands at position `a` of a task: its bytes are there, and the table has its pairs. -/
structure Stands (task : Task) (a : Nat) (t : Tree) : Prop where
  spans : Spans task.program a t.text
  pairs : ∀ {i j : Nat}, t.mate a i = some j → task.jumps.partner? i = some j

namespace Stands
variable {task : Task} {a : Nat} {inner after : Tree}

theorem plain {byte : UInt8} {simple : isBracket byte = false}
    (h : Stands task a (.plain byte simple after)) :
    task.program[a]? = some byte ∧ Stands task (a + 1) after :=
  ⟨h.spans.head, h.spans.tail, h.pairs⟩

/-- The two brackets of a loop. -/
theorem brackets (h : Stands task a (.loop inner after)) :
    task.program[a]? = some opening ∧ task.program[a + inner.size + 1]? = some closing ∧
      task.jumps.partner? a = some (a + inner.size + 1) :=
  ⟨h.spans.loop.1, h.spans.loop.2.2.1, h.pairs (by rw [Tree.mate, if_pos rfl])⟩

theorem body (h : Stands task a (.loop inner after)) : Stands task (a + 1) inner := by
  refine ⟨h.spans.loop.2.1, fun {i j} hmate => h.pairs ?_⟩
  have hbounds := Tree.mate_bounds hmate
  rw [Tree.mate, if_neg (by omega), if_neg (by omega), if_pos (by omega)]
  exact hmate

theorem rest (h : Stands task a (.loop inner after)) : Stands task (a + inner.size + 2) after := by
  refine ⟨h.spans.loop.2.2.2, fun {i j} hmate => h.pairs ?_⟩
  have hbounds := Tree.mate_bounds hmate
  rw [Tree.mate, if_neg (by omega), if_neg (by omega), if_neg (by omega)]
  exact hmate

end Stands

namespace Machine
variable {w : Nat}

/-- The machine has the tape of the scene, can read its input and has written its output. -/
structure Mirrors (sink : Option Sink) (s : Scene w) (m : Machine w) : Prop where
  tape : m.tape = s.tape
  clear : m.signal = .clear
  input : m.input.Supplies s.input
  outbox : m.outbox.Carries sink s.output
  read : m.read = s.read
  written : m.written = s.output.length

/-- `m` gets in `n` instructions to position `ip`, with the loop stack `loops`, and mirrors `v` there. -/
def Reaches (task : Task) (sink : Option Sink) (m : Machine w) (n ip : Nat) (loops : Stack Nat)
    (v : Scene w) : Prop :=
  ∃ visited m', Run task m visited m' ∧ visited.length = n ∧ m'.ip = ip ∧ m'.loops = loops ∧
    Mirrors sink v m'

namespace Mirrors
variable {task : Task} {sink : Option Sink} {s : Scene w} {m : Machine w}

theorem clear_counted (h : Mirrors sink s m) : m.counted.signal = .clear := congrArg Signal.advance h.clear

/-- Only the place in the program changes. -/
theorem jump (h : Mirrors sink s m) (ip : Nat) (loops : Stack Nat) :
    Mirrors sink s { m.counted with ip, loops } :=
  ⟨h.tape, h.clear_counted, h.input, h.outbox, h.read, h.written⟩

theorem isZero_iff (h : Mirrors sink s m) : m.tape.isZero = true ↔ s.tape.current = 0 := by
  rw [h.tape, Tape.isZero, beq_iff_eq]

theorem isZero_eq_false (h : Mirrors sink s m) (hne : s.tape.current ≠ 0) : m.tape.isZero = false := by
  rw [← Bool.not_eq_true, h.isZero_iff]
  exact hne

end Mirrors

namespace Reaches
variable {task : Task} {sink : Option Sink} {m m' : Machine w} {n k ip ip' : Nat}
  {loops loops' : Stack Nat} {u v : Scene w}

theorem zero (h : Mirrors sink v m) : Reaches task sink m 0 m.ip m.loops v :=
  ⟨[], m, .nil m, rfl, rfl, rfl, h⟩

theorem one (hstep : Advances task m m') (h : Mirrors sink v m') :
    Reaches task sink m 1 m'.ip m'.loops v :=
  ⟨[m], m', .single hstep.running, rfl, rfl, rfl, h⟩

theorem trans (h : Reaches task sink m n ip loops u)
    (hnext : ∀ m', m'.ip = ip → m'.loops = loops → Mirrors sink u m' →
      Reaches task sink m' k ip' loops' v) : Reaches task sink m (n + k) ip' loops' v := by
  obtain ⟨visited, m', hrun, hlen, hip, hloops, hm⟩ := h
  obtain ⟨later, m'', hlater, hk, hend⟩ := hnext m' hip hloops hm
  exact ⟨visited ++ later, m'', hrun.append hlater, by rw [List.length_append, hlen, hk], hend⟩

/-- A run that stops has fuel left wherever it gets. -/
theorem remaining {fuel : Nat} {h : Halt w} (hreach : Reaches task sink m n ip loops v)
    (hrun : run task fuel m = some h) :
    ∃ fuel' m', fuel = n + fuel' ∧ run task fuel' m' = some h ∧ m'.ip = ip ∧ m'.loops = loops ∧
      Mirrors sink v m' := by
  obtain ⟨visited, m', hvisited, hlen, hend⟩ := hreach
  have hle : visited.length ≤ fuel := by
    rcases Nat.lt_or_ge fuel visited.length with hlt | hge
    · rw [hvisited.run_short (Nat.le_of_lt hlt)] at hrun
      cases hrun
    · exact hge
  obtain ⟨fuel', rfl⟩ := Nat.exists_eq_add_of_le hle
  rw [hvisited.run_add] at hrun
  exact ⟨fuel', m', by rw [hlen], hrun, hend⟩

end Reaches

/-! ### One instruction -/

section
variable {task : Task} {sink : Option Sink} {s : Scene w} {m : Machine w} {a : Nat}
  (hlimit : task.limit = none) (hcalm : ∀ s, sink = some s → s.cancelAt ≤ s.writes.size)
include hlimit

/-- Without a limit, and with a clear signal, every byte of the program is executed. -/
theorem Mirrors.due (h : Mirrors sink s m) : m.due task = task.program[m.ip]? := by
  have hspent : m.isSpent task.limit = false := by rw [hlimit, isSpent]
  have hraised : m.isInterrupted = false := by simp [isInterrupted, h.clear, Signal.isRaised]
  rw [Machine.due, hspent, hraised]
  rfl

omit hlimit in
/-- Sending keeps the signal clear. -/
theorem Mirrors.signal_send (h : Mirrors sink s m) (act : Outbox → Outbox) {out : List UInt8}
    (hact : (act m.outbox).Carries sink out)
    (hcalm : ∀ s, sink = some s → s.cancelAt ≤ s.writes.size) :
    (m.counted.send act).signal = .clear := by
  show m.counted.signal.cancelIf ((act m.outbox).hasCancelledSince m.outbox.calls) = .clear
  rw [h.outbox.not_cancelled hact hcalm, h.clear_counted]
  rfl

include hcalm

theorem Mirrors.write (h : Mirrors sink s m) {byte : UInt8} (hbyte : task.program[m.ip]? = some byte)
    (hi : Instruction.ofByte? byte = some .output) :
    Reaches task sink m 1 (m.ip + 1) m.loops (s.perform task.eof byte) := by
  have hput := h.outbox.put m.tape.byte
  have hscene : s.perform task.eof byte = { s with output := s.output ++ [m.tape.byte] } := by
    rw [Scene.perform, hi, h.tape]
    rfl
  rw [hscene]
  refine .one (.write (by rw [h.due hlimit, hbyte]) hi hput.healthy)
    ⟨h.tape, ?_, h.input, hput, h.read, ?_⟩
  · exact h.signal_send (·.put m.tape.byte) hput hcalm
  · rw [List.length_append, ← h.written]
    rfl

theorem Mirrors.accept (h : Mirrors sink s m) {byte : UInt8} (hbyte : task.program[m.ip]? = some byte)
    (hi : Instruction.ofByte? byte = some .input) :
    Reaches task sink m 1 (m.ip + 1) m.loops (s.perform task.eof byte) := by
  have hdue : m.due task = some byte := by rw [h.due hlimit, hbyte]
  have hflush := h.outbox.flush.1
  obtain ⟨hquiet, left, hanswers, hleft⟩ := Input.readByte_of_supplies h.input
  have hclear : m.counted.flush.take.2.signal = .clear := by
    show m.counted.flush.signal.cancelIf (m.input.readByte.2.hasCancelledSince m.input.calls) = .clear
    rw [hquiet, flush, h.signal_send Outbox.flush hflush hcalm]
    rfl
  have hscene : s.perform task.eof byte = s.accept task.eof := by rw [Scene.perform, hi]
  rw [hscene]
  cases hin : s.input with
  | cons b rest =>
    rw [hin] at hanswers
    obtain ⟨hbyte, rfl⟩ := hanswers
    simp only [Scene.accept, hin]
    refine .one (.read hdue hi hflush.healthy hbyte) ⟨?_, hclear, hleft, hflush, ?_, h.written⟩
    · rw [← h.tape]
      rfl
    · rw [← h.read]
  | nil =>
    rw [hin] at hanswers
    obtain ⟨⟨fault, hfault, hend⟩, rfl⟩ := hanswers
    have hscene : s.accept task.eof = { s with tape := applyEof task.eof s.tape } := by
      simp only [Scene.accept, hin, applyEof, Tape.setByte, Tape.setMax]
      cases task.eof <;> rfl
    rw [hscene]
    refine .one (.ended hdue hi hflush.healthy hfault hend)
      ⟨?_, hclear, ?_, hflush, h.read, h.written⟩
    · rw [← h.tape]
    · rw [hin]
      exact hleft

/-- A byte that is no bracket does to the machine what it does to the scene. -/
theorem Mirrors.perform (h : Mirrors sink s m) {byte : UInt8} (hbyte : task.program[m.ip]? = some byte)
    (hplain : isBracket byte = false) :
    Reaches task sink m 1 (m.ip + 1) m.loops (s.perform task.eof byte) := by
  by_cases ho : Instruction.ofByte? byte = some .output
  · exact h.write hlimit hcalm hbyte ho
  by_cases hi : Instruction.ofByte? byte = some .input
  · exact h.accept hlimit hcalm hbyte hi
  have hscene : s.perform task.eof byte = { s with tape := shifted byte s.tape } := by
    unfold Scene.perform shifted
    cases hb : Instruction.ofByte? byte with
    | none => rfl
    | some i => cases i with
      | right => exact s.move_one
      | left => exact s.move_neg_one
      | output => exact absurd hb ho
      | input => exact absurd hb hi
      | _ => rfl
  rw [hscene]
  refine .one (.shift (by rw [h.due hlimit, hbyte]) hplain ho hi)
    ⟨?_, h.clear_counted, h.input, h.outbox, h.read, h.written⟩
  rw [← h.tape]

omit hcalm

/-- A loop is skipped on a zero cell. -/
theorem Mirrors.skip (h : Mirrors sink s m) {body rest : Tree}
    (hstands : Stands task m.ip (.loop body rest)) (hzero : s.tape.current = 0) :
    Reaches task sink m 1 (m.ip + body.size + 2) m.loops s := by
  obtain ⟨hopen, -, hpartner⟩ := hstands.brackets
  exact .one (.skip (by rw [h.due hlimit, hopen]) (h.isZero_iff.mpr hzero) hpartner) (h.jump _ _)

/-- A loop that is entered is pushed. -/
theorem Mirrors.enter (h : Mirrors sink s m) {body rest : Tree}
    (hstands : Stands task m.ip (.loop body rest)) (hne : s.tape.current ≠ 0) :
    Reaches task sink m 1 (m.ip + 1) (m.loops.push m.ip) s := by
  obtain ⟨hopen, -, -⟩ := hstands.brackets
  exact .one (.enter (by rw [h.due hlimit, hopen]) (h.isZero_eq_false hne)) (h.jump _ _)

/-- At the end of its body a loop is popped, and left or begun once more. -/
theorem Mirrors.close (h : Mirrors sink s m) {body rest : Tree} {loops : Stack Nat}
    (hstands : Stands task a (.loop body rest)) (hip : m.ip = a + 1 + body.size)
    (hloops : m.loops = loops.push a) :
    (s.tape.current = 0 → Reaches task sink m 1 (a + body.size + 2) loops s) ∧
      (s.tape.current ≠ 0 → Reaches task sink m 1 a loops s) := by
  have hplace : m.ip = a + body.size + 1 := by omega
  have hdue : m.due task = some closing := by
    rw [h.due hlimit, hplace]
    exact hstands.brackets.2.1
  have hitems : m.loops.items = a :: loops.items := by
    rw [hloops]
    rfl
  constructor
  · intro hzero
    have hreach := Reaches.one (.leave hdue hitems (h.isZero_iff.mpr hzero)) (h.jump (m.ip + 1) loops)
    rw [hplace] at hreach
    exact hreach
  · intro hne
    exact .one (.back hdue hitems (h.isZero_eq_false hne)) (h.jump a loops)

/-! ### Whole trees -/

/-- A machine before a loop gets behind it in the time that the loop takes, if it gets through the body in
the time that the body takes. -/
theorem reaches_of_while {body rest : Tree} {c : Nat} {v : Scene w}
    (hstands : Stands task a (.loop body rest))
    (hbody : ∀ {s v : Scene w} {n : Nat} {m : Machine w}, body.Evaluates task.eof s n v →
      Mirrors sink s m → m.ip = a + 1 → Reaches task sink m n (a + 1 + body.size) m.loops v)
    (hwhile : While (body.Evaluates task.eof) s c v) (h : Mirrors sink s m) (hip : m.ip = a) :
    Reaches task sink m (max 1 c) (a + body.size + 2) m.loops v := by
  induction hwhile generalizing m with
  | stop hzero =>
    subst hip
    exact h.skip hlimit hstands hzero
  | @again s u v n k hne hb hmore ih =>
    -- Once around: the opening bracket and the body.
    have hturn : Reaches task sink m (1 + n) (a + 1 + body.size) (m.loops.push a) u := by
      subst hip
      refine (h.enter hlimit hstands hne).trans (fun m' hip' hloops' h' => ?_)
      rw [← hloops']
      exact hbody hb h' hip'
    by_cases hzero : u.tape.current = 0
    · obtain ⟨rfl, rfl⟩ := hmore.of_zero hzero
      rw [show max 1 (n + 2 + 0) = 1 + n + 1 by omega]
      exact hturn.trans (fun m' hip' hloops' h' => (h'.close hlimit hstands hip' hloops').1 hzero)
    · have hpos := hmore.pos hzero
      rw [show max 1 (n + 2 + k) = 1 + n + 1 + max 1 k by omega]
      have hback : Reaches task sink m (1 + n + 1) a m.loops u :=
        hturn.trans (fun m' hip' hloops' h' => (h'.close hlimit hstands hip' hloops').2 hzero)
      refine hback.trans (fun m' hip' hloops' h' => ?_)
      rw [← hloops']
      exact ih h' hip'

include hcalm

/-- A machine before a tree gets behind it in the time that the tree takes. -/
theorem reaches_of_evaluates {t : Tree} {n : Nat} {v : Scene w} (hstands : Stands task a t)
    (heval : t.Evaluates task.eof s n v) (h : Mirrors sink s m) (hip : m.ip = a) :
    Reaches task sink m n (a + t.size) m.loops v := by
  induction t generalizing a s n v m with
  | done =>
    obtain ⟨rfl, rfl⟩ := heval
    subst hip
    exact .zero h
  | plain byte simple rest ih =>
    obtain ⟨k, hrest, rfl⟩ := heval
    obtain ⟨hbyte, hafter⟩ := hstands.plain
    subst hip
    rw [Tree.size, Nat.add_comm k, show m.ip + (rest.size + 1) = m.ip + 1 + rest.size by omega]
    refine (h.perform hlimit hcalm hbyte simple).trans (fun m' hip' hloops' h' => ?_)
    rw [← hloops']
    exact ih hafter hrest h' hip'
  | loop body rest ihbody ihrest =>
    obtain ⟨u, c, k, hwhile, hrest, rfl⟩ := heval
    rw [Tree.size, show a + (body.size + rest.size + 2) = a + body.size + 2 + rest.size by omega]
    have hloop := reaches_of_while hlimit hstands (ihbody hstands.body) hwhile h hip
    refine hloop.trans (fun m' hip' hloops' h' => ?_)
    rw [← hloops']
    exact ihrest hstands.rest hrest h' hip'

/-- A run that stops has gone through the tree before it, so that the tree can be evaluated. -/
theorem evaluates_of_run {t : Tree} {fuel : Nat} {halt : Halt w} (hstands : Stands task a t)
    (h : Mirrors sink s m) (hip : m.ip = a) (hrun : run task fuel m = some halt) :
    ∃ n v, t.Evaluates task.eof s n v := by
  -- On the fuel and not on the tree: a loop that is begun once more is the same tree, with less fuel.
  induction fuel using Nat.strongRecOn generalizing t a s m with
  | ind fuel ih =>
    subst hip
    cases t with
    | done => exact ⟨0, s, rfl, rfl⟩
    | plain byte simple rest =>
      obtain ⟨hbyte, hafter⟩ := hstands.plain
      obtain ⟨left, m', rfl, hrun', hip', -, h'⟩ :=
        (h.perform hlimit hcalm hbyte simple).remaining hrun
      obtain ⟨n, v, hrest⟩ := ih left (by omega) hafter h' hip' hrun'
      exact ⟨n + 1, v, n, hrest, rfl⟩
    | loop body rest =>
      by_cases hzero : s.tape.current = 0
      · obtain ⟨left, m', rfl, hrun', hip', -, h'⟩ := (h.skip hlimit hstands hzero).remaining hrun
        obtain ⟨n, v, hrest⟩ := ih left (by omega) hstands.rest h' hip' hrun'
        exact ⟨_, v, s, 0, n, .stop hzero, hrest, rfl⟩
      · obtain ⟨inside, m₁, rfl, hrun₁, hip₁, hloops₁, h₁⟩ :=
          (h.enter hlimit hstands hzero).remaining hrun
        obtain ⟨n, u, hbody⟩ := ih inside (by omega) hstands.body h₁ hip₁ hrun₁
        -- Now that the body is known to end, the run can be followed to its closing bracket.
        obtain ⟨closing, m₂, rfl, hrun₂, hip₂, hloops₂, h₂⟩ :=
          (reaches_of_evaluates hlimit hcalm hstands.body hbody h₁ hip₁).remaining hrun₁
        obtain ⟨hleave, hback⟩ := h₂.close hlimit hstands hip₂ (hloops₂.trans hloops₁)
        by_cases hzero' : u.tape.current = 0
        · obtain ⟨left, m', rfl, hrun', hip', -, h'⟩ := (hleave hzero').remaining hrun₂
          obtain ⟨k, v, hrest⟩ := ih left (by omega) hstands.rest h' hip' hrun'
          exact ⟨_, v, u, _, k, .again hzero hbody (.stop hzero'), hrest, rfl⟩
        · obtain ⟨left, m', rfl, hrun', hip', -, h'⟩ := (hback hzero').remaining hrun₂
          obtain ⟨-, v, u', c, k, hwhile, hrest, -⟩ := ih left (by omega) hstands h' hip' hrun'
          exact ⟨_, v, u', _, k, .again hzero hbody hwhile, hrest, rfl⟩

end

/-! ### Whole programs -/

/-- The machine halts well after `n` instructions, and all that it shows is as in `v`. -/
structure Halt.Shows (sink : Option Sink) (n : Nat) (v : Scene w) (h : Halt w) : Prop where
  fault : h.fault = none
  result : h.result = { steps := n, read := v.read, written := v.output.length, stop := .finished }
  tape : h.machine.tape = v.tape
  input : h.machine.input.Supplies v.input
  delivered : Option.Rel (Sink.Took v.output) sink h.machine.outbox.sink

/-- Behind the program a machine halts well. -/
theorem Reaches.halts {task : Task} {sink : Option Sink} {m : Machine w} {n ip : Nat}
    {loops : Stack Nat} {v : Scene w} (h : Reaches task sink m n ip loops v)
    (hclear : m.signal = .clear) (hsteps : m.steps = 0) (hend : task.program[ip]? = none) :
    ∃ halt, Halts task m halt ∧ halt.Shows sink n v := by
  obtain ⟨visited, last, hrun, hlen, hip, -, hlast⟩ := h
  obtain ⟨hflush, hempty⟩ := hlast.outbox.flush
  have hstop : last.step task = .stopped last.flush .finished none := by
    rw [step, hip, hend]
    rcases finish_cases last with ⟨-, hf⟩ | ⟨text, hfailed, -⟩
    · exact hf
    · cases hflush.healthy.symm.trans hfailed
  refine ⟨⟨last.flush, .finished, none⟩, halts_iff.mpr ⟨visited, .stopped (by rw [hclear]; rfl) hrun hstop⟩,
    rfl, ?_, hlast.tape, hlast.input, hflush.took hempty⟩
  have hcount : last.steps = n := by rw [hrun.steps_eq, hsteps, hlen, Nat.zero_add]
  rw [← hcount, ← hlast.read, ← hlast.written]
  rfl

/-- **The machine does what the program means.** It halts exactly if the tree of the program can be
evaluated, and then it halts well, with the tape, the output, the input left and the counts that the
evaluation gives. -/
theorem refines_evaluation (task : Task) (hresolve : resolve task.program = .ok task.jumps)
    (hlimit : task.limit = none) (tape : Tape w) (input : Input) (bytes : List UInt8)
    (hinput : input.Supplies bytes) (sink : Option Sink)
    (hsink : ∀ s, sink = some s → s.AcceptsAll ∧ s.cancelAt ≤ s.writes.size) :
    ∃ t, Tree.parse? task.program.toList = some t ∧
      ((∃ h, Halts task (fresh tape input sink .clear) h) ↔
        ∃ n v, t.Evaluates task.eof { tape, input := bytes } n v) ∧
      ∀ h n v, Halts task (fresh tape input sink .clear) h →
        t.Evaluates task.eof { tape, input := bytes } n v → h.Shows sink n v := by
  obtain ⟨t, ht, -, -, hmate⟩ := exists_tree hresolve
  have hcalm : ∀ s, sink = some s → s.cancelAt ≤ s.writes.size := fun s hs => (hsink s hs).2
  have hstands : Stands task 0 t := ⟨ht ▸ Spans.whole task.program, fun h => by rw [hmate, h]⟩
  have hstart : Mirrors sink { tape, input := bytes } (fresh tape input sink .clear) :=
    ⟨rfl, rfl, hinput, .start (fun s hs => (hsink s hs).1), rfl, rfl⟩
  have hend : task.program[0 + t.size]? = none := by
    rw [Nat.zero_add, ← Tree.length_text, ht, Array.length_toList]
    exact Array.getElem?_eq_none_iff.mpr (Nat.le_refl _)
  have hhalts {n : Nat} {v : Scene w} (heval : t.Evaluates task.eof { tape, input := bytes } n v) :
      ∃ h, Halts task (fresh tape input sink .clear) h ∧ h.Shows sink n v :=
    (reaches_of_evaluates hlimit hcalm hstands heval hstart rfl).halts rfl rfl hend
  refine ⟨t, Tree.parse?_eq_some_iff.mpr ht, ⟨fun hex => ?_, fun hex => ?_⟩, fun h n v hh heval => ?_⟩
  · obtain ⟨h, fuel, hfuel⟩ := hex
    rw [launch_eq rfl] at hfuel
    exact evaluates_of_run hlimit hcalm hstands hstart rfl hfuel
  · obtain ⟨n, v, heval⟩ := hex
    obtain ⟨h, hh, -⟩ := hhalts heval
    exact ⟨h, hh⟩
  · obtain ⟨h', hh', hshows⟩ := hhalts heval
    rw [hh.unique hh']
    exact hshows

/-- A move past the first cell of two, and a loop that counts the byte it has read there down to zero: two times around,
four instructions each. -/
theorem refines_evaluation_countdown :
    ∃ h : Halt 8, Halts
        { program := #[0x3c, 0x2c, 0x5b, 0x2e, 0x2d, 0x5d]
          jumps := ⟨#[none, none, some 5, none, none, some 2], 1⟩ }
        (fresh ⟨#[7, 3], 0⟩ (.plain { data := [2, 9] }) (some {}) .clear) h ∧
      h.Shows (some {}) 10 ⟨⟨#[7, 0], 1⟩, [9], [2, 1], 1⟩ := by
  obtain ⟨t, ht, hiff, hshows⟩ := refines_evaluation (w := 8)
    { program := #[0x3c, 0x2c, 0x5b, 0x2e, 0x2d, 0x5d]
      jumps := ⟨#[none, none, some 5, none, none, some 2], 1⟩ } rfl rfl
    ⟨#[7, 3], 0⟩ (.plain { data := [2, 9] }) [2, 9] ⟨rfl, rfl, Nat.le_refl 0⟩ (some {})
    (fun s hs => by cases hs; exact ⟨⟨rfl, rfl⟩, Nat.le_refl 0⟩)
  obtain rfl := Option.some.inj (ht.symm.trans (show _ = some (Tree.plain 0x3c rfl (.plain 0x2c rfl
    (.loop (.plain 0x2e rfl (.plain 0x2d rfl .done)) .done))) from rfl))
  have hfirst : Tree.Evaluates .unchanged (.plain 0x2e rfl (.plain 0x2d rfl .done))
      (⟨⟨#[7, 2], 1⟩, [9], [], 1⟩ : Scene 8) 2 ⟨⟨#[7, 1], 1⟩, [9], [2], 1⟩ := ⟨1, ⟨0, ⟨rfl, rfl⟩, rfl⟩, rfl⟩
  have hsecond : Tree.Evaluates .unchanged (.plain 0x2e rfl (.plain 0x2d rfl .done))
      (⟨⟨#[7, 1], 1⟩, [9], [2], 1⟩ : Scene 8) 2 ⟨⟨#[7, 0], 1⟩, [9], [2, 1], 1⟩ :=
    ⟨1, ⟨0, ⟨rfl, rfl⟩, rfl⟩, rfl⟩
  have hloop := While.again (by decide) hfirst (.again (by decide) hsecond (.stop rfl))
  have hwhole : Tree.Evaluates .unchanged (.plain 0x3c rfl (.plain 0x2c rfl
      (.loop (.plain 0x2e rfl (.plain 0x2d rfl .done)) .done))) (⟨⟨#[7, 3], 0⟩, [2, 9], [], 0⟩ : Scene 8) 10
      ⟨⟨#[7, 0], 1⟩, [9], [2, 1], 1⟩ := ⟨9, ⟨8, ⟨_, _, 0, hloop, ⟨rfl, rfl⟩, rfl⟩, rfl⟩, rfl⟩
  obtain ⟨h, hh⟩ := hiff.mpr ⟨10, _, hwhole⟩
  exact ⟨h, hh, hshows h _ _ hh hwhole⟩

end Machine
end TapeMachine
