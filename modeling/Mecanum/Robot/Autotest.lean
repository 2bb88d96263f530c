import Mathlib.Data.List.Chain
import Mathlib.Data.List.Range
import Mecanum.Foundations.Trace
import Mecanum.Motor.OutputStage
import Mecanum.Robot.Envelope

/-! # The motor autotest

The build with `MOTOR_AUTOTEST_NO_PS2` set, as the repository has it: `ps2_thread` drives the motors by
the clock and `motor_control_thread` sleeps. Time is cut into windows of `AUTOTEST_STEP_MS`; the last one
before the 32-bit clock wraps is cut short, and it is one of the third phase, so that the cycle
goes on across the wrap.
-/

namespace Mecanum.Robot
open Motor Mecanum.Wheel Trace
set_option autoImplicit false

def autotestSpeed : Int16 := 45

def autotestStepMs : UInt32 := 2000

/-- What the thread logs when the phase changes. -/
inductive AutotestLog
  | forward
  | backward
  | stop
  deriving DecidableEq, Repr

structure AutotestState where
  motor : WheelId → ZephyrMotor
  lines : WheelId → Lines
  /-- The static `last_phase`, an `int`. -/
  lastPhase : ℤ

def autotestPhase (uptime : UInt32) : UInt32 := uptime / autotestStepMs % 3

def autotestDuty (phase : UInt32) : Int16 :=
  if phase = 0 then autotestSpeed else if phase = 1 then -autotestSpeed else 0

def autotestLog (phase : UInt32) : AutotestLog :=
  if phase = 0 then .forward else if phase = 1 then .backward else .stop

/-- One iteration of `ps2_thread`, and what it logs. -/
def autotestIteration (s : AutotestState) (uptime : UInt32) : AutotestState × Option AutotestLog :=
  let phase := autotestPhase uptime
  let driven w := zephyrMotorSetSpeed (s.motor w) (autotestDuty phase)
  ({ motor := fun w => (driven w).1
     lines := fun w => (s.lines w).applyAll (driven w).2
     lastPhase := phase.toNat },
    if (phase.toNat : ℤ) ≠ s.lastPhase then some (autotestLog phase) else none)

/-- `init_hardware` in this build: no encoder, no controller and no gamepad. -/
def autotestInitHardware (board : Board) : Option AutotestState :=
  if board.pwmReady .pwm1 && board.pwmReady .pwm2 && board.pwmReady .pwm17 && board.gpioReady .b &&
      board.gpioReady .e && board.gpioReady .a && board.gpioReady .c && board.gpioReady .d then
    some
      { motor := fun w => wheelMotor w minDuty (UInt16.ofNat maxSpeed)
        lines := fun w => Lines.reset.applyAll (zephyrMotorInit w.pwmDev (board.pwmReady w.pwmDev)
          (board.gpioReady (WheelId.motorPort w)) false).2
        lastPhase := -1 }
  else none

/-! ## Windows of the clock -/

/-- The number of the window that contains the time `t`, in ms; the clock's `2 ^ 32` ms are 2147484
windows. -/
def window (t : ℕ) : ℕ := t / 4294967296 * 2147484 + t % 4294967296 / 2000

theorem toNat_autotestPhase (t : ℕ) : (autotestPhase (UInt32.ofNat t)).toNat = window t % 3 := by
  have htime : (UInt32.ofNat t).toNat = t % 4294967296 := by simp
  have hstep : autotestStepMs.toNat = 2000 := rfl
  have hthree : (3 : UInt32).toNat = 3 := rfl
  unfold autotestPhase window
  rw [UInt32.toNat_mod, UInt32.toNat_div, htime, hstep, hthree]
  omega

/-- The shortest window is the last one before the wrap, of 1296 ms. -/
theorem window_add (t gap : ℕ) (h : gap ≤ 1296) :
    window (t + gap) = window t ∨ window (t + gap) = window t + 1 := by
  unfold window
  omega

def windowLog (i : ℕ) : AutotestLog :=
  if i % 3 = 0 then .forward else if i % 3 = 1 then .backward else .stop

/-- The signed pulse, in ns, on every motor during a window. -/
def windowDrive (i : ℕ) : ℤ := if i % 3 = 0 then 885000 else if i % 3 = 1 then -885000 else 0

section Phase
variable {phase : UInt32} {i : ℕ}

theorem autotestLog_eq (h : phase.toNat = i % 3) : autotestLog phase = windowLog i := by
  have hzero : phase = 0 ↔ i % 3 = 0 := by
    rw [← UInt32.toNat_inj, h]
    rfl
  have hone : phase = 1 ↔ i % 3 = 1 := by
    rw [← UInt32.toNat_inj, h]
    rfl
  unfold autotestLog windowLog
  simp only [hzero, hone]

/-- Whatever was on the wires, an iteration leaves the drive of the phase there. -/
theorem drive_autotestDuty {w : WheelId} {motor : ZephyrMotor} (hmotor : MotorSettings w motor)
    (h : phase.toNat = i % 3) (l : Lines) :
    (speedLines motor (autotestDuty phase) l).drive = some (windowDrive i) := by
  have hrange : motor.minDuty ≤ motor.maxDuty := by
    rw [hmotor.minDuty, hmotor.maxDuty]
    decide
  have hphase : phase = 0 ∧ i % 3 = 0 ∨ phase = 1 ∧ i % 3 = 1 ∨ phase = 2 ∧ i % 3 = 2 := by
    simp only [← UInt32.toNat_inj, h]
    show i % 3 = 0 ∧ _ ∨ i % 3 = 1 ∧ _ ∨ i % 3 = 2 ∧ _
    omega
  rw [drive_speedLines, state_setSpeed, pulse_speedLines motor _ hrange, hmotor.reversed]
  unfold pulseUs level windowDrive
  rw [hmotor.minDuty, hmotor.maxDuty]
  obtain ⟨rfl, hi⟩ | ⟨rfl, hi⟩ | ⟨rfl, hi⟩ := hphase <;> rw [hi] <;>
    decide +kernel

end Phase

/-! ## Runs -/

/-- The thread, the time of its last iteration in ms, and what it has logged. -/
structure AutotestRun where
  state : AutotestState
  clock : ℕ
  log : List AutotestLog

namespace AutotestRun

/-- The next iteration, `gap` ms later. -/
def step (s : AutotestRun) (gap : ℕ) : AutotestRun :=
  let clock := s.clock + gap
  let polled := autotestIteration s.state (UInt32.ofNat clock)
  ⟨polled.1, clock, s.log ++ polled.2.toList⟩

/-- Since the window `first` every window has been logged once and in order, and all four motors are
driven as the current window says. -/
structure OnTime (first : ℕ) (s : AutotestRun) : Prop where
  log : s.log = (List.range' first (window s.clock + 1 - first)).map windowLog
  drive : ∀ w, (s.state.lines w).drive = some (windowDrive (window s.clock))

structure Inv (first : ℕ) (s : AutotestRun) : Prop extends OnTime first s where
  settings : ∀ w, MotorSettings w (s.state.motor w)
  lastPhase : s.state.lastPhase = window s.clock % 3
  started : first ≤ window s.clock

section Step
variable {s : AutotestRun} {first gap : ℕ}

theorem step_log : (s.step gap).log = s.log ++
    if (window (s.clock + gap) % 3 : ℤ) ≠ s.state.lastPhase then [windowLog (window (s.clock + gap))]
    else [] := by
  have hphase := toNat_autotestPhase (s.clock + gap)
  have hcast : ((window (s.clock + gap) % 3 : ℕ) : ℤ) = (window (s.clock + gap) % 3 : ℤ) := by
    push_cast
    rfl
  unfold step autotestIteration
  simp only [hphase, hcast, autotestLog_eq hphase]
  split <;> rfl

theorem step_wheels (hsettings : ∀ w, MotorSettings w (s.state.motor w)) (w : WheelId) :
    MotorSettings w ((s.step gap).state.motor w) ∧
      ((s.step gap).state.lines w).drive = some (windowDrive (window (s.clock + gap))) :=
  ⟨(hsettings w).setSpeed _,
    drive_autotestDuty (hsettings w) (toNat_autotestPhase (s.clock + gap)) (s.state.lines w)⟩

theorem step_lastPhase : (s.step gap).state.lastPhase = window (s.step gap).clock % 3 := by
  have hphase := toNat_autotestPhase (s.clock + gap)
  show ((autotestPhase (UInt32.ofNat (s.clock + gap))).toNat : ℤ) = window (s.clock + gap) % 3
  rw [hphase]
  push_cast
  rfl

theorem step_inv (h : Inv first s) (hgap : gap ≤ 1296) : Inv first (s.step gap) := by
  have hclock : (s.step gap).clock = s.clock + gap := rfl
  have hwheels := @step_wheels s gap h.settings
  have hstarted := h.started
  refine ⟨⟨?_, fun w => (hwheels w).2⟩, fun w => (hwheels w).1, step_lastPhase, ?_⟩
  · rw [step_log, h.log, h.lastPhase, hclock]
    obtain hsame | hnext := window_add s.clock gap hgap
    · rw [hsame, if_neg (by simp), List.append_nil]
    · -- the next window has another phase
      have hcount : window s.clock + 1 + 1 - first = (window s.clock + 1 - first) + 1 := by omega
      have hlast : first + (window s.clock + 1 - first) = window s.clock + 1 := by omega
      rw [hnext, if_pos (by omega), hcount, List.range'_concat, List.map_append, List.map_singleton,
        Nat.one_mul, hlast]
  · rw [hclock]
    obtain hsame | hnext := window_add s.clock gap hgap
    · rw [hsame]
      exact hstarted
    · rw [hnext]
      omega

end Step

theorem autotestInitHardware_state {board : Board} {s : AutotestState}
    (h : autotestInitHardware board = some s) :
    (∀ w, MotorSettings w (s.motor w)) ∧ s.lastPhase = -1 := by
  unfold autotestInitHardware at h
  split at h
  · obtain rfl := Option.some.inj h
    exact ⟨fun _ => ⟨rfl, rfl, rfl, rfl, rfl⟩, rfl⟩
  · cases h

/-- The first iteration logs its window, whichever it is. -/
theorem first_inv {board : Board} {s : AutotestState} (h : autotestInitHardware board = some s)
    (start gap : ℕ) : Inv (window (start + gap)) (step ⟨s, start, []⟩ gap) := by
  obtain ⟨hsettings, hlast⟩ := autotestInitHardware_state h
  have hwheels := @step_wheels ⟨s, start, []⟩ gap hsettings
  have hone : window (start + gap) + 1 - window (start + gap) = 1 := by omega
  refine ⟨⟨?_, fun w => (hwheels w).2⟩, fun w => (hwheels w).1, step_lastPhase, le_rfl⟩
  show (step ⟨s, start, []⟩ gap).log =
    (List.range' _ (window (start + gap) + 1 - window (start + gap))).map windowLog
  rw [step_log, hlast, if_pos (by omega), List.nil_append, hone]
  rfl

/-- With iterations at most 1296 ms apart the autotest goes through the windows of the clock without a
gap, also where its 32 bits wrap, and drives all four motors alike. -/
theorem autotest_cycles (board : Board) (s : AutotestState)
    (hinit : autotestInitHardware board = some s) (start gap : ℕ) (gaps : List ℕ)
    (hgaps : ∀ g ∈ gaps, g ≤ 1296) :
    OnTime (window (start + gap)) (run step ⟨s, start, []⟩ (gap :: gaps)) := by
  have hrun : ∀ gaps : List ℕ, (∀ g ∈ gaps, g ≤ 1296) → ∀ t,
      Inv (window (start + gap)) t → Inv (window (start + gap)) (run step t gaps) := by
    intro gaps
    induction gaps with
    | nil => exact fun _ _ h => h
    | cons g gaps ih =>
        intro hall t h
        rw [run_cons]
        exact ih (fun g' hg' => hall g' (List.mem_cons_of_mem g hg')) _
          (step_inv h (hall g List.mem_cons_self))
  exact (hrun gaps hgaps _ (first_inv hinit start gap)).toOnTime

/-- An hour of iterations 50 ms apart, across the wrap. -/
theorem autotest_cycles_wrap :
    OnTime (window 4294960050) (run step ⟨(autotestInitHardware readyBoard).get (by decide), 4294960000, []⟩
      (50 :: List.replicate 72000 50)) := by
  refine autotest_cycles readyBoard _ (Option.some_get _).symm 4294960000 50 _ fun g hg => ?_
  rw [List.eq_of_mem_replicate hg]
  norm_num

end AutotestRun
end Mecanum.Robot
