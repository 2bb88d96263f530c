import Mecanum.Robot.Envelope
import Mecanum.Wheel.ControlPeriod

/-! # The four wheels in lockstep

`motor_control_thread` sleeps for `DT_MS` after every critical section, and a time gate needs `DT_MS`
since the control step that was due last. So the gates can only hold back the first section: in every
later one all four wheels run a control step. What a section takes beyond `DT_MS` is never made up for.
-/

namespace Mecanum.Robot
open Motor Mecanum.Wheel Gamepad FloatArith Trace Cadence
set_option autoImplicit false

/-- The control state, with the sections of the motor thread, and for each wheel its control steps and the
uptime of its last tick. -/
structure Lockstep (F : Type) where
  robot : ControlState F
  sections : ℕ
  steps : WheelId → ℕ
  now : WheelId → ℤ

namespace Lockstep
variable {F : Type} [FloatArith F]

def step (s : Lockstep F) (e : RobotEvent) : Lockstep F where
  robot := s.robot.step e
  sections := match e with
    | .motor _ _ => s.sections + 1
    | .pad _ _ => s.sections
  steps := match e with
    | .motor _ uptime => fun w =>
        if gateOpen (s.robot.accel w) (uptime w) then s.steps w + 1 else s.steps w
    | .pad _ _ => s.steps
  now := match e with
    | .motor _ uptime => fun w => (uptime w).toInt
    | .pad _ _ => s.now

/-- Each controller is set up at its uptime of `init_hardware`. -/
def startAt (robot : ControlState F) (board : Board) : Lockstep F :=
  ⟨robot, 0, fun _ => 0, fun w => (board.accelUptime w).toInt⟩

section Law
variable (board : Board)

/-- The time since the control step of a wheel that was due last. -/
def behind (s : Lockstep F) (w : WheelId) : ℤ → ℤ :=
  backlog (board.accelUptime w).toInt 20 (s.steps w)

/-- The thread slept for 20 ms since the section before, and the backlog is below the wrap of the clock. -/
def Slept (s : Lockstep F) (e : RobotEvent) (_ : Lockstep F) : Prop :=
  ∀ count uptime, e = .motor count uptime → ∀ w,
    s.now w + (if s.sections = 0 then 0 else 20) ≤ (uptime w).toInt ∧
      s.behind board w (uptime w).toInt < 4294967296

/-- All four wheels are due in every section but the first, whatever the 32-bit clock shows, and no wheel
catches up. -/
structure LockstepLaw (s : Lockstep F) (e : RobotEvent) (t : Lockstep F) : Prop where
  due : ∀ count uptime, e = .motor count uptime → 0 < s.sections → ∀ w, Due s.robot w e
  steps : ∀ w, t.steps w ≤ t.sections ∧ t.sections ≤ t.steps w + 1
  clock : ∀ w, ((t.robot.accel w).lastTickTime.toNat : ℤ) =
    ((board.accelUptime w).toInt + 20 * t.steps w) % 4294967296
  behind : ∀ w, 0 ≤ t.behind board w (t.now w) ∧
    (0 < s.sections → s.behind board w (s.now w) ≤ t.behind board w (t.now w))

/-- The wheel as a controller with its pace. -/
def paced (s : Lockstep F) (w : WheelId) : Paced F := ⟨s.robot.accel w, s.steps w, s.now w⟩

structure Inv (s : Lockstep F) : Prop where
  paced : ∀ w, Paced.Inv (board.accelUptime w) 20 (s.paced w)
  steps : ∀ w, s.steps w ≤ s.sections ∧ s.sections ≤ s.steps w + 1

variable {board} {s : Lockstep F} {e : RobotEvent}

theorem paced_settings (start : WheelId → Int64) (steps : WheelId → ℕ) (now : WheelId → ℤ) :
    KeptBySettings (F := F) fun w accel _ => Paced.Inv (start w) 20 ⟨accel, steps w, now w⟩ where
  setRunMode _ _ _ mode _ h := by
    cases mode <;> exact ⟨h.period, h.clock, h.not_negative⟩
  setTargetPos _ _ _ _ h := ⟨h.period, h.clock, h.not_negative⟩
  setTargetSpeed _ _ _ _ _ h := ⟨h.period, h.clock, h.not_negative⟩

/-- The tick of a wheel in a section, as a tick of its paced controller. -/
def pacedTick (s : Lockstep F) (count : WheelId → Int32) (uptime : WheelId → Int64) (w : WheelId) :
    Paced F :=
  Paced.step ⟨withCount (s.robot.accel w) (count w), s.steps w, s.now w⟩ ⟨count w, uptime w⟩

theorem pacedTick_eq (s : Lockstep F) (count : WheelId → Int32) (uptime : WheelId → Int64)
    (w : WheelId) : pacedTick s count uptime w =
      ⟨(tickWheels s.robot count uptime).accel w, (s.step (.motor count uptime)).steps w,
        (s.step (.motor count uptime)).now w⟩ := rfl

theorem period_toNat : ((20 : UInt32).toNat : ℤ) = 20 := rfl

/-- Uptimes do not fall, so the pace of every wheel is timely. -/
theorem timely_of_slept {count : WheelId → Int32} {uptime : WheelId → Int64}
    (h : Slept board s (.motor count uptime) (s.step (.motor count uptime))) (w : WheelId) :
    Paced.Timely (board.accelUptime w) 20
      ⟨withCount (s.robot.accel w) (count w), s.steps w, s.now w⟩ ⟨count w, uptime w⟩
      (pacedTick s count uptime w) := by
  obtain ⟨hnow, hwrap⟩ := h count uptime rfl w
  refine ⟨?_, hwrap⟩
  split at hnow
  · exact (Int.add_zero _).symm.trans_le hnow
  · exact (Int.le_add_of_nonneg_right (by decide)).trans hnow

omit [FloatArith F] in
theorem inv_withCount (h : s.Inv board) (count : WheelId → Int32) (w : WheelId) :
    Paced.Inv (board.accelUptime w) 20
      ⟨withCount (s.robot.accel w) (count w), s.steps w, s.now w⟩ :=
  ⟨(h.paced w).period, (h.paced w).clock, (h.paced w).not_negative⟩

/-- After the first section the gates have nothing to hold back. -/
theorem due_of_slept (h : s.Inv board) {count : WheelId → Int32} {uptime : WheelId → Int64}
    (hslept : Slept board s (.motor count uptime) (s.step (.motor count uptime)))
    (hlater : 0 < s.sections) (w : WheelId) : gateOpen (s.robot.accel w) (uptime w) := by
  obtain ⟨hnow, -⟩ := hslept count uptime rfl w
  have hbehind := (h.paced w).not_negative
  have hmoved := backlog_add (board.accelUptime w).toInt 20 (s.steps w) (s.now w)
    ((uptime w).toInt - s.now w)
  have hopen := Paced.gateOpen_iff (inv_withCount h count w) (timely_of_slept hslept w)
  rw [if_neg (by omega)] at hnow
  rw [add_sub_cancel] at hmoved
  refine hopen.mpr ?_
  unfold Paced.behind at hbehind ⊢
  rw [period_toNat] at hbehind ⊢
  show 20 ≤ backlog _ 20 (s.steps w) (uptime w).toInt
  have hbehind' : 0 ≤ backlog (board.accelUptime w).toInt 20 (s.steps w) (s.now w) := hbehind
  omega

theorem step_paced (h : s.Inv board) (hslept : Slept board s e (s.step e)) (w : WheelId) :
    Paced.Inv (board.accelUptime w) 20 ((s.step e).paced w) := by
  let t := s.step e
  have hkept := paced_settings (F := F) board.accelUptime t.steps t.now
  cases e with
  | motor count uptime =>
      have hticked : Wheels
          (fun w accel _ => Paced.Inv (board.accelUptime w) 20 ⟨accel, t.steps w, t.now w⟩)
          (tickWheels s.robot count uptime) := by
        intro w
        have hticked := Paced.inv_step (inv_withCount h count w) (timely_of_slept hslept w)
        rw [← pacedTick, pacedTick_eq] at hticked
        exact hticked
      have hrobot : t.robot = if EndsMove s.robot count uptime
          then changeMode (tickWheels s.robot count uptime) false
          else tickWheels s.robot count uptime := motorThreadStep_eq _ count uptime
      show Paced.Inv _ _ ⟨t.robot.accel w, t.steps w, t.now w⟩
      rw [hrobot]
      split
      · exact hkept.changeMode hticked false w
      · exact hticked w
  | pad frame lastRead =>
      exact hkept.ps2ThreadStep (s := s.robot.latch frame lastRead) h.paced (frameOk frame) w

theorem step_steps (h : s.Inv board) (hslept : Slept board s e (s.step e)) (w : WheelId) :
    (s.step e).steps w ≤ (s.step e).sections ∧ (s.step e).sections ≤ (s.step e).steps w + 1 := by
  have hsteps := h.steps w
  cases e with
  | motor count uptime =>
      show (if gateOpen (s.robot.accel w) (uptime w) then s.steps w + 1 else s.steps w) ≤
        s.sections + 1 ∧ s.sections + 1 ≤
          (if gateOpen (s.robot.accel w) (uptime w) then s.steps w + 1 else s.steps w) + 1
      by_cases hlater : 0 < s.sections
      · rw [if_pos (due_of_slept h hslept hlater w)]
        omega
      · split <;> omega
  | pad frame lastRead => exact hsteps

theorem step_inv (h : s.Inv board) (hslept : Slept board s e (s.step e)) : (s.step e).Inv board :=
  ⟨step_paced h hslept, step_steps h hslept⟩

theorem step_law (h : s.Inv board) (hslept : Slept board s e (s.step e)) :
    LockstepLaw board s e (s.step e) := by
  have hnext := step_inv h hslept
  refine ⟨?_, hnext.steps, fun w => (hnext.paced w).clock,
    fun w => ⟨(hnext.paced w).not_negative, ?_⟩⟩
  · rintro count uptime rfl hlater w
    exact due_of_slept h hslept hlater w
  · intro hlater
    cases e with
    | motor count uptime =>
        obtain ⟨hnow, -⟩ := hslept count uptime rfl w
        rw [if_neg (by omega)] at hnow
        show backlog _ 20 (s.steps w) (s.now w) ≤ backlog _ 20
          (if gateOpen (s.robot.accel w) (uptime w) then s.steps w + 1 else s.steps w) (uptime w).toInt
        rw [if_pos (due_of_slept h hslept hlater w)]
        unfold backlog
        rw [Nat.cast_succ]
        omega
    | pad frame lastRead => exact le_rfl

end Law

theorem initHardware_inv {W : Type} {board : Board} {bus : Bus W} {world : W} {s : ControlState F}
    (h : initHardware board bus world = some s) : (startAt s board).Inv board := by
  refine ⟨fun w => ?_, fun w => ⟨le_rfl, Nat.zero_le _⟩⟩
  have hpaced := Paced.inv_startAt (s.accel w) (board.accelUptime w)
  rw [initHardware_eq h] at hpaced ⊢
  exact ⟨hpaced.period, hpaced.clock, hpaced.not_negative⟩

/-- Along every interleaving from `init_hardware` on, in any arithmetic. -/
theorem wheels_in_lockstep {W : Type} (board : Board) (bus : Bus W) (world : W)
    (s : ControlState F) (hinit : initHardware board bus world = some s) (events : List RobotEvent)
    (hslept : Always step (Slept board) (startAt s board) events) :
    Always step (LockstepLaw board) (startAt s board) events :=
  Always.of_invariant_of_always (I := fun s => s.Inv board) (fun _ _ h hs => step_law h hs)
    (fun _ _ h hs => step_inv h hs) events (initHardware_inv hinit) hslept

/-- The first section comes too early for a control step, and the others 21 and 35 ms apart. -/
theorem wheels_in_lockstep_late :
    Always step (LockstepLaw readyBoard) (startAt shippedRobot readyBoard)
      [.motor (fun _ => 0) (fun _ => 15), .pad StickWatch.upFrame 0, .motor (fun _ => 0) (fun _ => 36),
        .motor (fun _ => 3) (fun _ => 71)] := by
  have hsoon : ∀ (s : Lockstep ℚ) (w : WheelId) (t : ℤ), t < 4294967296 →
      s.behind readyBoard w t < 4294967296 := by
    intro s w t ht
    have hstart : (readyBoard.accelUptime w).toInt = 0 := rfl
    unfold behind backlog
    rw [hstart]
    omega
  refine wheels_in_lockstep _ _ _ _ initHardware_shipped _ ⟨?_, ?_, ?_, ?_, trivial⟩
  · rintro _ _ ⟨⟩ w
    have hnow : (0 : ℤ) + (if (0 : ℕ) = 0 then 0 else 20) ≤ (15 : Int64).toInt := by decide
    exact ⟨hnow, hsoon _ w _ (by decide : (15 : Int64).toInt < 4294967296)⟩
  · rintro _ _ ⟨⟩
  · rintro _ _ ⟨⟩ w
    have hnow : ((15 : Int64).toInt : ℤ) + (if (1 : ℕ) = 0 then 0 else 20) ≤ (36 : Int64).toInt := by decide
    exact ⟨hnow, hsoon _ w _ (by decide : (36 : Int64).toInt < 4294967296)⟩
  · rintro _ _ ⟨⟩ w
    have hnow : ((36 : Int64).toInt : ℤ) + (if (2 : ℕ) = 0 then 0 else 20) ≤ (71 : Int64).toInt := by decide
    exact ⟨hnow, hsoon _ w _ (by decide : (71 : Int64).toInt < 4294967296)⟩

end Lockstep
end Mecanum.Robot
