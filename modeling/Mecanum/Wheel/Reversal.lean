import Mecanum.Foundations.Trace
import Mecanum.Motor.OutputStage
import Mecanum.Robot.Wheels
import Mecanum.Wheel.Events

/-! # A wheel with a reversed motor

`Pair` runs one wheel twice over the same events, with `reversed` off and on. Everything in the
controller commutes with mirroring the motor. The encoder is the exception: the motor state that a
control step copies into it is already mirrored by the driver, so from the first copy on the reversed
wheel counts its edges the other way round.
-/

namespace Mecanum.Motor
set_option autoImplicit false

/-- The motor wired the other way round, in the mirrored state. -/
def ZephyrMotor.mirror (motor : ZephyrMotor) : ZephyrMotor :=
  { motor with reversed := !motor.reversed, state := -motor.state }

/-- Two readings of the bridge with the same pulse in opposite directions. -/
def Lines.Mirrors (l m : Lines) : Prop :=
  l.drive.isSome ∧ m.drive = l.drive.map fun pulse => -pulse

section Mirror
variable (motor : ZephyrMotor) (d : Int16)

theorem deadTime_mirror (mode : MotorMode) :
    (deadTime motor.mirror mode).1.lastMode = (deadTime motor mode).1.lastMode := by
  unfold deadTime
  show (if motor.deadtimeUs > 0 ∧ mode ≠ motor.lastMode then _ else _ :
    ZephyrMotor × List Output).1.lastMode = _
  split <;> rfl

theorem drive_state_mirror (mode : MotorMode) :
    (drive motor.mirror (actualMode motor.mirror mode) 0).1.state =
      -(drive motor (actualMode motor mode) 0).1.state := by
  unfold ZephyrMotor.mirror
  cases mode <;> cases hr : motor.reversed <;> simp [actualMode, drive, hr]

theorem zephyrMotorRun_mirror (mode : MotorMode) (duty : Int16) :
    (zephyrMotorRun motor.mirror mode duty).1 = (zephyrMotorRun motor mode duty).1.mirror := by
  rw [zephyrMotorRun_fst, zephyrMotorRun_fst, deadTime_mirror, drive_state_mirror]
  rfl

theorem zephyrMotorSetSpeed_mirror :
    (zephyrMotorSetSpeed motor.mirror d).1 = (zephyrMotorSetSpeed motor d).1.mirror := by
  rw [zephyrMotorSetSpeed_eq_run, zephyrMotorSetSpeed_eq_run, zephyrMotorRun_mirror]

theorem pulse_speedLines_mirror (l m : Lines) :
    (speedLines motor.mirror d m).pulse = (speedLines motor d l).pulse := by
  unfold speedLines
  rw [zephyrMotorSetSpeed_eq_run, zephyrMotorSetSpeed_eq_run, applyAll_zephyrMotorRun,
    applyAll_zephyrMotorRun]
  rfl

theorem speedLines_mirrors (l m : Lines) :
    (speedLines motor d l).Mirrors (speedLines motor.mirror d m) := by
  have hstate := state_setSpeed motor d
  have hstate' := state_setSpeed motor.mirror d
  have hneg : (zephyrMotorSetSpeed motor.mirror d).1.state.toInt =
      -(zephyrMotorSetSpeed motor d).1.state.toInt := by
    rw [hstate, hstate']
    unfold ZephyrMotor.mirror
    cases motor.reversed <;> simp
  unfold Lines.Mirrors
  rw [drive_speedLines, drive_speedLines, pulse_speedLines_mirror motor d l m, hneg]
  refine ⟨rfl, ?_⟩
  rw [Option.map_some, Int.neg_mul]

end Mirror
end Mecanum.Motor

namespace Mecanum.Wheel
open Motor FloatArith Trace
set_option autoImplicit false

variable {F : Type} [FloatArith F]

/-- The controller of the reversed wheel; `copied` says whether the encoder direction is mirrored
as well. -/
def ZephyrAccelmotor.mirror (accel : ZephyrAccelmotor F) (copied : Bool) : ZephyrAccelmotor F :=
  { accel with
    motor := accel.motor.mirror
    encoder := { accel.encoder with
      direction := if copied then -accel.encoder.direction else accel.encoder.direction } }

section Controller
variable (accel : ZephyrAccelmotor F) (copied : Bool)

def MirroredCommands (cs ds : List Command) : Prop :=
  cs.map Command.duty = ds.map Command.duty ∧
    ∀ l m : Lines, l.Mirrors m →
      (l.applyAll (cs.flatMap Command.outputs)).Mirrors (m.applyAll (ds.flatMap Command.outputs))

omit [FloatArith F] in
theorem mirroredCommands_nil : MirroredCommands [] [] := ⟨rfl, fun _ _ h => h⟩

omit [FloatArith F] in
theorem mirroredCommands_setSpeed (motor : ZephyrMotor) (duty : Int16) :
    MirroredCommands [⟨duty, (zephyrMotorSetSpeed motor duty).2⟩]
      [⟨duty, (zephyrMotorSetSpeed motor.mirror duty).2⟩] := by
  constructor
  · simp only [List.map_cons, List.map_nil]
  · intro l m _
    simp only [List.flatMap_cons, List.flatMap_nil, List.append_nil]
    exact speedLines_mirrors motor duty l m

theorem commandDuty_mirror :
    (commandDuty (accel.mirror copied)).1 = (commandDuty accel).1.mirror copied ∧
      MirroredCommands (commandDuty accel).2 (commandDuty (accel.mirror copied)).2 := by
  refine ⟨?_, mirroredCommands_setSpeed accel.motor (toInt16 accel.dutyF)⟩
  unfold commandDuty ZephyrAccelmotor.mirror
  simp only [zephyrMotorSetSpeed_mirror]

theorem regulate_mirror :
    (regulate (accel.mirror copied)).1 = (regulate accel).1.mirror copied ∧
      MirroredCommands (regulate accel).2 (regulate (accel.mirror copied)).2 := by
  have hmode : (accel.mirror copied).runMode = accel.runMode := rfl
  unfold regulate
  rw [hmode]
  cases accel.runMode with
  | accelPos => exact commandDuty_mirror (pidUpdate (accelPosUpdate accel) _ _ _) copied
  | pidPos => exact commandDuty_mirror (pidUpdate accel _ _ _) copied
  | accelSpeed => exact commandDuty_mirror (accelSpeedUpdate accel) copied
  | pidSpeed => exact commandDuty_mirror (pidUpdate accel _ _ _) copied
  | idleRun => exact ⟨rfl, mirroredCommands_nil⟩

omit [FloatArith F] in
theorem mirror_state_eq_zero : (accel.mirror copied).motor.state = 0 ↔ accel.motor.state = 0 := by
  show -accel.motor.state = 0 ↔ _
  constructor
  · intro h
    rw [← @Int8.neg_neg accel.motor.state, h]
    rfl
  · intro h
    rw [h]
    rfl

omit [FloatArith F] in
theorem copyDirection_mirror : copyDirection (accel.mirror copied) =
    (copyDirection accel).mirror (copied || decide (accel.motor.state ≠ 0)) := by
  have hzero := mirror_state_eq_zero accel copied
  rw [copyDirection_eq, copyDirection_eq]
  by_cases h : accel.motor.state = 0
  · simp only [h, hzero.mpr h, ne_eq, not_true_eq_false, if_false, decide_false, Bool.or_false]
  · have h' : (accel.mirror copied).motor.state ≠ 0 := fun h' => h (hzero.mp h')
    simp only [h, h', ne_eq, not_false_eq_true, if_true, decide_true, Bool.or_true]
    rfl

theorem sample_mirror : sample (accel.mirror copied) =
    (sample accel).mirror (copied || decide (accel.motor.state ≠ 0)) :=
  copyDirection_mirror (sampleSpeed accel) copied

omit [FloatArith F] in
theorem moving_mirror : moving (accel.mirror copied) = moving accel := by
  unfold moving zephyrMotorGetState
  simp only [ne_eq, mirror_state_eq_zero]
  rfl

end Controller

namespace WheelRun

/-- The event starts a control step that finds the motor driven, and copies its state. -/
def copiesDirection (s : WheelRun F) : WheelEvent → Bool
  | .tickStart uptime =>
      decide (s.phase = .outside ∧ gateOpen s.accel uptime ∧ s.accel.motor.state ≠ 0)
  | _ => false

def mirror (s : WheelRun F) (copied : Bool) (lines : Lines) : WheelRun F :=
  ⟨s.accel.mirror copied, s.count, s.phase, lines⟩

def duties (seen : Seen) : List Int16 := seen.commands.map Command.duty

/-- Every event but an edge commutes with mirroring the wheel. -/
theorem react_mirror (s : WheelRun F) (copied : Bool) (lines : Lines) (e : WheelEvent)
    (he : e ≠ .edge) (hlines : s.lines.Mirrors lines) :
    ∃ lines', (s.mirror copied lines).step e =
        (s.step e).mirror (copied || s.copiesDirection e) lines' ∧
      (s.step e).lines.Mirrors lines' ∧
      duties ((s.mirror copied lines).react e).2 = duties (s.react e).2 ∧
      ((s.mirror copied lines).react e).2.returned = (s.react e).2.returned := by
  obtain ⟨accel, count, phase, l⟩ := s
  cases e with
  | edge => exact absurd rfl he
  | tickStart uptime =>
      cases phase with
      | outside =>
          refine ⟨lines, ?_, hlines, rfl, rfl⟩
          have hgate : gateOpen { accel.mirror copied with currentPos := count } uptime ↔
              gateOpen accel uptime := Iff.rfl
          have hgate' : gateOpen { accel with currentPos := count } uptime ↔
              gateOpen accel uptime := Iff.rfl
          by_cases hopen : gateOpen accel uptime
          · have hsample := sample_mirror { accel with currentPos := count } copied
            simp only [step, react, mirror, startTick, copiesDirection, hgate, hgate', hopen,
              if_true, decide_true, true_and]
            exact congrArg (fun a => WheelRun.mk a count (.inside true) lines) hsample
          · simp only [step, react, mirror, startTick, copiesDirection, hgate, hgate', hopen,
              if_false, decide_false, false_and, and_false, Bool.or_false]
            rfl
      | inside gate => exact ⟨lines, by simp [step, react, mirror, copiesDirection], hlines, rfl, rfl⟩
  | tickFinish =>
      rw [show copiesDirection _ .tickFinish = false from rfl, Bool.or_false]
      cases phase with
      | outside => exact ⟨lines, rfl, hlines, rfl, rfl⟩
      | inside gate =>
          cases gate
          · refine ⟨lines, rfl, hlines, rfl, ?_⟩
            exact congrArg some (moving_mirror accel copied)
          · obtain ⟨haccel, hduties, hmirrors⟩ := regulate_mirror accel copied
            refine ⟨_, ?_, hmirrors l lines hlines, hduties.symm, ?_⟩
            · exact congrArg (fun a => WheelRun.mk a count .outside _) haccel
            · show some (moving (regulate (accel.mirror copied)).1) = _
              rw [haccel, moving_mirror]
              rfl
  | setRunMode mode =>
      rw [show copiesDirection _ (.setRunMode mode) = false from rfl, Bool.or_false]
      cases phase <;> cases mode <;> exact ⟨lines, rfl, hlines, rfl, rfl⟩
  | _ =>
      rw [show copiesDirection _ _ = false from rfl, Bool.or_false]
      cases phase <;> exact ⟨lines, rfl, hlines, rfl, rfl⟩

theorem copiesDirection_of_start (s : WheelRun F) (e : WheelEvent) (hout : s.phase = .outside)
    (hin : (s.step e).phase = .inside true) (hstate : s.accel.motor.state ≠ 0) :
    s.copiesDirection e = true := by
  obtain ⟨accel, count, phase, l⟩ := s
  obtain rfl : phase = .outside := hout
  cases e with
  | tickStart uptime =>
      have hgate : decide (gateOpen { accel with currentPos := count } uptime) = true :=
        Phase.inside.inj hin
      exact decide_eq_true ⟨rfl, of_decide_eq_true hgate, hstate⟩
  | _ => cases hin

def counter (s : WheelRun F) : Int32 := s.accel.encoder.counter

end WheelRun

/-! ## Two runs side by side -/

/-- The same events on a wheel and on the same wheel with `reversed` set. -/
structure Pair (F : Type) where
  plain : WheelRun F
  reversed : WheelRun F
  copied : Bool
  /-- The duty commanded last; `0` while there is none. -/
  duty : Int16

namespace Pair
open WheelRun

def start (accel : ZephyrAccelmotor F) (uptime : Int64) : Pair F :=
  ⟨WheelRun.start accel false uptime, WheelRun.start accel true uptime, false, 0⟩

def step (s : Pair F) (e : WheelEvent) : Pair F where
  plain := s.plain.step e
  reversed := s.reversed.step e
  copied := s.copied || s.plain.copiesDirection e
  duty := (duties (s.plain.react e).2).getLast?.getD s.duty

/-- The caller cannot tell the two wheels apart at this event, the bridges are mirrored after it,
and an edge that follows a positive duty counts up on both. -/
structure Transparent (s : Pair F) (e : WheelEvent) (t : Pair F) : Prop where
  duties : duties (s.plain.react e).2 = duties (s.reversed.react e).2
  returned : (s.plain.react e).2.returned = (s.reversed.react e).2.returned
  counter : t.plain.counter = t.reversed.counter
  mirrored : t.plain.lines.Mirrors t.reversed.lines
  feedback : e = .edge → 0 < s.duty →
    t.plain.counter = s.plain.counter + 1 ∧ t.reversed.counter = s.reversed.counter + 1

/-- No edge arrives once a control step has started with the motor driven. -/
def EdgeBeforeCopy (s : Pair F) (e : WheelEvent) (_ : Pair F) : Prop :=
  e = .edge → s.copied = false

structure Mirrored (s : Pair F) : Prop where
  reversed : s.reversed = s.plain.mirror s.copied s.reversed.lines
  lines : s.plain.lines.Mirrors s.reversed.lines
  direction : s.plain.accel.encoder.direction = 1 ∨ s.plain.accel.encoder.direction = -1
  state : IsMotorState s.plain.accel.motor.state
  uncopied : s.copied = false → s.plain.accel.encoder.direction = 1

omit [FloatArith F] in
theorem start_mirrored (accel : ZephyrAccelmotor F) (uptime : Int64) :
    (start accel uptime).Mirrored where
  reversed := by
    simp [start, WheelRun.start, WheelRun.mirror, ZephyrAccelmotor.mirror, ZephyrMotor.mirror]
  lines := ⟨rfl, rfl⟩
  direction := .inl rfl
  state := .inr (.inr rfl)
  uncopied _ := rfl

section Step
variable {s : Pair F} (e : WheelEvent)

theorem step_direction (h : s.Mirrored) :
    ((s.step e).plain.accel.encoder.direction = 1 ∨
      (s.step e).plain.accel.encoder.direction = -1) ∧
    IsMotorState (s.step e).plain.accel.motor.state ∧
    ((s.step e).copied = false → (s.step e).plain.accel.encoder.direction = 1) := by
  have hplain : (s.step e).plain = s.plain.step e := rfl
  have hcopied : (s.step e).copied = false → s.copied = false ∧ s.plain.copiesDirection e = false :=
    Bool.or_eq_false_iff.mp
  rw [hplain]
  obtain ⟨rfl, hrun⟩ | ⟨-, hout, hin, hmotor, henc⟩ | ⟨-, -, -, hmotor, henc⟩ |
      ⟨-, -, hmotor, henc⟩ := s.plain.step_cases e
  · rw [hrun]
    refine ⟨?_, h.state, fun hc => ?_⟩
    · rw [encoderIsr_direction]
      exact h.direction
    · rw [encoderIsr_direction]
      exact h.uncopied (hcopied hc).1
  · rw [henc, hmotor, copyDirection_eq]
    by_cases hzero : s.plain.accel.motor.state = 0
    · simp only [hzero, ne_eq, not_true_eq_false, if_false]
      exact ⟨h.direction, .inr (.inr rfl), fun hc => h.uncopied (hcopied hc).1⟩
    · simp only [hzero, ne_eq, not_false_eq_true, if_true]
      refine ⟨h.state.of_ne_zero hzero, h.state, fun hc => ?_⟩
      have hcopies := s.plain.copiesDirection_of_start e hout hin hzero
      rw [(hcopied hc).2] at hcopies
      cases hcopies
  · rw [henc, hmotor]
    refine ⟨h.direction, ?_, fun hc => h.uncopied (hcopied hc).1⟩
    obtain ⟨duty, hset, -⟩ | ⟨-, hidle⟩ := regulate_motor s.plain.accel
    · rw [hset]
      exact zephyrMotorSetSpeed_isMotorState _ _
    · rw [hidle]
      exact h.state
  · rw [henc, hmotor]
    exact ⟨h.direction, h.state, fun hc => h.uncopied (hcopied hc).1⟩

theorem step_of_ne_edge (h : s.Mirrored) (he : e ≠ .edge) :
    Transparent s e (s.step e) ∧ (s.step e).Mirrored := by
  obtain ⟨lines', hstep, hlines, hduties, hreturned⟩ :=
    react_mirror s.plain s.copied s.reversed.lines e he h.lines
  rw [← h.reversed] at hstep hduties hreturned
  have hreversed : (s.step e).reversed = (s.step e).plain.mirror (s.step e).copied lines' := hstep
  have hl : (s.step e).reversed.lines = lines' := congrArg WheelRun.lines hreversed
  obtain ⟨hdir, hstate, huncopied⟩ := step_direction e h
  refine ⟨⟨hduties.symm, hreturned.symm, ?_, ?_, fun hedge => absurd hedge he⟩,
    ⟨?_, ?_, hdir, hstate, huncopied⟩⟩
  · rw [hreversed]
    rfl
  · rw [hl]
    exact hlines
  · rw [hl]
    exact hreversed
  · rw [hl]
    exact hlines

theorem counter_edge (r : WheelRun F) : (r.step .edge).counter =
    if r.accel.encoder.direction < 0 then r.counter - 1 else r.counter + 1 :=
  encoderIsr_counter r.accel.encoder

theorem step_edge_of_uncopied (h : s.Mirrored) (hc : s.copied = false) :
    Transparent s .edge (s.step .edge) ∧ (s.step .edge).Mirrored := by
  have hreversed := h.reversed
  have hdir := h.uncopied hc
  rw [hc] at hreversed
  have hdir' : s.reversed.accel.encoder.direction = 1 := by rw [hreversed]; exact hdir
  have hcounter : s.reversed.counter = s.plain.counter := by rw [hreversed]; rfl
  have hplain : (s.step .edge).plain.counter = s.plain.counter + 1 := by
    have hup := counter_edge s.plain
    rw [hdir] at hup
    exact hup
  have hrev : (s.step .edge).reversed.counter = s.reversed.counter + 1 := by
    have hup := counter_edge s.reversed
    rw [hdir'] at hup
    exact hup
  have hcopied : (s.step .edge).copied = false := by
    show (s.copied || false) = false
    rw [hc]
    rfl
  obtain ⟨hdirs, hstate, huncopied⟩ := step_direction .edge h
  refine ⟨⟨rfl, rfl, ?_, h.lines, fun _ _ => ⟨hplain, hrev⟩⟩, ⟨?_, h.lines, hdirs, hstate, huncopied⟩⟩
  · rw [hplain, hrev, hcounter]
  · rw [hcopied]
    show s.reversed.step .edge = (s.plain.step .edge).mirror false s.reversed.lines
    rw [hreversed]
    rfl

theorem step_edge_of_copied (h : s.Mirrored) (hc : s.copied = true) :
    (s.step .edge).plain.counter ≠ (s.step .edge).reversed.counter := by
  have hreversed := h.reversed
  rw [hc] at hreversed
  have hcounter : s.reversed.counter = s.plain.counter := by rw [hreversed]; rfl
  have hdir' : s.reversed.accel.encoder.direction = -s.plain.accel.encoder.direction := by
    rw [hreversed]; rfl
  show (s.plain.step .edge).counter ≠ (s.reversed.step .edge).counter
  rw [counter_edge, counter_edge, hdir', hcounter]
  have hapart : s.plain.counter + 1 ≠ s.plain.counter - 1 := by
    rw [Int32.sub_eq_add_neg]
    intro heq
    exact absurd ((Int32.add_right_inj _).mp heq) (by decide)
  rcases h.direction with hd | hd <;> rw [hd]
  · exact hapart
  · exact hapart.symm

theorem transparent_iff (h : s.Mirrored) :
    Transparent s e (s.step e) ↔ EdgeBeforeCopy s e (s.step e) := by
  by_cases he : e = .edge
  · subst he
    constructor
    · intro htrans _
      by_contra hc
      exact step_edge_of_copied h (by simpa using hc) htrans.counter
    · intro hbefore
      exact (step_edge_of_uncopied h (hbefore rfl)).1
  · exact ⟨fun _ hedge => absurd hedge he, fun _ => (step_of_ne_edge e h he).1⟩

theorem step_mirrored (h : s.Mirrored) (hbefore : EdgeBeforeCopy s e (s.step e)) :
    (s.step e).Mirrored := by
  by_cases he : e = .edge
  · subst he
    exact (step_edge_of_uncopied h (hbefore rfl)).2
  · exact (step_of_ne_edge e h he).2

end Step

/-- A run is the same on the reversed wheel, with the bridge mirrored, exactly when all its edges
arrive before the first control step that finds the motor driven. -/
theorem reversal_transparent_iff (accel : ZephyrAccelmotor F) (uptime : Int64)
    (events : List WheelEvent) :
    Always step Transparent (start accel uptime) events ↔
      Always step EdgeBeforeCopy (start accel uptime) events :=
  Always.iff_of_invariant (fun _ e h => transparent_iff e h) (fun _ e h hC => step_mirrored e h hC)
    events (start_mirrored accel uptime)

/-- A positive target, a second tick to copy the direction, and one edge. -/
theorem reversed_edge_counts_down :
    ¬ Always step Transparent
      (start (Robot.wheelAccelmotor .fl (zephyrEncoderInit true 0).1 0 : ZephyrAccelmotor ℚ) 0)
      [.setTargetSpeed 70, .getCount, .tickStart 20, .tickFinish, .getCount, .tickStart 40,
        .tickFinish, .edge] := by
  intro h
  exact absurd h.2.2.2.2.2.2.2.1.counter (by decide +kernel)

end Pair
end Mecanum.Wheel
