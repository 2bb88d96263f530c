import Mecanum.Foundations.Trace
import Mecanum.Robot.Wheels
import Mecanum.Wheel.Events

/-! # The edge count against the drive direction in force

A control step copies the motor state into the encoder before it commands the motor, so between a
command that reverses the drive and the next control step the encoder still counts in the old
direction. `Ledger` adds to a wheel's run the two numbers of edges the law speaks of, and whether
such a command is still pending.
-/

namespace Mecanum.Wheel
open Motor FloatArith Trace
set_option autoImplicit false

/-- A wheel's run with the edges that arrived so far, by the drive direction then in force. -/
structure Ledger (F : Type) where
  run : WheelRun F
  /-- The last non-zero motor state; `1` while there is none. -/
  force : Int8
  up : ℕ
  down : ℕ
  /-- A command reversed `force` and no control step has started since. -/
  pending : Bool

namespace Ledger
variable {F : Type} [FloatArith F]

def start (accel : ZephyrAccelmotor F) (reverse : Bool) (uptime : Int64) : Ledger F :=
  ⟨WheelRun.start accel reverse uptime, 1, 0, 0, false⟩

def forceAfter (force state : Int8) : Int8 := if state ≠ 0 then state else force

def step (s : Ledger F) (e : WheelEvent) : Ledger F where
  run := s.run.step e
  force := forceAfter s.force (s.run.step e).accel.motor.state
  up := if e = .edge ∧ s.force > 0 then s.up + 1 else s.up
  down := if e = .edge ∧ s.force < 0 then s.down + 1 else s.down
  pending := decide ((s.run.step e).phase ≠ .inside true) &&
    (decide (forceAfter s.force (s.run.step e).accel.motor.state ≠ s.force) || s.pending)

def counter (s : Ledger F) : ℤ := s.run.accel.encoder.counter.toInt

def Balanced (s : Ledger F) : Prop := s.counter = s.up - s.down

instance (s : Ledger F) : Decidable s.Balanced := inferInstanceAs (Decidable (_ = _))

/-- No edge arrives while a reversed command waits for the next control step. -/
def EdgeNotPending (s : Ledger F) (e : WheelEvent) (_ : Ledger F) : Prop :=
  e = .edge → s.pending = false

def WithinLimits (s : Ledger F) (e : WheelEvent) (_ : Ledger F) : Prop :=
  e = .edge → -2147483648 < s.counter ∧ s.counter < 2147483647

instance (s : Ledger F) (e : WheelEvent) (t : Ledger F) : Decidable (WithinLimits s e t) :=
  inferInstanceAs (Decidable (_ → _))

/-- What every event preserves, whatever the counter does. -/
structure Consistent (s : Ledger F) : Prop where
  force : s.force = 1 ∨ s.force = -1
  direction : s.run.accel.encoder.direction = 1 ∨ s.run.accel.encoder.direction = -1
  state : IsMotorState s.run.accel.motor.state
  force_of_state : s.run.accel.motor.state ≠ 0 → s.force = s.run.accel.motor.state
  pending_iff : s.pending = true ↔ s.run.accel.encoder.direction ≠ s.force
  driven_of_pending : s.pending = true → s.run.accel.motor.state ≠ 0
  settled_inside : s.run.phase = .inside true → s.pending = false

omit [FloatArith F] in
theorem start_consistent (accel : ZephyrAccelmotor F) (reverse : Bool) (uptime : Int64) :
    (start accel reverse uptime).Consistent where
  force := .inl rfl
  direction := .inl rfl
  state := .inr (.inr rfl)
  force_of_state h := absurd rfl h
  pending_iff := ⟨fun h => (Bool.false_ne_true h).elim, fun h => absurd rfl h⟩
  driven_of_pending h := by cases h
  settled_inside h := by cases h

omit [FloatArith F] in
theorem copyDirection_direction (accel : ZephyrAccelmotor F) :
    (copyDirection accel).encoder.direction =
      forceAfter accel.encoder.direction accel.motor.state := by
  rw [copyDirection_eq]
  unfold forceAfter
  split <;> rfl

omit [FloatArith F] in
theorem copyDirection_counter (accel : ZephyrAccelmotor F) :
    (copyDirection accel).encoder.counter = accel.encoder.counter := by
  rw [copyDirection_eq]
  split <;> rfl

/-! ## One event -/

section Step
variable {s : Ledger F} (e : WheelEvent)

omit [FloatArith F] in
theorem forceAfter_state (h : s.Consistent) :
    forceAfter s.force s.run.accel.motor.state = s.force := by
  unfold forceAfter
  split
  case isTrue hne => exact (h.force_of_state hne).symm
  case isFalse => rfl

theorem step_consistent_of_quiet (h : s.Consistent)
    (hphase : (s.run.step e).phase = .inside true → s.run.phase = .inside true)
    (hmotor : (s.run.step e).accel.motor = s.run.accel.motor)
    (hdir : (s.run.step e).accel.encoder.direction = s.run.accel.encoder.direction) :
    (s.step e).Consistent := by
  have hforce : (s.step e).force = s.force := by
    show forceAfter s.force (s.run.step e).accel.motor.state = s.force
    rw [hmotor, forceAfter_state h]
  have hpending : (s.step e).pending = s.pending := by
    show (decide ((s.run.step e).phase ≠ .inside true) &&
      (decide (forceAfter s.force (s.run.step e).accel.motor.state ≠ s.force) || s.pending)) = _
    rw [hmotor, forceAfter_state h]
    by_cases hin : (s.run.step e).phase = .inside true
    · simp [hin, h.settled_inside (hphase hin)]
    · simp [hin]
  have hstate : (s.step e).run.accel.motor.state = s.run.accel.motor.state :=
    congrArg ZephyrMotor.state hmotor
  refine ⟨?_, ?_, ?_, ?_, ?_, ?_, ?_⟩
  · rw [hforce]; exact h.force
  · exact hdir ▸ h.direction
  · rw [hstate]; exact h.state
  · rw [hstate, hforce]; exact h.force_of_state
  · rw [hpending, hforce]
    show _ ↔ (s.run.step e).accel.encoder.direction ≠ _
    rw [hdir]; exact h.pending_iff
  · rw [hpending, hstate]; exact h.driven_of_pending
  · rw [hpending]; exact fun hin => h.settled_inside (hphase hin)

/-- The start of a control step settles the direction. -/
theorem step_consistent_of_start (h : s.Consistent)
    (hphase : (s.run.step e).phase = .inside true)
    (hmotor : (s.run.step e).accel.motor = s.run.accel.motor)
    (henc : (s.run.step e).accel.encoder = (copyDirection s.run.accel).encoder) :
    (s.step e).Consistent := by
  have hforce : (s.step e).force = s.force := by
    show forceAfter s.force (s.run.step e).accel.motor.state = s.force
    rw [hmotor, forceAfter_state h]
  have hpending : (s.step e).pending = false := by
    show (decide ((s.run.step e).phase ≠ .inside true) && _) = false
    simp [hphase]
  have hstate : (s.step e).run.accel.motor.state = s.run.accel.motor.state :=
    congrArg ZephyrMotor.state hmotor
  have hdir : (s.step e).run.accel.encoder.direction = s.force := by
    show (s.run.step e).accel.encoder.direction = s.force
    rw [henc, copyDirection_direction]
    unfold forceAfter
    split
    case isTrue hne => exact (h.force_of_state hne).symm
    case isFalse hzero =>
      by_contra hne
      exact hzero (h.driven_of_pending (h.pending_iff.mpr hne))
  refine ⟨?_, ?_, ?_, ?_, ?_, ?_, ?_⟩
  · rw [hforce]; exact h.force
  · rw [hdir]; exact h.force
  · rw [hstate]; exact h.state
  · rw [hstate, hforce]; exact h.force_of_state
  · simp [hpending, hdir, hforce]
  · simp [hpending]
  · exact fun _ => hpending

/-- The end of a control step may reverse the drive; the encoder keeps the old direction. -/
theorem step_consistent_of_finish (h : s.Consistent) (hin : s.run.phase = .inside true)
    (hphase : (s.run.step e).phase = .outside)
    (hstate : IsMotorState (s.run.step e).accel.motor.state)
    (henc : (s.run.step e).accel.encoder = s.run.accel.encoder) : (s.step e).Consistent := by
  have hsettled := h.settled_inside hin
  have hdir : (s.step e).run.accel.encoder.direction = s.force := by
    show (s.run.step e).accel.encoder.direction = s.force
    rw [henc]
    by_contra hne
    exact absurd (h.pending_iff.mpr hne) (by simp [hsettled])
  have hforce : (s.step e).force = forceAfter s.force (s.step e).run.accel.motor.state := rfl
  have hpending : (s.step e).pending = decide ((s.step e).force ≠ s.force) := by
    show (decide ((s.run.step e).phase ≠ .inside true) && (_ || s.pending)) = _
    rw [hphase, hsettled]
    simp only [ne_eq, reduceCtorEq, not_false_eq_true, decide_true, Bool.or_false, Bool.true_and]
    rfl
  refine ⟨?_, ?_, hstate, ?_, ?_, ?_, ?_⟩
  · rw [hforce]
    unfold forceAfter
    split
    case isTrue hne => exact hstate.of_ne_zero hne
    case isFalse => exact h.force
  · rw [hdir]; exact h.force
  · intro hne
    rw [hforce]
    exact if_pos hne
  · rw [hpending, hdir, decide_eq_true_eq]
    exact ne_comm
  · rw [hpending, decide_eq_true_eq, hforce]
    intro hne hzero
    exact hne (by simp [forceAfter, hzero])
  · intro hin'
    change (s.run.step e).phase = .inside true at hin'
    rw [hphase] at hin'
    cases hin'

theorem step_consistent (h : s.Consistent) : (s.step e).Consistent := by
  obtain ⟨rfl, hrun⟩ | ⟨-, -, hphase, hmotor, henc⟩ | ⟨-, hin, hphase, hmotor, henc⟩ |
      ⟨-, hphase, hmotor, henc⟩ := s.run.step_cases e
  · refine step_consistent_of_quiet .edge h ?_ ?_ ?_ <;> rw [hrun]
    · exact id
    · exact encoderIsr_direction _
  · exact step_consistent_of_start e h hphase hmotor henc
  · refine step_consistent_of_finish e h hin hphase ?_ henc
    rw [hmotor]
    obtain ⟨duty, hset, -⟩ | ⟨-, hidle⟩ := regulate_motor s.run.accel
    · rw [hset]
      exact zephyrMotorSetSpeed_isMotorState _ _
    · rw [hidle]
      exact h.state
  · exact step_consistent_of_quiet e h hphase hmotor (by rw [henc])

theorem step_counter_of_ne (he : e ≠ .edge) : (s.step e).counter = s.counter := by
  unfold counter
  show (s.run.step e).accel.encoder.counter.toInt = _
  obtain ⟨rfl, -⟩ | ⟨-, -, -, -, henc⟩ | ⟨-, -, -, -, henc⟩ | ⟨-, -, -, henc⟩ := s.run.step_cases e
  · exact absurd rfl he
  · rw [henc, copyDirection_counter]
  all_goals rw [henc]

theorem step_counter_edge (hlimits : -2147483648 < s.counter ∧ s.counter < 2147483647) :
    (s.step .edge).counter =
      if s.run.accel.encoder.direction < 0 then s.counter - 1 else s.counter + 1 := by
  unfold counter at hlimits ⊢
  show (encoderIsr s.run.accel.encoder).counter.toInt = _
  rw [encoderIsr_counter]
  split
  · rw [Int32.toInt_sub]
    exact Int.bmod_eq_of_le (by simp; omega) (by simp; omega)
  · rw [Int32.toInt_add]
    exact Int.bmod_eq_of_le (by simp; omega) (by simp; omega)

theorem step_balanced_iff (h : s.Consistent ∧ s.Balanced) (hlimits : WithinLimits s e (s.step e)) :
    (s.step e).Balanced ↔ EdgeNotPending s e (s.step e) := by
  obtain ⟨h, hbal⟩ := h
  unfold Balanced at hbal ⊢
  unfold EdgeNotPending
  by_cases he : e = .edge
  · subst he
    have hiff := h.pending_iff
    have hup : (s.step .edge).up = if s.force > 0 then s.up + 1 else s.up := by simp [step]
    have hdown : (s.step .edge).down = if s.force < 0 then s.down + 1 else s.down := by simp [step]
    rw [step_counter_edge (hlimits rfl), hbal, hup, hdown]
    rcases h.direction with hd | hd <;> rcases h.force with hf | hf <;>
      simp [hd, hf] at hiff ⊢ <;> simp [hiff] <;> omega
  · rw [step_counter_of_ne e he, hbal]
    simp [step, he]

end Step

/-! ## Whole runs -/

/-- Along a run that keeps the counter within its limits, the counter equals the edges under forward
drive minus those under backward drive after every event exactly when no edge arrives between a
command that reverses the drive and the next control step. -/
theorem edges_counted_in_force_iff (accel : ZephyrAccelmotor F) (reverse : Bool) (uptime : Int64)
    (events : List WheelEvent)
    (hlimits : Always step WithinLimits (start accel reverse uptime) events) :
    Always step (fun _ _ t => t.Balanced) (start accel reverse uptime) events ↔
      Always step EdgeNotPending (start accel reverse uptime) events := by
  refine Always.iff_of_invariant_of_always (I := fun s => s.Consistent ∧ s.Balanced)
    (fun s e h hQ => step_balanced_iff e h hQ) ?_ events ⟨start_consistent accel reverse uptime, rfl⟩
    hlimits
  intro s e h hQ hC
  exact ⟨step_consistent e h.1, (step_balanced_iff e h hQ).mpr hC⟩

def shipped : Ledger ℚ :=
  start (Robot.wheelAccelmotor .fl (zephyrEncoderInit true 0).1 0) false 0

theorem edges_counted_in_force_shipped :
    Always step (fun _ _ t => t.Balanced) shipped
        [.edge, .setTargetSpeed 70, .getCount, .tickStart 20, .tickFinish, .edge] ↔
      Always step EdgeNotPending shipped
        [.edge, .setTargetSpeed 70, .getCount, .tickStart 20, .tickFinish, .edge] :=
  edges_counted_in_force_iff _ _ _ _ (by decide +kernel)

/-- Forward drive, then a tick that commands backward drive, then one edge: it counts up. -/
theorem edge_counted_against_force :
    ¬ Always step (fun _ _ t => t.Balanced) shipped
      [.setTargetSpeed 70, .getCount, .tickStart 20, .tickFinish, .edge,
        .setTargetSpeed (-70), .getCount, .tickStart 40, .tickFinish, .edge] := by
  decide +kernel

end Ledger
end Mecanum.Wheel
