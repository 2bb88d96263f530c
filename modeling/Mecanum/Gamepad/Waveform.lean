import Mecanum.Gamepad.Recording

/-! # The reader's side of the bus protocol

`Wave` follows the three output lines and how long they have been at rest, counting only the
reader's own waits. `Legal` is what a controller relies on: frames of whole bytes, a clock of at
most 100 kHz that runs only inside a frame, a command line that moves only while the clock is high
and has settled, samples taken in the low half of the clock, a pause before every byte, and no
sleep inside a frame.
-/

namespace Mecanum.Gamepad
open Trace
set_option autoImplicit false

/-- The levels of the lines, the µs since `CLK` and `ATT` changed, and the falling edges of `CLK` since
`ATT` changed. -/
structure Wave where
  clk : Bool
  cmd : Bool
  att : Bool
  clkFor : ℕ
  attFor : ℕ
  bits : ℕ

namespace Wave

def elapse (s : Wave) (us : ℕ) : Wave := { s with clkFor := s.clkFor + us, attFor := s.attFor + us }

def step (s : Wave) : BusAction → Wave
  | .set .clk level =>
      if level = s.clk then s
      else { s with clk := level, clkFor := 0, bits := if level then s.bits else s.bits + 1 }
  | .set .cmd level => { s with cmd := level }
  | .set .att level =>
      if level = s.att then s else { s with att := level, attFor := 0, bits := 0 }
  | .sample => s
  | .wait us => s.elapse us
  | .sleep ms => s.elapse (1000 * ms)

def Legal (s : Wave) (action : BusAction) (_ : Wave) : Prop :=
  match action with
  | .set .clk level => level ≠ s.clk → s.att = false ∧ 5 ≤ s.clkFor ∧
      (level = false → 18 ≤ s.attFor ∧ (s.bits % 8 = 0 → 18 ≤ s.clkFor))
  | .set .cmd level => level ≠ s.cmd → s.clk = true ∧ 5 ≤ s.clkFor
  | .set .att level => level ≠ s.att → s.clk = true ∧ s.cmd = true ∧
      (level = true → 18 ≤ s.clkFor ∧ s.bits % 8 = 0)
  | .sample => s.att = false ∧ s.clk = false ∧ 5 ≤ s.clkFor
  | .wait _ => True
  | .sleep _ => s.att = true

/-- Between two frames. -/
structure Idle (s : Wave) : Prop where
  clk : s.clk = true
  cmd : s.cmd = true
  att : s.att = true

/-- Inside a frame, before bit `k` of a byte. -/
structure BeforeBit (k : ℕ) (s : Wave) : Prop where
  clk : s.clk = true
  att : s.att = false
  attFor : 18 ≤ s.attFor
  clkFor : 5 ≤ s.clkFor
  pause : k = 0 → 18 ≤ s.clkFor
  bits : s.bits % 8 = k % 8

/-- Inside a frame, before a byte or at the end. -/
structure BeforeByte (s : Wave) : Prop extends BeforeBit 0 s where
  cmd : s.cmd = true

theorem bitActions_phase (data : UInt8) {k : ℕ} (hk : k < 8) :
    Phase step Legal (BeforeBit k) (bitActions data k) (BeforeBit (k + 1)) := by
  rintro ⟨clk, cmd, att, clkFor, attFor, bits⟩ ⟨rfl, rfl, hatt, hclk, hpause, hbits⟩
  dsimp only at hatt hclk hpause hbits
  constructor
  · simp [bitActions, Always, step, Legal, elapse]
    omega
  · constructor <;> simp [bitActions, run, step, elapse] <;> omega

theorem byteActions_phase (data : UInt8) :
    Phase step Legal BeforeByte (byteActions data) BeforeByte := by
  have hbits : Phase step Legal (BeforeBit 0) ((List.range 8).flatMap (bitActions data))
      (BeforeBit 8) := Phase.flatMap_range fun k hk => bitActions_phase data hk
  have hend : Phase step Legal (BeforeBit 8) [.set .cmd true, .wait 18] BeforeByte := by
    rintro ⟨clk, cmd, att, clkFor, attFor, bits⟩ ⟨rfl, rfl, hatt, hclk, -, hbits⟩
    dsimp only at hatt hclk hbits
    refine ⟨?_, ⟨rfl, rfl, ?_, ?_, ?_, hbits⟩, rfl⟩
    · simp [Always, Legal]
      omega
    all_goals simp [run, step, elapse]
  exact fun s h => (hbits.append hend) s h.toBeforeBit

theorem frame_phase (bytes : List UInt8) :
    Phase step Legal Idle (Segment.frame bytes).actions Idle := by
  have hfall : Phase step Legal Idle [.set .att false, .wait 18] BeforeByte := by
    rintro ⟨clk, cmd, att, clkFor, attFor, bits⟩ ⟨rfl, rfl, rfl⟩
    refine ⟨?_, ⟨rfl, rfl, ?_, ?_, ?_, rfl⟩, rfl⟩
    · simp [Always, Legal]
    all_goals simp [run, step, elapse]
  have hrise : Phase step Legal BeforeByte [.set .att true] Idle := by
    rintro ⟨clk, cmd, att, clkFor, attFor, bits⟩ ⟨⟨rfl, rfl, -, -, hpause, hbits⟩, rfl⟩
    refine ⟨?_, rfl, rfl, rfl⟩
    simpa [Always, step, Legal] using ⟨hpause rfl, hbits⟩
  exact (hfall.append (Phase.flatMap fun byte _ => byteActions_phase byte)).append hrise

/-- Every segment starts and ends between two frames. -/
theorem segment_phase (segment : Segment) : Phase step Legal Idle segment.actions Idle := by
  cases segment with
  | frame bytes => exact frame_phase bytes
  | high =>
      rintro ⟨clk, cmd, att, clkFor, attFor, bits⟩ ⟨rfl, rfl, rfl⟩
      exact ⟨by simp [Segment.actions, Always, step, Legal], rfl, rfl, rfl⟩
  | pause us =>
      rintro s ⟨hclk, hcmd, hatt⟩
      exact ⟨⟨trivial, trivial⟩, hclk, hcmd, hatt⟩
  | sleep ms =>
      rintro s ⟨hclk, hcmd, hatt⟩
      exact ⟨⟨hatt, trivial⟩, hclk, hcmd, hatt⟩

/-- Whatever the levels before. -/
theorem powerUp_idle (start : Wave) : Idle (run step start powerUp) := by
  obtain ⟨clk, cmd, att, clkFor, attFor, bits⟩ := start
  cases clk <;> cases att <;> exact ⟨rfl, rfl, rfl⟩

end Wave

/-- From `ps2_init` on, over any sequence of calls and whatever the controller and the clock show,
everything the reader does on the wires keeps to the protocol, once the lines have been set high. -/
theorem wires_keep_protocol {W : Type} (bus : Bus W) (hready : bus.ready = true)
    (data : Vector UInt8 21) (pressures rumble : Bool) (calls : List LinkCall) (w : W)
    (start : Wave) :
    let recorded := linkSession (recording bus) data pressures rumble calls (w, [])
    (recorded.1, recorded.2.1) = linkSession bus data pressures rumble calls w ∧
      ∃ later, recorded.2.2 = powerUp ++ later ∧
        Always Wave.step Wave.Legal (run Wave.step start powerUp) later := by
  obtain ⟨segments, hrecorded⟩ := linkSession_recording bus hready data pressures rumble calls w
  have hphase : Phase Wave.step Wave.Legal Wave.Idle (actionsOf segments) Wave.Idle :=
    Phase.flatMap fun segment _ => Wave.segment_phase segment
  intro recorded
  have hlogged : recorded = logged powerUp segments
      (linkSession bus data pressures rumble calls w) := hrecorded
  rw [hlogged]
  exact ⟨rfl, actionsOf segments, rfl, (hphase _ (Wave.powerUp_idle start)).1⟩

/-- A pad at rest, configured and then read twice. -/
theorem wires_keep_protocol_replay :
    ∃ later, (linkSession (recording replay) zeroed false false
        [.read false 0, .reconfig, .read true 0x80] ((restFrame 0xFF, 0), [])).2.2 =
          powerUp ++ later ∧
      Always Wave.step Wave.Legal (run Wave.step ⟨false, false, false, 0, 0, 0⟩ powerUp) later :=
  (wires_keep_protocol replay rfl zeroed false false _ (restFrame 0xFF, 0) _).2

end Mecanum.Gamepad
