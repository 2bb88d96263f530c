import Mathlib.Algebra.BigOperators.Group.List.Basic
import Mecanum.Gamepad.ConfigMode

/-! # What the reader does on its bus

`recording bus` is `bus` with a log of everything the reader does on it but read the clock. The log
of every function is a list of segments: whole frames, and what happens between them. Logging
changes nothing else.
-/

namespace Mecanum.Gamepad
open Trace
set_option autoImplicit false

inductive BusAction
  | set (pin : Pin) (level : Bool)
  | sample
  | wait (us : ℕ)
  | sleep (ms : ℕ)
  deriving DecidableEq

section Recording
variable {W : Type} (bus : Bus W)

def recording : Bus (W × List BusAction) where
  ready := bus.ready
  pinSet pin level s := (bus.pinSet pin level s.1, s.2 ++ [.set pin level])
  datChk s := ((bus.datChk s.1).1, (bus.datChk s.1).2, s.2 ++ [.sample])
  busyWait us s := (bus.busyWait us s.1, s.2 ++ [.wait us.toNat])
  sleep ms s := (bus.sleep ms s.1, s.2 ++ [.sleep ms.toNat])
  uptime s := ((bus.uptime s.1).1, (bus.uptime s.1).2, s.2)

variable (w : W) (log : List BusAction)

@[simp] theorem recording_pinSet (pin : Pin) (level : Bool) :
    (recording bus).pinSet pin level (w, log) = (bus.pinSet pin level w, log ++ [.set pin level]) :=
  rfl

@[simp] theorem recording_datChk :
    (recording bus).datChk (w, log) = ((bus.datChk w).1, (bus.datChk w).2, log ++ [.sample]) := rfl

@[simp] theorem recording_busyWait (us : UInt32) :
    (recording bus).busyWait us (w, log) = (bus.busyWait us w, log ++ [.wait us.toNat]) := rfl

@[simp] theorem recording_sleep (ms : UInt64) :
    (recording bus).sleep ms (w, log) = (bus.sleep ms w, log ++ [.sleep ms.toNat]) := rfl

@[simp] theorem recording_uptime :
    (recording bus).uptime (w, log) = ((bus.uptime w).1, (bus.uptime w).2, log) := rfl

end Recording

/-! ## Segments -/

/-- Bit `i` of a byte, as the loop of `gamepad_shiftinout` puts it on the wires. -/
def bitActions (data : UInt8) (i : ℕ) : List BusAction :=
  [.set .cmd (data.toNat.testBit i), .set .clk false, .wait 5, .sample, .set .clk true, .wait 5]

def byteActions (data : UInt8) : List BusAction :=
  (List.range 8).flatMap (bitActions data) ++ [.set .cmd true, .wait 18]

/-- A frame from the fall of `ATT` to its rise, `CMD` and `CLK` set high, a wait between two frames,
or a sleep. -/
inductive Segment
  | frame (bytes : List UInt8)
  | high
  | pause (us : ℕ)
  | sleep (ms : ℕ)

def Segment.actions : Segment → List BusAction
  | .frame bytes => [.set .att false, .wait 18] ++ bytes.flatMap byteActions ++ [.set .att true]
  | .high => [.set .cmd true, .set .clk true]
  | .pause us => [.wait us]
  | .sleep ms => [.sleep ms]

def actionsOf (segments : List Segment) : List BusAction := segments.flatMap Segment.actions

theorem actionsOf_append (segments more : List Segment) :
    actionsOf (segments ++ more) = actionsOf segments ++ actionsOf more := List.flatMap_append

/-- The end of a recorded call: that of the plain call, with its segments on the log. -/
def logged {α W : Type} (log : List BusAction) (segments : List Segment) (r : α × W) :
    α × W × List BusAction :=
  (r.1, r.2, log ++ actionsOf segments)

def stringSegments (readDelay : UInt8) (string : List UInt8) : List Segment :=
  [.frame string, .sleep readDelay.toNat]

/-- The strings of `ps2_reconfig`. -/
def reconfigStrings (ps2 : Ps2) : List (List UInt8) :=
  [enterConfig] ++ Device.configFrames ps2.enRumble ps2.enPressures ++ [exitConfig]

def reconfigSegments (ps2 : Ps2) : List Segment :=
  (reconfigStrings ps2).flatMap (stringSegments ps2.readDelay)

section Segments
variable {W : Type} (bus : Bus W)

/-- One attempt of a read, which goes on for twelve bytes if the second one of the answer is `79`. -/
def transactionSegments (dword : List UInt8) (data : Vector UInt8 21) (w : W) : List Segment :=
  let w := bus.pinSet .att false (bus.pinSet .clk true (bus.pinSet .cmd true w))
  let first := shiftAll bus dword (bus.busyWait ctrlByteDelay w)
  let more := if modeByte (storeAt data 0 first.1) = 0x79 then List.replicate 12 0 else []
  [.high, .frame (dword ++ more)]

def attemptsSegments (ps2 : Ps2) (dword : List UInt8) : ℕ → Vector UInt8 21 → W → List Segment
  | 0, _, _ => []
  | retries + 1, data, w =>
      let got := transaction bus dword data w
      let attempt := transactionSegments bus dword data w
      if frameOk got.1 then attempt
      else
        let w := bus.sleep ps2.readDelay.toUInt64 (ps2Reconfig bus ps2 got.2)
        attempt ++ reconfigSegments ps2 ++ [.sleep ps2.readDelay.toNat] ++
          attemptsSegments ps2 dword retries got.1 w

def settleSegments (ps2 : Ps2) (w : W) : List Segment :=
  let elapsed := (bus.uptime w).1 - ps2.lastRead
  (if elapsed > 1500 then reconfigSegments ps2 else []) ++
    if elapsed < ps2.readDelay.toUInt64 then
      [.sleep (ps2.readDelay.toUInt64 - elapsed).toNat]
    else []

def readSegments (ps2 : Ps2) (motor1 : Bool) (motor2 : UInt8) (w : W) : List Segment :=
  settleSegments bus ps2 w ++
    attemptsSegments bus ps2 (readCommand motor1 motor2) 5 ps2.data (settle bus ps2 w)

/-- A pass of the configuration loop up to its read. -/
def roundSegments (pressures rumble : Bool) (readDelay : UInt8) : List Segment :=
  stringSegments readDelay enterConfig ++ [.pause 18, .high, .frame typeRead] ++
    (Device.configFrames rumble pressures ++ [exitConfig]).flatMap (stringSegments readDelay)

end Segments

/-! ## Frames -/

section Frames
variable {W : Type} (bus : Bus W)

@[simp] theorem toNat_ctrlClkDelay : ctrlClkDelay.toNat = 5 := rfl

@[simp] theorem toNat_ctrlByteDelay : ctrlByteDelay.toNat = 18 := rfl

theorem shiftBit_recording (data ret : UInt8) (w : W) (log : List BusAction) (i : ℕ) :
    shiftBit (recording bus) data (ret, w, log) i =
      ((shiftBit bus data (ret, w) i).1, (shiftBit bus data (ret, w) i).2, log ++ bitActions data i) := by
  simp [shiftBit, bitActions]

theorem shiftBits_recording (data ret : UInt8) (w : W) (log : List BusAction) (n : ℕ) :
    (List.range n).foldl (shiftBit (recording bus) data) (ret, w, log) =
      (((List.range n).foldl (shiftBit bus data) (ret, w)).1,
        ((List.range n).foldl (shiftBit bus data) (ret, w)).2,
        log ++ (List.range n).flatMap (bitActions data)) := by
  induction n with
  | zero => simp
  | succ n ih =>
      rw [List.range_succ, List.foldl_append, List.foldl_append, ih, List.flatMap_append]
      simp [shiftBit_recording]

theorem gamepadShiftinout_recording (data : UInt8) (w : W) (log : List BusAction) :
    gamepadShiftinout (recording bus) data (w, log) =
      ((gamepadShiftinout bus data w).1, (gamepadShiftinout bus data w).2, log ++ byteActions data) := by
  simp [gamepadShiftinout, shiftBits_recording, byteActions]

theorem shiftAll_recording (bytes : List UInt8) (w : W) (log : List BusAction) :
    shiftAll (recording bus) bytes (w, log) =
      ((shiftAll bus bytes w).1, (shiftAll bus bytes w).2, log ++ bytes.flatMap byteActions) := by
  induction bytes generalizing w log with
  | nil => simp [shiftAll]
  | cons byte bytes ih => simp [shiftAll, gamepadShiftinout_recording, ih]

theorem sendCommandString_recording (readDelay : UInt8) (string : List UInt8) (w : W)
    (log : List BusAction) :
    sendCommandString (recording bus) readDelay string (w, log) =
      (sendCommandString bus readDelay string w, log ++ actionsOf (stringSegments readDelay string)) := by
  simp [sendCommandString, shiftAll_recording, actionsOf, stringSegments, Segment.actions]

theorem sendStrings_recording (readDelay : UInt8) (strings : List (List UInt8)) (w : W)
    (log : List BusAction) :
    strings.foldl (fun w string => sendCommandString (recording bus) readDelay string w) (w, log) =
      (strings.foldl (fun w string => sendCommandString bus readDelay string w) w,
        log ++ actionsOf (strings.flatMap (stringSegments readDelay))) := by
  induction strings generalizing w log with
  | nil => simp [actionsOf]
  | cons string strings ih =>
      rw [List.foldl_cons, sendCommandString_recording, ih, List.flatMap_cons, actionsOf_append,
        List.append_assoc]
      rfl

theorem ps2Reconfig_eq_foldl {V : Type} (bus : Bus V) (ps2 : Ps2) (v : V) :
    ps2Reconfig bus ps2 v =
      (reconfigStrings ps2).foldl (fun v string => sendCommandString bus ps2.readDelay string v) v := by
  unfold ps2Reconfig reconfigStrings Device.configFrames
  cases ps2.enRumble <;> cases ps2.enPressures <;> rfl

theorem ps2Reconfig_recording (ps2 : Ps2) (w : W) (log : List BusAction) :
    ps2Reconfig (recording bus) ps2 (w, log) =
      (ps2Reconfig bus ps2 w, log ++ actionsOf (reconfigSegments ps2)) := by
  rw [ps2Reconfig_eq_foldl, sendStrings_recording, ← ps2Reconfig_eq_foldl]
  rfl

end Frames

/-! ## Reads -/

section Reads
variable {W : Type} (bus : Bus W)

theorem transaction_recording (dword : List UInt8) (data : Vector UInt8 21) (w : W)
    (log : List BusAction) :
    transaction (recording bus) dword data (w, log) =
      logged log (transactionSegments bus dword data w) (transaction bus dword data w) := by
  simp only [transaction, recording_pinSet, recording_busyWait, shiftAll_recording]
  dsimp only [transactionSegments]
  split
  · next hmore =>
      rw [if_pos (show modeByte _ = 0x79 from hmore)]
      simp [logged, actionsOf, Segment.actions]
  · next hmore =>
      rw [if_neg (show ¬ modeByte _ = 0x79 from hmore)]
      simp [logged, actionsOf, Segment.actions]

theorem attempts_recording (ps2 : Ps2) (dword : List UInt8) (retries : ℕ) (data : Vector UInt8 21)
    (w : W) (log : List BusAction) :
    attempts (recording bus) ps2 dword retries data (w, log) =
      let plain := attempts bus ps2 dword retries data w
      (plain.1, logged log (attemptsSegments bus ps2 dword retries data w) plain.2) := by
  induction retries generalizing data w log with
  | zero => simp [attempts, attemptsSegments, logged, actionsOf]
  | succ retries ih =>
      simp only [attempts, transaction_recording, attemptsSegments, logged]
      by_cases hok : frameOk (transaction bus dword data w).1 = true
      · simp only [hok, if_true]
      · simp [hok, ps2Reconfig_recording, ih, logged, actionsOf, Segment.actions]

theorem settle_recording (ps2 : Ps2) (w : W) (log : List BusAction) :
    settle (recording bus) ps2 (w, log) =
      (settle bus ps2 w, log ++ actionsOf (settleSegments bus ps2 w)) := by
  simp only [settle, settleSegments, recording_uptime, ps2Reconfig_recording]
  split <;> split <;> simp [actionsOf, Segment.actions]

/-- Recording a read changes nothing but the log. -/
theorem ps2ReadGamepad_recording (ps2 : Ps2) (motor1 : Bool) (motor2 : UInt8) (w : W)
    (log : List BusAction) :
    ps2ReadGamepad (recording bus) ps2 motor1 motor2 (w, log) =
      let plain := ps2ReadGamepad bus ps2 motor1 motor2 w
      (plain.1, logged log (readSegments bus ps2 motor1 motor2 w) plain.2) := by
  simp only [ps2ReadGamepad, receive, settle_recording, attempts_recording, logged, readSegments,
    actionsOf_append, List.append_assoc, recording_uptime]

end Reads

/-! ## `ps2_init` -/

section Init
variable {W : Type} (bus : Bus W)

theorem logged_append {α : Type} (log : List BusAction) (segments more : List Segment) (r : α × W) :
    logged (log ++ actionsOf segments) more r = logged log (segments ++ more) r := by
  simp [logged, actionsOf_append]

theorem logged_sleep (log : List BusAction) (segments : List Segment) (ms : ℕ) :
    log ++ actionsOf segments ++ [.sleep ms] = log ++ actionsOf (segments ++ [.sleep ms]) := by
  simp [actionsOf, Segment.actions]

/-- The record with which a pass of the configuration loop goes into its read. -/
def typed (pressures rumble : Bool) (ps2 : Ps2) (w : W) : Ps2 :=
  let w := bus.busyWait ctrlByteDelay (sendCommandString bus ps2.readDelay enterConfig w)
  let w := bus.pinSet .att false (bus.pinSet .clk true (bus.pinSet .cmd true w))
  { ps2 with
    controllerType := (shiftAll bus typeRead (bus.busyWait ctrlByteDelay w)).1.getD 3 0
    enRumble := ps2.enRumble || rumble
    enPressures := ps2.enPressures || pressures }

theorem configure_succ_typed (pressures rumble : Bool) (passes : ℕ) (ps2 : Ps2) (w : W) :
    configure bus pressures rumble (passes + 1) ps2 w =
      let read := ps2ReadGamepad bus (typed bus pressures rumble ps2 w) false 0
        (configRound bus pressures rumble ps2.readDelay w)
      if pressures ∧ modeByte read.1.data = 0x79 then (read.1, true, read.2.2)
      else if pressures ∧ modeByte read.1.data = 0x73 then (read.1, false, read.2.2)
      else if modeByte read.1.data = 0x73 then (read.1, true, read.2.2)
      else configure bus pressures rumble passes
        { read.1 with readDelay := read.1.readDelay + 1 } (bus.sleep 1 read.2.2) :=
  rfl

/-- The transaction of a pass that reads the controller's type. -/
def readType {V : Type} (bus : Bus V) (v : V) : V :=
  let v := bus.pinSet .clk true (bus.pinSet .cmd true (bus.busyWait ctrlByteDelay v))
  let v := bus.busyWait ctrlByteDelay (bus.pinSet .att false v)
  bus.pinSet .att true (shiftAll bus typeRead v).2

theorem readType_recording (w : W) (log : List BusAction) :
    readType (recording bus) (w, log) =
      (readType bus w, log ++ actionsOf [.pause 18, .high, .frame typeRead]) := by
  simp [readType, shiftAll_recording, actionsOf, Segment.actions]

theorem configRound_eq {V : Type} (bus : Bus V) (pressures rumble : Bool) (readDelay : UInt8) (v : V) :
    configRound bus pressures rumble readDelay v =
      (Device.configFrames rumble pressures ++ [exitConfig]).foldl
        (fun v string => sendCommandString bus readDelay string v)
        (readType bus (sendCommandString bus readDelay enterConfig v)) := by
  unfold configRound Device.configFrames readType
  cases rumble <;> cases pressures <;> rfl

theorem configRound_recording (pressures rumble : Bool) (readDelay : UInt8) (w : W)
    (log : List BusAction) :
    configRound (recording bus) pressures rumble readDelay (w, log) =
      (configRound bus pressures rumble readDelay w,
        log ++ actionsOf (roundSegments pressures rumble readDelay)) := by
  rw [configRound_eq, sendCommandString_recording, readType_recording, sendStrings_recording,
    ← configRound_eq, roundSegments, actionsOf_append, actionsOf_append]
  simp only [List.append_assoc]

theorem typed_recording (pressures rumble : Bool) (ps2 : Ps2) (w : W) (log : List BusAction) :
    typed (recording bus) pressures rumble ps2 (w, log) = typed bus pressures rumble ps2 w := by
  simp [typed, sendCommandString_recording, shiftAll_recording]

theorem configure_recording (pressures rumble : Bool) (passes : ℕ) (ps2 : Ps2) (w : W)
    (log : List BusAction) :
    ∃ segments, configure (recording bus) pressures rumble passes ps2 (w, log) =
      let plain := configure bus pressures rumble passes ps2 w
      (plain.1, logged log segments plain.2) := by
  induction passes generalizing ps2 w log with
  | zero => exact ⟨[], congrArg (fun log => (ps2, false, w, log)) (List.append_nil log).symm⟩
  | succ passes ih =>
      simp only [configure_succ_typed, configRound_recording, typed_recording,
        ps2ReadGamepad_recording, logged_append]
      split
      · exact ⟨_, rfl⟩
      · split
        · exact ⟨_, rfl⟩
        · split
          · exact ⟨_, rfl⟩
          · simp only [logged, recording_sleep, logged_sleep]
            obtain ⟨segments, hrest⟩ := ih _ _ _
            exact ⟨_, hrest.trans (congrArg _ (logged_append log _ segments _))⟩

/-- `ps2_init` sets `CMD`, `CLK` and `ATT` high, in this order, before its first segment. -/
def powerUp : List BusAction := [.set .cmd true, .set .clk true, .set .att true]

theorem ps2Init_recording (hready : bus.ready = true) (data : Vector UInt8 21)
    (pressures rumble : Bool) (w : W) :
    ∃ segments, ps2Init (recording bus) data pressures rumble (w, []) =
      let plain := ps2Init bus data pressures rumble w
      (plain.1, logged powerUp segments plain.2) := by
  have hready' : (recording bus).ready = true := hready
  have hpins : [] ++ [.set .cmd true] ++ [.set .clk true] ++ [.set .att true] = powerUp := rfl
  unfold ps2Init
  simp only [if_pos hready, if_pos hready', recording_pinSet, hpins, ps2ReadGamepad_recording]
  simp only [logged, ps2ReadGamepad_recording, List.append_assoc, ← actionsOf_append]
  split
  · exact ⟨_, rfl⟩
  · obtain ⟨segments, hrest⟩ := configure_recording bus pressures rumble 11 _ _ _
    exact ⟨_, hrest.trans (congrArg _ (logged_append powerUp _ segments _))⟩

end Init

/-! ## Sequences of calls -/

/-- One call on the reader and the world, whatever its bus. -/
def linkStep {W : Type} (bus : Bus W) (s : Ps2 × W) : LinkCall → Ps2 × W
  | .reconfig => (s.1, ps2Reconfig bus s.1 s.2)
  | .read motor1 motor2 =>
      let read := ps2ReadGamepad bus s.1 motor1 motor2 s.2
      (read.1, read.2.2)

/-- `ps2_init`, then any calls. -/
def linkSession {W : Type} (bus : Bus W) (data : Vector UInt8 21) (pressures rumble : Bool)
    (calls : List LinkCall) (w : W) : Ps2 × W :=
  let init := ps2Init bus data pressures rumble w
  run (linkStep bus) (init.1, init.2.2) calls

section Session
variable {W : Type} (bus : Bus W)

theorem linkStep_recording (log : List BusAction) (s : Ps2 × W) (call : LinkCall) :
    ∃ segments, linkStep (recording bus) (logged log [] s) call =
      logged log segments (linkStep bus s call) := by
  have hnil : logged log [] s = (s.1, s.2, log) :=
    congrArg (fun log => (s.1, s.2, log)) (List.append_nil log)
  rw [hnil]
  cases call with
  | reconfig =>
      simp only [linkStep, ps2Reconfig_recording]
      exact ⟨_, rfl⟩
  | read motor1 motor2 =>
      simp only [linkStep, ps2ReadGamepad_recording, logged]
      exact ⟨_, rfl⟩

theorem run_linkStep_recording (log : List BusAction) (s : Ps2 × W) (calls : List LinkCall) :
    ∃ segments, run (linkStep (recording bus)) (logged log [] s) calls =
      logged log segments (run (linkStep bus) s calls) := by
  induction calls generalizing log s with
  | nil => exact ⟨[], rfl⟩
  | cons call calls ih =>
      obtain ⟨segments, hcall⟩ := linkStep_recording bus log s call
      obtain ⟨more, hcalls⟩ := ih (log ++ actionsOf segments) (linkStep bus s call)
      rw [logged_append, List.append_nil, logged_append] at hcalls
      exact ⟨segments ++ more, by rw [run_cons, run_cons, hcall, hcalls]⟩

/-- Recording changes nothing, and after `powerUp` the log is a list of segments. -/
theorem linkSession_recording (hready : bus.ready = true) (data : Vector UInt8 21)
    (pressures rumble : Bool) (calls : List LinkCall) (w : W) :
    ∃ segments, linkSession (recording bus) data pressures rumble calls (w, []) =
      logged powerUp segments (linkSession bus data pressures rumble calls w) := by
  obtain ⟨segments, hinit⟩ := ps2Init_recording bus hready data pressures rumble w
  obtain ⟨more, hcalls⟩ := run_linkStep_recording bus (powerUp ++ actionsOf segments)
    ((ps2Init bus data pressures rumble w).1, (ps2Init bus data pressures rumble w).2.2) calls
  rw [logged_append, List.append_nil, logged_append] at hcalls
  refine ⟨segments ++ more, ?_⟩
  unfold linkSession
  rw [hinit]
  exact hcalls

end Session

end Mecanum.Gamepad
