import Mecanum.Gamepad.ConfigMode

/-! # One read, byte by byte

The attempts of one call of `ps2_read_gamepad`, in order. In each of them the device receives the poll
and the record gets the device's answer, and the call reports what its last attempt shows.
-/

namespace Mecanum.Gamepad
open Bits
set_option autoImplicit false

section Bus
variable {W : Type} (bus : Bus W)

/-! ## The attempts of a call -/

/-- The data and the world in which each attempt of `attempts` starts. -/
def attemptStarts (ps2 : Ps2) (dword : List UInt8) :
    ℕ → Vector UInt8 21 → W → List (Vector UInt8 21 × W)
  | 0, _, _ => []
  | retries + 1, data, w =>
      let got := transaction bus dword data w
      (data, w) ::
        if frameOk got.1 then []
        else attemptStarts ps2 dword retries got.1
          (bus.sleep ps2.readDelay.toUInt64 (ps2Reconfig bus ps2 got.2))

theorem length_attemptStarts (ps2 : Ps2) (dword : List UInt8) (retries : ℕ)
    (data : Vector UInt8 21) (w : W) :
    (attemptStarts bus ps2 dword retries data w).length ≤ retries := by
  induction retries generalizing data w with
  | zero => exact Nat.le_refl 0
  | succ retries ih =>
      rw [attemptStarts, List.length_cons]
      refine Nat.succ_le_succ ?_
      split
      · exact Nat.zero_le retries
      · exact ih _ _

/-- The result of the retry loop is that of its last attempt. -/
theorem attempts_last (ps2 : Ps2) (dword : List UInt8) (retries : ℕ) (data : Vector UInt8 21) (w : W) :
    ∃ earlier last, attemptStarts bus ps2 dword (retries + 1) data w = earlier ++ [last] ∧
      (attempts bus ps2 dword (retries + 1) data w).1 = (transaction bus dword last.1 last.2).1 := by
  induction retries generalizing data w with
  | zero =>
      refine ⟨[], (data, w), ?_, ?_⟩
      · rw [attemptStarts, attemptStarts, ite_self]
        rfl
      · rw [attempts, attempts]
        split <;> rfl
  | succ retries ih =>
      rw [attemptStarts, attempts]
      by_cases hok : frameOk (transaction bus dword data w).1
      · simp only [if_pos hok]
        exact ⟨[], (data, w), rfl, rfl⟩
      · simp only [if_neg hok]
        obtain ⟨earlier, last, hstarts, hdata⟩ := ih (transaction bus dword data w).1
          (bus.sleep ps2.readDelay.toUInt64 (ps2Reconfig bus ps2 (transaction bus dword data w).2))
        exact ⟨(data, w) :: earlier, last, congrArg _ hstarts, hdata⟩

/-! ## The indices written -/

/-- The indices that `storeAt` writes. -/
def storeIndices (i : ℕ) : List UInt8 → List ℕ
  | [] => []
  | _ :: bytes => i :: storeIndices (i + 1) bytes

/-- The indices that a transaction writes. -/
def writtenIndices (dword : List UInt8) (data : Vector UInt8 21) (w : W) : List ℕ :=
  let w := bus.pinSet .att false (bus.pinSet .clk true (bus.pinSet .cmd true w))
  let first := shiftAll bus dword (bus.busyWait ctrlByteDelay w)
  storeIndices 0 first.1 ++
    if modeByte (storeAt data 0 first.1) = 0x79 then
      storeIndices 9 (shiftAll bus (List.replicate 12 0) first.2).1
    else []

theorem length_shiftAll (bytes : List UInt8) (w : W) : (shiftAll bus bytes w).1.length = bytes.length := by
  induction bytes generalizing w with
  | nil => rfl
  | cons byte bytes ih => exact congrArg (· + 1) (ih _)

theorem lt_of_mem_storeIndices {i j : ℕ} {bytes : List UInt8} (h : j ∈ storeIndices i bytes) :
    j < i + bytes.length := by
  induction bytes generalizing i with
  | nil => cases h
  | cons byte bytes ih =>
      rw [List.length_cons]
      obtain rfl | hlater := List.mem_cons.mp h
      · omega
      · have hlt := ih hlater
        omega

theorem writtenIndices_lt {dword : List UInt8} (hlength : dword.length = 9) (data : Vector UInt8 21)
    (w : W) : ∀ i ∈ writtenIndices bus dword data w, i < 21 := by
  intro i hi
  obtain hi | hi := List.mem_append.mp hi
  · have hlt := lt_of_mem_storeIndices hi
    rw [length_shiftAll, hlength] at hlt
    omega
  · split at hi
    · have hlt := lt_of_mem_storeIndices hi
      rw [length_shiftAll, List.length_replicate] at hlt
      exact hlt
    · cases hi

/-! ## The states around each byte -/

/-- The world before and after each byte. -/
def byteStates : List UInt8 → W → List W
  | [], _ => []
  | byte :: bytes, w =>
      let after := (gamepadShiftinout bus byte w).2
      w :: after :: byteStates bytes after

def sendStates (string : List UInt8) (w : W) : List W :=
  byteStates bus string (bus.busyWait ctrlByteDelay (bus.pinSet .att false w))

def reconfigStates (ps2 : Ps2) (w : W) : List W :=
  let entered := sendCommandString bus ps2.readDelay enterConfig w
  let moded := sendCommandString bus ps2.readDelay setMode entered
  let rumbling :=
    if ps2.enRumble then sendCommandString bus ps2.readDelay enableRumble moded else moded
  let pressing :=
    if ps2.enPressures then sendCommandString bus ps2.readDelay setBytesLarge rumbling else rumbling
  sendStates bus enterConfig w ++ sendStates bus setMode entered ++
    (if ps2.enRumble then sendStates bus enableRumble moded else []) ++
    (if ps2.enPressures then sendStates bus setBytesLarge rumbling else []) ++
    sendStates bus exitConfig pressing

def transactionStates (dword : List UInt8) (data : Vector UInt8 21) (w : W) : List W :=
  let w := bus.pinSet .att false (bus.pinSet .clk true (bus.pinSet .cmd true w))
  let w := bus.busyWait ctrlByteDelay w
  let first := shiftAll bus dword w
  byteStates bus dword w ++
    if modeByte (storeAt data 0 first.1) = 0x79 then
      byteStates bus (List.replicate 12 0) first.2
    else []

def attemptsStates (ps2 : Ps2) (dword : List UInt8) : ℕ → Vector UInt8 21 → W → List W
  | 0, _, _ => []
  | retries + 1, data, w =>
      let got := transaction bus dword data w
      transactionStates bus dword data w ++
        if frameOk got.1 then []
        else reconfigStates bus ps2 got.2 ++
          attemptsStates ps2 dword retries got.1
            (bus.sleep ps2.readDelay.toUInt64 (ps2Reconfig bus ps2 got.2))

/-- The world before and after each byte of a call of `ps2_read_gamepad`. -/
def readStates (ps2 : Ps2) (motor1 : Bool) (motor2 : UInt8) (w : W) : List W :=
  let now := bus.uptime w
  (if now.1 - ps2.lastRead > 1500 then reconfigStates bus ps2 now.2 else []) ++
    attemptsStates bus ps2 (readCommand motor1 motor2) 5 ps2.data (settle bus ps2 w)

end Bus

namespace Device
variable (world : World) {d : Device}

theorem byteStates_high (hatt : d.att = false) (hclk : d.clk = true) (bytes : List UInt8) {m : ℕ}
    (hdriven : d.driven = 8 * m) : ∀ e ∈ byteStates (bus world) bytes d, e.clk = true := by
  induction bytes generalizing d m with
  | nil => exact fun e he => by cases he
  | cons byte bytes ih =>
      obtain ⟨-, htakes⟩ := gamepadShiftinout_takes world hatt hclk byte hdriven
      have hdriven' := htakes.driven_bytes (k := 1) hdriven rfl
      intro e he
      obtain rfl | he := List.mem_cons.mp he
      · exact hclk
      · obtain rfl | he := List.mem_cons.mp he
        · exact htakes.clk.2
        · exact ih htakes.att.2 htakes.clk.2 hdriven' e he

theorem sendStates_high (h : d.Idle) (string : List UInt8) :
    ∀ e ∈ sendStates (bus world) string d, e.clk = true := by
  have hfall := setPin_att_fall world h.1
  unfold sendStates
  simp only [bus_pinSet, bus_busyWait, hfall]
  exact byteStates_high world (d := { d with att := false, driven := 0, latched := [] }) rfl h.2
    string (Nat.mul_zero 8).symm

theorem sendStatesIf_high (h : d.Idle) (wanted : Bool) (string : List UInt8) :
    ∀ e ∈ if wanted then sendStates (bus world) string d else [], e.clk = true := by
  cases wanted with
  | false => exact fun e he => by cases he
  | true => exact sendStates_high world h string

theorem reconfigStates_high (h : d.Idle) (ps2 : Ps2) :
    ∀ e ∈ reconfigStates (bus world) ps2 d, e.clk = true := by
  have henter := sendCommandString_sends world h ps2.readDelay enterConfig
  have hmode := sendCommandString_sends world henter.idle ps2.readDelay setMode
  have hrumble := sendIf_sends world hmode.idle ps2.enRumble ps2.readDelay enableRumble
  have hbytes := sendIf_sends world hrumble.idle ps2.enPressures ps2.readDelay setBytesLarge
  intro e he
  obtain he | he := List.mem_append.mp he
  · obtain he | he := List.mem_append.mp he
    · obtain he | he := List.mem_append.mp he
      · obtain he | he := List.mem_append.mp he
        · exact sendStates_high world h enterConfig e he
        · exact sendStates_high world henter.idle setMode e he
      · exact sendStatesIf_high world hmode.idle ps2.enRumble enableRumble e he
    · exact sendStatesIf_high world hrumble.idle ps2.enPressures setBytesLarge e he
  · exact sendStates_high world hbytes.idle exitConfig e he

theorem transactionStates_high (hatt : d.att = true) {dword : List UInt8} (hlength : dword.length = 9)
    (data : Vector UInt8 21) : ∀ e ∈ transactionStates (bus world) dword data d, e.clk = true := by
  obtain ⟨-, htakes⟩ := firstBytes world (d := d) hlength
  have hdriven := htakes.driven_bytes (Nat.mul_zero 8).symm (length_flatMap_bitsOf dword)
  unfold transactionStates
  simp only [bus_pinSet, bus_busyWait, opened_eq world hatt]
  intro e he
  obtain he | he := List.mem_append.mp he
  · exact byteStates_high world (d := d.opened) rfl rfl dword (Nat.mul_zero 8).symm e he
  · split at he
    · exact byteStates_high world htakes.att.2 htakes.clk.2 (List.replicate 12 0) hdriven e he
    · cases he

/-! ## Every attempt starts between frames -/

theorem ps2Reconfig_idle (h : d.Idle) (ps2 : Ps2) : (ps2Reconfig (bus world) ps2 d).Idle :=
  (ps2Reconfig_sends world h ps2).idle

theorem settle_idle (h : d.Idle) (ps2 : Ps2) : (settle (bus world) ps2 d).Idle := by
  rw [settle_eq]
  split
  · exact ps2Reconfig_idle world (d := d.clocked) h ps2
  · exact h

theorem attemptStarts_idle (h : d.Idle) (ps2 : Ps2) {dword : List UInt8} (hlength : dword.length = 9)
    (retries : ℕ) (data : Vector UInt8 21) :
    ∀ s ∈ attemptStarts (bus world) ps2 dword retries data d, s.2.Idle := by
  induction retries generalizing d data with
  | zero => exact fun s hs => by cases hs
  | succ retries ih =>
      obtain ⟨hidle, -⟩ := transaction_exchanges world h.1 hlength data
      intro s hs
      obtain rfl | hs := List.mem_cons.mp hs
      · exact h
      · split at hs
        · cases hs
        · rw [bus_sleep] at hs
          exact ih (ps2Reconfig_idle world hidle ps2) _ s hs

theorem attemptsStates_high (h : d.Idle) (ps2 : Ps2) {dword : List UInt8} (hlength : dword.length = 9)
    (retries : ℕ) (data : Vector UInt8 21) :
    ∀ e ∈ attemptsStates (bus world) ps2 dword retries data d, e.clk = true := by
  induction retries generalizing d data with
  | zero => exact fun e he => by cases he
  | succ retries ih =>
      obtain ⟨hidle, -⟩ := transaction_exchanges world h.1 hlength data
      intro e he
      obtain he | he := List.mem_append.mp he
      · exact transactionStates_high world h.1 hlength data e he
      · split at he
        · cases he
        · obtain he | he := List.mem_append.mp he
          · exact reconfigStates_high world hidle ps2 e he
          · rw [bus_sleep] at he
            exact ih (ps2Reconfig_idle world hidle ps2) _ e he

theorem readStates_high (h : d.Idle) (ps2 : Ps2) (motor1 : Bool) (motor2 : UInt8) :
    ∀ e ∈ readStates (bus world) ps2 motor1 motor2 d, e.clk = true := by
  intro e he
  obtain he | he := List.mem_append.mp he
  · split at he
    · exact reconfigStates_high world (d := d.clocked) h ps2 e he
    · cases he
  · exact attemptsStates_high world (settle_idle world h ps2) ps2
      (length_readCommand motor1 motor2) 5 ps2.data e he

/-! ## Exact transfer -/

/-- The device receives the poll, as long as its answer asks for and not a bit more, and the data becomes
its answer. -/
structure Transfers (motor1 : Bool) (motor2 : UInt8) (data : Vector UInt8 21) (d : Device)
    (after : Vector UInt8 21 × Device) : Prop where
  received : ∃ (m2 : UInt8) (sent : List UInt8),
    m2.toNat = (if motor2 = 0 then 0 else motor2.toNat * 0xBF / 255 + 0x40) ∧
    sent = [0x01, 0x42, 0x00, if motor1 then 0x01 else 0x00, m2, 0x00, 0x00, 0x00, 0x00] ++
      (if d.answer world 1 = 0x79 then List.replicate 12 0x00 else []) ∧
    after.2.latched = sent.flatMap bitsOf ∧
    after.2.controller.log = d.controller.log ++ [⟨sent, d.controller.config⟩]
  data : ∀ j (hj : j < 21),
    after.1[j] = if j < 9 ∨ d.answer world 1 = 0x79 then d.answer world j else data[j]

/-- The strength of the large motor fits a byte. -/
theorem readCommand_encodes (motor1 : Bool) (motor2 : UInt8) : ∃ m2 : UInt8,
    m2.toNat = (if motor2 = 0 then 0 else motor2.toNat * 0xBF / 255 + 0x40) ∧
      readCommand motor1 motor2 = [0x01, 0x42, 0, if motor1 then 0x01 else 0, m2, 0, 0, 0, 0] := by
  refine ⟨_, ?_, rfl⟩
  have hlt := motor2.toNat_lt
  by_cases hzero : motor2 = 0
  · simp [hzero]
  · simp only [ne_eq, hzero, not_false_eq_true, if_true, if_false]
    rw [UInt8.toNat_ofNat', Nat.mod_eq_of_lt]
    omega

theorem transaction_transfers (hatt : d.att = true) (motor1 : Bool) (motor2 : UInt8)
    (data : Vector UInt8 21) :
    Transfers world motor1 motor2 data d
      (transaction (bus world) (readCommand motor1 motor2) data d) := by
  obtain ⟨-, hlatched, hcontroller, hdata⟩ := transaction_exchanges world hatt
    (length_readCommand motor1 motor2) data
  obtain ⟨m2, hm2, hcommand⟩ := readCommand_encodes motor1 motor2
  refine ⟨⟨m2, readCommand motor1 motor2 ++ d.more world, hm2, ?_, hlatched, ?_⟩, hdata⟩
  · rw [hcommand]
    rfl
  · rw [hcontroller]
    rfl

theorem frameOk_iff (data : Vector UInt8 21) : frameOk data = true ↔ (modeByte data).toNat / 16 = 7 := by
  have hnibble : ∀ byte : BitVec 8, byte &&& 0xF0 = 0x70 ↔ byte.toNat / 16 = 7 := by decide
  unfold frameOk
  rw [beq_iff_eq, ← UInt8.toBitVec_inj]
  exact hnibble (modeByte data).toBitVec

end Device

/-- One read against a device between frames. Every attempt transfers its bytes exactly, in both directions
and inside the array; there are at most five of them, and the last one decides what the call
returns. Each byte of the call, the ones of its configuration rounds too, starts and ends with the clock
high. -/
theorem read_transfers_exactly (world : World) (ps2 : Ps2) (motor1 : Bool) (motor2 : UInt8)
    (d : Device) (h : d.Idle) :
    let bus := Device.bus world
    let read := ps2ReadGamepad bus ps2 motor1 motor2 d
    let dword := readCommand motor1 motor2
    let starts := attemptStarts bus ps2 dword 5 ps2.data (settle bus ps2 d)
    (∀ s ∈ starts, Device.Transfers world motor1 motor2 s.1 s.2 (transaction bus dword s.1 s.2) ∧
      ∀ i ∈ writtenIndices bus dword s.1 s.2, i < 21) ∧
    starts.length ≤ 5 ∧
    (∃ earlier last, starts = earlier ++ [last] ∧
      read.1.data = (transaction bus dword last.1 last.2).1 ∧
      (read.2.1 = true ↔ (last.2.answer world 1).toNat / 16 = 7)) ∧
    ∀ e ∈ readStates bus ps2 motor1 motor2 d, e.clk = true := by
  have hidle := Device.attemptStarts_idle world (Device.settle_idle world h ps2) ps2
    (Device.length_readCommand motor1 motor2) 5 ps2.data
  refine ⟨fun s hs => ⟨Device.transaction_transfers world (hidle s hs).1 motor1 motor2 s.1,
    writtenIndices_lt (Device.bus world) rfl s.1 s.2⟩, length_attemptStarts _ ps2 _ 5 _ _, ?_,
    Device.readStates_high world h ps2 motor1 motor2⟩
  obtain ⟨earlier, last, hstarts, hdata⟩ := attempts_last (Device.bus world) ps2
    (readCommand motor1 motor2) 4 ps2.data (settle (Device.bus world) ps2 d)
  have hlast : last ∈ attemptStarts (Device.bus world) ps2 (readCommand motor1 motor2) 5 ps2.data
      (settle (Device.bus world) ps2 d) := by
    rw [hstarts]
    exact List.mem_append_right earlier List.mem_cons_self
  have hanswer := (Device.transaction_transfers world (hidle last hlast).1 motor1 motor2 last.1).data
    1 (by decide)
  refine ⟨earlier, last, hstarts, hdata, ?_⟩
  have hgood := attempts_success (Device.bus world) ps2 (readCommand motor1 motor2) 4 ps2.data
    (settle (Device.bus world) ps2 d)
  rw [hdata] at hgood
  have hmode : modeByte (transaction (Device.bus world) (readCommand motor1 motor2) last.1 last.2).1 =
      last.2.answer world 1 := by
    rw [if_pos (Or.inl (by decide))] at hanswer
    exact hanswer
  rw [← hmode, ← Device.frameOk_iff, ← hgood]
  rfl

/-- A pad in pressure mode is read at the first attempt. -/
theorem read_pressure_pad :
    (Device.powered true true true true).Idle ∧
      (ps2ReadGamepad (Device.bus ⟨fun _ _ => 0x79, fun _ => 0⟩) (unread zeroed)
        true 0x80 (Device.powered true true true true)).2.1 = true := by
  have hidle : (Device.powered true true true true).Idle := ⟨rfl, rfl⟩
  obtain ⟨-, -, ⟨earlier, last, -, -, hgood⟩, -⟩ := read_transfers_exactly
    ⟨fun _ _ => 0x79, fun _ => 0⟩
    (unread zeroed) true 0x80 _ hidle
  have hanswer : last.2.answer ⟨fun _ _ => 0x79, fun _ => 0⟩ 1 = 0x79 := rfl
  rw [hanswer] at hgood
  exact ⟨hidle, hgood.mpr (by decide)⟩

end Mecanum.Gamepad
