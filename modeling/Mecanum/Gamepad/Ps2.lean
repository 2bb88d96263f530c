import Mathlib.Data.Nat.Notation

/-! # `zephyr_ps2.c`: the gamepad reader

The reader bit-bangs the controller's bus. `Bus W` is what it can do to the world `W` outside: drive
the three output pins, sample the data pin, wait, sleep and read the clock. Nothing is assumed of
it, so a read may receive any bytes. The pin numbers, `gpio_pin_configure` and logging are left out.
-/

namespace Mecanum.Gamepad
set_option autoImplicit false

inductive Pin
  | clk
  | cmd
  | att
  deriving DecidableEq

structure Bus (W : Type) where
  ready : Bool
  pinSet : Pin → Bool → W → W
  datChk : W → Bool × W
  busyWait : UInt32 → W → W
  sleep : UInt64 → W → W
  uptime : W → UInt64 × W

structure Ps2 where
  data : Vector UInt8 21
  buttons : UInt16
  lastButtons : UInt16
  lastRead : UInt64
  readDelay : UInt8
  controllerType : UInt8
  enRumble : Bool
  enPressures : Bool

/-- A static array before anything is stored in it. -/
def zeroed : Vector UInt8 21 := Vector.replicate 21 0

/-- The record at the first read of `ps2_init`. `data` is the static array's contents, which `ps2_init`
does not clear. -/
def unread (data : Vector UInt8 21) : Ps2 where
  data := data
  buttons := 0
  lastButtons := 0
  lastRead := 0
  readDelay := 1
  controllerType := 0
  enRumble := false
  enPressures := false

def enterConfig : List UInt8 := [0x01, 0x43, 0x00, 0x01, 0x00]
def setMode : List UInt8 := [0x01, 0x44, 0x00, 0x01, 0x03, 0x00, 0x00, 0x00, 0x00]
def setBytesLarge : List UInt8 := [0x01, 0x4F, 0x00, 0xFF, 0xFF, 0x03, 0x00, 0x00, 0x00]
def exitConfig : List UInt8 := [0x01, 0x43, 0x00, 0x00, 0x5A, 0x5A, 0x5A, 0x5A, 0x5A]
def enableRumble : List UInt8 := [0x01, 0x4D, 0x00, 0x00, 0x01]
def typeRead : List UInt8 := [0x01, 0x45, 0x00, 0x5A, 0x5A, 0x5A, 0x5A, 0x5A, 0x5A]

def ctrlClkDelay : UInt32 := 5
def ctrlByteDelay : UInt32 := 18

section Bus
variable {W : Type} (bus : Bus W)

/-- The loop body of `gamepad_shiftinout`, for bit `i`. -/
def shiftBit (data : UInt8) (s : UInt8 × W) (i : ℕ) : UInt8 × W :=
  let w := bus.pinSet .cmd (data.toNat.testBit i) s.2
  let w := bus.pinSet .clk false w
  let w := bus.busyWait ctrlClkDelay w
  let dat := bus.datChk w
  let ret := if dat.1 then s.1 ||| UInt8.ofNat (1 <<< i) else s.1
  let w := bus.pinSet .clk true dat.2
  (ret, bus.busyWait ctrlClkDelay w)

def gamepadShiftinout (data : UInt8) (w : W) : UInt8 × W :=
  let s := (List.range 8).foldl (shiftBit bus data) (0, w)
  let w := bus.pinSet .cmd true s.2
  (s.1, bus.busyWait ctrlByteDelay w)

/-- A loop of `gamepad_shiftinout` over an array of bytes, with the bytes received. -/
def shiftAll : List UInt8 → W → List UInt8 × W
  | [], w => ([], w)
  | b :: bytes, w =>
      let r := gamepadShiftinout bus b w
      let rest := shiftAll bytes r.2
      (r.1 :: rest.1, rest.2)

def storeAt (data : Vector UInt8 21) (i : ℕ) : List UInt8 → Vector UInt8 21
  | [] => data
  | b :: bytes => storeAt (data.setIfInBounds i b) (i + 1) bytes

def sendCommandString (readDelay : UInt8) (string : List UInt8) (w : W) : W :=
  let w := bus.pinSet .att false w
  let w := bus.busyWait ctrlByteDelay w
  let w := (shiftAll bus string w).2
  let w := bus.pinSet .att true w
  bus.sleep readDelay.toUInt64 w

def ps2Reconfig (ps2 : Ps2) (w : W) : W :=
  let w := sendCommandString bus ps2.readDelay enterConfig w
  let w := sendCommandString bus ps2.readDelay setMode w
  let w := if ps2.enRumble then sendCommandString bus ps2.readDelay enableRumble w else w
  let w := if ps2.enPressures then sendCommandString bus ps2.readDelay setBytesLarge w else w
  sendCommandString bus ps2.readDelay exitConfig w

/-! ## `ps2_read_gamepad` -/

/-- The byte in which a frame names the controller's mode. -/
def modeByte (data : Vector UInt8 21) : UInt8 := data[1]

/-- The test that ends the retries. -/
def frameOk (data : Vector UInt8 21) : Bool := data[1] &&& 0xF0 == 0x70

/-- One transaction: nine bytes, and twelve more from a controller in pressure mode. -/
def transaction (dword : List UInt8) (data : Vector UInt8 21) (w : W) : Vector UInt8 21 × W :=
  let w := bus.pinSet .cmd true w
  let w := bus.pinSet .clk true w
  let w := bus.pinSet .att false w
  let w := bus.busyWait ctrlByteDelay w
  let first := shiftAll bus dword w
  let data := storeAt data 0 first.1
  let w := first.2
  if data[1] = 0x79 then
    let more := shiftAll bus (List.replicate 12 0) w
    (storeAt data 9 more.1, bus.pinSet .att true more.2)
  else (data, bus.pinSet .att true w)

/-- The retry loop, with the retries left, and whether it ended on a good frame. -/
def attempts (ps2 : Ps2) (dword : List UInt8) :
    ℕ → Vector UInt8 21 → W → Vector UInt8 21 × Bool × W
  | 0, data, w => (data, false, w)
  | retries + 1, data, w =>
      let got := transaction bus dword data w
      if frameOk got.1 then (got.1, true, got.2)
      else
        let w := ps2Reconfig bus ps2 got.2
        let w := bus.sleep ps2.readDelay.toUInt64 w
        attempts ps2 dword retries got.1 w

def readCommand (motor1 : Bool) (motor2 : UInt8) : List UInt8 :=
  let motor2 := if motor2 ≠ 0 then UInt8.ofNat (motor2.toNat * 0xBF / 255 + 0x40) else motor2
  [0x01, 0x42, 0, if motor1 then 0x01 else 0, motor2, 0, 0, 0, 0]

/-- The button word of a frame; a held button is a 0 bit. -/
def buttonWord (data : Vector UInt8 21) : UInt16 :=
  (data[4].toUInt16 <<< 8) ||| data[3].toUInt16

def settle (ps2 : Ps2) (w : W) : W :=
  let now := bus.uptime w
  let w := if now.1 - ps2.lastRead > 1500 then ps2Reconfig bus ps2 now.2 else now.2
  if now.1 - ps2.lastRead < ps2.readDelay.toUInt64 then
    bus.sleep (ps2.readDelay.toUInt64 - (now.1 - ps2.lastRead)) w
  else w

/-- The frame a read ends with, and whether it is good. -/
def receive (ps2 : Ps2) (motor1 : Bool) (motor2 : UInt8) (w : W) : Vector UInt8 21 × Bool × W :=
  attempts bus ps2 (readCommand motor1 motor2) 5 ps2.data (settle bus ps2 w)

/-- The record after the read: the buttons move on whether or not the frame is good. -/
def Ps2.latch (ps2 : Ps2) (data : Vector UInt8 21) (lastRead : UInt64) : Ps2 :=
  { ps2 with
    data := data
    lastButtons := ps2.buttons
    buttons := buttonWord data
    lastRead := lastRead }

def ps2ReadGamepad (ps2 : Ps2) (motor1 : Bool) (motor2 : UInt8) (w : W) : Ps2 × Bool × W :=
  let got := receive bus ps2 motor1 motor2 w
  let now := bus.uptime got.2.2
  (ps2.latch got.1 now.1, got.2.1, now.2)

/-! ## `ps2_init` -/

/-- The configuration loop, with the passes left, and whether the controller was configured. -/
def configure (pressures rumble : Bool) : ℕ → Ps2 → W → Ps2 × Bool × W
  | 0, ps2, w => (ps2, false, w)
  | passes + 1, ps2, w =>
      let w := sendCommandString bus ps2.readDelay enterConfig w
      let w := bus.busyWait ctrlByteDelay w
      let w := bus.pinSet .cmd true w
      let w := bus.pinSet .clk true w
      let w := bus.pinSet .att false w
      let w := bus.busyWait ctrlByteDelay w
      let temp := shiftAll bus typeRead w
      let w := bus.pinSet .att true temp.2
      let ps2 := { ps2 with controllerType := temp.1.getD 3 0 }
      let w := sendCommandString bus ps2.readDelay setMode w
      let w := if rumble then sendCommandString bus ps2.readDelay enableRumble w else w
      let ps2 := { ps2 with enRumble := ps2.enRumble || rumble }
      let w := if pressures then sendCommandString bus ps2.readDelay setBytesLarge w else w
      let ps2 := { ps2 with enPressures := ps2.enPressures || pressures }
      let w := sendCommandString bus ps2.readDelay exitConfig w
      let read := ps2ReadGamepad bus ps2 false 0 w
      let ps2 := read.1
      if pressures ∧ ps2.data[1] = 0x79 then (ps2, true, read.2.2)
      else if pressures ∧ ps2.data[1] = 0x73 then (ps2, false, read.2.2)
      else if ps2.data[1] = 0x73 then (ps2, true, read.2.2)
      else configure pressures rumble passes { ps2 with readDelay := ps2.readDelay + 1 }
        (bus.sleep 1 read.2.2)

def ps2Init (data : Vector UInt8 21) (pressures rumble : Bool) (w : W) : Ps2 × Bool × W :=
  let ps2 := unread data
  if bus.ready then
    let w := bus.pinSet .cmd true w
    let w := bus.pinSet .clk true w
    let w := bus.pinSet .att true w
    let first := ps2ReadGamepad bus ps2 false 0 w
    let second := ps2ReadGamepad bus first.1 false 0 first.2.2
    let ps2 := second.1
    if ps2.data[1] ≠ 0x41 ∧ ps2.data[1] ≠ 0x42 ∧ ps2.data[1] ≠ 0x73 ∧ ps2.data[1] ≠ 0x79 then
      (ps2, false, second.2.2)
    else configure bus pressures rumble 11 { ps2 with readDelay := 1 } second.2.2
  else (ps2, false, w)

theorem attempts_success (ps2 : Ps2) (dword : List UInt8) (retries : ℕ) (data : Vector UInt8 21)
    (w : W) : (attempts bus ps2 dword (retries + 1) data w).2.1 =
      frameOk (attempts bus ps2 dword (retries + 1) data w).1 := by
  induction retries generalizing data w with
  | zero =>
      unfold attempts
      by_cases hok : frameOk (transaction bus dword data w).1 = true
      · simp only [hok, if_true]
      · simp only [hok, Bool.false_eq_true, if_false, attempts]
  | succ retries ih =>
      rw [attempts]
      by_cases hok : frameOk (transaction bus dword data w).1 = true
      · simp only [hok, if_true]
      · simp only [hok, Bool.false_eq_true, if_false]
        exact ih _ _

theorem ps2ReadGamepad_eq_latch (ps2 : Ps2) (motor1 : Bool) (motor2 : UInt8) (w : W) :
    ∃ lastRead, (ps2ReadGamepad bus ps2 motor1 motor2 w).1 =
        ps2.latch (receive bus ps2 motor1 motor2 w).1 lastRead ∧
      (ps2ReadGamepad bus ps2 motor1 motor2 w).2.1 =
        frameOk (receive bus ps2 motor1 motor2 w).1 :=
  ⟨_, rfl, attempts_success bus ps2 _ 4 _ _⟩

end Bus

/-! ## Buttons and sticks -/

def ps2Button (ps2 : Ps2) (button : UInt16) : Bool := ~~~ps2.buttons &&& button != 0

def ps2NewButtonState (ps2 : Ps2) : Bool := ps2.lastButtons ^^^ ps2.buttons != 0

def ps2NewButtonStateMask (ps2 : Ps2) (button : UInt16) : Bool :=
  (ps2.lastButtons ^^^ ps2.buttons) &&& button != 0

def ps2ButtonPressed (ps2 : Ps2) (button : UInt16) : Bool :=
  ps2NewButtonStateMask ps2 button && ps2Button ps2 button

def ps2ButtonReleased (ps2 : Ps2) (button : UInt16) : Bool :=
  ps2NewButtonStateMask ps2 button && (~~~ps2.lastButtons &&& button != 0)

/-- An index past the end of `data` reads 0. -/
def ps2Analog (ps2 : Ps2) (channel : UInt8) : UInt8 := ps2.data[channel.toNat]?.getD 0

def psbPadUp : UInt16 := 0x0010
def psbPadRight : UInt16 := 0x0020
def psbPadDown : UInt16 := 0x0040
def psbPadLeft : UInt16 := 0x0080

def pssRx : UInt8 := 5
def pssRy : UInt8 := 6
def pssLx : UInt8 := 7
def pssLy : UInt8 := 8

/-! ## A controller to run against -/

/-- A controller that answers every transaction with the same bytes, and 1 bits past their end. -/
def replay : Bus (List UInt8 × ℕ) where
  ready := true
  pinSet pin level w := if pin = .att ∧ level = false then (w.1, 0) else w
  datChk w := ((w.1.getD (w.2 / 8) 0xFF).toNat.testBit (w.2 % 8), (w.1, w.2 + 1))
  busyWait _ w := w
  sleep _ w := w
  uptime w := (0, w)

def restFrame (low : UInt8) : List UInt8 := [0xFF, 0x73, 0x5A, low, 0xFF, 0x80, 0x80, 0x80, 0x80]

def paddedFrame (bytes : List UInt8) : Vector UInt8 21 := storeAt zeroed 0 bytes

end Mecanum.Gamepad
