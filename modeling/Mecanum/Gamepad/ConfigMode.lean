import Mecanum.Foundations.Trace
import Mecanum.Gamepad.Device

/-! # The gamepad outside configuration mode

Every configuration round is one bracket of frames. Around it the controller is outside configuration mode
and every frame in its log was sent in the mode it is meant for, whichever way a call ends.
-/

namespace Mecanum.Gamepad
open Bits Trace
set_option autoImplicit false

/-! ## The passes of `ps2_init` -/

section Passes
variable {W : Type} (bus : Bus W)

/-- What a pass of the configuration loop sends before its read. -/
def configRound (pressures rumble : Bool) (readDelay : UInt8) (w : W) : W :=
  let w := bus.busyWait ctrlByteDelay (sendCommandString bus readDelay enterConfig w)
  let w := bus.pinSet .att false (bus.pinSet .clk true (bus.pinSet .cmd true w))
  let w := bus.pinSet .att true (shiftAll bus typeRead (bus.busyWait ctrlByteDelay w)).2
  let w := sendCommandString bus readDelay setMode w
  let w := if rumble then sendCommandString bus readDelay enableRumble w else w
  let w := if pressures then sendCommandString bus readDelay setBytesLarge w else w
  sendCommandString bus readDelay exitConfig w

theorem configure_succ (pressures rumble : Bool) (passes : ℕ) (ps2 : Ps2) (w : W) :
    ∃ ps2', configure bus pressures rumble (passes + 1) ps2 w =
      let read := ps2ReadGamepad bus ps2' false 0 (configRound bus pressures rumble ps2.readDelay w)
      if pressures ∧ modeByte read.1.data = 0x79 then (read.1, true, read.2.2)
      else if pressures ∧ modeByte read.1.data = 0x73 then (read.1, false, read.2.2)
      else if modeByte read.1.data = 0x73 then (read.1, true, read.2.2)
      else configure bus pressures rumble passes
        { read.1 with readDelay := read.1.readDelay + 1 } (bus.sleep 1 read.2.2) :=
  ⟨_, rfl⟩

theorem ps2Init_ready (hready : bus.ready = true) (data : Vector UInt8 21) (pressures rumble : Bool)
    (w : W) :
    ps2Init bus data pressures rumble w =
      let first := ps2ReadGamepad bus (unread data) false 0
        (bus.pinSet .att true (bus.pinSet .clk true (bus.pinSet .cmd true w)))
      let second := ps2ReadGamepad bus first.1 false 0 first.2.2
      let mode := modeByte second.1.data
      if mode ≠ 0x41 ∧ mode ≠ 0x42 ∧ mode ≠ 0x73 ∧ mode ≠ 0x79 then
        (second.1, false, second.2.2)
      else configure bus pressures rumble 11 { second.1 with readDelay := 1 } second.2.2 := by
  unfold ps2Init
  rw [if_pos hready]
  rfl

end Passes

/-! ## Frames -/

/-- The commands of the configuration frames, which have to be sent in configuration mode. -/
def IsConfigCommand (command : Option UInt8) : Prop :=
  command = some 0x44 ∨ command = some 0x45 ∨ command = some 0x4D ∨ command = some 0x4F

/-- A configuration frame is received in configuration mode and a poll outside it. -/
structure Exchange.Disciplined (e : Exchange) : Prop where
  config : IsConfigCommand e.command → e.config = true
  poll : e.command = some 0x42 → e.config = false

namespace Controller

structure Safe (c : Controller) : Prop where
  outside : c.config = false
  disciplined : ∀ e ∈ c.log, e.Disciplined

/-- The number of type reads, one for each round of the configuration loop. -/
def typeReads (c : Controller) : ℕ := c.log.countP fun e => e.command = some 0x45

def exchanges (c : Controller) (frames : List (List UInt8)) : Controller :=
  frames.foldl exchange c

/-- The last frame is a poll, and the mode byte of its answer is `mode`. -/
def EndsWithPoll (respond : ℕ → ℕ → UInt8) (c : Controller) (mode : UInt8) : Prop :=
  ∃ log e, c.log = log ++ [e] ∧ e.command = some 0x42 ∧ respond log.length 1 = mode

variable {c : Controller}

theorem exchanges_append (frames more : List (List UInt8)) :
    c.exchanges (frames ++ more) = (c.exchanges frames).exchanges more := List.foldl_append

/-- A frame that does not change the mode and is sent in its own mode. -/
theorem disciplined_exchange {sent : List UInt8} (hmode : modeAfter sent c.config = c.config)
    (hlog : ∀ e ∈ c.log, e.Disciplined) (hsent : Exchange.Disciplined ⟨sent, c.config⟩) :
    (c.exchange sent).config = c.config ∧ ∀ e ∈ (c.exchange sent).log, e.Disciplined := by
  refine ⟨hmode, fun e he => ?_⟩
  obtain he | he := List.mem_append.mp he
  · exact hlog e he
  · rw [List.mem_singleton.mp he]
    exact hsent

/-- A configuration frame starts with another command than `01 43`. -/
def IsConfigFrame (sent : List UInt8) : Prop := IsConfigCommand sent[1]?

theorem modeAfter_of_command {sent : List UInt8} (h : sent[1]? ≠ some 0x43) (config : Bool) :
    modeAfter sent config = config := by
  have hne : ∀ x, sent.take 4 ≠ [0x01, 0x43, 0x00, x] := by
    intro x htake
    have hget : (sent.take 4)[1]? = sent[1]? := List.getElem?_take_of_lt (by decide)
    rw [htake] at hget
    exact h hget.symm
  unfold modeAfter
  rw [if_neg (hne 0x01), if_neg (hne 0x00)]

theorem IsConfigFrame.ne_43 {sent : List UInt8} (h : IsConfigFrame sent) :
    sent[1]? ≠ some 0x43 ∧ sent[1]? ≠ some 0x42 := by
  unfold IsConfigFrame IsConfigCommand at h
  obtain h | h | h | h := h <;> rw [h] <;> decide

/-- Configuration frames in configuration mode. -/
theorem exchanges_config {frames : List (List UInt8)} (hconfig : c.config = true)
    (hlog : ∀ e ∈ c.log, e.Disciplined) (hframes : ∀ sent ∈ frames, IsConfigFrame sent) :
    (c.exchanges frames).config = true ∧ ∀ e ∈ (c.exchanges frames).log, e.Disciplined := by
  induction frames generalizing c with
  | nil => exact ⟨hconfig, hlog⟩
  | cons sent frames ih =>
      have hsent := hframes sent List.mem_cons_self
      have hnext := disciplined_exchange (modeAfter_of_command hsent.ne_43.1 c.config) hlog
        ⟨fun _ => hconfig, fun hpoll => absurd hpoll hsent.ne_43.2⟩
      exact ih (hnext.1.trans hconfig) hnext.2 fun s hs => hframes s (List.mem_cons_of_mem sent hs)

/-- A bracket of configuration frames. -/
theorem Safe.bracket (h : c.Safe) {frames : List (List UInt8)}
    (hframes : ∀ sent ∈ frames, IsConfigFrame sent) :
    (c.exchanges ([enterConfig] ++ frames ++ [exitConfig])).Safe := by
  have hcommands : ∀ config, Exchange.Disciplined ⟨enterConfig, config⟩ ∧
      Exchange.Disciplined ⟨exitConfig, config⟩ := by
    have hnot : ¬ IsConfigCommand (some 0x43) := by
      unfold IsConfigCommand
      decide
    intro config
    exact ⟨⟨fun hc => absurd hc hnot, fun hp => by cases hp⟩,
      ⟨fun hc => absurd hc hnot, fun hp => by cases hp⟩⟩
  have henter : ∀ e ∈ (c.exchange enterConfig).log, e.Disciplined := by
    intro e he
    obtain he | he := List.mem_append.mp he
    · exact h.disciplined e he
    · rw [List.mem_singleton.mp he]
      exact (hcommands c.config).1
  obtain ⟨-, hinside⟩ := exchanges_config (c := c.exchange enterConfig) rfl henter hframes
  rw [List.append_assoc, exchanges_append, exchanges_append]
  refine ⟨rfl, fun e he => ?_⟩
  obtain he | he := List.mem_append.mp he
  · exact hinside e he
  · rw [List.mem_singleton.mp he]
    exact (hcommands _).2

theorem typeReads_exchange (sent : List UInt8) :
    (c.exchange sent).typeReads = c.typeReads + if sent[1]? = some 0x45 then 1 else 0 := by
  have hlog : (c.exchange sent).log = c.log ++ [⟨sent, c.config⟩] := rfl
  unfold typeReads
  rw [hlog, List.countP_append]
  by_cases h : sent[1]? = some 0x45 <;> simp [Exchange.command, h]

theorem typeReads_exchanges (frames : List (List UInt8)) :
    (c.exchanges frames).typeReads =
      c.typeReads + frames.countP fun sent => sent[1]? = some 0x45 := by
  induction frames generalizing c with
  | nil => rfl
  | cons sent frames ih =>
      have h := ih (c := c.exchange sent)
      rw [typeReads_exchange] at h
      simp only [exchanges, List.foldl_cons, List.countP_cons, decide_eq_true_eq] at h ⊢
      rw [h]
      omega

end Controller

/-! ## Configuration rounds on the wires -/

namespace Device
variable (world : World) {d e f : Device}

/-- From `d` to `e` the host sends whole frames. -/
structure Sends (d : Device) (frames : List (List UInt8)) (e : Device) : Prop where
  idle : e.Idle
  controller : e.controller = d.controller.exchanges frames

theorem Sends.refl (h : d.Idle) : Sends d [] d := ⟨h, rfl⟩

theorem Sends.trans {frames more : List (List UInt8)} (h : Sends d frames e) (h' : Sends e more f) :
    Sends d (frames ++ more) f := by
  refine ⟨h'.idle, ?_⟩
  rw [h'.controller, h.controller, Controller.exchanges_append]

theorem sendCommandString_sends (h : d.Idle) (readDelay : UInt8) (string : List UInt8) :
    Sends d [string] (sendCommandString (bus world) readDelay string d) :=
  ⟨(sendCommandString_exchanges world h readDelay string).1,
    (sendCommandString_exchanges world h readDelay string).2⟩

theorem sendIf_sends (h : d.Idle) (wanted : Bool) (readDelay : UInt8) (string : List UInt8) :
    Sends d (if wanted then [string] else [])
      (if wanted then sendCommandString (bus world) readDelay string d else d) := by
  cases wanted with
  | false => exact Sends.refl h
  | true => exact sendCommandString_sends world h readDelay string

/-- The frames between type read and exit. -/
def configFrames (rumble pressures : Bool) : List (List UInt8) :=
  [setMode] ++ (if rumble then [enableRumble] else []) ++
    if pressures then [setBytesLarge] else []

theorem configFrames_isConfigFrame (rumble pressures : Bool) :
    ∀ sent ∈ typeRead :: configFrames rumble pressures, Controller.IsConfigFrame sent := by
  unfold Controller.IsConfigFrame IsConfigCommand
  revert rumble pressures
  decide

/-- The end of a round: what `ps2_reconfig` and a pass of `ps2_init` share. -/
theorem configFrames_sends (h : d.Idle) (rumble pressures : Bool) (readDelay : UInt8) :
    let moded := sendCommandString (bus world) readDelay setMode d
    let rumbling :=
      if rumble then sendCommandString (bus world) readDelay enableRumble moded else moded
    let pressing :=
      if pressures then sendCommandString (bus world) readDelay setBytesLarge rumbling else rumbling
    Sends d (configFrames rumble pressures ++ [exitConfig])
      (sendCommandString (bus world) readDelay exitConfig pressing) := by
  have hmode := sendCommandString_sends world h readDelay setMode
  have hrumble := sendIf_sends world hmode.idle rumble readDelay enableRumble
  have hbytes := sendIf_sends world hrumble.idle pressures readDelay setBytesLarge
  have hexit := sendCommandString_sends world hbytes.idle readDelay exitConfig
  exact ((hmode.trans hrumble).trans hbytes).trans hexit

theorem ps2Reconfig_sends (h : d.Idle) (ps2 : Ps2) :
    Sends d ([enterConfig] ++ configFrames ps2.enRumble ps2.enPressures ++ [exitConfig])
      (ps2Reconfig (bus world) ps2 d) := by
  have henter := sendCommandString_sends world h ps2.readDelay enterConfig
  rw [List.append_assoc]
  exact henter.trans
    (configFrames_sends world henter.idle ps2.enRumble ps2.enPressures ps2.readDelay)

/-- The transaction of `ps2_init` that reads the controller's type. -/
theorem typeRead_sends (h : d.Idle) :
    Sends d [typeRead] (setPin world .att true
      (shiftAll (bus world) typeRead
        (setPin world .att false (setPin world .clk true (setPin world .cmd true d)))).2) := by
  obtain ⟨-, htakes⟩ := firstBytes world (d := d) (rfl : typeRead.length = 9)
  rw [opened_eq world h.1]
  exact ⟨(htakes.rise world rfl).1, (htakes.rise world rfl).2.2⟩

/-! ## At rest -/

/-- Between two calls, after at most `n` type reads. -/
structure Resting (d : Device) (n : ℕ) : Prop where
  idle : d.Idle
  safe : d.controller.Safe
  typeReads : d.controller.typeReads ≤ n

theorem Resting.mono {n m : ℕ} (h : d.Resting n) (hle : n ≤ m) : d.Resting m :=
  ⟨h.idle, h.safe, h.typeReads.trans hle⟩

/-- A bracket of configuration frames leaves the device at rest. -/
theorem Resting.bracket {n : ℕ} (h : d.Resting n) {frames : List (List UInt8)}
    (hframes : ∀ sent ∈ frames, Controller.IsConfigFrame sent)
    (hsends : Sends d ([enterConfig] ++ frames ++ [exitConfig]) e) :
    e.Resting (n + frames.countP fun sent => sent[1]? = some 0x45) := by
  refine ⟨hsends.idle, ?_, ?_⟩
  · rw [hsends.controller]
    exact h.safe.bracket hframes
  · have hcount : ([enterConfig] ++ frames ++ [exitConfig]).countP
        (fun sent => sent[1]? = some 0x45) = frames.countP fun sent => sent[1]? = some 0x45 := by
      rw [List.countP_append, List.countP_append]
      exact Nat.zero_add _
    rw [hsends.controller, Controller.typeReads_exchanges, hcount]
    exact Nat.add_le_add_right h.typeReads _

theorem countP_configFrames (rumble pressures : Bool) :
    (configFrames rumble pressures).countP (fun sent => sent[1]? = some 0x45) = 0 := by
  revert rumble pressures
  decide

theorem ps2Reconfig_resting {n : ℕ} (h : d.Resting n) (ps2 : Ps2) :
    (ps2Reconfig (bus world) ps2 d).Resting n := by
  have hrest := h.bracket (fun sent hs => configFrames_isConfigFrame ps2.enRumble ps2.enPressures
    sent (List.mem_cons_of_mem typeRead hs)) (ps2Reconfig_sends world h.idle ps2)
  rw [countP_configFrames] at hrest
  exact hrest

/-! ## Polls -/

theorem length_readCommand (motor1 : Bool) (motor2 : UInt8) :
    (readCommand motor1 motor2).length = 9 := rfl

theorem readCommand_command (motor1 : Bool) (motor2 : UInt8) (more : List UInt8) :
    (readCommand motor1 motor2 ++ more)[1]? = some 0x42 := rfl

/-- An attempt keeps the device at rest, and the byte that the reader tests is the answer's. -/
theorem transaction_resting {n : ℕ} (h : d.Resting n) (motor1 : Bool) (motor2 : UInt8)
    (data : Vector UInt8 21) :
    (transaction (bus world) (readCommand motor1 motor2) data d).2.Resting n ∧
      (transaction (bus world) (readCommand motor1 motor2) data d).2.controller.EndsWithPoll
        world.respond
          (modeByte (transaction (bus world) (readCommand motor1 motor2) data d).1) := by
  obtain ⟨hidle, -, hcontroller, hdata⟩ := transaction_exchanges world h.idle.1
    (length_readCommand motor1 motor2) data
  have hcommand := readCommand_command motor1 motor2 (d.more world)
  have hmode : modeAfter (readCommand motor1 motor2 ++ d.more world) d.controller.config =
      d.controller.config := by
    refine Controller.modeAfter_of_command ?_ d.controller.config
    rw [hcommand]
    decide
  have hpoll : Exchange.Disciplined ⟨readCommand motor1 motor2 ++ d.more world, d.controller.config⟩ := by
    refine ⟨fun hconfig => ?_, fun _ => h.safe.outside⟩
    unfold IsConfigCommand Exchange.command at hconfig
    rw [hcommand] at hconfig
    exact absurd hconfig (by decide)
  obtain ⟨houtside, hlog⟩ := Controller.disciplined_exchange hmode h.safe.disciplined hpoll
  constructor
  · refine ⟨hidle, ?_, ?_⟩
    · rw [hcontroller]
      exact ⟨houtside.trans h.safe.outside, hlog⟩
    · rw [hcontroller, Controller.typeReads_exchange, hcommand]
      exact h.typeReads
  · unfold modeByte
    rw [hcontroller, hdata 1 (by decide)]
    exact ⟨d.controller.log, _, rfl, hcommand, rfl⟩

/-- The retries keep the device at rest. A good frame is the last one. -/
theorem attempts_resting {n : ℕ} (h : d.Resting n) (ps2 : Ps2) (motor1 : Bool) (motor2 : UInt8)
    (retries : ℕ) (data : Vector UInt8 21) :
    (attempts (bus world) ps2 (readCommand motor1 motor2) retries data d).2.2.Resting n ∧
      ((attempts (bus world) ps2 (readCommand motor1 motor2) retries data d).2.1 = true →
        (attempts (bus world) ps2 (readCommand motor1 motor2) retries data d).2.2.controller.EndsWithPoll
          world.respond
            (modeByte (attempts (bus world) ps2 (readCommand motor1 motor2) retries data d).1)) := by
  induction retries generalizing d data with
  | zero => exact ⟨h, fun hgood => by cases hgood⟩
  | succ retries ih =>
      obtain ⟨hrest, hpoll⟩ := transaction_resting world h motor1 motor2 data
      unfold attempts
      by_cases hok : frameOk (transaction (bus world) (readCommand motor1 motor2) data d).1
      · simp only [if_pos hok]
        exact ⟨hrest, fun _ => hpoll⟩
      · simp only [if_neg hok, bus_sleep]
        exact ih (ps2Reconfig_resting world hrest ps2) _

/-- The device once the host has read its clock. -/
def clocked (d : Device) : Device := { d with clockReads := d.clockReads + 1 }

theorem settle_eq (ps2 : Ps2) : settle (bus world) ps2 d =
    if world.times d.clockReads - ps2.lastRead > 1500 then ps2Reconfig (bus world) ps2 d.clocked
    else d.clocked := by
  unfold settle
  simp only [bus_sleep, ite_self]
  rfl

theorem settle_resting {n : ℕ} (h : d.Resting n) (ps2 : Ps2) :
    (settle (bus world) ps2 d).Resting n := by
  have hclocked : d.clocked.Resting n := ⟨h.idle, h.safe, h.typeReads⟩
  rw [settle_eq]
  split
  · exact ps2Reconfig_resting world hclocked ps2
  · exact hclocked

/-- A read keeps the device at rest, and a good mode byte is that of the last poll. -/
theorem ps2ReadGamepad_resting {n : ℕ} (h : d.Resting n) (ps2 : Ps2) (motor1 : Bool) (motor2 : UInt8) :
    (ps2ReadGamepad (bus world) ps2 motor1 motor2 d).2.2.Resting n ∧
      (frameOk (ps2ReadGamepad (bus world) ps2 motor1 motor2 d).1.data = true →
        (ps2ReadGamepad (bus world) ps2 motor1 motor2 d).2.2.controller.EndsWithPoll
          world.respond (modeByte (ps2ReadGamepad (bus world) ps2 motor1 motor2 d).1.data)) := by
  obtain ⟨hrest, hpoll⟩ := attempts_resting world (settle_resting world h ps2) ps2 motor1 motor2 5
    ps2.data
  refine ⟨⟨hrest.idle, hrest.safe, hrest.typeReads⟩, fun hok => hpoll ?_⟩
  rw [attempts_success]
  exact hok

/-! ## `ps2_init` -/

theorem frameOk_of_mode {data : Vector UInt8 21} (h : modeByte data = 0x79 ∨ modeByte data = 0x73) :
    frameOk data = true := by
  unfold modeByte at h
  unfold frameOk
  obtain h | h := h <;> rw [h] <;> rfl

theorem countP_round (rumble pressures : Bool) :
    (typeRead :: configFrames rumble pressures).countP (fun sent => sent[1]? = some 0x45) = 1 := by
  revert rumble pressures
  decide

/-- A round leaves the device at rest, one type read later. -/
theorem configRound_resting {n : ℕ} (h : d.Resting n) (pressures rumble : Bool) (readDelay : UInt8) :
    (configRound (bus world) pressures rumble readDelay d).Resting (n + 1) := by
  have henter := sendCommandString_sends world h.idle readDelay enterConfig
  have htype := typeRead_sends world henter.idle
  have hrest := configFrames_sends world htype.idle rumble pressures readDelay
  have hround := h.bracket (configFrames_isConfigFrame rumble pressures)
    (henter.trans (htype.trans hrest))
  rw [countP_round] at hround
  unfold configRound
  simp only [bus_pinSet, bus_busyWait]
  exact hround

theorem configure_resting {n : ℕ} (h : d.Resting n) (pressures rumble : Bool) (passes : ℕ) (ps2 : Ps2) :
    (configure (bus world) pressures rumble passes ps2 d).2.2.Resting (n + passes) ∧
      ((configure (bus world) pressures rumble passes ps2 d).2.1 = true →
        (configure (bus world) pressures rumble passes ps2 d).2.2.controller.EndsWithPoll
          world.respond (if pressures then 0x79 else 0x73)) := by
  induction passes generalizing n d ps2 with
  | zero => exact ⟨h, fun hdone => by cases hdone⟩
  | succ passes ih =>
      obtain ⟨ps2', hpass⟩ := configure_succ (bus world) pressures rumble passes ps2 d
      have hround := configRound_resting world h pressures rumble ps2.readDelay
      obtain ⟨hread, hpoll⟩ := ps2ReadGamepad_resting world hround ps2' false 0
      have hlast := hread.mono (Nat.add_le_add_left (Nat.le_add_left 1 passes) n)
      rw [hpass]
      dsimp only
      split
      · next hmode =>
          rw [if_pos hmode.1, ← hmode.2]
          exact ⟨hlast, fun _ => hpoll (frameOk_of_mode (Or.inl hmode.2))⟩
      · split
        · exact ⟨hlast, fun hdone => by cases hdone⟩
        · next hno =>
            split
            · next hmode =>
                have hplain : ¬ pressures = true := fun hp => hno ⟨hp, hmode⟩
                rw [if_neg hplain, ← hmode]
                exact ⟨hlast, fun _ => hpoll (frameOk_of_mode (Or.inr hmode))⟩
            · rw [bus_sleep, Nat.add_comm passes 1, ← Nat.add_assoc]
              exact ih hread _

/-- Before `ps2_init`: any levels on the lines, and the controller outside configuration mode. -/
def powered (clk cmd att dat : Bool) : Device where
  clk := clk
  cmd := cmd
  att := att
  dat := dat
  driven := 0
  latched := []
  controller := ⟨false, []⟩
  clockReads := 0

theorem powered_resting (clk cmd att dat : Bool) :
    (setPin world .att true (setPin world .clk true (setPin world .cmd true
      (powered clk cmd att dat)))).Resting 0 := by
  cases att with
  | true => exact ⟨⟨rfl, rfl⟩, ⟨rfl, fun e he => by cases he⟩, Nat.le_refl 0⟩
  | false =>
      have hempty : Exchange.Disciplined ⟨[], false⟩ :=
        ⟨fun hconfig => by simp [IsConfigCommand, Exchange.command] at hconfig, fun _ => rfl⟩
      have hlog : ∀ e ∈ [Exchange.mk [] false], e.Disciplined := by
        intro e he
        rw [List.mem_singleton.mp he]
        exact hempty
      cases clk <;> exact ⟨⟨rfl, rfl⟩, ⟨rfl, hlog⟩, Nat.le_refl 0⟩

/-- Whichever way `ps2_init` returns. -/
theorem ps2Init_resting (clk cmd att dat : Bool) (data : Vector UInt8 21) (pressures rumble : Bool) :
    (ps2Init (bus world) data pressures rumble (powered clk cmd att dat)).2.2.Resting 11 ∧
      ((ps2Init (bus world) data pressures rumble (powered clk cmd att dat)).2.1 = true →
        (ps2Init (bus world) data pressures rumble
          (powered clk cmd att dat)).2.2.controller.EndsWithPoll
            world.respond (if pressures then 0x79 else 0x73)) := by
  have hinit := ps2Init_ready (bus world) rfl data pressures rumble (powered clk cmd att dat)
  have hpins := powered_resting world clk cmd att dat
  obtain ⟨hfirst, -⟩ := ps2ReadGamepad_resting world hpins (unread data) false 0
  obtain ⟨hsecond, -⟩ := ps2ReadGamepad_resting world hfirst
    (ps2ReadGamepad (bus world) (unread data) false 0 _).1 false 0
  rw [hinit]
  dsimp only [bus_pinSet]
  split
  · exact ⟨hsecond.mono (Nat.zero_le 11), fun hdone => by cases hdone⟩
  · exact configure_resting world hsecond pressures rumble 11 _

end Device

/-! ## Sequences of calls -/

/-- The gamepad record and the device. -/
structure Link where
  ps2 : Ps2
  device : Device

inductive LinkCall
  | reconfig
  | read (motor1 : Bool) (motor2 : UInt8)

def Link.step (world : World) (s : Link) : LinkCall → Link
  | .reconfig => { s with device := ps2Reconfig (Device.bus world) s.ps2 s.device }
  | .read motor1 motor2 =>
      let read := ps2ReadGamepad (Device.bus world) s.ps2 motor1 motor2 s.device
      ⟨read.1, read.2.2⟩

/-- `ATT` is high, and the controller is outside configuration mode with a disciplined log. -/
def Device.Released (d : Device) : Prop := d.att = true ∧ d.controller.Safe

theorem Link.step_resting (world : World) (s : Link) (call : LinkCall) {n : ℕ}
    (h : s.device.Resting n) : (s.step world call).device.Resting n := by
  cases call with
  | reconfig =>
      simp only [Link.step]
      exact Device.ps2Reconfig_resting world h s.ps2
  | read motor1 motor2 =>
      simp only [Link.step]
      exact (Device.ps2ReadGamepad_resting world h s.ps2 motor1 motor2).1

/-- The gamepad is never left in configuration mode, whatever it answers and whatever the clock shows:
not by `ps2_init`, and not by any calls after it. -/
theorem never_left_in_config (world : World) (clk cmd att dat : Bool) (data : Vector UInt8 21)
    (pressures rumble : Bool) (calls : List LinkCall) :
    let init := ps2Init (Device.bus world) data pressures rumble (Device.powered clk cmd att dat)
    init.2.2.Released ∧ init.2.2.controller.typeReads ≤ 11 ∧
      (init.2.1 = true →
        init.2.2.controller.EndsWithPoll world.respond (if pressures then 0x79 else 0x73)) ∧
      Always (Link.step world) (fun _ _ t => t.device.Released) ⟨init.1, init.2.2⟩ calls := by
  obtain ⟨hrest, hdone⟩ := Device.ps2Init_resting world clk cmd att dat data pressures rumble
  refine ⟨⟨hrest.idle.1, hrest.safe⟩, hrest.typeReads, hdone, ?_⟩
  refine Always.of_invariant (I := fun s => s.device.Resting 11) ?_ ?_ calls hrest
  · intro s call h
    have hnext := Link.step_resting world s call h
    exact ⟨hnext.idle.1, hnext.safe⟩
  · intro s call h
    exact Link.step_resting world s call h

end Mecanum.Gamepad
