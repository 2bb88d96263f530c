import Mecanum.Gamepad.Recording
import Mecanum.Gamepad.Recovery

/-! # A pad that follows its commands

`Pad` is a pad with a mode: `set_mode` makes it analog and `set_bytes_large` switches its pressures on, if
it has any. Of its answers only the mode byte of a poll is fixed. Such a pad is configured by the first pass
of `ps2_init`, from whatever mode it is in, and every later read takes one poll.
-/

namespace Mecanum.Gamepad
open Trace
set_option autoImplicit false

inductive PadMode
  | digital
  | analog
  | pressures
  deriving DecidableEq

/-- The byte that names the mode. -/
def PadMode.byte : PadMode → UInt8
  | .digital => 0x41
  | .analog => 0x73
  | .pressures => 0x79

/-- The mode it starts in, and whether it measures how hard its buttons are pressed. -/
structure Pad where
  start : PadMode
  hasPressures : Bool

/-- The frames of a configuration round: of `ps2_reconfig`, or of a pass of `ps2_init`, which also reads
the type. -/
def roundFrames (typed rumble wanted : Bool) : List (List UInt8) :=
  [enterConfig] ++ (if typed then [typeRead] else []) ++ Device.configFrames rumble wanted ++ [exitConfig]

theorem polls_round (config typed rumble wanted : Bool) :
    polls (received config (roundFrames typed rumble wanted)) = 0 := by
  revert config typed rumble wanted
  decide

namespace Pad

/-- Both commands are followed in configuration mode only. -/
def follow (pad : Pad) (mode : PadMode) (e : Exchange) : PadMode :=
  if e = ⟨setMode, true⟩ then .analog
  else if e = ⟨setBytesLarge, true⟩ ∧ pad.hasPressures ∧ mode ≠ .digital then .pressures
  else mode

def mode (pad : Pad) (log : List Exchange) : PadMode := log.foldl pad.follow pad.start

/-- Polls are answered with the byte of the mode. -/
def Answers (pad : Pad) (world : World) (log : List Exchange) : Prop :=
  ∀ k, (hk : k < log.length) → log[k].command = some 0x42 → log[k].config = false →
    world.respond k 1 = (pad.mode (log.take k)).byte

/-- The mode that a configuration round leaves the pad in. -/
def configured (pad : Pad) (wanted : Bool) : PadMode :=
  if wanted && pad.hasPressures then .pressures else .analog

variable (pad : Pad) {world : World} {log more : List Exchange}

theorem mode_append (log more : List Exchange) :
    pad.mode (log ++ more) = more.foldl pad.follow (pad.mode log) := List.foldl_append

theorem configured_ne_digital (wanted : Bool) : pad.configured wanted ≠ .digital := by
  unfold configured
  split <;> decide

/-- A poll does not change the mode. -/
theorem mode_poll {e : Exchange} (h : e.command = some 0x42) : pad.mode (log ++ [e]) = pad.mode log := by
  have hmode : e ≠ ⟨setMode, true⟩ := by
    rintro rfl
    exact absurd h (by decide)
  have hlarge : e ≠ ⟨setBytesLarge, true⟩ := by
    rintro rfl
    exact absurd h (by decide)
  simp [mode, follow, hmode, hlarge]

/-- Whatever the mode was, a configuration round sets it. -/
theorem mode_round (log : List Exchange) (config typed rumble wanted : Bool) :
    pad.mode (log ++ received config (roundFrames typed rumble wanted)) = pad.configured wanted := by
  have hround : ∀ (has config typed rumble wanted : Bool) (mode : PadMode),
      (received config (roundFrames typed rumble wanted)).foldl (follow ⟨.digital, has⟩) mode =
        configured ⟨.digital, has⟩ wanted := by
    intro has config typed rumble wanted mode
    cases mode <;> revert has config typed rumble wanted <;> decide
  rw [mode_append]
  exact hround pad.hasPressures config typed rumble wanted (pad.mode log)

theorem Answers.of_append (h : pad.Answers world (log ++ more)) : pad.Answers world log := by
  intro k hk hpoll houtside
  have hk' : k < (log ++ more).length := by
    rw [List.length_append]
    omega
  have hget : (log ++ more)[k] = log[k] := List.getElem_append_left hk
  have hanswer := h k hk' (by rwa [hget]) (by rwa [hget])
  rwa [List.take_append_of_le_length hk.le] at hanswer

/-- The answer to the last poll. -/
theorem Answers.last {e : Exchange} (h : pad.Answers world (log ++ [e])) (hpoll : e.command = some 0x42)
    (houtside : e.config = false) : world.respond log.length 1 = (pad.mode log).byte := by
  have hlast : log.length < (log ++ [e]).length := by simp
  have hget : (log ++ [e])[log.length] = e := List.getElem_concat_length rfl hlast
  have hanswer := h log.length hlast (by rwa [hget]) (by rwa [hget])
  rwa [List.take_left'] at hanswer
  rfl

end Pad

/-! ## Reads -/

theorem PadMode.analog_iff (mode : PadMode) : mode.byte.toNat / 16 = 7 ↔ mode ≠ .digital := by
  cases mode <;> decide

namespace Device
variable (world : World) (pad : Pad) {d e f : Device}

/-- The pad's mode on the wires. -/
def mode (d : Device) : PadMode := pad.mode d.controller.log

theorem ps2Reconfig_mode {n : ℕ} (h : d.Resting n) (ps2 : Ps2) : ∃ new,
    Receives d new (ps2Reconfig (bus world) ps2 d) ∧ polls new = 0 ∧
      (ps2Reconfig (bus world) ps2 d).mode pad = pad.configured ps2.enPressures := by
  obtain ⟨hidle, hcontroller⟩ := ps2Reconfig_sends world h.idle ps2
  have hlog : (ps2Reconfig (bus world) ps2 d).controller.log = d.controller.log ++
      received d.controller.config (roundFrames false ps2.enRumble ps2.enPressures) := by
    rw [hcontroller, Controller.log_exchanges]
    rfl
  refine ⟨_, ⟨hidle, hlog⟩, polls_round _ _ _ _, ?_⟩
  rw [mode, hlog]
  exact pad.mode_round d.controller.log _ false ps2.enRumble ps2.enPressures

theorem settle_mode {n : ℕ} (h : d.Resting n) (ps2 : Ps2) : ∃ new,
    Receives d new (settle (bus world) ps2 d) ∧ polls new = 0 ∧
      ((settle (bus world) ps2 d).mode pad = d.mode pad ∨
        (settle (bus world) ps2 d).mode pad = pad.configured ps2.enPressures) := by
  have hclocked : d.clocked.Resting n := ⟨h.idle, h.safe, h.typeReads⟩
  rw [settle_eq]
  split
  · obtain ⟨new, hreceives, hpolls, hmode⟩ := ps2Reconfig_mode world pad hclocked ps2
    exact ⟨new, ⟨hreceives.idle, hreceives.log⟩, hpolls, .inr hmode⟩
  · exact ⟨[], ⟨h.idle, (List.append_nil _).symm⟩, rfl, .inl rfl⟩

/-- An attempt is one poll, and succeeds on a pad that is not in digital mode. -/
theorem transaction_mode {n : ℕ} (h : d.Resting n) (motor1 : Bool) (motor2 : UInt8)
    (data : Vector UInt8 21) :
    let after := transaction (bus world) (readCommand motor1 motor2) data d
    ∃ poll, Receives d [poll] after.2 ∧ polls [poll] = 1 ∧ after.2.mode pad = d.mode pad ∧
      (∀ j (hj : j < 21), j < 9 → after.1[j] = world.respond d.controller.log.length j) ∧
      (pad.Answers world after.2.controller.log →
        (frameOk after.1 = true ↔ d.mode pad ≠ .digital) ∧ modeByte after.1 = (d.mode pad).byte) := by
  obtain ⟨poll, hpoll, hcommand, hconfig, -, hok, hdata⟩ :=
    transaction_receives world h.idle motor1 motor2 data
  refine ⟨poll, hpoll, polls_poll hcommand, ?_, hdata, fun hanswers => ?_⟩
  · rw [mode, hpoll.log, pad.mode_poll hcommand]
    rfl
  · rw [hpoll.log] at hanswers
    have hanswer := hanswers.last pad hcommand (hconfig.trans h.safe.outside)
    constructor
    · rw [hok, AnswersAnalog, hanswer]
      exact PadMode.analog_iff (d.mode pad)
    · rw [modeByte, hdata 1 (by decide) (by decide)]
      exact hanswer

/-- What a read ends with: one good poll, with the answer to it. -/
structure Answered (mode : PadMode) (data : Vector UInt8 21) (success : Bool) (e : Device) : Prop where
  success : success = true
  leaves : e.mode pad = mode
  byte : modeByte data = mode.byte
  data : ∀ j (hj : j < 21), j < 9 → data[j] = world.respond (e.controller.log.length - 1) j

/-- The attempts on a pad that is not in digital mode. -/
theorem attempts_analog {n : ℕ} (h : d.Resting n) (hmode : d.mode pad ≠ .digital) (ps2 : Ps2)
    (motor1 : Bool) (motor2 : UInt8) (retries : ℕ) (data : Vector UInt8 21) :
    let got := attempts (bus world) ps2 (readCommand motor1 motor2) (retries + 1) data d
    ∃ new, Receives d new got.2.2 ∧ (pad.Answers world got.2.2.controller.log →
      polls new = 1 ∧ Answered world pad (d.mode pad) got.1 got.2.1 got.2.2) := by
  obtain ⟨poll, hpoll, hone, hsame, hdata, hanswer⟩ :=
    transaction_mode world pad h motor1 motor2 data
  rw [attempts_succ]
  by_cases hgood : frameOk (transaction (bus world) (readCommand motor1 motor2) data d).1 = true
  · rw [if_pos hgood]
    dsimp only
    refine ⟨_, hpoll, fun hanswers => ⟨hone, rfl, hsame, (hanswer hanswers).2, ?_⟩⟩
    rw [hpoll.log, List.length_append, List.length_singleton, Nat.add_sub_cancel]
    exact hdata
  · obtain ⟨new, hreconfig, -⟩ := ps2Reconfig_receives world hpoll.idle ps2
    obtain ⟨more, hmore⟩ := attempts_receives world hreconfig.idle ps2 motor1 motor2 retries
      (transaction (bus world) (readCommand motor1 motor2) data d).1
    have hrest := hreconfig.trans hmore
    rw [if_neg hgood]
    refine ⟨_, hpoll.trans hrest, fun hanswers => ?_⟩
    rw [hrest.log] at hanswers
    exact absurd ((hanswer hanswers.of_append).1.mpr hmode) hgood

/-- A read takes at most two polls, and one if the pad is not in digital mode. The mode it leaves is the one
it found or the configured one. -/
theorem receive_answered {n : ℕ} (h : d.Resting n) (ps2 : Ps2) (motor1 : Bool) (motor2 : UInt8) :
    let got := receive (bus world) ps2 motor1 motor2 d
    ∃ new, Receives d new got.2.2 ∧ (pad.Answers world got.2.2.controller.log →
      ∃ mode, Answered world pad mode got.1 got.2.1 got.2.2 ∧ mode ≠ .digital ∧ polls new ≤ 2 ∧
        (d.mode pad ≠ .digital → polls new = 1) ∧
        (mode = d.mode pad ∨ mode = pad.configured ps2.enPressures)) := by
  have hrest := settle_resting world h ps2
  obtain ⟨new, hsettle, hquiet, hmode⟩ := settle_mode world pad h ps2
  unfold receive
  generalize settle (bus world) ps2 d = e at hsettle hmode hrest ⊢
  by_cases hdigital : e.mode pad = .digital
  · obtain ⟨poll, hpoll, hone, -, -, hanswer⟩ :=
      transaction_mode world pad hrest motor1 motor2 ps2.data
    have hpolled := (transaction_resting world hrest motor1 motor2 ps2.data).1
    rw [attempts_succ]
    by_cases hgood : frameOk (transaction (bus world) (readCommand motor1 motor2) ps2.data e).1 = true
    · rw [if_pos hgood]
      dsimp only
      exact ⟨_, hsettle.trans hpoll, fun hanswers =>
        absurd hdigital ((hanswer hanswers).1.mp hgood)⟩
    · rw [if_neg hgood]
      obtain ⟨new', hreconfig, hquiet', hset⟩ := ps2Reconfig_mode world pad hpolled ps2
      have hanalog := pad.configured_ne_digital ps2.enPressures
      obtain ⟨new'', hlast, hanswered⟩ := attempts_analog world pad
        (ps2Reconfig_resting world hpolled ps2) (hset ▸ hanalog) ps2 motor1 motor2 3
        (transaction (bus world) (readCommand motor1 motor2) ps2.data e).1
      refine ⟨_, ((hsettle.trans hpoll).trans hreconfig).trans hlast, fun hanswers => ?_⟩
      obtain ⟨hone', hdone⟩ := hanswered hanswers
      have htotal : polls (new ++ [poll] ++ new' ++ new'') = 2 := by
        simp only [polls_append, hquiet, hone, hquiet', hone']
      refine ⟨_, hset ▸ hdone, hanalog, by omega, fun hfound => ?_, .inr rfl⟩
      obtain hmode | hmode := hmode
      · exact absurd (hmode.symm.trans hdigital) hfound
      · exact absurd (hmode.symm.trans hdigital) hanalog
  · obtain ⟨new', hlast, hanswered⟩ :=
      attempts_analog world pad hrest hdigital ps2 motor1 motor2 4 ps2.data
    refine ⟨_, hsettle.trans hlast, fun hanswers => ?_⟩
    obtain ⟨hone, hdone⟩ := hanswered hanswers
    have htotal : polls (new ++ new') = 1 := by rw [polls_append, hquiet, hone]
    exact ⟨_, hdone, hdigital, by omega, fun _ => htotal, hmode⟩

/-- The record keeps its settings, and the device only notes more frames. -/
theorem ps2ReadGamepad_answered {n : ℕ} (h : d.Resting n) (ps2 : Ps2) (motor1 : Bool) (motor2 : UInt8) :
    let read := ps2ReadGamepad (bus world) ps2 motor1 motor2 d
    (∃ lastRead, read.1 = ps2.latch read.1.data lastRead) ∧
    ∃ new, Receives d new read.2.2 ∧ (pad.Answers world read.2.2.controller.log →
      ∃ mode, Answered world pad mode read.1.data read.2.1 read.2.2 ∧ mode ≠ .digital ∧
        polls new ≤ 2 ∧ (d.mode pad ≠ .digital → polls new = 1) ∧
        (mode = d.mode pad ∨ mode = pad.configured ps2.enPressures)) := by
  obtain ⟨new, hreceives, hanswered⟩ := receive_answered world pad h ps2 motor1 motor2
  refine ⟨⟨_, rfl⟩, new, ⟨hreceives.idle, hreceives.log⟩, fun hanswers => ?_⟩
  obtain ⟨mode, hdone, hrest⟩ := hanswered hanswers
  exact ⟨mode, ⟨hdone.success, hdone.leaves, hdone.byte, hdone.data⟩, hrest⟩

/-! ## `ps2_init` -/

theorem Sends.receives {frames : List (List UInt8)} (h : Sends d frames e) :
    Receives d (received d.controller.config frames) e :=
  ⟨h.idle, by rw [h.controller, Controller.log_exchanges]⟩

theorem configRound_receives (h : d.Idle) (wanted rumble : Bool) (readDelay : UInt8) :
    Receives d (received d.controller.config (roundFrames true rumble wanted))
      (configRound (bus world) wanted rumble readDelay d) := by
  have henter := sendCommandString_sends world h readDelay enterConfig
  have htype := typeRead_sends world henter.idle
  have hrest := configFrames_sends world htype.idle rumble wanted readDelay
  have hround := ((henter.trans htype).trans hrest).receives
  rw [← List.append_assoc] at hround
  unfold configRound roundFrames
  simp only [bus_pinSet, bus_busyWait]
  exact hround

theorem typed_controllerType (h : d.Idle) (wanted rumble : Bool) (ps2 : Ps2) :
    (typed (bus world) wanted rumble ps2 d).controllerType =
      world.respond (d.controller.log.length + 1) 3 := by
  have henter := (sendCommandString_sends world h ps2.readDelay enterConfig).receives
  have hbytes := (firstBytes world (d := sendCommandString (bus world) ps2.readDelay enterConfig d)
    (rfl : typeRead.length = 9)).1
  have hnumber := congrArg List.length henter.log
  rw [List.length_append] at hnumber
  unfold typed
  simp only [bus_pinSet, bus_busyWait, opened_eq world henter.idle.1, hbytes]
  change answer world _ 3 = _
  rw [answer, hnumber]
  rfl

theorem ps2ReadGamepad_receives (h : d.Idle) (ps2 : Ps2) (motor1 : Bool) (motor2 : UInt8) :
    ∃ new, Receives d new (ps2ReadGamepad (bus world) ps2 motor1 motor2 d).2.2 := by
  obtain ⟨new, hsettle, -⟩ := settle_receives world h ps2
  obtain ⟨more, hlast⟩ :=
    attempts_receives world hsettle.idle ps2 motor1 motor2 5 ps2.data
  have hread := hsettle.trans hlast
  exact ⟨_, hread.idle, hread.log⟩

theorem configure_receives (h : d.Idle) (wanted rumble : Bool) (passes : ℕ) (ps2 : Ps2) :
    ∃ new, Receives d new (configure (bus world) wanted rumble passes ps2 d).2.2 := by
  induction passes generalizing d ps2 with
  | zero => exact ⟨[], h, (List.append_nil _).symm⟩
  | succ passes ih =>
      have hround := configRound_receives world h wanted rumble ps2.readDelay
      obtain ⟨new, hread⟩ := ps2ReadGamepad_receives world hround.idle
        (typed (bus world) wanted rumble ps2 d) false 0
      have hboth := hround.trans hread
      rw [configure_succ_typed]
      dsimp only
      split
      · exact ⟨_, hboth⟩
      · split
        · exact ⟨_, hboth⟩
        · split
          · exact ⟨_, hboth⟩
          · obtain ⟨more, hmore⟩ := ih hread.idle _
            exact ⟨_, hboth.trans hmore⟩

theorem configRound_mode (h : d.Idle) (wanted rumble : Bool) (readDelay : UInt8) :
    (configRound (bus world) wanted rumble readDelay d).mode pad = pad.configured wanted := by
  rw [mode, (configRound_receives world h wanted rumble readDelay).log]
  exact pad.mode_round d.controller.log _ true rumble wanted

/-- The first pass of the loop is the last one, and tells whether the pad has what is wanted. -/
theorem configure_first {n : ℕ} (h : d.Resting n) (wanted rumble : Bool) (passes : ℕ) (ps2 : Ps2)
    (hplain : ps2.enPressures = false) :
    let done := configure (bus world) wanted rumble (passes + 1) ps2 d
    let read := ps2ReadGamepad (bus world) (typed (bus world) wanted rumble ps2 d) false 0
      (configRound (bus world) wanted rumble ps2.readDelay d)
    pad.Answers world done.2.2.controller.log →
      done = (read.1, !wanted || pad.hasPressures, read.2.2) ∧
      polls read.2.2.controller.log = polls d.controller.log + 1 ∧
      Answered world pad (pad.configured wanted) read.1.data read.2.1 read.2.2 := by
  have hround := configRound_receives world h.idle wanted rumble ps2.readDelay
  have hrest := configRound_resting world h wanted rumble ps2.readDelay
  have hmode := configRound_mode world pad h.idle wanted rumble ps2.readDelay
  obtain ⟨-, new, hread, hanswered⟩ := ps2ReadGamepad_answered world pad hrest
    (typed (bus world) wanted rumble ps2 d) false 0
  intro done read hanswers
  have hpass : done =
      if wanted ∧ modeByte read.1.data = 0x79 then (read.1, true, read.2.2)
      else if wanted ∧ modeByte read.1.data = 0x73 then (read.1, false, read.2.2)
      else if modeByte read.1.data = 0x73 then (read.1, true, read.2.2)
      else configure (bus world) wanted rumble passes
        { read.1 with readDelay := read.1.readDelay + 1 } read.2.2 :=
    configure_succ_typed (bus world) wanted rumble passes ps2 d
  have hextends : ∃ more, Receives read.2.2 more done.2.2 := by
    have hrefl : Receives read.2.2 [] read.2.2 := ⟨hread.idle, (List.append_nil _).symm⟩
    rw [hpass]
    split
    · exact ⟨_, hrefl⟩
    · split
      · exact ⟨_, hrefl⟩
      · split
        · exact ⟨_, hrefl⟩
        · exact configure_receives world hread.idle wanted rumble passes _
  obtain ⟨more, hmore⟩ := hextends
  rw [hmore.log] at hanswers
  obtain ⟨mode, hgood, -, -, hone, hwhich⟩ := hanswered hanswers.of_append
  have hplain' : (typed (bus world) wanted rumble ps2 d).enPressures = wanted := by
    simp [typed, hplain]
  rw [hmode, hplain', or_self] at hwhich
  subst hwhich
  refine ⟨?_, ?_, hgood⟩
  · have hbyte : modeByte read.1.data = (pad.configured wanted).byte := hgood.byte
    rw [hpass, hbyte, Pad.configured]
    cases wanted <;> cases pad.hasPressures <;> simp [PadMode.byte]
  · rw [hread.log, hround.log, polls_append, polls_append, polls_round,
      hone (hmode ▸ pad.configured_ne_digital wanted)]

/-- How `ps2_init` leaves the reader and the pad. -/
structure Started (wanted rumble : Bool) (init : Ps2 × Bool × Device) : Prop where
  success : init.2.1 = (!wanted || pad.hasPressures)
  mode : init.2.2.mode pad = pad.configured wanted
  polls : polls init.2.2.controller.log ≤ 4
  onePass : init.2.2.controller.typeReads ≤ 1
  settings : init.1.readDelay = 1 ∧ init.1.enRumble = rumble ∧ init.1.enPressures = wanted
  type : ∃ k, init.2.2.controller.log[k]? = some ⟨typeRead, true⟩ ∧
    init.1.controllerType = world.respond k 3
  data : ∀ j (hj : j < 21), j < 9 →
    init.1.data[j] = world.respond (init.2.2.controller.log.length - 1) j

/-- The type read of a pass is its second frame. -/
theorem typeRead_at (log new : List Exchange) (config rumble wanted : Bool) :
    (log ++ received config (roundFrames true rumble wanted) ++ new)[log.length + 1]? =
      some ⟨typeRead, true⟩ := by
  have hsecond : ∀ config rumble wanted, (received config (roundFrames true rumble wanted))[1]? =
      some ⟨typeRead, true⟩ := by decide
  rw [List.append_assoc, List.getElem?_append_right (Nat.le_add_right _ _), Nat.add_sub_cancel_left,
    List.getElem?_append_left (List.getElem?_eq_some_iff.mp (hsecond config rumble wanted)).1]
  exact hsecond config rumble wanted

theorem configure_started (h : d.Resting 0) (hquiet : polls d.controller.log ≤ 3)
    (wanted rumble : Bool) (passes : ℕ) {ps2 : Ps2}
    (hplain : ps2.readDelay = 1 ∧ ps2.enRumble = false ∧ ps2.enPressures = false) :
    pad.Answers world (configure (bus world) wanted rumble (passes + 1) ps2 d).2.2.controller.log →
      Started world pad wanted rumble (configure (bus world) wanted rumble (passes + 1) ps2 d) := by
  obtain ⟨hdelay, hrumble, hpressures⟩ := hplain
  have hrest := configRound_resting world h wanted rumble ps2.readDelay
  have hround := configRound_receives world h.idle wanted rumble ps2.readDelay
  have htype := typed_controllerType world h.idle wanted rumble ps2
  obtain ⟨⟨lastRead, hlatch⟩, new, hread, -⟩ := ps2ReadGamepad_answered world pad hrest
    (typed (bus world) wanted rumble ps2 d) false 0
  have hone := (ps2ReadGamepad_resting world hrest (typed (bus world) wanted rumble ps2 d) false 0).1
  have hsettings : (typed (bus world) wanted rumble ps2 d).readDelay = 1 ∧
      (typed (bus world) wanted rumble ps2 d).enRumble = rumble ∧
      (typed (bus world) wanted rumble ps2 d).enPressures = wanted := by
    simp [typed, hdelay, hrumble, hpressures]
  intro hanswers
  obtain ⟨hdone, hpolls, hgood⟩ :=
    configure_first world pad h wanted rumble passes ps2 hpressures hanswers
  rw [hdone]
  clear hdone hanswers
  generalize ps2ReadGamepad (bus world) (typed (bus world) wanted rumble ps2 d) false 0
    (configRound (bus world) wanted rumble ps2.readDelay d) = read at *
  generalize typed (bus world) wanted rumble ps2 d = asked at *
  refine ⟨rfl, hgood.leaves, ?_, hone.typeReads, ?_, ⟨d.controller.log.length + 1, ?_, ?_⟩, hgood.data⟩
  · rw [hpolls]
    omega
  · rw [hlatch]
    exact hsettings
  · rw [hread.log, hround.log]
    exact typeRead_at d.controller.log new d.controller.config rumble wanted
  · rw [hlatch]
    exact htype

theorem polls_powered (clk cmd att dat : Bool) :
    polls (setPin world .att true (setPin world .clk true (setPin world .cmd true
      (powered clk cmd att dat)))).controller.log = 0 := by
  cases att with
  | true => rfl
  | false => cases clk <;> rfl

theorem ps2Init_started (clk cmd att dat : Bool) (data : Vector UInt8 21) (wanted rumble : Bool) :
    let init := ps2Init (bus world) data wanted rumble (powered clk cmd att dat)
    pad.Answers world init.2.2.controller.log → Started world pad wanted rumble init := by
  have hpins := powered_resting world clk cmd att dat
  have hquiet := polls_powered world clk cmd att dat
  have hinit := ps2Init_ready (bus world) rfl data wanted rumble (powered clk cmd att dat)
  dsimp only [bus_pinSet] at hinit ⊢
  generalize ps2Init (bus world) data wanted rumble (powered clk cmd att dat) = init at hinit ⊢
  generalize setPin world .att true (setPin world .clk true (setPin world .cmd true
    (powered clk cmd att dat))) = d at hinit hpins hquiet
  obtain ⟨⟨lastRead, hlatch⟩, new, hreceives, hanswered⟩ :=
    ps2ReadGamepad_answered world pad hpins (unread data) false 0
  have hfirstRest := (ps2ReadGamepad_resting world hpins (unread data) false 0).1
  generalize ps2ReadGamepad (bus world) (unread data) false 0 d = first at *
  obtain ⟨⟨lastRead', hlatch'⟩, new', hreceives', hanswered'⟩ :=
    ps2ReadGamepad_answered world pad hfirstRest first.1 false 0
  have hsecondRest := (ps2ReadGamepad_resting world hfirstRest first.1 false 0).1
  generalize ps2ReadGamepad (bus world) first.1 false 0 first.2.2 = second at *
  have hplain : second.1.enRumble = false ∧ second.1.enPressures = false := by
    rw [hlatch', hlatch]
    exact ⟨rfl, rfl⟩
  intro hanswers
  have hextends : ∃ more, Receives second.2.2 more init.2.2 := by
    rw [hinit]
    split
    · exact ⟨[], hreceives'.idle, (List.append_nil _).symm⟩
    · exact configure_receives world hreceives'.idle wanted rumble 11 _
  obtain ⟨more, hmore⟩ := hextends
  have hsecond : pad.Answers world second.2.2.controller.log := by
    rw [hmore.log] at hanswers
    exact hanswers.of_append
  have hfirst : pad.Answers world first.2.2.controller.log := by
    rw [hreceives'.log] at hsecond
    exact hsecond.of_append
  obtain ⟨mode, hgood, hmode, htwo, -⟩ := hanswered hfirst
  obtain ⟨mode', hgood', hmode', -, hone, -⟩ := hanswered' hsecond
  have hpolls : polls second.2.2.controller.log ≤ 3 := by
    rw [hreceives'.log, hreceives.log, polls_append, polls_append, hquiet,
      hone (hgood.leaves.symm ▸ hmode)]
    omega
  have hpass : init = configure (bus world) wanted rumble 11 { second.1 with readDelay := 1 }
      second.2.2 := by
    rw [hinit, hgood'.byte, if_neg]
    cases mode' with
    | digital => exact absurd rfl hmode'
    | analog => decide
    | pressures => decide
  rw [hpass] at hanswers ⊢
  exact configure_started world pad hsecondRest hpolls wanted rumble 10 ⟨rfl, hplain⟩ hanswers

end Device

/-! ## Reads after it -/

/-- A call on a configured pad: the mode stays, and a read takes one poll and stores the answer. -/
structure Link.Steady (world : World) (pad : Pad) (wanted : Bool) (s : Link) (call : LinkCall)
    (t : Link) : Prop where
  mode : t.device.mode pad = pad.configured wanted
  outside : t.device.controller.config = false
  read : ∀ motor1 motor2, call = .read motor1 motor2 →
    frameOk t.ps2.data = true ∧
    polls t.device.controller.log = polls s.device.controller.log + 1 ∧
    ∀ j (hj : j < 21), j < 9 →
      t.ps2.data[j] = world.respond (t.device.controller.log.length - 1) j

namespace Link
variable (world : World) (pad : Pad) {wanted : Bool} {s : Link}

theorem step_receives (call : LinkCall) (h : s.device.Idle) :
    ∃ new, Device.Receives s.device new (s.step world call).device := by
  cases call with
  | reconfig =>
      obtain ⟨new, hreceives, -⟩ := Device.ps2Reconfig_receives world h s.ps2
      simp only [step]
      exact ⟨new, hreceives⟩
  | read motor1 motor2 =>
      simp only [step]
      exact Device.ps2ReadGamepad_receives world h s.ps2 motor1 motor2

theorem step_settings (call : LinkCall) : (s.step world call).ps2.enPressures = s.ps2.enPressures := by
  cases call with
  | reconfig => simp only [step]
  | read motor1 motor2 =>
      obtain ⟨lastRead, hlatch, -⟩ :=
        ps2ReadGamepad_eq_latch (Device.bus world) s.ps2 motor1 motor2 s.device
      simp only [step, hlatch, Ps2.latch]

/-- The reader and the pad agree on what was wanted. -/
def Agree (wanted : Bool) (s : Link) : Prop :=
  s.device.mode pad = pad.configured wanted ∧ s.ps2.enPressures = wanted

theorem step_steady {n : ℕ} (h : s.device.Resting n) (hagree : s.Agree pad wanted) (call : LinkCall)
    (hanswers : pad.Answers world (s.step world call).device.controller.log) :
    Steady world pad wanted s call (s.step world call) := by
  obtain ⟨hmode, hwanted⟩ := hagree
  have houtside := (step_resting world s call h).safe.outside
  cases call with
  | reconfig =>
      obtain ⟨new, -, -, hset⟩ := Device.ps2Reconfig_mode world pad h s.ps2
      rw [hwanted] at hset
      simp only [step] at houtside ⊢
      generalize ps2Reconfig (Device.bus world) s.ps2 s.device = after at hset houtside ⊢
      exact ⟨hset, houtside, fun motor1 motor2 hcall => by cases hcall⟩
  | read motor1 motor2 =>
      obtain ⟨-, new, hreceives, hanswered⟩ :=
        Device.ps2ReadGamepad_answered world pad h s.ps2 motor1 motor2
      simp only [step] at hanswers houtside ⊢
      obtain ⟨mode, hgood, -, -, hone, hwhich⟩ := hanswered hanswers
      rw [hmode, hwanted, or_self] at hwhich
      subst hwhich
      refine ⟨hgood.leaves, houtside, fun _ _ _ => ⟨?_, ?_, hgood.data⟩⟩
      · rw [Device.frameOk_iff, hgood.byte]
        exact (PadMode.analog_iff _).mpr (pad.configured_ne_digital wanted)
      · rw [hreceives.log, Device.polls_append, hone (hmode ▸ pad.configured_ne_digital wanted)]

end Link

/-- A pad that follows its commands is up after the first pass of `ps2_init`, whatever mode it was in and
however the lines stood, and stays up over every sequence of calls, whatever the clock shows. -/
theorem following_pad_stays_up (world : World) (pad : Pad) (clk cmd att dat : Bool)
    (data : Vector UInt8 21) (wanted rumble : Bool) (calls : List LinkCall) :
    let init := ps2Init (Device.bus world) data wanted rumble (Device.powered clk cmd att dat)
    (pad.Answers world init.2.2.controller.log → Device.Started world pad wanted rumble init) ∧
      Always (Link.step world) (fun s call t => pad.Answers world t.device.controller.log →
        Link.Steady world pad wanted s call t) ⟨init.1, init.2.2⟩ calls := by
  intro init
  have hstarted := Device.ps2Init_started world pad clk cmd att dat data wanted rumble
  have hrest := (Device.ps2Init_resting world clk cmd att dat data wanted rumble).1
  refine ⟨hstarted, ?_⟩
  let I (s : Link) := s.device.Resting 11 ∧
    (pad.Answers world s.device.controller.log → s.Agree pad wanted)
  have hbefore : ∀ s call, I s → pad.Answers world (s.step world call).device.controller.log →
      s.Agree pad wanted := by
    intro s call h hanswers
    obtain ⟨new, hreceives⟩ := Link.step_receives world call h.1.idle
    rw [hreceives.log] at hanswers
    exact h.2 hanswers.of_append
  refine Always.of_invariant (I := I) ?_ ?_ calls ⟨hrest, fun hanswers => ?_⟩
  · intro s call h hanswers
    exact Link.step_steady world pad h.1 (hbefore s call h hanswers) call hanswers
  · intro s call h
    refine ⟨Link.step_resting world s call h.1, fun hanswers => ?_⟩
    have hagree := hbefore s call h hanswers
    exact ⟨(Link.step_steady world pad h.1 hagree call hanswers).mode,
      (Link.step_settings world call).trans hagree.2⟩
  · exact ⟨(hstarted hanswers).mode, (hstarted hanswers).settings.2.2⟩

/-- A pad without pressures, switched on in digital mode. -/
def plainPad : Pad := ⟨.digital, false⟩

def plainWorld : World where
  respond frame byte := if byte = 1 then (if frame = 0 then 0x41 else 0x73) else 0xFF
  times _ := 0

def pollFrame : Exchange := ⟨readCommand false 0, false⟩

/-- Two reads, the first with a reconfiguration, and the pass of `ps2_init`. -/
def startupFrames : List Exchange :=
  [pollFrame, ⟨enterConfig, false⟩, ⟨setMode, true⟩, ⟨exitConfig, true⟩, pollFrame, pollFrame,
    ⟨enterConfig, false⟩, ⟨typeRead, true⟩, ⟨setMode, true⟩, ⟨exitConfig, true⟩, pollFrame]

theorem plainWorld_log :
    let init := ps2Init (Device.bus plainWorld) zeroed false false
      (Device.powered true true true true)
    init.2.2.controller.log = startupFrames ∧
      (Link.step plainWorld ⟨init.1, init.2.2⟩ (.read false 0)).device.controller.log =
        startupFrames ++ [pollFrame] := by
  decide +kernel

theorem plainPad_answers : plainPad.Answers plainWorld (startupFrames ++ [pollFrame]) := by
  unfold Pad.Answers
  decide

theorem following_pad_stays_up_plain :
    let init := ps2Init (Device.bus plainWorld) zeroed false false
      (Device.powered true true true true)
    Device.Started plainWorld plainPad false false init ∧
      Link.Steady plainWorld plainPad false ⟨init.1, init.2.2⟩ (.read false 0)
        (Link.step plainWorld ⟨init.1, init.2.2⟩ (.read false 0)) := by
  obtain ⟨hinit, hread⟩ := plainWorld_log
  have h := following_pad_stays_up plainWorld plainPad true true true true zeroed
    false false [.read false 0]
  refine ⟨h.1 ?_, h.2.1 ?_⟩
  · rw [hinit]
    exact plainPad_answers.of_append
  · rw [hread]
    exact plainPad_answers

end Mecanum.Gamepad
