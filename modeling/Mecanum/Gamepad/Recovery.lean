import Mecanum.Gamepad.Transfer

/-! # Recovering a pad that left its mode

A pad that was switched out of analog mode, or left in configuration mode, does not answer a poll with
a mode byte of 7x. The read notices this, sends `ps2_reconfig` and polls again. `Obeys` is what it
relies on: a pad outside configuration mode that has been set to analog mode in this read answers a
poll with 7x, and one in configuration mode does not.
-/

namespace Mecanum.Gamepad
set_option autoImplicit false

deriving instance DecidableEq for Exchange

/-- The mode byte of the answer to frame `n` is 7x. -/
def AnswersAnalog (world : World) (n : ℕ) : Prop := (world.respond n 1).toNat / 16 = 7

instance (world : World) (n : ℕ) : Decidable (AnswersAnalog world n) :=
  inferInstanceAs (Decidable (_ = _))

/-- What a pad that may be in any mode when the frames `new` start, with number `n`, does answer to the
polls among them. -/
structure Obeys (world : World) (n : ℕ) (new : List Exchange) : Prop where
  config : ∀ k, (hk : k < new.length) → new[k].command = some 0x42 → new[k].config = true →
    ¬ AnswersAnalog world (n + k)
  analog : ∀ k, (hk : k < new.length) → new[k].command = some 0x42 → new[k].config = false →
    ⟨setMode, true⟩ ∈ new.take k → AnswersAnalog world (n + k)

section Obeys
variable {world : World} {n : ℕ} {earlier rest : List Exchange} {e : Exchange}

theorem Obeys.config_at (h : Obeys world n (earlier ++ e :: rest)) (hpoll : e.command = some 0x42)
    (hconfig : e.config = true) : ¬ AnswersAnalog world (n + earlier.length) :=
  h.config earlier.length (by simp) (by simpa using hpoll) (by simpa using hconfig)

theorem Obeys.analog_at (h : Obeys world n (earlier ++ e :: rest)) (hpoll : e.command = some 0x42)
    (hconfig : e.config = false) (hset : ⟨setMode, true⟩ ∈ earlier) :
    AnswersAnalog world (n + earlier.length) :=
  h.analog earlier.length (by simp) (by simpa using hpoll) (by simpa using hconfig)
    (by simpa using hset)

end Obeys

/-- The frames that a controller notes, starting in this mode. -/
def received : Bool → List (List UInt8) → List Exchange
  | _, [] => []
  | config, sent :: frames => ⟨sent, config⟩ :: received (modeAfter sent config) frames

theorem Controller.log_exchanges (c : Controller) (frames : List (List UInt8)) :
    (c.exchanges frames).log = c.log ++ received c.config frames := by
  induction frames generalizing c with
  | nil => exact (List.append_nil c.log).symm
  | cons sent frames ih =>
      have hrest := ih (c.exchange sent)
      rw [Controller.exchanges, List.foldl_cons]
      exact hrest.trans (List.append_assoc c.log [⟨sent, c.config⟩] _)

def polls (new : List Exchange) : ℕ := new.countP fun e => e.command = some 0x42

namespace Device
variable (world : World) {d e f : Device}

/-- From `d` to `e` the pad receives the frames `new`. -/
structure Receives (d : Device) (new : List Exchange) (e : Device) : Prop where
  idle : e.Idle
  log : e.controller.log = d.controller.log ++ new

theorem Receives.trans {new more : List Exchange} (h : Receives d new e) (h' : Receives e more f) :
    Receives d (new ++ more) f := by
  refine ⟨h'.idle, ?_⟩
  rw [h'.log, h.log, List.append_assoc]

/-- A reconfiguration leaves the pad outside configuration mode, set to analog mode on the way. -/
theorem ps2Reconfig_receives (h : d.Idle) (ps2 : Ps2) : ∃ new,
    Receives d new (ps2Reconfig (bus world) ps2 d) ∧ polls new = 0 ∧ ⟨setMode, true⟩ ∈ new ∧
      (ps2Reconfig (bus world) ps2 d).controller.config = false := by
  obtain ⟨hidle, hcontroller⟩ := ps2Reconfig_sends world h ps2
  have hnew : ∀ config rumble pressures,
      let new := received config ([enterConfig] ++ configFrames rumble pressures ++ [exitConfig])
      polls new = 0 ∧ ⟨setMode, true⟩ ∈ new := by decide
  obtain ⟨hpolls, hset⟩ := hnew d.controller.config ps2.enRumble ps2.enPressures
  refine ⟨_, ⟨hidle, ?_⟩, hpolls, hset, ?_⟩
  · rw [hcontroller, Controller.log_exchanges]
  · rw [hcontroller, Controller.exchanges_append]
    rfl

theorem settle_receives (h : d.Idle) (ps2 : Ps2) : ∃ new,
    Receives d new (settle (bus world) ps2 d) ∧ polls new = 0 := by
  rw [settle_eq]
  split
  · obtain ⟨new, hreceives, hpolls, -, -⟩ := ps2Reconfig_receives world (d := d.clocked) h ps2
    exact ⟨new, ⟨hreceives.idle, hreceives.log⟩, hpolls⟩
  · exact ⟨[], ⟨h, (List.append_nil _).symm⟩, rfl⟩

/-- An attempt is one poll, and succeeds if the pad answers with 7x. -/
theorem transaction_receives (h : d.Idle) (motor1 : Bool) (motor2 : UInt8) (data : Vector UInt8 21) :
    let after := transaction (bus world) (readCommand motor1 motor2) data d
    ∃ poll : Exchange, Receives d [poll] after.2 ∧ poll.command = some 0x42 ∧
      poll.config = d.controller.config ∧ after.2.controller.config = d.controller.config ∧
      (frameOk after.1 = true ↔ AnswersAnalog world d.controller.log.length) ∧
      ∀ j (hj : j < 21), j < 9 → after.1[j] = world.respond d.controller.log.length j := by
  obtain ⟨hidle, -, hcontroller, hdata⟩ := transaction_exchanges world h.1
    (length_readCommand motor1 motor2) data
  have hcommand := readCommand_command motor1 motor2 (d.more world)
  have hanswer := hdata 1 (by decide)
  rw [if_pos (.inl (by decide))] at hanswer
  refine ⟨⟨readCommand motor1 motor2 ++ d.more world, d.controller.config⟩, ⟨hidle, ?_⟩, hcommand,
    rfl, ?_, ?_, ?_⟩
  · rw [hcontroller]
    rfl
  · have hne : (readCommand motor1 motor2 ++ d.more world)[1]? ≠ some 0x43 := by
      rw [hcommand]
      decide
    rw [hcontroller]
    exact Controller.modeAfter_of_command hne d.controller.config
  · rw [frameOk_iff, modeByte, hanswer]
    rfl
  · intro j hj hnine
    rw [hdata j hj, if_pos (.inl hnine)]
    rfl

theorem polls_append (new more : List Exchange) : polls (new ++ more) = polls new + polls more :=
  List.countP_append

theorem polls_poll {e : Exchange} (h : e.command = some 0x42) : polls [e] = 1 := by
  simp [polls, h]

theorem attempts_succ (ps2 : Ps2) (dword : List UInt8) (retries : ℕ) (data : Vector UInt8 21) :
    attempts (bus world) ps2 dword (retries + 1) data d =
      if frameOk (transaction (bus world) dword data d).1 then
        ((transaction (bus world) dword data d).1, true, (transaction (bus world) dword data d).2)
      else attempts (bus world) ps2 dword retries (transaction (bus world) dword data d).1
        (ps2Reconfig (bus world) ps2 (transaction (bus world) dword data d).2) := by
  simp only [attempts, bus_sleep]

section Attempts
variable (h : d.Idle) (ps2 : Ps2) (motor1 : Bool) (motor2 : UInt8) (retries : ℕ)
  (data : Vector UInt8 21)
include h

theorem attempts_receives : ∃ new,
    Receives d new (attempts (bus world) ps2 (readCommand motor1 motor2) retries data d).2.2 := by
  induction retries generalizing d data with
  | zero => exact ⟨[], h, (List.append_nil _).symm⟩
  | succ retries ih =>
      obtain ⟨poll, hpoll, -⟩ := transaction_receives world h motor1 motor2 data
      obtain ⟨new, hreconfig, -⟩ := ps2Reconfig_receives world hpoll.idle ps2
      rw [attempts_succ]
      split
      · dsimp only
        exact ⟨_, hpoll⟩
      · obtain ⟨more, hmore⟩ := ih hreconfig.idle
          (transaction (bus world) (readCommand motor1 motor2) data d).1
        exact ⟨_, (hpoll.trans hreconfig).trans hmore⟩

/-- An attempt on a pad that was set to analog mode before it, and left configuration mode, is the last. -/
theorem attempts_of_set {n : ℕ} {earlier : List Exchange} (hset : ⟨setMode, true⟩ ∈ earlier)
    (houtside : d.controller.config = false) (hnumber : d.controller.log.length = n + earlier.length) :
    let got := attempts (bus world) ps2 (readCommand motor1 motor2) (retries + 1) data d
    ∃ poll rest, Receives d (poll :: rest) got.2.2 ∧
      (Obeys world n (earlier ++ poll :: rest) → rest = [] ∧ poll.command = some 0x42 ∧
        got.2.1 = true ∧ got.2.2.controller.config = false ∧
        ∀ j (hj : j < 21), j < 9 → got.1[j] = world.respond d.controller.log.length j) := by
  obtain ⟨poll, hpoll, hcommand, hconfig, hafter, hok, hdata⟩ :=
    transaction_receives world h motor1 motor2 data
  rw [attempts_succ]
  by_cases hgood : frameOk (transaction (bus world) (readCommand motor1 motor2) data d).1 = true
  · rw [if_pos hgood]
    dsimp only
    exact ⟨poll, [], hpoll, fun _ => ⟨rfl, hcommand, rfl, hafter.trans houtside, hdata⟩⟩
  · obtain ⟨new, hreconfig, -⟩ := ps2Reconfig_receives world hpoll.idle ps2
    obtain ⟨more, hmore⟩ := attempts_receives world hreconfig.idle ps2 motor1 motor2 retries
      (transaction (bus world) (readCommand motor1 motor2) data d).1
    rw [if_neg hgood]
    refine ⟨poll, new ++ more, (hpoll.trans hreconfig).trans hmore, fun hobeys => ?_⟩
    have hanswers := hobeys.analog_at hcommand (hconfig.trans houtside) hset
    rw [← hnumber, ← hok] at hanswers
    exact absurd hanswers hgood

end Attempts

/-- After a read: it succeeded on its first or second poll, its bytes are the answer to the last frame,
and the pad is outside configuration mode. -/
structure Recovered (new : List Exchange) (data : Vector UInt8 21) (success : Bool) (e : Device) :
    Prop where
  success : success = true
  polls : polls new ≤ 2
  outside : e.controller.config = false
  data : ∀ j (hj : j < 21), j < 9 → data[j] = world.respond (e.controller.log.length - 1) j

theorem receive_recovers (h : d.Idle) (ps2 : Ps2) (motor1 : Bool) (motor2 : UInt8) :
    let got := receive (bus world) ps2 motor1 motor2 d
    ∃ new, Receives d new got.2.2 ∧
      (Obeys world d.controller.log.length new → Recovered world new got.1 got.2.1 got.2.2) := by
  obtain ⟨new, hsettle, hquiet⟩ := settle_receives world h ps2
  unfold receive
  generalize settle (bus world) ps2 d = e at hsettle ⊢
  obtain ⟨poll, hpoll, hcommand, hconfig, hafter, hok, hdata⟩ :=
    transaction_receives world hsettle.idle motor1 motor2 ps2.data
  have hnumber := congrArg List.length hsettle.log
  rw [List.length_append] at hnumber
  have hfirst := hsettle.trans hpoll
  have hone : polls (new ++ [poll]) = 1 := by rw [polls_append, hquiet, polls_poll hcommand]
  rw [attempts_succ]
  by_cases hgood : frameOk (transaction (bus world) (readCommand motor1 motor2) ps2.data e).1 = true
  · rw [if_pos hgood]
    dsimp only
    refine ⟨_, hfirst, fun hobeys => ⟨rfl, by omega, ?_, ?_⟩⟩
    · rw [hafter, ← hconfig]
      refine Bool.eq_false_iff.mpr fun hinside => hobeys.config_at hcommand hinside ?_
      rw [← hnumber, ← hok]
      exact hgood
    · rw [hpoll.log, List.length_append, List.length_singleton, Nat.add_sub_cancel]
      exact hdata
  · rw [if_neg hgood]
    obtain ⟨new', hreconfig, hquiet', hset, houtside⟩ := ps2Reconfig_receives world hpoll.idle ps2
    have hsecond := hfirst.trans hreconfig
    have hnumber' := congrArg List.length hsecond.log
    rw [List.length_append] at hnumber'
    obtain ⟨poll', rest, hlast, hrecovers⟩ := attempts_of_set world hreconfig.idle ps2 motor1 motor2 3
      (transaction (bus world) (readCommand motor1 motor2) ps2.data e).1
      (List.mem_append_right (new ++ [poll]) hset) houtside hnumber'
    refine ⟨_, hsecond.trans hlast, fun hobeys => ?_⟩
    obtain ⟨rfl, hcommand', hsuccess, hout, hbytes⟩ := hrecovers hobeys
    refine ⟨hsuccess, ?_, hout, ?_⟩
    · rw [polls_append, polls_append, hone, hquiet', polls_poll hcommand']
    · rw [hlast.log, List.length_append, List.length_singleton, Nat.add_sub_cancel]
      exact hbytes

end Device

end Mecanum.Gamepad
