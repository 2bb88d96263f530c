import Mathlib.Data.List.Basic
import Mecanum.Foundations.Bits
import Mecanum.Gamepad.Ps2

/-! # A reference controller on the wires

`Controller` is what a controller is at the level of frames: whether it is in configuration mode and
the frames it has received. `Device` is one on the wires: while `ATT` is low it puts the next response bit
on `DAT` at each falling edge of `CLK` and latches `CMD` at each rising edge, and a frame ends
when `ATT` rises. The reader's functions, run against a `Device`, exchange whole frames with its
`Controller`.
-/

namespace Mecanum.Gamepad
open Bits
set_option autoImplicit false

/-- A frame that the controller has received, and whether it was in configuration mode then. -/
structure Exchange where
  sent : List UInt8
  config : Bool

/-- The command byte of a frame. -/
def Exchange.command (e : Exchange) : Option UInt8 := e.sent[1]?

structure Controller where
  config : Bool
  log : List Exchange

/-- Only the two frames `01 43 00 01` and `01 43 00 00` change the mode. -/
def modeAfter (sent : List UInt8) (config : Bool) : Bool :=
  if sent.take 4 = [0x01, 0x43, 0x00, 0x01] then true
  else if sent.take 4 = [0x01, 0x43, 0x00, 0x00] then false
  else config

def Controller.exchange (c : Controller) (sent : List UInt8) : Controller where
  config := modeAfter sent c.config
  log := c.log ++ [⟨sent, c.config⟩]

/-- The levels of the lines, the response bits put on `DAT` and the bits latched from `CMD` in this
frame, and how often the host has read its clock. -/
structure Device where
  clk : Bool
  cmd : Bool
  att : Bool
  dat : Bool
  driven : ℕ
  latched : List Bool
  controller : Controller
  clockReads : ℕ

/-- The response stream: byte `i` of the answer to frame `n`, and what the clock shows. -/
structure World where
  respond : ℕ → ℕ → UInt8
  times : ℕ → UInt64

namespace Device
variable (world : World)

/-- The answer to the frame in progress. -/
def answer (d : Device) (i : ℕ) : UInt8 := world.respond d.controller.log.length i

def setPin (pin : Pin) (level : Bool) (d : Device) : Device :=
  match pin with
  | .cmd => { d with cmd := level }
  | .clk =>
      if d.att then { d with clk := level }
      else if d.clk && !level then
        { d with
          clk := false
          dat := (d.answer world (d.driven / 8)).toNat.testBit (d.driven % 8)
          driven := d.driven + 1 }
      else if !d.clk && level then { d with clk := true, latched := d.latched ++ [d.cmd] }
      else d
  | .att =>
      if d.att && !level then { d with att := false, driven := 0, latched := [] }
      else if !d.att && level then
        { d with att := true, controller := d.controller.exchange (bytesOf d.latched) }
      else d

def bus : Bus Device where
  ready := true
  pinSet := setPin world
  datChk d := (d.dat, d)
  busyWait _ d := d
  sleep _ d := d
  uptime d := (world.times d.clockReads, { d with clockReads := d.clockReads + 1 })

@[simp] theorem bus_pinSet : (bus world).pinSet = setPin world := rfl

@[simp] theorem bus_busyWait (us : UInt32) (d : Device) : (bus world).busyWait us d = d := rfl

@[simp] theorem bus_sleep (ms : UInt64) (d : Device) : (bus world).sleep ms d = d := rfl

/-! ## Inside a frame -/

/-- From `d` to `e` the device takes these bits, in one frame, with the clock high at both ends. -/
structure Takes (d : Device) (bits : List Bool) (e : Device) : Prop where
  att : d.att = false ∧ e.att = false
  clk : d.clk = true ∧ e.clk = true
  driven : e.driven = d.driven + bits.length
  latched : e.latched = d.latched ++ bits
  controller : e.controller = d.controller

variable {d e f : Device}

theorem Takes.refl (hatt : d.att = false) (hclk : d.clk = true) : Takes d [] d :=
  ⟨⟨hatt, hatt⟩, ⟨hclk, hclk⟩, rfl, (List.append_nil _).symm, rfl⟩

theorem Takes.trans {bits bits' : List Bool} (h : Takes d bits e) (h' : Takes e bits' f) :
    Takes d (bits ++ bits') f := by
  refine ⟨⟨h.att.1, h'.att.2⟩, ⟨h.clk.1, h'.clk.2⟩, ?_, ?_, h'.controller.trans h.controller⟩
  · rw [h'.driven, h.driven, List.length_append, Nat.add_assoc]
  · rw [h'.latched, h.latched, List.append_assoc]

theorem Takes.answer {bits : List Bool} (h : Takes d bits e) : e.answer world = d.answer world := by
  unfold Device.answer
  rw [h.controller]

/-- The answer goes on at the next byte. -/
theorem Takes.driven_bytes {bits : List Bool} (h : Takes d bits e) {m k : ℕ}
    (hdriven : d.driven = 8 * m) (hbits : bits.length = 8 * k) : e.driven = 8 * (m + k) := by
  rw [h.driven, hdriven, hbits, Nat.mul_add]

/-- Bit `i` of a byte: the device shows its next bit and takes the host's. -/
theorem shiftBit_takes (hatt : d.att = false) (hclk : d.clk = true) (data ret : UInt8) (i : ℕ) :
    (shiftBit (bus world) data (ret, d) i).1 =
        (if (d.answer world (d.driven / 8)).toNat.testBit (d.driven % 8) then
          ret ||| UInt8.ofNat (1 <<< i) else ret) ∧
      Takes d [data.toNat.testBit i] (shiftBit (bus world) data (ret, d) i).2 := by
  obtain ⟨clk, cmd, att, dat, driven, latched, controller, clockReads⟩ := d
  subst hatt hclk
  exact ⟨rfl, ⟨rfl, rfl⟩, ⟨rfl, rfl⟩, rfl, rfl, rfl⟩

theorem shiftBits_takes (hatt : d.att = false) (hclk : d.clk = true) (data : UInt8) {m k : ℕ}
    (hdriven : d.driven = 8 * m) (hk : k ≤ 8) :
    ((List.range k).foldl (shiftBit (bus world) data) (0, d)).1 =
        gather (d.answer world m).toNat.testBit k ∧
      Takes d ((List.range k).map data.toNat.testBit)
        ((List.range k).foldl (shiftBit (bus world) data) (0, d)).2 := by
  induction k with
  | zero => exact ⟨rfl, Takes.refl hatt hclk⟩
  | succ k ih =>
      obtain ⟨hret, htakes⟩ := ih (by omega)
      have hdriven' := htakes.driven
      rw [hdriven, List.length_map, List.length_range] at hdriven'
      have hbyte : (8 * m + k) / 8 = m := by omega
      have hbit : (8 * m + k) % 8 = k := by omega
      have hnext := shiftBit_takes world htakes.att.2 htakes.clk.2 data
        ((List.range k).foldl (shiftBit (bus world) data) (0, d)).1 k
      rw [hdriven', hbyte, hbit, htakes.answer world] at hnext
      rw [List.range_succ, List.foldl_append, List.map_append, gather_succ, ← hret]
      exact ⟨hnext.1, htakes.trans hnext.2⟩

/-- A byte goes out and the next byte of the answer comes in. -/
theorem gamepadShiftinout_takes (hatt : d.att = false) (hclk : d.clk = true) (data : UInt8) {m : ℕ}
    (hdriven : d.driven = 8 * m) :
    (gamepadShiftinout (bus world) data d).1 = d.answer world m ∧
      Takes d (bitsOf data) (gamepadShiftinout (bus world) data d).2 := by
  obtain ⟨hret, htakes⟩ := shiftBits_takes world hatt hclk data hdriven (Nat.le_refl 8)
  rw [gather_testBit] at hret
  exact ⟨hret, htakes.att, htakes.clk, htakes.driven, htakes.latched, htakes.controller⟩

theorem shiftAll_takes (hatt : d.att = false) (hclk : d.clk = true) (bytes : List UInt8) {m : ℕ}
    (hdriven : d.driven = 8 * m) :
    (shiftAll (bus world) bytes d).1 = (List.range' m bytes.length).map (d.answer world) ∧
      Takes d (bytes.flatMap bitsOf) (shiftAll (bus world) bytes d).2 := by
  induction bytes generalizing d m with
  | nil => exact ⟨rfl, Takes.refl hatt hclk⟩
  | cons byte bytes ih =>
      obtain ⟨hret, htakes⟩ := gamepadShiftinout_takes world hatt hclk byte hdriven
      obtain ⟨hrest, hmore⟩ := ih htakes.att.2 htakes.clk.2
        (htakes.driven_bytes (k := 1) hdriven rfl)
      rw [htakes.answer world] at hrest
      refine ⟨?_, htakes.trans hmore⟩
      rw [shiftAll, List.length_cons, List.range'_succ, List.map_cons, ← hret, ← hrest]

/-! ## Whole frames -/

/-- Between two frames, with the clock where a frame starts. -/
def Idle (d : Device) : Prop := d.att = true ∧ d.clk = true

theorem setPin_att_fall (hatt : d.att = true) :
    setPin world .att false d = { d with att := false, driven := 0, latched := [] } := by
  unfold setPin
  rw [hatt]
  rfl

theorem setPin_att_rise (hatt : d.att = false) :
    setPin world .att true d =
      { d with att := true, controller := d.controller.exchange (bytesOf d.latched) } := by
  unfold setPin
  rw [hatt]
  rfl

/-- A frame of which the device has taken whole bytes ends. -/
theorem Takes.rise {bytes : List UInt8} (h : Takes d (bytes.flatMap bitsOf) e)
    (hlatched : d.latched = []) :
    Idle (setPin world .att true e) ∧
      (setPin world .att true e).latched = bytes.flatMap bitsOf ∧
      (setPin world .att true e).controller = d.controller.exchange bytes := by
  have hbits : e.latched = bytes.flatMap bitsOf := by
    rw [h.latched, hlatched, List.nil_append]
  rw [setPin_att_rise world h.att.2]
  refine ⟨⟨rfl, h.clk.2⟩, hbits, ?_⟩
  show e.controller.exchange (bytesOf e.latched) = _
  rw [hbits, bytesOf_flatMap_bitsOf, h.controller]

theorem sendCommandString_exchanges (h : d.Idle) (readDelay : UInt8) (string : List UInt8) :
    (sendCommandString (bus world) readDelay string d).Idle ∧
      (sendCommandString (bus world) readDelay string d).controller =
        d.controller.exchange string := by
  have hfall := setPin_att_fall world h.1
  obtain ⟨-, htakes⟩ := shiftAll_takes world (d := { d with att := false, driven := 0, latched := [] })
    rfl h.2 string (Nat.mul_zero 8).symm
  have hrise := htakes.rise world rfl
  unfold sendCommandString
  simp only [bus_pinSet, bus_busyWait, bus_sleep, hfall]
  exact ⟨hrise.1, hrise.2.2⟩

/-! ## Stored bytes -/

theorem getElem_storeAt (data : Vector UInt8 21) (i : ℕ) (bytes : List UInt8) (j : ℕ) (hj : j < 21) :
    (storeAt data i bytes)[j] = if i ≤ j then bytes.getD (j - i) data[j] else data[j] := by
  induction bytes generalizing data i with
  | nil => simp [storeAt]
  | cons byte bytes ih =>
      rw [storeAt, ih, Vector.getElem_setIfInBounds hj]
      rcases Nat.lt_trichotomy i j with hlt | rfl | hgt
      · have hsub : j - i = j - (i + 1) + 1 := by omega
        have hnext : i + 1 ≤ j := hlt
        have hle : i ≤ j := Nat.le_of_lt hlt
        have hne : i ≠ j := by omega
        simp only [if_pos hnext, if_pos hle, if_neg hne, hsub, List.getD_cons_succ]
      · have hself : ¬ i + 1 ≤ i := by omega
        simp only [if_neg hself, if_true, Nat.le_refl, Nat.sub_self, List.getD_cons_zero]
      · have hnext : ¬ i + 1 ≤ j := by omega
        have hle : ¬ i ≤ j := by omega
        have hne : i ≠ j := by omega
        simp only [if_neg hnext, if_neg hle, if_neg hne]

/-- Storing a stretch of a longer sequence. -/
theorem getElem_storeAt_range (data : Vector UInt8 21) (f : ℕ → UInt8) (i n j : ℕ) (hj : j < 21) :
    (storeAt data i ((List.range' i n).map f))[j] = if i ≤ j ∧ j < i + n then f j else data[j] := by
  rw [getElem_storeAt]
  by_cases hle : i ≤ j
  · rw [if_pos hle, List.getD_eq_getElem?_getD, List.getElem?_map]
    by_cases hlt : j < i + n
    · have hsum : i + (j - i) = j := by omega
      rw [if_pos ⟨hle, hlt⟩, List.getElem?_range' (by omega), Nat.one_mul, hsum]
      rfl
    · rw [if_neg (fun h => hlt h.2), List.getElem?_eq_none (by simp; omega)]
      rfl
  · rw [if_neg hle, if_neg (fun h => hle h.1)]

/-- The answer that a transaction reads ends after nine bytes, or after 21 in pressure mode. -/
def more (d : Device) : List UInt8 :=
  if d.answer world 1 = 0x79 then List.replicate 12 0 else []

/-- The device when `ATT` has fallen for an attempt. -/
def opened (d : Device) : Device :=
  { d with cmd := true, clk := true, att := false, driven := 0, latched := [] }

theorem opened_eq (hatt : d.att = true) :
    setPin world .att false (setPin world .clk true (setPin world .cmd true d)) = d.opened := by
  have hclk : setPin world .clk true (setPin world .cmd true d) = { d with cmd := true, clk := true } := by
    unfold setPin
    rw [hatt]
    rfl
  rw [hclk]
  exact setPin_att_fall world hatt

section Transaction
variable {dword : List UInt8}

/-- The nine bytes of an attempt, from the moment that `ATT` falls. -/
theorem firstBytes (hlength : dword.length = 9) :
    (shiftAll (bus world) dword d.opened).1 = (List.range' 0 9).map (d.answer world) ∧
      Takes d.opened (dword.flatMap bitsOf) (shiftAll (bus world) dword d.opened).2 := by
  rw [← hlength]
  exact shiftAll_takes world (d := d.opened) rfl rfl dword (Nat.mul_zero 8).symm

/-- The twelve bytes after them. -/
theorem moreBytes (hlength : dword.length = 9) :
    (shiftAll (bus world) (List.replicate 12 0) (shiftAll (bus world) dword d.opened).2).1 =
        (List.range' 9 12).map (d.answer world) ∧
      Takes d.opened ((dword ++ List.replicate 12 0).flatMap bitsOf)
        (shiftAll (bus world) (List.replicate 12 0) (shiftAll (bus world) dword d.opened).2).2 := by
  obtain ⟨-, hfirst⟩ := firstBytes world (d := d) hlength
  have hdriven := hfirst.driven_bytes (Nat.mul_zero 8).symm (length_flatMap_bitsOf dword)
  rw [hlength, Nat.zero_add] at hdriven
  obtain ⟨hmore, htakes⟩ :=
    shiftAll_takes world hfirst.att.2 hfirst.clk.2 (List.replicate 12 0) hdriven
  rw [hfirst.answer world] at hmore
  rw [List.flatMap_append]
  exact ⟨hmore, hfirst.trans htakes⟩

theorem transaction_eq (hatt : d.att = true) (hlength : dword.length = 9) (data : Vector UInt8 21) :
    transaction (bus world) dword data d =
      let first := shiftAll (bus world) dword d.opened
      let more := shiftAll (bus world) (List.replicate 12 0) first.2
      if d.answer world 1 = 0x79 then
        (storeAt (storeAt data 0 first.1) 9 more.1, setPin world .att true more.2)
      else (storeAt data 0 first.1, setPin world .att true first.2) := by
  have hmode : (storeAt data 0 (shiftAll (bus world) dword d.opened).1)[1] = d.answer world 1 := by
    rw [(firstBytes world hlength).1, getElem_storeAt_range]
    rfl
  unfold transaction
  simp only [bus_pinSet, bus_busyWait, opened_eq world hatt, hmode]

theorem getElem_stored (data : Vector UInt8 21) (f : ℕ → UInt8) (j : ℕ) (hj : j < 21) :
    (storeAt (storeAt data 0 ((List.range' 0 9).map f)) 9 ((List.range' 9 12).map f))[j] = f j := by
  rw [getElem_storeAt_range, getElem_storeAt_range]
  by_cases hhigh : 9 ≤ j
  · rw [if_pos ⟨hhigh, hj⟩]
  · rw [if_neg (fun h => hhigh h.1), if_pos ⟨Nat.zero_le j, by omega⟩]

/-- One attempt: what the device receives and what the reader stores. -/
theorem transaction_exchanges (hatt : d.att = true) (hlength : dword.length = 9)
    (data : Vector UInt8 21) :
    (transaction (bus world) dword data d).2.Idle ∧
      (transaction (bus world) dword data d).2.latched = (dword ++ d.more world).flatMap bitsOf ∧
      (transaction (bus world) dword data d).2.controller =
        d.controller.exchange (dword ++ d.more world) ∧
      ∀ j (hj : j < 21), (transaction (bus world) dword data d).1[j] =
        if j < 9 ∨ d.answer world 1 = 0x79 then d.answer world j else data[j] := by
  obtain ⟨hfirst, htakes⟩ := firstBytes world (d := d) hlength
  obtain ⟨hmore, hboth⟩ := moreBytes world (d := d) hlength
  rw [transaction_eq world hatt hlength]
  unfold more
  by_cases hpressures : d.answer world 1 = 0x79
  · obtain ⟨hidle, hlatched, hcontroller⟩ := hboth.rise world rfl
    simp only [if_pos hpressures]
    refine ⟨hidle, hlatched, hcontroller, fun j hj => ?_⟩
    simp only [hmore, hfirst, getElem_stored, hpressures, or_true, if_true]
  · obtain ⟨hidle, hlatched, hcontroller⟩ := htakes.rise world rfl
    simp only [if_neg hpressures, List.append_nil]
    refine ⟨hidle, hlatched, hcontroller, fun j hj => ?_⟩
    simp [hfirst, getElem_storeAt_range, hpressures]

end Transaction

end Device
end Mecanum.Gamepad
