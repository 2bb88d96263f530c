import Mecanum.Foundations.Rates
import Mecanum.Foundations.Trace
import Mecanum.Wheel.SpeedOverflow

/-! # Speeds add up to positions

Both estimators keep the count and the time they measured last, so each count goes into one estimate and
none is lost, over whatever intervals they are called. Adding up speed times time gives the position back
to within a count per second.
-/

namespace Mecanum.Wheel
open Motor FloatArith CInt Trace Rates
set_option autoImplicit false

/-! ## `zephyr_encoder_get_speed` -/

inductive EncoderCall
  | edge
  | setDirection (dir : Int8)
  | getSpeed (uptime : Int64)
  | reset (uptime : Int64)

/-- An encoder, with the signed edges since it was last reset, the uptime of that reset, and what
`zephyr_encoder_get_speed` has measured since, the last one first. -/
structure Metered where
  encoder : ZephyrEncoder
  position : ℤ
  since : ℤ
  samples : List Sample

namespace Metered

def start (ready : Bool) (uptime : Int64) : Metered :=
  ⟨(zephyrEncoderInit ready uptime).1, 0, uptime.toInt, []⟩

def elapsed (s : Metered) (uptime : Int64) : ℤ := uptime.toInt - s.encoder.lastTime.toInt

/-- What a call at `uptime` measures, if time has passed. -/
def sample (s : Metered) (uptime : Int64) : Sample :=
  ⟨s.position - counted s.samples, s.elapsed uptime⟩

def step (s : Metered) : EncoderCall → Metered
  | .edge => { s with
      encoder := encoderIsr s.encoder
      position := if s.encoder.direction < 0 then s.position - 1 else s.position + 1 }
  | .setDirection dir => { s with encoder := zephyrEncoderSetDirection s.encoder dir }
  | .getSpeed uptime => { s with
      encoder := (zephyrEncoderGetSpeed s.encoder uptime).1
      samples := if 0 < s.elapsed uptime then s.sample uptime :: s.samples else s.samples }
  | .reset uptime => ⟨zephyrEncoderReset s.encoder uptime, 0, uptime.toInt, []⟩

instance (delta : ℤ) : Decidable (CountsFit delta) := inferInstanceAs (Decidable (_ ∧ _))

/-- Uptimes are not negative, and a call that measures does so before the counts outgrow its product.
The counter itself may wrap. -/
def CallFits (s : Metered) (c : EncoderCall) (_ : Metered) : Prop :=
  match c with
  | .getSpeed uptime =>
      0 ≤ uptime.toInt ∧ (0 < s.elapsed uptime → CountsFit (s.sample uptime).counts)
  | .reset uptime => 0 ≤ uptime.toInt
  | _ => True

/-- Each call reports the rate of what it measures, or 0 and measures nothing; what was measured is all
that was counted up to then; and the reported speeds add up to it but for a count per second. -/
structure MeterLaw (s : Metered) (c : EncoderCall) (t : Metered) : Prop where
  reported : ∀ uptime, c = .getSpeed uptime →
    (zephyrEncoderGetSpeed s.encoder uptime).2.toInt =
      if 0 < s.elapsed uptime then (s.sample uptime).rate 1000 else 0
  measured : ∀ uptime, c = .getSpeed uptime → 0 < s.elapsed uptime → counted t.samples = t.position
  span : span t.samples = t.encoder.lastTime.toInt - t.since
  error : |1000 * counted t.samples - covered 1000 t.samples| ≤ Rates.span t.samples - t.samples.length

/-- The counter and the last measured count hold the position modulo `2 ^ 32`. -/
structure Inv (s : Metered) : Prop where
  counter : s.encoder.counter = Int32.ofInt s.position
  lastCount : s.encoder.lastCount = Int32.ofInt (counted s.samples)
  lastTime : 0 ≤ s.encoder.lastTime.toInt
  span : span s.samples = s.encoder.lastTime.toInt - s.since
  time : ∀ x ∈ s.samples, 0 < x.time

section Step
variable {s : Metered} {uptime : Int64}

theorem toInt_elapsed (h : s.Inv) (hup : 0 ≤ uptime.toInt) :
    (uptime - s.encoder.lastTime).toInt = s.elapsed uptime := by
  have hlast := h.lastTime
  have hrange := uptime.toInt_lt
  have hrange' := s.encoder.lastTime.toInt_lt
  unfold elapsed
  rw [Int64.toInt_sub]
  exact Int.bmod_eq_of_le (by simp; omega) (by simp; omega)

/-- Only the difference of the two counts matters, so a wrap of the counter between them does not. -/
theorem getSpeed_shift (enc : ZephyrEncoder) (uptime : Int64) :
    (zephyrEncoderGetSpeed enc uptime).2 = (zephyrEncoderGetSpeed
      { enc with counter := enc.counter - enc.lastCount, lastCount := 0 } uptime).2 := by
  unfold zephyrEncoderGetSpeed
  simp only [Int32.sub_zero]
  split <;> rfl

/-- The difference of the two counts is the true one, whether or not the counter wrapped in between. -/
theorem toInt_counts (h : s.Inv) (hfit : CountsFit (s.sample uptime).counts) :
    (s.encoder.counter - s.encoder.lastCount).toInt = (s.sample uptime).counts := by
  have hsub : s.encoder.counter - s.encoder.lastCount = Int32.ofInt (s.sample uptime).counts := by
    rw [h.counter, h.lastCount, ← Int32.ofInt_sub]
    rfl
  unfold CountsFit at hfit
  rw [hsub, Int32.toInt_ofInt]
  exact Int.bmod_eq_of_le (by simp; omega) (by simp; omega)

theorem reported_of_elapsed (h : s.Inv) (hup : 0 ≤ uptime.toInt) (hpos : 0 < s.elapsed uptime)
    (hfit : CountsFit (s.sample uptime).counts) :
    (zephyrEncoderGetSpeed s.encoder uptime).2.toInt = (s.sample uptime).rate 1000 := by
  let enc : ZephyrEncoder :=
    { s.encoder with counter := s.encoder.counter - s.encoder.lastCount, lastCount := 0 }
  have helapsed : (uptime - enc.lastTime).toInt = s.elapsed uptime := toInt_elapsed h hup
  have hcounts : encoderCounts enc = (s.sample uptime).counts := by
    show (s.encoder.counter - s.encoder.lastCount).toInt - (0 : Int32).toInt = _
    rw [toInt_counts h hfit, Int32.toInt_zero, Int.sub_zero]
  have hrange : -2147483648 ≤ encoderCounts enc ∧ encoderCounts enc < 2147483648 := by
    unfold CountsFit at hfit
    omega
  have hexact : (zephyrEncoderGetSpeed enc uptime).2.toInt = _ :=
    toInt_getSpeed (helapsed.symm ▸ hpos) hrange (hcounts.symm ▸ hfit)
  rw [getSpeed_shift, hexact, hcounts, helapsed]
  rfl

/-- A call that measures moves the measured count and time on, and any other call leaves them. -/
theorem getSpeed_encoder (h : s.Inv) (hup : 0 ≤ uptime.toInt) :
    (zephyrEncoderGetSpeed s.encoder uptime).1 =
      if 0 < s.elapsed uptime then
        { s.encoder with lastCount := s.encoder.counter, lastTime := uptime }
      else s.encoder := by
  have hpos : uptime - s.encoder.lastTime > 0 ↔ 0 < s.elapsed uptime := by
    rw [← toInt_elapsed h hup]
    exact Int64.lt_iff_toInt_lt
  unfold zephyrEncoderGetSpeed
  by_cases hel : 0 < s.elapsed uptime
  · simp only [hpos.mpr hel, hel, if_true]
  · simp only [mt hpos.mp hel, hel, if_false]

theorem getSpeed_zero (h : s.Inv) (hup : 0 ≤ uptime.toInt) (hel : ¬ 0 < s.elapsed uptime) :
    (zephyrEncoderGetSpeed s.encoder uptime).2 = 0 := by
  have hpos : ¬ uptime - s.encoder.lastTime > 0 := by
    rw [← toInt_elapsed h hup] at hel
    exact mt Int64.lt_iff_toInt_lt.mp hel
  unfold zephyrEncoderGetSpeed
  simp only [hpos, if_false]

theorem inv_edge (h : s.Inv) : (s.step .edge).Inv := by
  have hcounter : (encoderIsr s.encoder).counter =
      Int32.ofInt (if s.encoder.direction < 0 then s.position - 1 else s.position + 1) := by
    rw [encoderIsr_counter, h.counter]
    split
    · rw [Int32.ofInt_sub]
      rfl
    · rw [Int32.ofInt_add]
      rfl
  have hkept : (encoderIsr s.encoder).lastCount = s.encoder.lastCount ∧
      (encoderIsr s.encoder).lastTime = s.encoder.lastTime := by
    unfold encoderIsr
    split
    · exact ⟨rfl, rfl⟩
    · split <;> exact ⟨rfl, rfl⟩
  refine ⟨hcounter, hkept.1.trans h.lastCount, ?_, ?_, h.time⟩
  · exact (congrArg Int64.toInt hkept.2).symm ▸ h.lastTime
  · exact h.span.trans (congrArg (fun t : Int64 => t.toInt - s.since) hkept.2.symm)

theorem inv_getSpeed (h : s.Inv) (hup : 0 ≤ uptime.toInt) : (s.step (.getSpeed uptime)).Inv := by
  have hencoder := getSpeed_encoder h hup
  have hspan := h.span
  by_cases hel : 0 < s.elapsed uptime
  · rw [if_pos hel] at hencoder
    unfold step
    simp only [hencoder, if_pos hel]
    refine ⟨h.counter, ?_, hup, ?_, ?_⟩
    · rw [counted_cons, sample, sub_add_cancel]
      exact h.counter
    · rw [span_cons, hspan]
      show uptime.toInt - s.encoder.lastTime.toInt + (s.encoder.lastTime.toInt - s.since) =
        uptime.toInt - s.since
      omega
    · intro x hx
      rcases List.mem_cons.mp hx with rfl | hx
      · exact hel
      · exact h.time x hx
  · rw [if_neg hel] at hencoder
    unfold step
    simp only [hencoder, if_neg hel]
    exact ⟨h.counter, h.lastCount, h.lastTime, h.span, h.time⟩

theorem inv_step (h : s.Inv) (c : EncoderCall) (hfit : CallFits s c (s.step c)) : (s.step c).Inv := by
  cases c with
  | edge => exact inv_edge h
  | setDirection dir => exact ⟨h.counter, h.lastCount, h.lastTime, h.span, h.time⟩
  | getSpeed uptime => exact inv_getSpeed h hfit.1
  | reset uptime =>
      exact ⟨rfl, rfl, hfit, (sub_self _).symm, fun x hx => by cases hx⟩

theorem step_law (h : s.Inv) (c : EncoderCall) (hfit : CallFits s c (s.step c)) :
    MeterLaw s c (s.step c) := by
  have hnext := inv_step h c hfit
  refine ⟨?_, ?_, hnext.span, abs_counted_sub_covered_le 1000 hnext.time⟩
  · rintro uptime rfl
    by_cases hel : 0 < s.elapsed uptime
    · rw [if_pos hel]
      exact reported_of_elapsed h hfit.1 hel (hfit.2 hel)
    · rw [if_neg hel, getSpeed_zero h hfit.1 hel, Int32.toInt_zero]
  · rintro uptime rfl hel
    unfold step
    simp only [if_pos hel]
    rw [counted_cons, sample, sub_add_cancel]

end Step

theorem start_inv (ready : Bool) {uptime : Int64} (h : 0 ≤ uptime.toInt) :
    (start ready uptime).Inv :=
  ⟨rfl, rfl, h, (sub_self _).symm, fun x hx => by cases hx⟩

/-- Along every sequence of edges, turns of direction, measurements and resets. -/
theorem speeds_add_up (ready : Bool) (uptime : Int64) (hup : 0 ≤ uptime.toInt)
    (calls : List EncoderCall) (hfit : Always step CallFits (start ready uptime) calls) :
    Always step MeterLaw (start ready uptime) calls :=
  Always.of_invariant_of_always (I := Inv) (fun _ c h hc => step_law h c hc)
    (fun _ c h hc => inv_step h c hc) calls (start_inv ready hup) hfit

/-- Four edges forward and one back, measured at 7 and again at 7 and at 20 milliseconds. -/
theorem speeds_add_up_back :
    Always step MeterLaw (start true 0)
      [.edge, .edge, .getSpeed 7, .getSpeed 7, .edge, .edge, .setDirection (-1), .edge, .getSpeed 20] :=
  speeds_add_up true 0 (by decide) _
    ⟨trivial, trivial, ⟨by decide, fun _ => by decide⟩, ⟨by decide, fun _ => by decide⟩, trivial, trivial,
      trivial, trivial, ⟨by decide, fun _ => by decide⟩, trivial⟩

end Metered

/-! ## The samples of the control steps -/

/-- A controller, with the position it last sampled when the run began, and its samples since, the last
one first. -/
structure Trip (F : Type) where
  accel : ZephyrAccelmotor F
  origin : ℤ
  samples : List Sample

namespace Trip
variable {F : Type} [FloatArith F]

def start (accel : ZephyrAccelmotor F) : Trip F := ⟨accel, accel.lastPos.toInt, []⟩

def sample (s : Trip F) (pos : Int32) : Sample := ⟨tickCounts s.accel pos, s.accel.dtMs.toNat⟩

def step (s : Trip F) (c : AccelCall) : Trip F where
  accel := s.accel.step c
  origin := s.origin
  samples := match c with
    | .tick pos uptime => if gateOpen s.accel uptime then s.sample pos :: s.samples else s.samples
    | _ => s.samples

/-- At a control step the counts and the speed fit their types. -/
def StepFits (s : Trip F) (c : AccelCall) (_ : Trip F) : Prop :=
  match c with
  | .tick pos uptime => gateOpen s.accel uptime →
      CountsFit (tickCounts s.accel pos) ∧ SpeedFits (tickCounts s.accel pos) s.accel.dtMs.toNat
  | _ => True

instance (s : Trip F) (t : Trip F) : ∀ c, Decidable (StepFits s c t)
  | .setRunMode _ => inferInstanceAs (Decidable True)
  | .setTargetPos _ => inferInstanceAs (Decidable True)
  | .setTargetSpeed _ => inferInstanceAs (Decidable True)
  | .tick _ _ => inferInstanceAs (Decidable (_ → (_ ∧ _) ∧ _ ∧ _))

/-- Every control step hands the filter the rate of its sample, the samples contain every count once, and
what they add up to lags by less than a count per second of control steps. -/
structure TripLaw (s : Trip F) (c : AccelCall) (t : Trip F) : Prop where
  reported : ∀ pos uptime, c = .tick pos uptime → gateOpen s.accel uptime →
    (rawSpeed { s.accel with currentPos := pos }).toInt = (s.sample pos).rate 1000
  counted : t.origin + counted t.samples = t.accel.lastPos.toInt
  error : |1000 * (t.accel.lastPos.toInt - t.origin) - covered 1000 t.samples| ≤
    t.samples.length * (t.accel.dtMs.toNat - 1)

structure Inv (s : Trip F) : Prop where
  period : 0 < s.accel.dtMs.toNat ∧ s.accel.dtMs.toNat < 2147483648
  counted : s.origin + counted s.samples = s.accel.lastPos.toInt
  time : ∀ x ∈ s.samples, x.time = s.accel.dtMs.toNat

section Step
variable {s : Trip F} {c : AccelCall}

theorem dtMs_step (accel : ZephyrAccelmotor F) (c : AccelCall) :
    (accel.step c).dtMs = accel.dtMs := by
  cases c with
  | setRunMode mode => cases mode <;> rfl
  | setTargetPos pos => rfl
  | setTargetSpeed speed => rfl
  | tick pos uptime => exact Sampled.dtMs_step ⟨accel, none⟩ ⟨pos, uptime⟩

/-- Only a control step moves the sampled position, to that of its tick. -/
theorem lastPos_tick (accel : ZephyrAccelmotor F) (pos : Int32) (uptime : Int64) :
    (accel.step (.tick pos uptime)).lastPos = if gateOpen accel uptime then pos else accel.lastPos := by
  have hstep : accel.step (.tick pos uptime) = _ := ZephyrAccelmotor.step_tick ⟨pos, uptime⟩
  rw [hstep]
  split
  · rw [regulate_eq]
    rfl
  · rfl

theorem samples_of_open {pos : Int32} {uptime : Int64} (h : gateOpen s.accel uptime) :
    (s.step (.tick pos uptime)).samples = s.sample pos :: s.samples := if_pos h

theorem samples_of_closed {pos : Int32} {uptime : Int64} (h : ¬ gateOpen s.accel uptime) :
    (s.step (.tick pos uptime)).samples = s.samples := if_neg h

theorem inv_tick (h : s.Inv) (pos : Int32) (uptime : Int64) : (s.step (.tick pos uptime)).Inv := by
  have hdt := dtMs_step s.accel (.tick pos uptime)
  have hlast := lastPos_tick s.accel pos uptime
  have hcounted := h.counted
  constructor
  case period =>
    show 0 < (s.accel.step (.tick pos uptime)).dtMs.toNat ∧
      (s.accel.step (.tick pos uptime)).dtMs.toNat < 2147483648
    rw [hdt]
    exact h.period
  case counted =>
    show s.origin + counted (s.step (.tick pos uptime)).samples =
      (s.accel.step (.tick pos uptime)).lastPos.toInt
    rw [hlast]
    by_cases hgate : gateOpen s.accel uptime
    · rw [samples_of_open hgate, if_pos hgate, counted_cons]
      show s.origin + (pos.toInt - s.accel.lastPos.toInt + counted s.samples) = pos.toInt
      omega
    · rw [samples_of_closed hgate, if_neg hgate]
      exact hcounted
  case time =>
    intro x hx
    show x.time = (s.accel.step (.tick pos uptime)).dtMs.toNat
    rw [hdt]
    by_cases hgate : gateOpen s.accel uptime
    · rw [samples_of_open hgate] at hx
      rcases List.mem_cons.mp hx with rfl | hx
      · rfl
      · exact h.time x hx
    · rw [samples_of_closed hgate] at hx
      exact h.time x hx

theorem inv_step (h : s.Inv) (c : AccelCall) : (s.step c).Inv := by
  cases c with
  | setRunMode mode => cases mode <;> exact ⟨h.period, h.counted, h.time⟩
  | setTargetPos pos => exact ⟨h.period, h.counted, h.time⟩
  | setTargetSpeed speed => exact ⟨h.period, h.counted, h.time⟩
  | tick pos uptime => exact inv_tick h pos uptime

/-- Samples of one period. -/
theorem span_of_time {l : List Sample} {d : ℤ} (h : ∀ x ∈ l, x.time = d) :
    span l = l.length * d := by
  induction l with
  | nil => simp
  | cons x l ih =>
      rw [span_cons, h x List.mem_cons_self, ih fun y hy => h y (List.mem_cons_of_mem x hy),
        List.length_cons]
      push_cast
      ring

theorem step_law (h : s.Inv) (hfit : StepFits s c (s.step c)) : TripLaw s c (s.step c) := by
  have hnext := inv_step h c
  have hpos : (0 : ℤ) < (s.step c).accel.dtMs.toNat := Int.natCast_pos.mpr hnext.period.1
  refine ⟨?_, hnext.counted, ?_⟩
  · rintro pos uptime rfl hgate
    have hboth := hfit hgate
    have hcounts : -2147483648 ≤ tickCounts s.accel pos ∧ tickCounts s.accel pos < 2147483648 := by
      have hcount := hboth.1
      unfold CountsFit at hcount
      omega
    exact ((tickExact_iff h.period hcounts).mpr hboth).exact
  · have herror := abs_counted_sub_covered_le 1000 (l := (s.step c).samples)
      fun x hx => (hnext.time x hx).symm ▸ hpos
    have htotal : (s.step c).accel.lastPos.toInt - (s.step c).origin = counted (s.step c).samples := by
      rw [← hnext.counted]
      omega
    rw [span_of_time hnext.time] at herror
    rw [htotal, mul_sub, mul_one]
    exact herror

end Step

/-- Along every sequence of calls of a controller, however late its ticks are. -/
theorem samples_add_up (accel : ZephyrAccelmotor F)
    (hperiod : 0 < accel.dtMs.toNat ∧ accel.dtMs.toNat < 2147483648) (calls : List AccelCall)
    (hfit : Always step StepFits (start accel) calls) :
    Always step TripLaw (start accel) calls :=
  Always.of_invariant_of_always (I := Inv) (fun _ _ h hc => step_law h hc)
    (fun _ c h _ => inv_step h c) calls
    ⟨hperiod, Int.add_zero _, fun x hx => by cases hx⟩ hfit

/-- Ticks that come late, and one between two control steps. -/
theorem samples_add_up_late :
    Always step TripLaw (start freshWheel)
      [.tick 3 20, .setTargetSpeed 10, .tick 11 55, .tick 12 56, .tick 4 90] :=
  samples_add_up freshWheel (by decide) _ (by decide +kernel)

end Trip
end Mecanum.Wheel
