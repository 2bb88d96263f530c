import Mecanum.Gamepad.Recording

/-! # How long a read takes

The reader waits on purpose only: with `k_busy_wait` inside a frame, with `k_sleep` after one. `elapsed`
is the sum of its waits and `busyStep` what it has spent in `k_busy_wait` since it last slept. A
read fails at most five times and configures the pad at most six times, which bounds both.
-/

namespace Mecanum.Gamepad
open Trace
set_option autoImplicit false

def BusAction.micros : BusAction → ℕ
  | .set _ _ => 0
  | .sample => 0
  | .wait us => us
  | .sleep ms => 1000 * ms

/-- The µs that a log waits. -/
def elapsed (log : List BusAction) : ℕ := (log.map BusAction.micros).sum

/-- The µs of busy waiting since the last sleep. -/
def busyStep (busy : ℕ) : BusAction → ℕ
  | .set _ _ => busy
  | .sample => busy
  | .wait us => busy + us
  | .sleep _ => 0

/-! ## Waiting -/

@[simp] theorem elapsed_append (log more : List BusAction) :
    elapsed (log ++ more) = elapsed log + elapsed more := by
  simp [elapsed]

theorem elapsed_flatMap {α : Type} {body : α → List BusAction} {us : ℕ} (elements : List α)
    (h : ∀ a ∈ elements, elapsed (body a) = us) :
    elapsed (elements.flatMap body) = us * elements.length := by
  induction elements with
  | nil => rfl
  | cons a elements ih =>
      rw [List.flatMap_cons, elapsed_append, h a List.mem_cons_self,
        ih fun b hb => h b (List.mem_cons_of_mem a hb), List.length_cons]
      ring

theorem elapsed_byteActions (data : UInt8) : elapsed (byteActions data) = 98 := by
  have hbits : elapsed ((List.range 8).flatMap (bitActions data)) = 10 * (List.range 8).length :=
    elapsed_flatMap (List.range 8) fun _ _ => rfl
  rw [byteActions, elapsed_append, hbits]
  rfl

theorem elapsed_frame (bytes : List UInt8) :
    elapsed (Segment.frame bytes).actions = 18 + 98 * bytes.length := by
  have hbytes := elapsed_flatMap bytes fun byte _ => elapsed_byteActions byte
  rw [Segment.actions, elapsed_append, elapsed_append, hbytes]
  rfl

theorem elapsed_cons (segment : Segment) (segments : List Segment) :
    elapsed (actionsOf (segment :: segments)) =
      elapsed segment.actions + elapsed (actionsOf segments) := elapsed_append _ _

@[simp] theorem elapsed_nil : elapsed (actionsOf []) = 0 := rfl

@[simp] theorem elapsed_high : elapsed Segment.high.actions = 0 := rfl

@[simp] theorem elapsed_sleep (ms : ℕ) : elapsed (Segment.sleep ms).actions = 1000 * ms := rfl

theorem elapsed_string (readDelay : UInt8) (string : List UInt8) :
    elapsed (actionsOf (stringSegments readDelay string)) =
      18 + 98 * string.length + 1000 * readDelay.toNat := by
  simp [stringSegments, elapsed_cons, elapsed_frame]

/-- What `ps2_reconfig` waits. -/
def reconfigMicros (ps2 : Ps2) : ℕ :=
  2308 + 3000 * ps2.readDelay.toNat + (if ps2.enRumble then 508 + 1000 * ps2.readDelay.toNat else 0) +
    if ps2.enPressures then 900 + 1000 * ps2.readDelay.toNat else 0

theorem elapsed_reconfig (ps2 : Ps2) :
    elapsed (actionsOf (reconfigSegments ps2)) = reconfigMicros ps2 := by
  have hlengths : enterConfig.length = 5 ∧ setMode.length = 9 ∧ enableRumble.length = 5 ∧
      setBytesLarge.length = 9 ∧ exitConfig.length = 9 := by decide
  obtain ⟨h1, h2, h3, h4, h5⟩ := hlengths
  unfold reconfigSegments reconfigStrings Device.configFrames reconfigMicros
  cases ps2.enRumble <;> cases ps2.enPressures <;>
    simp [actionsOf_append, elapsed_string, h1, h2, h3, h4, h5] <;> omega

theorem modeByte_storeAt (data : Vector UInt8 21) (bytes : List UInt8) :
    modeByte (storeAt data 9 bytes) = modeByte data := by
  unfold modeByte
  rw [Device.getElem_storeAt data 9 bytes 1 (by decide), if_neg (by decide)]

/-! ## Attempts -/

section Attempts
variable {W : Type} (bus : Bus W) (ps2 : Ps2) {dword : List UInt8} (hlength : dword.length = 9)

/-- A failed attempt ends after the bytes of the command. -/
theorem transactionSegments_of_bad {dword : List UInt8} {data : Vector UInt8 21} {w : W}
    (hbad : ¬ frameOk (transaction bus dword data w).1 = true) :
    transactionSegments bus dword data w = [.high, .frame dword] := by
  dsimp only [transaction, transactionSegments] at hbad ⊢
  split at hbad
  · next hmore =>
      exact absurd (Device.frameOk_of_mode (.inl ((modeByte_storeAt _ _).trans hmore))) hbad
  · next hmore => rw [if_neg (show ¬ modeByte _ = 0x79 from hmore), List.append_nil]

include hlength

theorem transactionSegments_length (data : Vector UInt8 21) (w : W) : ∃ bytes : List UInt8,
    transactionSegments bus dword data w = [.high, .frame bytes] ∧ bytes.length ≤ 21 := by
  refine ⟨_, rfl, ?_⟩
  split <;> simp [hlength]

theorem elapsed_transaction_le (data : Vector UInt8 21) (w : W) :
    elapsed (actionsOf (transactionSegments bus dword data w)) ≤ 2076 := by
  obtain ⟨bytes, hsegments, hle⟩ := transactionSegments_length bus hlength data w
  simp only [hsegments, elapsed_cons, elapsed_high, elapsed_frame, elapsed_nil]
  omega

theorem elapsed_attempts_le (retries : ℕ) (data : Vector UInt8 21) (w : W) :
    elapsed (actionsOf (attemptsSegments bus ps2 dword retries data w)) ≤
      retries * (900 + reconfigMicros ps2 + 1000 * ps2.readDelay.toNat) := by
  have hreconfig : 2308 ≤ reconfigMicros ps2 := by
    unfold reconfigMicros
    omega
  induction retries generalizing data w with
  | zero => exact Nat.zero_le _
  | succ retries ih =>
      rw [attemptsSegments, Nat.succ_mul]
      dsimp only
      split
      · have hle := elapsed_transaction_le bus hlength data w
        omega
      · next hbad =>
          have hrest := ih (transaction bus dword data w).1
            (bus.sleep ps2.readDelay.toUInt64 (ps2Reconfig bus ps2 (transaction bus dword data w).2))
          rw [transactionSegments_of_bad bus hbad]
          simp only [actionsOf_append, elapsed_append, elapsed_cons, elapsed_high, elapsed_frame,
            elapsed_sleep, elapsed_nil, elapsed_reconfig, hlength]
          omega

end Attempts

/-! ## A whole read -/

section Read
variable {W : Type} (bus : Bus W) (ps2 : Ps2)

/-- The read either configures the pad first or sleeps, or neither. -/
theorem elapsed_settle_le (w : W) :
    elapsed (actionsOf (settleSegments bus ps2 w)) ≤ reconfigMicros ps2 := by
  unfold settleSegments
  dsimp only
  generalize (bus.uptime w).1 - ps2.lastRead = since
  have hdelay : ps2.readDelay.toUInt64.toNat = ps2.readDelay.toNat := rfl
  have hbyte := ps2.readDelay.toNat_lt
  rw [actionsOf_append, elapsed_append]
  split
  · next hlate =>
      rw [gt_iff_lt, UInt64.lt_iff_toNat_lt] at hlate
      have hslow : ¬ since < ps2.readDelay.toUInt64 := by
        rw [UInt64.lt_iff_toNat_lt, hdelay]
        exact fun h => absurd (hlate.trans h) (by simp; omega)
      rw [if_neg hslow, elapsed_reconfig]
      exact le_rfl
  · split
    · next hsoon =>
        have hle : (ps2.readDelay.toUInt64 - since).toNat ≤ ps2.readDelay.toNat := by
          rw [UInt64.toNat_sub_of_le _ _ (UInt64.le_of_lt hsoon), hdelay]
          exact Nat.sub_le _ _
        simp only [elapsed_cons, elapsed_sleep, elapsed_nil]
        unfold reconfigMicros
        omega
    · exact Nat.zero_le _

theorem elapsed_read_le (motor1 : Bool) (motor2 : UInt8) (w : W) :
    elapsed (actionsOf (readSegments bus ps2 motor1 motor2 w)) ≤
      6 * reconfigMicros ps2 + 5 * (900 + 1000 * ps2.readDelay.toNat) := by
  have hsettle := elapsed_settle_le bus ps2 w
  have hattempts := elapsed_attempts_le bus ps2 (Device.length_readCommand motor1 motor2) 5 ps2.data
    (settle bus ps2 w)
  rw [readSegments, actionsOf_append, elapsed_append]
  omega

end Read

/-! ## Busy waiting -/

/-- From at most `k` µs without sleep, the segments never get past 2076 and end with at most `k'`. -/
def Stays (k : ℕ) (segments : List Segment) (k' : ℕ) : Prop :=
  Phase busyStep (fun _ _ busy => busy ≤ 2076) (· ≤ k) (actionsOf segments) (· ≤ k')

theorem awake_phase {log : List BusAction} {k : ℕ} (hawake : ∀ ms, BusAction.sleep ms ∉ log)
    (hle : k + elapsed log ≤ 2076) :
    Phase busyStep (fun _ _ busy => busy ≤ 2076) (· ≤ k) log (· ≤ k + elapsed log) := by
  induction log generalizing k with
  | nil => exact fun busy h => ⟨trivial, h⟩
  | cons action log ih =>
      have hcons : elapsed (action :: log) = action.micros + elapsed log := rfl
      have hstep : ∀ busy, busyStep busy action = busy + action.micros := by
        intro busy
        cases action with
        | sleep ms => exact absurd List.mem_cons_self (hawake ms)
        | _ => rfl
      rw [hcons, ← Nat.add_assoc] at hle ⊢
      intro busy hbusy
      have hnext : busyStep busy action ≤ k + action.micros := by
        rw [hstep]
        exact Nat.add_le_add_right hbusy _
      obtain ⟨halways, hend⟩ := ih (fun ms h => hawake ms (List.mem_cons_of_mem action h)) hle _ hnext
      exact ⟨⟨hnext.trans (by omega), halways⟩, hend⟩

theorem frame_awake (bytes : List UInt8) (ms : ℕ) :
    BusAction.sleep ms ∉ (Segment.frame bytes).actions := by
  simp [Segment.actions, byteActions, bitActions]

namespace Stays
variable {k k' k'' : ℕ} {segments more : List Segment}

theorem append (h : Stays k segments k') (h' : Stays k' more k'') : Stays k (segments ++ more) k'' := by
  unfold Stays
  rw [actionsOf_append]
  exact Phase.append h h'

theorem frame {bytes : List UInt8} (hle : k + (18 + 98 * bytes.length) ≤ 2076) :
    Stays k [.frame bytes] (k + (18 + 98 * bytes.length)) := by
  rw [← elapsed_frame] at hle ⊢
  have hactions : actionsOf [.frame bytes] = (Segment.frame bytes).actions := List.append_nil _
  unfold Stays
  rw [hactions]
  exact awake_phase (frame_awake bytes) hle

theorem mono (h : Stays k segments k') (hle : k' ≤ k'') : Stays k segments k'' :=
  fun busy hbusy => ⟨(h busy hbusy).1, (h busy hbusy).2.trans hle⟩

theorem attempt {bytes : List UInt8} (hle : bytes.length ≤ 21) :
    Stays 0 [.high, .frame bytes] (18 + 98 * bytes.length) := by
  have hhigh : Stays 0 [.high] 0 := by
    rintro busy hbusy
    obtain rfl := Nat.le_zero.mp hbusy
    exact ⟨⟨Nat.zero_le _, Nat.zero_le _, trivial⟩, le_rfl⟩
  have hframe : Stays 0 [.frame bytes] (18 + 98 * bytes.length) :=
    (frame (by omega)).mono (by omega)
  exact hhigh.append hframe

theorem sleep (ms : ℕ) : Stays k [.sleep ms] 0 :=
  fun _ _ => ⟨⟨Nat.zero_le _, trivial⟩, le_rfl⟩

theorem string {string : List UInt8} (readDelay : UInt8)
    (hle : k + (18 + 98 * string.length) ≤ 2076) : Stays k (stringSegments readDelay string) 0 :=
  (frame hle).append (sleep readDelay.toNat)

theorem strings {strings : List (List UInt8)} (readDelay : UInt8)
    (hle : ∀ string ∈ strings, string.length ≤ 9) :
    Stays 0 (strings.flatMap (stringSegments readDelay)) 0 := by
  unfold Stays actionsOf
  rw [List.flatMap_assoc]
  refine Phase.flatMap fun string hmem => Stays.string readDelay ?_
  have h := hle string hmem
  omega

end Stays

theorem length_configFrames (rumble pressures : Bool) :
    ∀ string ∈ Device.configFrames rumble pressures ++ [exitConfig], string.length ≤ 9 := by
  revert rumble pressures
  decide

/-- Right after a failed attempt. -/
theorem reconfig_stays (ps2 : Ps2) : Stays 900 (reconfigSegments ps2) 0 := by
  have henter : Stays 900 (stringSegments ps2.readDelay enterConfig) 0 :=
    Stays.string ps2.readDelay (by decide)
  unfold reconfigSegments reconfigStrings
  rw [List.append_assoc, List.flatMap_append, List.flatMap_singleton]
  exact henter.append (Stays.strings ps2.readDelay (length_configFrames _ _))

section Busy
variable {W : Type} (bus : Bus W) (ps2 : Ps2)

theorem attempts_stays {dword : List UInt8} (hlength : dword.length = 9) (retries : ℕ)
    (data : Vector UInt8 21) (w : W) :
    Stays 0 (attemptsSegments bus ps2 dword retries data w) 2076 := by
  induction retries generalizing data w with
  | zero => exact fun busy h => ⟨trivial, le_trans h (Nat.zero_le _)⟩
  | succ retries ih =>
      rw [attemptsSegments]
      dsimp only
      split
      · obtain ⟨bytes, hsegments, hle⟩ := transactionSegments_length bus hlength data w
        rw [hsegments]
        exact (Stays.attempt hle).mono (by omega)
      · next hbad =>
          have hattempt : Stays 0 [.high, .frame dword] 900 :=
            (Stays.attempt (by omega)).mono (by omega)
          rw [transactionSegments_of_bad bus hbad]
          exact ((hattempt.append (reconfig_stays ps2)).append (Stays.sleep _)).append (ih _ _)

theorem settle_stays (w : W) : Stays 0 (settleSegments bus ps2 w) 0 := by
  have hnil : Stays 0 [] 0 := Phase.nil
  have hreconfig : Stays 0 (reconfigSegments ps2) 0 := fun busy h =>
    reconfig_stays ps2 busy (le_trans h (Nat.zero_le _))
  unfold settleSegments
  dsimp only
  split <;> split
  · exact hreconfig.append (Stays.sleep _)
  · exact hreconfig.append hnil
  · exact hnil.append (Stays.sleep _)
  · exact hnil.append hnil

/-- A read that starts after a sleep. -/
theorem read_stays (motor1 : Bool) (motor2 : UInt8) (w : W) :
    Stays 0 (readSegments bus ps2 motor1 motor2 w) 2076 :=
  (settle_stays bus ps2 w).append
    (attempts_stays bus ps2 (Device.length_readCommand motor1 motor2) 5 ps2.data (settle bus ps2 w))

end Busy

end Mecanum.Gamepad
