import Mecanum.Foundations.Bits
import Mecanum.Gamepad.ButtonEvents

/-! # Events of several buttons

The button functions test whether any bit of a mask changed and whether any of its buttons is held, not
whether it is the same button. For a mask of several buttons the events are right unless one of
them is held throughout while others only go down or only come up.
-/

namespace Mecanum.Gamepad
open Trace Bits
set_option autoImplicit false

def InMask (mask : UInt16) (i : ℕ) : Prop := mask.toBitVec.getLsbD i = true

instance (mask : UInt16) (i : ℕ) : Decidable (InMask mask i) := inferInstanceAs (Decidable (_ = _))

section Mask
variable (mask prev now : UInt16)

def AnyPressed : Prop := ∃ i < 16, InMask mask i ∧ ¬ Held prev i ∧ Held now i

def AnyReleased : Prop := ∃ i < 16, InMask mask i ∧ Held prev i ∧ ¬ Held now i

def AnyKept : Prop := ∃ i < 16, InMask mask i ∧ Held prev i ∧ Held now i

/-- No button of the mask is held throughout, or some go down and some come up, or none changes. -/
def Unmixed : Prop :=
  ¬ AnyKept mask prev now ∨ (AnyPressed mask prev now ↔ AnyReleased mask prev now)

variable {mask prev now}

theorem held_now_iff (prev : UInt16) : (~~~now &&& mask != 0) = true ↔
    AnyPressed mask prev now ∨ AnyKept mask prev now := by
  unfold AnyPressed AnyKept
  rw [and_ne_zero_iff]
  constructor
  · rintro ⟨i, hi, hmask, hbit⟩
    have hnow : Held now i := by simpa [Held, hi] using hbit
    by_cases hprev : Held prev i
    · exact .inr ⟨i, hi, hmask, hprev, hnow⟩
    · exact .inl ⟨i, hi, hmask, hprev, hnow⟩
  · rintro (⟨i, hi, hmask, -, hnow⟩ | ⟨i, hi, hmask, -, hnow⟩)
    all_goals exact ⟨i, hi, hmask, by simpa [Held, hi] using hnow⟩

theorem anyReleased_eq : AnyReleased mask prev now ↔ AnyPressed mask now prev := by
  unfold AnyReleased AnyPressed
  refine exists_congr fun i => and_congr_right fun _ => and_congr_right fun _ => and_comm

theorem anyKept_comm : AnyKept mask prev now ↔ AnyKept mask now prev := by
  unfold AnyKept
  refine exists_congr fun i => and_congr_right fun _ => and_congr_right fun _ => and_comm

theorem held_prev_iff (now : UInt16) : (~~~prev &&& mask != 0) = true ↔
    AnyReleased mask prev now ∨ AnyKept mask prev now := by
  rw [anyReleased_eq, anyKept_comm]
  exact held_now_iff now

theorem changed_iff : ((prev ^^^ now) &&& mask != 0) = true ↔
    AnyPressed mask prev now ∨ AnyReleased mask prev now := by
  unfold AnyPressed AnyReleased
  rw [and_ne_zero_iff]
  simp only [UInt16.toBitVec_xor, BitVec.getLsbD_xor]
  constructor
  · rintro ⟨i, hi, hmask, hbit⟩
    by_cases hnow : Held now i
    · refine .inl ⟨i, hi, hmask, fun hprev => ?_, hnow⟩
      rw [hnow, hprev] at hbit
      exact absurd hbit (by decide)
    · refine .inr ⟨i, hi, hmask, ?_, hnow⟩
      rw [Bool.eq_true_of_not_eq_false hnow] at hbit
      simpa [Held] using hbit
  · rintro (⟨i, hi, hmask, hprev, hnow⟩ | ⟨i, hi, hmask, hprev, hnow⟩)
    · exact ⟨i, hi, hmask, by rw [hnow, Bool.eq_true_of_not_eq_false hprev]; rfl⟩
    · exact ⟨i, hi, hmask, by rw [hprev, Bool.eq_true_of_not_eq_false hnow]; rfl⟩

end Mask

/-! ## Sequences of reads -/

section Session
variable {W : Type} (bus : Bus W) (mask : UInt16)

/-- After a successful read the events of a mask are the changes of its buttons since the last
successful one. -/
def MaskEventsExact (s : Session) (c : ReadCall W) (t : Session) : Prop :=
  s.succeeds bus c = true → ∀ prev ∈ s.good,
    (ps2ButtonPressed t.ps2 mask = true ↔ AnyPressed mask prev t.ps2.buttons) ∧
    (ps2ButtonReleased t.ps2 mask = true ↔ AnyReleased mask prev t.ps2.buttons) ∧
    (ps2NewButtonStateMask t.ps2 mask = true ↔
      AnyPressed mask prev t.ps2.buttons ∨ AnyReleased mask prev t.ps2.buttons)

/-- The last two words mix no button held throughout with changes of one kind. -/
def MaskUnmixed (s : Session) (c : ReadCall W) (_ : Session) : Prop :=
  s.succeeds bus c = true → ∀ prev ∈ s.good, Unmixed mask prev (buttonWord (lastFrame bus s c))

variable {bus mask}

/-- The two tests of a press and the two of a release agree with their transitions exactly when no held
button stands in for the other kind. -/
theorem tests_exact_iff (pressed released kept : Prop) :
    (((pressed ∨ released) ∧ (pressed ∨ kept) ↔ pressed) ∧
      ((pressed ∨ released) ∧ (released ∨ kept) ↔ released)) ↔
      ¬ kept ∨ (pressed ↔ released) := by
  by_cases hpressed : pressed
  · by_cases hreleased : released
    · simp [hpressed, hreleased]
    · simp [hpressed, hreleased]
  · by_cases hreleased : released
    · simp [hpressed, hreleased]
    · simp [hpressed, hreleased]

theorem maskEventsExact_iff (s : Session) (c : ReadCall W) (hcurrent : s.Current) :
    MaskEventsExact bus mask s c (s.read bus c) ↔ MaskUnmixed bus mask s c (s.read bus c) := by
  obtain ⟨hbuttons, hlast⟩ := read_ps2 bus s c
  unfold MaskEventsExact MaskUnmixed Unmixed
  refine imp_congr_right fun _ => forall₂_congr fun prev hprev => ?_
  unfold ps2ButtonPressed ps2ButtonReleased ps2NewButtonStateMask ps2Button
  rw [hlast, hcurrent prev hprev, hbuttons]
  generalize buttonWord (lastFrame bus s c) = now
  rw [Bool.and_eq_true, Bool.and_eq_true, changed_iff, held_now_iff prev,
    held_prev_iff now, iff_self, and_true]
  exact tests_exact_iff _ _ _

theorem read_current_of_succeeds (s : Session) (c : ReadCall W) (hok : s.succeeds bus c = true) :
    (s.read bus c).Current := by
  intro prev hprev
  rw [read_good, if_pos hok] at hprev
  exact Option.some.inj hprev

end Session

/-- In a sequence of successful reads the events of a mask are exact throughout exactly when no two
words in a row mix a button of the mask that is held throughout with changes of one kind only. -/
theorem mask_events_iff {W : Type} (bus : Bus W) (mask : UInt16) (ps2 : Ps2)
    (calls : List (ReadCall W))
    (hgood : Always (Session.read bus) (fun s c _ => s.succeeds bus c = true) ⟨ps2, none⟩ calls) :
    Always (Session.read bus) (MaskEventsExact bus mask) ⟨ps2, none⟩ calls ↔
      Always (Session.read bus) (MaskUnmixed bus mask) ⟨ps2, none⟩ calls :=
  Always.iff_of_invariant_of_always (I := Session.Current)
    (fun s c h _ => maskEventsExact_iff s c h)
    (fun s c _ hok _ => read_current_of_succeeds s c hok) calls (fun _ hprev => by cases hprev) hgood

/-! ## One button held while another comes up -/

/-- UP and LEFT held, then only UP. -/
def leftComesUp : List (ReadCall (List UInt8 × ℕ)) :=
  [⟨false, 0, restFrame 0x6F, 0⟩, ⟨false, 0, restFrame 0xEF, 0⟩]

theorem leftComesUp_good :
    Always (Session.read replay) (fun s c _ => s.succeeds replay c = true) ⟨unread zeroed, none⟩
      leftComesUp := by
  refine ⟨?_, ?_, trivial⟩
  all_goals decide +kernel

theorem mask_events_left :
    Always (Session.read replay) (MaskEventsExact replay psbPadLeft) ⟨unread zeroed, none⟩ leftComesUp ↔
      Always (Session.read replay) (MaskUnmixed replay psbPadLeft) ⟨unread zeroed, none⟩ leftComesUp :=
  mask_events_iff replay psbPadLeft (unread zeroed) leftComesUp leftComesUp_good

/-- LEFT comes up while UP stays held, and a press of LEFT or UP is reported. -/
theorem release_reported_as_press :
    Always (Session.read replay) (fun s c _ => s.succeeds replay c = true) ⟨unread zeroed, none⟩
        leftComesUp ∧
      ¬ Always (Session.read replay) (MaskEventsExact replay (psbPadLeft ||| psbPadUp))
        ⟨unread zeroed, none⟩ leftComesUp := by
  refine ⟨leftComesUp_good, fun h => ?_⟩
  have hpressed := (h.2.1 (by decide +kernel) 0xFF6F (by decide +kernel)).1.mp (by decide +kernel)
  obtain ⟨i, hi, -, hnot, hheld⟩ := hpressed
  revert i
  decide +kernel

end Mecanum.Gamepad
