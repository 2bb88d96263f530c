import Mecanum.Foundations.Trace
import Mecanum.Gamepad.Ps2
import Mathlib.Data.Bool.Basic

/-! # Button events across failed reads

Each read meets an arbitrary world, so it may fail at any position of a run and leave any bytes
behind. `Session` adds to the reader the button word of the last successful read. A failed read
latches its bytes like a good one, so the law holds exactly when those bytes repeat the word
that is already there.
-/

namespace Mecanum.Gamepad
open Trace
set_option autoImplicit false

/-! ## Single buttons -/

def buttonMask (i : ℕ) : UInt16 := ⟨BitVec.twoPow 16 i⟩

/-- Button `i` is held: its bit is 0. -/
def Held (word : UInt16) (i : ℕ) : Prop := word.toBitVec.getLsbD i = false

instance (word : UInt16) (i : ℕ) : Decidable (Held word i) := inferInstanceAs (Decidable (_ = _))

theorem and_mask_ne_zero {i : ℕ} (hi : i < 16) (word : UInt16) :
    (word &&& buttonMask i != 0) = word.toBitVec.getLsbD i := by
  have hand : (word &&& buttonMask i).toBitVec =
      if word.toBitVec.getLsbD i then BitVec.twoPow 16 i else 0 :=
    BitVec.and_twoPow word.toBitVec i
  have hne : (BitVec.twoPow 16 i) ≠ 0 := by
    intro h0
    have hbit := congrArg (fun v => v.getLsbD i) h0
    simp [hi] at hbit
  rw [Bool.eq_iff_iff, bne_iff_ne, ne_eq, ← UInt16.toBitVec_inj, hand]
  cases word.toBitVec.getLsbD i
  · simp
  · simpa using hne

section Single
variable (ps2 : Ps2) {i : ℕ} (hi : i < 16)
include hi

theorem ps2ButtonPressed_iff : ps2ButtonPressed ps2 (buttonMask i) = true ↔
    ¬ Held ps2.lastButtons i ∧ Held ps2.buttons i := by
  unfold ps2ButtonPressed ps2NewButtonStateMask ps2Button Held
  rw [and_mask_ne_zero hi, and_mask_ne_zero hi]
  simp only [UInt16.toBitVec_xor, UInt16.toBitVec_not, BitVec.getLsbD_xor, BitVec.getLsbD_not, hi]
  cases ps2.lastButtons.toBitVec.getLsbD i <;> cases ps2.buttons.toBitVec.getLsbD i <;> decide

theorem ps2ButtonReleased_iff : ps2ButtonReleased ps2 (buttonMask i) = true ↔
    Held ps2.lastButtons i ∧ ¬ Held ps2.buttons i := by
  unfold ps2ButtonReleased ps2NewButtonStateMask Held
  rw [and_mask_ne_zero hi, and_mask_ne_zero hi]
  simp only [UInt16.toBitVec_xor, UInt16.toBitVec_not, BitVec.getLsbD_xor, BitVec.getLsbD_not, hi]
  cases ps2.lastButtons.toBitVec.getLsbD i <;> cases ps2.buttons.toBitVec.getLsbD i <;> decide

end Single

theorem eq_of_held_iff {v w : UInt16} (h : ∀ i < 16, (Held v i ↔ Held w i)) : v = w := by
  rw [← UInt16.toBitVec_inj]
  refine BitVec.eq_of_getLsbD_eq fun i hi => ?_
  have hheld := h i hi
  unfold Held at hheld
  rwa [Bool.eq_false_iff, Bool.eq_false_iff, not_iff_not, Bool.coe_iff_coe] at hheld

/-! ## Sequences of reads -/

structure ReadCall (W : Type) where
  motor1 : Bool
  motor2 : UInt8
  world : W

/-- The reader with the button word of the last successful read, if there was one. -/
structure Session where
  ps2 : Ps2
  good : Option UInt16

section Session
variable {W : Type} (bus : Bus W)

def lastFrame (s : Session) (c : ReadCall W) : Vector UInt8 21 :=
  (receive bus s.ps2 c.motor1 c.motor2 c.world).1

def Session.read (s : Session) (c : ReadCall W) : Session :=
  let read := ps2ReadGamepad bus s.ps2 c.motor1 c.motor2 c.world
  ⟨read.1, if read.2.1 then some read.1.buttons else s.good⟩

def Session.succeeds (s : Session) (c : ReadCall W) : Bool :=
  (ps2ReadGamepad bus s.ps2 c.motor1 c.motor2 c.world).2.1

/-- After a successful read the events of every button are its changes since the last successful
one. -/
def EventsExact (s : Session) (c : ReadCall W) (t : Session) : Prop :=
  s.succeeds bus c = true → ∀ prev ∈ s.good, ∀ i < 16,
    (ps2ButtonPressed t.ps2 (buttonMask i) = true ↔ ¬ Held prev i ∧ Held t.ps2.buttons i) ∧
    (ps2ButtonReleased t.ps2 (buttonMask i) = true ↔ Held prev i ∧ ¬ Held t.ps2.buttons i)

def FailureKeeps (s : Session) (c : ReadCall W) (t : Session) : Prop :=
  s.succeeds bus c = false →
    t.ps2.buttons = s.ps2.buttons ∧ t.ps2.lastButtons = s.ps2.lastButtons

/-- A failed read ends on a frame that repeats the stored word, with no event pending. -/
def FailureRepeats (s : Session) (c : ReadCall W) (_ : Session) : Prop :=
  s.succeeds bus c = false →
    buttonWord (lastFrame bus s c) = s.ps2.buttons ∧ s.ps2.lastButtons = s.ps2.buttons

/-- A successful read finds the word of the last successful one in `buttons`. -/
def WordKept (s : Session) (c : ReadCall W) (_ : Session) : Prop :=
  s.succeeds bus c = true → ∀ prev ∈ s.good, s.ps2.buttons = prev

theorem read_ps2 (s : Session) (c : ReadCall W) :
    (s.read bus c).ps2.buttons = buttonWord (lastFrame bus s c) ∧
      (s.read bus c).ps2.lastButtons = s.ps2.buttons := by
  obtain ⟨lastRead, hlatch, -⟩ := ps2ReadGamepad_eq_latch bus s.ps2 c.motor1 c.motor2 c.world
  have hps2 : (s.read bus c).ps2 = s.ps2.latch (lastFrame bus s c) lastRead := hlatch
  rw [hps2]
  exact ⟨rfl, rfl⟩

variable {bus}

theorem read_good (s : Session) (c : ReadCall W) : (s.read bus c).good =
    if s.succeeds bus c then some (s.read bus c).ps2.buttons else s.good := rfl

theorem eventsExact_iff (s : Session) (c : ReadCall W) :
    EventsExact bus s c (s.read bus c) ↔ WordKept bus s c (s.read bus c) := by
  unfold EventsExact WordKept
  refine imp_congr_right fun _ => forall₂_congr fun prev _ => ?_
  have hlast := (read_ps2 bus s c).2
  constructor
  · intro h
    refine eq_of_held_iff fun i hi => ?_
    obtain ⟨hpressed, hreleased⟩ := h i hi
    rw [ps2ButtonPressed_iff _ hi, hlast] at hpressed
    rw [ps2ButtonReleased_iff _ hi, hlast] at hreleased
    by_cases hnow : Held (s.read bus c).ps2.buttons i
    · simpa only [hnow, and_true, not_iff_not] using hpressed
    · simpa only [hnow, not_false_eq_true, and_true] using hreleased
  · rintro rfl i hi
    rw [ps2ButtonPressed_iff _ hi, ps2ButtonReleased_iff _ hi, hlast]
    exact ⟨Iff.rfl, Iff.rfl⟩

theorem failureKeeps_iff (s : Session) (c : ReadCall W) :
    FailureKeeps bus s c (s.read bus c) ↔ FailureRepeats bus s c (s.read bus c) := by
  obtain ⟨hbuttons, hlast⟩ := read_ps2 bus s c
  unfold FailureKeeps FailureRepeats
  rw [hbuttons, hlast]
  exact imp_congr_right fun _ => and_congr_right fun _ => eq_comm

def Session.Current (s : Session) : Prop := ∀ prev ∈ s.good, s.ps2.buttons = prev

theorem read_current (s : Session) (c : ReadCall W) (h : s.Current)
    (hrepeats : FailureRepeats bus s c (s.read bus c)) : (s.read bus c).Current := by
  intro prev hprev
  rw [read_good] at hprev
  cases hok : s.succeeds bus c
  · rw [hok] at hprev
    rw [(read_ps2 bus s c).1, (hrepeats hok).1]
    exact h prev (by simpa using hprev)
  · rw [hok] at hprev
    exact Option.some.inj hprev

end Session

/-- Failed reads are invisible in a sequence of reads exactly when every failed read ends on a frame
that repeats the stored button word while no event is pending. The events alone are exact exactly
when every successful read still finds the word of the last successful one. -/
theorem failed_reads_invisible_iff {W : Type} (bus : Bus W) (ps2 : Ps2) (calls : List (ReadCall W)) :
    (Always (Session.read bus) (fun s c t => EventsExact bus s c t ∧ FailureKeeps bus s c t)
        ⟨ps2, none⟩ calls ↔
      Always (Session.read bus) (FailureRepeats bus) ⟨ps2, none⟩ calls) ∧
    (Always (Session.read bus) (EventsExact bus) ⟨ps2, none⟩ calls ↔
      Always (Session.read bus) (WordKept bus) ⟨ps2, none⟩ calls) := by
  constructor
  · refine Always.iff_of_invariant (I := Session.Current) ?_
      (fun s c h hC => read_current s c h hC) calls (fun prev hprev => by cases hprev)
    intro s c h
    rw [eventsExact_iff, failureKeeps_iff]
    exact and_iff_right fun _ => h
  · exact Always.iff_of_forall eventsExact_iff _ calls

/-! ## A held button across a glitch -/

/-- LEFT is held over three reads. The second one fails, and the third reports a press. -/
theorem press_reported_twice :
    ¬ Always (Session.read replay) (fun s c t => EventsExact replay s c t ∧ FailureKeeps replay s c t)
      ⟨unread zeroed, none⟩
      [⟨false, 0, restFrame 0x7F, 0⟩, ⟨false, 0, [], 0⟩, ⟨false, 0, restFrame 0x7F, 0⟩] := by
  intro h
  have hthird := h.2.2.1.1 (by decide +kernel) 0xFF7F (by decide +kernel) 7 (by decide)
  have hreleased := (hthird.1.mp (by decide +kernel)).1
  exact absurd hreleased (by decide +kernel)

end Mecanum.Gamepad
