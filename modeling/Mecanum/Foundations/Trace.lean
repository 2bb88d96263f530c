import Mathlib.Algebra.Order.Archimedean.Basic
import Mathlib.Data.List.Basic
import Mathlib.Data.Nat.Notation
import Mathlib.Tactic.Linarith

/-! # Runs of a deterministic step function

A system is a step function `σ → ι → σ`; a run is the list of its inputs. `Always step P s l`
says that `P` relates the state before, the input and the state after at every step of the run
`l` from `s`. The rules below turn facts about one step into facts about whole runs:

* `Always.of_invariant_of_always`: what one step guarantees from an invariant state holds along every
  run that keeps to a side condition.
* `Always.iff_of_invariant`: if, in invariant states, a step meets the property exactly when it
  meets the condition, and the invariant survives every step that meets the condition, then a run
  meets the property throughout exactly when all its steps meet the condition.
-/

namespace Mecanum.Trace
set_option autoImplicit false

variable {σ ι : Type*} {step : σ → ι → σ} {P Q C : σ → ι → σ → Prop} {I : σ → Prop}

def run (step : σ → ι → σ) (s : σ) (l : List ι) : σ := l.foldl step s

/-- `P` holds of every step of the run. -/
def Always (step : σ → ι → σ) (P : σ → ι → σ → Prop) : σ → List ι → Prop
  | _, [] => True
  | s, i :: l => P s i (step s i) ∧ Always step P (step s i) l

instance Always.decidable [∀ s i t, Decidable (P s i t)] :
    ∀ s l, Decidable (Always step P s l)
  | _, [] => isTrue trivial
  | s, i :: l =>
      have := Always.decidable (step s i) l
      inferInstanceAs (Decidable (P s i (step s i) ∧ Always step P (step s i) l))

@[simp] theorem run_cons (s : σ) (i : ι) (l : List ι) :
    run step s (i :: l) = run step (step s i) l := rfl

@[simp] theorem always_cons (s : σ) (i : ι) (l : List ι) :
    Always step P s (i :: l) ↔ P s i (step s i) ∧ Always step P (step s i) l := Iff.rfl

theorem Always.of_forall (h : ∀ s i, P s i (step s i)) (s : σ) (l : List ι) :
    Always step P s l := by
  induction l generalizing s with
  | nil => trivial
  | cons i l ih => exact ⟨h s i, ih (step s i)⟩

theorem Always.and {s : σ} (l : List ι) (hP : Always step P s l) (hQ : Always step Q s l) :
    Always step (fun s i t => P s i t ∧ Q s i t) s l := by
  induction l generalizing s with
  | nil => trivial
  | cons i l ih => exact ⟨⟨hP.1, hQ.1⟩, ih hP.2 hQ.2⟩

/-- Along a run on which `Q` holds throughout, what one step guarantees from an invariant state holds
throughout. -/
theorem Always.of_invariant_of_always
    (hP : ∀ s i, I s → Q s i (step s i) → P s i (step s i))
    (hI : ∀ s i, I s → Q s i (step s i) → I (step s i))
    {s : σ} (l : List ι) (h : I s) (hQ : Always step Q s l) : Always step P s l := by
  induction l generalizing s with
  | nil => trivial
  | cons i l ih => exact ⟨hP s i h hQ.1, ih (hI s i h hQ.1) hQ.2⟩

theorem Always.run_of_invariant (hI : ∀ s i, I s → Q s i (step s i) → I (step s i))
    {s : σ} (l : List ι) (h : I s) (hQ : Always step Q s l) : I (run step s l) := by
  induction l generalizing s with
  | nil => exact h
  | cons i l ih => exact ih (hI s i h hQ.1) hQ.2

theorem Always.run_of_post {R : σ → Prop} {s : σ} (h : R s) (l : List ι)
    (hR : Always step (fun _ _ t => R t) s l) : R (run step s l) := by
  induction l generalizing s with
  | nil => exact h
  | cons i l ih => exact ih hR.1 hR.2

theorem Always.of_invariant (hP : ∀ s i, I s → P s i (step s i)) (hI : ∀ s i, I s → I (step s i))
    {s : σ} (l : List ι) (h : I s) : Always step P s l :=
  Always.of_invariant_of_always (Q := fun _ _ _ => True) (fun s i hs _ => hP s i hs)
    (fun s i hs _ => hI s i hs) l h (Always.of_forall (fun _ _ => trivial) s l)

theorem run_invariant (hI : ∀ s i, I s → I (step s i)) {s : σ} (l : List ι) (h : I s) :
    I (run step s l) :=
  Always.run_of_invariant (Q := fun _ _ _ => True) (fun s i hs _ => hI s i hs) l h
    (Always.of_forall (fun _ _ => trivial) s l)

/-- The exact-condition rule, along runs on which `Q` is known to hold throughout. The invariant
need only survive the steps that meet the condition. -/
theorem Always.iff_of_invariant_of_always
    (hPC : ∀ s i, I s → Q s i (step s i) → (P s i (step s i) ↔ C s i (step s i)))
    (hI : ∀ s i, I s → Q s i (step s i) → C s i (step s i) → I (step s i))
    {s : σ} (l : List ι) (h : I s) (hQ : Always step Q s l) :
    Always step P s l ↔ Always step C s l := by
  induction l generalizing s with
  | nil => exact Iff.rfl
  | cons i l ih =>
      rw [always_cons, always_cons, hPC s i h hQ.1]
      exact and_congr_right fun hC => ih (hI s i h hQ.1 hC) hQ.2

/-- The exact-condition rule. -/
theorem Always.iff_of_invariant
    (hPC : ∀ s i, I s → (P s i (step s i) ↔ C s i (step s i)))
    (hI : ∀ s i, I s → C s i (step s i) → I (step s i)) {s : σ} (l : List ι) (h : I s) :
    Always step P s l ↔ Always step C s l :=
  Always.iff_of_invariant_of_always (Q := fun _ _ _ => True) (fun s i h _ => hPC s i h)
    (fun s i h _ => hI s i h) l h (Always.of_forall (fun _ _ => trivial) s l)

/-- The exact-condition rule where no invariant is needed. -/
theorem Always.iff_of_forall (hPC : ∀ s i, P s i (step s i) ↔ C s i (step s i)) (s : σ)
    (l : List ι) : Always step P s l ↔ Always step C s l :=
  Always.iff_of_invariant (I := fun _ => True) (fun s i _ => hPC s i) (fun _ _ _ _ => trivial) l trivial

/-! ## Inputs in sequence -/

theorem run_append (s : σ) (l m : List ι) : run step s (l ++ m) = run step (run step s l) m :=
  List.foldl_append

theorem always_append {s : σ} (l m : List ι) :
    Always step P s (l ++ m) ↔ Always step P s l ∧ Always step P (run step s l) m := by
  induction l generalizing s with
  | nil => simp [Always, run]
  | cons i l ih => simp [ih, and_assoc]

/-- From every state in `I`, the inputs `l` keep to `P` throughout and end in `J`. -/
def Phase (step : σ → ι → σ) (P : σ → ι → σ → Prop) (I : σ → Prop) (l : List ι) (J : σ → Prop) :
    Prop :=
  ∀ s, I s → Always step P s l ∧ J (run step s l)

section Phase
variable {J K : σ → Prop} {l m : List ι}

theorem Phase.nil : Phase step P I [] I := fun _ h => ⟨trivial, h⟩

theorem Phase.append (h : Phase step P I l J) (h' : Phase step P J m K) :
    Phase step P I (l ++ m) K := by
  intro s hs
  obtain ⟨hl, hmid⟩ := h s hs
  rw [always_append, run_append]
  exact ⟨⟨hl, (h' _ hmid).1⟩, (h' _ hmid).2⟩

/-- The loop rule: if the body for each element keeps `I`, so does the body for all of them. -/
theorem Phase.flatMap {α : Type*} {body : α → List ι} {elements : List α}
    (h : ∀ a ∈ elements, Phase step P I (body a) I) :
    Phase step P I (elements.flatMap body) I := by
  induction elements with
  | nil => exact Phase.nil
  | cons a elements ih =>
      rw [List.flatMap_cons]
      exact (h a List.mem_cons_self).append (ih fun b hb => h b (List.mem_cons_of_mem a hb))

/-- The loop rule with a counter. -/
theorem Phase.flatMap_range {body : ℕ → List ι} {I : ℕ → σ → Prop} {n : ℕ}
    (h : ∀ k < n, Phase step P (I k) (body k) (I (k + 1))) :
    Phase step P (I 0) ((List.range n).flatMap body) (I n) := by
  induction n with
  | zero => exact Phase.nil
  | succ n ih =>
      rw [List.range_succ, List.flatMap_append, List.flatMap_singleton]
      exact (ih fun k hk => h k (Nat.lt_succ_of_lt hk)).append (h n (Nat.lt_succ_self n))

end Phase

/-! ## History, refinement and symmetry -/

/-- What holds along a run holds along every run that only keeps more history. -/
theorem Always.of_project {τ : Type*} {stepT : τ → ι → τ} {project : τ → σ}
    (h : ∀ t i, project (stepT t i) = step (project t) i) {t : τ} (l : List ι)
    (hP : Always step P (project t) l) :
    Always stepT (fun t i t' => P (project t) i (project t')) t l := by
  induction l generalizing t with
  | nil => trivial
  | cons i l ih =>
      rw [always_cons, ← h] at hP
      exact ⟨hP.1, ih hP.2⟩

/-- What an observer notes at each step of a run. -/
def observed {κ : Type*} (step : σ → ι → σ) (note : σ → ι → κ) : σ → List ι → List κ
  | _, [] => []
  | s, i :: l => note s i :: observed step note (step s i) l

/-- If every step is a step of the abstract system on what the observer notes, so is every run. -/
theorem Always.run_refines {τ κ : Type*} {abstract : σ → τ} {note : σ → ι → κ} {stepA : τ → κ → τ}
    (h : ∀ s i, Q s i (step s i) → abstract (step s i) = stepA (abstract s) (note s i)) {s : σ}
    (l : List ι) (hQ : Always step Q s l) :
    abstract (run step s l) = run stepA (abstract s) (observed step note s l) := by
  induction l generalizing s with
  | nil => rfl
  | cons i l ih =>
      rw [run_cons, ih hQ.2, h s i hQ.1]
      rfl

/-- Two copies of the system, each with its own inputs. -/
def twin (step : σ → ι → σ) (p : σ × σ) (i : ι × ι) : σ × σ := (step p.1 i.1, step p.2 i.2)

/-- The exact-condition rule for two related copies: if, from related states and on related inputs, a step
keeps the relation exactly when the first copy's step meets the condition, then two runs stay related
exactly when every step of the first one meets it. -/
theorem Always.twin_iff {R : σ → σ → Prop} {E : ι → ι → Prop}
    (h : ∀ s t i j, R s t → E i j → (R (step s i) (step t j) ↔ C s i (step s i))) {s t : σ}
    (l : List (ι × ι)) (hR : R s t) (hE : ∀ i ∈ l, E i.1 i.2) :
    Always (twin step) (fun _ _ q => R q.1 q.2) (s, t) l ↔ Always step C s (l.map Prod.fst) := by
  induction l generalizing s t with
  | nil => exact Iff.rfl
  | cons i l ih =>
      have hstep := h s t i.1 i.2 hR (hE i List.mem_cons_self)
      rw [List.map_cons, always_cons, always_cons, ← hstep]
      exact and_congr_right fun hnext => ih hnext fun j hj => hE j (List.mem_cons_of_mem i hj)

/-- A measure that falls by at least `c` at every step short of the goal reaches the goal. -/
theorem exists_iterate_of_measure {K : Type*} [Field K] [LinearOrder K] [IsStrictOrderedRing K]
    [Archimedean K] {f : σ → σ} {G : σ → Prop} {μ : σ → K} {c : K} (hc : 0 < c)
    (hstep : ∀ s, I s → ¬ G s → I (f s) ∧ μ (f s) + c ≤ μ s) (hμ : ∀ s, I s → 0 ≤ μ s)
    {s : σ} (h : I s) : ∃ n, I (f^[n] s) ∧ G (f^[n] s) := by
  obtain ⟨bound, hbound⟩ := exists_nat_gt (μ s / c)
  rw [div_lt_iff₀ hc] at hbound
  induction bound generalizing s with
  | zero =>
      rw [Nat.cast_zero, zero_mul] at hbound
      exact absurd (hμ s h) (not_le.mpr hbound)
  | succ bound ih =>
      by_cases hgoal : G s
      · exact ⟨0, h, hgoal⟩
      · obtain ⟨hnext, hle⟩ := hstep s h hgoal
        have hlt : μ (f s) < bound * c := by
          push_cast at hbound
          linarith
        obtain ⟨n, hn⟩ := ih hnext hlt
        exact ⟨n + 1, hn⟩

end Mecanum.Trace
