import Mathlib.Data.List.Basic
import Mathlib.Data.Nat.Init

/-!
# Runs of a deterministic event machine

A machine is a function `step : σ → ε → σ`; a run feeds it a finite list of events.  The rules
here are the ones an invariant proof needs:

* `run_invariant`: what every step preserves holds at the end of every run;
* `Along step P s es`: the condition `P` holds at each event of the run, in the state that event
  meets, `run_invariant_along` for steps that preserve an invariant only under `P`, and
  `along_of_invariant` for what `P` gives in invariant states;
* `run_rel`: a reflexive and transitive relation that every step from an invariant state
  respects relates the two ends of a run;
* `holds_downward`: induction from a position of a run back to an earlier one;
* `latch_iff`: a flag that some positions set and others clear, from the log of both.
-/

namespace EventMachine

variable {σ ε : Type*} (step : σ → ε → σ)

/-- The state after the events `es`, oldest first. -/
def run (s : σ) (es : List ε) : σ := es.foldl step s

@[simp] theorem run_nil (s : σ) : run step s [] = s := rfl

@[simp] theorem run_cons (s : σ) (e : ε) (es : List ε) :
    run step s (e :: es) = run step (step s e) es := rfl

theorem run_append (s : σ) (es fs : List ε) :
    run step s (es ++ fs) = run step (run step s es) fs := List.foldl_append

theorem run_concat (s : σ) (es : List ε) (e : ε) :
    run step s (es ++ [e]) = step (run step s es) e := by
  rw [run_append, run_cons, run_nil]

/-- What every step preserves holds at the end of every run. -/
theorem run_invariant {I : σ → Prop} (hstep : ∀ s e, I s → I (step s e)) {s : σ}
    (hs : I s) (es : List ε) : I (run step s es) := by
  induction es generalizing s with
  | nil => exact hs
  | cons e es ih => exact ih (hstep s e hs)

/-- `P` holds at every event of the run, in the state that the event meets. -/
def Along (P : σ → ε → Prop) : σ → List ε → Prop
  | _, [] => True
  | s, e :: es => P s e ∧ Along P (step s e) es

/-- A decidable condition can be checked along a run. -/
instance decidableAlong {P : σ → ε → Prop} [∀ s e, Decidable (P s e)] :
    ∀ (s : σ) (es : List ε), Decidable (Along step P s es)
  | _, [] => isTrue trivial
  | s, e :: es =>
    have := decidableAlong (P := P) (step s e) es
    inferInstanceAs (Decidable (P s e ∧ Along step P (step s e) es))

variable {step}

theorem Along.append {P : σ → ε → Prop} {s : σ} {es fs : List ε}
    (h : Along step P s (es ++ fs)) :
    Along step P s es ∧ Along step P (run step s es) fs := by
  induction es generalizing s with
  | nil => exact ⟨trivial, h⟩
  | cons e es ih =>
    obtain ⟨h1, h2⟩ := ih h.2
    exact ⟨⟨h.1, h1⟩, h2⟩

theorem Along.and {P Q : σ → ε → Prop} {s : σ} {es : List ε} (hP : Along step P s es)
    (hQ : Along step Q s es) : Along step (fun s e => P s e ∧ Q s e) s es := by
  induction es generalizing s with
  | nil => trivial
  | cons e es ih => exact ⟨⟨hP.1, hQ.1⟩, ih hP.2 hQ.2⟩

theorem Along.mono {P Q : σ → ε → Prop} (hPQ : ∀ s e, P s e → Q s e) {s : σ} {es : List ε}
    (h : Along step P s es) : Along step Q s es := by
  induction es generalizing s with
  | nil => trivial
  | cons e es ih => exact ⟨hPQ s e h.1, ih h.2⟩

/-- A condition on events alone can be checked event by event. -/
theorem along_of_forall {P : ε → Prop} {s : σ} {es : List ε} (h : ∀ e ∈ es, P e) :
    Along step (fun _ e => P e) s es := by
  induction es generalizing s with
  | nil => trivial
  | cons e es ih =>
    exact ⟨h e List.mem_cons_self, ih fun x hx => h x (List.mem_cons_of_mem _ hx)⟩

variable (step)

/-- Steps that preserve an invariant when `P` holds at them preserve it along a run all of whose
events meet `P`. -/
theorem run_invariant_along {P : σ → ε → Prop} {I : σ → Prop}
    (hstep : ∀ s e, P s e → I s → I (step s e)) {s : σ} (hs : I s) {es : List ε}
    (h : Along step P s es) : I (run step s es) := by
  induction es generalizing s with
  | nil => exact hs
  | cons e es ih => exact ih (hstep s e h.1 hs) h.2

/-- A condition that follows at each event from another one and an invariant, which steps that meet
the other one preserve. -/
theorem along_of_invariant {P Q : σ → ε → Prop} {I : σ → Prop}
    (hinv : ∀ s e, P s e → I s → I (step s e)) (hPQ : ∀ s e, I s → P s e → Q s e) {s : σ} (hs : I s)
    {es : List ε} (h : Along step P s es) : Along step Q s es := by
  induction es generalizing s with
  | nil => trivial
  | cons e es ih => exact ⟨hPQ s e hs h.1, ih (hinv s e h.1 hs) h.2⟩

/-- A reflexive and transitive relation respected by every step from an invariant state relates
the two ends of a run. -/
theorem run_rel {I : σ → Prop} {R : σ → σ → Prop} (hrefl : ∀ s, R s s)
    (htrans : ∀ a b c, R a b → R b c → R a c) (hinv : ∀ s e, I s → I (step s e))
    (hstep : ∀ s e, I s → R s (step s e)) {s : σ} (hs : I s) (es : List ε) :
    R s (run step s es) := by
  induction es generalizing s with
  | nil => exact hrefl s
  | cons e es ih => exact htrans _ _ _ (hstep s e hs) (ih (hinv s e hs))

/-- A property of positions that each position passes back to the one before. -/
theorem holds_downward {P : ℕ → Prop} {i j : ℕ} (hback : ∀ t, i ≤ t → t < j → P (t + 1) → P t)
    (hj : P j) : ∀ t, i ≤ t → t ≤ j → P t := by
  intro t hit htj
  induction htj using Nat.decreasingInduction with
  | self => exact hj
  | of_succ k hk ih => exact hback k hit hk (ih (Nat.le_succ_of_le hit))

/-- A flag that is down at first, and that each position sets, keeps or clears, is up exactly when
some position has set it and none has cleared it since. -/
theorem latch_iff {p sets clears : ℕ → Prop} {n : ℕ} (hstart : ¬ p 0)
    (hstep : ∀ i < n, (p (i + 1) ↔ sets i ∨ (p i ∧ ¬ clears i))) :
    p n ↔ ∃ i < n, sets i ∧ ∀ j, i < j → j < n → ¬ clears j := by
  induction n with
  | zero => simp [hstart]
  | succ n ih =>
    rw [hstep n (Nat.lt_succ_self n), ih fun i hi => hstep i (by omega)]
    constructor
    · rintro (hset | ⟨⟨i, hi, hset, hkeep⟩, hclear⟩)
      · exact ⟨n, by omega, hset, fun j hj hjn => by omega⟩
      · refine ⟨i, by omega, hset, fun j hj hjn => ?_⟩
        rcases Nat.lt_succ_iff_lt_or_eq.1 hjn with hlt | rfl
        · exact hkeep j hj hlt
        · exact hclear
    · rintro ⟨i, hi, hset, hkeep⟩
      rcases Nat.lt_succ_iff_lt_or_eq.1 hi with hlt | rfl
      · exact .inr ⟨⟨i, hlt, hset, fun j hj hjn => hkeep j hj (by omega)⟩,
          hkeep n hlt (by omega)⟩
      · exact .inl hset

end EventMachine
