import Mathlib.Algebra.Order.Field.Basic
import Mathlib.Tactic.Linarith
import Mathlib.Tactic.Ring

/-!
# Pacing

A pacer lets every request through and makes it wait instead.  It keeps a budget that grows at a
rate up to its capacity; a request takes its cost out of the budget, at once and into debt if need
be, and is served when the debt has been paid, up to a slack.  The next request comes after that.

* `Paced`: a sequence of requests with the instants at which they come and are served;
* `served_le_level`: what is served up to an instant is paid by the budget and what comes in;
* `served_window_le`: in a window no more is served than the capacity, what comes in within the
  window, the slack and one request.
-/

namespace Pacer

variable {K : Type*} [CommRing K] [LinearOrder K] [IsStrictOrderedRing K]

/-- A budget, and the instant up to which it has grown. -/
structure Budget (K : Type*) where
  level : K
  clock : K

/-- A request: the instant at which it comes and the one at which it is served. -/
structure Request (K : Type*) where
  asked : K
  served : K

/-- What a request makes of a budget. -/
structure Charge (capacity rate cost slack : K) (b : Budget K) (r : Request K) (b' : Budget K) :
    Prop where
  level_le : b'.level + cost ≤ min capacity (b.level + rate * (r.asked - b.clock))
  clock_eq : b'.clock = r.asked
  paid : -slack ≤ b'.level + rate * (r.served - r.asked)
  asked_le : r.asked ≤ r.served

/-- Requests one after the other, the first one at an instant or later. -/
inductive Paced (capacity rate cost slack : K) : Budget K → K → List (Request K) → Prop
  | nil {b : Budget K} {ready : K} : Paced capacity rate cost slack b ready []
  | cons {b b' : Budget K} {ready : K} {r : Request K} {rest : List (Request K)} :
      ready ≤ r.asked → Charge capacity rate cost slack b r b' →
        Paced capacity rate cost slack b' r.served rest →
          Paced capacity rate cost slack b ready (r :: rest)

/-- The requests that are served in a window. -/
def served (s t : K) (requests : List (Request K)) : List (Request K) :=
  requests.filter fun r => decide (s ≤ r.served ∧ r.served ≤ t)

variable {capacity rate cost slack s t : K} {b : Budget K} {ready : K} {requests : List (Request K)}

omit [IsStrictOrderedRing K] in
/-- Requests are served in their order. -/
theorem Paced.ready_le (h : Paced capacity rate cost slack b ready requests) :
    ∀ r ∈ requests, ready ≤ r.served := by
  induction h with
  | nil => simp
  | cons hready hcharge _ ih =>
    intro r hr
    rcases List.mem_cons.1 hr with rfl | hr
    · exact hready.trans hcharge.asked_le
    · exact (hready.trans hcharge.asked_le).trans (ih r hr)

omit [CommRing K] [IsStrictOrderedRing K] in
theorem served_cons_of_mem {r : Request K} {rest : List (Request K)}
    (hr : s ≤ r.served ∧ r.served ≤ t) : served s t (r :: rest) = r :: served s t rest :=
  List.filter_cons_of_pos (by simpa using hr)

omit [CommRing K] [IsStrictOrderedRing K] in
theorem served_cons_of_not_mem {r : Request K} {rest : List (Request K)}
    (hr : ¬ (s ≤ r.served ∧ r.served ≤ t)) : served s t (r :: rest) = served s t rest :=
  List.filter_cons_of_neg (by simpa using hr)

omit [IsStrictOrderedRing K] in
/-- When a request is served too late, so are those after it. -/
theorem served_eq_nil (h : Paced capacity rate cost slack b ready requests) (hlate : t < ready) :
    served s t requests = [] := by
  unfold served
  rw [List.filter_eq_nil_iff]
  intro r hr hin
  rw [decide_eq_true_eq] at hin
  exact absurd (h.ready_le r hr) (not_le.2 (hin.2.trans_lt hlate))

/-- The budget and what comes in until an instant pay for what is served until then. -/
theorem served_le_level (hrate : 0 ≤ rate) (hcost : 0 ≤ cost)
    (h : Paced capacity rate cost slack b ready requests) (hsome : served s t requests ≠ []) :
    (served s t requests).length * cost ≤ b.level + rate * (t - b.clock) + slack := by
  induction h with
  | nil => exact absurd rfl hsome
  | @cons b b' ready r rest hready hcharge hrest ih =>
    have hlevel := hcharge.level_le.trans (min_le_right _ _)
    have hpaid := hcharge.paid
    have hsplit : rate * (t - b.clock) = rate * (r.asked - b.clock) + rate * (t - r.asked) := by
      ring
    rw [hsplit]
    by_cases hr : s ≤ r.served ∧ r.served ≤ t
    · rw [served_cons_of_mem hr, List.length_cons, Nat.cast_succ, add_one_mul]
      by_cases hnil : served s t rest = []
      · have hdone : rate * (r.served - r.asked) ≤ rate * (t - r.asked) :=
          mul_le_mul_of_nonneg_left (sub_le_sub_right hr.2 _) hrate
        rw [hnil, List.length_nil, Nat.cast_zero, zero_mul, zero_add]
        linarith
      · have htail := ih hnil
        rw [hcharge.clock_eq] at htail
        linarith
    · rw [served_cons_of_not_mem hr] at hsome ⊢
      have htail := ih hsome
      rw [hcharge.clock_eq] at htail
      linarith

/-- No more is served in a window than the capacity, what comes in within the window, the slack and
one request. -/
theorem served_window_le (hrate : 0 ≤ rate) (hcost : 0 ≤ cost) (hcapacity : 0 ≤ capacity)
    (hslack : 0 ≤ slack) (hst : s ≤ t) (h : Paced capacity rate cost slack b ready requests) :
    (served s t requests).length * cost ≤ capacity + cost + rate * (t - s) + slack := by
  have hwindow : 0 ≤ rate * (t - s) := mul_nonneg hrate (sub_nonneg.2 hst)
  -- after a request that is served in the window the next one comes within it
  have hafter : ∀ {b : Budget K} {ready : K} {requests : List (Request K)},
      Paced capacity rate cost slack b ready requests → s ≤ ready →
        (served s t requests).length * cost ≤ capacity + rate * (t - s) + slack := by
    intro b ready requests h hready
    cases h with
    | nil =>
      rw [served, List.filter_nil, List.length_nil, Nat.cast_zero, zero_mul]
      linarith
    | @cons _ b' _ r rest hasked hcharge hrest =>
      have hfull := hcharge.level_le.trans (min_le_left _ _)
      have hin : rate * (t - r.asked) ≤ rate * (t - s) :=
        mul_le_mul_of_nonneg_left (sub_le_sub_left (hready.trans hasked) t) hrate
      by_cases hlate : t < r.served
      · rw [served_cons_of_not_mem fun hr => absurd hr.2 (not_le.2 hlate),
          served_eq_nil hrest hlate, List.length_nil, Nat.cast_zero, zero_mul]
        linarith
      have hr : s ≤ r.served ∧ r.served ≤ t :=
        ⟨(hready.trans hasked).trans hcharge.asked_le, not_lt.1 hlate⟩
      rw [served_cons_of_mem hr, List.length_cons, Nat.cast_succ, add_one_mul]
      by_cases hnil : served s t rest = []
      · have hpaid := hcharge.paid
        have hdone : rate * (r.served - r.asked) ≤ rate * (t - r.asked) :=
          mul_le_mul_of_nonneg_left (sub_le_sub_right hr.2 _) hrate
        rw [hnil, List.length_nil, Nat.cast_zero, zero_mul]
        linarith
      · have htail := served_le_level hrate hcost hrest hnil
        rw [hcharge.clock_eq] at htail
        linarith
  induction h with
  | nil =>
    rw [served, List.filter_nil, List.length_nil, Nat.cast_zero, zero_mul]
    linarith
  | @cons b b' ready r rest hready hcharge hrest ih =>
    by_cases hr : s ≤ r.served ∧ r.served ≤ t
    · have htail := hafter hrest hr.1
      rw [served_cons_of_mem hr, List.length_cons, Nat.cast_succ, add_one_mul]
      linarith
    · rw [served_cons_of_not_mem hr]
      exact ih

end Pacer
