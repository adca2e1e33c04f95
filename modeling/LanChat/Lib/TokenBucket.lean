import Mathlib.Algebra.Order.Field.Basic
import Mathlib.Data.List.Pairwise
import Mathlib.Tactic.Linarith

/-!
# Token buckets

A bucket fills at a rate up to its capacity, and an accepted call takes one token out of it.  The
clock of a bucket does not go back, and a call that is refused may move it on.

* `Call`: what a call may do to a bucket;
* `Calls`: a sequence of calls;
* `accepted_le_level`: the calls that are accepted up to some time are paid by what is in the bucket
  and what comes in until then;
* `accepted_window_le`: in a window there are no more of them than the capacity and what comes in
  within the window.
-/

namespace TokenBucket

variable {K : Type*} [CommRing K] [LinearOrder K] [IsStrictOrderedRing K]

/-- A bucket: what is in it, and the time up to which it is filled. -/
structure Bucket (K : Type*) where
  level : K
  clock : K

/-- The tokens that a call takes. -/
def cost (accepted : Bool) : K := if accepted then 1 else 0

/-- A call at a time, with its answer and the bucket after it. -/
structure Call (capacity rate : K) (b : Bucket K) (now : K) (accepted : Bool) (b' : Bucket K) :
    Prop where
  level_le : b'.level + cost accepted ≤ min capacity (b.level + rate * max 0 (now - b.clock))
  nonneg : 0 ≤ b'.level
  clock_eq : b'.clock = max b.clock now

/-- The calls to a bucket, one after the other, with their answers. -/
inductive Calls (capacity rate : K) : Bucket K → List (K × Bool) → Prop
  | nil {b : Bucket K} : Calls capacity rate b []
  | cons {b b' : Bucket K} {now : K} {accepted : Bool} {rest : List (K × Bool)} :
      Call capacity rate b now accepted b' → Calls capacity rate b' rest →
        Calls capacity rate b ((now, accepted) :: rest)

/-- The accepted calls of a window. -/
def accepted (s t : K) (calls : List (K × Bool)) : List (K × Bool) :=
  calls.filter fun c => c.2 && decide (s ≤ c.1 ∧ c.1 ≤ t)

variable {capacity rate s t : K} {b : Bucket K} {calls : List (K × Bool)}

omit [CommRing K] [IsStrictOrderedRing K] in
theorem accepted_eq_nil (hlate : ∀ c ∈ calls, t < c.1) : accepted s t calls = [] := by
  unfold accepted
  rw [List.filter_eq_nil_iff]
  intro c hc hin
  rw [Bool.and_eq_true, decide_eq_true_eq] at hin
  exact absurd hin.2.2 (not_le.2 (hlate c hc))

theorem cost_nonneg (ok : Bool) : (0 : K) ≤ cost ok := by
  unfold cost
  split_ifs
  · exact zero_le_one
  · exact le_rfl

/-- The first call of a sequence counts for at most its cost. -/
theorem length_accepted_cons (c : K × Bool) (rest : List (K × Bool)) :
    ((accepted s t (c :: rest)).length : K) ≤ cost c.2 + (accepted s t rest).length := by
  unfold accepted
  rw [List.filter_cons]
  split_ifs with hin
  · have hok : c.2 = true := (Bool.and_eq_true_iff.1 hin).1
    rw [List.length_cons, Nat.cast_add, Nat.cast_one, hok, cost, if_pos rfl]
    exact le_of_eq (add_comm _ _)
  · exact le_add_of_nonneg_left (cost_nonneg _)

omit [CommRing K] [IsStrictOrderedRing K] in
/-- Times after a late one are late. -/
theorem late_of_pairwise {now : K} {ok : Bool} {rest : List (K × Bool)}
    (hsorted : ((now, ok) :: rest).Pairwise fun c d => c.1 ≤ d.1) (hlate : t < now) :
    ∀ c ∈ (now, ok) :: rest, t < c.1 := by
  intro c hc
  rcases List.mem_cons.1 hc with rfl | hc
  · exact hlate
  · exact hlate.trans_le ((List.pairwise_cons.1 hsorted).1 c hc)

/-- Up to a time, what is accepted was in the bucket or came in. -/
theorem accepted_le_level (hrate : 0 ≤ rate) (hcalls : Calls capacity rate b calls)
    (hsorted : calls.Pairwise fun c d => c.1 ≤ d.1) (hlevel : 0 ≤ b.level) :
    ((accepted s t calls).length : K) ≤ b.level + rate * max 0 (t - b.clock) := by
  induction hcalls with
  | nil =>
    rw [accepted, List.filter_nil, List.length_nil, Nat.cast_zero]
    exact add_nonneg hlevel (mul_nonneg hrate (le_max_left _ _))
  | @cons b b' now ok rest hcall hrest ih =>
    rcases lt_or_ge t now with hlate | hearly
    · rw [accepted_eq_nil (late_of_pairwise hsorted hlate), List.length_nil, Nat.cast_zero]
      exact add_nonneg hlevel (mul_nonneg hrate (le_max_left _ _))
    · have hnext := ih (List.pairwise_cons.1 hsorted).2 hcall.nonneg
      have hfirst := length_accepted_cons (s := s) (t := t) (now, ok) rest
      have hpaid := hcall.level_le.trans (min_le_right _ _)
      -- what comes in until the call and after it comes in until the end
      have hsplit : max 0 (now - b.clock) + max 0 (t - b'.clock) ≤ max 0 (t - b.clock) := by
        rw [hcall.clock_eq]
        rcases le_total b.clock now with hle | hle
        · rw [max_eq_right hle, max_eq_right (sub_nonneg.2 hle), max_eq_right (sub_nonneg.2 hearly),
            max_eq_right (sub_nonneg.2 (hle.trans hearly))]
          linarith
        · rw [max_eq_left hle, max_eq_left (sub_nonpos.2 hle), zero_add]
      have hrefill := mul_le_mul_of_nonneg_left hsplit hrate
      rw [mul_add] at hrefill
      linarith

/-- In a window, what is accepted was in the full bucket or came in within the window. -/
theorem accepted_window_le (hcapacity : 0 ≤ capacity) (hrate : 0 ≤ rate) (hst : s ≤ t)
    (hcalls : Calls capacity rate b calls) (hsorted : calls.Pairwise fun c d => c.1 ≤ d.1) :
    ((accepted s t calls).length : K) ≤ capacity + rate * (t - s) := by
  have hbound : 0 ≤ capacity + rate * (t - s) :=
    add_nonneg hcapacity (mul_nonneg hrate (sub_nonneg.2 hst))
  induction hcalls with
  | nil =>
    rw [accepted, List.filter_nil, List.length_nil, Nat.cast_zero]
    exact hbound
  | @cons b b' now ok rest hcall hrest ih =>
    have htail := (List.pairwise_cons.1 hsorted).2
    rcases lt_or_ge now s with hbefore | hstart
    · have hskip : accepted s t ((now, ok) :: rest) = accepted s t rest := by
        refine List.filter_cons_of_neg ?_
        rw [Bool.and_eq_true, decide_eq_true_eq]
        exact fun hin => absurd hin.2.1 (not_le.2 hbefore)
      rw [hskip]
      exact ih htail
    rcases lt_or_ge t now with hlate | hearly
    · rw [accepted_eq_nil (late_of_pairwise hsorted hlate), List.length_nil, Nat.cast_zero]
      exact hbound
    · -- the first call of the window leaves at most the capacity, and its clock is in the window
      have hnext := accepted_le_level (s := s) (t := t) hrate hrest htail hcall.nonneg
      have hfirst := length_accepted_cons (s := s) (t := t) (now, ok) rest
      have hpaid := hcall.level_le.trans (min_le_left _ _)
      have hclock : s ≤ b'.clock := by
        rw [hcall.clock_eq]
        exact hstart.trans (le_max_right _ _)
      have hrefill : rate * max 0 (t - b'.clock) ≤ rate * (t - s) :=
        mul_le_mul_of_nonneg_left (max_le (sub_nonneg.2 hst) (by linarith)) hrate
      linarith

end TokenBucket
