import LanChat.Lib.Run
import LanChat.Lib.TokenBucket
import Mathlib.Data.Rat.Cast.Order
import Mathlib.Tactic.NormNum

/-!
# The rate of a connection (`server-go/connection_limits.go`)

A connection may send a burst of 16 messages and 8 messages a second.  Instants are nanoseconds
since the zero time of Go, and the numbers of tokens are rational.

* `allow`: one call to the limiter, which starts again when its clock is at the zero time;
* `call_allow`: with a clock at another time it is a call to a token bucket;
* `Started`: no call will find the clock at the zero time;
* `inbound_rate_bound`: the tokens stay between 0 and 16, and in a window of `d` seconds no more
  than `16 + 8 * d` calls are allowed.
-/

namespace LanChat.ConnectionLimits

open TokenBucket

/-- `inboundMessagesPerSecond`. -/
def inboundMessagesPerSecond : ℚ := 8

/-- `inboundMessageBurst`. -/
def inboundMessageBurst : ℚ := 16

/-- The largest and the smallest `time.Duration`. -/
def maxDuration : ℤ := 2 ^ 63 - 1

def minDuration : ℤ := -2 ^ 63

/-- `Time.Sub`: a difference that is no duration is cut to one. -/
def sub (t u : ℤ) : ℤ := max minDuration (min maxDuration (t - u))

/-- `Duration.Seconds`. -/
def seconds (d : ℤ) : ℚ := d / 1000000000

/-- `inboundRateLimiter`. -/
structure InboundRateLimiter where
  tokens : ℚ
  last : ℤ
  deriving DecidableEq, Repr

/-- `newInboundRateLimiter`. -/
def newInboundRateLimiter (now : ℤ) : InboundRateLimiter := ⟨inboundMessageBurst, now⟩

/-- The first statement of `allow`: `last.IsZero` tells that the limiter was not set up. -/
def setUp (l : InboundRateLimiter) (now : ℤ) : InboundRateLimiter :=
  if l.last = 0 then newInboundRateLimiter now else l

/-- The tokens that came in since the last call. -/
def refill (l : InboundRateLimiter) (now : ℤ) : InboundRateLimiter :=
  let elapsed := sub now l.last
  if 0 < elapsed then
    let tokens := l.tokens + seconds elapsed * inboundMessagesPerSecond
    { tokens := if inboundMessageBurst < tokens then inboundMessageBurst else tokens, last := now }
  else l

/-- `allow`. -/
def allow (l : InboundRateLimiter) (now : ℤ) : Bool × InboundRateLimiter :=
  let l := refill (setUp l now) now
  if l.tokens < 1 then (false, l) else (true, { l with tokens := l.tokens - 1 })

/-- The limiter after calls at these instants. -/
def after (l : InboundRateLimiter) (times : List ℤ) : InboundRateLimiter :=
  EventMachine.run (fun l now => (allow l now).2) l times

/-- The instants of calls, in seconds, with their answers. -/
def answers : InboundRateLimiter → List ℤ → List (ℚ × Bool)
  | _, [] => []
  | l, now :: times => (seconds now, (allow l now).1) :: answers (allow l now).2 times

/-! ### Tokens -/

/-- The tokens of a limiter are between none and a burst. -/
def InRange (l : InboundRateLimiter) : Prop := 0 ≤ l.tokens ∧ l.tokens ≤ 16

variable {l : InboundRateLimiter} {now : ℤ} {times : List ℤ}

theorem inRange_new (now : ℤ) : InRange (newInboundRateLimiter now) := by
  unfold InRange newInboundRateLimiter inboundMessageBurst
  norm_num

theorem seconds_mono {d e : ℤ} (h : d ≤ e) : seconds d ≤ seconds e := by
  unfold seconds
  have hcast : (d : ℚ) ≤ e := Int.cast_le.2 h
  linarith

theorem seconds_sub (t u : ℤ) : seconds (t - u) = seconds t - seconds u := by
  unfold seconds
  rw [Int.cast_sub, sub_div]

/-- A difference of two instants is positive exactly forwards, and then cut only above. -/
theorem sub_cases (t u : ℤ) : (t ≤ u ∧ ¬ 0 < sub t u) ∨
    (u < t ∧ 0 < sub t u ∧ sub t u = min maxDuration (t - u)) := by
  have hmax : 0 < maxDuration := by decide
  have hmin : minDuration < 0 := by decide
  unfold sub
  omega

/-- A refill does not come without time, and it is cut to a burst. -/
theorem refill_cases (l : InboundRateLimiter) (now : ℤ) :
    (now ≤ l.last ∧ refill l now = l) ∨
      (l.last < now ∧ refill l now =
        ⟨min 16 (l.tokens + seconds (min maxDuration (now - l.last)) * 8), now⟩) := by
  unfold refill
  dsimp only
  rcases sub_cases now l.last with ⟨hle, hnone⟩ | ⟨hlt, hsome, hsub⟩
  · rw [if_neg hnone]
    exact .inl ⟨hle, rfl⟩
  · rw [if_pos hsome, hsub]
    refine .inr ⟨hlt, ?_⟩
    congr 1
    exact (min_def_lt _ _).symm

theorem inRange_refill (hl : InRange l) (now : ℤ) : InRange (refill l now) := by
  rcases refill_cases l now with ⟨-, heq⟩ | ⟨hlt, heq⟩
  · rw [heq]
    exact hl
  · have helapsed : seconds 0 ≤ seconds (min maxDuration (now - l.last)) :=
      seconds_mono (le_min (by decide) (by omega))
    have hzero : seconds 0 = 0 := by
      unfold seconds
      norm_num
    have htokens := hl.1
    rw [heq]
    exact ⟨le_min (by norm_num) (by linarith), min_le_left _ _⟩

theorem inRange_setUp (hl : InRange l) (now : ℤ) : InRange (setUp l now) := by
  unfold setUp
  split_ifs
  · exact inRange_new now
  · exact hl

/-- A call takes a token when there is one. -/
theorem allow_cases (l : InboundRateLimiter) (now : ℤ) :
    ((refill (setUp l now) now).tokens < 1 ∧ allow l now = (false, refill (setUp l now) now)) ∨
      (1 ≤ (refill (setUp l now) now).tokens ∧
        allow l now = (true, ⟨(refill (setUp l now) now).tokens - 1,
          (refill (setUp l now) now).last⟩)) := by
  unfold allow
  dsimp only
  split_ifs with hnone
  · exact .inl ⟨hnone, rfl⟩
  · exact .inr ⟨not_lt.1 hnone, rfl⟩

theorem inRange_allow (hl : InRange l) (now : ℤ) : InRange (allow l now).2 := by
  have hfilled := inRange_refill (inRange_setUp hl now) now
  rcases allow_cases l now with ⟨-, heq⟩ | ⟨hone, heq⟩
  · rw [heq]
    exact hfilled
  · rw [heq]
    exact ⟨sub_nonneg.2 hone, (sub_le_self _ zero_le_one).trans hfilled.2⟩

/-- The tokens are between none and a burst, whatever the instants are. -/
theorem inRange_after (created : ℤ) (times : List ℤ) :
    InRange (after (newInboundRateLimiter created) times) := by
  have hstep : ∀ (l : InboundRateLimiter) (now : ℤ), InRange l → InRange (allow l now).2 :=
    fun _ now hl => inRange_allow hl now
  unfold after
  exact EventMachine.run_invariant (I := InRange) _ hstep (inRange_new created) times

/-! ### A token bucket -/

/-- The bucket of a limiter, with its clock in seconds. -/
def bucket (l : InboundRateLimiter) : Bucket ℚ := ⟨l.tokens, seconds l.last⟩

/-- The clock of a limiter that was set up does not go back. -/
theorem last_allow (hset : l.last ≠ 0) : (allow l now).2.last = max l.last now := by
  have hup : setUp l now = l := if_neg hset
  have hlast : (refill l now).last = max l.last now := by
    rcases refill_cases l now with ⟨hle, heq⟩ | ⟨hlt, heq⟩
    · rw [heq, max_eq_left hle]
    · rw [heq, max_eq_right hlt.le]
  rcases allow_cases l now with ⟨-, heq⟩ | ⟨-, heq⟩
  · rw [heq, hup]
    exact hlast
  · rw [heq, hup]
    exact hlast

/-- A refill brings no more than what comes in, and the bucket holds no more than a burst. -/
theorem tokens_refill_le (hl : InRange l) (now : ℤ) :
    (refill l now).tokens ≤ min 16 (l.tokens + 8 * max 0 (seconds now - seconds l.last)) := by
  rcases refill_cases l now with ⟨-, heq⟩ | ⟨hlt, heq⟩
  · rw [heq]
    have hgain : 0 ≤ max 0 (seconds now - seconds l.last) := le_max_left _ _
    exact le_min hl.2 (by linarith)
  · rw [heq]
    have hcut : seconds (min maxDuration (now - l.last)) ≤
        max 0 (seconds now - seconds l.last) := by
      rw [← seconds_sub]
      exact (seconds_mono (min_le_right _ _)).trans (le_max_right _ _)
    exact min_le_min_left _ (by linarith)

/-- A call to a limiter that was set up is a call to its bucket. -/
theorem call_allow (hset : l.last ≠ 0) (hl : InRange l) (now : ℤ) :
    Call 16 8 (bucket l) (seconds now) (allow l now).1 (bucket (allow l now).2) where
  level_le := by
    have hup : setUp l now = l := if_neg hset
    have htokens := tokens_refill_le hl now
    rcases allow_cases l now with ⟨-, heq⟩ | ⟨-, heq⟩
    · rw [heq, hup]
      exact (add_zero _).trans_le htokens
    · rw [heq, hup]
      exact (sub_add_cancel _ _).trans_le htokens
  nonneg := (inRange_allow hl now).1
  clock_eq := by
    have hmono : Monotone seconds := fun _ _ => seconds_mono
    show seconds (allow l now).2.last = max (seconds l.last) (seconds now)
    rw [last_allow hset, hmono.map_max]

/-! ### Windows -/

/-- The clock of the limiter is not at the zero time, and no call moves it there. -/
def Started (l : InboundRateLimiter) (times : List ℤ) : Prop :=
  l.last ≠ 0 ∧ (0 < l.last ∨ 0 ∉ times)

theorem Started.allow (hstarted : Started l (now :: times)) :
    Started (allow l now).2 times := by
  obtain ⟨hset, hzero⟩ := hstarted
  unfold Started
  rw [last_allow hset]
  rcases hzero with hpos | hzero
  · exact ⟨(hpos.trans_le (le_max_left _ _)).ne', .inl (hpos.trans_le (le_max_left _ _))⟩
  · rw [List.mem_cons, not_or] at hzero
    refine ⟨?_, .inr hzero.2⟩
    rcases max_choice l.last now with hlast | hnow
    · rw [hlast]
      exact hset
    · rw [hnow]
      exact Ne.symm hzero.1

/-- The calls to a limiter that was set up are calls to its bucket. -/
theorem calls_answers (hl : InRange l) (hstarted : Started l times) :
    Calls 16 8 (bucket l) (answers l times) := by
  induction times generalizing l with
  | nil => exact .nil
  | cons now times ih =>
    exact .cons (call_allow hstarted.1 hl now) (ih (inRange_allow hl now) hstarted.allow)

theorem times_answers (l : InboundRateLimiter) (times : List ℤ) :
    (answers l times).map Prod.fst = times.map seconds := by
  induction times generalizing l with
  | nil => rfl
  | cons now times ih => exact congrArg (seconds now :: ·) (ih _)

/-- The first call to a limiter that was created at the zero time sets it up. -/
theorem answers_of_zero (hnow : now ≠ 0) (times : List ℤ) :
    answers (newInboundRateLimiter 0) (now :: times) =
      answers (newInboundRateLimiter now) (now :: times) := by
  have hzero : setUp (newInboundRateLimiter 0) now = newInboundRateLimiter now := if_pos rfl
  have hself : setUp (newInboundRateLimiter now) now = newInboundRateLimiter now := if_neg hnow
  have hsame : allow (newInboundRateLimiter 0) now = allow (newInboundRateLimiter now) now := by
    unfold allow
    rw [hzero, hself]
  rw [answers, answers, hsame]

/-- The calls of a limiter that no call finds at the zero time again. -/
theorem calls_new {created : ℤ} (hzero : 0 < created ∨ 0 ∉ times) :
    ∃ b, Calls 16 8 b (answers (newInboundRateLimiter created) times) := by
  by_cases hcreated : created = 0
  · subst hcreated
    have hnone : 0 ∉ times := hzero.resolve_left (lt_irrefl 0)
    cases times with
    | nil => exact ⟨bucket (newInboundRateLimiter 0), .nil⟩
    | cons now times =>
      have hnow : now ≠ 0 := fun h => hnone (h ▸ List.mem_cons_self)
      rw [answers_of_zero hnow]
      exact ⟨_, calls_answers (inRange_new now) ⟨hnow, .inr hnone⟩⟩
  · exact ⟨_, calls_answers (inRange_new created) ⟨hcreated, hzero⟩⟩

/-- The tokens stay between none and a burst; and unless a call comes at the zero time, to a limiter
that was not created after it, no window of calls in order gets more than a burst and what comes in
within it. -/
theorem inbound_rate_bound (created : ℤ) (times : List ℤ) :
    (0 ≤ (after (newInboundRateLimiter created) times).tokens ∧
      (after (newInboundRateLimiter created) times).tokens ≤ 16) ∧
    (times.Pairwise (· ≤ ·) → (0 < created ∨ 0 ∉ times) → ∀ s t : ℚ, s ≤ t →
      ((accepted s t (answers (newInboundRateLimiter created) times)).length : ℚ) ≤
        16 + 8 * (t - s)) := by
  refine ⟨inRange_after created times, fun hsorted hzero s t hst => ?_⟩
  obtain ⟨b, hcalls⟩ := calls_new hzero
  have hseconds : (times.map seconds).Pairwise (· ≤ ·) :=
    hsorted.map _ fun _ _ => seconds_mono
  rw [← times_answers (newInboundRateLimiter created), List.pairwise_map] at hseconds
  exact accepted_window_le (by norm_num) (by norm_num) hst hcalls hseconds

/-- Three calls within a second. -/
theorem inbound_rate_bound_three :
    ((accepted 5 6 (answers (newInboundRateLimiter 5000000000)
      [5000000000, 5500000000, 6000000000])).length : ℚ) ≤ 16 + 8 * (6 - 5) :=
  (inbound_rate_bound 5000000000 [5000000000, 5500000000, 6000000000]).2 (by decide) (by decide) 5 6
    (by norm_num)

/-- Of a limiter that was created at the zero time, each call at this time is allowed. -/
theorem zero_time_refills :
    ¬ ∀ (created : ℤ) (times : List ℤ), times.Pairwise (· ≤ ·) → ∀ s t : ℚ, s ≤ t →
      ((accepted s t (answers (newInboundRateLimiter created) times)).length : ℚ) ≤
        16 + 8 * (t - s) := by
  intro h
  have hlength : (accepted 0 0 (answers (newInboundRateLimiter 0) (List.replicate 17 0))).length =
      17 := by
    decide +kernel
  have hbound := h 0 (List.replicate 17 0) (by decide) 0 0 le_rfl
  rw [hlength] at hbound
  norm_num at hbound

end LanChat.ConnectionLimits
