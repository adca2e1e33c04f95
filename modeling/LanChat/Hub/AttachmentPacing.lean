import LanChat.Hub.ConnectionLimits
import LanChat.Lib.Pacer
import LanChat.Message
import Mathlib.Algebra.Order.Floor.Semiring
import Mathlib.Data.Rat.Floor

/-!
# The pace of file data (`server-go/connection_limits.go`, `readPump` in `server-go/client.go`)

A frame with file data is never refused: the reader of its connection sleeps until the byte budget
has recovered.  Instants are nanoseconds since the zero time of Go, and the budget is rational.

* `delay`: the time to sleep for a frame, and the budget after it;
* `Reads`: what `readPump` does with the frames, one after the other;
* `paced_of_reads`: they are paced requests, with a slack of what comes in within a nanosecond;
* `attachment_rate_bound`: how much is served, and how long a frame waits.
-/

namespace LanChat.ConnectionLimits

open Pacer

/-- `attachmentBytesPerSecond`. -/
def attachmentBytesPerSecond : ℚ := 32 * 1024 * 1024

/-- `attachmentByteBurst`. -/
def attachmentByteBurst : ℚ := 4 * 1024 * 1024

/-- `attachmentRateLimiter`. -/
structure AttachmentRateLimiter where
  bytes : ℚ
  last : ℤ
  deriving DecidableEq, Repr

namespace AttachmentRateLimiter

/-- The first statement of `delay`. -/
def setUp (l : AttachmentRateLimiter) (now : ℤ) : AttachmentRateLimiter :=
  if l.last = 0 then ⟨attachmentByteBurst, now⟩ else l

/-- The bytes that came in since the last call. -/
def refill (l : AttachmentRateLimiter) (now : ℤ) : AttachmentRateLimiter :=
  let elapsed := sub now l.last
  if 0 < elapsed then
    let bytes := l.bytes + seconds elapsed * attachmentBytesPerSecond
    { bytes := if attachmentByteBurst < bytes then attachmentByteBurst else bytes, last := now }
  else l

/-- `delay`; the fraction of a nanosecond is cut off. -/
def delay (l : AttachmentRateLimiter) (now : ℤ) : ℤ × AttachmentRateLimiter :=
  let l := refill (setUp l now) now
  let l := { l with bytes := l.bytes - maxMessageSize }
  if 0 ≤ l.bytes then (0, l)
  else (⌊-l.bytes / attachmentBytesPerSecond * 1000000000⌋, l)

/-- A frame: when `readPump` has received it, and when it goes on with it. -/
structure Frame where
  received : ℤ
  handled : ℤ
  deriving DecidableEq, Repr

/-- The frames of a connection, the first one at an instant or later.  `time.Sleep` takes at least
the time it is told to, and the next frame is received after it. -/
def Reads : AttachmentRateLimiter → ℤ → List Frame → Prop
  | _, _, [] => True
  | l, ready, f :: frames =>
    ready ≤ f.received ∧ f.received + (delay l f.received).1 ≤ f.handled ∧
      Reads (delay l f.received).2 f.handled frames

/-- How long `readPump` is told to sleep for each frame. -/
def delays : AttachmentRateLimiter → List Frame → List ℤ
  | _, [] => []
  | l, f :: frames => (delay l f.received).1 :: delays (delay l f.received).2 frames

variable {l : AttachmentRateLimiter} {now ready : ℤ} {frames : List Frame}

/-! ### One call -/

/-- A refill does not come without time, and it is cut to a burst. -/
theorem refill_cases (l : AttachmentRateLimiter) (now : ℤ) :
    (now ≤ l.last ∧ refill l now = l) ∨
      (l.last < now ∧ refill l now = ⟨min attachmentByteBurst
        (l.bytes + seconds (min maxDuration (now - l.last)) * attachmentBytesPerSecond), now⟩) := by
  unfold refill
  dsimp only
  rcases sub_cases now l.last with ⟨hle, hnone⟩ | ⟨hlt, hsome, hsub⟩
  · rw [if_neg hnone]
    exact .inl ⟨hle, rfl⟩
  · rw [if_pos hsome, hsub]
    refine .inr ⟨hlt, ?_⟩
    congr 1
    exact (min_def_lt _ _).symm

/-- What comes in within a nanosecond. -/
def slack : ℚ := attachmentBytesPerSecond / 1000000000

/-- A frame is charged, and the sleep pays for it up to a nanosecond. -/
theorem delay_eq (l : AttachmentRateLimiter) (now : ℤ) :
    (delay l now).2 = ⟨(refill (setUp l now) now).bytes - 65536, (refill (setUp l now) now).last⟩ ∧
      0 ≤ (delay l now).1 ∧
      -slack ≤ (delay l now).2.bytes + attachmentBytesPerSecond * seconds (delay l now).1 ∧
      (0 < (delay l now).1 →
        attachmentBytesPerSecond * seconds (delay l now).1 ≤ -(delay l now).2.bytes) := by
  have hsize : ((maxMessageSize : ℕ) : ℚ) = 65536 := by norm_num [maxMessageSize]
  unfold delay slack seconds attachmentBytesPerSecond
  dsimp only
  rw [hsize]
  generalize (refill (setUp l now) now).bytes - 65536 = bytes
  split_ifs with hpos
  · refine ⟨rfl, le_rfl, ?_, fun h => absurd h (lt_irrefl 0)⟩
    dsimp only
    rw [Int.cast_zero]
    linarith
  · -- the fraction of a nanosecond that is cut off is the slack
    have hlow := Int.floor_le (-bytes / (32 * 1024 * 1024) * 1000000000)
    have hhigh := Int.lt_floor_add_one (-bytes / (32 * 1024 * 1024) * 1000000000)
    refine ⟨rfl, Int.floor_nonneg.2 ?_, ?_, fun _ => ?_⟩
    · have hdebt : 0 ≤ -bytes := by linarith
      positivity
    · dsimp only
      linarith
    · dsimp only
      linarith

/-- The reader may receive a frame from this instant on: the budget is set up, it is no more than a
burst, and the sleep has paid for the frame before. -/
structure Ready (l : AttachmentRateLimiter) (ready : ℤ) : Prop where
  set : 0 < l.last
  le : l.last ≤ ready
  bytes_le : l.bytes ≤ attachmentByteBurst
  debt : -65536 - slack ≤ l.bytes
  paid : -slack ≤ l.bytes + attachmentBytesPerSecond * seconds (ready - l.last)

/-- The frame as a request. -/
def Frame.request (f : Frame) : Request ℚ := ⟨seconds f.received, seconds f.handled⟩

/-- The longest sleep, the time of one frame and a nanosecond. -/
def maxDelay : ℤ := 1953126

theorem ready_fresh (h : 0 < now) : Ready ⟨attachmentByteBurst, now⟩ now := by
  refine ⟨h, le_rfl, le_rfl, ?_, ?_⟩
  · norm_num [slack, attachmentBytesPerSecond, attachmentByteBurst]
  · norm_num [slack, attachmentBytesPerSecond, attachmentByteBurst, seconds]

/-- The budget when a frame is received: no more than what has come in, and the debt is paid. -/
theorem refill_of_ready (h : Ready l ready) (hnow : ready ≤ now) :
    (refill l now).last = now ∧
      (refill l now).bytes ≤ min attachmentByteBurst
        (l.bytes + attachmentBytesPerSecond * seconds (now - l.last)) ∧
      -slack ≤ (refill l now).bytes := by
  have hrate : 0 ≤ attachmentBytesPerSecond := by norm_num [attachmentBytesPerSecond]
  have hwait : seconds (ready - l.last) ≤ seconds (now - l.last) := seconds_mono (by omega)
  have hpaid := h.paid.trans
    (add_le_add_right (mul_le_mul_of_nonneg_left hwait hrate) l.bytes)
  rcases refill_cases l now with ⟨hle, heq⟩ | ⟨hlt, heq⟩
  · obtain rfl : now = l.last := le_antisymm hle (h.le.trans hnow)
    rw [heq]
    have hzero : seconds (l.last - l.last) = 0 := by simp [seconds]
    rw [hzero, mul_zero, add_zero] at hpaid ⊢
    exact ⟨rfl, le_min h.bytes_le le_rfl, hpaid⟩
  · rw [heq]
    refine ⟨rfl, min_le_min_left _ ?_, le_min ?_ ?_⟩
    · rw [mul_comm]
      have hcut : seconds (min maxDuration (now - l.last)) ≤ seconds (now - l.last) :=
        seconds_mono (min_le_right _ _)
      exact add_le_add_right (mul_le_mul_of_nonneg_left hcut hrate) l.bytes
    · norm_num [slack, attachmentBytesPerSecond, attachmentByteBurst]
    · rcases le_total (now - l.last) maxDuration with hshort | hlong
      · rw [min_eq_right hshort, mul_comm]
        exact hpaid
      · -- the time that is cut off does not matter: within it any debt is paid
        rw [min_eq_left hlong]
        have hdebt := h.debt
        norm_num [slack, attachmentBytesPerSecond, seconds, maxDuration] at hdebt ⊢
        linarith

/-- One frame: the sleep is short, what is taken is paid by then, and the next frame may come. -/
theorem delay_of_ready (h : Ready l ready) {f : Frame} (hreceived : ready ≤ f.received)
    (hhandled : f.received + (delay l f.received).1 ≤ f.handled) :
    (delay l f.received).1 ≤ maxDelay ∧
      Charge attachmentByteBurst attachmentBytesPerSecond 65536 slack ⟨l.bytes, seconds l.last⟩
        f.request ⟨(delay l f.received).2.bytes, seconds (delay l f.received).2.last⟩ ∧
      Ready (delay l f.received).2 f.handled := by
  have hup : setUp l f.received = l := if_neg h.set.ne'
  obtain ⟨hlast, hbytes, hpaid⟩ := refill_of_ready h hreceived
  obtain ⟨hdelay, hnonneg, hcovered, hcost⟩ := delay_eq l f.received
  rw [hup] at hdelay
  have hrate : 0 ≤ attachmentBytesPerSecond := by norm_num [attachmentBytesPerSecond]
  have hafter : (delay l f.received).2.bytes = (refill l f.received).bytes - 65536 := by rw [hdelay]
  have hclock : (delay l f.received).2.last = f.received := by
    rw [hdelay]
    exact hlast
  have hserved : -slack ≤ (delay l f.received).2.bytes +
      attachmentBytesPerSecond * seconds (f.handled - f.received) :=
    hcovered.trans (add_le_add_right
      (mul_le_mul_of_nonneg_left (seconds_mono (by omega)) hrate) _)
  refine ⟨?_, ⟨?_, ?_, ?_, seconds_mono (by omega)⟩, ?_⟩
  · by_contra hlong
    have hlong : maxDelay + 1 ≤ (delay l f.received).1 := by omega
    have hpos : 0 < (delay l f.received).1 := lt_of_lt_of_le (by decide) hlong
    have hseconds := mul_le_mul_of_nonneg_left (seconds_mono hlong) hrate
    have hspent := hcost hpos
    rw [hafter] at hspent
    norm_num [slack, attachmentBytesPerSecond, seconds, maxDelay] at hseconds hspent hpaid
    linarith
  · dsimp only [Frame.request]
    rw [hafter, sub_add_cancel, ← seconds_sub]
    exact hbytes
  · dsimp only [Frame.request]
    rw [hclock]
  · dsimp only [Frame.request]
    rw [← seconds_sub]
    exact hserved
  · refine ⟨?_, ?_, ?_, ?_, ?_⟩
    · rw [hclock]
      exact h.set.trans_le (h.le.trans hreceived)
    · rw [hclock]
      omega
    · rw [hafter]
      have hfull := hbytes.trans (min_le_left _ _)
      linarith
    · rw [hafter]
      linarith
    · rw [hclock]
      exact hserved

/-- The frames are paced requests, and no sleep is long. -/
theorem paced_of_reads (h : Ready l ready) (hreads : Reads l ready frames) :
    Paced attachmentByteBurst attachmentBytesPerSecond 65536 slack ⟨l.bytes, seconds l.last⟩
        (seconds ready) (frames.map Frame.request) ∧
      ∀ d ∈ delays l frames, d ≤ maxDelay := by
  induction frames generalizing l ready with
  | nil => exact ⟨.nil, fun d hd => by cases hd⟩
  | cons f frames ih =>
    obtain ⟨hreceived, hhandled, hrest⟩ := hreads
    obtain ⟨hshort, hcharge, hnext⟩ := delay_of_ready h hreceived hhandled
    obtain ⟨hpaced, hdelays⟩ := ih hnext hrest
    exact ⟨.cons (seconds_mono hreceived) hcharge hpaced, List.forall_mem_cons.2 ⟨hshort, hdelays⟩⟩

/-- The first frame sets the limiter of a connection up. -/
theorem delay_fresh (h : 0 < now) :
    delay ⟨0, 0⟩ now = delay ⟨attachmentByteBurst, now⟩ now := by
  have hfresh : setUp ⟨0, 0⟩ now = ⟨attachmentByteBurst, now⟩ := if_pos rfl
  have hset : setUp ⟨attachmentByteBurst, now⟩ now = ⟨attachmentByteBurst, now⟩ := if_neg h.ne'
  unfold delay
  rw [hfresh, hset]

/-- The first frame starts with a burst. -/
theorem paced_of_fresh (hready : 0 < ready) (hreads : Reads ⟨0, 0⟩ ready frames) :
    (∃ b now, Paced attachmentByteBurst attachmentBytesPerSecond 65536 slack b now
        (frames.map Frame.request)) ∧
      ∀ d ∈ delays ⟨0, 0⟩ frames, d ≤ maxDelay := by
  cases frames with
  | nil => exact ⟨⟨⟨0, 0⟩, 0, .nil⟩, fun d hd => by cases hd⟩
  | cons f frames =>
    obtain ⟨hreceived, hhandled, hrest⟩ := hreads
    have hpos : 0 < f.received := hready.trans_le hreceived
    rw [delay_fresh hpos] at hhandled hrest
    have hburst : Reads ⟨attachmentByteBurst, f.received⟩ f.received (f :: frames) :=
      ⟨le_rfl, hhandled, hrest⟩
    obtain ⟨hpaced, hdelays⟩ := paced_of_reads (ready_fresh hpos) hburst
    refine ⟨⟨_, _, hpaced⟩, ?_⟩
    rw [delays, delay_fresh hpos]
    exact hdelays

theorem seconds_le_iff {d e : ℤ} : seconds d ≤ seconds e ↔ d ≤ e := by
  unfold seconds
  rw [div_le_div_iff_of_pos_right (by norm_num), Int.cast_le]

/-- The frames that are handled in a window. -/
theorem served_request (s t : ℤ) (frames : List Frame) :
    served (seconds s) (seconds t) (frames.map Frame.request) =
      (frames.filter fun f => s ≤ f.handled ∧ f.handled ≤ t).map Frame.request := by
  unfold served
  rw [List.filter_map]
  congr 1
  refine List.filter_congr fun f _ => ?_
  simp only [Function.comp_apply, Frame.request, seconds_le_iff]

/-- The frames with file data that a connection goes on with, and how long they wait: in a window no
more than a burst, one frame and what comes in, and never longer than the time of one frame. -/
theorem attachment_rate_bound (hready : 0 < ready) (hreads : Reads ⟨0, 0⟩ ready frames) :
    (∀ s t : ℤ, s ≤ t →
      ((frames.filter fun f => s ≤ f.handled ∧ f.handled ≤ t).length : ℚ) * 65536 ≤
        attachmentByteBurst + 65536 + attachmentBytesPerSecond * seconds (t - s) +
          attachmentBytesPerSecond / 1000000000) ∧
      ∀ d ∈ delays ⟨0, 0⟩ frames, d ≤ 1953126 := by
  obtain ⟨⟨b, now, hpaced⟩, hdelays⟩ := paced_of_fresh hready hreads
  refine ⟨fun s t hst => ?_, hdelays⟩
  have hwindow := served_window_le (by norm_num [attachmentBytesPerSecond]) (by norm_num)
    (by norm_num [attachmentByteBurst]) (by norm_num [slack, attachmentBytesPerSecond])
    (seconds_mono hst) hpaced
  rw [served_request, List.length_map, ← seconds_sub] at hwindow
  exact hwindow

/-- Two frames, a minute after the zero time and at once after the first. -/
def twoFrames : List Frame := [⟨60000000000, 60000000000⟩, ⟨60000000001, 60000000002⟩]

theorem attachment_rate_bound_twoFrames :
    (((twoFrames.filter fun f => 60000000000 ≤ f.handled ∧ f.handled ≤ 60000000002).length : ℕ) : ℚ) *
      65536 ≤ attachmentByteBurst + 65536 +
        attachmentBytesPerSecond * seconds (60000000002 - 60000000000) +
          attachmentBytesPerSecond / 1000000000 := by
  have hreads : Reads ⟨0, 0⟩ 1 twoFrames :=
    ⟨by decide, by decide +kernel, by decide, by decide +kernel, trivial⟩
  exact (attachment_rate_bound (by decide) hreads).1 _ _ (by decide)

end AttachmentRateLimiter

end LanChat.ConnectionLimits
