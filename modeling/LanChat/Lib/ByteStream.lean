import Mathlib.Data.List.Basic
import Mathlib.Data.Int.Notation

/-!
# Loops over a byte stream that is written and read piece by piece

A call that writes takes some of what it is offered; a call that reads returns some of what has
arrived.  The loops here go on until everything is written or read.

* `sendAll`: `sendAll_wire` says what is on the wire when it succeeds, `sendAll_partial` that it
  does when every call makes progress;
* `fill`: `fill_fragments` for every way in which the bytes arrive;
* `sendFrame`, `recvFrame`: a header that announces the length of a payload, then the payload.
-/

namespace ByteStream

variable {β ε : Type*}

/-- How much of what is left a call gets. -/
structure Capacity where
  size : ℕ → ℕ
  pos : ∀ n, 0 < n → 0 < size n
  le : ∀ n, size n ≤ n

namespace Capacity

/-- All of it. -/
def whole : Capacity := ⟨id, fun _ h => h, fun _ => Nat.le_refl _⟩

/-- At most so much. -/
def upTo (limit : ℕ) (hlimit : 0 < limit) : Capacity where
  size n := min n limit
  pos _ hn := Nat.lt_min.2 ⟨hn, hlimit⟩
  le n := Nat.min_le_left n limit

/-- Up to `n` the capacity is no limit. -/
def Covers (c : Capacity) (n : ℕ) : Prop := ∀ k ≤ n, c.size k = k

theorem covers_whole (n : ℕ) : whole.Covers n := fun _ _ => rfl

theorem covers_upTo {limit n : ℕ} (hlimit : 0 < limit) (hn : n ≤ limit) :
    (upTo limit hlimit).Covers n := fun _ hk => Nat.min_eq_left (Nat.le_trans hk hn)

theorem Covers.mono {c : Capacity} {n k : ℕ} (h : c.Covers n) (hk : k ≤ n) : c.Covers k :=
  fun _ hj => h _ (Nat.le_trans hj hk)

end Capacity

/-! ### Writing -/

/-- What a call that writes reports: a count, and whether there is an error beside it. -/
structure Report where
  count : ℤ
  failed : Bool
  reason : String

/-- The report of each call, given how much it is offered. -/
abbrev Pattern := ℕ → ℕ → Report

/-- Every call takes something of what it is offered. -/
def Pattern.Partial (p : Pattern) : Prop :=
  ∀ i n, 0 < n → 0 < (p i n).count ∧ (p i n).count ≤ n ∧ (p i n).failed = false

/-- The sending end: the calls so far and the bytes on the wire. -/
structure Sender (β : Type*) where
  calls : ℕ
  wire : List β

/-- A call that writes. -/
def Sender.write (s : Sender β) (p : Pattern) (offered : List β) : Report × Sender β :=
  let report := p s.calls offered.length
  (report, ⟨s.calls + 1, s.wire ++ offered.take report.count.toNat⟩)

/-- A loop goes on after a report, some bytes further, or it ends with an error. -/
abbrev Judge (ε : Type*) := (offered : ℕ) → Report → Except ε {n : ℕ // 0 < n}

/-- A loop that goes on does so behind the bytes that were taken. -/
def Judge.Exact (judge : Judge ε) : Prop :=
  ∀ (n : ℕ) (r : Report) k, judge n r = .ok k → k.1 = r.count.toNat

/-- A loop goes on when a call has taken something. -/
def Judge.GoesOn (judge : Judge ε) : Prop :=
  ∀ (n : ℕ) (r : Report), 0 < r.count → r.count ≤ n → r.failed = false → ∃ k, judge n r = .ok k

/-- Calls until nothing is left. -/
def sendAll (capacity : Capacity) (judge : Judge ε) (p : Pattern) (s : Sender β) (data : List β) :
    Except ε Unit × Sender β :=
  if data = [] then (.ok (), s)
  else
    let offered := data.take (capacity.size data.length)
    let (report, s') := s.write p offered
    match judge offered.length report with
    | .error e => (.error e, s')
    | .ok n => sendAll capacity judge p s' (data.drop n.1)
termination_by data.length
decreasing_by
  have hlen : 0 < data.length := List.length_pos_iff.2 ‹_›
  rw [List.length_drop]
  exact Nat.sub_lt hlen n.2

section SendAll

variable {capacity : Capacity} {judge : Judge ε} {p : Pattern}

/-- When the loop has succeeded all of the data is on the wire. -/
theorem sendAll_wire (hexact : judge.Exact) {s s' : Sender β} {data : List β}
    (hcovers : capacity.Covers data.length) (h : sendAll capacity judge p s data = (.ok (), s')) :
    s'.wire = s.wire ++ data := by
  induction hn : data.length using Nat.strongRecOn generalizing s data with
  | ind n ih =>
    subst hn
    unfold sendAll at h
    split at h
    · rename_i hnil
      cases h
      rw [hnil, List.append_nil]
    · rename_i hne
      rw [hcovers _ (Nat.le_refl _), List.take_length] at h
      dsimp only [Sender.write] at h
      split at h
      · cases h
      · rename_i k hk
        have hcount := hexact _ _ _ hk
        have hlen : 0 < data.length := List.length_pos_iff.2 hne
        have hlt : (data.drop k.1).length < data.length := by
          rw [List.length_drop]
          exact Nat.sub_lt hlen k.2
        have hrest := ih _ hlt (hcovers.mono (Nat.le_of_lt hlt)) h rfl
        rw [hrest, hcount, List.append_assoc, List.take_append_drop]

/-- It succeeds when every call takes something. -/
theorem sendAll_partial (capacity : Capacity) (hgoes : judge.GoesOn) (hp : p.Partial) (s : Sender β)
    (data : List β) :
    ∃ s', sendAll capacity judge p s data = (.ok (), s') := by
  induction hn : data.length using Nat.strongRecOn generalizing s data with
  | ind n ih =>
    subst hn
    unfold sendAll
    split
    · exact ⟨s, rfl⟩
    · rename_i hne
      have hlen : 0 < data.length := List.length_pos_iff.2 hne
      have hoffered : (data.take (capacity.size data.length)).length =
          capacity.size data.length := by
        rw [List.length_take]
        exact Nat.min_eq_left (capacity.le _)
      obtain ⟨hpos, hle, hfailed⟩ := hp s.calls _ (capacity.pos _ hlen)
      dsimp only [Sender.write]
      rw [hoffered]
      obtain ⟨k, hk⟩ := hgoes _ _ hpos hle hfailed
      rw [hk]
      dsimp only
      refine ih _ ?_ _ _ rfl
      rw [List.length_drop]
      exact Nat.sub_lt hlen k.2

end SendAll

/-! ### Reading -/

/-- What a call that reads finds. -/
inductive Arrival (β : Type*)
  | bytes (l : List β)
  | failure (reason : String)

/-- A call that reads at most so much of what has arrived; what it leaves is read next. -/
def receive (capacity : ℕ) (l : List β) (later : List (Arrival β)) : List β × List (Arrival β) :=
  if l.length ≤ capacity then (l, later) else (l.take capacity, .bytes (l.drop capacity) :: later)

theorem length_receive {capacity : ℕ} {l : List β} {later : List (Arrival β)} :
    (receive capacity l later).1.length = min l.length capacity := by
  unfold receive
  split
  · rename_i h
    exact (Nat.min_eq_left h).symm
  · rw [List.length_take, Nat.min_comm]

/-- What ends a loop that reads. -/
structure Ends (ε : Type*) where
  closed : (started : Bool) → ε
  failed : String → ε
  /-- A call that returns nothing means the end of the stream. -/
  onEmpty : Bool

/-- Calls until so many bytes are there; the stream ends where the list does. -/
def fill (capacity : Capacity) (ends : Ends ε) :
    (started : Bool) → (need : ℕ) → List (Arrival β) → Except ε (List β) × List (Arrival β)
  | _, 0, arrivals => (.ok [], arrivals)
  | started, _ + 1, [] => (.error (ends.closed started), [])
  | _, _ + 1, .failure reason :: later => (.error (ends.failed reason), later)
  | started, need + 1, .bytes [] :: later =>
    if ends.onEmpty then (.error (ends.closed started), later)
    else fill capacity ends started (need + 1) later
  | _, need + 1, .bytes (b :: l) :: later =>
    let call := receive (capacity.size (need + 1)) (b :: l) later
    match fill capacity ends true (need + 1 - call.1.length) call.2 with
    | (.ok more, rest) => (.ok (call.1 ++ more), rest)
    | (.error e, rest) => (.error e, rest)
termination_by _ need arrivals => (need, arrivals.length)
decreasing_by
  · exact Prod.Lex.right _ (Nat.lt_succ_self _)
  · refine Prod.Lex.left _ _ ?_
    have hpos := capacity.pos (need + 1) (Nat.succ_pos need)
    rw [length_receive, List.length_cons]
    omega

section Fill

variable {capacity : Capacity} {ends : Ends ε}

/-- The bytes of a stream that arrives in pieces. -/
def pieces (fragments : List (List β)) : List (Arrival β) := fragments.map .bytes

/-- A loop that does not take an empty piece for the end of the stream, or meets none. -/
def Ends.Tolerates (ends : Ends ε) (fragments : List (List β)) : Prop :=
  ends.onEmpty = true → [] ∉ fragments

theorem receive_pieces (n : ℕ) (l : List β) (fragments : List (List β)) :
    ∃ rest, (receive n l (pieces fragments)).2 = pieces rest ∧
      rest.flatten = (l ++ fragments.flatten).drop (min l.length n) ∧
      rest.length ≤ fragments.length + 1 ∧ ([] ∈ rest → [] ∈ fragments) ∧
      (receive n l (pieces fragments)).1 = (l ++ fragments.flatten).take (min l.length n) := by
  unfold receive
  split
  · rename_i hle
    rw [Nat.min_eq_left hle]
    exact ⟨fragments, rfl, by rw [List.drop_left], Nat.le_succ _, id, by rw [List.take_left]⟩
  · rename_i hgt
    have hlt : n < l.length := Nat.lt_of_not_le hgt
    rw [Nat.min_eq_right (Nat.le_of_lt hlt)]
    refine ⟨l.drop n :: fragments, rfl, ?_, Nat.le_refl _, ?_, ?_⟩
    · rw [List.flatten_cons, List.drop_append_of_le_length (Nat.le_of_lt hlt)]
    · intro hmem
      rcases List.mem_cons.1 hmem with hnil | hmem
      · have hlen := congrArg List.length hnil
        rw [List.length_drop, List.length_nil] at hlen
        omega
      · exact hmem
    · rw [List.take_append_of_le_length (Nat.le_of_lt hlt)]

/-- However the bytes arrive, the loop gets as many as it needs and leaves the others. -/
theorem fill_fragments (capacity : Capacity) {fragments : List (List β)}
    (htolerates : ends.Tolerates fragments) (started : Bool) {need : ℕ}
    (hneed : need ≤ fragments.flatten.length) :
    ∃ rest, fill capacity ends started need (pieces fragments) =
        (.ok (fragments.flatten.take need), pieces rest) ∧
      rest.flatten = fragments.flatten.drop need ∧ ([] ∈ rest → [] ∈ fragments) := by
  induction hn : need + fragments.length using Nat.strongRecOn generalizing need fragments started
  with
  | ind n ih =>
    subst hn
    cases need with
    | zero => exact ⟨fragments, by rw [fill, List.take_zero], rfl, id⟩
    | succ need =>
      cases fragments with
      | nil => cases hneed
      | cons l fragments =>
        cases l with
        | nil =>
          -- an empty piece
          have hempty : ends.onEmpty = false := by
            by_contra hends
            exact htolerates (by simpa using hends) List.mem_cons_self
          have htail : ends.Tolerates fragments := fun hends => by
            rw [hempty] at hends
            cases hends
          obtain ⟨rest, hfill, hflat, hmem⟩ :=
            ih (need + 1 + fragments.length) (by simp) htail started hneed rfl
          refine ⟨rest, ?_, hflat, fun h => List.mem_cons_of_mem _ (hmem h)⟩
          unfold pieces at hfill ⊢
          rw [List.map_cons, fill, hempty, if_neg Bool.false_ne_true, hfill]
          rfl
        | cons b l =>
          obtain ⟨left, hleft, hflat, hcount, hmem, hgot⟩ :=
            receive_pieces (capacity.size (need + 1)) (b :: l) fragments
          have hpos := capacity.pos (need + 1) (Nat.succ_pos need)
          have hle := capacity.le (need + 1)
          rw [← List.flatten_cons] at hflat hgot
          have hlen : (b :: l).length = l.length + 1 := rfl
          rw [hlen] at hflat hgot
          obtain ⟨k, hk⟩ : ∃ k, k = min (l.length + 1) (capacity.size (need + 1)) := ⟨_, rfl⟩
          rw [← hk] at hflat hgot
          have hkle : k ≤ need + 1 := by omega
          have hfull : ((b :: l) :: fragments).flatten.length =
              l.length + 1 + fragments.flatten.length := by
            rw [List.flatten_cons, List.length_append, hlen]
          have hgotlen :
              (receive (capacity.size (need + 1)) (b :: l) (pieces fragments)).1.length = k := by
            rw [length_receive, hlen, hk]
          obtain ⟨rest, hfill, hrest, hnil⟩ := ih (need + 1 - k + left.length)
            (by rw [List.length_cons]; omega)
            (fun hends h => htolerates hends (List.mem_cons_of_mem _ (hmem h))) true
            (by rw [hflat, List.length_drop]; omega) rfl
          refine ⟨rest, ?_, ?_, fun h => List.mem_cons_of_mem _ (hmem (hnil h))⟩
          · unfold pieces at hfill hgotlen hleft ⊢
            rw [List.map_cons, fill, hgotlen, hleft, hfill]
            dsimp only
            unfold pieces at hgot
            rw [hgot, hflat, ← List.take_add, Nat.add_sub_of_le hkle]
          · rw [hrest, hflat, List.drop_drop]
            congr 1
            omega

end Fill

/-! ### Frames -/

/-- How one end writes frames. -/
structure FrameWriter (β ε : Type*) where
  capacity : Capacity
  judge : Judge ε
  /-- What is wrong with a payload of this length. -/
  check : ℕ → Except ε Unit
  header : ℕ → List β
  wrapHeader : ε → ε
  wrapPayload : ε → ε

/-- The header, then the payload. -/
def FrameWriter.write (w : FrameWriter β ε) (p : Pattern) (s : Sender β) (payload : List β) :
    Except ε Unit × Sender β :=
  match w.check payload.length with
  | .error e => (.error e, s)
  | .ok () =>
    match sendAll w.capacity w.judge p s (w.header payload.length) with
    | (.error e, s') => (.error (w.wrapHeader e), s')
    | (.ok (), s') =>
      match sendAll w.capacity w.judge p s' payload with
      | (.error e, s'') => (.error (w.wrapPayload e), s'')
      | (.ok (), s'') => (.ok (), s'')

/-- How one end reads frames. -/
structure FrameReader (β ε : Type*) where
  capacity : Capacity
  ends : Ends ε
  headerSize : ℕ
  length : List β → ℕ
  check : ℕ → Except ε Unit
  wrapHeader : ε → ε
  wrapPayload : ε → ε

/-- The header, then as much as it announces. -/
def FrameReader.read (r : FrameReader β ε) (arrivals : List (Arrival β)) :
    Except ε (List β) × List (Arrival β) :=
  match fill r.capacity r.ends false r.headerSize arrivals with
  | (.error e, rest) => (.error (r.wrapHeader e), rest)
  | (.ok header, rest) =>
    match r.check (r.length header) with
    | .error e => (.error e, rest)
    | .ok () =>
      match fill r.capacity r.ends false (r.length header) rest with
      | (.error e, rest) => (.error (r.wrapPayload e), rest)
      | (.ok payload, rest) => (.ok payload, rest)

/-- A header of `size` bytes for each length up to `max`. -/
structure Header (β : Type*) (size max : ℕ) where
  bytes : ℕ → List β
  length_bytes : ∀ n, (bytes n).length = size

variable {size max : ℕ} {header : Header β size max}

/-- The bytes of a frame. -/
def Header.frame (header : Header β size max) (payload : List β) : List β :=
  header.bytes payload.length ++ payload

/-- A writer of such frames. -/
structure FrameWriter.Sends (w : FrameWriter β ε) (header : Header β size max) : Prop where
  exact : w.judge.Exact
  goesOn : w.judge.GoesOn
  covers : w.capacity.Covers (size + max)
  header_eq : ∀ n, 0 < n → n ≤ max → w.header n = header.bytes n
  check_ok : ∀ n, w.check n = .ok () ↔ 0 < n ∧ n ≤ max

/-- A reader of such frames. -/
structure FrameReader.Reads (r : FrameReader β ε) (header : Header β size max) : Prop where
  headerSize : r.headerSize = size
  length_header : ∀ n, 0 < n → n ≤ max → r.length (header.bytes n) = n
  check_ok : ∀ n, r.check n = .ok () ↔ 0 < n ∧ n ≤ max

variable {w : FrameWriter β ε} {r : FrameReader β ε} {p : Pattern} {s s' : Sender β}
  {payload : List β}

/-- A payload of another length is refused, and nothing is written. -/
theorem write_refused (hw : w.Sends header) (hlen : ¬ (0 < payload.length ∧ payload.length ≤ max))
    (p : Pattern) (s : Sender β) : ∃ e, w.write p s payload = (.error e, s) := by
  unfold FrameWriter.write
  cases hcheck : w.check payload.length with
  | error e => exact ⟨e, rfl⟩
  | ok u => exact absurd ((hw.check_ok _).1 hcheck) hlen

/-- A frame that has been written is on the wire. -/
theorem write_wire (hw : w.Sends header) (h : w.write p s payload = (.ok (), s')) :
    s'.wire = s.wire ++ header.frame payload := by
  unfold FrameWriter.write at h
  split at h
  · cases h
  rename_i hcheck
  obtain ⟨hpos, hle⟩ := (hw.check_ok _).1 hcheck
  have hheader := hw.header_eq _ hpos hle
  split at h
  · cases h
  rename_i s₁ hfirst
  split at h
  · cases h
  rename_i s₂ hsecond
  cases h
  rw [hheader] at hfirst
  have hwire₁ := sendAll_wire hw.exact
    (hw.covers.mono (by rw [header.length_bytes]; exact Nat.le_add_right _ _)) hfirst
  have hwire₂ := sendAll_wire hw.exact
    (hw.covers.mono (Nat.le_trans hle (Nat.le_add_left _ _))) hsecond
  rw [hwire₂, hwire₁, List.append_assoc]
  rfl

/-- It is written when every call takes something. -/
theorem write_partial (hw : w.Sends header) (hp : p.Partial) (hpos : 0 < payload.length)
    (hle : payload.length ≤ max) (s : Sender β) : ∃ s', w.write p s payload = (.ok (), s') := by
  unfold FrameWriter.write
  rw [(hw.check_ok _).2 ⟨hpos, hle⟩]
  obtain ⟨s₁, hfirst⟩ := sendAll_partial w.capacity hw.goesOn hp s (w.header payload.length)
  obtain ⟨s₂, hsecond⟩ := sendAll_partial w.capacity hw.goesOn hp s₁ payload
  rw [hfirst]
  dsimp only
  rw [hsecond]
  exact ⟨s₂, rfl⟩

variable {fragments : List (List β)} {later : List β}

/-- A frame is read however it arrives. -/
theorem read_frame (hr : r.Reads header) (htolerates : r.ends.Tolerates fragments)
    (hpos : 0 < payload.length) (hle : payload.length ≤ max)
    (hbytes : fragments.flatten = header.frame payload ++ later) :
    ∃ rest, r.read (pieces fragments) = (.ok payload, pieces rest) ∧ rest.flatten = later ∧
      ([] ∈ rest → [] ∈ fragments) := by
  have hsize := header.length_bytes payload.length
  unfold Header.frame at hbytes
  rw [List.append_assoc] at hbytes
  obtain ⟨rest₁, hfill₁, hflat₁, hnil₁⟩ := fill_fragments r.capacity htolerates false
    (show size ≤ fragments.flatten.length by rw [hbytes, List.length_append]; omega)
  rw [hbytes, List.take_left' hsize] at hfill₁
  rw [hbytes, List.drop_left' hsize] at hflat₁
  have htolerates₁ : r.ends.Tolerates rest₁ := fun hends h => htolerates hends (hnil₁ h)
  obtain ⟨rest₂, hfill₂, hflat₂, hnil₂⟩ := fill_fragments r.capacity htolerates₁ false
    (show payload.length ≤ rest₁.flatten.length by rw [hflat₁, List.length_append]; omega)
  rw [hflat₁, List.take_left] at hfill₂
  rw [hflat₁, List.drop_left] at hflat₂
  refine ⟨rest₂, ?_, hflat₂, fun h => hnil₁ (hnil₂ h)⟩
  unfold FrameReader.read
  rw [hr.headerSize, hfill₁]
  dsimp only
  rw [hr.length_header _ hpos hle, (hr.check_ok _).2 ⟨hpos, hle⟩]
  dsimp only
  rw [hfill₂]

/-- A header that announces another length is refused, and nothing behind it is read. -/
theorem read_refused (hr : r.Reads header) (htolerates : r.ends.Tolerates fragments) {h : List β}
    (hsize : h.length = size) (hlen : ¬ (0 < r.length h ∧ r.length h ≤ max))
    (hbytes : fragments.flatten = h ++ later) :
    ∃ e rest, r.read (pieces fragments) = (.error e, pieces rest) ∧ rest.flatten = later := by
  obtain ⟨rest, hfill, hflat, -⟩ := fill_fragments r.capacity htolerates false
    (show size ≤ fragments.flatten.length by rw [hbytes, List.length_append]; omega)
  rw [hbytes, List.take_left' hsize] at hfill
  rw [hbytes, List.drop_left' hsize] at hflat
  unfold FrameReader.read
  rw [hr.headerSize, hfill]
  dsimp only
  cases hcheck : r.check (r.length h) with
  | error e => exact ⟨e, rest, rfl, hflat⟩
  | ok u => exact absurd ((hr.check_ok _).1 hcheck) hlen

/-! ### Several frames -/

/-- One frame after another, up to the first error. -/
def writeAll (p : Pattern) (s : Sender β) :
    List (FrameWriter β ε × List β) → Except ε Unit × Sender β
  | [] => (.ok (), s)
  | (w, payload) :: frames =>
    match w.write p s payload with
    | (.error e, s') => (.error e, s')
    | (.ok (), s') => writeAll p s' frames

/-- One frame for each reader, up to the first error. -/
def readAll (arrivals : List (Arrival β)) :
    List (FrameReader β ε) → Except ε (List (List β)) × List (Arrival β)
  | [] => (.ok [], arrivals)
  | r :: readers =>
    match r.read arrivals with
    | (.error e, rest) => (.error e, rest)
    | (.ok payload, rest) =>
      match readAll rest readers with
      | (.error e, rest) => (.error e, rest)
      | (.ok payloads, rest) => (.ok (payload :: payloads), rest)

variable {frames : List (FrameWriter β ε × List β)} {readers : List (FrameReader β ε)}

theorem writeAll_wire (hw : ∀ f ∈ frames, f.1.Sends header)
    (h : writeAll p s frames = (.ok (), s')) :
    s'.wire = s.wire ++ (frames.map fun f => header.frame f.2).flatten := by
  induction frames generalizing s with
  | nil =>
    cases h
    rw [List.map_nil, List.flatten_nil, List.append_nil]
  | cons f frames ih =>
    rw [writeAll] at h
    split at h
    · cases h
    rename_i s₁ hfirst
    rw [ih (fun f hf => hw f (List.mem_cons_of_mem _ hf)) h,
      write_wire (hw f List.mem_cons_self) hfirst, List.map_cons, List.flatten_cons,
      List.append_assoc]

theorem writeAll_partial (hw : ∀ f ∈ frames, f.1.Sends header) (hp : p.Partial)
    (hlen : ∀ f ∈ frames, 0 < f.2.length ∧ f.2.length ≤ max) (s : Sender β) :
    ∃ s', writeAll p s frames = (.ok (), s') := by
  induction frames generalizing s with
  | nil => exact ⟨s, rfl⟩
  | cons f frames ih =>
    obtain ⟨hpos, hle⟩ := hlen f List.mem_cons_self
    obtain ⟨s₁, hfirst⟩ := write_partial (hw f List.mem_cons_self) hp hpos hle s
    rw [writeAll, hfirst]
    exact ih (fun f hf => hw f (List.mem_cons_of_mem _ hf))
      (fun f hf => hlen f (List.mem_cons_of_mem _ hf)) s₁

/-- Readers get the frames in turn however they arrive. -/
theorem readAll_frames {payloads : List (List β)} (hr : ∀ r ∈ readers, r.Reads header)
    (htolerates : ∀ r ∈ readers, r.ends.Tolerates fragments)
    (hcount : readers.length = payloads.length)
    (hlen : ∀ x ∈ payloads, 0 < x.length ∧ x.length ≤ max)
    (hbytes : fragments.flatten = (payloads.map header.frame).flatten ++ later) :
    ∃ rest, readAll (pieces fragments) readers = (.ok payloads, pieces rest) ∧
      rest.flatten = later := by
  induction readers generalizing payloads fragments with
  | nil =>
    cases payloads with
    | nil => exact ⟨fragments, rfl, hbytes⟩
    | cons x payloads => cases hcount
  | cons r readers ih =>
    cases payloads with
    | nil => cases hcount
    | cons x payloads =>
      rw [List.map_cons, List.flatten_cons, List.append_assoc] at hbytes
      obtain ⟨hpos, hle⟩ := hlen x List.mem_cons_self
      obtain ⟨rest₁, hread, hflat, hnil⟩ := read_frame (hr r List.mem_cons_self)
        (htolerates r List.mem_cons_self) hpos hle hbytes
      obtain ⟨rest₂, hrest, hlater⟩ := ih (fun r hr' => hr r (List.mem_cons_of_mem _ hr'))
        (fun r hr' hends h => htolerates r (List.mem_cons_of_mem _ hr') hends (hnil h))
        (Nat.succ.inj hcount) (fun x hx => hlen x (List.mem_cons_of_mem _ hx)) hflat
      refine ⟨rest₂, ?_, hlater⟩
      rw [readAll, hread]
      dsimp only
      rw [hrest]

end ByteStream
