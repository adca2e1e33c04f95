import LanChat.Lib.Run
import Mathlib.Data.Finset.Card
import Mathlib.Data.Finset.Dedup
import Mathlib.Data.Finset.Image
import Mathlib.Data.Int.Interval
import Mathlib.Order.Interval.Finset.Basic

/-!
# The state of an upload on the side of the client (`attachments/attachment_transfer_state.cpp`)

The client counts the chunks that the server has: by the indexes of a resume reply, or by the
acknowledgements of the chunks one after another.

* `AttachmentTransferState`: the state with its operations, each in the words of the source;
* `acceptChunkAck_iff`, `acceptChunkAck_fields`: which acknowledgements are accepted, and what they
  do;
* `Tracked`: what holds between the status, the received chunks and the failures;
* `transfer_state_invariant`: it holds after every sequence of operations.
-/

namespace LanChat.Gui.Attachments

open EventMachine

/-! ### The operations -/

/-- `AttachmentTransferState::Status`. -/
inductive TransferStatus
  | idle | initializing | uploading | resuming | completed | cancelled | failed
  deriving DecidableEq, Repr

/-- The transfer is over. -/
def TransferStatus.isFinal : TransferStatus → Bool
  | .completed | .cancelled | .failed => true
  | _ => false

/-- `AttachmentTransferState`; a chunk that is not in `failedAttempts_` has no failures. -/
structure AttachmentTransferState where
  status : TransferStatus := .idle
  logicalSize : ℤ := 0
  chunkSize : ℤ := 0
  attachmentID : String := ""
  uploadID : String := ""
  expiresAt : String := ""
  received : Finset ℤ := ∅
  failedAttempts : ℤ → ℕ := fun _ => 0
  pendingChunkCommands : List (String × ℤ) := []

namespace AttachmentTransferState

/-- `MaxChunkRetries`. -/
def maxChunkRetries : ℕ := 3

def begin (t : AttachmentTransferState) (logicalSize chunkSize : ℤ) :
    Option AttachmentTransferState :=
  if logicalSize ≤ 0 ∨ chunkSize ≤ 0 ∨ t.status ≠ .idle then none
  else some { status := .initializing, logicalSize, chunkSize }

def acceptInit (t : AttachmentTransferState) (attachmentID uploadID : String) (chunkSize : ℤ)
    (expiresAt : String) : Option AttachmentTransferState :=
  if t.status ≠ .initializing ∨ attachmentID = "" ∨ uploadID = "" ∨ expiresAt = "" ∨
      chunkSize ≠ t.chunkSize then none
  else some { t with attachmentID, uploadID, expiresAt, status := .uploading }

def chunkCount (t : AttachmentTransferState) : ℤ :=
  if 0 < t.chunkSize then (t.logicalSize + t.chunkSize - 1) / t.chunkSize else 0

def validIndex (t : AttachmentTransferState) (chunkIndex : ℤ) : Bool :=
  decide (0 ≤ chunkIndex) && decide (chunkIndex < t.chunkCount)

def acceptResume (t : AttachmentTransferState) (receivedIndexes : List ℤ) :
    AttachmentTransferState :=
  if (t.status = .uploading ∨ t.status = .resuming) ∧ receivedIndexes.all t.validIndex then
    { t with
      received := receivedIndexes.toFinset
      failedAttempts := fun _ => 0
      pendingChunkCommands := []
      status := if (receivedIndexes.toFinset.card : ℤ) = t.chunkCount then .completed
        else .uploading }
  else t

/-- `acceptChunkAck` for a chunk, with its answer. -/
def acceptChunk (t : AttachmentTransferState) (chunkIndex : ℤ) : Bool × AttachmentTransferState :=
  if t.status ≠ .uploading ∨ !t.validIndex chunkIndex then (false, t)
  else
    let received := insert chunkIndex t.received
    (true, { t with
      received
      failedAttempts := Function.update t.failedAttempts chunkIndex 0
      status := if (received.card : ℤ) = t.chunkCount then .completed else t.status })

/-- `registerChunkCommand`: refused unless the chunk is still to be sent. -/
def registerChunkCommand (t : AttachmentTransferState) (commandID : String) (chunkIndex : ℤ) :
    Option AttachmentTransferState :=
  if t.status ≠ .uploading ∨ commandID = "" ∨ !t.validIndex chunkIndex ∨ chunkIndex ∈ t.received ∨
      commandID ∈ t.pendingChunkCommands.map Prod.fst then none
  else some { t with pendingChunkCommands := t.pendingChunkCommands ++ [(commandID, chunkIndex)] }

/-- `acceptChunkAck` for a command, with its answer. -/
def acceptChunkAck (t : AttachmentTransferState) (commandID : String) (chunkIndex : ℤ) :
    Bool × AttachmentTransferState :=
  match t.pendingChunkCommands.lookup commandID with
  | none => (false, t)
  | some index =>
    if index ≠ chunkIndex then (false, t)
    else
      { t with
        pendingChunkCommands :=
          t.pendingChunkCommands.filter (·.1 ≠ commandID) }.acceptChunk chunkIndex

/-- `recordChunkFailure`, with its answer. -/
def recordChunkFailure (t : AttachmentTransferState) (chunkIndex : ℤ) :
    Bool × AttachmentTransferState :=
  if t.status ≠ .uploading ∨ !t.validIndex chunkIndex ∨ chunkIndex ∈ t.received then (false, t)
  else
    let attempts := t.failedAttempts chunkIndex + 1
    (decide (attempts ≤ maxChunkRetries), { t with
      failedAttempts := Function.update t.failedAttempts chunkIndex attempts
      status := if maxChunkRetries < attempts then .failed else t.status })

def cancel (t : AttachmentTransferState) : AttachmentTransferState :=
  if t.status = .initializing ∨ t.status = .uploading ∨ t.status = .resuming then
    { t with status := .cancelled }
  else t

def fail (t : AttachmentTransferState) : AttachmentTransferState :=
  if t.status = .completed ∨ t.status = .cancelled then t else { t with status := .failed }

/-- `missingIndexes`: the loop over the indexes of the chunks. -/
def missingIndexes (t : AttachmentTransferState) : List ℤ :=
  ((List.range t.chunkCount.toNat).map fun index : ℕ => (index : ℤ)).filter (· ∉ t.received)

end AttachmentTransferState

/-- A call of one of the operations. -/
inductive TransferOp
  | begin (logicalSize chunkSize : ℤ)
  | acceptInit (attachmentID uploadID : String) (chunkSize : ℤ) (expiresAt : String)
  | acceptResume (receivedIndexes : List ℤ)
  | registerChunkCommand (commandID : String) (chunkIndex : ℤ)
  | acceptChunk (chunkIndex : ℤ)
  | acceptChunkAck (commandID : String) (chunkIndex : ℤ)
  | recordChunkFailure (chunkIndex : ℤ)
  | cancel
  | fail

namespace AttachmentTransferState

/-- The state after a call; a call that is refused leaves it as it is. -/
def apply (t : AttachmentTransferState) : TransferOp → AttachmentTransferState
  | .begin logicalSize chunkSize => (t.begin logicalSize chunkSize).getD t
  | .acceptInit attachmentID uploadID chunkSize expiresAt =>
    (t.acceptInit attachmentID uploadID chunkSize expiresAt).getD t
  | .acceptResume receivedIndexes => t.acceptResume receivedIndexes
  | .registerChunkCommand commandID chunkIndex =>
    (t.registerChunkCommand commandID chunkIndex).getD t
  | .acceptChunk chunkIndex => (t.acceptChunk chunkIndex).2
  | .acceptChunkAck commandID chunkIndex => (t.acceptChunkAck commandID chunkIndex).2
  | .recordChunkFailure chunkIndex => (t.recordChunkFailure chunkIndex).2
  | .cancel => t.cancel
  | .fail => t.fail

/-! ### The indexes that are missing -/

theorem mem_missingIndexes {t : AttachmentTransferState} {i : ℤ} :
    i ∈ t.missingIndexes ↔ (0 ≤ i ∧ i < t.chunkCount) ∧ i ∉ t.received := by
  unfold missingIndexes
  rw [List.mem_filter, decide_eq_true_eq, List.mem_map]
  refine and_congr_left fun _ => ⟨?_, fun hi => ?_⟩
  · rintro ⟨n, hn, rfl⟩
    rw [List.mem_range] at hn
    omega
  · exact ⟨i.toNat, List.mem_range.2 (by omega), by omega⟩

theorem sorted_missingIndexes (t : AttachmentTransferState) :
    t.missingIndexes.Pairwise (· < ·) := by
  refine List.Pairwise.filter _ (List.pairwise_map.2 ?_)
  exact List.pairwise_lt_range.imp fun h => by exact_mod_cast h

/-! ### The commands that wait -/

section Commands

variable {t : AttachmentTransferState} {c : String} {i : ℤ}

/-- A command is found with its index when no two commands are the same. -/
theorem lookup_iff {commands : List (String × ℤ)} (hnodup : (commands.map Prod.fst).Nodup) :
    commands.lookup c = some i ↔ (c, i) ∈ commands := by
  induction commands with
  | nil => simp
  | cons first rest ih =>
    obtain ⟨command, index⟩ := first
    rw [List.map_cons, List.nodup_cons] at hnodup
    by_cases hc : c = command
    · subst hc
      rw [List.lookup_cons_self, List.mem_cons]
      constructor
      · intro h
        cases h
        exact .inl rfl
      · rintro (h | h)
        · cases h
          rfl
        · exact absurd (List.mem_map.2 ⟨_, h, rfl⟩) hnodup.1
    · rw [List.lookup_cons, beq_false_of_ne hc, List.mem_cons, ih hnodup.2]
      simp [hc]

theorem acceptChunk_iff :
    (t.acceptChunk i).1 = true ↔ t.status = .uploading ∧ t.validIndex i = true := by
  unfold acceptChunk
  split_ifs with hrefused
  · simp only [false_iff, not_and]
    intro huploading hvalid
    simp [huploading, hvalid] at hrefused
  · simpa using hrefused

/-- An acknowledgement is accepted for a chunk whose command waits, while the upload goes on. -/
theorem acceptChunkAck_iff (hnodup : (t.pendingChunkCommands.map Prod.fst).Nodup) :
    (t.acceptChunkAck c i).1 = true ↔
      (c, i) ∈ t.pendingChunkCommands ∧ t.status = .uploading ∧ t.validIndex i = true := by
  rw [← lookup_iff hnodup]
  unfold acceptChunkAck
  cases hlookup : t.pendingChunkCommands.lookup c with
  | none => simp
  | some index =>
    by_cases hindex : index = i
    · subst hindex
      simp only [ne_eq, not_true_eq_false, if_false, acceptChunk_iff, true_and]
      rfl
    · simp [hindex]

/-- What an accepted acknowledgement does; the transfer goes on unless all chunks are there. -/
theorem acceptChunkAck_fields (haccepted : (t.acceptChunkAck c i).1 = true) :
    (t.acceptChunkAck c i).2.received = insert i t.received ∧
      (t.acceptChunkAck c i).2.pendingChunkCommands =
        t.pendingChunkCommands.filter (·.1 ≠ c) ∧
      (t.acceptChunkAck c i).2.chunkCount = t.chunkCount ∧
      (((insert i t.received).card : ℤ) ≠ t.chunkCount →
        (t.acceptChunkAck c i).2.status = .uploading) := by
  unfold acceptChunkAck at haccepted ⊢
  split at haccepted
  · cases haccepted
  · split_ifs at haccepted with hindex
    obtain ⟨huploading, -⟩ := acceptChunk_iff.1 haccepted
    rw [if_neg hindex]
    unfold acceptChunk at haccepted ⊢
    split_ifs at haccepted with hrefused
    rw [if_neg hrefused]
    refine ⟨rfl, rfl, rfl, fun hmore => ?_⟩
    exact (if_neg hmore).trans huploading

/-- A refused acknowledgement changes nothing while all commands that wait could be accepted. -/
theorem acceptChunkAck_refused (huploading : t.status = .uploading)
    (hvalid : ∀ command ∈ t.pendingChunkCommands, t.validIndex command.2 = true)
    (hnodup : (t.pendingChunkCommands.map Prod.fst).Nodup)
    (hrefused : ¬ (t.acceptChunkAck c i).1 = true) : (t.acceptChunkAck c i).2 = t := by
  have hnot : t.pendingChunkCommands.lookup c ≠ some i := by
    intro hlookup
    have hmem := (lookup_iff hnodup).1 hlookup
    exact hrefused ((acceptChunkAck_iff hnodup).2 ⟨hmem, huploading, hvalid _ hmem⟩)
  unfold acceptChunkAck
  split
  · rfl
  · rename_i index hlookup
    rw [if_pos]
    rintro rfl
    exact hnot hlookup

end Commands

/-! ### The invariant -/

/-- What is kept once a transfer of `n` chunks has begun. -/
structure Tracked (n : ℤ) (t : AttachmentTransferState) : Prop where
  started : t.status ≠ .idle
  count : t.chunkCount = n
  bounds : ∀ i ∈ t.received, 0 ≤ i ∧ i < n
  completed : t.status = .completed ↔ (t.received.card : ℤ) = n
  retries : t.status ≠ .failed → ∀ i, t.failedAttempts i ≤ maxChunkRetries

variable {n : ℤ} {t : AttachmentTransferState}

theorem validIndex_iff {i : ℤ} : t.validIndex i = true ↔ 0 ≤ i ∧ i < t.chunkCount := by
  unfold validIndex
  rw [Bool.and_eq_true, decide_eq_true_eq, decide_eq_true_eq]

/-- As many indexes as there are chunks are all of them. -/
theorem card_eq_iff {received : Finset ℤ} (hn : 0 ≤ n) (hbounds : ∀ i ∈ received, 0 ≤ i ∧ i < n) :
    (received.card : ℤ) = n ↔ ∀ i, 0 ≤ i → i < n → i ∈ received := by
  have hsubset : received ⊆ Finset.Ico 0 n := fun i hi => Finset.mem_Ico.2 (hbounds i hi)
  have hcard : (Finset.Ico 0 n).card = n.toNat := by rw [Int.card_Ico, sub_zero]
  constructor
  · intro hfull i hpos hlt
    have heq : received = Finset.Ico 0 n := Finset.eq_of_subset_of_card_le hsubset (by omega)
    rw [heq]
    exact Finset.mem_Ico.2 ⟨hpos, hlt⟩
  · intro hall
    have heq : received = Finset.Ico 0 n := by
      refine hsubset.antisymm fun i hi => ?_
      obtain ⟨hpos, hlt⟩ := Finset.mem_Ico.1 hi
      exact hall i hpos hlt
    rw [heq, hcard]
    omega

/-- A transfer that has begun has chunks, and none of them is received. -/
theorem tracked_begin {t' : AttachmentTransferState} {logicalSize chunkSize : ℤ}
    (hbegin : t.begin logicalSize chunkSize = some t') :
    Tracked ((logicalSize + chunkSize - 1) / chunkSize) t' ∧
      0 < (logicalSize + chunkSize - 1) / chunkSize := by
  unfold begin at hbegin
  split_ifs at hbegin with hrefused
  obtain ⟨hlogical, hchunk, -⟩ : 0 < logicalSize ∧ 0 < chunkSize ∧ t.status = .idle := by
    simpa using hrefused
  have hpos : 1 ≤ (logicalSize + chunkSize - 1) / chunkSize :=
    Int.le_ediv_of_mul_le hchunk (by omega)
  cases hbegin
  refine ⟨⟨by simp, ?_, by simp, ?_, fun _ _ => Nat.zero_le _⟩, hpos⟩
  · unfold chunkCount
    rw [if_pos hchunk]
  · simp only [Finset.card_empty, reduceCtorEq, false_iff]
    omega

/-- A chunk that is accepted is counted, and it may be the last one. -/
theorem Tracked.acceptChunk (ht : Tracked n t) (chunkIndex : ℤ) :
    Tracked n (t.acceptChunk chunkIndex).2 := by
  unfold AttachmentTransferState.acceptChunk
  split_ifs with hrefused
  · exact ht
  obtain ⟨huploading, hvalid⟩ : t.status = .uploading ∧ t.validIndex chunkIndex = true := by
    simpa using hrefused
  rw [validIndex_iff, ht.count] at hvalid
  refine ⟨?_, ht.count, fun i hi => ?_, ?_, fun _ i => ?_⟩
  · dsimp only
    split_ifs
    · exact fun h => by cases h
    · exact ht.started
  · rcases Finset.mem_insert.1 hi with rfl | hi
    · exact hvalid
    · exact ht.bounds i hi
  · dsimp only
    rw [ht.count, huploading]
    split_ifs with hfull
    · exact iff_of_true rfl hfull
    · exact iff_of_false (fun h => by cases h) hfull
  · dsimp only
    by_cases hi : i = chunkIndex
    · rw [hi, Function.update_self]
      exact Nat.zero_le _
    · rw [Function.update_of_ne hi]
      exact ht.retries (by rw [huploading]; exact fun h => by cases h) i

/-- The commands that wait do not count. -/
theorem Tracked.setPending (ht : Tracked n t) (pendingChunkCommands : List (String × ℤ)) :
    Tracked n { t with pendingChunkCommands } :=
  ⟨ht.started, ht.count, ht.bounds, ht.completed, ht.retries⟩

/-- A transfer that is not completed may take another status. -/
theorem Tracked.setStatus (ht : Tracked n t) {status : TransferStatus} (hstarted : status ≠ .idle)
    (hcompleted : status ≠ .completed) (hnot : t.status ≠ .completed)
    (hfailed : t.status = .failed → status = .failed) : Tracked n { t with status } :=
  ⟨hstarted, ht.count, ht.bounds, iff_of_false hcompleted fun h => hnot (ht.completed.2 h),
    fun h => ht.retries fun h' => h (hfailed h')⟩

/-- A resume reply replaces the received chunks. -/
theorem Tracked.acceptResume (ht : Tracked n t) (receivedIndexes : List ℤ) :
    Tracked n (t.acceptResume receivedIndexes) := by
  unfold AttachmentTransferState.acceptResume
  split_ifs with haccepted hfull
  · refine ⟨fun h => (by cases h), ht.count, fun i hi => ?_, iff_of_true rfl ?_,
      fun _ _ => Nat.zero_le _⟩
    · have hvalid := List.all_eq_true.1 haccepted.2 i (List.mem_toFinset.1 hi)
      rwa [validIndex_iff, ht.count] at hvalid
    · rw [hfull, ht.count]
  · refine ⟨fun h => (by cases h), ht.count, fun i hi => ?_, iff_of_false (fun h => by cases h) ?_,
      fun _ _ => Nat.zero_le _⟩
    · have hvalid := List.all_eq_true.1 haccepted.2 i (List.mem_toFinset.1 hi)
      rwa [validIndex_iff, ht.count] at hvalid
    · rwa [ht.count] at hfull
  · exact ht

/-- A failure of a chunk that is missing counts, and one too many ends the transfer. -/
theorem Tracked.recordChunkFailure (ht : Tracked n t) (chunkIndex : ℤ) :
    Tracked n (t.recordChunkFailure chunkIndex).2 := by
  unfold AttachmentTransferState.recordChunkFailure
  split_ifs with hrefused
  · exact ht
  have huploading : t.status = .uploading := by
    by_contra h
    exact hrefused (.inl h)
  have hopen : t.status ≠ .completed ∧ t.status ≠ .failed := by simp [huploading]
  dsimp only
  split_ifs with hmany
  · exact ⟨fun h => (by cases h), ht.count, ht.bounds,
      iff_of_false (fun h => by cases h) fun h => hopen.1 (ht.completed.2 h), fun h => absurd rfl h⟩
  · refine ⟨ht.started, ht.count, ht.bounds, ht.completed, fun _ i => ?_⟩
    dsimp only
    by_cases hi : i = chunkIndex
    · rw [hi, Function.update_self]
      omega
    · rw [Function.update_of_ne hi]
      exact ht.retries hopen.2 i

/-- Every call keeps it. -/
theorem Tracked.apply (ht : Tracked n t) (op : TransferOp) : Tracked n (t.apply op) := by
  cases op with
  | begin logicalSize chunkSize =>
    have hrefused : t.begin logicalSize chunkSize = none := if_pos (.inr (.inr ht.started))
    simp only [AttachmentTransferState.apply, hrefused]
    exact ht
  | acceptInit attachmentID uploadID chunkSize expiresAt =>
    simp only [AttachmentTransferState.apply, acceptInit]
    split_ifs with hrefused
    · exact ht
    · have hinit : t.status = .initializing := by
        by_contra h
        exact hrefused (.inl h)
      have hopen := ht.setStatus (by simp : TransferStatus.uploading ≠ .idle) (by simp)
        (by simp [hinit]) (by simp [hinit])
      exact ⟨hopen.started, hopen.count, hopen.bounds, hopen.completed, hopen.retries⟩
  | acceptResume receivedIndexes => exact ht.acceptResume receivedIndexes
  | registerChunkCommand commandID chunkIndex =>
    simp only [AttachmentTransferState.apply, registerChunkCommand]
    split_ifs
    · exact ht
    · exact ht.setPending _
  | acceptChunk chunkIndex => exact ht.acceptChunk chunkIndex
  | acceptChunkAck commandID chunkIndex =>
    simp only [AttachmentTransferState.apply, acceptChunkAck]
    split
    · exact ht
    · split_ifs
      · exact ht
      · exact (ht.setPending _).acceptChunk chunkIndex
  | recordChunkFailure chunkIndex => exact ht.recordChunkFailure chunkIndex
  | cancel =>
    simp only [AttachmentTransferState.apply, cancel]
    split_ifs with hopen
    · refine ht.setStatus (by simp) (by simp) ?_ ?_
      · rcases hopen with h | h | h <;> simp [h]
      · rcases hopen with h | h | h <;> simp [h]
    · exact ht
  | fail =>
    simp only [AttachmentTransferState.apply, fail]
    split_ifs with hover
    · exact ht
    · exact ht.setStatus (by simp) (by simp) (fun h => hover (.inl h)) fun _ => rfl

/-- A transfer that is over stays over. -/
theorem status_apply (hfinal : t.status.isFinal = true) (op : TransferOp) :
    (t.apply op).status = t.status := by
  have hstatus : t.status = .completed ∨ t.status = .cancelled ∨ t.status = .failed := by
    revert hfinal
    cases t.status <;> simp [TransferStatus.isFinal]
  cases op with
  | begin logicalSize chunkSize =>
    rcases hstatus with h | h | h <;> simp [apply, begin, h]
  | acceptInit attachmentID uploadID chunkSize expiresAt =>
    rcases hstatus with h | h | h <;> simp [apply, acceptInit, h]
  | acceptResume receivedIndexes =>
    rcases hstatus with h | h | h <;> simp [apply, acceptResume, h]
  | registerChunkCommand commandID chunkIndex =>
    rcases hstatus with h | h | h <;> simp [apply, registerChunkCommand, h]
  | acceptChunk chunkIndex =>
    rcases hstatus with h | h | h <;> simp [apply, acceptChunk, h]
  | acceptChunkAck commandID chunkIndex =>
    simp only [apply, acceptChunkAck]
    split
    · rfl
    · rcases hstatus with h | h | h <;> split_ifs <;> simp [acceptChunk, h]
  | recordChunkFailure chunkIndex =>
    rcases hstatus with h | h | h <;> simp [apply, recordChunkFailure, h]
  | cancel => rcases hstatus with h | h | h <;> simp [apply, cancel, h]
  | fail => rcases hstatus with h | h | h <;> simp [apply, fail, h]

/-- After a successful `begin` and whatever comes then: the received chunks are chunks of the file,
the transfer is completed exactly when all of them are received, a transfer that is over stays so,
`missingIndexes` are the others in ascending order, and no chunk of a transfer that goes on has
failed too often. -/
theorem transfer_state_invariant {t₀ t₁ : AttachmentTransferState} {logicalSize chunkSize : ℤ}
    (hbegin : t₀.begin logicalSize chunkSize = some t₁) (ops : List TransferOp) :
    let n := (logicalSize + chunkSize - 1) / chunkSize
    let t := run apply t₁ ops
    (∀ i ∈ t.received, 0 ≤ i ∧ i < n) ∧
      (t.status = .completed ↔ ∀ i, 0 ≤ i → i < n → i ∈ t.received) ∧
      (t.status.isFinal = true → ∀ more, (run apply t more).status = t.status) ∧
      t.missingIndexes.Pairwise (· < ·) ∧
      (∀ i, i ∈ t.missingIndexes ↔ (0 ≤ i ∧ i < n) ∧ i ∉ t.received) ∧
      (t.status = .uploading → ∀ i, t.failedAttempts i ≤ maxChunkRetries) := by
  intro n t
  obtain ⟨hstart, hpos⟩ := tracked_begin hbegin
  have ht : Tracked n t := run_invariant apply (fun _ op h => h.apply op) hstart ops
  refine ⟨ht.bounds, ?_, fun hfinal more => ?_, sorted_missingIndexes t, fun i => ?_, fun h => ?_⟩
  · rw [ht.completed]
    exact card_eq_iff hpos.le ht.bounds
  · exact run_invariant apply (I := fun s => s.status = t.status)
      (fun s op h => (status_apply (h ▸ hfinal) op).trans h) rfl more
  · rw [mem_missingIndexes, ht.count]
  · exact ht.retries (by simp [h])

/-- Two chunks of three have been acknowledged. -/
theorem transfer_state_invariant_two :
    let t := run apply { status := .initializing, logicalSize := 5, chunkSize := 2 }
      [.acceptInit "attachment" "upload" 2 "later", .acceptChunk 2, .acceptChunk 0]
    (∀ i, i ∈ t.missingIndexes ↔ (0 ≤ i ∧ i < 3) ∧ i ∉ t.received) ∧ t.missingIndexes = [1] := by
  have hbegin : ({} : AttachmentTransferState).begin 5 2 =
      some { status := .initializing, logicalSize := 5, chunkSize := 2 } := rfl
  exact ⟨(transfer_state_invariant hbegin _).2.2.2.2.1, rfl⟩

end AttachmentTransferState

end LanChat.Gui.Attachments
