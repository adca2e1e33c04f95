import LanChat.Gui.AttachmentFile
import LanChat.Gui.TransferState
import LanChat.Message
import Mathlib.Data.Finset.Card
import Mathlib.Data.Finset.Dedup
import Mathlib.Data.Finset.Image

/-!
# The window of an upload (`gui_connection_worker.cpp`)

The worker keeps up to eight chunks of an upload on the wire and sends the commit when a counter of
the chunks in flight is back at zero after the last one.

* `UploadWorker`: the maps of the worker that an upload uses, with one upload in them, and what has
  happened on the connection;
* `processAttachmentMessage`: a message of the server;
* `Proper`: the frames of an upload are its chunks in order, at most eight without an acknowledgement,
  and one commit at most, after all acknowledgements;
* `JobInv`: what the counter stands for;
* `upload_window`: chunks in order, eight at most without an acknowledgement, and one commit at most,
  after all acknowledgements.
-/

namespace LanChat.Gui.Attachments

open GoStrings EventMachine
open Client (maxLogicalBytes plaintextChunkBytes)

/-! ### The worker -/

/-- `PendingAttachmentFile`. -/
structure PendingAttachmentFile where
  room : String
  groupID : String
  key : Key
  logicalSize : ℤ

/-- `AttachmentUploadJob`; its room and file name are for the manifest only. -/
structure AttachmentUploadJob where
  baseCommand : String
  key : Key
  context : ChunkContext
  input : Device
  lastChunkSent : Bool := false
  inFlightChunks : ℤ := 0

/-- `AttachmentUploadJob::WindowSize`. -/
def windowSize : ℤ := 8

/-- An entry of `pendingAttachmentChunks_`. -/
structure PendingChunk where
  commandID : String
  uploadID : String
  chunkIndex : ℤ
  deriving DecidableEq, Repr

/-- What happens on the connection: a frame is handed to it, or a reply acknowledges a chunk that
waits for it. -/
inductive UploadEntry
  | frame (message : Message)
  | acknowledged (chunkIndex : ℤ)
  deriving DecidableEq, Repr

/-- The maps of the worker that an upload uses.  There is one upload, so that each map but
`pendingAttachmentChunks_` has one entry at most.  `trace` is no part of the worker; it records what
happens on the connection, oldest first. -/
structure UploadWorker where
  pendingInit : Option (String × AttachmentTransferState) := none
  pendingFile : Option (String × PendingAttachmentFile) := none
  transfer : Option (String × AttachmentTransferState) := none
  job : Option (String × AttachmentUploadJob) := none
  pendingChunks : List PendingChunk := []
  trace : List UploadEntry := []

/-- What the worker does not decide: whether the connection is ready for each chunk and for the
commit, which chunks cannot be sent, and the file when it is opened. -/
structure UploadDraw where
  ready : ℤ → Bool := fun _ => true
  commitReady : Bool := true
  sends : ℤ → Bool := fun _ => true
  input : Option Device := none

/-- `baseCommand + "-chunk-%1"`. -/
def chunkCommand (baseCommand : String) (chunkIndex : ℤ) : String :=
  baseCommand ++ "-chunk-" ++ toString chunkIndex

namespace UploadWorker

def record (w : UploadWorker) (entry : UploadEntry) : UploadWorker :=
  { w with trace := w.trace ++ [entry] }

/-- `find` in `attachmentTransfers_`. -/
def findTransfer (w : UploadWorker) (uploadID : String) : Option AttachmentTransferState :=
  match w.transfer with
  | some (key, t) => if key = uploadID then some t else none
  | none => none

/-- `find` in `attachmentUploadJobs_`. -/
def findJob (w : UploadWorker) (uploadID : String) : Option AttachmentUploadJob :=
  match w.job with
  | some (key, job) => if key = uploadID then some job else none
  | none => none

/-- The transfer is marked as failed, if it is there. -/
def failTransfer (w : UploadWorker) (uploadID : String) : UploadWorker :=
  match w.findTransfer uploadID with
  | some t => { w with transfer := some (uploadID, t.fail) }
  | none => w

/-- The frame of `sendAttachmentChunk`. -/
def chunkMessage (uploadID : String) (chunk : TransferChunk) (commandID : String) : Message :=
  { type := .attachmentChunk, uploadID, chunkIndex := chunk.index, commandID
    ciphertext := base64Encode chunk.ciphertext
    cipherSHA256 := asciiLower chunk.cipherSha256 }

/-- `sendAttachmentChunk`. -/
def sendAttachmentChunk (w : UploadWorker) (d : UploadDraw) (uploadID : String)
    (chunk : TransferChunk) (commandID : String) : UploadWorker :=
  if !d.ready chunk.index ∨ trimSpace uploadID = "" ∨ chunk.index < 0 ∨ chunk.ciphertext = [] ∨
      chunk.cipherSha256.utf8ByteSize ≠ 64 ∨ trimSpace commandID = "" then w
  else match w.findTransfer (trimSpace uploadID) with
    | none => w
    | some t =>
      match t.registerChunkCommand (trimSpace commandID) chunk.index with
      | none => w
      | some t =>
        let waiting := w.pendingChunks.filter (·.commandID ≠ trimSpace commandID)
        let w := { w with
          transfer := some (trimSpace uploadID, t)
          pendingChunks := waiting ++
            [(⟨trimSpace commandID, trimSpace uploadID, chunk.index⟩ : PendingChunk)] }
        let w := w.record (.frame (chunkMessage (trimSpace uploadID) chunk (trimSpace commandID)))
        if d.sends chunk.index then w
        else { w with
          pendingChunks := waiting
          transfer := some (trimSpace uploadID, t.fail) }

/-- The job of an upload ends, and its transfer fails. -/
def abandon (w : UploadWorker) (uploadID : String) : UploadWorker :=
  { w.failTransfer (trimSpace uploadID) with job := none }

/-- The loop of `sendNextAttachmentChunk`; `fuel` is the room that is left in the window. -/
def sendChunks (crypto : Crypto) (d : UploadDraw) (uploadID : String) :
    ℕ → UploadWorker → UploadWorker
  | 0, w => w
  | fuel + 1, w =>
    match w.findJob (trimSpace uploadID) with
    | none => w
    | some job =>
      if job.lastChunkSent ∨ windowSize ≤ job.inFlightChunks then w
      else match encryptNextChunk crypto job.input job.key job.context with
        | .error _ => w.abandon uploadID
        | .ok (chunk, endOfFile, input) =>
          if endOfFile ∧ chunk.ciphertext = [] then w.abandon uploadID
          else
            let job := { job with
              input
              lastChunkSent := endOfFile
              context := { job.context with chunkIndex := job.context.chunkIndex + 1 }
              inFlightChunks := job.inFlightChunks + 1 }
            let w := { w with job := some (trimSpace uploadID, job) }
            let w := w.sendAttachmentChunk d uploadID chunk (chunkCommand job.baseCommand chunk.index)
            match w.findTransfer (trimSpace uploadID) with
            | none => w
            | some t => if t.status = .failed then w else sendChunks crypto d uploadID fuel w

/-- `sendNextAttachmentChunk`: until the window is full. -/
def sendNextAttachmentChunk (crypto : Crypto) (w : UploadWorker) (d : UploadDraw)
    (uploadID : String) : UploadWorker :=
  match w.findJob (trimSpace uploadID) with
  | none => w
  | some job => sendChunks crypto d uploadID (windowSize - job.inFlightChunks).toNat w

/-- The frame of `sendAttachmentCommit`. -/
def commitMessage (uploadID commandID : String) : Message :=
  { type := .attachmentCommit, uploadID, commandID }

/-- `sendAttachmentCommit`. -/
def sendAttachmentCommit (w : UploadWorker) (d : UploadDraw) (uploadID commandID : String) :
    UploadWorker :=
  if !d.commitReady ∨ trimSpace uploadID = "" ∨ trimSpace commandID = "" then w
  else w.record (.frame (commitMessage (trimSpace uploadID) (trimSpace commandID)))

/-- The chunk that a reply acknowledges: the one of its command, or else the one of its index. -/
def acknowledgedChunk (w : UploadWorker) (m : Message) : Option PendingChunk :=
  match w.pendingChunks.find? (·.commandID = m.commandID) with
  | some pending => some pending
  | none => w.pendingChunks.find? fun p => p.uploadID = m.uploadID ∧ p.chunkIndex = m.chunkIndex

/-- `processAttachmentMessage` for an error: the upload of the chunk ends. -/
def receiveError (w : UploadWorker) (commandID : String) : UploadWorker :=
  let w := { w with
    pendingInit := w.pendingInit.filter (·.1 ≠ commandID)
    pendingFile := w.pendingFile.filter (·.1 ≠ commandID) }
  match w.pendingChunks.find? (·.commandID = commandID) with
  | none => w
  | some pending =>
    let w := w.failTransfer pending.uploadID
    { w with
      job := w.job.filter (·.1 ≠ pending.uploadID)
      pendingChunks := w.pendingChunks.filter (·.uploadID ≠ pending.uploadID) }

/-- `processAttachmentMessage` for the reply to an initialization. -/
def receiveInit (crypto : Crypto) (w : UploadWorker) (d : UploadDraw) (m : Message) : UploadWorker :=
  match w.pendingInit with
  | none => w
  | some (command, t) =>
    if command ≠ m.commandID then w
    else
      let w := { w with pendingInit := none }
      match t.acceptInit m.attachmentID m.uploadID m.chunkSize m.expiresAt with
      | none => w
      | some t =>
        let w := { w with transfer := some (m.uploadID, t) }
        match w.pendingFile with
        | none => w
        | some (fileCommand, file) =>
          if fileCommand ≠ m.commandID then w
          else
            let w := { w with pendingFile := none }
            match d.input with
            | none => w
            | some input =>
              let job : AttachmentUploadJob :=
                { baseCommand := m.commandID, key := file.key, input
                  context := ⟨m.attachmentID, file.room, file.groupID, file.logicalSize,
                    m.chunkSize, 0⟩ }
              sendNextAttachmentChunk crypto { w with job := some (m.uploadID, job) } d m.uploadID

/-- `processAttachmentMessage` for a reply to a resumption. -/
def receiveResume (w : UploadWorker) (m : Message) : UploadWorker :=
  match w.findTransfer m.uploadID with
  | none => w
  | some t => { w with transfer := some (m.uploadID, t.acceptResume m.receivedIndexes) }

/-- An accepted acknowledgement: the commit, or the next chunks. -/
def advanceJob (crypto : Crypto) (w : UploadWorker) (d : UploadDraw) (uploadID : String) :
    UploadWorker :=
  match w.findJob uploadID with
  | none => w
  | some job =>
    let job := { job with inFlightChunks := job.inFlightChunks - 1 }
    if job.lastChunkSent ∧ job.inFlightChunks = 0 then
      { w.sendAttachmentCommit d uploadID (job.baseCommand ++ "-commit") with job := none }
    else sendNextAttachmentChunk crypto { w with job := some (uploadID, job) } d uploadID

/-- `processAttachmentMessage` for an acknowledgement. -/
def receiveChunkAck (crypto : Crypto) (w : UploadWorker) (d : UploadDraw) (m : Message) :
    UploadWorker :=
  match w.acknowledgedChunk m with
  | none => w
  | some pending =>
    let w := { w with pendingChunks := w.pendingChunks.filter (·.commandID ≠ pending.commandID) }
    let w := w.record (.acknowledged pending.chunkIndex)
    match w.findTransfer pending.uploadID with
    | none => w
    | some t =>
      let (accepted, t) := t.acceptChunkAck pending.commandID pending.chunkIndex
      let w := { w with transfer := some (pending.uploadID, t) }
      if accepted then w.advanceJob crypto d pending.uploadID else w

/-- `processAttachmentMessage`; the reply to the commit leads to the manifest, which is left out. -/
def processAttachmentMessage (crypto : Crypto) (w : UploadWorker) (x : Message × UploadDraw) :
    UploadWorker :=
  match x.1.type with
  | .error => w.receiveError x.1.commandID
  | .attachmentInit => w.receiveInit crypto x.2 x.1
  | .attachmentResume => w.receiveResume x.1
  | .attachmentChunk => w.receiveChunkAck crypto x.2 x.1
  | _ => w

theorem pendingChunks_failTransfer (w : UploadWorker) (u : String) :
    (w.failTransfer u).pendingChunks = w.pendingChunks := by
  unfold failTransfer
  split <;> rfl

theorem findTransfer_eq_some {w : UploadWorker} {u : String} {t : AttachmentTransferState} :
    w.findTransfer u = some t ↔ w.transfer = some (u, t) := by
  unfold findTransfer
  cases w.transfer with
  | none => simp
  | some x =>
    obtain ⟨key, t'⟩ := x
    by_cases hkey : key = u
    · simp [hkey]
    · simp [hkey]

theorem findJob_eq_some {w : UploadWorker} {u : String} {job : AttachmentUploadJob} :
    w.findJob u = some job ↔ w.job = some (u, job) := by
  unfold findJob
  cases w.job with
  | none => simp
  | some x =>
    obtain ⟨key, job'⟩ := x
    by_cases hkey : key = u
    · simp [hkey]
    · simp [hkey]

/-- A worker that starts one upload: `startNextAttachmentMlsSetup` after the last target and
`sendAttachmentInit`, where `sent` says that the connection is ready and takes the frame. -/
def start (file : PendingAttachmentFile) (commandID : String) (sent : Bool) : UploadWorker where
  pendingFile := some (trimSpace commandID, file)
  pendingInit :=
    if maxLogicalBytes < file.logicalSize ∨ trimSpace file.room = "" ∨ file.logicalSize ≤ 0 ∨
        trimSpace commandID = "" ∨ !sent then none
    else (({} : AttachmentTransferState).begin file.logicalSize plaintextChunkBytes).map fun t =>
      (trimSpace commandID, t)

end UploadWorker

/-! ### What happens on the connection -/

/-- The chunks that have been sent. -/
def sentIndexes (trace : List UploadEntry) : List ℤ :=
  trace.filterMap fun
    | .frame m => if m.type = .attachmentChunk then some m.chunkIndex else none
    | .acknowledged _ => none

/-- The chunks that have been sent and not yet acknowledged. -/
def unacknowledged (trace : List UploadEntry) : List ℤ :=
  (sentIndexes trace).filter fun i => .acknowledged i ∉ trace

/-- The entry is a commit. -/
def UploadEntry.isCommit : UploadEntry → Bool
  | .frame m => m.type == .attachmentCommit
  | .acknowledged _ => false

/-- The entries of an upload of `n` chunks, oldest first: each chunk follows the ones before it and
leaves eight without an acknowledgement at most, and a commit is the first one and follows the
acknowledgements of all chunks. -/
inductive Proper (n : ℤ) : List UploadEntry → Prop
  | nil : Proper n []
  | chunk {trace : List UploadEntry} {m : Message} (hproper : Proper n trace)
      (htype : m.type = .attachmentChunk) (hpos : 0 ≤ m.chunkIndex) (hlt : m.chunkIndex < n)
      (hnext : ∀ i ∈ sentIndexes trace, i < m.chunkIndex)
      (hwindow : (unacknowledged (trace ++ [.frame m])).length ≤ 8) :
      Proper n (trace ++ [.frame m])
  | acknowledged {trace : List UploadEntry} (i : ℤ) (hproper : Proper n trace) :
      Proper n (trace ++ [.acknowledged i])
  | commit {trace : List UploadEntry} {m : Message} (hproper : Proper n trace)
      (htype : m.type = .attachmentCommit) (hfirst : ∀ e ∈ trace, e.isCommit = false)
      (hall : ∀ i, 0 ≤ i → i < n → .acknowledged i ∈ trace) : Proper n (trace ++ [.frame m])

theorem sentIndexes_append (trace trace' : List UploadEntry) :
    sentIndexes (trace ++ trace') = sentIndexes trace ++ sentIndexes trace' :=
  List.filterMap_append

theorem sentIndexes_chunk {m : Message} (htype : m.type = .attachmentChunk) :
    sentIndexes [.frame m] = [m.chunkIndex] := by
  simp [sentIndexes, htype]

theorem sentIndexes_commit {m : Message} (htype : m.type = .attachmentCommit) :
    sentIndexes [.frame m] = [] := by
  simp [sentIndexes, htype]

/-- An acknowledgement leaves no more chunks without one. -/
theorem length_unacknowledged_acknowledged (trace : List UploadEntry) (i : ℤ) :
    (unacknowledged (trace ++ [.acknowledged i])).length ≤ (unacknowledged trace).length := by
  unfold unacknowledged
  rw [sentIndexes_append, show sentIndexes [.acknowledged i] = [] from rfl, List.append_nil]
  refine (List.monotone_filter_right _ fun j hj => ?_).length_le
  rw [decide_eq_true_eq] at hj ⊢
  exact fun hmem => hj (List.mem_append_left _ hmem)

namespace Proper

variable {n : ℤ} {trace : List UploadEntry}

/-- The chunks are sent in order. -/
theorem sorted (hproper : Proper n trace) : (sentIndexes trace).Pairwise (· < ·) := by
  induction hproper with
  | nil => exact List.Pairwise.nil
  | chunk _ htype _ _ hnext _ ih =>
    rw [sentIndexes_append, sentIndexes_chunk htype, List.pairwise_append]
    refine ⟨ih, List.pairwise_singleton _ _, fun i hi j hj => ?_⟩
    rw [List.mem_singleton.1 hj]
    exact hnext i hi
  | acknowledged i _ ih =>
    rw [sentIndexes_append]
    simpa [sentIndexes] using ih
  | commit _ htype _ _ ih =>
    rw [sentIndexes_append, sentIndexes_commit htype, List.append_nil]
    exact ih

/-- The chunks are those of the upload. -/
theorem bounds (hproper : Proper n trace) : ∀ i ∈ sentIndexes trace, 0 ≤ i ∧ i < n := by
  induction hproper with
  | nil => exact fun i hi => absurd hi List.not_mem_nil
  | chunk _ htype hpos hlt _ _ ih =>
    intro i hi
    rw [sentIndexes_append, sentIndexes_chunk htype] at hi
    rcases List.mem_append.1 hi with hi | hi
    · exact ih i hi
    · rw [List.mem_singleton.1 hi]
      exact ⟨hpos, hlt⟩
  | acknowledged i _ ih =>
    intro j hj
    rw [sentIndexes_append] at hj
    exact ih j (by simpa [sentIndexes] using hj)
  | commit _ htype _ _ ih =>
    intro i hi
    rw [sentIndexes_append, sentIndexes_commit htype, List.append_nil] at hi
    exact ih i hi

/-- Eight chunks at most are without an acknowledgement, at every moment. -/
theorem window (hproper : Proper n trace) {earlier : List UploadEntry} (hle : earlier <+: trace) :
    (unacknowledged earlier).length ≤ 8 := by
  induction hproper generalizing earlier with
  | nil =>
    obtain rfl := List.prefix_nil.1 hle
    exact Nat.zero_le 8
  | chunk _ _ _ _ _ hwindow ih =>
    rcases List.prefix_concat_iff.1 hle with rfl | hle
    · exact hwindow
    · exact ih hle
  | acknowledged i _ ih =>
    rcases List.prefix_concat_iff.1 hle with rfl | hle
    · exact (length_unacknowledged_acknowledged _ i).trans (ih List.prefix_rfl)
    · exact ih hle
  | commit _ htype _ _ ih =>
    rcases List.prefix_concat_iff.1 hle with rfl | hle
    · refine le_trans (le_of_eq ?_) (ih List.prefix_rfl)
      unfold unacknowledged
      rw [sentIndexes_append, sentIndexes_commit htype, List.append_nil]
      simp
    · exact ih hle

/-- There is one commit at most. -/
theorem commits (hproper : Proper n trace) : (trace.filter UploadEntry.isCommit).length ≤ 1 := by
  induction hproper with
  | nil => exact Nat.zero_le 1
  | chunk _ htype _ _ _ _ ih =>
    rw [List.filter_append]
    simpa [UploadEntry.isCommit, htype] using ih
  | acknowledged i _ ih =>
    rw [List.filter_append]
    simpa [UploadEntry.isCommit] using ih
  | commit _ htype hfirst _ _ =>
    rw [List.filter_append, List.filter_eq_nil_iff.2 fun e he => by simp [hfirst e he]]
    simp [UploadEntry.isCommit, htype]

/-- A commit follows the acknowledgements of all chunks. -/
theorem acknowledged_before_commit (hproper : Proper n trace) {before after : List UploadEntry}
    {e : UploadEntry} (htrace : trace = before ++ e :: after) (he : e.isCommit = true) :
    ∀ i, 0 ≤ i → i < n → .acknowledged i ∈ before := by
  induction hproper generalizing after with
  | nil => simp at htrace
  | @chunk trace m _ htype _ _ _ _ ih =>
    rcases List.eq_nil_or_concat after with rfl | ⟨after, last, rfl⟩
    · obtain ⟨-, hlast⟩ := List.append_inj' htrace rfl
      cases hlast
      simp [UploadEntry.isCommit, htype] at he
    · rw [List.concat_eq_append, ← List.cons_append, ← List.append_assoc] at htrace
      exact ih (List.append_inj' htrace rfl).1
  | @acknowledged trace i _ ih =>
    rcases List.eq_nil_or_concat after with rfl | ⟨after, last, rfl⟩
    · obtain ⟨-, hlast⟩ := List.append_inj' htrace rfl
      cases hlast
      cases he
    · rw [List.concat_eq_append, ← List.cons_append, ← List.append_assoc] at htrace
      exact ih (List.append_inj' htrace rfl).1
  | @commit trace m _ htype _ hall ih =>
    rcases List.eq_nil_or_concat after with rfl | ⟨after, last, rfl⟩
    · obtain ⟨hbefore, -⟩ := List.append_inj' htrace rfl
      rw [← hbefore]
      exact hall
    · rw [List.concat_eq_append, ← List.cons_append, ← List.append_assoc] at htrace
      exact ih (List.append_inj' htrace rfl).1

end Proper

/-! ### The counter of the window -/

/-- The chunks below `bound` that have not been acknowledged. -/
def outstanding (trace : List UploadEntry) (bound : ℤ) : Finset ℤ :=
  ((Finset.range bound.toNat).image fun n : ℕ => (n : ℤ)).filter fun i => .acknowledged i ∉ trace

theorem mem_outstanding {trace : List UploadEntry} {bound i : ℤ} :
    i ∈ outstanding trace bound ↔ 0 ≤ i ∧ i < bound ∧ .acknowledged i ∉ trace := by
  unfold outstanding
  rw [Finset.mem_filter, Finset.mem_image, ← and_assoc]
  refine and_congr_left fun _ => ⟨?_, fun hi => ?_⟩
  · rintro ⟨n, hn, rfl⟩
    rw [Finset.mem_range] at hn
    omega
  · exact ⟨i.toNat, Finset.mem_range.2 (by omega), by omega⟩

theorem card_outstanding_succ (trace : List UploadEntry) (bound : ℤ) :
    (outstanding trace (bound + 1)).card ≤ (outstanding trace bound).card + 1 := by
  refine le_trans (Finset.card_le_card ?_) (Finset.card_insert_le bound _)
  intro i hi
  obtain ⟨hi₀, hlt, hnot⟩ := mem_outstanding.1 hi
  rw [Finset.mem_insert, mem_outstanding]
  by_cases hsame : i = bound
  · exact .inl hsame
  · exact .inr ⟨hi₀, by omega, hnot⟩

/-- An acknowledgement of an outstanding chunk makes one less. -/
theorem card_outstanding_acknowledged {trace : List UploadEntry} {bound i : ℤ}
    (hi : i ∈ outstanding trace bound) :
    (outstanding (trace ++ [.acknowledged i]) bound).card + 1 = (outstanding trace bound).card := by
  have herase : outstanding (trace ++ [.acknowledged i]) bound = (outstanding trace bound).erase i := by
    ext j
    rw [Finset.mem_erase, mem_outstanding, mem_outstanding]
    simp only [List.mem_append, List.mem_singleton, UploadEntry.acknowledged.injEq, not_or]
    constructor
    · rintro ⟨hj₀, hlt, hnot, hne⟩
      exact ⟨hne, hj₀, hlt, hnot⟩
    · rintro ⟨hne, hj₀, hlt, hnot⟩
      exact ⟨hj₀, hlt, hnot, hne⟩
  rw [herase]
  exact Finset.card_erase_add_one hi

/-- Frames do not change what is outstanding. -/
theorem outstanding_frame (trace : List UploadEntry) (m : Message) (bound : ℤ) :
    outstanding (trace ++ [.frame m]) bound = outstanding trace bound := by
  ext i
  simp [mem_outstanding]

/-- What is sent below `bound` and not acknowledged is outstanding. -/
theorem length_unacknowledged_le {bound : ℤ} {trace : List UploadEntry}
    (hsorted : (sentIndexes trace).Pairwise (· < ·)) (hpos : ∀ i ∈ sentIndexes trace, 0 ≤ i)
    (hlt : ∀ i ∈ sentIndexes trace, i < bound) :
    (unacknowledged trace).length ≤ (outstanding trace bound).card := by
  have hnodup : (unacknowledged trace).Nodup := (hsorted.imp fun h => h.ne).filter _
  rw [← List.toFinset_card_of_nodup hnodup]
  refine Finset.card_le_card fun i hi => ?_
  obtain ⟨hsent, hnot⟩ := List.mem_filter.1 (List.mem_toFinset.1 hi)
  exact mem_outstanding.2 ⟨hpos i hsent, hlt i hsent, by simpa using hnot⟩

/-- What the fields of a job stand for: the chunks below the next one have been tried, `inFlightChunks`
of them at least are outstanding at most, and those that wait for a reply are among them. -/
structure JobInv (n : ℤ) (command : String) (job : AttachmentUploadJob) (waiting : List PendingChunk)
    (trace : List UploadEntry) : Prop where
  base : job.baseCommand = command
  size : chunkCount job.context = n
  pos : 0 ≤ job.context.chunkIndex
  last : if job.lastChunkSent then job.context.chunkIndex = n else job.context.chunkIndex < n
  sent : ∀ i ∈ sentIndexes trace, i < job.context.chunkIndex
  acknowledged : ∀ i, .acknowledged i ∈ trace → i < job.context.chunkIndex
  waits : ∀ p ∈ waiting, p.chunkIndex ∈ outstanding trace job.context.chunkIndex
  count : ((outstanding trace job.context.chunkIndex).card : ℤ) ≤ job.inFlightChunks
  window : job.inFlightChunks ≤ windowSize
  uncommitted : ∀ e ∈ trace, e.isCommit = false

/-- What holds of the worker: the entries are proper, the chunks that wait have their commands, and
nothing has happened before the reply to the initialization. -/
structure WorkerInv (n logicalSize : ℤ) (command : String) (w : UploadWorker) : Prop where
  proper : Proper n w.trace
  named : ∀ p ∈ w.pendingChunks, p.commandID = trimSpace (chunkCommand command p.chunkIndex)
  init : ∀ c t, w.pendingInit = some (c, t) → c = command ∧ t.chunkSize = plaintextChunkBytes ∧
    0 < logicalSize ∧ w.trace = [] ∧ w.pendingChunks = [] ∧ w.job = none
  file : ∀ c f, w.pendingFile = some (c, f) → f.logicalSize = logicalSize
  job : ∀ key job, w.job = some (key, job) → JobInv n command job w.pendingChunks w.trace ∧
    w.pendingInit = none

/-- A job whose counter is one less than it is. -/
theorem JobInv.of_decreased {n : ℤ} {command : String} {job : AttachmentUploadJob}
    {waiting : List PendingChunk} {trace : List UploadEntry}
    (hjob : JobInv n command { job with inFlightChunks := job.inFlightChunks - 1 } waiting trace)
    (hwindow : job.inFlightChunks ≤ windowSize) : JobInv n command job waiting trace where
  base := hjob.base
  size := hjob.size
  pos := hjob.pos
  last := hjob.last
  sent := hjob.sent
  acknowledged := hjob.acknowledged
  waits := hjob.waits
  count := hjob.count.trans (by dsimp only; omega)
  window := hwindow
  uncommitted := hjob.uncommitted

/-- The reply for a chunk that waits. -/
theorem JobInv.acknowledge {n : ℤ} {command : String} {job : AttachmentUploadJob}
    {waiting : List PendingChunk} {trace : List UploadEntry} (hjob : JobInv n command job waiting trace)
    (hnamed : ∀ p ∈ waiting, p.commandID = trimSpace (chunkCommand command p.chunkIndex))
    {p : PendingChunk} (hp : p ∈ waiting) :
    JobInv n command { job with inFlightChunks := job.inFlightChunks - 1 }
      (waiting.filter (·.commandID ≠ p.commandID)) (trace ++ [.acknowledged p.chunkIndex]) where
  base := hjob.base
  size := hjob.size
  pos := hjob.pos
  last := hjob.last
  sent := by
    rw [sentIndexes_append]
    simpa [sentIndexes] using hjob.sent
  acknowledged := by
    intro i hi
    rcases List.mem_append.1 hi with hi | hi
    · exact hjob.acknowledged i hi
    · cases List.mem_singleton.1 hi
      exact (mem_outstanding.1 (hjob.waits p hp)).2.1
  waits := by
    intro q hq
    obtain ⟨hq, hne⟩ := List.mem_filter.1 hq
    obtain ⟨hpos, hlt, hnot⟩ := mem_outstanding.1 (hjob.waits q hq)
    refine mem_outstanding.2 ⟨hpos, hlt, fun hmem => ?_⟩
    rcases List.mem_append.1 hmem with hmem | hmem
    · exact hnot hmem
    · have hindex : q.chunkIndex = p.chunkIndex := by simpa using hmem
      rw [decide_eq_true_eq] at hne
      exact hne (by rw [hnamed q hq, hnamed p hp, hindex])
  count := by
    have hcard := card_outstanding_acknowledged (hjob.waits p hp)
    have hcount := hjob.count
    dsimp only
    omega
  window := by
    have hwindow := hjob.window
    dsimp only
    omega
  uncommitted := by
    intro e he
    rcases List.mem_append.1 he with he | he
    · exact hjob.uncommitted e he
    · rw [List.mem_singleton.1 he]
      rfl

/-- A chunk that can be encrypted is the next one, it is not empty and comes with its digest, and the
file ends with the last one. -/
theorem encryptNextChunk_spec {crypto : Crypto} {input input' : Device} {key : Key}
    {context : ChunkContext} {chunk : TransferChunk} {endOfFile : Bool}
    (h : encryptNextChunk crypto input key context = .ok (chunk, endOfFile, input'))
    (hmore : ¬ (endOfFile = true ∧ chunk.ciphertext = [])) :
    chunk.index = context.chunkIndex ∧
      endOfFile = decide (chunkCount context ≤ context.chunkIndex + 1) ∧
      chunk.ciphertext ≠ [] ∧ chunk.cipherSha256 = crypto.sha256Hex chunk.ciphertext := by
  unfold encryptNextChunk at h
  split_ifs at h
  dsimp only at h
  split_ifs at h
  · cases h
    exact absurd ⟨rfl, rfl⟩ hmore
  · split at h
    · cases h
    · rename_i ciphertext hencrypt
      cases h
      refine ⟨rfl, rfl, fun hnil => ?_, rfl⟩
      have hlength := length_encrypt hencrypt
      rw [show ciphertext = [] from hnil] at hlength
      unfold tagSize at hlength
      simp at hlength

namespace WorkerInv

variable {n logicalSize : ℤ} {command : String} {w : UploadWorker}

theorem setTransfer (hw : WorkerInv n logicalSize command w)
    (transfer : Option (String × AttachmentTransferState)) :
    WorkerInv n logicalSize command { w with transfer } :=
  ⟨hw.proper, hw.named, hw.init, hw.file, hw.job⟩

theorem failTransfer (hw : WorkerInv n logicalSize command w) (uploadID : String) :
    WorkerInv n logicalSize command (w.failTransfer uploadID) := by
  unfold UploadWorker.failTransfer
  split
  · exact hw.setTransfer _
  · exact hw

/-- Without its job the worker sends nothing more. -/
theorem dropJob (hw : WorkerInv n logicalSize command w) :
    WorkerInv n logicalSize command { w with job := none } := by
  refine ⟨hw.proper, hw.named, fun c t hinit => ?_, hw.file, fun key job hjob => by cases hjob⟩
  obtain ⟨hc, hsize, hpos, htrace, hchunks, -⟩ := hw.init c t hinit
  exact ⟨hc, hsize, hpos, htrace, hchunks, rfl⟩

theorem abandon (hw : WorkerInv n logicalSize command w) (uploadID : String) :
    WorkerInv n logicalSize command (w.abandon uploadID) :=
  (hw.failTransfer _).dropJob

/-- A frame with the chunk before the next one of the job. -/
theorem recordChunk (hw : WorkerInv n logicalSize command w) {key : String}
    {job : AttachmentUploadJob} (hjob : w.job = some (key, job)) {m : Message}
    (htype : m.type = .attachmentChunk) (hindex : job.context.chunkIndex = m.chunkIndex + 1)
    (hpos : 0 ≤ m.chunkIndex) (hsent : ∀ i ∈ sentIndexes w.trace, i < m.chunkIndex)
    (hacknowledged : ∀ i, .acknowledged i ∈ w.trace → i < m.chunkIndex)
    {waiting : List PendingChunk} (hwaiting : ∀ p ∈ waiting, p ∈ w.pendingChunks ∨
      p.chunkIndex = m.chunkIndex ∧ p.commandID = trimSpace (chunkCommand command m.chunkIndex))
    (transfer : Option (String × AttachmentTransferState)) :
    WorkerInv n logicalSize command
      { w with transfer, pendingChunks := waiting, trace := w.trace ++ [.frame m] } := by
  obtain ⟨hinv, hinit⟩ := hw.job key job hjob
  have hlast := hinv.last
  have hsent' : ∀ i ∈ sentIndexes (w.trace ++ [UploadEntry.frame m]),
      i < job.context.chunkIndex := by
    intro i hi
    rw [sentIndexes_append, sentIndexes_chunk htype] at hi
    rcases List.mem_append.1 hi with hi | hi
    · have hlt := hsent i hi
      omega
    · rw [List.mem_singleton.1 hi]
      omega
  have hlt : m.chunkIndex < n := by
    split_ifs at hlast
    · omega
    · omega
  have hfresh : m.chunkIndex ∈ outstanding w.trace job.context.chunkIndex :=
    mem_outstanding.2 ⟨hpos, by omega, fun hmem => lt_irrefl _ (hacknowledged _ hmem)⟩
  constructor
  case proper =>
    refine .chunk hw.proper htype hpos hlt hsent ?_
    have hsorted : (sentIndexes (w.trace ++ [UploadEntry.frame m])).Pairwise (· < ·) := by
      rw [sentIndexes_append, sentIndexes_chunk htype, List.pairwise_append]
      refine ⟨hw.proper.sorted, List.pairwise_singleton _ _, fun i hi j hj => ?_⟩
      rw [List.mem_singleton.1 hj]
      exact hsent i hi
    have hnonneg : ∀ i ∈ sentIndexes (w.trace ++ [UploadEntry.frame m]), 0 ≤ i := by
      intro i hi
      rw [sentIndexes_append, sentIndexes_chunk htype] at hi
      rcases List.mem_append.1 hi with hi | hi
      · exact (hw.proper.bounds i hi).1
      · rw [List.mem_singleton.1 hi]
        exact hpos
    have hle := length_unacknowledged_le hsorted hnonneg hsent'
    rw [outstanding_frame] at hle
    have hcount := hinv.count
    have hwindow := hinv.window
    unfold windowSize at hwindow
    omega
  case named =>
    intro p hp
    rcases hwaiting p hp with hp | ⟨hp, hcommand⟩
    · exact hw.named p hp
    · rw [hcommand, hp]
  case init =>
    intro c t hsome
    rw [hinit] at hsome
    cases hsome
  case file => exact hw.file
  case job =>
    intro key' job' hjob'
    obtain ⟨rfl, rfl⟩ : key = key' ∧ job = job' := by
      rw [hjob] at hjob'
      exact Prod.mk.injEq .. ▸ Option.some.inj hjob'
    refine ⟨⟨hinv.base, hinv.size, hinv.pos, hlast, hsent', ?_, ?_, ?_, hinv.window, ?_⟩, hinit⟩
    · intro i hi
      exact hinv.acknowledged i (by simpa using hi)
    · intro p hp
      rw [outstanding_frame]
      rcases hwaiting p hp with hp | ⟨hp, -⟩
      · exact hinv.waits p hp
      · rw [hp]
        exact hfresh
    · rw [outstanding_frame]
      exact hinv.count
    · intro e he
      rcases List.mem_append.1 he with he | he
      · exact hinv.uncommitted e he
      · rw [List.mem_singleton.1 he]
        simp [UploadEntry.isCommit, htype]

theorem sendAttachmentChunk (hw : WorkerInv n logicalSize command w) {key : String}
    {job : AttachmentUploadJob} (hjob : w.job = some (key, job)) {chunk : TransferChunk}
    (hindex : job.context.chunkIndex = chunk.index + 1)
    (hsent : ∀ i ∈ sentIndexes w.trace, i < chunk.index)
    (hacknowledged : ∀ i, .acknowledged i ∈ w.trace → i < chunk.index) (d : UploadDraw)
    (uploadID : String) :
    WorkerInv n logicalSize command
      (w.sendAttachmentChunk d uploadID chunk (chunkCommand command chunk.index)) := by
  unfold UploadWorker.sendAttachmentChunk
  split
  · exact hw
  · rename_i hrefused
    have hpos : 0 ≤ chunk.index := by
      by_contra hneg
      exact hrefused (.inr (.inr (.inl (by omega))))
    split
    · exact hw
    · split
      · exact hw
      · dsimp only [UploadWorker.record]
        split_ifs
        · refine hw.recordChunk hjob rfl hindex hpos hsent hacknowledged (fun p hp => ?_) _
          rcases List.mem_append.1 hp with hp | hp
          · exact .inl (List.mem_of_mem_filter hp)
          · rw [List.mem_singleton.1 hp]
            exact .inr ⟨rfl, rfl⟩
        · exact hw.recordChunk hjob rfl hindex hpos hsent hacknowledged
            (fun p hp => .inl (List.mem_of_mem_filter hp)) _

/-- The next chunk of a job, before it is sent. -/
theorem nextChunk (hw : WorkerInv n logicalSize command w) {key : String}
    {job : AttachmentUploadJob} (hjob : w.job = some (key, job)) {crypto : Crypto}
    {chunk : TransferChunk} {endOfFile : Bool} {input : Device}
    (hwindow : ¬ (job.lastChunkSent = true ∨ windowSize ≤ job.inFlightChunks))
    (hencrypt : encryptNextChunk crypto job.input job.key job.context = .ok (chunk, endOfFile, input))
    (hmore : ¬ (endOfFile = true ∧ chunk.ciphertext = [])) (key' : String) :
    WorkerInv n logicalSize command { w with
      job := some (key', { job with
        input
        lastChunkSent := endOfFile
        context := { job.context with chunkIndex := job.context.chunkIndex + 1 }
        inFlightChunks := job.inFlightChunks + 1 }) } := by
  obtain ⟨hinv, hinit⟩ := hw.job key job hjob
  obtain ⟨-, rfl, -⟩ := encryptNextChunk_spec hencrypt hmore
  rw [not_or, Bool.not_eq_true, not_le] at hwindow
  obtain ⟨hnot, hwindow⟩ := hwindow
  have hlast := hinv.last
  rw [hnot, if_neg (by decide)] at hlast
  refine ⟨hw.proper, hw.named, fun c t hsome => ?_, hw.file, fun key₁ job₁ hjob₁ => ?_⟩
  · rw [hinit] at hsome
    cases hsome
  · cases hjob₁
    refine ⟨⟨hinv.base, hinv.size, ?_, ?_, ?_, ?_, ?_, ?_, ?_, hinv.uncommitted⟩, hinit⟩
    · have hpos := hinv.pos
      dsimp only
      omega
    · rw [hinv.size]
      dsimp only
      split_ifs with hend
      · rw [decide_eq_true_eq] at hend
        omega
      · rw [decide_eq_true_eq] at hend
        omega
    · intro i hi
      have hlt := hinv.sent i hi
      dsimp only
      omega
    · intro i hi
      have hlt := hinv.acknowledged i hi
      dsimp only
      omega
    · intro p hp
      obtain ⟨hpos, hlt, hout⟩ := mem_outstanding.1 (hinv.waits p hp)
      refine mem_outstanding.2 ⟨hpos, ?_, hout⟩
      dsimp only
      omega
    · have hcard := card_outstanding_succ w.trace job.context.chunkIndex
      have hcount := hinv.count
      dsimp only
      omega
    · dsimp only
      omega

theorem sendChunks (crypto : Crypto) (d : UploadDraw) (uploadID : String) {fuel : ℕ}
    (hw : WorkerInv n logicalSize command w) :
    WorkerInv n logicalSize command (UploadWorker.sendChunks crypto d uploadID fuel w) := by
  induction fuel generalizing w with
  | zero => exact hw
  | succ fuel ih =>
    unfold UploadWorker.sendChunks
    split
    · exact hw
    · rename_i job hfind
      have hjob := UploadWorker.findJob_eq_some.1 hfind
      split
      · exact hw
      · rename_i hwindow
        split
        · exact hw.abandon uploadID
        · rename_i chunk endOfFile input hencrypt
          split
          · exact hw.abandon uploadID
          · rename_i hmore
            obtain ⟨hinv, -⟩ := hw.job _ job hjob
            obtain ⟨hindex, -⟩ := encryptNextChunk_spec hencrypt hmore
            have hnext := hw.nextChunk hjob hwindow hencrypt hmore (trimSpace uploadID)
            have hsent := hnext.sendAttachmentChunk rfl (show _ = chunk.index + 1 by rw [hindex])
              (fun i hi => hindex ▸ hinv.sent i hi) (fun i hi => hindex ▸ hinv.acknowledged i hi) d
              uploadID
            have hcommand : chunkCommand command chunk.index =
                chunkCommand job.baseCommand chunk.index := by
              rw [hinv.base]
            rw [hcommand] at hsent
            dsimp only
            split
            · exact hsent
            · split
              · exact hsent
              · exact ih hsent

theorem sendNextAttachmentChunk (crypto : Crypto) (d : UploadDraw) (uploadID : String)
    (hw : WorkerInv n logicalSize command w) :
    WorkerInv n logicalSize command (w.sendNextAttachmentChunk crypto d uploadID) := by
  unfold UploadWorker.sendNextAttachmentChunk
  split
  · exact hw
  · exact hw.sendChunks crypto d uploadID

/-- The commit of a job whose chunks have all been acknowledged. -/
theorem sendAttachmentCommit (hw : WorkerInv n logicalSize command w) {key : String}
    {job : AttachmentUploadJob} (hjob : w.job = some (key, job))
    (hall : ∀ i, 0 ≤ i → i < n → .acknowledged i ∈ w.trace) (d : UploadDraw)
    (uploadID commandID : String) :
    WorkerInv n logicalSize command
      { w.sendAttachmentCommit d uploadID commandID with job := none } := by
  obtain ⟨hinv, hinit⟩ := hw.job key job hjob
  unfold UploadWorker.sendAttachmentCommit
  split
  · exact hw.dropJob
  · refine ⟨.commit hw.proper rfl hinv.uncommitted hall, hw.named, fun c t hsome => ?_, hw.file,
      fun key job hjob => by cases hjob⟩
    have hsome : w.pendingInit = some (c, t) := hsome
    rw [hinit] at hsome
    cases hsome

theorem advanceJob (crypto : Crypto) (d : UploadDraw) {uploadID : String}
    (hw : WorkerInv n logicalSize command w)
    (hjob : ∀ key job, w.job = some (key, job) →
      JobInv n command { job with inFlightChunks := job.inFlightChunks - 1 } w.pendingChunks w.trace) :
    WorkerInv n logicalSize command (w.advanceJob crypto d uploadID) := by
  unfold UploadWorker.advanceJob
  split
  · exact hw
  · rename_i job hfind
    have hsome := UploadWorker.findJob_eq_some.1 hfind
    have hinv := hjob _ job hsome
    dsimp only
    split
    · rename_i hdone
      refine hw.sendAttachmentCommit hsome (fun i hpos hlt => ?_) d uploadID _
      have hlast := hinv.last
      have hcount := hinv.count
      dsimp only at hlast hcount
      rw [if_pos hdone.1] at hlast
      rw [hdone.2] at hcount
      by_contra hnot
      have hi : i ∈ outstanding w.trace job.context.chunkIndex :=
        mem_outstanding.2 ⟨hpos, by omega, hnot⟩
      have hcard := Finset.card_pos.2 ⟨i, hi⟩
      omega
    · refine sendNextAttachmentChunk crypto d uploadID ⟨hw.proper, hw.named, fun c t hinit => ?_,
        hw.file, fun key' job' hjob' => ?_⟩
      · have hnone := (hw.job _ job hsome).2
        have hinit : w.pendingInit = some (c, t) := hinit
        rw [hnone] at hinit
        cases hinit
      · cases hjob'
        exact ⟨hinv, (hw.job _ job hsome).2⟩

theorem receiveChunkAck (crypto : Crypto) (d : UploadDraw) (m : Message)
    (hw : WorkerInv n logicalSize command w) :
    WorkerInv n logicalSize command (w.receiveChunkAck crypto d m) := by
  unfold UploadWorker.receiveChunkAck
  split
  · exact hw
  · rename_i pending hacknowledged
    have hp : pending ∈ w.pendingChunks := by
      unfold UploadWorker.acknowledgedChunk at hacknowledged
      split at hacknowledged
      · rename_i p hfind
        cases hacknowledged
        exact List.mem_of_find?_eq_some hfind
      · exact List.mem_of_find?_eq_some hacknowledged
    have hjob : ∀ key job, w.job = some (key, job) →
        JobInv n command { job with inFlightChunks := job.inFlightChunks - 1 }
          (w.pendingChunks.filter (·.commandID ≠ pending.commandID))
          (w.trace ++ [UploadEntry.acknowledged pending.chunkIndex]) :=
      fun key job hsome => (hw.job key job hsome).1.acknowledge hw.named hp
    have hw₁ : WorkerInv n logicalSize command { w with
        pendingChunks := w.pendingChunks.filter (·.commandID ≠ pending.commandID)
        trace := w.trace ++ [.acknowledged pending.chunkIndex] } := by
      refine ⟨hw.proper.acknowledged _, fun p hmem => hw.named p (List.mem_of_mem_filter hmem),
        fun c t hinit => ?_, hw.file, fun key job hsome => ?_⟩
      · obtain ⟨-, -, -, -, hnone, -⟩ := hw.init c t hinit
        rw [hnone] at hp
        cases hp
      · exact ⟨(hjob key job hsome).of_decreased (hw.job key job hsome).1.window,
          (hw.job key job hsome).2⟩
    dsimp only [UploadWorker.record]
    split
    · exact hw₁
    · split
      · exact (hw₁.setTransfer _).advanceJob crypto d hjob
      · exact hw₁.setTransfer _

theorem receiveError (commandID : String) (hw : WorkerInv n logicalSize command w) :
    WorkerInv n logicalSize command (w.receiveError commandID) := by
  have hw₁ : WorkerInv n logicalSize command { w with
      pendingInit := w.pendingInit.filter (·.1 ≠ commandID)
      pendingFile := w.pendingFile.filter (·.1 ≠ commandID) } := by
    refine ⟨hw.proper, hw.named, fun c t hinit => ?_, fun c f hfile => ?_, fun key job hjob => ?_⟩
    · exact hw.init c t (Option.mem_filter_iff.1 hinit).1
    · exact hw.file c f (Option.mem_filter_iff.1 hfile).1
    · obtain ⟨hinv, hnone⟩ := hw.job key job hjob
      refine ⟨hinv, ?_⟩
      dsimp only
      rw [hnone]
      rfl
  unfold UploadWorker.receiveError
  dsimp only
  split
  · exact hw₁
  · rename_i pending hfind
    have hw₂ := hw₁.failTransfer pending.uploadID
    refine ⟨hw₂.proper, fun p hp => hw₂.named p (List.mem_of_mem_filter hp), fun c t hinit => ?_,
      hw₂.file, fun key job hjob => ?_⟩
    · obtain ⟨hc, hsize, hpos, htrace, hchunks, hnone⟩ := hw₂.init c t hinit
      refine ⟨hc, hsize, hpos, htrace, ?_, ?_⟩
      · dsimp only
        rw [hchunks]
        rfl
      · dsimp only
        rw [hnone]
        rfl
    · obtain ⟨hinv, hnone⟩ := hw₂.job key job (Option.mem_filter_iff.1 hjob).1
      exact ⟨⟨hinv.base, hinv.size, hinv.pos, hinv.last, hinv.sent, hinv.acknowledged,
        fun p hp => hinv.waits p (List.mem_of_mem_filter hp), hinv.count, hinv.window,
        hinv.uncommitted⟩, hnone⟩

theorem receiveResume (m : Message) (hw : WorkerInv n logicalSize command w) :
    WorkerInv n logicalSize command (w.receiveResume m) := by
  unfold UploadWorker.receiveResume
  split
  · exact hw
  · exact hw.setTransfer _

theorem receiveInit (hn : n = (logicalSize + plaintextChunkBytes - 1) / plaintextChunkBytes)
    (crypto : Crypto) (d : UploadDraw) (m : Message) (hw : WorkerInv n logicalSize command w) :
    WorkerInv n logicalSize command (w.receiveInit crypto d m) := by
  unfold UploadWorker.receiveInit
  split
  · exact hw
  · rename_i c t hinit
    obtain ⟨rfl, hsize, hpos, htrace, hchunks, hjob⟩ := hw.init c t hinit
    split
    · exact hw
    · rename_i hcommand
      have hcommand := not_not.1 hcommand
      have hw₁ : WorkerInv n logicalSize c { w with pendingInit := none } :=
        ⟨hw.proper, hw.named, fun c t hsome => (by cases hsome), hw.file, fun key job hsome =>
          ⟨(hw.job key job hsome).1, rfl⟩⟩
      dsimp only
      split
      · exact hw₁
      · rename_i t' haccept
        have hchunk : m.chunkSize = plaintextChunkBytes := by
          unfold AttachmentTransferState.acceptInit at haccept
          split_ifs at haccept with hbad
          rw [← hsize]
          by_contra hne
          exact hbad (.inr (.inr (.inr (.inr hne))))
        have hw₂ := hw₁.setTransfer (some (m.uploadID, t'))
        split
        · exact hw₂
        · rename_i fileCommand file hfile
          have hlogical := hw.file fileCommand file hfile
          split
          · exact hw₂
          · split
            · exact ⟨hw₂.proper, hw₂.named, hw₂.init, fun c f hsome => (by cases hsome), hw₂.job⟩
            · refine sendNextAttachmentChunk crypto d m.uploadID ⟨hw₂.proper, hw₂.named,
                fun c t hsome => by (cases hsome), fun c f hsome => by (cases hsome),
                fun key job hsome => ?_⟩
              cases hsome
              dsimp only
              rw [htrace, hchunks]
              have hcount : chunkCount (⟨m.attachmentID, file.room, file.groupID, file.logicalSize,
                  m.chunkSize, 0⟩ : ChunkContext) = n := by
                rw [hn, ← hlogical, ← hchunk]
                rfl
              refine ⟨⟨hcommand.symm, hcount, le_rfl, ?_, fun i hi => absurd hi List.not_mem_nil,
                fun i hi => absurd hi List.not_mem_nil, fun p hp => absurd hp List.not_mem_nil, ?_, ?_,
                fun e he => absurd he List.not_mem_nil⟩, rfl⟩
              · dsimp only
                rw [if_neg (by decide), hn]
                unfold plaintextChunkBytes
                omega
              · simp [outstanding]
              · show (0 : ℤ) ≤ windowSize
                decide

theorem start (n : ℤ) {file : PendingAttachmentFile} (hsize : file.logicalSize = logicalSize)
    (commandID : String) (sent : Bool) :
    WorkerInv n logicalSize (trimSpace commandID) (UploadWorker.start file commandID sent) := by
  unfold UploadWorker.start
  refine ⟨.nil, fun p hp => absurd hp List.not_mem_nil, fun c t hsome => ?_, fun c f hsome => ?_,
    fun key job hsome => by cases hsome⟩
  · dsimp only at hsome
    split_ifs at hsome with hrefused
    obtain ⟨t', hbegin, heq⟩ := Option.map_eq_some_iff.1 hsome
    cases heq
    unfold AttachmentTransferState.begin at hbegin
    split_ifs at hbegin
    cases hbegin
    refine ⟨rfl, rfl, ?_, rfl, rfl, rfl⟩
    by_contra hneg
    exact hrefused (.inr (.inr (.inl (by omega))))
  · cases hsome
    exact hsize

/-- Every message keeps it. -/
theorem processAttachmentMessage
    (hn : n = (logicalSize + plaintextChunkBytes - 1) / plaintextChunkBytes) (crypto : Crypto)
    (hw : WorkerInv n logicalSize command w) (x : Message × UploadDraw) :
    WorkerInv n logicalSize command (w.processAttachmentMessage crypto x) := by
  unfold UploadWorker.processAttachmentMessage
  split
  · exact hw.receiveError _
  · exact hw.receiveInit hn crypto _ _
  · exact hw.receiveResume _
  · exact hw.receiveChunkAck crypto _ _
  · exact hw

end WorkerInv

/-! ### The replies behind the acknowledgements -/

namespace UploadWorker

/-- Only frames have been added. -/
def AddsFrames (w w' : UploadWorker) : Prop :=
  ∃ frames : List Message, w'.trace = w.trace ++ frames.map .frame

theorem AddsFrames.refl (w : UploadWorker) : AddsFrames w w := ⟨[], by simp⟩

theorem AddsFrames.trans {w₁ w₂ w₃ : UploadWorker} (h₁ : AddsFrames w₁ w₂) (h₂ : AddsFrames w₂ w₃) :
    AddsFrames w₁ w₃ := by
  obtain ⟨frames₁, h₁⟩ := h₁
  obtain ⟨frames₂, h₂⟩ := h₂
  exact ⟨frames₁ ++ frames₂, by rw [h₂, h₁, List.map_append, List.append_assoc]⟩

/-- Only the entries count. -/
theorem AddsFrames.of_trace {w w₁ w₂ : UploadWorker} (htrace : w₁.trace = w.trace)
    (h : AddsFrames w₁ w₂) : AddsFrames w w₂ := by
  unfold AddsFrames
  rw [← htrace]
  exact h

theorem addsFrames_failTransfer (w : UploadWorker) (uploadID : String) :
    AddsFrames w (w.failTransfer uploadID) := by
  unfold failTransfer
  split
  · exact ⟨[], by simp⟩
  · exact AddsFrames.refl w

theorem addsFrames_sendAttachmentChunk (w : UploadWorker) (d : UploadDraw) (uploadID : String)
    (chunk : TransferChunk) (commandID : String) :
    AddsFrames w (w.sendAttachmentChunk d uploadID chunk commandID) := by
  unfold sendAttachmentChunk
  split
  · exact AddsFrames.refl w
  · split
    · exact AddsFrames.refl w
    · split
      · exact AddsFrames.refl w
      · dsimp only [record]
        split
        · exact ⟨[_], rfl⟩
        · exact ⟨[_], rfl⟩

theorem addsFrames_sendChunks (crypto : Crypto) (d : UploadDraw) (uploadID : String) (fuel : ℕ)
    (w : UploadWorker) : AddsFrames w (sendChunks crypto d uploadID fuel w) := by
  induction fuel generalizing w with
  | zero => exact AddsFrames.refl w
  | succ fuel ih =>
    unfold sendChunks
    split
    · exact AddsFrames.refl w
    · split
      · exact AddsFrames.refl w
      · split
        · exact addsFrames_failTransfer w _
        · split
          · exact addsFrames_failTransfer w _
          · dsimp only
            split
            · exact (addsFrames_sendAttachmentChunk _ d uploadID _ _).of_trace rfl
            · split
              · exact (addsFrames_sendAttachmentChunk _ d uploadID _ _).of_trace rfl
              · refine AddsFrames.trans ?_ (ih _)
                exact (addsFrames_sendAttachmentChunk _ d uploadID _ _).of_trace rfl

theorem addsFrames_sendNextAttachmentChunk (crypto : Crypto) (w : UploadWorker) (d : UploadDraw)
    (uploadID : String) : AddsFrames w (w.sendNextAttachmentChunk crypto d uploadID) := by
  unfold sendNextAttachmentChunk
  split
  · exact AddsFrames.refl w
  · exact addsFrames_sendChunks ..

theorem addsFrames_sendAttachmentCommit (w : UploadWorker) (d : UploadDraw)
    (uploadID commandID : String) : AddsFrames w (w.sendAttachmentCommit d uploadID commandID) := by
  unfold sendAttachmentCommit
  split
  · exact AddsFrames.refl w
  · exact ⟨[_], rfl⟩

theorem addsFrames_advanceJob (crypto : Crypto) (w : UploadWorker) (d : UploadDraw)
    (uploadID : String) : AddsFrames w (w.advanceJob crypto d uploadID) := by
  unfold advanceJob
  split
  · exact AddsFrames.refl w
  · dsimp only
    split
    · obtain ⟨frames, htrace⟩ := addsFrames_sendAttachmentCommit w d uploadID _
      exact ⟨frames, htrace⟩
    · exact (addsFrames_sendNextAttachmentChunk crypto _ d uploadID).of_trace rfl

/-- The reply names the chunk: by the command of the chunk, or by its index. -/
def Names (command : String) (m : Message) (i : ℤ) : Prop :=
  m.type = .attachmentChunk ∧ (m.commandID = trimSpace (chunkCommand command i) ∨ m.chunkIndex = i)

/-- A new acknowledgement comes from a reply that names the chunk. -/
theorem acknowledged_named {n logicalSize : ℤ} {command : String} {w : UploadWorker}
    (hw : WorkerInv n logicalSize command w) (crypto : Crypto) (x : Message × UploadDraw) {i : ℤ}
    (hi : .acknowledged i ∈ (w.processAttachmentMessage crypto x).trace) :
    .acknowledged i ∈ w.trace ∨ Names command x.1 i := by
  have hadds : ∀ {w w' : UploadWorker}, AddsFrames w w' → .acknowledged i ∈ w'.trace →
      .acknowledged i ∈ w.trace := by
    rintro w w' ⟨frames, htrace⟩ hmem
    rw [htrace, List.mem_append] at hmem
    exact hmem.resolve_right (by simp)
  unfold processAttachmentMessage at hi
  split at hi
  · refine .inl (hadds ?_ hi)
    unfold receiveError
    dsimp only
    split
    · exact ⟨[], by simp⟩
    · exact (addsFrames_failTransfer _ _).of_trace rfl
  · refine .inl (hadds ?_ hi)
    unfold receiveInit
    split
    · exact AddsFrames.refl w
    · split
      · exact AddsFrames.refl w
      · dsimp only
        split
        · exact ⟨[], by simp⟩
        · split
          · exact ⟨[], by simp⟩
          · split
            · exact ⟨[], by simp⟩
            · split
              · exact ⟨[], by simp⟩
              · exact (addsFrames_sendNextAttachmentChunk crypto _ x.2 _).of_trace rfl
  · refine .inl (hadds ?_ hi)
    unfold receiveResume
    split
    · exact AddsFrames.refl w
    · exact ⟨[], by simp⟩
  · rename_i htype
    unfold receiveChunkAck at hi
    split at hi
    · exact .inl hi
    · rename_i pending hacknowledged
      have hmem : .acknowledged i ∈ w.trace ++ [.acknowledged pending.chunkIndex] := by
        dsimp only [record] at hi
        split at hi
        · exact hi
        · split at hi
          · exact hadds ((addsFrames_advanceJob crypto _ x.2 _).of_trace rfl) hi
          · exact hi
      rcases List.mem_append.1 hmem with hold | hnew
      · exact .inl hold
      · obtain rfl : i = pending.chunkIndex := by simpa using hnew
        refine .inr ⟨htype, ?_⟩
        unfold acknowledgedChunk at hacknowledged
        split at hacknowledged
        · rename_i hfind
          cases hacknowledged
          have hcommand := List.find?_some hfind
          rw [decide_eq_true_eq] at hcommand
          exact .inl (hcommand ▸ hw.named _ (List.mem_of_find?_eq_some hfind))
        · have hindex := List.find?_some hacknowledged
          rw [decide_eq_true_eq] at hindex
          exact .inr hindex.2.symm
  · exact .inl hi

end UploadWorker

open UploadWorker in
/-- Whatever the server sends and whichever frames cannot be sent: an upload of `n` chunks sends
increasing indexes below `n`, has eight of them at most without an acknowledgement at every moment,
and sends one commit at most, after an acknowledgement of every index; each acknowledgement is a reply
that names the chunk by its command or its index. -/
theorem upload_window (crypto : Crypto) (file : PendingAttachmentFile) (commandID : String)
    (sent : Bool) (inputs : List (Message × UploadDraw)) :
    let n := (file.logicalSize + plaintextChunkBytes - 1) / plaintextChunkBytes
    let trace := (run (processAttachmentMessage crypto) (start file commandID sent) inputs).trace
    (sentIndexes trace).Pairwise (· < ·) ∧
      (∀ i ∈ sentIndexes trace, 0 ≤ i ∧ i < n) ∧
      (∀ earlier, earlier <+: trace → (unacknowledged earlier).length ≤ 8) ∧
      (trace.filter UploadEntry.isCommit).length ≤ 1 ∧
      (∀ before e after, trace = before ++ e :: after → e.isCommit = true →
        ∀ i, 0 ≤ i → i < n → .acknowledged i ∈ before) ∧
      ∀ i, .acknowledged i ∈ trace → ∃ x ∈ inputs, Names (trimSpace commandID) x.1 i := by
  intro n trace
  have hrun : ∀ (inputs : List (Message × UploadDraw)) (w : UploadWorker),
      WorkerInv n file.logicalSize (trimSpace commandID) w →
      WorkerInv n file.logicalSize (trimSpace commandID) (run (processAttachmentMessage crypto) w
        inputs) ∧
      ∀ i, .acknowledged i ∈ (run (processAttachmentMessage crypto) w inputs).trace →
        .acknowledged i ∈ w.trace ∨ ∃ x ∈ inputs, Names (trimSpace commandID) x.1 i := by
    intro inputs
    induction inputs with
    | nil => exact fun w hw => ⟨hw, fun i hi => .inl hi⟩
    | cons x inputs ih =>
      intro w hw
      obtain ⟨hlast, hnamed⟩ := ih _ (hw.processAttachmentMessage rfl crypto x)
      refine ⟨hlast, fun i hi => ?_⟩
      rcases hnamed i hi with hi | ⟨y, hy, hnames⟩
      · rcases acknowledged_named hw crypto x hi with hi | hnames
        · exact .inl hi
        · exact .inr ⟨x, List.mem_cons_self, hnames⟩
      · exact .inr ⟨y, List.mem_cons_of_mem _ hy, hnames⟩
  obtain ⟨hw, hnamed⟩ := hrun inputs _ (WorkerInv.start n rfl commandID sent)
  refine ⟨hw.proper.sorted, hw.proper.bounds, fun _ => hw.proper.window, hw.proper.commits,
    fun _ _ _ => hw.proper.acknowledged_before_commit, fun i hi => ?_⟩
  exact (hnamed i hi).resolve_left List.not_mem_nil

end LanChat.Gui.Attachments
