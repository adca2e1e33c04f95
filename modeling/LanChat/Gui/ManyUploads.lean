import LanChat.Gui.UploadWindow
import Mathlib.Data.List.AList
import Mathlib.Data.List.Lex
import Mathlib.Data.List.MinMax

/-!
# Several uploads (`gui_connection_worker.cpp`)

The worker with any number of uploads, and what the bridge and the server do with it.  The number of
chunks on the wire is kept in three places: the counter of the job, the worker's map of the chunks
that wait, and the transfer's map of the commands that wait.

* `UploadsWorker`: the maps of the worker;
* `step`: what the bridge asks for, and a message of the server;
* `awaited`: the chunks whose acknowledgement is still to come and would be accepted;
* `Counts`: every counter says how many chunks are outstanding, and no job waits for nothing;
* `Agrees`: what holds between a job and the transfer of its upload, `Agrees.next` after the next
  chunk, `Agrees.acknowledge` after an acknowledgement.
-/

namespace LanChat.Gui.Attachments

open GoStrings EventMachine
open Client (maxLogicalBytes plaintextChunkBytes)

/-! ### The worker -/

/-- The maps of the worker; `sent` are the frames that the connection has taken, oldest first. -/
structure UploadsWorker where
  pendingInits : AList fun _ : String => AttachmentTransferState := ∅
  pendingFiles : AList fun _ : String => PendingAttachmentFile := ∅
  transfers : AList fun _ : String => AttachmentTransferState := ∅
  jobs : AList fun _ : String => AttachmentUploadJob := ∅
  pendingChunks : List PendingChunk := []
  sent : List Message := []

/-- The UTF-16 code units of a text, by which `operator<` of `QString` compares. -/
def utf16 (s : String) : List ℕ :=
  s.toList.flatMap fun c =>
    if c.toNat < 0x10000 then [c.toNat]
    else [0xD800 + (c.toNat - 0x10000) / 0x400, 0xDC00 + (c.toNat - 0x10000) % 0x400]

namespace UploadsWorker

/-- What is done with the worker.  `startUpload` is the end of `startAttachmentUpload`, behind the
setup of the group; `ready` and `taken` are what the connection answers to it. -/
inductive Input
  | startUpload (file : PendingAttachmentFile) (commandID : String) (ready taken : Bool)
  | sendInit (room : String) (logicalSize : ℤ) (commandID : String) (ready taken : Bool)
  | sendChunk (uploadID : String) (chunk : TransferChunk) (commandID : String) (draw : UploadDraw)
  | message (m : Message) (draw : UploadDraw)

/-- `sendAttachmentInit`. -/
def sendAttachmentInit (w : UploadsWorker) (room : String) (logicalSize : ℤ) (commandID : String)
    (ready taken : Bool) : UploadsWorker :=
  if maxLogicalBytes < logicalSize ∨ !ready ∨ trimSpace room = "" ∨ logicalSize ≤ 0 ∨
      trimSpace commandID = "" then w
  else match ({} : AttachmentTransferState).begin logicalSize plaintextChunkBytes with
    | none => w
    | some t =>
      if taken then { w with pendingInits := w.pendingInits.insert (trimSpace commandID) t }
      else { w with pendingInits := w.pendingInits.erase (trimSpace commandID) }

/-- `startNextAttachmentMlsSetup` after the last target. -/
def startUpload (w : UploadsWorker) (file : PendingAttachmentFile) (commandID : String)
    (ready taken : Bool) : UploadsWorker :=
  { w with pendingFiles := w.pendingFiles.insert (trimSpace commandID) file }.sendAttachmentInit
    file.room file.logicalSize (trimSpace commandID) ready taken

/-- The transfer is marked as failed, if it is there. -/
def failTransfer (w : UploadsWorker) (uploadID : String) : UploadsWorker :=
  match w.transfers.lookup uploadID with
  | some t => { w with transfers := w.transfers.insert uploadID t.fail }
  | none => w

/-- `sendAttachmentChunk`. -/
def sendAttachmentChunk (w : UploadsWorker) (d : UploadDraw) (uploadID : String)
    (chunk : TransferChunk) (commandID : String) : UploadsWorker :=
  if !d.ready chunk.index ∨ trimSpace uploadID = "" ∨ chunk.index < 0 ∨ chunk.ciphertext = [] ∨
      chunk.cipherSha256.utf8ByteSize ≠ 64 ∨ trimSpace commandID = "" then w
  else match w.transfers.lookup (trimSpace uploadID) with
    | none => w
    | some t =>
      match t.registerChunkCommand (trimSpace commandID) chunk.index with
      | none => w
      | some t =>
        let waiting := w.pendingChunks.filter (·.commandID ≠ trimSpace commandID)
        if d.sends chunk.index then
          { w with
            transfers := w.transfers.insert (trimSpace uploadID) t
            pendingChunks := waiting ++ [⟨trimSpace commandID, trimSpace uploadID, chunk.index⟩]
            sent := w.sent ++
              [UploadWorker.chunkMessage (trimSpace uploadID) chunk (trimSpace commandID)] }
        else
          { w with
            transfers := w.transfers.insert (trimSpace uploadID) t.fail
            pendingChunks := waiting }

/-- The job of an upload ends, and its transfer fails. -/
def abandon (w : UploadsWorker) (uploadID : String) : UploadsWorker :=
  { w.failTransfer (trimSpace uploadID) with jobs := w.jobs.erase (trimSpace uploadID) }

/-- The loop of `sendNextAttachmentChunk`; `fuel` is the room that is left in the window. -/
def sendChunks (crypto : Crypto) (d : UploadDraw) (uploadID : String) :
    ℕ → UploadsWorker → UploadsWorker
  | 0, w => w
  | fuel + 1, w =>
    match w.jobs.lookup (trimSpace uploadID) with
    | none => w
    | some job =>
      if job.lastChunkSent ∨ windowSize ≤ job.inFlightChunks then w
      else match encryptNextChunk crypto job.input job.key job.context with
        | .error _ => w.abandon uploadID
        | .ok (chunk, endOfFile, input) =>
          if endOfFile ∧ chunk.ciphertext = [] then w.abandon uploadID
          else
            let job := { job with
              input
              lastChunkSent := endOfFile
              context := { job.context with chunkIndex := job.context.chunkIndex + 1 }
              inFlightChunks := job.inFlightChunks + 1 }
            let w := { w with jobs := w.jobs.insert (trimSpace uploadID) job }
            let w := w.sendAttachmentChunk d uploadID chunk
              (chunkCommand job.baseCommand chunk.index)
            match w.transfers.lookup (trimSpace uploadID) with
            | none => w
            | some t => if t.status = .failed then w else sendChunks crypto d uploadID fuel w

/-- `sendNextAttachmentChunk`: until the window is full. -/
def sendNextAttachmentChunk (crypto : Crypto) (w : UploadsWorker) (d : UploadDraw)
    (uploadID : String) : UploadsWorker :=
  match w.jobs.lookup (trimSpace uploadID) with
  | none => w
  | some job => sendChunks crypto d uploadID (windowSize - job.inFlightChunks).toNat w

/-- `sendAttachmentCommit`. -/
def sendAttachmentCommit (w : UploadsWorker) (d : UploadDraw) (uploadID commandID : String) :
    UploadsWorker :=
  if !d.commitReady ∨ trimSpace uploadID = "" ∨ trimSpace commandID = "" then w
  else { w with
    sent := w.sent ++ [UploadWorker.commitMessage (trimSpace uploadID) (trimSpace commandID)] }

/-- The chunk that a reply acknowledges: the one of its command, or else the first one of its index
in the order of the commands. -/
def acknowledgedChunk (w : UploadsWorker) (m : Message) : Option PendingChunk :=
  match w.pendingChunks.find? (·.commandID = m.commandID) with
  | some pending => some pending
  | none =>
    (w.pendingChunks.filter fun p => p.uploadID = m.uploadID ∧ p.chunkIndex = m.chunkIndex).argmin
      fun p => utf16 p.commandID

/-- `processAttachmentMessage` for an error: the upload of the chunk ends. -/
def receiveError (w : UploadsWorker) (commandID : String) : UploadsWorker :=
  let w := { w with
    pendingInits := w.pendingInits.erase commandID
    pendingFiles := w.pendingFiles.erase commandID }
  match w.pendingChunks.find? (·.commandID = commandID) with
  | none => w
  | some pending =>
    { w.failTransfer pending.uploadID with
      jobs := w.jobs.erase pending.uploadID
      pendingChunks := w.pendingChunks.filter (·.uploadID ≠ pending.uploadID) }

/-- The job of an upload that the server has accepted. -/
def newJob (m : Message) (file : PendingAttachmentFile) (input : Device) : AttachmentUploadJob where
  baseCommand := m.commandID
  key := file.key
  context := ⟨m.attachmentID, file.room, file.groupID, file.logicalSize, m.chunkSize, 0⟩
  input

/-- `processAttachmentMessage` for the reply to an initialization. -/
def receiveInit (crypto : Crypto) (w : UploadsWorker) (d : UploadDraw) (m : Message) :
    UploadsWorker :=
  match w.pendingInits.lookup m.commandID with
  | none => w
  | some t =>
    let w := { w with pendingInits := w.pendingInits.erase m.commandID }
    match t.acceptInit m.attachmentID m.uploadID m.chunkSize m.expiresAt with
    | none => w
    | some t =>
      let w := { w with transfers := w.transfers.insert m.uploadID t }
      match w.pendingFiles.lookup m.commandID with
      | none => w
      | some file =>
        let w := { w with pendingFiles := w.pendingFiles.erase m.commandID }
        match d.input with
        | none => w
        | some input =>
          sendNextAttachmentChunk crypto
            { w with jobs := w.jobs.insert m.uploadID (newJob m file input) } d m.uploadID

/-- `processAttachmentMessage` for a reply to a resumption. -/
def receiveResume (w : UploadsWorker) (m : Message) : UploadsWorker :=
  match w.transfers.lookup m.uploadID with
  | none => w
  | some t =>
    { w with transfers := w.transfers.insert m.uploadID (t.acceptResume m.receivedIndexes) }

/-- An accepted acknowledgement: the commit, or the next chunks. -/
def advanceJob (crypto : Crypto) (w : UploadsWorker) (d : UploadDraw) (uploadID : String) :
    UploadsWorker :=
  match w.jobs.lookup uploadID with
  | none => w
  | some job =>
    let job := { job with inFlightChunks := job.inFlightChunks - 1 }
    if job.lastChunkSent ∧ job.inFlightChunks = 0 then
      { w.sendAttachmentCommit d uploadID (job.baseCommand ++ "-commit") with
        jobs := w.jobs.erase uploadID }
    else
      sendNextAttachmentChunk crypto { w with jobs := w.jobs.insert uploadID job } d uploadID

/-- `processAttachmentMessage` for an acknowledgement. -/
def receiveChunkAck (crypto : Crypto) (w : UploadsWorker) (d : UploadDraw) (m : Message) :
    UploadsWorker :=
  match w.acknowledgedChunk m with
  | none => w
  | some pending =>
    let w := { w with pendingChunks := w.pendingChunks.filter (·.commandID ≠ pending.commandID) }
    match w.transfers.lookup pending.uploadID with
    | none => w
    | some t =>
      let (accepted, t) := t.acceptChunkAck pending.commandID pending.chunkIndex
      let w := { w with transfers := w.transfers.insert pending.uploadID t }
      if accepted then w.advanceJob crypto d pending.uploadID else w

/-- `processAttachmentMessage`, the replies to a commit and to a download aside. -/
def processAttachmentMessage (crypto : Crypto) (w : UploadsWorker) (m : Message) (d : UploadDraw) :
    UploadsWorker :=
  match m.type with
  | .error => w.receiveError m.commandID
  | .attachmentInit => w.receiveInit crypto d m
  | .attachmentResume => w.receiveResume m
  | .attachmentChunk => w.receiveChunkAck crypto d m
  | _ => w

/-- One step of the worker. -/
def step (crypto : Crypto) (w : UploadsWorker) : Input → UploadsWorker
  | .startUpload file commandID ready taken => w.startUpload file commandID ready taken
  | .sendInit room logicalSize commandID ready taken =>
    w.sendAttachmentInit room logicalSize commandID ready taken
  | .sendChunk uploadID chunk commandID d => w.sendAttachmentChunk d uploadID chunk commandID
  | .message m d => w.processAttachmentMessage crypto m d

/-! ### What is outstanding -/

/-- The frame of a chunk that waits has been taken by the connection. -/
def HasSent (w : UploadsWorker) (p : PendingChunk) : Prop :=
  ∃ m ∈ w.sent, m.type = .attachmentChunk ∧ m.uploadID = p.uploadID ∧ m.chunkIndex = p.chunkIndex ∧
    m.commandID = p.commandID

instance (w : UploadsWorker) (p : PendingChunk) : Decidable (w.HasSent p) :=
  inferInstanceAs (Decidable (∃ m ∈ w.sent, _))

/-- The acknowledgement of a chunk would be accepted. -/
def accepts (w : UploadsWorker) (p : PendingChunk) : Bool :=
  (w.transfers.lookup p.uploadID).any fun t => (t.acceptChunkAck p.commandID p.chunkIndex).1

/-- The chunks of an upload that have been sent and whose acknowledgement is still awaited and would
be accepted. -/
def awaited (w : UploadsWorker) (uploadID : String) : List PendingChunk :=
  w.pendingChunks.filter fun p => p.uploadID = uploadID ∧ w.HasSent p ∧ w.accepts p

/-- The window of an upload is as full as it can be, and not empty. -/
def Full (job : AttachmentUploadJob) : Prop :=
  0 < job.inFlightChunks ∧ job.inFlightChunks ≤ windowSize ∧
    (job.lastChunkSent = true ∨ job.inFlightChunks = windowSize)

/-- The counter of every active job says how many chunks are outstanding, and the job goes on. -/
def Counts (w : UploadsWorker) : Prop :=
  ∀ uploadID job, w.jobs.lookup uploadID = some job →
    job.inFlightChunks = ((w.awaited uploadID).length : ℤ) ∧ Full job

end UploadsWorker

/-! ### A job and the transfer of its upload -/

/-- A job agrees with a transfer: the chunks before the next one are received or wait, the waiting
ones under their commands, and there are as many of them as the job counts. -/
structure Agrees (job : AttachmentUploadJob) (t : AttachmentTransferState) : Prop where
  uploading : t.status = .uploading
  base : trimSpace job.baseCommand = job.baseCommand
  named : job.baseCommand ≠ ""
  size : chunkCount job.context ≤ t.chunkCount
  pos : 0 ≤ job.context.chunkIndex
  last : if job.lastChunkSent then job.context.chunkIndex = chunkCount job.context
    else job.context.chunkIndex < chunkCount job.context
  received : ∀ i ∈ t.received, 0 ≤ i ∧ i < job.context.chunkIndex
  commands : ∀ c ∈ t.pendingChunkCommands, c.1 = chunkCommand job.baseCommand c.2 ∧ 0 ≤ c.2 ∧
    c.2 < job.context.chunkIndex ∧ c.2 ∉ t.received
  nodup : (t.pendingChunkCommands.map Prod.fst).Nodup
  count : job.inFlightChunks = t.pendingChunkCommands.length

theorem chunkCommand_inj {a b : String} {i j : ℤ} (hi : 0 ≤ i) (hj : 0 ≤ j)
    (h : chunkCommand a i = chunkCommand b j) : a = b ∧ i = j := by
  obtain ⟨m, rfl⟩ := Int.eq_ofNat_of_zero_le hi
  obtain ⟨n, rfl⟩ := Int.eq_ofNat_of_zero_le hj
  obtain ⟨hab, hmn⟩ := numbered_inj (by decide : "-chunk-".toList.getLast? = some '-') h
  exact ⟨hab, congrArg _ hmn⟩

theorem trimSpace_chunkCommand {a : String} (ha : trimSpace a = a) (hne : a ≠ "") {i : ℤ}
    (hi : 0 ≤ i) : trimSpace (chunkCommand a i) = chunkCommand a i := by
  obtain ⟨n, rfl⟩ := Int.eq_ofNat_of_zero_le hi
  exact trimSpace_numbered ha hne "-chunk-" n

theorem chunkCommand_ne (a : String) (i : ℤ) : chunkCommand a i ≠ "" := by
  intro h
  have hsize := congrArg String.utf8ByteSize h
  unfold chunkCommand at hsize
  rw [String.utf8ByteSize_append, String.utf8ByteSize_append] at hsize
  have hword : "-chunk-".utf8ByteSize = 7 := rfl
  have hempty : "".utf8ByteSize = 0 := rfl
  omega

namespace Agrees

variable {job : AttachmentUploadJob} {t : AttachmentTransferState}

theorem le_chunkCount (h : Agrees job t) : job.context.chunkIndex ≤ chunkCount job.context := by
  have hlast := h.last
  split_ifs at hlast
  · exact hlast.le
  · exact hlast.le

theorem validIndex (h : Agrees job t) {c : String × ℤ} (hc : c ∈ t.pendingChunkCommands) :
    t.validIndex c.2 = true := by
  obtain ⟨-, hpos, hlt, -⟩ := h.commands c hc
  have hle := h.le_chunkCount
  have hsize := h.size
  exact AttachmentTransferState.validIndex_iff.2 ⟨hpos, by omega⟩

/-- The acknowledgements that are accepted are those of the commands that wait. -/
theorem acceptChunkAck (h : Agrees job t) {c : String} {i : ℤ} :
    (t.acceptChunkAck c i).1 = true ↔ (c, i) ∈ t.pendingChunkCommands := by
  rw [AttachmentTransferState.acceptChunkAck_iff h.nodup]
  exact ⟨fun hc => hc.1, fun hc => ⟨hc, h.uploading, h.validIndex hc⟩⟩

end Agrees

/-! ### The next chunk of a job -/

namespace Agrees

variable {job : AttachmentUploadJob} {t : AttachmentTransferState}

/-- The transfer after the next chunk of a job has been sent. -/
def nextTransfer (job : AttachmentUploadJob) (t : AttachmentTransferState) :
    AttachmentTransferState :=
  { t with pendingChunkCommands := t.pendingChunkCommands ++
      [(chunkCommand job.baseCommand job.context.chunkIndex, job.context.chunkIndex)] }

/-- The job after its next chunk. -/
def nextJob (job : AttachmentUploadJob) (input : Device) : AttachmentUploadJob :=
  { job with
    input
    lastChunkSent := decide (chunkCount job.context ≤ job.context.chunkIndex + 1)
    context := { job.context with chunkIndex := job.context.chunkIndex + 1 }
    inFlightChunks := job.inFlightChunks + 1 }

theorem not_mem_commands (h : Agrees job t) :
    chunkCommand job.baseCommand job.context.chunkIndex ∉ t.pendingChunkCommands.map Prod.fst := by
  rw [List.mem_map]
  rintro ⟨c, hc, hsame⟩
  obtain ⟨hcommand, hpos, hlt, -⟩ := h.commands c hc
  rw [hcommand] at hsame
  have hindex := (chunkCommand_inj hpos h.pos hsame).2
  omega

/-- The transfer takes the command of the next chunk. -/
theorem register (h : Agrees job t) (hmore : job.lastChunkSent = false) :
    t.registerChunkCommand (chunkCommand job.baseCommand job.context.chunkIndex)
      job.context.chunkIndex = some (nextTransfer job t) := by
  have hlast := h.last
  rw [hmore, if_neg (by decide)] at hlast
  have hsize := h.size
  have hvalid : t.validIndex job.context.chunkIndex = true :=
    AttachmentTransferState.validIndex_iff.2 ⟨h.pos, by omega⟩
  unfold AttachmentTransferState.registerChunkCommand
  rw [if_neg]
  · rfl
  rintro (hstatus | hempty | hinvalid | hreceived | hknown)
  · exact hstatus h.uploading
  · exact chunkCommand_ne _ _ hempty
  · simp [hvalid] at hinvalid
  · exact absurd (h.received _ hreceived).2 (lt_irrefl _)
  · exact h.not_mem_commands hknown

theorem next (h : Agrees job t) (hmore : job.lastChunkSent = false) (input : Device) :
    Agrees (nextJob job input) (nextTransfer job t) := by
  have hlast := h.last
  rw [hmore, if_neg (by decide)] at hlast
  constructor
  case uploading => exact h.uploading
  case base => exact h.base
  case named => exact h.named
  case size => exact h.size
  case pos => exact Int.le_add_one h.pos
  case last =>
    show if decide (chunkCount job.context ≤ job.context.chunkIndex + 1) = true
      then job.context.chunkIndex + 1 = chunkCount job.context
      else job.context.chunkIndex + 1 < chunkCount job.context
    split_ifs with hend
    · rw [decide_eq_true_eq] at hend
      omega
    · rw [decide_eq_true_eq] at hend
      omega
  case received =>
    intro i hi
    obtain ⟨hpos, hlt⟩ := h.received i hi
    exact ⟨hpos, Int.lt_add_one_of_le hlt.le⟩
  case commands =>
    intro c hc
    rcases List.mem_append.1 hc with hc | hc
    · obtain ⟨hcommand, hpos, hlt, hnot⟩ := h.commands c hc
      exact ⟨hcommand, hpos, Int.lt_add_one_of_le hlt.le, hnot⟩
    · rw [List.mem_singleton.1 hc]
      exact ⟨rfl, h.pos, Int.lt_succ _, fun hi => absurd (h.received _ hi).2 (lt_irrefl _)⟩
  case nodup =>
    unfold nextTransfer
    rw [List.map_append, List.nodup_append]
    refine ⟨h.nodup, List.nodup_singleton _, ?_⟩
    rintro c hc c' hc' rfl
    rw [List.map_singleton, List.mem_singleton] at hc'
    rw [hc'] at hc
    exact h.not_mem_commands hc
  case count =>
    show job.inFlightChunks + 1 = ((t.pendingChunkCommands ++ [_]).length : ℤ)
    rw [h.count, List.length_append, List.length_singleton]
    push_cast
    rfl

end Agrees

/-! ### An acknowledgement -/

namespace Agrees

variable {job : AttachmentUploadJob} {t : AttachmentTransferState} {c : String} {i : ℤ}

/-- One command less waits. -/
theorem length_filter (h : Agrees job t) (hc : (c, i) ∈ t.pendingChunkCommands) :
    (t.pendingChunkCommands.filter (·.1 ≠ c)).length + 1 = t.pendingChunkCommands.length := by
  have hone : (t.pendingChunkCommands.map Prod.fst).count c = 1 :=
    List.count_eq_one_of_mem h.nodup (List.mem_map.2 ⟨_, hc, rfl⟩)
  rw [List.count_eq_countP, List.countP_map] at hone
  have hall := List.length_eq_countP_add_countP (fun x : String × ℤ => decide (x.1 ≠ c))
    (l := t.pendingChunkCommands)
  rw [hall, List.countP_eq_length_filter, ← hone]
  congr 1
  refine List.countP_congr fun x _ => ?_
  simp

/-- While chunks are missing, the received ones are not all. -/
theorem card_received (h : Agrees job t) (hc : (c, i) ∈ t.pendingChunkCommands)
    (hgoes : ¬ (job.lastChunkSent = true ∧ job.inFlightChunks - 1 = 0)) :
    ((insert i t.received).card : ℤ) < t.chunkCount := by
  obtain ⟨hcommand, hpos, hlt, -⟩ := h.commands _ hc
  have hsize := h.size
  have hlast := h.last
  have hbound : ∀ j ∈ insert i t.received, 0 ≤ j ∧ j < job.context.chunkIndex := by
    intro j hj
    rcases Finset.mem_insert.1 hj with rfl | hj
    · exact ⟨hpos, hlt⟩
    · exact h.received j hj
  have hsub : insert i t.received ⊆ Finset.Ico 0 job.context.chunkIndex :=
    fun j hj => Finset.mem_Ico.2 (hbound j hj)
  have hcard : (Finset.Ico 0 job.context.chunkIndex).card = job.context.chunkIndex.toNat := by
    rw [Int.card_Ico, sub_zero]
  by_cases hsent : job.lastChunkSent = true
  · rw [if_pos hsent] at hlast
    have hcount := h.count
    have hlength := h.length_filter hc
    obtain ⟨x, hx⟩ : ∃ x, x ∈ t.pendingChunkCommands.filter (·.1 ≠ c) := by
      refine List.exists_mem_of_length_pos ?_
      by_contra hnone
      exact hgoes ⟨hsent, by omega⟩
    obtain ⟨hx, hne⟩ := List.mem_filter.1 hx
    obtain ⟨hxcommand, hxpos, hxlt, hxnot⟩ := h.commands x hx
    have hmissing : x.2 ∉ insert i t.received := by
      rw [Finset.mem_insert, not_or]
      refine ⟨fun hsame => of_decide_eq_true hne ?_, hxnot⟩
      rw [hxcommand, hsame]
      exact hcommand.symm
    have hless := Finset.card_lt_card (Finset.ssubset_iff_of_subset hsub |>.2
      ⟨x.2, Finset.mem_Ico.2 ⟨hxpos, hxlt⟩, hmissing⟩)
    omega
  · rw [if_neg hsent] at hlast
    have hle := Finset.card_le_card hsub
    have hnext := h.pos
    omega

/-- An accepted acknowledgement leaves one chunk less, unless it was the last one of the upload. -/
theorem acknowledge (h : Agrees job t) (hc : (c, i) ∈ t.pendingChunkCommands)
    (hgoes : ¬ (job.lastChunkSent = true ∧ job.inFlightChunks - 1 = 0)) :
    Agrees { job with inFlightChunks := job.inFlightChunks - 1 } (t.acceptChunkAck c i).2 := by
  obtain ⟨hreceived, hcommands, hcount, hstatus⟩ :=
    AttachmentTransferState.acceptChunkAck_fields (h.acceptChunkAck.2 hc)
  obtain ⟨hcommand, hpos, hlt, -⟩ := h.commands _ hc
  constructor
  case uploading => exact hstatus (h.card_received hc hgoes).ne
  case base => exact h.base
  case named => exact h.named
  case size =>
    rw [hcount]
    exact h.size
  case pos => exact h.pos
  case last => exact h.last
  case received =>
    intro j hj
    rw [hreceived] at hj
    rcases Finset.mem_insert.1 hj with rfl | hj
    · exact ⟨hpos, hlt⟩
    · exact h.received j hj
  case commands =>
    intro x hx
    rw [hcommands] at hx
    obtain ⟨hx, hne⟩ := List.mem_filter.1 hx
    obtain ⟨hxcommand, hxpos, hxlt, hxnot⟩ := h.commands x hx
    refine ⟨hxcommand, hxpos, hxlt, ?_⟩
    rw [hreceived, Finset.mem_insert, not_or]
    refine ⟨fun hsame => of_decide_eq_true hne ?_, hxnot⟩
    rw [hxcommand, hsame]
    exact hcommand.symm
  case nodup =>
    rw [hcommands]
    exact h.nodup.sublist (List.filter_sublist.map _)
  case count =>
    have hlength := h.length_filter hc
    rw [hcommands]
    dsimp only
    rw [h.count]
    omega

end Agrees

end LanChat.Gui.Attachments
