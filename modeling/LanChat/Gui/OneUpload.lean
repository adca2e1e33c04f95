import LanChat.Gui.ManyUploads

/-!
# A worker with one upload

`UploadWorker` has one entry at most in each of its maps.  Started with one upload it does what the
worker of `UploadsWorker` does with the same messages.

* `OneEntry`: a map with one entry at most, and that entry;
* `Shows`: the two workers say the same;
* `Shows.processAttachmentMessage`: a message keeps it;
* `one_upload`: it holds after every sequence of messages.
-/

namespace LanChat.Gui.Attachments

open GoStrings EventMachine
open Client (maxLogicalBytes plaintextChunkBytes)

/-! ### Maps with one entry -/

/-- The map has the entry and no other. -/
def OneEntry {α : Type} (entry : Option (String × α)) (map : AList fun _ : String => α) : Prop :=
  ∀ k, map.lookup k = (entry.filter (·.1 = k)).map Prod.snd

namespace OneEntry

variable {α : Type} {entry : Option (String × α)} {map : AList fun _ : String => α} {k : String}
  {a : α}

theorem empty : OneEntry none (∅ : AList fun _ : String => α) := fun _ => rfl

theorem lookup_eq_some (h : OneEntry entry map) : map.lookup k = some a ↔ entry = some (k, a) := by
  rw [h k]
  cases entry with
  | none => simp
  | some x =>
    obtain ⟨key, b⟩ := x
    by_cases hkey : key = k
    · simp [Option.filter, hkey]
    · simp [Option.filter, hkey]

/-- The entry is put into the map, in the place of the one that was there. -/
theorem insert (h : OneEntry entry map) (hkey : ∀ x, entry = some x → x.1 = k) (a : α) :
    OneEntry (some (k, a)) (map.insert k a) := by
  intro k'
  by_cases hk : k' = k
  · subst hk
    rw [AList.lookup_insert]
    simp [Option.filter]
  · rw [AList.lookup_insert_ne hk, h k']
    cases entry with
    | none => simp [Option.filter, Ne.symm hk]
    | some x => simp [Option.filter, hkey x rfl, Ne.symm hk]

theorem erase (h : OneEntry entry map) (k : String) :
    OneEntry (entry.filter (·.1 ≠ k)) (map.erase k) := by
  intro k'
  by_cases hk : k' = k
  · subst hk
    rw [AList.lookup_erase]
    cases entry with
    | none => rfl
    | some x =>
      by_cases hx : x.1 = k'
      · simp [Option.filter, hx]
      · simp [Option.filter, hx]
  · rw [AList.lookup_erase_ne hk, h k']
    cases entry with
    | none => rfl
    | some x =>
      by_cases hx : x.1 = k'
      · simp [Option.filter, hx, hk]
      · by_cases hx' : x.1 = k
        · simp [Option.filter, hx', Ne.symm hk]
        · simp [Option.filter, hx, hx']

/-- The entry goes. -/
theorem erase_entry (h : OneEntry (some (k, a)) map) : OneEntry none (map.erase k) := by
  have herase := h.erase k
  simpa [Option.filter] using herase

end OneEntry

/-- Among equal elements the least one is the first one. -/
theorem argmin_eq_head? {α β : Type} [Preorder β] [DecidableLT β] (f : α → β) {l : List α}
    (hsame : ∀ a ∈ l, ∀ b ∈ l, a = b) : l.argmin f = l.head? := by
  cases l with
  | nil => rfl
  | cons a rest =>
    cases hmin : (a :: rest).argmin f with
    | none => exact absurd (List.argmin_eq_none.1 hmin) (List.cons_ne_nil a rest)
    | some b => rw [hsame b (List.argmin_mem hmin) a List.mem_cons_self, List.head?_cons]

/-! ### The two workers -/

/-- The worker with one upload shows what the worker does; nothing is known of an upload that is still
announced. -/
structure Shows (w : UploadWorker) (w' : UploadsWorker) : Prop where
  inits : OneEntry w.pendingInit w'.pendingInits
  files : OneEntry w.pendingFile w'.pendingFiles
  transfers : OneEntry w.transfer w'.transfers
  jobs : OneEntry w.job w'.jobs
  chunks : w'.pendingChunks = w.pendingChunks
  fresh : ∀ x, w.pendingInit = some x → w.transfer = none ∧ w.job = none

namespace Shows

variable {w : UploadWorker} {w' : UploadsWorker} {u : String}

theorem lookup_transfers (h : Shows w w') (u : String) :
    w'.transfers.lookup u = w.findTransfer u := by
  ext t
  rw [h.transfers.lookup_eq_some, UploadWorker.findTransfer_eq_some]

theorem lookup_jobs (h : Shows w w') (u : String) : w'.jobs.lookup u = w.findJob u := by
  ext job
  rw [h.jobs.lookup_eq_some, UploadWorker.findJob_eq_some]

/-- The frames do not count. -/
theorem record (h : Shows w w') (entry : UploadEntry) (sent : List Message) :
    Shows (w.record entry) { w' with sent } :=
  ⟨h.inits, h.files, h.transfers, h.jobs, h.chunks, h.fresh⟩

theorem setChunks (h : Shows w w') (pendingChunks : List PendingChunk) :
    Shows { w with pendingChunks } { w' with pendingChunks } :=
  ⟨h.inits, h.files, h.transfers, h.jobs, rfl, h.fresh⟩

/-- The transfer of the upload changes. -/
theorem setTransfer (h : Shows w w') {t : AttachmentTransferState} (ht : w.findTransfer u = some t)
    (t' : AttachmentTransferState) : Shows { w with transfer := some (u, t') }
      { w' with transfers := w'.transfers.insert u t' } := by
  have htransfer := UploadWorker.findTransfer_eq_some.1 ht
  refine ⟨h.inits, h.files, h.transfers.insert (fun x hx => ?_) t', h.jobs, h.chunks,
    fun x hx => ?_⟩
  · rw [htransfer] at hx
    cases hx
    rfl
  · have hnone := (h.fresh x hx).1
    rw [htransfer] at hnone
    cases hnone

/-- The job of the upload changes. -/
theorem setJob (h : Shows w w') {job : AttachmentUploadJob} (hjob : w.findJob u = some job)
    (job' : AttachmentUploadJob) : Shows { w with job := some (u, job') }
      { w' with jobs := w'.jobs.insert u job' } := by
  have hsome := UploadWorker.findJob_eq_some.1 hjob
  refine ⟨h.inits, h.files, h.transfers, h.jobs.insert (fun x hx => ?_) job', h.chunks,
    fun x hx => ?_⟩
  · rw [hsome] at hx
    cases hx
    rfl
  · have hnone := (h.fresh x hx).2
    rw [hsome] at hnone
    cases hnone

/-- The job of the upload ends. -/
theorem dropJob (h : Shows w w') {job : AttachmentUploadJob} (hjob : w.findJob u = some job) :
    Shows { w with job := none } { w' with jobs := w'.jobs.erase u } := by
  have hjobs := h.jobs
  rw [UploadWorker.findJob_eq_some.1 hjob] at hjobs
  exact ⟨h.inits, h.files, h.transfers, hjobs.erase_entry, h.chunks, fun x hx =>
    ⟨(h.fresh x hx).1, rfl⟩⟩

theorem failTransfer (h : Shows w w') (u : String) :
    Shows (w.failTransfer u) (w'.failTransfer u) := by
  unfold UploadWorker.failTransfer UploadsWorker.failTransfer
  rw [h.lookup_transfers]
  cases ht : w.findTransfer u with
  | none => exact h
  | some t => exact h.setTransfer ht _

theorem sendAttachmentChunk (h : Shows w w') (d : UploadDraw) (uploadID : String)
    (chunk : TransferChunk) (commandID : String) :
    Shows (w.sendAttachmentChunk d uploadID chunk commandID)
      (w'.sendAttachmentChunk d uploadID chunk commandID) := by
  unfold UploadWorker.sendAttachmentChunk UploadsWorker.sendAttachmentChunk
  rw [h.lookup_transfers, h.chunks]
  split
  · exact h
  · cases ht : w.findTransfer (trimSpace uploadID) with
    | none => exact h
    | some t =>
      dsimp only
      cases t.registerChunkCommand (trimSpace commandID) chunk.index with
      | none => exact h
      | some t' =>
        dsimp only
        split_ifs
        · exact ((h.setTransfer ht t').setChunks _).record _ _
        · exact ((h.setTransfer ht t'.fail).setChunks _).record _ _

/-- The failed transfer leaves the job. -/
theorem findJob_failTransfer (w : UploadWorker) (u u' : String) :
    (w.failTransfer u).findJob u' = w.findJob u' := by
  unfold UploadWorker.failTransfer
  cases w.findTransfer u with
  | none => rfl
  | some t => rfl

theorem jobs_failTransfer (w' : UploadsWorker) (u : String) :
    (w'.failTransfer u).jobs = w'.jobs := by
  unfold UploadsWorker.failTransfer
  cases w'.transfers.lookup u with
  | none => rfl
  | some t => rfl

theorem abandon (h : Shows w w') {job : AttachmentUploadJob}
    (hjob : w.findJob (trimSpace u) = some job) : Shows (w.abandon u) (w'.abandon u) := by
  have hfail := (h.failTransfer (trimSpace u)).dropJob ((findJob_failTransfer w _ _).trans hjob)
  rw [jobs_failTransfer] at hfail
  exact hfail

theorem sendChunks (crypto : Crypto) (d : UploadDraw) (uploadID : String) (fuel : ℕ)
    (h : Shows w w') : Shows (UploadWorker.sendChunks crypto d uploadID fuel w)
      (UploadsWorker.sendChunks crypto d uploadID fuel w') := by
  induction fuel generalizing w w' with
  | zero => exact h
  | succ fuel ih =>
    unfold UploadWorker.sendChunks UploadsWorker.sendChunks
    rw [h.lookup_jobs]
    cases hjob : w.findJob (trimSpace uploadID) with
    | none => exact h
    | some job =>
      dsimp only
      split
      · exact h
      · cases encryptNextChunk crypto job.input job.key job.context with
        | error e => exact h.abandon hjob
        | ok sealed =>
          obtain ⟨chunk, endOfFile, input⟩ := sealed
          dsimp only
          split
          · exact h.abandon hjob
          · have hsent := (h.setJob hjob { job with
              input
              lastChunkSent := endOfFile
              context := { job.context with chunkIndex := job.context.chunkIndex + 1 }
              inFlightChunks := job.inFlightChunks + 1 }).sendAttachmentChunk d uploadID chunk
                (chunkCommand job.baseCommand chunk.index)
            rw [hsent.lookup_transfers]
            generalize UploadWorker.sendAttachmentChunk _ d uploadID chunk _ = next at hsent ⊢
            cases next.findTransfer (trimSpace uploadID) with
            | none => exact hsent
            | some t =>
              dsimp only
              split_ifs
              · exact hsent
              · exact ih hsent

theorem sendNextAttachmentChunk (h : Shows w w') (crypto : Crypto) (d : UploadDraw)
    (uploadID : String) : Shows (w.sendNextAttachmentChunk crypto d uploadID)
      (w'.sendNextAttachmentChunk crypto d uploadID) := by
  unfold UploadWorker.sendNextAttachmentChunk UploadsWorker.sendNextAttachmentChunk
  rw [h.lookup_jobs]
  cases w.findJob (trimSpace uploadID) with
  | none => exact h
  | some job => exact h.sendChunks crypto d uploadID _

theorem advanceJob (h : Shows w w') (crypto : Crypto) (d : UploadDraw) (uploadID : String) :
    Shows (w.advanceJob crypto d uploadID) (w'.advanceJob crypto d uploadID) := by
  unfold UploadWorker.advanceJob UploadsWorker.advanceJob
  rw [h.lookup_jobs]
  cases hjob : w.findJob uploadID with
  | none => exact h
  | some job =>
    dsimp only
    split_ifs
    · unfold UploadWorker.sendAttachmentCommit UploadsWorker.sendAttachmentCommit
      split_ifs
      · exact h.dropJob hjob
      · exact (h.dropJob hjob).record _ _
    · exact (h.setJob hjob _).sendNextAttachmentChunk crypto d uploadID

/-- The chunk of an index is the same one, whatever the order, when there is one. -/
theorem acknowledgedChunk (h : Shows w w') {m : Message}
    (hunique : ∀ p ∈ w.pendingChunks, ∀ q ∈ w.pendingChunks, p.uploadID = q.uploadID →
      p.chunkIndex = q.chunkIndex → p = q) : w'.acknowledgedChunk m = w.acknowledgedChunk m := by
  unfold UploadWorker.acknowledgedChunk UploadsWorker.acknowledgedChunk
  rw [h.chunks]
  cases w.pendingChunks.find? (·.commandID = m.commandID) with
  | some p => rfl
  | none =>
    dsimp only
    rw [← List.head?_filter]
    refine argmin_eq_head? (fun p : PendingChunk => utf16 p.commandID) fun p hp q hq => ?_
    obtain ⟨hp, hpkey⟩ := List.mem_filter.1 hp
    obtain ⟨hq, hqkey⟩ := List.mem_filter.1 hq
    rw [decide_eq_true_eq] at hpkey hqkey
    exact hunique p hp q hq (hpkey.1.trans hqkey.1.symm) (hpkey.2.trans hqkey.2.symm)

theorem receiveChunkAck (h : Shows w w') (crypto : Crypto) (d : UploadDraw) (m : Message)
    (hunique : ∀ p ∈ w.pendingChunks, ∀ q ∈ w.pendingChunks, p.uploadID = q.uploadID →
      p.chunkIndex = q.chunkIndex → p = q) :
    Shows (w.receiveChunkAck crypto d m) (w'.receiveChunkAck crypto d m) := by
  unfold UploadWorker.receiveChunkAck UploadsWorker.receiveChunkAck
  rw [h.acknowledgedChunk hunique, h.chunks]
  cases w.acknowledgedChunk m with
  | none => exact h
  | some p =>
    have hless := (h.setChunks (w.pendingChunks.filter (·.commandID ≠ p.commandID))).record
      (.acknowledged p.chunkIndex) w'.sent
    dsimp only
    have hlookup : w'.transfers.lookup p.uploadID = _ := hless.lookup_transfers p.uploadID
    rw [hlookup]
    generalize UploadWorker.record _ _ = next at hless ⊢
    cases ht : next.findTransfer p.uploadID with
    | none => exact hless
    | some t =>
      dsimp only
      split_ifs
      · exact (hless.setTransfer ht _).advanceJob crypto d _
      · exact hless.setTransfer ht _

theorem receiveError (h : Shows w w') (commandID : String) :
    Shows (w.receiveError commandID) (w'.receiveError commandID) := by
  have hinits : Shows { w with
      pendingInit := w.pendingInit.filter (·.1 ≠ commandID)
      pendingFile := w.pendingFile.filter (·.1 ≠ commandID) } { w' with
      pendingInits := w'.pendingInits.erase commandID
      pendingFiles := w'.pendingFiles.erase commandID } :=
    ⟨h.inits.erase _, h.files.erase _, h.transfers, h.jobs, h.chunks, fun x hx =>
      h.fresh x (Option.mem_filter_iff.1 hx).1⟩
  unfold UploadWorker.receiveError UploadsWorker.receiveError
  have hfind : w'.pendingChunks.find? (·.commandID = commandID) =
      w.pendingChunks.find? (·.commandID = commandID) := by
    rw [h.chunks]
  dsimp only
  rw [hfind]
  cases w.pendingChunks.find? (·.commandID = commandID) with
  | none => exact hinits
  | some p =>
    have hfail := hinits.failTransfer p.uploadID
    have hjobs := hfail.jobs.erase p.uploadID
    rw [jobs_failTransfer] at hjobs
    refine ⟨hfail.inits, hfail.files, hfail.transfers, hjobs, ?_, fun x hx => ?_⟩
    · dsimp only
      rw [UploadWorker.pendingChunks_failTransfer, h.chunks]
    · obtain ⟨htransfer, hjob⟩ := hfail.fresh x hx
      refine ⟨htransfer, ?_⟩
      dsimp only
      rw [hjob]
      rfl

theorem receiveResume (h : Shows w w') (m : Message) :
    Shows (w.receiveResume m) (w'.receiveResume m) := by
  unfold UploadWorker.receiveResume UploadsWorker.receiveResume
  rw [h.lookup_transfers]
  cases ht : w.findTransfer m.uploadID with
  | none => exact h
  | some t => exact h.setTransfer ht _

theorem receiveInit (h : Shows w w') (crypto : Crypto) (d : UploadDraw) (m : Message) :
    Shows (w.receiveInit crypto d m) (w'.receiveInit crypto d m) := by
  unfold UploadWorker.receiveInit UploadsWorker.receiveInit
  cases hinit : w.pendingInit with
  | none =>
    rw [h.inits m.commandID, hinit]
    exact h
  | some announced =>
    obtain ⟨command, t⟩ := announced
    dsimp only
    by_cases hcommand : command = m.commandID
    · subst hcommand
      obtain ⟨htransfer, hjob⟩ := h.fresh _ hinit
      have hinits := h.inits
      have htransfers := h.transfers
      have hjobs := h.jobs
      rw [hinit] at hinits
      rw [htransfer] at htransfers
      rw [hjob] at hjobs
      rw [hinits.lookup_eq_some.2 rfl, if_neg (not_not.2 rfl)]
      dsimp only
      cases t.acceptInit m.attachmentID m.uploadID m.chunkSize m.expiresAt with
      | none =>
        exact ⟨hinits.erase_entry, h.files, h.transfers, h.jobs, h.chunks, fun x hx => by cases hx⟩
      | some t' =>
        have haccepted : Shows { w with pendingInit := none, transfer := some (m.uploadID, t') }
            { w' with
              pendingInits := w'.pendingInits.erase m.commandID
              transfers := w'.transfers.insert m.uploadID t' } :=
          ⟨hinits.erase_entry, h.files, htransfers.insert (fun x hx => by cases hx) t', h.jobs,
            h.chunks, fun x hx => by cases hx⟩
        dsimp only
        cases hfile : w.pendingFile with
        | none =>
          rw [h.files m.commandID, hfile]
          rw [hfile] at haccepted
          exact haccepted
        | some waiting =>
          obtain ⟨fileCommand, file⟩ := waiting
          have hfiles := h.files
          rw [hfile] at haccepted hfiles
          dsimp only
          by_cases hwaits : fileCommand = m.commandID
          · subst hwaits
            rw [hfiles.lookup_eq_some.2 rfl, if_neg (not_not.2 rfl)]
            have hopened : Shows
                { w with pendingInit := none, transfer := some (m.uploadID, t'), pendingFile := none }
                { w' with
                  pendingInits := w'.pendingInits.erase m.commandID
                  transfers := w'.transfers.insert m.uploadID t'
                  pendingFiles := w'.pendingFiles.erase m.commandID } :=
              ⟨haccepted.inits, hfiles.erase_entry, haccepted.transfers, haccepted.jobs,
                haccepted.chunks, haccepted.fresh⟩
            dsimp only
            cases d.input with
            | none => exact hopened
            | some input =>
              refine Shows.sendNextAttachmentChunk ?_ crypto d m.uploadID
              exact ⟨hopened.inits, hopened.files, hopened.transfers,
                hjobs.insert (fun x hx => by cases hx) _, hopened.chunks, fun x hx => by cases hx⟩
          · rw [if_pos hwaits, h.files m.commandID, hfile]
            simp only [Option.filter, hwaits, decide_false]
            exact haccepted
    · rw [if_pos hcommand, h.inits m.commandID, hinit]
      simp only [Option.filter, hcommand, decide_false]
      exact h

/-- Every message. -/
theorem processAttachmentMessage (h : Shows w w') (crypto : Crypto) (m : Message) (d : UploadDraw)
    (hunique : ∀ p ∈ w.pendingChunks, ∀ q ∈ w.pendingChunks, p.uploadID = q.uploadID →
      p.chunkIndex = q.chunkIndex → p = q) :
    Shows (w.processAttachmentMessage crypto (m, d))
      (w'.processAttachmentMessage crypto m d) := by
  unfold UploadWorker.processAttachmentMessage UploadsWorker.processAttachmentMessage
  dsimp only
  cases m.type with
  | error => exact h.receiveError _
  | attachmentInit => exact h.receiveInit crypto d m
  | attachmentResume => exact h.receiveResume m
  | attachmentChunk => exact h.receiveChunkAck crypto d m hunique
  | _ => exact h

/-- The upload is announced. -/
theorem start (file : PendingAttachmentFile) (commandID : String) (sent : Bool) :
    Shows (UploadWorker.start file commandID sent)
      (UploadsWorker.startUpload {} file commandID sent true) := by
  have hfiles : OneEntry (some (trimSpace commandID, file))
      ((∅ : AList fun _ : String => PendingAttachmentFile).insert (trimSpace commandID) file) :=
    OneEntry.empty.insert (fun x hx => by cases hx) file
  -- the connection is asked first by the one worker and last by the other
  have horder : ∀ a b c d e : Prop, (a ∨ b ∨ c ∨ d ∨ e) ↔ (a ∨ e ∨ b ∨ c ∨ d) := by tauto
  unfold UploadWorker.start UploadsWorker.startUpload UploadsWorker.sendAttachmentInit
  rw [trimSpace_trimSpace]
  split
  · rename_i hrefused
    rw [if_pos ((horder ..).1 hrefused)]
    exact ⟨OneEntry.empty, hfiles, OneEntry.empty, OneEntry.empty, rfl, fun x hx => by cases hx⟩
  · rename_i haccepted
    rw [if_neg fun hrefused => haccepted ((horder ..).2 hrefused)]
    cases ({} : AttachmentTransferState).begin file.logicalSize plaintextChunkBytes with
    | none =>
      exact ⟨OneEntry.empty, hfiles, OneEntry.empty, OneEntry.empty, rfl, fun x hx => by cases hx⟩
    | some t =>
      exact ⟨OneEntry.empty.insert (fun x hx => by cases hx) t, hfiles, OneEntry.empty,
        OneEntry.empty, rfl, fun _ _ => ⟨rfl, rfl⟩⟩

end Shows

/-- The worker with one upload shows what the worker does when it is asked for this upload alone,
whatever the server sends and whichever frames cannot be sent. -/
theorem one_upload (crypto : Crypto) (file : PendingAttachmentFile) (commandID : String)
    (sent : Bool) (inputs : List (Message × UploadDraw)) :
    Shows (run (UploadWorker.processAttachmentMessage crypto)
        (UploadWorker.start file commandID sent) inputs)
      (run (UploadsWorker.step crypto) {} (.startUpload file commandID sent true ::
        inputs.map fun x => .message x.1 x.2)) := by
  have hrun : ∀ (inputs : List (Message × UploadDraw)) (w : UploadWorker) (w' : UploadsWorker),
      WorkerInv ((file.logicalSize + plaintextChunkBytes - 1) / plaintextChunkBytes)
        file.logicalSize (trimSpace commandID) w → Shows w w' →
      Shows (run (UploadWorker.processAttachmentMessage crypto) w inputs)
        (run (UploadsWorker.step crypto) w' (inputs.map fun x => .message x.1 x.2)) := by
    intro inputs
    induction inputs with
    | nil => exact fun _ _ _ h => h
    | cons x inputs ih =>
      intro w w' hw h
      refine ih _ _ (hw.processAttachmentMessage rfl crypto x)
        (h.processAttachmentMessage crypto x.1 x.2 fun p hp q hq hupload hindex => ?_)
      obtain ⟨c, u, i⟩ := p
      obtain ⟨c', u', i'⟩ := q
      obtain rfl : u = u' := hupload
      obtain rfl : i = i' := hindex
      rw [PendingChunk.mk.injEq]
      exact ⟨(hw.named _ hp).trans (hw.named _ hq).symm, rfl, rfl⟩
  exact hrun inputs _ _ (WorkerInv.start _ rfl commandID sent) (Shows.start file commandID sent)

end LanChat.Gui.Attachments
