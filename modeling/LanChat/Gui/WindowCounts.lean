import LanChat.Gui.ManyUploads

/-!
# The windows of several uploads

The counter of an upload says how many of its chunks are outstanding, as long as nothing is sent in
vain and no transfer is replaced or resumed under a job.

* `InStep`: the invariant, over all uploads, while the windows of the busy ones are being filled;
* `InStep.update`: what a step that concerns one upload has to show;
* `InStep.sendChunks`, `InStep.receiveChunkAck`, `InStep.receiveInit`, …: what each function keeps;
* `Undisturbed`: the inputs after which the counters are right;
* `window_counts`: they are right in every run of such inputs.
-/

namespace LanChat.Gui.Attachments

open GoStrings EventMachine
open Client (plaintextChunkBytes)

/-! ### The invariant -/

namespace UploadsWorker

variable {w w' : UploadsWorker} {busy : String → Prop} {u : String}

/-- An active upload: its transfer agrees with its job, and the commands that wait for the transfer
wait for the worker. -/
structure Active (w : UploadsWorker) (u : String) (job : AttachmentUploadJob)
    (t : AttachmentTransferState) : Prop where
  trimmed : trimSpace u = u
  named : u ≠ ""
  transfer : w.transfers.lookup u = some t
  agrees : Agrees job t
  waits : ∀ c ∈ t.pendingChunkCommands, (⟨c.1, u, c.2⟩ : PendingChunk) ∈ w.pendingChunks

/-- What is announced to the server and not yet accepted. -/
structure Announced (commandID : String) (t : AttachmentTransferState) : Prop where
  trimmed : trimSpace commandID = commandID
  named : commandID ≠ ""
  chunkSize : 0 < t.chunkSize
  received : t.received = ∅
  commands : t.pendingChunkCommands = []

/-- The three places are in step; the windows of the `busy` uploads are being filled. -/
structure InStep (w : UploadsWorker) (busy : String → Prop) : Prop where
  nodup : (w.pendingChunks.map PendingChunk.commandID).Nodup
  sent : ∀ p ∈ w.pendingChunks, w.HasSent p
  inits : ∀ c t, w.pendingInits.lookup c = some t → Announced c t
  active : ∀ u job, w.jobs.lookup u = some job → ∃ t, w.Active u job t
  bases : ∀ u u' job job', w.jobs.lookup u = some job → w.jobs.lookup u' = some job' →
    job.baseCommand = job'.baseCommand → u = u'
  full : ∀ u job, w.jobs.lookup u = some job → ¬ busy u → Full job

/-- The window of the busy upload has been filled, or its job is gone. -/
theorem InStep.settle (h : InStep w (· = u))
    (hfull : ∀ job, w.jobs.lookup u = some job → Full job) : InStep w fun _ => False where
  nodup := h.nodup
  sent := h.sent
  inits := h.inits
  active := h.active
  bases := h.bases
  full := by
    intro u' job hjob _
    by_cases hu : u' = u
    · exact hfull job (hu ▸ hjob)
    · exact h.full u' job hjob hu

/-- No other active upload has the base command of a job. -/
theorem InStep.base_ne (h : InStep w busy) {job : AttachmentUploadJob}
    (hjob : w.jobs.lookup u = some job) (u' : String) (job' : AttachmentUploadJob) (hu : u' ≠ u)
    (hjob' : w.jobs.lookup u' = some job') : job'.baseCommand ≠ job.baseCommand :=
  fun hbase => hu (h.bases u' u job' job hjob' hjob hbase)

/-- No two chunks wait under one command. -/
theorem InStep.eq_of_commandID (h : InStep w busy) {p q : PendingChunk} (hp : p ∈ w.pendingChunks)
    (hq : q ∈ w.pendingChunks) (hcommand : p.commandID = q.commandID) : p = q :=
  List.inj_on_of_nodup_map h.nodup hp hq hcommand

/-- The chunks of an active upload that are awaited are those whose commands wait for its transfer,
and the job counts them. -/
theorem InStep.length_awaited (h : InStep w busy) {job : AttachmentUploadJob}
    (hjob : w.jobs.lookup u = some job) : job.inFlightChunks = ((w.awaited u).length : ℤ) := by
  obtain ⟨t, ht⟩ := h.active u job hjob
  have hperm : ((w.awaited u).map fun p => (p.commandID, p.chunkIndex)).Perm
      t.pendingChunkCommands := by
    have hnodup : ((w.awaited u).map fun p => (p.commandID, p.chunkIndex)).Nodup := by
      refine List.Nodup.of_map Prod.fst ?_
      rw [List.map_map]
      exact h.nodup.sublist (List.filter_sublist.map _)
    refine (List.perm_ext_iff_of_nodup hnodup (List.Nodup.of_map _ ht.agrees.nodup)).2 ?_
    rintro ⟨c, i⟩
    rw [List.mem_map]
    constructor
    · rintro ⟨p, hp, heq⟩
      cases heq
      obtain ⟨-, hp⟩ := List.mem_filter.1 hp
      obtain ⟨rfl, -, haccepts⟩ := of_decide_eq_true hp
      unfold accepts at haccepts
      rw [ht.transfer] at haccepts
      exact ht.agrees.acceptChunkAck.1 haccepts
    · intro hc
      have hp := ht.waits _ hc
      refine ⟨⟨c, u, i⟩, List.mem_filter.2 ⟨hp, decide_eq_true ⟨rfl, h.sent _ hp, ?_⟩⟩, rfl⟩
      unfold accepts
      rw [ht.transfer]
      exact ht.agrees.acceptChunkAck.2 hc
  rw [ht.agrees.count, ← hperm.length_eq, List.length_map]

theorem InStep.counts (h : InStep w fun _ => False) : Counts w :=
  fun u job hjob => ⟨h.length_awaited hjob, h.full u job hjob not_false⟩

/-- A step that concerns one upload: the maps say the same about the other ones, and the chunks that
their transfers wait for are there. -/
theorem InStep.update (h : InStep w busy) (hbusy : ∀ u', busy u' → u' = u)
    (hnodup : (w'.pendingChunks.map PendingChunk.commandID).Nodup)
    (hsent : ∀ p ∈ w'.pendingChunks, w'.HasSent p)
    (hinits : ∀ c t, w'.pendingInits.lookup c = some t → Announced c t)
    (htransfers : ∀ u', u' ≠ u → w'.transfers.lookup u' = w.transfers.lookup u')
    (hjobs : ∀ u', u' ≠ u → w'.jobs.lookup u' = w.jobs.lookup u')
    (hwaits : ∀ u' job t, u' ≠ u → w.jobs.lookup u' = some job → w.Active u' job t →
      ∀ c ∈ t.pendingChunkCommands, (⟨c.1, u', c.2⟩ : PendingChunk) ∈ w'.pendingChunks)
    (hjob : ∀ job, w'.jobs.lookup u = some job → (∃ t, w'.Active u job t) ∧
      ∀ u' job', u' ≠ u → w.jobs.lookup u' = some job' → job'.baseCommand ≠ job.baseCommand) :
    InStep w' (· = u) where
  nodup := hnodup
  sent := hsent
  inits := hinits
  active := by
    intro u' job hjob'
    by_cases hu : u' = u
    · subst hu
      exact (hjob job hjob').1
    · rw [hjobs u' hu] at hjob'
      obtain ⟨t, ht⟩ := h.active u' job hjob'
      exact ⟨t, ht.trimmed, ht.named, (htransfers u' hu).trans ht.transfer, ht.agrees,
        hwaits u' job t hu hjob' ht⟩
  bases := by
    intro u₁ u₂ job₁ job₂ h₁ h₂ hbase
    by_cases hu₁ : u₁ = u
    · by_cases hu₂ : u₂ = u
      · rw [hu₁, hu₂]
      · subst hu₁
        rw [hjobs u₂ hu₂] at h₂
        exact absurd hbase.symm ((hjob job₁ h₁).2 u₂ job₂ hu₂ h₂)
    · rw [hjobs u₁ hu₁] at h₁
      by_cases hu₂ : u₂ = u
      · subst hu₂
        exact absurd hbase ((hjob job₂ h₂).2 u₁ job₁ hu₁ h₁)
      · rw [hjobs u₂ hu₂] at h₂
        exact h.bases u₁ u₂ job₁ job₂ h₁ h₂ hbase
  full := by
    intro u' job hjob' hu
    rw [hjobs u' hu] at hjob'
    exact h.full u' job hjob' fun hb => hu (hbusy u' hb)

theorem HasSent.mono {p : PendingChunk} (h : w.HasSent p) (hsent : ∀ m ∈ w.sent, m ∈ w'.sent) :
    w'.HasSent p := by
  obtain ⟨m, hm, hframe⟩ := h
  exact ⟨m, hsent m hm, hframe⟩

/-- The job of an upload ends, and chunks of this upload alone may be forgotten. -/
theorem InStep.endJob (h : InStep w busy) (hbusy : ∀ u', busy u' → u' = u)
    (hchunks : w'.pendingChunks.Sublist w.pendingChunks)
    (hkeep : ∀ p ∈ w.pendingChunks, p.uploadID ≠ u → p ∈ w'.pendingChunks)
    (hsent : ∀ m ∈ w.sent, m ∈ w'.sent)
    (hinits : ∀ c t, w'.pendingInits.lookup c = some t → Announced c t)
    (htransfers : ∀ u', u' ≠ u → w'.transfers.lookup u' = w.transfers.lookup u')
    (hgone : w'.jobs.lookup u = none)
    (hjobs : ∀ u', u' ≠ u → w'.jobs.lookup u' = w.jobs.lookup u') : InStep w' fun _ => False := by
  have hnone : ∀ job, w'.jobs.lookup u ≠ some job := by
    intro job hjob
    rw [hgone] at hjob
    cases hjob
  exact (h.update hbusy (h.nodup.sublist (hchunks.map _))
    (fun p hp => (h.sent p (hchunks.subset hp)).mono hsent) hinits htransfers hjobs
    (fun u' job t hu _ ht c hc => hkeep _ (ht.waits c hc) hu)
    fun job hjob => absurd hjob (hnone job)).settle fun job hjob => absurd hjob (hnone job)

theorem lookup_failTransfer_ne (w : UploadsWorker) {u' : String} (hu : u' ≠ u) :
    (w.failTransfer u).transfers.lookup u' = w.transfers.lookup u' := by
  unfold failTransfer
  split
  · exact AList.lookup_insert_ne hu
  · rfl

@[simp] theorem pendingChunks_failTransfer (w : UploadsWorker) (u : String) :
    (w.failTransfer u).pendingChunks = w.pendingChunks := by
  unfold failTransfer
  split <;> rfl

@[simp] theorem pendingInits_failTransfer (w : UploadsWorker) (u : String) :
    (w.failTransfer u).pendingInits = w.pendingInits := by
  unfold failTransfer
  split <;> rfl

@[simp] theorem sent_failTransfer (w : UploadsWorker) (u : String) :
    (w.failTransfer u).sent = w.sent := by
  unfold failTransfer
  split <;> rfl

theorem InStep.abandon (h : InStep w (· = u)) (hu : trimSpace u = u) :
    InStep (w.abandon u) fun _ => False := by
  unfold UploadsWorker.abandon
  rw [hu]
  refine h.endJob (fun _ hb => hb) ?_ ?_ ?_ ?_ (fun u' hne => w.lookup_failTransfer_ne hne)
    (AList.lookup_erase _ _) fun u' hne => AList.lookup_erase_ne hne
  · simp
  · simp +contextual
  · simp
  · simpa using h.inits

end UploadsWorker

/-! ### The window is filled -/

/-- The connection is ready for the next chunks of an upload, `room` of them at most, and takes
them. -/
def UploadDraw.Takes (d : UploadDraw) (context : ChunkContext) (room : ℤ) : Prop :=
  ∀ i, context.chunkIndex ≤ i → i < context.chunkIndex + room → i < chunkCount context →
    d.ready i = true ∧ d.sends i = true

namespace UploadsWorker

variable {w : UploadsWorker} {u : String} {job : AttachmentUploadJob} {t : AttachmentTransferState}

/-- A chunk that is not refused and that the connection takes. -/
theorem sendAttachmentChunk_taken {d : UploadDraw} {chunk : TransferChunk} {c : String}
    {t' : AttachmentTransferState} (hready : d.ready chunk.index = true)
    (hsends : d.sends chunk.index = true) (hu : trimSpace u = u) (hnamed : u ≠ "")
    (hpos : 0 ≤ chunk.index) (hcipher : chunk.ciphertext ≠ [])
    (hdigest : chunk.cipherSha256.utf8ByteSize = 64) (hc : trimSpace c = c) (hcommand : c ≠ "")
    (ht : w.transfers.lookup u = some t)
    (hregister : t.registerChunkCommand c chunk.index = some t') :
    w.sendAttachmentChunk d u chunk c = { w with
      transfers := w.transfers.insert u t'
      pendingChunks := w.pendingChunks.filter (·.commandID ≠ c) ++ [⟨c, u, chunk.index⟩]
      sent := w.sent ++ [UploadWorker.chunkMessage u chunk c] } := by
  unfold sendAttachmentChunk
  rw [hu, hc, if_neg]
  · simp only [ht, hregister, hsends, if_true]
  · rintro (h | h | h | h | h | h)
    · simp [hready] at h
    · exact hnamed h
    · omega
    · exact hcipher h
    · exact h hdigest
    · exact hcommand h

/-- One more chunk waits, in the place of one under the same command. -/
theorem InStep.nodup_concat {busy : String → Prop} (h : InStep w busy) (p : PendingChunk) :
    ((w.pendingChunks.filter (·.commandID ≠ p.commandID) ++ [p]).map
      PendingChunk.commandID).Nodup := by
  rw [List.map_append, List.nodup_append]
  refine ⟨h.nodup.sublist (List.filter_sublist.map _), List.nodup_singleton _, ?_⟩
  rintro x hx y hy rfl
  obtain ⟨q, hq, rfl⟩ := List.mem_map.1 hx
  rw [List.map_singleton, List.mem_singleton] at hy
  exact of_decide_eq_true (List.mem_filter.1 hq).2 hy

theorem InStep.sent_concat {busy : String → Prop} (h : InStep w busy) {p : PendingChunk}
    {w' : UploadsWorker} {m : Message} (hsent : w'.sent = w.sent ++ [m])
    (hm : m.type = .attachmentChunk ∧ m.uploadID = p.uploadID ∧ m.chunkIndex = p.chunkIndex ∧
      m.commandID = p.commandID) :
    ∀ q ∈ w.pendingChunks.filter (·.commandID ≠ p.commandID) ++ [p], w'.HasSent q := by
  intro q hq
  rcases List.mem_append.1 hq with hq | hq
  · refine (h.sent q (List.mem_of_mem_filter hq)).mono fun m' hm' => ?_
    rw [hsent]
    exact List.mem_append_left _ hm'
  · rw [List.mem_singleton.1 hq]
    refine ⟨m, ?_, hm⟩
    rw [hsent]
    exact List.mem_append_right _ (List.mem_singleton_self _)

/-- The next chunk of an upload is sent; it waits under its own command, which no other upload
has. -/
theorem InStep.nextChunk (h : InStep w (· = u)) (hjob : w.jobs.lookup u = some job)
    (ht : w.Active u job t) (hmore : job.lastChunkSent = false) (input : Device) {m : Message}
    (hm : m.type = .attachmentChunk ∧ m.uploadID = u ∧ m.chunkIndex = job.context.chunkIndex ∧
      m.commandID = chunkCommand job.baseCommand job.context.chunkIndex) :
    let c := chunkCommand job.baseCommand job.context.chunkIndex
    let w' : UploadsWorker := { w with
      jobs := w.jobs.insert u (Agrees.nextJob job input)
      transfers := w.transfers.insert u (Agrees.nextTransfer job t)
      pendingChunks := w.pendingChunks.filter (·.commandID ≠ c) ++
        [⟨c, u, job.context.chunkIndex⟩]
      sent := w.sent ++ [m] }
    InStep w' (· = u) ∧ w'.Active u (Agrees.nextJob job input) (Agrees.nextTransfer job t) := by
  intro c w'
  have hactive : w'.Active u (Agrees.nextJob job input) (Agrees.nextTransfer job t) := by
    refine ⟨ht.trimmed, ht.named, AList.lookup_insert _, ht.agrees.next hmore input, fun x hx => ?_⟩
    rcases List.mem_append.1 hx with hx | hx
    · refine List.mem_append_left _ (List.mem_filter.2 ⟨ht.waits x hx, ?_⟩)
      rw [decide_eq_true_eq]
      intro hsame
      exact ht.agrees.not_mem_commands (List.mem_map.2 ⟨x, hx, hsame⟩)
    · rw [List.mem_singleton.1 hx]
      exact List.mem_append_right _ (List.mem_singleton_self _)
  refine ⟨h.update (fun _ hb => hb) (h.nodup_concat ⟨c, u, job.context.chunkIndex⟩)
    (h.sent_concat (p := ⟨c, u, job.context.chunkIndex⟩) rfl hm) h.inits
    (fun u' hu => AList.lookup_insert_ne hu) (fun u' hu => AList.lookup_insert_ne hu) ?_ ?_,
    hactive⟩
  · intro u' job' t' hu hjob' ht' x hx
    refine List.mem_append_left _ (List.mem_filter.2 ⟨ht'.waits x hx, ?_⟩)
    rw [decide_eq_true_eq]
    intro hsame
    obtain ⟨hcommand, hpos, -, -⟩ := ht'.agrees.commands x hx
    rw [hcommand] at hsame
    exact h.base_ne hjob u' job' hu hjob' (chunkCommand_inj hpos ht.agrees.pos hsame).1
  · intro job' hjob'
    rw [AList.lookup_insert] at hjob'
    cases hjob'
    exact ⟨⟨_, hactive⟩, fun u' job' hu hjob' hbase => h.base_ne hjob u' job' hu hjob' hbase⟩

/-- The file of a job has all the bytes that are still to be sent. -/
structure Supplied (job : AttachmentUploadJob) : Prop where
  readable : job.input.readable = true
  valid : validContext job.context = true
  small : job.context.chunkSize ≤ 2147483647
  rest : job.context.logicalSize - job.context.chunkIndex * job.context.chunkSize ≤
    job.input.rest.length

/-- The next chunk can be read and encrypted. -/
theorem Supplied.next (crypto : Crypto) (h : Supplied job)
    (hmore : job.context.chunkIndex < chunkCount job.context) : ∃ chunk input,
      encryptNextChunk crypto job.input job.key job.context =
        .ok (chunk, decide (chunkCount job.context ≤ job.context.chunkIndex + 1), input) ∧
      chunk.ciphertext ≠ [] ∧ Supplied (Agrees.nextJob job input) := by
  obtain ⟨hreadable, hvalid, hsmall, hrest⟩ := h
  have hcontext := hvalid
  unfold validContext at hcontext
  simp only [Bool.and_eq_true, decide_eq_true_eq] at hcontext
  obtain ⟨⟨⟨hnames, hsize⟩, hchunk⟩, hindex⟩ := hcontext
  set size := job.context.logicalSize - job.context.chunkIndex * job.context.chunkSize with hleft
  have hpos : 0 < size := by
    have hmul := (Int.le_ediv_iff_mul_le hchunk).1 (Int.add_one_le_of_lt hmore)
    rw [add_mul, one_mul] at hmul
    omega
  obtain ⟨n, hn⟩ : ∃ n : ℕ, min job.context.chunkSize size = n :=
    ⟨_, (Int.toNat_of_nonneg (by omega)).symm⟩
  have htake : (job.input.rest.take n).length = n := by
    rw [List.length_take]
    omega
  obtain ⟨ciphertext, hcipher, hlength⟩ : ∃ ciphertext,
      encrypt crypto job.key job.context (job.input.rest.take n) = some ciphertext ∧
        ciphertext.length = n + tagSize := by
    unfold encrypt
    rw [if_neg (by simp [hvalid]; omega)]
    refine ⟨_, rfl, ?_⟩
    rw [crypto.gcm.length_seal, htake]
  have hencrypt : encryptNextChunk crypto job.input job.key job.context = .ok
      (⟨job.context.chunkIndex, ciphertext, crypto.sha256Hex ciphertext⟩,
        decide (chunkCount job.context ≤ job.context.chunkIndex + 1),
        { job.input with rest := job.input.rest.drop n }) := by
    unfold encryptNextChunk
    rw [if_neg (by simp [hreadable]; omega)]
    dsimp only
    rw [← hleft, if_neg (not_le.2 hpos), hn, Int.toNat_natCast, htake, if_neg (not_not.2 rfl),
      hcipher]
  refine ⟨_, _, hencrypt, ?_, hreadable, ?_, hsmall, ?_⟩
  · refine List.ne_nil_of_length_pos ?_
    rw [hlength]
    exact Nat.lt_add_left _ (by decide)
  · unfold validContext Agrees.nextJob
    simp only [Bool.and_eq_true, decide_eq_true_eq]
    exact ⟨⟨⟨hnames, hsize⟩, hchunk⟩, by omega⟩
  · dsimp only [Agrees.nextJob]
    rw [List.length_drop, add_mul, one_mul]
    omega

/-- The job of an upload is still there, and counts every chunk that has been sent since. -/
def GoesOn (w : UploadsWorker) (u : String) (job : AttachmentUploadJob) : Prop :=
  ∃ job', w.jobs.lookup u = some job' ∧ Supplied job' ∧
    chunkCount job'.context = chunkCount job.context ∧
    job'.inFlightChunks - job.inFlightChunks = job'.context.chunkIndex - job.context.chunkIndex

/-- The window is filled, and a job with a file as long as announced goes on: the induction is on
the room that is left in the window. -/
theorem InStep.sendChunks {crypto : Crypto}
    (hdigest : ∀ bytes, (crypto.sha256Hex bytes).utf8ByteSize = 64) {d : UploadDraw} {fuel : ℕ}
    (h : InStep w (· = u)) (hjob : w.jobs.lookup u = some job)
    (hroom : job.inFlightChunks + fuel = windowSize)
    (hgoes : job.lastChunkSent = true → 0 < job.inFlightChunks)
    (htakes : d.Takes job.context fuel) :
    InStep (UploadsWorker.sendChunks crypto d u fuel w) (fun _ => False) ∧
      (Supplied job → GoesOn (UploadsWorker.sendChunks crypto d u fuel w) u job) := by
  induction fuel generalizing w job with
  | zero =>
    -- the window is full
    refine ⟨h.settle fun job' hjob' => ?_, fun hs => ⟨job, hjob, hs, rfl, by omega⟩⟩
    obtain rfl := Option.some.inj (hjob.symm.trans hjob')
    have hfull : job.inFlightChunks = windowSize := by simpa using hroom
    exact ⟨by rw [hfull]; decide, hfull.le, .inr hfull⟩
  | succ fuel ih =>
    obtain ⟨t, ht⟩ := h.active u job hjob
    unfold UploadsWorker.sendChunks
    rw [ht.trimmed]
    simp only [hjob]
    split_ifs with hlast
    · refine ⟨h.settle fun job' hjob' => ?_, fun hs => ⟨job, hjob, hs, rfl, by omega⟩⟩
      obtain rfl := Option.some.inj (hjob.symm.trans hjob')
      push_cast at hroom
      rcases hlast with hlast | hfull
      · exact ⟨hgoes hlast, by omega, .inl hlast⟩
      · omega
    · rw [not_or, Bool.not_eq_true] at hlast
      have hmore := ht.agrees.last
      rw [hlast.1, if_neg (by decide)] at hmore
      split
      · rename_i e hencrypt
        refine ⟨h.abandon ht.trimmed, fun hs => ?_⟩
        obtain ⟨_, _, hnext, -⟩ := hs.next crypto hmore
        rw [hencrypt] at hnext
        cases hnext
      · rename_i chunk endOfFile input hencrypt
        have hsupplied : Supplied job →
            chunk.ciphertext ≠ [] ∧ Supplied (Agrees.nextJob job input) := by
          intro hs
          obtain ⟨_, _, hnext, hcipher, hs'⟩ := hs.next crypto hmore
          rw [hencrypt] at hnext
          cases hnext
          exact ⟨hcipher, hs'⟩
        split_ifs with hend
        · exact ⟨h.abandon ht.trimmed, fun hs => absurd hend.2 (hsupplied hs).1⟩
        · obtain ⟨hindex, rfl, hcipher, hsha⟩ := encryptNextChunk_spec hencrypt hend
          push_cast at hroom htakes
          obtain ⟨hready, hsends⟩ := htakes job.context.chunkIndex le_rfl (by omega) hmore
          have hregister := ht.agrees.register hlast.1
          rw [← hindex] at hready hsends hregister
          obtain ⟨hnext, hactive⟩ := h.nextChunk hjob ht hlast.1 input
            (m := UploadWorker.chunkMessage u chunk (chunkCommand job.baseCommand chunk.index))
            ⟨rfl, rfl, hindex, by rw [hindex]; rfl⟩
          have hpos : 0 ≤ chunk.index := by
            rw [hindex]
            exact ht.agrees.pos
          -- the chunk is taken, so that the count and the pending chunks grow together
          have hsent := sendAttachmentChunk_taken
            (w := { w with jobs := w.jobs.insert u (Agrees.nextJob job input) }) hready hsends
            ht.trimmed ht.named hpos hcipher (by rw [hsha, hdigest])
            (trimSpace_chunkCommand ht.agrees.base ht.agrees.named hpos) (chunkCommand_ne _ _)
            ht.transfer hregister
          rw [hindex] at hsent hnext hactive
          unfold Agrees.nextJob at hsent
          rw [hindex]
          dsimp only at hsent ⊢
          rw [hsent]
          simp only [AList.lookup_insert]
          rw [if_neg (by rw [hactive.agrees.uploading]; decide)]
          obtain ⟨hfilled, hgoes'⟩ := ih hnext (AList.lookup_insert _)
            (by dsimp only [Agrees.nextJob]; omega)
            (fun _ => by
              have hcount := ht.agrees.count
              dsimp only [Agrees.nextJob]
              omega)
            fun i hle hlt => by
              dsimp only [Agrees.nextJob] at hle hlt
              exact htakes i (by omega) (by omega)
          refine ⟨hfilled, fun hs => ?_⟩
          obtain ⟨job', hjob', hs', hcount', hle⟩ := hgoes' (hsupplied hs).2
          dsimp only [Agrees.nextJob] at hle
          exact ⟨job', hjob', hs', hcount', by omega⟩

theorem InStep.sendNextAttachmentChunk {crypto : Crypto}
    (hdigest : ∀ bytes, (crypto.sha256Hex bytes).utf8ByteSize = 64) {d : UploadDraw}
    (h : InStep w (· = u)) (hjob : w.jobs.lookup u = some job)
    (hwindow : job.inFlightChunks ≤ windowSize)
    (hgoes : job.lastChunkSent = true → 0 < job.inFlightChunks)
    (htakes : d.Takes job.context (windowSize - job.inFlightChunks)) :
    InStep (w.sendNextAttachmentChunk crypto d u) (fun _ => False) ∧
      (Supplied job → (w.sendNextAttachmentChunk crypto d u).GoesOn u job) := by
  obtain ⟨t, ht⟩ := h.active u job hjob
  have hroom : ((windowSize - job.inFlightChunks).toNat : ℤ) = windowSize - job.inFlightChunks :=
    Int.toNat_of_nonneg (by omega)
  unfold UploadsWorker.sendNextAttachmentChunk
  rw [ht.trimmed]
  simp only [hjob]
  exact h.sendChunks hdigest hjob (by omega) hgoes (by rwa [hroom])

end UploadsWorker

/-! ### Acknowledgements -/

namespace UploadsWorker

variable {w : UploadsWorker} {u : String} {job : AttachmentUploadJob} {t : AttachmentTransferState}

theorem mem_of_acknowledgedChunk {m : Message} {p : PendingChunk}
    (h : w.acknowledgedChunk m = some p) : p ∈ w.pendingChunks := by
  unfold acknowledgedChunk at h
  split at h
  · rename_i hfind
    cases h
    exact List.mem_of_find?_eq_some hfind
  · exact List.mem_of_mem_filter (List.argmin_mem h)

/-- A chunk that waits stays when another one no longer does. -/
theorem InStep.mem_filter {busy : String → Prop} (h : InStep w busy) {p q : PendingChunk}
    (hp : p ∈ w.pendingChunks) (hq : q ∈ w.pendingChunks) (hne : q.uploadID ≠ p.uploadID) :
    q ∈ w.pendingChunks.filter (·.commandID ≠ p.commandID) := by
  refine List.mem_filter.2 ⟨hq, ?_⟩
  rw [decide_eq_true_eq]
  intro hsame
  exact hne (congrArg _ (h.eq_of_commandID hq hp hsame))

/-- A chunk whose acknowledgement is not accepted is forgotten. -/
theorem InStep.forget (h : InStep w fun _ => False) {p : PendingChunk} (hp : p ∈ w.pendingChunks)
    {transfers : AList fun _ : String => AttachmentTransferState}
    (htransfers : ∀ u', u' ≠ p.uploadID → transfers.lookup u' = w.transfers.lookup u')
    (hactive : ∀ job t, w.jobs.lookup p.uploadID = some job → w.Active p.uploadID job t →
      transfers.lookup p.uploadID = some t ∧ (p.commandID, p.chunkIndex) ∉ t.pendingChunkCommands) :
    InStep { w with
      pendingChunks := w.pendingChunks.filter (·.commandID ≠ p.commandID)
      transfers } fun _ => False := by
  refine InStep.settle (h.update (fun _ hb => hb.elim) (h.nodup.sublist (List.filter_sublist.map _))
    (fun q hq => h.sent q (List.mem_of_mem_filter hq)) h.inits htransfers (fun _ _ => rfl)
    (fun u' job t hu _ ht c hc => h.mem_filter hp (ht.waits c hc) hu) fun job hjob => ?_)
    fun job hjob => h.full p.uploadID job hjob not_false
  obtain ⟨t, ht⟩ := h.active _ job hjob
  obtain ⟨htransfer, hnot⟩ := hactive job t hjob ht
  refine ⟨⟨t, ht.trimmed, ht.named, htransfer, ht.agrees, fun c hc => ?_⟩, h.base_ne hjob⟩
  refine List.mem_filter.2 ⟨ht.waits c hc, ?_⟩
  rw [decide_eq_true_eq]
  intro hsame
  have heq := h.eq_of_commandID (ht.waits c hc) hp hsame
  rw [← heq] at hnot
  exact hnot hc

/-- An accepted acknowledgement, before the job goes on. -/
theorem InStep.acknowledge (h : InStep w fun _ => False) {p : PendingChunk}
    (hp : p ∈ w.pendingChunks) (hjob : w.jobs.lookup p.uploadID = some job)
    (ht : w.Active p.uploadID job t)
    (haccepted : (t.acceptChunkAck p.commandID p.chunkIndex).1 = true)
    (hgoes : ¬ (job.lastChunkSent = true ∧ job.inFlightChunks - 1 = 0)) :
    InStep { w with
      pendingChunks := w.pendingChunks.filter (·.commandID ≠ p.commandID)
      transfers := w.transfers.insert p.uploadID (t.acceptChunkAck p.commandID p.chunkIndex).2
      jobs := w.jobs.insert p.uploadID { job with inFlightChunks := job.inFlightChunks - 1 } }
      (· = p.uploadID) := by
  have hc := ht.agrees.acceptChunkAck.1 haccepted
  obtain ⟨-, hcommands, -, -⟩ := AttachmentTransferState.acceptChunkAck_fields haccepted
  refine h.update (fun _ hb => hb.elim) (h.nodup.sublist (List.filter_sublist.map _))
    (fun q hq => h.sent q (List.mem_of_mem_filter hq)) h.inits
    (fun u' hu => AList.lookup_insert_ne hu) (fun u' hu => AList.lookup_insert_ne hu)
    (fun u' job t hu _ ht c hc => h.mem_filter hp (ht.waits c hc) hu) fun job' hjob' => ?_
  rw [AList.lookup_insert] at hjob'
  cases hjob'
  refine ⟨⟨_, ht.trimmed, ht.named, AList.lookup_insert _, ht.agrees.acknowledge hc hgoes,
    fun x hx => ?_⟩, fun u' job' hu hjob' hbase => h.base_ne hjob u' job' hu hjob' hbase⟩
  rw [hcommands] at hx
  obtain ⟨hx, hne⟩ := List.mem_filter.1 hx
  exact List.mem_filter.2 ⟨ht.waits x hx, hne⟩

/-- The last chunk of an upload has been acknowledged: the commit, and the job is over. -/
theorem InStep.commit (h : InStep w fun _ => False) {p : PendingChunk} (hp : p ∈ w.pendingChunks)
    (t' : AttachmentTransferState) (d : UploadDraw) (commandID : String) :
    let w' : UploadsWorker := { w with
      pendingChunks := w.pendingChunks.filter (·.commandID ≠ p.commandID)
      transfers := w.transfers.insert p.uploadID t' }
    InStep { w'.sendAttachmentCommit d p.uploadID commandID with jobs := w.jobs.erase p.uploadID }
      fun _ => False := by
  intro w'
  unfold sendAttachmentCommit
  split_ifs
  · exact h.endJob (fun _ hb => hb.elim) List.filter_sublist
      (fun q hq hne => h.mem_filter hp hq hne) (fun m hm => hm) h.inits
      (fun u' hu => AList.lookup_insert_ne hu) (AList.lookup_erase _ _)
      fun u' hu => AList.lookup_erase_ne hu
  · exact h.endJob (fun _ hb => hb.elim) List.filter_sublist
      (fun q hq hne => h.mem_filter hp hq hne) (fun m hm => List.mem_append_left _ hm) h.inits
      (fun u' hu => AList.lookup_insert_ne hu) (AList.lookup_erase _ _)
      fun u' hu => AList.lookup_erase_ne hu

/-- An accepted acknowledgement, and the next chunk. -/
theorem InStep.advance {crypto : Crypto}
    (hdigest : ∀ bytes, (crypto.sha256Hex bytes).utf8ByteSize = 64) {d : UploadDraw}
    (h : InStep w fun _ => False) {p : PendingChunk} (hp : p ∈ w.pendingChunks)
    (hjob : w.jobs.lookup p.uploadID = some job) (ht : w.Active p.uploadID job t)
    (haccepted : (t.acceptChunkAck p.commandID p.chunkIndex).1 = true)
    (hgoes : ¬ (job.lastChunkSent = true ∧ job.inFlightChunks - 1 = 0))
    (htakes : d.Takes job.context 1) :
    let w' := UploadsWorker.sendNextAttachmentChunk crypto { w with
      pendingChunks := w.pendingChunks.filter (·.commandID ≠ p.commandID)
      transfers := w.transfers.insert p.uploadID (t.acceptChunkAck p.commandID p.chunkIndex).2
      jobs := w.jobs.insert p.uploadID { job with inFlightChunks := job.inFlightChunks - 1 } }
      d p.uploadID
    InStep w' (fun _ => False) ∧
      (Supplied job →
        w'.GoesOn p.uploadID { job with inFlightChunks := job.inFlightChunks - 1 }) := by
  intro w'
  obtain ⟨hpos, hle, hwindow⟩ := h.full _ job hjob not_false
  have hlast := ht.agrees.last
  have hboth := (h.acknowledge hp hjob ht haccepted hgoes).sendNextAttachmentChunk hdigest
    (d := d) (AList.lookup_insert _) ((Int.sub_le_self _ (by decide)).trans hle)
    (fun hsent => by
      have hmore : job.inFlightChunks - 1 ≠ 0 := fun hzero => hgoes ⟨hsent, hzero⟩
      dsimp only
      omega)
    fun i hnext hroom hcount => by
      dsimp only at hnext hroom hcount
      rcases hwindow with hsent | hfull
      · rw [if_pos hsent] at hlast
        omega
      · exact htakes i hnext (by omega) hcount
  exact ⟨hboth.1, fun hs => hboth.2 ⟨hs.readable, hs.valid, hs.small, hs.rest⟩⟩

theorem InStep.acknowledgedChunk_eq {busy : String → Prop} (h : InStep w busy) {p : PendingChunk}
    (hp : p ∈ w.pendingChunks) {m : Message} (hm : m.commandID = p.commandID) :
    w.acknowledgedChunk m = some p := by
  unfold acknowledgedChunk
  cases hfind : w.pendingChunks.find? (·.commandID = m.commandID) with
  | none => exact absurd hm.symm (by simpa using List.find?_eq_none.1 hfind p hp)
  | some q =>
    have hq : q.commandID = m.commandID := by simpa using List.find?_some hfind
    rw [h.eq_of_commandID (List.mem_of_find?_eq_some hfind) hp (hq.trans hm)]

/-- Before the last chunk the window is full. -/
theorem InStep.window_full (h : InStep w fun _ => False) (hjob : w.jobs.lookup u = some job)
    (hmore : job.context.chunkIndex < chunkCount job.context) :
    job.lastChunkSent = false ∧ job.inFlightChunks = windowSize := by
  obtain ⟨t, ht⟩ := h.active u job hjob
  have hlast := ht.agrees.last
  have hwindow := (h.full u job hjob not_false).2.2
  split_ifs at hlast with hsent
  · omega
  · exact ⟨by simpa using hsent, hwindow.resolve_left hsent⟩

/-- An acknowledgement refills the window: while chunks are left, the next one is sent. -/
theorem InStep.refill {crypto : Crypto}
    (hdigest : ∀ bytes, (crypto.sha256Hex bytes).utf8ByteSize = 64) {d : UploadDraw}
    (h : InStep w fun _ => False) (hjob : w.jobs.lookup u = some job) (hs : Supplied job)
    (hmore : job.context.chunkIndex + 1 < chunkCount job.context) {p : PendingChunk}
    (hp : p ∈ w.awaited u) {m : Message} (hm : m.commandID = p.commandID)
    (htakes : d.Takes job.context 1) :
    ∃ job', (w.receiveChunkAck crypto d m).jobs.lookup u = some job' ∧
      job'.inFlightChunks = windowSize ∧
      job'.context.chunkIndex = job.context.chunkIndex + 1 := by
  obtain ⟨hlast, hfull⟩ := h.window_full hjob (by omega)
  obtain ⟨t, ht⟩ := h.active u job hjob
  obtain ⟨hmem, hp⟩ := List.mem_filter.1 hp
  obtain ⟨rfl, -, haccepts⟩ := of_decide_eq_true hp
  unfold accepts at haccepts
  rw [ht.transfer] at haccepts
  have haccepted : (t.acceptChunkAck p.commandID p.chunkIndex).1 = true := haccepts
  have hgoes : ¬ (job.lastChunkSent = true ∧ job.inFlightChunks - 1 = 0) := by simp [hlast]
  obtain ⟨hinstep, hgoesOn⟩ := h.advance hdigest hmem hjob ht haccepted hgoes htakes
  have hstep : w.receiveChunkAck crypto d m = UploadsWorker.sendNextAttachmentChunk crypto { w with
      pendingChunks := w.pendingChunks.filter (·.commandID ≠ p.commandID)
      transfers := w.transfers.insert p.uploadID (t.acceptChunkAck p.commandID p.chunkIndex).2
      jobs := w.jobs.insert p.uploadID { job with inFlightChunks := job.inFlightChunks - 1 } }
      d p.uploadID := by
    unfold UploadsWorker.receiveChunkAck
    rw [h.acknowledgedChunk_eq hmem hm]
    dsimp only
    rw [ht.transfer]
    dsimp only
    rw [if_pos haccepted]
    unfold UploadsWorker.advanceJob
    dsimp only
    rw [hjob]
    dsimp only
    rw [if_neg hgoes]
  rw [hstep]
  obtain ⟨job', hjob', -, hcount, hsent⟩ := hgoesOn hs
  have hle := (hinstep.full _ job' hjob' not_false).2.1
  dsimp only at hcount hsent
  have hmore' : job'.context.chunkIndex < chunkCount job'.context := by
    rw [hcount]
    omega
  have hfull' := (hinstep.window_full hjob' hmore').2
  exact ⟨job', hjob', hfull', by omega⟩

/-- Acknowledgements: the next chunk, if there is one, is taken when the acknowledgement is
accepted. -/
def GoodAck (w : UploadsWorker) (m : Message) (d : UploadDraw) : Prop :=
  ∀ p job t, w.acknowledgedChunk m = some p → w.jobs.lookup p.uploadID = some job →
    w.transfers.lookup p.uploadID = some t →
      (t.acceptChunkAck p.commandID p.chunkIndex).1 = true → d.Takes job.context 1

theorem InStep.receiveChunkAck {crypto : Crypto}
    (hdigest : ∀ bytes, (crypto.sha256Hex bytes).utf8ByteSize = 64) {d : UploadDraw} {m : Message}
    (h : InStep w fun _ => False) (hgood : w.GoodAck m d) :
    InStep (w.receiveChunkAck crypto d m) fun _ => False := by
  unfold UploadsWorker.receiveChunkAck
  split
  · exact h
  · rename_i p hp
    have hmem := mem_of_acknowledgedChunk hp
    dsimp only
    split
    · rename_i hnone
      refine h.forget hmem (fun _ _ => rfl) fun job t hjob ht => ?_
      rw [ht.transfer] at hnone
      cases hnone
    · rename_i t htransfer
      have hsame : ∀ job t', w.Active p.uploadID job t' → t' = t := fun job t' ht' =>
        Option.some.inj (ht'.transfer.symm.trans htransfer)
      split_ifs with haccepted
      · unfold UploadsWorker.advanceJob
        dsimp only
        split
        · rename_i hnone
          refine h.forget hmem (fun u' hu => AList.lookup_insert_ne hu) fun job t hjob ht => ?_
          rw [hjob] at hnone
          cases hnone
        · rename_i job hjob
          obtain ⟨t', ht⟩ := h.active _ job hjob
          obtain rfl := hsame job t' ht
          have htakes := hgood p job t' hp hjob htransfer haccepted
          split_ifs with hdone
          · exact h.commit hmem _ d _
          · exact (h.advance hdigest hmem hjob ht haccepted hdone htakes).1
      · refine h.forget hmem (fun u' hu => AList.lookup_insert_ne hu) fun job t' hjob ht => ?_
        obtain rfl := hsame job t' ht
        rw [AttachmentTransferState.acceptChunkAck_refused ht.agrees.uploading
          (fun c hc => ht.agrees.validIndex hc) ht.agrees.nodup haccepted]
        exact ⟨AList.lookup_insert _, fun hc => haccepted (ht.agrees.acceptChunkAck.2 hc)⟩

/-! ### The other inputs -/

/-- What is announced concerns no active upload. -/
theorem InStep.setInits (h : InStep w fun _ => False)
    {pendingInits : AList fun _ : String => AttachmentTransferState}
    (pendingFiles : AList fun _ : String => PendingAttachmentFile)
    (hinits : ∀ c t, pendingInits.lookup c = some t → Announced c t) :
    InStep { w with pendingInits, pendingFiles } fun _ => False where
  nodup := h.nodup
  sent := h.sent
  inits := hinits
  active := by
    intro u job hjob
    obtain ⟨t, ht⟩ := h.active u job hjob
    exact ⟨t, ht.trimmed, ht.named, ht.transfer, ht.agrees, ht.waits⟩
  bases := h.bases
  full := h.full

theorem InStep.announced_erase {busy : String → Prop} (h : InStep w busy) (commandID : String) :
    ∀ c t, (w.pendingInits.erase commandID).lookup c = some t → Announced c t := by
  intro c t hc
  by_cases hsame : c = commandID
  · rw [hsame, AList.lookup_erase] at hc
    cases hc
  · rw [AList.lookup_erase_ne hsame] at hc
    exact h.inits c t hc

/-- A transfer is replaced, whose upload is not active or which stays the same. -/
theorem InStep.setTransfer (h : InStep w fun _ => False) {t' : AttachmentTransferState}
    (hactive : ∀ job t, w.jobs.lookup u = some job → w.Active u job t → t' = t) :
    InStep { w with transfers := w.transfers.insert u t' } fun _ => False := by
  refine InStep.settle (h.update (fun _ hb => hb.elim) h.nodup h.sent h.inits
    (fun u' hu => AList.lookup_insert_ne hu) (fun _ _ => rfl)
    (fun u' job t hu _ ht => ht.waits) fun job hjob => ?_) fun job hjob =>
      h.full u job hjob not_false
  obtain ⟨t, ht⟩ := h.active u job hjob
  obtain rfl := hactive job t hjob ht
  exact ⟨⟨t', ht.trimmed, ht.named, AList.lookup_insert _, ht.agrees, ht.waits⟩, h.base_ne hjob⟩

theorem InStep.sendAttachmentInit (h : InStep w fun _ => False) (room : String) (logicalSize : ℤ)
    (commandID : String) (ready taken : Bool) :
    InStep (w.sendAttachmentInit room logicalSize commandID ready taken) fun _ => False := by
  unfold UploadsWorker.sendAttachmentInit
  split
  · exact h
  · rename_i hrefused
    split
    · exact h
    · rename_i t hbegin
      split_ifs
      · refine h.setInits _ fun c t' hc => ?_
        by_cases hsame : c = trimSpace commandID
        · rw [hsame, AList.lookup_insert] at hc
          cases hc
          unfold AttachmentTransferState.begin at hbegin
          split_ifs at hbegin
          cases hbegin
          rw [hsame]
          exact ⟨trimSpace_trimSpace _, fun hempty => hrefused (.inr (.inr (.inr (.inr hempty)))),
            (by decide : (0 : ℤ) < plaintextChunkBytes), rfl, rfl⟩
        · rw [AList.lookup_insert_ne hsame] at hc
          exact h.inits c t' hc
      · exact h.setInits _ (h.announced_erase _)

theorem InStep.receiveError (h : InStep w fun _ => False) (commandID : String) :
    InStep (w.receiveError commandID) fun _ => False := by
  have hinits := h.setInits (w.pendingFiles.erase commandID) (h.announced_erase commandID)
  unfold UploadsWorker.receiveError
  dsimp only
  split
  · exact hinits
  · rename_i p hp
    refine hinits.endJob (u := p.uploadID) (fun _ hb => hb.elim) List.filter_sublist
      (fun q hq hne => List.mem_filter.2 ⟨hq, decide_eq_true hne⟩) ?_ ?_
      (fun u' hu => lookup_failTransfer_ne _ hu) (AList.lookup_erase _ _)
      fun u' hu => AList.lookup_erase_ne hu
    · simp
    · simpa using hinits.inits

/-- Replies to a resumption: those for an active upload name a chunk that the file does not have,
and are refused. -/
def GoodResume (w : UploadsWorker) (m : Message) : Prop :=
  ∀ job t, w.jobs.lookup m.uploadID = some job → w.transfers.lookup m.uploadID = some t →
    ∃ i ∈ m.receivedIndexes, t.validIndex i = false

theorem InStep.receiveResume (h : InStep w fun _ => False) {m : Message} (hgood : w.GoodResume m) :
    InStep (w.receiveResume m) fun _ => False := by
  unfold UploadsWorker.receiveResume
  split
  · exact h
  · rename_i t htransfer
    refine h.setTransfer fun job t' hjob ht => ?_
    obtain rfl := Option.some.inj (ht.transfer.symm.trans htransfer)
    obtain ⟨i, hi, hinvalid⟩ := hgood job t' hjob htransfer
    unfold AttachmentTransferState.acceptResume
    rw [if_neg]
    rintro ⟨-, hall⟩
    rw [List.all_eq_true.1 hall i hi] at hinvalid
    cases hinvalid

/-- Chunks that the bridge sends itself: they are refused, or neither their upload nor one whose
chunk waits under their command is active. -/
def GoodChunk (w : UploadsWorker) (uploadID : String) (chunk : TransferChunk) (commandID : String)
    (d : UploadDraw) : Prop :=
  d.ready chunk.index = true → ∀ t t', w.transfers.lookup (trimSpace uploadID) = some t →
    t.registerChunkCommand (trimSpace commandID) chunk.index = some t' →
      w.jobs.lookup (trimSpace uploadID) = none ∧
        ∀ p ∈ w.pendingChunks, p.commandID = trimSpace commandID → w.jobs.lookup p.uploadID = none

theorem InStep.sendAttachmentChunk (h : InStep w fun _ => False) {uploadID commandID : String}
    {chunk : TransferChunk} {d : UploadDraw} (hgood : w.GoodChunk uploadID chunk commandID d) :
    InStep (w.sendAttachmentChunk d uploadID chunk commandID) fun _ => False := by
  unfold UploadsWorker.sendAttachmentChunk
  split
  · exact h
  · rename_i hrefused
    have hready : d.ready chunk.index = true := by
      by_contra hnot
      exact hrefused (.inl (by simpa using hnot))
    split
    · exact h
    · rename_i t htransfer
      split
      · exact h
      · rename_i t' hregister
        obtain ⟨hidle, hcollide⟩ := hgood hready t t' htransfer hregister
        have hgone : ∀ job, w.jobs.lookup (trimSpace uploadID) ≠ some job := fun job hjob => by
          rw [hidle] at hjob
          cases hjob
        have hwaits : ∀ u' job t, w.jobs.lookup u' = some job → w.Active u' job t →
            ∀ c ∈ t.pendingChunkCommands, (⟨c.1, u', c.2⟩ : PendingChunk) ∈
              w.pendingChunks.filter (·.commandID ≠ trimSpace commandID) := by
          intro u' job t hjob ht c hc
          refine List.mem_filter.2 ⟨ht.waits c hc, ?_⟩
          rw [decide_eq_true_eq]
          intro hsame
          have hnone := hcollide _ (ht.waits c hc) hsame
          rw [hjob] at hnone
          cases hnone
        dsimp only
        split_ifs
        · exact InStep.settle (h.update (fun _ hb => hb.elim)
            (h.nodup_concat ⟨trimSpace commandID, trimSpace uploadID, chunk.index⟩)
            (h.sent_concat (p := ⟨trimSpace commandID, trimSpace uploadID, chunk.index⟩) rfl
              ⟨rfl, rfl, rfl, rfl⟩) h.inits
            (fun u' hu => AList.lookup_insert_ne hu) (fun _ _ => rfl)
            (fun u' job t _ hjob ht c hc => List.mem_append_left _ (hwaits u' job t hjob ht c hc))
            fun job hjob => absurd hjob (hgone job)) fun job hjob => absurd hjob (hgone job)
        · exact InStep.settle (h.update (fun _ hb => hb.elim)
            (h.nodup.sublist (List.filter_sublist.map _))
            (fun q hq => h.sent q (List.mem_of_mem_filter hq)) h.inits
            (fun u' hu => AList.lookup_insert_ne hu) (fun _ _ => rfl)
            (fun u' job t _ => hwaits u' job t) fun job hjob => absurd hjob (hgone job))
            fun job hjob => absurd hjob (hgone job)

/-- Replies to an initialization: a job that starts has an upload id without blanks around it, a
base command of its own and a file with no more chunks than announced, and its first window is
taken; where no job starts, none is active under the upload id. -/
def GoodInit (w : UploadsWorker) (m : Message) (d : UploadDraw) : Prop :=
  ∀ t t', w.pendingInits.lookup m.commandID = some t →
    t.acceptInit m.attachmentID m.uploadID m.chunkSize m.expiresAt = some t' →
      (∀ file input, w.pendingFiles.lookup m.commandID = some file → d.input = some input →
        trimSpace m.uploadID = m.uploadID ∧
          (∀ u job, w.jobs.lookup u = some job → job.baseCommand = m.commandID → u = m.uploadID) ∧
          chunkCount (newJob m file input).context ≤ t'.chunkCount ∧
          d.Takes (newJob m file input).context windowSize) ∧
      (w.pendingFiles.lookup m.commandID = none ∨ d.input = none → w.jobs.lookup m.uploadID = none)

/-- A new job agrees with the transfer that was announced under its command. -/
theorem agrees_newJob {m : Message} {file : PendingAttachmentFile} {input : Device}
    {t' : AttachmentTransferState} (ht : Announced m.commandID t)
    (haccept : t.acceptInit m.attachmentID m.uploadID m.chunkSize m.expiresAt = some t')
    (hsize : 0 < file.logicalSize)
    (hcount : chunkCount (newJob m file input).context ≤ t'.chunkCount) :
    m.uploadID ≠ "" ∧ t'.pendingChunkCommands = [] ∧ Agrees (newJob m file input) t' := by
  unfold AttachmentTransferState.acceptInit at haccept
  split_ifs at haccept with hrefused
  cases haccept
  refine ⟨fun hempty => hrefused (.inr (.inr (.inl hempty))), ht.commands, ?_⟩
  have hchunk : m.chunkSize = t.chunkSize := by
    by_contra hne
    exact hrefused (.inr (.inr (.inr (.inr hne))))
  have hpos : 0 < m.chunkSize := hchunk ▸ ht.chunkSize
  constructor
  case uploading => rfl
  case base => exact ht.trimmed
  case named => exact ht.named
  case size => exact hcount
  case pos => exact le_rfl
  case last =>
    show (0 : ℤ) < (file.logicalSize + m.chunkSize - 1) / m.chunkSize
    have hone : 1 ≤ (file.logicalSize + m.chunkSize - 1) / m.chunkSize :=
      Int.le_ediv_of_mul_le hpos (by omega)
    omega
  case received =>
    intro i hi
    rw [show _ = (∅ : Finset ℤ) from ht.received] at hi
    exact absurd hi (Finset.notMem_empty i)
  case commands =>
    intro c hc
    rw [show _ = ([] : List (String × ℤ)) from ht.commands] at hc
    exact absurd hc List.not_mem_nil
  case nodup =>
    rw [show _ = ([] : List (String × ℤ)) from ht.commands]
    exact List.nodup_nil
  case count =>
    rw [show _ = ([] : List (String × ℤ)) from ht.commands]
    rfl

/-- An empty file cannot be read, and its job ends at once. -/
theorem sendNextAttachmentChunk_empty (crypto : Crypto) (w : UploadsWorker) (d : UploadDraw)
    (hu : trimSpace u = u) (hjob : w.jobs.lookup u = some job) (hmore : job.lastChunkSent = false)
    (hnone : job.inFlightChunks = 0) (hsize : job.context.logicalSize ≤ 0) :
    w.sendNextAttachmentChunk crypto d u = w.abandon u := by
  unfold sendNextAttachmentChunk
  rw [hu]
  simp only [hjob]
  rw [hnone, show (windowSize - 0).toNat = 7 + 1 from rfl]
  unfold sendChunks
  rw [hu]
  simp only [hjob, hmore, hnone]
  rw [if_neg (by decide)]
  unfold encryptNextChunk
  simp [hsize]

/-- A job starts, and its first window is filled. -/
theorem InStep.startJob {crypto : Crypto}
    (hdigest : ∀ bytes, (crypto.sha256Hex bytes).utf8ByteSize = 64) {d : UploadDraw} {m : Message}
    (h : InStep w fun _ => False) {t t' : AttachmentTransferState} (file : PendingAttachmentFile)
    (input : Device) (hinit : w.pendingInits.lookup m.commandID = some t)
    (haccept : t.acceptInit m.attachmentID m.uploadID m.chunkSize m.expiresAt = some t')
    (htrim : trimSpace m.uploadID = m.uploadID)
    (hbases : ∀ u job, w.jobs.lookup u = some job → job.baseCommand = m.commandID →
      u = m.uploadID)
    (hcount : chunkCount (newJob m file input).context ≤ t'.chunkCount)
    (htakes : d.Takes (newJob m file input).context windowSize) (hsize : 0 < file.logicalSize) :
    let w' := UploadsWorker.sendNextAttachmentChunk crypto { w with
      pendingInits := w.pendingInits.erase m.commandID
      transfers := w.transfers.insert m.uploadID t'
      pendingFiles := w.pendingFiles.erase m.commandID
      jobs := w.jobs.insert m.uploadID (newJob m file input) } d m.uploadID
    InStep w' (fun _ => False) ∧
      (Supplied (newJob m file input) → w'.GoesOn m.uploadID (newJob m file input)) := by
  intro w'
  have hinits := h.announced_erase m.commandID
  obtain ⟨hnamed, hcommands, hagrees⟩ :=
    @agrees_newJob t m file input t' (h.inits _ _ hinit) haccept hsize hcount
  refine InStep.sendNextAttachmentChunk hdigest ?_ (AList.lookup_insert _)
    (by decide : (0 : ℤ) ≤ windowSize) (fun hlast => by cases hlast) htakes
  refine (h.setInits (w.pendingFiles.erase m.commandID) hinits).update (fun _ hb => hb.elim) h.nodup
    h.sent hinits (fun u' hu => AList.lookup_insert_ne hu) (fun u' hu => AList.lookup_insert_ne hu)
    (fun u' job t hu _ ht => ht.waits) fun job hjob => ?_
  rw [AList.lookup_insert] at hjob
  cases hjob
  refine ⟨⟨t', htrim, hnamed, AList.lookup_insert _, hagrees, fun c hc => ?_⟩,
    fun u' job' hu hjob' hbase => hu (hbases u' job' hjob' hbase)⟩
  rw [hcommands] at hc
  exact absurd hc List.not_mem_nil

theorem receiveInit_started (crypto : Crypto) {d : UploadDraw} {m : Message}
    {t' : AttachmentTransferState} {file : PendingAttachmentFile} {input : Device}
    (hinit : w.pendingInits.lookup m.commandID = some t)
    (haccept : t.acceptInit m.attachmentID m.uploadID m.chunkSize m.expiresAt = some t')
    (hfile : w.pendingFiles.lookup m.commandID = some file) (hinput : d.input = some input) :
    w.receiveInit crypto d m = UploadsWorker.sendNextAttachmentChunk crypto { w with
      pendingInits := w.pendingInits.erase m.commandID
      transfers := w.transfers.insert m.uploadID t'
      pendingFiles := w.pendingFiles.erase m.commandID
      jobs := w.jobs.insert m.uploadID (newJob m file input) } d m.uploadID := by
  unfold UploadsWorker.receiveInit
  rw [hinit]
  dsimp only
  rw [haccept]
  dsimp only
  rw [hfile]
  dsimp only
  rw [hinput]

theorem InStep.receiveInit {crypto : Crypto}
    (hdigest : ∀ bytes, (crypto.sha256Hex bytes).utf8ByteSize = 64) {d : UploadDraw} {m : Message}
    (h : InStep w fun _ => False) (hgood : w.GoodInit m d) :
    InStep (w.receiveInit crypto d m) fun _ => False := by
  unfold UploadsWorker.receiveInit
  split
  · exact h
  · rename_i t hinit
    have hinits := h.announced_erase m.commandID
    dsimp only
    split
    · exact h.setInits _ hinits
    · rename_i t' haccept
      obtain ⟨hstart, hidle⟩ := hgood t t' hinit haccept
      have hreplaced : w.jobs.lookup m.uploadID = none → ∀ pendingFiles,
          InStep { w with
            pendingInits := w.pendingInits.erase m.commandID
            pendingFiles
            transfers := w.transfers.insert m.uploadID t' } fun _ => False := by
        intro hnone pendingFiles
        refine (h.setInits pendingFiles hinits).setTransfer fun job t hjob _ => ?_
        have hjob : w.jobs.lookup m.uploadID = some job := hjob
        rw [hnone] at hjob
        cases hjob
      split
      · rename_i hfile
        exact hreplaced (hidle (.inl hfile)) _
      · rename_i file hfile
        split
        · rename_i hinput
          exact hreplaced (hidle (.inr hinput)) _
        · rename_i input hinput
          obtain ⟨htrim, hbases, hcount, htakes⟩ := hstart file input hfile hinput
          have hinits' := h.setInits (w.pendingFiles.erase m.commandID) hinits
          by_cases hsize : file.logicalSize ≤ 0
          · rw [sendNextAttachmentChunk_empty crypto _ d htrim (AList.lookup_insert _) rfl rfl
              hsize]
            refine hinits'.endJob (u := m.uploadID) (fun _ hb => hb.elim) ?_ ?_ ?_ ?_
              (fun u' hu => ?_) ?_ fun u' hu => ?_
            all_goals unfold UploadsWorker.abandon
            all_goals rw [htrim]
            · simp
            · simp +contextual
            · simp
            · simpa using hinits
            · exact (lookup_failTransfer_ne _ hu).trans (AList.lookup_insert_ne hu)
            · exact AList.lookup_erase _ _
            · exact (AList.lookup_erase_ne hu).trans (AList.lookup_insert_ne hu)
          · exact (h.startJob hdigest file input hinit haccept htrim hbases hcount htakes
              (not_le.1 hsize)).1

/-! ### Whole runs -/

/-- The inputs after which the counters are right. -/
def Undisturbed (w : UploadsWorker) : Input → Prop
  | .startUpload _ _ _ _ => True
  | .sendInit _ _ _ _ _ => True
  | .sendChunk uploadID chunk commandID d => w.GoodChunk uploadID chunk commandID d
  | .message m d => (m.type = .attachmentInit → w.GoodInit m d) ∧
      (m.type = .attachmentResume → w.GoodResume m) ∧ (m.type = .attachmentChunk → w.GoodAck m d)

theorem InStep.step {crypto : Crypto}
    (hdigest : ∀ bytes, (crypto.sha256Hex bytes).utf8ByteSize = 64) (h : InStep w fun _ => False)
    {input : Input} (hgood : w.Undisturbed input) :
    InStep (w.step crypto input) fun _ => False := by
  cases input with
  | startUpload file commandID ready taken =>
    exact (h.setInits _ h.inits).sendAttachmentInit _ _ _ ready taken
  | sendInit room logicalSize commandID ready taken =>
    exact h.sendAttachmentInit room logicalSize commandID ready taken
  | sendChunk uploadID chunk commandID d => exact h.sendAttachmentChunk hgood
  | message m d =>
    obtain ⟨hinit, hresume, hack⟩ := hgood
    unfold UploadsWorker.step processAttachmentMessage
    dsimp only
    split
    · exact h.receiveError _
    · exact h.receiveInit hdigest (hinit ‹_›)
    · exact h.receiveResume (hresume ‹_›)
    · exact h.receiveChunkAck hdigest (hack ‹_›)
    · exact h

theorem InStep.start : InStep {} fun _ => False where
  nodup := List.nodup_nil
  sent := fun _ hp => absurd hp List.not_mem_nil
  inits := fun _ _ hc => by cases hc
  active := fun _ _ hjob => by cases hjob
  bases := fun _ _ _ _ hjob => by cases hjob
  full := fun _ _ hjob => by cases hjob

/-- With a digest of 64 characters: whatever uploads are started and whatever the server sends,
while no input disturbs the counters, the counter of every active job says how many of its chunks
have been sent and wait for an acknowledgement that would be accepted; there is at least one, and
eight until the last chunk has been sent. -/
theorem window_counts (crypto : Crypto)
    (hdigest : ∀ bytes, (crypto.sha256Hex bytes).utf8ByteSize = 64) {inputs : List Input}
    (h : Along (step crypto) Undisturbed {} inputs) : Counts (run (step crypto) {} inputs) :=
  (run_invariant_along (step crypto) (I := fun w => InStep w fun _ => False)
    (fun _ _ hgood hw => hw.step hdigest hgood) InStep.start h).counts

/-- An upload of one byte, and the reply to its initialization. -/
def startByte : Input :=
  .startUpload ⟨"lobby", "g", Vector.replicate 32 0, 1⟩ "c" true true

def byteAccepted : Message where
  type := .attachmentInit
  commandID := "c"
  attachmentID := "a"
  uploadID := "u"
  chunkSize := 48128
  expiresAt := "later"

def acceptByte (ready : Bool) : Input :=
  .message byteAccepted { ready := fun _ => ready, input := some ⟨true, [65]⟩ }

/-- An upload of ten chunks, the last of them with one byte. -/
def tenChunks : PendingAttachmentFile := ⟨"lobby", "g", Vector.replicate 32 0, 433153⟩

def startTen : Input :=
  .startUpload tenChunks "c" true true

def acceptTen (input : Device) : Input :=
  .message byteAccepted { input := some input }

/-- The worker that waits for the reply. -/
def announcedTen : UploadsWorker where
  pendingFiles := (∅ : AList _).insert "c" tenChunks
  pendingInits := (∅ : AList _).insert "c"
    { status := .initializing, logicalSize := 433153, chunkSize := plaintextChunkBytes }

theorem step_startTen (crypto : Crypto) : step crypto {} startTen = announcedTen := by
  have hroom : trimSpace "lobby" ≠ "" := by decide +kernel
  have hcommand : trimSpace "c" = "c" := by decide +kernel
  unfold startTen step startUpload sendAttachmentInit
  simp only [hcommand]
  rw [if_neg (by simp [hroom, tenChunks, Client.maxLogicalBytes])]
  rfl

theorem goodInit_ten (crypto : Crypto) (input : Device) :
    (step crypto {} startTen).GoodInit byteAccepted { input := some input } := by
  rw [step_startTen]
  intro t t' hinit haccept
  refine ⟨fun file input hfile _ => ⟨by decide +kernel, fun u job hjob => (by cases hjob), ?_,
    fun _ _ _ _ => ⟨rfl, rfl⟩⟩, fun _ => rfl⟩
  cases (AList.lookup_insert _).symm.trans hinit
  cases (AList.lookup_insert _).symm.trans hfile
  cases haccept
  exact (by decide : (433153 + 48128 - 1 : ℤ) / 48128 ≤ 10)

/-- The reply starts a job, and the job sends its first eight chunks. -/
theorem acceptTen_full {crypto : Crypto}
    (hdigest : ∀ bytes, (crypto.sha256Hex bytes).utf8ByteSize = 64) {input : Device}
    (hreadable : input.readable = true) (hbytes : 433153 ≤ input.rest.length) :
    let w := run (step crypto) {} [startTen, acceptTen input]
    InStep w (fun _ => False) ∧ ∃ job, w.jobs.lookup "u" = some job ∧ Supplied job ∧
      chunkCount job.context = 10 ∧ job.context.chunkIndex = 8 ∧ ∃ p, p ∈ w.awaited "u" := by
  have hstart : InStep (step crypto {} startTen) fun _ => False := InStep.start.step hdigest trivial
  rw [step_startTen] at hstart
  have hjob := hstart.startJob hdigest (d := { input := some input }) (m := byteAccepted) tenChunks
    input (AList.lookup_insert _) rfl (by decide +kernel)
    (fun u job hjob => by cases hjob) (by decide : (433153 + 48128 - 1 : ℤ) / 48128 ≤ 10)
    (fun _ _ _ _ => ⟨rfl, rfl⟩) (by decide)
  intro w
  have hw : w = (step crypto {} startTen).receiveInit crypto { input := some input }
    byteAccepted := rfl
  rw [hw, step_startTen, receiveInit_started crypto (w := announcedTen) (m := byteAccepted)
    (AList.lookup_insert _) rfl (AList.lookup_insert _) rfl]
  obtain ⟨hinstep, hgoes⟩ := hjob
  obtain ⟨job, hlookup, hsupplied, hcount, hsent⟩ := hgoes
    ⟨hreadable, (by decide : validContext ⟨"a", "lobby", "g", 433153, 48128, 0⟩ = true),
      (by decide : (48128 : ℤ) ≤ 2147483647), by
        show (433153 - 0 * 48128 : ℤ) ≤ input.rest.length
        omega⟩
  have hten : chunkCount job.context = 10 := hcount
  have hsent : job.inFlightChunks - 0 = job.context.chunkIndex - 0 := hsent
  have hle : job.inFlightChunks ≤ 8 := (hinstep.full _ job hlookup not_false).2.1
  have hfull : job.inFlightChunks = 8 := (hinstep.window_full hlookup (by omega)).2
  refine ⟨hinstep, job, hlookup, hsupplied, hten, by omega, List.exists_mem_of_length_pos ?_⟩
  have hawaited := hinstep.length_awaited hlookup
  rw [hfull] at hawaited
  have hpos : (0 : ℤ) < 8 := by decide
  rw [hawaited] at hpos
  exact Int.natCast_pos.1 hpos

/-- The first eight chunks of ten are on the wire; an acknowledgement of one of them refills the
window, and the job counts eight again. -/
theorem window_counts_ten :
    let accept := acceptTen ⟨true, List.replicate 433153 0⟩
    ∃ p ∈ (run (step byteCrypto) {} [startTen, accept]).awaited "u",
      let w := run (step byteCrypto) {} [startTen, accept,
        .message { type := .attachmentChunk, commandID := p.commandID } {}]
      Counts w ∧ ∃ job, w.jobs.lookup "u" = some job ∧ job.inFlightChunks = 8 ∧
        job.context.chunkIndex = 9 := by
  have hdigest : ∀ bytes, (byteCrypto.sha256Hex bytes).utf8ByteSize = 64 := by
    intro bytes
    show ("6145b847798a66d0d305a3d4168890eb2b82333165bd2a20370bbce36ce9bc45").utf8ByteSize = 64
    decide +kernel
  have hlength : ∀ n, n ≤ (List.replicate n (0 : UInt8)).length := fun n => List.length_replicate.ge
  have hreadable : (⟨true, List.replicate 433153 0⟩ : Device).readable = true := rfl
  have hbytes : 433153 ≤ (⟨true, List.replicate 433153 0⟩ : Device).rest.length := hlength _
  generalize (⟨true, List.replicate 433153 0⟩ : Device) = input at hreadable hbytes ⊢
  obtain ⟨hinstep, job, hjob, hsupplied, hten, hindex, p, hp⟩ :=
    acceptTen_full hdigest hreadable hbytes
  obtain ⟨job', hjob', hfull, hindex'⟩ := hinstep.refill hdigest (d := {}) hjob hsupplied
    (by omega) hp (m := { type := .attachmentChunk, commandID := p.commandID }) rfl
    fun _ _ _ _ => ⟨rfl, rfl⟩
  have hack : ∀ w : UploadsWorker, step byteCrypto w
      (.message { type := .attachmentChunk, commandID := p.commandID } {}) =
        w.receiveChunkAck byteCrypto {} { type := .attachmentChunk, commandID := p.commandID } :=
    fun _ => rfl
  rw [← hack, ← run_concat (step byteCrypto), List.cons_append, List.cons_append,
    List.nil_append] at hjob'
  refine ⟨p, hp, window_counts byteCrypto hdigest ⟨trivial, ?_, ?_, trivial⟩, job', hjob', hfull,
    by omega⟩
  · exact ⟨fun _ => goodInit_ten _ _, fun h => (by cases h), fun h => by cases h⟩
  · exact ⟨fun h => (by cases h), fun h => (by cases h), fun _ _ _ _ _ _ _ _ _ _ _ _ => ⟨rfl, rfl⟩⟩

/-- A job counts a chunk that nobody waits for when the connection is not ready for it, and when a
reply to a resumption makes the transfer forget its command. -/
theorem window_drifts :
    ¬ Counts (run (step byteCrypto) {} [startByte, acceptByte false]) ∧
      ¬ Counts (run (step byteCrypto) {} [startByte, acceptByte true,
        .message { type := .attachmentResume, uploadID := "u" } {}]) := by
  have hdrift : ∀ w : UploadsWorker, (w.jobs.lookup "u").map (·.inFlightChunks) = some 1 →
      w.awaited "u" = [] → ¬ Counts w := by
    intro w hjob hawaited hcounts
    obtain ⟨job, hjob, hone⟩ := Option.map_eq_some_iff.1 hjob
    have hcount := (hcounts "u" job hjob).1
    rw [hawaited, hone] at hcount
    cases hcount
  exact ⟨hdrift _ (by decide +kernel) (by decide +kernel),
    hdrift _ (by decide +kernel) (by decide +kernel)⟩

end UploadsWorker

end LanChat.Gui.Attachments
