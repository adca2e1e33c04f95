import LanChat.Lib.Run
import LanChat.Store.Attachment

/-!
# The attachment quota of a room

`room_quotas` holds two counters a room: what its open uploads have reserved and what its
committed attachments use.  Neither is ever recomputed; `InitializeAttachment`,
`CommitAttachmentUpload` and `CleanupExpiredAttachmentUploads` each move bytes between them with an
`UPDATE` of their own.

* `AttachmentCall` is a call of the store with the place where it fails, if it does;
* `Balanced` says that both counters are the sums they stand for;
* `StoresChunk`: what a successful `StoreAttachmentChunk` does;
* `quota_exact`: every run of calls from an empty database is balanced.
-/

namespace LanChat

namespace AttachmentStore

variable (sha256Bytes : List UInt8 → String)

/-- The chunks that `ResumeAttachmentUpload` finds damaged, in the order of its query. -/
def invalidChunks (s : AttachmentStore) (uploadID : String) : List ChunkRow :=
  ((s.chunks.rows.filter fun r => r.uploadID == uploadID).filter fun r =>
    !s.storedAttachmentChunkMatches sha256Bytes uploadID r).insertionSort
      fun a b => a.chunkIndex ≤ b.chunkIndex

/-- The rows and the files of some chunks go away. -/
def removeChunks (s : AttachmentStore) (uploadID : String) (invalid : List ChunkRow) :
    AttachmentStore :=
  { s with
    chunks := s.chunks.delete fun r => invalid.contains r
    partialFiles := s.partialFiles.filter fun f =>
      !(f.directory == uploadID && invalid.any fun r => r.chunkIndex == f.index) }

/-- A call of the attachment store.  The flags and counts say where the database refuses:
* `txFails`: the transaction of the call is rolled back;
* `renameFails`: the directory of a commit cannot be moved;
* `deleted`: a resumption stops after that many `DELETE`s;
* `removed`: a clean-up stops after that many transactions.

`disk` is no call: the files become what they become. -/
inductive AttachmentCall
  | initUpload (now : ℕ) (attachmentID uploadID room authorCode : String) (logicalSize : ℤ)
      (txFails : Bool)
  | storeChunk (now : ℕ) (uploadID authorCode : String) (index : ℤ) (ciphertext : List UInt8)
      (cipherSHA256 : String) (txFails : Bool)
  | resume (now : ℕ) (uploadID authorCode : String) (deleted : Option ℕ)
  | commit (now : ℕ) (committedAt : String) (uploadID authorCode : String)
      (renameFails txFails : Bool)
  | cleanup (now : ℕ) (removed : Option ℕ)
  | disk (partialFiles publishedFiles : List ChunkFile)

/-- The expired uploads, as the query of the clean-up lists them. -/
def expiredUploads (s : AttachmentStore) (rfc3339 : ℕ → String) (now : ℕ) : List UploadRow :=
  s.uploads.rows.filter fun r => rfc3339 r.expiresAt ≤ rfc3339 now

/-- What a call leaves behind. -/
def apply (rfc3339 : ℕ → String) (s : AttachmentStore) : AttachmentCall → AttachmentStore
  | .initUpload now attachmentID uploadID room authorCode logicalSize txFails =>
    match s.initializeAttachment now attachmentID uploadID room authorCode logicalSize with
    | .ok (_, s') => if txFails then s else s'
    | .error _ => s
  | .storeChunk now uploadID authorCode index ciphertext cipherSHA256 txFails =>
    match s.storeAttachmentChunk sha256Bytes now uploadID authorCode index ciphertext
        cipherSHA256 with
    | .ok (_, s') => if txFails then s else s'
    | .error _ => s
  | .resume now uploadID authorCode deleted =>
    match s.resumeAttachmentUpload sha256Bytes now uploadID authorCode, deleted with
    | .ok (_, s'), none => s'
    | .ok _, some n => s.removeChunks uploadID ((s.invalidChunks sha256Bytes uploadID).take n)
    | .error _, _ => s
  | .commit now committedAt uploadID authorCode renameFails txFails =>
    if renameFails then s
    else (s.commitAttachmentUpload sha256Bytes now committedAt txFails uploadID authorCode).2
  | .cleanup now none => s.cleanupExpiredAttachmentUploads rfc3339 now
  | .cleanup now (some n) => ((s.expiredUploads rfc3339 now).take n).foldl removeUpload s
  | .disk partialFiles publishedFiles => { s with partialFiles, publishedFiles }

/-! ### The two counters -/

/-- `reserved_bytes` of a room; a room without a row has reserved nothing. -/
def reservedBytes (s : AttachmentStore) (room : String) : ℤ :=
  (s.quotas.lookup QuotaRow.room room).elim 0 QuotaRow.reservedBytes

/-- `used_bytes` of a room. -/
def usedBytes (s : AttachmentStore) (room : String) : ℤ :=
  (s.quotas.lookup QuotaRow.room room).elim 0 QuotaRow.usedBytes

/-- The bytes that the open uploads of a room have reserved. -/
def openBytes (s : AttachmentStore) (room : String) : ℤ :=
  s.uploads.total (fun r => r.room == room) UploadRow.reservedBytes

/-- The logical bytes of the committed attachments of a room. -/
def committedBytes (s : AttachmentStore) (room : String) : ℤ :=
  s.attachments.total (fun r => r.room == room && r.committedAt.isSome) AttachmentRow.logicalSize

/-- The counters are exact and within the limit.  The last three fields carry the induction: an
open upload has reserved its own size, belongs to an attachment of that size in that room which
is not committed, and its room has a row. -/
structure Balanced (s : AttachmentStore) : Prop where
  reserved : ∀ room, s.reservedBytes room = s.openBytes room
  used : ∀ room, s.usedBytes room = s.committedBytes room
  within : ∀ room, s.reservedBytes room + s.usedBytes room ≤ maxRoomAttachmentBytes
  sized : ∀ a ∈ s.attachments.rows, 0 < a.logicalSize
  backed : ∀ u ∈ s.uploads.rows, u.reservedBytes = u.logicalSize ∧
    ∃ a ∈ s.attachments.rows, a.attachmentID = u.attachmentID ∧ a.room = u.room ∧
      a.logicalSize = u.logicalSize ∧ a.committedAt = none
  kept : ∀ u ∈ s.uploads.rows, (s.quotas.lookup QuotaRow.room u.room).isSome

theorem balanced_empty : Balanced empty where
  reserved _ := rfl
  used _ := rfl
  within _ := by
    show (0 : ℤ) + 0 ≤ maxRoomAttachmentBytes
    decide
  sized a ha := by cases ha
  backed u hu := by cases hu
  kept u hu := by cases hu

/-- The files and the rows of the chunks do not count. -/
theorem Balanced.of_eq {s s' : AttachmentStore} (h : Balanced s)
    (ha : s'.attachments = s.attachments) (hu : s'.uploads = s.uploads)
    (hq : s'.quotas = s.quotas) : Balanced s' := by
  obtain ⟨attachments, uploads, chunks, quotas, partialFiles, publishedFiles⟩ := s'
  cases ha
  cases hu
  cases hq
  exact ⟨h.reserved, h.used, h.within, h.sized, h.backed, h.kept⟩

theorem Balanced.nonneg {s : AttachmentStore} (h : Balanced s) (room : String) :
    0 ≤ s.reservedBytes room ∧ 0 ≤ s.usedBytes room := by
  constructor
  · rw [h.reserved]
    refine Table.total_nonneg ?_
    intro u hu _
    obtain ⟨hr, a, ha, -, -, hs, -⟩ := h.backed u hu
    have := h.sized a ha
    omega
  · rw [h.used]
    exact Table.total_nonneg fun a ha _ => (h.sized a ha).le

/-- The counters after an `UPDATE` of one room's row. -/
theorem lookup_quota_modify (s : AttachmentStore) (room : String) (f : QuotaRow → QuotaRow)
    (hf : ∀ r, (f r).room = r.room) (other : String) :
    (s.quotas.modify (fun r => r.room == room) f (Table.keepsKey_keyClash hf)).lookup
        QuotaRow.room other =
      (s.quotas.lookup QuotaRow.room other).map fun r => if other = room then f r else r := by
  rw [Table.lookup_modify _ _ _ hf]
  cases hl : s.quotas.lookup QuotaRow.room other with
  | none => rfl
  | some r =>
    have hr := Table.key_of_lookup hl
    subst hr
    simp

/-! ### A reservation -/

/-- A quota table after a reservation: the room's counter has grown by the size, which fits. -/
theorem reserve_spec {s s' : AttachmentStore} {room : String} {size : ℤ}
    (hsize : size ≤ maxRoomAttachmentBytes) (h : s.reserve room size = some s'.quotas) :
    (∀ other, s'.reservedBytes other = s.reservedBytes other + if room = other then size else 0) ∧
    (∀ other, s'.usedBytes other = s.usedBytes other) ∧
    s.reservedBytes room + s.usedBytes room + size ≤ maxRoomAttachmentBytes ∧
    (∀ other, (s.quotas.lookup QuotaRow.room other).isSome ∨ other = room →
      (s'.quotas.lookup QuotaRow.room other).isSome) := by
  unfold reserve at h
  unfold reservedBytes usedBytes
  cases hl : s.quotas.lookup QuotaRow.room room with
  | none =>
    rw [hl] at h
    dsimp only at h
    have hnew := Table.lookup_insert? (fun _ _ => Table.keyClash_of_eq QuotaRow.room) h
    refine ⟨?_, ?_, ?_, ?_⟩
    · intro other
      rw [hnew]
      by_cases ho : room = other
      · subst ho
        simp [hl]
      · simp [ho]
    · intro other
      rw [hnew]
      by_cases ho : room = other
      · subst ho
        simp [hl]
      · simp [ho]
    · simpa using hsize
    · rintro other hother
      rw [hnew]
      by_cases ho : room = other
      · simp [ho]
      · rw [if_neg ho]
        exact hother.resolve_right fun e => ho e.symm
  | some q =>
    rw [hl] at h
    dsimp only at h
    split_ifs at h with hfit
    have hnew : ∀ other, s'.quotas.lookup QuotaRow.room other =
        (s.quotas.lookup QuotaRow.room other).map fun r =>
          if other = room then { r with reservedBytes := r.reservedBytes + size } else r := by
      intro other
      rw [← Option.some.inj h]
      exact lookup_quota_modify s room
        (fun r => { r with reservedBytes := r.reservedBytes + size }) (fun _ => rfl) other
    simp only [hnew]
    refine ⟨?_, ?_, ?_, ?_⟩
    · intro other
      by_cases ho : room = other
      · subst ho
        simp [hl]
      · cases s.quotas.lookup QuotaRow.room other <;> simp [ho, Ne.symm ho]
    · intro other
      cases s.quotas.lookup QuotaRow.room other with
      | none => rfl
      | some r => by_cases ho : other = room <;> simp [ho]
    · exact hfit
    · rintro other (ho | rfl)
      · simpa using ho
      · simp [hl]

/-- What a successful `InitializeAttachment` has checked and written. -/
theorem initializeAttachment_spec {s s' : AttachmentStore} {now : ℕ}
    {attachmentID uploadID room authorCode : String} {logicalSize : ℤ} {upload : AttachmentUpload}
    (h : s.initializeAttachment now attachmentID uploadID room authorCode logicalSize =
      .ok (upload, s')) :
    ∃ author, normalizeUserCode authorCode = .ok author ∧
      0 < logicalSize ∧ logicalSize ≤ maxAttachmentLogicalBytes ∧
      s.reserve room logicalSize = some s'.quotas ∧
      s.attachments.insert? ⟨attachmentID, room, logicalSize, "", none⟩ = some s'.attachments ∧
      s.uploads.insert? ⟨uploadID, attachmentID, room, author, logicalSize, logicalSize,
        attachmentChunkSize, now + attachmentUploadTTL⟩ = some s'.uploads ∧
      s'.chunks = s.chunks ∧ s'.partialFiles = s.partialFiles ∧
      s'.publishedFiles = s.publishedFiles ∧
      upload = ⟨attachmentID, uploadID, attachmentChunkSize, now + attachmentUploadTTL⟩ := by
  unfold initializeAttachment at h
  cases hroom : validateRoomName room with
  | error e =>
    rw [hroom] at h
    cases h
  | ok x =>
    rw [hroom] at h
    cases hcode : normalizeUserCode authorCode with
    | error e =>
      rw [hcode] at h
      cases h
    | ok author =>
      rw [hcode] at h
      dsimp only at h
      split_ifs at h with hpos hbig
      cases hres : s.reserve room logicalSize with
      | none =>
        rw [hres] at h
        cases h
      | some quotas =>
        rw [hres] at h
        dsimp only at h
        split at h
        · cases h
          exact ⟨author, rfl, by omega, by omega, rfl, by assumption, by assumption, rfl, rfl,
            rfl, rfl⟩
        · cases h

theorem Balanced.initializeAttachment {s s' : AttachmentStore} {now : ℕ}
    {attachmentID uploadID room authorCode : String} {logicalSize : ℤ} {upload : AttachmentUpload}
    (hb : Balanced s)
    (h : s.initializeAttachment now attachmentID uploadID room authorCode logicalSize =
      .ok (upload, s')) : Balanced s' := by
  obtain ⟨author, -, hpos, hbig, hres, hatt, hup, -, -, -, -⟩ := initializeAttachment_spec h
  have hmax : logicalSize ≤ maxRoomAttachmentBytes := hbig.trans (by decide)
  obtain ⟨hreserved, hused, hfit, hsome⟩ := reserve_spec hmax hres
  constructor
  case reserved =>
    intro other
    rw [hreserved, hb.reserved, openBytes, openBytes, Table.total_insert? hup]
    simp
  case used =>
    intro other
    rw [hused, hb.used, committedBytes, committedBytes, Table.total_insert? hatt]
    simp
  case within =>
    intro other
    rw [hreserved, hused]
    by_cases ho : room = other
    · subst ho
      rw [if_pos rfl]
      omega
    · rw [if_neg ho, add_zero]
      exact hb.within other
  case sized =>
    intro a ha
    rcases (Table.mem_insert? hatt).1 ha with ha | rfl
    · exact hb.sized a ha
    · exact hpos
  case backed =>
    intro u hu
    rcases (Table.mem_insert? hup).1 hu with hu | rfl
    · obtain ⟨hr, a, ha, hrest⟩ := hb.backed u hu
      exact ⟨hr, a, (Table.mem_insert? hatt).2 (Or.inl ha), hrest⟩
    · exact ⟨rfl, _, (Table.mem_insert? hatt).2 (Or.inr rfl), rfl, rfl, rfl, rfl⟩
  case kept =>
    intro u hu
    refine hsome u.room ?_
    rcases (Table.mem_insert? hup).1 hu with hu | rfl
    · exact Or.inl (hb.kept u hu)
    · exact Or.inr rfl

/-! ### The end of an upload

A commit and a clean-up both take one upload away; they differ in what becomes of the attachment
and of the bytes. -/

theorem UploadRow.clash_of_uploadID {a b : UploadRow} (h : a.uploadID = b.uploadID) :
    a.clash b = true := by simp [UploadRow.clash, Table.keyClash, h]

theorem UploadRow.clash_of_attachmentID {a b : UploadRow} (h : a.attachmentID = b.attachmentID) :
    a.clash b = true := by simp [UploadRow.clash, Table.keyClash, h]

/-- The uploads that are left when one of them ends. -/
theorem mem_uploads_delete {s : AttachmentStore} {upload u : UploadRow} :
    u ∈ (s.uploads.delete fun r => r.uploadID == upload.uploadID).rows ↔
      u ∈ s.uploads.rows ∧ u.uploadID ≠ upload.uploadID := by
  simp

/-- An upload that is left belongs to another attachment. -/
theorem attachmentID_ne {s : AttachmentStore} {upload u : UploadRow} (hup : upload ∈ s.uploads.rows)
    (hu : u ∈ s.uploads.rows) (hne : u.uploadID ≠ upload.uploadID) :
    u.attachmentID ≠ upload.attachmentID := by
  intro he
  have := s.uploads.eq_of_clash hu hup (UploadRow.clash_of_attachmentID he)
  exact hne (by rw [this])

/-- The reservations that are left. -/
theorem openBytes_delete (s s' : AttachmentStore) {upload : UploadRow}
    (hup : upload ∈ s.uploads.rows)
    (hs : s'.uploads = s.uploads.delete fun r => r.uploadID == upload.uploadID) (room : String) :
    s'.openBytes room =
      s.openBytes room - if upload.room = room then upload.reservedBytes else 0 := by
  unfold openBytes
  rw [hs, Table.total_delete hup (by simp) fun b hb =>
    UploadRow.clash_of_uploadID (by simpa using hb)]
  simp

/-- The counters after an `UPDATE` that moves `out` bytes out of the reservation of a room and
`into` bytes into use. -/
theorem counters_move (s s' : AttachmentStore) {room : String} (out into : ℤ)
    (hroom : (s.quotas.lookup QuotaRow.room room).isSome)
    (hs : s'.quotas = s.quotas.modify (fun r => r.room == room)
      (fun r => { r with
        reservedBytes := r.reservedBytes - out
        usedBytes := r.usedBytes + into })
      (Table.keepsKey_keyClash fun _ => rfl)) (other : String) :
    s'.reservedBytes other = (s.reservedBytes other - if room = other then out else 0) ∧
    s'.usedBytes other = (s.usedBytes other + if room = other then into else 0) ∧
    (s'.quotas.lookup QuotaRow.room other).isSome =
      (s.quotas.lookup QuotaRow.room other).isSome := by
  have hnew := lookup_quota_modify s room
    (fun r => { r with reservedBytes := r.reservedBytes - out, usedBytes := r.usedBytes + into })
    (fun _ => rfl) other
  rw [← hs] at hnew
  unfold reservedBytes usedBytes
  rw [hnew]
  by_cases ho : room = other
  · subst ho
    obtain ⟨q, hq⟩ := Option.isSome_iff_exists.1 hroom
    simp [hq]
  · cases s.quotas.lookup QuotaRow.room other <;> simp [ho, Ne.symm ho]

theorem Balanced.removeUpload {s : AttachmentStore} {upload : UploadRow} (hb : Balanced s)
    (hup : upload ∈ s.uploads.rows) : Balanced (s.removeUpload upload) := by
  obtain ⟨hres, a, ha, hid, hroom, hsize, hopen⟩ := hb.backed upload hup
  have hcount := counters_move s (s.removeUpload upload) upload.reservedBytes 0
    (hb.kept upload hup) (by simp only [AttachmentStore.removeUpload, add_zero])
  have hleft := openBytes_delete s (s.removeUpload upload) hup rfl
  have hcommitted : ∀ room, (s.removeUpload upload).committedBytes room =
      s.committedBytes room := by
    intro room
    unfold committedBytes AttachmentStore.removeUpload
    rw [Table.total_delete ha (by simp [hid, hopen]) fun b hb' =>
      Table.keyClash_of_eq _ (by
        simp only [Bool.and_eq_true, beq_iff_eq] at hb'
        exact hb'.1.trans hid.symm)]
    simp [hopen]
  constructor
  case reserved =>
    intro room
    rw [(hcount room).1, hleft, hb.reserved]
  case used =>
    intro room
    rw [(hcount room).2.1, hcommitted, hb.used]
    simp
  case within =>
    intro room
    have hpos : 0 ≤ if upload.room = room then upload.reservedBytes else 0 := by
      have := hb.sized a ha
      split_ifs <;> omega
    have := hb.within room
    rw [(hcount room).1, (hcount room).2.1, ite_self]
    omega
  case sized =>
    intro b hb'
    exact hb.sized b (List.mem_of_mem_filter hb')
  case backed =>
    intro u hu
    obtain ⟨hu, hne⟩ := mem_uploads_delete.1 hu
    obtain ⟨hr, b, hb', hbid, hrest⟩ := hb.backed u hu
    refine ⟨hr, b, List.mem_filter.2 ⟨hb', ?_⟩, hbid, hrest⟩
    simp [hbid, attachmentID_ne hup hu hne]
  case kept =>
    intro u hu
    rw [(hcount u.room).2.2]
    exact hb.kept u (mem_uploads_delete.1 hu).1

/-- The attachments after a commit: its own one, rewritten, and the others. -/
theorem mem_attachments_recordCommit {s : AttachmentStore} {upload : UploadRow}
    {whole committedAt : String} {b : AttachmentRow} :
    b ∈ (s.recordCommit upload whole committedAt).attachments.rows ↔
      (b ∈ s.attachments.rows ∧
        (b.attachmentID == upload.attachmentID && b.committedAt.isNone) = false) ∨
      ∃ c ∈ s.attachments.rows,
        (c.attachmentID == upload.attachmentID && c.committedAt.isNone) = true ∧
        b = { c with wholeSha256 := whole, committedAt := some committedAt } := by
  unfold AttachmentStore.recordCommit
  rw [Table.mem_modify]

theorem Balanced.recordCommit {s : AttachmentStore} {upload : UploadRow} (hb : Balanced s)
    (hup : upload ∈ s.uploads.rows) (whole committedAt : String) :
    Balanced (s.recordCommit upload whole committedAt) := by
  obtain ⟨hres, a, ha, hid, hroom, hsize, hopen⟩ := hb.backed upload hup
  have hcount := counters_move s (s.recordCommit upload whole committedAt) upload.logicalSize
    upload.logicalSize (hb.kept upload hup) rfl
  have hleft := openBytes_delete s (s.recordCommit upload whole committedAt) hup rfl
  have hcommitted : ∀ room, (s.recordCommit upload whole committedAt).committedBytes room =
      s.committedBytes room + if upload.room = room then upload.logicalSize else 0 := by
    intro room
    unfold committedBytes AttachmentStore.recordCommit
    rw [Table.total_modify ha (by simp [hid, hopen]) fun b hb' =>
      Table.keyClash_of_eq _ (by
        simp only [Bool.and_eq_true, beq_iff_eq] at hb'
        exact hb'.1.trans hid.symm)]
    simp [hopen, hroom, hsize]
  constructor
  case reserved =>
    intro room
    rw [(hcount room).1, hleft, hb.reserved, hres]
  case used =>
    intro room
    rw [(hcount room).2.1, hcommitted, hb.used]
  case within =>
    intro room
    have := hb.within room
    rw [(hcount room).1, (hcount room).2.1]
    omega
  case sized =>
    intro b hb'
    rcases mem_attachments_recordCommit.1 hb' with ⟨hmem, -⟩ | ⟨c, hc, -, rfl⟩
    · exact hb.sized b hmem
    · exact hb.sized c hc
  case backed =>
    intro u hu
    obtain ⟨hu, hne⟩ := mem_uploads_delete.1 hu
    obtain ⟨hr, b, hb', hbid, hrest⟩ := hb.backed u hu
    have hother : (b.attachmentID == upload.attachmentID && b.committedAt.isNone) = false := by
      simp [hbid, attachmentID_ne hup hu hne]
    exact ⟨hr, b, mem_attachments_recordCommit.2 (Or.inl ⟨hb', hother⟩), hbid, hrest⟩
  case kept =>
    intro u hu
    rw [(hcount u.room).2.2]
    exact hb.kept u (mem_uploads_delete.1 hu).1

/-- The clean-up works through a list that it read before its first transaction: the uploads
further down the list outlive each removal. -/
theorem Balanced.foldl_removeUpload {s : AttachmentStore} (hb : Balanced s)
    {expired : List UploadRow} (hmem : ∀ u ∈ expired, u ∈ s.uploads.rows)
    (hdistinct : expired.Pairwise fun a b => a.uploadID ≠ b.uploadID) :
    Balanced (expired.foldl AttachmentStore.removeUpload s) := by
  induction expired generalizing s with
  | nil => exact hb
  | cons upload expired ih =>
    rw [List.pairwise_cons] at hdistinct
    refine ih (hb.removeUpload (hmem upload List.mem_cons_self)) ?_ hdistinct.2
    intro u hu
    exact mem_uploads_delete.2
      ⟨hmem u (List.mem_cons_of_mem _ hu), (hdistinct.1 u hu).symm⟩

theorem Balanced.removeExpired {s : AttachmentStore} (hb : Balanced s) {expired : List UploadRow}
    (h : expired.Sublist s.uploads.rows) :
    Balanced (expired.foldl AttachmentStore.removeUpload s) := by
  refine hb.foldl_removeUpload (fun u hu => h.subset hu) ((s.uploads.distinct.sublist h).imp ?_)
  intro a b hab he
  have := UploadRow.clash_of_uploadID he
  rw [hab.1] at this
  cases this

/-! ### Every call -/

theorem mem_of_loadAttachmentUpload {s : AttachmentStore} {now : ℕ} {uploadID authorCode : String}
    {upload : UploadRow} (h : s.loadAttachmentUpload now uploadID authorCode = .ok upload) :
    upload ∈ s.uploads.rows ∧ upload.uploadID = uploadID := by
  unfold loadAttachmentUpload at h
  cases hcode : normalizeUserCode authorCode with
  | error e =>
    rw [hcode] at h
    cases h
  | ok author =>
    rw [hcode] at h
    dsimp only at h
    cases hl : s.uploads.lookup UploadRow.uploadID uploadID with
    | none =>
      rw [hl] at h
      cases h
    | some row =>
      rw [hl] at h
      dsimp only at h
      split_ifs at h
      cases h
      exact ⟨Table.mem_of_lookup hl, Table.key_of_lookup hl⟩

variable {sha256Bytes}

/-- What a successful `StoreAttachmentChunk` does with the row of the chunk. -/
inductive StoresChunk (sha256Bytes : List UInt8 → String) (s s' : AttachmentStore) (row : ChunkRow)
    (ciphertext : List UInt8) : Bool → Prop
  | known (hrow : row ∈ s.chunks.rows)
      (hmatch : s.storedAttachmentChunkMatches sha256Bytes row.uploadID row = true)
      (hsame : s' = s) : StoresChunk sha256Bytes s s' row ciphertext true
  | recovered (hnew : ∀ r ∈ s.chunks.rows, r.key ≠ row.key)
      (hmatch : s.storedAttachmentChunkMatches sha256Bytes row.uploadID row = true)
      (hrows : s'.chunks.rows = s.chunks.rows ++ [row])
      (hfiles : s'.partialFiles = s.partialFiles) : StoresChunk sha256Bytes s s' row ciphertext true
  | written (hnew : ∀ r ∈ s.chunks.rows, r.key ≠ row.key)
      (hnone : readFile s.partialFiles row.uploadID row.chunkIndex = none)
      (hrows : s'.chunks.rows = s.chunks.rows ++ [row])
      (hfiles : s'.partialFiles = s.partialFiles ++ [⟨row.uploadID, row.chunkIndex, ciphertext⟩]) :
      StoresChunk sha256Bytes s s' row ciphertext false

/-- A stored chunk touches its row and its file, nothing else. -/
theorem storeAttachmentChunk_spec {s s' : AttachmentStore} {now : ℕ} {uploadID authorCode : String}
    {index : ℤ} {ciphertext : List UInt8} {cipherSHA256 : String} {known : Bool}
    (hstore : s.storeAttachmentChunk sha256Bytes now uploadID authorCode index ciphertext
      cipherSHA256 = .ok (known, s')) :
    ∃ upload, s.loadAttachmentUpload now uploadID authorCode = .ok upload ∧
      validateAttachmentChunk sha256Bytes index ciphertext cipherSHA256 upload.logicalSize = .ok () ∧
      StoresChunk sha256Bytes s s' ⟨uploadID, index, ciphertext.length, cipherSHA256⟩ ciphertext
        known ∧
      s'.attachments = s.attachments ∧ s'.uploads = s.uploads ∧ s'.quotas = s.quotas ∧
      s'.publishedFiles = s.publishedFiles := by
  unfold storeAttachmentChunk at hstore
  obtain ⟨upload, hload, hstore⟩ := bind_eq_ok.1 hstore
  obtain ⟨_, hvalid, hstore⟩ := bind_eq_ok.1 hstore
  refine ⟨upload, hload, hvalid, ?_⟩
  split at hstore
  · rename_i existing hlookup
    split_ifs at hstore with hsame hmatch
    cases hstore
    obtain ⟨hid, hindex⟩ : existing.uploadID = uploadID ∧ existing.chunkIndex = index := by
      simpa [ChunkRow.key] using Table.key_of_lookup hlookup
    have hrow : existing = ⟨uploadID, index, ciphertext.length, cipherSHA256⟩ := by
      rw [← hid, ← hindex, ← hsame.1, ← hsame.2]
    rw [← hrow]
    exact ⟨.known (Table.mem_of_lookup hlookup) (by rw [hid]; exact hmatch) rfl, rfl, rfl, rfl, rfl⟩
  · rename_i hlookup
    have hnew := Table.lookup_eq_none hlookup
    dsimp only at hstore
    split at hstore
    · cases hstore
    · rename_i chunks hinsert
      have hrows := Table.rows_of_insert? hinsert
      split at hstore
      · split_ifs at hstore with hmatch
        cases hstore
        exact ⟨.recovered hnew hmatch hrows rfl, rfl, rfl, rfl, rfl⟩
      · rename_i hnone
        cases hstore
        exact ⟨.written hnew hnone hrows rfl, rfl, rfl, rfl, rfl⟩

/-- A valid chunk has its own digest. -/
theorem validateAttachmentChunk_spec {index : ℤ} {ciphertext : List UInt8} {cipherSHA256 : String}
    {logicalSize : ℤ}
    (hvalid : validateAttachmentChunk sha256Bytes index ciphertext cipherSHA256 logicalSize =
      .ok ()) : 0 ≤ index ∧ index < chunkCount logicalSize attachmentChunkSize ∧
        sha256Bytes ciphertext = cipherSHA256 := by
  unfold validateAttachmentChunk at hvalid
  split_ifs at hvalid with hrange hsize hdigest
  refine ⟨by omega, by omega, ?_⟩
  by_contra hne
  exact hdigest (.inr (.inr hne))

theorem storeAttachmentChunk_frame {s s' : AttachmentStore} {now : ℕ} {uploadID authorCode : String}
    {index : ℤ} {ciphertext : List UInt8} {cipherSHA256 : String} {known : Bool}
    (h : s.storeAttachmentChunk sha256Bytes now uploadID authorCode index ciphertext cipherSHA256 =
      .ok (known, s')) :
    s'.attachments = s.attachments ∧ s'.uploads = s.uploads ∧ s'.quotas = s.quotas ∧
      s'.publishedFiles = s.publishedFiles := by
  obtain ⟨-, -, -, -, hframe⟩ := storeAttachmentChunk_spec h
  exact hframe

theorem resumeAttachmentUpload_frame {s s' : AttachmentStore} {now : ℕ}
    {uploadID authorCode : String} {indexes : List ℤ}
    (h : s.resumeAttachmentUpload sha256Bytes now uploadID authorCode = .ok (indexes, s')) :
    s'.attachments = s.attachments ∧ s'.uploads = s.uploads ∧ s'.quotas = s.quotas ∧
      s'.publishedFiles = s.publishedFiles := by
  unfold resumeAttachmentUpload at h
  obtain ⟨_, -, h⟩ := bind_eq_ok.1 h
  cases h
  exact ⟨rfl, rfl, rfl, rfl⟩

/-- What a commit can do: nothing, move the files, or move them and record it. -/
theorem commitAttachmentUpload_cases (sha256Bytes : List UInt8 → String) (s : AttachmentStore)
    (now : ℕ) (committedAt : String) (txFails : Bool) (uploadID authorCode : String) :
    (s.commitAttachmentUpload sha256Bytes now committedAt txFails uploadID authorCode).2 = s ∨
    ∃ upload ∈ s.uploads.rows, upload.uploadID = uploadID ∧
      ((s.commitAttachmentUpload sha256Bytes now committedAt txFails uploadID authorCode).2 =
          s.publish upload ∨
        ∃ whole,
          (s.commitAttachmentUpload sha256Bytes now committedAt txFails uploadID authorCode).2 =
            (s.publish upload).recordCommit upload whole committedAt) := by
  unfold commitAttachmentUpload
  cases hload : s.loadAttachmentUpload now uploadID authorCode with
  | error e => exact Or.inl rfl
  | ok upload =>
    obtain ⟨hmem, hid⟩ := mem_of_loadAttachmentUpload hload
    dsimp only
    split
    · exact Or.inl rfl
    · split_ifs
      · exact Or.inl rfl
      · exact Or.inr ⟨upload, hmem, hid, Or.inl rfl⟩
      · exact Or.inr ⟨upload, hmem, hid, Or.inr ⟨_, rfl⟩⟩

theorem Balanced.apply {rfc3339 : ℕ → String} {s : AttachmentStore} (hb : Balanced s)
    (call : AttachmentCall) : Balanced (s.apply sha256Bytes rfc3339 call) := by
  cases call with
  | initUpload now attachmentID uploadID room authorCode logicalSize txFails =>
    dsimp only [AttachmentStore.apply]
    split
    · split_ifs
      · exact hb
      · exact hb.initializeAttachment (by assumption)
    · exact hb
  | storeChunk now uploadID authorCode index ciphertext cipherSHA256 txFails =>
    dsimp only [AttachmentStore.apply]
    split
    · split_ifs
      · exact hb
      · rename_i heq _
        obtain ⟨ha, hu, hq, -⟩ := storeAttachmentChunk_frame heq
        exact hb.of_eq ha hu hq
    · exact hb
  | resume now uploadID authorCode deleted =>
    dsimp only [AttachmentStore.apply]
    split
    · rename_i heq
      obtain ⟨ha, hu, hq, -⟩ := resumeAttachmentUpload_frame heq
      exact hb.of_eq ha hu hq
    · exact hb.of_eq rfl rfl rfl
    · exact hb
  | commit now committedAt uploadID authorCode renameFails txFails =>
    dsimp only [AttachmentStore.apply]
    split_ifs
    · exact hb
    · rcases commitAttachmentUpload_cases sha256Bytes s now committedAt txFails uploadID
        authorCode with he | ⟨upload, hmem, -, he | ⟨whole, he⟩⟩
      · rw [he]
        exact hb
      · rw [he]
        exact hb.of_eq rfl rfl rfl
      · rw [he]
        have hpub : Balanced (s.publish upload) := hb.of_eq rfl rfl rfl
        exact hpub.recordCommit hmem whole committedAt
  | cleanup now removed =>
    cases removed with
    | none => exact hb.removeExpired List.filter_sublist
    | some n => exact hb.removeExpired ((List.take_sublist _ _).trans List.filter_sublist)
  | disk partialFiles publishedFiles => exact hb.of_eq rfl rfl rfl

variable (sha256Bytes)

/-- In every run of calls from an empty database, whatever their arguments and wherever they fail,
the two counters of every room are the sums they stand for, and together within the limit. -/
theorem quota_exact (rfc3339 : ℕ → String) (calls : List AttachmentCall) (room : String) :
    let s := EventMachine.run (AttachmentStore.apply sha256Bytes rfc3339) empty calls
    s.reservedBytes room =
        ((s.uploads.rows.filter fun r => r.room == room).map UploadRow.reservedBytes).sum ∧
      s.usedBytes room =
        ((s.attachments.rows.filter fun r => r.room == room && r.committedAt.isSome).map
          AttachmentRow.logicalSize).sum ∧
      0 ≤ s.reservedBytes room ∧ 0 ≤ s.usedBytes room ∧
      s.reservedBytes room + s.usedBytes room ≤ 20 * 1024 * 1024 * 1024 := by
  intro s
  have hb : Balanced s :=
    EventMachine.run_invariant _ (fun s call (hs : Balanced s) => hs.apply call) balanced_empty calls
  exact ⟨hb.reserved room, hb.used room, (hb.nonneg room).1, (hb.nonneg room).2, hb.within room⟩

end AttachmentStore

end LanChat
