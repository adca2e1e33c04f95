import LanChat.Lib.Table
import LanChat.Message
import Mathlib.Data.List.Sort

/-!
# Encrypted attachments (`server-go/attachment_store.go`)

The tables `attachments`, `attachment_uploads`, `attachment_chunks`, `room_quotas` and the chunk
files, `.partial/<upload>/<index>.bin` before the commit and `<attachment>/<index>.bin` after it.

An instant is a number of nanoseconds and `rfc3339` its text in UTC; `time.Parse` reads such a
text back.  Fresh ids come from `uuid.NewString`, so a text that `uuid.Parse` refuses names no
row; both cases end in the same error, and the check is not repeated here.  `created_at` and
`reference_count` are left out: nothing reads them.
-/

namespace LanChat

open GoStrings

/-- `maxRoomAttachmentBytes`. -/
def maxRoomAttachmentBytes : ℤ := 20 * 1024 * 1024 * 1024
/-- `attachmentChunkSize`. -/
def attachmentChunkSize : ℤ := 47 * 1024
/-- `attachmentCryptoTagSize`. -/
def attachmentCryptoTagSize : ℤ := 16
/-- `attachmentUploadTTL`, in nanoseconds. -/
def attachmentUploadTTL : ℕ := 24 * 60 * 60 * 1000000000

/-- The sentinel errors of the attachment store. -/
inductive AttachmentError
  | text (message : String)
  | errAttachmentTooLarge
  | errRoomQuotaExceeded
  | errInvalidAttachmentSize
  | errAttachmentUploadNotFound
  | errAttachmentNotFound
  | errAttachmentUploadUnauthorized
  | errAttachmentUploadExpired
  | errAttachmentChunkOutOfRange
  | errAttachmentChunkTooLarge
  | errAttachmentChunkHashMismatch
  | errAttachmentChunkConflict
  | errAttachmentChunksIncomplete
  | errAttachmentAlreadyCommitted
  deriving DecidableEq, Repr

/-- A row of `attachments`. -/
structure AttachmentRow where
  attachmentID : String
  room : String
  logicalSize : ℤ
  wholeSha256 : String
  committedAt : Option String
  deriving DecidableEq, Repr

/-- A row of `attachment_uploads`. -/
structure UploadRow where
  uploadID : String
  attachmentID : String
  room : String
  authorCode : String
  logicalSize : ℤ
  reservedBytes : ℤ
  chunkSize : ℤ
  expiresAt : ℕ
  deriving DecidableEq, Repr

/-- `upload_id` and `attachment_id` are both unique. -/
def UploadRow.clash (a b : UploadRow) : Bool :=
  Table.keyClash UploadRow.uploadID a b || Table.keyClash UploadRow.attachmentID a b

/-- A row of `attachment_chunks`. -/
structure ChunkRow where
  uploadID : String
  chunkIndex : ℤ
  cipherSize : ℤ
  cipherSha256 : String
  deriving DecidableEq, Repr

/-- `PRIMARY KEY(upload_id, chunk_index)`. -/
def ChunkRow.key (r : ChunkRow) : String × ℤ := (r.uploadID, r.chunkIndex)

/-- A row of `room_quotas`. -/
structure QuotaRow where
  room : String
  reservedBytes : ℤ
  usedBytes : ℤ
  deriving DecidableEq, Repr

/-- A chunk file in the directory of an upload or of an attachment. -/
structure ChunkFile where
  directory : String
  index : ℤ
  bytes : List UInt8
  deriving DecidableEq, Repr

/-- The attachment part of the database and the chunk files. -/
structure AttachmentStore where
  attachments : Table (Table.keyClash AttachmentRow.attachmentID)
  uploads : Table UploadRow.clash
  chunks : Table (Table.keyClash ChunkRow.key)
  quotas : Table (Table.keyClash QuotaRow.room)
  partialFiles : List ChunkFile
  publishedFiles : List ChunkFile

namespace AttachmentStore

/-- The store of an empty database. -/
def empty : AttachmentStore :=
  ⟨Table.empty _, Table.empty _, Table.empty _, Table.empty _, [], []⟩

/-- `(size + chunk - 1) / chunk`. -/
def chunkCount (logicalSize chunkSize : ℤ) : ℤ := (logicalSize + chunkSize - 1) / chunkSize

/-- The plain size of a chunk. -/
def plainSize (logicalSize chunkSize index : ℤ) : ℤ :=
  min chunkSize (logicalSize - index * chunkSize)

/-- The bytes of a chunk file. -/
def readFile (files : List ChunkFile) (directory : String) (index : ℤ) : Option (List UInt8) :=
  (files.find? fun f => f.directory == directory && f.index == index).map ChunkFile.bytes

/-- The quota row of a room after a reservation, when it fits. -/
def reserve (s : AttachmentStore) (room : String) (size : ℤ) :
    Option (Table (Table.keyClash QuotaRow.room)) :=
  match s.quotas.lookup QuotaRow.room room with
  | none => s.quotas.insert? ⟨room, size, 0⟩
  | some q =>
    if q.reservedBytes + q.usedBytes + size ≤ maxRoomAttachmentBytes then
      some (s.quotas.modify (fun r => r.room == room)
        (fun r => { r with reservedBytes := r.reservedBytes + size })
        (Table.keepsKey_keyClash fun _ => rfl))
    else none

/-- What `InitializeAttachment` returns. -/
structure AttachmentUpload where
  attachmentID : String
  uploadID : String
  chunkSize : ℤ
  expiresAt : ℕ
  deriving DecidableEq, Repr

/-- `InitializeAttachment`, with the two fresh ids it draws. -/
def initializeAttachment (s : AttachmentStore) (now : ℕ) (attachmentID uploadID : String)
    (room authorCode : String) (logicalSize : ℤ) :
    Except AttachmentError (AttachmentUpload × AttachmentStore) :=
  match validateRoomName room, normalizeUserCode authorCode with
  | .error _, _ => .error (.text "invalid room")
  | _, .error _ => .error (.text "invalid attachment author")
  | .ok _, .ok author =>
    if logicalSize ≤ 0 then .error .errInvalidAttachmentSize
    else if maxAttachmentLogicalBytes < logicalSize then .error .errAttachmentTooLarge
    else match s.reserve room logicalSize with
      | none => .error .errRoomQuotaExceeded
      | some quotas =>
        let upload : AttachmentUpload :=
          ⟨attachmentID, uploadID, attachmentChunkSize, now + attachmentUploadTTL⟩
        match s.attachments.insert? ⟨attachmentID, room, logicalSize, "", none⟩,
            s.uploads.insert? ⟨uploadID, attachmentID, room, author, logicalSize, logicalSize,
              attachmentChunkSize, now + attachmentUploadTTL⟩ with
        | some attachments, some uploads =>
          .ok (upload, { s with attachments, uploads, quotas })
        | _, _ => .error (.text "create attachment upload")

/-- `loadAttachmentUpload`. -/
def loadAttachmentUpload (s : AttachmentStore) (now : ℕ) (uploadID authorCode : String) :
    Except AttachmentError UploadRow :=
  match normalizeUserCode authorCode with
  | .error _ => .error (.text "invalid attachment author")
  | .ok author =>
    match s.uploads.lookup UploadRow.uploadID uploadID with
    | none => .error .errAttachmentUploadNotFound
    | some row =>
      if row.authorCode ≠ author then .error .errAttachmentUploadUnauthorized
      else if row.expiresAt ≤ now then .error .errAttachmentUploadExpired
      else .ok row

/-- Hexadecimal digits, lower case. -/
def isLowerHex (s : String) : Bool :=
  s.toList.all fun c => ('0' ≤ c && c ≤ '9') || ('a' ≤ c && c ≤ 'f')

section Digests

variable (sha256Bytes : List UInt8 → String)

/-- `validateAttachmentChunk`. -/
def validateAttachmentChunk (index : ℤ) (ciphertext : List UInt8) (cipherSHA256 : String)
    (logicalSize : ℤ) : Except AttachmentError Unit :=
  if index < 0 ∨ chunkCount logicalSize attachmentChunkSize ≤ index then
    .error .errAttachmentChunkOutOfRange
  else if ciphertext = [] ∨ maxAttachmentCipherChunkBytes < ciphertext.length then
    .error .errAttachmentChunkTooLarge
  else if cipherSHA256.utf8ByteSize ≠ sha256HexSize ∨ !isLowerHex cipherSHA256 ∨
      sha256Bytes ciphertext ≠ cipherSHA256 then
    .error .errAttachmentChunkHashMismatch
  else .ok ()

/-- `storedAttachmentChunkMatches`. -/
def storedAttachmentChunkMatches (s : AttachmentStore) (uploadID : String) (r : ChunkRow) : Bool :=
  match readFile s.partialFiles uploadID r.chunkIndex with
  | none => false
  | some bytes => decide ((bytes.length : ℤ) = r.cipherSize) && sha256Bytes bytes == r.cipherSha256

/-- `StoreAttachmentChunk`; the boolean says that the chunk was there already.  When the last
`INSERT` fails the file is removed again. -/
def storeAttachmentChunk (s : AttachmentStore) (now : ℕ) (uploadID authorCode : String)
    (index : ℤ) (ciphertext : List UInt8) (cipherSHA256 : String) :
    Except AttachmentError (Bool × AttachmentStore) := do
  let upload ← s.loadAttachmentUpload now uploadID authorCode
  validateAttachmentChunk sha256Bytes index ciphertext cipherSHA256 upload.logicalSize
  let row : ChunkRow := ⟨uploadID, index, ciphertext.length, cipherSHA256⟩
  match s.chunks.lookup ChunkRow.key (uploadID, index) with
  | some existing =>
    if existing.cipherSha256 = cipherSHA256 ∧ existing.cipherSize = ciphertext.length then
      if s.storedAttachmentChunkMatches sha256Bytes uploadID existing then .ok (true, s)
      else .error (.text "accepted attachment chunk on disk failed integrity check")
    else .error .errAttachmentChunkConflict
  | none =>
    match s.chunks.insert? row with
    | none => .error (.text "save attachment chunk")
    | some chunks =>
      match readFile s.partialFiles uploadID index with
      | some _ =>
        if s.storedAttachmentChunkMatches sha256Bytes uploadID row then .ok (true, { s with chunks })
        else .error .errAttachmentChunkConflict
      | none => .ok (false, { s with
          chunks, partialFiles := s.partialFiles ++ [⟨uploadID, index, ciphertext⟩] })

/-- `ResumeAttachmentUpload`: the indexes whose files are intact; the others lose their row and
their file. -/
def resumeAttachmentUpload (s : AttachmentStore) (now : ℕ) (uploadID authorCode : String) :
    Except AttachmentError (List ℤ × AttachmentStore) := do
  let _ ← s.loadAttachmentUpload now uploadID authorCode
  let rows := s.chunks.rows.filter fun r => r.uploadID == uploadID
  let invalid := rows.filter fun r => !s.storedAttachmentChunkMatches sha256Bytes uploadID r
  let valid := rows.filter fun r => s.storedAttachmentChunkMatches sha256Bytes uploadID r
  return ((valid.map ChunkRow.chunkIndex).insertionSort (· ≤ ·),
    { s with
      chunks := s.chunks.delete fun r => invalid.contains r
      partialFiles := s.partialFiles.filter fun f =>
        !(f.directory == uploadID && invalid.any fun r => r.chunkIndex == f.index) })

/-- One iteration of the verification loop of `CommitAttachmentUpload`. -/
def verifyChunk (s : AttachmentStore) (upload : UploadRow) (expected : ℤ) (r : ChunkRow) :
    Except AttachmentError (List UInt8) :=
  if r.chunkIndex ≠ expected then .error .errAttachmentChunksIncomplete
  else if r.cipherSize ≠
      plainSize upload.logicalSize upload.chunkSize r.chunkIndex + attachmentCryptoTagSize then
    .error .errAttachmentChunksIncomplete
  else match readFile s.partialFiles upload.uploadID r.chunkIndex with
    | none => .error (.text "open attachment chunk")
    | some bytes =>
      if s.storedAttachmentChunkMatches sha256Bytes upload.uploadID r then .ok bytes
      else .error (.text "attachment chunk failed integrity check")

/-- The verification loop: exactly the chunks `expected, expected + 1, …` up to the count. -/
def verifyChunks (s : AttachmentStore) (upload : UploadRow) :
    ℕ → ℤ → List ChunkRow → Except AttachmentError (List UInt8)
  | 0, _, [] => .ok []
  | 0, _, _ :: _ => .error .errAttachmentChunksIncomplete
  | _ + 1, _, [] => .error .errAttachmentChunksIncomplete
  | n + 1, expected, r :: rows => do
    let bytes ← s.verifyChunk sha256Bytes upload expected r
    let rest ← verifyChunks s upload n (expected + 1) rows
    return bytes ++ rest

/-- The directory of the upload becomes the directory of the attachment. -/
def publish (s : AttachmentStore) (upload : UploadRow) : AttachmentStore :=
  { s with
    partialFiles := s.partialFiles.filter fun f => f.directory != upload.uploadID
    publishedFiles := s.publishedFiles ++
      ((s.partialFiles.filter fun f => f.directory == upload.uploadID).map fun f =>
        { f with directory := upload.attachmentID }) }

/-- The transaction of `CommitAttachmentUpload`. -/
def recordCommit (s : AttachmentStore) (upload : UploadRow) (whole committedAt : String) :
    AttachmentStore :=
  { s with
    attachments := s.attachments.modify
      (fun r => r.attachmentID == upload.attachmentID && r.committedAt.isNone)
      (fun r => { r with wholeSha256 := whole, committedAt := some committedAt })
      (Table.keepsKey_keyClash fun _ => rfl)
    quotas := s.quotas.modify (fun r => r.room == upload.room)
      (fun r => { r with
        reservedBytes := r.reservedBytes - upload.logicalSize
        usedBytes := r.usedBytes + upload.logicalSize })
      (Table.keepsKey_keyClash fun _ => rfl)
    chunks := s.chunks.delete fun r => r.uploadID == upload.uploadID
    uploads := s.uploads.delete fun r => r.uploadID == upload.uploadID }

/-- What `CommitAttachmentUpload` returns. -/
structure AttachmentCommit where
  attachmentID : String
  logicalSize : ℤ
  wholeCipherSHA256 : String
  deriving DecidableEq, Repr

/-- `CommitAttachmentUpload`; the files move before the transaction, which can fail on its own. -/
def commitAttachmentUpload (s : AttachmentStore) (now : ℕ) (committedAt : String)
    (txFails : Bool) (uploadID authorCode : String) :
    Except AttachmentError AttachmentCommit × AttachmentStore :=
  match s.loadAttachmentUpload now uploadID authorCode with
  | .error e => (.error e, s)
  | .ok upload =>
    let rows := (s.chunks.rows.filter fun r => r.uploadID == uploadID).insertionSort
      fun a b => a.chunkIndex ≤ b.chunkIndex
    match s.verifyChunks sha256Bytes upload
        (chunkCount upload.logicalSize upload.chunkSize).toNat 0 rows with
    | .error e => (.error e, s)
    | .ok bytes =>
      if s.publishedFiles.any fun f => f.directory == upload.attachmentID then
        (.error .errAttachmentAlreadyCommitted, s)
      else if txFails then (.error (.text "commit attachment transaction"), s.publish upload)
      else (.ok ⟨upload.attachmentID, upload.logicalSize, sha256Bytes bytes⟩,
        (s.publish upload).recordCommit upload (sha256Bytes bytes) committedAt)

/-- What `ReadAttachmentChunk` returns. -/
structure AttachmentDownloadChunk where
  attachmentID : String
  index : ℤ
  ciphertext : List UInt8
  cipherSHA256 : String
  last : Bool
  deriving DecidableEq, Repr

/-- `ReadAttachmentChunk`. -/
def readAttachmentChunk (s : AttachmentStore) (attachmentID : String) (index : ℤ) :
    Except AttachmentError AttachmentDownloadChunk :=
  match s.attachments.lookup AttachmentRow.attachmentID attachmentID with
  | none => .error .errAttachmentNotFound
  | some row =>
    let stored := (s.uploads.lookup UploadRow.attachmentID attachmentID).elim 0 UploadRow.chunkSize
    let chunkSize := if stored ≤ 0 then attachmentChunkSize else stored
    if row.committedAt.isNone then .error .errAttachmentNotFound
    else if index < 0 ∨ chunkCount row.logicalSize chunkSize ≤ index then
      .error .errAttachmentChunkOutOfRange
    else match readFile s.publishedFiles attachmentID index with
      | none => .error (.text "read attachment chunk")
      | some bytes =>
        if (bytes.length : ℤ) ≠ plainSize row.logicalSize chunkSize index + attachmentCryptoTagSize
        then .error (.text "attachment chunk failed integrity check")
        else .ok ⟨attachmentID, index, bytes, sha256Bytes bytes,
          decide (index + 1 = chunkCount row.logicalSize chunkSize)⟩

end Digests

/-- The room of an attachment. -/
def attachmentRoom (s : AttachmentStore) (attachmentID : String) : Option String :=
  (s.attachments.lookup AttachmentRow.attachmentID attachmentID).map AttachmentRow.room

/-- The clean-up of one expired upload. -/
def removeUpload (s : AttachmentStore) (upload : UploadRow) : AttachmentStore :=
  { s with
    chunks := s.chunks.delete fun r => r.uploadID == upload.uploadID
    uploads := s.uploads.delete fun r => r.uploadID == upload.uploadID
    attachments := s.attachments.delete fun r =>
      r.attachmentID == upload.attachmentID && r.committedAt.isNone
    quotas := s.quotas.modify (fun r => r.room == upload.room)
      (fun r => { r with reservedBytes := r.reservedBytes - upload.reservedBytes })
      (Table.keepsKey_keyClash fun _ => rfl)
    partialFiles := s.partialFiles.filter fun f => f.directory != upload.uploadID }

/-- `CleanupExpiredAttachmentUploads`: the comparison is one of texts. -/
def cleanupExpiredAttachmentUploads (s : AttachmentStore) (rfc3339 : ℕ → String) (now : ℕ) :
    AttachmentStore :=
  (s.uploads.rows.filter fun r => rfc3339 r.expiresAt ≤ rfc3339 now).foldl removeUpload s

end AttachmentStore

end LanChat
