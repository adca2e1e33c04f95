import LanChat.Hub.State

/-!
# The attachment handlers (`server-go/hub.go`)

An upload is open to its author while the author is in the upload's room; a committed attachment
can be read by whoever is in its room.
-/

namespace LanChat

namespace Hub

open GoStrings Registry

/-- The attachment part of the database after an operation. -/
def withAttachments (h : Hub) (attachments : AttachmentStore) : Hub :=
  { h with db := { h.db with attachments } }

/-- The error text of an initialization. -/
def attachmentInitError : AttachmentError → String
  | .errAttachmentTooLarge => "attachment exceeds the 5 GiB limit"
  | .errInvalidAttachmentSize => "Invalid attachment size"
  | .errRoomQuotaExceeded => "Room attachment quota exceeded"
  | _ => "Attachment initialization failed"

/-- `handleAttachmentInit`. -/
def handleAttachmentInit (h : Hub) (platform : Platform) (env : Env) (c : ClientID)
    (room : String) (logicalSize : ℤ) (commandID : String) : Hub :=
  match h.registry.client? c with
  | none => h
  | some obj =>
    if !(h.registry.isConnected c && h.offlineStore) then
      h.deliverError c "Attachment service unavailable" "" commandID
    else if !h.registry.inRoom room c then
      h.deliverError c "Attachment upload access denied" "" commandID
    else match env.callAttachment .initializeAttachment (h.db.attachments.initializeAttachment
        env.now env.attachmentID env.uploadID room obj.normalizedCode logicalSize) with
      | .error e => h.deliverError c (attachmentInitError e) "" commandID
      | .ok (upload, attachments) => (h.withAttachments attachments).tell c
          { type := .attachmentInit, room, attachmentID := upload.attachmentID
            uploadID := upload.uploadID, chunkSize := upload.chunkSize
            expiresAt := platform.rfc3339 upload.expiresAt, commandID }

/-- The error text of a refused upload. -/
def uploadAccessError : AttachmentError → String
  | .errAttachmentUploadUnauthorized => "Attachment upload access denied"
  | .errAttachmentUploadExpired => "Attachment upload expired"
  | _ => "Attachment upload not found"

/-- `attachmentUploadAccess`: `none` when the sender may go on, else the error it gets. -/
def attachmentUploadAccess (h : Hub) (env : Env) (c : ClientID) (obj : Client)
    (uploadID : String) : Option String :=
  if !(h.registry.isConnected c && h.offlineStore) then some "Attachment service unavailable"
  else match env.callAttachment .loadAttachmentUpload
      (h.db.attachments.loadAttachmentUpload env.now uploadID obj.normalizedCode) with
    | .error e => some (uploadAccessError e)
    | .ok upload =>
      if h.registry.inRoom upload.room c then none else some "Attachment upload access denied"

/-- The error text of a refused chunk. -/
def chunkError : AttachmentError → String
  | .errAttachmentChunkHashMismatch => "Attachment chunk hash mismatch"
  | .errAttachmentChunkOutOfRange | .errAttachmentChunkTooLarge => "Invalid attachment chunk"
  | _ => "Attachment chunk rejected"

/-- `handleAttachmentChunk`. -/
def handleAttachmentChunk (h : Hub) (platform : Platform) (env : Env) (c : ClientID)
    (uploadID : String) (index : ℤ) (ciphertext cipherSHA256 commandID : String) : Hub :=
  match h.registry.client? c with
  | none => h
  | some obj =>
    match h.attachmentUploadAccess env c obj uploadID with
    | some content => h.deliverError c content "" commandID
    | none =>
      match base64Decode ciphertext with
      | none => h.deliverError c "Invalid attachment chunk" "" commandID
      | some bytes =>
        match env.callAttachment .storeAttachmentChunk (h.db.attachments.storeAttachmentChunk
            platform.sha256Bytes env.now uploadID obj.normalizedCode index bytes cipherSHA256) with
        | .error e => h.deliverError c (chunkError e) "" commandID
        | .ok (duplicate, attachments) => (h.withAttachments attachments).tell c
            { type := .attachmentChunk, uploadID, chunkIndex := index
              content := if duplicate then "duplicate" else "stored", commandID }

/-- The bitmap of `attachmentResumeMessage`: hexadecimal bytes, least significant bit first. -/
def bitmapHex (indexes : List ℤ) : String :=
  let highest := indexes.foldl max 0
  let digit := fun n : ℕ => "0123456789abcdef".toList.getD n '0'
  let byte := fun i : ℕ => (List.range 8).foldl
    (fun n bit => if indexes.contains ((8 * i + bit : ℕ) : ℤ) then n + 2 ^ bit else n) 0
  String.ofList ((List.range (highest.toNat / 8 + 1)).flatMap fun i =>
    [digit (byte i / 16), digit (byte i % 16)])

/-- `attachmentResumeMessage`. -/
def attachmentResumeMessage (uploadID commandID : String) (indexes : List ℤ) : Message :=
  if indexes.length ≤ 8192 then
    { type := .attachmentResume, uploadID, commandID, receivedIndexes := indexes }
  else { type := .attachmentResume, uploadID, commandID, receivedBitmap := bitmapHex indexes }

/-- `handleAttachmentResume`. -/
def handleAttachmentResume (h : Hub) (platform : Platform) (env : Env) (c : ClientID)
    (uploadID commandID : String) : Hub :=
  match h.registry.client? c with
  | none => h
  | some obj =>
    match h.attachmentUploadAccess env c obj uploadID with
    | some content => h.deliverError c content "" commandID
    | none =>
      match env.callAttachment .resumeAttachmentUpload
          (h.db.attachments.resumeAttachmentUpload platform.sha256Bytes env.now uploadID
            obj.normalizedCode) with
      | .error _ => h.deliverError c "Attachment resume failed" "" commandID
      | .ok (indexes, attachments) => (h.withAttachments attachments).tell c
          (attachmentResumeMessage uploadID commandID indexes)

/-- `handleAttachmentCommit`. -/
def handleAttachmentCommit (h : Hub) (platform : Platform) (env : Env) (c : ClientID)
    (uploadID commandID : String) : Hub :=
  match h.registry.client? c with
  | none => h
  | some obj =>
    match h.attachmentUploadAccess env c obj uploadID with
    | some content => h.deliverError c content "" commandID
    | none =>
      if env.fails .commitAttachmentUpload then
        h.deliverError c "Attachment commit failed" "" commandID
      else
        let committed := h.db.attachments.commitAttachmentUpload platform.sha256Bytes env.now
          (platform.rfc3339 env.now) (env.fails .commitAttachmentTransaction) uploadID
          obj.normalizedCode
        let h := h.withAttachments committed.2
        match committed.1 with
        | .error .errAttachmentChunksIncomplete =>
          h.deliverError c "Attachment chunks are incomplete" "" commandID
        | .error _ => h.deliverError c "Attachment commit failed" "" commandID
        | .ok commit => h.tell c
            { type := .attachmentCommit, attachmentID := commit.attachmentID
              logicalSize := commit.logicalSize, wholeSha256 := commit.wholeCipherSHA256
              content := "committed", commandID }

/-- The `attachment.download` reply for a chunk. -/
def downloadMessage (chunk : AttachmentStore.AttachmentDownloadChunk) (commandID : String) :
    Message :=
  { type := .attachmentDownload, attachmentID := chunk.attachmentID, chunkIndex := chunk.index
    ciphertext := base64Encode chunk.ciphertext, cipherSHA256 := chunk.cipherSHA256
    content := if chunk.last then "last" else "chunk", commandID }

/-- `handleAttachmentDownload`. -/
def handleAttachmentDownload (h : Hub) (platform : Platform) (env : Env) (c : ClientID)
    (attachmentID : String) (index : ℤ) (commandID : String) : Hub :=
  if !(h.registry.isConnected c && h.offlineStore) then h
  else
    let room := if env.fails .attachmentRoom then none
      else h.db.attachments.attachmentRoom attachmentID
    if !room.any (fun room => h.registry.inRoom room c) then
      h.deliverError c "Attachment download access denied" "" commandID
    else match env.callAttachment .readAttachmentChunk
        (h.db.attachments.readAttachmentChunk platform.sha256Bytes attachmentID index) with
      | .error _ => h.deliverError c "Attachment download failed" "" commandID
      | .ok chunk => h.tell c (downloadMessage chunk commandID)

end Hub

end LanChat
