import LanChat.Client.Resume
import LanChat.Client.SendMessage
import LanChat.Hub.Queues
import LanChat.Lib.Base64
import LanChat.Store.AttachmentQuota

/-!
# The size of attachment frames

A chunk of 47 KiB is sent in base64 with an envelope around it, in a frame of at most 65536 bytes.

* `replyFits_init`, …, `replyFits_download`: the five replies, for the longest command id;
* `attachmentChunkCommand_fits`: the client's command, for the largest chunk;
* `Rows`: the ids, sizes and indexes in the attachment tables, after every step;
* `Hub.attachment_frames_fit`: every reply and every chunk of every run.
-/

namespace LanChat

open Base64 GoJson GoStrings

/-- A text of so many characters, none of which is escaped. -/
def PlainText (size : ℕ) (s : String) : Prop := s.toList.all isPlain = true ∧ s.toList.length ≤ size

theorem PlainText.weight_le {size : ℕ} {s : String} (h : PlainText size s) (name : String) :
    textWeight name s ≤ name.utf8ByteSize + size + 6 :=
  Nat.le_trans (textWeight_plain_le name h.1) (Nat.add_le_add_right (Nat.add_le_add_left h.2 _) 6)

/-- What the library functions return: digests in hexadecimal, times in RFC 3339. -/
structure Platform.Documented (platform : Platform) : Prop where
  sha256Bytes : ∀ bytes, PlainText 64 (platform.sha256Bytes bytes)
  rfc3339 : ∀ t, PlainText 35 (platform.rfc3339 t)

/-- The fresh ids are UUIDs. -/
structure Env.DrawsUUIDs (env : Env) : Prop where
  attachmentID : PlainText 36 env.attachmentID
  uploadID : PlainText 36 env.uploadID

/-! ### The messages -/

/-- The bytes of an attachment reply, with all the members that one can have. -/
theorem weight_reply (type : MessageType) (commandID room content attachmentID uploadID : String)
    (logicalSize chunkSize : ℤ) (expiresAt : String) (chunkIndex : ℤ)
    (ciphertext cipherSHA256 wholeSha256 : String) (receivedIndexes : List ℤ)
    (receivedBitmap : String) :
    weight ({ type, commandID, room, content, attachmentID, uploadID, logicalSize, chunkSize
              expiresAt, chunkIndex, ciphertext, cipherSHA256, wholeSha256, receivedIndexes
              receivedBitmap } : Message).members =
      textSize type.name + 8 + textWeight "command_id" commandID + textWeight "room" room +
        textWeight "content" content + textWeight "attachment_id" attachmentID +
        textWeight "upload_id" uploadID + weight (optInt "logical_size" logicalSize) +
        weight (optInt "chunk_size" chunkSize) + textWeight "expires_at" expiresAt +
        weight (optInt "chunk_index" chunkIndex) + textWeight "ciphertext" ciphertext +
        textWeight "cipher_sha256" cipherSHA256 + textWeight "whole_sha256" wholeSha256 +
        arrayWeight "received_indexes" (receivedIndexes.map toString) +
        textWeight "received_bitmap" receivedBitmap := by
  have hepoch : optInt "epoch" ((0 : UInt64).toNat : ℤ) = [] := rfl
  have htype : "type".utf8ByteSize = 4 := rfl
  dsimp only [Message.members, Message.membersWith, Message.optionalMembers]
  rw [hepoch]
  simp only [List.map_nil, optText_empty, optBool_false, optInt_zero, optArray_nil, List.append_nil,
    List.nil_append, weight_cons, weight_append, weight_optText, weight_optArray, size_member,
    size_quote, htype]
  omega

/-- A command id that the server accepts. -/
theorem weight_commandID {commandID : String} (h : commandID.utf8ByteSize ≤ maxCommandIDSize) :
    textWeight "command_id" commandID ≤ 400 := by
  have hname : "command_id".utf8ByteSize = 10 := rfl
  have := textWeight_le "command_id" commandID
  unfold maxCommandIDSize at h
  omega

/-- The indexes of chunks have six digits. -/
theorem weight_indexes {indexes : List ℤ} (h : ∀ i ∈ indexes, 0 ≤ i ∧ i < 10 ^ 6) :
    weight (indexes.map toString) ≤ 7 * indexes.length := by
  induction indexes with
  | nil => exact Nat.le_refl _
  | cons i l ih =>
    obtain ⟨hi, hlt⟩ := h i List.mem_cons_self
    have hsize := size_toString_le (by decide) hi hlt
    have hrest := ih fun j hj => h j (List.mem_cons_of_mem _ hj)
    rw [List.map_cons, weight_cons, List.length_cons]
    omega

/-- The replies of the five attachment requests. -/
def attachmentTypes : List MessageType :=
  [.attachmentInit, .attachmentChunk, .attachmentResume, .attachmentCommit, .attachmentDownload]

/-- A reply passes `writeFrame`. -/
def ReplyFits (m : Message) : Prop := m.type ∈ attachmentTypes → sendMessage m = true

theorem replyFits_of_type {m : Message} (ht : m.type ∉ attachmentTypes) : ReplyFits m :=
  fun h => absurd h ht

theorem replyFits_of_weight {m : Message} (hw : weight m.members < maxMessageSize) : ReplyFits m :=
  fun _ => (sendMessage_iff m).2 hw

/-- The digits of a bitmap. -/
theorem isPlain_bitmapHex (indexes : List ℤ) :
    (Hub.bitmapHex indexes).toList.all isPlain = true := by
  have hdigit : ∀ n : ℕ, isPlain ("0123456789abcdef".toList.getD n '0') = true := by
    intro n
    by_cases hn : n < 16
    · revert n
      decide
    · rw [List.getD_eq_default _ _ (by simpa using hn)]
      decide
  unfold Hub.bitmapHex
  rw [String.toList_ofList, List.all_flatMap, List.all_eq_true]
  intro i _
  simp only [List.all_cons, hdigit, List.all_nil, Bool.and_self]

/-- Base64 makes four characters of three bytes. -/
theorem weight_ciphertext (bytes : List UInt8) :
    textWeight "ciphertext" (base64Encode bytes) ≤ (bytes.length + 2) / 3 * 4 + 16 := by
  have hsize := textWeight_plain_le "ciphertext" (isPlain_base64Encode bytes)
  have hlength : (base64Encode bytes).toList.length = (bytes.length + 2) / 3 * 4 := by
    rw [base64Encode, String.toList_ofList, length_base64Chars]
  have hname : "ciphertext".utf8ByteSize = 10 := rfl
  omega

/-- The bytes of the types of the replies. -/
theorem textSize_replyTypes : textSize (MessageType.name .attachmentInit) = 17 ∧
    textSize (MessageType.name .attachmentChunk) = 18 ∧
    textSize (MessageType.name .attachmentCommit) = 19 ∧
    textSize (MessageType.name .attachmentResume) = 19 ∧
    textSize (MessageType.name .attachmentDownload) = 21 := by decide +kernel

theorem textWeight_place (last : Bool) :
    textWeight "content" (if last then "last" else "chunk") ≤ 18 := by
  have hplain : (if last then "last" else "chunk").toList.all isPlain = true := by
    cases last <;> rfl
  have hsize := textWeight_plain_le "content" hplain
  have hlength : (if last then "last" else "chunk").toList.length ≤ 5 := by
    cases last <;> decide
  have hname : "content".utf8ByteSize = 7 := rfl
  omega

theorem maxChunkCount_eq : Client.maxChunkCount = 111551 := rfl

theorem maxChunkCount_lt : Client.maxChunkCount < 10 ^ 6 := by
  rw [maxChunkCount_eq]
  decide

section Replies

variable {commandID : String} (hcommand : commandID.utf8ByteSize ≤ maxCommandIDSize)

include hcommand

theorem replyFits_init {room attachmentID uploadID expiresAt : String} {chunkSize : ℤ}
    (hroom : PlainText maxRoomNameSize room) (hattachment : PlainText 36 attachmentID)
    (hupload : PlainText 36 uploadID) (hchunk : 0 ≤ chunkSize ∧ chunkSize < 10 ^ 6)
    (hexpires : PlainText 35 expiresAt) :
    ReplyFits { type := .attachmentInit, room, attachmentID, uploadID, chunkSize, expiresAt
                commandID } := by
  have htype := textSize_replyTypes.1
  have h₁ := weight_commandID hcommand
  have h₂ := hroom.weight_le "room"
  have h₃ := hattachment.weight_le "attachment_id"
  have h₄ := hupload.weight_le "upload_id"
  have h₅ := weight_optInt_le "chunk_size" (by decide) hchunk.1 hchunk.2
  have h₆ := hexpires.weight_le "expires_at"
  have hnames : "room".utf8ByteSize = 4 ∧ "attachment_id".utf8ByteSize = 13 ∧
      "upload_id".utf8ByteSize = 9 ∧ "chunk_size".utf8ByteSize = 10 ∧
      "expires_at".utf8ByteSize = 10 := ⟨rfl, rfl, rfl, rfl, rfl⟩
  refine replyFits_of_weight ?_
  rw [weight_reply, htype]
  simp only [textWeight_empty, optInt_zero, weight_nil, List.map_nil, arrayWeight_nil]
  unfold maxRoomNameSize at h₂
  unfold maxMessageSize
  omega

theorem replyFits_chunk {uploadID content : String} {index : ℤ} (hupload : PlainText 36 uploadID)
    (hindex : 0 ≤ index ∧ index < 10 ^ 6) (hcontent : PlainText 9 content) :
    ReplyFits { type := .attachmentChunk, uploadID, chunkIndex := index, content, commandID } := by
  have htype := textSize_replyTypes.2.1
  have h₁ := weight_commandID hcommand
  have h₂ := hupload.weight_le "upload_id"
  have h₃ := weight_optInt_le "chunk_index" (by decide) hindex.1 hindex.2
  have h₄ := hcontent.weight_le "content"
  have hnames : "upload_id".utf8ByteSize = 9 ∧ "chunk_index".utf8ByteSize = 11 ∧
      "content".utf8ByteSize = 7 := ⟨rfl, rfl, rfl⟩
  refine replyFits_of_weight ?_
  rw [weight_reply, htype]
  simp only [textWeight_empty, optInt_zero, weight_nil, List.map_nil, arrayWeight_nil]
  unfold maxMessageSize
  omega

theorem replyFits_commit {attachmentID content whole : String} {logicalSize : ℤ}
    (hattachment : PlainText 36 attachmentID) (hsize : 0 ≤ logicalSize ∧ logicalSize < 10 ^ 10)
    (hwhole : PlainText 64 whole) (hcontent : PlainText 9 content) :
    ReplyFits { type := .attachmentCommit, attachmentID, logicalSize, wholeSha256 := whole, content
                commandID } := by
  have htype := textSize_replyTypes.2.2.1
  have h₁ := weight_commandID hcommand
  have h₂ := hattachment.weight_le "attachment_id"
  have h₃ := weight_optInt_le "logical_size" (by decide) hsize.1 hsize.2
  have h₄ := hwhole.weight_le "whole_sha256"
  have h₅ := hcontent.weight_le "content"
  have hnames : "attachment_id".utf8ByteSize = 13 ∧ "logical_size".utf8ByteSize = 12 ∧
      "whole_sha256".utf8ByteSize = 12 ∧ "content".utf8ByteSize = 7 := ⟨rfl, rfl, rfl, rfl⟩
  refine replyFits_of_weight ?_
  rw [weight_reply, htype]
  simp only [textWeight_empty, optInt_zero, weight_nil, List.map_nil, arrayWeight_nil]
  unfold maxMessageSize
  omega

/-- A list of 8192 indexes fits, and so does the bitmap that takes its place. -/
theorem replyFits_resume {uploadID : String} {indexes : List ℤ} (hupload : PlainText 36 uploadID)
    (hindexes : ∀ i ∈ indexes, 0 ≤ i ∧ i < Client.maxChunkCount) :
    ReplyFits (Hub.attachmentResumeMessage uploadID commandID indexes) := by
  have htype := textSize_replyTypes.2.2.2.1
  have h₁ := weight_commandID hcommand
  have h₂ := hupload.weight_le "upload_id"
  have hnames : "upload_id".utf8ByteSize = 9 ∧ "received_indexes".utf8ByteSize = 16 ∧
      "received_bitmap".utf8ByteSize = 15 := ⟨rfl, rfl, rfl⟩
  have hmax := maxChunkCount_lt
  unfold Hub.attachmentResumeMessage
  split_ifs with hlen
  all_goals
    refine replyFits_of_weight ?_
    rw [weight_reply, htype]
    simp only [textWeight_empty, optInt_zero, weight_nil, List.map_nil, arrayWeight_nil]
    unfold maxMessageSize
  · have h₃ := weight_indexes fun i hi => ⟨(hindexes i hi).1, (hindexes i hi).2.trans hmax⟩
    have h₄ : arrayWeight "received_indexes" (indexes.map toString) ≤
        weight (indexes.map toString) + 21 := by
      unfold arrayWeight
      split_ifs <;> omega
    omega
  · have h₃ := textWeight_plain_le "received_bitmap" (isPlain_bitmapHex indexes)
    have h₄ := (Client.size_bitmapHex hindexes).2
    have h₅ := length_le_utf8ByteSize (Hub.bitmapHex indexes)
    have h₆ : ((Client.maxChunkCount + 7) / 8 * 2).toNat ≤ 30000 := by
      rw [maxChunkCount_eq]
      decide
    omega

/-- A full chunk fits in base64. -/
theorem replyFits_download {chunk : AttachmentStore.AttachmentDownloadChunk}
    (hattachment : PlainText 36 chunk.attachmentID)
    (hindex : 0 ≤ chunk.index ∧ chunk.index < 10 ^ 6)
    (hbytes : (chunk.ciphertext.length : ℤ) ≤ attachmentChunkSize + attachmentCryptoTagSize)
    (hsha : PlainText 64 chunk.cipherSHA256) :
    ReplyFits (Hub.downloadMessage chunk commandID) := by
  have htype := textSize_replyTypes.2.2.2.2
  have h₁ := weight_commandID hcommand
  have h₂ := hattachment.weight_le "attachment_id"
  have h₃ := weight_optInt_le "chunk_index" (by decide) hindex.1 hindex.2
  have h₄ := hsha.weight_le "cipher_sha256"
  have h₅ := weight_ciphertext chunk.ciphertext
  have h₆ := textWeight_place chunk.last
  have hnames : "attachment_id".utf8ByteSize = 13 ∧ "chunk_index".utf8ByteSize = 11 ∧
      "cipher_sha256".utf8ByteSize = 13 := ⟨rfl, rfl, rfl⟩
  refine replyFits_of_weight ?_
  unfold Hub.downloadMessage
  rw [weight_reply, htype]
  simp only [textWeight_empty, optInt_zero, weight_nil, List.map_nil, arrayWeight_nil]
  unfold attachmentChunkSize attachmentCryptoTagSize at hbytes
  unfold maxMessageSize
  omega

end Replies

/-! ### The client's command -/

theorem utf8ByteSize_asciiLower (s : String) : (asciiLower s).utf8ByteSize = s.utf8ByteSize := by
  have hchar : ∀ c : Char, c.toLower.utf8Size = c.utf8Size := by
    intro c
    have hlower := UnicodeCase.toNat_toLower c
    by_cases h : 65 ≤ c.toNat ∧ c.toNat ≤ 90
    · rw [if_pos h] at hlower
      have hone : ∀ d : Char, d.toNat ≤ 127 → d.utf8Size = 1 :=
        fun d hd => Char.utf8Size_eq_one_iff.2 hd
      rw [hone c (by omega), hone c.toLower (by omega)]
    · rw [if_neg h] at hlower
      rw [Char.toNat_inj.1 hlower]
  rw [utf8ByteSize_eq_sum, utf8ByteSize_eq_sum, toList_asciiLower, List.map_map]
  exact congrArg List.sum (List.map_congr_left fun c _ => hchar c)

/-- The names in the frame of a chunk are written as they are. -/
theorem size_chunkNames : weight (Json.dumpMembers [("type", .text "attachment.chunk")]) = 26 ∧
    (plainQuote "chunk_index" ++ ":").utf8ByteSize = 14 ∧
    ∀ name ∈ ["command_id", "upload_id", "ciphertext", "cipher_sha256"],
      (plainQuote name).utf8ByteSize = name.utf8ByteSize + 2 := by decide +kernel

/-- A chunk that the server accepts fits in the frame that the client builds for it. -/
theorem attachmentChunkCommand_fits (parse : String → Except String Json) {ready registered : Bool}
    {uploadId : String} {chunkIndex : ℤ} {ciphertext : List UInt8} {cipherSha256 commandId : String}
    {m : Client.Message}
    (h : Client.attachmentChunkCommand ready registered uploadId chunkIndex ciphertext cipherSha256
      commandId = some m)
    (hupload : PlainText 36 m.uploadID) (hcommand : m.commandID.utf8ByteSize ≤ maxCommandIDSize)
    (hindex : chunkIndex < 2 ^ 63) (hbytes : ciphertext.length ≤ maxAttachmentCipherChunkBytes) :
    ∃ v, m.serialize parse = .ok v ∧ v.dump.utf8ByteSize ≤ maxMessageSize := by
  unfold Client.attachmentChunkCommand at h
  split_ifs at h with hrefused hunregistered
  cases h
  simp only [Bool.or_eq_true, decide_eq_true_eq, not_or, bne_iff_ne, ne_eq, not_not] at hrefused
  obtain ⟨⟨⟨-, hpos⟩, -⟩, hsha⟩ := hrefused
  refine ⟨_, Client.serialize_chunk parse _ _ _ _ _, ?_⟩
  rw [Json.size_dump_sortedObject (by simp)]
  simp only [Json.dumpMembers_append, weight_append]
  obtain ⟨htype, hname, hnames⟩ := size_chunkNames
  replace hupload : PlainText 36 (trimSpace uploadId) := hupload
  replace hcommand : (trimSpace commandId).utf8ByteSize ≤ maxCommandIDSize := hcommand
  have h₁ := Json.weight_dump_optText "command_id" (hnames _ (by simp)) (trimSpace commandId)
  have h₂ := weight_commandID hcommand
  have h₃ := Json.weight_dump_optText "upload_id" (hnames _ (by simp)) (trimSpace uploadId)
  have h₄ := hupload.weight_le "upload_id"
  have h₅ : weight (Json.dumpMembers [("chunk_index", .int chunkIndex)]) ≤ 34 := by
    have hdigits := size_toString_le (n := chunkIndex) (k := 19) (by decide) (by omega) (by omega)
    rw [Json.dumpMembers, Json.dumpMembers, weight_cons, weight_nil, Json.dumpMember,
      String.utf8ByteSize_append, hname, Json.dump]
    omega
  have h₆ := Json.weight_dump_optText "ciphertext" (hnames _ (by simp)) (base64Encode ciphertext)
  have h₇ := weight_ciphertext ciphertext
  have h₈ := Json.weight_dump_optText "cipher_sha256" (hnames _ (by simp)) (asciiLower cipherSha256)
  have h₉ := textWeight_le "cipher_sha256" (asciiLower cipherSha256)
  rw [utf8ByteSize_asciiLower, hsha] at h₉
  have hnames : "upload_id".utf8ByteSize = 9 ∧ "cipher_sha256".utf8ByteSize = 13 := ⟨rfl, rfl⟩
  unfold maxAttachmentCipherChunkBytes at hbytes
  unfold maxMessageSize
  omega

/-! ### The tables -/

namespace AttachmentStore

/-- The ids, sizes and indexes in the tables. -/
structure Rows (s : AttachmentStore) : Prop where
  uploads : ∀ u ∈ s.uploads.rows, PlainText 36 u.uploadID ∧ PlainText 36 u.attachmentID ∧
    u.chunkSize = attachmentChunkSize ∧ 0 ≤ u.logicalSize ∧
      u.logicalSize ≤ maxAttachmentLogicalBytes
  attachments : ∀ a ∈ s.attachments.rows, PlainText 36 a.attachmentID ∧
    a.logicalSize ≤ maxAttachmentLogicalBytes
  chunks : ∀ r ∈ s.chunks.rows, 0 ≤ r.chunkIndex ∧ r.chunkIndex < Client.maxChunkCount

variable {s s' : AttachmentStore}

theorem rows_empty : Rows empty where
  uploads _ h := absurd h List.not_mem_nil
  attachments _ h := absurd h List.not_mem_nil
  chunks _ h := absurd h List.not_mem_nil

/-- Rows that go, and attachments that are committed. -/
theorem Rows.of_kept (hs : Rows s) (huploads : ∀ u ∈ s'.uploads.rows, u ∈ s.uploads.rows)
    (hattachments : ∀ a ∈ s'.attachments.rows, ∃ b ∈ s.attachments.rows,
      a.attachmentID = b.attachmentID ∧ a.logicalSize = b.logicalSize)
    (hchunks : ∀ r ∈ s'.chunks.rows, r ∈ s.chunks.rows) : Rows s' where
  uploads u hu := hs.uploads u (huploads u hu)
  attachments a ha := by
    obtain ⟨b, hb, hid, hsize⟩ := hattachments a ha
    rw [hid, hsize]
    exact hs.attachments b hb
  chunks r hr := hs.chunks r (hchunks r hr)

/-- The number of chunks of the largest attachment. -/
theorem chunkCount_le {logicalSize : ℤ} (h : logicalSize ≤ maxAttachmentLogicalBytes) :
    chunkCount logicalSize attachmentChunkSize ≤ Client.maxChunkCount := by
  have hmax := maxChunkCount_eq
  unfold maxAttachmentLogicalBytes at h
  unfold chunkCount attachmentChunkSize
  omega

theorem Rows.initializeAttachment (hs : Rows s) {now : ℕ}
    {attachmentID uploadID room authorCode : String} {logicalSize : ℤ} {upload : AttachmentUpload}
    (hattachment : PlainText 36 attachmentID) (hupload : PlainText 36 uploadID)
    (h : s.initializeAttachment now attachmentID uploadID room authorCode logicalSize =
      .ok (upload, s')) : Rows s' := by
  obtain ⟨author, -, hpos, hbig, -, hatt, hup, hchunks, -, -, -⟩ := initializeAttachment_spec h
  constructor
  case uploads =>
    intro u hu
    rcases (Table.mem_insert? hup).1 hu with hu | rfl
    · exact hs.uploads u hu
    · exact ⟨hupload, hattachment, rfl, Int.le_of_lt hpos, hbig⟩
  case attachments =>
    intro a ha
    rcases (Table.mem_insert? hatt).1 ha with ha | rfl
    · exact hs.attachments a ha
    · exact ⟨hattachment, hbig⟩
  case chunks =>
    rw [hchunks]
    exact hs.chunks

/-- The room of an upload has passed `validateRoomName`. -/
theorem plainText_room {now : ℕ} {attachmentID uploadID room authorCode : String} {logicalSize : ℤ}
    {upload : AttachmentUpload}
    (h : s.initializeAttachment now attachmentID uploadID room authorCode logicalSize =
      .ok (upload, s')) : PlainText maxRoomNameSize room := by
  unfold AttachmentStore.initializeAttachment at h
  cases hroom : validateRoomName room with
  | error e =>
    rw [hroom] at h
    cases h
  | ok x =>
    unfold validateRoomName at hroom
    split at hroom
    · cases hroom
    split at hroom
    · cases hroom
    rename_i hlong
    split at hroom
    case isFalse => cases hroom
    rename_i hchars
    refine ⟨?_, Nat.le_trans (length_le_utf8ByteSize room) (Nat.le_of_not_lt hlong)⟩
    rw [List.all_eq_true] at hchars ⊢
    intro c hc
    have := hchars c hc
    unfold isPlain isBase64
    simp only [Bool.or_eq_true] at this ⊢
    tauto

/-- A stored chunk is one of the upload's. -/
theorem storeAttachmentChunk_index {sha256Bytes : List UInt8 → String} {now : ℕ}
    {uploadID authorCode : String} {index : ℤ} {ciphertext : List UInt8} {cipherSHA256 : String}
    {known : Bool}
    (h : s.storeAttachmentChunk sha256Bytes now uploadID authorCode index ciphertext cipherSHA256 =
      .ok (known, s')) :
    (∃ upload ∈ s.uploads.rows, upload.uploadID = uploadID ∧ 0 ≤ index ∧
      index < chunkCount upload.logicalSize attachmentChunkSize) ∧
    ∀ r ∈ s'.chunks.rows, r ∈ s.chunks.rows ∨ r.chunkIndex = index := by
  obtain ⟨upload, hload, hvalid, hstores, -⟩ := storeAttachmentChunk_spec h
  obtain ⟨hmem, hid⟩ := mem_of_loadAttachmentUpload hload
  obtain ⟨hpos, hlt, -⟩ := validateAttachmentChunk_spec hvalid
  refine ⟨⟨upload, hmem, hid, hpos, hlt⟩, fun r hr => ?_⟩
  have happend : ∀ row : ChunkRow, row.chunkIndex = index →
      s'.chunks.rows = s.chunks.rows ++ [row] → r ∈ s.chunks.rows ∨ r.chunkIndex = index := by
    intro row hindex hrows
    rw [hrows, List.mem_append, List.mem_singleton] at hr
    rcases hr with hold | rfl
    · exact .inl hold
    · exact .inr hindex
  cases hstores with
  | known _ _ hsame =>
    subst hsame
    exact .inl hr
  | recovered _ _ hrows _ => exact happend _ rfl hrows
  | written _ _ hrows _ => exact happend _ rfl hrows

theorem Rows.index_bounds (hs : Rows s) {upload : UploadRow} (hmem : upload ∈ s.uploads.rows)
    {index : ℤ} (hindex : index < chunkCount upload.logicalSize attachmentChunkSize) :
    index < Client.maxChunkCount :=
  lt_of_lt_of_le hindex (chunkCount_le (hs.uploads upload hmem).2.2.2.2)

theorem Rows.storeAttachmentChunk (hs : Rows s) {sha256Bytes : List UInt8 → String} {now : ℕ}
    {uploadID authorCode : String} {index : ℤ} {ciphertext : List UInt8} {cipherSHA256 : String}
    {known : Bool}
    (h : s.storeAttachmentChunk sha256Bytes now uploadID authorCode index ciphertext cipherSHA256 =
      .ok (known, s')) : Rows s' := by
  obtain ⟨hattachments, huploads, -, -⟩ := storeAttachmentChunk_frame h
  obtain ⟨⟨upload, hmem, -, hpos, hlt⟩, hrows⟩ := storeAttachmentChunk_index h
  constructor
  case uploads =>
    rw [huploads]
    exact hs.uploads
  case attachments =>
    rw [hattachments]
    exact hs.attachments
  case chunks =>
    intro r hr
    rcases hrows r hr with hold | heq
    · exact hs.chunks r hold
    · rw [heq]
      exact ⟨hpos, hs.index_bounds hmem hlt⟩

/-- The indexes that a resumed upload is told are those of stored chunks. -/
theorem resumeAttachmentUpload_rows {sha256Bytes : List UInt8 → String} {now : ℕ}
    {uploadID authorCode : String} {indexes : List ℤ}
    (h : s.resumeAttachmentUpload sha256Bytes now uploadID authorCode = .ok (indexes, s')) :
    (∀ i ∈ indexes, ∃ r ∈ s.chunks.rows, r.chunkIndex = i) ∧
      ∀ r ∈ s'.chunks.rows, r ∈ s.chunks.rows := by
  unfold resumeAttachmentUpload at h
  obtain ⟨_, -, h⟩ := bind_eq_ok.1 h
  cases h
  refine ⟨fun i hi => ?_, fun r hr => List.mem_of_mem_filter hr⟩
  obtain ⟨r, hr, rfl⟩ := List.mem_map.1 ((List.mem_insertionSort _).1 hi)
  exact ⟨r, List.mem_of_mem_filter (List.mem_of_mem_filter hr), rfl⟩

theorem Rows.resumeAttachmentUpload (hs : Rows s) {sha256Bytes : List UInt8 → String} {now : ℕ}
    {uploadID authorCode : String} {indexes : List ℤ}
    (h : s.resumeAttachmentUpload sha256Bytes now uploadID authorCode = .ok (indexes, s')) :
    Rows s' := by
  obtain ⟨hattachments, huploads, -, -⟩ := resumeAttachmentUpload_frame h
  refine hs.of_kept (fun u hu => huploads ▸ hu) (fun a ha => ⟨a, hattachments ▸ ha, rfl, rfl⟩) ?_
  exact (resumeAttachmentUpload_rows h).2

theorem Rows.commitAttachmentUpload (hs : Rows s) (sha256Bytes : List UInt8 → String) (now : ℕ)
    (committedAt : String) (txFails : Bool) (uploadID authorCode : String) :
    Rows (s.commitAttachmentUpload sha256Bytes now committedAt txFails uploadID authorCode).2 := by
  rcases commitAttachmentUpload_cases sha256Bytes s now committedAt txFails uploadID authorCode with
    he | ⟨upload, hmem, -, he | ⟨whole, he⟩⟩
  · rw [he]
    exact hs
  · rw [he]
    exact hs.of_kept (fun _ h => h) (fun a ha => ⟨a, ha, rfl, rfl⟩) fun _ h => h
  · rw [he]
    refine hs.of_kept (fun _ h => List.mem_of_mem_filter h) ?_ fun _ h => List.mem_of_mem_filter h
    intro a ha
    rcases mem_attachments_recordCommit.1 ha with ⟨ha, -⟩ | ⟨b, hb, -, rfl⟩
    · exact ⟨a, ha, rfl, rfl⟩
    · exact ⟨b, hb, rfl, rfl⟩

theorem Rows.cleanup (hs : Rows s) (rfc3339 : ℕ → String) (now : ℕ) :
    Rows (s.cleanupExpiredAttachmentUploads rfc3339 now) := by
  have hfold : ∀ (expired : List UploadRow) {t : AttachmentStore}, Rows t →
      Rows (expired.foldl removeUpload t) := by
    intro expired
    induction expired with
    | nil => exact fun ht => ht
    | cons upload expired ih =>
      intro t ht
      refine ih (ht.of_kept (fun _ h => List.mem_of_mem_filter h) (fun a ha => ?_) fun _ h =>
        List.mem_of_mem_filter h)
      exact ⟨a, List.mem_of_mem_filter ha, rfl, rfl⟩
  exact hfold _ hs

/-- What a commit answers is about a row of the store. -/
theorem commitAttachmentUpload_ok {sha256Bytes : List UInt8 → String} {now : ℕ}
    {committedAt uploadID authorCode : String} {txFails : Bool} {commit : AttachmentCommit}
    (h : (s.commitAttachmentUpload sha256Bytes now committedAt txFails uploadID authorCode).1 =
      .ok commit) :
    ∃ upload ∈ s.uploads.rows, ∃ bytes, commit =
      ⟨upload.attachmentID, upload.logicalSize, sha256Bytes bytes⟩ := by
  unfold commitAttachmentUpload at h
  cases hload : s.loadAttachmentUpload now uploadID authorCode with
  | error e =>
    rw [hload] at h
    cases h
  | ok upload =>
    rw [hload] at h
    dsimp only at h
    split at h
    · cases h
    · split_ifs at h
      cases h
      exact ⟨upload, (mem_of_loadAttachmentUpload hload).1, _, rfl⟩

/-- What a download answers: a chunk of at most the full size. -/
theorem Rows.readAttachmentChunk (hs : Rows s) {sha256Bytes : List UInt8 → String}
    {attachmentID : String} {index : ℤ} {chunk : AttachmentDownloadChunk}
    (h : s.readAttachmentChunk sha256Bytes attachmentID index = .ok chunk) :
    PlainText 36 chunk.attachmentID ∧ 0 ≤ chunk.index ∧ chunk.index < Client.maxChunkCount ∧
      (chunk.ciphertext.length : ℤ) ≤ attachmentChunkSize + attachmentCryptoTagSize ∧
      chunk.cipherSHA256 = sha256Bytes chunk.ciphertext := by
  unfold AttachmentStore.readAttachmentChunk at h
  cases hrow : s.attachments.lookup AttachmentRow.attachmentID attachmentID with
  | none =>
    rw [hrow] at h
    cases h
  | some row =>
    rw [hrow] at h
    dsimp only at h
    have hchunk : (if (s.uploads.lookup UploadRow.attachmentID attachmentID).elim 0
        UploadRow.chunkSize ≤ 0 then attachmentChunkSize else
        (s.uploads.lookup UploadRow.attachmentID attachmentID).elim 0 UploadRow.chunkSize) =
        attachmentChunkSize := by
      cases hu : s.uploads.lookup UploadRow.attachmentID attachmentID with
      | none => rfl
      | some u =>
        rw [Option.elim_some, (hs.uploads u (Table.mem_of_lookup hu)).2.2.1]
        exact ite_self _
    rw [hchunk] at h
    obtain ⟨hid, hsize⟩ := hs.attachments row (Table.mem_of_lookup hrow)
    have hcount := chunkCount_le hsize
    split_ifs at h with hcommitted hrange
    split at h
    · cases h
    · split_ifs at h with hlength
      cases h
      rw [Table.key_of_lookup hrow] at hid
      have hpos : 0 ≤ index ∧ index < Client.maxChunkCount := by omega
      have hplain : plainSize row.logicalSize attachmentChunkSize index ≤ attachmentChunkSize :=
        min_le_left _ _
      refine ⟨hid, hpos.1, hpos.2, ?_, rfl⟩
      dsimp only
      omega

end AttachmentStore

/-! ### The Hub -/

namespace Hub

open AttachmentStore EventMachine Registry

variable {h k : Hub} {platform : Platform} {env : Env}

/-- The tables stay in order, and the replies that are sent fit. -/
def Fitting (h k : Hub) : Prop :=
  k.db.attachments.Rows ∧ Emits (fun x => ReplyFits x.2) h.registry k.registry

theorem fitting_of_touches {parts : List Part} {types : List MessageType}
    (hh : h.db.attachments.Rows) (htouch : Touches parts types h k) (hpart : .attachments ∉ parts)
    (htypes : ∀ t ∈ types, t ∉ attachmentTypes) : Fitting h k := by
  refine ⟨?_, htouch.moves.emits.mono fun x hx => replyFits_of_type (htypes _ hx)⟩
  have hsame : k.db.attachments = h.db.attachments := htouch.same .attachments hpart
  rw [hsame]
  exact hh

theorem fitting_error (hh : h.db.attachments.Rows) (c : ClientID)
    (content messageID commandID : String) :
    Fitting h (h.deliverError c content messageID commandID) :=
  have htouch : Touches [] [.error] h (h.deliverError c content messageID commandID) :=
    touches_deliverError (by decide) c content messageID commandID
  fitting_of_touches hh htouch (by decide) (by decide)

theorem fitting_reply {c : ClientID} {m : Message} {attachments : AttachmentStore}
    (hrows : attachments.Rows) (hm : ReplyFits m) :
    Fitting h ((h.withAttachments attachments).tell c m) :=
  ⟨hrows, emits_tell hm⟩

/-- A request for an upload goes on only when the upload is in the table. -/
theorem upload_of_access {c : ClientID} {obj : Client} {uploadID : String}
    (h' : h.attachmentUploadAccess env c obj uploadID = none) :
    ∃ upload ∈ h.db.attachments.uploads.rows, upload.uploadID = uploadID := by
  unfold attachmentUploadAccess at h'
  split at h'
  · cases h'
  split at h'
  · cases h'
  · rename_i upload hload
    exact ⟨upload, mem_of_loadAttachmentUpload (callAttachment_eq_ok hload)⟩

section Handlers

variable (hh : h.db.attachments.Rows) {c : ClientID} {commandID : String}
  (hcommand : commandID.utf8ByteSize ≤ maxCommandIDSize)

include hh hcommand

theorem fitting_handleAttachmentInit (hplatform : platform.Documented) (henv : env.DrawsUUIDs)
    {room : String} {logicalSize : ℤ} :
    Fitting h (h.handleAttachmentInit platform env c room logicalSize commandID) := by
  unfold handleAttachmentInit
  split
  · exact ⟨hh, Emits.refl _⟩
  split
  · exact fitting_error hh c _ _ _
  split
  · exact fitting_error hh c _ _ _
  split
  · exact fitting_error hh c _ _ _
  · rename_i upload attachments hcall
    have hinit := callAttachment_eq_ok hcall
    obtain ⟨-, -, -, -, -, -, -, -, -, -, rfl⟩ := initializeAttachment_spec hinit
    refine fitting_reply (hh.initializeAttachment henv.attachmentID henv.uploadID hinit) ?_
    have hchunk : 0 ≤ attachmentChunkSize ∧ attachmentChunkSize < 10 ^ 6 := by decide
    exact replyFits_init hcommand (plainText_room hinit) henv.attachmentID henv.uploadID hchunk
      (hplatform.rfc3339 _)

theorem fitting_handleAttachmentChunk {uploadID : String} {index : ℤ}
    {ciphertext cipherSHA256 : String} :
    Fitting h (h.handleAttachmentChunk platform env c uploadID index ciphertext cipherSHA256
      commandID) := by
  unfold handleAttachmentChunk
  split
  · exact ⟨hh, Emits.refl _⟩
  split
  · exact fitting_error hh c _ _ _
  split
  · exact fitting_error hh c _ _ _
  split
  · exact fitting_error hh c _ _ _
  · rename_i duplicate attachments hcall
    have hstore := callAttachment_eq_ok hcall
    obtain ⟨⟨upload, hmem, rfl, hpos, hlt⟩, -⟩ := storeAttachmentChunk_index hstore
    refine fitting_reply (hh.storeAttachmentChunk hstore) ?_
    have hmax := maxChunkCount_lt
    refine replyFits_chunk hcommand (hh.uploads upload hmem).1
      ⟨hpos, (hh.index_bounds hmem hlt).trans hmax⟩ ?_
    cases duplicate <;> exact ⟨by decide, by decide⟩

theorem fitting_handleAttachmentResume {uploadID : String} :
    Fitting h (h.handleAttachmentResume platform env c uploadID commandID) := by
  unfold handleAttachmentResume
  split
  · exact ⟨hh, Emits.refl _⟩
  split
  · exact fitting_error hh c _ _ _
  rename_i haccess
  obtain ⟨upload, hmem, rfl⟩ := upload_of_access haccess
  split
  · exact fitting_error hh c _ _ _
  · rename_i indexes attachments hcall
    have hresume := callAttachment_eq_ok hcall
    refine fitting_reply (hh.resumeAttachmentUpload hresume) ?_
    refine replyFits_resume hcommand (hh.uploads upload hmem).1 fun i hi => ?_
    obtain ⟨r, hr, rfl⟩ := (resumeAttachmentUpload_rows hresume).1 i hi
    exact hh.chunks r hr

theorem fitting_handleAttachmentCommit (hplatform : platform.Documented) {uploadID : String} :
    Fitting h (h.handleAttachmentCommit platform env c uploadID commandID) := by
  unfold handleAttachmentCommit
  split
  · exact ⟨hh, Emits.refl _⟩
  rename_i obj _
  split
  · exact fitting_error hh c _ _ _
  split
  · exact fitting_error hh c _ _ _
  dsimp only
  have hrows := hh.commitAttachmentUpload platform.sha256Bytes env.now (platform.rfc3339 env.now)
    (env.fails .commitAttachmentTransaction) uploadID obj.normalizedCode
  split
  · exact fitting_error (h := h.withAttachments _) hrows c _ _ _
  · exact fitting_error (h := h.withAttachments _) hrows c _ _ _
  · rename_i commit hcommit
    obtain ⟨upload, hmem, bytes, rfl⟩ := commitAttachmentUpload_ok hcommit
    obtain ⟨-, hattachment, -, hpos, hmax⟩ := hh.uploads upload hmem
    have hlarge : maxAttachmentLogicalBytes < 10 ^ 10 := by decide
    exact fitting_reply hrows (replyFits_commit hcommand hattachment
      ⟨hpos, lt_of_le_of_lt hmax hlarge⟩ (hplatform.sha256Bytes bytes) ⟨by decide, by decide⟩)

theorem fitting_handleAttachmentDownload (hplatform : platform.Documented) {attachmentID : String}
    {index : ℤ} :
    Fitting h (h.handleAttachmentDownload platform env c attachmentID index commandID) := by
  unfold handleAttachmentDownload
  split
  · exact ⟨hh, Emits.refl _⟩
  dsimp only
  generalize (if env.fails .attachmentRoom = true then none
    else h.db.attachments.attachmentRoom attachmentID) = room
  split
  · exact fitting_error hh c _ _ _
  split
  · exact fitting_error hh c _ _ _
  · rename_i chunk hcall
    obtain ⟨hattachment, hpos, hlt, hbytes, hsha⟩ :=
      hh.readAttachmentChunk (callAttachment_eq_ok hcall)
    have hmax := maxChunkCount_lt
    exact ⟨hh, emits_tell (replyFits_download hcommand hattachment ⟨hpos, hlt.trans hmax⟩ hbytes
      (hsha ▸ hplatform.sha256Bytes _))⟩

end Handlers

theorem commandID_of_valid {m : Message} (hvalid : validateMessage m = .ok ()) :
    m.commandID.utf8ByteSize ≤ maxCommandIDSize := by
  by_contra hlong
  unfold validateMessage at hvalid
  rw [if_pos (Nat.lt_of_not_le hlong)] at hvalid
  cases hvalid

/-- The other frames neither write the tables nor get such a reply. -/
theorem quiet_frame {type : MessageType} (ht : type ∉ attachmentTypes) :
    .attachments ∉ frameParts type ∧ ∀ t ∈ frameTypes type, t ∉ attachmentTypes := by
  cases type with
  | attachmentInit | attachmentChunk | attachmentResume | attachmentCommit | attachmentDownload =>
    exact absurd (by decide) ht
  | other name =>
    exact ⟨List.not_mem_nil, (by decide : ∀ t ∈ [MessageType.system, .error], t ∉ attachmentTypes)⟩
  | _ => exact ⟨by decide, by decide⟩

/-- The types of the five replies are sent for frames only. -/
theorem fitting_step (hplatform : platform.Documented) (hs : Sound h.registry) (e : Event)
    (henv : e.env.DrawsUUIDs) (hh : h.db.attachments.Rows) : Fitting h (step platform h e) := by
  have hquiet : e.input.isRestart = false → .attachments ∉ e.input.writes →
      (∀ t ∈ e.input.sends, t ∉ attachmentTypes) → Fitting h (step platform h e) :=
    fun hlive => fitting_of_touches hh (step_touches platform hs e hlive)
  obtain ⟨input, env⟩ := e
  cases input with
  | restart adminCode => exact ⟨hh, Emits.of_eq rfl⟩
  | cleanup => exact ⟨hh.cleanup _ _, Emits.of_eq rfl⟩
  | frame c m limited muted =>
    rcases readPump_cases (h := h) platform env c m limited muted with hq | ⟨obj, -, hd⟩
    · exact fitting_of_touches hh hq (by decide) (by decide)
    have hvalidated : ∀ {handle : Hub → Hub},
        (m.commandID.utf8ByteSize ≤ maxCommandIDSize → Fitting h (handle h)) →
        Fitting h (h.validated c m "" m.commandID handle) := by
      intro handle hhandle
      rcases validated_cases (h := h) c m "" m.commandID handle with hq | ⟨hvalid, hv⟩
      · exact fitting_of_touches hh hq (by decide) (by decide)
      · rw [hv]
        exact hhandle (commandID_of_valid hvalid)
    by_cases ht : m.type ∈ attachmentTypes
    · have hstep : step platform h ⟨.frame c m limited muted, env⟩ =
          h.dispatch platform env c obj m muted := hd
      rw [hstep]
      simp only [attachmentTypes, List.mem_cons, List.not_mem_nil, or_false] at ht
      unfold dispatch
      rcases ht with ht | ht | ht | ht | ht
      all_goals
        rw [ht]
        refine hvalidated fun hcommand => ?_
      · exact fitting_handleAttachmentInit hh hcommand hplatform henv
      · exact fitting_handleAttachmentChunk hh hcommand
      · exact fitting_handleAttachmentResume hh hcommand
      · exact fitting_handleAttachmentCommit hh hcommand hplatform
      · exact fitting_handleAttachmentDownload hh hcommand hplatform
    · obtain ⟨hparts, htypes⟩ := quiet_frame ht
      refine hquiet rfl hparts fun t htype => ?_
      rcases List.mem_cons.1 htype with rfl | htype
      · decide
      · exact htypes t htype
  | _ =>
    refine hquiet rfl ?_ ?_
    · simp [Input.writes]
    · simp [Input.sends, attachmentTypes, adminTypes, historyTypes, loginTypes, replayTypes]

/-- In every run the tables are in order, and the replies that have been sent fit. -/
theorem rows_run (hplatform : platform.Documented) (adminCode : String) (offlineStore : Bool)
    {es : List Event} (henv : ∀ e ∈ es, e.env.DrawsUUIDs) :
    (after platform adminCode offlineStore es).db.attachments.Rows ∧
      ∀ x ∈ (after platform adminCode offlineStore es).registry.sent, ReplyFits x.2 := by
  have hrun : Sound (after platform adminCode offlineStore es).registry ∧
      (after platform adminCode offlineStore es).db.attachments.Rows ∧
      ∀ x ∈ (after platform adminCode offlineStore es).registry.sent, ReplyFits x.2 := by
    refine run_invariant_along (step platform) (P := fun _ e => e.env.DrawsUUIDs)
      (I := fun h => Sound h.registry ∧ h.db.attachments.Rows ∧
        ∀ x ∈ h.registry.sent, ReplyFits x.2) ?_ ?_ (along_of_forall henv)
    · rintro h e he ⟨hs, hh, hsent⟩
      obtain ⟨hrows, l, hl, hnew⟩ := fitting_step hplatform hs e he hh
      refine ⟨sound_step platform h e hs, hrows, fun x hx => ?_⟩
      rw [hl] at hx
      exact (List.mem_append.1 hx).elim (hsent x) (hnew x)
    · exact ⟨sound_start adminCode offlineStore, rows_empty, fun x hx => by cases hx⟩
  exact hrun.2

/-- Every attachment reply that the Hub has sent in a run fits in a frame, and so does every chunk
of full size that the client builds for an upload of that run. -/
theorem attachment_frames_fit (hplatform : platform.Documented) (adminCode : String)
    (offlineStore : Bool) (es : List Event) (henv : ∀ e ∈ es, e.env.DrawsUUIDs) :
    (∀ c m, (c, m) ∈ (after platform adminCode offlineStore es).registry.sent →
      m.type ∈ attachmentTypes → m.marshal.utf8ByteSize ≤ maxMessageSize) ∧
    ∀ upload ∈ (after platform adminCode offlineStore es).db.attachments.uploads.rows,
      ∀ (ready registered : Bool) (uploadId : String) (chunkIndex : ℤ) (ciphertext : List UInt8)
        (cipherSha256 commandId : String) (m : Client.Message),
        Client.attachmentChunkCommand ready registered uploadId chunkIndex ciphertext cipherSha256
          commandId = some m →
        m.uploadID = upload.uploadID → m.commandID.utf8ByteSize ≤ maxCommandIDSize →
        chunkIndex < 2 ^ 63 → ciphertext.length ≤ maxAttachmentCipherChunkBytes →
        ∀ parse, ∃ v, m.serialize parse = .ok v ∧ v.dump.utf8ByteSize ≤ maxMessageSize := by
  obtain ⟨hrows, hsent⟩ := rows_run hplatform adminCode offlineStore henv
  constructor
  · intro c m hm ht
    rw [size_marshal]
    exact (sendMessage_iff m).1 (hsent (c, m) hm ht)
  · intro upload hupload ready registered uploadId chunkIndex ciphertext cipherSha256 commandId m
      hbuild hid hcommand hindex hbytes parse
    exact attachmentChunkCommand_fits parse hbuild (hid ▸ (hrows.uploads upload hupload).1) hcommand
      hindex hbytes

theorem documented_samplePlatform : samplePlatform.Documented where
  sha256Bytes bytes := by
    unfold samplePlatform
    dsimp only
    split_ifs <;> exact ⟨by decide, by decide⟩
  rfc3339 _ := (⟨by decide, by decide⟩ : PlainText 35 "1970-01-01T00:00:00Z")

/-- Alice initializes an upload in the lobby. -/
def initializesUpload : List Event :=
  sessionEvents 0 "alice" "A001" ++
    [⟨.frame 0 { type := .attachmentInit, room := "lobby", logicalSize := 3, commandID := "c1" }
      false false, { attachmentID := "7f0c", uploadID := "9b1d" }⟩]

theorem attachment_frames_fit_alice :
    (∃ m, (0, m) ∈ (after samplePlatform "" true initializesUpload).registry.sent ∧
      m.type = .attachmentInit ∧ m.marshal.utf8ByteSize ≤ maxMessageSize) ∧
    ∃ m v, Client.attachmentChunkCommand true true " 9b1d" 0 [97, 98, 99]
        (samplePlatform.sha256Bytes [97, 98, 99]) "c2" = some m ∧
      m.serialize (fun _ => .error "") = .ok v ∧ v.dump.utf8ByteSize ≤ maxMessageSize := by
  have hdraws : ∀ e ∈ initializesUpload, e.env.DrawsUUIDs := by
    simp only [initializesUpload, sessionEvents, List.cons_append, List.nil_append, List.mem_cons,
      List.not_mem_nil, or_false]
    rintro e (rfl | rfl | rfl | rfl)
    all_goals exact ⟨⟨by decide, by decide⟩, ⟨by decide, by decide⟩⟩
  obtain ⟨hreply, hcommand⟩ := attachment_frames_fit documented_samplePlatform "" true
    initializesUpload hdraws
  constructor
  · have hsent : (after samplePlatform "" true initializesUpload).registry.sent.any
        (fun x => x.1 == 0 && x.2.type == .attachmentInit) = true := by decide +kernel
    obtain ⟨⟨c, m⟩, hm, hprops⟩ := List.any_eq_true.1 hsent
    simp only [Bool.and_eq_true, beq_iff_eq] at hprops
    obtain ⟨rfl, ht⟩ := hprops
    exact ⟨m, hm, ht, hreply 0 m hm (by simp [ht, attachmentTypes])⟩
  · have hrow : ((after samplePlatform "" true initializesUpload).db.attachments.uploads.rows.any
        fun u => u.uploadID == "9b1d") = true := by decide +kernel
    obtain ⟨upload, hupload, hid⟩ := List.any_eq_true.1 hrow
    obtain ⟨v, hv, hfits⟩ := hcommand upload hupload true true " 9b1d" 0 [97, 98, 99]
      (samplePlatform.sha256Bytes [97, 98, 99]) "c2" _ rfl (beq_iff_eq.1 hid).symm (by decide)
      (by decide) (by decide) fun _ => .error ""
    exact ⟨_, v, rfl, hv, hfits⟩

end Hub

end LanChat
