import LanChat.Client.ReceiveMessage
import LanChat.Lib.GoStrings
import Mathlib.Algebra.Order.Ring.Int
import Mathlib.Data.List.TakeDrop

/-!
# Attachment files (`gui/src/attachments`)

The sender reads a file piece by piece and encrypts each piece (`TransferClient`); the receiver
decrypts the pieces into a part file, which takes its final name after the last one
(`AttachmentDownloadAssembler`).  Both compute the number of pieces and their sizes on their own.

* `Gcm` is AES-256-GCM, a parameter with its two laws;
* `DiskFaults` says which operations of the file system fail;
* `file_identity`: what is sent is received, for every file.
-/

namespace LanChat.Gui.Attachments

open Client (maxLogicalBytes plaintextChunkBytes)

/-! ### `AttachmentCrypto` -/

/-- `ChunkContext`. -/
structure ChunkContext where
  attachmentID : String
  room : String
  groupID : String
  logicalSize : ℤ
  chunkSize : ℤ
  chunkIndex : ℤ
  deriving DecidableEq, Repr

/-- `AttachmentCrypto::Key`. -/
abbrev Key := Vector UInt8 32

/-- `AttachmentCrypto::TagSize`. -/
def tagSize : ℕ := 16

/-- AES-256-GCM as OpenSSL runs it: the tag follows the ciphertext, and opening inverts sealing. -/
structure Gcm where
  sealWith : Key → (nonce : List UInt8) → (aad : String) → List UInt8 → List UInt8
  openWith : Key → (nonce : List UInt8) → (aad : String) → List UInt8 → Option (List UInt8)
  length_seal : ∀ key nonce aad plaintext,
    (sealWith key nonce aad plaintext).length = plaintext.length + tagSize
  open_seal : ∀ key nonce aad plaintext,
    openWith key nonce aad (sealWith key nonce aad plaintext) = some plaintext

/-- `aad_for`. -/
def aadFor (context : ChunkContext) : String :=
  "lan-chat/attachment-aead/v1\nattachment_id=" ++ context.attachmentID ++
    "\nroom=" ++ context.room ++ "\ngroup_id=" ++ context.groupID ++
    "\nlogical_size=" ++ toString context.logicalSize ++
    "\nchunk_size=" ++ toString context.chunkSize ++
    "\nchunk_index=" ++ toString context.chunkIndex ++ "\n"

/-- `valid_context`. -/
def validContext (context : ChunkContext) : Bool :=
  context.attachmentID != "" && context.room != "" && decide (0 < context.logicalSize) &&
    decide (0 < context.chunkSize) && decide (0 ≤ context.chunkIndex)

/-- What the two programs take from OpenSSL and Qt: the cipher, the digest of a text for the nonce,
and the hexadecimal digest of a ciphertext. -/
structure Crypto where
  gcm : Gcm
  sha256 : String → List UInt8
  sha256Hex : List UInt8 → String

section WithCrypto

variable (crypto : Crypto)

/-- `AttachmentCrypto::derive_nonce`. -/
def deriveNonce (context : ChunkContext) : List UInt8 :=
  (crypto.sha256 ("lan-chat/attachment-nonce/v1\n" ++ aadFor context)).take 12

/-- `AttachmentCrypto::encrypt`. -/
def encrypt (key : Key) (context : ChunkContext) (plaintext : List UInt8) : Option (List UInt8) :=
  if !validContext context || decide (2147483647 < plaintext.length) then none
  else some (crypto.gcm.sealWith key (deriveNonce crypto context) (aadFor context) plaintext)

/-- `AttachmentCrypto::decrypt`. -/
def decrypt (key : Key) (context : ChunkContext) (ciphertext : List UInt8) :
    Option (List UInt8) :=
  if !validContext context || decide (ciphertext.length < tagSize) ||
      decide (2147483647 < ciphertext.length - tagSize) then none
  else crypto.gcm.openWith key (deriveNonce crypto context) (aadFor context) ciphertext

/-! ### `TransferClient` -/

/-- `TransferChunk`. -/
structure TransferChunk where
  index : ℤ := 0
  ciphertext : List UInt8 := []
  cipherSha256 : String := ""
  deriving DecidableEq, Repr

/-- A `QIODevice`: whether it can be read, and the bytes that are still to come. -/
structure Device where
  readable : Bool
  rest : List UInt8
  deriving DecidableEq, Repr

/-- `(logical_size + chunk_size - 1) / chunk_size`. -/
def chunkCount (context : ChunkContext) : ℤ :=
  (context.logicalSize + context.chunkSize - 1) / context.chunkSize

/-- `TransferClient::encrypt_next_chunk`: the chunk, `endOfFile`, and what is left of the input. -/
def encryptNextChunk (input : Device) (key : Key) (context : ChunkContext) :
    Except String (TransferChunk × Bool × Device) :=
  if !input.readable || decide (context.logicalSize ≤ 0) || decide (context.chunkSize ≤ 0) ||
      decide (context.chunkIndex < 0) then .error "invalid attachment transfer context"
  else
    let remaining := context.logicalSize - context.chunkIndex * context.chunkSize
    if remaining ≤ 0 then .ok ({}, true, input)
    else
      let readSize := (min context.chunkSize remaining).toNat
      let bytes := input.rest.take readSize
      if bytes.length ≠ readSize then .error "attachment file ended before logical size"
      else match encrypt crypto key context bytes with
        | none => .error "attachment encryption failed"
        | some ciphertext =>
          .ok (⟨context.chunkIndex, ciphertext, crypto.sha256Hex ciphertext⟩,
            decide (chunkCount context ≤ context.chunkIndex + 1),
            { input with rest := input.rest.drop readSize })

/-- A chunk that is not the last one leaves chunks to come. -/
theorem encryptNextChunk_more {input input' : Device} {key : Key} {context : ChunkContext}
    {chunk : TransferChunk}
    (h : encryptNextChunk crypto input key context = .ok (chunk, false, input')) :
    context.chunkIndex + 1 < chunkCount context := by
  unfold encryptNextChunk at h
  split_ifs at h
  dsimp only at h
  split_ifs at h
  · cases h
  · split at h
    · cases h
    · simp only [Except.ok.injEq, Prod.mk.injEq, decide_eq_false_iff_not] at h
      omega

/-- `encrypt_next_chunk` again and again, the index one higher each time, until the end of the
file. -/
def encryptChunks (input : Device) (key : Key) (context : ChunkContext) :
    Except String (List TransferChunk) :=
  match _h : encryptNextChunk crypto input key context with
  | .error e => .error e
  | .ok (chunk, true, _) => .ok [chunk]
  | .ok (chunk, false, input') =>
    (encryptChunks input' key { context with chunkIndex := context.chunkIndex + 1 }).map
      (chunk :: ·)
termination_by (chunkCount context - context.chunkIndex).toNat
decreasing_by
  have := encryptNextChunk_more crypto ‹_›
  simp only [chunkCount] at this ⊢
  omega

/-! ### `AttachmentDownloadAssembler` -/

/-- The files by their paths. -/
abbrev Disk := String → Option (List UInt8)

/-- The operations of the file system that fail. -/
structure DiskFaults where
  create : Bool := false
  write : Bool := false
  remove : Bool := false
  rename : Bool := false
  deriving DecidableEq, Repr

/-- The file at a path is replaced. -/
def setFile (disk : Disk) (path : String) (file : Option (List UInt8)) : Disk :=
  fun p => if p = path then file else disk p

/-- The bytes of a file after a write at an offset; a gap before the offset is filled with
zeros. -/
def writeAt (file : List UInt8) (offset : ℕ) (bytes : List UInt8) : List UInt8 :=
  (file ++ List.replicate (offset - file.length) 0).take offset ++ bytes ++
    file.drop (offset + bytes.length)

/-- `AttachmentDownloadAssembler`. -/
structure Assembler where
  outputPath : String
  partPath : String
  key : Key
  context : ChunkContext
  nextIndex : ℤ
  complete : Bool

/-- `partPathFor`. -/
def partPathFor (outputPath : String) : String := outputPath ++ ".lanchat-part"

/-- `discardPart`. -/
def discardPart (a : Assembler) (disk : Disk) : Assembler × Disk :=
  if a.partPath = "" then (a, disk)
  else ({ a with partPath := "" }, setFile disk a.partPath none)

/-- `fail`. -/
def fail (a : Assembler) (disk : Disk) (reason : String) : Except String Unit × Assembler × Disk :=
  (.error reason, discardPart a disk)

/-- `begin`. -/
def beginDownload (a : Assembler) (disk : Disk) (faults : DiskFaults) (outputPath : String)
    (key : Key) (context : ChunkContext) : Except String Unit × Assembler × Disk :=
  let (a, disk) := discardPart a disk
  let a := { a with complete := false }
  if outputPath = "" ∨ context.logicalSize ≤ 0 ∨ context.chunkSize ≤ 0 ∨ context.chunkIndex ≠ 0 ∨
      context.attachmentID = "" ∨ context.room = "" then
    (.error "invalid attachment download context", a, disk)
  else if faults.create then
    (.error "unable to create attachment output file", a,
      setFile disk (partPathFor outputPath) none)
  else
    (.ok (),
      { a with outputPath, partPath := partPathFor outputPath, key, context, nextIndex := 0 },
      setFile disk (partPathFor outputPath) (some (List.replicate context.logicalSize.toNat 0)))

/-- `finalize`. -/
def finalize (a : Assembler) (disk : Disk) (faults : DiskFaults) :
    Except String Unit × Assembler × Disk :=
  if (disk a.outputPath).isSome && faults.remove then
    fail a disk "unable to replace existing attachment output file"
  else
    let disk := setFile disk a.outputPath none
    if faults.rename || (disk a.partPath).isNone then
      fail a disk "unable to move attachment into place"
    else
      (.ok (), { a with partPath := "", complete := true },
        setFile (setFile disk a.outputPath (disk a.partPath)) a.partPath none)

/-- `acceptChunk`. -/
def acceptChunk (a : Assembler) (disk : Disk) (faults : DiskFaults) (chunk : TransferChunk)
    (last : Bool) : Except String Unit × Assembler × Disk :=
  if a.partPath = "" then (.error "unexpected attachment download chunk", a, disk)
  else if chunk.index ≠ a.nextIndex ∨ chunk.ciphertext = [] ∨
      chunk.cipherSha256.utf8ByteSize ≠ 64 then
    fail a disk "unexpected attachment download chunk"
  else if crypto.sha256Hex chunk.ciphertext ≠ GoStrings.asciiLower chunk.cipherSha256 then
    fail a disk "attachment ciphertext hash mismatch"
  else
    let count := chunkCount a.context
    let remaining := a.context.logicalSize - chunk.index * a.context.chunkSize
    let expectedPlaintext := min a.context.chunkSize remaining
    if chunk.index < 0 ∨ count ≤ chunk.index ∨ expectedPlaintext ≤ 0 ∨
        (chunk.ciphertext.length : ℤ) ≠ expectedPlaintext + tagSize then
      fail a disk "invalid attachment download chunk size"
    else match decrypt crypto a.key { a.context with chunkIndex := chunk.index }
        chunk.ciphertext with
      | none => fail a disk "attachment decryption failed"
      | some plaintext =>
        if (plaintext.length : ℤ) ≠ expectedPlaintext then
          fail a disk "attachment decryption failed"
        else if faults.write then fail a disk "unable to write attachment output file"
        else
          let file := (disk a.partPath).getD []
          let disk := setFile disk a.partPath
            (some (writeAt file (chunk.index * a.context.chunkSize).toNat plaintext))
          let expectedLast := decide (chunk.index + 1 = count)
          if last ≠ expectedLast then fail a disk "attachment last-chunk marker mismatch"
          else
            let a := { a with nextIndex := a.nextIndex + 1 }
            if expectedLast then finalize a disk faults else (.ok (), a, disk)

/-- The chunks of a download, with the marker on the last one. -/
def markLast : List TransferChunk → List (TransferChunk × Bool)
  | [] => []
  | [chunk] => [(chunk, true)]
  | chunk :: next :: chunks => (chunk, false) :: markLast (next :: chunks)

/-- The chunks one after another; the first refusal ends it. -/
def acceptChunks (a : Assembler) (disk : Disk) :
    List (TransferChunk × Bool) → Except String (Assembler × Disk)
  | [] => .ok (a, disk)
  | (chunk, last) :: chunks =>
    match acceptChunk crypto a disk {} chunk last with
    | (.error e, _, _) => .error e
    | (.ok (), a, disk) => acceptChunks a disk chunks

end WithCrypto

section WithCrypto

variable (crypto : Crypto)

/-! ### One chunk -/

theorem length_encrypt {crypto : Crypto} {key : Key} {context : ChunkContext}
    {plaintext ciphertext : List UInt8}
    (h : encrypt crypto key context plaintext = some ciphertext) :
    ciphertext.length = plaintext.length + tagSize := by
  unfold encrypt at h
  split_ifs at h
  cases h
  exact crypto.gcm.length_seal _ _ _ _

/-- Decryption under the same key and context gives the plaintext back. -/
theorem decrypt_encrypt {crypto : Crypto} {key : Key} {context : ChunkContext}
    {plaintext ciphertext : List UInt8}
    (h : encrypt crypto key context plaintext = some ciphertext) :
    decrypt crypto key context ciphertext = some plaintext := by
  have hlen := length_encrypt h
  unfold encrypt at h
  split_ifs at h with hbad
  cases h
  simp only [Bool.or_eq_true, Bool.not_eq_true', decide_eq_true_eq, not_or, Bool.not_eq_false]
    at hbad
  unfold decrypt
  rw [hbad.1, if_neg]
  · exact crypto.gcm.open_seal _ _ _ _
  · simp only [Bool.not_true, Bool.false_or, Bool.or_eq_true, decide_eq_true_eq, not_or]
    omega

/-- A context that describes a file: its size, the chunk size of the protocol, and the names that
the cipher needs. -/
structure Describes (context : ChunkContext) (file : List UInt8) : Prop where
  logicalSize : context.logicalSize = file.length
  chunkSize : context.chunkSize = plaintextChunkBytes
  attachmentID : context.attachmentID ≠ ""
  room : context.room ≠ ""
  nonempty : file ≠ []

/-- The piece of a file that a chunk carries. -/
def piece (file : List UInt8) (i : ℕ) : List UInt8 := (file.drop (i * 48128)).take 48128

/-- The ciphertext of a piece. -/
def sealedPiece (key : Key) (context : ChunkContext) (file : List UInt8) (i : ℕ) : List UInt8 :=
  crypto.gcm.sealWith key (deriveNonce crypto { context with chunkIndex := i })
    (aadFor { context with chunkIndex := i }) (piece file i)

/-- The chunk that carries a piece. -/
def chunkAt (key : Key) (context : ChunkContext) (file : List UInt8) (i : ℕ) : TransferChunk :=
  ⟨i, sealedPiece crypto key context file i,
    crypto.sha256Hex (sealedPiece crypto key context file i)⟩

section OneFile

variable {crypto} {key : Key} {context : ChunkContext} {file : List UInt8}
  (hfile : Describes context file)
include hfile

theorem Describes.pos : 0 < file.length := List.length_pos_iff.2 hfile.nonempty

/-- A chunk of the file is not empty, and ends where the next one begins or where the file ends. -/
theorem Describes.bounds {i : ℕ} (hi : (i : ℤ) < chunkCount context) :
    i * 48128 < file.length ∧ (chunkCount context ≤ i + 1 ↔ file.length ≤ (i + 1) * 48128) := by
  have hpos := hfile.pos
  have hchunk : plaintextChunkBytes = 48128 := by decide
  unfold chunkCount at hi ⊢
  rw [hfile.logicalSize, hfile.chunkSize, hchunk] at hi ⊢
  omega

theorem Describes.length_piece {i : ℕ} (hi : (i : ℤ) < chunkCount context) :
    ((piece file i).length : ℤ) =
      min context.chunkSize (context.logicalSize - i * context.chunkSize) := by
  have hlt := (hfile.bounds hi).1
  have hchunk : plaintextChunkBytes = 48128 := by decide
  rw [hfile.logicalSize, hfile.chunkSize, hchunk]
  unfold piece
  rw [List.length_take, List.length_drop]
  omega

theorem Describes.encrypt {i : ℕ} (hi : (i : ℤ) < chunkCount context) :
    encrypt crypto key { context with chunkIndex := i } (piece file i) =
      some (sealedPiece crypto key context file i) := by
  have hlen := hfile.length_piece hi
  have hpos := hfile.pos
  have hchunk : plaintextChunkBytes = 48128 := by decide
  unfold Attachments.encrypt sealedPiece
  rw [if_neg]
  simp only [validContext, hfile.logicalSize, hfile.chunkSize, hchunk, Bool.or_eq_true,
    Bool.not_eq_true', Bool.and_eq_false_iff, decide_eq_true_eq, decide_eq_false_iff_not,
    bne_eq_false_iff_eq, not_or, not_lt]
  rw [hfile.chunkSize, hchunk] at hlen
  refine ⟨⟨⟨⟨⟨hfile.attachmentID, hfile.room⟩, ?_⟩, ?_⟩, ?_⟩, ?_⟩ <;> omega

/-- The sender's step: the chunk at its index, and the rest of the file. -/
theorem Describes.encryptNextChunk {i : ℕ} (hi : (i : ℤ) < chunkCount context) :
    encryptNextChunk crypto ⟨true, file.drop (i * 48128)⟩ key { context with chunkIndex := i } =
      .ok (chunkAt crypto key context file i, decide (chunkCount context ≤ i + 1),
        ⟨true, file.drop ((i + 1) * 48128)⟩) := by
  have hlen := hfile.length_piece hi
  have hlt := (hfile.bounds hi).1
  have hchunk : plaintextChunkBytes = 48128 := by decide
  have hpos := hfile.pos
  -- the number of bytes to read, and the bytes themselves
  have hread : (min context.chunkSize (context.logicalSize - i * context.chunkSize)).toNat =
      (piece file i).length := by omega
  have hbytes : (file.drop (i * 48128)).take (piece file i).length = piece file i := by
    unfold piece
    rw [List.length_take, List.take_eq_take_iff]
    omega
  have hdrop : (file.drop (i * 48128)).drop (piece file i).length =
      file.drop ((i + 1) * 48128) := by
    rw [List.drop_drop]
    rcases Nat.lt_or_ge file.length ((i + 1) * 48128) with hend | hmore
    · have : (piece file i).length = file.length - i * 48128 := by
        unfold piece
        rw [List.length_take, List.length_drop]
        omega
      rw [List.drop_of_length_le (by omega), List.drop_of_length_le (by omega)]
    · have : (piece file i).length = 48128 := by
        unfold piece
        rw [List.length_take, List.length_drop]
        omega
      have hstep : i * 48128 + 48128 = (i + 1) * 48128 := by omega
      rw [this, hstep]
  unfold Attachments.encryptNextChunk
  dsimp only
  rw [if_neg, if_neg, hread, hbytes, if_neg (fun h => h rfl), hfile.encrypt hi]
  · dsimp only
    rw [hdrop]
    rfl
  · rw [hfile.logicalSize, hfile.chunkSize, hchunk]
    omega
  · simp only [hfile.logicalSize, hfile.chunkSize, hchunk, Bool.not_true, Bool.false_or,
      Bool.or_eq_true, decide_eq_true_eq, not_or, not_lt, not_le]
    omega

/-- The sender's loop, from any chunk to the end of the file. -/
theorem Describes.encryptChunks : ∀ k i : ℕ, ((i + k + 1 : ℕ) : ℤ) = chunkCount context →
    encryptChunks crypto ⟨true, file.drop (i * 48128)⟩ key { context with chunkIndex := i } =
      .ok ((List.range' i (k + 1)).map (chunkAt crypto key context file)) := by
  intro k
  induction k with
  | zero =>
    intro i hi
    rw [Attachments.encryptChunks]
    split
    · rename_i h
      rw [hfile.encryptNextChunk (by omega)] at h
      cases h
    · rename_i h
      rw [hfile.encryptNextChunk (by omega)] at h
      simp only [Except.ok.injEq, Prod.mk.injEq] at h
      rw [← h.1]
      rfl
    · rename_i h
      rw [hfile.encryptNextChunk (by omega)] at h
      simp only [Except.ok.injEq, Prod.mk.injEq, decide_eq_false_iff_not] at h
      omega
  | succ k ih =>
    intro i hi
    rw [Attachments.encryptChunks]
    split
    · rename_i h
      rw [hfile.encryptNextChunk (by omega)] at h
      cases h
    · rename_i h
      rw [hfile.encryptNextChunk (by omega)] at h
      simp only [Except.ok.injEq, Prod.mk.injEq, decide_eq_true_eq] at h
      omega
    · rename_i h
      rw [hfile.encryptNextChunk (by omega)] at h
      simp only [Except.ok.injEq, Prod.mk.injEq] at h
      obtain ⟨rfl, -, rfl⟩ := h
      have hrest := ih (i + 1) (by omega)
      have hnext : ((i + 1 : ℕ) : ℤ) = (i : ℤ) + 1 := rfl
      rw [hnext] at hrest
      dsimp only
      rw [hrest, List.range'_succ, List.map_cons]
      rfl

/-! ### The receiver -/

/-- The part file while the download goes on: the pieces that have come, and zeros. -/
def partFile (file : List UInt8) (i : ℕ) : List UInt8 :=
  file.take (i * 48128) ++ List.replicate (file.length - i * 48128) 0

omit hfile in
/-- A piece that is written at its offset continues the file. -/
theorem writeAt_piece {i : ℕ} (hi : i * 48128 < file.length) :
    writeAt (partFile file i) (i * 48128) (piece file i) = partFile file (i + 1) := by
  have htake : (file.take (i * 48128)).length = i * 48128 := by
    rw [List.length_take]
    omega
  have hlen : (piece file i).length = min 48128 (file.length - i * 48128) := by
    unfold piece
    rw [List.length_take, List.length_drop]
  have hstep : (i + 1) * 48128 = i * 48128 + 48128 := by omega
  have hpart : (partFile file i).length = file.length := by
    unfold partFile
    rw [List.length_append, htake, List.length_replicate]
    omega
  unfold writeAt
  rw [hpart, Nat.sub_eq_zero_of_le hi.le, List.replicate_zero, List.append_nil]
  unfold partFile
  rw [List.take_append_of_le_length htake.ge, List.take_of_length_le htake.le,
    List.drop_append, List.drop_of_length_le (by omega), List.nil_append, htake,
    List.drop_replicate, hstep, List.take_add]
  have hrest : file.length - i * 48128 - (i * 48128 + (piece file i).length - i * 48128) =
      file.length - (i * 48128 + 48128) := by omega
  rw [hrest]
  rfl

omit hfile in
theorem partFile_end {i : ℕ} (hi : file.length ≤ i * 48128) : partFile file i = file := by
  unfold partFile
  rw [List.take_of_length_le hi, Nat.sub_eq_zero_of_le hi, List.replicate_zero, List.append_nil]

omit hfile in
theorem partPathFor_ne (outputPath : String) :
    partPathFor outputPath ≠ outputPath ∧ partPathFor outputPath ≠ "" := by
  have hsize : (partPathFor outputPath).utf8ByteSize = outputPath.utf8ByteSize + 13 :=
    String.utf8ByteSize_append
  constructor
  · intro he
    rw [he] at hsize
    omega
  · intro he
    rw [he] at hsize
    have : "".utf8ByteSize = 0 := rfl
    omega

/-- The assembler after so many chunks, with its part file. -/
structure Downloading (outputPath : String) (key : Key) (context : ChunkContext)
    (file : List UInt8) (i : ℕ) (a : Assembler) (disk : Disk) : Prop where
  assembler : a = ⟨outputPath, partPathFor outputPath, key, context, i, false⟩
  part : disk (partPathFor outputPath) = some (partFile file i)

/-- A download begins with a part file of the right size. -/
theorem Describes.beginDownload (hindex : context.chunkIndex = 0) {outputPath : String}
    (hpath : outputPath ≠ "") (a : Assembler) (disk : Disk) :
    ∃ a₀ disk₀, beginDownload a disk {} outputPath key context = (.ok (), a₀, disk₀) ∧
      Downloading outputPath key context file 0 a₀ disk₀ := by
  have hpos := hfile.pos
  have hchunk : plaintextChunkBytes = 48128 := by decide
  unfold Attachments.beginDownload
  rcases discardPart a disk with ⟨a, disk⟩
  dsimp only
  rw [if_neg, if_neg (by simp)]
  · refine ⟨_, _, rfl, rfl, ?_⟩
    rw [setFile, if_pos rfl, hfile.logicalSize]
    simp [partFile]
  · rw [hfile.logicalSize, hfile.chunkSize, hchunk, hindex]
    simp only [hpath, hfile.attachmentID, hfile.room, or_false, false_or, not_or, ne_eq,
      not_true_eq_false]
    omega

/-- A chunk passes every check of the receiver, up to its last-chunk marker. -/
theorem Describes.acceptChunk (hdigest : ∀ bytes, (crypto.sha256Hex bytes).utf8ByteSize = 64 ∧
      GoStrings.asciiLower (crypto.sha256Hex bytes) = crypto.sha256Hex bytes)
    {outputPath : String} {i : ℕ} {a : Assembler} {disk : Disk}
    (hd : Downloading outputPath key context file i a disk) (hi : (i : ℤ) < chunkCount context) :
    acceptChunk crypto a disk {} (chunkAt crypto key context file i)
        (decide ((i : ℤ) + 1 = chunkCount context)) =
      if (i : ℤ) + 1 = chunkCount context then
        finalize { a with nextIndex := i + 1 }
          (setFile disk a.partPath (some (partFile file (i + 1)))) {}
      else (.ok (), { a with nextIndex := i + 1 },
        setFile disk a.partPath (some (partFile file (i + 1)))) := by
  obtain ⟨rfl, hpart⟩ := hd
  have hsealed : Attachments.encrypt crypto key { context with chunkIndex := i } (piece file i) =
      some (sealedPiece crypto key context file i) := hfile.encrypt hi
  have hlen := length_encrypt hsealed
  have hpiece := hfile.length_piece hi
  have hbounds := hfile.bounds hi
  have hchunk : plaintextChunkBytes = 48128 := by decide
  have hpos : 0 < min context.chunkSize (context.logicalSize - i * context.chunkSize) := by
    rw [hfile.logicalSize, hfile.chunkSize, hchunk]
    omega
  have hne : sealedPiece crypto key context file i ≠ [] := by
    intro he
    rw [he, List.length_nil] at hlen
    unfold tagSize at hlen
    omega
  have hoffset : ((i : ℤ) * context.chunkSize).toNat = i * 48128 := by
    rw [hfile.chunkSize, hchunk]
    omega
  have hwrite := writeAt_piece hbounds.1
  have hliteral : chunkAt crypto key context file i = ⟨i, sealedPiece crypto key context file i,
    crypto.sha256Hex (sealedPiece crypto key context file i)⟩ := rfl
  rw [hliteral]
  unfold Attachments.acceptChunk
  dsimp only
  rw [if_neg (partPathFor_ne outputPath).2, if_neg (by simp [hne, (hdigest _).1]),
    if_neg (by simp [(hdigest _).2]), if_neg, decrypt_encrypt hsealed]
  · dsimp only
    rw [if_neg (fun h => h hpiece), if_neg (by simp), hpart, hoffset, Option.getD_some, hwrite,
      if_neg (by simp)]
    simp only [decide_eq_true_eq]
  · have : ((sealedPiece crypto key context file i).length : ℤ) =
        min context.chunkSize (context.logicalSize - i * context.chunkSize) + tagSize := by
      rw [hlen]
      push_cast
      rw [hpiece]
    omega

omit hfile in
/-- The last chunk puts the whole file into place. -/
theorem Downloading.finalize {outputPath : String} {i : ℕ} {a : Assembler} {disk : Disk}
    (hd : Downloading outputPath key context file i a disk) (hlast : file.length ≤ i * 48128) :
    ∃ a' disk', finalize a disk {} = (.ok (), a', disk') ∧ a'.complete = true ∧
      disk' outputPath = some file := by
  obtain ⟨rfl, hpart⟩ := hd
  have hne := (partPathFor_ne outputPath).1
  rw [partFile_end hlast] at hpart
  have hkept : setFile disk outputPath none (partPathFor outputPath) = some file := by
    rw [setFile, if_neg hne, hpart]
  unfold Attachments.finalize
  dsimp only
  rw [if_neg (by simp), hkept, if_neg (by simp)]
  refine ⟨_, _, rfl, rfl, ?_⟩
  rw [setFile, if_neg (Ne.symm hne), setFile, if_pos rfl]

omit hfile in
/-- The marker stands on the chunk with the highest index. -/
theorem markLast_chunks (f : ℕ → TransferChunk) (count : ℤ) : ∀ k i : ℕ,
    ((i + k + 1 : ℕ) : ℤ) = count → markLast ((List.range' i (k + 1)).map f) =
      (List.range' i (k + 1)).map fun j => (f j, decide ((j : ℤ) + 1 = count)) := by
  intro k
  induction k with
  | zero =>
    intro i hi
    have hlast : (i : ℤ) + 1 = count := by omega
    simp [markLast, hlast]
  | succ k ih =>
    intro i hi
    have hmore : (i : ℤ) + 1 ≠ count := by omega
    have hrest := ih (i + 1) (by omega)
    rw [List.range'_succ, List.map_cons, List.map_cons]
    rw [List.range'_succ, List.map_cons] at hrest ⊢
    rw [markLast, hrest, decide_eq_false hmore, List.map_cons]

/-- Every chunk up to some point is accepted; the download is complete exactly when that was the
last one. -/
theorem Describes.acceptChunks (hdigest : ∀ bytes, (crypto.sha256Hex bytes).utf8ByteSize = 64 ∧
      GoStrings.asciiLower (crypto.sha256Hex bytes) = crypto.sha256Hex bytes) {outputPath : String} :
    ∀ (k i : ℕ) (a : Assembler) (disk : Disk),
      Downloading outputPath key context file i a disk →
      (i : ℤ) < chunkCount context → ((i + k : ℕ) : ℤ) ≤ chunkCount context →
      ∃ a' disk', acceptChunks crypto a disk ((List.range' i k).map fun j =>
          (chunkAt crypto key context file j, decide ((j : ℤ) + 1 = chunkCount context))) =
            .ok (a', disk') ∧
        (a'.complete = true ↔ ((i + k : ℕ) : ℤ) = chunkCount context) ∧
        (((i + k : ℕ) : ℤ) = chunkCount context → disk' outputPath = some file) := by
  intro k
  induction k with
  | zero =>
    intro i a disk hd hi _
    refine ⟨a, disk, rfl, ?_, fun h => by omega⟩
    rw [hd.assembler]
    constructor
    · intro h
      cases h
    · intro h
      omega
  | succ k ih =>
    intro i a disk hd hi hk
    have hstep := hfile.acceptChunk hdigest hd hi
    have hpath := (partPathFor_ne outputPath).1
    have hnext : Downloading outputPath key context file (i + 1) { a with nextIndex := i + 1 }
        (setFile disk a.partPath (some (partFile file (i + 1)))) := by
      rw [hd.assembler]
      exact ⟨rfl, by rw [setFile, if_pos rfl]⟩
    rw [List.range'_succ, List.map_cons, Attachments.acceptChunks, hstep]
    by_cases hlast : (i : ℤ) + 1 = chunkCount context
    · -- the last chunk: nothing is left to feed
      have hend := (hfile.bounds hi).2.1 (by omega)
      obtain ⟨a', disk', hfin, hcomplete, hout⟩ := hnext.finalize hend
      have hk0 : k = 0 := by omega
      subst hk0
      rw [if_pos hlast, hfin]
      refine ⟨a', disk', rfl, ?_, fun _ => hout⟩
      constructor
      · intro _
        omega
      · intro _
        exact hcomplete
    · rw [if_neg hlast]
      obtain ⟨a', disk', hrun, hcomplete, hout⟩ := ih (i + 1) _ _ hnext (by omega) (by omega)
      have hsum : i + 1 + k = i + (k + 1) := by omega
      rw [hsum] at hcomplete hout
      exact ⟨a', disk', hrun, hcomplete, hout⟩

end OneFile

/-- End to end: for every file, the chunks that the sender makes until the end of the file are all
accepted by the receiver, in order and with the marker on the last one; the download is complete
after the last chunk and not before, and the output path then holds the file. -/
theorem file_identity (hdigest : ∀ bytes, (crypto.sha256Hex bytes).utf8ByteSize = 64 ∧
      GoStrings.asciiLower (crypto.sha256Hex bytes) = crypto.sha256Hex bytes) (key : Key)
    {context : ChunkContext} {file : List UInt8} (hfile : Describes context file)
    (hindex : context.chunkIndex = 0) {outputPath : String} (hpath : outputPath ≠ "")
    (a : Assembler) (disk : Disk) :
    ∃ chunks a₀ disk₀, encryptChunks crypto ⟨true, file⟩ key context = .ok chunks ∧
      beginDownload a disk {} outputPath key context = (.ok (), a₀, disk₀) ∧
      ∀ k ≤ chunks.length, ∃ a' disk',
        acceptChunks crypto a₀ disk₀ ((markLast chunks).take k) = .ok (a', disk') ∧
        (a'.complete = true ↔ k = chunks.length) ∧
        (k = chunks.length → disk' outputPath = some file) := by
  have hpos := hfile.pos
  have hchunk : plaintextChunkBytes = 48128 := by decide
  have hcount : 0 < chunkCount context := by
    unfold chunkCount
    rw [hfile.logicalSize, hfile.chunkSize, hchunk]
    omega
  obtain ⟨n, hn⟩ : ∃ n : ℕ, ((0 + n + 1 : ℕ) : ℤ) = chunkCount context :=
    ⟨(chunkCount context - 1).toNat, by omega⟩
  have hsent : encryptChunks crypto ⟨true, file.drop (0 * 48128)⟩ key
      { context with chunkIndex := ((0 : ℕ) : ℤ) } =
        .ok ((List.range' 0 (n + 1)).map (chunkAt crypto key context file)) :=
    hfile.encryptChunks n 0 hn
  have hcontext : { context with chunkIndex := ((0 : ℕ) : ℤ) } = context := by
    rw [Int.natCast_zero, ← hindex]
  rw [hcontext, Nat.zero_mul, List.drop_zero] at hsent
  obtain ⟨a₀, disk₀, hbegin, hstart⟩ : ∃ a₀ disk₀,
      beginDownload a disk {} outputPath key context = (.ok (), a₀, disk₀) ∧
        Downloading outputPath key context file 0 a₀ disk₀ :=
    hfile.beginDownload hindex hpath a disk
  refine ⟨_, a₀, disk₀, hsent, hbegin, ?_⟩
  intro k hk
  rw [List.length_map, List.length_range'] at hk ⊢
  rw [markLast_chunks _ _ n 0 hn, ← List.map_take, List.take_range'_of_length_ge hk]
  obtain ⟨a', disk', hrun, hcomplete, hout⟩ := hfile.acceptChunks hdigest k 0 _ _ hstart
    (by omega) (by omega)
  have hiff : ((0 + k : ℕ) : ℤ) = chunkCount context ↔ k = n + 1 := by omega
  rw [hiff] at hcomplete hout
  exact ⟨a', disk', hrun, hcomplete, hout⟩

end WithCrypto

/-- A cipher that agrees with AES-256-GCM on the byte 65 under the zero key and the context of
`file_identity_byte`. -/
def byteGcm : Gcm where
  sealWith _ _ _ plaintext :=
    if plaintext = [65] then
      [107, 136, 234, 108, 33, 123, 201, 89, 200, 119, 0, 106, 77, 54, 234, 173, 171]
    else plaintext ++ List.replicate 16 0
  openWith _ _ _ ciphertext :=
    if ciphertext =
        [107, 136, 234, 108, 33, 123, 201, 89, 200, 119, 0, 106, 77, 54, 234, 173, 171] then
      some [65]
    else some (ciphertext.take (ciphertext.length - 16))
  length_seal _ _ _ plaintext := by
    split_ifs with h
    · rw [h]
      rfl
    · rw [List.length_append, List.length_replicate]
      rfl
  open_seal _ _ _ plaintext := by
    by_cases h : plaintext = [65]
    · rw [if_pos h, if_pos rfl, h]
    · have hne : plaintext ++ List.replicate 16 0 ≠
          [107, 136, 234, 108, 33, 123, 201, 89, 200, 119, 0, 106, 77, 54, 234, 173, 171] := by
        intro he
        have hlast := congrArg List.getLast? he
        rw [List.getLast?_append_of_ne_nil _ (by decide)] at hlast
        revert hlast
        decide
      rw [if_neg h, if_neg hne]
      simp

/-- The digests that belong to it. -/
def byteCrypto : Crypto where
  gcm := byteGcm
  sha256 _ := [215, 99, 27, 237, 239, 135, 23, 33, 76, 147, 246, 203, 30, 67, 86, 212, 1, 57, 156,
    5, 53, 222, 54, 23, 38, 238, 221, 76, 73, 169, 240, 229]
  sha256Hex _ := "6145b847798a66d0d305a3d4168890eb2b82333165bd2a20370bbce36ce9bc45"

/-- A file of one byte replaces what was at the output path. -/
theorem file_identity_byte :
    ∃ chunks a₀ disk₀ a' disk',
      encryptChunks byteCrypto ⟨true, [65]⟩ (Vector.replicate 32 0)
        ⟨"a", "lobby", "g", 1, 48128, 0⟩ = .ok chunks ∧
      beginDownload ⟨"", "", Vector.replicate 32 0, ⟨"", "", "", 0, 0, 0⟩, 0, false⟩
        (fun path => if path = "out" then some [1, 2] else none) {} "out" (Vector.replicate 32 0)
        ⟨"a", "lobby", "g", 1, 48128, 0⟩ = (.ok (), a₀, disk₀) ∧
      acceptChunks byteCrypto a₀ disk₀ (markLast chunks) = .ok (a', disk') ∧
      a'.complete = true ∧ disk' "out" = some [65] := by
  have hdigest : ∀ bytes, (byteCrypto.sha256Hex bytes).utf8ByteSize = 64 ∧
      GoStrings.asciiLower (byteCrypto.sha256Hex bytes) = byteCrypto.sha256Hex bytes := by
    intro bytes
    show ("6145b847798a66d0d305a3d4168890eb2b82333165bd2a20370bbce36ce9bc45").utf8ByteSize = 64 ∧
      GoStrings.asciiLower "6145b847798a66d0d305a3d4168890eb2b82333165bd2a20370bbce36ce9bc45" =
        "6145b847798a66d0d305a3d4168890eb2b82333165bd2a20370bbce36ce9bc45"
    decide +kernel
  have hfile : Describes ⟨"a", "lobby", "g", 1, 48128, 0⟩ [65] :=
    ⟨rfl, by decide, by decide, by decide, by decide⟩
  obtain ⟨chunks, a₀, disk₀, hsent, hbegin, hall⟩ := file_identity byteCrypto hdigest
    (Vector.replicate 32 0) hfile rfl (by decide : "out" ≠ "")
    ⟨"", "", Vector.replicate 32 0, ⟨"", "", "", 0, 0, 0⟩, 0, false⟩
    (fun path => if path = "out" then some [1, 2] else none)
  obtain ⟨a', disk', hrun, hcomplete, hout⟩ := hall chunks.length le_rfl
  have hlen : ∀ l : List TransferChunk, (markLast l).length = l.length := by
    intro l
    induction l using markLast.induct with
    | case1 => rfl
    | case2 chunk => rfl
    | case3 chunk next chunks ih => simp [markLast, ih]
  rw [← hlen, List.take_length] at hrun
  exact ⟨chunks, a₀, disk₀, a', disk', hsent, hbegin, hrun, hcomplete.2 rfl, hout rfl⟩

end LanChat.Gui.Attachments
