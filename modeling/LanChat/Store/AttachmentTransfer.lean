import LanChat.Store.AttachmentQuota
import Mathlib.Data.List.GetD

/-!
# Upload, commit and download of an attachment

The bytes of a chunk travel through a file named by its index, a row with its size and digest, a
directory that is renamed, and a last size computation that no longer has the upload's row.

* `Received`: the rows and files of an upload are exactly those of the chunks stored so far;
* `transfer_spec`: every order of `StoreAttachmentChunk` and `ResumeAttachmentUpload` calls keeps
  it, repeated ones included;
* `upload_round_trip`: once every index is stored, the commit succeeds and every chunk is read
  back.
-/

namespace LanChat

namespace AttachmentStore

variable (sha256Bytes : List UInt8 → String)

/-! ### Chunk files -/

theorem readFile_append (files more : List ChunkFile) (directory : String) (index : ℤ) :
    readFile (files ++ more) directory index =
      (readFile files directory index).or (readFile more directory index) := by
  unfold readFile
  rw [List.find?_append]
  cases files.find? fun f => f.directory == directory && f.index == index <;> rfl

theorem readFile_none {files : List ChunkFile} {directory : String}
    (h : ∀ f ∈ files, f.directory ≠ directory) (index : ℤ) :
    readFile files directory index = none := by
  unfold readFile
  rw [Option.map_eq_none_iff, List.find?_eq_none]
  intro f hf
  simp [h f hf]

/-- The files of a directory that was renamed are read under the new name. -/
theorem readFile_rename (files : List ChunkFile) (old new : String) (index : ℤ) :
    readFile ((files.filter fun f => f.directory == old).map fun f => { f with directory := new })
        new index = readFile files old index := by
  unfold readFile
  rw [List.find?_map, Option.map_map, List.find?_filter]
  have hselect : (fun f : ChunkFile => decide ((f.directory == old) = true ∧
      ((fun f : ChunkFile => f.directory == new && f.index == index) ∘
        fun f : ChunkFile => { f with directory := new }) f = true)) =
      fun f => f.directory == old && f.index == index := by
    funext f
    rw [Bool.eq_iff_iff]
    simp
  rw [hselect]
  rfl

/-! ### The chunks received so far -/

/-- The row of a chunk. -/
def chunkRow (uploadID : String) (index : ℕ) (ciphertext : List UInt8) : ChunkRow :=
  ⟨uploadID, index, ciphertext.length, sha256Bytes ciphertext⟩

/-- The rows of an upload are rows of its chunks, and a chunk has a file when it has a row. -/
structure Received (uploadID : String) (chunks : List (List UInt8)) (s : AttachmentStore) :
    Prop where
  rows : ∀ r ∈ s.chunks.rows, r.uploadID = uploadID →
    ∃ i, ∃ h : i < chunks.length, r = chunkRow sha256Bytes uploadID i chunks[i]
  files : ∀ i (h : i < chunks.length), readFile s.partialFiles uploadID i =
    if chunkRow sha256Bytes uploadID i chunks[i] ∈ s.chunks.rows then some chunks[i] else none

/-- The tables that a transfer leaves alone. -/
structure SameUpload (s t : AttachmentStore) : Prop where
  attachments : t.attachments = s.attachments
  uploads : t.uploads = s.uploads
  publishedFiles : t.publishedFiles = s.publishedFiles

/-- Fresh ids name nothing, neither in the database nor on the disk. -/
structure Fresh (s : AttachmentStore) (attachmentID uploadID : String) : Prop where
  chunks : ∀ r ∈ s.chunks.rows, r.uploadID ≠ uploadID
  partialFiles : ∀ f ∈ s.partialFiles, f.directory ≠ uploadID
  publishedFiles : ∀ f ∈ s.publishedFiles, f.directory ≠ attachmentID

theorem loadAttachmentUpload_ok {s : AttachmentStore} {now : ℕ} {uploadID authorCode : String}
    {upload : UploadRow} (hlookup : s.uploads.lookup UploadRow.uploadID uploadID = some upload)
    (hauthor : normalizeUserCode authorCode = .ok upload.authorCode)
    (htime : now < upload.expiresAt) :
    s.loadAttachmentUpload now uploadID authorCode = .ok upload := by
  unfold loadAttachmentUpload
  rw [hauthor, hlookup]
  dsimp only
  rw [if_neg (by simp), if_neg (by omega)]

variable {sha256Bytes} {uploadID : String} {chunks : List (List UInt8)}

/-- A chunk that has its row and its file passes the integrity check. -/
theorem Received.matches {s : AttachmentStore} (hs : Received sha256Bytes uploadID chunks s)
    {i : ℕ} (hi : i < chunks.length)
    (hrow : chunkRow sha256Bytes uploadID i chunks[i] ∈ s.chunks.rows) :
    s.storedAttachmentChunkMatches sha256Bytes uploadID
      (chunkRow sha256Bytes uploadID i chunks[i]) = true := by
  have hfile := hs.files i hi
  rw [if_pos hrow] at hfile
  unfold storedAttachmentChunkMatches
  dsimp only [chunkRow]
  rw [hfile]
  simp

/-- `SELECT … WHERE upload_id = ? AND chunk_index = ?` finds the chunk's own row or nothing. -/
theorem Received.lookup {s : AttachmentStore} (hs : Received sha256Bytes uploadID chunks s)
    {i : ℕ} (hi : i < chunks.length) :
    s.chunks.lookup ChunkRow.key (uploadID, (i : ℤ)) =
      if chunkRow sha256Bytes uploadID i chunks[i] ∈ s.chunks.rows
      then some (chunkRow sha256Bytes uploadID i chunks[i]) else none := by
  split_ifs with hrow
  · exact Table.lookup_of_mem (fun _ _ => Table.keyClash_of_eq ChunkRow.key) s.chunks hrow
  · cases hl : s.chunks.lookup ChunkRow.key (uploadID, (i : ℤ)) with
    | none => rfl
    | some r =>
      have hkey := Table.key_of_lookup hl
      simp only [ChunkRow.key, Prod.mk.injEq] at hkey
      obtain ⟨j, hj, rfl⟩ := hs.rows r (Table.mem_of_lookup hl) hkey.1
      have hij : j = i := by
        exact Int.ofNat.inj hkey.2
      subst hij
      exact absurd (Table.mem_of_lookup hl) hrow

/-- A chunk with no row yet can be inserted. -/
theorem Received.insert {s : AttachmentStore} (hs : Received sha256Bytes uploadID chunks s)
    {i : ℕ} (hi : i < chunks.length)
    (hrow : chunkRow sha256Bytes uploadID i chunks[i] ∉ s.chunks.rows) :
    ∃ t, s.chunks.insert? (chunkRow sha256Bytes uploadID i chunks[i]) = some t := by
  refine Table.insert?_isSome ?_
  intro a ha
  have hkey : ChunkRow.key a ≠ (uploadID, (i : ℤ)) := by
    have hnone := hs.lookup hi
    rw [if_neg hrow] at hnone
    exact Table.lookup_eq_none hnone a ha
  constructor
  · exact decide_eq_false hkey
  · exact decide_eq_false fun e => hkey e.symm

/-! ### One call -/

/-- The row that a chunk of the right size leaves: either it was there, or it is new together with
its file. -/
theorem Received.storeAttachmentChunk {s : AttachmentStore}
    (hs : Received sha256Bytes uploadID chunks s) {now : ℕ} {authorCode : String}
    {upload : UploadRow} (hload : s.loadAttachmentUpload now uploadID authorCode = .ok upload)
    {i : ℕ} (hi : i < chunks.length)
    (hvalid : validateAttachmentChunk sha256Bytes i chunks[i] (sha256Bytes chunks[i])
      upload.logicalSize = .ok ()) :
    ∃ known t, s.storeAttachmentChunk sha256Bytes now uploadID authorCode i chunks[i]
        (sha256Bytes chunks[i]) = .ok (known, t) ∧
      Received sha256Bytes uploadID chunks t ∧
      chunkRow sha256Bytes uploadID i chunks[i] ∈ t.chunks.rows ∧
      ∀ r ∈ s.chunks.rows, r ∈ t.chunks.rows := by
  unfold AttachmentStore.storeAttachmentChunk
  rw [hload]
  simp only [bind, Except.bind, hvalid]
  rw [hs.lookup hi]
  by_cases hrow : chunkRow sha256Bytes uploadID i chunks[i] ∈ s.chunks.rows
  · rw [if_pos hrow]
    dsimp only
    rw [if_pos ⟨rfl, rfl⟩, if_pos (hs.matches hi hrow)]
    exact ⟨true, s, rfl, hs, hrow, fun r hr => hr⟩
  · rw [if_neg hrow]
    dsimp only
    obtain ⟨rows, hrows⟩ := hs.insert hi hrow
    have hfile := hs.files i hi
    rw [if_neg hrow] at hfile
    have hrows' : s.chunks.insert?
        ⟨uploadID, i, chunks[i].length, sha256Bytes chunks[i]⟩ = some rows := hrows
    rw [hrows']
    dsimp only
    rw [hfile]
    dsimp only
    refine ⟨_, _, rfl, ⟨?_, ?_⟩, (Table.mem_insert? hrows).2 (Or.inr rfl),
      fun r hr => (Table.mem_insert? hrows).2 (Or.inl hr)⟩
    · intro r hr hid
      rcases (Table.mem_insert? hrows).1 hr with hr | rfl
      · exact hs.rows r hr hid
      · exact ⟨i, hi, rfl⟩
    · intro j hj
      dsimp only
      rw [readFile_append, hs.files j hj]
      by_cases hjrow : chunkRow sha256Bytes uploadID j chunks[j] ∈ s.chunks.rows
      · rw [if_pos hjrow, if_pos ((Table.mem_insert? hrows).2 (Or.inl hjrow))]
        rfl
      · rw [if_neg hjrow]
        by_cases hij : i = j
        · subst hij
          rw [if_pos ((Table.mem_insert? hrows).2 (Or.inr rfl))]
          simp [readFile]
        · have hnew : chunkRow sha256Bytes uploadID j chunks[j] ∉ rows.rows := by
            intro hmem
            rcases (Table.mem_insert? hrows).1 hmem with hmem | he
            · exact hjrow hmem
            · exact hij (Int.ofNat.inj (congrArg ChunkRow.chunkIndex he)).symm
          have hij' : (i : ℤ) ≠ j := fun e => hij (Int.ofNat.inj e)
          rw [if_neg hnew]
          simp [readFile, hij']

/-- With the disk intact a resumption finds nothing to remove. -/
theorem Received.resumeAttachmentUpload {s : AttachmentStore}
    (hs : Received sha256Bytes uploadID chunks s) {now : ℕ} {authorCode : String}
    {upload : UploadRow} (hload : s.loadAttachmentUpload now uploadID authorCode = .ok upload) :
    ∃ indexes, s.resumeAttachmentUpload sha256Bytes now uploadID authorCode = .ok (indexes, s) := by
  have hinvalid : ((s.chunks.rows.filter fun r => r.uploadID == uploadID).filter fun r =>
      !s.storedAttachmentChunkMatches sha256Bytes uploadID r) = [] := by
    rw [List.filter_eq_nil_iff]
    intro r hr
    obtain ⟨hmem, hid⟩ := List.mem_filter.1 hr
    obtain ⟨i, hi, rfl⟩ := hs.rows r hmem (by simpa using hid)
    simp [hs.matches hi hmem]
  have hdelete : (s.chunks.delete fun r => ([] : List ChunkRow).contains r) = s.chunks := by
    cases s.chunks
    simp [Table.delete]
  have hfiles : (s.partialFiles.filter fun f => !(f.directory == uploadID &&
      ([] : List ChunkRow).any fun r => r.chunkIndex == f.index)) = s.partialFiles := by
    simp
  unfold AttachmentStore.resumeAttachmentUpload
  rw [hload]
  simp only [bind, Except.bind, pure, Except.pure, hinvalid, hdelete, hfiles]
  exact ⟨_, rfl⟩

/-! ### A transfer -/

/-- A call of the uploading client. -/
inductive TransferCall
  | store (now index : ℕ)
  | resume (now : ℕ)
  deriving DecidableEq, Repr

/-- When the call is made. -/
def TransferCall.now : TransferCall → ℕ
  | .store now _ => now
  | .resume now => now

/-- The chunk that a call sends is one of the upload. -/
def TransferCall.inRange (count : ℕ) : TransferCall → Prop
  | .store _ index => index < count
  | .resume _ => True

variable (sha256Bytes uploadID chunks)

/-- One call of a transfer of `chunks`. -/
def transferStep (authorCode : String) (s : AttachmentStore) :
    TransferCall → Except AttachmentError AttachmentStore
  | .store now index =>
    (s.storeAttachmentChunk sha256Bytes now uploadID authorCode index (chunks.getD index [])
      (sha256Bytes (chunks.getD index []))).map Prod.snd
  | .resume now =>
    (s.resumeAttachmentUpload sha256Bytes now uploadID authorCode).map Prod.snd

/-- The calls one after another; the first error ends the transfer. -/
def transfer (authorCode : String) (s : AttachmentStore) (calls : List TransferCall) :
    Except AttachmentError AttachmentStore :=
  calls.foldlM (transferStep sha256Bytes uploadID chunks authorCode) s

/-- An upload that is being filled with `chunks` by its author. -/
structure Uploading (authorCode : String) (upload : UploadRow) (s : AttachmentStore) : Prop where
  lookup : s.uploads.lookup UploadRow.uploadID uploadID = some upload
  author : normalizeUserCode authorCode = .ok upload.authorCode
  valid : ∀ i (h : i < chunks.length),
    validateAttachmentChunk sha256Bytes i chunks[i] (sha256Bytes chunks[i])
      upload.logicalSize = .ok ()
  received : Received sha256Bytes uploadID chunks s

variable {sha256Bytes uploadID chunks}

/-- One call succeeds and keeps what is there; a chunk that it sends is there afterwards. -/
theorem Uploading.step {authorCode : String} {upload : UploadRow} {s : AttachmentStore}
    (hs : Uploading sha256Bytes uploadID chunks authorCode upload s) (call : TransferCall)
    (hrange : call.inRange chunks.length) (htime : call.now < upload.expiresAt) :
    ∃ t, transferStep sha256Bytes uploadID chunks authorCode s call = .ok t ∧
      Uploading sha256Bytes uploadID chunks authorCode upload t ∧ SameUpload s t ∧
      (∀ r ∈ s.chunks.rows, r ∈ t.chunks.rows) ∧
      ∀ now i (h : i < chunks.length), call = .store now i →
        chunkRow sha256Bytes uploadID i chunks[i] ∈ t.chunks.rows := by
  have hload := loadAttachmentUpload_ok hs.lookup hs.author htime
  cases call with
  | store now i =>
    have hi : i < chunks.length := hrange
    obtain ⟨known, t, hstore, ht, hrow, hkeep⟩ :=
      hs.received.storeAttachmentChunk hload hi (hs.valid i hi)
    obtain ⟨ha, hu, -, hp⟩ := storeAttachmentChunk_frame hstore
    refine ⟨t, ?_, ⟨by rw [hu]; exact hs.lookup, hs.author, hs.valid, ht⟩, ⟨ha, hu, hp⟩, hkeep, ?_⟩
    · show (s.storeAttachmentChunk sha256Bytes now uploadID authorCode i (chunks.getD i [])
        (sha256Bytes (chunks.getD i []))).map Prod.snd = .ok t
      rw [List.getD_eq_getElem _ _ hi]
      simp only [TransferCall.now] at hstore
      rw [hstore]
      rfl
    · intro now' j hj he
      cases he
      exact hrow
  | resume now =>
    obtain ⟨indexes, hresume⟩ := hs.received.resumeAttachmentUpload hload
    refine ⟨s, ?_, hs, ⟨rfl, rfl, rfl⟩, fun r hr => hr, fun _ _ _ he => by cases he⟩
    show (s.resumeAttachmentUpload sha256Bytes now uploadID authorCode).map Prod.snd = .ok s
    simp only [TransferCall.now] at hresume
    rw [hresume]
    rfl

/-- A whole transfer, by induction over its calls. -/
theorem Uploading.transfer {authorCode : String} {upload : UploadRow} {s : AttachmentStore}
    (hs : Uploading sha256Bytes uploadID chunks authorCode upload s) {calls : List TransferCall}
    (hrange : ∀ call ∈ calls, call.inRange chunks.length)
    (htime : ∀ call ∈ calls, call.now < upload.expiresAt) :
    ∃ t, transfer sha256Bytes uploadID chunks authorCode s calls = .ok t ∧
      Uploading sha256Bytes uploadID chunks authorCode upload t ∧ SameUpload s t ∧
      (∀ r ∈ s.chunks.rows, r ∈ t.chunks.rows) ∧
      ∀ now i (h : i < chunks.length), .store now i ∈ calls →
        chunkRow sha256Bytes uploadID i chunks[i] ∈ t.chunks.rows := by
  induction calls generalizing s with
  | nil => exact ⟨s, rfl, hs, ⟨rfl, rfl, rfl⟩, fun r hr => hr, fun _ _ _ hmem => by cases hmem⟩
  | cons call calls ih =>
    obtain ⟨t, hstep, ht, hsame, hkeep, hsent⟩ := hs.step call (hrange call List.mem_cons_self)
      (htime call List.mem_cons_self)
    obtain ⟨u, hrun, hu, hsame', hkeep', hsent'⟩ := ih ht
      (fun c hc => hrange c (List.mem_cons_of_mem _ hc))
      (fun c hc => htime c (List.mem_cons_of_mem _ hc))
    refine ⟨u, ?_, hu, ⟨hsame'.attachments.trans hsame.attachments,
      hsame'.uploads.trans hsame.uploads, hsame'.publishedFiles.trans hsame.publishedFiles⟩,
      fun r hr => hkeep' r (hkeep r hr), ?_⟩
    · unfold AttachmentStore.transfer at hrun ⊢
      rw [List.foldlM_cons, hstep]
      exact hrun
    · intro now i hi hmem
      rcases List.mem_cons.1 hmem with he | hmem
      · exact hkeep' _ (hsent now i hi he.symm)
      · exact hsent' now i hi hmem

/-! ### The commit -/

/-- The query of the commit, once every chunk has its row: the chunks in the order of their
indexes. -/
theorem Received.sorted {s : AttachmentStore} (hs : Received sha256Bytes uploadID chunks s)
    (hall : ∀ i (h : i < chunks.length),
      chunkRow sha256Bytes uploadID i chunks[i] ∈ s.chunks.rows) :
    ((s.chunks.rows.filter fun r => r.uploadID == uploadID).insertionSort
        fun a b => a.chunkIndex ≤ b.chunkIndex) =
      (List.range' 0 chunks.length).map fun i =>
        chunkRow sha256Bytes uploadID i (chunks.getD i []) := by
  have htotal : Std.Total fun a b : ChunkRow => a.chunkIndex ≤ b.chunkIndex :=
    ⟨fun a b => le_total a.chunkIndex b.chunkIndex⟩
  have htrans : IsTrans ChunkRow fun a b => a.chunkIndex ≤ b.chunkIndex :=
    ⟨fun a b c => le_trans⟩
  have hmem : ∀ r, r ∈ (List.range' 0 chunks.length).map
      (fun i => chunkRow sha256Bytes uploadID i (chunks.getD i [])) ↔
        r ∈ s.chunks.rows.filter fun r => r.uploadID == uploadID := by
    intro r
    rw [List.mem_map, List.mem_filter]
    constructor
    · rintro ⟨i, hi, rfl⟩
      have hi' : i < chunks.length := by simpa using hi
      rw [List.getD_eq_getElem _ _ hi']
      exact ⟨hall i hi', by simp [chunkRow]⟩
    · rintro ⟨hr, hid⟩
      obtain ⟨i, hi, rfl⟩ := hs.rows r hr (by simpa using hid)
      exact ⟨i, by simpa using hi, by rw [List.getD_eq_getElem _ _ hi]⟩
  -- two rows of the upload with one index are the same row
  have hanti : ∀ a b : ChunkRow, a ∈ (s.chunks.rows.filter fun r => r.uploadID == uploadID) →
      b ∈ (s.chunks.rows.filter fun r => r.uploadID == uploadID) →
      a.chunkIndex ≤ b.chunkIndex → b.chunkIndex ≤ a.chunkIndex → a = b := by
    intro a b ha hb hab hba
    obtain ⟨ha, hida⟩ := List.mem_filter.1 ha
    obtain ⟨hb, hidb⟩ := List.mem_filter.1 hb
    refine s.chunks.eq_of_clash ha hb (Table.keyClash_of_eq _ ?_)
    rw [beq_iff_eq] at hida hidb
    simp only [ChunkRow.key, hida, hidb, le_antisymm hab hba]
  have hrows : (s.chunks.rows.filter fun r => r.uploadID == uploadID).Nodup := by
    refine List.Nodup.filter _ (s.chunks.distinct.imp ?_)
    rintro a b ⟨hab, -⟩ rfl
    simp [Table.keyClash] at hab
  have hlist : ((List.range' 0 chunks.length).map fun i =>
      chunkRow sha256Bytes uploadID i (chunks.getD i [])).Nodup := by
    refine (List.nodup_range' 1).map_on ?_
    intro i _ j _ he
    exact Int.ofNat.inj (congrArg ChunkRow.chunkIndex he)
  refine List.Perm.eq_of_pairwise ?_ (List.pairwise_insertionSort _ _) ?_ ?_
  · intro a b ha hb
    exact hanti a b ((List.mem_insertionSort _).1 ha) ((hmem b).1 hb)
  · rw [List.pairwise_map]
    refine (List.pairwise_lt_range' 1).imp ?_
    intro i j hij
    exact Int.ofNat_le.2 hij.le
  · exact (List.perm_insertionSort _ _).trans
      ((List.perm_ext_iff_of_nodup hrows hlist).2 fun r => (hmem r).symm)

/-- The verification loop accepts the chunks and hashes them in order. -/
theorem Received.verifyChunks {s : AttachmentStore} (hs : Received sha256Bytes uploadID chunks s)
    (hall : ∀ i (h : i < chunks.length),
      chunkRow sha256Bytes uploadID i chunks[i] ∈ s.chunks.rows)
    {upload : UploadRow} (hid : upload.uploadID = uploadID)
    (hsize : ∀ i (h : i < chunks.length), (chunks[i].length : ℤ) =
      plainSize upload.logicalSize upload.chunkSize i + attachmentCryptoTagSize) :
    ∀ k e, e + k = chunks.length →
      s.verifyChunks sha256Bytes upload k e ((List.range' e k).map fun i =>
        chunkRow sha256Bytes uploadID i (chunks.getD i [])) = .ok (chunks.drop e).flatten := by
  intro k
  induction k with
  | zero =>
    intro e he
    rw [List.drop_of_length_le (by omega)]
    rfl
  | succ k ih =>
    intro e he
    have hlt : e < chunks.length := by omega
    have hfile := hs.files e hlt
    rw [if_pos (hall e hlt)] at hfile
    have hone : s.verifyChunk sha256Bytes upload e
        (chunkRow sha256Bytes uploadID e chunks[e]) = .ok chunks[e] := by
      unfold verifyChunk
      rw [hid, if_neg (fun h => h rfl), if_neg (fun h => h (hsize e hlt))]
      have hfile' : readFile s.partialFiles uploadID
          (chunkRow sha256Bytes uploadID e chunks[e]).chunkIndex = some chunks[e] := hfile
      rw [hfile']
      dsimp only
      rw [if_pos (hs.matches hlt (hall e hlt))]
    have hrest := ih (e + 1) (by omega)
    rw [List.range'_succ, List.map_cons, AttachmentStore.verifyChunks,
      List.getD_eq_getElem _ _ hlt, hone, List.drop_eq_getElem_cons hlt, List.flatten_cons]
    simp only [bind, Except.bind, pure, Except.pure]
    have hnext : ((e + 1 : ℕ) : ℤ) = (e : ℤ) + 1 := rfl
    rw [hnext] at hrest
    rw [hrest]

/-! ### The round trip -/

/-- The plain size of every chunk of a file is positive and at most the chunk size. -/
theorem plainSize_bounds {size index : ℤ}
    (hlt : index < chunkCount size attachmentChunkSize) :
    0 < plainSize size attachmentChunkSize index ∧
      plainSize size attachmentChunkSize index ≤ attachmentChunkSize := by
  unfold chunkCount attachmentChunkSize at hlt
  unfold plainSize attachmentChunkSize
  omega

/-- A chunk of the right size with its own digest is valid. -/
theorem validateAttachmentChunk_ok {size : ℤ} {index : ℕ} {ciphertext : List UInt8}
    (hdigest : (sha256Bytes ciphertext).utf8ByteSize = sha256HexSize ∧
      isLowerHex (sha256Bytes ciphertext) = true)
    (hindex : (index : ℤ) < chunkCount size attachmentChunkSize)
    (hsize : (ciphertext.length : ℤ) =
      plainSize size attachmentChunkSize index + attachmentCryptoTagSize) :
    validateAttachmentChunk sha256Bytes index ciphertext (sha256Bytes ciphertext) size =
      .ok () := by
  have hbounds := plainSize_bounds hindex
  unfold attachmentCryptoTagSize at hsize
  unfold attachmentChunkSize at hbounds hsize
  have hne : ciphertext ≠ [] := by
    rintro rfl
    rw [List.length_nil] at hsize
    omega
  have hle : ¬ maxAttachmentCipherChunkBytes < ciphertext.length := by
    unfold maxAttachmentCipherChunkBytes
    omega
  unfold validateAttachmentChunk
  rw [if_neg (by omega), if_neg (by simp [hne, hle]), if_neg (by simp [hdigest.1, hdigest.2])]

/-- What an initialization with fresh ids leaves: an empty upload of its author. -/
theorem uploading_initial {s s₁ : AttachmentStore} {now : ℕ}
    {attachmentID room authorCode : String} {size : ℤ} {upload : AttachmentUpload}
    (hinit : s.initializeAttachment now attachmentID uploadID room authorCode size =
      .ok (upload, s₁)) (hfresh : Fresh s attachmentID uploadID)
    (hdigest : ∀ bytes, (sha256Bytes bytes).utf8ByteSize = sha256HexSize ∧
      isLowerHex (sha256Bytes bytes) = true)
    (hcount : (chunks.length : ℤ) = chunkCount size attachmentChunkSize)
    (hsize : ∀ i (h : i < chunks.length), (chunks[i].length : ℤ) =
      plainSize size attachmentChunkSize i + attachmentCryptoTagSize) :
    ∃ row : UploadRow, Uploading sha256Bytes uploadID chunks authorCode row s₁ ∧
      row.uploadID = uploadID ∧ row.attachmentID = attachmentID ∧ row.logicalSize = size ∧
      row.chunkSize = attachmentChunkSize ∧ row.expiresAt = upload.expiresAt ∧
      s₁.attachments.lookup AttachmentRow.attachmentID attachmentID =
        some ⟨attachmentID, room, size, "", none⟩ ∧
      ∀ f ∈ s₁.publishedFiles, f.directory ≠ attachmentID := by
  obtain ⟨author, hauthor, hpos, hbig, -, hatt, hup, hchunks, hpartial, hpublished, rfl⟩ :=
    initializeAttachment_spec hinit
  refine ⟨⟨uploadID, attachmentID, room, author, size, size, attachmentChunkSize,
    now + attachmentUploadTTL⟩, ⟨?_, hauthor, ?_, ⟨?_, ?_⟩⟩, rfl, rfl, rfl, rfl, rfl, ?_, ?_⟩
  · rw [Table.lookup_insert? (fun _ _ => UploadRow.clash_of_uploadID) hup, if_pos rfl]
  · intro i hi
    have hindex : (i : ℤ) < chunkCount size attachmentChunkSize := by omega
    exact validateAttachmentChunk_ok (hdigest _) hindex (hsize i hi)
  · intro r hr hid
    rw [hchunks] at hr
    exact absurd hid (hfresh.chunks r hr)
  · intro i hi
    have hnone : chunkRow sha256Bytes uploadID i chunks[i] ∉ s₁.chunks.rows := by
      rw [hchunks]
      intro hmem
      exact hfresh.chunks _ hmem rfl
    rw [if_neg hnone, hpartial]
    exact readFile_none hfresh.partialFiles i
  · rw [Table.lookup_insert? (fun _ _ => Table.keyClash_of_eq _) hatt, if_pos rfl]
  · rw [hpublished]
    exact hfresh.publishedFiles

/-- The commit of an upload all of whose chunks are there. -/
theorem Uploading.commit {authorCode : String} {upload : UploadRow} {s : AttachmentStore}
    (hs : Uploading sha256Bytes uploadID chunks authorCode upload s)
    (hall : ∀ i (h : i < chunks.length),
      chunkRow sha256Bytes uploadID i chunks[i] ∈ s.chunks.rows)
    (hid : upload.uploadID = uploadID)
    (hcount : (chunks.length : ℤ) = chunkCount upload.logicalSize upload.chunkSize)
    (hsize : ∀ i (h : i < chunks.length), (chunks[i].length : ℤ) =
      plainSize upload.logicalSize upload.chunkSize i + attachmentCryptoTagSize)
    (hfree : ∀ f ∈ s.publishedFiles, f.directory ≠ upload.attachmentID)
    {now : ℕ} (htime : now < upload.expiresAt) (committedAt : String) :
    s.commitAttachmentUpload sha256Bytes now committedAt false uploadID authorCode =
      (.ok ⟨upload.attachmentID, upload.logicalSize, sha256Bytes chunks.flatten⟩,
        (s.publish upload).recordCommit upload (sha256Bytes chunks.flatten) committedAt) := by
  have hloop := hs.received.verifyChunks hall hid hsize chunks.length 0 (by omega)
  have hno : (s.publishedFiles.any fun f => f.directory == upload.attachmentID) = false := by
    rw [List.any_eq_false]
    intro f hf
    simp [hfree f hf]
  unfold commitAttachmentUpload
  rw [loadAttachmentUpload_ok hs.lookup hs.author htime]
  dsimp only
  rw [hs.received.sorted hall, ← hcount, Int.toNat_natCast]
  have hzero : ((0 : ℕ) : ℤ) = 0 := rfl
  rw [hzero, List.drop_zero] at hloop
  rw [hloop]
  dsimp only
  rw [hno]
  rfl

/-- The chunk files after the commit. -/
theorem readFile_published {s : AttachmentStore} {upload : UploadRow}
    (hfree : ∀ f ∈ s.publishedFiles, f.directory ≠ upload.attachmentID) (index : ℤ) :
    readFile (s.publish upload).publishedFiles upload.attachmentID index =
      readFile s.partialFiles upload.uploadID index := by
  unfold publish
  rw [readFile_append, readFile_none hfree, Option.none_or, readFile_rename]

/-- Download after the commit: the reader no longer finds the upload's row and uses the protocol's
chunk size, which is the one the upload had. -/
theorem readAttachmentChunk_committed (sha256Bytes : List UInt8 → String)
    (whole committedAt : String) {s : AttachmentStore} {upload : UploadRow}
    (hup : upload ∈ s.uploads.rows) {room wholeSha256 : String}
    (hatt : s.attachments.lookup AttachmentRow.attachmentID upload.attachmentID =
      some ⟨upload.attachmentID, room, upload.logicalSize, wholeSha256, none⟩)
    (hfree : ∀ f ∈ s.publishedFiles, f.directory ≠ upload.attachmentID) (index : ℤ) :
    ((s.publish upload).recordCommit upload whole committedAt).readAttachmentChunk sha256Bytes
        upload.attachmentID index =
      if index < 0 ∨ chunkCount upload.logicalSize attachmentChunkSize ≤ index then
        .error .errAttachmentChunkOutOfRange
      else match readFile s.partialFiles upload.uploadID index with
        | none => .error (.text "read attachment chunk")
        | some bytes =>
          if (bytes.length : ℤ) ≠
              plainSize upload.logicalSize attachmentChunkSize index + attachmentCryptoTagSize
          then .error (.text "attachment chunk failed integrity check")
          else .ok ⟨upload.attachmentID, index, bytes, sha256Bytes bytes,
            decide (index + 1 = chunkCount upload.logicalSize attachmentChunkSize)⟩ := by
  have hrow : ((s.publish upload).recordCommit upload whole committedAt).attachments.lookup
      AttachmentRow.attachmentID upload.attachmentID =
        some ⟨upload.attachmentID, room, upload.logicalSize, whole, some committedAt⟩ := by
    rw [Table.lookup_eq_some fun _ _ => Table.keyClash_of_eq _]
    exact ⟨mem_attachments_recordCommit.2
      (Or.inr ⟨_, Table.mem_of_lookup hatt, by simp, rfl⟩), rfl⟩
  have hnone : ((s.publish upload).recordCommit upload whole committedAt).uploads.lookup
      UploadRow.attachmentID upload.attachmentID = none := by
    cases hl : ((s.publish upload).recordCommit upload whole committedAt).uploads.lookup
        UploadRow.attachmentID upload.attachmentID with
    | none => rfl
    | some u =>
      obtain ⟨hu, hne⟩ := mem_uploads_delete.1 (Table.mem_of_lookup hl)
      exact absurd (Table.key_of_lookup hl) (attachmentID_ne hup hu hne)
  have hfile : readFile ((s.publish upload).recordCommit upload whole committedAt).publishedFiles
      upload.attachmentID index = readFile s.partialFiles upload.uploadID index :=
    readFile_published hfree index
  unfold readAttachmentChunk
  rw [hrow, hnone, hfile]
  rfl

variable (sha256Bytes)

/-- Upload, commit and download.  `sha256Bytes` is the digest in lower-case hexadecimal.  After an
initialization with fresh ids, any list of calls that the author makes before the expiry and that
sends every chunk at least once succeeds, the commit hashes the chunks in the order of their
indexes, and `ReadAttachmentChunk` returns each chunk under its index and refuses every other
index. -/
theorem upload_round_trip
    (hdigest : ∀ bytes, (sha256Bytes bytes).utf8ByteSize = sha256HexSize ∧
      isLowerHex (sha256Bytes bytes) = true)
    {s s₁ : AttachmentStore} {now : ℕ} {attachmentID uploadID room authorCode : String} {size : ℤ}
    {upload : AttachmentUpload}
    (hinit : s.initializeAttachment now attachmentID uploadID room authorCode size =
      .ok (upload, s₁))
    (hfresh : Fresh s attachmentID uploadID) {chunks : List (List UInt8)}
    (hcount : (chunks.length : ℤ) = chunkCount size attachmentChunkSize)
    (hsize : ∀ i (h : i < chunks.length), (chunks[i].length : ℤ) =
      plainSize size attachmentChunkSize i + attachmentCryptoTagSize)
    {calls : List TransferCall} (hrange : ∀ call ∈ calls, call.inRange chunks.length)
    (htime : ∀ call ∈ calls, call.now < upload.expiresAt)
    (hcover : ∀ i < chunks.length, ∃ now, .store now i ∈ calls)
    {commitNow : ℕ} (hcommit : commitNow < upload.expiresAt) (committedAt : String) :
    ∃ s₂ s₃, transfer sha256Bytes uploadID chunks authorCode s₁ calls = .ok s₂ ∧
      s₂.commitAttachmentUpload sha256Bytes commitNow committedAt false uploadID authorCode =
        (.ok ⟨attachmentID, size, sha256Bytes chunks.flatten⟩, s₃) ∧
      (∀ i (h : i < chunks.length), s₃.readAttachmentChunk sha256Bytes attachmentID i =
        .ok ⟨attachmentID, i, chunks[i], sha256Bytes chunks[i],
          decide (i = chunks.length - 1)⟩) ∧
      ∀ i : ℤ, i < 0 ∨ (chunks.length : ℤ) ≤ i →
        s₃.readAttachmentChunk sha256Bytes attachmentID i =
          .error .errAttachmentChunkOutOfRange := by
  obtain ⟨row, hup, hid, rfl, rfl, hchunk, hexp, hatt, hfree⟩ :=
    uploading_initial hinit hfresh hdigest hcount hsize
  rw [← hexp] at htime hcommit
  obtain ⟨s₂, hrun, hup₂, hsame, -, hsent⟩ := hup.transfer hrange htime
  have hall : ∀ i (h : i < chunks.length),
      chunkRow sha256Bytes uploadID i chunks[i] ∈ s₂.chunks.rows := by
    intro i hi
    obtain ⟨at', hmem⟩ := hcover i hi
    exact hsent at' i hi hmem
  rw [← hsame.attachments] at hatt
  rw [← hsame.publishedFiles] at hfree
  have hread := readAttachmentChunk_committed sha256Bytes (sha256Bytes chunks.flatten) committedAt
    (Table.mem_of_lookup hup₂.lookup) hatt hfree
  refine ⟨s₂, _, hrun, hup₂.commit hall hid ?_ ?_ hfree hcommit committedAt, ?_, ?_⟩
  · rw [hchunk]
    exact hcount
  · rw [hchunk]
    exact hsize
  · intro i hi
    have hfile := hup₂.received.files i hi
    rw [if_pos (hall i hi)] at hfile
    rw [hread, if_neg (by omega), hid, hfile]
    dsimp only
    rw [if_neg (fun h => h (hsize i hi)), ← hcount]
    have hlast : decide ((i : ℤ) + 1 = chunks.length) = decide (i = chunks.length - 1) := by
      rw [decide_eq_decide]
      omega
    rw [hlast]
  · intro i hi
    rw [hread, ← hcount, if_pos hi]

/-- The digests of two chunks and of both together. -/
def sampleDigest (bytes : List UInt8) : String :=
  if bytes.length = 17 then "ff5a51a65ed0412e35a105b0c9d745e3f8bb49fa64c09f3958230e8bfbbe3272"
  else if bytes.length = 48144 then
    "5d0f1bc75db603894e1f720341a1779a7ca54a3747f2257c29d3d00031417d9e"
  else "3cc2370c4b64cf90cbc1b9d941b44005a8ab9c506bf772a0e127a8c453159688"

theorem sampleDigest_hex (bytes : List UInt8) : (sampleDigest bytes).utf8ByteSize = sha256HexSize ∧
    isLowerHex (sampleDigest bytes) = true := by
  unfold sampleDigest
  split_ifs <;> exact ⟨by decide +kernel, by decide +kernel⟩

/-- The ciphertext of a full chunk and of one byte behind it. -/
def twoChunks : List (List UInt8) := [List.replicate 48144 0, List.replicate 17 1]

/-- The last chunk comes first, and again after a resumption and the other one. -/
def twoChunkCalls : List TransferCall := [.store 1 1, .resume 2, .store 3 0, .store 4 1]

theorem upload_round_trip_twoChunks : ∃ s₁ s₂ s₃ : AttachmentStore,
    (empty.initializeAttachment 0 "a" "u" "lobby" "0000000001" 48129).toOption.map Prod.snd =
      some s₁ ∧
    transfer sampleDigest "u" twoChunks "0000000001" s₁ twoChunkCalls = .ok s₂ ∧
    s₂.commitAttachmentUpload sampleDigest 5 "now" false "u" "0000000001" =
      (.ok ⟨"a", 48129, sampleDigest twoChunks.flatten⟩, s₃) ∧
    ∀ i (h : i < twoChunks.length), s₃.readAttachmentChunk sampleDigest "a" i =
      .ok ⟨"a", i, twoChunks[i], sampleDigest twoChunks[i], decide (i = 1)⟩ := by
  cases hinit : empty.initializeAttachment 0 "a" "u" "lobby" "0000000001" 48129 with
  | error e =>
    have hok : (empty.initializeAttachment 0 "a" "u" "lobby" "0000000001"
        48129).toOption.isSome := by decide +kernel
    rw [hinit] at hok
    cases hok
  | ok r =>
    obtain ⟨upload, s₁⟩ := r
    obtain ⟨-, -, -, -, -, -, -, -, -, -, rfl⟩ := initializeAttachment_spec hinit
    have hcases : ∀ i < twoChunks.length, i = 0 ∨ i = 1 := by decide
    have hrange : ∀ call ∈ twoChunkCalls, call.inRange 2 := by
      simp [twoChunkCalls, TransferCall.inRange]
    have hsize : ∀ i (h : i < twoChunks.length), (twoChunks[i].length : ℤ) =
        plainSize 48129 attachmentChunkSize i + attachmentCryptoTagSize := by
      intro i hi
      rcases hcases i hi with rfl | rfl
      · rw [show twoChunks[0].length = 48144 from List.length_replicate]
        decide
      · rw [show twoChunks[1].length = 17 from List.length_replicate]
        decide
    have hcover : ∀ i < twoChunks.length, ∃ now, TransferCall.store now i ∈ twoChunkCalls := by
      intro i hi
      rcases hcases i hi with rfl | rfl
      · exact ⟨3, by simp [twoChunkCalls]⟩
      · exact ⟨1, by simp [twoChunkCalls]⟩
    obtain ⟨s₂, s₃, hrun, hcommit, hread, -⟩ := upload_round_trip sampleDigest sampleDigest_hex
      hinit ⟨fun r hr => by (cases hr), fun f hf => by (cases hf), fun f hf => by (cases hf)⟩
      (by decide) hsize hrange (by decide) hcover (by decide : 5 < _) "now"
    exact ⟨s₁, s₂, s₃, rfl, hrun, hcommit, hread⟩

end AttachmentStore

end LanChat
