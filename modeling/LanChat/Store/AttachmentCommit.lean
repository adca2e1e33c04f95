import LanChat.Store.AttachmentDisk

/-!
# When an upload can be committed

`StoreAttachmentChunk` accepts a ciphertext of any size up to a bound, `CommitAttachmentUpload` wants
the exact size of every index and moves the files before its transaction.

* `Complete`: every index has its row, and every row the size of its index and an intact file;
* `commit_ok_iff`: a commit succeeds exactly for a complete upload that has not been published;
* `acknowledged_committable_iff`: once every index has been accepted, exactly when the accepted
  ciphertexts have the sizes of their indexes;
* `recover`: a resumption, the chunks that it does not report, and a commit;
* `failed_commit_recoverable_iff`: when this succeeds after a failed commit.
-/

namespace LanChat

open EventMachine

namespace AttachmentStore

variable {sha256Bytes : List UInt8 → String} {s s' : AttachmentStore}

/-! ### The commit -/

/-- The row has the size that the commit wants of its index. -/
def FitsIndex (upload : UploadRow) (r : ChunkRow) : Prop :=
  r.cipherSize =
    plainSize upload.logicalSize upload.chunkSize r.chunkIndex + attachmentCryptoTagSize

/-- Every index has a row. -/
def HasEveryIndex (s : AttachmentStore) (upload : UploadRow) : Prop :=
  ∀ i, 0 ≤ i → i < chunkCount upload.logicalSize upload.chunkSize →
    ∃ r ∈ s.chunks.rows, r.uploadID = upload.uploadID ∧ r.chunkIndex = i

/-- Every index has a row, and every row the size of its index and an intact file. -/
structure Complete (sha256Bytes : List UInt8 → String) (s : AttachmentStore) (upload : UploadRow) :
    Prop where
  indexes : HasEveryIndex s upload
  fits : ∀ r ∈ s.chunks.rows, r.uploadID = upload.uploadID → FitsIndex upload r
  intact : ∀ r ∈ s.chunks.rows, r.uploadID = upload.uploadID →
    s.storedAttachmentChunkMatches sha256Bytes upload.uploadID r = true

/-- There is no directory under the attachment's id. -/
def Unpublished (s : AttachmentStore) (upload : UploadRow) : Prop :=
  ∀ f ∈ s.publishedFiles, f.directory ≠ upload.attachmentID

theorem verifyChunk_ok_iff {upload : UploadRow} {expected : ℤ} {r : ChunkRow} :
    (∃ bytes, s.verifyChunk sha256Bytes upload expected r = .ok bytes) ↔
      r.chunkIndex = expected ∧ FitsIndex upload r ∧
        s.storedAttachmentChunkMatches sha256Bytes upload.uploadID r = true := by
  unfold verifyChunk
  by_cases hindex : r.chunkIndex = expected
  · rw [if_neg (not_not_intro hindex)]
    by_cases hfits : FitsIndex upload r
    · have hsize : ¬ r.cipherSize ≠ plainSize upload.logicalSize upload.chunkSize r.chunkIndex +
          attachmentCryptoTagSize := not_not_intro hfits
      rw [if_neg hsize]
      unfold storedAttachmentChunkMatches
      cases readFile s.partialFiles upload.uploadID r.chunkIndex with
      | none => simp
      | some bytes =>
        dsimp only
        split_ifs with hmatch
        · simp [hindex, hfits, hmatch]
        · simp [hmatch]
    · have hsize : r.cipherSize ≠ plainSize upload.logicalSize upload.chunkSize r.chunkIndex +
          attachmentCryptoTagSize := hfits
      rw [if_pos hsize]
      simp [hfits]
  · rw [if_pos hindex]
    simp [hindex]

/-- The verification loop wants the indexes in order, their sizes and intact files. -/
theorem verifyChunks_ok_iff {upload : UploadRow} (n : ℕ) (expected : ℤ) (rows : List ChunkRow) :
    (∃ bytes, s.verifyChunks sha256Bytes upload n expected rows = .ok bytes) ↔
      rows.map ChunkRow.chunkIndex = (List.range n).map (fun k : ℕ => expected + k) ∧
        ∀ r ∈ rows, FitsIndex upload r ∧
          s.storedAttachmentChunkMatches sha256Bytes upload.uploadID r = true := by
  induction n generalizing expected rows with
  | zero =>
    cases rows with
    | nil => simp [verifyChunks]
    | cons r rows => simp [verifyChunks]
  | succ n ih =>
    cases rows with
    | nil => simp [verifyChunks, List.range_succ_eq_map]
    | cons r rows =>
      have hhead : (∃ bytes, s.verifyChunk sha256Bytes upload expected r = .ok bytes) ↔ _ :=
        verifyChunk_ok_iff
      have htail := ih (expected + 1) rows
      have hindexes : (List.range (n + 1)).map (fun k : ℕ => expected + k) =
          expected :: (List.range n).map (fun k : ℕ => expected + 1 + k) := by
        rw [List.range_succ_eq_map, List.map_cons, List.map_map]
        congr 1
        · simp
        · refine List.map_congr_left fun k _ => ?_
          simp only [Function.comp_apply, Nat.succ_eq_add_one]
          omega
      rw [hindexes, List.map_cons, List.cons.injEq, List.forall_mem_cons]
      constructor
      · rintro ⟨bytes, hok⟩
        obtain ⟨first, hfirst, hok⟩ := (bind_eq_ok (f := fun bytes => _)).1 hok
        obtain ⟨rest, hrest, -⟩ := (bind_eq_ok (f := fun bytes => _)).1 hok
        obtain ⟨hindex, hgood⟩ := hhead.1 ⟨first, hfirst⟩
        obtain ⟨hmap, hall⟩ := htail.1 ⟨rest, hrest⟩
        exact ⟨⟨hindex, hmap⟩, hgood, hall⟩
      · rintro ⟨⟨hindex, hmap⟩, hgood, hall⟩
        obtain ⟨first, hfirst⟩ := hhead.2 ⟨hindex, hgood⟩
        obtain ⟨rest, hrest⟩ := htail.2 ⟨hmap, hall⟩
        refine ⟨first ++ rest, ?_⟩
        simp only [verifyChunks, hfirst, hrest, bind, Except.bind, pure, Except.pure]

/-- The rows of the commit's query. -/
def commitRows (s : AttachmentStore) (uploadID : String) : List ChunkRow :=
  (s.chunks.rows.filter fun r => r.uploadID == uploadID).insertionSort
    fun a b => a.chunkIndex ≤ b.chunkIndex

theorem mem_commitRows {uploadID : String} {r : ChunkRow} :
    r ∈ s.commitRows uploadID ↔ r ∈ s.chunks.rows ∧ r.uploadID = uploadID := by
  unfold commitRows
  rw [List.mem_insertionSort, List.mem_filter, beq_iff_eq]

/-- The indexes of the query are all of the upload's exactly when every one of them has a row. -/
theorem commitRows_indexes_iff (ho : Orderly s) {upload : UploadRow}
    (hupload : upload ∈ s.uploads.rows) :
    (s.commitRows upload.uploadID).map ChunkRow.chunkIndex =
        (List.range (chunkCount upload.logicalSize upload.chunkSize).toNat).map
          (fun k : ℕ => (0 : ℤ) + k) ↔ HasEveryIndex s upload := by
  constructor
  · intro hmap i hpos hlt
    have hi : i ∈ (s.commitRows upload.uploadID).map ChunkRow.chunkIndex := by
      rw [hmap]
      exact List.mem_map.2 ⟨i.toNat, List.mem_range.2 (by omega), by omega⟩
    obtain ⟨r, hr, rfl⟩ := List.mem_map.1 hi
    obtain ⟨hr, hid⟩ := mem_commitRows.1 hr
    exact ⟨r, hr, hid, rfl⟩
  · intro hall
    have hle : ((s.commitRows upload.uploadID).map ChunkRow.chunkIndex).Pairwise (· ≤ ·) := by
      have htotal : Std.Total fun a b : ChunkRow => a.chunkIndex ≤ b.chunkIndex :=
        ⟨fun a b => le_total a.chunkIndex b.chunkIndex⟩
      have htrans : IsTrans ChunkRow fun a b => a.chunkIndex ≤ b.chunkIndex :=
        ⟨fun a b c => le_trans⟩
      exact List.pairwise_map.2 (List.pairwise_insertionSort _ _)
    have hnodup : ((s.commitRows upload.uploadID).map ChunkRow.chunkIndex).Nodup :=
      ((List.perm_insertionSort _ _).map _).nodup_iff.2 (s.nodup_chunkIndexes upload.uploadID)
    have hlt : ((s.commitRows upload.uploadID).map ChunkRow.chunkIndex).Pairwise (· < ·) :=
      (hle.and hnodup).imp fun h => lt_of_le_of_ne h.1 h.2
    refine List.Pairwise.eq_of_mem_iff hlt ?_ fun i => ?_
    · rw [List.pairwise_map]
      refine List.pairwise_lt_range.imp fun h => ?_
      omega
    · rw [List.mem_map, List.mem_map]
      constructor
      · rintro ⟨r, hr, rfl⟩
        obtain ⟨hr, hid⟩ := mem_commitRows.1 hr
        obtain ⟨u, hu, huid, hpos, hcount⟩ := ho.upload r hr
        obtain rfl : u = upload := s.uploads.eq_of_clash hu hupload
          (UploadRow.clash_of_uploadID (huid.trans hid))
        rw [← (ho.sized u hu).2] at hcount
        exact ⟨r.chunkIndex.toNat, List.mem_range.2 (by omega), by omega⟩
      · rintro ⟨k, hk, rfl⟩
        have hk := List.mem_range.1 hk
        obtain ⟨r, hr, hid, hindex⟩ := hall k (by omega) (by omega)
        exact ⟨r, mem_commitRows.2 ⟨hr, hid⟩, by omega⟩

/-- A commit succeeds exactly for a complete upload that has not been published. -/
theorem commit_ok_iff (ho : Orderly s) {now : ℕ} {uploadID authorCode : String}
    {upload : UploadRow} (hload : s.loadAttachmentUpload now uploadID authorCode = .ok upload)
    (committedAt : String) :
    (∃ r, (s.commitAttachmentUpload sha256Bytes now committedAt false uploadID authorCode).1 =
      .ok r) ↔ Complete sha256Bytes s upload ∧ Unpublished s upload := by
  obtain ⟨hmem, rfl⟩ := mem_of_loadAttachmentUpload hload
  have hverify : (∃ bytes, s.verifyChunks sha256Bytes upload
      (chunkCount upload.logicalSize upload.chunkSize).toNat 0 (s.commitRows upload.uploadID) =
        .ok bytes) ↔ _ := verifyChunks_ok_iff _ _ _
  have hcomplete : Complete sha256Bytes s upload ↔ ∃ bytes, s.verifyChunks sha256Bytes upload
      (chunkCount upload.logicalSize upload.chunkSize).toNat 0 (s.commitRows upload.uploadID) =
        .ok bytes := by
    rw [hverify, commitRows_indexes_iff ho hmem]
    constructor
    · rintro ⟨hindexes, hfits, hintact⟩
      refine ⟨hindexes, fun r hr => ?_⟩
      obtain ⟨hr, hid⟩ := mem_commitRows.1 hr
      exact ⟨hfits r hr hid, hintact r hr hid⟩
    · rintro ⟨hindexes, hall⟩
      exact ⟨hindexes, fun r hr hid => (hall r (mem_commitRows.2 ⟨hr, hid⟩)).1,
        fun r hr hid => (hall r (mem_commitRows.2 ⟨hr, hid⟩)).2⟩
  have hfree : Unpublished s upload ↔
      (s.publishedFiles.any fun f => f.directory == upload.attachmentID) = false := by
    rw [List.any_eq_false]
    simp [Unpublished]
  rw [hcomplete, hfree]
  unfold commitAttachmentUpload
  rw [hload]
  dsimp only
  rw [← commitRows]
  cases s.verifyChunks sha256Bytes upload (chunkCount upload.logicalSize upload.chunkSize).toNat 0
      (s.commitRows upload.uploadID) with
  | error e => simp
  | ok bytes =>
    dsimp only
    cases s.publishedFiles.any fun f => f.directory == upload.attachmentID with
    | true => simp
    | false => simp

/-! ### Intact files -/

/-- Every row of the upload has its file. -/
def Intact (sha256Bytes : List UInt8 → String) (s : AttachmentStore) (uploadID : String) : Prop :=
  ∀ r ∈ s.chunks.rows, r.uploadID = uploadID →
    s.storedAttachmentChunkMatches sha256Bytes uploadID r = true

theorem readFile_filter {files : List ChunkFile} {p : ChunkFile → Bool} {directory : String}
    {index : ℤ} (hp : ∀ f, f.directory = directory → f.index = index → p f = true) :
    readFile (files.filter p) directory index = readFile files directory index := by
  unfold readFile
  rw [List.find?_filter]
  congr 2
  funext f
  rw [Bool.eq_iff_iff]
  simp only [decide_eq_true_eq, Bool.and_eq_true, beq_iff_eq]
  exact ⟨fun h => h.2, fun h => ⟨hp f h.1 h.2, h⟩⟩

theorem matches_of_readFile {uploadID : String} {r : ChunkRow}
    (hfile : readFile s'.partialFiles uploadID r.chunkIndex =
      readFile s.partialFiles uploadID r.chunkIndex) :
    s'.storedAttachmentChunkMatches sha256Bytes uploadID r =
      s.storedAttachmentChunkMatches sha256Bytes uploadID r := by
  unfold storedAttachmentChunkMatches
  rw [hfile]

/-- Storing a chunk keeps the files of an upload intact. -/
theorem Intact.storeAttachmentChunk {uploadID : String} (hi : Intact sha256Bytes s uploadID)
    {now : ℕ} {id authorCode : String} {index : ℤ} {ciphertext : List UInt8}
    {cipherSHA256 : String} {known : Bool}
    (hstore : s.storeAttachmentChunk sha256Bytes now id authorCode index ciphertext cipherSHA256 =
      .ok (known, s')) : Intact sha256Bytes s' uploadID := by
  obtain ⟨upload, -, hvalid, hstores, -⟩ := storeAttachmentChunk_spec hstore
  obtain ⟨-, -, rfl⟩ := validateAttachmentChunk_spec hvalid
  intro r hr hid
  have hor := (hstores.rows.1 r).1 hr
  cases hstores with
  | known hrow hmatch hsame =>
    subst hsame
    exact hi r hr hid
  | recovered hnew hmatch hrows hfiles =>
    rw [matches_of_readFile (s := s) (by rw [hfiles])]
    rcases hor with hr | rfl
    · exact hi r hr hid
    · rw [← hid]
      exact hmatch
  | written hnew hnone hrows hfiles =>
    rw [storedAttachmentChunkMatches_iff, hfiles, readFile_append]
    rcases hor with hr | rfl
    · obtain ⟨bytes, hfile, hrest⟩ := storedAttachmentChunkMatches_iff.1 (hi r hr hid)
      rw [hfile]
      exact ⟨bytes, rfl, hrest⟩
    · obtain rfl : id = uploadID := hid
      rw [hnone]
      exact ⟨ciphertext, by simp [readFile], rfl, rfl⟩

/-- Chunks of other uploads go away. -/
theorem Intact.removeChunks {uploadID id : String} (hi : Intact sha256Bytes s uploadID)
    {invalid : List ChunkRow} (hinvalid : id = uploadID → invalid = []) :
    Intact sha256Bytes (s.removeChunks id invalid) uploadID := by
  intro r hr hid
  rw [matches_of_readFile (s := s)]
  · exact hi r (mem_removeChunks.1 hr).1 hid
  · refine readFile_filter fun f hdirectory _ => ?_
    by_cases hsame : id = uploadID
    · simp [hinvalid hsame]
    · simp [hdirectory, Ne.symm hsame]

theorem Intact.damagedChunks {uploadID : String} (hi : Intact sha256Bytes s uploadID) :
    s.damagedChunks sha256Bytes uploadID = [] := by
  rw [List.eq_nil_iff_forall_not_mem]
  intro r hr
  obtain ⟨hr, hid, hdamaged⟩ := mem_damagedChunks.1 hr
  rw [hi r hr hid] at hdamaged
  cases hdamaged

/-! ### A transfer -/

/-- `StoreAttachmentChunk` or `ResumeAttachmentUpload`. -/
def isTransfer : AttachmentCall → Bool
  | .storeChunk .. => true
  | .resume .. => true
  | _ => false

/-- The call stores the ciphertext under the index without an error. -/
def Accepts (sha256Bytes : List UInt8 → String) (s : AttachmentStore) (call : AttachmentCall)
    (uploadID : String) (index : ℤ) (ciphertext : List UInt8) : Prop :=
  ∃ now authorCode cipherSHA256 known s',
    call = .storeChunk now uploadID authorCode index ciphertext cipherSHA256 false ∧
    s.storeAttachmentChunk sha256Bytes now uploadID authorCode index ciphertext cipherSHA256 =
      .ok (known, s')

/-- One of the calls stores the ciphertext under the index. -/
def AcceptedIn (sha256Bytes : List UInt8 → String) (rfc3339 : ℕ → String) (uploadID : String)
    (index : ℤ) (ciphertext : List UInt8) : AttachmentStore → List AttachmentCall → Prop
  | _, [] => False
  | s, call :: calls => Accepts sha256Bytes s call uploadID index ciphertext ∨
    AcceptedIn sha256Bytes rfc3339 uploadID index ciphertext (s.apply sha256Bytes rfc3339 call) calls

/-- The row of an accepted chunk. -/
def rowOf (sha256Bytes : List UInt8 → String) (uploadID : String) (index : ℤ)
    (ciphertext : List UInt8) : ChunkRow :=
  ⟨uploadID, index, ciphertext.length, sha256Bytes ciphertext⟩

/-- An upload that is being filled, with an intact disk. -/
structure Filling (sha256Bytes : List UInt8 → String) (s : AttachmentStore) (upload : UploadRow) :
    Prop where
  orderly : Orderly s
  member : upload ∈ s.uploads.rows
  free : Unpublished s upload
  intact : Intact sha256Bytes s upload.uploadID

/-- What a stored chunk adds to the rows. -/
theorem mem_storeAttachmentChunk {now : ℕ} {id authorCode : String} {index : ℤ}
    {ciphertext : List UInt8} {cipherSHA256 : String} {known : Bool}
    (hstore : s.storeAttachmentChunk sha256Bytes now id authorCode index ciphertext cipherSHA256 =
      .ok (known, s')) (r : ChunkRow) :
    r ∈ s'.chunks.rows ↔ r ∈ s.chunks.rows ∨ r = rowOf sha256Bytes id index ciphertext := by
  obtain ⟨upload, -, hvalid, hstores, -⟩ := storeAttachmentChunk_spec hstore
  obtain ⟨-, -, rfl⟩ := validateAttachmentChunk_spec hvalid
  exact hstores.rows.1 r

/-- A stored chunk of any upload. -/
theorem Filling.storeAttachmentChunk {upload : UploadRow} (hf : Filling sha256Bytes s upload)
    {now : ℕ} {id authorCode : String} {index : ℤ} {ciphertext : List UInt8} {cipherSHA256 : String}
    {known : Bool}
    (hstore : s.storeAttachmentChunk sha256Bytes now id authorCode index ciphertext cipherSHA256 =
      .ok (known, s')) : Filling sha256Bytes s' upload := by
  obtain ⟨-, huploads, -, hpublished⟩ := storeAttachmentChunk_frame hstore
  refine ⟨hf.orderly.storeAttachmentChunk hstore, by rw [huploads]; exact hf.member, ?_,
    hf.intact.storeAttachmentChunk hstore⟩
  unfold Unpublished
  rw [hpublished]
  exact hf.free

/-- Chunks that are not of the upload go away. -/
theorem Filling.removeChunks {upload : UploadRow} (hf : Filling sha256Bytes s upload) {id : String}
    {invalid : List ChunkRow} (hid : ∀ r ∈ invalid, r.uploadID = id)
    (hinvalid : id = upload.uploadID → invalid = []) :
    Filling sha256Bytes (s.removeChunks id invalid) upload ∧
      ∀ r, r.uploadID = upload.uploadID →
        (r ∈ (s.removeChunks id invalid).chunks.rows ↔ r ∈ s.chunks.rows) := by
  refine ⟨⟨hf.orderly.removeChunks hid, hf.member, hf.free, hf.intact.removeChunks hinvalid⟩,
    fun r hr => ?_⟩
  rw [mem_removeChunks]
  refine ⟨fun h => h.1, fun h => ⟨h, fun hmem => ?_⟩⟩
  rw [hinvalid ((hid r hmem).symm.trans hr)] at hmem
  cases hmem

/-- One call of a transfer: the rows of the upload are the old ones and that of the chunk that the
call stores. -/
theorem Filling.apply (rfc3339 : ℕ → String) {upload : UploadRow}
    (hf : Filling sha256Bytes s upload) {call : AttachmentCall} (hcall : isTransfer call = true) :
    Filling sha256Bytes (s.apply sha256Bytes rfc3339 call) upload ∧
      ∀ r, r.uploadID = upload.uploadID →
        (r ∈ (s.apply sha256Bytes rfc3339 call).chunks.rows ↔ r ∈ s.chunks.rows ∨
          ∃ ciphertext, Accepts sha256Bytes s call upload.uploadID r.chunkIndex ciphertext ∧
            r = rowOf sha256Bytes upload.uploadID r.chunkIndex ciphertext) := by
  have hquiet : ∀ {r : ChunkRow}, (∀ ciphertext,
      ¬ Accepts sha256Bytes s call upload.uploadID r.chunkIndex ciphertext) →
        (r ∈ s.chunks.rows ↔ r ∈ s.chunks.rows ∨
          ∃ ciphertext, Accepts sha256Bytes s call upload.uploadID r.chunkIndex ciphertext ∧
            r = rowOf sha256Bytes upload.uploadID r.chunkIndex ciphertext) := by
    intro r hnot
    exact ⟨.inl, fun h => h.elim id fun ⟨ciphertext, ha, _⟩ => absurd ha (hnot ciphertext)⟩
  cases call with
  | storeChunk now id authorCode index ciphertext cipherSHA256 txFails =>
    dsimp only [AttachmentStore.apply]
    cases hstore : s.storeAttachmentChunk sha256Bytes now id authorCode index ciphertext
        cipherSHA256 with
    | error e =>
      refine ⟨hf, fun r _ => hquiet ?_⟩
      rintro ciphertext ⟨_, _, _, _, _, heq, hok⟩
      cases heq
      rw [hstore] at hok
      cases hok
    | ok result =>
      obtain ⟨known, t⟩ := result
      cases txFails with
      | true =>
        refine ⟨hf, fun r _ => hquiet ?_⟩
        rintro ciphertext ⟨_, _, _, _, _, heq, -⟩
        cases heq
      | false =>
        refine ⟨hf.storeAttachmentChunk hstore, fun r hr => ?_⟩
        change r ∈ t.chunks.rows ↔ _
        rw [mem_storeAttachmentChunk hstore r]
        refine or_congr_right ⟨?_, ?_⟩
        · rintro rfl
          obtain rfl : id = upload.uploadID := hr
          exact ⟨ciphertext, ⟨_, _, _, _, _, rfl, hstore⟩, rfl⟩
        · rintro ⟨_, ⟨_, _, _, _, _, heq, -⟩, hrow⟩
          cases heq
          exact hrow
  | resume now id authorCode deleted =>
    have hnot : ∀ (r : ChunkRow) ciphertext, ¬ Accepts sha256Bytes s
        (.resume now id authorCode deleted) upload.uploadID r.chunkIndex ciphertext := by
      rintro r ciphertext ⟨_, _, _, _, _, heq, -⟩
      cases heq
    have hdamaged : id = upload.uploadID → s.damagedChunks sha256Bytes id = [] := by
      rintro rfl
      exact hf.intact.damagedChunks
    dsimp only [AttachmentStore.apply]
    cases hload : s.loadAttachmentUpload now id authorCode with
    | error e =>
      rw [resumeAttachmentUpload_error hload]
      exact ⟨hf, fun r _ => hquiet (hnot r)⟩
    | ok row =>
      obtain ⟨indexes, hresume, -⟩ := resumeAttachmentUpload_spec sha256Bytes hload
      rw [hresume]
      cases deleted with
      | none =>
        obtain ⟨hf', hrows⟩ := hf.removeChunks (fun r hr => (mem_damagedChunks.1 hr).2.1) hdamaged
        exact ⟨hf', fun r hr => (hrows r hr).trans (hquiet (hnot r))⟩
      | some n =>
        have hids : ∀ r ∈ (s.invalidChunks sha256Bytes id).take n, r.uploadID = id := by
          intro r hr
          have hr := (List.mem_insertionSort _).1 (List.mem_of_mem_take hr)
          exact (mem_damagedChunks.1 hr).2.1
        have hnone : id = upload.uploadID → (s.invalidChunks sha256Bytes id).take n = [] := by
          intro hsame
          have hnone := hdamaged hsame
          unfold AttachmentStore.damagedChunks at hnone
          unfold invalidChunks
          rw [hnone]
          exact List.take_nil
        obtain ⟨hf', hrows⟩ := hf.removeChunks hids hnone
        exact ⟨hf', fun r hr => (hrows r hr).trans (hquiet (hnot r))⟩
  | initUpload => cases hcall
  | commit => cases hcall
  | cleanup => cases hcall
  | disk => cases hcall

/-- A whole transfer: the rows of the upload are the old ones and those of the accepted chunks. -/
theorem Filling.run (rfc3339 : ℕ → String) {upload : UploadRow} {calls : List AttachmentCall}
    (hf : Filling sha256Bytes s upload) (hcalls : ∀ call ∈ calls, isTransfer call = true) :
    Filling sha256Bytes (run (AttachmentStore.apply sha256Bytes rfc3339) s calls) upload ∧
      ∀ r, r.uploadID = upload.uploadID →
        (r ∈ (run (AttachmentStore.apply sha256Bytes rfc3339) s calls).chunks.rows ↔
          r ∈ s.chunks.rows ∨ ∃ ciphertext,
            AcceptedIn sha256Bytes rfc3339 upload.uploadID r.chunkIndex ciphertext s calls ∧
              r = rowOf sha256Bytes upload.uploadID r.chunkIndex ciphertext) := by
  induction calls generalizing s with
  | nil => exact ⟨hf, fun r _ => by simp [AcceptedIn]⟩
  | cons call calls ih =>
    obtain ⟨hf₁, hrows₁⟩ := hf.apply rfc3339 (hcalls call List.mem_cons_self)
    obtain ⟨hf₂, hrows₂⟩ := ih hf₁ fun c hc => hcalls c (List.mem_cons_of_mem _ hc)
    refine ⟨hf₂, fun r hr => ?_⟩
    rw [run_cons, hrows₂ r hr, hrows₁ r hr]
    constructor
    · rintro ((hold | ⟨ciphertext, ha, hrow⟩) | ⟨ciphertext, ha, hrow⟩)
      · exact .inl hold
      · exact .inr ⟨ciphertext, .inl ha, hrow⟩
      · exact .inr ⟨ciphertext, .inr ha, hrow⟩
    · rintro (hold | ⟨ciphertext, ha | ha, hrow⟩)
      · exact .inl (.inl hold)
      · exact .inl (.inr ⟨ciphertext, ha, hrow⟩)
      · exact .inr ⟨ciphertext, ha, hrow⟩

/-- What an initialization with a fresh attachment id leaves: an upload without chunks. -/
theorem filling_initial (ho : Orderly s) {now : ℕ} {attachmentID uploadID room authorCode : String}
    {size : ℤ} {upload : AttachmentUpload}
    (hinit : s.initializeAttachment now attachmentID uploadID room authorCode size =
      .ok (upload, s')) (hfresh : ∀ f ∈ s.publishedFiles, f.directory ≠ attachmentID) :
    ∃ row : UploadRow, Filling sha256Bytes s' row ∧ row.uploadID = uploadID ∧
      row.logicalSize = size ∧ row.expiresAt = upload.expiresAt ∧
      normalizeUserCode authorCode = .ok row.authorCode ∧
      ∀ r ∈ s'.chunks.rows, r.uploadID ≠ uploadID := by
  obtain ⟨author, hauthor, -, -, -, -, hup, hchunks, -, hpublished, rfl⟩ :=
    initializeAttachment_spec hinit
  have hnone : ∀ r ∈ s'.chunks.rows, r.uploadID ≠ uploadID := by
    intro r hr hid
    rw [hchunks] at hr
    obtain ⟨u, hu, huid, -⟩ := ho.upload r hr
    have hclash := (Table.not_clash_of_insert? hup u hu).1
    rw [UploadRow.clash_of_uploadID (huid.trans hid)] at hclash
    cases hclash
  refine ⟨_, ⟨ho.initializeAttachment hinit, (Table.mem_insert? hup).2 (.inr rfl), ?_, ?_⟩, rfl, rfl,
    rfl, hauthor, hnone⟩
  · unfold Unpublished
    rw [hpublished]
    exact hfresh
  · exact fun r hr hid => absurd hid (hnone r hr)

theorem Filling.load {upload : UploadRow} (hf : Filling sha256Bytes s upload) {authorCode : String}
    (hauthor : normalizeUserCode authorCode = .ok upload.authorCode) {now : ℕ}
    (htime : now < upload.expiresAt) :
    s.loadAttachmentUpload now upload.uploadID authorCode = .ok upload :=
  loadAttachmentUpload_ok (Table.lookup_of_mem (fun _ _ => UploadRow.clash_of_uploadID) s.uploads
    hf.member) hauthor htime

/-- Once every index of an upload has been accepted, with an intact disk and before the expiry, the
commit succeeds exactly when every accepted ciphertext has the size of its index. -/
theorem acknowledged_committable_iff {rfc3339 : ℕ → String} (before : List AttachmentCall)
    (hdisk : Along (AttachmentStore.apply sha256Bytes rfc3339) onlyDamages empty before)
    {now : ℕ} {attachmentID uploadID room authorCode : String} {size : ℤ}
    {upload : AttachmentUpload} {s₁ : AttachmentStore}
    (hinit : (run (AttachmentStore.apply sha256Bytes rfc3339) empty before).initializeAttachment now
      attachmentID uploadID room authorCode size = .ok (upload, s₁))
    (hfresh : ∀ f ∈ (run (AttachmentStore.apply sha256Bytes rfc3339) empty before).publishedFiles,
      f.directory ≠ attachmentID)
    {calls : List AttachmentCall} (hcalls : ∀ call ∈ calls, isTransfer call = true)
    (haccepted : ∀ i, 0 ≤ i → i < chunkCount size attachmentChunkSize →
      ∃ ciphertext, AcceptedIn sha256Bytes rfc3339 uploadID i ciphertext s₁ calls)
    {commitNow : ℕ} (hcommit : commitNow < upload.expiresAt) (committedAt : String) :
    (∃ r, ((run (AttachmentStore.apply sha256Bytes rfc3339) s₁ calls).commitAttachmentUpload
      sha256Bytes commitNow committedAt false uploadID authorCode).1 = .ok r) ↔
      ∀ i ciphertext, AcceptedIn sha256Bytes rfc3339 uploadID i ciphertext s₁ calls →
        (ciphertext.length : ℤ) = plainSize size attachmentChunkSize i + attachmentCryptoTagSize := by
  obtain ⟨row, hf₁, rfl, rfl, hexpires, hauthor, hempty⟩ :=
    filling_initial (orderly_run hdisk) hinit hfresh
  obtain ⟨hf, hrows⟩ := hf₁.run rfc3339 hcalls
  have hrow : ∀ r, r.uploadID = row.uploadID →
      (r ∈ (run (AttachmentStore.apply sha256Bytes rfc3339) s₁ calls).chunks.rows ↔
        ∃ ciphertext, AcceptedIn sha256Bytes rfc3339 row.uploadID r.chunkIndex ciphertext s₁ calls ∧
          r = rowOf sha256Bytes row.uploadID r.chunkIndex ciphertext) := by
    intro r hr
    rw [hrows r hr]
    exact ⟨fun h => h.resolve_left fun hold => hempty r hold hr, .inr⟩
  have hchunk := (hf.orderly.sized row hf.member).2
  rw [← hexpires] at hcommit
  rw [commit_ok_iff hf.orderly (hf.load hauthor hcommit) committedAt]
  constructor
  · rintro ⟨hcomplete, -⟩ i ciphertext ha
    have hmem := (hrow (rowOf sha256Bytes row.uploadID i ciphertext) rfl).2 ⟨ciphertext, ha, rfl⟩
    have hfits := hcomplete.fits _ hmem rfl
    unfold FitsIndex at hfits
    rw [hchunk] at hfits
    exact hfits
  · intro hsizes
    refine ⟨⟨fun i hpos hlt => ?_, fun r hr hid => ?_, hf.intact⟩, hf.free⟩
    · rw [hchunk] at hlt
      obtain ⟨ciphertext, ha⟩ := haccepted i hpos hlt
      exact ⟨_, (hrow (rowOf sha256Bytes row.uploadID i ciphertext) rfl).2 ⟨ciphertext, ha, rfl⟩, rfl,
        rfl⟩
    · obtain ⟨ciphertext, ha, heq⟩ := (hrow r hid).1 hr
      unfold FitsIndex
      rw [hchunk, ← hsizes r.chunkIndex ciphertext ha, heq]
      rfl

/-- An upload of one byte whose only chunk comes as `ciphertext`. -/
def byteUpload (digest : List UInt8 → String) (ciphertext : List UInt8) : List AttachmentCall :=
  [.storeChunk 1 "u" "0000000001" 0 ciphertext (digest ciphertext) false]

/-- A digest of the right form. -/
def anyDigest : List UInt8 → String := fun _ =>
  "0a88111852095cae045340ea1f0b279944b2a756a213d9b50107d7489771e159"

/-- Seventeen bytes for one plain byte. -/
theorem acknowledged_committable_iff_byte : ∃ s₁ : AttachmentStore,
    (empty.initializeAttachment 0 "a" "u" "lobby" "0000000001" 1).toOption.map Prod.snd = some s₁ ∧
    ∃ r, ((run (AttachmentStore.apply anyDigest fun _ => "") s₁
      (byteUpload anyDigest (List.replicate 17 0))).commitAttachmentUpload anyDigest 2 "now" false
        "u" "0000000001").1 = .ok r := by
  cases hinit : empty.initializeAttachment 0 "a" "u" "lobby" "0000000001" 1 with
  | error e =>
    have hok : (empty.initializeAttachment 0 "a" "u" "lobby" "0000000001" 1).toOption.isSome := by
      decide +kernel
    rw [hinit] at hok
    cases hok
  | ok result =>
    obtain ⟨upload, s₁⟩ := result
    have hs₁ : s₁ = ((empty.initializeAttachment 0 "a" "u" "lobby" "0000000001" 1).toOption.map
        Prod.snd).getD empty := by
      rw [hinit]
      rfl
    obtain ⟨-, -, -, -, -, -, -, -, -, -, rfl⟩ := initializeAttachment_spec hinit
    have hone : ∀ i ciphertext, AcceptedIn anyDigest (fun _ => "") "u" i ciphertext s₁
        (byteUpload anyDigest (List.replicate 17 0)) → i = 0 ∧ ciphertext = List.replicate 17 0 := by
      rintro i ciphertext (⟨_, _, _, _, _, heq, -⟩ | hnil)
      · cases heq
        exact ⟨rfl, rfl⟩
      · cases hnil
    refine ⟨s₁, rfl, (acknowledged_committable_iff [] trivial hinit (fun f hf => by cases hf)
      ?_ ?_ (by decide : 2 < _) "now").2 ?_⟩
    · intro call hcall
      obtain rfl := List.mem_singleton.1 hcall
      rfl
    · intro i hpos hlt
      have hcount : chunkCount 1 attachmentChunkSize = 1 := by decide
      obtain rfl : i = 0 := by omega
      have hstored : ((s₁.storeAttachmentChunk anyDigest 1 "u" "0000000001" 0 (List.replicate 17 0)
          (anyDigest (List.replicate 17 0))).toOption.map Prod.fst) = some false := by
        rw [hs₁]
        decide +kernel
      cases hstore : s₁.storeAttachmentChunk anyDigest 1 "u" "0000000001" 0 (List.replicate 17 0)
          (anyDigest (List.replicate 17 0)) with
      | error e =>
        rw [hstore] at hstored
        cases hstored
      | ok result => exact ⟨_, .inl ⟨_, _, _, _, _, rfl, hstore⟩⟩
    · intro i ciphertext ha
      obtain ⟨rfl, rfl⟩ := hone i ciphertext ha
      decide

/-- One byte without its authentication tag is accepted as the only chunk, and the commit fails. -/
theorem short_chunk_acknowledged :
    let s₁ := run (AttachmentStore.apply anyDigest fun _ => "") empty
      [.initUpload 0 "a" "u" "lobby" "0000000001" 1 false]
    chunkCount 1 attachmentChunkSize = 1 ∧
      (s₁.storeAttachmentChunk anyDigest 1 "u" "0000000001" 0 [0]
        (anyDigest [0])).toOption.map Prod.fst = some false ∧
      ((run (AttachmentStore.apply anyDigest fun _ => "") s₁
        (byteUpload anyDigest [0])).commitAttachmentUpload anyDigest 2 "now" false "u"
          "0000000001").1 = .error .errAttachmentChunksIncomplete := by
  decide +kernel

/-! ### Recovery -/

/-- The indexes of an upload that a resumption does not report. -/
def missingIndexes (count : ℤ) (indexes : List ℤ) : List ℕ :=
  (List.range count.toNat).filter fun i => ((i : ℤ)) ∉ indexes

/-- The missing chunks are stored one after another. -/
def restoreChunks (sha256Bytes : List UInt8 → String) (storeNow : ℕ → ℕ)
    (uploadID authorCode : String) (chunk : ℕ → List UInt8) :
    AttachmentStore → List ℕ → Except AttachmentError AttachmentStore
  | s, [] => .ok s
  | s, i :: missing => do
    let (_, s) ← s.storeAttachmentChunk sha256Bytes (storeNow i) uploadID authorCode i (chunk i)
      (sha256Bytes (chunk i))
    restoreChunks sha256Bytes storeNow uploadID authorCode chunk s missing

/-- A resumption, every chunk that it does not report, and the commit. -/
def recover (sha256Bytes : List UInt8 → String) (s : AttachmentStore) (resumeNow commitNow : ℕ)
    (storeNow : ℕ → ℕ) (committedAt uploadID authorCode : String) (count : ℤ)
    (chunk : ℕ → List UInt8) : Except AttachmentError AttachmentCommit := do
  let (indexes, s) ← s.resumeAttachmentUpload sha256Bytes resumeNow uploadID authorCode
  let s ← restoreChunks sha256Bytes storeNow uploadID authorCode chunk s
    (missingIndexes count indexes)
  (s.commitAttachmentUpload sha256Bytes commitNow committedAt false uploadID authorCode).1

/-- Chunks without rows can be stored, whatever their number. -/
theorem restoreChunks_spec (ho : Orderly s) (storeNow : ℕ → ℕ) {uploadID authorCode : String}
    (chunk : ℕ → List UInt8) {upload : UploadRow} {missing : List ℕ} (hnodup : missing.Nodup)
    (hload : ∀ i, s.loadAttachmentUpload (storeNow i) uploadID authorCode = .ok upload)
    (hvalid : ∀ i ∈ missing, validateAttachmentChunk sha256Bytes i (chunk i)
      (sha256Bytes (chunk i)) upload.logicalSize = .ok ())
    (hnew : ∀ i ∈ missing, ∀ r ∈ s.chunks.rows, r.uploadID = uploadID → r.chunkIndex ≠ i)
    (hintact : Intact sha256Bytes s uploadID) :
    ∃ s', restoreChunks sha256Bytes storeNow uploadID authorCode chunk s missing = .ok s' ∧
      Orderly s' ∧ Intact sha256Bytes s' uploadID ∧ s'.uploads = s.uploads ∧
      s'.publishedFiles = s.publishedFiles ∧
      ∀ r, r ∈ s'.chunks.rows ↔ r ∈ s.chunks.rows ∨
        ∃ i ∈ missing, r = rowOf sha256Bytes uploadID i (chunk i) := by
  induction missing generalizing s with
  | nil => exact ⟨s, rfl, ho, hintact, rfl, rfl, fun r => by simp⟩
  | cons i missing ih =>
    obtain ⟨hfresh, hnodup⟩ := List.nodup_cons.1 hnodup
    obtain ⟨s₁, hstore⟩ := ho.storeAttachmentChunk_new (hload i) (hvalid i List.mem_cons_self)
      (hnew i List.mem_cons_self)
    obtain ⟨-, huploads, -, hpublished⟩ := storeAttachmentChunk_frame hstore
    have hrows := mem_storeAttachmentChunk hstore
    have hload₁ : ∀ j, s₁.loadAttachmentUpload (storeNow j) uploadID authorCode = .ok upload := by
      intro j
      rw [← hload j]
      unfold loadAttachmentUpload
      rw [huploads]
    have hnew₁ : ∀ j ∈ missing, ∀ r ∈ s₁.chunks.rows, r.uploadID = uploadID →
        r.chunkIndex ≠ j := by
      intro j hj r hr hid
      rcases (hrows r).1 hr with hr | rfl
      · exact hnew j (List.mem_cons_of_mem _ hj) r hr hid
      · intro hij
        obtain rfl : i = j := Int.ofNat_inj.1 hij
        exact hfresh hj
    obtain ⟨s', hrun, ho', hintact', huploads', hpublished', hrows'⟩ :=
      ih (ho.storeAttachmentChunk hstore) hnodup hload₁
        (fun j hj => hvalid j (List.mem_cons_of_mem _ hj)) hnew₁
        (hintact.storeAttachmentChunk hstore)
    refine ⟨s', ?_, ho', hintact', huploads'.trans huploads, hpublished'.trans hpublished,
      fun r => ?_⟩
    · simp only [restoreChunks, hstore, bind, Except.bind]
      exact hrun
    · rw [hrows' r, hrows r, or_assoc]
      refine or_congr_right ?_
      simp

/-- A resumption leaves intact files only. -/
theorem intact_removeChunks_damaged {uploadID : String} :
    Intact sha256Bytes (s.removeChunks uploadID (s.damagedChunks sha256Bytes uploadID)) uploadID := by
  intro r hr hid
  obtain ⟨hr, hnot⟩ := mem_removeChunks.1 hr
  have hmatch : s.storedAttachmentChunkMatches sha256Bytes uploadID r = true := by
    by_contra hdamaged
    exact hnot (mem_damagedChunks.2 ⟨hr, hid, by simpa using hdamaged⟩)
  rw [← hmatch]
  refine matches_of_readFile (readFile_filter fun f hdirectory hindex => ?_)
  -- another damaged row of this index would be the same row
  have hnone : ((s.damagedChunks sha256Bytes uploadID).any fun q => q.chunkIndex == f.index) =
      false := by
    rw [List.any_eq_false]
    intro q hq hqindex
    rw [beq_iff_eq] at hqindex
    obtain ⟨hqmem, hqid, hdamaged⟩ := mem_damagedChunks.1 hq
    obtain rfl : q = r := s.chunks.eq_of_clash hqmem hr (Table.keyClash_of_eq _
      (by simp only [ChunkRow.key, hqid, hid, hqindex, hindex]))
    exact hnot hq
  rw [hnone, Bool.and_false]
  rfl

/-- Every row of a complete file has the size of its index. -/
def IntactFit (sha256Bytes : List UInt8 → String) (s : AttachmentStore) (upload : UploadRow) :
    Prop :=
  ∀ r ∈ s.chunks.rows, r.uploadID = upload.uploadID →
    s.storedAttachmentChunkMatches sha256Bytes upload.uploadID r = true → FitsIndex upload r

/-- A recovery succeeds exactly for an unpublished upload whose intact chunks have their sizes. -/
theorem recover_ok_iff (ho : Orderly s) {resumeNow commitNow : ℕ} {storeNow : ℕ → ℕ}
    {uploadID authorCode : String} {upload : UploadRow}
    (hload : s.loadAttachmentUpload resumeNow uploadID authorCode = .ok upload)
    (hstoreNow : ∀ i, storeNow i < upload.expiresAt) (hcommitNow : commitNow < upload.expiresAt)
    (committedAt : String) {chunk : ℕ → List UInt8}
    (hdigest : ∀ i, (sha256Bytes (chunk i)).utf8ByteSize = sha256HexSize ∧
      isLowerHex (sha256Bytes (chunk i)) = true)
    (hsize : ∀ i : ℕ, (i : ℤ) < chunkCount upload.logicalSize attachmentChunkSize →
      ((chunk i).length : ℤ) =
        plainSize upload.logicalSize attachmentChunkSize i + attachmentCryptoTagSize) :
    (∃ r, s.recover sha256Bytes resumeNow commitNow storeNow committedAt uploadID authorCode
      (chunkCount upload.logicalSize attachmentChunkSize) chunk = .ok r) ↔
      Unpublished s upload ∧ IntactFit sha256Bytes s upload := by
  obtain ⟨hmem, rfl⟩ := mem_of_loadAttachmentUpload hload
  have hchunk := (ho.sized upload hmem).2
  obtain ⟨indexes, hresume, -, hindexes⟩ := resumeAttachmentUpload_spec sha256Bytes hload
  let s₁ := s.removeChunks upload.uploadID (s.damagedChunks sha256Bytes upload.uploadID)
  have ho₁ : Orderly s₁ := ho.removeChunks fun r hr => (mem_damagedChunks.1 hr).2.1
  have hrows₁ : ∀ r, r ∈ s₁.chunks.rows ∧ r.uploadID = upload.uploadID ↔
      (r ∈ s.chunks.rows ∧ r.uploadID = upload.uploadID) ∧
        s.storedAttachmentChunkMatches sha256Bytes upload.uploadID r = true := by
    intro r
    show r ∈ (s.removeChunks _ _).chunks.rows ∧ _ ↔ _
    rw [mem_removeChunks, mem_damagedChunks]
    constructor
    · rintro ⟨⟨hr, hnot⟩, hid⟩
      refine ⟨⟨hr, hid⟩, ?_⟩
      by_contra hdamaged
      exact hnot ⟨hr, hid, by simpa using hdamaged⟩
    · rintro ⟨⟨hr, hid⟩, hmatch⟩
      refine ⟨⟨hr, fun h => ?_⟩, hid⟩
      rw [hmatch] at h
      cases h.2.2
  have hmissing : ∀ i, i ∈ missingIndexes (chunkCount upload.logicalSize attachmentChunkSize)
      indexes ↔ (i : ℤ) < chunkCount upload.logicalSize attachmentChunkSize ∧
        (i : ℤ) ∉ indexes := by
    intro i
    unfold missingIndexes
    rw [List.mem_filter, List.mem_range, decide_eq_true_eq]
    refine and_congr_left fun _ => ?_
    omega
  obtain ⟨s₂, hrestore, ho₂, hintact₂, huploads₂, hpublished₂, hrows₂⟩ :=
    restoreChunks_spec ho₁ storeNow chunk
      (List.nodup_range.filter _)
      (fun i => loadAttachmentUpload_later (s := s₁) hload (hstoreNow i))
      (fun i hi => validateAttachmentChunk_ok (hdigest i) ((hmissing i).1 hi).1
        (hsize i ((hmissing i).1 hi).1))
      (fun i hi r hr hid hindex => ((hmissing i).1 hi).2 ((hindexes _).2
        ⟨r, ((hrows₁ r).1 ⟨hr, hid⟩).1.1, hid, hindex, ((hrows₁ r).1 ⟨hr, hid⟩).2⟩))
      intact_removeChunks_damaged
  have hload₂ : s₂.loadAttachmentUpload commitNow upload.uploadID authorCode = .ok upload := by
    rw [← loadAttachmentUpload_later hload hcommitNow]
    unfold loadAttachmentUpload
    rw [huploads₂]
    rfl
  have hcommit : _ ↔ Complete sha256Bytes s₂ upload ∧ Unpublished s₂ upload :=
    commit_ok_iff ho₂ hload₂ committedAt
  have hrecover : s.recover sha256Bytes resumeNow commitNow storeNow committedAt upload.uploadID
      authorCode (chunkCount upload.logicalSize attachmentChunkSize) chunk =
        (s₂.commitAttachmentUpload sha256Bytes commitNow committedAt false upload.uploadID
          authorCode).1 := by
    unfold recover
    simp only [hresume, bind, Except.bind]
    simp only [show restoreChunks sha256Bytes storeNow upload.uploadID authorCode chunk
      (s.removeChunks upload.uploadID (s.damagedChunks sha256Bytes upload.uploadID))
      (missingIndexes (chunkCount upload.logicalSize attachmentChunkSize) indexes) = .ok s₂
        from hrestore]
  rw [hrecover, hcommit, and_comm]
  have hfree : Unpublished s₂ upload ↔ Unpublished s upload := by
    unfold Unpublished
    rw [hpublished₂]
    rfl
  refine and_congr hfree ?_
  constructor
  · intro hcomplete r hr hid hmatch
    have hr₁ := ((hrows₁ r).2 ⟨⟨hr, hid⟩, hmatch⟩).1
    exact hcomplete.fits r ((hrows₂ r).2 (.inl hr₁)) hid
  · intro hfits
    refine ⟨fun i hpos hlt => ?_, fun r hr hid => ?_, hintact₂⟩
    · by_cases hi : i ∈ indexes
      · obtain ⟨r, hr, hid, hindex, hmatch⟩ := (hindexes i).1 hi
        have hr₁ := ((hrows₁ r).2 ⟨⟨hr, hid⟩, hmatch⟩).1
        exact ⟨r, (hrows₂ r).2 (.inl hr₁), hid, hindex⟩
      · rw [hchunk] at hlt
        lift i to ℕ using hpos
        exact ⟨_, (hrows₂ _).2 (.inr ⟨i, (hmissing i).2 ⟨hlt, hi⟩, rfl⟩), rfl, rfl⟩
    · rcases (hrows₂ r).1 hr with hr₁ | ⟨i, hi, rfl⟩
      · obtain ⟨⟨hr, -⟩, hmatch⟩ := (hrows₁ r).1 ⟨hr₁, hid⟩
        exact hfits r hr hid hmatch
      · unfold FitsIndex
        rw [hchunk]
        exact hsize i ((hmissing i).1 hi).1

/-- The commit gets past the move of the files: whatever fails, fails in its transaction. -/
def Moves (sha256Bytes : List UInt8 → String) (s : AttachmentStore) (now : ℕ)
    (uploadID authorCode : String) (renameFails : Bool) (upload : UploadRow) : Prop :=
  renameFails = false ∧ s.loadAttachmentUpload now uploadID authorCode = .ok upload ∧
    Complete sha256Bytes s upload ∧ Unpublished s upload

/-- A commit whose files do not move leaves the store as it is. -/
theorem commit_unmoved (ho : Orderly s) {now : ℕ} {uploadID authorCode : String}
    {upload : UploadRow} (hmem : upload ∈ s.uploads.rows) (hid : upload.uploadID = uploadID)
    {renameFails : Bool} (hmoves : ¬ Moves sha256Bytes s now uploadID authorCode renameFails upload)
    (rfc3339 : ℕ → String) (committedAt : String) (txFails : Bool) :
    s.apply sha256Bytes rfc3339
      (.commit now committedAt uploadID authorCode renameFails txFails) = s := by
  dsimp only [AttachmentStore.apply]
  cases renameFails with
  | true => rfl
  | false =>
    rw [if_neg (by decide)]
    cases hload : s.loadAttachmentUpload now uploadID authorCode with
    | error e =>
      unfold commitAttachmentUpload
      rw [hload]
    | ok row =>
      have hrow : row = upload := by
        obtain ⟨hr, hrid⟩ := mem_of_loadAttachmentUpload hload
        exact s.uploads.eq_of_clash hr hmem (UploadRow.clash_of_uploadID (hrid.trans hid.symm))
      subst hrow
      have hnot : ¬ ∃ r, (s.commitAttachmentUpload sha256Bytes now committedAt false uploadID
          authorCode).1 = .ok r := by
        rw [commit_ok_iff ho hload]
        exact fun h => hmoves ⟨rfl, hload, h⟩
      -- what fails without a fault of the transaction fails before the move
      revert hnot
      unfold commitAttachmentUpload
      rw [hload]
      dsimp only
      split
      · exact fun _ => rfl
      · split
        · exact fun _ => rfl
        · exact fun hnot => absurd ⟨_, rfl⟩ hnot

/-- A commit that gets past the move and fails has published the files. -/
theorem commit_moved (ho : Orderly s) {now : ℕ} {uploadID authorCode : String}
    {upload : UploadRow} {renameFails txFails : Bool} {committedAt : String}
    (hmoves : Moves sha256Bytes s now uploadID authorCode renameFails upload)
    (hfails : renameFails = true ∨ ∃ e,
      (s.commitAttachmentUpload sha256Bytes now committedAt txFails uploadID authorCode).1 =
        .error e) (rfc3339 : ℕ → String) :
    s.apply sha256Bytes rfc3339
      (.commit now committedAt uploadID authorCode renameFails txFails) = s.publish upload := by
  obtain ⟨rfl, hload, hcomplete, hfree⟩ := hmoves
  obtain ⟨r, hok⟩ := (commit_ok_iff ho hload committedAt).2 ⟨hcomplete, hfree⟩
  obtain ⟨e, herror⟩ := hfails.resolve_left (by decide)
  cases txFails with
  | false =>
    rw [hok] at herror
    cases herror
  | true =>
    dsimp only [AttachmentStore.apply]
    rw [if_neg (by decide)]
    revert hok
    unfold commitAttachmentUpload
    rw [hload]
    dsimp only
    split
    · rintro ⟨⟩
    · split
      · rintro ⟨⟩
      · exact fun _ => rfl

theorem not_unpublished_publish (ho : Orderly s) {upload : UploadRow}
    (hmem : upload ∈ s.uploads.rows) (hcomplete : Complete sha256Bytes s upload) :
    ¬ Unpublished (s.publish upload) upload := by
  obtain ⟨hpos, hchunk⟩ := ho.sized upload hmem
  have hcount : 0 < chunkCount upload.logicalSize upload.chunkSize := by
    rw [hchunk]
    unfold chunkCount attachmentChunkSize
    omega
  obtain ⟨r, hr, hid, hindex⟩ := hcomplete.indexes 0 le_rfl hcount
  obtain ⟨bytes, hfile, -⟩ := storedAttachmentChunkMatches_iff.1 (hcomplete.intact r hr hid)
  obtain ⟨f, hfind, -⟩ := Option.map_eq_some_iff.1 hfile
  have hf := List.find?_some hfind
  rw [Bool.and_eq_true, beq_iff_eq] at hf
  intro hfree
  refine hfree { f with directory := upload.attachmentID } ?_ rfl
  refine List.mem_append.2 (.inr (List.mem_map.2 ⟨f, List.mem_filter.2 ⟨?_, ?_⟩, rfl⟩))
  · exact List.mem_of_find?_eq_some hfind
  · rw [beq_iff_eq]
    exact hf.1

/-- After a failed commit in any reachable store, a recovery of the upload succeeds exactly when its
directory has never been published, its intact chunks have the sizes of their indexes, and the
commit has failed before it moved the files. -/
theorem failed_commit_recoverable_iff {rfc3339 : ℕ → String} (calls : List AttachmentCall)
    (hdisk : Along (AttachmentStore.apply sha256Bytes rfc3339) onlyDamages empty calls)
    {now resumeNow commitNow : ℕ} {storeNow : ℕ → ℕ} {uploadID author authorCode : String}
    {upload : UploadRow} {renameFails txFails : Bool} {committedAt : String}
    (hfails : renameFails = true ∨ ∃ e, ((run (AttachmentStore.apply sha256Bytes rfc3339) empty
      calls).commitAttachmentUpload sha256Bytes now committedAt txFails uploadID author).1 = .error e)
    (hload : (run (AttachmentStore.apply sha256Bytes rfc3339) empty calls).loadAttachmentUpload
      resumeNow uploadID authorCode = .ok upload)
    (hstoreNow : ∀ i, storeNow i < upload.expiresAt) (hcommitNow : commitNow < upload.expiresAt)
    {chunk : ℕ → List UInt8}
    (hdigest : ∀ i, (sha256Bytes (chunk i)).utf8ByteSize = sha256HexSize ∧
      isLowerHex (sha256Bytes (chunk i)) = true)
    (hsize : ∀ i : ℕ, (i : ℤ) < chunkCount upload.logicalSize attachmentChunkSize →
      ((chunk i).length : ℤ) =
        plainSize upload.logicalSize attachmentChunkSize i + attachmentCryptoTagSize) :
    let s := run (AttachmentStore.apply sha256Bytes rfc3339) empty calls
    (∃ r, (s.apply sha256Bytes rfc3339
        (.commit now committedAt uploadID author renameFails txFails)).recover sha256Bytes resumeNow
          commitNow storeNow committedAt uploadID authorCode
          (chunkCount upload.logicalSize attachmentChunkSize) chunk = .ok r) ↔
      Unpublished s upload ∧ IntactFit sha256Bytes s upload ∧
        ¬ Moves sha256Bytes s now uploadID author renameFails upload := by
  intro s
  have ho : Orderly s := orderly_run hdisk
  obtain ⟨hmem, hid⟩ := mem_of_loadAttachmentUpload hload
  by_cases hmoves : Moves sha256Bytes s now uploadID author renameFails upload
  · rw [commit_moved ho hmoves hfails, recover_ok_iff (ho.publish upload) hload
      hstoreNow hcommitNow committedAt hdigest hsize]
    refine ⟨fun h => ?_, fun h => absurd hmoves h.2.2⟩
    exact absurd h.1 (not_unpublished_publish ho hmem hmoves.2.2.1)
  · rw [commit_unmoved ho hmem hid hmoves, recover_ok_iff ho hload hstoreNow hcommitNow committedAt
      hdigest hsize]
    exact ⟨fun h => ⟨h.1, h.2, hmoves⟩, fun h => ⟨h.1, h.2.1⟩⟩

/-- A commit before the only chunk has come; the recovery sends it. -/
theorem failed_commit_recoverable_iff_early :
    let s := run (AttachmentStore.apply anyDigest fun _ => "") empty
      [.initUpload 0 "a" "u" "lobby" "0000000001" 1 false]
    (s.commitAttachmentUpload anyDigest 1 "now" false "u" "0000000001").1 =
        .error .errAttachmentChunksIncomplete ∧
      ∃ r, (s.apply anyDigest (fun _ => "")
        (.commit 1 "now" "u" "0000000001" false false)).recover anyDigest 2 4 (fun _ => 3) "now" "u"
          "0000000001" 1 (fun _ => List.replicate 17 0) = .ok r := by
  intro s
  have herror : (s.commitAttachmentUpload anyDigest 1 "now" false "u" "0000000001").1 =
      .error .errAttachmentChunksIncomplete := by
    decide +kernel
  have hload : s.loadAttachmentUpload 2 "u" "0000000001" = .ok ⟨"u", "a", "lobby", "0000000001",
      1, 1, 48128, 86400000000000⟩ := by
    decide +kernel
  have hrows : s.chunks.rows = [] := by decide +kernel
  have hfiles : s.publishedFiles = [] := by decide +kernel
  refine ⟨herror, (failed_commit_recoverable_iff
    [.initUpload 0 "a" "u" "lobby" "0000000001" 1 false] ⟨trivial, trivial⟩ (.inr ⟨_, herror⟩) hload
      (fun _ => by decide) (by decide) (fun _ => ⟨by decide +kernel, by decide +kernel⟩)
      fun i hi => ?_).2 ⟨?_, ?_, ?_⟩⟩
  · have hcount : chunkCount 1 attachmentChunkSize = 1 := by decide
    obtain rfl : i = 0 := by
      change (i : ℤ) < chunkCount 1 attachmentChunkSize at hi
      omega
    decide
  · intro f hf
    change f ∈ s.publishedFiles at hf
    rw [hfiles] at hf
    cases hf
  · intro r hr
    change r ∈ s.chunks.rows at hr
    rw [hrows] at hr
    cases hr
  · rintro ⟨-, -, hcomplete, -⟩
    obtain ⟨r, hr, -⟩ := hcomplete.indexes 0 le_rfl (by decide)
    change r ∈ s.chunks.rows at hr
    rw [hrows] at hr
    cases hr

/-- The transaction fails after the files have been moved: the recovery stores the chunk again, and
its commit finds the directory. -/
theorem published_without_record :
    let s := run (AttachmentStore.apply anyDigest fun _ => "") empty
      (.initUpload 0 "a" "u" "lobby" "0000000001" 1 false ::
        byteUpload anyDigest (List.replicate 17 0))
    (s.commitAttachmentUpload anyDigest 2 "now" true "u" "0000000001").1 =
        .error (.text "commit attachment transaction") ∧
      ((s.apply anyDigest (fun _ => "")
        (.commit 2 "now" "u" "0000000001" false true)).resumeAttachmentUpload anyDigest 3 "u"
          "0000000001").toOption.map Prod.fst = some [] ∧
      (s.apply anyDigest (fun _ => "")
        (.commit 2 "now" "u" "0000000001" false true)).recover anyDigest 3 5 (fun _ => 4) "now" "u"
          "0000000001" 1 (fun _ => List.replicate 17 0) = .error .errAttachmentAlreadyCommitted := by
  decide +kernel

end AttachmentStore

end LanChat
