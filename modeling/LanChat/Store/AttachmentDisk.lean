import LanChat.Store.AttachmentTransfer

/-!
# Chunk rows and chunk files

A chunk has a row in the database and a file on the disk, and either of them may be lost or damaged
without the other.

* `onlyDamages`: the disk loses or changes files between two calls, but makes no new ones;
* `Orderly`: what every run with such a disk keeps, first of all that a file has its row;
* `resume_exact`: a resumption reports the intact chunks, keeps their rows only, and every other
  index can be stored again.
-/

namespace LanChat

open EventMachine

namespace AttachmentStore

variable {sha256Bytes : List UInt8 → String} {s s' : AttachmentStore}

/-! ### One call -/

/-- The rows of an upload whose files are not intact. -/
def damagedChunks (sha256Bytes : List UInt8 → String) (s : AttachmentStore) (uploadID : String) :
    List ChunkRow :=
  (s.chunks.rows.filter fun r => r.uploadID == uploadID).filter fun r =>
    !s.storedAttachmentChunkMatches sha256Bytes uploadID r

theorem mem_damagedChunks {uploadID : String} {r : ChunkRow} :
    r ∈ s.damagedChunks sha256Bytes uploadID ↔ r ∈ s.chunks.rows ∧ r.uploadID = uploadID ∧
      s.storedAttachmentChunkMatches sha256Bytes uploadID r = false := by
  unfold damagedChunks
  rw [List.mem_filter, List.mem_filter, beq_iff_eq, Bool.not_eq_true', and_assoc]

theorem mem_removeChunks {uploadID : String} {invalid : List ChunkRow} {r : ChunkRow} :
    r ∈ (s.removeChunks uploadID invalid).chunks.rows ↔ r ∈ s.chunks.rows ∧ r ∉ invalid := by
  show r ∈ s.chunks.rows.filter _ ↔ _
  rw [List.mem_filter]
  simp

/-- An upload has one row for an index at most. -/
theorem nodup_chunkIndexes (s : AttachmentStore) (uploadID : String) :
    ((s.chunks.rows.filter fun r => r.uploadID == uploadID).map ChunkRow.chunkIndex).Nodup := by
  refine List.Nodup.map_on ?_ (List.Nodup.filter _ ?_)
  · intro a ha b hb hindex
    obtain ⟨ha, hida⟩ := List.mem_filter.1 ha
    obtain ⟨hb, hidb⟩ := List.mem_filter.1 hb
    refine s.chunks.eq_of_clash ha hb (Table.keyClash_of_eq _ ?_)
    rw [beq_iff_eq] at hida hidb
    simp only [ChunkRow.key, hida, hidb, hindex]
  · refine s.chunks.distinct.imp ?_
    rintro a b ⟨hab, -⟩ rfl
    simp [Table.keyClash] at hab

/-- A resumption drops the rows of the damaged chunks and reports the others. -/
theorem resumeAttachmentUpload_spec (sha256Bytes : List UInt8 → String) {now : ℕ}
    {uploadID authorCode : String} {upload : UploadRow}
    (hload : s.loadAttachmentUpload now uploadID authorCode = .ok upload) :
    ∃ indexes, s.resumeAttachmentUpload sha256Bytes now uploadID authorCode =
        .ok (indexes, s.removeChunks uploadID (s.damagedChunks sha256Bytes uploadID)) ∧
      indexes.Pairwise (· < ·) ∧
      ∀ i, i ∈ indexes ↔ ∃ r ∈ s.chunks.rows, r.uploadID = uploadID ∧ r.chunkIndex = i ∧
        s.storedAttachmentChunkMatches sha256Bytes uploadID r = true := by
  let intact := (s.chunks.rows.filter fun r => r.uploadID == uploadID).filter fun r =>
    s.storedAttachmentChunkMatches sha256Bytes uploadID r
  have hnodup : (intact.map ChunkRow.chunkIndex).Nodup :=
    (s.nodup_chunkIndexes uploadID).sublist (List.filter_sublist.map _)
  unfold resumeAttachmentUpload
  rw [hload]
  refine ⟨_, rfl, ?_, fun i => ?_⟩
  · have hle := List.pairwise_insertionSort (fun a b : ℤ => a ≤ b) (intact.map ChunkRow.chunkIndex)
    have hne := (List.perm_insertionSort (fun a b : ℤ => a ≤ b)
      (intact.map ChunkRow.chunkIndex)).nodup_iff.2 hnodup
    exact (hle.and hne).imp fun h => lt_of_le_of_ne h.1 h.2
  · rw [List.mem_insertionSort, List.mem_map]
    constructor
    · rintro ⟨r, hr, rfl⟩
      obtain ⟨hr, hmatch⟩ := List.mem_filter.1 hr
      obtain ⟨hr, hid⟩ := List.mem_filter.1 hr
      exact ⟨r, hr, by simpa using hid, rfl, hmatch⟩
    · rintro ⟨r, hr, hid, rfl, hmatch⟩
      exact ⟨r, List.mem_filter.2 ⟨List.mem_filter.2 ⟨hr, by simpa using hid⟩, hmatch⟩, rfl⟩

theorem resumeAttachmentUpload_error {now : ℕ} {uploadID authorCode : String} {e : AttachmentError}
    (hload : s.loadAttachmentUpload now uploadID authorCode = .error e) :
    s.resumeAttachmentUpload sha256Bytes now uploadID authorCode = .error e := by
  unfold resumeAttachmentUpload
  rw [hload]
  rfl

/-- An upload that could be loaded can be loaded until it expires. -/
theorem loadAttachmentUpload_later {now later : ℕ} {uploadID authorCode : String}
    {upload : UploadRow} (hload : s.loadAttachmentUpload now uploadID authorCode = .ok upload)
    (hlater : later < upload.expiresAt) :
    s.loadAttachmentUpload later uploadID authorCode = .ok upload := by
  unfold loadAttachmentUpload at hload ⊢
  split at hload
  · cases hload
  · split at hload
    · cases hload
    · split_ifs at hload with hauthor hexpired
      cases hload
      rw [if_neg hauthor, if_neg (Nat.not_le.2 hlater)]

/-! ### What every run keeps -/

/-- The disk may lose chunk files of uploads or change their bytes between two calls; it makes no
new files and leaves the published ones alone. -/
def onlyDamages (s : AttachmentStore) : AttachmentCall → Prop
  | .disk partialFiles publishedFiles => publishedFiles = s.publishedFiles ∧
    ∀ f ∈ partialFiles, ∃ g ∈ s.partialFiles, g.directory = f.directory ∧ g.index = f.index
  | _ => True

/-- A chunk row belongs to an upload, a chunk file to a chunk row, and the sizes of uploads are
those of the protocol. -/
structure Orderly (s : AttachmentStore) : Prop where
  upload : ∀ r ∈ s.chunks.rows, ∃ u ∈ s.uploads.rows, u.uploadID = r.uploadID ∧
    0 ≤ r.chunkIndex ∧ r.chunkIndex < chunkCount u.logicalSize attachmentChunkSize
  file : ∀ f ∈ s.partialFiles, ∃ r ∈ s.chunks.rows, r.uploadID = f.directory ∧
    r.chunkIndex = f.index
  sized : ∀ u ∈ s.uploads.rows, 0 < u.logicalSize ∧ u.chunkSize = attachmentChunkSize

theorem orderly_empty : Orderly empty where
  upload _ h := absurd h List.not_mem_nil
  file _ h := absurd h List.not_mem_nil
  sized _ h := absurd h List.not_mem_nil

theorem Orderly.initializeAttachment (ho : Orderly s) {now : ℕ}
    {attachmentID uploadID room authorCode : String} {logicalSize : ℤ} {upload : AttachmentUpload}
    (hinit : s.initializeAttachment now attachmentID uploadID room authorCode logicalSize =
      .ok (upload, s')) : Orderly s' := by
  obtain ⟨author, -, hpos, -, -, -, hup, hchunks, hfiles, -, -⟩ := initializeAttachment_spec hinit
  constructor
  case upload =>
    intro r hr
    rw [hchunks] at hr
    obtain ⟨u, hu, hrest⟩ := ho.upload r hr
    exact ⟨u, (Table.mem_insert? hup).2 (.inl hu), hrest⟩
  case file =>
    rw [hchunks, hfiles]
    exact ho.file
  case sized =>
    intro u hu
    rcases (Table.mem_insert? hup).1 hu with hu | rfl
    · exact ho.sized u hu
    · exact ⟨hpos, rfl⟩

/-- The rows and files after a stored chunk. -/
theorem StoresChunk.rows {row : ChunkRow} {ciphertext : List UInt8} {known : Bool}
    (hstores : StoresChunk sha256Bytes s s' row ciphertext known) :
    (∀ r, r ∈ s'.chunks.rows ↔ r ∈ s.chunks.rows ∨ r = row) ∧
      ∀ f ∈ s'.partialFiles, f ∈ s.partialFiles ∨
        f.directory = row.uploadID ∧ f.index = row.chunkIndex := by
  cases hstores with
  | known hrow _ hsame =>
    subst hsame
    exact ⟨fun r => ⟨.inl, fun h => h.elim id fun h => h ▸ hrow⟩, fun f hf => .inl hf⟩
  | recovered _ _ hrows hfiles =>
    rw [hrows, hfiles]
    exact ⟨fun r => by simp, fun f hf => .inl hf⟩
  | written _ _ hrows hfiles =>
    rw [hrows, hfiles]
    refine ⟨fun r => by simp, fun f hf => ?_⟩
    rcases List.mem_append.1 hf with hf | hf
    · exact .inl hf
    · obtain rfl := List.mem_singleton.1 hf
      exact .inr ⟨rfl, rfl⟩

theorem Orderly.storeAttachmentChunk (ho : Orderly s) {now : ℕ} {uploadID authorCode : String}
    {index : ℤ} {ciphertext : List UInt8} {cipherSHA256 : String} {known : Bool}
    (hstore : s.storeAttachmentChunk sha256Bytes now uploadID authorCode index ciphertext
      cipherSHA256 = .ok (known, s')) : Orderly s' := by
  obtain ⟨-, huploads, -, -⟩ := storeAttachmentChunk_frame hstore
  obtain ⟨upload, hload, hvalid, hstores, -⟩ := storeAttachmentChunk_spec hstore
  obtain ⟨hmem, hid⟩ := mem_of_loadAttachmentUpload hload
  obtain ⟨hpos, hlt, -⟩ := validateAttachmentChunk_spec hvalid
  obtain ⟨hrows, hfiles⟩ := hstores.rows
  constructor
  case upload =>
    intro r hr
    rw [huploads]
    rcases (hrows r).1 hr with hr | rfl
    · exact ho.upload r hr
    · exact ⟨upload, hmem, hid, hpos, hlt⟩
  case file =>
    intro f hf
    rcases hfiles f hf with hf | ⟨hdirectory, hindex⟩
    · obtain ⟨r, hr, hrest⟩ := ho.file f hf
      exact ⟨r, (hrows r).2 (.inl hr), hrest⟩
    · exact ⟨_, (hrows _).2 (.inr rfl), hdirectory.symm, hindex.symm⟩
  case sized =>
    rw [huploads]
    exact ho.sized

theorem Orderly.removeChunks (ho : Orderly s) {uploadID : String} {invalid : List ChunkRow}
    (hinvalid : ∀ r ∈ invalid, r.uploadID = uploadID) : Orderly (s.removeChunks uploadID invalid) := by
  constructor
  case upload => exact fun r hr => ho.upload r (mem_removeChunks.1 hr).1
  case file =>
    intro f hf
    obtain ⟨hf, hkept⟩ := List.mem_filter.1 hf
    obtain ⟨r, hr, hdirectory, hindex⟩ := ho.file f hf
    refine ⟨r, mem_removeChunks.2 ⟨hr, fun hmem => ?_⟩, hdirectory, hindex⟩
    have hid := hinvalid r hmem
    have hany : (invalid.any fun r => r.chunkIndex == f.index) = true :=
      List.any_eq_true.2 ⟨r, hmem, by simp [hindex]⟩
    rw [hany, ← hdirectory, hid] at hkept
    simp at hkept
  case sized => exact ho.sized

/-- An upload goes away with its rows and files. -/
theorem Orderly.dropUpload (ho : Orderly s) (uploadID : String)
    (huploads : ∀ u, u ∈ s'.uploads.rows ↔ u ∈ s.uploads.rows ∧ u.uploadID ≠ uploadID)
    (hchunks : ∀ r, r ∈ s'.chunks.rows ↔ r ∈ s.chunks.rows ∧ r.uploadID ≠ uploadID)
    (hfiles : ∀ f ∈ s'.partialFiles, f ∈ s.partialFiles ∧ f.directory ≠ uploadID) : Orderly s' := by
  constructor
  case upload =>
    intro r hr
    obtain ⟨hr, hne⟩ := (hchunks r).1 hr
    obtain ⟨u, hu, hid, hrange⟩ := ho.upload r hr
    exact ⟨u, (huploads u).2 ⟨hu, hid ▸ hne⟩, hid, hrange⟩
  case file =>
    intro f hf
    obtain ⟨hf, hne⟩ := hfiles f hf
    obtain ⟨r, hr, hdirectory, hindex⟩ := ho.file f hf
    exact ⟨r, (hchunks r).2 ⟨hr, hdirectory ▸ hne⟩, hdirectory, hindex⟩
  case sized => exact fun u hu => ho.sized u ((huploads u).1 hu).1

theorem Orderly.publish (ho : Orderly s) (upload : UploadRow) : Orderly (s.publish upload) := by
  constructor
  case upload => exact ho.upload
  case file => exact fun f hf => ho.file f (List.mem_of_mem_filter hf)
  case sized => exact ho.sized

theorem Orderly.removeUpload (ho : Orderly s) (upload : UploadRow) :
    Orderly (s.removeUpload upload) := by
  refine ho.dropUpload upload.uploadID (fun u => ?_) (fun r => ?_) fun f hf => ?_
  · show u ∈ s.uploads.rows.filter _ ↔ _
    simp [List.mem_filter]
  · show r ∈ s.chunks.rows.filter _ ↔ _
    simp [List.mem_filter]
  · obtain ⟨hf, hne⟩ := List.mem_filter.1 hf
    exact ⟨hf, by simpa using hne⟩

theorem Orderly.foldl_removeUpload (ho : Orderly s) (expired : List UploadRow) :
    Orderly (expired.foldl AttachmentStore.removeUpload s) := by
  induction expired generalizing s with
  | nil => exact ho
  | cons upload expired ih => exact ih (ho.removeUpload upload)

theorem Orderly.recordCommit (ho : Orderly s) (upload : UploadRow) (whole committedAt : String) :
    Orderly ((s.publish upload).recordCommit upload whole committedAt) := by
  refine ho.dropUpload upload.uploadID (fun u => ?_) (fun r => ?_) fun f hf => ?_
  · show u ∈ s.uploads.rows.filter _ ↔ _
    simp [List.mem_filter]
  · show r ∈ s.chunks.rows.filter _ ↔ _
    simp [List.mem_filter]
  · obtain ⟨hf, hne⟩ := List.mem_filter.1 hf
    exact ⟨hf, by simpa using hne⟩

theorem Orderly.apply {rfc3339 : ℕ → String} (ho : Orderly s) {call : AttachmentCall}
    (hdisk : onlyDamages s call) : Orderly (s.apply sha256Bytes rfc3339 call) := by
  cases call with
  | initUpload now attachmentID uploadID room authorCode logicalSize txFails =>
    dsimp only [AttachmentStore.apply]
    split
    · split_ifs
      · exact ho
      · exact ho.initializeAttachment (by assumption)
    · exact ho
  | storeChunk now uploadID authorCode index ciphertext cipherSHA256 txFails =>
    dsimp only [AttachmentStore.apply]
    split
    · split_ifs
      · exact ho
      · exact ho.storeAttachmentChunk (by assumption)
    · exact ho
  | resume now uploadID authorCode deleted =>
    dsimp only [AttachmentStore.apply]
    cases hload : s.loadAttachmentUpload now uploadID authorCode with
    | error e =>
      rw [resumeAttachmentUpload_error hload]
      exact ho
    | ok upload =>
      obtain ⟨indexes, hresume, -⟩ := resumeAttachmentUpload_spec sha256Bytes hload
      rw [hresume]
      cases deleted with
      | none => exact ho.removeChunks fun r hr => (mem_damagedChunks.1 hr).2.1
      | some n =>
        refine ho.removeChunks fun r hr => ?_
        have hr := (List.mem_insertionSort _).1 (List.mem_of_mem_take hr)
        exact (mem_damagedChunks.1 hr).2.1
  | commit now committedAt uploadID authorCode renameFails txFails =>
    dsimp only [AttachmentStore.apply]
    split_ifs
    · exact ho
    · rcases commitAttachmentUpload_cases sha256Bytes s now committedAt txFails uploadID
        authorCode with he | ⟨upload, -, -, he | ⟨whole, he⟩⟩
      · rw [he]
        exact ho
      · rw [he]
        exact ho.publish upload
      · rw [he]
        exact ho.recordCommit upload whole committedAt
  | cleanup now removed =>
    cases removed with
    | none => exact ho.foldl_removeUpload _
    | some n => exact ho.foldl_removeUpload _
  | disk partialFiles publishedFiles =>
    obtain ⟨-, hnames⟩ := hdisk
    constructor
    case upload => exact ho.upload
    case file =>
      intro f hf
      obtain ⟨g, hg, hdirectory, hindex⟩ := hnames f hf
      obtain ⟨r, hr, hrdirectory, hrindex⟩ := ho.file g hg
      exact ⟨r, hr, hrdirectory.trans hdirectory, hrindex.trans hindex⟩
    case sized => exact ho.sized

/-- Every run whose disk only damages files keeps the rows and files in order. -/
theorem orderly_run {rfc3339 : ℕ → String} {calls : List AttachmentCall}
    (hdisk : Along (AttachmentStore.apply sha256Bytes rfc3339) onlyDamages empty calls) :
    Orderly (run (AttachmentStore.apply sha256Bytes rfc3339) empty calls) :=
  run_invariant_along (AttachmentStore.apply sha256Bytes rfc3339) (I := Orderly)
    (fun _ _ hd ho => ho.apply hd) orderly_empty hdisk

/-! ### The next resumption -/

/-- A chunk without a row has no file either, so it can be stored. -/
theorem Orderly.storeAttachmentChunk_new (ho : Orderly s) {now : ℕ} {uploadID authorCode : String}
    {upload : UploadRow} {index : ℤ} {ciphertext : List UInt8} {cipherSHA256 : String}
    (hload : s.loadAttachmentUpload now uploadID authorCode = .ok upload)
    (hvalid : validateAttachmentChunk sha256Bytes index ciphertext cipherSHA256 upload.logicalSize =
      .ok ()) (hrows : ∀ r ∈ s.chunks.rows, r.uploadID = uploadID → r.chunkIndex ≠ index) :
    ∃ s', s.storeAttachmentChunk sha256Bytes now uploadID authorCode index ciphertext cipherSHA256 =
      .ok (false, s') := by
  have hkey : ∀ r ∈ s.chunks.rows, r.key ≠ (uploadID, index) := by
    intro r hr hkey
    obtain ⟨hid, hindex⟩ := Prod.mk.injEq .. ▸ hkey
    exact hrows r hr hid hindex
  have hlookup : s.chunks.lookup ChunkRow.key (uploadID, index) = none := by
    cases hl : s.chunks.lookup ChunkRow.key (uploadID, index) with
    | none => rfl
    | some r => exact absurd (Table.key_of_lookup hl) (hkey r (Table.mem_of_lookup hl))
  have hfile : readFile s.partialFiles uploadID index = none := by
    unfold readFile
    rw [Option.map_eq_none_iff, List.find?_eq_none]
    intro f hf hmatch
    rw [Bool.and_eq_true, beq_iff_eq, beq_iff_eq] at hmatch
    obtain ⟨r, hr, hdirectory, hindex⟩ := ho.file f hf
    exact hrows r hr (hdirectory.trans hmatch.1) (hindex.trans hmatch.2)
  obtain ⟨chunks, hinsert⟩ : ∃ t, s.chunks.insert?
      ⟨uploadID, index, ciphertext.length, cipherSHA256⟩ = some t := by
    refine Table.insert?_isSome fun a ha => ⟨?_, ?_⟩
    · exact decide_eq_false (hkey a ha)
    · exact decide_eq_false fun e => hkey a ha e.symm
  unfold AttachmentStore.storeAttachmentChunk
  rw [hload]
  simp only [bind, Except.bind, hvalid, hlookup, hinsert, hfile]
  exact ⟨_, rfl⟩

theorem storedAttachmentChunkMatches_iff {uploadID : String} {r : ChunkRow} :
    s.storedAttachmentChunkMatches sha256Bytes uploadID r = true ↔ ∃ bytes,
      readFile s.partialFiles uploadID r.chunkIndex = some bytes ∧
        (bytes.length : ℤ) = r.cipherSize ∧ sha256Bytes bytes = r.cipherSha256 := by
  unfold storedAttachmentChunkMatches
  cases readFile s.partialFiles uploadID r.chunkIndex with
  | none => simp
  | some bytes => simp

/-- After any calls and any damage to chunk files between them, a resumption of an upload reports
the indexes whose files are as recorded, in order, the rows of these indexes are the ones that
remain, and every other chunk of the upload can be stored again. -/
theorem resume_exact {rfc3339 : ℕ → String} (calls : List AttachmentCall)
    (hdisk : Along (AttachmentStore.apply sha256Bytes rfc3339) onlyDamages empty calls)
    (now : ℕ) (uploadID authorCode : String) (upload : UploadRow)
    (hload : (run (AttachmentStore.apply sha256Bytes rfc3339) empty calls).loadAttachmentUpload now
      uploadID authorCode = .ok upload) :
    let s := run (AttachmentStore.apply sha256Bytes rfc3339) empty calls
    ∃ indexes s', s.resumeAttachmentUpload sha256Bytes now uploadID authorCode = .ok (indexes, s') ∧
      indexes.Pairwise (· < ·) ∧
      (∀ i, i ∈ indexes ↔ ∃ r ∈ s.chunks.rows, r.uploadID = uploadID ∧ r.chunkIndex = i ∧
        ∃ bytes, readFile s.partialFiles uploadID i = some bytes ∧
          (bytes.length : ℤ) = r.cipherSize ∧ sha256Bytes bytes = r.cipherSha256) ∧
      (∀ r, r ∈ s'.chunks.rows ↔ r ∈ s.chunks.rows ∧
        (r.uploadID = uploadID → r.chunkIndex ∈ indexes)) ∧
      ∀ later index ciphertext cipherSHA256, later < upload.expiresAt → index ∉ indexes →
        validateAttachmentChunk sha256Bytes index ciphertext cipherSHA256 upload.logicalSize =
          .ok () →
        ∃ s'', s'.storeAttachmentChunk sha256Bytes later uploadID authorCode index ciphertext
          cipherSHA256 = .ok (false, s'') := by
  intro s
  have ho : Orderly s := orderly_run hdisk
  obtain ⟨indexes, hresume, hsorted, hindexes⟩ :=
    resumeAttachmentUpload_spec sha256Bytes hload
  have hrows : ∀ r, r ∈ (s.removeChunks uploadID
      (s.damagedChunks sha256Bytes uploadID)).chunks.rows ↔ r ∈ s.chunks.rows ∧
        (r.uploadID = uploadID → r.chunkIndex ∈ indexes) := by
    intro r
    rw [mem_removeChunks, mem_damagedChunks]
    refine and_congr_right fun hr => ?_
    constructor
    · intro hintact hid
      refine (hindexes _).2 ⟨r, hr, hid, rfl, ?_⟩
      by_contra hmatch
      exact hintact ⟨hr, hid, by simpa using hmatch⟩
    · rintro hmem ⟨-, hid, hdamaged⟩
      obtain ⟨r', hr', hid', hindex, hmatch⟩ := (hindexes _).1 (hmem hid)
      have hsame : r' = r := by
        refine s.chunks.eq_of_clash hr' hr (Table.keyClash_of_eq _ ?_)
        simp only [ChunkRow.key, hid, hid', hindex]
      rw [hsame, hdamaged] at hmatch
      cases hmatch
  refine ⟨indexes, _, hresume, hsorted, fun i => ?_, hrows, ?_⟩
  · rw [hindexes]
    refine exists_congr fun r => and_congr_right fun _ => and_congr_right fun _ =>
      and_congr_right fun hindex => ?_
    rw [storedAttachmentChunkMatches_iff, hindex]
  · intro later index ciphertext cipherSHA256 hlater hnot hvalid
    have hload' : (s.removeChunks uploadID
        (s.damagedChunks sha256Bytes uploadID)).loadAttachmentUpload later uploadID authorCode =
          .ok upload := loadAttachmentUpload_later hload hlater
    refine (ho.removeChunks fun r hr => (mem_damagedChunks.1 hr).2.1).storeAttachmentChunk_new hload'
      hvalid fun r hr hid hindex => ?_
    exact hnot (hindex ▸ ((hrows r).1 hr).2 hid)

/-- The digests of one zero byte and of other texts. -/
def byteDigest (bytes : List UInt8) : String :=
  if bytes = [0] then "6e340b9cffb37a989ca544e6bb780a2c78901d3fb33738768511a30617afa01d"
  else "0a88111852095cae045340ea1f0b279944b2a756a213d9b50107d7489771e159"

/-- Two chunks are stored, and the file of the second one is overwritten. -/
def damagedUpload : List AttachmentCall :=
  [.initUpload 0 "a" "u" "lobby" "0000000001" 48129 false,
    .storeChunk 1 "u" "0000000001" 0 [0] (byteDigest [0]) false,
    .storeChunk 2 "u" "0000000001" 1 [0] (byteDigest [0]) false,
    .disk [⟨"u", 1, [7]⟩, ⟨"u", 0, [0]⟩] []]

theorem resume_exact_damaged :
    let s := run (AttachmentStore.apply byteDigest fun _ => "") empty damagedUpload
    ∃ indexes s', s.resumeAttachmentUpload byteDigest 3 "u" "0000000001" = .ok (indexes, s') ∧
      indexes.Pairwise (· < ·) ∧ 0 ∈ indexes ∧ 1 ∉ indexes ∧
      ∃ s'', s'.storeAttachmentChunk byteDigest 4 "u" "0000000001" 1 [0] (byteDigest [0]) =
        .ok (false, s'') := by
  intro s
  have hload : s.loadAttachmentUpload 3 "u" "0000000001" = .ok ⟨"u", "a", "lobby", "0000000001",
      48129, 48129, 48128, 86400000000000⟩ := by
    decide +kernel
  have hdisk : Along (AttachmentStore.apply byteDigest fun _ => "") onlyDamages empty
      damagedUpload := by
    refine ⟨trivial, trivial, trivial, ⟨?_, ?_⟩, trivial⟩
    · decide +kernel
    · decide +kernel
  obtain ⟨indexes, s', hresume, hsorted, hindexes, -, hstore⟩ :=
    resume_exact damagedUpload hdisk 3 "u" "0000000001" _ hload
  have hzero : readFile s.partialFiles "u" 0 = some [0] := by decide +kernel
  have hone : readFile s.partialFiles "u" 1 = some [7] := by decide +kernel
  have hrows : s.chunks.rows = [⟨"u", 0, 1, byteDigest [0]⟩, ⟨"u", 1, 1, byteDigest [0]⟩] := by
    decide +kernel
  have hnot : 1 ∉ indexes := by
    intro hmem
    obtain ⟨r, hr, -, hindex, bytes, hfile, -, hdigest⟩ := (hindexes 1).1 hmem
    obtain rfl := Option.some_injective _ (hone.symm.trans hfile)
    change r ∈ s.chunks.rows at hr
    rw [hrows] at hr
    rcases List.mem_cons.1 hr with rfl | hr
    · cases hindex
    · obtain rfl := List.mem_singleton.1 hr
      revert hdigest
      decide
  refine ⟨indexes, s', hresume, hsorted, (hindexes 0).2 ⟨⟨"u", 0, 1, byteDigest [0]⟩, ?_, rfl, rfl,
    [0], hzero, rfl, rfl⟩, hnot, ?_⟩
  · change _ ∈ s.chunks.rows
    rw [hrows]
    exact List.mem_cons_self
  · exact hstore 4 1 [0] (byteDigest [0]) (by decide) hnot (by decide +kernel)

end AttachmentStore

end LanChat
