import LanChat.Lib.Rfc3339
import LanChat.Store.AttachmentQuota

/-!
# Two readings of one expiry

`loadAttachmentUpload` parses the text of an expiry and compares instants, the query of
`CleanupExpiredAttachmentUploads` compares the text with that of the current time.

* `ReportsExpired`, `Usable`: what `loadAttachmentUpload` says of an upload;
* `Misread`: the pairs of an expiry and a current time on which the two differ;
* `expiry_agreement_iff`: a clean-up removes exactly the expired uploads when there is no such pair.
-/

namespace LanChat

open EventMachine Rfc3339

namespace AttachmentStore

variable {sha256Bytes : List UInt8 → String} {s s' : AttachmentStore}

/-! ### What a clean-up removes -/

theorem mem_foldl_removeUpload {u : UploadRow} (expired : List UploadRow) :
    u ∈ (expired.foldl removeUpload s).uploads.rows ↔
      u ∈ s.uploads.rows ∧ ∀ e ∈ expired, u.uploadID ≠ e.uploadID := by
  induction expired generalizing s with
  | nil => simp
  | cons e expired ih =>
    rw [List.foldl_cons, ih, List.forall_mem_cons, ← and_assoc]
    refine and_congr_left fun _ => ?_
    show u ∈ s.uploads.rows.filter _ ↔ _
    simp [List.mem_filter]

/-- The text of the expiry decides. -/
theorem mem_cleanup {rfc3339 : ℕ → String} {now : ℕ} {u : UploadRow} (hu : u ∈ s.uploads.rows) :
    u ∈ (s.cleanupExpiredAttachmentUploads rfc3339 now).uploads.rows ↔
      ¬ rfc3339 u.expiresAt ≤ rfc3339 now := by
  unfold cleanupExpiredAttachmentUploads
  rw [mem_foldl_removeUpload, and_iff_right hu]
  constructor
  · intro hkept hle
    exact hkept u (List.mem_filter.2 ⟨hu, decide_eq_true hle⟩) rfl
  · intro hnot e he hid
    obtain ⟨he, hle⟩ := List.mem_filter.1 he
    obtain rfl := s.uploads.eq_of_clash hu he (UploadRow.clash_of_uploadID hid)
    exact hnot (of_decide_eq_true hle)

/-! ### What a load reports -/

/-- The authors of the uploads are in their normal form. -/
def Authored (s : AttachmentStore) : Prop :=
  ∀ u ∈ s.uploads.rows, normalizeUserCode u.authorCode = .ok u.authorCode

theorem Authored.of_subset (hs : Authored s) (hle : ∀ u ∈ s'.uploads.rows, u ∈ s.uploads.rows) :
    Authored s' :=
  fun u hu => hs u (hle u hu)

theorem Authored.apply {rfc3339 : ℕ → String} (hs : Authored s) (call : AttachmentCall) :
    Authored (s.apply sha256Bytes rfc3339 call) := by
  cases call with
  | initUpload now attachmentID uploadID room authorCode logicalSize txFails =>
    dsimp only [AttachmentStore.apply]
    split
    · rename_i upload s₁ hinit
      split_ifs
      · exact hs
      · obtain ⟨author, hauthor, -, -, -, -, hup, -⟩ := initializeAttachment_spec hinit
        intro u hu
        rcases (Table.mem_insert? hup).1 hu with hu | rfl
        · exact hs u hu
        · exact normalizeUserCode_idem hauthor
    · exact hs
  | storeChunk now uploadID authorCode index ciphertext cipherSHA256 txFails =>
    dsimp only [AttachmentStore.apply]
    split
    · rename_i known s₁ hstore
      split_ifs
      · exact hs
      · obtain ⟨-, huploads, -⟩ := storeAttachmentChunk_frame hstore
        exact hs.of_subset fun u hu => huploads ▸ hu
    · exact hs
  | resume now uploadID authorCode deleted =>
    dsimp only [AttachmentStore.apply]
    split
    · rename_i hresume
      obtain ⟨-, huploads, -⟩ := resumeAttachmentUpload_frame hresume
      exact hs.of_subset fun u hu => huploads ▸ hu
    · exact hs.of_subset fun u hu => hu
    · exact hs
  | commit now committedAt uploadID authorCode renameFails txFails =>
    dsimp only [AttachmentStore.apply]
    split_ifs
    · exact hs
    · rcases commitAttachmentUpload_cases sha256Bytes s now committedAt txFails uploadID
        authorCode with he | ⟨upload, -, -, he | ⟨whole, he⟩⟩
      · rw [he]
        exact hs
      · rw [he]
        exact hs.of_subset fun u hu => hu
      · rw [he]
        exact hs.of_subset fun u hu => List.mem_of_mem_filter hu
  | cleanup now removed =>
    cases removed with
    | none => exact hs.of_subset fun u hu => ((mem_foldl_removeUpload _).1 hu).1
    | some n => exact hs.of_subset fun u hu => ((mem_foldl_removeUpload _).1 hu).1
  | disk partialFiles publishedFiles => exact hs.of_subset fun u hu => hu

theorem authored_run (sha256Bytes : List UInt8 → String) (rfc3339 : ℕ → String)
    (calls : List AttachmentCall) :
    Authored (run (AttachmentStore.apply sha256Bytes rfc3339) empty calls) := by
  have hempty : Authored empty := fun _ hu => absurd hu List.not_mem_nil
  exact run_invariant _ (fun s call (hs : Authored s) => hs.apply call) hempty calls

/-- What a load says of an upload whose author asks for it. -/
theorem Authored.load (hs : Authored s) {u : UploadRow} (hu : u ∈ s.uploads.rows) (now : ℕ) :
    s.loadAttachmentUpload now u.uploadID u.authorCode =
      if u.expiresAt ≤ now then .error .errAttachmentUploadExpired else .ok u := by
  have hlookup : s.uploads.lookup UploadRow.uploadID u.uploadID = some u :=
    Table.lookup_of_mem (fun _ _ => UploadRow.clash_of_uploadID) s.uploads hu
  unfold loadAttachmentUpload
  rw [hs u hu, hlookup]
  dsimp only
  rw [if_neg (not_not_intro rfl)]

/-- The upload is reported as expired.  `time.Parse` reads years of four digits only, and an expiry
that it does not read is reported in another way. -/
def ReportsExpired (s : AttachmentStore) (now : ℕ) (u : UploadRow) : Prop :=
  u.expiresAt < fourDigitYears ∧
    s.loadAttachmentUpload now u.uploadID u.authorCode = .error .errAttachmentUploadExpired

/-- The upload can be used. -/
def Usable (s : AttachmentStore) (now : ℕ) (u : UploadRow) : Prop :=
  u.expiresAt < fourDigitYears ∧ s.loadAttachmentUpload now u.uploadID u.authorCode = .ok u

theorem Authored.reportsExpired_iff (hs : Authored s) {u : UploadRow} (hu : u ∈ s.uploads.rows)
    (now : ℕ) : ReportsExpired s now u ↔ u.expiresAt < fourDigitYears ∧ u.expiresAt ≤ now := by
  unfold ReportsExpired
  rw [hs.load hu]
  refine and_congr_right fun _ => ?_
  split_ifs with hle
  · simp [hle]
  · simp [hle]

/-! ### The two readings -/

/-- The two readings differ: the fractions of two instants of one second, one of which is the
beginning of the other; after the year 9999, a text that is on the wrong side of the current one. -/
def Misread (expiresAt now : ℕ) : Prop :=
  if expiresAt < fourDigitYears then
    if now < fourDigitYears then expiresAt ≠ now ∧ Confused expiresAt now
    else rfc3339Nano now < rfc3339Nano expiresAt
  else rfc3339Nano expiresAt ≤ rfc3339Nano now

theorem reads_agree_iff (expiresAt now : ℕ) :
    (rfc3339Nano expiresAt ≤ rfc3339Nano now ↔ expiresAt < fourDigitYears ∧ expiresAt ≤ now) ↔
      ¬ Misread expiresAt now := by
  unfold Misread
  by_cases hexpiry : expiresAt < fourDigitYears
  · rw [if_pos hexpiry, and_iff_right hexpiry]
    by_cases hnow : now < fourDigitYears
    · rw [if_pos hnow, rfc3339Nano_le_iff hexpiry hnow]
      by_cases hconfused : Confused expiresAt now
      · rw [if_pos hconfused]
        simp only [hconfused, and_true, not_not]
        omega
      · rw [if_neg hconfused]
        simp [hconfused]
    · have hle : expiresAt ≤ now := by omega
      rw [if_neg hnow, not_lt]
      simp [hle]
  · rw [if_neg hexpiry]
    simp [hexpiry]

/-- A clean-up of any reachable store removes exactly the uploads that a load would report as
expired, and none that is still usable, when no expiry is misread. -/
theorem expiry_agreement_iff (sha256Bytes : List UInt8 → String) (calls : List AttachmentCall)
    (now : ℕ) :
    let s := run (AttachmentStore.apply sha256Bytes rfc3339Nano) empty calls
    let s' := s.cleanupExpiredAttachmentUploads rfc3339Nano now
    ((∀ u ∈ s.uploads.rows, u ∉ s'.uploads.rows ↔ ReportsExpired s now u) ∧
      ∀ u ∈ s.uploads.rows, Usable s now u → u ∈ s'.uploads.rows) ↔
        ∀ u ∈ s.uploads.rows, ¬ Misread u.expiresAt now := by
  intro s s'
  have hs : Authored s := authored_run sha256Bytes rfc3339Nano calls
  have hagree : ∀ u ∈ s.uploads.rows,
      (u ∉ s'.uploads.rows ↔ ReportsExpired s now u) ↔ ¬ Misread u.expiresAt now := by
    intro u hu
    rw [mem_cleanup hu, not_not, hs.reportsExpired_iff hu]
    exact reads_agree_iff u.expiresAt now
  constructor
  · rintro ⟨hremoved, -⟩ u hu
    exact (hagree u hu).1 (hremoved u hu)
  · intro hread
    have hremoved := fun u hu => (hagree u hu).2 (hread u hu)
    refine ⟨hremoved, fun u hu husable => ?_⟩
    by_contra hgone
    have hreported := ((hremoved u hu).1 hgone).2
    rw [husable.2] at hreported
    cases hreported

/-- Two uploads that expire in the first second of a day, the first one half a second later. -/
def halfSecondUploads : List AttachmentCall :=
  [.initUpload 63902736000500000000 "a" "u" "lobby" "0000000001" 1 false,
    .initUpload 63902736000000000000 "b" "v" "lobby" "0000000001" 1 false]

/-- At the full second the first upload is usable and goes away; half a second later the second one
has expired and stays. -/
theorem half_second_misread :
    let s := run (AttachmentStore.apply (fun _ => "") rfc3339Nano) empty halfSecondUploads
    let s₁ := s.cleanupExpiredAttachmentUploads rfc3339Nano 63902822400000000000
    let s₂ := s.cleanupExpiredAttachmentUploads rfc3339Nano 63902822400500000000
    (s.loadAttachmentUpload 63902822400000000000 "u" "0000000001").toOption.map
        UploadRow.uploadID = some "u" ∧
      "u" ∉ s₁.uploads.rows.map UploadRow.uploadID ∧
      s.loadAttachmentUpload 63902822400500000000 "v" "0000000001" =
        .error .errAttachmentUploadExpired ∧
      "v" ∈ s₂.uploads.rows.map UploadRow.uploadID := by
  decide +kernel

end AttachmentStore

end LanChat
