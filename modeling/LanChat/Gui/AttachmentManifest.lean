import Mathlib
import LanChat.Gui.AttachmentFile
import LanChat.Gui.LanDiscovery

/-!
# The manifest of an attachment (`attachments/attachment_manifest.cpp`)

What a sender tells the members of a group about a file, and what a receiver computes from it.
`QJsonDocument::fromJson` and the conversion of numbers that are no 64-bit integers are parameters.

* `encode`, `decode`: the manifest as a JSON object and back, `decode_encode`;
* `Fits`: the receiver's computations stay in 64 bits;
* `fits_iff`: when they do, for every manifest that is decoded.
-/

namespace LanChat.Gui.Attachments

open Discovery (stringOf intOf fromBase64)
open GoStrings (trimSpace base64Encode)

/-- `AttachmentManifest`. -/
structure AttachmentManifest where
  attachmentID : String
  fileName : String
  room : String
  groupID : String
  logicalSize : ℤ
  chunkSize : ℤ
  epoch : ℕ
  key : List UInt8
  deriving DecidableEq

/-- The numbers of a `qint64`. -/
def InInt64 (n : ℤ) : Prop := -9223372036854775808 ≤ n ∧ n ≤ 9223372036854775807

instance : DecidablePred InInt64 := fun n => by unfold InInt64; infer_instance

namespace AttachmentManifest

/-- `valid`. -/
def valid (manifest : AttachmentManifest) : Bool :=
  trimSpace manifest.attachmentID != "" && trimSpace manifest.fileName != "" &&
    trimSpace manifest.room != "" && trimSpace manifest.groupID != "" &&
      decide (0 < manifest.logicalSize) && decide (0 < manifest.chunkSize) &&
        decide (0 < manifest.epoch) && manifest.key.length == 32

/-- `static_cast<qint64>` of a `quint64`. -/
def asInt64 (n : ℕ) : ℤ := if n ≤ 9223372036854775807 then n else n - 18446744073709551616

/-- The members of the object that `encode` writes. -/
def members (manifest : AttachmentManifest) : List (String × Json) :=
  [("v", .int 1), ("attachment_id", .text manifest.attachmentID),
    ("file_name", .text manifest.fileName), ("room", .text manifest.room),
    ("group_id", .text manifest.groupID), ("logical_size", .int manifest.logicalSize),
    ("chunk_size", .int manifest.chunkSize), ("epoch", .int (asInt64 manifest.epoch)),
    ("key", .text (base64Encode manifest.key))]

/-- `encode`; a manifest that is not valid has no text. -/
def encode (manifest : AttachmentManifest) : ByteArray :=
  if manifest.valid then (Json.object manifest.members).render.toUTF8 else .empty

/-- `QJsonValue::isString`. -/
def isString : Option Json → Bool
  | some (.text _) => true
  | _ => false

/-- `QJsonValue::isDouble`. -/
def isDouble : Option Json → Bool
  | some (.int _) => true
  | some (.float _) => true
  | _ => false

section

variable (ofDouble : Json → ℤ) (fromJson : ByteArray → Option Json)

/-- `toVariant().toLongLong()`: an integer of 64 bits is itself. -/
def toLongLong : Option Json → ℤ
  | some (.int n) => if InInt64 n then n else ofDouble (.int n)
  | some (.float digits) => ofDouble (.float digits)
  | _ => 0

/-- `toVariant().toULongLong()`: the same bits without a sign. -/
def toULongLong (value : Option Json) : ℕ :=
  (toLongLong ofDouble value % 18446744073709551616).toNat

/-- The manifest of a JSON object. -/
def ofObject (object : Json) : Option AttachmentManifest :=
  if intOf (object.get? "v") ≠ 1 ∨ !isString (object.get? "attachment_id") ∨
      !isString (object.get? "file_name") ∨ !isString (object.get? "room") ∨
      !isString (object.get? "group_id") ∨ !isDouble (object.get? "logical_size") ∨
      !isDouble (object.get? "chunk_size") ∨ !isDouble (object.get? "epoch") ∨
      !isString (object.get? "key") then none
  else
    let candidate : AttachmentManifest := {
      attachmentID := stringOf (object.get? "attachment_id")
      fileName := stringOf (object.get? "file_name")
      room := stringOf (object.get? "room")
      groupID := stringOf (object.get? "group_id")
      logicalSize := toLongLong ofDouble (object.get? "logical_size")
      chunkSize := toLongLong ofDouble (object.get? "chunk_size")
      epoch := toULongLong ofDouble (object.get? "epoch")
      key := fromBase64 (stringOf (object.get? "key")) }
    if candidate.valid then some candidate else none

/-- `decode`. -/
def decode (encoded : ByteArray) : Option AttachmentManifest :=
  match fromJson encoded with
  | some (.object members) => ofObject ofDouble (.object members)
  | _ => none

end

/-! ### Reading a manifest back -/

variable {ofDouble : Json → ℤ} {fromJson : ByteArray → Option Json} {manifest : AttachmentManifest}
  {encoded : ByteArray}

theorem valid_of_decode (h : decode ofDouble fromJson encoded = some manifest) :
    manifest.valid = true := by
  unfold decode at h
  split at h
  · unfold ofObject at h
    dsimp only at h
    split_ifs at h with _ hvalid
    cases h
    exact hvalid
  · cases h

/-- The sizes of a manifest that is decoded are positive. -/
theorem pos_of_decode (h : decode ofDouble fromJson encoded = some manifest) :
    0 < manifest.logicalSize ∧ 0 < manifest.chunkSize := by
  have hvalid := valid_of_decode h
  unfold valid at hvalid
  simp only [Bool.and_eq_true, decide_eq_true_eq] at hvalid
  exact ⟨hvalid.1.1.1.2, hvalid.1.1.2⟩

/-- A valid manifest whose numbers are integers of 64 bits is read back from its text. -/
theorem decode_encode (hvalid : manifest.valid = true) (hlogical : InInt64 manifest.logicalSize)
    (hchunk : InInt64 manifest.chunkSize) (hepoch : manifest.epoch < 18446744073709551616)
    (hread : Discovery.ReadsBack fromJson manifest.members) :
    decode ofDouble fromJson manifest.encode = some manifest := by
  obtain ⟨members', hparse, hget⟩ := hread
  unfold decode encode
  rw [if_pos hvalid, hparse]
  dsimp only
  have hget' : ∀ name value, (Json.object manifest.members).get? name = some value →
      (Json.object members').get? name = some value := fun name value h => (hget name).trans h
  have hv := hget' "v" (.int 1) rfl
  have hid := hget' "attachment_id" (.text manifest.attachmentID) rfl
  have hname := hget' "file_name" (.text manifest.fileName) rfl
  have hroom := hget' "room" (.text manifest.room) rfl
  have hgroup := hget' "group_id" (.text manifest.groupID) rfl
  have hsize := hget' "logical_size" (.int manifest.logicalSize) rfl
  have hchunks := hget' "chunk_size" (.int manifest.chunkSize) rfl
  have hnumber := hget' "epoch" (.int (asInt64 manifest.epoch)) rfl
  have hkey := hget' "key" (.text (base64Encode manifest.key)) rfl
  have hread : toULongLong ofDouble (some (.int (asInt64 manifest.epoch))) = manifest.epoch := by
    unfold toULongLong toLongLong asInt64
    dsimp only
    rw [if_pos (by unfold InInt64; split_ifs <;> omega)]
    split_ifs <;> omega
  unfold ofObject
  simp only [hv, hid, hname, hroom, hgroup, hsize, hchunks, hnumber, hkey, hread, stringOf, isString,
    isDouble, toLongLong, if_pos hlogical, if_pos hchunk, Discovery.fromBase64_base64Encode]
  rw [if_neg (by decide), if_pos hvalid]

/-! ### What a receiver computes -/

/-- `totalChunks`, and the `chunkCount` of the assembler. -/
def totalChunks (manifest : AttachmentManifest) : ℤ :=
  (manifest.logicalSize + manifest.chunkSize - 1) / manifest.chunkSize

/-- Every value that is computed from a manifest, on the way to the number of chunks and for each
chunk, is a `qint64`. -/
def Fits (manifest : AttachmentManifest) : Prop :=
  InInt64 (manifest.logicalSize + manifest.chunkSize) ∧
    InInt64 (manifest.logicalSize + manifest.chunkSize - 1) ∧ InInt64 manifest.totalChunks ∧
    ∀ index, 0 ≤ index → index < manifest.totalChunks →
      InInt64 (index * manifest.chunkSize) ∧
        InInt64 (manifest.logicalSize - index * manifest.chunkSize)

/-- A manifest that is decoded is computed with in 64 bits exactly when its two sizes add up in 64
bits. -/
theorem fits_iff (h : decode ofDouble fromJson encoded = some manifest) :
    manifest.Fits ↔ manifest.logicalSize + manifest.chunkSize ≤ 9223372036854775807 := by
  obtain ⟨hlogical, hchunk⟩ := pos_of_decode h
  refine ⟨fun hfits => hfits.1.2, fun hsum => ?_⟩
  have hcount : manifest.totalChunks * manifest.chunkSize ≤
      manifest.logicalSize + manifest.chunkSize - 1 :=
    Int.ediv_mul_le _ hchunk.ne'
  have hnonneg : 0 ≤ manifest.totalChunks := Int.ediv_nonneg (by omega) hchunk.le
  have hle : manifest.totalChunks * 1 ≤ manifest.totalChunks * manifest.chunkSize :=
    Int.mul_le_mul_of_nonneg_left hchunk hnonneg
  refine ⟨⟨by omega, hsum⟩, ⟨by omega, by omega⟩, ⟨by omega, by omega⟩, fun index h0 hlt => ?_⟩
  have hlow : 0 ≤ index * manifest.chunkSize := Int.mul_nonneg h0 hchunk.le
  have hhigh : (index + 1) * manifest.chunkSize ≤ manifest.totalChunks * manifest.chunkSize :=
    Int.mul_le_mul_of_nonneg_right hlt hchunk.le
  rw [Int.add_mul, Int.one_mul] at hhigh
  exact ⟨⟨by omega, by omega⟩, ⟨by omega, by omega⟩⟩

/-- A manifest of the largest size, with chunks of one byte. -/
def largest : AttachmentManifest where
  attachmentID := "a"
  fileName := "f"
  room := "r"
  groupID := "g"
  logicalSize := 9223372036854775807
  chunkSize := 1
  epoch := 1
  key := List.replicate 32 0

/-- A parser that knows the text of one manifest. -/
def parserOf (manifest : AttachmentManifest) (encoded : ByteArray) : Option Json :=
  if encoded = manifest.encode then some (.object manifest.members) else none

theorem readsBack_parserOf (hvalid : manifest.valid = true) :
    Discovery.ReadsBack (parserOf manifest) manifest.members := by
  refine ⟨manifest.members, ?_, fun _ => rfl⟩
  unfold parserOf encode
  rw [if_pos hvalid, if_pos rfl]

theorem decode_largest :
    decode (fun _ => 0) (parserOf largest) largest.encode = some largest :=
  decode_encode (by decide) (by decide) (by decide) (by decide) (readsBack_parserOf (by decide))

/-- The sum of the two sizes of the largest manifest leaves the 64 bits. -/
theorem decoded_manifest_overflows :
    ¬ ∀ (ofDouble : Json → ℤ) (fromJson : ByteArray → Option Json) (encoded : ByteArray)
      (manifest : AttachmentManifest), decode ofDouble fromJson encoded = some manifest →
        manifest.Fits := by
  intro h
  have hfits := h _ _ _ _ decode_largest
  exact absurd hfits.1 (by decide)

/-- The manifest of a small file is computed with in 64 bits. -/
theorem fits_iff_small :
    ({ largest with logicalSize := 123456, chunkSize := 48128 } : AttachmentManifest).Fits :=
  (@fits_iff (fun _ => 0) _ _ _ (decode_encode (by decide) (by decide) (by decide) (by decide)
    (readsBack_parserOf (by decide)))).2 (by decide)

end AttachmentManifest

end LanChat.Gui.Attachments
