import LanChat.Gui.AttachmentFile
import LanChat.Lib.Utf8

/-!
# Contexts of chunks (`gui/src/attachments/attachment_crypto.cpp`)

The associated data of a chunk and the text that its nonce is derived from are one concatenation of
labelled fields, and the id of the group may hold anything, line breaks and labels included.

* `RawContext`: a context with the bytes of its three texts, which need not be UTF-8;
* `rawAadFor`: `aad_for` on bytes, of which `aadFor` is a case by `bytes_aadFor`;
* `first_field`, `last_field`: a field without the separator can be told from either end;
* `rawAadFor_injective`: the texts are read from the front and the numbers from the back.
-/

namespace LanChat.Gui.Attachments

open Utf8

/-! ### Fields and separators -/

section

variable {α : Type*} {a a' x x' : List α} {c : α}

/-- A field without the separator ends at the first separator. -/
theorem first_field (ha : c ∉ a) (ha' : c ∉ a') (h : a ++ c :: x = a' ++ c :: x') :
    a = a' ∧ x = x' := by
  induction a generalizing a' with
  | nil =>
    cases a' with
    | nil => exact ⟨rfl, (List.cons.inj h).2⟩
    | cons d rest =>
      obtain ⟨rfl, -⟩ := List.cons.inj h
      exact absurd List.mem_cons_self ha'
  | cons b rest ih =>
    cases a' with
    | nil =>
      obtain ⟨rfl, -⟩ := List.cons.inj h
      exact absurd List.mem_cons_self ha
    | cons d rest' =>
      obtain ⟨rfl, htail⟩ := List.cons.inj h
      obtain ⟨rfl, hx⟩ :=
        ih (fun hc => ha (List.mem_cons_of_mem _ hc)) (fun hc => ha' (List.mem_cons_of_mem _ hc))
          htail
      exact ⟨rfl, hx⟩

/-- A field without the separator starts at the last separator. -/
theorem last_field (ha : c ∉ a) (ha' : c ∉ a') (h : x ++ c :: a = x' ++ c :: a') :
    x = x' ∧ a = a' := by
  have hreverse := congrArg List.reverse h
  simp only [List.reverse_append, List.reverse_cons, List.append_assoc,
    List.singleton_append] at hreverse
  obtain ⟨hfield, hrest⟩ := first_field (fun hc => ha (List.mem_reverse.1 hc))
    (fun hc => ha' (List.mem_reverse.1 hc)) hreverse
  exact ⟨List.reverse_inj.1 hrest, List.reverse_inj.1 hfield⟩

end

/-! ### `aad_for` on bytes -/

/-- `ChunkContext`, with the bytes of its texts. -/
structure RawContext where
  attachmentID : List UInt8
  room : List UInt8
  groupID : List UInt8
  logicalSize : ℤ
  chunkSize : ℤ
  chunkIndex : ℤ
  deriving DecidableEq, Repr

/-- The bytes of a context. -/
def ChunkContext.raw (context : ChunkContext) : RawContext where
  attachmentID := bytes context.attachmentID
  room := bytes context.room
  groupID := bytes context.groupID
  logicalSize := context.logicalSize
  chunkSize := context.chunkSize
  chunkIndex := context.chunkIndex

/-- `std::to_string`. -/
def decimal (n : ℤ) : List UInt8 := bytes (toString n)

/-- `aad_for`. -/
def rawAadFor (context : RawContext) : List UInt8 :=
  bytes "lan-chat/attachment-aead/v1\nattachment_id=" ++ context.attachmentID ++
    bytes "\nroom=" ++ context.room ++ bytes "\ngroup_id=" ++ context.groupID ++
    bytes "\nlogical_size=" ++ decimal context.logicalSize ++
    bytes "\nchunk_size=" ++ decimal context.chunkSize ++
    bytes "\nchunk_index=" ++ decimal context.chunkIndex ++ bytes "\n"

/-- What `derive_nonce` takes the digest of. -/
def nonceInput (context : RawContext) : List UInt8 :=
  bytes "lan-chat/attachment-nonce/v1\n" ++ rawAadFor context

theorem bytes_aadFor (context : ChunkContext) : bytes (aadFor context) = rawAadFor context.raw := by
  unfold aadFor rawAadFor decimal
  simp only [bytes_append]
  rfl

/-! ### Numbers -/

theorem toList_toString (n : ℤ) :
    (toString n).toList = if n < 0 then '-' :: (toString n.natAbs).toList
      else (toString n.natAbs).toList := by
  cases n with
  | ofNat m =>
    have hnonneg : ¬ Int.ofNat m < 0 := Int.not_lt.2 (Int.natCast_nonneg m)
    rw [if_neg hnonneg]
    rfl
  | negSucc m =>
    rw [if_pos (Int.negSucc_lt_zero m)]
    exact String.toList_append

theorem newline_notMem_decimal (n : ℤ) : byte '\n' ∉ decimal n := by
  unfold decimal
  rw [mem_bytes_iff (by decide), toList_toString]
  have hdigits : '\n' ∉ (toString n.natAbs).toList := by
    intro hmem
    exact absurd (GoStrings.isDigit_of_mem_toString _ _ hmem) (by decide)
  split_ifs
  · rw [List.mem_cons]
    exact not_or.2 ⟨by decide, hdigits⟩
  · exact hdigits

theorem decimal_inj {m n : ℤ} (h : decimal m = decimal n) : m = n := by
  have hsign : ∀ k : ℕ, ∀ rest, (toString k).toList ≠ '-' :: rest := by
    intro k rest heq
    have hdigit := GoStrings.isDigit_of_mem_toString k '-' (heq ▸ List.mem_cons_self)
    exact absurd hdigit (by decide)
  have hlist := congrArg String.toList (bytes_inj.1 h)
  rw [toList_toString, toList_toString] at hlist
  split_ifs at hlist with hm hn hn
  · have habs := GoStrings.toString_inj (List.cons.inj hlist).2
    omega
  · exact absurd hlist.symm (hsign _ _)
  · exact absurd hlist (hsign _ _)
  · have habs := GoStrings.toString_inj hlist
    omega

/-! ### From both ends -/

/-- The two texts that are read from the front have no line break. -/
def RawContext.SingleLine (context : RawContext) : Prop :=
  byte '\n' ∉ context.attachmentID ∧ byte '\n' ∉ context.room

/-- The fields of the associated data with their separators: the first two from the front, the last
three from the back, and the id of the group between them. -/
theorem rawAadFor_eq (context : RawContext) :
    rawAadFor context = bytes "lan-chat/attachment-aead/v1\nattachment_id=" ++
      (context.attachmentID ++ byte '\n' :: (bytes "room=" ++
        (context.room ++ byte '\n' :: (bytes "group_id=" ++
          ((((context.groupID ++
            byte '\n' :: (bytes "logical_size=" ++ decimal context.logicalSize)) ++
              byte '\n' :: (bytes "chunk_size=" ++ decimal context.chunkSize)) ++
                byte '\n' :: (bytes "chunk_index=" ++ decimal context.chunkIndex)) ++
                  [byte '\n']))))) := by
  have hroom : bytes "\nroom=" = byte '\n' :: bytes "room=" := by decide +kernel
  have hgroup : bytes "\ngroup_id=" = byte '\n' :: bytes "group_id=" := by decide +kernel
  have hlogical : bytes "\nlogical_size=" = byte '\n' :: bytes "logical_size=" := by
    decide +kernel
  have hchunk : bytes "\nchunk_size=" = byte '\n' :: bytes "chunk_size=" := by decide +kernel
  have hindex : bytes "\nchunk_index=" = byte '\n' :: bytes "chunk_index=" := by decide +kernel
  have hend : bytes "\n" = [byte '\n'] := by decide +kernel
  unfold rawAadFor
  rw [hroom, hgroup, hlogical, hchunk, hindex, hend]
  simp only [List.append_assoc, List.cons_append]

/-- The line of a number. -/
theorem newline_notMem_line (label : String) (hlabel : byte '\n' ∉ bytes label) (n : ℤ) :
    byte '\n' ∉ bytes label ++ decimal n := by
  rw [List.mem_append]
  exact not_or.2 ⟨hlabel, newline_notMem_decimal n⟩

variable {c c' : RawContext}

/-- Contexts with the same associated data are the same. -/
theorem eq_of_rawAadFor_eq (hc : c.SingleLine) (hc' : c'.SingleLine)
    (h : rawAadFor c = rawAadFor c') : c = c' := by
  rw [rawAadFor_eq, rawAadFor_eq] at h
  obtain ⟨hid, hrest⟩ := first_field hc.1 hc'.1 (List.append_cancel_left h)
  obtain ⟨hroom, hrest⟩ := first_field hc.2 hc'.2 (List.append_cancel_left hrest)
  have hback := List.append_cancel_right (List.append_cancel_left hrest)
  have hindexLine := newline_notMem_line "chunk_index=" (by decide +kernel)
  have hchunkLine := newline_notMem_line "chunk_size=" (by decide +kernel)
  have hlogicalLine := newline_notMem_line "logical_size=" (by decide +kernel)
  obtain ⟨hback, hindex⟩ := last_field (hindexLine _) (hindexLine _) hback
  obtain ⟨hback, hchunk⟩ := last_field (hchunkLine _) (hchunkLine _) hback
  obtain ⟨hgroup, hlogical⟩ := last_field (hlogicalLine _) (hlogicalLine _) hback
  cases c
  cases c'
  rw [RawContext.mk.injEq]
  exact ⟨hid, hroom, hgroup, decimal_inj (List.append_cancel_left hlogical),
    decimal_inj (List.append_cancel_left hchunk), decimal_inj (List.append_cancel_left hindex)⟩

/-- Contexts with the same associated data are the same, and so are contexts whose nonces are
derived from the same text. -/
theorem rawAadFor_injective (hc : c.SingleLine) (hc' : c'.SingleLine) :
    (rawAadFor c = rawAadFor c' → c = c') ∧ (nonceInput c = nonceInput c' → c = c') :=
  ⟨eq_of_rawAadFor_eq hc hc', fun h => eq_of_rawAadFor_eq hc hc' (List.append_cancel_left h)⟩

/-- A chunk in the lobby, for a group whose id looks like the rest of a context. -/
def lobbyContext (chunkIndex : ℤ) : RawContext :=
  ChunkContext.raw ⟨"a", "lobby", "g\nchunk_index=1", 70000, 48128, chunkIndex⟩

/-- Two chunks of one attachment. -/
theorem rawAadFor_injective_lobby :
    rawAadFor (lobbyContext 0) ≠ rawAadFor (lobbyContext 1) ∧
      nonceInput (lobbyContext 0) ≠ nonceInput (lobbyContext 1) := by
  have hid : byte '\n' ∉ bytes "a" := by decide +kernel
  have hroom : byte '\n' ∉ bytes "lobby" := by decide +kernel
  have hline : ∀ i, (lobbyContext i).SingleLine := fun _ => ⟨hid, hroom⟩
  have hne : lobbyContext 0 ≠ lobbyContext 1 := by decide +kernel
  have hboth := rawAadFor_injective (hline 0) (hline 1)
  exact ⟨mt hboth.1 hne, mt hboth.2 hne⟩

/-- With a line break in its id a context is taken for another one. -/
example : rawAadFor (ChunkContext.raw ⟨"a\nroom=b", "c", "", 1, 1, 0⟩) =
    rawAadFor (ChunkContext.raw ⟨"a", "b\nroom=c", "", 1, 1, 0⟩) := by
  decide +kernel

end LanChat.Gui.Attachments
