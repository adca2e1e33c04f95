/-!
# The bytes of a text

A text goes through a program of bytes as its UTF-8 encoding.  A byte below 128 stands for the
character with that number and for nothing else, so that a search for such a character may look at
the bytes.

* `bytes`: the encoding of a text;
* `byte`: the byte of a character below 128;
* `mem_bytes_iff`, `head_bytes_iff`: what a search for such a byte finds.
-/

namespace Utf8

/-- The UTF-8 encoding of a text. -/
def bytes (s : String) : List UInt8 := s.toUTF8.data.toList

/-- The byte of a character below 128. -/
def byte (c : Char) : UInt8 := UInt8.ofNat c.toNat

theorem bytes_eq (s : String) : bytes s = s.toList.flatMap String.utf8EncodeChar := by
  unfold bytes
  conv => lhs; rw [← String.ofList_toList (s := s)]
  rw [String.toUTF8_eq_toByteArray]
  exact List.toList_data_toByteArray

theorem bytes_inj {s t : String} : bytes s = bytes t ↔ s = t := by
  unfold bytes
  rw [String.toUTF8_eq_toByteArray, String.toUTF8_eq_toByteArray]
  constructor
  · intro h
    exact String.toByteArray_inj.1 (ByteArray.ext (Array.toList_inj.1 h))
  · rintro rfl
    rfl

theorem bytes_append (s t : String) : bytes (s ++ t) = bytes s ++ bytes t := by
  rw [bytes_eq, bytes_eq, bytes_eq, String.toList_append, List.flatMap_append]

theorem toNat_byte {c : Char} (hc : c.toNat < 128) : (byte c).toNat = c.toNat :=
  UInt8.toNat_ofNat_of_lt' (Nat.lt_trans hc (by decide))

theorem encode_of_lt {c : Char} (hc : c.toNat < 128) : String.utf8EncodeChar c = [byte c] :=
  if_pos (show c.val.toNat ≤ 0x7f from Nat.le_of_lt_succ hc)

/-- The bytes of another character are above. -/
theorem le_of_mem_encode {c : Char} (hc : 128 ≤ c.toNat) :
    ∀ b ∈ String.utf8EncodeChar c, 128 ≤ b.toNat := by
  have hhigh : ∀ n, 128 ≤ n → n < 256 → 128 ≤ (UInt8.ofNat n).toNat := by
    intro n hle hlt
    rw [UInt8.toNat_ofNat_of_lt' hlt]
    exact hle
  have hfollow : ∀ n, 128 ≤ (UInt8.ofNat (n % 64 + 128)).toNat :=
    fun n => hhigh _ (by omega) (by omega)
  unfold String.utf8EncodeChar
  dsimp only
  rw [if_neg (show ¬ c.val.toNat ≤ 0x7f from Nat.not_le.2 hc)]
  split
  · simp only [List.forall_mem_cons, List.not_mem_nil, false_implies, implies_true, and_true]
    exact ⟨hhigh _ (by omega) (by omega), hfollow _⟩
  split
  · simp only [List.forall_mem_cons, List.not_mem_nil, false_implies, implies_true, and_true]
    exact ⟨hhigh _ (by omega) (by omega), hfollow _, hfollow _⟩
  · simp only [List.forall_mem_cons, List.not_mem_nil, false_implies, implies_true, and_true]
    exact ⟨hhigh _ (by omega) (by omega), hfollow _, hfollow _, hfollow _⟩

/-- The encoding of a character has the byte of another one below 128 nowhere. -/
theorem mem_encode_iff {c d : Char} (hc : c.toNat < 128) :
    byte c ∈ String.utf8EncodeChar d ↔ c = d := by
  rcases Nat.lt_or_ge d.toNat 128 with hd | hd
  · rw [encode_of_lt hd, List.mem_singleton]
    constructor
    · intro hbyte
      have hnat := congrArg UInt8.toNat hbyte
      rw [toNat_byte hc, toNat_byte hd] at hnat
      exact Char.toNat_inj.1 hnat
    · rintro rfl
      rfl
  · constructor
    · intro hmem
      have hbyte := le_of_mem_encode hd _ hmem
      rw [toNat_byte hc] at hbyte
      omega
    · rintro rfl
      omega

theorem mem_bytes_iff {c : Char} (hc : c.toNat < 128) {s : String} :
    byte c ∈ bytes s ↔ c ∈ s.toList := by
  rw [bytes_eq, List.mem_flatMap]
  constructor
  · rintro ⟨d, hd, hmem⟩
    rwa [(mem_encode_iff hc).1 hmem]
  · intro hmem
    exact ⟨c, hmem, (mem_encode_iff hc).2 rfl⟩

theorem encode_ne_nil (c : Char) : String.utf8EncodeChar c ≠ [] := by
  unfold String.utf8EncodeChar
  dsimp only
  split
  · exact List.cons_ne_nil _ _
  split
  · exact List.cons_ne_nil _ _
  split <;> exact List.cons_ne_nil _ _

theorem head_bytes_iff {c : Char} (hc : c.toNat < 128) {s : String} :
    (bytes s).head? = some (byte c) ↔ s.toList.head? = some c := by
  rw [bytes_eq]
  cases s.toList with
  | nil =>
    rw [List.flatMap_nil]
    exact ⟨nofun, nofun⟩
  | cons d rest =>
    have hsome : (String.utf8EncodeChar d).head?.isSome = true :=
      List.isSome_head?.2 (encode_ne_nil d)
    rw [List.flatMap_cons, List.head?_append, Option.or_of_isSome hsome, List.head?_cons]
    constructor
    · intro hhead
      exact congrArg some ((mem_encode_iff hc).1 (List.mem_of_mem_head? hhead)).symm
    · intro hd
      obtain rfl := Option.some.inj hd
      rw [encode_of_lt hc]
      rfl

theorem bytes_eq_nil {s : String} : bytes s = [] ↔ s = "" := by
  rw [bytes_eq]
  constructor
  · intro hnil
    rw [List.flatMap_eq_nil_iff] at hnil
    rw [← String.toList_inj]
    refine List.eq_nil_iff_forall_not_mem.2 fun c hc => ?_
    exact encode_ne_nil c (hnil c hc)
  · rintro rfl
    rfl

end Utf8
