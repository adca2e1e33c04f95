import LanChat.Client.ReceiveMessage
import LanChat.Hub.Attachments
import LanChat.Wire
import Mathlib.Data.List.Sort
import Mathlib.Data.Nat.Bitwise

/-!
# The resumption of an upload, from the server to the client

The server names the chunks that it has either one by one or, when they are many, in a bitmap of
hexadecimal bytes, least significant bit first; the client reads both forms back.

* `Message.json` is the value whose text `json.Marshal` writes (`marshal_eq_render`);
* `readBytes_bitmap`: the client's loops recover the indexes from the server's bitmap;
* `resume_round_trip`: whichever form was chosen, the client ends up with the server's list.
-/

namespace LanChat

/-! ### The value that the server writes -/

/-- An entry of `user_details`. -/
def OnlineUser.json (u : OnlineUser) : Json :=
  .object [("username", .text u.username), ("user_code", .text u.userCode),
    ("room", .text u.room), ("is_admin", .bool u.isAdmin)]

/-- An entry of `room_details`. -/
def RoomInfo.json (r : RoomInfo) : Json :=
  .object ([("name", .text r.name)] ++ Json.optText "owner_code" r.ownerCode ++
    [("private", .bool r.isPrivate), ("can_manage", .bool r.canManage)])

/-- A message without a `crypto` object and without a page of history. -/
def Message.json (m : Message) : Json :=
  .object (("type", .text m.type.name) :: (Json.optText "message_id" m.messageID ++
  Json.optText "command_id" m.commandID ++ Json.optText "username" m.username ++
  Json.optText "user_code" m.userCode ++ Json.optText "target_user_code" m.targetUserCode ++
  Json.optText "room" m.room ++ Json.optBool "private" m.isPrivate ++
  Json.optArray "users" (m.users.map .text) ++ Json.optArray "rooms" (m.rooms.map .text) ++
  Json.optArray "user_details" (m.userDetails.map OnlineUser.json) ++
  Json.optArray "room_details" (m.roomDetails.map RoomInfo.json) ++
  Json.optText "content" m.content ++
  Json.optText "delivery_state" m.deliveryState ++ Json.optText "created_at" m.createdAt ++
  Json.optText "before_message_id" m.beforeMessageID ++
  Json.optText "search_query" m.searchQuery ++
  Json.optInt "limit" m.limit ++ Json.optBool "has_more" m.hasMore ++
  Json.optBool "recalled" m.recalled ++
  Json.optText "protocol_version" m.protocolVersion ++
  Json.optArray "capabilities" (m.capabilities.map .text) ++
  Json.optText "group_id" m.groupID ++ Json.optInt "epoch" m.epoch.toNat ++
  Json.optText "proposal_id" m.proposalID ++ Json.optText "action" m.action ++
  Json.optText "key_package" m.keyPackage ++ Json.optText "proposal" m.proposal ++
  Json.optText "commit" m.commit ++ Json.optText "welcome" m.welcome ++
  Json.optText "welcome_digest" m.welcomeDigest ++ Json.optText "attachment_id" m.attachmentID ++
  Json.optText "upload_id" m.uploadID ++ Json.optInt "logical_size" m.logicalSize ++
  Json.optInt "chunk_size" m.chunkSize ++ Json.optText "expires_at" m.expiresAt ++
  Json.optInt "chunk_index" m.chunkIndex ++ Json.optText "ciphertext" m.ciphertext ++
  Json.optText "cipher_sha256" m.cipherSHA256 ++ Json.optText "whole_sha256" m.wholeSha256 ++
  Json.optArray "received_indexes" (m.receivedIndexes.map .int) ++
  Json.optText "received_bitmap" m.receivedBitmap ++ Json.optBool "is_admin" m.isAdmin))

theorem OnlineUser.render_json (u : OnlineUser) :
    u.json.render = u.marshalWith GoJson.quote := by
  simp [OnlineUser.json, OnlineUser.marshalWith, Json.render, Json.renderMembers,
    Json.renderMember, boolText]

theorem RoomInfo.render_json (r : RoomInfo) :
    r.json.render = r.marshalWith GoJson.quote := by
  simp [RoomInfo.json, RoomInfo.marshalWith, Json.render, Json.renderMembers, Json.renderMember,
    Json.renderMembers_append, Json.renderMembers_optText, boolText]

/-- `json.Marshal` writes the text of `json`. -/
theorem Message.marshal_eq_render {m : Message} (hcrypto : m.crypto = "")
    (hmessages : m.messages = []) : m.marshal = m.json.render := by
  unfold Message.marshal Message.members Message.membersWith Message.optionalMembers Message.json
  simp only [Json.render, Json.renderMembers, Json.renderMember, Json.renderMembers_append,
    Json.renderMembers_optText, Json.renderMembers_optBool, Json.renderMembers_optInt,
    Json.renderMembers_optArray, OnlineUser.render_json, RoomInfo.render_json, hcrypto, hmessages,
    List.map_nil, GoJson.optArray_nil, GoJson.optText_empty, List.append_nil]

namespace Client

open Hub

/-! ### The bitmap -/

/-- A number put together from bits, lowest first, as the server fills a byte. -/
theorem fold_bits (p : ℕ → Prop) [DecidablePred p] (n : ℕ) :
    ((List.range n).foldl (fun x bit => if p bit then x + 2 ^ bit else x) 0) < 2 ^ n ∧
      ∀ b < n, ((List.range n).foldl (fun x bit => if p bit then x + 2 ^ bit else x) 0).testBit b =
        decide (p b) := by
  induction n with
  | zero => exact ⟨Nat.one_pos, fun b hb => absurd hb (Nat.not_lt_zero b)⟩
  | succ n ih =>
    obtain ⟨hlt, hbits⟩ := ih
    rw [List.range_succ, List.foldl_append, List.foldl_cons, List.foldl_nil]
    generalize ((List.range n).foldl (fun x bit => if p bit then x + 2 ^ bit else x) 0) = x at *
    have hpow : 2 ^ (n + 1) = 2 ^ n + 2 ^ n := by rw [Nat.pow_succ, Nat.mul_two]
    by_cases hp : p n
    · rw [if_pos hp]
      refine ⟨by omega, ?_⟩
      intro b hb
      rw [Nat.add_comm x]
      rcases Nat.lt_succ_iff_lt_or_eq.1 hb with hb | rfl
      · rw [Nat.testBit_two_pow_add_gt hb, hbits b hb]
      · rw [Nat.testBit_two_pow_add_eq, Nat.testBit_lt_two_pow hlt]
        simp [hp]
    · rw [if_neg hp]
      refine ⟨by omega, ?_⟩
      intro b hb
      rcases Nat.lt_succ_iff_lt_or_eq.1 hb with hb | rfl
      · exact hbits b hb
      · rw [Nat.testBit_lt_two_pow hlt]
        simp [hp]

/-- The bits that the loop over a byte keeps. -/
theorem readBits_spec (byte bits : ℕ) : ∀ count ≤ 8,
    (∀ b < 8, bits.testBit b = true → ((byte * 8 + b : ℕ) : ℤ) < maxChunkCount) →
    readBits byte bits count = .ok (((List.range' (8 - count) count).filter fun b =>
      bits.testBit b).map fun b => ((byte * 8 + b : ℕ) : ℤ)) := by
  intro count
  induction count with
  | zero =>
    intro _ _
    rfl
  | succ count ih =>
    intro hcount hrange
    have hrest := ih (by omega) hrange
    have hnext : 8 - (count + 1) + 1 = 8 - count := by omega
    rw [List.range'_succ, hnext, readBits]
    dsimp only
    rw [Nat.one_shiftLeft, Nat.and_two_pow]
    cases hbit : bits.testBit (8 - (count + 1)) with
    | false =>
      rw [if_pos (by simp), hrest, List.filter_cons_of_neg (by rw [hbit]; decide)]
    | true =>
      have hlt := hrange (8 - (count + 1)) (by omega) hbit
      rw [if_neg (by simp), if_neg (by omega), hrest, List.filter_cons_of_pos hbit]
      rfl

/-- The two digits of a byte. -/
def byteDigits (n : ℕ) : List Char :=
  ["0123456789abcdef".toList.getD (n / 16) '0', "0123456789abcdef".toList.getD (n % 16) '0']

theorem hexDigit_digit {n : ℕ} (hn : n < 16) :
    hexDigit ("0123456789abcdef".toList.getD n '0') = some n := by
  have hall : ∀ k : Fin 16, hexDigit ("0123456789abcdef".toList.getD k '0') = some k.val := by
    decide
  exact hall ⟨n, hn⟩

/-- The client reads every byte as the server has written it. -/
theorem readBytes_spec (f : ℕ → ℕ) (hf : ∀ i, f i < 256) : ∀ k byte,
    (∀ i, byte ≤ i → i < byte + k → ∀ b < 8, (f i).testBit b = true →
      ((i * 8 + b : ℕ) : ℤ) < maxChunkCount) →
    readBytes byte ((List.range' byte k).flatMap fun i => byteDigits (f i)) =
      .ok ((List.range' byte k).flatMap fun i =>
        ((List.range' 0 8).filter fun b => (f i).testBit b).map fun b =>
          ((i * 8 + b : ℕ) : ℤ)) := by
  intro k
  induction k with
  | zero =>
    intro byte _
    rfl
  | succ k ih =>
    intro byte hrange
    have hrest := ih (byte + 1) fun i h1 h2 => hrange i (by omega) (by omega)
    have hbits := readBits_spec byte (f byte) 8 le_rfl (hrange byte le_rfl (by omega))
    have hlt := hf byte
    have hsplit : f byte / 16 * 16 + f byte % 16 = f byte := Nat.div_add_mod' _ _
    rw [List.range'_succ, List.flatMap_cons, List.flatMap_cons]
    rw [byteDigits, List.cons_append, List.cons_append, List.nil_append]
    rw [readBytes, hexDigit_digit (by omega), hexDigit_digit (by omega)]
    dsimp only
    rw [hsplit, hbits, hrest]
    rfl

/-- Strictly increasing indexes are found again among the bits that stand for them. -/
theorem indexes_of_bits {indexes : List ℤ} (hsorted : indexes.Pairwise (· < ·)) {k : ℕ}
    (hrange : ∀ i ∈ indexes, 0 ≤ i ∧ i < 8 * k) :
    ((List.range' 0 k).flatMap fun i =>
      ((List.range' 0 8).filter fun b => decide (((8 * i + b : ℕ) : ℤ) ∈ indexes)).map fun b =>
        ((i * 8 + b : ℕ) : ℤ)) = indexes := by
  refine List.Pairwise.eq_of_mem_iff ?_ hsorted ?_
  · rw [List.pairwise_flatMap]
    constructor
    · intro i _
      rw [List.pairwise_map]
      refine ((List.pairwise_lt_range' 1).filter _).imp ?_
      intro a b hab
      omega
    · refine (List.pairwise_lt_range' 1).imp ?_
      intro i j hij x hx y hy
      obtain ⟨b, hb, rfl⟩ := List.mem_map.1 hx
      obtain ⟨c, hc, rfl⟩ := List.mem_map.1 hy
      have hb8 := List.mem_range'_1.1 (List.mem_of_mem_filter hb)
      omega
  · intro x
    rw [List.mem_flatMap]
    constructor
    · rintro ⟨i, _, hx⟩
      obtain ⟨b, hb, rfl⟩ := List.mem_map.1 hx
      have hmem := List.of_mem_filter hb
      rw [Nat.mul_comm i 8]
      simpa using hmem
    · intro hx
      obtain ⟨h0, hk⟩ := hrange x hx
      obtain ⟨n, rfl⟩ := Int.eq_ofNat_of_zero_le h0
      have hn : 8 * (n / 8) + n % 8 = n := Nat.div_add_mod n 8
      refine ⟨n / 8, List.mem_range'_1.2 (by omega), List.mem_map.2 ⟨n % 8, ?_, ?_⟩⟩
      · refine List.mem_filter.2 ⟨List.mem_range'_1.2 (by omega), ?_⟩
        rw [hn]
        exact decide_eq_true hx
      · rw [Nat.mul_comm, hn]

/-- The digits of the server's bitmap, byte by byte. -/
theorem toList_bitmapHex (indexes : List ℤ) :
    (bitmapHex indexes).toList =
      (List.range' 0 ((indexes.foldl max 0).toNat / 8 + 1)).flatMap fun i =>
        byteDigits ((List.range 8).foldl (fun n bit =>
          if indexes.contains ((8 * i + bit : ℕ) : ℤ) then n + 2 ^ bit else n) 0) := by
  unfold bitmapHex
  rw [← List.range_eq_range', String.toList_ofList]
  rfl

/-- The highest index. -/
theorem le_foldl_max (l : List ℤ) (a : ℤ) : a ≤ l.foldl max a ∧ ∀ x ∈ l, x ≤ l.foldl max a := by
  induction l generalizing a with
  | nil => exact ⟨le_rfl, fun x hx => by cases hx⟩
  | cons y l ih =>
    obtain ⟨h1, h2⟩ := ih (max a y)
    rw [List.foldl_cons]
    refine ⟨(le_max_left a y).trans h1, ?_⟩
    intro x hx
    rcases List.mem_cons.1 hx with rfl | hx
    · exact (le_max_right a x).trans h1
    · exact h2 x hx

theorem foldl_max_lt {l : List ℤ} {a b : ℤ} (ha : a < b) (hl : ∀ x ∈ l, x < b) :
    l.foldl max a < b := by
  induction l generalizing a with
  | nil => exact ha
  | cons y l ih =>
    exact ih (max_lt ha (hl y List.mem_cons_self)) fun x hx => hl x (List.mem_cons_of_mem _ hx)

section Indexes

variable {indexes : List ℤ} (hsorted : indexes.Pairwise (· < ·))
  (hrange : ∀ i ∈ indexes, 0 ≤ i ∧ i < maxChunkCount)
include hrange

/-- The client's limit on the bitmap holds for every list of chunk indexes. -/
theorem size_bitmapHex : (bitmapHex indexes).utf8ByteSize % 2 = 0 ∧
    (bitmapHex indexes).utf8ByteSize ≤ ((maxChunkCount + 7) / 8 * 2).toNat := by
  have hdigits : ∀ k byte (f : ℕ → ℕ), (∀ i, f i < 256) →
      (String.ofList ((List.range' byte k).flatMap fun i => byteDigits (f i))).utf8ByteSize =
        2 * k := by
    intro k
    induction k with
    | zero =>
      intro byte f _
      rfl
    | succ k ih =>
      intro byte f hf
      have hchar : ∀ n < 16, ("0123456789abcdef".toList.getD n '0').utf8Size = 1 := by decide
      have hlt := hf byte
      have h1 := hchar (f byte / 16) (by omega)
      have h2 := hchar (f byte % 16) (by omega)
      rw [List.range'_succ, List.flatMap_cons, String.ofList_append, String.utf8ByteSize_append,
        ih _ f hf]
      have hpair : (String.ofList (byteDigits (f byte))).utf8ByteSize = 2 := by
        unfold byteDigits
        simp only [String.ofList_cons, String.ofList_nil, String.utf8ByteSize_append,
          String.utf8ByteSize_singleton, h1, h2]
        rfl
      omega
  have hmax : indexes.foldl max 0 < maxChunkCount :=
    foldl_max_lt (by decide) fun i hi => (hrange i hi).2
  have hnonneg := (le_foldl_max indexes 0).1
  have hsize : (bitmapHex indexes).utf8ByteSize = 2 * ((indexes.foldl max 0).toNat / 8 + 1) := by
    have htext : bitmapHex indexes = String.ofList (bitmapHex indexes).toList :=
      String.ofList_toList.symm
    rw [htext, toList_bitmapHex]
    refine hdigits _ 0 _ fun i => ?_
    exact (fold_bits (fun b => indexes.contains ((8 * i + b : ℕ) : ℤ) = true) 8).1
  have hcount : maxChunkCount = 111551 := by decide
  rw [hcount] at hmax ⊢
  rw [hsize]
  omega

include hsorted

/-- The client recovers the indexes from the server's bitmap. -/
theorem readBytes_bitmap : readBytes 0 (bitmapHex indexes).toList = .ok indexes := by
  have hbits := fun i => fold_bits (fun b => indexes.contains ((8 * i + b : ℕ) : ℤ) = true) 8
  rw [toList_bitmapHex, readBytes_spec _ fun i => (hbits i).1]
  · refine congrArg Except.ok (Eq.trans ?_ (indexes_of_bits hsorted
      (k := (indexes.foldl max 0).toNat / 8 + 1) ?_))
    · refine congrArg (List.flatMap · _) (funext fun i => congrArg (List.map _) ?_)
      refine List.filter_congr ?_
      intro b hb
      rw [(hbits i).2 b (by have := List.mem_range'_1.1 hb; omega)]
      simp
    · intro i hi
      have hle := (le_foldl_max indexes 0).2 i hi
      have := (hrange i hi).1
      omega
  · intro i _ _ b hb hset
    rw [(hbits i).2 b hb] at hset
    have hmem : ((8 * i + b : ℕ) : ℤ) ∈ indexes := by simpa using hset
    rw [Nat.mul_comm i 8]
    exact (hrange _ hmem).2

end Indexes

/-! ### The message -/

/-- The members of the server's answer. -/
def resumeMembers (uploadID commandID : String) (indexes : List ℤ) (bitmap : String) :
    List (String × Json) :=
  ("type", .text "attachment.resume") :: (Json.optText "command_id" commandID ++
    (Json.optText "upload_id" uploadID ++ (Json.optArray "received_indexes" (indexes.map .int) ++
      Json.optText "received_bitmap" bitmap)))

theorem json_resume (uploadID commandID : String) (indexes : List ℤ) :
    (attachmentResumeMessage uploadID commandID indexes).json =
      .object (if indexes.length ≤ 8192 then resumeMembers uploadID commandID indexes ""
        else resumeMembers uploadID commandID [] (bitmapHex indexes)) := by
  unfold attachmentResumeMessage
  split_ifs
  · simp [Message.json, resumeMembers, Json.optText, Json.optBool, Json.optInt, Json.optArray,
      MessageType.name]
  · simp [Message.json, resumeMembers, Json.optText, Json.optBool, Json.optInt, Json.optArray,
      MessageType.name]

section Members

variable (uploadID commandID : String) (indexes : List ℤ) (bitmap : String)

theorem get?_resume (key : String) :
    (Json.object (resumeMembers uploadID commandID indexes bitmap)).get? key =
      if key = "type" then some (.text "attachment.resume")
      else if key = "command_id" ∧ commandID ≠ "" then some (.text commandID)
      else if key = "upload_id" ∧ uploadID ≠ "" then some (.text uploadID)
      else if key = "received_indexes" ∧ indexes ≠ [] then some (.array (indexes.map .int))
      else if key = "received_bitmap" ∧ bitmap ≠ "" then some (.text bitmap)
      else none := by
  have harray : (Json.object (Json.optArray "received_indexes" (indexes.map .int))).get? key =
      if key = "received_indexes" ∧ indexes ≠ [] then some (.array (indexes.map .int))
      else none := by
    cases indexes with
    | nil => simp [Json.optArray, Json.get?]
    | cons i l =>
      simp only [Json.optArray, List.map_cons, List.isEmpty_cons, Bool.false_eq_true, if_false,
        Json.get?_cons]
      by_cases h : "received_indexes" = key
      · simp [h]
      · simp [h, Ne.symm h, Json.get?]
  unfold resumeMembers
  rw [Json.get?_cons, Json.get?_append, Json.get?_append, Json.get?_append, Json.get?_optText,
    Json.get?_optText, Json.get?_optText, harray]
  simp only [eq_comm (b := key)]
  split_ifs <;> rfl

/-- Only the five fields of the answer are there. -/
theorem get?_resume_none {key : String} (h : key ∉ ["type", "command_id", "upload_id",
    "received_indexes", "received_bitmap"]) :
    (Json.object (resumeMembers uploadID commandID indexes bitmap)).get? key = none := by
  simp only [List.mem_cons, List.not_mem_nil, or_false, not_or] at h
  obtain ⟨h1, h2, h3, h4, h5⟩ := h
  rw [get?_resume]
  simp [h1, h2, h3, h4, h5]

theorem readString_resume (error : String) :
    readString error (.object (resumeMembers uploadID commandID indexes bitmap)) "command_id" =
        .ok commandID ∧
      readString error (.object (resumeMembers uploadID commandID indexes bitmap)) "upload_id" =
        .ok uploadID := by
  unfold readString
  rw [get?_resume, get?_resume]
  constructor
  · by_cases h : commandID = "" <;> simp [h]
  · by_cases h : uploadID = "" <;> simp [h]

/-- What the client makes of an answer whose indexes it can read. -/
theorem readMessage_resume (dump : Json → String) {fromBitmap fromArray : List ℤ}
    (hbitmap : readReceivedBitmap (.object (resumeMembers uploadID commandID indexes bitmap)) =
      .ok fromBitmap)
    (harray : readReceivedIndexes (.object (resumeMembers uploadID commandID indexes bitmap)) =
      .ok fromArray) :
    ∃ m, readMessage dump (.object (resumeMembers uploadID commandID indexes bitmap)) = .ok m ∧
      m.receivedIndexes = fromBitmap ++ fromArray ∧ m.type = "attachment.resume" ∧
      m.uploadID = uploadID ∧ m.commandID = commandID := by
  have hnone : ∀ key, key ∉ ["type", "command_id", "upload_id", "received_indexes",
      "received_bitmap"] →
        (Json.object (resumeMembers uploadID commandID indexes bitmap)).get? key = none :=
    fun key h => get?_resume_none uploadID commandID indexes bitmap h
  have htype : (Json.object (resumeMembers uploadID commandID indexes bitmap)).get? "type" =
      some (.text "attachment.resume") := by
    rw [get?_resume, if_pos rfl]
  have htext : ∀ error key, key ∉ ["type", "command_id", "upload_id", "received_indexes",
      "received_bitmap"] → readString error
        (.object (resumeMembers uploadID commandID indexes bitmap)) key = .ok "" := by
    intro error key h
    rw [readString, hnone key h]
  have hbool : ∀ error key, key ∉ ["type", "command_id", "upload_id", "received_indexes",
      "received_bitmap"] → readBool error
        (.object (resumeMembers uploadID commandID indexes bitmap)) key = .ok false := by
    intro error key h
    rw [readBool, hnone key h]
  have hint : ∀ error bits key, key ∉ ["type", "command_id", "upload_id", "received_indexes",
      "received_bitmap"] → readInt error bits
        (.object (resumeMembers uploadID commandID indexes bitmap)) key = .ok 0 := by
    intro error bits key h
    rw [readInt, hnone key h]
  have hlist : ∀ {α : Type} (error : String) (read : Json → Except String α) key,
      key ∉ ["type", "command_id", "upload_id", "received_indexes", "received_bitmap"] →
        readArray error read (.object (resumeMembers uploadID commandID indexes bitmap)) key =
          .ok [] := by
    intro α error read key h
    rw [readArray, hnone key h]
  have hepoch : readEpoch (.object (resumeMembers uploadID commandID indexes bitmap)) = .ok 0 := by
    rw [readEpoch, hnone _ (by decide)]
  have hcrypto : readCrypto dump (.object (resumeMembers uploadID commandID indexes bitmap)) =
      .ok "" := by
    rw [readCrypto, hnone _ (by decide)]
  unfold readMessage
  rw [htype]
  simp (disch := decide) only [htext, hbool, hint, hlist, hepoch, hcrypto, hbitmap, harray,
    (readString_resume uploadID commandID indexes bitmap _).1,
    (readString_resume uploadID commandID indexes bitmap _).2, bind, Except.bind]
  exact ⟨_, rfl, rfl, rfl, rfl, rfl⟩

end Members

/-- An index that was sent as a number is read as the same number. -/
theorem mapM_asIndex {indexes : List ℤ} (hrange : ∀ i ∈ indexes, 0 ≤ i ∧ i < maxChunkCount) :
    (indexes.map Json.int).mapM asIndex = .ok indexes := by
  have hcount : maxChunkCount = 111551 := by decide
  induction indexes with
  | nil => rfl
  | cons i l ih =>
    have hi := hrange i List.mem_cons_self
    rw [hcount] at hi
    have hmod : i.bmod (2 ^ 64) = i := by
      have hpow : ((2 ^ 64 : ℕ) : ℤ) = 18446744073709551616 := rfl
      rw [Int.bmod_def, hpow]
      omega
    rw [List.map_cons, List.mapM_cons, ih fun j hj => hrange j (List.mem_cons_of_mem _ hj), asIndex,
      hmod]
    rfl

/-- For every strictly increasing list of chunk indexes the client reads the list back from the
server's answer.  `parse` is only asked to read the text of this value as this value. -/
theorem resume_round_trip (parse : String → Except String Json) (dump : Json → String)
    (uploadID commandID : String) {indexes : List ℤ} (hsorted : indexes.Pairwise (· < ·))
    (hrange : ∀ i ∈ indexes, 0 ≤ i ∧ i < maxChunkCount)
    (hparse : parse (attachmentResumeMessage uploadID commandID indexes).json.render =
      .ok (attachmentResumeMessage uploadID commandID indexes).json) :
    ∃ m, receiveMessage parse dump
        (attachmentResumeMessage uploadID commandID indexes).marshal = .ok m ∧
      m.receivedIndexes = indexes ∧ m.type = "attachment.resume" ∧ m.uploadID = uploadID ∧
      m.commandID = commandID := by
  have htext : (attachmentResumeMessage uploadID commandID indexes).marshal =
      (attachmentResumeMessage uploadID commandID indexes).json.render := by
    unfold attachmentResumeMessage
    split_ifs <;> exact Message.marshal_eq_render rfl rfl
  unfold receiveMessage
  rw [htext, hparse]
  dsimp only
  rw [json_resume]
  by_cases hlen : indexes.length ≤ 8192
  · -- one by one
    rw [if_pos hlen]
    have hbitmap : readReceivedBitmap (.object (resumeMembers uploadID commandID indexes "")) =
        .ok [] := by
      rw [readReceivedBitmap, get?_resume]
      simp
    have harray : readReceivedIndexes (.object (resumeMembers uploadID commandID indexes "")) =
        .ok indexes := by
      rw [readReceivedIndexes, readArray, get?_resume]
      cases indexes with
      | nil => rfl
      | cons i l => exact mapM_asIndex hrange
    exact readMessage_resume uploadID commandID indexes "" dump hbitmap harray
  · -- as a bitmap
    rw [if_neg hlen]
    have hsize := size_bitmapHex hrange
    have hbitmap : readReceivedBitmap (.object (resumeMembers uploadID commandID []
        (bitmapHex indexes))) = .ok indexes := by
      have hindexes : (Json.object (resumeMembers uploadID commandID []
          (bitmapHex indexes))).get? "received_indexes" = none := by
        rw [get?_resume]
        simp
      have hfound : (Json.object (resumeMembers uploadID commandID []
          (bitmapHex indexes))).get? "received_bitmap" = some (.text (bitmapHex indexes)) := by
        have hne : bitmapHex indexes ≠ "" := by
          intro he
          have hread := readBytes_bitmap hsorted hrange
          rw [he] at hread
          cases hread
          exact hlen (Nat.zero_le _)
        rw [get?_resume]
        simp [hne]
      rw [readReceivedBitmap, hfound, hindexes]
      dsimp only
      rw [if_neg (by simp), if_neg (by omega)]
      exact readBytes_bitmap hsorted hrange
    have harray : readReceivedIndexes (.object (resumeMembers uploadID commandID []
        (bitmapHex indexes))) = .ok [] := by
      rw [readReceivedIndexes, readArray, get?_resume]
      simp
    obtain ⟨m, hm, hidx, hrest⟩ :=
      readMessage_resume uploadID commandID [] (bitmapHex indexes) dump hbitmap harray
    exact ⟨m, hm, by rw [hidx, List.append_nil], hrest⟩

/-- Two chunks, sent one by one, and the first 8193, sent as a bitmap. -/
theorem resume_round_trip_two :
    let parse : String → Except String Json := fun _ =>
      .ok (.object [("type", .text "attachment.resume"), ("upload_id", .text "u"),
        ("received_indexes", .array [.int 0, .int 2])])
    let many : List ℤ := (List.range 8193).map Nat.cast
    let answer := attachmentResumeMessage "u" "" many
    (∃ m, receiveMessage parse Json.render
        "\x7b\"type\":\"attachment.resume\",\"upload_id\":\"u\",\"received_indexes\":[0,2]\x7d" =
          .ok m ∧ m.receivedIndexes = [0, 2]) ∧
      answer.receivedIndexes = [] ∧
      ∃ m, receiveMessage (fun _ => .ok answer.json) Json.render answer.marshal = .ok m ∧
        m.receivedIndexes = many := by
  intro parse many answer
  have htext : (attachmentResumeMessage "u" "" [0, 2]).marshal =
      "\x7b\"type\":\"attachment.resume\",\"upload_id\":\"u\",\"received_indexes\":[0,2]\x7d" := by
    decide +kernel
  have hsorted : many.Pairwise (· < ·) :=
    List.pairwise_lt_range.map _ fun _ _ h => Int.ofNat_lt.2 h
  have hrange : ∀ i ∈ many, 0 ≤ i ∧ i < maxChunkCount := by
    intro i hi
    obtain ⟨n, hn, rfl⟩ := List.mem_map.1 hi
    rw [List.mem_range] at hn
    exact ⟨Int.natCast_nonneg n, lt_trans (Int.ofNat_lt.2 hn) (by decide)⟩
  have hmany : answer.receivedIndexes = [] := by
    have hlength : ¬ many.length ≤ 8192 := by
      rw [List.length_map, List.length_range]
      decide
    unfold answer attachmentResumeMessage
    rw [if_neg hlength]
  refine ⟨?_, hmany, ?_⟩
  · obtain ⟨m, hm, hindexes, -⟩ := resume_round_trip parse Json.render "u" ""
      (by decide : ([0, 2] : List ℤ).Pairwise (· < ·)) (by decide) rfl
    rw [htext] at hm
    exact ⟨m, hm, hindexes⟩
  · obtain ⟨m, hm, hindexes, -⟩ := resume_round_trip (fun _ => .ok answer.json) Json.render "u" ""
      hsorted hrange rfl
    exact ⟨m, hm, hindexes⟩

end Client

end LanChat
