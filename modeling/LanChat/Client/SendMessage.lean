import LanChat.Client.ReceiveMessage
import Mathlib.Data.List.Sort

/-!
# Writing a frame in the client (`client-cpp/src/message.cpp`)

`serialize` builds the object of a message and `dump` writes it.  An object of `nlohmann::json`
keeps its members sorted by name.  The text of `crypto` is read by `nlohmann::json::parse`, a
parameter here.
-/

namespace Json

open GoJson

mutual

/-- `nlohmann::json::dump`, which escapes what JSON does not allow in a string, and nothing else. -/
def dump : Json → String
  | .null => "null"
  | .bool b => if b then "true" else "false"
  | .int n => toString n
  | .float digits => digits
  | .text s => plainQuote s
  | .array values => GoJson.array (dumpValues values)
  | .object members => GoJson.object (dumpMembers members)

/-- The texts of the values of an array. -/
def dumpValues : List Json → List String
  | [] => []
  | v :: values => v.dump :: dumpValues values

/-- The texts of the members of an object. -/
def dumpMembers : List (String × Json) → List String
  | [] => []
  | m :: members => dumpMember m :: dumpMembers members

/-- The text of a member. -/
def dumpMember : String × Json → String
  | (name, value) => plainQuote name ++ ":" ++ value.dump

end

/-- The object with the given members. -/
def sortedObject (members : List (String × Json)) : Json :=
  .object (members.insertionSort fun a b => a.1 ≤ b.1)

theorem dumpMembers_eq_map (members : List (String × Json)) :
    dumpMembers members = members.map dumpMember := by
  induction members with
  | nil => rfl
  | cons m members ih => rw [dumpMembers, ih, List.map_cons]

@[simp] theorem dumpMembers_append (l l' : List (String × Json)) :
    dumpMembers (l ++ l') = dumpMembers l ++ dumpMembers l' := by
  simp [dumpMembers_eq_map]

/-- The order of the members does not matter for the size. -/
theorem size_dump_sortedObject {members : List (String × Json)} (hm : members ≠ []) :
    (sortedObject members).dump.utf8ByteSize = weight (dumpMembers members) + 1 := by
  have hperm := (List.perm_insertionSort (fun a b : String × Json => a.1 ≤ b.1) members)
  have hne : members.insertionSort (fun a b => a.1 ≤ b.1) ≠ [] := fun he =>
    hm (List.Perm.nil_eq (he ▸ hperm)).symm
  unfold sortedObject dump
  rw [size_object (by simpa [dumpMembers_eq_map] using hne), dumpMembers_eq_map, dumpMembers_eq_map]
  unfold weight
  rw [((hperm.map dumpMember).map _).sum_eq]

theorem size_plainChar_le (c : Char) : (plainChar c).utf8ByteSize ≤ escapedSize c := by
  unfold plainChar
  split_ifs with hhtml
  · -- a character that only HTML escapes
    rw [String.utf8ByteSize_singleton]
    have hfour := Char.utf8Size_le_four c
    unfold escapedSize
    split_ifs with hshort hlong
    · have hone : c.utf8Size = 1 := by
        refine Char.utf8Size_eq_one_iff.2 ?_
        change c.toNat ≤ 127
        rcases hshort with rfl | rfl | hn | hn | rfl | rfl | rfl
        case inr.inr.inl | inr.inr.inr.inl => omega
        all_goals decide
      omega
    · omega
    · exact absurd (.inr hhtml) hlong
  · rw [size_escapeChar]

theorem size_plainQuote_le (s : String) : (plainQuote s).utf8ByteSize ≤ textSize s := by
  rw [size_plainQuote]
  unfold textSize
  refine Nat.add_le_add_right ?_ 2
  induction s.toList with
  | nil => exact Nat.le_refl _
  | cons c l ih =>
    have := size_plainChar_le c
    simp only [List.map_cons, List.sum_cons]
    omega

/-- A string member, under a name that is written as it is. -/
theorem weight_dump_optText (name : String)
    (hname : (plainQuote name).utf8ByteSize = name.utf8ByteSize + 2) (s : String) :
    weight (dumpMembers (optText name s)) ≤ textWeight name s := by
  have hsize := size_plainQuote_le s
  unfold optText textWeight
  split_ifs
  · exact Nat.le_refl _
  · rw [dumpMembers, dumpMembers, weight_cons, weight_nil, dumpMember, String.utf8ByteSize_append,
      String.utf8ByteSize_append, hname, dump]
    change _ + 1 + _ + 1 + 0 ≤ _
    omega

end Json

namespace LanChat.Client

open GoStrings Json

/-- A message of a type, with the other fields at their defaults. -/
def Message.ofType (type : String) : Message where
  type := type
  username := ""
  protocolVersion := ""
  messageID := ""
  commandID := ""
  deliveryState := ""
  userCode := ""
  targetUserCode := ""
  room := ""
  content := ""
  groupID := ""
  keyPackage := ""
  proposalID := ""
  action := ""
  proposal := ""
  commit := ""
  welcome := ""
  welcomeDigest := ""
  attachmentID := ""
  uploadID := ""
  ciphertext := ""
  cipherSHA256 := ""
  expiresAt := ""
  createdAt := ""
  beforeMessageID := ""
  searchQuery := ""
  isAdmin := false
  isPrivate := false
  hasMore := false
  recalled := false
  limit := 0
  epoch := 0
  logicalSize := 0
  chunkSize := 0
  chunkIndex := 0
  crypto := ""
  receivedIndexes := []
  users := []
  rooms := []
  userDetails := []
  roomDetails := []
  messages := []

/-- An entry of `user_details`. -/
def OnlineUser.serialize (user : OnlineUser) : Json :=
  sortedObject [("username", .text user.username), ("user_code", .text user.userCode),
    ("room", .text user.room), ("is_admin", .bool user.isAdmin)]

/-- An entry of `room_details`. -/
def RoomInfo.serialize (room : RoomInfo) : Json :=
  sortedObject ([("name", .text room.name), ("private", .bool room.isPrivate),
    ("can_manage", .bool room.canManage)] ++ optText "owner_code" room.ownerCode)

/-- An entry of `messages`. -/
def NestedMessage.serialize (m : NestedMessage) : Json :=
  sortedObject ([("type", .text m.type)] ++ optText "message_id" m.messageID ++
    optText "delivery_state" m.deliveryState ++ optText "created_at" m.createdAt ++
    optBool "recalled" m.recalled ++ optText "username" m.username ++
    optText "user_code" m.userCode ++ optText "target_user_code" m.targetUserCode ++
    optText "room" m.room ++ optText "content" m.content ++ optBool "private" m.isPrivate)

section

variable (parse : String → Except String Json)

/-- The members of `serialize`; `nlohmann::json::parse` throws on a text that is no JSON. -/
def Message.members (m : Message) : Except String (List (String × Json)) := do
  let crypto ← if m.crypto = "" then .ok [] else (parse m.crypto).map fun v => [("crypto", v)]
  return [("type", .text m.type)] ++ optText "protocol_version" m.protocolVersion ++
    optText "message_id" m.messageID ++ optText "command_id" m.commandID ++
    optText "delivery_state" m.deliveryState ++ optText "created_at" m.createdAt ++
    optText "before_message_id" m.beforeMessageID ++ optText "search_query" m.searchQuery ++
    crypto ++ (if 0 < m.limit then [("limit", .int m.limit)] else []) ++
    optBool "has_more" m.hasMore ++ optBool "recalled" m.recalled ++
    optText "username" m.username ++ optText "user_code" m.userCode ++
    optText "target_user_code" m.targetUserCode ++ optText "room" m.room ++
    optText "content" m.content ++ optArray "users" (m.users.map .text) ++
    optArray "rooms" (m.rooms.map .text) ++
    optArray "user_details" (m.userDetails.map OnlineUser.serialize) ++
    optArray "room_details" (m.roomDetails.map RoomInfo.serialize) ++
    optBool "is_admin" m.isAdmin ++ optBool "private" m.isPrivate ++
    optText "group_id" m.groupID ++ optInt "epoch" m.epoch ++
    optText "key_package" m.keyPackage ++ optText "proposal_id" m.proposalID ++
    optText "action" m.action ++ optText "proposal" m.proposal ++ optText "commit" m.commit ++
    optText "welcome" m.welcome ++ optText "welcome_digest" m.welcomeDigest ++
    optText "attachment_id" m.attachmentID ++ optText "upload_id" m.uploadID ++
    optInt "logical_size" m.logicalSize ++ optInt "chunk_size" m.chunkSize ++
    (if m.chunkIndex ≠ 0 ∨ m.type = "attachment.chunk" then [("chunk_index", .int m.chunkIndex)]
      else []) ++
    optText "ciphertext" m.ciphertext ++ optText "cipher_sha256" m.cipherSHA256 ++
    optText "expires_at" m.expiresAt ++
    optArray "received_indexes" (m.receivedIndexes.map .int) ++
    optArray "messages" (m.messages.map NestedMessage.serialize)

/-- `serialize`. -/
def Message.serialize (m : Message) : Except String Json := sortedObject <$> m.members parse

end

/-- The command of `sendAttachmentChunk` (`gui_connection_worker.cpp`): `none` when it is refused.
`registered` is the answer of `registerChunkCommand`.  `QString::trimmed` drops the characters that
`strings.TrimSpace` drops. -/
def attachmentChunkCommand (ready registered : Bool) (uploadId : String) (chunkIndex : ℤ)
    (ciphertext : List UInt8) (cipherSha256 commandId : String) : Option Message :=
  if !ready || trimSpace uploadId == "" || decide (chunkIndex < 0) || ciphertext.isEmpty ||
      cipherSha256.utf8ByteSize != 64 then none
  else if trimSpace commandId == "" || !registered then none
  else some { Message.ofType "attachment.chunk" with
    uploadID := trimSpace uploadId
    chunkIndex
    ciphertext := base64Encode ciphertext
    cipherSHA256 := asciiLower cipherSha256
    commandID := trimSpace commandId }

/-- The members of a chunk. -/
theorem serialize_chunk (parse : String → Except String Json)
    (uploadID ciphertext cipherSHA256 commandID : String) (chunkIndex : ℤ) :
    ({ Message.ofType "attachment.chunk" with
        uploadID, chunkIndex, ciphertext, cipherSHA256, commandID } : Message).serialize parse =
      .ok (sortedObject ([("type", .text "attachment.chunk")] ++ optText "command_id" commandID ++
        optText "upload_id" uploadID ++ [("chunk_index", .int chunkIndex)] ++
        optText "ciphertext" ciphertext ++ optText "cipher_sha256" cipherSHA256)) := by
  unfold Message.serialize Message.members Message.ofType
  simp [optText, optBool, optInt, optArray, bind, Except.bind, pure, Except.pure, Functor.map,
    Except.map]

end LanChat.Client
