import LanChat.Lib.Json

/-!
# Reading a frame in the client (`client-cpp/src/message.cpp`)

`receiveMessage` is `receive_message_impl` from the moment the frame's payload is there.  The text
is read by `nlohmann::json::parse`, a parameter here, and so is `dump`, which writes the `crypto`
object back.  Every refusal carries the text that `set_error` gets.
-/

namespace LanChat.Client

/-- `attachments::MaxLogicalBytes`. -/
def maxLogicalBytes : ℤ := 5 * 1024 * 1024 * 1024
/-- `attachments::PlaintextChunkBytes`. -/
def plaintextChunkBytes : ℤ := 47 * 1024
/-- `attachments::MaxChunkCount`. -/
def maxChunkCount : ℤ := (maxLogicalBytes + plaintextChunkBytes - 1) / plaintextChunkBytes

/-- `message::OnlineUser`. -/
structure OnlineUser where
  username : String
  userCode : String
  room : String
  isAdmin : Bool
  deriving DecidableEq, Repr

/-- `message::RoomInfo`. -/
structure RoomInfo where
  name : String
  ownerCode : String
  isPrivate : Bool
  canManage : Bool
  deriving DecidableEq, Repr

/-- An entry of `messages`: the fields that are read there. -/
structure NestedMessage where
  type : String
  messageID : String
  deliveryState : String
  username : String
  userCode : String
  targetUserCode : String
  room : String
  content : String
  createdAt : String
  isPrivate : Bool
  recalled : Bool
  deriving DecidableEq, Repr

/-- `message::Message`, without the password, which is never received. -/
structure Message where
  type : String
  username : String
  protocolVersion : String
  messageID : String
  commandID : String
  deliveryState : String
  userCode : String
  targetUserCode : String
  room : String
  content : String
  groupID : String
  keyPackage : String
  proposalID : String
  action : String
  proposal : String
  commit : String
  welcome : String
  welcomeDigest : String
  attachmentID : String
  uploadID : String
  ciphertext : String
  cipherSHA256 : String
  expiresAt : String
  createdAt : String
  beforeMessageID : String
  searchQuery : String
  isAdmin : Bool
  isPrivate : Bool
  hasMore : Bool
  recalled : Bool
  limit : ℤ
  epoch : ℕ
  logicalSize : ℤ
  chunkSize : ℤ
  chunkIndex : ℤ
  crypto : String
  receivedIndexes : List ℤ
  users : List String
  rooms : List String
  userDetails : List OnlineUser
  roomDetails : List RoomInfo
  messages : List NestedMessage
  deriving DecidableEq, Repr

/-! ### Fields -/

/-- `read_string` and `read_nested_string`: an absent field keeps its default. -/
def readString (error : String) (object : Json) (key : String) : Except String String :=
  match object.get? key with
  | none => .ok ""
  | some (.text s) => .ok s
  | some _ => .error error

/-- A boolean field. -/
def readBool (error : String) (object : Json) (key : String) : Except String Bool :=
  match object.get? key with
  | none => .ok false
  | some (.bool b) => .ok b
  | some _ => .error error

/-- An integer field, converted to a signed type of so many bits. -/
def readInt (error : String) (bits : ℕ) (object : Json) (key : String) : Except String ℤ :=
  match object.get? key with
  | none => .ok 0
  | some (.int n) => .ok (n.bmod (2 ^ bits))
  | some _ => .error error

/-- The `epoch` field, an unsigned number. -/
def readEpoch (object : Json) : Except String ℕ :=
  match object.get? "epoch" with
  | none => .ok 0
  | some (.int n) =>
    if n < 0 then .error "epoch is not an unsigned integer" else .ok n.toNat
  | some _ => .error "epoch is not an unsigned integer"

/-- A list of values, each of which `read` accepts. -/
def readArray {α : Type} (notArray : String) (read : Json → Except String α) (object : Json)
    (key : String) : Except String (List α) :=
  match object.get? key with
  | none => .ok []
  | some (.array values) => values.mapM read
  | some _ => .error notArray

/-- A string in an array. -/
def asString (error : String) : Json → Except String String
  | .text s => .ok s
  | _ => .error error

/-- An entry of `user_details`. -/
def asOnlineUser (value : Json) : Except String OnlineUser :=
  match value.get? "username", value.get? "user_code", value.get? "room",
      value.get? "is_admin" with
  | some (.text username), some (.text userCode), some (.text room), some (.bool isAdmin) =>
    .ok ⟨username, userCode, room, isAdmin⟩
  | _, _, _, _ => .error "user_details contains an invalid member"

/-- An entry of `room_details`. -/
def asRoomInfo (value : Json) : Except String RoomInfo :=
  match value.get? "name", value.get? "private", value.get? "can_manage",
      value.get? "owner_code" with
  | some (.text name), some (.bool isPrivate), some (.bool canManage), none =>
    .ok ⟨name, "", isPrivate, canManage⟩
  | some (.text name), some (.bool isPrivate), some (.bool canManage), some (.text ownerCode) =>
    .ok ⟨name, ownerCode, isPrivate, canManage⟩
  | _, _, _, _ => .error "room_details contains an invalid room"

/-- An entry of `messages`. -/
def asNestedMessage (value : Json) : Except String NestedMessage :=
  match value with
  | .object _ => do
    let text := readString "messages contains a field with the wrong type" value
    let type ← text "type"
    let messageID ← text "message_id"
    let deliveryState ← text "delivery_state"
    let username ← text "username"
    let userCode ← text "user_code"
    let targetUserCode ← text "target_user_code"
    let room ← text "room"
    let content ← text "content"
    let createdAt ← text "created_at"
    let isPrivate ← readBool "nested private is not a boolean" value "private"
    let recalled ← readBool "nested recalled is not a boolean" value "recalled"
    return { type, messageID, deliveryState, username, userCode, targetUserCode, room, content,
             createdAt, isPrivate, recalled }
  | _ => .error "messages contains a non-object value"

/-! ### The chunks that the server has -/

/-- `hex_digit`; `none` is the result `-1`. -/
def hexDigit (c : Char) : Option ℕ :=
  if '0' ≤ c ∧ c ≤ '9' then some (c.toNat - '0'.toNat)
  else if 'a' ≤ c ∧ c ≤ 'f' then some (c.toNat - 'a'.toNat + 10)
  else if 'A' ≤ c ∧ c ≤ 'F' then some (c.toNat - 'A'.toNat + 10)
  else none

/-- The loop over the bits of a byte, lowest first; `count` bits are left. -/
def readBits (byte bits : ℕ) : (count : ℕ) → Except String (List ℤ)
  | 0 => .ok []
  | count + 1 =>
    let bit := 8 - (count + 1)
    if bits &&& (1 <<< bit) = 0 then readBits byte bits count
    else
      let index : ℤ := (byte * 8 + bit : ℕ)
      if maxChunkCount ≤ index then .error "received_bitmap contains an out-of-range chunk"
      else (readBits byte bits count).map (index :: ·)

/-- The loop over the bytes of the bitmap.  A character that is no digit ends it; in a text of even
size that has no other character the digits come in pairs. -/
def readBytes : (byte : ℕ) → List Char → Except String (List ℤ)
  | _, [] => .ok []
  | byte, high :: low :: digits =>
    match hexDigit high, hexDigit low with
    | some high, some low => do
      let indexes ← readBits byte (high * 16 + low) 8
      let rest ← readBytes (byte + 1) digits
      return indexes ++ rest
    | _, _ => .error "received_bitmap is not hexadecimal"
  | _, [_] => .error "received_bitmap is not hexadecimal"

/-- The indexes of `received_bitmap`. -/
def readReceivedBitmap (object : Json) : Except String (List ℤ) :=
  match object.get? "received_bitmap" with
  | none => .ok []
  | some (.text bitmap) =>
    if (object.get? "received_indexes").isSome then .error "invalid or ambiguous received_bitmap"
    else if bitmap.utf8ByteSize % 2 ≠ 0 ∨
        ((maxChunkCount + 7) / 8 * 2).toNat < bitmap.utf8ByteSize then
      .error "received_bitmap has invalid length"
    else readBytes 0 bitmap.toList
  | some _ => .error "invalid or ambiguous received_bitmap"

/-- An entry of `received_indexes`. -/
def asIndex : Json → Except String ℤ
  | .int n => .ok (n.bmod (2 ^ 64))
  | _ => .error "received_indexes contains a non-integer value"

/-- The indexes of `received_indexes`. -/
def readReceivedIndexes (object : Json) : Except String (List ℤ) :=
  readArray "received_indexes is not an array" asIndex object "received_indexes"

/-! ### The message -/

/-- `is_base64`. -/
def isBase64 (value : String) : Bool :=
  let alphabet := fun c : Char => ('A' ≤ c && c ≤ 'Z') || ('a' ≤ c && c ≤ 'z') ||
    ('0' ≤ c && c ≤ '9') || c == '+' || c == '/'
  let body := value.toList.takeWhile (· != '=')
  let padding := value.toList.drop body.length
  !value.isEmpty && value.utf8ByteSize % 4 == 0 && body.all alphabet &&
    padding.all (· == '=') && decide (padding.length ≤ 2)

/-- The field that a message of the MLS types carries in base64, with its error. -/
def base64Field (m : Message) : Option (String × String) :=
  if m.type = "mls.key_package.publish" then some (m.keyPackage, "key_package is not base64")
  else if m.type = "mls.key_package.fetch" then some (m.keyPackage, "key_package is not base64")
  else if m.type = "mls.group.commit" then some (m.commit, "commit is not base64")
  else if m.type = "mls.group.proposal" then some (m.proposal, "proposal is not base64")
  else if m.type = "mls.group.welcome" then some (m.welcome, "welcome is not base64")
  else none

/-- The last checks of `receive_message_impl`. -/
def checkBase64 (m : Message) : Except String Message :=
  match base64Field m with
  | some (value, error) => if value ≠ "" ∧ isBase64 value = false then .error error else .ok m
  | none => .ok m

section Parser

variable (parse : String → Except String Json) (dump : Json → String)

/-- `crypto` is kept as a text. -/
def readCrypto (object : Json) : Except String String :=
  match object.get? "crypto" with
  | none => .ok ""
  | some (.object members) => .ok (dump (.object members))
  | some _ => .error "crypto is not an object"

/-- `receive_message_impl` after the text is parsed. -/
def readMessage (object : Json) : Except String Message :=
  match object.get? "type" with
  | some (.text type) => do
    let text := readString "JSON message contains a field with the wrong type" object
    let metadata := readInt "JSON attachment metadata has a non-integer field" 64 object
    let username ← text "username"
    let protocolVersion ← text "protocol_version"
    let messageID ← text "message_id"
    let commandID ← text "command_id"
    let deliveryState ← text "delivery_state"
    let userCode ← text "user_code"
    let targetUserCode ← text "target_user_code"
    let room ← text "room"
    let content ← text "content"
    let groupID ← text "group_id"
    let keyPackage ← text "key_package"
    let proposalID ← text "proposal_id"
    let action ← text "action"
    let proposal ← text "proposal"
    let commit ← text "commit"
    let welcome ← text "welcome"
    let welcomeDigest ← text "welcome_digest"
    let attachmentID ← text "attachment_id"
    let uploadID ← text "upload_id"
    let ciphertext ← text "ciphertext"
    let cipherSHA256 ← text "cipher_sha256"
    let expiresAt ← text "expires_at"
    let createdAt ← text "created_at"
    let beforeMessageID ← text "before_message_id"
    let searchQuery ← text "search_query"
    let isAdmin ← readBool "is_admin is not a boolean" object "is_admin"
    let isPrivate ← readBool "private is not a boolean" object "private"
    let hasMore ← readBool "has_more is not a boolean" object "has_more"
    let recalled ← readBool "recalled is not a boolean" object "recalled"
    let limit ← readInt "limit is not an integer" 32 object "limit"
    let epoch ← readEpoch object
    let logicalSize ← metadata "logical_size"
    let chunkSize ← metadata "chunk_size"
    let chunkIndex ← metadata "chunk_index"
    let crypto ← readCrypto dump object
    let bitmap ← readReceivedBitmap object
    let indexes ← readReceivedIndexes object
    let users ← readArray "users is not an array"
      (asString "users contains a non-string value") object "users"
    let rooms ← readArray "rooms is not an array"
      (asString "rooms contains a non-string value") object "rooms"
    let userDetails ← readArray "user_details is not an array" asOnlineUser object "user_details"
    let roomDetails ← readArray "room_details is not an array" asRoomInfo object "room_details"
    let messages ← readArray "messages is not an array" asNestedMessage object "messages"
    checkBase64
      { type, username, protocolVersion, messageID, commandID, deliveryState, userCode,
        targetUserCode, room, content, groupID, keyPackage, proposalID, action, proposal, commit,
        welcome, welcomeDigest, attachmentID, uploadID, ciphertext, cipherSHA256, expiresAt,
        createdAt, beforeMessageID, searchQuery, isAdmin, isPrivate, hasMore, recalled, limit,
        epoch, logicalSize, chunkSize, chunkIndex, crypto, receivedIndexes := bitmap ++ indexes,
        users, rooms, userDetails, roomDetails, messages }
  | _ => .error "JSON message has no string type field"

/-- `receive_message_impl`, given the payload of a frame. -/
def receiveMessage (payload : String) : Except String Message :=
  match parse payload with
  | .error what => .error ("JSON parse failed: " ++ what)
  | .ok object => readMessage dump object

end Parser

end LanChat.Client
