import LanChat.Lib.GoJson
import LanChat.Message

/-!
# Frames (`server-go/protocol.go`, `sendMessage`)

`marshal` is the JSON text of a message with its members in the order of the struct, and
`writeFrame` the length check that a frame must pass on the way out.
-/

namespace LanChat

open GoJson

/-- The text of the `type` member. -/
def MessageType.name : MessageType → String
  | .login => "login"
  | .register => "register"
  | .loginAuth => "login_auth"
  | .chat => "chat"
  | .privateChat => "private_chat"
  | .historyRequest => "history_request"
  | .historyResponse => "history_response"
  | .roomJoin => "room_join"
  | .roomCreate => "room_create"
  | .roomAction => "room_action"
  | .roomLeave => "room_leave"
  | .roomsRequest => "rooms_request"
  | .usersRequest => "users_request"
  | .mlsKeyPackagePublish => "mls.key_package.publish"
  | .mlsKeyPackageFetch => "mls.key_package.fetch"
  | .mlsGroupCommit => "mls.group.commit"
  | .mlsGroupProposal => "mls.group.proposal"
  | .mlsGroupWelcome => "mls.group.welcome"
  | .mlsGroupWelcomeAccept => "mls.group.welcome.accept"
  | .attachmentInit => "attachment.init"
  | .attachmentChunk => "attachment.chunk"
  | .attachmentResume => "attachment.resume"
  | .attachmentCommit => "attachment.commit"
  | .attachmentDownload => "attachment.download"
  | .adminAction => "admin_action"
  | .quit => "quit"
  | .messageRecalled => "message_recalled"
  | .usersResponse => "users_response"
  | .roomsResponse => "rooms_response"
  | .registerOk => "register_ok"
  | .registerError => "register_error"
  | .loginOk => "login_ok"
  | .loginError => "login_error"
  | .loginPending => "login_pending"
  | .system => "system"
  | .error => "error"
  | .offlineMessage => "offline_message"
  | .deliveryReceipt => "delivery_receipt"
  | .connectionApprovalRequest => "connection_approval_request"
  | .connectionApprovalResult => "connection_approval_result"
  | .other name => name

/-- A boolean that is always there. -/
def boolText (b : Bool) : String := if b then "true" else "false"

/-- An entry of `user_details`. -/
def OnlineUser.marshalWith (text : String → String) (u : OnlineUser) : String :=
  object [member "username" (text u.username), member "user_code" (text u.userCode),
    member "room" (text u.room), member "is_admin" (boolText u.isAdmin)]

/-- An entry of `room_details`. -/
def RoomInfo.marshalWith (text : String → String) (r : RoomInfo) : String :=
  object ([member "name" (text r.name)] ++ optText text "owner_code" r.ownerCode ++
    [member "private" (boolText r.isPrivate), member "can_manage" (boolText r.canManage)])

/-- The members of an entry of `messages`. -/
def HistoryMessage.membersWith (text raw : String → String) (m : HistoryMessage) : List String :=
  member "type" (text m.type.name) :: (optText text "message_id" m.messageID ++
  optText text "username" m.username ++ optText text "user_code" m.userCode ++
  optText text "target_user_code" m.targetUserCode ++ optText text "room" m.room ++
  optBool "private" m.isPrivate ++ optText text "content" m.content ++
  optText text "delivery_state" m.deliveryState ++ optText text "created_at" m.createdAt ++
  optBool "recalled" m.recalled ++ optText raw "crypto" m.crypto ++ m.otherMembers)

/-- The members of a message that may be left out. -/
def Message.optionalMembers (text raw : String → String) (m : Message) : List String :=
  optText text "message_id" m.messageID ++
  optText text "command_id" m.commandID ++ optText text "username" m.username ++
  optText text "user_code" m.userCode ++ optText text "target_user_code" m.targetUserCode ++
  optText text "room" m.room ++ optBool "private" m.isPrivate ++
  optArray "users" (m.users.map text) ++ optArray "rooms" (m.rooms.map text) ++
  optArray "user_details" (m.userDetails.map (OnlineUser.marshalWith text)) ++
  optArray "room_details" (m.roomDetails.map (RoomInfo.marshalWith text)) ++
  optText text "content" m.content ++
  optText text "delivery_state" m.deliveryState ++ optText text "created_at" m.createdAt ++
  optText text "before_message_id" m.beforeMessageID ++ optText text "search_query" m.searchQuery ++
  optInt "limit" m.limit ++ optBool "has_more" m.hasMore ++ optBool "recalled" m.recalled ++
  optArray "messages" (m.messages.map fun x => object (x.membersWith text raw)) ++
  optText text "protocol_version" m.protocolVersion ++
  optArray "capabilities" (m.capabilities.map text) ++ optText raw "crypto" m.crypto ++
  optText text "group_id" m.groupID ++ optInt "epoch" m.epoch.toNat ++
  optText text "proposal_id" m.proposalID ++ optText text "action" m.action ++
  optText text "key_package" m.keyPackage ++ optText text "proposal" m.proposal ++
  optText text "commit" m.commit ++ optText text "welcome" m.welcome ++
  optText text "welcome_digest" m.welcomeDigest ++ optText text "attachment_id" m.attachmentID ++
  optText text "upload_id" m.uploadID ++ optInt "logical_size" m.logicalSize ++
  optInt "chunk_size" m.chunkSize ++ optText text "expires_at" m.expiresAt ++
  optInt "chunk_index" m.chunkIndex ++ optText text "ciphertext" m.ciphertext ++
  optText text "cipher_sha256" m.cipherSHA256 ++ optText text "whole_sha256" m.wholeSha256 ++
  optArray "received_indexes" (m.receivedIndexes.map toString) ++
  optText text "received_bitmap" m.receivedBitmap ++ optBool "is_admin" m.isAdmin

/-- The members of a message. -/
def Message.membersWith (text raw : String → String) (m : Message) : List String :=
  member "type" (text m.type.name) :: m.optionalMembers text raw

/-- The members of a message, as the server writes them. -/
def Message.members (m : Message) : List String := m.membersWith quote compact

/-- `json.Marshal(message)`. -/
def Message.marshal (m : Message) : String := object m.members

/-- A frame of a client that escapes only what it must. -/
def Message.plain (m : Message) : String := object (m.membersWith plainQuote id)

/-- `readFrame`: a client can send the frame. -/
def receivable (m : Message) : Bool := decide (m.plain.utf8ByteSize ≤ maxMessageSize)

/-- `writeFrame`: whether a payload may go out. -/
def writeFrame (payload : String) : Bool :=
  payload.utf8ByteSize != 0 && decide (payload.utf8ByteSize ≤ maxMessageSize)

/-- `sendMessage` gets past the length check. -/
def sendMessage (m : Message) : Bool := writeFrame m.marshal

theorem size_marshal (m : Message) : m.marshal.utf8ByteSize = weight m.members + 1 :=
  size_object (List.cons_ne_nil _ _)

theorem sendMessage_iff (m : Message) :
    sendMessage m = true ↔ weight m.members + 1 ≤ maxMessageSize := by
  unfold sendMessage writeFrame
  rw [size_marshal]
  simp

example : Message.marshal { type := .chat, username := "bob", content := "<\n", isAdmin := true } =
    "\x7b\"type\":\"chat\",\"username\":\"bob\",\"content\":\"\\u003c\\n\",\"is_admin\":true\x7d" := by
  decide +kernel

end LanChat
