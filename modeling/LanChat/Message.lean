import LanChat.Lib.GoStrings
import Mathlib.Data.Int.Notation

/-!
# Messages and their validation (`server-go/message.go`)

A `Message` is the decoded form of every frame, in both directions.  JSON decoding itself is not
modelled: a frame reaches this level after `json.Unmarshal`, so its texts are valid UTF-8 and its
`crypto` text is one JSON value (the empty text stands for an absent one).  A `nil` list and an
empty one are not told apart; only server-made messages carry lists that are checked for it.

The validators return the error the source returns; callers that look at the error with
`errors.Is` find the sentinels in `GoError`.
-/

namespace LanChat

open GoStrings

/-- Errors: the sentinel values the callers test for, and any other error with its text. -/
inductive GoError
  | text (message : String)
  | errMLSCommitConflict
  | errMLSEpochRollback
  | errMLSProposalMissing
  | errMLSWelcomeConflict
  | errMLSProposalConflict
  | errMLSGroupMemberRequired
  | errMLSMemberConflict
  | errMLSGroupPendingWelcome
  | errMLSWelcomeStale
  | errUserCodeAlreadyUsed
  | errNoRows
  deriving DecidableEq, Repr

/-- `maxMessageSize`. -/
def maxMessageSize : ℕ := 64 * 1024
/-- `maxUsernameSize`. -/
def maxUsernameSize : ℕ := 32
/-- `maxRoomNameSize`. -/
def maxRoomNameSize : ℕ := 32
/-- `maxCommandIDSize`. -/
def maxCommandIDSize : ℕ := 64
/-- `sha256HexSize`. -/
def sha256HexSize : ℕ := 64
/-- `maxHistoryPageSize`. -/
def maxHistoryPageSize : ℕ := 100
/-- `maxAttachmentLogicalBytes`. -/
def maxAttachmentLogicalBytes : ℤ := 5 * 1024 * 1024 * 1024
/-- `maxAttachmentCipherChunkBytes`. -/
def maxAttachmentCipherChunkBytes : ℕ := 47 * 1024 + 64

/-- The `type` field. -/
inductive MessageType
  | login | register | loginAuth | chat | privateChat | historyRequest | historyResponse
  | roomJoin | roomCreate | roomAction | roomLeave | roomsRequest | usersRequest
  | mlsKeyPackagePublish | mlsKeyPackageFetch | mlsGroupCommit | mlsGroupProposal
  | mlsGroupWelcome | mlsGroupWelcomeAccept
  | attachmentInit | attachmentChunk | attachmentResume | attachmentCommit | attachmentDownload
  | adminAction | quit | messageRecalled | usersResponse | roomsResponse
  | registerOk | registerError | loginOk | loginError | loginPending | system | error
  | offlineMessage | deliveryReceipt | connectionApprovalRequest | connectionApprovalResult
  | other (name : String)
  deriving DecidableEq, Repr

/-- One entry of `users_response.user_details`. -/
structure OnlineUser where
  username : String
  userCode : String
  room : String
  isAdmin : Bool
  deriving DecidableEq, Repr

/-- One entry of `rooms_response.room_details`. -/
structure RoomInfo where
  name : String
  ownerCode : String
  isPrivate : Bool
  canManage : Bool
  deriving DecidableEq, Repr

/-- One entry of `history_response.messages`: the fields `LoadHistory` fills.  `otherMembers` are the
further members of an entry that a client has put into a frame, as the server marshals them again;
`LoadHistory` makes none. -/
structure HistoryMessage where
  type : MessageType
  messageID : String
  room : String
  username : String
  userCode : String
  targetUserCode : String
  isPrivate : Bool
  content : String
  crypto : String
  deliveryState : String
  createdAt : String
  recalled : Bool
  otherMembers : List String := []
  deriving DecidableEq, Repr

/-- `Message`. -/
structure Message where
  type : MessageType
  messageID : String := ""
  commandID : String := ""
  username : String := ""
  userCode : String := ""
  targetUserCode : String := ""
  room : String := ""
  isPrivate : Bool := false
  users : List String := []
  rooms : List String := []
  userDetails : List OnlineUser := []
  roomDetails : List RoomInfo := []
  content : String := ""
  deliveryState : String := ""
  createdAt : String := ""
  beforeMessageID : String := ""
  searchQuery : String := ""
  limit : ℤ := 0
  hasMore : Bool := false
  recalled : Bool := false
  messages : List HistoryMessage := []
  protocolVersion : String := ""
  capabilities : List String := []
  crypto : String := ""
  groupID : String := ""
  epoch : UInt64 := 0
  proposalID : String := ""
  action : String := ""
  keyPackage : String := ""
  proposal : String := ""
  commit : String := ""
  welcome : String := ""
  welcomeDigest : String := ""
  attachmentID : String := ""
  uploadID : String := ""
  logicalSize : ℤ := 0
  chunkSize : ℤ := 0
  expiresAt : String := ""
  chunkIndex : ℤ := 0
  ciphertext : String := ""
  cipherSHA256 : String := ""
  wholeSha256 : String := ""
  receivedIndexes : List ℤ := []
  receivedBitmap : String := ""
  isAdmin : Bool := false
  deriving DecidableEq, Repr

/-- Refuse with an error text. -/
def fail (message : String) : Except GoError Unit := .error (.text message)

/-- `if !condition { return error }`. -/
def require (condition : Bool) (error : GoError) : Except GoError Unit :=
  if condition then .ok () else .error error

@[simp] theorem require_eq_ok {condition : Bool} {error : GoError} {u : Unit} :
    require condition error = .ok u ↔ condition = true := by
  unfold require
  split_ifs with h <;> simp [h]

theorem bind_eq_ok {ε α β : Type} {x : Except ε α} {f : α → Except ε β} {b : β} :
    (x >>= f) = .ok b ↔ ∃ a, x = .ok a ∧ f a = .ok b := by
  cases x with
  | error e => simp [bind, Except.bind]
  | ok a => simp [bind, Except.bind]

/-- `validateOpaqueCrypto`.  The text of a frame's `crypto` member is one JSON value, so being a
non-empty object is decided by its opening brace and what follows it. -/
def validateOpaqueCrypto (value : String) : Except GoError Unit :=
  if value = "" then fail "crypto envelope must not be empty"
  else if maxMessageSize < value.utf8ByteSize then fail "crypto envelope is too large"
  else match value.toList with
    | '\x7b' :: rest =>
      if (rest.dropWhile isSpace).head? = some '\x7d' then
        fail "crypto envelope must be a JSON object"
      else .ok ()
    | _ => fail "crypto envelope must be a JSON object"

/-- `validateOpaqueMLS`. -/
def validateOpaqueMLS (label value : String) : Except GoError Unit :=
  if value = "" then fail (label ++ " must not be empty")
  else if maxMessageSize < value.utf8ByteSize then fail (label ++ " is too large")
  else if base64Decodes value then .ok ()
  else fail (label ++ " must be base64")

/-- `validateMLSGroupID`. -/
def validateMLSGroupID (groupID : String) : Except GoError Unit :=
  if groupID = "" then fail "MLS group id must not be empty"
  else if maxMessageSize < groupID.utf8ByteSize then
    fail "MLS group id must be valid UTF-8 and no longer than 65536 bytes"
  else .ok ()

/-- `validateUserCode`. -/
def validateUserCode (code : String) : Except GoError Unit :=
  if code = "" then fail "user code must not be empty"
  else if code.utf8ByteSize < 3 ∨ 16 < code.utf8ByteSize then
    fail "user code must be 3 to 16 bytes"
  else if code.toList.all isAlnum then .ok ()
  else fail "user code must contain only ASCII letters and digits"

/-- `normalizeUserCode`. -/
def normalizeUserCode (code : String) : Except GoError String := do
  validateUserCode code
  return toLower code

/-- `validateRoomName`. -/
def validateRoomName (room : String) : Except GoError Unit :=
  if room = "" then fail "room name must not be empty"
  else if maxRoomNameSize < room.utf8ByteSize then fail "room name is too long"
  else if room.toList.all (fun c => isAlnum c || c == '_') then .ok ()
  else fail "room name must contain only ASCII letters, digits, or underscore"

/-- `if room != "" { validateRoomName(room) }`. -/
def validateOptionalRoom (room : String) : Except GoError Unit :=
  if room = "" then .ok () else validateRoomName room

/-- `validateTextContent`. -/
def validateTextContent (messageKind content : String) : Except GoError Unit :=
  if content = "" then fail (messageKind ++ " content must not be empty")
  else if maxMessageSize < content.utf8ByteSize then
    fail (messageKind ++ " content is too long")
  else .ok ()

/-- The check on a proposal id that every MLS path makes. -/
def validProposalID (proposalID : String) : Bool :=
  proposalID != "" && decide (proposalID.utf8ByteSize ≤ maxMessageSize)

/-- `validateOpaqueAttachmentChunk`.  The decoded length is the one the base64 text announces:
three bytes per quantum less one for each padding character. -/
def validateOpaqueAttachmentChunk (value : String) : Except GoError Unit :=
  if value = "" then fail "attachment ciphertext must not be empty"
  else if base64Decodes value then
    let body := value.toList.filter fun c => !(c == '\n' || c == '\r')
    if maxAttachmentCipherChunkBytes < 3 * (body.length / 4) - body.count '=' then
      fail "attachment ciphertext is too large"
    else .ok ()
  else fail "attachment ciphertext must be base64"

/-- The identity part of a `login` message. -/
def validateLogin (username userCode : String) : Except GoError Unit := do
  if username = "" then fail "username must not be empty"
  if maxUsernameSize < username.utf8ByteSize then fail "username is too long"
  if userCode = "" then fail "user code must not be empty"
  discard (normalizeUserCode userCode)

/-- `validateMessage`, one arm per frame type. -/
def validateMessage (message : Message) : Except GoError Unit :=
  if maxCommandIDSize < message.commandID.utf8ByteSize then fail "command id is too large"
  else match message.type with
  | .login => validateLogin message.username message.userCode
  | .register => fail "password registration has been removed"
  | .loginAuth => fail "password login has been removed"
  | .chat =>
    if message.crypto ≠ "" then validateOpaqueCrypto message.crypto
    else validateTextContent "chat" message.content
  | .privateChat => do
    discard (normalizeUserCode message.targetUserCode)
    if message.crypto ≠ "" then validateOpaqueCrypto message.crypto
    else validateTextContent "private chat" message.content
  | .historyRequest => do
    if message.isPrivate then discard (normalizeUserCode message.targetUserCode)
    else validateRoomName message.room
    if message.limit < 0 ∨ (maxHistoryPageSize : ℤ) < message.limit then
      fail "history page size must be between 0 and 100"
    if maxMessageSize < message.searchQuery.utf8ByteSize then
      fail "history search query must be valid UTF-8 and no longer than 65536 bytes"
  | .historyResponse =>
    if message.messages.any (fun m => m.messageID == "" || m.username == "" || m.userCode == "")
    then fail "history message identity is required" else .ok ()
  | .roomJoin | .roomCreate => validateRoomName message.room
  | .roomAction => do
    validateRoomName message.room
    if message.content ≠ "invite" ∧ message.content ≠ "remove_member" ∧
        message.content ≠ "delete" then fail "unsupported room action"
    if message.content ≠ "delete" then discard (normalizeUserCode message.targetUserCode)
  | .roomLeave | .roomsRequest | .usersRequest | .quit => .ok ()
  | .mlsKeyPackagePublish => validateOpaqueMLS "key package" message.keyPackage
  | .mlsKeyPackageFetch => do
    discard (normalizeUserCode message.targetUserCode)
    validateOptionalRoom message.room
  | .mlsGroupCommit => do
    validateMLSGroupID message.groupID
    validateOptionalRoom message.room
    if message.proposalID ≠ "" ∧ !validProposalID message.proposalID then
      fail "MLS group proposal id must be valid UTF-8 and no longer than 65536 bytes"
    validateOpaqueMLS "MLS group commit" message.commit
  | .mlsGroupProposal => do
    validateMLSGroupID message.groupID
    if !validProposalID message.proposalID then
      fail "MLS group proposal id must be valid UTF-8 and no longer than 65536 bytes"
    validateOptionalRoom message.room
    if message.action ≠ "" ∧ message.action ≠ "add" ∧ message.action ≠ "remove" then
      fail "unsupported MLS group proposal action"
    if message.action ≠ "" then discard (normalizeUserCode message.targetUserCode)
    validateOpaqueMLS "MLS group proposal" message.proposal
  | .mlsGroupWelcome => do
    validateMLSGroupID message.groupID
    discard (normalizeUserCode message.targetUserCode)
    validateOptionalRoom message.room
    validateOpaqueMLS "MLS group welcome" message.welcome
  | .mlsGroupWelcomeAccept => do
    validateMLSGroupID message.groupID
    discard (normalizeUserCode message.targetUserCode)
    if !validProposalID message.proposalID then fail "MLS welcome accept proposal id is invalid"
    if message.welcomeDigest.utf8ByteSize ≠ sha256HexSize then
      fail "MLS welcome accept digest is invalid"
    validateOptionalRoom message.room
  | .attachmentInit => do
    validateRoomName message.room
    if message.logicalSize ≤ 0 ∨ maxAttachmentLogicalBytes < message.logicalSize then
      fail "attachment logical size must be between 1 and 5368709120"
    if message.content ≠ "" then fail "attachment init must not include text content"
  | .attachmentChunk => do
    if message.uploadID = "" ∨ message.chunkIndex < 0 then
      fail "attachment chunk upload id and non-negative index are required"
    validateOpaqueAttachmentChunk message.ciphertext
    if message.cipherSHA256.utf8ByteSize ≠ sha256HexSize then
      fail "attachment chunk hash is invalid"
  | .attachmentResume =>
    if message.uploadID = "" then fail "attachment resume upload id is required" else .ok ()
  | .attachmentCommit =>
    if message.uploadID = "" then fail "attachment commit upload id is required" else .ok ()
  | .attachmentDownload =>
    if message.attachmentID = "" ∨ message.chunkIndex < 0 then
      fail "attachment download id and non-negative index are required"
    else .ok ()
  | .adminAction => do
    if message.content = "recall" then
      if message.messageID = "" then fail "message id is required"
    else if message.content = "approve_connection" ∨ message.content = "deny_connection" then
      if message.messageID = "" then fail "connection request id is required"
    else
      discard (normalizeUserCode message.targetUserCode)
      if message.content ≠ "kick" ∧ message.content ≠ "mute" then
        fail "unsupported admin action"
  | .messageRecalled =>
    if message.messageID = "" then fail "message id is required" else .ok ()
  | .usersResponse => .ok ()
  | .roomsResponse =>
    if message.rooms.all (fun room => (validateRoomName room).isOk) then .ok ()
    else fail "invalid room in rooms list"
  | .registerOk | .registerError | .loginOk | .loginError | .system | .error =>
    if message.content = "" then fail "message content must not be empty" else .ok ()
  | .offlineMessage =>
    if message.username = "" ∨ message.userCode = "" then
      fail "offline message sender is required"
    else validateTextContent "offline message" message.content
  | .deliveryReceipt | .loginPending | .connectionApprovalRequest | .connectionApprovalResult =>
    fail "unsupported message type"
  | .other name => fail ("unsupported message type: " ++ name)

/-! ### Normalized user codes -/

theorem validateUserCode_eq_ok {code : String} : validateUserCode code = .ok () ↔
    code.toList.all isAlnum = true ∧ 3 ≤ code.toList.length ∧ code.toList.length ≤ 16 := by
  constructor
  · intro h
    unfold validateUserCode fail at h
    split_ifs at h with h1 h2 h3
    have hsize := utf8ByteSize_of_alnum h3
    refine ⟨h3, ?_, ?_⟩ <;> omega
  · rintro ⟨hall, h3, h16⟩
    have hsize := utf8ByteSize_of_alnum hall
    have hne : code ≠ "" := by
      rintro rfl
      simp at h3
    unfold validateUserCode
    rw [if_neg hne, if_neg (by omega), if_pos hall]

/-- Validity of a user code does not depend on its case. -/
theorem validateUserCode_of_asciiLower_eq {a b : String} (h : asciiLower a = asciiLower b)
    (hb : validateUserCode b = .ok ()) : validateUserCode a = .ok () := by
  rw [validateUserCode_eq_ok] at hb ⊢
  have hmap : a.toList.map Char.toLower = b.toList.map Char.toLower := by
    rw [← toList_asciiLower, ← toList_asciiLower, h]
  have hlen : a.toList.length = b.toList.length := by
    simpa using congrArg List.length hmap
  have hall : a.toList.all isAlnum = b.toList.all isAlnum := by
    have h1 : ∀ s : String, s.toList.all isAlnum = (s.toList.map Char.toLower).all isAlnum := by
      intro s
      rw [List.all_map]
      congr 1
      funext c
      exact (isAlnum_toLower c).symm
    rw [h1, h1, hmap]
  rw [hall, hlen]
  exact hb

theorem normalizeUserCode_eq_ok {code norm : String} :
    normalizeUserCode code = .ok norm ↔ validateUserCode code = .ok () ∧ norm = asciiLower code := by
  unfold normalizeUserCode
  simp only [bind_eq_ok, pure, Except.pure, Except.ok.injEq]
  constructor
  · rintro ⟨⟨⟩, h, rfl⟩
    exact ⟨h, toLower_of_alnum (validateUserCode_eq_ok.1 h).1⟩
  · rintro ⟨h, rfl⟩
    exact ⟨(), h, toLower_of_alnum (validateUserCode_eq_ok.1 h).1⟩

/-- A code is valid when its lower case is. -/
theorem validateUserCode_of_asciiLower {code : String}
    (h : validateUserCode (asciiLower code) = .ok ()) : validateUserCode code = .ok () :=
  validateUserCode_of_asciiLower_eq (asciiLower_asciiLower code).symm h

theorem normalizeUserCode_ne_empty {code norm : String} (h : normalizeUserCode code = .ok norm) :
    norm ≠ "" := by
  obtain ⟨hvalid, rfl⟩ := normalizeUserCode_eq_ok.1 h
  have hlen := (validateUserCode_eq_ok.1 hvalid).2.1
  intro hempty
  have : (asciiLower code).toList.length = 0 := by rw [hempty]; rfl
  rw [toList_asciiLower, List.length_map] at this
  omega

/-- Normalizing a normalized code changes nothing. -/
theorem normalizeUserCode_idem {code norm : String} (h : normalizeUserCode code = .ok norm) :
    normalizeUserCode norm = .ok norm := by
  obtain ⟨hvalid, rfl⟩ := normalizeUserCode_eq_ok.1 h
  have hlower := asciiLower_asciiLower code
  exact normalizeUserCode_eq_ok.2 ⟨validateUserCode_of_asciiLower_eq hlower hvalid, hlower.symm⟩

/-- The validators never return a sentinel. -/
theorem normalizeUserCode_ne_sentinel {code : String} (e : GoError) (he : ∀ t, e ≠ .text t) :
    normalizeUserCode code ≠ .error e := by
  intro h
  simp only [normalizeUserCode, validateUserCode, fail] at h
  split_ifs at h <;> cases h <;> exact he _ rfl

end LanChat
