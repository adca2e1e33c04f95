import LanChat.Lib.Table
import LanChat.Message
import Mathlib.Data.List.Infix
import Mathlib.Data.List.MinMax
import Mathlib.Data.Prod.Lex
import Mathlib.Data.String.Basic

/-!
# Chat history, offline messages and accounts (`server-go/auth_store.go`)

The tables `chat_messages`, `offline_messages` and `accounts`.  Rows are kept in the order of
their `AUTOINCREMENT` ids, so `ORDER BY id` is the order of the list; `lastID` is the counter of
`chat_messages`, which never goes back.

Functions that run several statements without a transaction can fail after the first one; they
return the store next to the result.  Callers fill `CreatedAt`, so the default for an empty one
is not modelled.  The columns that nothing modelled reads (`password_hash`,
the `created_at` of accounts) are left out.
-/

namespace LanChat

open GoStrings

/-- `maxOfflineMessagesPerUser`. -/
def maxOfflineMessagesPerUser : ℕ := 100
/-- `maxHistoryRowsPerConversation`. -/
def maxHistoryRowsPerConversation : ℕ := 10000

/-- The `kind` column. -/
inductive ChatKind
  | room
  | privateChat
  deriving DecidableEq, Repr

/-- A row of `chat_messages`; an empty `crypto` stands for `NULL`. -/
structure ChatRow where
  id : ℕ
  messageID : String
  kind : ChatKind
  conversationKey : String
  room : String
  senderUsername : String
  senderCode : String
  targetCode : String
  content : String
  crypto : String
  deliveryState : String
  createdAt : String
  recalled : Bool
  deriving DecidableEq, Repr

/-- `UNIQUE(sender_code, conversation_key, message_id)`. -/
def ChatRow.key (r : ChatRow) : String × String × String :=
  (r.senderCode, r.conversationKey, r.messageID)

/-- A row of `offline_messages`. -/
structure OfflineRow where
  targetCode : String
  senderUsername : String
  senderCode : String
  content : String
  messageID : String
  createdAt : String
  deriving DecidableEq, Repr

/-- A row of `accounts`. -/
structure Account where
  username : String
  userCode : String
  deriving DecidableEq, Repr

/-- `normalized_username` and `normalized_code` are both `UNIQUE`. -/
def Account.clash (a b : Account) : Bool :=
  Table.keyClash (fun r : Account => toLower r.username) a b ||
    Table.keyClash (fun r : Account => asciiLower r.userCode) a b

/-- The row belongs to the claimed identity. -/
def Account.matches (a : Account) (username userCode : String) : Bool :=
  toLower a.username == toLower username && asciiLower a.userCode == asciiLower userCode

/-- What `chatMessageIdentity` returns. -/
structure ChatIdentity where
  kind : ChatKind
  conversationKey : String
  senderCode : String
  targetCode : String
  deriving DecidableEq, Repr

/-- The row is in the conversation. -/
def ChatRow.inConversation (r : ChatRow) (kind : ChatKind) (conversationKey : String) : Bool :=
  r.kind == kind && r.conversationKey == conversationKey

/-- The place of a row in `idx_chat_messages_search_scope`, within its conversation. -/
def ChatRow.scopeKey (r : ChatRow) : String ×ₗ ℕ := toLex (r.content, r.id)

/-- The text that replaces the content of a recalled message. -/
def recalledText : String := "消息已撤回"

/-- A row as `LoadHistory` and `getStoredMessage` render it. -/
def ChatRow.toMessage (r : ChatRow) : HistoryMessage where
  type := if r.kind = .privateChat then .privateChat else .chat
  messageID := r.messageID
  room := r.room
  username := r.senderUsername
  userCode := r.senderCode
  targetUserCode := r.targetCode
  isPrivate := r.kind == .privateChat
  content := if r.recalled then recalledText else r.content
  crypto := r.crypto
  deliveryState := r.deliveryState
  createdAt := r.createdAt
  recalled := r.recalled

/-- `HistoryQuery`. -/
structure HistoryQuery where
  userCode : String
  room : String := ""
  peerCode : String := ""
  isPrivate : Bool := false
  beforeMessageID : String := ""
  searchQuery : String := ""
  limit : ℤ := 0
  deriving DecidableEq, Repr

/-- `HistoryPage`, with the rows from which its messages are rendered. -/
structure HistoryPage where
  rows : List ChatRow
  hasMore : Bool
  deriving DecidableEq, Repr

/-- `HistoryPage.Messages`. -/
def HistoryPage.messages (p : HistoryPage) : List HistoryMessage := p.rows.map ChatRow.toMessage

/-- The chat part of the database. -/
structure ChatStore where
  messages : Table (Table.keyClash ChatRow.key)
  lastID : ℕ
  offline : Table (Table.keyClash OfflineRow.messageID)
  accounts : Table Account.clash

namespace ChatStore

/-- The database right after `initialize`. -/
def empty : ChatStore := ⟨Table.empty _, 0, Table.empty _, Table.empty _⟩

/-! ### Accounts -/

/-- `findAccount`: the first row that has the name or the code. -/
def findAccount (s : ChatStore) (username userCode : String) : Option Account :=
  s.accounts.find? fun a =>
    toLower a.username == toLower username || asciiLower a.userCode == asciiLower userCode

/-- `EnsureIdentity`. -/
def ensureIdentity (s : ChatStore) (username userCode : String) :
    Except GoError (Account × ChatStore) := do
  validateMessage { type := .login, username, userCode }
  match s.findAccount username userCode with
  | some a =>
    require (a.matches username userCode) (.text "account already exists")
    return (a, s)
  | none =>
    match s.accounts.insert? ⟨username, userCode⟩ with
    | some accounts => return (⟨username, userCode⟩, { s with accounts })
    | none => .error (.text "account already exists")

/-- `HasUserCode`. -/
def hasUserCode (s : ChatStore) (userCode : String) : Bool :=
  s.accounts.rows.any fun a => asciiLower a.userCode == asciiLower userCode

/-! ### Chat messages -/

/-- `privateConversationKey`. -/
def privateConversationKey (first second : String) : String :=
  if first < second then first ++ ":" ++ second else second ++ ":" ++ first

/-- `chatMessageIdentity`. -/
def chatMessageIdentity (message : Message) : Except GoError ChatIdentity := do
  let sender ← normalizeUserCode message.userCode
  if message.type = .privateChat then
    let target ← normalizeUserCode message.targetUserCode
    return ⟨.privateChat, privateConversationKey sender target, sender, target⟩
  else
    validateRoomName message.room
    return ⟨.room, message.room, sender, ""⟩

/-- The row of a message. -/
def chatRow (id : ℕ) (i : ChatIdentity) (message : Message) : ChatRow where
  id := id
  messageID := message.messageID
  kind := i.kind
  conversationKey := i.conversationKey
  room := message.room
  senderUsername := message.username
  senderCode := i.senderCode
  targetCode := i.targetCode
  content := message.content
  crypto := message.crypto
  deliveryState := if message.deliveryState = "" then "sent" else message.deliveryState
  createdAt := message.createdAt
  recalled := false

/-- The ids that the prune statement keeps: the newest ones of the conversation. -/
def keptIDs (rows : List ChatRow) (kind : ChatKind) (conversationKey : String) : List ℕ :=
  (((rows.filter fun r => r.inConversation kind conversationKey).map
    ChatRow.id).reverse).take maxHistoryRowsPerConversation

/-- `DELETE FROM chat_messages WHERE kind = ? AND conversation_key = ? AND id NOT IN …`. -/
def prune (s : ChatStore) (kind : ChatKind) (conversationKey : String) : ChatStore :=
  { s with
    messages := s.messages.delete fun r =>
      r.inConversation kind conversationKey &&
        !(keptIDs s.messages.rows kind conversationKey).contains r.id }

/-- What `SaveChatMessageIfNew` checks before it writes. -/
def checkChatMessage (message : Message) : Except GoError ChatIdentity := do
  require (message.messageID != "") (.text "chat message id is required")
  require (message.type == .chat || message.type == .privateChat)
    (.text "unsupported history message type")
  if message.crypto = "" then validateTextContent "chat message" message.content
  else validateOpaqueCrypto message.crypto
  chatMessageIdentity message

/-- `SaveChatMessageIfNew`: `INSERT OR IGNORE`, then a prune, which can fail on its own. -/
def saveChatMessageIfNew (s : ChatStore) (pruneFails : Bool) (message : Message) :
    Except GoError Bool × ChatStore :=
  match checkChatMessage message with
  | .error e => (.error e, s)
  | .ok i =>
    match s.messages.insert? (chatRow (s.lastID + 1) i message) with
    | none => (.ok false, s)
    | some messages =>
      let stored := { s with messages, lastID := s.lastID + 1 }
      if pruneFails then (.error (.text "prune chat history"), stored)
      else (.ok true, stored.prune i.kind i.conversationKey)

/-- `UpdateChatMessageDeliveryStateForMessage`. -/
def updateChatMessageDeliveryStateForMessage (s : ChatStore) (message : Message)
    (deliveryState : String) : Except GoError ChatStore := do
  require (message.messageID != "" && (deliveryState == "sent" || deliveryState == "delivered"))
    (.text "invalid chat delivery state")
  let i ← chatMessageIdentity message
  return { s with
    messages := s.messages.modify
      (fun r => r.messageID == message.messageID &&
        r.inConversation i.kind i.conversationKey && r.senderCode == i.senderCode)
      (fun r => { r with deliveryState }) (Table.keepsKey_keyClash fun _ => rfl) }

/-- `MarkMessageRecalled`: every row with the id; `sql.ErrNoRows` when there is none. -/
def markMessageRecalled (s : ChatStore) (messageID : String) : Except GoError ChatStore :=
  if s.messages.rows.any (fun r => r.messageID == messageID) then
    .ok { s with
      messages := s.messages.modify (fun r => r.messageID == messageID)
        (fun r => { r with recalled := true }) (Table.keepsKey_keyClash fun _ => rfl) }
  else .error .errNoRows

/-- `GetStoredMessage`: the newest row with the id. -/
def getStoredMessage (s : ChatStore) (messageID : String) : Except GoError ChatRow :=
  match s.messages.rows.reverse.find? fun r => r.messageID == messageID with
  | some r => .ok r
  | none => .error .errNoRows

/-- `GetStoredMessageForMessage`. -/
def getStoredMessageForMessage (s : ChatStore) (message : Message) : Except GoError ChatRow := do
  require (message.messageID != "") (.text "chat message id is required")
  let i ← chatMessageIdentity message
  match s.messages.find? fun r => r.messageID == message.messageID &&
    r.inConversation i.kind i.conversationKey && r.senderCode == i.senderCode with
  | some r => return r
  | none => .error .errNoRows

/-- The page size that `LoadHistory` uses. -/
def pageLimit (limit : ℤ) : ℕ :=
  if limit ≤ 0 then 50 else if (maxHistoryPageSize : ℤ) < limit then maxHistoryPageSize
  else limit.toNat

/-- The conversation a query is about. -/
def queryConversation (q : HistoryQuery) : Except GoError (ChatKind × String) := do
  let user ← normalizeUserCode q.userCode
  require (decide ((trimSpace q.searchQuery).utf8ByteSize ≤ maxMessageSize))
    (.text "history search query is too long")
  if q.isPrivate then
    let peer ← normalizeUserCode q.peerCode
    return (.privateChat, privateConversationKey user peer)
  else
    validateRoomName q.room
    return (.room, q.room)

/-- The row of `SELECT id … WHERE message_id = ? AND kind = ? AND conversation_key = ?`.  Rows of
several senders may have the id, and the statement asks for no order: SQLite goes through
`idx_chat_messages_search_scope`, so the row with the least content comes first. -/
def cursorRow (s : ChatStore) (kind : ChatKind) (conversationKey messageID : String) :
    Option ChatRow :=
  (s.messages.rows.filter fun r => r.inConversation kind conversationKey &&
    r.messageID == messageID).argmin ChatRow.scopeKey

/-- The rows before the cursor: all of the conversation without one, none when the cursor names
no row of the conversation. -/
def rowsBefore (s : ChatStore) (kind : ChatKind) (conversationKey beforeMessageID : String) :
    List ChatRow :=
  let rows := s.messages.rows.filter fun r => r.inConversation kind conversationKey
  if beforeMessageID = "" then rows
  else match s.cursorRow kind conversationKey beforeMessageID with
    | some r => rows.filter fun x => x.id < r.id
    | none => []

/-- `LoadHistory`: the newest rows before the cursor that match, oldest first. -/
def loadHistory (s : ChatStore) (q : HistoryQuery) : Except GoError HistoryPage := do
  let (kind, conversationKey) ← queryConversation q
  let search := trimSpace q.searchQuery
  let found := (s.rowsBefore kind conversationKey q.beforeMessageID).filter fun r =>
    search == "" || decide (search.toList <:+: r.content.toList)
  let limit := pageLimit q.limit
  return ⟨(found.reverse.take limit).reverse, decide (limit < found.length)⟩

/-! ### Offline messages -/

/-- The newest `maxOfflineMessagesPerUser` rows of a target stay. -/
def pruneOffline (s : ChatStore) (target : String) : ChatStore :=
  let kept := (((s.offline.rows.filter fun r => r.targetCode == target).map
    OfflineRow.messageID).reverse).take maxOfflineMessagesPerUser
  { s with offline := s.offline.delete fun r => r.targetCode == target && !kept.contains r.messageID }

/-- `SaveOfflineMessage`: `INSERT`, then a prune, which can fail on its own. -/
def saveOfflineMessage (s : ChatStore) (pruneFails : Bool) (targetCode : String)
    (message : Message) : Except GoError Unit × ChatStore :=
  match validateTextContent "offline message" message.content with
  | .error e => (.error e, s)
  | .ok _ =>
    match s.offline.insert? ⟨asciiLower targetCode, message.username, message.userCode,
        message.content, message.messageID, message.createdAt⟩ with
    | none => (.error (.text "save offline message"), s)
    | some offline =>
      if pruneFails then (.error (.text "prune offline messages"), { s with offline })
      else (.ok (), { s with offline }.pruneOffline (asciiLower targetCode))

/-- `TakeOfflineMessages`. -/
def takeOfflineMessages (s : ChatStore) (targetCode : String) : List Message × ChatStore :=
  let taken := s.offline.rows.filter fun r => r.targetCode == asciiLower targetCode
  (taken.map fun r =>
    { type := .offlineMessage, username := r.senderUsername, userCode := r.senderCode,
      content := r.content, messageID := r.messageID, createdAt := r.createdAt,
      targetUserCode := targetCode },
    { s with offline := s.offline.delete fun r => r.targetCode == asciiLower targetCode })

/-- `DeleteOfflineMessage`. -/
def deleteOfflineMessage (s : ChatStore) (messageID : String) : Except GoError ChatStore := do
  require (messageID != "") (.text "offline message id is required")
  return { s with offline := s.offline.delete fun r => r.messageID == messageID }

end ChatStore

end LanChat
