import LanChat.Store.Attachment
import LanChat.Store.Chat
import LanChat.Store.Mls
import Mathlib.Data.List.AList

/-!
# The Hub's state and its deliveries (`server-go/hub.go`)

The Hub goroutine owns all state; a `*Client` is an index into `Registry.objects`, the client
objects ever registered, so two clients are the same exactly when their indexes are.  The send
channel of a client is the list `send` of at most `clientSendBufferSize` messages.

* `Registry`: who is connected, which codes and rooms they hold, their queues.  Every delivery
  changes only this part.  `sent` logs each message put into a send queue, oldest first;
* `Hub`: the registry, the room definitions, the in-memory message records, the pending approvals,
  the history queues, and the database;
* `Env`: what a step draws from outside, that is the clock, fresh ids, the order in which `range`
  visits a map, and which database calls fail.

Sockets are not modelled: a closed connection shows as an `unregister` event.
-/

namespace LanChat

open GoStrings

/-- `clientSendBufferSize`. -/
def clientSendBufferSize : ℕ := 256
/-- `defaultRoomName`. -/
def defaultRoomName : String := "lobby"
/-- The capacity of `HistoryJobs` and of `HistoryResults`. -/
def historyQueueSize : ℕ := 32

/-- A `*Client`. -/
abbrev ClientID := ℕ

/-- What the login goroutine does after `login_ok`: it replays offline messages, then pending
welcomes, and then reads frames; a send on a closed channel ends it. -/
inductive LoginStage
  | offline
  | welcomes
  | reading
  | ended
  deriving DecidableEq, Repr

/-- `Client`; `replay` holds what the login goroutine still has to put into the send queue. -/
structure Client where
  username : String
  userCode : String
  normalizedCode : String
  accountBacked : Bool
  isAdmin : Bool := false
  muted : Bool := false
  room : String := defaultRoomName
  send : List Message := []
  sendClosed : Bool := false
  stage : LoginStage := .reading
  replay : List Message := []
  deriving DecidableEq, Repr

/-- `RoomDefinition`; `Name` is the key it is stored under. -/
structure RoomDefinition where
  ownerCode : String := ""
  isPrivate : Bool := false
  allowed : List String := []
  deriving DecidableEq, Repr

/-- `MessageRecord`. -/
structure MessageRecord where
  authorCode : String
  recipients : List String
  offlineMessageID : String := ""
  recalled : Bool := false
  deriving DecidableEq, Repr

/-- `pendingConnectionApproval`. -/
structure PendingApproval where
  username : String
  userCode : String
  normalizedCode : String
  remoteAddress : String
  createdAt : String
  deriving DecidableEq, Repr

/-- `historyJob`. -/
structure HistoryJob where
  client : ClientID
  room : String := ""
  targetCode : String := ""
  isPrivate : Bool := false
  query : HistoryQuery
  deriving DecidableEq, Repr

/-- `historyResult`. -/
structure HistoryResult where
  job : HistoryJob
  page : Except GoError HistoryPage

/-- The database that survives a restart. -/
structure Database where
  mls : MlsStore
  chat : ChatStore
  attachments : AttachmentStore

/-- A fresh database. -/
def Database.empty : Database := ⟨MlsStore.empty, ChatStore.empty, AttachmentStore.empty⟩

/-- The store calls that can fail on their own. -/
inductive DbCall
  | ensureIdentity | takeOfflineMessages | pendingMLSWelcomes | hasUserCode
  | saveChatMessage | pruneChatMessages | getStoredMessage | getStoredMessageForMessage
  | updateDeliveryState | markMessageRecalled | deleteOfflineMessage | saveOfflineMessage
  | pruneOfflineMessages | loadHistory | publishMLSKeyPackage | fetchMLSKeyPackage
  | mlsCommit | mlsProposal | mlsWelcome | mlsControlState | mlsAccept
  | initializeAttachment | loadAttachmentUpload | storeAttachmentChunk | resumeAttachmentUpload
  | commitAttachmentUpload | commitAttachmentTransaction | attachmentRoom | readAttachmentChunk
  deriving DecidableEq, Repr

/-- The library functions that the server calls and the model does not define. -/
structure Platform where
  /-- The hexadecimal SHA-256 digest of a text's bytes. -/
  sha256Hex : String → String
  /-- The hexadecimal SHA-256 digest of bytes. -/
  sha256Bytes : List UInt8 → String
  /-- The RFC 3339 text of an instant. -/
  rfc3339 : ℕ → String

/-- What one step of the Hub draws from outside. -/
structure Env where
  now : ℕ := 0
  fails : DbCall → Bool := fun _ => false
  clientRank : ClientID → ℕ := id
  textRank : String → ℕ := fun _ => 0
  attachmentID : String := ""
  uploadID : String := ""

namespace Env

/-- The order in which `range` visits a set of clients. -/
def visit (env : Env) (clients : List ClientID) : List ClientID :=
  clients.insertionSort fun a b => env.clientRank a ≤ env.clientRank b

/-- The order in which `range` visits a set of texts. -/
def visitTexts (env : Env) (texts : List String) : List String :=
  texts.insertionSort fun a b => env.textRank a ≤ env.textRank b

/-- A store call that the database may refuse. -/
def call {α : Type} (env : Env) (c : DbCall) (x : Except GoError α) : Except GoError α :=
  if env.fails c then .error (.text "database failure") else x

/-- A store call of the attachment part that the database may refuse. -/
def callAttachment {α : Type} (env : Env) (c : DbCall) (x : Except AttachmentError α) :
    Except AttachmentError α :=
  if env.fails c then .error (.text "database failure") else x

end Env

/-! ### The registry -/

/-- Connected clients, their codes, rooms and queues.  Objects below `boot` belong to an earlier
process. -/
structure Registry where
  objects : List Client
  boot : ℕ
  clients : List ClientID
  activeCodes : AList fun _ : String => ClientID
  usedCodes : List String
  rooms : AList fun _ : String => List ClientID
  sent : List (ClientID × Message)

namespace Registry

/-- No client, and no room that has members. -/
def empty : Registry := ⟨[], 0, [], ∅, [], ∅, []⟩

/-- The client object. -/
def client? (r : Registry) (c : ClientID) : Option Client := r.objects[c]?

/-- A write to the client object. -/
def modifyClient (r : Registry) (c : ClientID) (f : Client → Client) : Registry :=
  { r with objects := r.objects.modify c f }

/-- `h.Clients[c]`. -/
def isConnected (r : Registry) (c : ClientID) : Bool := r.clients.contains c

/-- `h.Rooms[room]`. -/
def members (r : Registry) (room : String) : List ClientID := (r.rooms.lookup room).getD []

/-- `h.Rooms[room][c]`. -/
def inRoom (r : Registry) (room : String) (c : ClientID) : Bool := (r.members room).contains c

/-- `h.ActiveCodes[code]`. -/
def active? (r : Registry) (code : String) : Option ClientID := r.activeCodes.lookup code

/-- `roomClients`. -/
def roomClients (r : Registry) (room : String) : List ClientID :=
  if room = "" then r.clients else r.members room

/-- `addToRoom`. -/
def addToRoom (r : Registry) (c : ClientID) (room : String) : Registry :=
  { r with rooms := r.rooms.insert room ((r.members room).insert c) }

/-- The rooms after `c` has left `room`; an empty room other than the lobby disappears. -/
def roomsWithout (r : Registry) (room : String) (c : ClientID) :
    AList fun _ : String => List ClientID :=
  match r.rooms.lookup room with
  | none => r.rooms
  | some members =>
    if members.filter (· ≠ c) = [] ∧ room ≠ defaultRoomName then r.rooms.erase room
    else r.rooms.insert room (members.filter (· ≠ c))

/-- `removeFromRoom`. -/
def removeFromRoom (r : Registry) (c : ClientID) : Registry :=
  match r.client? c with
  | none => r
  | some obj => if obj.room = "" then r else { r with rooms := r.roomsWithout obj.room c }

/-- `client.Room = room`. -/
def setRoom (r : Registry) (c : ClientID) (room : String) : Registry :=
  r.modifyClient c fun obj => { obj with room }

/-- `closeSend`. -/
def closeSend (r : Registry) (c : ClientID) : Registry :=
  r.modifyClient c fun obj => { obj with sendClosed := true }

/-- The code of a client that goes away is free again; an account keeps its used mark. -/
def releaseCode (r : Registry) (c : ClientID) (obj : Client) : Registry :=
  if obj.normalizedCode = "" then r
  else
    { r with
      activeCodes :=
        if r.activeCodes.lookup obj.normalizedCode = some c then
          r.activeCodes.erase obj.normalizedCode
        else r.activeCodes
      usedCodes :=
        if obj.accountBacked then r.usedCodes
        else r.usedCodes.filter (· ≠ obj.normalizedCode) }

/-- `removeClient`. -/
def removeClient (r : Registry) (c : ClientID) : Registry :=
  match r.client? c with
  | none => r
  | some obj =>
    (({ r with clients := r.clients.filter (· ≠ c) }).removeFromRoom c).releaseCode c obj

/-- `removeSlowClient`. -/
def removeSlowClient (r : Registry) (c : ClientID) : Registry := (r.removeClient c).closeSend c

/-- A message goes into the send queue of a client. -/
def enqueue (r : Registry) (c : ClientID) (message : Message) : Registry :=
  { r.modifyClient c (fun obj => { obj with send := obj.send ++ [message] }) with
    sent := r.sent ++ [(c, message)] }

/-- The send queue of a client has a free place. -/
def hasSpace (r : Registry) (c : ClientID) : Bool :=
  (r.client? c).any fun obj => decide (obj.send.length < clientSendBufferSize)

/-- `deliver`: a client that is not connected gets nothing, one whose queue is full is removed. -/
def deliver (r : Registry) (c : ClientID) (message : Message) : Registry × Bool :=
  if r.isConnected c then
    if r.hasSpace c then (r.enqueue c message, true) else (r.removeSlowClient c, false)
  else (r, false)

/-- `deliver` for its effect only. -/
def tell (r : Registry) (c : ClientID) (message : Message) : Registry := (r.deliver c message).1

/-- A message to several clients, in the given order. -/
def tellAll (r : Registry) (clients : List ClientID) (message : Message) : Registry :=
  clients.foldl (fun r c => r.tell c message) r

/-- `deliverError`. -/
def deliverError (r : Registry) (c : ClientID) (content : String) (messageID : String := "")
    (commandID : String := "") : Registry :=
  r.tell c { type := .error, messageID, commandID, content }

/-- `presenceMessage`. -/
def presenceMessage (obj : Client) (suffix : String) : String :=
  obj.username ++ "#" ++ obj.userCode ++ " " ++ suffix

/-- `broadcastSystemMessageToRoom`. -/
def broadcastSystemMessageToRoom (r : Registry) (env : Env) (room content : String) : Registry :=
  if content = "" then r
  else r.tellAll (env.visit (r.members room)) { type := .system, room, content }

/-- `unregisterClient`, always with its leave broadcast. -/
def unregisterClient (r : Registry) (env : Env) (c : ClientID) : Registry :=
  match r.client? c with
  | none => r
  | some obj =>
    if r.isConnected c then
      ((r.removeClient c).broadcastSystemMessageToRoom env obj.room
        (presenceMessage obj "left the chat")).closeSend c
    else r

/-- `recipientCodes`. -/
def recipientCodes (r : Registry) (clients : List ClientID) : List String :=
  clients.filterMap fun c => (r.client? c).bind fun obj =>
    if obj.normalizedCode = "" then none else some obj.normalizedCode

/-- A client moves: `removeFromRoom`, `client.Room = room`, `addToRoom`. -/
def moveTo (r : Registry) (c : ClientID) (room : String) : Registry :=
  ((r.removeFromRoom c).setRoom c room).addToRoom c room

/-- The tail of `handleRoomJoin` and `handleRoomLeave`: the old room is told, the client moves,
the new room is told. -/
def changeRoom (r : Registry) (env : Env) (c : ClientID) (obj : Client) (room : String) :
    Registry :=
  ((r.broadcastSystemMessageToRoom env obj.room
    (presenceMessage obj ("left room " ++ obj.room))).moveTo c room).broadcastSystemMessageToRoom
      env room (presenceMessage obj ("joined room " ++ room))

end Registry

/-! ### The Hub -/

/-- `Hub`; `offlineStore` says whether `OfflineStore` is set.  `inHand` is the job that the history
worker is running, `decisions` the answers sent to waiting logins. -/
structure Hub where
  registry : Registry
  roomDefinitions : AList fun _ : String => RoomDefinition
  messageRecords : AList fun _ : String => MessageRecord
  nextMessageID : UInt64
  approvals : AList fun _ : String => PendingApproval
  nextApprovalID : UInt64
  decisions : List (String × Bool)
  historyJobs : List HistoryJob
  inHand : Option HistoryJob
  historyResults : List HistoryResult
  adminCode : String
  offlineStore : Bool
  db : Database

namespace Hub

/-- The definitions of a new Hub: the lobby alone. -/
def initialRooms : AList fun _ : String => RoomDefinition :=
  (∅ : AList fun _ : String => RoomDefinition).insert defaultRoomName {}

/-- `NewHub` on a database, after the earlier processes that `registry` remembers. -/
def boot (registry : Registry) (db : Database) (adminCode : String) (offlineStore : Bool) : Hub where
  registry := { Registry.empty with
    objects := registry.objects, boot := registry.objects.length, sent := registry.sent }
  roomDefinitions := initialRooms
  messageRecords := ∅
  nextMessageID := 0
  approvals := ∅
  nextApprovalID := 0
  decisions := []
  historyJobs := []
  inHand := none
  historyResults := []
  adminCode := toLower adminCode
  offlineStore := offlineStore
  db := db

/-- The first start, on an empty database. -/
def start (adminCode : String) (offlineStore : Bool) : Hub :=
  boot Registry.empty Database.empty adminCode offlineStore

/-- A step that only delivers. -/
def onRegistry (h : Hub) (f : Registry → Registry) : Hub := { h with registry := f h.registry }

/-- `h.deliver` for its effect only. -/
def tell (h : Hub) (c : ClientID) (message : Message) : Hub :=
  h.onRegistry fun r => r.tell c message

/-- `h.deliverError`. -/
def deliverError (h : Hub) (c : ClientID) (content : String) (messageID : String := "")
    (commandID : String := "") : Hub :=
  h.onRegistry fun r => r.deliverError c content messageID commandID

/-- `canJoinRoom` and `canViewRoom`. -/
def canJoinRoom (obj : Client) (room : RoomDefinition) : Bool :=
  !room.isPrivate || obj.isAdmin || room.allowed.contains obj.normalizedCode

/-- `canManageRoom`. -/
def canManageRoom (obj : Client) (room : RoomDefinition) : Bool :=
  obj.isAdmin || (room.ownerCode != "" && room.ownerCode == obj.normalizedCode)

/-- `recordMessage`. -/
def recordMessage (h : Hub) (message : Message) (recipients : List String)
    (offlineMessageID : String) : Hub :=
  if message.messageID = "" then h
  else
    let authorCode := match normalizeUserCode message.userCode with
      | .ok code => code
      | .error _ => ""
    { h with
      messageRecords := h.messageRecords.insert message.messageID
        { authorCode, recipients, offlineMessageID } }

end Hub

end LanChat
