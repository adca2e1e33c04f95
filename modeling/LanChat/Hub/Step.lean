import LanChat.Hub.Attachments
import LanChat.Hub.Messages
import LanChat.Hub.MlsHandlers
import LanChat.Hub.Rooms
import LanChat.Lib.Run

/-!
# The server as an event machine (`server-go/hub.go`, `client.go`, `main.go`)

One event is one pass of the Hub's `select`, or one action of another goroutine: a login, the
replay after it, a frame read from a socket, a message taken by the write pump, the history
worker, the hourly clean-up, a restart on the same database.

A frame is read and handled in one event.  The two flags that its read pump looked at, the rate
limiter's verdict and `Muted`, come with the event, since the Hub may have moved on between the
reading and the handling.
-/

namespace LanChat

namespace Hub

open GoStrings Registry

/-- What happens in one event. -/
inductive Input
  | login (username userCode : String)
  | replay (c : ClientID)
  | frame (c : ClientID) (message : Message) (limited muted : Bool)
  | unregister (c : ClientID)
  | writePump (c : ClientID)
  | takeHistoryJob
  | runHistoryJob
  | historyResult
  | connectionApproval (username userCode normalizedCode remoteAddress : String)
  | cancelConnectionApproval (id : String)
  | cleanup
  | restart (adminCode : String)
  deriving DecidableEq, Repr

/-- An event: its input and what the step draws from outside. -/
structure Event where
  input : Input
  env : Env := {}

/-- The client object belongs to this process. -/
def alive (h : Hub) (c : ClientID) : Bool :=
  decide (h.registry.boot ≤ c ∧ c < h.registry.objects.length)

/-- The read pump of the session is up to its next frame. -/
def readsFrames (h : Hub) (c : ClientID) : Bool :=
  h.alive c && (h.registry.client? c).any fun o => o.stage == .reading && o.replay.isEmpty

/-- A login that has been approved: with a store the identity is persisted first. -/
def login (h : Hub) (env : Env) (username userCode : String) : Hub :=
  if !(validateMessage { type := .login, username, userCode }).isOk then h
  else if h.offlineStore then
    match env.call .ensureIdentity (h.db.chat.ensureIdentity username userCode) with
    | .error _ => h
    | .ok (account, chat) =>
      ({ h with db := { h.db with chat } }.handleRegisterRequest env
        (newClient account.username account.userCode (asciiLower account.userCode) true)).2
  else (h.handleRegisterRequest env (newClient username userCode (asciiLower userCode) false)).2

/-- The pending welcomes as the login goroutine sends them. -/
def welcomeReplay (p : MlsStore.PendingMlsWelcome) : Message :=
  { type := .mlsGroupWelcome, groupID := p.groupID, room := p.room, epoch := p.epoch.toNat.toUInt64
    proposalID := p.proposalID, welcomeDigest := p.welcomeDigest, targetUserCode := p.targetCode
    welcome := p.welcome }

/-- The next thing the login goroutine does before it reads frames. -/
def replay (h : Hub) (env : Env) (c : ClientID) : Hub :=
  match h.registry.client? c with
  | none => h
  | some obj =>
    match obj.replay with
    | message :: rest =>
      if obj.sendClosed then
        h.onRegistry fun r => (r.modifyClient c fun o => { o with stage := .ended, replay := [] })
          |>.unregisterClient env c
      else if obj.send.length < clientSendBufferSize then
        h.onRegistry fun r => (r.modifyClient c fun o => { o with replay := rest }).enqueue c message
      else h
    | [] =>
      match obj.stage with
      | .offline =>
        let taken := if env.fails .takeOfflineMessages then ([], h.db.chat)
          else h.db.chat.takeOfflineMessages obj.userCode
        { h with
          db := { h.db with chat := taken.2 }
          registry := h.registry.modifyClient c fun o =>
            { o with stage := .welcomes, replay := taken.1 } }
      | .welcomes =>
        let pending := match env.call .pendingMLSWelcomes
            (h.db.mls.pendingMLSWelcomes obj.userCode) with
          | .ok welcomes => welcomes.map welcomeReplay
          | .error _ => []
        h.onRegistry fun r => r.modifyClient c fun o =>
          { o with stage := .reading, replay := pending }
      | .reading | .ended => h

/-- `writePump` takes the next message of the send queue. -/
def writePump (h : Hub) (c : ClientID) : Hub :=
  h.onRegistry fun r => r.modifyClient c fun o => { o with send := o.send.tail }

/-- The error text of a frame that does not validate; a chat's error names its ids. -/
def invalidFrameText (message : Message) : String :=
  match message.type with
  | .chat => "Invalid chat content"
  | .mlsKeyPackagePublish => "Invalid MLS key package"
  | .mlsKeyPackageFetch => "Invalid MLS key package target"
  | .mlsGroupCommit => "Invalid MLS group commit"
  | .mlsGroupProposal => "Invalid MLS group proposal"
  | .mlsGroupWelcome => "Invalid MLS group welcome"
  | .mlsGroupWelcomeAccept => "Invalid MLS welcome accept"
  | .attachmentInit =>
    if maxAttachmentLogicalBytes < message.logicalSize then "attachment exceeds the 5 GiB limit"
    else "Invalid attachment initialization"
  | .attachmentChunk => "Invalid attachment chunk"
  | .attachmentResume => "Invalid attachment resume"
  | .attachmentCommit => "Invalid attachment commit"
  | .attachmentDownload => "Invalid attachment download"
  | .roomJoin => "Invalid room name"
  | .roomCreate => "Invalid channel name"
  | .roomAction => "Invalid channel action"
  | .historyRequest => "Invalid history request"
  | .adminAction => "Invalid administrator action"
  | _ => "Expected chat message"

/-- The request goes on only when `validateMessage` accepts the frame; the identifiers that the
error carries differ between the frame types. -/
def validated (h : Hub) (c : ClientID) (message : Message) (messageID commandID : String)
    (handle : Hub → Hub) : Hub :=
  if (validateMessage message).isOk then handle h
  else h.deliverError c (invalidFrameText message) messageID commandID

/-- `normalizeUserCode(code)` with its error dropped. -/
def normalizedOrEmpty (code : String) : String :=
  match normalizeUserCode code with
  | .ok code => code
  | .error _ => ""

/-- The switch of `readPump`, for the client object of the connection. -/
def dispatch (h : Hub) (platform : Platform) (env : Env) (c : ClientID) (obj : Client)
    (m : Message) (muted : Bool) : Hub :=
  match m.type with
  | .chat =>
    if muted then h.deliverError c "You are muted" m.messageID m.commandID
    else h.validated c m m.messageID m.commandID fun h =>
      h.broadcastMessage platform env { m with username := obj.username, userCode := obj.userCode }
  | .privateChat =>
    match normalizeUserCode m.targetUserCode with
    | .error _ => h.deliverError c "Invalid target user code" m.messageID m.commandID
    | .ok target =>
      if !(validateTextContent "private chat" m.content).isOk then
        h.deliverError c "Invalid private chat content" m.messageID m.commandID
      else h.handlePrivateMessage platform env c target m.content m.messageID
  | .mlsKeyPackagePublish => h.validated c m "" m.commandID fun h =>
      h.handleMLSKeyPackagePublish env c m.keyPackage m.commandID
  | .mlsKeyPackageFetch => h.validated c m "" m.commandID fun h =>
      h.handleMLSKeyPackageFetch env c (normalizedOrEmpty m.targetUserCode) m.room m.commandID
  | .mlsGroupCommit => h.validated c m "" m.commandID fun h =>
      h.handleMLSGroupCommit env c ⟨m.groupID, m.room, m.epoch, m.commit, m.proposalID, m.commandID⟩
  | .mlsGroupProposal => h.validated c m "" m.commandID fun h =>
      h.handleMLSGroupProposal platform env c ⟨m.groupID, m.room, m.epoch, m.proposalID, m.action,
        m.targetUserCode, m.proposal, m.commandID⟩
  | .mlsGroupWelcome => h.validated c m "" m.commandID fun h =>
      h.handleMLSGroupWelcome platform env c ⟨m.groupID, m.room, m.epoch, m.proposalID,
        m.welcomeDigest, normalizedOrEmpty m.targetUserCode, m.welcome, m.commandID⟩
  | .mlsGroupWelcomeAccept => h.validated c m "" m.commandID fun h =>
      h.handleMLSGroupWelcomeAccept env c ⟨m.groupID, m.room, m.epoch, m.proposalID,
        m.welcomeDigest, normalizedOrEmpty m.targetUserCode, m.commandID⟩
  | .attachmentInit => h.validated c m "" m.commandID fun h =>
      h.handleAttachmentInit platform env c m.room m.logicalSize m.commandID
  | .attachmentChunk => h.validated c m "" m.commandID fun h =>
      h.handleAttachmentChunk platform env c m.uploadID m.chunkIndex m.ciphertext m.cipherSHA256
        m.commandID
  | .attachmentResume => h.validated c m "" m.commandID fun h =>
      h.handleAttachmentResume platform env c m.uploadID m.commandID
  | .attachmentCommit => h.validated c m "" m.commandID fun h =>
      h.handleAttachmentCommit platform env c m.uploadID m.commandID
  | .attachmentDownload => h.validated c m "" m.commandID fun h =>
      h.handleAttachmentDownload platform env c m.attachmentID m.chunkIndex m.commandID
  | .usersRequest => h.handleRequestUsers c
  | .roomJoin => h.validated c m "" "" fun h => h.handleRoomJoin env c m.room
  | .roomCreate => h.validated c m "" "" fun h => h.handleRoomCreate env c m.room m.isPrivate
  | .roomAction => h.validated c m "" "" fun h =>
      h.handleRoomAction env c m.content m.room m.targetUserCode
  | .roomLeave => h.handleRoomLeave env c
  | .roomsRequest => h.handleRequestRooms c
  | .historyRequest => h.validated c m "" "" fun h => h.handleHistoryRequest c m
  | .adminAction => h.validated c m "" "" fun h =>
      h.handleAdminAction env c m.content m.targetUserCode m.messageID m.commandID
  | .quit => h.onRegistry fun r => r.unregisterClient env c
  | _ => h.deliverError c "Expected chat message"

/-- One turn of `readPump`; a frame whose command id is too large ends the connection. -/
def readPump (h : Hub) (platform : Platform) (env : Env) (c : ClientID) (message : Message)
    (limited muted : Bool) : Hub :=
  match h.registry.client? c with
  | none => h
  | some obj =>
    if !(h.alive c && obj.stage == .reading && obj.replay.isEmpty) then h
    else if maxCommandIDSize < message.commandID.utf8ByteSize then
      h.onRegistry fun r => r.unregisterClient env c
    else if limited ∧ message.type ≠ .attachmentChunk ∧ message.type ≠ .attachmentDownload ∧
        message.type ≠ .quit then
      h.deliverError c "Rate limit exceeded; please slow down" message.messageID message.commandID
    else h.dispatch platform env c obj message muted

/-- One event of the server. -/
def step (platform : Platform) (h : Hub) (e : Event) : Hub :=
  match e.input with
  | .login username userCode => h.login e.env username userCode
  | .replay c => if h.alive c then h.replay e.env c else h
  | .frame c message limited muted => h.readPump platform e.env c message limited muted
  | .unregister c => if h.alive c then h.onRegistry fun r => r.unregisterClient e.env c else h
  | .writePump c => if h.alive c then h.writePump c else h
  | .takeHistoryJob => h.takeHistoryJob
  | .runHistoryJob => h.runHistoryJob e.env
  | .historyResult => h.handleHistoryResult
  | .connectionApproval username userCode normalizedCode remoteAddress =>
    h.handleConnectionApproval platform e.env username userCode normalizedCode remoteAddress
  | .cancelConnectionApproval id => h.cancelConnectionApproval e.env id
  | .cleanup => h.withAttachments
      (h.db.attachments.cleanupExpiredAttachmentUploads platform.rfc3339 e.env.now)
  | .restart adminCode => boot h.registry h.db adminCode h.offlineStore

/-! ### A concrete platform -/

/-- The library functions at the arguments they get in the concrete runs of this development. -/
def samplePlatform : Platform where
  sha256Hex payload :=
    if payload = "cHJvcG9zYWw=" then
      "82026727349f971e1aa8ef9204f2b55397294470943e58b95571d0cbb78e6c4b"
    else if payload = "d2VsY29tZQ==" then
      "8c0b467830b46f0eca9d60939be32dbfeb4a15ed7eb91a5dc9a45a70a5626ad5"
    else ""
  sha256Bytes bytes :=
    if bytes = [97, 98, 99] then
      "ba7816bf8f01cfea414140de5dae2223b00361a396177a9cb410ff61f20015ad"
    else ""
  rfc3339 _ := "1970-01-01T00:00:00Z"

/-- A login and the two replay steps after it, with nothing to replay. -/
def sessionEvents (c : ClientID) (username userCode : String) : List Event :=
  [⟨.login username userCode, {}⟩, ⟨.replay c, {}⟩, ⟨.replay c, {}⟩]

/-- A frame that neither the rate limiter nor a mute stops. -/
def frameEvent (c : ClientID) (message : Message) : Event := ⟨.frame c message false false, {}⟩

end Hub

end LanChat
