import LanChat.Hub.State

/-!
# Chats, private chats and history (`server-go/hub.go`)

`broadcastMessage` and `handlePrivateMessage` store a message, remember who may recall it and put
it into the send queues; the history path hands a query to the worker and forwards its answer.
-/

namespace LanChat

namespace Hub

open GoStrings Registry

/-- `isLegacyGeneratedMessageID`. -/
def isLegacyGeneratedMessageID (messageID : String) : Bool := parsesUint messageID

/-- The sender asked for a receipt: it chose an id that no counter makes. -/
def deliveryTracking (messageID : String) : Bool :=
  messageID != "" && !isLegacyGeneratedMessageID messageID

/-- The id a message goes under, and the counter after it: the client's own id, else the next
number. -/
def assignMessageID (h : Hub) (messageID : String) : String × Hub :=
  if messageID = "" then
    (formatUint (h.nextMessageID + 1), { h with nextMessageID := h.nextMessageID + 1 })
  else (messageID, h)

/-- `SaveChatMessageIfNew` on the Hub's store. -/
def saveChatMessage (h : Hub) (env : Env) (message : Message) : Except GoError Bool × Hub :=
  if env.fails .saveChatMessage then (.error (.text "database failure"), h)
  else
    let saved := h.db.chat.saveChatMessageIfNew (env.fails .pruneChatMessages) message
    (saved.1, { h with db := { h.db with chat := saved.2 } })

/-- The receipt a sender gets. -/
def receipt (messageID state : String) : Message :=
  { type := .deliveryReceipt, messageID, content := state, deliveryState := state }

/-- What a retry of a stored message gets: the receipt again, when the sender asked for one. -/
def answerRetry (h : Hub) (env : Env) (sender : Option ClientID) (tracking : Bool)
    (message : Message) : Hub :=
  match sender with
  | none => h
  | some c =>
    if !tracking then h
    else match env.call .getStoredMessageForMessage
        (h.db.chat.getStoredMessageForMessage message) with
      | .error _ => h.deliverError c "Failed to load delivery receipt" message.messageID
      | .ok stored => h.tell c (receipt message.messageID stored.deliveryState)

/-- `UpdateChatMessageDeliveryStateForMessage` to `delivered`; `none` when it failed. -/
def markDelivered (h : Hub) (env : Env) (message : Message) : Option Hub :=
  if !h.offlineStore then some h
  else match env.call .updateDeliveryState
      (h.db.chat.updateChatMessageDeliveryStateForMessage message "delivered") with
    | .error _ => none
    | .ok chat => some { h with db := { h.db with chat } }

/-- The copy that goes out: without a receipt it carries neither state nor time. -/
def wireMessage (tracking : Bool) (message : Message) : Message :=
  if tracking then message else { message with deliveryState := "", createdAt := "" }

/-- Deliver to several clients and say whether one other than the sender took it. -/
def deliverToPeers (r : Registry) (sender : Option ClientID) (message : Message) :
    List ClientID → Registry × Bool
  | [] => (r, false)
  | c :: clients =>
    let (r', ok) := r.deliver c message
    let (r'', any) := deliverToPeers r' sender message clients
    (r'', (ok && sender != some c) || any)

/-- The second half of `broadcastMessage`, once the message is stored. -/
def relayChat (h : Hub) (env : Env) (sender : Option ClientID) (room : String) (tracking : Bool)
    (message : Message) : Hub :=
  let h := h.recordMessage message (h.registry.recipientCodes (h.registry.roomClients room)) ""
  let (r, delivered) := deliverToPeers h.registry sender (wireMessage tracking message)
    (env.visit (h.registry.roomClients room))
  let h := { h with registry := r }
  match sender with
  | none => h
  | some c =>
    if !(tracking && message.type == .chat) then h
    else if !delivered then h.tell c (receipt message.messageID "sent")
    else match h.markDelivered env message with
      | none => h.deliverError c "Failed to update delivery state" message.messageID
      | some h => h.tell c (receipt message.messageID "delivered")

/-- The session that sends under a user code, and its room. -/
def senderOf (h : Hub) (userCode : String) : Option ClientID :=
  match normalizeUserCode userCode with
  | .ok code => h.registry.active? code
  | .error _ => none

/-- The room a message goes to: that of the sending session, whatever the message says. -/
def senderRoom (h : Hub) (sender : Option ClientID) : String :=
  match sender.bind h.registry.client? with
  | some obj => obj.room
  | none => ""

/-- The rest of `broadcastMessage`, once the message has an id. -/
def publishChat (h : Hub) (platform : Platform) (env : Env) (tracking : Bool) (message : Message) :
    Hub :=
  let sender := h.senderOf message.userCode
  let room := h.senderRoom sender
  if !h.offlineStore then h.relayChat env sender room tracking message
  else
    let persisted := { message with
      room, createdAt := platform.rfc3339 env.now, deliveryState := "sent" }
    match h.saveChatMessage env persisted with
    | (.error _, h) =>
      match h.registry.active? (asciiLower message.userCode) with
      | some c => h.deliverError c "Failed to save message history" message.messageID
      | none => h
    | (.ok false, h) => h.answerRetry env sender tracking persisted
    | (.ok true, h) => h.relayChat env sender room tracking persisted

theorem publishChat_stored (platform : Platform) (env : Env) (tracking : Bool) (message : Message)
    {h : Hub} (hstore : h.offlineStore = true) {persisted : Message}
    (hpersisted : persisted = { message with
      room := h.senderRoom (h.senderOf message.userCode)
      createdAt := platform.rfc3339 env.now
      deliveryState := "sent" }) :
    h.publishChat platform env tracking message =
      match h.saveChatMessage env persisted with
      | (.error _, h) =>
        match h.registry.active? (asciiLower message.userCode) with
        | some c => h.deliverError c "Failed to save message history" message.messageID
        | none => h
      | (.ok false, k) => k.answerRetry env (h.senderOf message.userCode) tracking persisted
      | (.ok true, k) => k.relayChat env (h.senderOf message.userCode)
          (h.senderRoom (h.senderOf message.userCode)) tracking persisted := by
  subst hpersisted
  simp only [publishChat, hstore]
  rfl

/-- `broadcastMessage` for a `chat`, the only type that reaches it. -/
def broadcastMessage (h : Hub) (platform : Platform) (env : Env) (message : Message) : Hub :=
  let tracking := deliveryTracking message.messageID
  let (messageID, h) := h.assignMessageID message.messageID
  h.publishChat platform env tracking { message with messageID }

/-- `HasUserCode`; a failed lookup counts as an unknown code. -/
def targetKnown (h : Hub) (env : Env) (targetCode : String) : Bool :=
  !env.fails .hasUserCode && h.db.chat.hasUserCode targetCode

/-- `SaveOfflineMessage` on the Hub's store. -/
def saveOfflineMessage (h : Hub) (env : Env) (targetCode : String) (message : Message) :
    Except GoError Unit × Hub :=
  if env.fails .saveOfflineMessage then (.error (.text "database failure"), h)
  else
    let saved := h.db.chat.saveOfflineMessage (env.fails .pruneOfflineMessages) targetCode message
    (saved.1, { h with db := { h.db with chat := saved.2 } })

/-- The offline branch of `handlePrivateMessage`. -/
def savePrivateOffline (h : Hub) (env : Env) (c : ClientID) (obj : Client) (targetCode : String)
    (tracking : Bool) (message : Message) : Hub :=
  if !h.offlineStore || !h.targetKnown env targetCode then
    h.deliverError c "Target user not found" message.messageID
  else
    let h := h.recordMessage message [obj.normalizedCode, targetCode] message.messageID
    match h.saveOfflineMessage env targetCode message with
    | (.error _, h) => h.deliverError c "Failed to save offline message" message.messageID
    | (.ok _, h) =>
      let h := h.tell c (wireMessage tracking message)
      let h := h.tell c { type := .system, content := "Private message saved for offline user" }
      if tracking then h.tell c (receipt message.messageID "sent") else h

/-- The online branch of `handlePrivateMessage`: the echo first, then the target. -/
def relayPrivate (h : Hub) (env : Env) (c : ClientID) (obj : Client) (target : ClientID)
    (targetCode : String) (tracking : Bool) (message : Message) : Hub :=
  let h := h.recordMessage message [obj.normalizedCode, targetCode] ""
  let wire := wireMessage tracking message
  match h.registry.deliver c wire with
  | (r, false) => { h with registry := r }
  | (r, true) =>
    match r.deliver target wire with
    | (r, false) =>
      let h := { h with registry := r }
      if tracking then h.tell c (receipt message.messageID "sent") else h
    | (r, true) =>
      let h := { h with registry := r }
      match h.markDelivered env { message with isPrivate := true } with
      | none => h.deliverError c "Failed to update delivery state" message.messageID
      | some h => if tracking then h.tell c (receipt message.messageID "delivered") else h

/-- The second half of `handlePrivateMessage`, once the message is stored. -/
def routePrivate (h : Hub) (env : Env) (c : ClientID) (obj : Client) (targetCode : String)
    (tracking : Bool) (message : Message) : Hub :=
  match h.registry.active? targetCode with
  | none => h.savePrivateOffline env c obj targetCode tracking message
  | some target =>
    let targetUserCode := (h.registry.client? target).elim message.targetUserCode Client.userCode
    h.relayPrivate env c obj target targetCode tracking { message with targetUserCode }

/-- The rest of `handlePrivateMessage`, once the message has an id. -/
def publishPrivate (h : Hub) (env : Env) (c : ClientID) (obj : Client) (targetCode : String)
    (tracking : Bool) (message : Message) : Hub :=
  if !h.offlineStore then h.routePrivate env c obj targetCode tracking message
  else match h.saveChatMessage env { message with isPrivate := true } with
    | (.error _, h) => h.deliverError c "Failed to save message history" message.messageID
    | (.ok false, h) => h.answerRetry env (some c) tracking { message with isPrivate := true }
    | (.ok true, h) => h.routePrivate env c obj targetCode tracking message

/-- `handlePrivateMessage`. -/
def handlePrivateMessage (h : Hub) (platform : Platform) (env : Env) (c : ClientID)
    (targetCode content messageID : String) : Hub :=
  match h.registry.client? c with
  | none => h
  | some obj =>
    if !h.registry.isConnected c then h
    else match normalizeUserCode targetCode with
      | .error _ => h.deliverError c "Invalid target user code" messageID
      | .ok target =>
        if !(validateTextContent "private chat" content).isOk then
          h.deliverError c "Invalid private chat content" messageID
        else if target = obj.normalizedCode then
          h.deliverError c "Cannot send private message to yourself" messageID
        else
          let tracking := deliveryTracking messageID
          let (messageID, h) := h.assignMessageID messageID
          h.publishPrivate env c obj target tracking
            { type := .privateChat, messageID, username := obj.username, userCode := obj.userCode,
              targetUserCode := targetCode, content, deliveryState := "sent",
              createdAt := platform.rfc3339 env.now }

/-! ### History -/

/-- `enqueueHistory`. -/
def enqueueHistory (h : Hub) (job : HistoryJob) : Hub :=
  if h.historyJobs.length < historyQueueSize then
    { h with historyJobs := h.historyJobs ++ [job] }
  else h.deliverError job.client "History service is busy"

/-- `handleHistoryRequest`. -/
def handleHistoryRequest (h : Hub) (c : ClientID) (request : Message) : Hub :=
  match h.registry.client? c with
  | none => h
  | some obj =>
    if !h.registry.isConnected c || !h.offlineStore then h
    else if request.isPrivate then
      match normalizeUserCode request.targetUserCode with
      | .error _ => h.deliverError c "Invalid private conversation"
      | .ok peer =>
        if peer = obj.normalizedCode then h.deliverError c "Invalid private conversation"
        else h.enqueueHistory
          { client := c, targetCode := peer, isPrivate := true
            query := { userCode := obj.userCode, peerCode := peer, isPrivate := true
                       beforeMessageID := request.beforeMessageID
                       searchQuery := request.searchQuery, limit := request.limit } }
    else if !(validateRoomName request.room).isOk then h.deliverError c "Invalid room name"
    else match h.roomDefinitions.lookup request.room with
      | none => h.deliverError c "You do not have access to this channel"
      | some definition =>
        if !canJoinRoom obj definition then
          h.deliverError c "You do not have access to this channel"
        else h.enqueueHistory
          { client := c, room := request.room
            query := { userCode := obj.userCode, room := request.room
                       beforeMessageID := request.beforeMessageID
                       searchQuery := request.searchQuery, limit := request.limit } }

/-- `historyWorker` takes the next job. -/
def takeHistoryJob (h : Hub) : Hub :=
  match h.inHand, h.historyJobs with
  | none, job :: jobs => { h with inHand := some job, historyJobs := jobs }
  | _, _ => h

/-- `historyWorker` runs the query and hands in the result. -/
def runHistoryJob (h : Hub) (env : Env) : Hub :=
  match h.inHand with
  | none => h
  | some job =>
    if h.historyResults.length < historyQueueSize then
      { h with
        inHand := none
        historyResults := h.historyResults ++
          [⟨job, env.call .loadHistory (h.db.chat.loadHistory job.query)⟩] }
    else h

/-- The `history_response` of a page. -/
def historyResponse (job : HistoryJob) (page : HistoryPage) : Message :=
  { type := .historyResponse, room := job.room, isPrivate := job.isPrivate
    messages := page.messages, hasMore := page.hasMore, targetUserCode := job.targetCode
    searchQuery := job.query.searchQuery }

/-- `handleHistoryResult`. -/
def handleHistoryResult (h : Hub) : Hub :=
  match h.historyResults with
  | [] => h
  | result :: results =>
    let h := { h with historyResults := results }
    if !h.registry.isConnected result.job.client then h
    else match result.page with
      | .error _ => h.deliverError result.job.client "Failed to load message history"
      | .ok page => h.tell result.job.client (historyResponse result.job page)

end Hub

end LanChat
