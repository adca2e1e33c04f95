import LanChat.Hub.State

/-!
# Registration, rooms and administration (`server-go/hub.go`)

The handlers that change who is connected, which room each client is in, what the rooms allow and
which logins wait for approval, and the recall of a message.
-/

namespace LanChat

namespace Hub

open GoStrings Registry

/-! ### Registration -/

/-- `newClient`. -/
def newClient (username userCode normalizedCode : String) (accountBacked : Bool) : Client where
  username := username
  userCode := userCode
  normalizedCode := normalizedCode
  accountBacked := accountBacked
  stage := if accountBacked then .offline else .reading

/-- `deliverPendingConnectionApproval`. -/
def pendingApprovalMessage (id : String) (p : PendingApproval) : Message :=
  { type := .connectionApprovalRequest, messageID := id, username := p.username,
    userCode := p.userCode, content := p.createdAt }

/-- The codes and the room of a client that registers; its index is the pointer. -/
def enroll (r : Registry) (obj : Client) : Registry :=
  let c := r.objects.length
  { r with
    objects := r.objects ++ [obj]
    usedCodes := r.usedCodes.insert obj.normalizedCode
    activeCodes := r.activeCodes.insert obj.normalizedCode c
    clients := r.clients.insert c }.addToRoom c obj.room

/-- The pending logins, told to an administrator. -/
def tellApprovals (r : Registry) (env : Env) (approvals : AList fun _ : String => PendingApproval)
    (c : ClientID) : Registry :=
  (env.visitTexts approvals.keys).foldl (fun r id =>
    match approvals.lookup id with
    | some p => r.tell c (pendingApprovalMessage id p)
    | none => r) r

/-- A successful registration: the client is enrolled and announced, and an administrator hears of
the logins that wait. -/
def completeRegistration (h : Hub) (env : Env) (obj : Client) : Hub :=
  let obj := { obj with isAdmin := h.adminCode != "" && obj.normalizedCode == h.adminCode }
  h.onRegistry fun r =>
    let announced := (enroll r obj).broadcastSystemMessageToRoom env obj.room
      (presenceMessage obj "joined the chat")
    if obj.isAdmin then tellApprovals announced env h.approvals r.objects.length else announced

/-- The lobby is defined again when it is not. -/
def ensureLobby (h : Hub) : Hub :=
  if (h.roomDefinitions.lookup defaultRoomName).isSome then h
  else { h with roomDefinitions := h.roomDefinitions.insert defaultRoomName {} }

/-- `handleRegisterRequest` for a client made by `newClient`; the error, when there is one, goes
to the login goroutine, which drops the client. -/
def handleRegisterRequest (h : Hub) (env : Env) (obj : Client) : Except GoError Unit × Hub :=
  if obj.userCode = "" ∨ obj.normalizedCode = "" then
    (.error (.text "register request requires user code identity"), h)
  else
    let h := h.ensureLobby
    match h.registry.active? obj.normalizedCode with
    | some active =>
      -- the approved session takes over from the one that is still open
      if obj.accountBacked then
        (.ok (),
          (h.onRegistry fun r => r.unregisterClient env active).completeRegistration env obj)
      else (.error .errUserCodeAlreadyUsed, h)
    | none =>
      if !obj.accountBacked && h.registry.usedCodes.contains obj.normalizedCode then
        (.error .errUserCodeAlreadyUsed, h)
      else (.ok (), h.completeRegistration env obj)

/-! ### Rooms -/

/-- `handleRoomJoin`. -/
def handleRoomJoin (h : Hub) (env : Env) (c : ClientID) (room : String) : Hub :=
  match h.registry.client? c with
  | none => h
  | some obj =>
    if !h.registry.isConnected c then h
    else if !(validateRoomName room).isOk then h.deliverError c "Invalid room name"
    else match h.roomDefinitions.lookup room with
      | none => h.deliverError c "Room not found. Create it first."
      | some definition =>
        if !canJoinRoom obj definition then
          h.deliverError c "This is a private channel. Ask the owner for an invitation."
        else if room = obj.room then
          h.tell c { type := .system, content := "Already in room " ++ obj.room }
        else h.onRegistry fun r => r.changeRoom env c obj room

/-- `handleRoomCreate`. -/
def handleRoomCreate (h : Hub) (env : Env) (c : ClientID) (room : String) (isPrivate : Bool) :
    Hub :=
  match h.registry.client? c with
  | none => h
  | some obj =>
    if !h.registry.isConnected c then h
    else if !(validateRoomName room).isOk then h.deliverError c "Invalid room name"
    else if (h.roomDefinitions.lookup room).isSome then
      h.deliverError c "A channel with this name already exists"
    else
      let created := { h with
        roomDefinitions := h.roomDefinitions.insert room
          { ownerCode := obj.normalizedCode, isPrivate, allowed := [obj.normalizedCode] } }
      (created.tell c { type := .system, content := "Channel #" ++ room ++ " created" }).handleRoomJoin
        env c room

/-- One iteration of the delete loop: the member goes back to the lobby and is told. -/
def evict (r : Registry) (member : ClientID) (content : String) : Registry :=
  (r.moveTo member defaultRoomName).tell member { type := .system, content }

/-- The delete branch of `handleRoomAction`. -/
def deleteRoom (h : Hub) (env : Env) (room : String) : Hub :=
  let r := (env.visit (h.registry.members room)).foldl
    (fun r member => evict r member ("Channel #" ++ room ++ " was deleted")) h.registry
  { h with
    registry := { r with rooms := r.rooms.erase room }
    roomDefinitions := h.roomDefinitions.erase room }

/-- The invite branch of `handleRoomAction`. -/
def inviteMember (h : Hub) (c : ClientID) (room : String) (definition : RoomDefinition)
    (targetCode : String) : Hub :=
  { h with
    roomDefinitions := h.roomDefinitions.insert room
      { definition with allowed := definition.allowed.insert targetCode } }.tell c
    { type := .system, content := "Member invited to #" ++ room }

/-- The `remove_member` branch of `handleRoomAction`. -/
def removeMember (h : Hub) (c : ClientID) (room : String) (definition : RoomDefinition)
    (targetCode : String) : Hub :=
  let h := { h with
    roomDefinitions := h.roomDefinitions.insert room
      { definition with allowed := definition.allowed.filter (· ≠ targetCode) } }
  let r := match h.registry.active? targetCode with
    | some target =>
      if (h.registry.client? target).any fun obj => obj.room == room then
        evict h.registry target ("You were removed from #" ++ room)
      else h.registry
    | none => h.registry
  { h with registry := r }.tell c
    { type := .system, content := "Member removed from #" ++ room }

/-- `handleRoomAction`. -/
def handleRoomAction (h : Hub) (env : Env) (c : ClientID) (action room targetCode : String) :
    Hub :=
  match h.registry.client? c with
  | none => h
  | some obj =>
    if !h.registry.isConnected c then h
    else match h.roomDefinitions.lookup room with
      | none => h.deliverError c "Channel not found or cannot be changed"
      | some definition =>
        if room = defaultRoomName then h.deliverError c "Channel not found or cannot be changed"
        else if !canManageRoom obj definition then
          h.deliverError c "Channel owner or administrator permission required"
        else if action = "delete" then h.deleteRoom env room
        else match normalizeUserCode targetCode with
          | .error _ => h.deliverError c "Invalid target user code"
          | .ok target =>
            if action = "invite" then h.inviteMember c room definition target
            else if action = "remove_member" then h.removeMember c room definition target
            else h

/-- `handleRoomLeave`. -/
def handleRoomLeave (h : Hub) (env : Env) (c : ClientID) : Hub :=
  match h.registry.client? c with
  | none => h
  | some obj =>
    if !h.registry.isConnected c then h
    else if obj.room = defaultRoomName then
      h.tell c { type := .system, content := "Already in room " ++ defaultRoomName }
    else h.onRegistry fun r => r.changeRoom env c obj defaultRoomName

/-- `handleRequestUsers`. -/
def handleRequestUsers (h : Hub) (c : ClientID) : Hub :=
  if !h.registry.isConnected c then h
  else
    let online := h.registry.clients.filterMap h.registry.client?
    h.tell c
      { type := .usersResponse
        users := (online.map fun o => o.username ++ "#" ++ o.userCode ++ "@" ++ o.room).insertionSort
          (· ≤ ·)
        userDetails := (online.map fun o =>
          (⟨o.username, o.userCode, o.room, o.isAdmin⟩ : OnlineUser)).insertionSort fun a b =>
            a.username ++ "#" ++ a.userCode ≤ b.username ++ "#" ++ b.userCode }

/-- `handleRequestRooms`. -/
def handleRequestRooms (h : Hub) (c : ClientID) : Hub :=
  match h.registry.client? c with
  | none => h
  | some obj =>
    if !h.registry.isConnected c then h
    else
      let visible := h.roomDefinitions.entries.filter fun e => canJoinRoom obj e.2
      h.tell c
        { type := .roomsResponse
          rooms := (visible.map Sigma.fst).insertionSort (· ≤ ·)
          room := obj.room
          roomDetails := (visible.map fun e =>
            (⟨e.1, e.2.ownerCode, e.2.isPrivate, canManageRoom obj e.2⟩ : RoomInfo)).insertionSort
              fun a b => a.name ≤ b.name }

/-! ### Administration -/

/-- The connected administrators. -/
def admins (r : Registry) : List ClientID :=
  r.clients.filter fun c => (r.client? c).any Client.isAdmin

/-- `handleConnectionApproval`. -/
def handleConnectionApproval (h : Hub) (platform : Platform) (env : Env)
    (username userCode normalizedCode remoteAddress : String) : Hub :=
  if username = "" ∨ userCode = "" ∨ normalizedCode = "" then h
  else
    let next := h.nextApprovalID + 1
    let id := "connection-" ++ formatUint next
    let pending : PendingApproval :=
      ⟨username, userCode, normalizedCode, remoteAddress, platform.rfc3339 env.now⟩
    { h with
      nextApprovalID := next
      approvals := h.approvals.insert id pending
      registry := h.registry.tellAll (env.visit (admins h.registry))
        (pendingApprovalMessage id pending) }

/-- An approval that is no longer pending is announced to the administrators. -/
def resolveApproval (h : Hub) (env : Env) (id : String) (pending : PendingApproval)
    (content commandID : String) : Hub :=
  { h with
    approvals := h.approvals.erase id
    registry := h.registry.tellAll (env.visit (admins h.registry))
      { type := .connectionApprovalResult, messageID := id, username := pending.username,
        userCode := pending.userCode, content, commandID } }

/-- `cancelConnectionApproval`. -/
def cancelConnectionApproval (h : Hub) (env : Env) (id : String) : Hub :=
  match h.approvals.lookup id with
  | none => h
  | some pending => h.resolveApproval env id pending "expired" ""

/-- The record that authorizes a recall: the in-memory one, else one made from the newest stored
row (`recordForStoredMessage`). -/
def recordForRecall (h : Hub) (env : Env) (messageID : String) : Option MessageRecord :=
  match h.messageRecords.lookup messageID with
  | some record => some record
  | none =>
    if h.offlineStore ∧ messageID ≠ "" then
      match env.call .getStoredMessage (h.db.chat.getStoredMessage messageID) with
      | .ok stored =>
        some { authorCode := asciiLower stored.senderCode
               recipients := match stored.kind with
                | .privateChat => [asciiLower stored.senderCode, stored.targetCode]
                | .room => h.registry.recipientCodes (h.registry.roomClients stored.room) }
      | .error _ => none
    else none

/-- The queued offline copy of a recalled message goes too. -/
def removeOfflineCopy (h : Hub) (env : Env) (record : MessageRecord) : Option String × Hub :=
  if record.offlineMessageID = "" then (none, h)
  else match env.call .deleteOfflineMessage
      (h.db.chat.deleteOfflineMessage record.offlineMessageID) with
    | .error _ => (some "Failed to remove recalled offline message", h)
    | .ok chat => (none, { h with db := { h.db with chat } })

/-- The database part of a recall, with the text of the error that stopped it; the mark stays
even when the offline copy could not be removed. -/
def persistRecall (h : Hub) (env : Env) (messageID : String) (record : MessageRecord) :
    Option String × Hub :=
  if h.offlineStore then
    match env.call .markMessageRecalled (h.db.chat.markMessageRecalled messageID) with
    | .ok chat => { h with db := { h.db with chat } }.removeOfflineCopy env record
    | .error .errNoRows => h.removeOfflineCopy env record
    | .error _ => (some "Failed to persist recalled message", h)
  else (none, h)

/-- `deliverRecall`. -/
def deliverRecall (r : Registry) (env : Env) (record : MessageRecord) (message : Message) :
    Registry :=
  (env.visitTexts record.recipients.dedup).foldl (fun r code =>
    match r.active? code with
    | some c => r.tell c message
    | none => r) r

/-- The recall branch of `handleAdminAction`. -/
def handleRecall (h : Hub) (env : Env) (c : ClientID) (obj : Client)
    (messageID commandID : String) : Hub :=
  match h.recordForRecall env messageID with
  | none => h.deliverError c "Message not found" messageID commandID
  | some record =>
    if messageID = "" then h.deliverError c "Message not found" messageID commandID
    else if record.recalled then
      h.deliverError c "Message already recalled" messageID commandID
    else if !obj.isAdmin && obj.normalizedCode != record.authorCode then
      h.deliverError c "Only the message author or an administrator can recall this message"
        messageID commandID
    else match h.persistRecall env messageID record with
      | (some content, h) => h.deliverError c content messageID commandID
      | (none, h) =>
        { h with
          messageRecords := h.messageRecords.insert messageID { record with recalled := true }
          registry := deliverRecall h.registry env record
            { type := .messageRecalled, messageID, commandID } }

/-- The approve and deny branches of `handleAdminAction`. -/
def handleDecision (h : Hub) (env : Env) (c : ClientID) (approved : Bool)
    (messageID commandID : String) : Hub :=
  match h.approvals.lookup messageID with
  | none => h.deliverError c "Connection request is no longer pending" messageID commandID
  | some pending =>
    let h := h.resolveApproval env messageID pending (if approved then "approved" else "denied")
      commandID
    { h with decisions := h.decisions ++ [(messageID, approved)] }

/-- The kick branch of `handleAdminAction`. -/
def kick (r : Registry) (env : Env) (c target : ClientID) (obj : Client) : Registry :=
  let r := r.tell target { type := .system, content := "You were kicked by the administrator" }
  let r := r.unregisterClient env target
  r.tell c { type := .system, content := obj.username ++ "#" ++ obj.userCode ++ " was kicked" }

/-- The mute branch of `handleAdminAction`. -/
def toggleMute (r : Registry) (c target : ClientID) (obj : Client) : Registry :=
  let status := if obj.muted then "unmuted" else "muted"
  let r := r.modifyClient target fun o => { o with muted := !o.muted }
  let r := r.tell target
    { type := .system, content := "You were " ++ status ++ " by the administrator" }
  r.tell c { type := .system, content := obj.username ++ "#" ++ obj.userCode ++ " is " ++ status }

/-- `handleAdminAction`. -/
def handleAdminAction (h : Hub) (env : Env) (c : ClientID)
    (action targetCode messageID commandID : String) : Hub :=
  match h.registry.client? c with
  | none => h
  | some obj =>
    if !h.registry.isConnected c then h
    else if action = "recall" then h.handleRecall env c obj messageID commandID
    else if !obj.isAdmin then h.deliverError c "Administrator permission required"
    else if action = "approve_connection" then h.handleDecision env c true messageID commandID
    else if action = "deny_connection" then h.handleDecision env c false messageID commandID
    else match normalizeUserCode targetCode with
      | .error _ => h.deliverError c "Invalid target user code"
      | .ok code =>
        match h.registry.active? code with
        | none => h.deliverError c "Target user not found"
        | some target =>
          if target = c then h.deliverError c "Target user not found"
          else match h.registry.client? target with
            | none => h
            | some obj =>
              if action = "kick" then h.onRegistry fun r => kick r env c target obj
              else if action = "mute" then h.onRegistry fun r => toggleMute r c target obj
              else h.deliverError c "Unsupported administrator action"

/-- What an administrator's action can leave of the Hub. -/
inductive AdminOutcome (h : Hub) (env : Env) (c : ClientID) (action messageID commandID : String) :
    Hub → Prop
  | unchanged : AdminOutcome h env c action messageID commandID h
  | refused (content : String) :
      AdminOutcome h env c action messageID commandID (h.deliverError c content)
  | recalled (obj : Client) (hobj : h.registry.client? c = some obj)
      (hconn : h.registry.isConnected c = true) (haction : action = "recall") :
      AdminOutcome h env c action messageID commandID (h.handleRecall env c obj messageID commandID)
  | decision (obj : Client) (approved : Bool) (hobj : h.registry.client? c = some obj)
      (hconn : h.registry.isConnected c = true) (hadmin : obj.isAdmin = true)
      (haction : action = if approved then "approve_connection" else "deny_connection") :
      AdminOutcome h env c action messageID commandID
        (h.handleDecision env c approved messageID commandID)
  | kick (target : ClientID) (o : Client) :
      AdminOutcome h env c action messageID commandID
        (h.onRegistry fun r => Hub.kick r env c target o)
  | mute (target : ClientID) (o : Client) :
      AdminOutcome h env c action messageID commandID
        (h.onRegistry fun r => toggleMute r c target o)

theorem adminOutcome_handleAdminAction (h : Hub) (env : Env) (c : ClientID)
    (action targetCode messageID commandID : String) :
    AdminOutcome h env c action messageID commandID
      (h.handleAdminAction env c action targetCode messageID commandID) := by
  unfold handleAdminAction
  split
  · exact .unchanged
  rename_i obj hobj
  split
  · exact .unchanged
  rename_i hconn
  rw [Bool.not_eq_true, Bool.not_eq_false'] at hconn
  split
  · rename_i haction
    exact .recalled obj hobj hconn haction
  split
  · exact .refused _
  rename_i hadmin
  rw [Bool.not_eq_true, Bool.not_eq_false'] at hadmin
  split
  · rename_i haction
    exact .decision obj true hobj hconn hadmin haction
  split
  · rename_i haction
    exact .decision obj false hobj hconn hadmin haction
  split
  · exact .refused _
  split
  · exact .refused _
  split
  · exact .refused _
  split
  · exact .unchanged
  split
  · exact .kick _ _
  split
  · exact .mute _ _
  · exact .refused _

end Hub

end LanChat
