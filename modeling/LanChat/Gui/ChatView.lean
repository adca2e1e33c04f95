import LanChat.Gui.ConversationModels

/-!
# The rows of the chat controller (`client-cpp/gui/src/gui_chat_controller.cpp`)

`Controller` says what the controller knows about its session; here its conversations go along.

* `prependRows`, `setDeliveryState`, `removeRows`: what else happens to the rows of a conversation;
* `handleHistory`: the rows of an earlier page go in front of the conversation that is open;
* `handleMessage`: the row of a message, the state of a delivery, a message that is recalled;
* `ChatView.step`: everything the user, the worker or a server does to the rows.

The role `attachment`, the lists of rooms and users and the calls to the worker are left out.
-/

namespace LanChat

namespace Gui

open GoStrings

namespace ChatListModel

/-- `prependRows`. -/
def prependRows (rows new : List MessageRow) : List MessageRow :=
  if new = [] then rows
  else
    let incoming := lastRows new
    let overflow := rows.length + incoming.length - maxRowsPerModel
    if rows.length ≤ overflow ∧ rows ≠ [] then incoming
    else incoming ++ rows.take (rows.length - overflow)

/-- `updateRow` of a delivery state, for the row with a message id when there is one. -/
def setDeliveryState (messageID deliveryState : String) (rows : List MessageRow) :
    List MessageRow :=
  match findRow rows messageID with
  | some i => rows.modify i fun row => { row with deliveryState }
  | none => rows

/-- `removeRowsByValue` for the role `messageId`. -/
def removeRows (messageID : String) (rows : List MessageRow) : List MessageRow :=
  rows.filter fun row => row.messageID != messageID

end ChatListModel

namespace Conversations

open ChatListModel

/-- The rows of a conversation are replaced. -/
def setRows (s : Conversations) (key : String) (rows : List MessageRow) : Conversations :=
  { s with models := s.models.insert key rows }

/-- `ensureConversationModel(key)->append(row)`. -/
def append (s : Conversations) (key : String) (row : MessageRow) : Conversations :=
  (s.ensureConversationModel key).setRows key
    (appendRows ((s.ensureConversationModel key).rows key) [row])

/-- A loop over all conversations. -/
def updateModels (s : Conversations) (f : List MessageRow → List MessageRow) : Conversations :=
  { s with
    models := s.models.keys.foldl (fun models key => models.insert key (f (s.rows key))) s.models }

/-- The row of an own message, before the server has seen it. -/
def queuedRow (user : LocalUser) (time messageID content : String) : MessageRow where
  messageID
  displayName := user.name
  userCode := user.code
  time
  content
  selfMessage := true
  systemMessage := false
  deliveryState := "queued"

/-- `sendRoomMessage`, without the call to the worker. -/
def sendRoomMessage (user : LocalUser) (time messageID content room : String)
    (s : Conversations) : Conversations :=
  if trimSpace content = "" then s
  else s.append (Controller.roomKey (declaredRoom room))
    (queuedRow user time messageID (trimSpace content))

/-- `sendPrivateMessage`, without the call to the worker. -/
def sendPrivateMessage (user : LocalUser) (time messageID content targetUserCode : String)
    (s : Conversations) : Conversations :=
  if trimSpace content = "" ∨ trimSpace targetUserCode = "" then s
  else s.append (Controller.directKey (trimSpace targetUserCode))
    (queuedRow user time messageID (trimSpace content))

/-- `openPrivateChat` selects a conversation, unless there is no user code or it is one's own. -/
def opens (user : LocalUser) (userCode : String) : Bool :=
  trimSpace userCode != "" && !QString.equalFold userCode user.code

/-- The row of a system message. -/
def systemRow (time content : String) : MessageRow where
  messageID := ""
  displayName := ""
  userCode := ""
  time
  content
  selfMessage := false
  systemMessage := true
  deliveryState := ""

/-- `appendSystemMessage`: to the conversation that is open. -/
def appendSystemMessage (time content : String) (s : Conversations) : Conversations :=
  s.setRows s.activeConversationKey
    (appendRows (s.rows s.activeConversationKey) [systemRow time content])

/-- `removeLocalMessage`. -/
def removeLocalMessage (messageID : String) (s : Conversations) : Conversations :=
  if messageID = "" then s else s.updateModels (removeRows messageID)

/-- The message is marked in every conversation that has it. -/
def markDelivery (messageID deliveryState : String) (s : Conversations) : Conversations :=
  if messageID = "" then s else s.updateModels (setDeliveryState messageID deliveryState)

/-- `retryMessage`, for the conversation whose row it comes to first. -/
def retryMessage (messageID key : String) (s : Conversations) : Conversations :=
  if messageID = "" then s
  else match (s.rows key).find? fun row => row.messageID == messageID with
    | none => s
    | some row =>
      if row.selfMessage && row.deliveryState == "failed" then
        s.setRows key (setDeliveryState messageID "queued" (s.rows key))
      else s

/-- `handleMessage`, as far as it changes rows. -/
def handleIncoming (user : LocalUser) (time : String) (message : Message) (s : Conversations) :
    Conversations :=
  match message.type with
  | .deliveryReceipt =>
    let state := if message.deliveryState = "" then message.content else message.deliveryState
    if state = "sent" ∨ state = "delivered" then s.markDelivery message.messageID state else s
  | .connectionApprovalResult =>
    if message.content = "approved" then
      s.appendSystemMessage time "已批准成员连接，成员正在加入聊天室。"
    else if message.content = "denied" then s.appendSystemMessage time "已拒绝成员连接请求。"
    else s
  | .chat | .privateChat | .offlineMessage => s.handleMessage user time message
  | .other name => if name = "private_message" then s.handleMessage user time message else s
  | .messageRecalled => s.removeLocalMessage message.messageID
  | .system =>
    if message.room = "" then s.appendSystemMessage time message.content
    else s.append (Controller.roomKey message.room) (systemRow time message.content)
  | .error => s.markDelivery message.messageID "failed"
  | _ => s

/-- The row of a message of an earlier page; `localTime` reads its time of creation. -/
def historyRow (localTime : String → Option String) (user : LocalUser) (time : String)
    (message : HistoryMessage) : MessageRow where
  messageID := message.messageID
  displayName := message.username
  userCode := message.userCode
  time := (localTime message.createdAt).getD time
  content := message.content
  selfMessage := QString.equalFold message.userCode user.code
  systemMessage := false
  deliveryState := message.deliveryState

/-- The messages of a page that a conversation does not show. -/
def unknownMessages (rows : List MessageRow) (messages : List HistoryMessage) :
    List HistoryMessage :=
  messages.filter fun message =>
    message.messageID != "" && (findRow rows message.messageID).isNone

/-- The loop of `handleHistory`. -/
def mergeHistory (localTime : String → Option String) (user : LocalUser) (time : String)
    (messages : List HistoryMessage) (s : Conversations) : Conversations :=
  s.setRows s.activeConversationKey
    (prependRows (s.rows s.activeConversationKey)
      ((unknownMessages (s.rows s.activeConversationKey) messages).map
        (historyRow localTime user time)))

end Conversations

/-! ### The controller -/

/-- `GuiChatController`: its session, its conversations and the local user. -/
structure ChatView where
  session : Controller
  conversations : Conversations
  user : LocalUser

namespace ChatView

open ChatListModel

/-- A new controller. -/
def start : ChatView where
  session := {}
  conversations := .start
  user := ⟨"Alice", "A001"⟩

/-- The key that `handleHistory` expects of the conversation that is open. -/
def historyKey (response : Message) : String :=
  if response.isPrivate then Controller.directKey response.targetUserCode
  else Controller.roomKey response.room

/-- The response is about the conversation that is open. -/
def concerns (s : ChatView) (response : Message) : Bool :=
  QString.equalFold (historyKey response) s.session.activeConversationKey

/-- `handleHistory` takes the rows of a response. -/
def takes (s : ChatView) (response : Message) : Bool :=
  s.concerns response && response.searchQuery == s.session.historySearchQuery

/-- What happens to the rows: the user acts, a connection comes or goes, a message arrives. -/
inductive Input
  | connectToServer (username userCode : String)
  | disconnectFromServer
  | sendRoomMessage (time messageID content room : String)
  | sendPrivateMessage (time messageID content targetUserCode : String)
  | selectRoom (room : String)
  | selectDirectMessage (userCode : String)
  | openPrivateChat (userCode : String)
  | searchActiveHistory (query : String)
  | requestActiveHistory (beforeMessageID searchQuery : String)
  | removeLocalMessage (messageID : String)
  | retryMessage (messageID key : String)
  | connected
  | connectionFailed (time reason : String)
  | connectionLost
  | messageDeliveryFailed (messageID : String)
  | message (time : String) (m : Message)
  | history (time : String) (response : Message)

/-- `selectDirectMessage`. -/
def selectDirectMessage (s : ChatView) (userCode : String) : ChatView :=
  { s with
    session := (s.session.selectDirectMessage userCode).1
    conversations := s.conversations.select (Controller.directKey userCode) }

/-- `handleConnected`. -/
def handleConnected (s : ChatView) : ChatView :=
  { s with
    session := s.session.handleConnected.1
    conversations :=
      if s.session.reconnecting then s.conversations else s.conversations.resetSessionData }

variable (localTime : String → Option String)

/-- `handleHistory`. -/
def handleHistory (s : ChatView) (time : String) (response : Message) : ChatView :=
  { s with
    session := (s.session.handleHistory response.room response.targetUserCode response.isPrivate
      response.searchQuery).1
    conversations :=
      if s.takes response then
        s.conversations.mergeHistory localTime s.user time response.messages
      else s.conversations }

/-- One slot of the controller. -/
def step (s : ChatView) : Input → ChatView
  | .connectToServer username userCode => { s with user := ⟨username, userCode⟩ }
  | .disconnectFromServer => { s with session := { s.session with connected := false } }
  | .sendRoomMessage time messageID content room =>
    { s with
      conversations := s.conversations.sendRoomMessage s.user time messageID content room }
  | .sendPrivateMessage time messageID content targetUserCode =>
    { s with
      conversations :=
        s.conversations.sendPrivateMessage s.user time messageID content targetUserCode }
  | .selectRoom room =>
    { s with
      session := (s.session.selectRoom room).1
      conversations := s.conversations.select (Controller.roomKey room) }
  | .selectDirectMessage userCode => s.selectDirectMessage userCode
  | .openPrivateChat userCode =>
    if Conversations.opens s.user userCode then s.selectDirectMessage userCode else s
  | .searchActiveHistory query => { s with session := (s.session.searchActiveHistory query).1 }
  | .requestActiveHistory beforeMessageID searchQuery =>
    { s with session := (s.session.requestActiveHistory beforeMessageID searchQuery).1 }
  | .removeLocalMessage messageID =>
    { s with conversations := s.conversations.removeLocalMessage messageID }
  | .retryMessage messageID key =>
    { s with conversations := s.conversations.retryMessage messageID key }
  | .connected => s.handleConnected
  | .connectionFailed time reason =>
    { s with
      session := s.session.handleConnectionFailed
      conversations := s.conversations.appendSystemMessage time ("连接失败：" ++ reason) }
  | .connectionLost => { s with session := s.session.handleConnectionLost.1 }
  | .messageDeliveryFailed messageID =>
    { s with
      conversations := s.conversations.updateModels (setDeliveryState messageID "failed") }
  | .message time m =>
    { s with conversations := s.conversations.handleIncoming s.user time m }
  | .history time response => s.handleHistory localTime time response

end ChatView

/-! ### A thousand rows -/

namespace ChatListModel

variable {rows : List MessageRow} {row : MessageRow}

theorem length_lastRows (new : List MessageRow) : (lastRows new).length ≤ maxRowsPerModel := by
  unfold lastRows
  rw [List.length_drop]
  omega

theorem lastRows_of_length_le {new : List MessageRow} (hle : new.length ≤ maxRowsPerModel) :
    lastRows new = new := by
  unfold lastRows
  rw [Nat.sub_eq_zero_of_le hle, List.drop_zero]

theorem length_appendRows_one (hrows : rows.length ≤ maxRowsPerModel) :
    (appendRows rows [row]).length ≤ maxRowsPerModel := by
  unfold appendRows
  dsimp only
  have hmerged : ([row].foldl mergeRow ⟨rows, []⟩).rows.length = rows.length := by
    rw [List.foldl_cons, List.foldl_nil]
    unfold mergeRow
    split_ifs
    · rfl
    split
    · exact List.length_set
    · split <;> rfl
  split_ifs
  · exact hmerged.trans_le hrows
  · exact length_lastRows _
  · have hlast := length_lastRows ([row].foldl mergeRow ⟨rows, []⟩).incoming
    rw [List.length_append, List.length_drop]
    omega

/-- An earlier page in front of the rows, as far as there is room for them. -/
theorem prependRows_eq (new : List MessageRow) (hrows : rows.length ≤ maxRowsPerModel) :
    prependRows rows new = lastRows new ++ rows.take (maxRowsPerModel - new.length) := by
  have hlast : (lastRows new).length = min new.length maxRowsPerModel := by
    unfold lastRows
    rw [List.length_drop]
    omega
  unfold prependRows
  split_ifs with hempty
  · rw [hempty, List.length_nil, Nat.sub_zero, List.take_of_length_le hrows]
    rfl
  dsimp only
  split_ifs with hfull
  · have hpos : 0 < rows.length := List.length_pos_iff.2 hfull.2
    have hzero : maxRowsPerModel - new.length = 0 := by omega
    rw [hzero, List.take_zero, List.append_nil]
  · rw [List.append_right_inj, List.take_eq_take_iff]
    omega

theorem length_prependRows (new : List MessageRow) (hrows : rows.length ≤ maxRowsPerModel) :
    (prependRows rows new).length ≤ maxRowsPerModel := by
  have hlast : (lastRows new).length = min new.length maxRowsPerModel := by
    unfold lastRows
    rw [List.length_drop]
    omega
  rw [prependRows_eq new hrows, List.length_append, List.length_take]
  omega

theorem length_setDeliveryState (messageID deliveryState : String) (rows : List MessageRow) :
    (setDeliveryState messageID deliveryState rows).length = rows.length := by
  unfold setDeliveryState
  split
  · exact List.length_modify _ _ _
  · rfl

theorem length_removeRows (messageID : String) (rows : List MessageRow) :
    (removeRows messageID rows).length ≤ rows.length := List.length_filter_le _ _

end ChatListModel

namespace Conversations

open ChatListModel

variable {s : Conversations} {key : String}

theorem rows_setRows (s : Conversations) (changed : String) (new : List MessageRow) :
    (s.setRows changed new).rows key = if key = changed then new else s.rows key := by
  split_ifs with hkey
  · subst hkey
    exact rows_of_insert rfl
  · exact rows_of_insert_ne rfl hkey

theorem rows_append_self (s : Conversations) (used : String) (row : MessageRow) :
    (s.append used row).rows used = appendRows (s.rows used) [row] := by
  have hused : (s.ensureConversationModel used).rows used = s.rows used :=
    (rows_ensureConversationModel s used).2 rfl
  unfold append
  rw [rows_setRows, if_pos rfl, hused]

/-- The other conversations stay, or one of them is pushed out. -/
theorem rows_append_ne (s : Conversations) (used : String) (row : MessageRow) (hkey : key ≠ used) :
    (s.append used row).rows key = s.rows key ∨ (s.append used row).rows key = [] := by
  unfold append
  rw [rows_setRows, if_neg hkey]
  exact (rows_ensureConversationModel s used).1

theorem rows_updateModels {f : List MessageRow → List MessageRow} (hnil : f [] = []) :
    (s.updateModels f).rows key = f (s.rows key) := by
  refine (lookup_foldl_insert (fun key => f (s.rows key)) s.models.keys s.models).trans ?_
  split_ifs with hmem
  · rfl
  · rw [rows_eq_nil hmem, hnil]
    exact rows_eq_nil hmem

/-- No conversation has more than a thousand rows. -/
def Bounded (s : Conversations) : Prop := ∀ key, (s.rows key).length ≤ maxRowsPerModel

theorem bounded_start : start.Bounded := by
  intro key
  rw [rows_start]
  exact Nat.zero_le _

/-- Conversations that keep their rows or lose all of them. -/
theorem Bounded.of_kept {t : Conversations} (hs : s.Bounded)
    (hkept : ∀ key, t.rows key = s.rows key ∨ t.rows key = []) : t.Bounded := by
  intro key
  rcases hkept key with hsame | hgone
  · rw [hsame]
    exact hs key
  · rw [hgone]
    exact Nat.zero_le _

theorem Bounded.setRows (hs : s.Bounded) {new : List MessageRow}
    (hnew : new.length ≤ maxRowsPerModel) : (s.setRows key new).Bounded := by
  intro other
  rw [rows_setRows]
  split_ifs
  · exact hnew
  · exact hs other

theorem Bounded.append (hs : s.Bounded) (row : MessageRow) : (s.append key row).Bounded := by
  have hensure : (s.ensureConversationModel key).Bounded :=
    hs.of_kept fun _ => (rows_ensureConversationModel s key).1
  exact hensure.setRows (length_appendRows_one (hensure key))

theorem Bounded.updateModels (hs : s.Bounded) {f : List MessageRow → List MessageRow}
    (hf : ∀ rows, (f rows).length ≤ rows.length) : (s.updateModels f).Bounded := by
  intro key
  rw [rows_updateModels (List.length_eq_zero_iff.1 (Nat.le_zero.1 (hf [])))]
  exact (hf _).trans (hs key)

theorem Bounded.select (hs : s.Bounded) (key : String) : (s.select key).Bounded :=
  hs.of_kept fun _ => rows_select s key

theorem Bounded.resetSessionData (s : Conversations) : s.resetSessionData.Bounded := by
  intro key
  rw [rows_resetSessionData]
  exact Nat.zero_le _

theorem Bounded.appendSystemMessage (hs : s.Bounded) (time content : String) :
    (s.appendSystemMessage time content).Bounded :=
  hs.setRows (length_appendRows_one (hs _))

theorem Bounded.removeLocalMessage (hs : s.Bounded) (messageID : String) :
    (s.removeLocalMessage messageID).Bounded := by
  unfold Conversations.removeLocalMessage
  split_ifs
  · exact hs
  · exact hs.updateModels (length_removeRows messageID)

theorem Bounded.markDelivery (hs : s.Bounded) (messageID deliveryState : String) :
    (s.markDelivery messageID deliveryState).Bounded := by
  unfold Conversations.markDelivery
  split_ifs
  · exact hs
  · exact hs.updateModels fun rows => (length_setDeliveryState messageID deliveryState rows).le

theorem Bounded.retryMessage (hs : s.Bounded) (messageID key : String) :
    (s.retryMessage messageID key).Bounded := by
  unfold Conversations.retryMessage
  split_ifs
  · exact hs
  split
  · exact hs
  split_ifs
  · exact hs.setRows ((length_setDeliveryState _ _ _).trans_le (hs key))
  · exact hs

theorem handleMessage_eq (user : LocalUser) (time : String) (message : Message)
    (s : Conversations) :
    ∃ counter row, s.handleMessage user time message =
      ({ s with localMessageCounter := counter } : Conversations).append
        (conversationKey user message) row := by
  unfold handleMessage
  by_cases hid : message.messageID = ""
  · simp only [if_pos hid]
    exact ⟨_, _, rfl⟩
  · simp only [if_neg hid]
    exact ⟨s.localMessageCounter, _, rfl⟩

theorem Bounded.handleMessage (hs : s.Bounded) (user : LocalUser) (time : String)
    (message : Message) : (s.handleMessage user time message).Bounded := by
  obtain ⟨counter, row, heq⟩ := handleMessage_eq user time message s
  rw [heq]
  have hcounted : ({ s with localMessageCounter := counter } : Conversations).Bounded := hs
  exact hcounted.append row

theorem Bounded.handleIncoming (hs : s.Bounded) (user : LocalUser) (time : String)
    (message : Message) : (s.handleIncoming user time message).Bounded := by
  unfold Conversations.handleIncoming
  split
  · have hreceipt : ∀ state : String, Bounded (if state = "sent" ∨ state = "delivered" then
        s.markDelivery message.messageID state else s) := by
      intro state
      split_ifs
      · exact hs.markDelivery _ _
      · exact hs
    exact hreceipt _
  · split_ifs
    · exact hs.appendSystemMessage _ _
    · exact hs.appendSystemMessage _ _
    · exact hs
  · exact hs.handleMessage user time message
  · exact hs.handleMessage user time message
  · exact hs.handleMessage user time message
  · split_ifs
    · exact hs.handleMessage user time message
    · exact hs
  · exact hs.removeLocalMessage _
  · split_ifs
    · exact hs.appendSystemMessage _ _
    · exact hs.append _
  · exact hs.markDelivery _ _
  · exact hs

end Conversations

end Gui

end LanChat
