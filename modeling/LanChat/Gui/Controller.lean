import LanChat.Gui.Worker
import LanChat.Lib.QString

/-!
# The chat controller of the desktop client (`client-cpp/gui/src/gui_chat_controller.cpp`)

What the controller knows about its session: whether it is connected, whether it waits for an
automatic reconnection, the room it believes the session to be in, the open conversation and the
history request on its way.  Every function returns the new state and the calls it queues for the
worker.  The row models are not modelled; a retry brings the row it found along.
-/

namespace LanChat

namespace Gui

open GoStrings

/-- `GuiChatController`. -/
structure Controller where
  connected : Bool := false
  reconnecting : Bool := false
  joinedRoom : String := "lobby"
  activeConversationKey : String := "room:lobby"
  historyLoading : Bool := false
  historySearchQuery : String := ""
  deriving DecidableEq, Repr

/-- The room that `sendRoomMessage` declares. -/
def declaredRoom (room : String) : String :=
  if trimSpace room = "" then "lobby" else trimSpace room

namespace Controller

/-- `activeConversationKey_` for a room. -/
def roomKey (room : String) : String := "room:" ++ room

/-- `activeConversationKey_` for a private chat. -/
def directKey (userCode : String) : String := "dm:" ++ userCode

/-- `key.startsWith("dm:")`. -/
def isDirect (key : String) : Bool := "dm:".toList.isPrefixOf key.toList

/-- `key.mid(n)`. -/
def mid (key : String) (n : ℕ) : String := String.ofList (key.toList.drop n)

theorem mid_append (first rest : String) : mid (first ++ rest) first.toList.length = rest := by
  unfold mid
  rw [String.toList_append, List.drop_left, String.ofList_toList]

theorem isDirect_directKey (userCode : String) : isDirect (directKey userCode) = true := by
  unfold isDirect directKey
  rw [String.toList_append]
  rfl

theorem isDirect_roomKey (room : String) : isDirect (roomKey room) = false := by
  unfold isDirect roomKey
  rw [String.toList_append]
  rfl

theorem mid_directKey (userCode : String) : mid (directKey userCode) 3 = userCode :=
  mid_append "dm:" userCode

theorem directKey_inj {userCode userCode' : String} (hkey : directKey userCode = directKey userCode') :
    userCode = userCode' := by
  rw [← mid_directKey userCode, hkey, mid_directKey]

/-- `requestActiveHistory`. -/
def requestActiveHistory (s : Controller) (beforeMessageID searchQuery : String) :
    Controller × List Call :=
  if !s.connected || s.historyLoading then (s, [])
  else
    let isPrivate := isDirect s.activeConversationKey
    let room := if isPrivate then "" else mid s.activeConversationKey 5
    let peer := if isPrivate then mid s.activeConversationKey 3 else ""
    ({ s with historyLoading := true },
      [.requestHistory room peer isPrivate beforeMessageID 50 searchQuery])

/-- `searchActiveHistory`. -/
def searchActiveHistory (s : Controller) (query : String) : Controller × List Call :=
  let s := { s with historySearchQuery := trimSpace query }
  if s.historyLoading then (s, []) else s.requestActiveHistory "" s.historySearchQuery

/-- The join of `selectRoom`: only when the room is another one than `joinedRoom_`, the case of
letters aside. -/
def joinSelected (s : Controller) (room : String) : Controller × List Call :=
  if QString.equalFold s.joinedRoom room then (s, [])
  else ({ s with joinedRoom := room }, [.joinRoom room])

/-- `selectRoom`. -/
def selectRoom (s : Controller) (room : String) : Controller × List Call :=
  let s := { s with historySearchQuery := "", activeConversationKey := roomKey room }
  let (s, calls) :=
    if s.connected then
      let (s, joins) := s.joinSelected room
      let (s, requests) := s.requestActiveHistory "" ""
      (s, joins ++ requests)
    else (s, [])
  ({ s with reconnecting := false }, calls)

/-- `selectDirectMessage`. -/
def selectDirectMessage (s : Controller) (userCode : String) : Controller × List Call :=
  let s := { s with historySearchQuery := "", activeConversationKey := directKey userCode }
  if s.connected then s.requestActiveHistory "" "" else (s, [])

/-- `resetSessionData`. -/
def resetSessionData (s : Controller) : Controller :=
  { s with
    activeConversationKey := roomKey "lobby"
    joinedRoom := "lobby"
    historyLoading := false
    historySearchQuery := "" }

/-- `handleConnected`: a recovered session keeps its data. -/
def handleConnected (s : Controller) : Controller × List Call :=
  let s := if s.reconnecting then s else s.resetSessionData
  let (s, requests) := { s with reconnecting := false, connected := true }.requestActiveHistory "" ""
  (s, [.requestRooms, .requestUsers] ++ requests)

/-- `handleConnectionFailed`. -/
def handleConnectionFailed (s : Controller) : Controller := { s with connected := false }

/-- `handleConnectionLost`. -/
def handleConnectionLost (s : Controller) : Controller × List Call :=
  ({ s with connected := false, reconnecting := true }, [.scheduleReconnect])

/-- `handleHistory`, without the rows. -/
def handleHistory (s : Controller) (room targetUserCode : String) (isPrivate : Bool)
    (searchQuery : String) : Controller × List Call :=
  let s := { s with historyLoading := false }
  let expected := if isPrivate then directKey targetUserCode else roomKey room
  if !QString.equalFold expected s.activeConversationKey then (s, [])
  else if searchQuery ≠ s.historySearchQuery then s.requestActiveHistory "" s.historySearchQuery
  else (s, [])

/-- The slots of the controller for the signals of the worker. -/
def handleSignal (s : Controller) : Signal → Controller × List Call
  | .connected => s.handleConnected
  | .connectionFailed => (s.handleConnectionFailed, [])
  | .connectionLost => s.handleConnectionLost
  | .historyReceived room targetUserCode isPrivate searchQuery =>
    s.handleHistory room targetUserCode isPrivate searchQuery

end Controller

/-- What the user, or a timer of the controller, asks for. -/
inductive Action
  | connectToServer (username userCode : String)
  | disconnectFromServer
  | selectRoom (room : String)
  | selectDirectMessage (userCode : String)
  | sendRoomMessage (content room messageID : String)
  | retryMessage (content room messageID : String)
  | sendPrivateMessage (content targetUserCode messageID : String)
  | searchActiveHistory (query : String)
  | createRoom (room : String) (isPrivate : Bool)
  | sendRoomAction (action room targetUserCode : String)
  | sendAdminAction (action targetUserCode messageID commandID : String)
  | refresh
  deriving DecidableEq, Repr

/-- The controller's reaction; `messageID` is the fresh id of the message, and a retry brings the
content of the failed row and the room in the key of its conversation. -/
def Controller.act (s : Controller) : Action → Controller × List Call
  | .connectToServer username userCode => (s, [.connectToServer username userCode])
  | .disconnectFromServer => ({ s with connected := false }, [.disconnectFromServer])
  | .selectRoom room => s.selectRoom room
  | .selectDirectMessage userCode => s.selectDirectMessage userCode
  | .sendRoomMessage content room messageID =>
    if trimSpace content = "" then (s, [])
    else (s, [.sendChatToRoom (trimSpace content) (declaredRoom room) messageID])
  | .retryMessage content room messageID => (s, [.sendChatToRoom content room messageID])
  | .sendPrivateMessage content targetUserCode messageID =>
    if trimSpace content = "" ∨ trimSpace targetUserCode = "" then (s, [])
    else (s, [.sendPrivate (trimSpace content) (trimSpace targetUserCode) messageID])
  | .searchActiveHistory query => s.searchActiveHistory query
  | .createRoom room isPrivate =>
    if trimSpace room = "" then (s, []) else (s, [.createRoom (trimSpace room) isPrivate])
  | .sendRoomAction action room targetUserCode => (s, [.sendRoomAction action room targetUserCode])
  | .sendAdminAction action targetUserCode messageID commandID =>
    (s, [.sendAdminAction action targetUserCode messageID commandID])
  | .refresh => if s.connected then (s, [.requestUsers, .requestRooms]) else (s, [])

end Gui

end LanChat
