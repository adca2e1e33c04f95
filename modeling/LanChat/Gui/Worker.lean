import LanChat.Hub.Step

/-!
# The connection of the desktop client (`client-cpp/gui/src/gui_connection_worker.cpp`)

The worker lives in a thread of its own.  The controller calls it through a queue of `Call`s, and
it answers through a queue of `Signal`s.

* `ReconnectPolicy`: `reconnect_policy.cpp` without the delays;
* `Worker`: the connection and what decides when it is opened again.  `session` is the server's
  client object behind a connection that is ready, `timers` holds the generation of every
  `QTimer::singleShot` that has not fired;
* `Call.frame`: the frame that a call puts on a ready connection.

A login is one attempt from the worker's point of view: it ends with a session or without one.  The
receive loop may end while the connection still counts as ready, so a loss does not clear `session`.
The OpenSSL runtime is taken to be available.
-/

namespace LanChat

namespace Gui

open GoStrings

/-- `ReconnectPolicy`. -/
structure ReconnectPolicy where
  active : Bool := true
  attemptCount : ℕ := 0
  generation : ℕ := 0
  deriving DecidableEq, Repr

namespace ReconnectPolicy

/-- `scheduleNextAttempt`; `none` stands for the delay `-1`. -/
def scheduleNextAttempt (p : ReconnectPolicy) : Option ReconnectPolicy :=
  if p.active then some { p with attemptCount := p.attemptCount + 1 } else none

/-- `markConnected`. -/
def markConnected (p : ReconnectPolicy) : ReconnectPolicy :=
  { active := true, attemptCount := 0, generation := p.generation + 1 }

/-- `cancel`. -/
def cancel (p : ReconnectPolicy) : ReconnectPolicy :=
  { p with active := false, generation := p.generation + 1 }

end ReconnectPolicy

/-- The slots of the worker that the controller invokes. -/
inductive Call
  | connectToServer (username userCode : String)
  | disconnectFromServer
  | scheduleReconnect
  | sendChatToRoom (content room messageID : String)
  | sendPrivate (content targetUserCode messageID : String)
  | joinRoom (room : String)
  | createRoom (room : String) (isPrivate : Bool)
  | sendRoomAction (action room targetUserCode : String)
  | requestUsers
  | requestRooms
  | requestHistory (room targetUserCode : String) (isPrivate : Bool) (beforeMessageID : String)
      (limit : ℤ) (searchQuery : String)
  | sendAdminAction (action targetUserCode messageID commandID : String)
  deriving DecidableEq, Repr

/-- The signals of the worker that change the controller's session state. -/
inductive Signal
  | connected
  | connectionFailed
  | connectionLost
  | historyReceived (room targetUserCode : String) (isPrivate : Bool) (searchQuery : String)
  deriving DecidableEq, Repr

/-- `sendAdminAction` refuses an action that needs a target and has none. -/
def adminActionReady (action targetUserCode : String) : Bool :=
  trimSpace action != "" &&
    (trimSpace action == "recall" || trimSpace action == "approve_connection" ||
      trimSpace action == "deny_connection" || trimSpace targetUserCode != "")

/-- The frame that a call sends when the connection is ready. -/
def Call.frame : Call → Option Message
  | .connectToServer _ _ | .disconnectFromServer | .scheduleReconnect => none
  | .sendChatToRoom content room messageID =>
    if trimSpace content = "" then none
    else some { type := .chat, content := trimSpace content, room, messageID }
  | .sendPrivate content targetUserCode messageID =>
    if trimSpace content = "" ∨ targetUserCode = "" then none
    else some { type := .privateChat, content := trimSpace content, targetUserCode, messageID }
  | .joinRoom room =>
    if trimSpace room = "" then none else some { type := .roomJoin, room := trimSpace room }
  | .createRoom room isPrivate =>
    if trimSpace room = "" then none
    else some { type := .roomCreate, room := trimSpace room, isPrivate }
  | .sendRoomAction action room targetUserCode =>
    if trimSpace action = "" ∨ trimSpace room = "" then none
    else some { type := .roomAction, content := trimSpace action, room := trimSpace room,
                targetUserCode := trimSpace targetUserCode }
  | .requestUsers => some { type := .usersRequest }
  | .requestRooms => some { type := .roomsRequest }
  | .requestHistory room targetUserCode isPrivate beforeMessageID limit searchQuery =>
    some { type := .historyRequest, targetUserCode := trimSpace targetUserCode,
           room := trimSpace room, isPrivate, beforeMessageID := trimSpace beforeMessageID,
           searchQuery := trimSpace searchQuery, limit := max 1 (min limit 100) }
  | .sendAdminAction action targetUserCode messageID commandID =>
    if adminActionReady action targetUserCode then
      some { type := .adminAction, content := trimSpace action,
             targetUserCode := trimSpace targetUserCode, messageID := trimSpace messageID,
             commandID := trimSpace commandID }
    else none

/-- `GuiConnectionWorker`, the part that keeps the connection. -/
structure Worker where
  session : Option ClientID := none
  running : Bool := false
  explicitDisconnect : Bool := false
  savedConnection : Option (String × String) := none
  reconnectPolicy : ReconnectPolicy := {}
  reconnectTimerActive : Bool := false
  timers : List ℕ := []
  deriving DecidableEq, Repr

namespace Worker

/-- `connectToServerWithRetries`, given the session that the login ended with. -/
def connectToServerWithRetries (w : Worker) (login : Option ClientID) (reportFailure : Bool) :
    Worker × List Signal :=
  match login with
  | some c => ({ w with session := some c, running := true }, [.connected])
  | none => ({ w with session := none }, if reportFailure then [.connectionFailed] else [])

/-- `connectToServer`. -/
def connectToServer (w : Worker) (username userCode : String) (login : Option ClientID) :
    Worker × List Signal :=
  { w with
    running := false
    explicitDisconnect := false
    reconnectPolicy := w.reconnectPolicy.markConnected
    reconnectTimerActive := false
    savedConnection := some (username, userCode) }.connectToServerWithRetries login true

/-- `disconnectFromServer`. -/
def disconnectFromServer (w : Worker) : Worker :=
  { w with
    explicitDisconnect := true
    reconnectPolicy := w.reconnectPolicy.cancel
    reconnectTimerActive := false
    running := false
    session := none }

/-- `scheduleReconnect`. -/
def scheduleReconnect (w : Worker) : Worker :=
  if w.explicitDisconnect || w.savedConnection.isNone || w.reconnectTimerActive then w
  else
    let w := { w with running := false, session := none }
    match w.reconnectPolicy.scheduleNextAttempt with
    | none => w
    | some policy =>
      { w with
        reconnectPolicy := policy
        reconnectTimerActive := true
        timers := w.timers ++ [policy.generation] }

/-- The login that `retrySavedConnection` attempts. -/
def retryLogin (w : Worker) : Option (String × String) :=
  if w.explicitDisconnect then none else w.savedConnection

/-- `retrySavedConnection`. -/
def retrySavedConnection (w : Worker) (login : Option ClientID) : Worker × List Signal :=
  match w.retryLogin with
  | none => (w, [])
  | some _ =>
    let (w, signals) := w.connectToServerWithRetries login false
    if login.isSome then ({ w with reconnectPolicy := w.reconnectPolicy.markConnected }, signals)
    else (w.scheduleReconnect, signals)

/-- The timer of the given generation is the one that `retrySavedConnection` waits for. -/
def isCurrent (w : Worker) (generation : ℕ) : Bool :=
  w.timers.contains generation && generation == w.reconnectPolicy.generation

/-- A timer fires: one of an older generation does nothing. -/
def fireTimer (w : Worker) (generation : ℕ) (login : Option ClientID) : Worker × List Signal :=
  if w.isCurrent generation then
    { w with
      timers := w.timers.erase generation
      reconnectTimerActive := false }.retrySavedConnection login
  else ({ w with timers := w.timers.erase generation }, [])

/-- The end of `receiveLoop` after a failed receive. -/
def loseConnection (w : Worker) : Worker × List Signal :=
  if w.running then ({ w with running := false }, [.connectionLost]) else (w, [])

end Worker

end Gui

end LanChat
