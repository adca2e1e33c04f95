import LanChat.Gui.WindowSteps
import LanChat.Hub.Places

/-!
# The declared room and the session's room

A chat declares the room that its controller believes the session to be in; the Hub delivers it in
the room where the session is.

* `Agrees room calls view`: when the calls run in a session that is in `room` and every join is
  granted, each chat goes to the room it declares, and the session ends up in `view`;
* `careful`: the condition on a step;
* `Inv`: what the steps that meet it keep: what is on the way of a session agrees with its room and
  with its controller;
* `declared_of_careful`: then a chat reaches only clients in the room it declares;
* `reconnected_chat_misdelivered`: after an automatic reconnection it need not.
-/

namespace LanChat

namespace Gui

open GoStrings Registry EventMachine

/-! ### Frames on their way -/

/-- The session's room after a frame, when joins are granted. -/
def roomStep (room : String) (m : Message) : String :=
  if m.type = .roomJoin then m.room else room

/-- The session's room after some frames. -/
def roomAfter (room : String) (frames : List Message) : String := frames.foldl roomStep room

/-- Every chat declares the room where the session is by then. -/
def ChatsAgree : String → List Message → Prop
  | _, [] => True
  | room, m :: frames => (m.type = .chat → m.room = room) ∧ ChatsAgree (roomStep room m) frames

variable {room view view' : String} {frames frames' : List Message} {calls more : List Call}

theorem roomAfter_append :
    roomAfter room (frames ++ frames') = roomAfter (roomAfter room frames) frames' :=
  List.foldl_append

theorem chatsAgree_append : ChatsAgree room (frames ++ frames') ↔
    ChatsAgree room frames ∧ ChatsAgree (roomAfter room frames) frames' := by
  induction frames generalizing room with
  | nil => exact ⟨fun h => ⟨trivial, h⟩, fun h => h.2⟩
  | cons m frames ih =>
    have hrest : ChatsAgree (roomStep room m) (frames ++ frames') ↔
        ChatsAgree (roomStep room m) frames ∧
          ChatsAgree (roomAfter (roomStep room m) frames) frames' := ih
    exact ⟨fun h => ⟨⟨h.1, (hrest.1 h.2).1⟩, (hrest.1 h.2).2⟩,
      fun h => ⟨h.1.1, hrest.2 ⟨h.1.2, h.2⟩⟩⟩

/-- The call closes the connection. -/
def Call.closes : Call → Bool
  | .connectToServer _ _ | .disconnectFromServer | .scheduleReconnect => true
  | _ => false

/-- The frames of the calls before the first that closes the connection. -/
def upcoming : List Call → List Message
  | [] => []
  | call :: calls => if call.closes then [] else call.frame.toList ++ upcoming calls

theorem upcoming_append : upcoming (calls ++ more) =
    upcoming calls ++ if calls.any Call.closes then [] else upcoming more := by
  induction calls with
  | nil => rfl
  | cons call calls ih =>
    simp only [List.cons_append, upcoming, List.any_cons]
    by_cases hcloses : call.closes = true
    · simp only [hcloses, if_true, Bool.true_or, List.append_nil]
    · simp only [hcloses, Bool.false_eq_true, if_false, Bool.false_or]
      rw [ih, List.append_assoc]

/-- Run in a session that is in `room`, the calls send each chat to the room it declares, and leave
the session in `view` unless they close it. -/
structure Agrees (room : String) (calls : List Call) (view : String) : Prop where
  chats : ChatsAgree room (upcoming calls)
  ends : calls.any Call.closes = false → roomAfter room (upcoming calls) = view

theorem agrees_nil : Agrees room [] room := ⟨trivial, fun _ => rfl⟩

theorem Agrees.append (h : Agrees room calls view) (h' : Agrees view more view') :
    Agrees room (calls ++ more) view' := by
  cases hclose : calls.any Call.closes with
  | true =>
    have hup : upcoming (calls ++ more) = upcoming calls := by
      rw [upcoming_append, hclose, if_pos rfl, List.append_nil]
    refine ⟨hup ▸ h.chats, fun hopen => ?_⟩
    rw [List.any_append, hclose] at hopen
    cases hopen
  | false =>
    have hup : upcoming (calls ++ more) = upcoming calls ++ upcoming more := by
      rw [upcoming_append, hclose]
      rfl
    have hroom := h.ends hclose
    constructor
    · rw [hup, chatsAgree_append, hroom]
      exact ⟨h.chats, h'.chats⟩
    · intro hopen
      rw [List.any_append, hclose, Bool.false_or] at hopen
      rw [hup, roomAfter_append, hroom]
      exact h'.ends hopen

/-- A call that closes the connection leaves nothing to agree on. -/
theorem agrees_close {call : Call} (h : call.closes = true) : Agrees room [call] view := by
  constructor
  · simp only [upcoming, h]
    trivial
  · intro hopen
    rw [List.any_cons, h] at hopen
    cases hopen

/-- The call neither chats, joins nor closes. -/
def Call.quiet : Call → Bool
  | .sendChatToRoom _ _ _ | .joinRoom _ => false
  | call => !call.closes

/-- The type of the frame that a call sends. -/
def Call.type? : Call → Option MessageType
  | .connectToServer _ _ | .disconnectFromServer | .scheduleReconnect => none
  | .sendChatToRoom _ _ _ => some .chat
  | .sendPrivate _ _ _ => some .privateChat
  | .joinRoom _ => some .roomJoin
  | .createRoom _ _ => some .roomCreate
  | .sendRoomAction _ _ _ => some .roomAction
  | .requestUsers => some .usersRequest
  | .requestRooms => some .roomsRequest
  | .requestHistory _ _ _ _ _ _ => some .historyRequest
  | .sendAdminAction _ _ _ _ => some .adminAction

theorem type_frame {call : Call} {m : Message} (hm : call.frame = some m) :
    call.type? = some m.type := by
  cases call <;> simp only [Call.frame] at hm <;> (try split at hm) <;> cases hm <;> rfl

theorem frame_quiet {call : Call} (h : call.quiet = true) {m : Message}
    (hm : call.frame = some m) : m.type ≠ .chat ∧ m.type ≠ .roomJoin := by
  have htype := type_frame hm
  constructor
  · intro hchat
    rw [hchat] at htype
    cases call <;> simp_all [Call.type?, Call.quiet]
  · intro hjoin
    rw [hjoin] at htype
    cases call <;> simp_all [Call.type?, Call.quiet]

/-- No call leaves a room. -/
theorem frame_ne_roomLeave {call : Call} {m : Message} (hm : call.frame = some m) :
    m.type ≠ .roomLeave := by
  intro hleave
  have htype := type_frame hm
  rw [hleave] at htype
  cases call <;> simp [Call.type?] at htype

theorem agrees_quiet {call : Call} (h : call.quiet = true) : Agrees room [call] room := by
  have hclose : call.closes = false := by cases call <;> simp_all [Call.quiet, Call.closes]
  have hup : upcoming [call] = call.frame.toList := by
    simp only [upcoming, hclose, Bool.false_eq_true, if_false, List.append_nil]
  cases hframe : call.frame with
  | none =>
    rw [hframe] at hup
    exact ⟨hup ▸ trivial, fun _ => by rw [hup]; rfl⟩
  | some m =>
    obtain ⟨hchat, hjoin⟩ := frame_quiet h hframe
    rw [hframe] at hup
    refine ⟨hup ▸ ⟨fun h => absurd h hchat, trivial⟩, fun _ => ?_⟩
    rw [hup]
    exact if_neg hjoin

theorem agrees_chat (content messageID : String) :
    Agrees room [.sendChatToRoom content room messageID] room := by
  by_cases hcontent : trimSpace content = ""
  · have hup : upcoming [.sendChatToRoom content room messageID] = [] := by
      simp [upcoming, Call.closes, Call.frame, hcontent]
    constructor
    · rw [hup]
      trivial
    · intro _
      rw [hup]
      rfl
  · have hup : upcoming [.sendChatToRoom content room messageID] =
        [{ type := .chat, content := trimSpace content, room, messageID }] := by
      simp [upcoming, Call.closes, Call.frame, hcontent]
    constructor
    · rw [hup]
      exact ⟨fun _ => rfl, trivial⟩
    · intro _
      rw [hup]
      rfl

theorem agrees_join {name : String} (hname : trimSpace name ≠ "") :
    Agrees room [.joinRoom name] (trimSpace name) := by
  have hup : upcoming [.joinRoom name] = [{ type := .roomJoin, room := trimSpace name }] := by
    simp [upcoming, Call.closes, Call.frame, hname]
  constructor
  · rw [hup]
    exact ⟨nofun, trivial⟩
  · intro _
    rw [hup]
    rfl

/-- What remains after the first call. -/
theorem Agrees.tail {call : Call} (h : Agrees room (call :: calls) view)
    (hclose : call.closes = false) :
    ChatsAgree room call.frame.toList ∧ Agrees (roomAfter room call.frame.toList) calls view := by
  have hup : upcoming (call :: calls) = call.frame.toList ++ upcoming calls := by
    simp only [upcoming, hclose, Bool.false_eq_true, if_false]
  have hchats := h.chats
  rw [hup, chatsAgree_append] at hchats
  refine ⟨hchats.1, hchats.2, fun hopen => ?_⟩
  rw [← roomAfter_append, ← hup]
  refine h.ends ?_
  rw [List.any_cons, hclose]
  exact hopen

/-! ### The controller's view -/

/-- The room that the controller takes its session to be in. -/
def Controller.believedRoom (s : Controller) : String :=
  if s.connected then declaredRoom s.joinedRoom else "lobby"

theorem room_requestActiveHistory (s : Controller) (beforeMessageID searchQuery : String) :
    (s.requestActiveHistory beforeMessageID searchQuery).1.believedRoom = s.believedRoom := by
  unfold Controller.requestActiveHistory
  split <;> rfl

theorem agrees_requestActiveHistory (s : Controller) (beforeMessageID searchQuery : String) :
    Agrees room (s.requestActiveHistory beforeMessageID searchQuery).2 room := by
  unfold Controller.requestActiveHistory
  split
  · exact agrees_nil
  · exact agrees_quiet rfl

theorem agrees_joinSelected {s : Controller} (hconnected : s.connected = true) {name : String}
    (hname : trimSpace name ≠ "") :
    Agrees s.believedRoom (s.joinSelected name).2 (s.joinSelected name).1.believedRoom := by
  unfold Controller.joinSelected
  split
  · exact agrees_nil
  · have hview : (({ s with joinedRoom := name } : Controller)).believedRoom = trimSpace name := by
      simp only [Controller.believedRoom, hconnected, if_true, declaredRoom, if_neg hname]
    rw [hview]
    exact agrees_join hname

theorem agrees_selectRoom (s : Controller) {name : String} (hname : trimSpace name ≠ "") :
    Agrees s.believedRoom (s.selectRoom name).2 (s.selectRoom name).1.believedRoom := by
  unfold Controller.selectRoom
  dsimp only
  have hview : ∀ t : Controller, ({ t with reconnecting := false } : Controller).believedRoom =
      t.believedRoom := fun _ => rfl
  by_cases hconnected : s.connected = true
  · rw [if_pos hconnected]
    have hroom : s.believedRoom = ({ s with
      historySearchQuery := "", activeConversationKey := Controller.roomKey name } : Controller
      ).believedRoom := rfl
    rw [hroom, hview]
    have hjoin := agrees_joinSelected (s := { s with
      historySearchQuery := "", activeConversationKey := Controller.roomKey name }) hconnected hname
    refine hjoin.append ?_
    rw [room_requestActiveHistory]
    exact agrees_requestActiveHistory _ "" ""
  · rw [if_neg hconnected]
    exact agrees_nil

theorem agrees_selectDirectMessage (s : Controller) (userCode : String) :
    Agrees s.believedRoom (s.selectDirectMessage userCode).2
      (s.selectDirectMessage userCode).1.believedRoom := by
  unfold Controller.selectDirectMessage
  dsimp only
  split
  · rw [room_requestActiveHistory]
    exact agrees_requestActiveHistory _ "" ""
  · exact agrees_nil

theorem agrees_searchActiveHistory (s : Controller) (query : String) :
    Agrees s.believedRoom (s.searchActiveHistory query).2 (s.searchActiveHistory query).1.believedRoom := by
  unfold Controller.searchActiveHistory
  dsimp only
  split
  · exact agrees_nil
  · rw [room_requestActiveHistory]
    exact agrees_requestActiveHistory _ "" _

theorem agrees_handleHistory (s : Controller) (name targetUserCode : String) (isPrivate : Bool)
    (searchQuery : String) :
    Agrees s.believedRoom (s.handleHistory name targetUserCode isPrivate searchQuery).2
      (s.handleHistory name targetUserCode isPrivate searchQuery).1.believedRoom := by
  unfold Controller.handleHistory
  dsimp only
  generalize (if isPrivate = true then _ else _ : String) = expected
  split
  · exact agrees_nil
  split
  · rw [room_requestActiveHistory]
    exact agrees_requestActiveHistory _ "" _
  · exact agrees_nil

theorem declaredRoom_lobby : declaredRoom "lobby" = "lobby" := by decide +kernel

/-- A session begins in the lobby, and the controller takes it to be there: it has reset its data,
or it has recovered a session that was in the lobby. -/
theorem agrees_handleConnected {s : Controller} (hconnected : s.connected = false)
    (hrecovered : s.reconnecting = true → declaredRoom s.joinedRoom = "lobby") :
    Agrees s.believedRoom s.handleConnected.2 s.handleConnected.1.believedRoom := by
  have hroom : s.believedRoom = "lobby" := by
    unfold Controller.believedRoom
    rw [hconnected]
    rfl
  -- the new session is in the lobby as the controller sees it
  have hlobby : declaredRoom (if s.reconnecting = true then s else s.resetSessionData).joinedRoom =
      "lobby" := by
    by_cases hrec : s.reconnecting = true
    · rw [if_pos hrec]
      exact hrecovered hrec
    · rw [if_neg hrec]
      exact declaredRoom_lobby
  have hfirst : Agrees "lobby" [.requestRooms, .requestUsers] "lobby" :=
    Agrees.append (agrees_quiet rfl) (agrees_quiet rfl : Agrees "lobby" [.requestUsers] "lobby")
  unfold Controller.handleConnected
  dsimp only
  rw [room_requestActiveHistory, hroom]
  generalize (if s.reconnecting = true then s else s.resetSessionData) = t at hlobby ⊢
  have hview : ({ t with reconnecting := false, connected := true } : Controller).believedRoom =
      "lobby" := by
    unfold Controller.believedRoom
    rw [if_pos rfl]
    exact hlobby
  rw [hview]
  exact hfirst.append (agrees_requestActiveHistory _ "" "")

/-! ### The condition on a step -/

/-- The user selects rooms by their names and chats in the room where the session is taken to be. -/
def Action.careful (s : Controller) : Action → Bool
  | .selectRoom name => trimSpace name != ""
  | .sendRoomMessage _ name _ => declaredRoom name == s.believedRoom
  | .retryMessage _ name _ => name == s.believedRoom
  | _ => true

/-- The call neither joins a room nor chats outside the lobby. -/
def Call.staysInLobby : Call → Bool
  | .joinRoom _ => false
  | .sendChatToRoom _ name _ => name == "lobby"
  | _ => true

/-- The controller knows that the connection is gone, has handled every signal of it, and has
queued nothing that belongs to another room than the lobby. -/
def Window.readyForLogin (w : Window) (calls : List Call) : Bool :=
  !w.controller.connected && w.signals.isEmpty && calls.all Call.staysInLobby

namespace System

variable (platform : Platform)

/-- The frame is not one that moves a session of a window behind its controller's back. -/
def mayRead (s : System) (c : ClientID) (frame : Message) (limited : Bool) : Bool :=
  (frame.type != .chat || s.hub.registry.isConnected c) &&
    (frame.type != .roomJoin || (!limited && s.hub.grants c frame)) &&
    frame.type != .roomCreate && s.sessions.all fun d => !s.hub.evicts frame d

/-- The condition on a step: logins find their window ready, a recovered session was in the lobby,
joins are sent and granted, no room is created from a window, nobody of the windows is evicted, and
a chat is read while its session is registered. -/
def careful (s : System) : Input → Bool
  | .act i action => (s.windows[i]?).all fun w => action.careful w.controller
  | .runCall i attempt sendFails => (s.windows[i]?).all fun w =>
    match w.calls with
    | .connectToServer username userCode :: calls =>
      (loginSession platform s.hub username userCode attempt).isNone || w.readyForLogin calls
    | .joinRoom _ :: _ => !sendFails
    | _ => true
  | .fireTimer i generation attempt => (s.windows[i]?).all fun w =>
    match w.worker.retryLogin with
    | some (username, userCode) => !w.worker.isCurrent generation ||
      (loginSession platform s.hub username userCode attempt).isNone || w.readyForLogin w.calls
    | none => true
  | .handleSignal i => (s.windows[i]?).all fun w =>
    !(w.signals.head? == some .connected && w.controller.reconnecting) ||
      declaredRoom w.controller.joinedRoom == "lobby"
  | .readFrame c _ limited _ =>
    match s.wires c with
    | [] => true
    | frame :: _ => s.mayRead c frame limited
  | .server e =>
    match e.input with
    | .frame _ m _ _ => s.sessions.all fun d => !s.hub.evicts m d
    | _ => true
  | .loseConnection _ | .receiveHistory _ _ _ _ _ => true

end System

theorem agrees_act {s : Controller} {action : Action} (h : action.careful s = true) :
    Agrees s.believedRoom (s.act action).2 (s.act action).1.believedRoom := by
  cases action with
  | connectToServer username userCode => exact agrees_close rfl
  | disconnectFromServer => exact agrees_close rfl
  | selectRoom name =>
    refine agrees_selectRoom s ?_
    simpa [Action.careful] using h
  | selectDirectMessage userCode => exact agrees_selectDirectMessage s userCode
  | sendRoomMessage content name messageID =>
    have hroom : declaredRoom name = s.believedRoom := by simpa [Action.careful] using h
    simp only [Controller.act, hroom]
    split
    · exact agrees_nil
    · exact agrees_chat _ messageID
  | retryMessage content name messageID =>
    have hroom : name = s.believedRoom := by simpa [Action.careful] using h
    simp only [Controller.act, hroom]
    exact agrees_chat content messageID
  | sendPrivateMessage content targetUserCode messageID =>
    simp only [Controller.act]
    split
    · exact agrees_nil
    · exact agrees_quiet rfl
  | searchActiveHistory query => exact agrees_searchActiveHistory s query
  | createRoom name isPrivate =>
    simp only [Controller.act]
    split
    · exact agrees_nil
    · exact agrees_quiet rfl
  | sendRoomAction name action targetUserCode => exact agrees_quiet rfl
  | sendAdminAction action targetUserCode messageID commandID => exact agrees_quiet rfl
  | refresh =>
    simp only [Controller.act]
    split
    · exact Agrees.append (agrees_quiet rfl)
        (agrees_quiet rfl : Agrees s.believedRoom [.requestRooms] s.believedRoom)
    · exact agrees_nil

theorem agrees_lobby (h : calls.all Call.staysInLobby = true) : Agrees "lobby" calls "lobby" := by
  induction calls with
  | nil => exact agrees_nil
  | cons call calls ih =>
    rw [List.all_cons, Bool.and_eq_true] at h
    suffices hfirst : Agrees "lobby" [call] "lobby" from hfirst.append (ih h.2)
    by_cases hclose : call.closes = true
    · exact agrees_close hclose
    by_cases hquiet : call.quiet = true
    · exact agrees_quiet hquiet
    cases call with
    | sendChatToRoom content name messageID =>
      have hname : name = "lobby" := by simpa [Call.staysInLobby] using h.1
      rw [hname]
      exact agrees_chat content messageID
    | joinRoom name => cases h.1
    | _ => simp_all [Call.quiet, Call.closes]

/-! ### The invariant -/

/-- What a window keeps by itself: a live session is the one that the worker wants, the failure of
a login is not reported while there is a session, and a report of a new session finds the controller
disconnected. -/
structure Window.Settled (w : Window) : Prop where
  live : w.worker.session.isSome = true → w.worker.explicitDisconnect = false ∧
    w.worker.savedConnection.isSome = true ∧ w.worker.reconnectTimerActive = false
  noFailure : w.worker.session.isSome = true → .connectionFailed ∉ w.signals
  fresh : .connected ∈ w.signals → w.controller.connected = false
  once : w.signals.count .connected ≤ 1

namespace System

/-- What is on the way of the window's session agrees with the room where it is and with the
controller. -/
structure WindowInv (s : System) (w : Window) : Prop where
  settled : w.Settled
  own : ∀ c, w.worker.session = some c → c ∈ s.sessions
  agrees : ∀ c, w.worker.session = some c → c ∈ s.hub.registry.clients →
    ∀ o, s.hub.registry.client? c = some o →
      Agrees (roomAfter o.room (s.wires c)) w.calls w.controller.believedRoom

/-- The invariant of careful runs. -/
structure Inv (s : System) : Prop where
  sound : Sound s.hub.registry
  bounded : ∀ c ∈ s.sessions, c < s.hub.registry.objects.length
  silent : ∀ c, c ∉ s.sessions → s.wires c = []
  noLeave : ∀ c, ∀ m ∈ s.wires c, m.type ≠ .roomLeave
  wires : ∀ c ∈ s.hub.registry.clients, ∀ o, s.hub.registry.client? c = some o →
    ChatsAgree o.room (s.wires c)
  window : ∀ (i : ℕ) w, s.windows[i]? = some w → WindowInv s w
  apart : ∀ (i j : ℕ) w w' c, s.windows[i]? = some w → s.windows[j]? = some w' →
    w.worker.session = some c → w'.worker.session = some c → i = j

variable {platform : Platform} {s : System} {i : ℕ} {w w' : Window}

theorem inv_start (adminCode : String) (offlineStore : Bool) (windows : ℕ) :
    Inv (start adminCode offlineStore windows) := by
  have hwindow : ∀ (i : ℕ) w, (start adminCode offlineStore windows).windows[i]? = some w → w = {} := by
    intro i w hw
    exact List.eq_of_mem_replicate (List.mem_of_getElem? hw)
  refine ⟨Hub.sound_start _ _, ?_, fun _ _ => rfl, ?_, ?_, ?_, ?_⟩
  · intro c hc
    cases hc
  · intro c m hm
    cases hm
  · intro c hc
    cases hc
  · intro i w hw
    rw [hwindow i w hw]
    refine ⟨⟨nofun, nofun, nofun, Nat.zero_le _⟩, nofun, nofun⟩
  · intro i j w w' c hw hw' hc
    rw [hwindow i w hw] at hc
    cases hc

/-- A window may change as long as it keeps its part of the invariant and takes no session of
another window. -/
theorem Inv.setWindow (hi : Inv s) (hw : s.windows[i]? = some w) (hw' : WindowInv s w')
    (hown : ∀ c, w'.worker.session = some c → ∀ (j : ℕ) v, s.windows[j]? = some v →
      v.worker.session = some c → i = j) : Inv (s.setWindow i w') := by
  refine ⟨hi.sound, hi.bounded, hi.silent, hi.noLeave, hi.wires, ?_, ?_⟩
  · intro j v hv
    rw [getElem?_setWindow hw] at hv
    split_ifs at hv with hij
    · obtain rfl := Option.some_injective _ hv
      exact ⟨hw'.settled, hw'.own, hw'.agrees⟩
    · have hwin := hi.window j v hv
      exact ⟨hwin.settled, hwin.own, hwin.agrees⟩
  · intro j k v v' c hv hv' hc hc'
    rw [getElem?_setWindow hw] at hv hv'
    split_ifs at hv hv' with hij hik hik
    · exact hij.symm.trans hik
    · obtain rfl := Option.some_injective _ hv
      exact hij.symm.trans (hown c hc k v' hv' hc')
    · obtain rfl := Option.some_injective _ hv'
      exact (hown c hc' j v hv hc).symm.trans hik
    · exact hi.apart j k v v' c hv hv' hc hc'

/-- The same for a window that keeps its session or drops it. -/
theorem Inv.keepSession (hi : Inv s) (hw : s.windows[i]? = some w) (hw' : WindowInv s w')
    (hsession : ∀ c, w'.worker.session = some c → w.worker.session = some c) :
    Inv (s.setWindow i w') := by
  refine hi.setWindow hw hw' fun c hc j v hv hvc => ?_
  exact hi.apart i j w v c hw hv (hsession c hc) hvc

/-- A window without a session. -/
theorem windowInv_of_none (hsession : w.worker.session = none)
    (hfresh : .connected ∈ w.signals → w.controller.connected = false)
    (honce : w.signals.count .connected ≤ 1) : WindowInv s w := by
  refine ⟨⟨?_, ?_, hfresh, honce⟩, ?_, ?_⟩
  · intro h
    rw [hsession] at h
    cases h
  · intro h
    rw [hsession] at h
    cases h
  · intro c hc
    rw [hsession] at hc
    cases hc
  · intro c hc
    rw [hsession] at hc
    cases hc

/-- An event of the server that moves no session of a window. -/
theorem Inv.hubStep (hi : Inv s) (platform : Platform) (e : Hub.Event)
    (hmoved : ∀ d ∈ s.sessions, ¬ Hub.Moved s.hub e d) :
    Inv { s with hub := s.hub.step platform e } := by
  have hrooms := Hub.rooms_step platform hi.sound e
  have hlen := Hub.length_le_step platform hi.sound e
  refine ⟨Hub.sound_step platform s.hub e hi.sound, fun c hc => (hi.bounded c hc).trans_le hlen,
    hi.silent, hi.noLeave, ?_, ?_, hi.apart⟩
  · intro c hc o' ho'
    by_cases hs : c ∈ s.sessions
    · rcases hrooms c hc o' ho' with ⟨hc, o, ho, hroom | hmove⟩ | ⟨hnew, -⟩
      · rw [hroom]
        exact hi.wires c hc o ho
      · exact absurd hmove (hmoved c hs)
      · exact absurd (hi.bounded c hs) (Nat.not_lt.2 hnew)
    · change ChatsAgree o'.room (s.wires c)
      rw [hi.silent c hs]
      trivial
  · intro i w hw
    have hwin := hi.window i w hw
    refine ⟨hwin.settled, hwin.own, fun c hcs hc o' ho' => ?_⟩
    have hs := hwin.own c hcs
    rcases hrooms c hc o' ho' with ⟨hc, o, ho, hroom | hmove⟩ | ⟨hnew, -⟩
    · rw [hroom]
      exact hwin.agrees c hcs hc o ho
    · exact absurd hmove (hmoved c hs)
    · exact absurd (hi.bounded c hs) (Nat.not_lt.2 hnew)

/-- An event that is not a frame moves nobody. -/
theorem not_moved_of_input {h : Hub} {e : Hub.Event} {d : ClientID}
    (hframe : ∀ c m limited muted, e.input ≠ .frame c m limited muted) : ¬ Hub.Moved h e d := by
  rintro ⟨c, m, limited, muted, he, -⟩
  exact hframe c m limited muted he

/-! ### Logins -/

theorem mem_loginSession {h : Hub} {username userCode : String} {attempt : Attempt} {c : ClientID}
    (hc : loginSession platform h username userCode attempt = some c) :
    c = h.registry.objects.length ∧
      h.registry.objects.length <
        (loginHub platform h username userCode attempt).registry.objects.length := by
  cases attempt with
  | unreachable => cases hc
  | unanswered env => cases hc
  | answered env =>
    simp only [loginSession, Option.ite_none_right_eq_some, Option.some.injEq] at hc
    exact ⟨hc.2.symm, hc.1⟩

theorem Inv.loginHub (hi : Inv s) (username userCode : String) (attempt : Attempt) :
    Inv { s with hub := System.loginHub platform s.hub username userCode attempt } := by
  cases attempt with
  | unreachable => exact hi
  | unanswered env =>
    exact hi.hubStep platform ⟨.login username userCode, env⟩ fun d _ => not_moved_of_input (by simp)
  | answered env =>
    exact hi.hubStep platform ⟨.login username userCode, env⟩ fun d _ => not_moved_of_input (by simp)

/-- A login adds at most a session that no window had and that has sent nothing. -/
theorem Inv.afterLogin (hi : Inv s) (username userCode : String) (attempt : Attempt) :
    Inv (s.afterLogin platform username userCode attempt) := by
  have hlogin : Inv { s with hub := System.loginHub platform s.hub username userCode attempt } :=
    hi.loginHub username userCode attempt
  refine ⟨hlogin.sound, ?_, ?_, hlogin.noLeave, hlogin.wires, ?_, hlogin.apart⟩
  · intro c hc
    rcases List.mem_append.1 hc with hc | hc
    · exact hlogin.bounded c hc
    · obtain ⟨rfl, hlt⟩ := mem_loginSession (Option.mem_toList.1 hc)
      exact hlt
  · intro c hc
    exact hlogin.silent c fun hmem => hc (List.mem_append_left _ hmem)
  · intro i w hw
    have hwin := hlogin.window i w hw
    exact ⟨hwin.settled, fun c hc => List.mem_append_left _ (hwin.own c hc), hwin.agrees⟩

/-- The session of a login is in the lobby, and nothing is on its wire. -/
theorem Inv.newSession (hi : Inv s) {username userCode : String} {attempt : Attempt} {c : ClientID}
    (hc : loginSession platform s.hub username userCode attempt = some c) :
    s.wires c = [] ∧ ∀ o, c ∈ (System.loginHub platform s.hub username userCode attempt).registry.clients →
      (System.loginHub platform s.hub username userCode attempt).registry.client? c = some o →
      o.room = "lobby" := by
  obtain ⟨rfl, -⟩ := mem_loginSession hc
  have hnot : s.hub.registry.objects.length ∉ s.sessions := fun hmem =>
    Nat.lt_irrefl _ (hi.bounded _ hmem)
  refine ⟨hi.silent _ hnot, fun o hmem ho => ?_⟩
  cases attempt with
  | unreachable => cases hc
  | unanswered env => cases hc
  | answered env =>
    have hrooms := Hub.rooms_step platform hi.sound ⟨.login username userCode, env⟩
    rcases hrooms _ hmem o ho with ⟨-, o', ho', -⟩ | ⟨-, hroom⟩
    · exact absurd (client?_lt ho') (Nat.lt_irrefl _)
    · exact hroom

/-- A window whose only news is its session. -/
theorem settled_of_login (hsignals : w.signals = [.connected])
    (hconnected : w.controller.connected = false) (hexplicit : w.worker.explicitDisconnect = false)
    (hsaved : w.worker.savedConnection.isSome = true)
    (htimer : w.worker.reconnectTimerActive = false) : w.Settled := by
  refine ⟨fun _ => ⟨hexplicit, hsaved, htimer⟩, fun _ => ?_, fun _ => hconnected, ?_⟩
  · rw [hsignals]
    decide
  · rw [hsignals]
    decide

/-- The window that logged in. -/
theorem Inv.openWindow (hi : Inv s) (hw : s.windows[i]? = some w) {username userCode : String}
    {attempt : Attempt} {c : ClientID}
    (hc : loginSession platform s.hub username userCode attempt = some c)
    (hsession : w'.worker.session = some c) (hsettled : w'.Settled)
    (hconnected : w'.controller.connected = false)
    (hcalls : w'.calls.all Call.staysInLobby = true) :
    Inv ((s.afterLogin platform username userCode attempt).setWindow i w') := by
  have hafter : Inv (s.afterLogin platform username userCode attempt) :=
    hi.afterLogin username userCode attempt
  obtain ⟨hwire, hlobby⟩ := hi.newSession hc
  have hroom : w'.controller.believedRoom = "lobby" := by
    unfold Controller.believedRoom
    rw [hconnected]
    rfl
  refine hafter.setWindow hw ⟨hsettled, ?_, ?_⟩ ?_
  · intro d hd
    obtain rfl := Option.some_injective _ (hsession.symm.trans hd)
    refine List.mem_append_right _ ?_
    rw [hc]
    exact List.mem_cons_self
  · intro d hd hmem o ho
    obtain rfl := Option.some_injective _ (hsession.symm.trans hd)
    change Agrees (roomAfter o.room (s.wires c)) w'.calls w'.controller.believedRoom
    rw [hwire, hlobby o hmem ho, hroom]
    exact agrees_lobby hcalls
  · -- no window had the new session
    intro d hd j v hv hvd
    obtain rfl := Option.some_injective _ (hsession.symm.trans hd)
    have hold : c < s.hub.registry.objects.length := hi.bounded c ((hi.window j v hv).own c hvd)
    have hnew : c = s.hub.registry.objects.length := (mem_loginSession hc).1
    exact absurd (hnew ▸ hold) (Nat.lt_irrefl _)

/-! ### The steps of a window -/

theorem connected_requestActiveHistory (t : Controller) (beforeMessageID searchQuery : String) :
    (t.requestActiveHistory beforeMessageID searchQuery).1.connected = t.connected := by
  unfold Controller.requestActiveHistory
  split <;> rfl

/-- Only the report of a session connects the controller. -/
theorem connected_act {t : Controller} (hconnected : t.connected = false) (action : Action) :
    (t.act action).1.connected = false := by
  cases action with
  | selectRoom name =>
    simp only [Controller.act, Controller.selectRoom, hconnected]
    rfl
  | selectDirectMessage userCode =>
    simp only [Controller.act, Controller.selectDirectMessage, hconnected]
    rfl
  | searchActiveHistory query =>
    simp only [Controller.act, Controller.searchActiveHistory]
    split
    · exact hconnected
    · rw [connected_requestActiveHistory]
      exact hconnected
  | sendRoomMessage content name messageID =>
    simp only [Controller.act]
    split <;> exact hconnected
  | sendPrivateMessage content targetUserCode messageID =>
    simp only [Controller.act]
    split <;> exact hconnected
  | createRoom name isPrivate =>
    simp only [Controller.act]
    split <;> exact hconnected
  | refresh =>
    simp only [Controller.act]
    split <;> exact hconnected
  | disconnectFromServer => rfl
  | _ => exact hconnected

/-- The controller and the queues of a window change, its worker does not. -/
theorem WindowInv.react (hwin : WindowInv s w) {controller : Controller} {calls : List Call}
    {signals : List Signal}
    (hfailure : .connectionFailed ∉ w.signals → .connectionFailed ∉ signals)
    (hfresh : .connected ∈ signals → controller.connected = false)
    (honce : signals.count .connected ≤ 1)
    (hagrees : Agrees w.controller.believedRoom calls controller.believedRoom) :
    WindowInv s { w with controller, calls := w.calls ++ calls, signals } := by
  refine ⟨⟨hwin.settled.live, fun h => hfailure (hwin.settled.noFailure h), hfresh, honce⟩,
    hwin.own, fun c hc hmem o ho => ?_⟩
  exact (hwin.agrees c hc hmem o ho).append hagrees

theorem Inv.act (hi : Inv s) {action : Action} (hcare : s.careful platform (.act i action) = true) :
    Inv (s.step platform (.act i action)) := by
  simp only [System.step]
  split
  · exact hi
  rename_i w hw
  have hwin := hi.window i w hw
  have hcare : action.careful w.controller = true := by
    simpa only [careful, hw, Option.all_some] using hcare
  refine hi.keepSession hw ?_ fun c hc => hc
  refine hwin.react (fun h => h) (fun hmem => ?_) hwin.settled.once (agrees_act hcare)
  exact connected_act (hwin.settled.fresh hmem) action

theorem Inv.handleSignal (hi : Inv s) (hcare : s.careful platform (.handleSignal i) = true) :
    Inv (s.step platform (.handleSignal i)) := by
  simp only [System.step]
  split
  · exact hi
  rename_i w hw
  split
  · exact hi
  rename_i signal signals hsignals
  have hwin := hi.window i w hw
  have hsettled := hwin.settled
  have hrest : signals.count .connected ≤ 1 := by
    have honce := hsettled.once
    rw [hsignals] at honce
    exact List.count_le_count_cons.trans honce
  have hfailure : .connectionFailed ∉ w.signals → .connectionFailed ∉ signals := fun h hmem =>
    h (hsignals ▸ List.mem_cons_of_mem _ hmem)
  have hfresh : .connected ∈ signals → w.controller.connected = false := fun hmem =>
    hsettled.fresh (hsignals ▸ List.mem_cons_of_mem _ hmem)
  refine hi.keepSession hw ?_ fun c hc => hc
  cases signal with
  | connected =>
    have hconnected : w.controller.connected = false :=
      hsettled.fresh (hsignals ▸ List.mem_cons_self)
    have hrecovered : w.controller.reconnecting = true →
        declaredRoom w.controller.joinedRoom = "lobby" := by
      intro hrec
      simpa [careful, hw, hsignals, hrec] using hcare
    have hnone : Signal.connected ∉ signals := by
      have honce := hsettled.once
      rw [hsignals, List.count_cons_self] at honce
      exact List.count_eq_zero.1 (by omega)
    exact hwin.react hfailure (fun hmem => absurd hmem hnone) hrest
      (agrees_handleConnected hconnected hrecovered)
  | connectionFailed =>
    have hnone : w.worker.session = none := by
      by_contra hsome
      exact hsettled.noFailure (Option.isSome_iff_ne_none.2 hsome) (hsignals ▸ List.mem_cons_self)
    exact windowInv_of_none hnone (fun _ => rfl) hrest
  | connectionLost => exact hwin.react hfailure (fun _ => rfl) hrest (agrees_close rfl)
  | historyReceived name targetUserCode isPrivate searchQuery =>
    refine hwin.react hfailure (fun hmem => ?_) hrest (agrees_handleHistory _ _ _ _ _)
    have hsame : (w.controller.handleHistory name targetUserCode isPrivate searchQuery).1.connected =
        w.controller.connected := by
      unfold Controller.handleHistory
      dsimp only
      generalize (if isPrivate = true then _ else _ : String) = expected
      split
      · rfl
      split
      · exact connected_requestActiveHistory _ _ _
      · rfl
    exact hsame.trans (hfresh hmem)

theorem Inv.loseConnection (hi : Inv s) : Inv (s.step platform (.loseConnection i)) := by
  simp only [System.step]
  split
  · exact hi
  rename_i w hw
  have hwin := hi.window i w hw
  unfold Worker.loseConnection
  split
  · refine hi.keepSession hw ⟨⟨hwin.settled.live, fun h hmem => ?_, fun hmem => ?_, ?_⟩, hwin.own,
      hwin.agrees⟩ fun c hc => hc
    · exact hwin.settled.noFailure h (by simpa using hmem)
    · exact hwin.settled.fresh (by simpa using hmem)
    · simpa using hwin.settled.once
  · refine hi.keepSession hw ?_ fun c hc => hc
    rw [List.append_nil]
    exact hwin

theorem Inv.receiveHistory (hi : Inv s) {name targetUserCode searchQuery : String}
    {isPrivate : Bool} :
    Inv (s.step platform (.receiveHistory i name targetUserCode isPrivate searchQuery)) := by
  simp only [System.step]
  split
  · exact hi
  rename_i w hw
  have hwin := hi.window i w hw
  refine hi.keepSession hw ⟨⟨hwin.settled.live, fun h hmem => ?_, fun hmem => ?_, ?_⟩, hwin.own,
    hwin.agrees⟩ fun c hc => hc
  · exact hwin.settled.noFailure h (by simpa using hmem)
  · exact hwin.settled.fresh (by simpa using hmem)
  · simpa using hwin.settled.once

/-! ### The steps of a worker -/

theorem session_scheduleReconnect {worker : Worker}
    (hlive : worker.session.isSome = true → worker.explicitDisconnect = false ∧
      worker.savedConnection.isSome = true ∧ worker.reconnectTimerActive = false) :
    worker.scheduleReconnect.session = none := by
  unfold Worker.scheduleReconnect
  split
  · rename_i hstop
    by_contra hsome
    obtain ⟨hexplicit, hsaved, htimer⟩ := hlive (Option.isSome_iff_ne_none.2 hsome)
    rw [hexplicit, htimer, Option.isNone_eq_false_iff.2 hsaved] at hstop
    cases hstop
  · dsimp only
    split <;> rfl

/-- A frame goes on the wire of the window's session. -/
theorem Inv.putFrame (hi : Inv s) (hw : s.windows[i]? = some w) {c : ClientID} {call : Call}
    {calls : List Call} {frame : Message} (hc : w.worker.session = some c)
    (hcalls : w.calls = call :: calls) (hclose : call.closes = false)
    (hframe : call.frame = some frame) :
    Inv ((s.putFrame c frame).setWindow i { w with calls }) := by
  have hwin := hi.window i w hw
  have htail : c ∈ s.hub.registry.clients → ∀ o, s.hub.registry.client? c = some o →
      ChatsAgree (roomAfter o.room (s.wires c)) [frame] ∧
        Agrees (roomAfter o.room (s.wires c ++ [frame])) calls w.controller.believedRoom := by
    intro hmem o ho
    have hagrees := hwin.agrees c hc hmem o ho
    rw [hcalls] at hagrees
    obtain ⟨hchat, hrest⟩ := hagrees.tail hclose
    rw [hframe] at hchat hrest
    rw [roomAfter_append]
    exact ⟨hchat, hrest⟩
  have hself : (s.putFrame c frame).wires c = s.wires c ++ [frame] := Function.update_self ..
  have hother : ∀ d, d ≠ c → (s.putFrame c frame).wires d = s.wires d := fun d hd =>
    Function.update_of_ne hd ..
  refine ⟨hi.sound, hi.bounded, fun d hd => ?_, fun d m hm => ?_, fun d hd o ho => ?_,
    fun j v hv => ?_, fun j k v v' d hv hv' => ?_⟩
  · have hdc : d ≠ c := fun h => hd (h ▸ hwin.own c hc)
    exact (hother d hdc).trans (hi.silent d hd)
  · change m ∈ (s.putFrame c frame).wires d at hm
    by_cases hdc : d = c
    · subst hdc
      rw [hself] at hm
      rcases List.mem_append.1 hm with hm | hm
      · exact hi.noLeave d m hm
      · rw [List.mem_singleton.1 hm]
        exact frame_ne_roomLeave hframe
    · rw [hother d hdc] at hm
      exact hi.noLeave d m hm
  · change ChatsAgree o.room ((s.putFrame c frame).wires d)
    by_cases hdc : d = c
    · subst hdc
      rw [hself, chatsAgree_append]
      exact ⟨hi.wires d hd o ho, (htail hd o ho).1⟩
    · rw [hother d hdc]
      exact hi.wires d hd o ho
  · rw [getElem?_setWindow (s := s.putFrame c frame) hw] at hv
    split_ifs at hv with hij
    · obtain rfl := Option.some_injective _ hv
      have hsettled := hwin.settled
      refine ⟨⟨hsettled.live, hsettled.noFailure, hsettled.fresh, hsettled.once⟩, hwin.own,
        fun d hd hmem o ho => ?_⟩
      obtain rfl := Option.some_injective _ (hc.symm.trans hd)
      change Agrees (roomAfter o.room ((s.putFrame c frame).wires c)) calls _
      rw [hself]
      exact (htail hmem o ho).2
    · have hvin := hi.window j v hv
      refine ⟨hvin.settled, hvin.own, fun d hd hmem o ho => ?_⟩
      have hdc : d ≠ c := fun h => hij (hi.apart i j w v c hw hv hc (h ▸ hd))
      change Agrees (roomAfter o.room ((s.putFrame c frame).wires d)) v.calls _
      rw [hother d hdc]
      exact hvin.agrees d hd hmem o ho
  · have hsessions : ∀ (j : ℕ) v, ((s.putFrame c frame).setWindow i { w with calls }).windows[j]? =
        some v → ∃ u, s.windows[j]? = some u ∧ v.worker.session = u.worker.session := by
      intro j v hv
      rw [getElem?_setWindow (s := s.putFrame c frame) hw] at hv
      split_ifs at hv with hij
      · obtain rfl := Option.some_injective _ hv
        exact ⟨w, hij ▸ hw, rfl⟩
      · exact ⟨v, hv, rfl⟩
    obtain ⟨u, hu, hsu⟩ := hsessions j v hv
    obtain ⟨u', hu', hsu'⟩ := hsessions k v' hv'
    intro hd hd'
    exact hi.apart j k u u' d hu hu' (hsu ▸ hd) (hsu' ▸ hd')

/-- A call that sends a frame, or nothing when there is no connection or no frame to send; only
chats may be lost. -/
theorem Inv.sendCall (hi : Inv s) (hw : s.windows[i]? = some w) {call : Call} {calls : List Call}
    (hcalls : w.calls = call :: calls) (hclose : call.closes = false) {sendFails : Bool}
    (hjoin : call.type? = some .roomJoin → sendFails = false) :
    Inv (match w.worker.session, call.frame with
      | some c, some frame =>
        if sendFails then
          s.setWindow i { w with calls, signals := w.signals ++ [.connectionLost] }
        else (s.putFrame c frame).setWindow i { w with calls }
      | _, _ => s.setWindow i { w with calls }) := by
  have hwin := hi.window i w hw
  -- a call that leaves no frame and does not move the session
  have hdrop : ∀ {signals : List Signal}, (∀ c frame, w.worker.session = some c →
      call.frame = some frame → frame.type ≠ .roomJoin) →
      (.connectionFailed ∉ w.signals → .connectionFailed ∉ signals) →
      (.connected ∈ signals → .connected ∈ w.signals) →
      signals.count .connected ≤ 1 → Inv (s.setWindow i { w with calls, signals }) := by
    intro signals hframe hfailure hfresh honce
    refine hi.keepSession hw ⟨⟨hwin.settled.live, fun h => hfailure (hwin.settled.noFailure h),
      fun hmem => hwin.settled.fresh (hfresh hmem), honce⟩, hwin.own, fun c hc hmem o ho => ?_⟩
      fun c hc => hc
    have hagrees := hwin.agrees c hc hmem o ho
    rw [hcalls] at hagrees
    obtain ⟨-, hrest⟩ := hagrees.tail hclose
    cases hsome : call.frame with
    | none =>
      rw [hsome] at hrest
      exact hrest
    | some frame =>
      rw [hsome] at hrest
      have hstay : roomAfter (roomAfter o.room (s.wires c)) [frame] = roomAfter o.room (s.wires c) :=
        if_neg (hframe c frame hc hsome)
      exact hstay ▸ hrest
  split
  · rename_i c frame hc hframe
    split
    · rename_i hfails
      refine hdrop (fun c frame hc hframe hjoined => ?_) (fun h hmem => h (by simpa using hmem))
        (fun hmem => by simpa using hmem) (by simpa using hwin.settled.once)
      have htype := type_frame hframe
      rw [hjoined] at htype
      rw [hjoin htype] at hfails
      cases hfails
    · exact hi.putFrame hw hc hcalls hclose hframe
  · rename_i hnone
    refine hdrop (fun c frame hc hframe => ?_) (fun h => h) (fun h => h) hwin.settled.once
    exact absurd hframe (hnone c frame hc)

theorem Inv.runCall (hi : Inv s) {attempt : Attempt} {sendFails : Bool}
    (hcare : s.careful platform (.runCall i attempt sendFails) = true) :
    Inv (s.runCall platform i attempt sendFails) := by
  unfold System.runCall
  split
  · exact hi
  rename_i w hw
  split
  · exact hi
  rename_i call calls hcalls
  have hwin := hi.window i w hw
  have hcare : (match call :: calls with
      | .connectToServer username userCode :: calls =>
        (loginSession platform s.hub username userCode attempt).isNone || w.readyForLogin calls
      | .joinRoom _ :: _ => !sendFails
      | _ => true) = true := by
    simpa only [careful, hw, Option.all_some, hcalls] using hcare
  -- a window that loses its session
  have hclosed : ∀ {worker : Worker}, worker.session = none →
      Inv (s.setWindow i { w with calls, worker }) := by
    intro worker hnone
    refine hi.keepSession hw (windowInv_of_none hnone hwin.settled.fresh hwin.settled.once) ?_
    intro c hc
    rw [hnone] at hc
    cases hc
  have hsend : call.closes = false → (call.type? = some .roomJoin → sendFails = false) →
      Inv (match w.worker.session, call.frame with
        | some c, some frame =>
          if sendFails then
            s.setWindow i { w with calls, signals := w.signals ++ [.connectionLost] }
          else (s.putFrame c frame).setWindow i { w with calls }
        | _, _ => s.setWindow i { w with calls }) := fun hopen hjoin =>
    hi.sendCall hw hcalls hopen hjoin
  cases call with
  | connectToServer username userCode =>
    dsimp only at hcare ⊢
    cases hlogin : loginSession platform s.hub username userCode attempt with
    | none =>
      have hafter : Inv (s.afterLogin platform username userCode attempt) :=
        hi.afterLogin username userCode attempt
      refine hafter.keepSession hw (windowInv_of_none rfl (fun hmem => ?_) ?_) nofun
      · exact hwin.settled.fresh (by simpa [Worker.connectToServer,
          Worker.connectToServerWithRetries] using hmem)
      · simpa [Worker.connectToServer, Worker.connectToServerWithRetries] using hwin.settled.once
    | some c =>
      rw [hlogin] at hcare
      simp only [Option.isNone_some, Bool.false_or, Window.readyForLogin, Bool.and_eq_true,
        Bool.not_eq_true', List.isEmpty_iff] at hcare
      obtain ⟨⟨hconnected, hsignals⟩, hlobby⟩ := hcare
      refine hi.openWindow hw hlogin rfl (settled_of_login ?_ hconnected rfl rfl rfl) hconnected hlobby
      rw [hsignals]
      rfl
  | disconnectFromServer => exact hclosed rfl
  | scheduleReconnect => exact hclosed (session_scheduleReconnect hwin.settled.live)
  | joinRoom name => exact hsend rfl fun _ => by simpa using hcare
  | _ => exact hsend rfl nofun

theorem Inv.fireTimer (hi : Inv s) {generation : ℕ} {attempt : Attempt}
    (hcare : s.careful platform (.fireTimer i generation attempt) = true) :
    Inv (s.fireTimer platform i generation attempt) := by
  unfold System.fireTimer
  split
  · exact hi
  rename_i w hw
  have hwin := hi.window i w hw
  have hsettled := hwin.settled
  -- a timer that opens no connection leaves the session alone
  have hidle : w.worker.isCurrent generation = false ∨ w.worker.retryLogin = none →
      Inv (s.setWindow i { w with worker := (w.worker.fireTimer generation none).1 }) := by
    intro hno
    have hworker : (w.worker.fireTimer generation none).1.session = w.worker.session ∧
        (w.worker.fireTimer generation none).1.explicitDisconnect = w.worker.explicitDisconnect ∧
        (w.worker.fireTimer generation none).1.savedConnection = w.worker.savedConnection ∧
        (w.worker.reconnectTimerActive = false →
          (w.worker.fireTimer generation none).1.reconnectTimerActive = false) := by
      unfold Worker.fireTimer
      split
      · rename_i hcurrent
        have hretry : w.worker.retryLogin = none := by
          rcases hno with hno | hno
          · rw [hno] at hcurrent
            cases hcurrent
          · exact hno
        unfold Worker.retrySavedConnection
        have hretry' : Worker.retryLogin { w.worker with
            timers := w.worker.timers.erase generation, reconnectTimerActive := false } = none :=
          hretry
        rw [hretry']
        exact ⟨rfl, rfl, rfl, fun _ => rfl⟩
      · exact ⟨rfl, rfl, rfl, fun h => h⟩
    obtain ⟨hsession, hexplicit, hsaved, htimer⟩ := hworker
    refine hi.keepSession hw ⟨⟨fun h => ?_, fun h => ?_, hsettled.fresh, hsettled.once⟩,
      fun c hc => ?_, fun c hc => ?_⟩ fun c hc => ?_
    · obtain ⟨h1, h2, h3⟩ := hsettled.live (hsession ▸ h)
      exact ⟨hexplicit.trans h1, hsaved ▸ h2, htimer h3⟩
    · exact hsettled.noFailure (hsession ▸ h)
    · exact hwin.own c (hsession ▸ hc)
    · exact hwin.agrees c (hsession ▸ hc)
    · exact hsession ▸ hc
  split
  · rename_i username userCode hretry
    split
    · rename_i hcurrent
      have hcare : ((loginSession platform s.hub username userCode attempt).isNone ||
          w.readyForLogin w.calls) = true := by
        simpa [careful, hw, hretry, hcurrent] using hcare
      have hretry' : Worker.retryLogin { w.worker with
          timers := w.worker.timers.erase generation, reconnectTimerActive := false } =
          some (username, userCode) := hretry
      unfold Worker.fireTimer Worker.retrySavedConnection
      rw [if_pos hcurrent, hretry']
      dsimp only
      cases hlogin : loginSession platform s.hub username userCode attempt with
      | none =>
        have hafter : Inv (s.afterLogin platform username userCode attempt) :=
          hi.afterLogin username userCode attempt
        have hnone : ∀ worker : Worker, worker.session = none →
            worker.scheduleReconnect.session = none := fun worker hworker =>
          session_scheduleReconnect fun h => by rw [hworker] at h; cases h
        simp only [Worker.connectToServerWithRetries, Option.isSome_none, Bool.false_eq_true,
          if_false, List.append_nil]
        refine hafter.keepSession hw (windowInv_of_none (hnone _ rfl) hsettled.fresh hsettled.once)
          fun c hc => ?_
        rw [hnone _ rfl] at hc
        cases hc
      | some c =>
        rw [hlogin] at hcare
        simp only [Option.isNone_some, Bool.false_or, Window.readyForLogin, Bool.and_eq_true,
          Bool.not_eq_true', List.isEmpty_iff] at hcare
        obtain ⟨⟨hconnected, hsignals⟩, hlobby⟩ := hcare
        have hwanted : w.worker.explicitDisconnect = false ∧
            w.worker.savedConnection = some (username, userCode) := by
          unfold Worker.retryLogin at hretry
          split at hretry
          · cases hretry
          · rename_i hexplicit
            exact ⟨by simpa using hexplicit, hretry⟩
        simp only [Worker.connectToServerWithRetries, Option.isSome_some, if_true]
        refine hi.openWindow hw hlogin rfl (settled_of_login ?_ hconnected hwanted.1 ?_ rfl)
          hconnected hlobby
        · rw [hsignals]
          rfl
        · rw [hwanted.2]
          rfl
    · rename_i hcurrent
      exact hidle (.inl (by simpa using hcurrent))
  · rename_i hretry
    exact hidle (.inr hretry)

/-! ### The steps of the server -/

/-- What the condition on a frame gives. -/
theorem mayRead_iff {c : ClientID} {frame : Message} {limited : Bool} :
    s.mayRead c frame limited = true ↔
      (frame.type = .chat → c ∈ s.hub.registry.clients) ∧
      (frame.type = .roomJoin → limited = false ∧ s.hub.grants c frame = true) ∧
      frame.type ≠ .roomCreate ∧ ∀ d ∈ s.sessions, s.hub.evicts frame d = false := by
  unfold mayRead
  simp only [Bool.and_eq_true, Bool.or_eq_true, bne_iff_ne, ne_eq, isConnected_iff,
    Bool.not_eq_true', List.all_eq_true, and_assoc, ← Decidable.imp_iff_not_or]

/-- The room of a session after its own frame, and the rooms of the others. -/
theorem Inv.rooms_readFrame (hi : Inv s) {c : ClientID} {frame : Message} {rest : List Message}
    {env : Env} {limited muted : Bool} (hwire : s.wires c = frame :: rest)
    (hready : s.hub.readsFrames c = true) (hmay : s.mayRead c frame limited = true) {d : ClientID}
    (hd : d ∈ s.sessions) {o' : Client}
    (hmem : d ∈ (s.hub.step platform ⟨.frame c frame limited muted, env⟩).registry.clients)
    (ho' : (s.hub.step platform ⟨.frame c frame limited muted, env⟩).registry.client? d = some o') :
    d ∈ s.hub.registry.clients ∧ ∃ o, s.hub.registry.client? d = some o ∧
      o'.room = if d = c then roomStep o.room frame else o.room := by
  obtain ⟨-, hjoin, hcreate, hevict⟩ := mayRead_iff.1 hmay
  have hrooms := Hub.rooms_step platform hi.sound ⟨.frame c frame limited muted, env⟩
  rcases hrooms d hmem o' ho' with ⟨hd', o, ho, hroom⟩ | ⟨hnew, -⟩
  swap
  · exact absurd (hi.bounded d hd) (Nat.not_lt.2 hnew)
  refine ⟨hd', o, ho, ?_⟩
  by_cases hown : d = c ∧ frame.type = .roomJoin
  · obtain ⟨rfl, ht⟩ := hown
    obtain ⟨rfl, hgrants⟩ := hjoin ht
    rw [if_pos rfl, roomStep, if_pos ht]
    exact Hub.room_after_join rfl ht hready hgrants hmem ho'
  · have hsame : o'.room = o.room := by
      refine hroom.resolve_right ?_
      rintro ⟨c', m, limited', muted', he, hmove⟩
      obtain ⟨rfl, rfl, -, -⟩ := Hub.Input.frame.inj he
      rcases hmove with ⟨rfl, hwalk⟩ | hmove
      · have hleave := hi.noLeave c frame (hwire ▸ List.mem_cons_self)
        simp only [Hub.walkTypes, List.mem_cons, List.not_mem_nil, or_false] at hwalk
        rcases hwalk with hwalk | hwalk | hwalk
        · exact hown ⟨rfl, hwalk⟩
        · exact hcreate hwalk
        · exact hleave hwalk
      · rw [hevict d hd] at hmove
        cases hmove
    rw [hsame]
    by_cases hdc : d = c
    · rw [if_pos hdc, roomStep, if_neg fun ht => hown ⟨hdc, ht⟩]
    · rw [if_neg hdc]

theorem Inv.readFrame (hi : Inv s) {c : ClientID} {env : Env} {limited muted : Bool}
    (hcare : s.careful platform (.readFrame c env limited muted) = true) :
    Inv (s.readFrame platform c env limited muted) := by
  unfold System.readFrame
  split
  · exact hi
  rename_i frame rest hwire
  split
  swap
  · exact hi
  rename_i hready
  have hmay : s.mayRead c frame limited = true := by simpa only [careful, hwire] using hcare
  have hown : c ∈ s.sessions := by
    by_contra hnot
    rw [hi.silent c hnot] at hwire
    cases hwire
  have hlen := Hub.length_le_step platform hi.sound ⟨.frame c frame limited muted, env⟩
  have hself : Function.update s.wires c rest c = rest := Function.update_self ..
  have hother : ∀ d, d ≠ c → Function.update s.wires c rest d = s.wires d := fun d hd =>
    Function.update_of_ne hd ..
  -- the room of each session at the head of what is left on its wire
  have hafter : ∀ d ∈ s.sessions, ∀ o',
      d ∈ (s.hub.step platform ⟨.frame c frame limited muted, env⟩).registry.clients →
      (s.hub.step platform ⟨.frame c frame limited muted, env⟩).registry.client? d = some o' →
      d ∈ s.hub.registry.clients ∧ ∃ o, s.hub.registry.client? d = some o ∧
        (ChatsAgree o.room (s.wires d) → ChatsAgree o'.room (Function.update s.wires c rest d)) ∧
        roomAfter o'.room (Function.update s.wires c rest d) = roomAfter o.room (s.wires d) := by
    intro d hd o' hmem ho'
    obtain ⟨hd', o, ho, hroom⟩ := hi.rooms_readFrame hwire hready hmay hd hmem ho'
    refine ⟨hd', o, ho, ?_⟩
    by_cases hdc : d = c
    · subst hdc
      rw [if_pos rfl] at hroom
      rw [hself, hwire, hroom]
      exact ⟨fun h => h.2, rfl⟩
    · rw [if_neg hdc] at hroom
      rw [hother d hdc, hroom]
      exact ⟨fun h => h, rfl⟩
  refine ⟨Hub.sound_step platform s.hub _ hi.sound, fun d hd => (hi.bounded d hd).trans_le hlen,
    fun d hd => ?_, fun d m hm => ?_, fun d hd o' ho' => ?_, fun i w hw => ?_, hi.apart⟩
  · have hdc : d ≠ c := fun h => hd (h ▸ hown)
    exact (hother d hdc).trans (hi.silent d hd)
  · refine hi.noLeave d m ?_
    by_cases hdc : d = c
    · subst hdc
      have hm : m ∈ rest := hself ▸ hm
      exact hwire ▸ List.mem_cons_of_mem _ hm
    · exact hother d hdc ▸ hm
  · by_cases hs : d ∈ s.sessions
    · obtain ⟨hd', o, ho, hchats, -⟩ := hafter d hs o' hd ho'
      exact hchats (hi.wires d hd' o ho)
    · have hdc : d ≠ c := fun h => hs (h ▸ hown)
      change ChatsAgree o'.room (Function.update s.wires c rest d)
      rw [hother d hdc, hi.silent d hs]
      trivial
  · have hwin := hi.window i w hw
    refine ⟨hwin.settled, hwin.own, fun d hd hmem o' ho' => ?_⟩
    obtain ⟨hd', o, ho, -, hroom⟩ := hafter d (hwin.own d hd) o' hmem ho'
    change Agrees (roomAfter o'.room (Function.update s.wires c rest d)) w.calls _
    rw [hroom]
    exact hwin.agrees d hd hd' o ho

theorem Inv.server (hi : Inv s) {e : Hub.Event} (hcare : s.careful platform (.server e) = true) :
    Inv (s.step platform (.server e)) := by
  simp only [System.step]
  split
  · exact hi
  rename_i hforeign
  refine hi.hubStep platform e fun d hd => ?_
  rintro ⟨c, m, limited, muted, he, hmove⟩
  rcases hmove with ⟨rfl, -⟩ | hmove
  · -- the frames of the windows' sessions do not come this way
    refine hforeign ?_
    simpa only [isOwnFrame, he, List.contains_iff_mem] using hd
  · have hevict : ∀ d ∈ s.sessions, s.hub.evicts m d = false := by
      simpa [careful, he] using hcare
    rw [hevict d hd] at hmove
    cases hmove

/-- Every step that meets the condition keeps the invariant. -/
theorem inv_step (platform : Platform) (s : System) (x : Input)
    (hcare : s.careful platform x = true) (hi : Inv s) : Inv (s.step platform x) := by
  cases x with
  | act i action => exact hi.act hcare
  | runCall i attempt sendFails => exact hi.runCall hcare
  | fireTimer i generation attempt => exact hi.fireTimer hcare
  | loseConnection i => exact hi.loseConnection
  | receiveHistory i name targetUserCode isPrivate searchQuery => exact hi.receiveHistory
  | handleSignal i => exact hi.handleSignal hcare
  | readFrame c env limited muted => exact hi.readFrame hcare
  | server e => exact hi.server hcare

/-! ### The declared room -/

/-- When the step hands a chat of a window to the Hub, the chat is delivered only to clients whose
room is the one it declares. -/
def ReachesDeclaredRoom (platform : Platform) (s : System) (x : Input) : Prop :=
  ∀ c env limited muted frame rest, x = .readFrame c env limited muted →
    s.wires c = frame :: rest → frame.type = .chat →
    ∀ d m, (d, m) ∈ Hub.sentBetween s.hub (s.step platform x).hub → m.type = .chat →
      ∃ o, s.hub.registry.client? d = some o ∧ o.room = frame.room

theorem reachesDeclaredRoom_step (platform : Platform) (s : System) (x : Input) (hi : Inv s)
    (hcare : s.careful platform x = true) : ReachesDeclaredRoom platform s x := by
  rintro c env limited muted frame rest rfl hwire hchat d m hsent hm
  have hmay : s.mayRead c frame limited = true := by simpa only [careful, hwire] using hcare
  have hc := (mayRead_iff.1 hmay).1 hchat
  obtain ⟨obj, hobj, -, -⟩ := hi.sound.online c hc
  have hagrees := hi.wires c hc obj hobj
  rw [hwire] at hagrees
  rw [hagrees.1 hchat]
  simp only [System.step, System.readFrame, hwire] at hsent
  split at hsent
  · exact Hub.chat_step platform hi.sound rfl hchat hc hobj hsent hm
  · exact absurd hsent (Hub.not_mem_sentBetween rfl)

/-- In every run whose steps meet the condition, chats reach only the rooms they declare. -/
theorem declared_of_careful (platform : Platform) (adminCode : String) (offlineStore : Bool)
    (windows : ℕ) (xs : List Input)
    (hcare : Along (System.step platform) (fun s x => s.careful platform x = true)
      (start adminCode offlineStore windows) xs) :
    Along (System.step platform) (ReachesDeclaredRoom platform)
      (start adminCode offlineStore windows) xs :=
  along_of_invariant (System.step platform) (inv_step platform) (reachesDeclaredRoom_step platform)
    (inv_start adminCode offlineStore windows) hcare

/-- A window connects and handles the report. -/
def connectInputs (i : ℕ) (username userCode : String) : List Input :=
  [.act i (.connectToServer username userCode), .runCall i (.answered {}) false, .handleSignal i]

/-- The worker of window `i` runs `n` calls, and the server reads `n` frames of its session. -/
def pumpInputs (i : ℕ) (c : ClientID) (n : ℕ) : List Input :=
  List.replicate n (.runCall i .unreachable false) ++
    List.replicate n (.readFrame c {} false false)

/-- Alice and Bob connect, Carol opens a room from another program, and Alice joins it. -/
def joinInputs : List Input :=
  connectInputs 0 "Alice" "alice" ++ connectInputs 1 "Bob" "bob00" ++
    (Hub.sessionEvents 2 "Carol" "carol").map .server ++
    [.server (Hub.frameEvent 2 { type := .roomCreate, room := "den" }), .act 0 (.selectRoom "den")] ++
    pumpInputs 0 0 4

/-- Alice chats in the room that she has joined. -/
theorem declared_of_careful_joined :
    Along (System.step Hub.samplePlatform) (ReachesDeclaredRoom Hub.samplePlatform)
      (start "" false 2)
      (joinInputs ++ .act 0 (.sendRoomMessage "hi" "den" "m1") :: pumpInputs 0 0 1) :=
  declared_of_careful Hub.samplePlatform "" false 2 _ (by decide +kernel)

/-- Alice's connection is lost, the automatic reconnection succeeds, and she goes on chatting in
the room that is open in her window. -/
def reconnectInputs : List Input :=
  joinInputs ++ [.loseConnection 0, .handleSignal 0, .runCall 0 .unreachable false,
    .server ⟨.unregister 0, {}⟩, .fireTimer 0 1 (.answered {}), .handleSignal 0,
    .act 0 (.sendRoomMessage "hi" "den" "m1")] ++
    List.replicate 3 (.runCall 0 .unreachable false) ++
    List.replicate 2 (.readFrame 3 {} false false)

/-- The chat that declares `den` is delivered to Bob, who is in the lobby. -/
theorem reconnected_chat_misdelivered :
    ¬ ∀ (platform : Platform) (adminCode : String) (offlineStore : Bool) (windows : ℕ)
      (xs : List Input), Along (System.step platform) (ReachesDeclaredRoom platform)
        (start adminCode offlineStore windows) xs := by
  intro h
  have hfacts : ∃ frame, (run (System.step Hub.samplePlatform) (start "" false 2)
        reconnectInputs).wires 3 = [frame] ∧ frame.type = .chat ∧ frame.room = "den" ∧
      ∃ x ∈ Hub.sentBetween (run (System.step Hub.samplePlatform) (start "" false 2)
          reconnectInputs).hub
          ((run (System.step Hub.samplePlatform) (start "" false 2) reconnectInputs).step
            Hub.samplePlatform (.readFrame 3 {} false false)).hub,
        x.1 = 1 ∧ x.2.type = .chat ∧
        ((run (System.step Hub.samplePlatform) (start "" false 2)
          reconnectInputs).hub.registry.client? 1).map Client.room = some "lobby" := by
    refine ⟨{ type := .chat, content := "hi", room := "den", messageID := "m1" }, ?_⟩
    decide +kernel
  have hlast := (h Hub.samplePlatform "" false 2
    (reconnectInputs ++ [.readFrame 3 {} false false])).append.2.1
  obtain ⟨frame, hwire, htype, hden, ⟨d, m⟩, hmem, rfl, hm, hlobby⟩ := hfacts
  obtain ⟨o, ho, hroom⟩ := hlast 3 {} false false frame [] rfl hwire htype 1 m hmem hm
  rw [ho, Option.map_some, hroom, hden] at hlobby
  exact absurd (Option.some_injective _ hlobby) (by decide)

end System

end Gui

end LanChat
