import LanChat.Gui.ChatView
import LanChat.Lib.KeyedRows
import LanChat.Lib.Run

/-!
# The order of the rows after an earlier page has come

`handleHistory` puts the messages that a conversation does not show in front of its rows, whatever
their place in the page is.

* `Fits s response`: the rows that are kept stand as in the response, and what is missing stands in
  the response before them;
* `inv_run`: a conversation has at most a thousand rows, in every state of the controller;
* `history_in_order_iff`: the rows stand as in the response if and only if the response fits.
-/

namespace LanChat

namespace Gui

namespace ChatView

open EventMachine KeyedRows ChatListModel Conversations

variable (localTime : String → Option String)

/-- `messageModel_`: the rows of the conversation that is open. -/
def shown (s : ChatView) : List MessageRow := s.conversations.rows s.session.activeConversationKey

/-- The ids of the messages of a response. -/
def responseIDs (response : Message) : List String :=
  (response.messages.map HistoryMessage.messageID).filter (· != "")

/-- The rows stand as their messages do in a response. -/
def InOrder (response : Message) (rows : List MessageRow) : Prop :=
  Follows (responseIDs response) (rows.map MessageRow.messageID)

instance (response : Message) (rows : List MessageRow) : Decidable (InOrder response rows) :=
  inferInstanceAs (Decidable (Follows _ _))

/-- The messages of a response that go in front of the rows. -/
def missing (s : ChatView) (response : Message) : List HistoryMessage :=
  if s.takes response then unknownMessages s.shown response.messages else []

/-- The rows that have room behind them. -/
def kept (s : ChatView) (response : Message) : List MessageRow :=
  s.shown.take (maxRowsPerModel - (s.missing response).length)

/-- What is missing comes before what is kept. -/
structure Fits (s : ChatView) (response : Message) : Prop where
  kept : InOrder response (s.kept response)
  missing : ∀ m ∈ s.missing response, ∀ row ∈ s.kept response,
    row.messageID ∈ responseIDs response →
      Before (responseIDs response) m.messageID row.messageID

/-! ### The conversation that is open -/

section Active

theorem active_requestActiveHistory (s : Controller) (beforeMessageID searchQuery : String) :
    (s.requestActiveHistory beforeMessageID searchQuery).1.activeConversationKey =
      s.activeConversationKey := by
  unfold Controller.requestActiveHistory
  split_ifs <;> rfl

theorem active_searchActiveHistory (s : Controller) (query : String) :
    (s.searchActiveHistory query).1.activeConversationKey = s.activeConversationKey := by
  unfold Controller.searchActiveHistory
  dsimp only
  split_ifs
  · rfl
  · exact active_requestActiveHistory _ _ _

theorem active_selectRoom (s : Controller) (room : String) :
    (s.selectRoom room).1.activeConversationKey = Controller.roomKey room := by
  unfold Controller.selectRoom Controller.joinSelected
  dsimp only
  split_ifs
  · exact active_requestActiveHistory _ _ _
  · exact active_requestActiveHistory _ _ _
  · rfl

theorem active_selectDirectMessage (s : Controller) (userCode : String) :
    (s.selectDirectMessage userCode).1.activeConversationKey = Controller.directKey userCode := by
  unfold Controller.selectDirectMessage
  dsimp only
  split_ifs
  · exact active_requestActiveHistory _ _ _
  · rfl

theorem active_handleConnected (s : Controller) :
    s.handleConnected.1.activeConversationKey =
      if s.reconnecting then s.activeConversationKey else Controller.roomKey "lobby" := by
  unfold Controller.handleConnected
  dsimp only
  rw [active_requestActiveHistory]
  dsimp only
  split_ifs <;> rfl

theorem active_handleHistory (s : Controller) (room targetUserCode : String) (isPrivate : Bool)
    (searchQuery : String) :
    (s.handleHistory room targetUserCode isPrivate searchQuery).1.activeConversationKey =
      s.activeConversationKey := by
  have hkey : ∀ expected : String, (if !QString.equalFold expected s.activeConversationKey then
      (({ s with historyLoading := false } : Controller), ([] : List Call))
    else if searchQuery ≠ s.historySearchQuery then
      ({ s with historyLoading := false } : Controller).requestActiveHistory ""
        s.historySearchQuery
    else ({ s with historyLoading := false }, [])).1.activeConversationKey =
      s.activeConversationKey := by
    intro expected
    split_ifs
    · rfl
    · exact active_requestActiveHistory _ _ _
    · rfl
  exact hkey _

theorem active_trimLoop (rounds : ℕ) (s : Conversations) (protectedKey : String) :
    (trimLoop rounds s protectedKey).activeConversationKey = s.activeConversationKey := by
  induction rounds generalizing s with
  | zero => rfl
  | succ rounds ih =>
    unfold trimLoop
    split
    · rfl
    split
    · rfl
    · exact ih _

theorem active_ensureConversationModel (s : Conversations) (key : String) :
    (s.ensureConversationModel key).activeConversationKey = s.activeConversationKey := by
  unfold ensureConversationModel
  dsimp only
  split_ifs
  · rfl
  · exact active_trimLoop _ _ key

theorem active_resetSessionData (s : Conversations) :
    s.resetSessionData.activeConversationKey = Controller.roomKey "lobby" :=
  active_ensureConversationModel _ _

theorem active_append (s : Conversations) (key : String) (row : MessageRow) :
    (s.append key row).activeConversationKey = s.activeConversationKey :=
  active_ensureConversationModel s key

theorem active_handleMessage (user : LocalUser) (time : String) (message : Message)
    (s : Conversations) :
    (s.handleMessage user time message).activeConversationKey = s.activeConversationKey := by
  obtain ⟨counter, row, heq⟩ := handleMessage_eq user time message s
  rw [heq]
  exact active_append _ _ row

theorem active_markDelivery (s : Conversations) (messageID deliveryState : String) :
    (s.markDelivery messageID deliveryState).activeConversationKey = s.activeConversationKey := by
  unfold markDelivery
  split_ifs <;> rfl

theorem active_removeLocalMessage (s : Conversations) (messageID : String) :
    (s.removeLocalMessage messageID).activeConversationKey = s.activeConversationKey := by
  unfold removeLocalMessage
  split_ifs <;> rfl

theorem active_retryMessage (s : Conversations) (messageID key : String) :
    (s.retryMessage messageID key).activeConversationKey = s.activeConversationKey := by
  unfold retryMessage
  split_ifs
  · rfl
  split
  · rfl
  split_ifs <;> rfl

theorem active_handleIncoming (user : LocalUser) (time : String) (message : Message)
    (s : Conversations) :
    (s.handleIncoming user time message).activeConversationKey = s.activeConversationKey := by
  unfold handleIncoming
  split
  · have hreceipt : ∀ state : String, (if state = "sent" ∨ state = "delivered" then
        s.markDelivery message.messageID state else s).activeConversationKey =
          s.activeConversationKey := by
      intro state
      split_ifs
      · exact active_markDelivery s _ _
      · rfl
    exact hreceipt _
  · split_ifs <;> rfl
  · exact active_handleMessage user time message s
  · exact active_handleMessage user time message s
  · exact active_handleMessage user time message s
  · split_ifs
    · exact active_handleMessage user time message s
    · rfl
  · exact active_removeLocalMessage s _
  · split_ifs
    · rfl
    · exact active_append s _ _
  · exact active_markDelivery s _ _
  · rfl

end Active

/-! ### What every run keeps -/

/-- The session and the rows have the same conversation open, and none has more than a thousand
rows. -/
structure Inv (s : ChatView) : Prop where
  active : s.session.activeConversationKey = s.conversations.activeConversationKey
  bounded : s.conversations.Bounded

variable {localTime}

theorem inv_start : Inv start := ⟨rfl, bounded_start⟩

theorem Inv.selectDirectMessage {s : ChatView} (hi : Inv s) (userCode : String) :
    Inv (s.selectDirectMessage userCode) :=
  ⟨active_selectDirectMessage s.session userCode, hi.bounded.select _⟩

theorem Inv.handleConnected {s : ChatView} (hi : Inv s) : Inv s.handleConnected := by
  unfold ChatView.handleConnected
  constructor
  · dsimp only
    rw [active_handleConnected]
    split_ifs
    · exact hi.active
    · exact (active_resetSessionData _).symm
  · dsimp only
    split_ifs
    · exact hi.bounded
    · exact Bounded.resetSessionData _

theorem Inv.handleHistory {s : ChatView} (hi : Inv s) (time : String) (response : Message) :
    Inv (s.handleHistory localTime time response) := by
  unfold ChatView.handleHistory
  constructor
  · dsimp only
    rw [active_handleHistory]
    split_ifs
    · exact hi.active
    · exact hi.active
  · dsimp only
    split_ifs
    · exact hi.bounded.setRows (length_prependRows _ (hi.bounded _))
    · exact hi.bounded

theorem inv_step (s : ChatView) (x : Input) (hi : Inv s) : Inv (s.step localTime x) := by
  cases x with
  | connectToServer username userCode => exact ⟨hi.active, hi.bounded⟩
  | disconnectFromServer => exact ⟨hi.active, hi.bounded⟩
  | sendRoomMessage time messageID content room =>
    simp only [step, sendRoomMessage]
    split_ifs
    · exact hi
    · exact ⟨hi.active.trans (active_append _ _ _).symm, hi.bounded.append _⟩
  | sendPrivateMessage time messageID content targetUserCode =>
    simp only [step, sendPrivateMessage]
    split_ifs
    · exact hi
    · exact ⟨hi.active.trans (active_append _ _ _).symm, hi.bounded.append _⟩
  | selectRoom room => exact ⟨active_selectRoom s.session room, hi.bounded.select _⟩
  | selectDirectMessage userCode => exact hi.selectDirectMessage userCode
  | openPrivateChat userCode =>
    simp only [step]
    split_ifs
    · exact hi.selectDirectMessage userCode
    · exact hi
  | searchActiveHistory query =>
    exact ⟨(active_searchActiveHistory _ query).trans hi.active, hi.bounded⟩
  | requestActiveHistory beforeMessageID searchQuery =>
    exact ⟨(active_requestActiveHistory _ beforeMessageID searchQuery).trans hi.active, hi.bounded⟩
  | removeLocalMessage messageID =>
    exact ⟨hi.active.trans (active_removeLocalMessage _ _).symm,
      hi.bounded.removeLocalMessage messageID⟩
  | retryMessage messageID key =>
    exact ⟨hi.active.trans (active_retryMessage _ _ _).symm, hi.bounded.retryMessage messageID key⟩
  | connected => exact hi.handleConnected
  | connectionFailed time reason => exact ⟨hi.active, hi.bounded.appendSystemMessage _ _⟩
  | connectionLost => exact ⟨hi.active, hi.bounded⟩
  | messageDeliveryFailed messageID =>
    exact ⟨hi.active, hi.bounded.updateModels fun rows =>
      (length_setDeliveryState messageID "failed" rows).le⟩
  | message time m =>
    exact ⟨hi.active.trans (active_handleIncoming _ _ _ _).symm,
      hi.bounded.handleIncoming s.user time m⟩
  | history time response => exact hi.handleHistory time response

theorem inv_run (es : List Input) : Inv (run (step localTime) start es) :=
  run_invariant (step localTime) inv_step inv_start es

/-! ### The merged rows -/

variable {s : ChatView} {response : Message}

/-- The rows after a response: what is missing, and behind it what is kept. -/
theorem shown_handleHistory (hi : Inv s) (time : String) (response : Message) :
    (s.handleHistory localTime time response).shown =
      lastRows ((s.missing response).map (historyRow localTime s.user time)) ++
        s.kept response := by
  have hbound : s.shown.length ≤ maxRowsPerModel := hi.bounded _
  unfold shown ChatView.handleHistory kept missing
  dsimp only
  rw [active_handleHistory]
  split_ifs with htakes
  · have hrows : s.conversations.rows s.conversations.activeConversationKey = s.shown := by
      rw [← hi.active]
      rfl
    unfold mergeHistory
    rw [hrows, rows_setRows, if_pos hi.active, prependRows_eq _ hbound, List.length_map]
  · rw [List.length_nil, Nat.sub_zero, List.map_nil]
    exact (List.take_of_length_le hbound).symm

/-- The missing messages, in the order of the response. -/
theorem missing_sublist (s : ChatView) (response : Message) :
    ((s.missing response).map HistoryMessage.messageID).Sublist (responseIDs response) := by
  unfold missing
  split_ifs
  · unfold responseIDs unknownMessages
    rw [List.filter_map]
    refine List.Sublist.map _ (List.monotone_filter_right _ fun m hm => ?_)
    rw [Bool.and_eq_true] at hm
    exact hm.1
  · exact List.nil_sublist _

/-- When rows are kept, all messages that are missing get in. -/
theorem lastRows_missing {rows : List MessageRow} {row : MessageRow}
    (hlength : rows.length = (s.missing response).length) (hrow : row ∈ s.kept response) :
    lastRows rows = rows := by
  refine lastRows_of_length_le ?_
  by_contra hmany
  unfold kept at hrow
  rw [Nat.sub_eq_zero_of_le (by omega), List.take_zero] at hrow
  exact List.not_mem_nil hrow

/-- A response is merged in order if and only if it fits. -/
theorem inOrder_handleHistory (hi : Inv s) (time : String)
    (hascending : (responseIDs response).Nodup) :
    InOrder response (s.handleHistory localTime time response).shown ↔ s.Fits response := by
  have hids : ((s.missing response).map (historyRow localTime s.user time)).map
      MessageRow.messageID = (s.missing response).map HistoryMessage.messageID := by
    rw [List.map_map]
    rfl
  have hfront : ((lastRows ((s.missing response).map (historyRow localTime s.user time))).map
      MessageRow.messageID).Sublist (responseIDs response) := by
    refine List.Sublist.trans ?_ (missing_sublist s response)
    rw [← hids]
    exact (List.drop_sublist _ _).map _
  unfold InOrder
  rw [shown_handleHistory hi, List.map_append, follows_append]
  constructor
  · rintro ⟨-, hkept, hcross⟩
    refine ⟨hkept, fun m hm row hrow hmem => ?_⟩
    rw [lastRows_missing (List.length_map _) hrow, hids] at hcross
    exact hcross _ (List.mem_map_of_mem hm) ((missing_sublist s response).subset
      (List.mem_map_of_mem hm)) _ (List.mem_map_of_mem hrow) hmem
  · rintro ⟨hkept, hmissing⟩
    refine ⟨follows_of_sublist hascending hfront, hkept, ?_⟩
    intro id hid _ id' hid' hmem
    obtain ⟨row, hrow, rfl⟩ := List.mem_map.1 hid'
    rw [lastRows_missing (List.length_map _) hrow, hids] at hid
    obtain ⟨m, hm, rfl⟩ := List.mem_map.1 hid
    exact hmissing m hm row hrow hmem

/-- **A history page is merged in order exactly when it fits**, in every state that the controller
can come to; a response about another conversation or search changes no row. -/
theorem history_in_order_iff (localTime : String → Option String) (es : List Input) (time : String)
    (response : Message) (hascending : (responseIDs response).Nodup) :
    InOrder response (run (step localTime) start (es ++ [.history time response])).shown ↔
      (run (step localTime) start es).Fits response := by
  rw [run_concat]
  exact inOrder_handleHistory (inv_run es) time hascending

/-! ### A page from before the rows, and a page across a gap -/

/-- Bob's message with an id, as it comes live. -/
def live (messageID : String) : Message :=
  { type := .chat, messageID, username := "Bob", userCode := "B001", room := "lobby"
    content := "hi" }

/-- A page of the lobby with Bob's messages. -/
def page (messageIDs : List String) : Message :=
  { type := .historyResponse, room := "lobby"
    messages := messageIDs.map fun messageID =>
      ⟨.chat, messageID, "lobby", "Bob", "B001", "", false, "hi", "", "sent", "", false, []⟩ }

/-- Bob's fifth message comes live. -/
def fifthShown : List Input := [.connected, .message "12:00" (live "m5")]

/-- The connection is lost behind it and comes back. -/
def reconnected : List Input := fifthShown ++ [.connectionLost, .connected]

/-- The page that ends with the fifth message is merged in order. -/
theorem history_in_order_iff_older :
    InOrder (page ["m3", "m4", "m5"])
      (run (step fun _ => none) start
        (fifthShown ++ [.history "12:01" (page ["m3", "m4", "m5"])])).shown :=
  (history_in_order_iff (fun _ => none) fifthShown "12:01" (page ["m3", "m4", "m5"])
    (by decide)).2 ⟨by decide +kernel, by decide +kernel⟩

/-- After the connection was lost the page goes on behind the fifth message, and what was missed in
between is shown before it. -/
theorem missed_messages_in_front :
    ¬ ∀ (localTime : String → Option String) (es : List Input) (time : String) (response : Message),
      (run (step localTime) start es).concerns response = true → (responseIDs response).Nodup →
        InOrder response (run (step localTime) start (es ++ [.history time response])).shown := by
  intro hclaim
  have hrows : ¬ InOrder (page ["m5", "m6", "m7"])
      (run (step fun _ => none) start
        (reconnected ++ [.history "12:01" (page ["m5", "m6", "m7"])])).shown := by
    decide +kernel
  exact hrows (hclaim (fun _ => none) reconnected "12:01" _ (by decide +kernel) (by decide +kernel))

end ChatView

end Gui

end LanChat
