import LanChat.Gui.BridgeCommands
import LanChat.Gui.ChatView

/-!
# The commands that send a message (`chat_bridge.cpp`, `gui_chat_controller.cpp`)

A `chat.sendRoom` or a `chat.sendPrivate` brings a text, an opaque `crypto` object or both.  The
bridge hands the text to the controller, which shows it in a row and queues a call for the worker;
the call has no place for the `crypto` object.

* `dispatchSend`: what the bridge does with such a command;
* `Sent`: the row is shown and the message is on its way, with all that the command brought;
* `dispatchSend_sent_iff`: exactly the commands without a `crypto` object are sent.
-/

namespace LanChat.Gui.SendCommands

open GoStrings Conversations ChatListModel
open BridgeCommands
open Discovery (stringOf)

/-- The payload of a command. -/
def payload (command : Json) : Json := (command.get? "payload").getD .null

/-- A string of the payload. -/
def payloadText (command : Json) (key : String) : String := stringOf ((payload command).get? key)

/-- What a command leaves behind: the result of the bridge, the controller, and the calls that are
queued for the worker. -/
structure Dispatched where
  ok : Bool
  view : ChatView
  calls : List Call

section

variable (number : String → ℚ) (lower : String → String) (localTime : String → Option String)

/-- `dispatch` of a command that sends a message; `messageID` is the one that the controller
creates. -/
def dispatchSend (time messageID : String) (command : Json) (s : ChatView) : Dispatched :=
  let content := payloadText command "content"
  if !validateCommand number lower command then ⟨false, s, []⟩
  else if commandType command = "chat.sendRoom" then
    let room := payloadText command "room"
    ⟨true, s.step localTime (.sendRoomMessage time messageID content room),
      (s.session.act (.sendRoomMessage content room messageID)).2⟩
  else
    let targetUserCode := payloadText command "targetUserCode"
    ⟨true, s.step localTime (.sendPrivateMessage time messageID content targetUserCode),
      (s.session.act (.sendPrivateMessage content targetUserCode messageID)).2⟩

end

/-! ### What a result without an error stands for -/

/-- The text that a command brings. -/
def sentContent (command : Json) : String := trimSpace (payloadText command "content")

/-- The text of the `crypto` object that a command brings; it is empty when there is none. -/
def sentCrypto (command : Json) : String :=
  if isObject ((payload command).get? "crypto") then
    (((payload command).get? "crypto").getD .null).render
  else ""

/-- The conversation that a command is for. -/
def targetKey (command : Json) : String :=
  if commandType command = "chat.sendRoom" then
    Controller.roomKey (trimSpace (payloadText command "room"))
  else Controller.directKey (trimSpace (payloadText command "targetUserCode"))

/-- The message that a command asks for. -/
def requestedFrame (command : Json) (messageID : String) : Message :=
  if commandType command = "chat.sendRoom" then
    { type := .chat, content := sentContent command, crypto := sentCrypto command, messageID
      room := trimSpace (payloadText command "room") }
  else
    { type := .privateChat, content := sentContent command, crypto := sentCrypto command, messageID
      targetUserCode := trimSpace (payloadText command "targetUserCode") }

/-- The message of a command is shown in its conversation and queued for the worker. -/
structure Sent (command : Json) (time messageID : String) (s : ChatView) (d : Dispatched) :
    Prop where
  row : ∃ n, ((s.conversations.rows (targetKey command)).length < maxRowsPerModel → n = 0) ∧
    d.view.conversations.rows (targetKey command) =
      (s.conversations.rows (targetKey command)).drop n ++
        [queuedRow s.user time messageID (sentContent command)]
  request : ∃ call ∈ d.calls, call.frame = some (requestedFrame command messageID)

/-- What `QUuid::createUuid` is for: an id that no row of the conversation has. -/
def Fresh (command : Json) (messageID : String) (s : ChatView) : Prop :=
  messageID ≠ "" ∧ ∀ row ∈ s.conversations.rows (targetKey command), row.messageID ≠ messageID

variable {number : String → ℚ} {lower : String → String} {localTime : String → Option String}
variable {command : Json} {time messageID : String} {s : ChatView}

/-- The commands that send a message. -/
def sendTypes : List String := ["chat.sendRoom", "chat.sendPrivate"]

/-- The member of the payload that says where a message goes. -/
def targetMember (command : Json) : String :=
  if commandType command = "chat.sendRoom" then "room" else "targetUserCode"

/-- What `validateCommand` asks of a command that sends a message. -/
theorem accepted_send (haccept : validateCommand number lower command = true)
    (htype : commandType command ∈ sendTypes) :
    trimSpace (payloadText command (targetMember command)) ≠ "" ∧
      (sentContent command ≠ "" ∨ isObject ((payload command).get? "crypto") = true) := by
  have hcrypto : hasOpaqueCrypto (payload command) = true →
      isObject ((payload command).get? "crypto") = true := by
    unfold hasOpaqueCrypto
    intro h
    split at h
    · next members hget => rw [hget]; rfl
    · cases h
  have htext : nonEmptyString (payload command) "content" = true → sentContent command ≠ "" := by
    intro h
    exact bne_iff_ne.1 (Bool.and_eq_true_iff.1 h).2
  have hpayload : validatePayload number lower (commandType command) (payload command) = true :=
    (Bool.and_eq_true_iff.1 haccept).2
  have hsend : (hasRequiredStrings (payload command) [targetMember command] &&
      (nonEmptyString (payload command) "content" || hasOpaqueCrypto (payload command))) =
        true := by
    unfold targetMember
    rcases List.mem_pair.1 htype with hroom | hprivate
    · rw [hroom] at hpayload ⊢
      exact hpayload
    · rw [hprivate] at hpayload ⊢
      exact hpayload
  obtain ⟨htarget, hbody⟩ := Bool.and_eq_true_iff.1 hsend
  refine ⟨bne_iff_ne.1 (Bool.and_eq_true_iff.1 (List.all_eq_true.1 htarget _ (by simp))).2, ?_⟩
  exact (Bool.or_eq_true_iff.1 hbody).imp htext hcrypto

/-- A message with an id of its own is the last row of its conversation. -/
theorem row_append (hfresh : Fresh command messageID s) (time content : String) :
    ∃ n, ((s.conversations.rows (targetKey command)).length < maxRowsPerModel → n = 0) ∧
      (s.conversations.append (targetKey command) (queuedRow s.user time messageID content)).rows
          (targetKey command) =
        (s.conversations.rows (targetKey command)).drop n ++
          [queuedRow s.user time messageID content] := by
  have hid : (queuedRow s.user time messageID content).messageID ≠ "" := hfresh.1
  rw [rows_append_self]
  rcases appendRows_one (s.conversations.rows (targetKey command)) hid with
    ⟨i, old, hold, hsame, -⟩ | ⟨-, n, hzero, happend⟩
  · exact absurd hsame (hfresh.2 old (List.mem_of_getElem? hold))
  · exact ⟨n, hzero, happend⟩

theorem sentCrypto_eq (hnone : isObject ((payload command).get? "crypto") = false) :
    sentCrypto command = "" := by
  unfold sentCrypto
  rw [hnone]
  rfl

theorem render_object_ne (members : List (String × Json)) : (Json.object members).render ≠ "" := by
  unfold Json.render GoJson.object
  intro hempty
  have hsize := congrArg (fun text : String => text.toList.length) hempty
  simp at hsize

/-- The text of a `crypto` object is not empty. -/
theorem sentCrypto_ne (hsome : isObject ((payload command).get? "crypto") = true) :
    sentCrypto command ≠ "" := by
  unfold sentCrypto
  rw [hsome, if_pos rfl]
  cases hget : (payload command).get? "crypto" with
  | none =>
    rw [hget] at hsome
    cases hsome
  | some crypto =>
    rw [hget] at hsome
    cases crypto with
    | object members => exact render_object_ne members
    | _ => cases hsome

/-- The calls of the controller bring no `crypto` object to the worker. -/
theorem crypto_of_call {call : Call} {frame : Message}
    (hcall : call ∈ (dispatchSend number lower localTime time messageID command s).calls)
    (hframe : call.frame = some frame) : frame.crypto = "" := by
  unfold dispatchSend Controller.act at hcall
  dsimp only at hcall
  split_ifs at hcall
  · cases hcall
  · cases hcall
  · obtain rfl := List.mem_singleton.1 hcall
    unfold Call.frame at hframe
    dsimp only at hframe
    split_ifs at hframe
    obtain rfl := Option.some.inj hframe
    rfl
  · cases hcall
  · obtain rfl := List.mem_singleton.1 hcall
    unfold Call.frame at hframe
    dsimp only at hframe
    split_ifs at hframe
    obtain rfl := Option.some.inj hframe
    rfl

/-- A text for a room is shown and sent. -/
theorem sent_room (haccept : validateCommand number lower command = true)
    (htype : commandType command = "chat.sendRoom") (hfresh : Fresh command messageID s)
    (hroom : trimSpace (payloadText command "room") ≠ "")
    (hcontent : trimSpace (payloadText command "content") ≠ "")
    (hcrypto : sentCrypto command = "") :
    Sent command time messageID s
      (dispatchSend number lower localTime time messageID command s) := by
  have hdeclared : declaredRoom (payloadText command "room") =
      trimSpace (payloadText command "room") := if_neg hroom
  have hkey : targetKey command =
      Controller.roomKey (trimSpace (payloadText command "room")) := if_pos htype
  have hrow := row_append hfresh time (trimSpace (payloadText command "content"))
  unfold dispatchSend
  simp only [haccept, htype, Bool.not_true, Bool.false_eq_true, if_false, if_true]
  constructor
  · unfold sentContent
    rw [hkey] at hrow ⊢
    simpa only [ChatView.step, sendRoomMessage, hcontent, if_false, hdeclared] using hrow
  · refine ⟨.sendChatToRoom (trimSpace (payloadText command "content"))
      (trimSpace (payloadText command "room")) messageID, ?_, ?_⟩
    · simp only [Controller.act, hcontent, if_false, hdeclared, List.mem_singleton]
    · unfold Call.frame requestedFrame sentContent
      dsimp only
      rw [trimSpace_trimSpace, if_neg hcontent, if_pos htype, hcrypto]

/-- A text for a user is shown and sent. -/
theorem sent_private (haccept : validateCommand number lower command = true)
    (htype : commandType command ≠ "chat.sendRoom") (hfresh : Fresh command messageID s)
    (htarget : trimSpace (payloadText command "targetUserCode") ≠ "")
    (hcontent : trimSpace (payloadText command "content") ≠ "")
    (hcrypto : sentCrypto command = "") :
    Sent command time messageID s
      (dispatchSend number lower localTime time messageID command s) := by
  have hkey : targetKey command =
      Controller.directKey (trimSpace (payloadText command "targetUserCode")) := if_neg htype
  have hready : ¬(trimSpace (payloadText command "content") = "" ∨
      trimSpace (payloadText command "targetUserCode") = "") := not_or.2 ⟨hcontent, htarget⟩
  have hrow := row_append hfresh time (trimSpace (payloadText command "content"))
  unfold dispatchSend
  simp only [haccept, htype, Bool.not_true, Bool.false_eq_true, if_false]
  constructor
  · unfold sentContent
    rw [hkey] at hrow ⊢
    simpa only [ChatView.step, sendPrivateMessage, hready, if_false] using hrow
  · refine ⟨.sendPrivate (trimSpace (payloadText command "content"))
      (trimSpace (payloadText command "targetUserCode")) messageID, ?_, ?_⟩
    · simp only [Controller.act, hready, if_false, List.mem_singleton]
    · unfold Call.frame requestedFrame sentContent
      dsimp only
      rw [trimSpace_trimSpace, if_neg hready, if_neg htype, hcrypto]

/-- A text without a `crypto` object is shown and sent. -/
theorem sent_of_text (haccept : validateCommand number lower command = true)
    (htype : commandType command ∈ sendTypes) (hfresh : Fresh command messageID s)
    (hnone : isObject ((payload command).get? "crypto") = false) :
    Sent command time messageID s
      (dispatchSend number lower localTime time messageID command s) := by
  obtain ⟨htarget, hbody⟩ := accepted_send haccept htype
  have hcontent : trimSpace (payloadText command "content") ≠ "" := by
    refine hbody.resolve_right ?_
    rw [hnone]
    exact Bool.false_ne_true
  unfold targetMember at htarget
  split_ifs at htarget with hroom
  · exact sent_room haccept hroom hfresh htarget hcontent (sentCrypto_eq hnone)
  · exact sent_private haccept hroom hfresh htarget hcontent (sentCrypto_eq hnone)

/-- Every command that is answered without an error is sent as a whole, exactly when it brings no
`crypto` object. -/
theorem dispatchSend_sent_iff (haccept : validateCommand number lower command = true)
    (htype : commandType command ∈ sendTypes) (hfresh : Fresh command messageID s) :
    ((dispatchSend number lower localTime time messageID command s).ok = true →
        Sent command time messageID s
          (dispatchSend number lower localTime time messageID command s)) ↔
      isObject ((payload command).get? "crypto") = false := by
  have hok : (dispatchSend number lower localTime time messageID command s).ok = true := by
    unfold dispatchSend
    simp only [haccept, Bool.not_true, Bool.false_eq_true, if_false]
    split_ifs <;> rfl
  constructor
  · intro hsent
    obtain ⟨call, hcall, hframe⟩ := (hsent hok).request
    have hempty : (requestedFrame command messageID).crypto = "" := crypto_of_call hcall hframe
    have hcrypto : (requestedFrame command messageID).crypto = sentCrypto command := by
      unfold requestedFrame
      split_ifs <;> rfl
    by_contra hsome
    exact sentCrypto_ne (Bool.eq_true_of_not_eq_false hsome) (hcrypto ▸ hempty)
  · intro hnone _
    exact sent_of_text haccept htype hfresh hnone

/-- A text for the lobby. -/
def textCommand : Json :=
  .object [("id", .text "1"), ("type", .text "chat.sendRoom"),
    ("payload", .object [("room", .text "lobby"), ("content", .text " hi ")])]

/-- An envelope for the lobby. -/
def cryptoCommand : Json :=
  .object [("id", .text "1"), ("type", .text "chat.sendRoom"),
    ("payload", .object [("room", .text "lobby"), ("crypto", .object [("v", .int 1)])])]

/-- A text is sent. -/
theorem dispatchSend_sent_iff_text :
    Sent textCommand "10:00" "m1" .start
      (dispatchSend (fun _ => 0) id some "10:00" "m1" textCommand .start) :=
  (dispatchSend_sent_iff (by decide +kernel) (by decide) ⟨by decide, by decide +kernel⟩).2
    (by decide +kernel) (by decide +kernel)

/-- An accepted envelope is answered without an error, and nothing is shown or sent. -/
theorem accepted_crypto_is_dropped :
    validateCommand (fun _ => 0) id cryptoCommand = true ∧
      (dispatchSend (fun _ => 0) id some "10:00" "m1" cryptoCommand .start).ok = true ∧
        (dispatchSend (fun _ => 0) id some "10:00" "m1" cryptoCommand .start).calls = [] ∧
          ¬ Sent cryptoCommand "10:00" "m1" .start
            (dispatchSend (fun _ => 0) id some "10:00" "m1" cryptoCommand .start) := by
  have hcalls :
      (dispatchSend (fun _ => 0) id some "10:00" "m1" cryptoCommand .start).calls = [] := by
    decide +kernel
  refine ⟨by decide +kernel, by decide +kernel, hcalls, fun hsent => ?_⟩
  obtain ⟨call, hcall, -⟩ := hsent.request
  rw [hcalls] at hcall
  cases hcall

end LanChat.Gui.SendCommands
