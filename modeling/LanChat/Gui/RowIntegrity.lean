import LanChat.Gui.ConversationModels
import LanChat.Hub.RecallReach

/-!
# Whose message a row shows

The Hub takes one message for each sender, conversation and message id; the desktop client merges
rows of a conversation by the message id alone.

* `ChatNet`: the Hub, and the controller of a user that reads what the Hub sends to the sessions of
  this user; `published` are the keys of the messages that the Hub has relayed;
* `RowsKept`: a message changes no row of another user;
* `reusesID s x`: the Hub relays a message whose conversation and id are those of a message that
  another user has sent before;
* `rows_kept`: in a run without such a step no row is changed by a message of another user.
-/

namespace LanChat

namespace Gui

open EventMachine GoStrings ChatStore
open Hub (MessageKey liveKey Attempt)

/-- Codes that differ in case only are the same code to the client. -/
theorem equalFold_iff_of_code {a b : String} (ha : validateUserCode a = .ok ())
    (hb : validateUserCode b = .ok ()) :
    QString.equalFold a b = true ↔ asciiLower a = asciiLower b :=
  QString.equalFold_iff_of_alnum (validateUserCode_eq_ok.1 ha).1 (validateUserCode_eq_ok.1 hb).1

/-- The Hub and a controller; `received c` is the number of messages that the controller has read on
session `c`. -/
structure ChatNet where
  hub : Hub
  published : List MessageKey
  conversations : Conversations
  received : ClientID → ℕ

namespace ChatNet

/-- An event of the Hub, or something that the controller does: it reads the next message of a
session, opens a conversation, or starts a new session with an empty screen. -/
inductive Input
  | server (e : Hub.Event)
  | receive (c : ClientID) (time : String)
  | select (key : String)
  | reset

variable (platform : Platform) (user : LocalUser)

/-- An empty database and a new controller. -/
def start (adminCode : String) : ChatNet where
  hub := Hub.start adminCode true
  published := []
  conversations := .start
  received := fun _ => 0

/-- The key of the message that an event makes the Hub relay. -/
def publishes (h : Hub) (e : Hub.Event) : Option MessageKey :=
  match Hub.attempt? platform h e with
  | some a => if h.relays e.env a then some (a.key h) else none
  | none => none

/-- The next message on a session, when the session is one of the user. -/
def next (s : ChatNet) (c : ClientID) : Option Message :=
  if s.hub.registry.codeOf c = some (asciiLower user.code) then (s.hub.sentTo c)[s.received c]?
  else none

/-- A chat or a private chat, whose row has a name, a code and a content. -/
def isChat (message : Message) : Bool := message.type == .chat || message.type == .privateChat

/-- One step; other messages pass the rows by. -/
def step (s : ChatNet) : Input → ChatNet
  | .server e =>
    { s with
      hub := s.hub.step platform e
      published := s.published ++ (publishes platform s.hub e).toList }
  | .receive c time =>
    match s.next user c with
    | none => s
    | some message =>
      { s with
        conversations :=
          if isChat message then s.conversations.handleMessage user time message
          else s.conversations
        received := Function.update s.received c (s.received c + 1) }
  | .select key => { s with conversations := s.conversations.select key }
  | .reset => { s with conversations := s.conversations.resetSessionData }

/-- A message leaves name, code and content of every row of another user as they are. -/
def RowsKept (s : ChatNet) (x : Input) : Prop :=
  ∀ c time message, x = .receive c time → s.next user c = some message →
    ∀ key, ∀ row ∈ s.conversations.rows key,
      ∀ row' ∈ (s.step platform user x).conversations.rows key, row'.messageID = row.messageID →
        asciiLower message.userCode ≠ asciiLower row.userCode →
          row'.displayName = row.displayName ∧ row'.userCode = row.userCode ∧
            row'.content = row.content

/-- The Hub relays a message under a conversation and an id of another user's message. -/
def reusesID (s : ChatNet) : Input → Bool
  | .server e => (publishes platform s.hub e).any fun key =>
      s.published.any fun old => old.2 == key.2 && old.1 != key.1
  | _ => false

/-! ### The conversation of a row -/

/-- The conversation on the server that a conversation of the client shows. -/
def serverConversation (key : String) : String :=
  if Controller.isDirect key then
    privateConversationKey (asciiLower user.code) (asciiLower (Controller.mid key 3))
  else Controller.mid key 5

theorem serverConversation_roomKey (room : String) :
    serverConversation user (Controller.roomKey room) = room := by
  unfold serverConversation
  rw [Controller.isDirect_roomKey, if_neg Bool.false_ne_true]
  exact Controller.mid_append "room:" room

theorem serverConversation_directKey (code : String) :
    serverConversation user (Controller.directKey code) =
      privateConversationKey (asciiLower user.code) (asciiLower code) := by
  unfold serverConversation
  rw [Controller.isDirect_directKey, if_pos rfl, Controller.mid_directKey]

/-! ### What every run keeps -/

variable {platform : Platform} {user : LocalUser} {s : ChatNet}

/-- The message was published, and a private chat went to one of its two users. -/
structure Arrived (s : ChatNet) (x : ClientID × Message) : Prop where
  sender : validateUserCode x.2.userCode = .ok ()
  published : ∃ key ∈ s.published, liveKey x.2 = some key
  id : x.2.messageID ≠ ""
  room : x.2.type = .chat → x.2.room ≠ ""
  addressed : x.2.type = .privateChat → ∃ code, s.hub.registry.codeOf x.1 = some code ∧ code ≠ "" ∧
    (code = asciiLower x.2.userCode ∨ code = asciiLower x.2.targetUserCode)

/-- Everything that the Hub has sent and that the client shows was published. -/
structure Inv (user : LocalUser) (s : ChatNet) : Prop where
  sound : Registry.Sound s.hub.registry
  store : s.hub.offlineStore = true
  unique : ∀ key ∈ s.published, ∀ old ∈ s.published, old.2 = key.2 → old.1 = key.1
  sent : ∀ x ∈ s.hub.registry.sent, isChat x.2 = true → Arrived s x
  distinct : ∀ key, ChatListModel.Distinct (s.conversations.rows key)
  shown : ∀ key, ∀ row ∈ s.conversations.rows key,
    (asciiLower row.userCode, serverConversation user key, row.messageID) ∈ s.published

theorem isChat_iff {message : Message} :
    isChat message = true ↔ message.type = .chat ∨ message.type = .privateChat := by
  unfold isChat
  rw [Bool.or_eq_true, beq_iff_eq, beq_iff_eq]

theorem live_of_isChat {message : Message} (hchat : isChat message = true) :
    message.type ∈ Hub.liveTypes := by
  rcases isChat_iff.1 hchat with ht | ht
  · rw [ht]
    decide
  · rw [ht]
    decide

/-- The client and the server mean the same conversation. -/
theorem Arrived.conversation {c : ClientID} {message : Message} (hs : Registry.Sound s.hub.registry)
    (ha : Arrived s (c, message)) (hchat : isChat message = true)
    (hc : s.hub.registry.codeOf c = some (asciiLower user.code)) :
    (asciiLower message.userCode,
      serverConversation user (Conversations.conversationKey user message),
      message.messageID) ∈ s.published := by
  obtain ⟨key, hkey, hlive⟩ := ha.published
  unfold Conversations.conversationKey
  rcases isChat_iff.1 hchat with ht | ht
  · -- a chat: the room of the sender
    have hroom : message.room ≠ "" := ha.room ht
    unfold liveKey at hlive
    simp only [ht] at hlive
    rw [if_pos ht, if_neg hroom, serverConversation_roomKey, Option.some_injective _ hlive]
    exact hkey
  · -- a private chat: the other user
    obtain ⟨code, hcode, hne, hwho⟩ := ha.addressed ht
    obtain rfl : asciiLower user.code = code := Option.some_injective _ (hc.symm.trans hcode)
    have hname : user.code ≠ "" := by
      rintro hempty
      rw [hempty] at hne
      exact hne rfl
    have hother : message.type ≠ .chat := by
      rw [ht]
      decide
    unfold liveKey at hlive
    simp only [ht] at hlive
    rw [if_neg hother, serverConversation_directKey]
    rw [← Option.some_injective _ hlive] at hkey
    have hspelled : QString.equalFold message.userCode user.code = true ↔
        asciiLower message.userCode = asciiLower user.code :=
      equalFold_iff_of_code ha.sender (validateUserCode_of_asciiLower (Hub.code_of_codeOf hs hc))
    by_cases hself : Conversations.isSelf user message = true
    · have hsame : asciiLower message.userCode = asciiLower user.code := by
        unfold Conversations.isSelf at hself
        rw [Bool.and_eq_true] at hself
        exact hspelled.1 hself.2
      rw [if_pos hself, ← hsame]
      exact hkey
    · have hdiffer : asciiLower user.code ≠ asciiLower message.userCode := by
        intro hsame
        refine hself ?_
        unfold Conversations.isSelf
        rw [Bool.and_eq_true, bne_iff_ne]
        exact ⟨hname, hspelled.2 hsame.symm⟩
      rw [if_neg hself, hwho.resolve_left hdiffer, privateConversationKey_comm]
      exact hkey

theorem Arrived.mono {t : ChatNet} {x : ClientID × Message} (ha : Arrived s x)
    (hpublished : ∀ key ∈ s.published, key ∈ t.published)
    (hcode : ∀ {c code}, s.hub.registry.codeOf c = some code →
      t.hub.registry.codeOf c = some code) : Arrived t x := by
  refine ⟨ha.sender, ?_, ha.id, ha.room, fun ht => ?_⟩
  · obtain ⟨key, hkey, hlive⟩ := ha.published
    exact ⟨key, hpublished key hkey, hlive⟩
  · obtain ⟨code, hc, hwho⟩ := ha.addressed ht
    exact ⟨code, hcode hc, hwho⟩

/-- What an event sends was published by it. -/
theorem arrived_server (hi : Inv user s) (e : Hub.Event) {x : ClientID × Message}
    (hx : x ∈ (s.hub.step platform e).registry.sent) (hchat : isChat x.2 = true) :
    Arrived (s.step platform user (.server e)) x := by
  have hcode : ∀ {c code}, s.hub.registry.codeOf c = some code →
      (s.hub.step platform e).registry.codeOf c = some code :=
    fun hc => Hub.codeOf_step platform hi.sound e hc
  have hpublished : ∀ key ∈ s.published, key ∈ (s.step platform user (.server e)).published :=
    fun key hkey => List.mem_append_left _ hkey
  obtain ⟨out, hsent⟩ := Hub.sent_step platform hi.sound e
  rw [hsent] at hx
  rcases List.mem_append.1 hx with hold | hout
  · exact (hi.sent x hold hchat).mono hpublished hcode
  · have hnew := (Hub.mem_sentBetween_iff hsent).2 hout
    have hlive := live_of_isChat hchat
    rcases Hub.copy_step platform hi.sound hi.store e with ⟨-, hquiet⟩ | ⟨a, ha, hv, hcopy⟩
    · exfalso
      have hpublic := Hub.mem_sentBetween hquiet.sent hnew
      rcases isChat_iff.1 hchat with ht | ht
      · rw [ht] at hpublic
        exact hpublic (by decide)
      · rw [ht] at hpublic
        exact hpublic (by decide)
    · rcases Hub.step_fate platform hi.sound e with ⟨hnone, -⟩ | ⟨b, hb, -, -, hfate⟩
      · rw [ha] at hnone
        cases hnone
      obtain rfl : a = b := Option.some_injective _ (ha.symm.trans hb)
      rcases hfate with ⟨-, hq⟩ | ⟨hrelays, hlog⟩
      · exact absurd hlive (hq.sent x hnew)
      have hc := hcopy x hnew hlive
      refine ⟨hc.sender hv, ⟨a.key s.hub, ?_, hc.key⟩, ?_, hc.room, fun ht => ?_⟩
      · refine List.mem_append_right _ ?_
        unfold publishes
        rw [ha]
        dsimp only
        rw [if_pos hrelays]
        exact List.mem_singleton_self _
      · rw [(hlog.sent x hnew hlive).1]
        cases hv with
        | chat obj hobj ht hid => exact hid
        | privateChat hc hobj hvalid htarget hne ht hid => exact hid
      · obtain ⟨code, hcode', hwho⟩ := hc.addressed ht
        exact ⟨code, hcode hcode', hwho⟩

theorem inv_server (hi : Inv user s) (e : Hub.Event)
    (hfresh : s.reusesID platform (.server e) = false) :
    Inv user (s.step platform user (.server e)) := by
  constructor
  case sound => exact Hub.sound_step platform s.hub e hi.sound
  case store => exact (Hub.offlineStore_step platform hi.sound e).trans hi.store
  case unique =>
    have hnew : ∀ key ∈ publishes platform s.hub e, ∀ old ∈ s.published, old.2 = key.2 →
        old.1 = key.1 := by
      intro key hkey old hold hsame
      by_contra hdiffer
      simp only [reusesID] at hfresh
      rw [hkey, Option.any_some, List.any_eq_false] at hfresh
      refine hfresh old hold ?_
      rw [Bool.and_eq_true, beq_iff_eq, bne_iff_ne]
      exact ⟨hsame, hdiffer⟩
    intro key hkey old hold hsame
    rcases List.mem_append.1 hkey with hkey | hkey
    · rcases List.mem_append.1 hold with hold | hold
      · exact hi.unique key hkey old hold hsame
      · exact (hnew old (Option.mem_toList.1 hold) key hkey hsame.symm).symm
    · rcases List.mem_append.1 hold with hold | hold
      · exact hnew key (Option.mem_toList.1 hkey) old hold hsame
      · rw [Option.mem_unique (Option.mem_toList.1 hold) (Option.mem_toList.1 hkey)]
  case sent => exact fun x hx hchat => arrived_server hi e hx hchat
  case distinct => exact hi.distinct
  case shown => exact fun key row hrow => List.mem_append_left _ (hi.shown key row hrow)

/-- The next message on a session of the user has arrived there. -/
theorem Inv.arrived (hi : Inv user s) {c : ClientID} {message : Message}
    (hnext : s.next user c = some message) (hchat : isChat message = true) :
    s.hub.registry.codeOf c = some (asciiLower user.code) ∧ Arrived s (c, message) := by
  unfold next at hnext
  split at hnext
  · rename_i hcode
    exact ⟨hcode, hi.sent _ (Hub.mem_sentTo.1 (List.mem_of_getElem? hnext)) hchat⟩
  · cases hnext

/-- The rows after a message: old ones, and the row of the message in its conversation. -/
theorem Inv.rows_handleMessage (hi : Inv user s) (time : String) {message : Message}
    (hid : message.messageID ≠ "") (key : String) :
    ChatListModel.Distinct ((s.conversations.handleMessage user time message).rows key) ∧
      ∀ row ∈ (s.conversations.handleMessage user time message).rows key,
        row ∈ s.conversations.rows key ∨
          (key = Conversations.conversationKey user message ∧
            row = Conversations.messageRow user time message.messageID message) := by
  obtain ⟨hown, hother⟩ := Conversations.rows_handleMessage user time hid s.conversations
  by_cases hkey : key = Conversations.conversationKey user message
  · subst hkey
    rw [hown]
    refine ⟨ChatListModel.distinct_appendRows_one hid (hi.distinct _), fun row hrow => ?_⟩
    rcases ChatListModel.mem_appendRows_one hid hrow with hrow | hrow
    · exact .inr ⟨rfl, hrow⟩
    · exact .inl hrow
  · rcases hother key hkey with hsame | hgone
    · rw [hsame]
      exact ⟨hi.distinct key, fun row hrow => .inl hrow⟩
    · rw [hgone]
      exact ⟨List.nodup_nil, fun row hrow => by cases hrow⟩

theorem Inv.withConversations (hi : Inv user s) {conversations : Conversations}
    {received : ClientID → ℕ}
    (hdistinct : ∀ key, ChatListModel.Distinct (conversations.rows key))
    (hshown : ∀ key, ∀ row ∈ conversations.rows key,
      (asciiLower row.userCode, serverConversation user key, row.messageID) ∈ s.published) :
    Inv user { s with conversations, received } :=
  ⟨hi.sound, hi.store, hi.unique,
    fun x hx hchat => (hi.sent x hx hchat).mono (fun _ hkey => hkey) (fun hc => hc),
    hdistinct, hshown⟩

theorem inv_step (platform : Platform) (user : LocalUser) (s : ChatNet) (x : Input)
    (hfresh : s.reusesID platform x = false) (hi : Inv user s) :
    Inv user (s.step platform user x) := by
  cases x with
  | server e => exact inv_server hi e hfresh
  | receive c time =>
    simp only [step]
    split
    · exact hi
    rename_i message hnext
    split
    · rename_i hchat
      obtain ⟨hcode, ha⟩ := hi.arrived hnext hchat
      refine hi.withConversations (fun key => (hi.rows_handleMessage time ha.id key).1)
        fun key row hrow => ?_
      rcases (hi.rows_handleMessage time ha.id key).2 row hrow with hold | ⟨rfl, rfl⟩
      · exact hi.shown key row hold
      · exact ha.conversation hi.sound hchat hcode
    · exact hi.withConversations hi.distinct hi.shown
  | select used =>
    refine hi.withConversations (fun key => ?_) fun key row hrow => ?_
    · rcases Conversations.rows_select s.conversations used with hsame | hgone
      · rw [hsame]
        exact hi.distinct key
      · rw [hgone]
        exact List.nodup_nil
    · rcases Conversations.rows_select s.conversations used with hsame | hgone
      · rw [hsame] at hrow
        exact hi.shown key row hrow
      · rw [hgone] at hrow
        cases hrow
  | reset =>
    refine hi.withConversations (fun key => ?_) fun key row hrow => ?_
    · rw [Conversations.rows_resetSessionData]
      exact List.nodup_nil
    · rw [Conversations.rows_resetSessionData] at hrow
      cases hrow

theorem inv_start (user : LocalUser) (adminCode : String) : Inv user (start adminCode) := by
  constructor
  case sound => exact Hub.sound_start adminCode true
  case store => rfl
  case unique => exact fun key hkey => by cases hkey
  case sent => exact fun x hx => by cases hx
  case distinct =>
    intro key
    change ChatListModel.Distinct (Conversations.start.rows key)
    rw [Conversations.rows_start]
    exact List.nodup_nil
  case shown =>
    intro key row hrow
    change row ∈ Conversations.start.rows key at hrow
    rw [Conversations.rows_start] at hrow
    cases hrow

theorem rowsKept_step (platform : Platform) (user : LocalUser) (s : ChatNet) (x : Input)
    (hi : Inv user s) : RowsKept platform user s x := by
  rintro c time message rfl hnext key row hrow row' hrow' hsame hdiffer
  simp only [step, hnext] at hrow'
  have hold : row' ∈ s.conversations.rows key → row' = row := fun hmem =>
    (hi.distinct key).eq hrow hmem hsame
  split at hrow'
  · rename_i hchat
    obtain ⟨hcode, ha⟩ := hi.arrived hnext hchat
    rcases (hi.rows_handleMessage time ha.id key).2 row' hrow' with hmem | ⟨rfl, rfl⟩
    · rw [hold hmem]
      exact ⟨rfl, rfl, rfl⟩
    · -- the row of the message has the id of a row of another user
      exfalso
      refine hdiffer ?_
      have hmine := ha.conversation hi.sound hchat hcode
      have hrowKey := hi.shown _ row hrow
      have hid : row.messageID = message.messageID := hsame.symm
      rw [hid] at hrowKey
      exact (hi.unique _ hrowKey _ hmine rfl)
  · rw [hold hrow']
    exact ⟨rfl, rfl, rfl⟩

/-- In every run in which no conversation gets the same message id from two users, no message changes
a row of another user. -/
theorem rows_kept (platform : Platform) (user : LocalUser) (adminCode : String) (xs : List Input)
    (hfresh : Along (step platform user) (fun s x => s.reusesID platform x = false)
      (start adminCode) xs) :
    Along (step platform user) (RowsKept platform user) (start adminCode) xs :=
  along_of_invariant (step platform user) (inv_step platform user)
    (fun s x hi _ => rowsKept_step platform user s x hi) (inv_start user adminCode) hfresh

/-! ### Two messages in the lobby -/

/-- Alice looks at the lobby, where she and Bob write a message each. -/
def alice : LocalUser := ⟨"Alice", "alice"⟩

/-- A message for the lobby. -/
def lobbyChat (messageID content : String) : Message :=
  { type := .chat, content, room := "lobby", messageID }

/-- Alice writes with the id `m1`, and Bob with an id of his choice. -/
def bothWrite (messageID : String) : List Input :=
  (Hub.sessionEvents 0 "Alice" "alice" ++ Hub.sessionEvents 1 "Bob" "bob" ++
    [Hub.frameEvent 0 (lobbyChat "m1" "hello"),
      Hub.frameEvent 1 (lobbyChat messageID "bye")]).map .server

/-- Her window reads what the server has sent to her. -/
def aliceReads : List Input := List.replicate 5 (.receive 0 "12:00")

theorem rows_kept_lobby :
    Along (step Hub.samplePlatform alice) (RowsKept Hub.samplePlatform alice) (start "")
      (bothWrite "m2" ++ aliceReads) :=
  rows_kept Hub.samplePlatform alice "" _ (by decide +kernel)

/-- With the id of Alice's message, Bob's message takes its row. -/
theorem row_taken_over :
    ¬ ∀ (platform : Platform) (user : LocalUser) (adminCode : String) (xs : List Input),
      Along (step platform user) (RowsKept platform user) (start adminCode) xs := by
  intro hkept
  let reads := bothWrite "m1" ++ List.replicate 4 (.receive 0 "12:00")
  have hlast := (hkept Hub.samplePlatform alice "" (reads ++ [.receive 0 "12:00"])).append.2.1
  have hread : ((run (step Hub.samplePlatform alice) (start "") reads).next alice 0).any
      (fun message => message.userCode == "bob") = true := by decide +kernel
  have hbefore : (run (step Hub.samplePlatform alice) (start "") reads).conversations.rows
      "room:lobby" = [⟨"m1", "Alice", "alice", "12:00", "hello", true, false, "sent"⟩] := by
    decide +kernel
  have hafter : (run (step Hub.samplePlatform alice) (start "")
      (reads ++ [.receive 0 "12:00"])).conversations.rows "room:lobby" =
        [⟨"m1", "Bob", "bob", "12:00", "bye", false, false, "sent"⟩] := by
    decide +kernel
  rw [run_concat] at hafter
  obtain ⟨message, hnext, hbob⟩ := (Option.any_eq_true _ _).1 hread
  have hrow := hlast 0 "12:00" message rfl hnext "room:lobby"
  rw [hbefore, hafter] at hrow
  have hkeeps := hrow _ List.mem_cons_self _ List.mem_cons_self rfl
    (by rw [beq_iff_eq.1 hbob]; decide +kernel)
  exact absurd hkeeps.1 (by decide)

end ChatNet

end Gui

end LanChat
