import LanChat.Hub.Frames
import LanChat.Store.ChatSpec

/-!
# What each event writes to `chat_messages`

* `ChatOf h userCode`, `PrivateOf userCode`: the messages that a chat and a private chat of a user
  are stored as;
* `Posts h e`, `Recalls h e`: the messages that an event may store and the message ids it may
  recall;
* `step_grows`: every event of every run changes the table only in these ways.
-/

namespace LanChat

namespace Hub

open GoStrings Registry ChatStore

variable {h k : Hub} {posts : Message → Prop} {recalls : String → Prop}

/-- A stored chat of the user: it goes to the room of the session under its code. -/
def ChatOf (h : Hub) (userCode : String) (p : Message) : Prop :=
  p.type = .chat ∧ p.userCode = userCode ∧ p.room = h.senderRoom (h.senderOf userCode)

/-- A stored private chat of the user. -/
def PrivateOf (userCode : String) (p : Message) : Prop :=
  p.type = .privateChat ∧ p.userCode = userCode

/-! ### Deliveries and bookkeeping -/

@[simp] theorem chat_onRegistry (f : Registry → Registry) :
    (h.onRegistry f).db.chat = h.db.chat := rfl

@[simp] theorem chat_tell (c : ClientID) (m : Message) : (h.tell c m).db.chat = h.db.chat := rfl

@[simp] theorem chat_deliverError (c : ClientID) (content messageID commandID : String) :
    (h.deliverError c content messageID commandID).db.chat = h.db.chat := rfl

@[simp] theorem chat_recordMessage (message : Message) (recipients : List String)
    (offlineMessageID : String) :
    (h.recordMessage message recipients offlineMessageID).db.chat = h.db.chat := by
  unfold recordMessage
  split <;> rfl

@[simp] theorem chat_assignMessageID (messageID : String) :
    (h.assignMessageID messageID).2.db.chat = h.db.chat := by
  unfold assignMessageID
  split <;> rfl

@[simp] theorem registry_assignMessageID (messageID : String) :
    (h.assignMessageID messageID).2.registry = h.registry := by
  unfold assignMessageID
  split <;> rfl

theorem chat_answerRetry (env : Env) (sender : Option ClientID) (tracking : Bool)
    (message : Message) : (h.answerRetry env sender tracking message).db.chat = h.db.chat := by
  unfold answerRetry
  split
  · rfl
  split
  · rfl
  split <;> rfl

theorem grows_markDelivered {env : Env} {message : Message}
    (hk : h.markDelivered env message = some k) : Grows posts recalls h.db.chat k.db.chat := by
  obtain ⟨-, rfl⟩ | ⟨chat, hupdate, rfl⟩ := markDelivered_eq_some hk
  · exact Grows.refl _
  · exact grows_updateDeliveryState hupdate

theorem grows_saveChatMessage {env : Env} {message : Message} {x : Except GoError Bool}
    (hpost : posts message) (hk : h.saveChatMessage env message = (x, k)) :
    Grows posts recalls h.db.chat k.db.chat := by
  obtain rfl : (h.saveChatMessage env message).2 = k := congrArg Prod.snd hk
  unfold saveChatMessage
  split
  · exact Grows.refl _
  · exact grows_saveChatMessageIfNew hpost

/-! ### Chats -/

theorem grows_relayChat (env : Env) (sender : Option ClientID) (room : String) (tracking : Bool)
    (message : Message) :
    Grows posts recalls h.db.chat (h.relayChat env sender room tracking message).db.chat := by
  unfold relayChat
  dsimp only
  generalize deliverToPeers _ sender (wireMessage tracking message) _ = delivered
  have hrecord : ∀ r, Grows posts recalls h.db.chat ({ h.recordMessage message
      (h.registry.recipientCodes (h.registry.roomClients room)) "" with registry := r } : Hub).db.chat :=
    fun _ => grows_of_eq (by rw [← chat_recordMessage (h := h) message]) (by
      rw [← chat_recordMessage (h := h) message])
  split
  · exact hrecord _
  split
  · exact hrecord _
  split
  · exact hrecord _
  split
  · exact hrecord _
  · rename_i hmark
    have hgrow := (hrecord _).trans (grows_markDelivered hmark)
    exact hgrow

theorem grows_publishChat (platform : Platform) (env : Env) (tracking : Bool) {message : Message}
    (ht : message.type = .chat) :
    Grows (ChatOf h message.userCode) recalls h.db.chat
      (h.publishChat platform env tracking message).db.chat := by
  unfold publishChat
  dsimp only
  split
  · exact grows_relayChat env _ _ _ _
  -- the row is stored under the room of the session that holds the sender's code
  have hpost : ChatOf h message.userCode { message with
      room := h.senderRoom (h.senderOf message.userCode)
      createdAt := platform.rfc3339 env.now
      deliveryState := "sent" } := ⟨ht, rfl, rfl⟩
  split
  · rename_i hsave
    split
    · rw [chat_deliverError]
      exact grows_saveChatMessage hpost hsave
    · exact grows_saveChatMessage hpost hsave
  · rename_i hsave
    rw [chat_answerRetry]
    exact grows_saveChatMessage hpost hsave
  · rename_i hsave
    exact (grows_saveChatMessage hpost hsave).trans (grows_relayChat env _ _ _ _)

theorem grows_broadcastMessage (platform : Platform) (env : Env) {message : Message}
    (ht : message.type = .chat) :
    Grows (ChatOf h message.userCode) recalls h.db.chat
      (h.broadcastMessage platform env message).db.chat := by
  unfold broadcastMessage
  dsimp only
  rw [← chat_assignMessageID (h := h) message.messageID]
  refine Grows.mono (fun p hp => ?_) (fun _ hr => hr) (grows_publishChat platform env _ ht)
  -- assigning an id does not touch the registry
  obtain ⟨hpt, hcode, hroom⟩ := hp
  refine ⟨hpt, hcode, hroom.trans ?_⟩
  simp only [senderRoom, senderOf, registry_assignMessageID]

/-! ### Private chats -/

theorem grows_savePrivateOffline (env : Env) (c : ClientID) (obj : Client) (targetCode : String)
    (tracking : Bool) (message : Message) :
    Grows posts recalls h.db.chat
      (h.savePrivateOffline env c obj targetCode tracking message).db.chat := by
  unfold savePrivateOffline
  split
  · exact Grows.refl _
  dsimp only
  have hsaved : ∀ {x : Except GoError Unit} {k : Hub},
      (h.recordMessage message [obj.normalizedCode, targetCode] message.messageID).saveOfflineMessage
        env targetCode message = (x, k) → Grows posts recalls h.db.chat k.db.chat := by
    intro x k hk
    obtain rfl := congrArg Prod.snd hk
    unfold saveOfflineMessage
    split
    · exact grows_of_eq (by rw [chat_recordMessage]) (by rw [chat_recordMessage])
    · dsimp only
      rw [chat_recordMessage]
      exact grows_saveOfflineMessage _ _ _
  split
  · rename_i hsave
    have hgrow := hsaved hsave
    exact hgrow
  · rename_i hsave
    have hgrow := hsaved hsave
    split
    · exact hgrow
    · exact hgrow

theorem grows_relayPrivate (env : Env) (c : ClientID) (obj : Client) (target : ClientID)
    (targetCode : String) (tracking : Bool) (message : Message) :
    Grows posts recalls h.db.chat
      (h.relayPrivate env c obj target targetCode tracking message).db.chat := by
  unfold relayPrivate
  dsimp only
  have hrecord : ∀ r, Grows posts recalls h.db.chat ({ h.recordMessage message
      [obj.normalizedCode, targetCode] "" with registry := r } : Hub).db.chat :=
    fun _ => grows_of_eq (by rw [← chat_recordMessage (h := h) message]) (by
      rw [← chat_recordMessage (h := h) message])
  split
  · exact hrecord _
  split
  · split
    · exact hrecord _
    · exact hrecord _
  · split
    · exact hrecord _
    · rename_i hmark
      have hgrow := (hrecord _).trans (grows_markDelivered hmark)
      split
      · exact hgrow
      · exact hgrow

theorem grows_routePrivate (env : Env) (c : ClientID) (obj : Client) (targetCode : String)
    (tracking : Bool) (message : Message) :
    Grows posts recalls h.db.chat
      (h.routePrivate env c obj targetCode tracking message).db.chat := by
  unfold routePrivate
  split
  · exact grows_savePrivateOffline env c obj targetCode tracking message
  · exact grows_relayPrivate env c obj _ targetCode tracking _

theorem grows_publishPrivate (env : Env) (c : ClientID) (obj : Client) (targetCode : String)
    (tracking : Bool) {message : Message} {code : String} (ht : message.type = .privateChat)
    (hcode : message.userCode = code) :
    Grows (PrivateOf code) recalls h.db.chat
      (h.publishPrivate env c obj targetCode tracking message).db.chat := by
  unfold publishPrivate
  have hpost : PrivateOf code { message with isPrivate := true } := ⟨ht, hcode⟩
  split
  · exact grows_routePrivate env c obj _ _ _
  split
  · rename_i hsave
    rw [chat_deliverError]
    exact grows_saveChatMessage hpost hsave
  · rename_i hsave
    rw [chat_answerRetry]
    exact grows_saveChatMessage hpost hsave
  · rename_i hsave
    exact (grows_saveChatMessage hpost hsave).trans (grows_routePrivate env c obj _ _ _)

theorem grows_handlePrivateMessage (platform : Platform) (env : Env) {c : ClientID} {obj : Client}
    (hobj : h.registry.client? c = some obj) (targetCode content messageID : String) :
    Grows (PrivateOf obj.userCode) recalls h.db.chat
      (h.handlePrivateMessage platform env c targetCode content messageID).db.chat := by
  unfold handlePrivateMessage
  rw [hobj]
  dsimp only
  split
  · exact Grows.refl _
  split
  · exact Grows.refl _
  split
  · exact Grows.refl _
  split
  · exact Grows.refl _
  · have hassign : Grows (PrivateOf obj.userCode) recalls h.db.chat
        (h.assignMessageID messageID).2.db.chat := by
      rw [chat_assignMessageID]
      exact Grows.refl _
    refine hassign.trans ?_
    apply grows_publishPrivate <;> rfl

/-! ### Recalls -/

/-- The sender of a recall may make it: an administrator, or the author on record. -/
def MayRecall (h : Hub) (env : Env) (obj : Client) (messageID : String) : Prop :=
  ∃ record, h.recordForRecall env messageID = some record ∧
    (obj.isAdmin = true ∨ obj.normalizedCode = record.authorCode)

theorem grows_removeOfflineCopy (env : Env) (record : MessageRecord) :
    Grows posts recalls h.db.chat (h.removeOfflineCopy env record).2.db.chat := by
  unfold removeOfflineCopy
  split
  · exact Grows.refl _
  split
  · exact Grows.refl _
  · rename_i hdelete
    exact grows_deleteOfflineMessage (call_eq_ok.1 hdelete).2

theorem grows_persistRecall (env : Env) {messageID : String} (record : MessageRecord)
    (hrec : recalls messageID) :
    Grows posts recalls h.db.chat (h.persistRecall env messageID record).2.db.chat := by
  unfold persistRecall
  split
  · split
    · rename_i chat hmark
      exact (grows_markMessageRecalled hrec (call_eq_ok.1 hmark).2).trans
        (grows_removeOfflineCopy (h := { h with db := { h.db with chat } }) env record)
    · exact grows_removeOfflineCopy env record
    · exact Grows.refl _
  · exact Grows.refl _

theorem grows_handleRecall (env : Env) (c : ClientID) (obj : Client) (messageID commandID : String) :
    Grows posts (fun id => id = messageID ∧ MayRecall h env obj id) h.db.chat
      (h.handleRecall env c obj messageID commandID).db.chat := by
  unfold handleRecall
  split
  · exact Grows.refl _
  rename_i record hrecord
  split
  · exact Grows.refl _
  split
  · exact Grows.refl _
  split
  · exact Grows.refl _
  rename_i hauthor
  have hmay : MayRecall h env obj messageID := by
    refine ⟨record, hrecord, ?_⟩
    cases hadmin : obj.isAdmin with
    | true => exact .inl rfl
    | false => exact .inr (by simpa [hadmin] using hauthor)
  have hgrow : Grows posts (fun id => id = messageID ∧ MayRecall h env obj id) h.db.chat
      (h.persistRecall env messageID record).2.db.chat := grows_persistRecall env record ⟨rfl, hmay⟩
  split
  · rename_i hpersist
    rw [hpersist] at hgrow
    exact hgrow
  · rename_i hpersist
    rw [hpersist] at hgrow
    exact hgrow

/-! ### Every event -/

/-- The event is a frame of the given client, whose connection reads frames. -/
def FrameOf (h : Hub) (e : Event) (c : ClientID) (obj : Client) (m : Message) : Prop :=
  (∃ limited muted, e.input = .frame c m limited muted) ∧ h.registry.client? c = some obj

/-- The messages that an event may store. -/
def Posts (h : Hub) (e : Event) (p : Message) : Prop :=
  ∃ c obj m, FrameOf h e c obj m ∧
    ((m.type = .chat ∧ ChatOf h obj.userCode p) ∨ (m.type = .privateChat ∧ PrivateOf obj.userCode p))

/-- The message ids that an event may recall. -/
def Recalls (h : Hub) (e : Event) (messageID : String) : Prop :=
  ∃ c obj m, FrameOf h e c obj m ∧ m.type = .adminAction ∧ m.content = "recall" ∧
    m.messageID = messageID ∧ MayRecall h e.env obj messageID

theorem grows_of_same (hsame : Part.chat.Same h k) : Grows posts recalls h.db.chat k.db.chat :=
  grows_of_eq (congrArg ChatStore.messages hsame) (congrArg ChatStore.lastID hsame)

theorem chat_handleRegisterRequest (env : Env) (obj : Client) :
    (h.handleRegisterRequest env obj).2.db.chat = h.db.chat := by
  have hlobby : h.ensureLobby.db.chat = h.db.chat := by
    unfold ensureLobby
    split <;> rfl
  unfold handleRegisterRequest
  split
  · rfl
  dsimp only
  split
  · split
    · exact hlobby
    · exact hlobby
  · split
    · exact hlobby
    · exact hlobby

theorem chat_login (env : Env) (username userCode : String) :
    ∃ accounts, (h.login env username userCode).db.chat = { h.db.chat with accounts } := by
  unfold login
  split
  · exact ⟨_, rfl⟩
  split
  · split
    · exact ⟨_, rfl⟩
    · rename_i hident
      rw [chat_handleRegisterRequest]
      exact ensureIdentity_eq_ok (call_eq_ok.1 hident).2
  · rw [chat_handleRegisterRequest]
    exact ⟨_, rfl⟩

theorem grows_login (env : Env) (username userCode : String) :
    Grows posts recalls h.db.chat (h.login env username userCode).db.chat := by
  obtain ⟨accounts, hchat⟩ := chat_login (h := h) env username userCode
  rw [hchat]
  exact grows_of_eq rfl rfl

theorem grows_replay (env : Env) (c : ClientID) :
    Grows posts recalls h.db.chat (h.replay env c).db.chat := by
  unfold replay
  split
  · exact Grows.refl _
  split
  · split
    · exact Grows.refl _
    split
    · exact Grows.refl _
    · exact Grows.refl _
  · split
    · dsimp only
      split
      · exact Grows.refl _
      · exact grows_of_eq rfl rfl
    · exact Grows.refl _
    · exact Grows.refl _
    · exact Grows.refl _

theorem grows_handleAdminAction (env : Env) {c : ClientID} {obj : Client}
    (hobj : h.registry.client? c = some obj) (action targetCode messageID commandID : String) :
    Grows posts (fun id => action = "recall" ∧ id = messageID ∧ MayRecall h env obj id) h.db.chat
      (h.handleAdminAction env c action targetCode messageID commandID).db.chat := by
  have houtcome := adminOutcome_handleAdminAction h env c action targetCode messageID commandID
  generalize h.handleAdminAction env c action targetCode messageID commandID = k at houtcome ⊢
  cases houtcome with
  | unchanged => exact Grows.refl _
  | refused content => exact Grows.refl _
  | recalled o ho hconn haction =>
    obtain rfl := Option.some_injective _ (hobj.symm.trans ho)
    exact (grows_handleRecall env c obj messageID commandID).mono (fun _ h => h)
      fun _ h => ⟨haction, h⟩
  | decision o approved =>
    unfold handleDecision
    split
    · exact Grows.refl _
    · exact Grows.refl _
  | kick target o => exact Grows.refl _
  | mute target o => exact Grows.refl _

theorem grows_readPump (platform : Platform) (hs : Sound h.registry) (e : Event) {c : ClientID}
    {m : Message} {limited muted : Bool} (he : e.input = .frame c m limited muted) :
    Grows (Posts h e) (Recalls h e) h.db.chat
      (h.readPump platform e.env c m limited muted).db.chat := by
  by_cases hchat : Part.chat ∈ frameParts m.type
  · unfold readPump
    split
    · exact Grows.refl _
    rename_i obj hobj
    have hframe : FrameOf h e c obj m := ⟨⟨limited, muted, he⟩, hobj⟩
    split
    · exact Grows.refl _
    split
    · exact Grows.refl _
    split
    · exact Grows.refl _
    unfold dispatch validated
    cases ht : m.type with
    | chat =>
      dsimp only
      split
      · exact Grows.refl _
      split
      · refine Grows.mono (fun p hp => ?_) (fun _ h => h) (grows_broadcastMessage platform e.env rfl)
        exact ⟨c, obj, m, hframe, .inl ⟨ht, hp⟩⟩
      · exact Grows.refl _
    | privateChat =>
      dsimp only
      split
      · exact Grows.refl _
      split
      · exact Grows.refl _
      · refine (grows_handlePrivateMessage platform e.env hobj _ _ _).mono (fun p hp => ?_)
          fun _ h => h
        exact ⟨c, obj, m, hframe, .inr ⟨ht, hp⟩⟩
    | adminAction =>
      dsimp only
      split
      · refine (grows_handleAdminAction e.env hobj _ _ _ _).mono (fun _ h => h) ?_
        rintro id ⟨haction, rfl, hmay⟩
        exact ⟨c, obj, m, hframe, ht, haction, rfl, hmay⟩
      · exact Grows.refl _
    | _ => simp [ht, frameParts] at hchat
  · exact grows_of_same ((touches_readPump platform hs e.env c m limited muted).same _ hchat)

/-- Every event changes the chat table only by the messages it posts and the recall it makes. -/
theorem step_grows (platform : Platform) (hs : Sound h.registry) (e : Event) :
    Grows (Posts h e) (Recalls h e) h.db.chat (step platform h e).db.chat := by
  cases hinput : e.input with
  | login username userCode =>
    simp only [step, hinput]
    exact grows_login e.env username userCode
  | replay c =>
    simp only [step, hinput]
    split
    · exact grows_replay e.env c
    · exact Grows.refl _
  | frame c message limited muted =>
    simp only [step, hinput]
    exact grows_readPump platform hs e hinput
  | restart adminCode =>
    simp only [step, hinput]
    exact Grows.refl _
  | _ =>
    have htouch := step_touches platform hs e (by rw [hinput]; rfl)
    rw [hinput] at htouch
    exact grows_of_same (htouch.same _ (by simp [Input.writes]))

end Hub

end LanChat
