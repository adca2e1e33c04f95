import LanChat.Hub.GeneratedID
import LanChat.Hub.Queues
import LanChat.Wire

/-!
# The size of what goes out

A frame may have 65536 bytes in either direction.  A message that has come in as such a frame goes
out with more members, and `encoding/json` may write six bytes for one.

* `fits`: the texts that a step sends, counted from the frame and the tables before the step;
* `outbound_fits`: when every step of a run fits, every message in a send queue passes `writeFrame`;
* `outbound_too_large`: a chat of 11000 bytes that does not.
-/

namespace LanChat

namespace Hub

open GoJson GoStrings Registry

variable {h : Hub} (platform : Platform)

/-! ### Counting -/

/-- The types whose texts come from clients. -/
def outboundTypes : List MessageType :=
  [.chat, .privateChat, .offlineMessage, .historyResponse, .roomsResponse]

/-- The bytes of the members of a chat that go out as they have come in. -/
def relayedWeight (m : Message) : ℕ :=
  weight ({ m with messageID := "", username := "", userCode := "", room := "", deliveryState := ""
                   createdAt := "" } : Message).members

/-- The bytes that say who has sent a message, and its id. -/
def identityWeight (messageID username userCode : String) : ℕ :=
  textWeight "message_id" messageID + textWeight "username" username +
    textWeight "user_code" userCode

/-- The bytes of the state and the time that a sender who wants a receipt gets. -/
def trackingWeight (tracking : Bool) (deliveryState createdAt : String) : ℕ :=
  if tracking then textWeight "delivery_state" deliveryState + textWeight "created_at" createdAt
  else 0

/-- The text of a chat. -/
def chatFits (h : Hub) (env : Env) (obj : Client) (m : Message) : Bool :=
  let identity := identityWeight (h.assignMessageID m.messageID).1 obj.username obj.userCode
  let tracking := deliveryTracking m.messageID
  if h.offlineStore then
    decide (relayedWeight m + identity +
      textWeight "room" (h.senderRoom (h.senderOf obj.userCode)) +
      trackingWeight tracking "sent" (platform.rfc3339 env.now) < maxMessageSize)
  else
    decide (relayedWeight m + identity + textWeight "room" m.room +
      trackingWeight tracking m.deliveryState m.createdAt < maxMessageSize)

/-- The code that a private message names as its target. -/
def peerCode (h : Hub) (target : String) : String :=
  ((h.registry.active? target).bind h.registry.client?).elim target Client.userCode

/-- The text of a private message. -/
def privateFits (h : Hub) (env : Env) (obj : Client) (m : Message) : Bool :=
  decide (22 + identityWeight (h.assignMessageID m.messageID).1 obj.username obj.userCode +
    textWeight "target_user_code" (h.peerCode (normalizedOrEmpty m.targetUserCode)) +
    textWeight "content" m.content +
    trackingWeight (deliveryTracking m.messageID) "sent" (platform.rfc3339 env.now) <
      maxMessageSize)

/-- The text of a stored message that waits for its target. -/
def offlineFits (targetCode : String) (r : OfflineRow) : Bool :=
  decide (25 + identityWeight r.messageID r.senderUsername r.senderCode +
    textWeight "target_user_code" targetCode + textWeight "content" r.content +
    textWeight "created_at" r.createdAt < maxMessageSize)

/-- The bytes of a stored message in a page, with the comma. -/
def entryWeight (r : ChatRow) : ℕ := weight (r.toMessage.membersWith quote compact) + 2

/-- The text of a page of history. -/
def historyFits (job : HistoryJob) (page : HistoryPage) : Bool :=
  decide (26 + textWeight "target_user_code" job.targetCode + textWeight "room" job.room +
    weight (optBool "private" job.isPrivate) + textWeight "search_query" job.query.searchQuery +
    weight (optBool "has_more" page.hasMore) +
    (if page.rows.isEmpty then 0 else 13 + (page.rows.map entryWeight).sum) < maxMessageSize)

/-- The bytes of a channel in the list of names, and in the list of details. -/
def channelWeight (obj : Client) (name : String) (definition : RoomDefinition) : ℕ :=
  let details : RoomInfo :=
    ⟨name, definition.ownerCode, definition.isPrivate, canManageRoom obj definition⟩
  textSize name + (details.marshalWith quote).utf8ByteSize + 2

/-- The text of the list of channels. -/
def roomsFits (h : Hub) (obj : Client) : Bool :=
  let visible := h.roomDefinitions.entries.filter fun e => canJoinRoom obj e.2
  decide (24 + textWeight "room" obj.room +
    (if visible.isEmpty then 0 else 27 + (visible.map fun e => channelWeight obj e.1 e.2).sum) <
      maxMessageSize)

/-- The server looks at the frame. -/
def handles (h : Hub) (c : ClientID) (limited : Bool) : Bool := h.readsFrames c && !limited

/-- The store takes a new chat message. -/
def storesChat (h : Hub) (env : Env) : Bool :=
  !h.offlineStore || !(env.fails .saveChatMessage || env.fails .pruneChatMessages)

/-- The private message has somewhere to go. -/
def hasTarget (h : Hub) (env : Env) (obj : Client) (target : String) : Bool :=
  target != obj.normalizedCode &&
    ((h.registry.active? target).isSome || (h.offlineStore && h.targetKnown env target))

/-- The texts that the step sends fit into frames. -/
def fits (h : Hub) (e : Event) : Bool :=
  match e.input with
  | .frame c m limited muted => (h.registry.client? c).all fun obj =>
    match m.type with
    | .chat => !(h.handles c limited && !muted && (validateMessage m).isOk && h.storesChat e.env) ||
        h.chatFits platform e.env obj m
    | .privateChat => !(h.handles c limited && (validateTextContent "private chat" m.content).isOk &&
          h.storesChat e.env && h.hasTarget e.env obj (normalizedOrEmpty m.targetUserCode)) ||
        h.privateFits platform e.env obj m
    | .roomsRequest => !(h.handles c limited && h.registry.isConnected c) || h.roomsFits obj
    | _ => true
  | .replay c => (h.registry.client? c).all fun obj =>
    obj.stage != .offline || !obj.replay.isEmpty || e.env.fails .takeOfflineMessages ||
      h.db.chat.offline.rows.all fun r =>
        r.targetCode != asciiLower obj.userCode || offlineFits obj.userCode r
  | .historyResult =>
    match h.historyResults with
    | [] => true
    | result :: _ => !h.registry.isConnected result.job.client ||
        match result.page with
        | .error _ => true
        | .ok page => historyFits result.job page
  | _ => true

/-! ### The texts -/

/-- A message of one of the types passes `writeFrame`. -/
def FitsOut (m : Message) : Prop := m.type ∈ outboundTypes → sendMessage m = true

theorem fitsOut_of_type {m : Message} (ht : m.type ∉ outboundTypes) : FitsOut m :=
  fun h => absurd h ht

theorem fitsOut_of_weight {m : Message} (hw : weight m.members < maxMessageSize) : FitsOut m :=
  fun _ => (sendMessage_iff m).2 hw

/-- The six members that the server sets, apart from the others. -/
theorem weight_relayed (m : Message) (messageID username userCode room deliveryState createdAt : String) :
    weight ({ m with messageID, username, userCode, room, deliveryState, createdAt } : Message).members =
      relayedWeight m + identityWeight messageID username userCode + textWeight "room" room +
        textWeight "delivery_state" deliveryState + textWeight "created_at" createdAt := by
  unfold relayedWeight identityWeight Message.members Message.membersWith Message.optionalMembers
  simp only [weight_cons, weight_append, weight_optText, textWeight_empty]
  omega

/-- The messages that the server makes have these members at most. -/
theorem weight_made (type : MessageType) (messageID username userCode targetUserCode room : String)
    (isPrivate : Bool) (rooms : List String) (roomDetails : List RoomInfo)
    (content deliveryState createdAt searchQuery : String) (hasMore : Bool)
    (messages : List HistoryMessage) :
    weight ({ type, messageID, username, userCode, targetUserCode, room, isPrivate, rooms
              roomDetails, content, deliveryState, createdAt, searchQuery, hasMore
              messages } : Message).members =
      textSize type.name + 8 + identityWeight messageID username userCode +
        textWeight "target_user_code" targetUserCode + textWeight "room" room +
        weight (optBool "private" isPrivate) + arrayWeight "rooms" (rooms.map quote) +
        arrayWeight "room_details" (roomDetails.map (RoomInfo.marshalWith quote)) +
        textWeight "content" content + textWeight "delivery_state" deliveryState +
        textWeight "created_at" createdAt + textWeight "search_query" searchQuery +
        weight (optBool "has_more" hasMore) +
        arrayWeight "messages" (messages.map fun x => object (x.membersWith quote compact)) := by
  have hepoch : optInt "epoch" ((0 : UInt64).toNat : ℤ) = [] := rfl
  have htype : "type".utf8ByteSize = 4 := rfl
  dsimp only [Message.members, Message.membersWith, Message.optionalMembers]
  rw [hepoch]
  simp only [List.map_nil, optText_empty, optBool_false, optInt_zero, List.append_nil, weight_cons,
    weight_append, weight_optText, weight_optArray, arrayWeight_nil, size_member, size_quote, htype,
    identityWeight]
  omega

/-- The bytes of the types of the frames. -/
theorem textSize_frameTypes : textSize (MessageType.name .privateChat) = 14 ∧
    textSize (MessageType.name .offlineMessage) = 17 ∧
    textSize (MessageType.name .historyResponse) = 18 ∧
    textSize (MessageType.name .roomsResponse) = 16 := by decide +kernel

theorem fitsOut_private {messageID username userCode targetUserCode content deliveryState
      createdAt : String}
    (hw : 22 + identityWeight messageID username userCode +
      textWeight "target_user_code" targetUserCode + textWeight "content" content +
      (textWeight "delivery_state" deliveryState + textWeight "created_at" createdAt) <
        maxMessageSize) :
    FitsOut { type := .privateChat, messageID, username, userCode, targetUserCode, content,
              deliveryState, createdAt } := by
  have htype := textSize_frameTypes.1
  refine fitsOut_of_weight ?_
  rw [weight_made, htype]
  simpa [add_assoc] using hw

theorem fitsOut_offline {targetCode : String} {r : OfflineRow}
    (hw : offlineFits targetCode r = true) :
    FitsOut { type := .offlineMessage, username := r.senderUsername, userCode := r.senderCode
              content := r.content, messageID := r.messageID, createdAt := r.createdAt
              targetUserCode := targetCode } := by
  have htype := textSize_frameTypes.2.1
  have hlt := of_decide_eq_true hw
  refine fitsOut_of_weight ?_
  rw [weight_made, htype]
  simpa [add_assoc] using hlt

theorem fitsOut_history {job : HistoryJob} {page : HistoryPage}
    (hw : historyFits job page = true) : FitsOut (historyResponse job page) := by
  have htype := textSize_frameTypes.2.2.1
  have hlt := of_decide_eq_true hw
  have hmessages : arrayWeight "messages"
      (page.messages.map fun x => object (x.membersWith quote compact)) =
        if page.rows.isEmpty then 0 else 13 + (page.rows.map entryWeight).sum := by
    have hsum : ∀ rows : List ChatRow,
        weight ((rows.map ChatRow.toMessage).map fun x => object (x.membersWith quote compact)) =
          (rows.map entryWeight).sum := by
      intro rows
      induction rows with
      | nil => rfl
      | cons r rows ih =>
        have hobject : (object (r.toMessage.membersWith quote compact)).utf8ByteSize =
            weight (r.toMessage.membersWith quote compact) + 1 :=
          size_object (List.cons_ne_nil _ _)
        rw [List.map_cons, List.map_cons, weight_cons, ih, List.map_cons, List.sum_cons, hobject]
        rfl
    have hname : "messages".utf8ByteSize = 8 := rfl
    unfold arrayWeight HistoryPage.messages
    rw [hsum, hname]
    cases hrows : page.rows with
    | nil => rfl
    | cons r rows =>
      simp only [List.map_cons, reduceCtorEq, if_false,
        List.isEmpty_cons, Bool.false_eq_true]
      omega
  refine fitsOut_of_weight ?_
  unfold historyResponse
  rw [weight_made, htype, hmessages]
  simp only [identityWeight, textWeight_empty, List.map_nil, arrayWeight_nil]
  omega

theorem fitsOut_rooms {obj : Client} (hw : h.roomsFits obj = true) :
    FitsOut
      { type := .roomsResponse
        rooms := ((h.roomDefinitions.entries.filter fun e => canJoinRoom obj e.2).map
          Sigma.fst).insertionSort (· ≤ ·)
        room := obj.room
        roomDetails := ((h.roomDefinitions.entries.filter fun e => canJoinRoom obj e.2).map fun e =>
          (⟨e.1, e.2.ownerCode, e.2.isPrivate, canManageRoom obj e.2⟩ : RoomInfo)).insertionSort
            fun a b => a.name ≤ b.name } := by
  have htype := textSize_frameTypes.2.2.2
  have hlt := of_decide_eq_true hw
  generalize h.roomDefinitions.entries.filter (fun e => canJoinRoom obj e.2) = visible at hlt ⊢
  refine fitsOut_of_weight ?_
  rw [weight_made, htype,
    arrayWeight_perm ((List.perm_insertionSort _ (visible.map Sigma.fst)).map quote),
    arrayWeight_perm ((List.perm_insertionSort _ (visible.map _)).map (RoomInfo.marshalWith quote))]
  have hnames : ∀ l : List (Sigma fun _ : String => RoomDefinition),
      weight ((l.map Sigma.fst).map quote) + weight ((l.map fun e =>
        (⟨e.1, e.2.ownerCode, e.2.isPrivate, canManageRoom obj e.2⟩ : RoomInfo)).map
          (RoomInfo.marshalWith quote)) = (l.map fun e => channelWeight obj e.1 e.2).sum := by
    intro l
    induction l with
    | nil => rfl
    | cons e l ih =>
      simp only [List.map_cons, weight_cons, size_quote, List.sum_cons, channelWeight] at ih ⊢
      omega
  have hrooms : "rooms".utf8ByteSize = 5 := rfl
  have hdetails : "room_details".utf8ByteSize = 12 := rfl
  cases visible with
  | nil => simpa [identityWeight] using hlt
  | cons e l =>
    have hsum := hnames (e :: l)
    simp only [arrayWeight, List.map_cons, reduceCtorEq, if_false, hrooms, hdetails, identityWeight,
      textWeight_empty, optBool_false, weight_nil, List.map_nil, List.isEmpty_cons,
      Bool.false_eq_true, if_true] at hsum hlt ⊢
    omega

/-! ### The handlers -/

/-- Every message of these types that waits for a client fits. -/
def QueuesFit (h : Hub) : Prop := Holds (fun _ m => FitsOut m) h.registry

theorem QueuesFit.deliverError (hh : h.QueuesFit) (c : ClientID) (text messageID commandID : String) :
    (h.deliverError c text messageID commandID).QueuesFit :=
  Holds.deliver hh (fitsOut_of_type (by simp [outboundTypes]))

theorem QueuesFit.receipt (hh : h.QueuesFit) (c : ClientID) (messageID state : String) :
    (h.tell c (receipt messageID state)).QueuesFit :=
  Holds.deliver hh (fitsOut_of_type (by simp [outboundTypes, Hub.receipt]))

theorem QueuesFit.of_registry {k : Hub} (hh : h.QueuesFit) (hk : k.registry = h.registry) :
    k.QueuesFit := by
  unfold QueuesFit
  rw [hk]
  exact hh

theorem holds_deliverToPeers {r : Registry} {P : ClientID → Message → Prop} {m : Message}
    (hm : ∀ c, P c m) (sender : Option ClientID) (l : List ClientID) (hr : Holds P r) :
    Holds P (deliverToPeers r sender m l).1 := by
  induction l generalizing r with
  | nil => exact hr
  | cons c l ih => exact ih (hr.deliver (hm c))

/-- Only a store that takes messages takes this one. -/
theorem storesChat_of_saved {env : Env} {message : Message}
    (hsaved : (h.saveChatMessage env message).1 = .ok true) : h.storesChat env = true := by
  unfold saveChatMessage at hsaved
  unfold storesChat
  split at hsaved
  · cases hsaved
  rename_i hfails
  have hprune : env.fails .pruneChatMessages = false := by
    unfold ChatStore.saveChatMessageIfNew at hsaved
    dsimp only at hsaved
    split at hsaved
    · cases hsaved
    split at hsaved
    · cases hsaved
    split at hsaved
    · cases hsaved
    · rename_i hp
      simpa using hp
  simp [hprune, hfails]

/-- A save writes the messages only. -/
theorem accounts_saveChatMessage {k : Hub} {env : Env} {message : Message} {x : Except GoError Bool}
    (hsave : h.saveChatMessage env message = (x, k)) :
    k.offlineStore = h.offlineStore ∧ k.db.chat.accounts = h.db.chat.accounts := by
  unfold saveChatMessage at hsave
  split at hsave
  · obtain ⟨-, rfl⟩ := Prod.mk.inj hsave
    exact ⟨rfl, rfl⟩
  · obtain ⟨-, rfl⟩ := Prod.mk.inj hsave
    refine ⟨rfl, ?_⟩
    unfold ChatStore.saveChatMessageIfNew
    dsimp only
    split
    · rfl
    split
    · rfl
    split
    · rfl
    · rfl

theorem QueuesFit.answerRetry (hh : h.QueuesFit) (env : Env) (sender : Option ClientID)
    (tracking : Bool) (message : Message) :
    (h.answerRetry env sender tracking message).QueuesFit := by
  unfold Hub.answerRetry
  split
  · exact hh
  split
  · exact hh
  split
  · exact hh.deliverError _ _ _ _
  · exact hh.receipt _ _ _

theorem QueuesFit.relayChat (hh : h.QueuesFit) (env : Env) (sender : Option ClientID)
    (room : String) {tracking : Bool} {message : Message}
    (hm : FitsOut (wireMessage tracking message)) :
    (h.relayChat env sender room tracking message).QueuesFit := by
  unfold Hub.relayChat
  dsimp only
  have hrelayed : ∀ l, Holds (fun _ m => FitsOut m) (deliverToPeers
      (h.recordMessage message (h.registry.recipientCodes (h.registry.roomClients room)) "").registry
      sender (wireMessage tracking message) l).1 := by
    intro l
    refine holds_deliverToPeers (fun _ => hm) sender l ?_
    rw [registry_recordMessage]
    exact hh
  split
  · exact hrelayed _
  split
  · exact hrelayed _
  split
  · refine QueuesFit.receipt ?_ _ _ _
    exact hrelayed _
  split
  · refine QueuesFit.deliverError ?_ _ _ _ _
    exact hrelayed _
  · rename_i k hk
    refine QueuesFit.receipt (QueuesFit.of_registry ?_ (registry_markDelivered hk)) _ _ _
    exact hrelayed _

/-- The copy of a chat that goes out, by the branch that makes it. -/
theorem fitsOut_wireMessage {tracking : Bool} {m : Message}
    {messageID username userCode room deliveryState createdAt : String}
    (hw : relayedWeight m + identityWeight messageID username userCode + textWeight "room" room +
      trackingWeight tracking deliveryState createdAt < maxMessageSize) :
    FitsOut (wireMessage tracking
      { m with messageID, username, userCode, room, deliveryState, createdAt }) := by
  unfold trackingWeight at hw
  cases tracking with
  | true =>
    refine fitsOut_of_weight ?_
    unfold wireMessage
    rw [if_pos rfl, weight_relayed]
    simpa [add_assoc] using hw
  | false =>
    refine fitsOut_of_weight ?_
    have hwire : wireMessage false
        { m with messageID, username, userCode, room, deliveryState, createdAt } =
          { m with messageID, username, userCode, room, deliveryState := "", createdAt := "" } := rfl
    rw [hwire, weight_relayed]
    simpa using hw

theorem QueuesFit.broadcastMessage (hh : h.QueuesFit) {env : Env} {obj : Client}
    {m message : Message}
    (hmessage : message = { m with username := obj.username, userCode := obj.userCode })
    (hfits : h.storesChat env = true → h.chatFits platform env obj m = true) :
    (h.broadcastMessage platform env message).QueuesFit := by
  subst hmessage
  unfold Hub.broadcastMessage
  dsimp only
  have hregistry : (h.assignMessageID m.messageID).2.registry = h.registry := by
    unfold assignMessageID
    split
    · rfl
    · rfl
  have hstore : (h.assignMessageID m.messageID).2.offlineStore = h.offlineStore := by
    unfold assignMessageID
    split
    · rfl
    · rfl
  have hassigned : (h.assignMessageID m.messageID).2.QueuesFit := hh.of_registry hregistry
  have hroom : ∀ sender, (h.assignMessageID m.messageID).2.senderRoom sender = h.senderRoom sender := by
    intro sender
    unfold senderRoom
    rw [hregistry]
  have hsender : ∀ code, (h.assignMessageID m.messageID).2.senderOf code = h.senderOf code := by
    intro code
    unfold senderOf
    rw [hregistry]
  unfold chatFits at hfits
  dsimp only at hfits
  generalize (h.assignMessageID m.messageID).1 = messageID at hfits ⊢
  generalize (h.assignMessageID m.messageID).2 = k at hregistry hstore hassigned hroom hsender ⊢
  unfold publishChat
  dsimp only
  split
  · rename_i hoff
    have hoffline : h.offlineStore = false := by rwa [hstore, Bool.not_eq_true'] at hoff
    have hchat := hfits (by simp [storesChat, hoffline])
    rw [if_neg (by simp [hoffline])] at hchat
    exact hassigned.relayChat env _ _ (fitsOut_wireMessage (of_decide_eq_true hchat))
  rename_i hon
  have honline : h.offlineStore = true := by
    rw [hstore] at hon
    simpa using hon
  split
  · rename_i e k' hsave
    have hk' : k'.QueuesFit := hassigned.of_registry (registry_saveChatMessage hsave)
    split
    · exact hk'.deliverError _ _ _ _
    · exact hk'
  · rename_i k' hsave
    exact (hassigned.of_registry (registry_saveChatMessage hsave)).answerRetry _ _ _ _
  · rename_i k' hsave
    have hchat := hfits (by
      have hstores : k.storesChat env = true := storesChat_of_saved (congrArg Prod.fst hsave)
      unfold storesChat at hstores ⊢
      rwa [hstore] at hstores)
    rw [if_pos honline] at hchat
    rw [hroom, hsender]
    exact (hassigned.of_registry (registry_saveChatMessage hsave)).relayChat env _ _
      (fitsOut_wireMessage (of_decide_eq_true hchat))

theorem registry_saveOfflineMessage {k : Hub} {env : Env} {targetCode : String} {message : Message}
    {x : Except GoError Unit} (hk : h.saveOfflineMessage env targetCode message = (x, k)) :
    k.registry = h.registry := by
  unfold saveOfflineMessage at hk
  split at hk
  · obtain ⟨-, rfl⟩ := Prod.mk.inj hk
    rfl
  · obtain ⟨-, rfl⟩ := Prod.mk.inj hk
    rfl

theorem QueuesFit.savePrivateOffline (hh : h.QueuesFit) (env : Env) (c : ClientID) (obj : Client)
    (targetCode : String) {tracking : Bool} {message : Message}
    (hm : h.offlineStore = true → h.targetKnown env targetCode = true →
      FitsOut (wireMessage tracking message)) :
    (h.savePrivateOffline env c obj targetCode tracking message).QueuesFit := by
  unfold Hub.savePrivateOffline
  split
  · exact hh.deliverError _ _ _ _
  rename_i hknown
  simp only [Bool.or_eq_true, Bool.not_eq_true', not_or, Bool.not_eq_false] at hknown
  have hrecorded : (h.recordMessage message [obj.normalizedCode, targetCode]
      message.messageID).QueuesFit := hh.of_registry (registry_recordMessage _ _ _)
  dsimp only
  split
  · rename_i e k hsave
    have hk : k.QueuesFit := hrecorded.of_registry (registry_saveOfflineMessage hsave)
    exact hk.deliverError _ _ _ _
  · rename_i u k hsave
    have hk : k.QueuesFit := hrecorded.of_registry (registry_saveOfflineMessage hsave)
    have hecho : (k.tell c (wireMessage tracking message)).QueuesFit :=
      Holds.deliver hk (hm hknown.1 hknown.2)
    have hnotice : ((k.tell c (wireMessage tracking message)).tell c
        { type := .system, content := "Private message saved for offline user" }).QueuesFit :=
      Holds.deliver hecho (fitsOut_of_type (by simp [outboundTypes]))
    split
    · exact hnotice.receipt _ _ _
    · exact hnotice

theorem QueuesFit.relayPrivate (hh : h.QueuesFit) (env : Env) (c : ClientID) (obj : Client)
    (target : ClientID) (targetCode : String) {tracking : Bool} {message : Message}
    (hm : FitsOut (wireMessage tracking message)) :
    (h.relayPrivate env c obj target targetCode tracking message).QueuesFit := by
  unfold Hub.relayPrivate
  dsimp only
  have hrecorded : (h.recordMessage message [obj.normalizedCode, targetCode] "").QueuesFit :=
    hh.of_registry (registry_recordMessage _ _ _)
  split
  · rename_i r hecho
    have hr : Holds (fun _ m => FitsOut m) r := by
      have hdeliver := Holds.deliver (c := c) hrecorded hm
      rwa [hecho] at hdeliver
    exact hr
  rename_i r hecho
  have hr : Holds (fun _ m => FitsOut m) r := by
    have hdeliver := Holds.deliver (c := c) hrecorded hm
    rwa [hecho] at hdeliver
  split
  · rename_i r' hsent
    have hr' : Holds (fun _ m => FitsOut m) r' := by
      have hdeliver := Holds.deliver (c := target) hr hm
      rwa [hsent] at hdeliver
    split
    · refine QueuesFit.receipt ?_ _ _ _
      exact hr'
    · exact hr'
  · rename_i r' hsent
    have hr' : Holds (fun _ m => FitsOut m) r' := by
      have hdeliver := Holds.deliver (c := target) hr hm
      rwa [hsent] at hdeliver
    split
    · refine QueuesFit.deliverError ?_ _ _ _ _
      exact hr'
    · rename_i k hk
      have hk' : k.QueuesFit := by
        refine QueuesFit.of_registry ?_ (registry_markDelivered hk)
        exact hr'
      split
      · exact hk'.receipt _ _ _
      · exact hk'

theorem QueuesFit.routePrivate (hh : h.QueuesFit) (env : Env) (c : ClientID) {obj : Client}
    {targetCode : String} {tracking : Bool} {message : Message}
    (htarget : message.targetUserCode = targetCode) (hself : targetCode ≠ obj.normalizedCode)
    (hm : h.hasTarget env obj targetCode = true →
      FitsOut (wireMessage tracking { message with targetUserCode := h.peerCode targetCode })) :
    (h.routePrivate env c obj targetCode tracking message).QueuesFit := by
  unfold Hub.routePrivate
  split
  · rename_i hactive
    refine hh.savePrivateOffline env c obj targetCode fun hstore hknown => ?_
    have hpeer : h.peerCode targetCode = message.targetUserCode := by
      unfold peerCode
      rw [hactive, htarget]
      rfl
    rw [hpeer] at hm
    exact hm (by simp [hasTarget, hself, hactive, hstore, hknown])
  · rename_i target hactive
    have hpeer : h.peerCode targetCode =
        (h.registry.client? target).elim message.targetUserCode Client.userCode := by
      unfold peerCode
      rw [hactive, htarget]
      rfl
    rw [hpeer] at hm
    exact hh.relayPrivate env c obj target targetCode
      (hm (by simp [hasTarget, hself, hactive]))

theorem QueuesFit.handlePrivateMessage (hh : h.QueuesFit) {env : Env} {c : ClientID} {obj : Client}
    {m : Message} {target : String} (hobj : h.registry.client? c = some obj)
    (htarget : normalizeUserCode m.targetUserCode = .ok target)
    (hfits : h.storesChat env = true → h.hasTarget env obj target = true →
      h.privateFits platform env obj m = true) :
    (h.handlePrivateMessage platform env c target m.content m.messageID).QueuesFit := by
  unfold Hub.handlePrivateMessage
  rw [hobj]
  dsimp only
  split
  · exact hh
  split
  · exact hh.deliverError _ _ _ _
  rename_i target' htarget'
  obtain rfl : target' = target :=
    Except.ok.inj (htarget'.symm.trans (normalizeUserCode_idem htarget))
  split
  · exact hh.deliverError _ _ _ _
  split
  · exact hh.deliverError _ _ _ _
  rename_i hself
  have hregistry : (h.assignMessageID m.messageID).2.registry = h.registry :=
    registry_assignMessageID m.messageID
  have hstore : (h.assignMessageID m.messageID).2.offlineStore = h.offlineStore := by
    unfold assignMessageID
    split
    · rfl
    · rfl
  have hassigned : (h.assignMessageID m.messageID).2.QueuesFit := hh.of_registry hregistry
  have hcode : normalizedOrEmpty m.targetUserCode = target' := by
    unfold normalizedOrEmpty
    rw [htarget]
  unfold privateFits trackingWeight at hfits
  rw [hcode] at hfits
  -- the copy that goes out, whichever session the target has
  have hwire : ∀ messageID : String, messageID = (h.assignMessageID m.messageID).1 →
      h.storesChat env = true → h.hasTarget env obj target' = true →
      FitsOut (wireMessage (deliveryTracking m.messageID)
        { type := .privateChat, messageID, username := obj.username, userCode := obj.userCode
          targetUserCode := h.peerCode target', content := m.content, deliveryState := "sent"
          createdAt := platform.rfc3339 env.now }) := by
    rintro _ rfl hstores hhas
    have hlt := of_decide_eq_true (hfits hstores hhas)
    cases htracking : deliveryTracking m.messageID with
    | true =>
      rw [htracking, if_pos rfl] at hlt
      exact fitsOut_private hlt
    | false =>
      rw [htracking, if_neg (by simp)] at hlt
      exact fitsOut_private (by simpa using hlt)
  have hchat : (h.assignMessageID m.messageID).2.db = h.db := by
    unfold assignMessageID
    split
    · rfl
    · rfl
  generalize hid : (h.assignMessageID m.messageID).1 = messageID at hwire ⊢
  generalize (h.assignMessageID m.messageID).2 = k at hregistry hstore hassigned hchat ⊢
  have hroute : ∀ {l : Hub}, l.registry = h.registry → l.offlineStore = h.offlineStore →
      (∀ code, l.targetKnown env code = h.targetKnown env code) → h.storesChat env = true →
      (l.routePrivate env c obj target' (deliveryTracking m.messageID)
        { type := .privateChat, messageID, username := obj.username, userCode := obj.userCode
          targetUserCode := target', content := m.content, deliveryState := "sent"
          createdAt := platform.rfc3339 env.now }).QueuesFit := by
    intro l hl hls hknown hstores
    refine (hh.of_registry hl).routePrivate env c rfl hself fun hhas => ?_
    have hpeer : l.peerCode target' = h.peerCode target' := by
      unfold peerCode
      rw [hl]
    unfold hasTarget at hhas
    rw [hl, hls, hknown] at hhas
    rw [hpeer]
    exact hwire messageID rfl hstores hhas
  unfold publishPrivate
  split
  · rename_i hoff
    have hoffline : h.offlineStore = false := by rwa [hstore, Bool.not_eq_true'] at hoff
    refine hroute hregistry hstore (fun code => ?_) (by simp [storesChat, hoffline])
    unfold targetKnown
    rw [hchat]
  split
  · rename_i e k' hsave
    exact (hassigned.of_registry (registry_saveChatMessage hsave)).deliverError _ _ _ _
  · rename_i k' hsave
    exact (hassigned.of_registry (registry_saveChatMessage hsave)).answerRetry _ _ _ _
  · rename_i k' hsave
    have hstores : h.storesChat env = true := by
      have hstores : k.storesChat env = true := storesChat_of_saved (congrArg Prod.fst hsave)
      unfold storesChat at hstores ⊢
      rwa [hstore] at hstores
    have hk' := registry_saveChatMessage hsave
    obtain ⟨hks, haccounts⟩ := accounts_saveChatMessage hsave
    refine hroute (hk'.trans hregistry) (hks.trans hstore) (fun code => ?_) hstores
    unfold targetKnown ChatStore.hasUserCode
    rw [haccounts, hchat]

theorem QueuesFit.handleHistoryResult (hh : h.QueuesFit)
    (hfits : h.fits platform ⟨.historyResult, {}⟩ = true) : h.handleHistoryResult.QueuesFit := by
  unfold Hub.handleHistoryResult
  unfold fits at hfits
  dsimp only at hfits
  split
  · exact hh
  rename_i result results hresults
  rw [hresults] at hfits
  dsimp only at hfits ⊢
  split
  · exact hh
  rename_i hconnected
  have hconnected' : h.registry.isConnected result.job.client = true := by
    simpa using hconnected
  rw [hconnected', Bool.not_true, Bool.false_or] at hfits
  split
  · refine QueuesFit.deliverError ?_ _ _ _ _
    exact hh
  · rename_i page hpage
    rw [hpage] at hfits
    exact Holds.deliver hh (fitsOut_history hfits)

theorem QueuesFit.handleRequestRooms (hh : h.QueuesFit) {c : ClientID} {obj : Client}
    (hobj : h.registry.client? c = some obj)
    (hfits : h.registry.isConnected c = true → h.roomsFits obj = true) :
    (h.handleRequestRooms c).QueuesFit := by
  unfold Hub.handleRequestRooms
  rw [hobj]
  dsimp only
  split
  · exact hh
  · rename_i hconnected
    exact Holds.deliver hh (fitsOut_rooms (hfits (by simpa using hconnected)))

theorem QueuesFit.replay (hh : h.QueuesFit) {env : Env} {c : ClientID}
    (hfits : h.fits platform ⟨.replay c, env⟩ = true) : (h.replay env c).QueuesFit := by
  refine holds_replay env c hh (fun m hm => fitsOut_of_type (by simp [hm, outboundTypes])) ?_ ?_
  · intro obj hobj hreplay hstage htake m hm
    unfold fits at hfits
    dsimp only at hfits
    rw [hobj, Option.all_some] at hfits
    obtain ⟨row, hrow, rfl⟩ := List.mem_map.1 hm
    obtain ⟨hmem, hcode⟩ := List.mem_filter.1 hrow
    simp only [hstage, hreplay, bne_self_eq_false, List.isEmpty_nil, Bool.not_true, Bool.false_or,
      Bool.or_eq_true, htake, List.all_eq_true] at hfits
    refine fitsOut_offline ((hfits row hmem).resolve_left ?_)
    simpa using hcode
  · intro code welcomes _ p _
    exact fitsOut_of_type (by simp [welcomeReplay, outboundTypes])

/-! ### Runs -/

theorem QueuesFit.of_touches {k : Hub} (hh : h.QueuesFit) (parts : List Part)
    (types : List MessageType) (htouch : Touches parts types h k)
    (htypes : ∀ t ∈ types, t ∉ outboundTypes) : k.QueuesFit :=
  htouch.moves.holds (fun _ _ hm => fitsOut_of_type (htypes _ hm)) hh

theorem QueuesFit.validated (hh : h.QueuesFit) {c : ClientID} {m : Message}
    {messageID commandID : String} {handle : Hub → Hub}
    (hf : (validateMessage m).isOk = true → (handle h).QueuesFit) :
    (h.validated c m messageID commandID handle).QueuesFit := by
  unfold Hub.validated
  split
  · rename_i hvalid
    exact hf hvalid
  · exact hh.deliverError _ _ _ _

/-- A frame that is dispatched keeps the queues fit. -/
theorem QueuesFit.dispatch (hs : Sound h.registry) (hh : h.QueuesFit) {env : Env} {c : ClientID}
    {obj : Client} {m : Message} {limited muted : Bool} (hobj : h.registry.client? c = some obj)
    (hreads : h.readsFrames c = true)
    (hlimited : ¬ (limited = true ∧ m.type ≠ .attachmentChunk ∧ m.type ≠ .attachmentDownload ∧
      m.type ≠ .quit))
    (hfits : h.fits platform ⟨.frame c m limited muted, env⟩ = true) :
    (h.dispatch platform env c obj m muted).QueuesFit := by
  have htouch := touches_dispatch platform hs env c obj m muted
  have hhandles : m.type ≠ .attachmentChunk → m.type ≠ .attachmentDownload → m.type ≠ .quit →
      h.handles c limited = true := by
    intro h1 h2 h3
    have hfree : limited = false := by
      cases limited with
      | false => rfl
      | true => exact absurd ⟨rfl, h1, h2, h3⟩ hlimited
    simp [handles, hreads, hfree]
  unfold fits at hfits
  dsimp only at hfits
  rw [hobj, Option.all_some] at hfits
  cases ht : m.type with
  | chat =>
    have hdo := hhandles (by simp [ht]) (by simp [ht]) (by simp [ht])
    unfold Hub.dispatch
    rw [ht] at hfits ⊢
    dsimp only at hfits ⊢
    split
    · exact hh.deliverError _ _ _ _
    rename_i hmuted
    refine hh.validated fun hvalid => hh.broadcastMessage platform (m := m) (by rw [← ht]) ?_
    intro hstores
    simpa [hdo, hmuted, hvalid, hstores] using hfits
  | privateChat =>
    have hdo := hhandles (by simp [ht]) (by simp [ht]) (by simp [ht])
    unfold Hub.dispatch
    rw [ht] at hfits ⊢
    dsimp only at hfits ⊢
    split
    · exact hh.deliverError _ _ _ _
    rename_i target htarget
    have hcode : normalizedOrEmpty m.targetUserCode = target := by
      unfold normalizedOrEmpty
      rw [htarget]
    split
    · exact hh.deliverError _ _ _ _
    rename_i hcontent
    have hcontent' : (validateTextContent "private chat" m.content).isOk = true := by
      simpa using hcontent
    refine hh.handlePrivateMessage platform hobj htarget fun hstores hhas => ?_
    rw [hcode] at hfits
    simpa [hdo, hcontent', hstores, hhas] using hfits
  | roomsRequest =>
    have hdo := hhandles (by simp [ht]) (by simp [ht]) (by simp [ht])
    unfold Hub.dispatch
    rw [ht] at hfits ⊢
    dsimp only at hfits ⊢
    refine hh.handleRequestRooms hobj fun hconnected => ?_
    simpa [hdo, hconnected] using hfits
  | usersRequest =>
    unfold Hub.dispatch
    rw [ht]
    dsimp only
    unfold handleRequestUsers
    split
    · exact hh
    · exact Holds.deliver hh (fitsOut_of_type (by simp [outboundTypes]))
  | roomJoin =>
    unfold Hub.dispatch
    rw [ht]
    refine hh.validated fun _ => hh.of_touches [.places] [.system, .error]
      (touches_handleRoomJoin (by decide) (by decide) (by decide) env c _) (by decide)
  | roomCreate =>
    unfold Hub.dispatch
    rw [ht]
    exact hh.validated fun _ => hh.of_touches _ [.system, .error]
      (touches_handleRoomCreate (by decide) (by decide) env c _ _) (by decide)
  | roomAction =>
    unfold Hub.dispatch
    rw [ht]
    exact hh.validated fun _ => hh.of_touches _ [.system, .error]
      (touches_handleRoomAction (by decide) (by decide) hs env c _ _ _) (by decide)
  | roomLeave =>
    unfold Hub.dispatch
    rw [ht]
    exact hh.of_touches [.places] [.system, .error]
      (touches_handleRoomLeave (by decide) (by decide) env c) (by decide)
  | _ =>
    rw [ht] at htouch
    exact hh.of_touches _ _ htouch (by simp [frameTypes, outboundTypes, requestTypes, recallTypes,
      adminTypes])

/-- Steps that fit keep the queues fit. -/
theorem queuesFit_step (hs : Sound h.registry) (e : Event) (hfits : h.fits platform e = true)
    (hh : h.QueuesFit) : (step platform h e).QueuesFit := by
  obtain ⟨input, env⟩ := e
  cases input with
  | restart adminCode => exact Holds.of_objects hh fun _ => rfl
  | frame c m limited muted =>
    unfold step
    dsimp only
    unfold readPump
    split
    · exact hh
    rename_i obj hobj
    split
    · exact hh
    rename_i hreads
    have hreads' : h.readsFrames c = true := by
      unfold readsFrames
      rw [hobj]
      simpa [and_assoc] using hreads
    split
    · exact hh.of_touches [] [.system]
        (touches_unregisterClient (by decide) env c) (by decide)
    split
    · exact hh.deliverError _ _ _ _
    · rename_i hlimited
      exact hh.dispatch platform hs hobj hreads' hlimited hfits
  | replay c =>
    unfold step
    dsimp only
    split
    · exact hh.replay platform hfits
    · exact hh
  | historyResult => exact hh.handleHistoryResult platform hfits
  | _ =>
    refine hh.of_touches _ _ (step_touches platform hs _ rfl) ?_
    simp [Input.sends, outboundTypes, adminTypes]

/-- When every step of a run fits, every chat, private chat, offline message, page of history and
list of channels that waits for a client passes `writeFrame`. -/
theorem outbound_fits (adminCode : String) (offlineStore : Bool) (es : List Event)
    (hfits : EventMachine.Along (step platform) (fun h e => h.fits platform e = true)
      (start adminCode offlineStore) es)
    (c : ClientID) (obj : Client)
    (hobj : (after platform adminCode offlineStore es).registry.client? c = some obj)
    (m : Message) (hm : m ∈ obj.send) (ht : m.type ∈ outboundTypes) : sendMessage m = true := by
  have hinv : ∀ h e, h.fits platform e = true → (Sound h.registry ∧ h.QueuesFit) →
      (Sound (step platform h e).registry ∧ (step platform h e).QueuesFit) :=
    fun h e he hh => ⟨sound_step platform h e hh.1, queuesFit_step platform hh.1 e he hh.2⟩
  have hstart : Sound (start adminCode offlineStore).registry ∧
      (start adminCode offlineStore).QueuesFit :=
    ⟨sound_start adminCode offlineStore, fun _ _ hc => by cases hc⟩
  have hrun := EventMachine.run_invariant_along (step platform) hinv hstart hfits
  exact hrun.2 c obj hobj m (List.mem_append_left _ hm) ht

/-! ### Alice alone -/

/-- Alice is the only client. -/
def aliceAlone : Hub := after samplePlatform "admin" false (sessionEvents 0 "alice" "A001")

theorem outbound_fits_hello : ∃ obj m,
    (after samplePlatform "admin" false (sessionEvents 0 "alice" "A001" ++
      [frameEvent 0 { type := .chat, content := "hello" }])).registry.client? 0 = some obj ∧
    m ∈ obj.send ∧ m.type = .chat ∧ sendMessage m = true := by
  have hfits : EventMachine.Along (step samplePlatform) (fun h e => h.fits samplePlatform e = true)
      (start "admin" false) (sessionEvents 0 "alice" "A001" ++
        [frameEvent 0 { type := .chat, content := "hello" }]) := by decide +kernel
  have hsent : ((after samplePlatform "admin" false (sessionEvents 0 "alice" "A001" ++
      [frameEvent 0 { type := .chat, content := "hello" }])).registry.client? 0).any
        (fun o => o.send.any fun m => m.type == .chat) = true := by decide +kernel
  obtain ⟨obj, hobj, hany⟩ := (Option.any_eq_true _ _).1 hsent
  obtain ⟨m, hm, ht⟩ := List.any_eq_true.1 hany
  have htype : m.type = .chat := by simpa using ht
  exact ⟨obj, m, hobj, hm, htype, outbound_fits samplePlatform "admin" false _ hfits 0 obj hobj m hm
    (by simp [htype, outboundTypes])⟩

/-- The chat of a client alone in the lobby comes back into its own queue. -/
theorem chat_aliceAlone {content : String}
    (hvalid : (validateMessage { type := .chat, content }).isOk = true) :
    ∃ obj, (step samplePlatform aliceAlone (frameEvent 0 { type := .chat, content })).registry.client?
        0 = some obj ∧
      ({ type := .chat, messageID := "1", username := "alice", userCode := "A001", content } : Message)
        ∈ obj.send := by
  have hself : (aliceAlone.registry.client? 0).any (fun o => o.username == "alice" &&
      o.userCode == "A001" && (aliceAlone.alive 0 && o.stage == .reading && o.replay.isEmpty)) =
        true := by decide +kernel
  obtain ⟨obj, hobj, hprops⟩ := (Option.any_eq_true _ _).1 hself
  simp only [Bool.and_eq_true, beq_iff_eq] at hprops
  obtain ⟨⟨husername, huserCode⟩, hreads⟩ := hprops
  have hstep : step samplePlatform aliceAlone (frameEvent 0 { type := .chat, content }) =
      aliceAlone.broadcastMessage samplePlatform {}
        { type := .chat, username := "alice", userCode := "A001", content } := by
    unfold step frameEvent readPump
    dsimp only
    rw [hobj]
    dsimp only
    rw [if_neg (by simp [hreads]), if_neg (by decide), if_neg (by simp)]
    unfold dispatch Hub.validated
    dsimp only
    rw [if_neg (by simp), if_pos hvalid, husername, huserCode]
  have hassign : aliceAlone.assignMessageID "" =
      ("1", { aliceAlone with nextMessageID := aliceAlone.nextMessageID + 1 }) := by
    have hid : formatUint (aliceAlone.nextMessageID + 1) = "1" := by decide +kernel
    unfold assignMessageID
    rw [if_pos rfl, hid]
  have hsender : aliceAlone.senderOf "A001" = some 0 := by decide +kernel
  have hroom : aliceAlone.senderRoom (some 0) = "lobby" := by decide +kernel
  have hclients : aliceAlone.registry.roomClients "lobby" = [0] := by decide +kernel
  have hspace : aliceAlone.registry.isConnected 0 = true ∧ aliceAlone.registry.hasSpace 0 = true := by
    decide +kernel
  have hpublish : (step samplePlatform aliceAlone
      (frameEvent 0 { type := .chat, content })).registry =
      aliceAlone.registry.enqueue 0
        { type := .chat, messageID := "1", username := "alice", userCode := "A001", content } := by
    rw [hstep]
    unfold Hub.broadcastMessage
    dsimp only
    rw [hassign]
    dsimp only
    unfold publishChat
    dsimp only
    rw [if_pos (by decide +kernel)]
    have hsender' : ({ aliceAlone with nextMessageID := aliceAlone.nextMessageID + 1 } : Hub).senderOf
        "A001" = some 0 := hsender
    have hroom' : ({ aliceAlone with nextMessageID := aliceAlone.nextMessageID + 1 } : Hub).senderRoom
        (some 0) = "lobby" := hroom
    have htracking : deliveryTracking "" = false := by decide
    rw [hsender', hroom', htracking]
    unfold Hub.relayChat
    dsimp only
    have hvisit : Env.visit {} [0] = [0] := rfl
    rw [registry_recordMessage, hclients, hvisit]
    simp only [wireMessage, Bool.false_and, Bool.not_false, if_true, Bool.false_eq_true, if_false]
    unfold deliverToPeers deliverToPeers deliver
    rw [if_pos hspace.1, if_pos hspace.2]
  refine ⟨{ obj with send := obj.send ++
    [{ type := .chat, messageID := "1", username := "alice", userCode := "A001", content }] }, ?_, ?_⟩
  · rw [hpublish]
    unfold enqueue
    have hmodified := client?_modifyClient (r := aliceAlone.registry) 0 0 fun o => { o with
      send := o.send ++
        [{ type := .chat, messageID := "1", username := "alice", userCode := "A001", content }] }
    rw [if_pos rfl, hobj] at hmodified
    exact hmodified
  · simp

/-- A chat of 11000 bytes, each of which goes out as six. -/
def wideText : String := String.ofList (List.replicate 11000 '<')

theorem size_wide (n : ℕ) : (String.ofList (List.replicate n '<')).utf8ByteSize = n := by
  induction n with
  | zero => rfl
  | succ n ih =>
    rw [List.replicate_succ', String.ofList_append, String.utf8ByteSize_append, ih]
    rfl

theorem textSize_wide (n : ℕ) : textSize (String.ofList (List.replicate n '<')) = n * 6 + 2 := by
  have hchar : escapedSize '<' = 6 := by decide
  unfold textSize
  rw [String.toList_ofList, List.map_replicate, List.sum_replicate_nat, hchar]

theorem size_plainQuote_wide (n : ℕ) :
    (plainQuote (String.ofList (List.replicate n '<'))).utf8ByteSize = n + 2 := by
  have hchar : (plainChar '<').utf8ByteSize = 1 := by decide
  rw [size_plainQuote, String.toList_ofList, List.map_replicate, List.sum_replicate_nat, hchar,
    Nat.mul_one]

theorem wideText_ne : wideText ≠ "" := by
  intro hempty
  have hsize : wideText.utf8ByteSize = 11000 := size_wide 11000
  rw [hempty] at hsize
  cases hsize

theorem validateMessage_wideText :
    (validateMessage { type := .chat, content := wideText }).isOk = true := by
  unfold validateMessage
  rw [if_neg (by decide)]
  dsimp only
  rw [if_neg (by simp)]
  unfold validateTextContent
  have hsize : wideText.utf8ByteSize = 11000 := size_wide 11000
  rw [if_neg wideText_ne, hsize, if_neg (by decide)]
  rfl

/-- A frame with nothing but a chat's text. -/
theorem size_plain_chat {content : String} (hne : content ≠ "") :
    ({ type := .chat, content } : Message).plain.utf8ByteSize =
      (plainQuote content).utf8ByteSize + 26 := by
  have hmembers : ({ type := .chat, content } : Message).membersWith plainQuote id =
      [member "type" (plainQuote "chat"), member "content" (plainQuote content)] := by
    have hepoch : optInt "epoch" ((0 : UInt64).toNat : ℤ) = [] := rfl
    have hcontent : optText plainQuote "content" content =
        [member "content" (plainQuote content)] := if_neg hne
    dsimp only [Message.membersWith, Message.optionalMembers]
    rw [hepoch]
    simp only [List.map_nil, optText_empty, optBool_false, optInt_zero, optArray_nil,
      List.append_nil, List.nil_append, hcontent, MessageType.name]
  have htype : (member "type" (plainQuote "chat")).utf8ByteSize = 13 := by decide +kernel
  have hname : "content".utf8ByteSize = 7 := rfl
  unfold Message.plain
  rw [hmembers, size_object (by simp)]
  simp only [weight_cons, weight_nil, htype]
  rw [size_member, hname]
  omega

theorem receivable_wideText : receivable { type := .chat, content := wideText } = true := by
  have hquoted : (plainQuote wideText).utf8ByteSize = 11000 + 2 := size_plainQuote_wide 11000
  unfold receivable
  rw [size_plain_chat wideText_ne, hquoted]
  decide

theorem outbound_too_large :
    ¬ ∀ (platform : Platform) (adminCode : String) (offlineStore : Bool) (es : List Event),
      (∀ e ∈ es, ∀ c m limited muted, e.input = .frame c m limited muted → receivable m = true) →
      ∀ (c : ClientID) (obj : Client),
      (after platform adminCode offlineStore es).registry.client? c = some obj →
      ∀ m ∈ obj.send, m.type ∈ outboundTypes → sendMessage m = true := by
  intro hclaim
  obtain ⟨obj, hobj, hm⟩ := chat_aliceAlone validateMessage_wideText
  have hafter : step samplePlatform aliceAlone (frameEvent 0 { type := .chat, content := wideText }) =
      after samplePlatform "admin" false (sessionEvents 0 "alice" "A001" ++
        [frameEvent 0 { type := .chat, content := wideText }]) :=
    (EventMachine.run_concat _ _ _ _).symm
  rw [hafter] at hobj
  have hsent := hclaim samplePlatform "admin" false _ ?_ 0 obj hobj _ hm (by simp [outboundTypes])
  · rw [sendMessage_iff, weight_made] at hsent
    have hsize : textSize wideText = 11000 * 6 + 2 := textSize_wide 11000
    have hweight : textWeight "content" wideText = 7 + (11000 * 6 + 2) + 4 := by
      unfold textWeight
      rw [if_neg wideText_ne, hsize]
      rfl
    rw [hweight] at hsent
    unfold maxMessageSize at hsent
    omega
  · intro e he c m limited muted hinput
    simp only [sessionEvents, frameEvent, List.cons_append, List.nil_append, List.mem_cons,
      List.not_mem_nil, or_false] at he
    rcases he with rfl | rfl | rfl | rfl
    · cases hinput
    · cases hinput
    · cases hinput
    · cases hinput
      exact receivable_wideText

end Hub

end LanChat
