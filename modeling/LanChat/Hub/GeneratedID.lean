import LanChat.Hub.Recall

/-!
# Messages without a message id

A chat or private chat without an id gets the next value of a counter that starts at zero in every
process, while stored rows stay; when the sender has a row under that id in the conversation,
`INSERT OR IGNORE` drops the message without an error.

* `PlainFrame`: a valid frame without an id from a registered client, on a database that accepts
  writes;
* `Kept`: the message is stored as a new row and delivered;
* `kept_iff_fresh`: that is the case exactly when the generated id is fresh and the send queues it
  needs have a free place.
-/

namespace LanChat

open GoStrings

namespace Registry

variable {r : Registry} {c d : ClientID} {m : Message}

/-! ### Deliveries to several clients -/

theorem client?_deliver_of_ne (hcd : c ≠ d) : (r.deliver c m).1.client? d = r.client? d := by
  unfold Registry.deliver
  split_ifs
  · exact (client?_modifyClient c d _).trans (if_neg hcd)
  · have hclose : (r.removeSlowClient c).client? d = (r.removeClient c).client? d :=
      (client?_modifyClient c d _).trans (if_neg hcd)
    rw [hclose]
    cases hc : r.client? c with
    | none => simp only [Registry.removeClient, hc]
    | some obj => exact client?_removeClient hc d
  · rfl

theorem mem_clients_deliver_of_ne (hcd : c ≠ d) (hd : d ∈ r.clients) :
    d ∈ (r.deliver c m).1.clients := by
  unfold Registry.deliver
  split_ifs
  · exact hd
  · change d ∈ (r.removeClient c).clients
    cases hc : r.client? c with
    | none =>
      simp only [Registry.removeClient, hc]
      exact hd
    | some obj =>
      rw [clients_removeClient hc, List.mem_filter]
      exact ⟨hd, by simpa using fun h => hcd h.symm⟩
  · exact hd

theorem hasSpace_deliver_of_ne (hcd : c ≠ d) : (r.deliver c m).1.hasSpace d = r.hasSpace d := by
  unfold hasSpace
  rw [client?_deliver_of_ne hcd]

/-- A free place after a delivery was free before it. -/
theorem hasSpace_of_deliver (hspace : (r.deliver c m).1.hasSpace d = true) :
    r.hasSpace d = true := by
  by_cases hcd : c = d
  · subst hcd
    unfold Registry.deliver at hspace
    split_ifs at hspace with hcon hfree
    · exact hfree
    · unfold hasSpace at hspace ⊢
      have hclose : (r.removeSlowClient c).client? c =
          ((r.removeClient c).client? c).map fun o => { o with sendClosed := true } :=
        (client?_modifyClient c c _).trans (if_pos rfl)
      rw [hclose] at hspace
      cases hc : r.client? c with
      | none =>
        simp only [Registry.removeClient, hc] at hspace
        exact hspace
      | some obj =>
        rw [client?_removeClient hc, hc] at hspace
        exact hspace
    · exact hspace
  · rwa [hasSpace_deliver_of_ne hcd] at hspace

/-- What a delivery sends goes to a client that has a free place. -/
theorem emits_deliver_hasSpace :
    Emits (fun x => x.2 = m ∧ r.hasSpace x.1 = true) r (r.deliver c m).1 := by
  unfold Registry.deliver
  split_ifs with hcon hspace
  · refine ⟨[(c, m)], rfl, fun x hx => ?_⟩
    rw [List.mem_singleton.1 hx]
    exact ⟨rfl, hspace⟩
  · exact Emits.of_eq (sent_removeClient c)
  · exact Emits.refl r

end Registry

namespace Hub

open Registry ChatStore EventMachine

variable {h k : Hub}

/-- A client of the list with a free place gets the message. -/
theorem delivered_of_hasSpace {r : Registry} (sender : Option ClientID) {m : Message} {d : ClientID}
    {l : List ClientID} (hl : d ∈ l) (hd : d ∈ r.clients) (hspace : r.hasSpace d = true) :
    ∃ out, (deliverToPeers r sender m l).1.sent = r.sent ++ out ∧ (d, m) ∈ out := by
  induction l generalizing r with
  | nil => cases hl
  | cons c l ih =>
    have hrest : Emits (fun _ => True) (r.deliver c m).1 (deliverToPeers r sender m (c :: l)).1 := by
      have hmoves : Moves False [m.type] (r.deliver c m).1
          (deliverToPeers (r.deliver c m).1 sender m l).1 :=
        moves_deliverToPeers sender List.mem_cons_self l
      exact hmoves.emits.mono fun _ _ => trivial
    by_cases hcd : c = d
    · subst hcd
      obtain ⟨out, hout, -⟩ := hrest
      refine ⟨(c, m) :: out, ?_, List.mem_cons_self⟩
      rw [hout, sent_deliver hd hspace, List.append_assoc]
      rfl
    · obtain ⟨out, hout, hmem⟩ := ih ((List.mem_cons.1 hl).resolve_left fun h => hcd h.symm)
        (mem_clients_deliver_of_ne hcd hd) ((hasSpace_deliver_of_ne hcd).trans hspace)
      obtain ⟨first, hfirst, -⟩ := emits_deliver_hasSpace (r := r) (c := c) (m := m)
      refine ⟨first ++ out, ?_, List.mem_append_right _ hmem⟩
      rw [← List.append_assoc, ← hfirst]
      exact hout

/-- Whoever gets the message had a free place. -/
theorem hasSpace_of_delivered {r : Registry} (sender : Option ClientID) (m : Message)
    (l : List ClientID) :
    Emits (fun x => x.2 = m ∧ r.hasSpace x.1 = true) r (deliverToPeers r sender m l).1 := by
  induction l generalizing r with
  | nil => exact Emits.refl r
  | cons c l ih =>
    refine emits_deliver_hasSpace.trans ((ih (r := (r.deliver c m).1)).mono ?_)
    exact fun x hx => ⟨hx.1, hasSpace_of_deliver hx.2⟩

/-! ### Frames without an id -/

/-- The id that the next message without one gets. -/
def generatedID (h : Hub) : String := formatUint (h.nextMessageID + 1)

/-- The conversation that a chat or private chat of the client goes to. -/
def conversation (obj : Client) (m : Message) : String :=
  if m.type = .chat then obj.room
  else privateConversationKey obj.normalizedCode (normalizedOrEmpty m.targetUserCode)

/-- A valid chat or private chat without an id from a registered client, which is not rate limited
and, for a chat, not muted, on a store that accepts writes. -/
structure PlainFrame (h : Hub) (e : Event) (c : ClientID) (obj : Client) (m : Message) : Prop where
  input : ∃ muted, e.input = .frame c m false muted ∧ (m.type = .chat → muted = false)
  store : h.offlineStore = true
  client : h.registry.client? c = some obj
  connected : c ∈ h.registry.clients
  reading : obj.stage = .reading ∧ obj.replay = []
  command : m.commandID.utf8ByteSize ≤ maxCommandIDSize
  plain : m.messageID = ""
  database : ∀ d, e.env.fails d = false
  valid : (m.type = .chat ∧ validateMessage m = .ok ()) ∨
    (m.type = .privateChat ∧ validateTextContent "private chat" m.content = .ok () ∧
      ∃ target, normalizeUserCode m.targetUserCode = .ok target ∧ target ≠ obj.normalizedCode)

/-- Who a message must reach: the connected members of the sender's room, or the session of the
target. -/
def Recipient (h : Hub) (obj : Client) (m : Message) (d : ClientID) : Prop :=
  if m.type = .chat then
    d ∈ h.registry.clients ∧ ∃ o, h.registry.client? d = some o ∧ o.room = obj.room
  else h.registry.active? (normalizedOrEmpty m.targetUserCode) = some d

/-- The message has been stored as a new row. -/
def StoredNew (h k : Hub) (obj : Client) (m : Message) : Prop :=
  ∃ row ∈ k.db.chat.messages.rows, h.db.chat.lastID < row.id ∧ row.messageID = h.generatedID ∧
    row.senderCode = obj.normalizedCode ∧ row.conversationKey = conversation obj m ∧
    row.content = m.content

/-- The message has been stored as a new row and delivered to everyone it must reach. -/
def Kept (h k : Hub) (obj : Client) (m : Message) : Prop :=
  StoredNew h k obj m ∧ ∀ d, Recipient h obj m d → ∃ x, (d, x) ∈ sentBetween h k ∧
    x.type = m.type ∧ x.messageID = h.generatedID ∧ x.userCode = obj.userCode ∧
    x.content = m.content

/-- No row of the sender in the conversation has the generated id. -/
def FreshID (h : Hub) (obj : Client) (m : Message) : Prop :=
  ∀ row ∈ h.db.chat.messages.rows, ¬ (row.senderCode = obj.normalizedCode ∧
    row.conversationKey = conversation obj m ∧ row.messageID = h.generatedID)

/-- The send queues have a free place: those of the recipients, and for a private chat to an
online target that of the sender, who gets the echo first. -/
def QueuesOpen (h : Hub) (c : ClientID) (obj : Client) (m : Message) : Prop :=
  ∀ d, Recipient h obj m d → h.registry.hasSpace d = true ∧
    (m.type = .privateChat → h.registry.hasSpace c = true)

theorem generatedID_ne_empty : h.generatedID ≠ "" := by
  unfold generatedID formatUint
  exact Nat.repr_ne_empty

theorem PlainFrame.code {e : Event} {c : ClientID} {obj : Client} {m : Message}
    (hs : Sound h.registry) (hf : PlainFrame h e c obj m) :
    normalizeUserCode obj.userCode = .ok obj.normalizedCode :=
  (hs.valid obj (client?_mem hf.client)).code

theorem PlainFrame.active {e : Event} {c : ClientID} {obj : Client} {m : Message}
    (hs : Sound h.registry) (hf : PlainFrame h e c obj m) :
    h.registry.active? obj.normalizedCode = some c := by
  obtain ⟨o, ho, hact, -⟩ := hs.online c hf.connected
  obtain rfl := Option.some_injective _ (hf.client.symm.trans ho)
  exact hact

/-- A plain frame reaches the switch of `readPump`. -/
theorem PlainFrame.step_eq (platform : Platform) {e : Event} {c : ClientID} {obj : Client}
    {m : Message} (hs : Sound h.registry) (hf : PlainFrame h e c obj m) :
    ∃ muted, (m.type = .chat → muted = false) ∧
      step platform h e = h.dispatch platform e.env c obj m muted := by
  obtain ⟨muted, hinput, hmuted⟩ := hf.input
  refine ⟨muted, hmuted, ?_⟩
  have halive : h.alive c = true := by
    unfold alive
    simpa using ⟨hs.booted c hf.connected, client?_lt hf.client⟩
  have hopen : (!(h.alive c && obj.stage == .reading && obj.replay.isEmpty)) = false := by
    simp [halive, hf.reading.1, hf.reading.2]
  simp only [step, hinput, readPump, hf.client, hopen]
  rw [if_neg (by simp), if_neg (Nat.not_lt.2 hf.command), if_neg (by simp)]

/-! ### The store -/

/-- What `SaveChatMessageIfNew` does with a checked message on a database that accepts writes. -/
theorem saveChatMessageIfNew_cases {s : ChatStore} {message : Message} {i : ChatIdentity}
    (hcheck : checkChatMessage message = .ok i) :
    ((∃ row ∈ s.messages.rows, row.key = (i.senderCode, i.conversationKey, message.messageID)) ∧
        s.saveChatMessageIfNew false message = (.ok false, s)) ∨
    ((∀ row ∈ s.messages.rows, row.key ≠ (i.senderCode, i.conversationKey, message.messageID)) ∧
      (s.saveChatMessageIfNew false message).1 = .ok true ∧
      chatRow (s.lastID + 1) i message ∈ (s.saveChatMessageIfNew false message).2.messages.rows) := by
  unfold saveChatMessageIfNew
  rw [hcheck]
  dsimp only
  cases hins : s.messages.insert? (chatRow (s.lastID + 1) i message) with
  | none =>
    obtain ⟨row, hrow, hclash⟩ := Table.insert?_eq_none hins
    refine .inl ⟨⟨row, hrow, ?_⟩, rfl⟩
    simp only [Table.keyClash, decide_eq_true_eq] at hclash
    rcases hclash with hclash | hclash
    · exact hclash
    · exact hclash.symm
  | some messages =>
    have hrows := Table.rows_of_insert? hins
    refine .inr ⟨?_, rfl, ?_⟩
    · intro row hrow hkey
      have hclash := messages.distinct
      rw [hrows, List.pairwise_append] at hclash
      have hfree := (hclash.2.2 row hrow _ (List.mem_singleton.2 rfl)).1
      simp only [Table.keyClash, decide_eq_false_iff_not] at hfree
      exact hfree hkey
    · -- the newest row of the conversation is among those that the prune keeps
      change _ ∈ messages.rows.filter _
      rw [hrows, List.mem_filter]
      refine ⟨List.mem_append_right _ (List.mem_singleton.2 rfl), ?_⟩
      have hkept : (s.lastID + 1) ∈
          keptIDs (s.messages.rows ++ [chatRow (s.lastID + 1) i message]) i.kind i.conversationKey := by
        simp [keptIDs, ChatRow.inConversation, chatRow, maxHistoryRowsPerConversation,
          List.filter_append]
      have hid : (chatRow (s.lastID + 1) i message).id = s.lastID + 1 := rfl
      simp [hid, hkept]

/-- The label of `validateTextContent` is only in its errors. -/
theorem validateTextContent_label {a b content : String} (hv : validateTextContent a content = .ok ()) :
    validateTextContent b content = .ok () := by
  unfold validateTextContent fail at hv ⊢
  split_ifs at hv ⊢
  rfl

/-- A chat of the client passes the check of the store. -/
theorem checkChatMessage_chat {obj : Client} {m p : Message} (hobj : ValidClient obj)
    (ht : m.type = .chat) (hm : validateMessage m = .ok ()) (hpt : p.type = .chat)
    (hid : p.messageID ≠ "") (hcode : p.userCode = obj.userCode) (hroom : p.room = obj.room)
    (hcontent : p.content = m.content) (hcrypto : p.crypto = m.crypto) :
    checkChatMessage p = .ok ⟨.room, obj.room, obj.normalizedCode, ""⟩ := by
  have hm' : (if m.crypto ≠ "" then validateOpaqueCrypto m.crypto
      else validateTextContent "chat" m.content) = .ok () := by
    unfold validateMessage at hm
    rw [ht] at hm
    by_cases hsize : maxCommandIDSize < m.commandID.utf8ByteSize
    · rw [if_pos hsize] at hm
      cases hm
    · rw [if_neg hsize] at hm
      exact hm
  have hident : chatMessageIdentity p = .ok ⟨.room, obj.room, obj.normalizedCode, ""⟩ := by
    refine bind_eq_ok.2 ⟨_, hcode ▸ hobj.code, ?_⟩
    rw [if_neg (by simp [hpt]), hroom]
    exact bind_eq_ok.2 ⟨(), hobj.room, rfl⟩
  refine bind_eq_ok.2 ⟨(), require_eq_ok.2 (by simpa using hid),
    bind_eq_ok.2 ⟨(), require_eq_ok.2 (by simp [hpt]), ?_⟩⟩
  dsimp only
  rw [hcontent, hcrypto]
  by_cases hc : m.crypto = ""
  · rw [if_neg (not_not.2 hc)] at hm'
    rw [if_pos hc]
    exact bind_eq_ok.2 ⟨(), validateTextContent_label hm', hident⟩
  · rw [if_pos hc] at hm'
    rw [if_neg hc]
    exact bind_eq_ok.2 ⟨(), hm', hident⟩

/-- A private chat of the client passes the check of the store. -/
theorem checkChatMessage_private {obj : Client} {p : Message} {target : String}
    (hobj : ValidClient obj) (hpt : p.type = .privateChat) (hid : p.messageID ≠ "")
    (hcode : p.userCode = obj.userCode) (htarget : normalizeUserCode p.targetUserCode = .ok target)
    (hcontent : validateTextContent "private chat" p.content = .ok ()) (hcrypto : p.crypto = "") :
    checkChatMessage p = .ok ⟨.privateChat, privateConversationKey obj.normalizedCode target,
      obj.normalizedCode, target⟩ := by
  have hident : chatMessageIdentity p = .ok ⟨.privateChat,
      privateConversationKey obj.normalizedCode target, obj.normalizedCode, target⟩ := by
    refine bind_eq_ok.2 ⟨_, hcode ▸ hobj.code, ?_⟩
    rw [if_pos hpt]
    exact bind_eq_ok.2 ⟨_, htarget, rfl⟩
  refine bind_eq_ok.2 ⟨(), require_eq_ok.2 (by simpa using hid),
    bind_eq_ok.2 ⟨(), require_eq_ok.2 (by simp [hpt]), ?_⟩⟩
  dsimp only
  rw [if_pos hcrypto]
  exact bind_eq_ok.2 ⟨(), validateTextContent_label hcontent, hident⟩

/-! ### Publication -/

theorem senderOf_of_active {userCode code : String} {c : ClientID}
    (hcode : normalizeUserCode userCode = .ok code) (hact : h.registry.active? code = some c) :
    h.senderOf userCode = some c := by
  simp only [senderOf, hcode, hact]

@[simp] theorem registry_recordMessage (message : Message) (recipients : List String)
    (offlineMessageID : String) :
    (h.recordMessage message recipients offlineMessageID).registry = h.registry := by
  unfold recordMessage
  split_ifs <;> rfl

/-- `SaveChatMessageIfNew` on the Hub's store. -/
theorem saveChatMessage_cases {env : Env} {message : Message} {i : ChatIdentity}
    (hdb : ∀ d, env.fails d = false) (hcheck : checkChatMessage message = .ok i) :
    ((∃ row ∈ h.db.chat.messages.rows,
        row.key = (i.senderCode, i.conversationKey, message.messageID)) ∧
      h.saveChatMessage env message = (.ok false, h)) ∨
    ((∀ row ∈ h.db.chat.messages.rows,
        row.key ≠ (i.senderCode, i.conversationKey, message.messageID)) ∧
      ∃ k, h.saveChatMessage env message = (.ok true, k) ∧ k.registry = h.registry ∧
        chatRow (h.db.chat.lastID + 1) i message ∈ k.db.chat.messages.rows) := by
  have hsave : h.saveChatMessage env message =
      ((h.db.chat.saveChatMessageIfNew false message).1, { h with
        db := { h.db with chat := (h.db.chat.saveChatMessageIfNew false message).2 } }) := by
    unfold saveChatMessage
    rw [hdb, hdb]
    rfl
  rw [hsave]
  rcases saveChatMessageIfNew_cases (s := h.db.chat) hcheck with ⟨hclash, heq⟩ | ⟨hfresh, hok, hrow⟩
  · exact .inl ⟨hclash, by rw [heq]⟩
  · exact .inr ⟨hfresh, _, Prod.ext hok rfl, rfl, hrow⟩

/-- The chat as it is stored. -/
def storedChat (platform : Platform) (env : Env) (room : String) (message : Message) : Message :=
  { message with room, createdAt := platform.rfc3339 env.now, deliveryState := "sent" }

/-- A chat that nobody asked a receipt for: it is dropped when the insert is ignored, else it goes
to the members of the sender's room. -/
theorem publishChat_cases (platform : Platform) {env : Env} {c : ClientID} {obj : Client}
    {message : Message} {i : ChatIdentity} (hstore : h.offlineStore = true)
    (hdb : ∀ d, env.fails d = false) (hsender : h.senderOf message.userCode = some c)
    (hobj : h.registry.client? c = some obj) (hroom : obj.room ≠ "")
    (hcheck : checkChatMessage (storedChat platform env obj.room message) = .ok i) :
    ((∃ row ∈ h.db.chat.messages.rows,
        row.key = (i.senderCode, i.conversationKey, message.messageID)) ∧
      h.publishChat platform env false message = h) ∨
    ((∀ row ∈ h.db.chat.messages.rows,
        row.key ≠ (i.senderCode, i.conversationKey, message.messageID)) ∧
      chatRow (h.db.chat.lastID + 1) i (storedChat platform env obj.room message) ∈
        (h.publishChat platform env false message).db.chat.messages.rows ∧
      (h.publishChat platform env false message).registry =
        (deliverToPeers h.registry (some c)
          (wireMessage false (storedChat platform env obj.room message))
          (env.visit (h.registry.members obj.room))).1) := by
  have hin : h.senderRoom (some c) = obj.room := by
    simp only [senderRoom, Option.bind_some, hobj]
  have hpersisted : storedChat platform env obj.room message = { message with
      room := h.senderRoom (h.senderOf message.userCode)
      createdAt := platform.rfc3339 env.now
      deliveryState := "sent" } := by
    rw [hsender, hin]
    rfl
  have hpub := publishChat_stored platform env false message hstore hpersisted
  rw [hsender, hin] at hpub
  rcases saveChatMessage_cases (h := h) hdb hcheck with ⟨hclash, heq⟩ | ⟨hfresh, k, heq, hreg, hrow⟩
  · rw [heq] at hpub
    exact .inl ⟨hclash, hpub⟩
  · rw [heq] at hpub
    refine .inr ⟨hfresh, ?_, ?_⟩
    · rw [hpub]
      change _ ∈ (k.recordMessage _ _ _).db.chat.messages.rows
      rw [chat_recordMessage]
      exact hrow
    · rw [hpub]
      change (deliverToPeers (k.recordMessage _ _ _).registry _ _
        (env.visit ((k.recordMessage _ _ _).registry.roomClients obj.room))).1 = _
      rw [registry_recordMessage, hreg]
      unfold roomClients
      rw [if_neg hroom]

/-! ### Private messages -/

/-- No row is lost or changed in more than its delivery state. -/
def KeepsRows (s s' : ChatStore) : Prop :=
  ∀ row ∈ s.messages.rows, ∃ row' ∈ s'.messages.rows, row'.fixed = row.fixed

theorem KeepsRows.refl (s : ChatStore) : KeepsRows s s := fun row hrow => ⟨row, hrow, rfl⟩

theorem keepsRows_markDelivered {env : Env} {message : Message}
    (hk : h.markDelivered env message = some k) : KeepsRows h.db.chat k.db.chat := by
  obtain ⟨-, rfl⟩ | ⟨chat, hupdate, rfl⟩ := markDelivered_eq_some hk
  · exact KeepsRows.refl _
  · obtain ⟨i, -, rfl⟩ := updateDeliveryState_eq_ok hupdate
    intro row hrow
    exact ⟨_, List.mem_map_of_mem hrow, by split <;> rfl⟩

theorem rows_saveOfflineMessage (s : ChatStore) (pruneFails : Bool) (targetCode : String)
    (message : Message) :
    (s.saveOfflineMessage pruneFails targetCode message).2.messages = s.messages := by
  unfold ChatStore.saveOfflineMessage
  split
  · rfl
  split
  · rfl
  split_ifs <;> rfl

theorem rows_savePrivateOffline (env : Env) (c : ClientID) (obj : Client) (targetCode : String)
    (message : Message) :
    (h.savePrivateOffline env c obj targetCode false message).db.chat.messages = h.db.chat.messages := by
  unfold savePrivateOffline
  split
  · rfl
  have hsaved : ∀ result k, (h.recordMessage message [obj.normalizedCode, targetCode]
      message.messageID).saveOfflineMessage env targetCode message = (result, k) →
      k.db.chat.messages = h.db.chat.messages := by
    intro result k hk
    unfold Hub.saveOfflineMessage at hk
    split at hk
    · cases hk
      rw [chat_recordMessage]
    · cases hk
      exact (rows_saveOfflineMessage ..).trans (by rw [chat_recordMessage])
  dsimp only
  split
  · rename_i hk
    have hsame := hsaved _ _ hk
    exact hsame
  · rename_i hk
    have hsame := hsaved _ _ hk
    exact hsame

theorem keepsRows_relayPrivate (env : Env) (c : ClientID) (obj : Client) (target : ClientID)
    (targetCode : String) (message : Message) :
    KeepsRows h.db.chat (h.relayPrivate env c obj target targetCode false message).db.chat := by
  have hrecord : ∀ r, KeepsRows h.db.chat ({ h.recordMessage message
      [obj.normalizedCode, targetCode] "" with registry := r } : Hub).db.chat := by
    intro r
    dsimp only
    rw [chat_recordMessage]
    exact KeepsRows.refl _
  unfold relayPrivate
  dsimp only
  split
  · exact hrecord _
  split
  · exact hrecord _
  split
  · exact hrecord _
  · rename_i hmark
    have hkeep := keepsRows_markDelivered hmark
    dsimp only at hkeep
    rw [chat_recordMessage] at hkeep
    exact hkeep

/-- The target gets the message when the echo found a place in the sender's queue and the message
finds one in the target's. -/
theorem relayPrivate_sent (env : Env) {c target : ClientID} (obj : Client) (targetCode : String)
    (message : Message) (hc : c ∈ h.registry.clients) (ht : target ∈ h.registry.clients)
    (hne : c ≠ target) (hspace : h.registry.hasSpace c = true)
    (htspace : h.registry.hasSpace target = true) :
    (target, wireMessage false message) ∈
      sentBetween h (h.relayPrivate env c obj target targetCode false message) := by
  let wire := wireMessage false message
  have hecho : h.registry.deliver c wire = (h.registry.enqueue c wire, true) :=
    deliver_of_hasSpace hc hspace
  have htspace' : (h.registry.deliver c wire).1.hasSpace target = true :=
    (hasSpace_deliver_of_ne hne).trans htspace
  have ht' : target ∈ (h.registry.deliver c wire).1.clients := mem_clients_deliver_of_ne hne ht
  rw [hecho] at htspace' ht'
  have hforward := deliver_of_hasSpace (m := wire) ht' htspace'
  have hrest : Emits (fun _ => True) ((h.registry.enqueue c wire).enqueue target wire)
      (h.relayPrivate env c obj target targetCode false message).registry := by
    simp only [relayPrivate, registry_recordMessage]
    rw [hecho]
    dsimp only
    rw [hforward]
    dsimp only
    split
    · exact emits_tell trivial
    · rename_i hmark
      exact Emits.of_eq (by rw [if_neg (by simp), registry_markDelivered hmark])
  obtain ⟨out, hout, -⟩ := hrest
  have hsent : ((h.registry.enqueue c wire).enqueue target wire).sent =
      h.registry.sent ++ [(c, wire), (target, wire)] := List.append_assoc _ _ _
  unfold sentBetween
  rw [hout, hsent, List.append_assoc, List.drop_left]
  simp [wire]

/-- Without both places the target gets nothing. -/
theorem relayPrivate_full (env : Env) {c target : ClientID} (obj : Client) (targetCode : String)
    (message : Message) (hc : c ∈ h.registry.clients) (ht : target ∈ h.registry.clients)
    (hne : c ≠ target)
    (hfull : ¬ (h.registry.hasSpace c = true ∧ h.registry.hasSpace target = true)) :
    Emits (fun x => x.1 = c) h.registry
      (h.relayPrivate env c obj target targetCode false message).registry := by
  let wire := wireMessage false message
  simp only [relayPrivate, registry_recordMessage]
  by_cases hspace : h.registry.hasSpace c = true
  · have hecho : h.registry.deliver c wire = (h.registry.enqueue c wire, true) :=
      deliver_of_hasSpace hc hspace
    have htfull : (h.registry.deliver c wire).1.hasSpace target = false :=
      (hasSpace_deliver_of_ne hne).trans (by simpa [hspace] using hfull)
    have ht' : target ∈ (h.registry.deliver c wire).1.clients := mem_clients_deliver_of_ne hne ht
    rw [hecho] at htfull ht'
    rw [hecho]
    dsimp only
    rw [deliver_of_full ht' htfull]
    refine ⟨[(c, wire)], ?_, by simp⟩
    exact sent_removeClient (r := h.registry.enqueue c wire) target
  · rw [deliver_of_full hc (by simpa using hspace)]
    exact Emits.of_eq (sent_removeClient (r := h.registry) c)

/-- A private message that nobody asked a receipt for: it is dropped when the insert is ignored,
else it goes on to the target. -/
theorem publishPrivate_cases {env : Env} (c : ClientID) (obj : Client) (targetCode : String)
    {message : Message} {i : ChatIdentity} (hstore : h.offlineStore = true)
    (hdb : ∀ d, env.fails d = false)
    (hcheck : checkChatMessage { message with isPrivate := true } = .ok i) :
    ((∃ row ∈ h.db.chat.messages.rows,
        row.key = (i.senderCode, i.conversationKey, message.messageID)) ∧
      h.publishPrivate env c obj targetCode false message = h) ∨
    ((∀ row ∈ h.db.chat.messages.rows,
        row.key ≠ (i.senderCode, i.conversationKey, message.messageID)) ∧
      ∃ k : Hub, k.registry = h.registry ∧
        chatRow (h.db.chat.lastID + 1) i { message with isPrivate := true } ∈
          k.db.chat.messages.rows ∧
        h.publishPrivate env c obj targetCode false message =
          k.routePrivate env c obj targetCode false message) := by
  unfold publishPrivate
  rw [hstore, if_neg (by simp)]
  rcases saveChatMessage_cases (h := h) hdb hcheck with ⟨hclash, heq⟩ | ⟨hfresh, k, heq, hreg, hrow⟩
  · rw [heq]
    exact .inl ⟨hclash, rfl⟩
  · rw [heq]
    exact .inr ⟨hfresh, k, hreg, hrow, rfl⟩

/-! ### The generated id -/

theorem mem_sentBetween_iff {out : List (ClientID × Message)}
    (hsent : k.registry.sent = h.registry.sent ++ out) {x : ClientID × Message} :
    x ∈ sentBetween h k ↔ x ∈ out := by
  unfold sentBetween
  rw [hsent, List.drop_left]

/-- A message that is dropped is not kept. -/
theorem not_kept_of_same {obj : Client} {m : Message} (ho : Ordered h.db.chat)
    (hchat : k.db.chat = h.db.chat) : ¬ Kept h k obj m := by
  rintro ⟨⟨row, hrow, hid, -⟩, -⟩
  rw [hchat] at hrow
  exact absurd (ho.le_last row hrow) (Nat.not_le.2 hid)

/-- A plain chat is published under the generated id. -/
theorem PlainFrame.publishes_chat (platform : Platform) {e : Event} {c : ClientID} {obj : Client}
    {m : Message} (hs : Sound h.registry) (hf : PlainFrame h e c obj m) (ht : m.type = .chat) :
    ∃ p, step platform h e = (h.assignMessageID "").2.publishChat platform e.env false p ∧
      p.type = .chat ∧ p.messageID = h.generatedID ∧ p.userCode = obj.userCode ∧
      p.content = m.content ∧ p.crypto = m.crypto := by
  obtain ⟨muted, hmuted, hstep⟩ := hf.step_eq platform hs
  obtain ⟨-, hvalid⟩ : m.type = .chat ∧ validateMessage m = .ok () :=
    hf.valid.resolve_right fun h => by simp [ht] at h
  refine ⟨{ m with username := obj.username, userCode := obj.userCode, messageID := h.generatedID },
    ?_, ht, rfl, rfl, rfl, rfl⟩
  rw [hstep]
  simp only [dispatch, ht, hmuted ht, validated, hvalid, broadcastMessage, hf.plain]
  rfl

/-- A plain private chat is published under the generated id. -/
theorem PlainFrame.publishes_private (platform : Platform) {e : Event} {c : ClientID} {obj : Client}
    {m : Message} (hs : Sound h.registry) (hf : PlainFrame h e c obj m) (ht : m.type = .privateChat) :
    ∃ target p, normalizeUserCode m.targetUserCode = .ok target ∧ target ≠ obj.normalizedCode ∧
      step platform h e =
        (h.assignMessageID "").2.publishPrivate e.env c obj target false p ∧
      p.type = .privateChat ∧ p.messageID = h.generatedID ∧ p.userCode = obj.userCode ∧
      p.targetUserCode = target ∧ p.content = m.content ∧ p.crypto = "" := by
  obtain ⟨muted, -, hstep⟩ := hf.step_eq platform hs
  obtain ⟨-, hcontent, target, htarget, hne⟩ := hf.valid.resolve_left fun h => by simp [ht] at h
  refine ⟨target, { type := .privateChat, messageID := h.generatedID, username := obj.username
                    userCode := obj.userCode, targetUserCode := target, content := m.content
                    deliveryState := "sent", createdAt := platform.rfc3339 e.env.now },
    htarget, hne, ?_, rfl, rfl, rfl, rfl, rfl, rfl⟩
  rw [hstep]
  simp only [dispatch, ht, htarget, hcontent, handlePrivateMessage, hf.client,
    isConnected_iff.2 hf.connected, normalizeUserCode_idem htarget, if_neg hne, hf.plain]
  rfl

theorem key_eq_iff {row : ChatRow} {i : ChatIdentity} {id : String} :
    row.key = (i.senderCode, i.conversationKey, id) ↔ row.senderCode = i.senderCode ∧
      row.conversationKey = i.conversationKey ∧ row.messageID = id := by
  simp [ChatRow.key]

theorem kept_chat_iff (platform : Platform) {e : Event} {c : ClientID} {obj : Client} {m : Message}
    (hs : Sound h.registry) (ho : Ordered h.db.chat) (hf : PlainFrame h e c obj m)
    (ht : m.type = .chat) :
    Kept h (step platform h e) obj m ↔ FreshID h obj m ∧ QueuesOpen h c obj m := by
  obtain ⟨p, hstep, hpt, hpid, hpcode, hpcontent, hpcrypto⟩ := hf.publishes_chat platform hs ht
  have hobj := hs.valid obj (client?_mem hf.client)
  have hvalid := (hf.valid.resolve_right fun h => by simp [ht] at h).2
  let stored := storedChat platform e.env obj.room p
  have hcheck : checkChatMessage stored = .ok ⟨.room, obj.room, obj.normalizedCode, ""⟩ :=
    checkChatMessage_chat hobj ht hvalid hpt (hpid ▸ generatedID_ne_empty) hpcode rfl hpcontent
      hpcrypto
  have hconv : conversation obj m = obj.room := if_pos ht
  have hreg : (h.assignMessageID "").2.registry = h.registry := registry_assignMessageID ""
  have hsender : (h.assignMessageID "").2.senderOf p.userCode = some c :=
    senderOf_of_active (hpcode ▸ hobj.code) (by rw [hreg]; exact hf.active hs)
  rcases publishChat_cases platform (h := (h.assignMessageID "").2) hf.store hf.database hsender
    (hreg ▸ hf.client) (room_ne_empty hobj.room) hcheck with
    ⟨⟨row, hrow, hkey⟩, heq⟩ | ⟨hfresh, hrow, hsent⟩
  · -- the sender has a row under the id, so the insert is ignored
    rw [heq] at hstep
    refine iff_of_false ?_ fun hopen => ?_
    · rw [hstep]
      exact not_kept_of_same ho (chat_assignMessageID "")
    · rw [hpid, key_eq_iff] at hkey
      exact hopen.1 row hrow (hconv ▸ hkey)
  · rw [← hstep, hreg] at hsent
    rw [← hstep] at hrow
    have hnew : StoredNew h (step platform h e) obj m :=
      ⟨_, hrow, Nat.lt_succ_self _, hpid, rfl, hconv.symm, hpcontent⟩
    have hfreshID : FreshID h obj m := by
      intro row hrow hclash
      exact hfresh row hrow (by rw [hpid, key_eq_iff]; exact hconv ▸ hclash)
    have hwire : ∃ x, x = wireMessage false stored ∧ x.type = m.type ∧ x.messageID = h.generatedID ∧
        x.userCode = obj.userCode ∧ x.content = m.content :=
      ⟨_, rfl, hpt.trans ht.symm, hpid, hpcode, hpcontent⟩
    obtain ⟨wire, hwire, hfields⟩ := hwire
    rw [← hwire] at hsent
    constructor
    · rintro ⟨-, hall⟩
      refine ⟨hfreshID, fun d hd => ⟨?_, fun hp => by simp [ht] at hp⟩⟩
      obtain ⟨x, hx, -⟩ := hall d hd
      have hemits := hasSpace_of_delivered (r := h.registry) (some c) wire
        (e.env.visit (h.registry.members obj.room))
      rw [← hsent] at hemits
      exact (mem_sentBetween hemits hx).2
    · rintro ⟨-, hopen⟩
      refine ⟨hnew, fun d hd => ⟨wire, ?_, hfields⟩⟩
      have hspace := (hopen d hd).1
      unfold Recipient at hd
      rw [if_pos ht] at hd
      obtain ⟨hd, o, hdo, hroom⟩ := hd
      have hmem : d ∈ e.env.visit (h.registry.members obj.room) := by
        obtain ⟨o', ho', -, hin⟩ := hs.online d hd
        obtain rfl := Option.some_injective _ (hdo.symm.trans ho')
        exact mem_visit.2 (hroom ▸ hin)
      obtain ⟨out, hout, hdout⟩ := delivered_of_hasSpace (some c) hmem hd hspace
      rw [← hsent] at hout
      exact (mem_sentBetween_iff hout).2 hdout

/-- Rows that are kept up to their delivery state keep a new row. -/
theorem StoredNew.of_keepsRows {obj : Client} {m : Message} {l : Hub} (hnew : StoredNew h k obj m)
    (hkeep : KeepsRows k.db.chat l.db.chat) : StoredNew h l obj m := by
  obtain ⟨row, hrow, hid, hmessage, hsender, hconv, hcontent⟩ := hnew
  obtain ⟨row', hrow', hfix⟩ := hkeep row hrow
  refine ⟨row', hrow', (ChatRow.fixed_id hfix).symm ▸ hid,
    (ChatRow.fixed_messageID hfix).trans hmessage, (ChatRow.fixed_senderCode hfix).trans hsender,
    (ChatRow.fixed_conversationKey hfix).trans hconv, ?_⟩
  have hsame : row'.content = row.content := by
    simpa [ChatRow.fixed] using congrArg ChatRow.content hfix
  exact hsame.trans hcontent

theorem kept_private_iff (platform : Platform) {e : Event} {c : ClientID} {obj : Client} {m : Message}
    (hs : Sound h.registry) (ho : Ordered h.db.chat) (hf : PlainFrame h e c obj m)
    (ht : m.type = .privateChat) :
    Kept h (step platform h e) obj m ↔ FreshID h obj m ∧ QueuesOpen h c obj m := by
  obtain ⟨target, p, htarget, hne, hstep, hpt, hpid, hpcode, hptarget, hpcontent, hpcrypto⟩ :=
    hf.publishes_private platform hs ht
  have hobj := hs.valid obj (client?_mem hf.client)
  have hcontent := (hf.valid.resolve_left fun h => by simp [ht] at h).2.1
  have hnorm : normalizedOrEmpty m.targetUserCode = target := by
    simp only [normalizedOrEmpty, htarget]
  have hrecipient : ∀ d, Recipient h obj m d ↔ h.registry.active? target = some d := by
    intro d
    unfold Recipient
    rw [if_neg (by simp [ht]), hnorm]
  have hpnorm : normalizeUserCode p.targetUserCode = .ok target := by
    rw [hptarget]
    exact normalizeUserCode_idem htarget
  have hptext : validateTextContent "private chat" p.content = .ok () := by rwa [hpcontent]
  have hcheck : checkChatMessage { p with isPrivate := true } = .ok ⟨.privateChat,
      privateConversationKey obj.normalizedCode target, obj.normalizedCode, target⟩ :=
    checkChatMessage_private hobj hpt (hpid ▸ generatedID_ne_empty) hpcode hpnorm hptext hpcrypto
  have hconv : conversation obj m = privateConversationKey obj.normalizedCode target := by
    unfold conversation
    rw [if_neg (by simp [ht]), hnorm]
  rcases publishPrivate_cases c obj target (h := (h.assignMessageID "").2) hf.store hf.database
    hcheck with ⟨⟨row, hrow, hkey⟩, heq⟩ | ⟨hfresh, k, hreg, hrow, heq⟩
  · rw [heq] at hstep
    refine iff_of_false ?_ fun hopen => ?_
    · rw [hstep]
      exact not_kept_of_same ho (chat_assignMessageID "")
    · rw [hpid, key_eq_iff] at hkey
      exact hopen.1 row hrow (hconv ▸ hkey)
  have hfreshID : FreshID h obj m := by
    intro row hrow hclash
    exact hfresh row hrow (by rw [hpid, key_eq_iff]; exact hconv ▸ hclash)
  have hstored : StoredNew h k obj m :=
    ⟨_, hrow, Nat.lt_succ_self _, hpid, rfl, hconv.symm, hpcontent⟩
  rw [registry_assignMessageID] at hreg
  rw [heq] at hstep
  unfold routePrivate at hstep
  rw [hreg] at hstep
  cases hact : h.registry.active? target with
  | none =>
    -- nobody is online under the target code, so only the row counts
    rw [hact] at hstep
    have hnew : StoredNew h (step platform h e) obj m := by
      refine hstored.of_keepsRows ?_
      rw [hstep]
      intro row hrow
      exact ⟨row, by rw [rows_savePrivateOffline]; exact hrow, rfl⟩
    have hnobody : ∀ d, ¬ Recipient h obj m d := by
      intro d hd
      rw [hrecipient, hact] at hd
      cases hd
    exact iff_of_true ⟨hnew, fun d hd => absurd hd (hnobody d)⟩
      ⟨hfreshID, fun d hd => absurd hd (hnobody d)⟩
  | some t =>
    rw [hact] at hstep
    obtain ⟨hconnected, o, hto, hcode⟩ := hs.active target t hact
    have hct : c ≠ t := by
      rintro rfl
      obtain rfl := Option.some_injective _ (hf.client.symm.trans hto)
      exact hne hcode.symm
    obtain ⟨q, hstep, hqt, hqid, hqcode, hqcontent⟩ :
        ∃ q, step platform h e = k.relayPrivate e.env c obj t target false q ∧ q.type = .privateChat ∧
          q.messageID = h.generatedID ∧ q.userCode = obj.userCode ∧ q.content = m.content :=
      ⟨_, hstep, hpt, hpid, hpcode, hpcontent⟩
    have hnew : StoredNew h (step platform h e) obj m := by
      refine hstored.of_keepsRows ?_
      rw [hstep]
      exact keepsRows_relayPrivate e.env c obj t target q
    have hbetween : sentBetween h (step platform h e) = sentBetween k (step platform h e) := by
      unfold sentBetween
      rw [hreg]
    rw [← hreg] at hconnected
    have hc : c ∈ k.registry.clients := hreg ▸ hf.connected
    constructor
    · rintro ⟨-, hall⟩
      refine ⟨hfreshID, fun d hd => ?_⟩
      obtain rfl : t = d := Option.some_injective _ (hact.symm.trans ((hrecipient d).1 hd))
      obtain ⟨x, hx, -⟩ := hall t hd
      by_contra hfull
      have hfull' : ¬ (k.registry.hasSpace c = true ∧ k.registry.hasSpace t = true) := by
        rw [hreg]
        exact fun h => hfull ⟨h.2, fun _ => h.1⟩
      have hemits := relayPrivate_full e.env obj target q hc hconnected hct hfull'
      rw [← hstep] at hemits
      rw [hbetween] at hx
      exact hct (mem_sentBetween hemits hx).symm
    · rintro ⟨-, hopen⟩
      refine ⟨hnew, fun d hd => ?_⟩
      obtain ⟨hspace, hecho⟩ := hopen d hd
      obtain rfl : t = d := Option.some_injective _ (hact.symm.trans ((hrecipient d).1 hd))
      have hsent := relayPrivate_sent e.env obj target q hc hconnected hct (hreg ▸ hecho ht)
        (hreg ▸ hspace)
      rw [← hstep, ← hbetween] at hsent
      exact ⟨_, hsent, hqt.trans ht.symm, hqid, hqcode, hqcontent⟩

/-- In every reachable state a chat or private chat without an id is stored and delivered exactly
when its sender has no row under the generated id in the conversation and the send queues it needs
have a free place. -/
theorem kept_iff_fresh (platform : Platform) (adminCode : String) (offlineStore : Bool)
    (es : List Event) {e : Event} {c : ClientID} {obj : Client} {m : Message}
    (hf : PlainFrame (after platform adminCode offlineStore es) e c obj m) :
    Kept (after platform adminCode offlineStore es)
        (after platform adminCode offlineStore (es ++ [e])) obj m ↔
      FreshID (after platform adminCode offlineStore es) obj m ∧
        QueuesOpen (after platform adminCode offlineStore es) c obj m := by
  have hi : ChatInv (after platform adminCode offlineStore es) :=
    run_invariant (step platform) (chatInv_step platform) (chatInv_start adminCode offlineStore) es
  rw [after_concat]
  rcases hf.valid with hchat | hprivate
  · exact kept_chat_iff platform hi.sound hi.ordered hf hchat.1
  · exact kept_private_iff platform hi.sound hi.ordered hf hprivate.1

/-- A chat without an id. -/
def plainChat : Message := { type := .chat, content := "hello" }

/-- Alice's client object after a run. -/
def aliceAfter (es : List Event) (c : ClientID)
    (hc : ((after samplePlatform "" true es).registry.client? c).isSome) : Client :=
  ((after samplePlatform "" true es).registry.client? c).get hc

/-- The frame of a client whose login is over. -/
theorem plainFrame_plainChat (es : List Event) (c : ClientID)
    (hc : ((after samplePlatform "" true es).registry.client? c).isSome)
    (hstore : (after samplePlatform "" true es).offlineStore = true)
    (hconnected : c ∈ (after samplePlatform "" true es).registry.clients)
    (hreading : (aliceAfter es c hc).stage = .reading ∧ (aliceAfter es c hc).replay = []) :
    PlainFrame (after samplePlatform "" true es) (frameEvent c plainChat) c (aliceAfter es c hc)
      plainChat where
  input := ⟨false, rfl, fun _ => rfl⟩
  store := hstore
  client := (Option.some_get hc).symm
  connected := hconnected
  reading := hreading
  command := by decide
  plain := rfl
  database _ := rfl
  valid := .inl ⟨rfl, by decide⟩

theorem kept_iff_fresh_first_chat :
    Kept (after samplePlatform "" true (sessionEvents 0 "Alice" "alice"))
      (after samplePlatform "" true (sessionEvents 0 "Alice" "alice" ++ [frameEvent 0 plainChat]))
      (aliceAfter (sessionEvents 0 "Alice" "alice") 0 (by decide +kernel)) plainChat := by
  refine (kept_iff_fresh samplePlatform "" true _ (plainFrame_plainChat _ 0 (by decide +kernel)
    (by decide +kernel) (by decide +kernel) (by decide +kernel))).2 ⟨?_, ?_⟩
  · have hempty : (after samplePlatform "" true
        (sessionEvents 0 "Alice" "alice")).db.chat.messages.rows = [] := by decide +kernel
    intro row hrow
    rw [hempty] at hrow
    cases hrow
  · rintro d ⟨hd, -⟩
    have hclients : (after samplePlatform "" true
        (sessionEvents 0 "Alice" "alice")).registry.clients = [0] := by decide +kernel
    rw [hclients] at hd
    obtain rfl := List.mem_singleton.1 hd
    exact ⟨by decide +kernel, by decide⟩

/-- Alice chats, the server restarts, and Alice logs in again. -/
def chatThenRestart : List Event :=
  sessionEvents 0 "Alice" "alice" ++ [frameEvent 0 plainChat, ⟨.restart "", {}⟩] ++
    sessionEvents 1 "Alice" "alice"

theorem chat_after_restart_lost :
    ¬ ∀ (platform : Platform) (adminCode : String) (offlineStore : Bool) (es : List Event) (e : Event)
      (c : ClientID) (obj : Client) (m : Message),
      PlainFrame (after platform adminCode offlineStore es) e c obj m →
      Kept (after platform adminCode offlineStore es)
        (after platform adminCode offlineStore (es ++ [e])) obj m := by
  intro hclaim
  have hframe := plainFrame_plainChat chatThenRestart 1 (by decide +kernel)
    (by decide +kernel) (by decide +kernel) (by decide +kernel)
  obtain ⟨⟨row, hrow, hid, -⟩, -⟩ := hclaim _ _ _ _ _ _ _ _ hframe
  have hrows : ∀ row ∈ (after samplePlatform "" true
      (chatThenRestart ++ [frameEvent 1 plainChat])).db.chat.messages.rows,
      row.id ≤ (after samplePlatform "" true chatThenRestart).db.chat.lastID := by decide +kernel
  exact absurd (hrows row hrow) (Nat.not_le.2 hid)

end Hub

end LanChat
