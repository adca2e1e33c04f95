import LanChat.Hub.Confinement

/-!
# Where a published message goes

The second halves of `broadcastMessage` and `handlePrivateMessage`, each by what it leaves in the
send queues, in the database and in the message records.

* `ChatRelay`: a chat, once each to members of the room, then a receipt;
* `PrivateRelay`: a private chat to an online target, after the echo to its sender;
* `OfflineRelay`: a private chat to a target that is not online.
-/

namespace LanChat

namespace Hub

open GoStrings Registry ChatStore EventMachine

variable {h k : Hub}

/-! ### Single deliveries -/

theorem sent_tell (r : Registry) (c : ClientID) (m : Message) :
    ∃ out, (r.tell c m).sent = r.sent ++ out ∧ out.Sublist [(c, m)] := by
  unfold Registry.tell Registry.deliver
  split_ifs
  · exact ⟨[(c, m)], rfl, List.Sublist.refl _⟩
  · exact ⟨[], by rw [List.append_nil]; exact sent_removeClient c, List.nil_sublist _⟩
  · exact ⟨[], by rw [List.append_nil], List.nil_sublist _⟩

/-- Only messages to one client were sent, each of a kind. -/
theorem sent_tell_if (r : Registry) (tell : Bool) (c : ClientID) (m : Message) :
    ∃ out, (if tell then r.tell c m else r).sent = r.sent ++ out ∧
      out.Sublist (if tell then [(c, m)] else []) := by
  cases tell with
  | true => exact sent_tell r c m
  | false => exact ⟨[], by simp, List.Sublist.refl _⟩

theorem registry_tell_if (tell : Bool) (c : ClientID) (m : Message) :
    (if tell then h.tell c m else h).registry =
      if tell then h.registry.tell c m else h.registry := by
  cases tell <;> rfl

theorem db_tell_if (tell : Bool) (c : ClientID) (m : Message) :
    (if tell then h.tell c m else h).db = h.db := by
  cases tell <;> rfl

theorem records_tell_if (tell : Bool) (c : ClientID) (m : Message) :
    (if tell then h.tell c m else h).messageRecords = h.messageRecords := by
  cases tell <;> rfl

@[simp] theorem db_recordMessage (message : Message) (recipients : List String)
    (offlineMessageID : String) :
    (h.recordMessage message recipients offlineMessageID).db = h.db := by
  unfold recordMessage
  split_ifs <;> rfl

@[simp] theorem offlineStore_recordMessage (message : Message) (recipients : List String)
    (offlineMessageID : String) :
    (h.recordMessage message recipients offlineMessageID).offlineStore = h.offlineStore := by
  unfold recordMessage
  split_ifs <;> rfl

theorem records_recorded {message : Message} (hid : message.messageID ≠ "")
    (recipients : List String) (offlineMessageID : String) :
    (h.recordMessage message recipients offlineMessageID).messageRecords =
      h.messageRecords.insert message.messageID
        ⟨normalizedOrEmpty message.userCode, recipients, offlineMessageID, false⟩ := by
  unfold recordMessage
  rw [if_neg hid]
  rfl

theorem records_markDelivered_eq {env : Env} {message : Message}
    (hk : h.markDelivered env message = some k) : k.messageRecords = h.messageRecords := by
  obtain ⟨-, rfl⟩ | ⟨chat, -, rfl⟩ := markDelivered_eq_some hk
  · rfl
  · rfl

/-- The mark depends on the database alone. -/
theorem markDelivered_db {l : Hub} {env : Env} {message : Message} (hdb : l.db = h.db)
    (hstore : l.offlineStore = h.offlineStore) (hk : l.markDelivered env message = some k) :
    ∃ k', h.markDelivered env message = some k' ∧ k'.db = k.db := by
  unfold markDelivered at hk ⊢
  rw [hstore] at hk
  split at hk
  · rename_i hopen
    obtain rfl := Option.some_injective _ hk
    exact ⟨h, if_pos hopen, hdb.symm⟩
  · rename_i hopen
    rw [hdb] at hk
    rw [if_neg hopen]
    split at hk
    · cases hk
    · rename_i chat hupdate
      obtain rfl := Option.some_injective _ hk
      exact ⟨_, rfl, rfl⟩

theorem wireMessage_fields (tracking : Bool) (message : Message) :
    (wireMessage tracking message).type = message.type ∧
      (wireMessage tracking message).userCode = message.userCode ∧
      (wireMessage tracking message).messageID = message.messageID := by
  unfold wireMessage
  split_ifs
  · exact ⟨rfl, rfl, rfl⟩
  · exact ⟨rfl, rfl, rfl⟩

/-! ### Private chats to an online target -/

/-- What became of a private chat to the session `target`. -/
inductive PrivateRelay (h k : Hub) (env : Env) (c target : ClientID) (tracking : Bool)
    (message : Message) : Prop
  | echoFull (hspace : h.registry.hasSpace c = false) (hdb : k.db = h.db)
      (hsent : k.registry.sent = h.registry.sent)
  | targetFull (hspace : h.registry.hasSpace c = true) (htarget : h.registry.hasSpace target = false)
      (hdb : k.db = h.db) (out : List (ClientID × Message))
      (hsent : k.registry.sent = h.registry.sent ++ (c, wireMessage tracking message) :: out)
      (hout : out.Sublist (if tracking then [(c, receipt message.messageID "sent")] else []))
  | unmarked (hspace : h.registry.hasSpace c = true) (htarget : h.registry.hasSpace target = true)
      (hdb : k.db = h.db) (out : List (ClientID × Message))
      (hsent : k.registry.sent = h.registry.sent ++
        (c, wireMessage tracking message) :: (target, wireMessage tracking message) :: out)
      (hout : ∀ x ∈ out, x.2.type = .error)
  | delivered (hspace : h.registry.hasSpace c = true) (htarget : h.registry.hasSpace target = true)
      (l : Hub) (hmark : h.markDelivered env { message with isPrivate := true } = some l)
      (hdb : k.db = l.db) (out : List (ClientID × Message))
      (hsent : k.registry.sent = h.registry.sent ++
        (c, wireMessage tracking message) :: (target, wireMessage tracking message) :: out)
      (hout : out.Sublist (if tracking then [(c, receipt message.messageID "delivered")] else []))

theorem privateRelay (env : Env) {c target : ClientID} (obj : Client) (targetCode : String)
    (tracking : Bool) (message : Message) (hc : c ∈ h.registry.clients)
    (ht : target ∈ h.registry.clients) (hne : c ≠ target) :
    PrivateRelay h (h.relayPrivate env c obj target targetCode tracking message) env c target
      tracking message := by
  let wire := wireMessage tracking message
  unfold relayPrivate
  dsimp only
  rw [registry_recordMessage]
  cases hspace : h.registry.hasSpace c with
  | false =>
    rw [deliver_of_full hc hspace]
    exact .echoFull hspace (db_recordMessage ..) (sent_removeClient (r := h.registry) c)
  | true =>
    have hecho : h.registry.deliver c wire = (h.registry.enqueue c wire, true) :=
      deliver_of_hasSpace hc hspace
    have htspace : (h.registry.enqueue c wire).hasSpace target = h.registry.hasSpace target := by
      have hkept := hasSpace_deliver_of_ne (r := h.registry) (m := wire) hne
      rwa [hecho] at hkept
    have ht' : target ∈ (h.registry.enqueue c wire).clients := ht
    rw [hecho]
    dsimp only
    cases htfull : h.registry.hasSpace target with
    | false =>
      rw [deliver_of_full ht' (htspace.trans htfull)]
      dsimp only
      obtain ⟨out, hout, hsub⟩ := sent_tell_if ((h.registry.enqueue c wire).removeSlowClient target)
        tracking c (receipt message.messageID "sent")
      refine .targetFull hspace htfull (by rw [db_tell_if]; exact db_recordMessage ..) out ?_ hsub
      rw [registry_tell_if]
      refine hout.trans ?_
      have hremoved : ((h.registry.enqueue c wire).removeSlowClient target).sent =
          h.registry.sent ++ [(c, wire)] :=
        sent_removeClient (r := h.registry.enqueue c wire) target
      rw [hremoved, List.append_assoc]
      rfl
    | true =>
      rw [deliver_of_hasSpace ht' (htspace.trans htfull)]
      dsimp only
      have hboth : ((h.registry.enqueue c wire).enqueue target wire).sent =
          h.registry.sent ++ [(c, wire), (target, wire)] := List.append_assoc _ _ _
      split
      · obtain ⟨out, hout, hsub⟩ := sent_tell ((h.registry.enqueue c wire).enqueue target wire) c
          { type := .error, messageID := message.messageID
            content := "Failed to update delivery state" }
        refine .unmarked hspace htfull (db_recordMessage ..) out ?_ ?_
        · refine hout.trans ?_
          rw [hboth, List.append_assoc]
          rfl
        · intro x hx
          rw [List.mem_singleton.1 (hsub.subset hx)]
      · rename_i l hmark
        have hlift := fun hdb hstore => markDelivered_db (h := h) hdb hstore hmark
        obtain ⟨l', hmark', hdb⟩ := hlift (db_recordMessage ..) (offlineStore_recordMessage ..)
        have hreg := registry_markDelivered hmark
        obtain ⟨out, hout, hsub⟩ := sent_tell_if ((h.registry.enqueue c wire).enqueue target wire)
          tracking c (receipt message.messageID "delivered")
        refine .delivered hspace htfull l' hmark' (by rw [db_tell_if, hdb]) out ?_ hsub
        rw [registry_tell_if, hreg]
        refine hout.trans ?_
        rw [hboth, List.append_assoc]
        rfl

/-! ### Private chats to a target that is not online -/

/-- The offline row of a message. -/
def offlineRow (targetCode : String) (message : Message) : OfflineRow :=
  ⟨asciiLower targetCode, message.username, message.userCode, message.content, message.messageID,
    message.createdAt⟩

/-- The row has been added to an offline queue that had none under its id; older rows of its target
may be gone. -/
structure Queued (s s' : ChatStore) (row : OfflineRow) : Prop where
  fresh : ∀ r ∈ s.offline.rows, r.messageID ≠ row.messageID
  mem : row ∈ s'.offline.rows
  rows : ∀ r ∈ s'.offline.rows, r ∈ s.offline.rows ∨ r = row
  messages : s'.messages = s.messages

/-- `SaveOfflineMessage` finds the id taken, or adds the row; a failed prune comes after. -/
theorem saveOfflineMessage_outcome {s : ChatStore} (pruneFails : Bool) (targetCode : String)
    {message : Message} (hcontent : validateTextContent "offline message" message.content = .ok ()) :
    ((∃ row ∈ s.offline.rows, row.messageID = message.messageID) ∧
      ∃ x, s.saveOfflineMessage pruneFails targetCode message = (.error x, s)) ∨
    ∃ s', Queued s s' (offlineRow targetCode message) ∧
      ∃ x, s.saveOfflineMessage pruneFails targetCode message = (x, s') := by
  unfold ChatStore.saveOfflineMessage
  rw [hcontent]
  dsimp only
  cases hins : s.offline.insert? (offlineRow targetCode message) with
  | none =>
    obtain ⟨row, hrow, hclash⟩ := Table.insert?_eq_none hins
    simp only [Table.keyClash, decide_eq_true_eq] at hclash
    refine .inl ⟨⟨row, hrow, ?_⟩, .text "save offline message", ?_⟩
    · rcases hclash with hclash | hclash
      · exact hclash
      · exact hclash.symm
    · unfold offlineRow at hins
      rw [hins]
  | some offline =>
    have hrows := Table.rows_of_insert? hins
    have hqueued : Queued s { s with offline } (offlineRow targetCode message) := by
      refine ⟨?_, ?_, fun r hr => ?_, rfl⟩
      · intro r hr hid
        have hclash := offline.distinct
        rw [hrows, List.pairwise_append] at hclash
        have hfree := (hclash.2.2 r hr _ (List.mem_singleton.2 rfl)).1
        simp only [Table.keyClash, decide_eq_false_iff_not] at hfree
        exact hfree hid
      · exact (Table.mem_insert? hins).2 (.inr rfl)
      · exact (Table.mem_insert? hins).1 hr
    unfold offlineRow at hins
    rw [hins]
    dsimp only
    cases pruneFails with
    | true => exact .inr ⟨_, hqueued, _, rfl⟩
    | false =>
      refine .inr ⟨_, ?_, _, rfl⟩
      refine ⟨hqueued.fresh, ?_, fun r hr => hqueued.rows r (List.mem_of_mem_filter hr),
        hqueued.messages⟩
      -- the newest row of the target stays
      refine List.mem_filter.2 ⟨hqueued.mem, ?_⟩
      change (!((offlineRow targetCode message).targetCode == asciiLower targetCode &&
        !(((offline.rows.filter fun r => r.targetCode == asciiLower targetCode).map
          OfflineRow.messageID).reverse.take maxOfflineMessagesPerUser).contains
            (offlineRow targetCode message).messageID)) = true
      rw [hrows]
      simp [offlineRow, List.filter_append, maxOfflineMessagesPerUser]

/-- What a sender is told about a message that waits for its target. -/
def offlineNotices (c : ClientID) (tracking : Bool) (message : Message) :
    List (ClientID × Message) :=
  [(c, wireMessage tracking message),
    (c, { type := .system, content := "Private message saved for offline user" })] ++
    if tracking then [(c, receipt message.messageID "sent")] else []

/-- What became of a private chat to a code without a session. -/
inductive OfflineRelay (h k : Hub) (env : Env) (c : ClientID) (obj : Client) (targetCode : String)
    (tracking : Bool) (message : Message) : Prop
  | unknown (hknown : (h.offlineStore && h.targetKnown env targetCode) = false) (hdb : k.db = h.db)
      (hrecords : k.messageRecords = h.messageRecords) (out : List (ClientID × Message))
      (hsent : k.registry.sent = h.registry.sent ++ out) (hout : ∀ x ∈ out, x.2.type = .error)
  | unsaved (hknown : (h.offlineStore && h.targetKnown env targetCode) = true)
      (htaken : env.fails .saveOfflineMessage = true ∨
        ∃ row ∈ h.db.chat.offline.rows, row.messageID = message.messageID) (hdb : k.db = h.db)
      (hrecords : k.messageRecords = (h.recordMessage message [obj.normalizedCode, targetCode]
        message.messageID).messageRecords) (out : List (ClientID × Message))
      (hsent : k.registry.sent = h.registry.sent ++ out) (hout : ∀ x ∈ out, x.2.type = .error)
  | queued (hknown : (h.offlineStore && h.targetKnown env targetCode) = true) (s : ChatStore)
      (hqueued : Queued h.db.chat s (offlineRow targetCode message))
      (hdb : k.db = { h.db with chat := s })
      (hrecords : k.messageRecords = (h.recordMessage message [obj.normalizedCode, targetCode]
        message.messageID).messageRecords) (out : List (ClientID × Message))
      (hsent : k.registry.sent = h.registry.sent ++ out)
      (hout : (∀ x ∈ out, x.2.type = .error) ∨ out.Sublist (offlineNotices c tracking message))

theorem sent_deliverError (c : ClientID) (content messageID : String) :
    ∃ out, (h.deliverError c content messageID).registry.sent = h.registry.sent ++ out ∧
      ∀ x ∈ out, x.2.type = .error := by
  obtain ⟨out, hout, hsub⟩ := sent_tell h.registry c
    { type := .error, messageID, commandID := "", content }
  refine ⟨out, hout, fun x hx => ?_⟩
  rw [List.mem_singleton.1 (hsub.subset hx)]

/-- Three deliveries in a row. -/
theorem sent_offlineNotices (c : ClientID) (tracking : Bool) (message : Message) :
    ∃ out, (if tracking then
        ((h.tell c (wireMessage tracking message)).tell c
          { type := .system, content := "Private message saved for offline user" }).tell c
          (receipt message.messageID "sent")
      else (h.tell c (wireMessage tracking message)).tell c
        { type := .system, content := "Private message saved for offline user" }).registry.sent =
      h.registry.sent ++ out ∧ out.Sublist (offlineNotices c tracking message) := by
  obtain ⟨a, ha, hsub⟩ := sent_tell h.registry c (wireMessage tracking message)
  obtain ⟨b, hb, hsub'⟩ := sent_tell (h.registry.tell c (wireMessage tracking message)) c
    { type := .system, content := "Private message saved for offline user" }
  obtain ⟨d, hd, hsub''⟩ := sent_tell_if ((h.registry.tell c (wireMessage tracking message)).tell c
    { type := .system, content := "Private message saved for offline user" }) tracking c
    (receipt message.messageID "sent")
  refine ⟨a ++ b ++ d, ?_, (hsub.append hsub').append hsub''⟩
  rw [registry_tell_if]
  refine hd.trans ?_
  rw [hb, ha]
  simp only [List.append_assoc]

theorem offlineRelay (env : Env) (c : ClientID) (obj : Client) (targetCode : String)
    (tracking : Bool) {message : Message}
    (hcontent : validateTextContent "private chat" message.content = .ok ()) :
    OfflineRelay h (h.savePrivateOffline env c obj targetCode tracking message) env c obj targetCode
      tracking message := by
  unfold savePrivateOffline
  cases hknown : h.offlineStore && h.targetKnown env targetCode with
  | false =>
    have hcond : (!h.offlineStore || !h.targetKnown env targetCode) = true := by
      rw [← Bool.not_and, hknown]
      rfl
    rw [if_pos hcond]
    obtain ⟨out, hsent, hout⟩ := sent_deliverError (h := h) c "Target user not found" message.messageID
    exact .unknown hknown rfl rfl out hsent hout
  | true =>
    have hcond : ¬ (!h.offlineStore || !h.targetKnown env targetCode) = true := by
      rw [← Bool.not_and, hknown]
      simp
    rw [if_neg hcond]
    dsimp only
    have hreg := registry_recordMessage (h := h) message [obj.normalizedCode, targetCode]
      message.messageID
    have hdb := db_recordMessage (h := h) message [obj.normalizedCode, targetCode] message.messageID
    generalize hl : h.recordMessage message [obj.normalizedCode, targetCode] message.messageID = l
      at hreg hdb
    have hrecords : l.messageRecords = (h.recordMessage message [obj.normalizedCode, targetCode]
        message.messageID).messageRecords := by rw [hl]
    unfold Hub.saveOfflineMessage
    cases hfails : env.fails .saveOfflineMessage with
    | true =>
      obtain ⟨out, hsent, hout⟩ := sent_deliverError (h := l) c "Failed to save offline message"
        message.messageID
      rw [hreg] at hsent
      exact .unsaved hknown (.inl hfails) hdb hrecords out hsent hout
    | false =>
      rw [if_neg (by simp)]
      dsimp only
      rw [hdb]
      have hstore := saveOfflineMessage_outcome (s := h.db.chat) (env.fails .pruneOfflineMessages)
        targetCode (validateTextContent_label hcontent)
      let kept : ChatStore → Hub := fun s => { l with db := { h.db with chat := s } }
      have hkept : ∀ s out, (kept s).registry.sent ++ out = h.registry.sent ++ out := by
        intro s out
        change l.registry.sent ++ out = _
        rw [hreg]
      rcases hstore with ⟨hclash, x, hsave⟩ | ⟨s, hqueued, x, hsave⟩
      · rw [hsave]
        obtain ⟨out, hsent, hout⟩ := sent_deliverError (h := kept h.db.chat) c
          "Failed to save offline message" message.messageID
        exact .unsaved hknown (.inr hclash) rfl hrecords out (hsent.trans (hkept _ _)) hout
      · rw [hsave]
        cases x with
        | error x =>
          obtain ⟨out, hsent, hout⟩ := sent_deliverError (h := kept s) c
            "Failed to save offline message" message.messageID
          exact .queued hknown s hqueued rfl hrecords out (hsent.trans (hkept _ _)) (.inl hout)
        | ok x =>
          obtain ⟨out, hsent, hsub⟩ := sent_offlineNotices (h := kept s) c tracking message
          refine .queued hknown s hqueued ?_ ?_ out (hsent.trans (hkept _ _)) (.inr hsub)
          · exact db_tell_if tracking c _
          · exact (records_tell_if tracking c _).trans hrecords

/-! ### Chats -/

/-- What follows the deliveries of a chat. -/
inductive ChatTail (h k : Hub) (env : Env) (sender : Option ClientID) (tracking : Bool)
    (message : Message) (out : List (ClientID × Message)) : Prop
  | silent (hdb : k.db = h.db) (hout : out = [])
  | sent (c : ClientID) (htracking : tracking = true) (hdb : k.db = h.db)
      (hout : out.Sublist [(c, receipt message.messageID "sent")])
  | unmarked (hdb : k.db = h.db) (hout : ∀ x ∈ out, x.2.type = .error)
  | delivered (c : ClientID) (htracking : tracking = true) (l : Hub)
      (hmark : h.markDelivered env message = some l) (hdb : k.db = l.db)
      (hout : out.Sublist [(c, receipt message.messageID "delivered")])

/-- What became of a chat: the connected members of the room are visited once each. -/
structure ChatRelay (h k : Hub) (env : Env) (sender : Option ClientID) (room : String)
    (tracking : Bool) (message : Message) (deliveries notices : List (ClientID × Message)) :
    Prop where
  sent : k.registry.sent = h.registry.sent ++ deliveries ++ notices
  wire : ∀ x ∈ deliveries, x.2 = wireMessage tracking message
  member : ∀ x ∈ deliveries, x.1 ∈ h.registry.clients ∧ x.1 ∈ h.registry.roomClients room
  nodup : Distinct h.registry → room ≠ "" → (deliveries.map Prod.fst).Nodup
  records : k.messageRecords = (h.recordMessage message
    (h.registry.recipientCodes (h.registry.roomClients room)) "").messageRecords
  tail : ChatTail h k env sender tracking message notices

theorem offline_markDelivered {env : Env} {message : Message} {l : Hub}
    (hl : h.markDelivered env message = some l) : l.db.chat.offline = h.db.chat.offline := by
  obtain ⟨-, rfl⟩ | ⟨chat, hupdate, rfl⟩ := markDelivered_eq_some hl
  · rfl
  · obtain ⟨i, -, rfl⟩ := updateDeliveryState_eq_ok hupdate
    rfl

/-- A chat leaves the offline messages alone. -/
theorem ChatRelay.offline {env : Env} {sender : Option ClientID} {room : String} {tracking : Bool}
    {message : Message} {deliveries notices : List (ClientID × Message)}
    (hrelay : ChatRelay h k env sender room tracking message deliveries notices) :
    k.db.chat.offline = h.db.chat.offline := by
  cases hrelay.tail with
  | silent hdb => rw [hdb]
  | sent c htracking hdb => rw [hdb]
  | unmarked hdb => rw [hdb]
  | delivered c htracking l hmark hdb => rw [hdb, offline_markDelivered hmark]

theorem chatRelay (env : Env) (sender : Option ClientID) (room : String) (tracking : Bool)
    (message : Message) : ∃ deliveries notices, ChatRelay h
      (h.relayChat env sender room tracking message) env sender room tracking message deliveries
      notices := by
  let wire := wireMessage tracking message
  let visited := env.visit (h.registry.roomClients room)
  obtain ⟨out, hout, hsub⟩ := sent_deliverToPeers sender wire visited h.registry
  have hbetween : ∀ {P : ClientID × Message → Prop},
      Emits P h.registry (deliverToPeers h.registry sender wire visited).1 → ∀ x ∈ out, P x := by
    rintro P ⟨l, hl, hp⟩ x hx
    rw [List.append_cancel_left (hout.symm.trans hl)] at hx
    exact hp x hx
  have hwire : ∀ x ∈ out, x.2 = wire := fun x hx =>
    (hbetween (hasSpace_of_delivered sender wire visited) x hx).1
  have hmember : ∀ x ∈ out, x.1 ∈ h.registry.clients ∧ x.1 ∈ h.registry.roomClients room := by
    intro x hx
    obtain ⟨hmem, hcon⟩ := hbetween (emits_deliverToPeers sender wire visited) x hx
    exact ⟨hcon, mem_visit.1 hmem⟩
  have hnodup : Distinct h.registry → room ≠ "" → (out.map Prod.fst).Nodup := by
    intro hd hroom
    refine hsub.nodup (nodup_visit ?_)
    unfold roomClients
    rw [if_neg hroom]
    exact hd room
  have hdb := db_recordMessage (h := h) message
    (h.registry.recipientCodes (h.registry.roomClients room)) ""
  have hstore := offlineStore_recordMessage (h := h) message
    (h.registry.recipientCodes (h.registry.roomClients room)) ""
  have hmake : ∀ {k : Hub} {tail : List (ClientID × Message)},
      k.registry.sent = (deliverToPeers h.registry sender wire visited).1.sent ++ tail →
      k.messageRecords = (h.recordMessage message
        (h.registry.recipientCodes (h.registry.roomClients room)) "").messageRecords →
      ChatTail h k env sender tracking message tail →
      ChatRelay h k env sender room tracking message out tail := by
    intro k tail hsent hrecords htail
    exact ⟨by rw [hsent, hout], hwire, hmember, hnodup, hrecords, htail⟩
  unfold relayChat
  dsimp only
  rw [registry_recordMessage]
  split
  · exact ⟨out, [], hmake (List.append_nil _).symm rfl (.silent hdb rfl)⟩
  rename_i c
  split
  · exact ⟨out, [], hmake (List.append_nil _).symm rfl (.silent hdb rfl)⟩
  rename_i htrack
  have htracking : tracking = true := by
    cases tracking with
    | true => rfl
    | false => simp at htrack
  split
  · obtain ⟨tail, htail, hsub⟩ := sent_tell (deliverToPeers h.registry (some c) wire visited).1 c
      (receipt message.messageID "sent")
    exact ⟨out, tail, hmake htail rfl (.sent c htracking hdb hsub)⟩
  split
  · obtain ⟨tail, htail, hsub⟩ := sent_tell (deliverToPeers h.registry (some c) wire visited).1 c
      { type := .error, messageID := message.messageID
        content := "Failed to update delivery state" }
    refine ⟨out, tail, hmake htail rfl (.unmarked hdb fun x hx => ?_)⟩
    rw [List.mem_singleton.1 (hsub.subset hx)]
  · rename_i l hmark
    have hlift := fun hdb hstore => markDelivered_db (h := h) hdb hstore hmark
    obtain ⟨l', hmark', hldb⟩ := hlift hdb hstore
    obtain ⟨tail, htail, hsub⟩ := sent_tell (deliverToPeers h.registry (some c) wire visited).1 c
      (receipt message.messageID "delivered")
    have hreg := registry_markDelivered hmark
    have hrecords := records_markDelivered_eq hmark
    refine ⟨out, tail, hmake ?_ hrecords
      (.delivered c htracking l' hmark' hldb.symm hsub)⟩
    change (l.registry.tell c _).sent = _
    rw [hreg]
    exact htail

/-! ### Retries -/

/-- The row that a stored message is found under. -/
theorem getStoredMessageForMessage_ok {s : ChatStore} {message : Message} {i : ChatIdentity}
    {row : ChatRow} (hident : chatMessageIdentity message = .ok i)
    (hrow : s.getStoredMessageForMessage message = .ok row) :
    row ∈ s.messages.rows ∧ row.kind = i.kind ∧
      row.key = (i.senderCode, i.conversationKey, message.messageID) := by
  unfold getStoredMessageForMessage at hrow
  obtain ⟨_, -, hrow⟩ := bind_eq_ok.1 hrow
  obtain ⟨j, hj, hrow⟩ := bind_eq_ok.1 hrow
  obtain rfl := Except.ok.inj (hident.symm.trans hj)
  split at hrow
  · rename_i found hfound
    obtain rfl := Except.ok.inj hrow
    have hmatch := List.find?_some hfound
    simp only [ChatRow.inConversation, Bool.and_eq_true, beq_iff_eq] at hmatch
    refine ⟨List.mem_of_find?_eq_some hfound, hmatch.1.2.1, ?_⟩
    unfold ChatRow.key
    rw [hmatch.1.1, hmatch.1.2.2, hmatch.2]
  · cases hrow

/-- A retry is answered with the state of the stored row, or with an error. -/
theorem sent_answerRetry {env : Env} {sender : Option ClientID} {tracking : Bool}
    {message : Message} {x : ClientID × Message}
    (hx : x ∈ sentBetween h (h.answerRetry env sender tracking message)) :
    x.2.type = .error ∨ (tracking = true ∧ sender = some x.1 ∧
      ∃ row, h.db.chat.getStoredMessageForMessage message = .ok row ∧
        x.2 = receipt message.messageID row.deliveryState) := by
  unfold answerRetry at hx
  split at hx
  · exact absurd hx (not_mem_sentBetween rfl)
  rename_i c
  split at hx
  · exact absurd hx (not_mem_sentBetween rfl)
  rename_i htracking
  split at hx
  · obtain ⟨out, hsent, hout⟩ := sent_deliverError (h := h) c "Failed to load delivery receipt"
      message.messageID
    exact .inl (hout x ((mem_sentBetween_iff hsent).1 hx))
  · rename_i row hrow
    obtain ⟨out, hsent, hout⟩ := sent_tell h.registry c
      (receipt message.messageID row.deliveryState)
    have hmem := List.mem_singleton.1
      (hout.subset ((mem_sentBetween_iff (k := h.tell c _) hsent).1 hx))
    refine .inr ⟨by simpa using htracking, ?_, row, (call_eq_ok.1 hrow).2, ?_⟩
    · rw [hmem]
    · rw [hmem]

/-! ### Delivery states -/

/-- The rows are the same but for some that are now marked as delivered. -/
structure Marks (s s' : ChatStore) : Prop where
  back : ∀ row ∈ s'.messages.rows, ∃ base ∈ s.messages.rows, row.fixed = base.fixed ∧
    (row.deliveryState = base.deliveryState ∨ row.deliveryState = "delivered")
  forth : ∀ base ∈ s.messages.rows, ∃ row ∈ s'.messages.rows, row.fixed = base.fixed

theorem Marks.of_eq {s s' : ChatStore} (heq : s'.messages = s.messages) : Marks s s' := by
  constructor
  · intro row hrow
    exact ⟨row, heq ▸ hrow, rfl, .inl rfl⟩
  · intro base hbase
    exact ⟨base, heq ▸ hbase, rfl⟩

theorem marks_markDelivered {env : Env} {message : Message} {l : Hub}
    (hl : h.markDelivered env message = some l) : Marks h.db.chat l.db.chat := by
  obtain ⟨-, rfl⟩ | ⟨chat, hupdate, rfl⟩ := markDelivered_eq_some hl
  · exact .of_eq rfl
  · obtain ⟨i, -, rfl⟩ := updateDeliveryState_eq_ok hupdate
    constructor
    · intro row hrow
      obtain ⟨base, hbase, rfl⟩ := List.mem_map.1 hrow
      refine ⟨base, hbase, ?_⟩
      split
      · exact ⟨rfl, .inr rfl⟩
      · exact ⟨rfl, .inl rfl⟩
    · intro base hbase
      refine ⟨_, List.mem_map_of_mem hbase, ?_⟩
      split
      · rfl
      · rfl

/-- The row of a message that is marked is then in state `delivered`. -/
theorem delivered_markDelivered {env : Env} {message : Message} {i : ChatIdentity} {l : Hub}
    (hstore : h.offlineStore = true) (hident : chatMessageIdentity message = .ok i)
    (hl : h.markDelivered env message = some l) {row : ChatRow}
    (hrow : row ∈ h.db.chat.messages.rows) (hkind : row.kind = i.kind)
    (hkey : row.key = (i.senderCode, i.conversationKey, message.messageID)) :
    ∃ row' ∈ l.db.chat.messages.rows, row'.key = row.key ∧ row'.deliveryState = "delivered" := by
  obtain ⟨hsender, hconv, hid⟩ := key_eq_iff.1 hkey
  obtain ⟨hoff, -⟩ | ⟨chat, hupdate, rfl⟩ := markDelivered_eq_some hl
  · rw [hstore] at hoff
    cases hoff
  · obtain ⟨j, hj, rfl⟩ := updateDeliveryState_eq_ok hupdate
    obtain rfl := Except.ok.inj (hident.symm.trans hj)
    refine ⟨{ row with deliveryState := "delivered" }, ?_, rfl, rfl⟩
    refine List.mem_map.2 ⟨row, hrow, if_pos ?_⟩
    simp [ChatRow.inConversation, hid, hkind, hconv, hsender]

theorem marks_relayChat (env : Env) (sender : Option ClientID) (room : String) (tracking : Bool)
    (message : Message) :
    Marks h.db.chat (h.relayChat env sender room tracking message).db.chat := by
  obtain ⟨live, rest, hrelay⟩ := chatRelay (h := h) env sender room tracking message
  cases hrelay.tail with
  | silent hdb => exact .of_eq (by rw [hdb])
  | sent c htracking hdb => exact .of_eq (by rw [hdb])
  | unmarked hdb => exact .of_eq (by rw [hdb])
  | delivered c htracking l hmark hdb =>
    rw [hdb]
    exact marks_markDelivered hmark

theorem marks_relayPrivate (env : Env) {c target : ClientID} (obj : Client) (targetCode : String)
    (tracking : Bool) (message : Message) (hc : c ∈ h.registry.clients)
    (ht : target ∈ h.registry.clients) (hne : c ≠ target) :
    Marks h.db.chat (h.relayPrivate env c obj target targetCode tracking message).db.chat := by
  cases privateRelay (h := h) env obj targetCode tracking message hc ht hne with
  | echoFull hspace hdb => exact .of_eq (by rw [hdb])
  | targetFull hspace htfull hdb => exact .of_eq (by rw [hdb])
  | unmarked hspace htspace hdb => exact .of_eq (by rw [hdb])
  | delivered hspace htspace l hmark hdb =>
    rw [hdb]
    exact marks_markDelivered hmark

theorem marks_savePrivateOffline (env : Env) (c : ClientID) (obj : Client) (targetCode : String)
    (tracking : Bool) {message : Message}
    (hcontent : validateTextContent "private chat" message.content = .ok ()) :
    Marks h.db.chat (h.savePrivateOffline env c obj targetCode tracking message).db.chat := by
  cases offlineRelay (h := h) env c obj targetCode tracking hcontent with
  | unknown hknown hdb => exact .of_eq (by rw [hdb])
  | unsaved hknown htaken hdb => exact .of_eq (by rw [hdb])
  | queued hknown s hqueued hdb => exact .of_eq (by rw [hdb]; exact hqueued.messages)

/-- The target's session is not the sender's. -/
theorem ne_of_active (hs : Sound h.registry) {c t : ClientID} {obj : Client} {target : String}
    (hobj : h.registry.client? c = some obj) (hne : target ≠ obj.normalizedCode)
    (hactive : h.registry.active? target = some t) : c ≠ t := by
  obtain ⟨-, o, hto, hcode⟩ := hs.active target t hactive
  rintro rfl
  obtain rfl := Option.some_injective _ (hobj.symm.trans hto)
  exact hne hcode.symm

theorem marks_relay (platform : Platform) (hs : Sound h.registry) (env : Env) {a : Attempt}
    (hv : a.Valid h) : Marks h.db.chat (a.relay platform env h).db.chat := by
  cases hv with
  | chat => exact marks_relayChat env _ _ _ _
  | @privateChat c obj target tracking message hc hobj hvalid htarget hne ht hid hcode hto hcontent
      hcrypto hstate =>
    change Marks h.db.chat (h.routePrivate env c obj target tracking message).db.chat
    unfold routePrivate
    split
    · exact marks_savePrivateOffline env c obj target tracking hcontent
    · rename_i t hactive
      exact marks_relayPrivate env obj target tracking _ hc (hs.active target t hactive).1
        (ne_of_active hs hobj hne hactive)

end Hub

end LanChat
