import LanChat.Store.Chat
import Mathlib.Data.List.Nodup

/-!
# What the chat operations do to `chat_messages`

* `Ordered`: row ids increase along the table and are at most `lastID`, so no id is used twice;
* `Grows posts recalls s s'`: every row of `s'` is a row of `s` or the fresh row of a message in
  `posts`, and only rows whose message id is in `recalls` have been recalled in between.

Every operation has one lemma in these terms.
-/

namespace LanChat

open GoStrings

/-- The columns of a row that no statement changes. -/
def ChatRow.fixed (r : ChatRow) : ChatRow := { r with deliveryState := "", recalled := false }

theorem ChatRow.fixed_id {a b : ChatRow} (h : a.fixed = b.fixed) : a.id = b.id := by
  simpa [ChatRow.fixed] using congrArg ChatRow.id h

theorem ChatRow.fixed_messageID {a b : ChatRow} (h : a.fixed = b.fixed) :
    a.messageID = b.messageID := by
  simpa [ChatRow.fixed] using congrArg ChatRow.messageID h

theorem ChatRow.fixed_senderCode {a b : ChatRow} (h : a.fixed = b.fixed) :
    a.senderCode = b.senderCode := by
  simpa [ChatRow.fixed] using congrArg ChatRow.senderCode h

theorem ChatRow.fixed_targetCode {a b : ChatRow} (h : a.fixed = b.fixed) :
    a.targetCode = b.targetCode := by
  simpa [ChatRow.fixed] using congrArg ChatRow.targetCode h

theorem ChatRow.fixed_kind {a b : ChatRow} (h : a.fixed = b.fixed) : a.kind = b.kind := by
  simpa [ChatRow.fixed] using congrArg ChatRow.kind h

theorem ChatRow.fixed_conversationKey {a b : ChatRow} (h : a.fixed = b.fixed) :
    a.conversationKey = b.conversationKey := by
  simpa [ChatRow.fixed] using congrArg ChatRow.conversationKey h

theorem ChatRow.fixed_key {a b : ChatRow} (h : a.fixed = b.fixed) : a.key = b.key := by
  unfold ChatRow.key
  rw [fixed_senderCode h, fixed_conversationKey h, fixed_messageID h]

namespace ChatStore

variable {s s' s'' : ChatStore} {posts posts' : Message → Prop} {recalls recalls' : String → Prop}

/-- Row ids increase along the table and are at most `lastID`. -/
structure Ordered (s : ChatStore) : Prop where
  pairwise : s.messages.rows.Pairwise fun a b => a.id < b.id
  le_last : ∀ row ∈ s.messages.rows, row.id ≤ s.lastID

theorem ordered_empty : Ordered empty := ⟨List.Pairwise.nil, by simp [empty]⟩

/-- A row is known by its id. -/
theorem Ordered.eq_of_id (ho : Ordered s) {a b : ChatRow} (ha : a ∈ s.messages.rows)
    (hb : b ∈ s.messages.rows) (hid : a.id = b.id) : a = b := by
  have hnodup : (s.messages.rows.map ChatRow.id).Nodup :=
    List.pairwise_map.2 (ho.pairwise.imp fun h => Nat.ne_of_lt h)
  exact List.inj_on_of_nodup_map hnodup ha hb hid

/-- A checked message has the identity that the check found. -/
theorem identity_of_check {message : Message} {i : ChatIdentity}
    (hcheck : checkChatMessage message = .ok i) : chatMessageIdentity message = .ok i := by
  unfold checkChatMessage at hcheck
  obtain ⟨_, -, hcheck⟩ := bind_eq_ok.1 hcheck
  obtain ⟨_, -, hcheck⟩ := bind_eq_ok.1 hcheck
  dsimp only at hcheck
  split at hcheck
  · obtain ⟨_, -, hident⟩ := bind_eq_ok.1 hcheck
    exact hident
  · obtain ⟨_, -, hident⟩ := bind_eq_ok.1 hcheck
    exact hident

/-- The sender, the kind and the conversation of a checked message. -/
theorem checkChatMessage_ok {message : Message} {i : ChatIdentity}
    (hcheck : checkChatMessage message = .ok i) :
    normalizeUserCode message.userCode = .ok i.senderCode ∧
      ((message.type = .privateChat ∧ i.kind = .privateChat) ∨
        (message.type ≠ .privateChat ∧ validateRoomName message.room = .ok () ∧
          i.kind = .room ∧ i.conversationKey = message.room)) := by
  have hident := identity_of_check hcheck
  unfold chatMessageIdentity at hident
  obtain ⟨sender, hsender, hident⟩ := bind_eq_ok.1 hident
  split at hident
  · rename_i ht
    obtain ⟨target, -, hident⟩ := bind_eq_ok.1 hident
    cases hident
    exact ⟨hsender, .inl ⟨ht, rfl⟩⟩
  · rename_i ht
    obtain ⟨_, hroom, hident⟩ := bind_eq_ok.1 hident
    cases hident
    exact ⟨hsender, .inr ⟨ht, hroom, rfl, rfl⟩⟩

/-- The row of a message in `posts`, inserted between `s` and `s'`. -/
def Posted (posts : Message → Prop) (s s' : ChatStore) (row : ChatRow) : Prop :=
  ∃ message i, posts message ∧ checkChatMessage message = .ok i ∧
    row = chatRow row.id i message ∧ s.lastID < row.id ∧ row.id ≤ s'.lastID

/-- The conversation has a row. -/
def HasRows (s : ChatStore) (kind : ChatKind) (conversationKey : String) : Prop :=
  ∃ row ∈ s.messages.rows, row.inConversation kind conversationKey = true

/-- Rows come from rows or from `posts`, only ids in `recalls` are recalled, and no conversation
loses its last row. -/
structure Grows (posts : Message → Prop) (recalls : String → Prop) (s s' : ChatStore) : Prop where
  last_le : s.lastID ≤ s'.lastID
  origin : ∀ row ∈ s'.messages.rows, ∃ base, (base ∈ s.messages.rows ∨ Posted posts s s' base) ∧
    row.fixed = base.fixed ∧
    (row.recalled = base.recalled ∨ (recalls row.messageID ∧ row.recalled = true))
  ordered : Ordered s → Ordered s'
  kept : ∀ kind key, s.HasRows kind key → s'.HasRows kind key

theorem Grows.refl (s : ChatStore) : Grows posts recalls s s :=
  ⟨Nat.le_refl _, fun row hrow => ⟨row, .inl hrow, rfl, .inl rfl⟩, id, fun _ _ h => h⟩

theorem Grows.trans (h : Grows posts recalls s s') (h' : Grows posts recalls s' s'') :
    Grows posts recalls s s'' := by
  refine ⟨Nat.le_trans h.last_le h'.last_le, fun row hrow => ?_,
    fun ho => h'.ordered (h.ordered ho), fun kind key hs => h'.kept kind key (h.kept kind key hs)⟩
  obtain ⟨mid, hmid, hfix, hrec⟩ := h'.origin row hrow
  rcases hmid with hmid | ⟨message, i, hpost, hcheck, heq, hlt, hle⟩
  · obtain ⟨base, hbase, hfix', hrec'⟩ := h.origin mid hmid
    refine ⟨base, ?_, hfix.trans hfix', ?_⟩
    · refine hbase.imp_right ?_
      rintro ⟨message, i, hpost, hcheck, heq, hlt, hle⟩
      exact ⟨message, i, hpost, hcheck, heq, hlt, Nat.le_trans hle h'.last_le⟩
    · rcases hrec with hrec | hrec
      · rw [hrec, ChatRow.fixed_messageID hfix]
        exact hrec'
      · exact .inr hrec
  · exact ⟨mid, .inr ⟨message, i, hpost, hcheck, heq, Nat.lt_of_le_of_lt h.last_le hlt, hle⟩, hfix, hrec⟩

theorem Grows.mono (hposts : ∀ m, posts m → posts' m) (hrecalls : ∀ id, recalls id → recalls' id)
    (h : Grows posts recalls s s') : Grows posts' recalls' s s' := by
  refine ⟨h.last_le, fun row hrow => ?_, h.ordered, h.kept⟩
  obtain ⟨base, hbase, hfix, hrec⟩ := h.origin row hrow
  refine ⟨base, hbase.imp_right ?_, hfix, hrec.imp_right fun h => ⟨hrecalls _ h.1, h.2⟩⟩
  rintro ⟨message, i, hpost, hrest⟩
  exact ⟨message, i, hposts message hpost, hrest⟩

/-- The other tables do not count. -/
theorem grows_of_eq (hmessages : s'.messages = s.messages) (hlast : s'.lastID = s.lastID) :
    Grows posts recalls s s' := by
  refine ⟨by rw [hlast], fun row hrow => ?_, fun ho => ⟨?_, ?_⟩, fun kind key hs => ?_⟩
  · rw [hmessages] at hrow
    exact ⟨row, .inl hrow, rfl, .inl rfl⟩
  · rw [hmessages]
    exact ho.pairwise
  · rw [hmessages, hlast]
    exact ho.le_last
  · unfold HasRows
    rw [hmessages]
    exact hs

/-- The newest row of a conversation is among those that the prune statement keeps. -/
theorem exists_keptIDs {row : ChatRow} {kind : ChatKind} {key : String}
    (hrow : row ∈ s.messages.rows) (hin : row.inConversation kind key = true) :
    ∃ newest ∈ s.messages.rows, newest.inConversation kind key = true ∧
      newest.id ∈ keptIDs s.messages.rows kind key := by
  have hmem : row ∈ s.messages.rows.filter fun r => r.inConversation kind key :=
    List.mem_filter.2 ⟨hrow, hin⟩
  rcases List.eq_nil_or_concat (s.messages.rows.filter fun r => r.inConversation kind key) with
    hnil | ⟨older, newest, hlast⟩
  · rw [hnil] at hmem
    cases hmem
  · rw [List.concat_eq_append] at hlast
    have hnewest : newest ∈ s.messages.rows.filter fun r => r.inConversation kind key := by
      rw [hlast]
      exact List.mem_append_right _ (List.mem_singleton.2 rfl)
    obtain ⟨hnewest, hnewin⟩ := List.mem_filter.1 hnewest
    refine ⟨newest, hnewest, hnewin, ?_⟩
    unfold keptIDs
    rw [hlast]
    simp [maxHistoryRowsPerConversation]

theorem hasRows_prune (kind : ChatKind) (key : String) {kind' : ChatKind} {key' : String}
    (hs : s.HasRows kind' key') : (s.prune kind key).HasRows kind' key' := by
  obtain ⟨row, hrow, hin⟩ := hs
  by_cases hpruned : row.inConversation kind key = true
  · -- the conversation is the one that is pruned: its newest row stays
    obtain ⟨rfl, rfl⟩ : kind' = kind ∧ key' = key := by
      simp only [ChatRow.inConversation, Bool.and_eq_true, beq_iff_eq] at hin hpruned
      exact ⟨hin.1.symm.trans hpruned.1, hin.2.symm.trans hpruned.2⟩
    obtain ⟨newest, hnewest, hnewin, hid⟩ := exists_keptIDs hrow hin
    exact ⟨newest, List.mem_filter.2 ⟨hnewest, by simp [hid]⟩, hnewin⟩
  · refine ⟨row, List.mem_filter.2 ⟨hrow, ?_⟩, hin⟩
    simp [hpruned]

theorem grows_prune (kind : ChatKind) (key : String) :
    Grows posts recalls s (s.prune kind key) := by
  refine ⟨Nat.le_refl _, fun row hrow => ⟨row, .inl ?_, rfl, .inl rfl⟩, fun ho => ⟨?_, ?_⟩,
    fun _ _ => hasRows_prune kind key⟩
  · exact List.mem_of_mem_filter hrow
  · exact ho.pairwise.filter _
  · exact fun row hrow => ho.le_last row (List.mem_of_mem_filter hrow)

/-- An update that keeps the fixed columns and recalls only what `recalls` names. -/
theorem grows_modify {p : ChatRow → Bool} {f : ChatRow → ChatRow}
    {hf : KeepsKey (Table.keyClash ChatRow.key) f} (hfix : ∀ r, (f r).fixed = r.fixed)
    (hrec : ∀ r, p r = true → (f r).recalled = r.recalled ∨
      (recalls r.messageID ∧ (f r).recalled = true)) :
    Grows posts recalls s { s with messages := s.messages.modify p f hf } := by
  have hid : ∀ r, (if p r = true then f r else r).id = r.id := by
    intro r
    split_ifs
    · exact ChatRow.fixed_id (hfix r)
    · rfl
  have hin : ∀ r kind key, (if p r = true then f r else r).inConversation kind key =
      r.inConversation kind key := by
    intro r kind key
    split_ifs
    · simp only [ChatRow.inConversation, ChatRow.fixed_kind (hfix r),
        ChatRow.fixed_conversationKey (hfix r)]
    · rfl
  refine ⟨Nat.le_refl _, fun row hrow => ?_, fun ho => ⟨?_, ?_⟩, fun kind key hs => ?_⟩
  · rw [Table.rows_modify] at hrow
    obtain ⟨base, hbase, rfl⟩ := List.mem_map.1 hrow
    refine ⟨base, .inl hbase, ?_, ?_⟩
    · split_ifs
      · exact hfix base
      · rfl
    · split_ifs with h
      · rw [ChatRow.fixed_messageID (hfix base)]
        exact hrec base h
      · exact .inl rfl
  · change (s.messages.modify p f hf).rows.Pairwise _
    rw [Table.rows_modify, List.pairwise_map]
    exact ho.pairwise.imp fun h => by rwa [hid, hid]
  · intro row hrow
    have hrow' : row ∈ (s.messages.modify p f hf).rows := hrow
    rw [Table.rows_modify] at hrow'
    obtain ⟨base, hbase, rfl⟩ := List.mem_map.1 hrow'
    rw [hid]
    exact ho.le_last base hbase
  · obtain ⟨row, hrow, hrowin⟩ := hs
    exact ⟨_, List.mem_map_of_mem hrow, (hin row kind key).trans hrowin⟩

theorem grows_saveChatMessageIfNew {pruneFails : Bool} {message : Message} (hpost : posts message) :
    Grows posts recalls s (s.saveChatMessageIfNew pruneFails message).2 := by
  unfold saveChatMessageIfNew
  cases hcheck : checkChatMessage message with
  | error e => exact Grows.refl s
  | ok i =>
    dsimp only
    cases hins : s.messages.insert? (chatRow (s.lastID + 1) i message) with
    | none => exact Grows.refl s
    | some messages =>
      have hrows := Table.rows_of_insert? hins
      have hstored : Grows posts recalls s { s with messages, lastID := s.lastID + 1 } := by
        refine ⟨Nat.le_succ _, fun row hrow => ?_, fun ho => ⟨?_, ?_⟩, fun kind key hs => ?_⟩
        · rw [show ({ s with messages, lastID := s.lastID + 1 } : ChatStore).messages.rows =
            messages.rows from rfl, hrows] at hrow
          refine ⟨row, ?_, rfl, .inl rfl⟩
          rcases List.mem_append.1 hrow with hrow | hrow
          · exact .inl hrow
          · obtain rfl := List.mem_singleton.1 hrow
            exact .inr ⟨message, i, hpost, hcheck, rfl, Nat.lt_succ_self _, Nat.le_refl _⟩
        · change messages.rows.Pairwise _
          rw [hrows, List.pairwise_append]
          refine ⟨ho.pairwise, List.pairwise_singleton _ _, fun a ha b hb => ?_⟩
          obtain rfl := List.mem_singleton.1 hb
          exact Nat.lt_succ_of_le (ho.le_last a ha)
        · intro row hrow
          have hrow' : row ∈ messages.rows := hrow
          rw [hrows] at hrow'
          rcases List.mem_append.1 hrow' with hrow' | hrow'
          · exact Nat.le_succ_of_le (ho.le_last row hrow')
          · obtain rfl := List.mem_singleton.1 hrow'
            exact Nat.le_refl _
        · obtain ⟨row, hrow, hin⟩ := hs
          refine ⟨row, ?_, hin⟩
          change row ∈ messages.rows
          rw [hrows]
          exact List.mem_append_left _ hrow
      dsimp only
      split_ifs
      · exact hstored
      · exact hstored.trans (grows_prune _ _)

/-- A new delivery state is written into the rows of the message. -/
theorem updateDeliveryState_eq_ok {message : Message} {deliveryState : String}
    (hk : s.updateChatMessageDeliveryStateForMessage message deliveryState = .ok s') :
    ∃ i, chatMessageIdentity message = .ok i ∧ s' = { s with
      messages := s.messages.modify
        (fun r => r.messageID == message.messageID &&
          r.inConversation i.kind i.conversationKey && r.senderCode == i.senderCode)
        (fun r => { r with deliveryState }) (Table.keepsKey_keyClash fun _ => rfl) } := by
  unfold updateChatMessageDeliveryStateForMessage at hk
  obtain ⟨_, -, hk⟩ := bind_eq_ok.1 hk
  obtain ⟨i, hi, hk⟩ := bind_eq_ok.1 hk
  exact ⟨i, hi, (Except.ok.inj hk).symm⟩

theorem grows_updateDeliveryState {message : Message} {state : String}
    (hk : s.updateChatMessageDeliveryStateForMessage message state = .ok s') :
    Grows posts recalls s s' := by
  obtain ⟨i, -, rfl⟩ := updateDeliveryState_eq_ok hk
  exact grows_modify (fun _ => rfl) fun _ _ => .inl rfl

/-- A mark that succeeds sets the flag of the rows with the id. -/
theorem markMessageRecalled_eq_ok {messageID : String}
    (hk : s.markMessageRecalled messageID = .ok s') :
    s' = { s with
      messages := s.messages.modify (fun r => r.messageID == messageID)
        (fun r => { r with recalled := true }) (Table.keepsKey_keyClash fun _ => rfl) } := by
  unfold markMessageRecalled at hk
  split_ifs at hk
  exact (Except.ok.inj hk).symm

theorem grows_markMessageRecalled {messageID : String} (hrec : recalls messageID)
    (hk : s.markMessageRecalled messageID = .ok s') : Grows posts recalls s s' := by
  obtain rfl := markMessageRecalled_eq_ok hk
  refine grows_modify (fun _ => rfl) fun r hr => .inr ⟨?_, rfl⟩
  rw [beq_iff_eq.1 hr]
  exact hrec

/-- A login writes the accounts only. -/
theorem ensureIdentity_eq_ok {username userCode : String} {a : Account}
    (hk : s.ensureIdentity username userCode = .ok (a, s')) :
    ∃ accounts, s' = { s with accounts } := by
  unfold ensureIdentity at hk
  obtain ⟨_, -, hk⟩ := bind_eq_ok.1 hk
  split at hk
  · obtain ⟨_, -, hk⟩ := bind_eq_ok.1 hk
    cases hk
    exact ⟨s.accounts, rfl⟩
  · split at hk
    · cases hk
      exact ⟨_, rfl⟩
    · cases hk

theorem grows_saveOfflineMessage (pruneFails : Bool) (targetCode : String) (message : Message) :
    Grows posts recalls s (s.saveOfflineMessage pruneFails targetCode message).2 := by
  unfold saveOfflineMessage
  split
  · exact Grows.refl s
  split
  · exact Grows.refl s
  split_ifs
  · exact grows_of_eq rfl rfl
  · exact grows_of_eq rfl rfl

theorem deleteOfflineMessage_eq_ok {messageID : String}
    (hk : s.deleteOfflineMessage messageID = .ok s') :
    s' = { s with offline := s.offline.delete fun r => r.messageID == messageID } := by
  unfold deleteOfflineMessage at hk
  obtain ⟨_, -, hk⟩ := bind_eq_ok.1 hk
  exact (Except.ok.inj hk).symm

theorem grows_deleteOfflineMessage {messageID : String}
    (hk : s.deleteOfflineMessage messageID = .ok s') : Grows posts recalls s s' := by
  obtain rfl := deleteOfflineMessage_eq_ok hk
  exact grows_of_eq rfl rfl

/-- A private query is about the conversation of its two codes. -/
theorem queryConversation_private {q : HistoryQuery} {kind : ChatKind} {key : String}
    (hprivate : q.isPrivate = true) (hquery : queryConversation q = .ok (kind, key)) :
    kind = .privateChat ∧ ∃ user peer, normalizeUserCode q.userCode = .ok user ∧
      normalizeUserCode q.peerCode = .ok peer ∧ key = privateConversationKey user peer := by
  unfold queryConversation at hquery
  obtain ⟨user, huser, hquery⟩ := bind_eq_ok.1 hquery
  obtain ⟨_, -, hquery⟩ := bind_eq_ok.1 hquery
  rw [if_pos hprivate] at hquery
  obtain ⟨peer, hpeer, hquery⟩ := bind_eq_ok.1 hquery
  cases hquery
  exact ⟨rfl, user, peer, huser, hpeer, rfl⟩

/-- A query without a peer is about its room. -/
theorem queryConversation_public {q : HistoryQuery} {kind : ChatKind} {key : String}
    (hroom : q.isPrivate = false) (hquery : queryConversation q = .ok (kind, key)) :
    kind = .room ∧ key = q.room := by
  unfold queryConversation at hquery
  obtain ⟨user, -, hquery⟩ := bind_eq_ok.1 hquery
  obtain ⟨_, -, hquery⟩ := bind_eq_ok.1 hquery
  rw [if_neg (by simp [hroom])] at hquery
  obtain ⟨_, -, hquery⟩ := bind_eq_ok.1 hquery
  cases hquery
  exact ⟨rfl, rfl⟩

end ChatStore

end LanChat
