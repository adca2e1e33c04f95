import LanChat.Hub.ChatLog

/-!
# Who can recall a stored message

`MessageRecords` and the `UPDATE` of `MarkMessageRecalled` go by the message id alone, while a
stored row is known by its sender and conversation too.  Hence a recall that is granted to the
author on record marks every row under the id.

* `RecallsAuthorized`: an event recalls a row only for an administrator or the row's own sender;
* `recalls_authorized`: it holds along every run in which no recall is granted to a
  non-administrator under an id that two users share;
* `shared_id_recalled_by_other_sender`: it fails when two users chat under the same id.
-/

namespace LanChat

namespace Hub

open GoStrings Registry ChatStore EventMachine

variable {h k : Hub}

/-- The row is not recalled in the first Hub and recalled in the second. -/
def Flips (h k : Hub) (row : ChatRow) : Prop :=
  row ∈ h.db.chat.messages.rows ∧ row.recalled = false ∧
    ∃ row' ∈ k.db.chat.messages.rows, row'.id = row.id ∧ row'.recalled = true

/-- The event is a recall request of an administrator or of the sender of the row. -/
def AuthorizedRecall (h : Hub) (e : Event) (row : ChatRow) : Prop :=
  ∃ c obj m, FrameOf h e c obj m ∧ m.type = .adminAction ∧ m.content = "recall" ∧
    (obj.isAdmin = true ∨ obj.normalizedCode = row.senderCode)

/-- The event recalls only rows that its sender may recall. -/
def RecallsAuthorized (platform : Platform) (h : Hub) (e : Event) : Prop :=
  ∀ row, Flips h (step platform h e) row → AuthorizedRecall h e row

/-- The stored rows under the message id and the record in memory name one user. -/
def OneSender (h : Hub) (messageID : String) : Prop :=
  ∃ code, (∀ row ∈ h.db.chat.messages.rows, row.messageID = messageID → row.senderCode = code) ∧
    ∀ record, h.messageRecords.lookup messageID = some record → record.authorCode = code

/-- A recall that the event grants to a non-administrator is under an id of one user. -/
def RecallsOneSender (h : Hub) (e : Event) : Prop :=
  ∀ c obj m, FrameOf h e c obj m → m.type = .adminAction → m.content = "recall" →
    obj.isAdmin = false → MayRecall h e.env obj m.messageID → OneSender h m.messageID

/-- What every run keeps about the stored rows. -/
structure ChatInv (h : Hub) : Prop where
  sound : Sound h.registry
  ordered : Ordered h.db.chat
  lower : ∀ row ∈ h.db.chat.messages.rows, asciiLower row.senderCode = row.senderCode

theorem chatInv_start (adminCode : String) (offlineStore : Bool) :
    ChatInv (start adminCode offlineStore) :=
  ⟨sound_start adminCode offlineStore, ordered_empty, by
    simp [start, boot, Database.empty, ChatStore.empty]⟩

theorem chatInv_step (platform : Platform) (h : Hub) (e : Event) (hi : ChatInv h) :
    ChatInv (step platform h e) := by
  have hgrow := step_grows platform hi.sound e
  refine ⟨sound_step platform h e hi.sound, hgrow.ordered hi.ordered, fun row hrow => ?_⟩
  obtain ⟨base, hbase, hfix, -⟩ := hgrow.origin row hrow
  rw [ChatRow.fixed_senderCode hfix]
  rcases hbase with hbase | ⟨message, i, -, hcheck, heq, -, -⟩
  · exact hi.lower base hbase
  · have hcode := (checkChatMessage_ok hcheck).1
    rw [heq]
    change asciiLower i.senderCode = i.senderCode
    rw [(normalizeUserCode_eq_ok.1 hcode).2, asciiLower_asciiLower]

/-- With one user under the id, who may recall is that user or an administrator. -/
theorem MayRecall.sender (hi : ChatInv h) {env : Env} {obj : Client} {messageID : String}
    (hmay : MayRecall h env obj messageID) (hadmin : obj.isAdmin = false)
    (hone : OneSender h messageID) {row : ChatRow} (hrow : row ∈ h.db.chat.messages.rows)
    (hid : row.messageID = messageID) : obj.normalizedCode = row.senderCode := by
  obtain ⟨record, hrecord, hauthor⟩ := hmay
  obtain ⟨code, hrows, hrecords⟩ := hone
  rw [hrows row hrow hid]
  rcases hauthor with hauthor | hauthor
  · rw [hadmin] at hauthor
    cases hauthor
  rw [hauthor]
  unfold recordForRecall at hrecord
  split at hrecord
  · cases hrecord
    exact hrecords _ (by assumption)
  -- without a record in memory the newest stored row names the author
  split at hrecord
  · split at hrecord
    · rename_i stored hstored
      cases hrecord
      replace hstored := (call_eq_ok.1 hstored).2
      unfold getStoredMessage at hstored
      split at hstored
      · rename_i hfound
        cases hstored
        have hmem := List.mem_reverse.1 (List.mem_of_find?_eq_some hfound)
        have hsame := List.find?_some hfound
        exact (hi.lower _ hmem).trans (hrows _ hmem (beq_iff_eq.1 hsame))
      · cases hstored
    · cases hrecord
  · cases hrecord

theorem recallsAuthorized_step (platform : Platform) (h : Hub) (e : Event) (hi : ChatInv h)
    (hone : RecallsOneSender h e) : RecallsAuthorized platform h e := by
  rintro row ⟨hrow, hfresh, row', hrow', hid, hrecalled⟩
  obtain ⟨base, hbase, hfix, hrec⟩ := (step_grows platform hi.sound e).origin row' hrow'
  have hbaseid : base.id = row.id := (ChatRow.fixed_id hfix).symm.trans hid
  rcases hbase with hbase | ⟨_, _, -, -, -, hlt, -⟩
  · obtain rfl := hi.ordered.eq_of_id hbase hrow hbaseid
    rcases hrec with hrec | ⟨⟨c, obj, m, hframe, ht, haction, hm, hmay⟩, -⟩
    · rw [hrecalled, hfresh] at hrec
      cases hrec
    · refine ⟨c, obj, m, hframe, ht, haction, ?_⟩
      cases hadmin : obj.isAdmin with
      | true => exact .inl rfl
      | false =>
        have hone' := hone c obj m hframe ht haction hadmin (hm ▸ hmay)
        rw [hm] at hone'
        exact .inr (hmay.sender hi hadmin hone' hrow (ChatRow.fixed_messageID hfix).symm)
  · -- a fresh row has a larger id than any stored one
    have hle := hi.ordered.le_last row hrow
    omega

/-- Along every run in which no recall is granted to a non-administrator under an id that two
users share, rows are recalled only for administrators and their own senders. -/
theorem recalls_authorized (platform : Platform) (adminCode : String) (offlineStore : Bool)
    (es : List Event)
    (hrun : Along (step platform) RecallsOneSender (start adminCode offlineStore) es) :
    Along (step platform) (RecallsAuthorized platform) (start adminCode offlineStore) es :=
  along_of_invariant (step platform) (fun s e _ => chatInv_step platform s e)
    (recallsAuthorized_step platform) (chatInv_start adminCode offlineStore) hrun

/-- Alice chats under the id `m1` and recalls it. -/
def ownRecall : List Event :=
  sessionEvents 0 "Alice" "alice" ++
    [frameEvent 0 { type := .chat, messageID := "m1", content := "hello" },
      frameEvent 0 { type := .adminAction, messageID := "m1", content := "recall" }]

theorem recalls_authorized_own_recall :
    Along (step samplePlatform) (RecallsAuthorized samplePlatform) (start "" true) ownRecall := by
  refine recalls_authorized samplePlatform "" true ownRecall ?_
  have hother : ∀ (h : Hub) (e : Event), (∀ c m limited muted, e.input = .frame c m limited muted →
      m.type ≠ .adminAction) → RecallsOneSender h e := by
    rintro h e hne c obj m ⟨⟨limited, muted, he⟩, -⟩ ht
    exact absurd ht (hne c m limited muted he)
  refine ⟨hother _ _ ?_, hother _ _ ?_, hother _ _ ?_, hother _ _ ?_, ?_, trivial⟩
  · rintro c m limited muted ⟨⟩
  · rintro c m limited muted ⟨⟩
  · rintro c m limited muted ⟨⟩
  · rintro c m limited muted ⟨⟩
    decide
  · rintro c obj m ⟨⟨limited, muted, ⟨⟩⟩, -⟩ - - - -
    refine ⟨"alice", ?_, ?_⟩
    · decide +kernel
    · intro record hrecord
      have hstored : (run (step samplePlatform) (start "" true)
          (ownRecall.take 4)).messageRecords.lookup "m1" = some ⟨"alice", ["alice"], "", false⟩ := by
        decide +kernel
      cases hstored.symm.trans hrecord
      rfl

/-- Alice and Bob chat in the lobby under the same id, and Bob recalls it. -/
def sharedIDRecall : List Event :=
  sessionEvents 0 "Alice" "alice" ++ sessionEvents 1 "Bob" "bob" ++
    [frameEvent 0 { type := .chat, messageID := "m1", content := "hello" },
      frameEvent 1 { type := .chat, messageID := "m1", content := "hi" }]

/-- The row of Alice's chat. -/
def aliceRow : ChatRow :=
  { id := 1, messageID := "m1", kind := .room, conversationKey := "lobby", room := "lobby"
    senderUsername := "Alice", senderCode := "alice", targetCode := "", content := "hello"
    crypto := "", deliveryState := "delivered", createdAt := "1970-01-01T00:00:00Z"
    recalled := false }

theorem shared_id_recalled_by_other_sender :
    ¬ ∀ (platform : Platform) (adminCode : String) (offlineStore : Bool) (es : List Event),
      Along (step platform) (RecallsAuthorized platform) (start adminCode offlineStore) es := by
  intro hclaim
  let recalling := frameEvent 1 { type := .adminAction, messageID := "m1", content := "recall" }
  have hlast := (hclaim samplePlatform "" true (sharedIDRecall ++ [recalling])).append.2.1
  have hflip : Flips (run (step samplePlatform) (start "" true) sharedIDRecall)
      (step samplePlatform (run (step samplePlatform) (start "" true) sharedIDRecall)
        recalling)
      aliceRow := by
    refine ⟨by decide +kernel, rfl, { aliceRow with recalled := true }, by decide +kernel, rfl, rfl⟩
  obtain ⟨c, obj, m, ⟨⟨limited, muted, ⟨⟩⟩, hobj⟩, -, -, hauth⟩ := hlast aliceRow hflip
  have hbob : ((run (step samplePlatform) (start "" true) sharedIDRecall).registry.client? 1).any
      (fun o => o.isAdmin || o.normalizedCode == "alice") = false := by decide +kernel
  rw [hobj] at hbob
  rcases hauth with hauth | hauth
  · simp [hauth] at hbob
  · have hcode : obj.normalizedCode = "alice" := hauth
    simp [hcode] at hbob

end Hub

end LanChat
