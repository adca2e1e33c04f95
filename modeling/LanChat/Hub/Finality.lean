import LanChat.Hub.ChatLog

/-!
# Finality of a recall

Whether a message is recalled is kept in its in-memory record; the record that is rebuilt from
storage is never marked recalled and names no offline copy.

* `Records fresh h k`: records and offline rows of `k` are those of `h` but for messages recorded
  under the ids in `fresh`;
* `RecordStep`: what an event does to records and offline rows;
* `Trace.Final`: after a recall no other one succeeds under its id, and what is taken from the
  offline queue under the id was sent later;
* `Trace.Remembered`: between a recall and a later request under its id there is no restart and no
  new message under the id, and a recalled message's offline copy is the one its record names;
* `Trace.final_of_remembered`, and `Trace.recall_undone_by_restart` without the condition.
-/

namespace LanChat

namespace Hub

open GoStrings Registry ChatStore EventMachine

variable {h k l : Hub} {fresh : String → Prop}

/-! ### Records and offline rows -/

/-- The id has a record that is not recalled. -/
def HasFresh (h : Hub) (messageID : String) : Prop :=
  ∃ record, h.messageRecords.lookup messageID = some record ∧ record.recalled = false

/-- Records and offline rows change only under ids in `fresh`, which then have a record that is not
recalled. -/
structure Records (fresh : String → Prop) (h k : Hub) : Prop where
  record : ∀ x, k.messageRecords.lookup x = h.messageRecords.lookup x ∨ (fresh x ∧ k.HasFresh x)
  offline : ∀ row ∈ k.db.chat.offline.rows, row ∈ h.db.chat.offline.rows ∨
    (fresh row.messageID ∧ k.HasFresh row.messageID ∧ k.offlineStore = true)
  store : k.offlineStore = h.offlineStore

theorem Records.of_eq (hrecords : k.messageRecords = h.messageRecords)
    (hoffline : ∀ row ∈ k.db.chat.offline.rows, row ∈ h.db.chat.offline.rows)
    (hstore : k.offlineStore = h.offlineStore) : Records fresh h k :=
  ⟨fun _ => .inl (by rw [hrecords]), fun row hrow => .inl (hoffline row hrow), hstore⟩

theorem Records.refl (h : Hub) : Records fresh h h := .of_eq rfl (fun _ hrow => hrow) rfl

theorem HasFresh.of_records (hr : Records fresh h k) {x : String} (hx : h.HasFresh x) :
    k.HasFresh x := by
  rcases hr.record x with hsame | ⟨-, hfresh⟩
  · obtain ⟨record, hrecord, hopen⟩ := hx
    exact ⟨record, hsame.trans hrecord, hopen⟩
  · exact hfresh

theorem Records.trans (hr : Records fresh h k) (hr' : Records fresh k l) : Records fresh h l where
  record x := by
    rcases hr'.record x with hsame | hfresh
    · rcases hr.record x with hsame' | ⟨hx, hfresh⟩
      · exact .inl (hsame.trans hsame')
      · exact .inr ⟨hx, hfresh.of_records hr'⟩
    · exact .inr hfresh
  offline row hrow := by
    rcases hr'.offline row hrow with hrow | hfresh
    · rcases hr.offline row hrow with hrow | ⟨hx, hfresh, hstore⟩
      · exact .inl hrow
      · exact .inr ⟨hx, hfresh.of_records hr', hr'.store.trans hstore⟩
    · exact .inr hfresh
  store := hr'.store.trans hr.store

theorem Records.of_touches {parts : List Part} {types : List MessageType}
    (a : Touches parts types h k) (hrecords : .records ∉ parts) (hchat : .chat ∉ parts)
    (hconfig : .config ∉ parts) : Records fresh h k := by
  have hsame : k.db.chat = h.db.chat := a.same .chat hchat
  refine .of_eq (a.same .records hrecords) ?_ (a.same .config hconfig).2
  rw [hsame]
  exact fun _ hrow => hrow

/-- A delivery. -/
theorem Records.quiet {types : List MessageType} (a : Touches [] types h k) : Records fresh h k :=
  .of_touches a (by decide) (by decide) (by decide)

theorem records_recordMessage {message : Message} {id : String} (hid : message.messageID = id)
    (recipients : List String) (offlineMessageID : String) :
    Records (· = id) h (h.recordMessage message recipients offlineMessageID) := by
  unfold recordMessage
  split
  · exact Records.refl h
  · refine ⟨fun x => ?_, fun row hrow => .inl hrow, rfl⟩
    by_cases hx : x = message.messageID
    · subst hx
      exact .inr ⟨hid, _, AList.lookup_insert _, rfl⟩
    · exact .inl (AList.lookup_insert_ne hx)

theorem records_saveChatMessage {env : Env} {message : Message} {x : Except GoError Bool}
    (hk : h.saveChatMessage env message = (x, k)) : Records fresh h k := by
  obtain rfl : (h.saveChatMessage env message).2 = k := congrArg Prod.snd hk
  unfold saveChatMessage
  split
  · exact Records.refl h
  refine .of_eq rfl ?_ rfl
  have hsame : (h.db.chat.saveChatMessageIfNew (env.fails .pruneChatMessages) message).2.offline =
      h.db.chat.offline := by
    unfold saveChatMessageIfNew
    split
    · rfl
    split
    · rfl
    · dsimp only
      split <;> rfl
  intro row hrow
  rwa [← hsame]

theorem records_markDelivered {env : Env} {message : Message}
    (hk : h.markDelivered env message = some k) : Records fresh h k := by
  obtain ⟨-, rfl⟩ | ⟨chat, hupdate, rfl⟩ := markDelivered_eq_some hk
  · exact Records.refl k
  · obtain ⟨i, -, rfl⟩ := updateDeliveryState_eq_ok hupdate
    exact .of_eq rfl (fun _ hrow => hrow) rfl

theorem records_answerRetry (env : Env) (sender : Option ClientID) (tracking : Bool)
    (message : Message) : Records fresh h (h.answerRetry env sender tracking message) :=
  .quiet (touches_answerRetry .chat env sender tracking message)

theorem records_relayChat (env : Env) (sender : Option ClientID) (room : String) (tracking : Bool)
    {message : Message} {id : String} (hid : message.messageID = id) :
    Records (· = id) h (h.relayChat env sender room tracking message) := by
  unfold relayChat
  dsimp only
  have hrecord : Records (· = id) h (h.recordMessage message
      (h.registry.recipientCodes (h.registry.roomClients room)) "") := records_recordMessage hid _ _
  generalize h.recordMessage message _ "" = k at hrecord
  generalize deliverToPeers k.registry sender (wireMessage tracking message) _ = delivered
  have htold : Records (· = id) h { k with registry := delivered.1 } :=
    hrecord.trans (.of_eq rfl (fun _ hrow => hrow) rfl)
  split
  · exact htold
  split
  · exact htold
  split
  · exact htold.trans (.of_eq rfl (fun _ hrow => hrow) rfl)
  split
  · exact htold.trans (.of_eq rfl (fun _ hrow => hrow) rfl)
  · rename_i hmark
    exact (htold.trans (records_markDelivered hmark)).trans (.of_eq rfl (fun _ hrow => hrow) rfl)

theorem records_publishChat (platform : Platform) (env : Env) (tracking : Bool)
    {message : Message} {id : String} (hid : message.messageID = id) :
    Records (· = id) h (h.publishChat platform env tracking message) := by
  unfold publishChat
  dsimp only
  split
  · exact records_relayChat env _ _ tracking hid
  split
  · rename_i hsave
    split
    · exact (records_saveChatMessage hsave).trans (.of_eq rfl (fun _ hrow => hrow) rfl)
    · exact records_saveChatMessage hsave
  · rename_i hsave
    exact (records_saveChatMessage hsave).trans (records_answerRetry env _ tracking _)
  · rename_i hsave
    exact (records_saveChatMessage hsave).trans (records_relayChat env _ _ tracking hid)

theorem records_assignMessageID (messageID : String) :
    Records fresh h (h.assignMessageID messageID).2 := by
  unfold assignMessageID
  split
  · exact .of_eq rfl (fun _ hrow => hrow) rfl
  · exact Records.refl h

theorem assignMessageID_ne_empty (messageID : String) : (h.assignMessageID messageID).1 ≠ "" := by
  unfold assignMessageID
  split
  · exact Nat.repr_ne_empty
  · assumption

theorem records_broadcastMessage (platform : Platform) (env : Env) (message : Message) :
    Records (· = (h.assignMessageID message.messageID).1) h
      (h.broadcastMessage platform env message) :=
  (records_assignMessageID message.messageID).trans (records_publishChat platform env _ rfl)

/-! ### Private chats -/

/-- A new offline row is that of the message. -/
theorem mem_saveOfflineMessage {s : ChatStore} {pruneFails : Bool} {targetCode : String}
    {message : Message} {row : OfflineRow}
    (hrow : row ∈ (s.saveOfflineMessage pruneFails targetCode message).2.offline.rows) :
    row ∈ s.offline.rows ∨ row.messageID = message.messageID := by
  unfold ChatStore.saveOfflineMessage at hrow
  split at hrow
  · exact .inl hrow
  split at hrow
  · exact .inl hrow
  rename_i offline hinsert
  have hnew : row ∈ offline.rows → row ∈ s.offline.rows ∨ row.messageID = message.messageID := by
    intro hmem
    rcases (Table.mem_insert? hinsert).1 hmem with hmem | rfl
    · exact .inl hmem
    · exact .inr rfl
  split at hrow
  · exact hnew hrow
  · exact hnew (List.mem_of_mem_filter hrow)

theorem records_saveOfflineMessage {env : Env} {targetCode : String} {message : Message}
    {id : String} {x : Except GoError Unit}
    (hk : h.saveOfflineMessage env targetCode message = (x, k)) (hid : message.messageID = id)
    (hfresh : h.HasFresh id) (hstore : h.offlineStore = true) : Records (· = id) h k := by
  obtain rfl : (h.saveOfflineMessage env targetCode message).2 = k := congrArg Prod.snd hk
  unfold saveOfflineMessage
  split
  · exact Records.refl h
  · refine ⟨fun _ => .inl rfl, fun row hrow => ?_, rfl⟩
    rcases mem_saveOfflineMessage hrow with hrow | hrow
    · exact .inl hrow
    · refine .inr ⟨hrow.trans hid, ?_, hstore⟩
      rw [hrow, hid]
      exact hfresh

theorem hasFresh_recordMessage {message : Message} {id : String} (hid : message.messageID = id)
    (hne : id ≠ "") (recipients : List String) (offlineMessageID : String) :
    (h.recordMessage message recipients offlineMessageID).HasFresh id := by
  subst hid
  unfold recordMessage
  rw [if_neg hne]
  exact ⟨_, AList.lookup_insert _, rfl⟩

theorem records_savePrivateOffline (env : Env) (c : ClientID) (obj : Client) (targetCode : String)
    (tracking : Bool) {message : Message} {id : String} (hid : message.messageID = id)
    (hne : id ≠ "") :
    Records (· = id) h (h.savePrivateOffline env c obj targetCode tracking message) := by
  unfold savePrivateOffline
  split
  · exact .of_eq rfl (fun _ hrow => hrow) rfl
  rename_i hknown
  have hstore : h.offlineStore = true := by
    cases hset : h.offlineStore with
    | false => simp [hset] at hknown
    | true => rfl
  dsimp only
  have hrecord : Records (· = id) h (h.recordMessage message [obj.normalizedCode, targetCode]
      message.messageID) := records_recordMessage hid _ _
  have hfresh : (h.recordMessage message [obj.normalizedCode, targetCode]
      message.messageID).HasFresh id := hasFresh_recordMessage hid hne _ _
  generalize h.recordMessage message _ _ = k at hrecord hfresh
  have hstore' := hrecord.store.trans hstore
  split
  · rename_i hsave
    exact (hrecord.trans (records_saveOfflineMessage hsave hid hfresh hstore')).trans
      (.of_eq rfl (fun _ hrow => hrow) rfl)
  · rename_i hsave
    have hsaved := hrecord.trans (records_saveOfflineMessage hsave hid hfresh hstore')
    split
    · exact hsaved.trans (.of_eq rfl (fun _ hrow => hrow) rfl)
    · exact hsaved.trans (.of_eq rfl (fun _ hrow => hrow) rfl)

theorem records_relayPrivate (env : Env) (c : ClientID) (obj : Client) (target : ClientID)
    (targetCode : String) (tracking : Bool) {message : Message} {id : String}
    (hid : message.messageID = id) :
    Records (· = id) h (h.relayPrivate env c obj target targetCode tracking message) := by
  unfold relayPrivate
  dsimp only
  have hrecord : Records (· = id) h (h.recordMessage message [obj.normalizedCode, targetCode] "") :=
    records_recordMessage hid _ _
  generalize h.recordMessage message _ _ = k at hrecord
  have htold : ∀ r, Records (· = id) h { k with registry := r } := fun _ =>
    hrecord.trans (.of_eq rfl (fun _ hrow => hrow) rfl)
  split
  · exact htold _
  split
  · split
    · exact htold _
    · exact htold _
  · split
    · exact htold _
    · rename_i hmark
      have hmarked := (htold _).trans (records_markDelivered hmark)
      split
      · exact hmarked.trans (.of_eq rfl (fun _ hrow => hrow) rfl)
      · exact hmarked

theorem records_routePrivate (env : Env) (c : ClientID) (obj : Client) (targetCode : String)
    (tracking : Bool) {message : Message} {id : String} (hid : message.messageID = id)
    (hne : id ≠ "") :
    Records (· = id) h (h.routePrivate env c obj targetCode tracking message) := by
  unfold routePrivate
  split
  · exact records_savePrivateOffline env c obj targetCode tracking hid hne
  · exact records_relayPrivate env c obj _ targetCode tracking hid

theorem records_publishPrivate (env : Env) (c : ClientID) (obj : Client) (targetCode : String)
    (tracking : Bool) {message : Message} {id : String} (hid : message.messageID = id)
    (hne : id ≠ "") :
    Records (· = id) h (h.publishPrivate env c obj targetCode tracking message) := by
  unfold publishPrivate
  split
  · exact records_routePrivate env c obj targetCode tracking hid hne
  split
  · rename_i hsave
    exact (records_saveChatMessage hsave).trans (.of_eq rfl (fun _ hrow => hrow) rfl)
  · rename_i hsave
    exact (records_saveChatMessage hsave).trans (records_answerRetry env _ tracking _)
  · rename_i hsave
    exact (records_saveChatMessage hsave).trans (records_routePrivate env c obj _ tracking hid hne)

theorem records_handlePrivateMessage (platform : Platform) (env : Env) (c : ClientID)
    (targetCode content messageID : String) :
    Records (· = (h.assignMessageID messageID).1) h
      (h.handlePrivateMessage platform env c targetCode content messageID) := by
  unfold handlePrivateMessage
  split
  · exact Records.refl h
  split
  · exact Records.refl h
  split
  · exact .of_eq rfl (fun _ hrow => hrow) rfl
  split
  · exact .of_eq rfl (fun _ hrow => hrow) rfl
  split
  · exact .of_eq rfl (fun _ hrow => hrow) rfl
  · exact (records_assignMessageID messageID).trans
      (records_publishPrivate env c _ _ _ rfl (assignMessageID_ne_empty messageID))

/-! ### Recalls -/

/-- The event is a recall request that turns the record under the id into a recalled one. -/
def RecallSucceeds (platform : Platform) (h : Hub) (e : Event) (messageID : String) : Prop :=
  Recalls h e messageID ∧
    (∃ record, h.recordForRecall e.env messageID = some record ∧ record.recalled = false) ∧
    ∃ record, (step platform h e).messageRecords.lookup messageID = some record ∧
      record.recalled = true

/-- The event is a chat or private chat under the id. -/
def Sends (h : Hub) (e : Event) (messageID : String) : Prop :=
  ∃ c obj m, FrameOf h e c obj m ∧ (m.type = .chat ∨ m.type = .privateChat) ∧
    messageID = (h.assignMessageID m.messageID).1

/-- The event is a chat or private chat that leaves a new record under the id. -/
def Publishes (platform : Platform) (h : Hub) (e : Event) (messageID : String) : Prop :=
  Sends h e messageID ∧ (step platform h e).HasFresh messageID

/-- Offline rows only go. -/
def Drains (h k : Hub) : Prop :=
  k.offlineStore = h.offlineStore ∧
    ∀ row ∈ k.db.chat.offline.rows, row ∈ h.db.chat.offline.rows

theorem Drains.refl (h : Hub) : Drains h h := ⟨rfl, fun _ hrow => hrow⟩

theorem Drains.trans (hd : Drains h k) (hd' : Drains k l) : Drains h l :=
  ⟨hd'.1.trans hd.1, fun row hrow => hd.2 row (hd'.2 row hrow)⟩

/-- The offline copy that the record names is gone. -/
theorem removeOfflineCopy_none {env : Env} {record : MessageRecord}
    (hk : h.removeOfflineCopy env record = (none, k)) (hne : record.offlineMessageID ≠ "") :
    ∀ row ∈ k.db.chat.offline.rows, row.messageID ≠ record.offlineMessageID := by
  unfold removeOfflineCopy at hk
  rw [if_neg hne] at hk
  split at hk
  · cases hk
  · rename_i chat hdelete
    obtain rfl := (Prod.mk.inj hk).2
    obtain rfl := deleteOfflineMessage_eq_ok (call_eq_ok.1 hdelete).2
    intro row hrow
    have hkept := (List.mem_filter.1 hrow).2
    simpa using hkept

theorem drains_removeOfflineCopy {env : Env} {record : MessageRecord} {x : Option String}
    (hk : h.removeOfflineCopy env record = (x, k)) :
    Drains h k ∧ k.messageRecords = h.messageRecords := by
  unfold removeOfflineCopy at hk
  split at hk
  · obtain rfl := (Prod.mk.inj hk).2
    exact ⟨Drains.refl h, rfl⟩
  split at hk
  · obtain rfl := (Prod.mk.inj hk).2
    exact ⟨Drains.refl h, rfl⟩
  · rename_i chat hdelete
    obtain rfl := (Prod.mk.inj hk).2
    obtain rfl := deleteOfflineMessage_eq_ok (call_eq_ok.1 hdelete).2
    exact ⟨⟨rfl, fun row hrow => List.mem_of_mem_filter hrow⟩, rfl⟩

/-- What a recall does to the database: offline rows only go, and with a store a recall that
succeeds ends with the removal of the copy. -/
theorem persistRecall_cases {env : Env} {messageID : String} {record : MessageRecord}
    {x : Option String} (hk : h.persistRecall env messageID record = (x, k)) :
    Drains h k ∧ k.messageRecords = h.messageRecords ∧
      (x = none → h.offlineStore = true → record.offlineMessageID ≠ "" →
        ∀ row ∈ k.db.chat.offline.rows, row.messageID ≠ record.offlineMessageID) := by
  unfold persistRecall at hk
  split at hk
  · split at hk
    · rename_i chat hmark
      have hoffline : chat.offline = h.db.chat.offline := by
        rw [markMessageRecalled_eq_ok (call_eq_ok.1 hmark).2]
      have hmarked : Drains h { h with db := { h.db with chat } } :=
        ⟨rfl, fun row hrow => by rwa [← hoffline]⟩
      obtain ⟨hdrains, hrecords⟩ := drains_removeOfflineCopy hk
      refine ⟨hmarked.trans hdrains, hrecords, fun hx _ hne => ?_⟩
      subst hx
      exact removeOfflineCopy_none hk hne
    · obtain ⟨hdrains, hrecords⟩ := drains_removeOfflineCopy hk
      refine ⟨hdrains, hrecords, fun hx _ hne => ?_⟩
      subst hx
      exact removeOfflineCopy_none hk hne
    · obtain ⟨rfl, rfl⟩ := Prod.mk.inj hk
      exact ⟨Drains.refl h, rfl, fun hx => by cases hx⟩
  · rename_i hstore
    obtain ⟨rfl, rfl⟩ := Prod.mk.inj hk
    exact ⟨Drains.refl h, rfl, fun _ hset => absurd hset hstore⟩

/-- The effects of a recall request on records and offline rows. -/
structure Recalled (h k : Hub) (env : Env) (messageID : String) : Prop where
  drains : Drains h k
  other : ∀ x, k.messageRecords.lookup x = h.messageRecords.lookup x ∨
    (x = messageID ∧ ∃ record, h.recordForRecall env messageID = some record ∧
      record.recalled = false ∧
      k.messageRecords.lookup messageID = some { record with recalled := true } ∧
      (h.offlineStore = true → record.offlineMessageID ≠ "" →
        ∀ row ∈ k.db.chat.offline.rows, row.messageID ≠ record.offlineMessageID))

theorem Recalled.quiet {types : List MessageType} (a : Touches [] types h k) (env : Env)
    (messageID : String) : Recalled h k env messageID := by
  have hchat : k.db.chat = h.db.chat := a.same .chat (by decide)
  have hrecords : k.messageRecords = h.messageRecords := a.same .records (by decide)
  refine ⟨⟨(a.same .config (by decide)).2, fun row hrow => ?_⟩, fun x => .inl ?_⟩
  · rwa [hchat] at hrow
  · rw [hrecords]

theorem recalled_handleRecall (env : Env) (c : ClientID) (obj : Client)
    (messageID commandID : String) :
    Recalled h (h.handleRecall env c obj messageID commandID) env messageID := by
  have herror : ∀ text, Recalled h (h.deliverError c text messageID commandID) env messageID :=
    fun text => ⟨⟨rfl, fun _ hrow => hrow⟩, fun _ => .inl rfl⟩
  unfold handleRecall
  split
  · exact herror _
  rename_i record hrecord
  split
  · exact herror _
  split
  · exact herror _
  rename_i hopen
  split
  · exact herror _
  split
  · rename_i k hpersist
    obtain ⟨hdrains, hrecords, -⟩ := persistRecall_cases hpersist
    exact ⟨hdrains, fun x => .inl (congrArg (AList.lookup x) hrecords)⟩
  · rename_i k hpersist
    obtain ⟨hdrains, hrecords, hgone⟩ := persistRecall_cases hpersist
    refine ⟨hdrains, fun x => ?_⟩
    by_cases hx : x = messageID
    · exact .inr ⟨hx, record, hrecord, by simpa using hopen, AList.lookup_insert _, hgone rfl⟩
    · refine .inl ?_
      rw [← hrecords]
      exact AList.lookup_insert_ne hx

theorem recalled_handleAdminAction (env : Env) (c : ClientID)
    (action targetCode messageID commandID : String) :
    Recalled h (h.handleAdminAction env c action targetCode messageID commandID) env messageID := by
  have hsame : ∀ {k : Hub}, k.db.chat = h.db.chat → k.messageRecords = h.messageRecords →
      k.offlineStore = h.offlineStore → Recalled h k env messageID := by
    intro k hchat hrecords hstore
    refine ⟨⟨hstore, fun row hrow => ?_⟩, fun x => .inl (congrArg (AList.lookup x) hrecords)⟩
    rwa [hchat] at hrow
  have houtcome := adminOutcome_handleAdminAction h env c action targetCode messageID commandID
  generalize h.handleAdminAction env c action targetCode messageID commandID = k at houtcome ⊢
  cases houtcome with
  | unchanged => exact hsame rfl rfl rfl
  | refused content => exact hsame rfl rfl rfl
  | recalled obj => exact recalled_handleRecall env c obj messageID commandID
  | decision obj approved =>
    unfold handleDecision
    split
    · exact hsame rfl rfl rfl
    · exact hsame rfl rfl rfl
  | kick target o => exact hsame rfl rfl rfl
  | mute target o => exact hsame rfl rfl rfl

/-! ### Every event -/

theorem Records.mono {fresh' : String → Prop} (hf : ∀ x, fresh x → fresh' x)
    (hr : Records fresh h k) : Records fresh' h k :=
  ⟨fun x => (hr.record x).imp_right fun hx => ⟨hf x hx.1, hx.2⟩,
    fun row hrow => (hr.offline row hrow).imp_right fun hx => ⟨hf _ hx.1, hx.2⟩, hr.store⟩

/-- What an event does to records and offline rows. -/
inductive RecordStep (h : Hub) (e : Event) (k : Hub) : Prop
  | send (hr : Records (Sends h e) h k)
  | recall (c : ClientID) (obj : Client) (m : Message) (hframe : FrameOf h e c obj m)
      (ht : m.type = .adminAction) (hr : Recalled h k e.env m.messageID)
  | restart (he : e.input.isRestart = true) (hchat : k.db.chat = h.db.chat)
      (hstore : k.offlineStore = h.offlineStore)

theorem recordStep_readPump (platform : Platform) (hs : Sound h.registry) {e : Event} {c : ClientID}
    {m : Message} {limited muted : Bool} (he : e.input = .frame c m limited muted) :
    RecordStep h e (h.readPump platform e.env c m limited muted) := by
  by_cases hparts : Part.records ∈ frameParts m.type
  · rcases readPump_cases (h := h) platform e.env c m limited muted with hquiet | ⟨obj, hobj, heq⟩
    · exact .send (.quiet hquiet)
    have hframe : FrameOf h e c obj m := ⟨⟨limited, muted, he⟩, hobj⟩
    have herror : ∀ text, RecordStep h e (h.deliverError c text m.messageID m.commandID) :=
      fun text => .send (.of_eq rfl (fun _ hrow => hrow) rfl)
    rw [heq]
    unfold dispatch validated
    cases ht : m.type with
    | chat =>
      dsimp only
      split
      · exact herror _
      split
      · refine .send (Records.mono (fun x hx => ?_) (records_broadcastMessage platform e.env _))
        exact ⟨c, obj, m, hframe, .inl ht, hx⟩
      · exact herror _
    | privateChat =>
      dsimp only
      split
      · exact herror _
      split
      · exact herror _
      · refine .send (Records.mono (fun x hx => ?_)
          (records_handlePrivateMessage platform e.env c _ _ _))
        exact ⟨c, obj, m, hframe, .inr ht, hx⟩
    | adminAction =>
      dsimp only
      split
      · exact .recall c obj m hframe ht (recalled_handleAdminAction e.env c _ _ _ _)
      · exact .send (.of_eq rfl (fun _ hrow => hrow) rfl)
    | _ => simp [ht, frameParts] at hparts
  · have htouch := touches_readPump platform hs e.env c m limited muted
    -- the frames that write the chat tables write records too
    refine .send (.of_touches htouch hparts ?_ ?_)
    · cases ht : m.type <;> simp [ht, frameParts, chatParts] at hparts ⊢
    · cases ht : m.type <;> simp [frameParts, chatParts]

/-- A replay takes the rows of its client from the offline queue. -/
theorem offline_replay (env : Env) (c : ClientID) :
    ∀ row ∈ (h.replay env c).db.chat.offline.rows, row ∈ h.db.chat.offline.rows := by
  intro row hrow
  unfold replay at hrow
  split at hrow
  · exact hrow
  split at hrow
  · split at hrow
    · exact hrow
    split at hrow
    · exact hrow
    · exact hrow
  split at hrow
  · dsimp only at hrow
    split at hrow
    · exact hrow
    · exact List.mem_of_mem_filter hrow
  · exact hrow
  · exact hrow
  · exact hrow

theorem recordStep (platform : Platform) (hs : Sound h.registry) (e : Event) :
    RecordStep h e (step platform h e) := by
  cases hinput : e.input with
  | login username userCode =>
    simp only [step, hinput]
    obtain ⟨accounts, hchat⟩ := chat_login (h := h) e.env username userCode
    have htouch := touches_login hs e.env username userCode
    refine .send (.of_eq (htouch.same .records (by decide)) (fun row hrow => ?_)
      (htouch.same .config (by decide)).2)
    rwa [hchat] at hrow
  | replay c =>
    simp only [step, hinput]
    split
    · have htouch := touches_replay hs e.env c
      exact .send (.of_eq (htouch.same .records (by decide)) (offline_replay e.env c)
        (htouch.same .config (by decide)).2)
    · exact .send (Records.refl h)
  | frame c m limited muted =>
    simp only [step, hinput]
    exact recordStep_readPump platform hs hinput
  | restart adminCode =>
    simp only [step, hinput]
    exact .restart (by rw [hinput]; rfl) rfl rfl
  | _ =>
    have htouch := step_touches platform hs e (by rw [hinput]; rfl)
    rw [hinput] at htouch
    refine .send (.of_touches htouch ?_ ?_ ?_) <;> simp [Input.writes]

/-- An offline row is added only with a message that leaves a new record under its id. -/
theorem offline_step (platform : Platform) (hs : Sound h.registry) (e : Event) {row : OfflineRow}
    (hrow : row ∈ (step platform h e).db.chat.offline.rows) :
    row ∈ h.db.chat.offline.rows ∨
      (Publishes platform h e row.messageID ∧ (step platform h e).offlineStore = true) := by
  cases recordStep platform hs e with
  | send hr =>
    refine (hr.offline row hrow).imp_right ?_
    rintro ⟨hsend, hfresh, hstore⟩
    exact ⟨⟨hsend, hfresh⟩, hstore⟩
  | «recall» c obj m hframe ht hr => exact .inl (hr.drains.2 row hrow)
  | restart he hchat hstore =>
    rw [hchat] at hrow
    exact .inl hrow

/-- The record under the id is marked recalled. -/
def IsRecalled (h : Hub) (messageID : String) : Prop :=
  ∃ record, h.messageRecords.lookup messageID = some record ∧ record.recalled = true

/-- Within a process a recalled record stays until another message is published under its id. -/
theorem isRecalled_step (platform : Platform) (hs : Sound h.registry) (e : Event) {x : String}
    (hx : h.IsRecalled x) (hlive : e.input.isRestart = false) (hpub : ¬ Publishes platform h e x) :
    (step platform h e).IsRecalled x := by
  obtain ⟨record, hrecord, hrecalled⟩ := hx
  cases recordStep platform hs e with
  | send hr =>
    rcases hr.record x with hsame | hfresh
    · exact ⟨record, hsame.trans hrecord, hrecalled⟩
    · exact absurd hfresh hpub
  | «recall» c obj m hframe ht hr =>
    rcases hr.other x with hsame | ⟨rfl, record', -, -, hnew, -⟩
    · exact ⟨record, hsame.trans hrecord, hrecalled⟩
    · exact ⟨_, hnew, rfl⟩
  | restart he hchat hstore =>
    rw [hlive] at he
    cases he

theorem recordForRecall_of_lookup {env : Env} {messageID : String} {record : MessageRecord}
    (hrecord : h.messageRecords.lookup messageID = some record) :
    h.recordForRecall env messageID = some record := by
  unfold recordForRecall
  rw [hrecord]

theorem not_recallSucceeds_of_isRecalled {platform : Platform} {e : Event} {x : String}
    (hx : h.IsRecalled x) : ¬ RecallSucceeds platform h e x := by
  rintro ⟨-, ⟨record, hrecord, hopen⟩, -⟩
  obtain ⟨record', hrecord', hrecalled⟩ := hx
  obtain rfl := Option.some_injective _ (hrecord.symm.trans (recordForRecall_of_lookup hrecord'))
  rw [hopen] at hrecalled
  cases hrecalled

/-- The offline rows under the id are named by the record in memory. -/
def NamesCopy (h : Hub) (messageID : String) : Prop :=
  ∀ row ∈ h.db.chat.offline.rows, row.messageID = messageID →
    ∃ record, h.messageRecords.lookup messageID = some record ∧
      record.offlineMessageID = messageID

/-- With a store only is there an offline queue, and its rows have ids. -/
def OfflineStored (h : Hub) : Prop :=
  ∀ row ∈ h.db.chat.offline.rows, h.offlineStore = true ∧ row.messageID ≠ ""

/-- A recall that succeeds changes the record. -/
theorem RecallSucceeds.changes {platform : Platform} {e : Event} {x : String}
    (hsucc : RecallSucceeds platform h e x) :
    (step platform h e).messageRecords.lookup x ≠ h.messageRecords.lookup x := by
  intro hsame
  obtain ⟨record, hrecord, hrecalled⟩ := hsucc.2.2
  exact not_recallSucceeds_of_isRecalled ⟨record, hsame.symm.trans hrecord, hrecalled⟩ hsucc

/-- A recall that succeeds leaves no offline row under the id, when the record names the copy. -/
theorem RecallSucceeds.no_copy {platform : Platform} {e : Event} {x : String}
    (hs : Sound h.registry) (hstored : OfflineStored h) (hsucc : RecallSucceeds platform h e x)
    (hcopy : NamesCopy h x) :
    ∀ row ∈ (step platform h e).db.chat.offline.rows, row.messageID ≠ x := by
  intro row hrow hid
  obtain ⟨c, obj, m, ⟨⟨limited, muted, he⟩, -⟩, ht, -⟩ := hsucc.1
  cases recordStep platform hs e with
  | send hr =>
    -- the event is a recall request, so it sends nothing
    rcases hr.record x with hsame | ⟨⟨c', obj', m', ⟨⟨_, _, he'⟩, -⟩, ht', -⟩, -⟩
    · exact hsucc.changes hsame
    · cases he.symm.trans he'
      simp [ht] at ht'
  | «recall» c' obj' m' hframe ht' hr =>
    rcases hr.other x with hsame | ⟨rfl, record, hrecord, -, -, hgone⟩
    · exact hsucc.changes hsame
    have hbefore := hr.drains.2 row hrow
    obtain ⟨hstore, hne⟩ := hstored row hbefore
    obtain ⟨record', hrecord', hnames⟩ := hcopy row hbefore hid
    obtain rfl := Option.some_injective _ (hrecord.symm.trans (recordForRecall_of_lookup hrecord'))
    rw [hid, ← hnames] at hne
    exact hgone hstore hne row hrow (hid.trans hnames.symm)
  | restart hr hchat hstore =>
    rw [he] at hr
    cases hr

theorem offlineStored_start (adminCode : String) (offlineStore : Bool) :
    OfflineStored (start adminCode offlineStore) := by
  intro row hrow
  cases hrow

theorem offlineStored_step (platform : Platform) (hs : Sound h.registry) (e : Event)
    (hi : OfflineStored h) : OfflineStored (step platform h e) := by
  intro row hrow
  rcases offline_step platform hs e hrow with hold | ⟨⟨⟨_, _, _, -, -, hid⟩, -⟩, hstore⟩
  · obtain ⟨hstore, hne⟩ := hi row hold
    refine ⟨?_, hne⟩
    cases recordStep platform hs e with
    | send hr => exact hr.store.trans hstore
    | «recall» c obj m hframe ht hr => exact hr.drains.1.trans hstore
    | restart he hchat hsame => exact hsame.trans hstore
  · refine ⟨hstore, ?_⟩
    rw [hid]
    exact assignMessageID_ne_empty _

/-! ### Runs -/

/-- `TakeOfflineMessages` of a login returns the message. -/
def Takes (h : Hub) (e : Event) (message : Message) : Prop :=
  ∃ c obj, e.input = .replay c ∧ h.alive c = true ∧ h.registry.client? c = some obj ∧
    obj.replay = [] ∧ obj.stage = .offline ∧ e.env.fails .takeOfflineMessages = false ∧
    message ∈ (h.db.chat.takeOfflineMessages obj.userCode).1

namespace Trace

variable {r : Trace}

/-- What the event at the position does. -/
def At (r : Trace) (n : ℕ) (P : Hub → Event → Prop) : Prop :=
  ∃ hn : n < r.events.length, P (r.hub n) r.events[n]

/-- The message has been queued by the event at the position. -/
def QueuedAt (r : Trace) (n : ℕ) (message : Message) : Prop :=
  ∃ row : OfflineRow, row.messageID = message.messageID ∧ row.content = message.content ∧
    row ∉ (r.hub n).db.chat.offline.rows ∧ row ∈ (r.hub (n + 1)).db.chat.offline.rows

/-- After a recall that succeeds no other one succeeds under the id. -/
def RecalledOnce (r : Trace) : Prop :=
  ∀ i j x, i < j → r.At i (RecallSucceeds r.platform · · x) →
    ¬ r.At j (RecallSucceeds r.platform · · x)

/-- What is taken from the offline queue under the id of a recalled message was sent later. -/
def ContentGone (r : Trace) : Prop :=
  ∀ i j message, i < j → r.At i (RecallSucceeds r.platform · · message.messageID) →
    r.At j (Takes · · message) →
    ∃ k, i < k ∧ k < j ∧ r.At k (Publishes r.platform · · message.messageID) ∧
      r.QueuedAt k message

/-- A recall is final. -/
structure Final (r : Trace) : Prop where
  once : r.RecalledOnce
  gone : r.ContentGone

/-- Nobody asks for a recall after a restart or another message under the id has put the first
recall out of memory, and a recalled message with an offline copy has its copy on record. -/
structure Remembered (r : Trace) : Prop where
  record : ∀ i k j x, i < k → k < j → r.At i (RecallSucceeds r.platform · · x) →
    r.At k (fun h e => e.input.isRestart = true ∨ Publishes r.platform h e x) →
    ¬ r.At j (Recalls · · x)
  copy : ∀ i x, r.At i (RecallSucceeds r.platform · · x) → (r.hub i).NamesCopy x

theorem sound_hub (n : ℕ) : Sound (r.hub n).registry :=
  sound_run r.platform r.adminCode r.offlineStore _

theorem offlineStored_hub (n : ℕ) : OfflineStored (r.hub n) := by
  have hboth : Sound (r.hub n).registry ∧ OfflineStored (r.hub n) :=
    r.invariant (I := fun h => Sound h.registry ∧ OfflineStored h)
      ⟨sound_start _ _, offlineStored_start _ _⟩
      (fun h e hi => ⟨sound_step _ h e hi.1, offlineStored_step _ hi.1 e hi.2⟩) n
  exact hboth.2

/-- A recalled record lasts while nothing puts it out of memory. -/
theorem isRecalled_hub {i j : ℕ} {x : String} (hij : i ≤ j) (hj : j ≤ r.events.length)
    (hi : (r.hub i).IsRecalled x)
    (hkeep : ∀ k, i ≤ k → k < j →
      ¬ r.At k fun h e => e.input.isRestart = true ∨ Publishes r.platform h e x) :
    (r.hub j).IsRecalled x := by
  induction j, hij using Nat.le_induction with
  | base => exact hi
  | succ j hij ih =>
    have hrec := ih (by omega) fun k hk hkj => hkeep k hk (by omega)
    have hn := hkeep j hij (by omega)
    rw [hub_succ (by omega)]
    refine isRecalled_step r.platform (sound_hub j) _ hrec ?_ fun hpub => hn ⟨by omega, .inr hpub⟩
    refine Bool.eq_false_iff.2 fun hr => hn ⟨by omega, .inl hr⟩

/-- A row that is not queued at one position and is at a later one has been published between. -/
theorem queued_between {i j : ℕ} {row : OfflineRow} (hij : i ≤ j) (hj : j ≤ r.events.length)
    (hi : row ∉ (r.hub i).db.chat.offline.rows) (hrow : row ∈ (r.hub j).db.chat.offline.rows) :
    ∃ k, i ≤ k ∧ k < j ∧ r.At k (Publishes r.platform · · row.messageID) ∧
      row ∉ (r.hub k).db.chat.offline.rows ∧ row ∈ (r.hub (k + 1)).db.chat.offline.rows := by
  induction j, hij using Nat.le_induction with
  | base => exact absurd hrow hi
  | succ j hij ih =>
    by_cases hold : row ∈ (r.hub j).db.chat.offline.rows
    · obtain ⟨k, hik, hkj, hk⟩ := ih (by omega) hold
      exact ⟨k, hik, by omega, hk⟩
    · refine ⟨j, hij, by omega, ⟨by omega, ?_⟩, hold, hrow⟩
      rw [hub_succ (by omega)] at hrow
      rcases offline_step r.platform (sound_hub j) _ hrow with hrow | ⟨hpub, -⟩
      · exact absurd hrow hold
      · exact hpub

theorem recalledOnce_of_remembered (hr : r.Remembered) : r.RecalledOnce := by
  rintro i j x hij hi ⟨hj, hsucc⟩
  obtain ⟨hn, hfirst⟩ := hi
  have hrec : (r.hub (i + 1)).IsRecalled x := by
    rw [hub_succ hn]
    exact hfirst.2.2
  refine not_recallSucceeds_of_isRecalled (isRecalled_hub (by omega) (by omega) hrec ?_) hsucc
  intro k hik hkj hk
  exact hr.record i k j x (by omega) hkj ⟨hn, hfirst⟩ hk ⟨hj, hsucc.1⟩

theorem contentGone_of_remembered (hr : r.Remembered) : r.ContentGone := by
  rintro i j message hij ⟨hn, hsucc⟩ ⟨hj, c, obj, -, -, -, -, -, -, htaken⟩
  obtain ⟨row, hrow, rfl⟩ := List.mem_map.1 htaken
  have hnone : row ∉ (r.hub (i + 1)).db.chat.offline.rows := by
    rw [hub_succ hn]
    intro hmem
    exact hsucc.no_copy (sound_hub i) (offlineStored_hub i) (hr.copy i _ ⟨hn, hsucc⟩) row hmem rfl
  obtain ⟨k, hik, hkj, hpub, hbefore, hafter⟩ := queued_between (by omega) (by omega) hnone
    (List.mem_of_mem_filter hrow)
  exact ⟨k, by omega, hkj, hpub, row, rfl, rfl, hbefore, hafter⟩

/-- A recall is final in every run that remembers its recalls. -/
theorem final_of_remembered (r : Trace) (hr : r.Remembered) : r.Final :=
  ⟨recalledOnce_of_remembered hr, contentGone_of_remembered hr⟩

/-- A request to recall the message under the id `m1`. -/
def recallFrame : Message := { type := .adminAction, messageID := "m1", content := "recall" }

/-- Alice chats under the id `m1`, recalls it and asks for the recall again. -/
def recalledTwice : Trace where
  platform := samplePlatform
  adminCode := ""
  offlineStore := true
  events := sessionEvents 0 "Alice" "alice" ++
    [frameEvent 0 { type := .chat, messageID := "m1", content := "hello" },
      frameEvent 0 recallFrame, frameEvent 0 recallFrame]

theorem final_of_remembered_recalledTwice : recalledTwice.Final := by
  refine final_of_remembered recalledTwice ⟨?_, ?_⟩
  · -- the first recall is at position 4, which leaves no room for two more events
    rintro i k j x hik hkj ⟨hi, ⟨c, obj, m, ⟨⟨limited, muted, he⟩, -⟩, ht, -⟩, -⟩ - ⟨hj, -⟩
    have hlen : recalledTwice.events.length = 6 := rfl
    have hlate : i < 4 := by omega
    obtain rfl | rfl | rfl | rfl : i = 0 ∨ i = 1 ∨ i = 2 ∨ i = 3 := by omega
    · cases he
    · cases he
    · cases he
    · cases he
      cases ht
  · rintro i x ⟨hi, -⟩ row hrow
    have hempty : ∀ n < 6, (recalledTwice.hub n).db.chat.offline.rows = [] := by decide +kernel
    rw [hempty i hi] at hrow
    cases hrow

/-- Alice writes to Bob, who is away, the server restarts and Alice recalls the message; Bob logs
in, the server restarts again and Alice recalls the message once more. -/
def recalledAfterRestart : Trace where
  platform := samplePlatform
  adminCode := ""
  offlineStore := true
  events := sessionEvents 0 "Alice" "alice" ++ sessionEvents 1 "Bob" "bob" ++
    [⟨.unregister 1, {}⟩,
      frameEvent 0 { type := .privateChat, messageID := "m1", targetUserCode := "bob"
                     content := "secret" },
      ⟨.restart "", {}⟩] ++ sessionEvents 2 "Alice" "alice" ++
    [frameEvent 2 recallFrame, ⟨.login "Bob" "bob", {}⟩, ⟨.replay 3, {}⟩, ⟨.restart "", {}⟩] ++
    sessionEvents 4 "Alice" "alice" ++
    [frameEvent 4 recallFrame]

theorem recallSucceeds_recallFrame {h : Hub} {c : ClientID}
    (hbefore : (h.registry.client? c).any (fun obj => (h.recordForRecall {} "m1").any fun record =>
      !record.recalled && (obj.isAdmin || obj.normalizedCode == record.authorCode)) = true)
    (hafter : ((step samplePlatform h (frameEvent c recallFrame)).messageRecords.lookup "m1").any
      MessageRecord.recalled = true) :
    RecallSucceeds samplePlatform h (frameEvent c recallFrame) "m1" := by
  obtain ⟨obj, hobj, hbefore⟩ := (Option.any_eq_true _ _).1 hbefore
  obtain ⟨record, hrecord, hbefore⟩ := (Option.any_eq_true _ _).1 hbefore
  obtain ⟨record', hrecord', hrecalled⟩ := (Option.any_eq_true _ _).1 hafter
  obtain ⟨hopen, hmay⟩ := Bool.and_eq_true_iff.1 hbefore
  have hmay' : obj.isAdmin = true ∨ obj.normalizedCode = record.authorCode := by simpa using hmay
  exact ⟨⟨c, obj, recallFrame, ⟨⟨false, false, rfl⟩, hobj⟩, rfl, rfl, rfl, record, hrecord, hmay'⟩,
    ⟨record, hrecord, by simpa using hopen⟩, record', hrecord', hrecalled⟩

/-- The message as Bob's login takes it from the queue. -/
def secretMessage : Message :=
  { type := .offlineMessage, username := "Alice", userCode := "alice", content := "secret"
    messageID := "m1", createdAt := "1970-01-01T00:00:00Z", targetUserCode := "bob" }

theorem recall_undone_by_restart :
    ¬ recalledAfterRestart.RecalledOnce ∧ ¬ recalledAfterRestart.ContentGone := by
  have hfirst : recalledAfterRestart.At 12 (RecallSucceeds samplePlatform · · "m1") :=
    ⟨by decide, recallSucceeds_recallFrame (by decide +kernel) (by decide +kernel)⟩
  have hsecond : recalledAfterRestart.At 19 (RecallSucceeds samplePlatform · · "m1") :=
    ⟨by decide, recallSucceeds_recallFrame (by decide +kernel) (by decide +kernel)⟩
  refine ⟨fun honce => honce 12 19 "m1" (by omega) hfirst hsecond, fun hgone => ?_⟩
  have htakes : recalledAfterRestart.At 14 (Takes · · secretMessage) := by
    have hbob : ((recalledAfterRestart.hub 14).registry.client? 3).any (fun obj =>
        obj.replay.isEmpty && obj.stage == .offline && obj.userCode == "bob") = true := by
      decide +kernel
    obtain ⟨obj, hobj, hbob⟩ := (Option.any_eq_true _ _).1 hbob
    have hstate : (obj.replay = [] ∧ obj.stage = .offline) ∧ obj.userCode = "bob" := by
      simpa using hbob
    refine ⟨by decide, 3, obj, rfl, by decide +kernel, hobj, hstate.1.1, hstate.1.2, rfl, ?_⟩
    rw [hstate.2]
    decide +kernel
  -- the only event between the recall and the taking is Bob's login
  obtain ⟨k, hk, hk', ⟨hn, ⟨c, obj, m, ⟨⟨limited, muted, he⟩, -⟩, -⟩, -⟩, -⟩ :=
    hgone 12 14 secretMessage (by omega) hfirst htakes
  obtain rfl : k = 13 := by omega
  cases he

end Trace

end Hub

end LanChat
