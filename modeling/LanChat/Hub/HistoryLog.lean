import LanChat.Hub.RoomLog

/-!
# What an event does to history requests and attachments

* `pendingJobs`: the history requests between their acceptance and their answer; `pendingJobs_step`
  says where they come from;
* `HistoryInv`: a room's page has only rows of that room;
* `step_historyResponse`, `step_download`: which events send a page or a chunk, and to whom;
* `attachmentRoom_step`: an attachment keeps its room.
-/

namespace LanChat

namespace Hub

open GoStrings Registry ChatStore EventMachine

variable {h k : Hub}

/-! ### Pending requests -/

/-- The history requests that have been accepted and not yet answered. -/
def pendingJobs (h : Hub) : List HistoryJob :=
  h.historyJobs ++ h.inHand.toList ++ h.historyResults.map HistoryResult.job

theorem mem_pendingJobs {job : HistoryJob} :
    job ∈ h.pendingJobs ↔ job ∈ h.historyJobs ∨ h.inHand = some job ∨
      ∃ result ∈ h.historyResults, result.job = job := by
  simp [pendingJobs]

/-- The query of a job is about the job's room. -/
structure JobOf (job : HistoryJob) : Prop where
  isPrivate : job.query.isPrivate = job.isPrivate
  room : job.isPrivate = false → job.query.room = job.room

/-- A job asks for its client, and one for a room comes from a client that may view the room. -/
structure Granted (h : Hub) (job : HistoryJob) : Prop where
  query : JobOf job
  access : job.isPrivate = false → ∃ obj definition, h.registry.client? job.client = some obj ∧
    h.roomDefinitions.lookup job.room = some definition ∧ canJoinRoom obj definition = true
  user : ∃ obj, h.registry.client? job.client = some obj ∧ job.query.userCode = obj.userCode

/-- Every pending job was pending before or is granted now. -/
def Queues (h k : Hub) : Prop :=
  (∀ job ∈ k.pendingJobs, job ∈ h.pendingJobs ∨ Granted h job) ∧
    ∀ result ∈ k.historyResults, result ∈ h.historyResults ∨
      (result.job ∈ h.pendingJobs ∧ ∀ page, result.page = .ok page →
        h.db.chat.loadHistory result.job.query = .ok page)

theorem queues_of_same (hsame : Part.history.Same h k) : Queues h k := by
  obtain ⟨hjobs, hhand, hresults⟩ := hsame
  constructor
  · intro job hjob
    rw [mem_pendingJobs, hjobs, hhand, hresults, ← mem_pendingJobs] at hjob
    exact .inl hjob
  · intro result hresult
    exact .inl (hresults ▸ hresult)

theorem queues_enqueueHistory {job : HistoryJob} (hgranted : Granted h job) :
    Queues h (h.enqueueHistory job) := by
  unfold enqueueHistory
  split
  · refine ⟨fun job' hjob' => ?_, fun result hresult => .inl hresult⟩
    rw [mem_pendingJobs] at hjob'
    rcases hjob' with hjob' | hjob'
    · rcases List.mem_append.1 hjob' with hjob' | hjob'
      · exact .inl (mem_pendingJobs.2 (.inl hjob'))
      · obtain rfl := List.mem_singleton.1 hjob'
        exact .inr hgranted
    · exact .inl (mem_pendingJobs.2 (.inr hjob'))
  · exact queues_of_same ⟨rfl, rfl, rfl⟩

theorem queues_handleHistoryRequest (c : ClientID) (request : Message) :
    Queues h (h.handleHistoryRequest c request) := by
  have hquiet : ∀ content, Queues h (h.deliverError c content) := fun _ =>
    queues_of_same ⟨rfl, rfl, rfl⟩
  unfold handleHistoryRequest
  split
  · exact queues_of_same ⟨rfl, rfl, rfl⟩
  rename_i obj hobj
  split
  · exact queues_of_same ⟨rfl, rfl, rfl⟩
  split
  · split
    · exact hquiet _
    split
    · exact hquiet _
    · exact queues_enqueueHistory ⟨⟨rfl, by simp⟩, by simp, obj, hobj, rfl⟩
  split
  · exact hquiet _
  split
  · exact hquiet _
  rename_i definition hdefinition
  split
  · exact hquiet _
  · rename_i hjoin
    refine queues_enqueueHistory ⟨⟨rfl, fun _ => rfl⟩,
      fun _ => ⟨obj, definition, hobj, hdefinition, ?_⟩, obj, hobj, rfl⟩
    simpa using hjoin

theorem queues_takeHistoryJob : Queues h h.takeHistoryJob := by
  unfold takeHistoryJob
  split
  · rename_i job jobs hhand hjobs
    refine ⟨fun job' hjob' => .inl ?_, fun result hresult => .inl hresult⟩
    rw [mem_pendingJobs] at hjob' ⊢
    rw [hjobs]
    rcases hjob' with hjob' | hjob' | hjob'
    · exact .inl (List.mem_cons_of_mem _ hjob')
    · obtain rfl := Option.some_injective _ hjob'
      exact .inl List.mem_cons_self
    · exact .inr (.inr hjob')
  · exact queues_of_same ⟨rfl, rfl, rfl⟩

theorem queues_runHistoryJob (env : Env) : Queues h (h.runHistoryJob env) := by
  unfold runHistoryJob
  split
  · exact queues_of_same ⟨rfl, rfl, rfl⟩
  rename_i job hhand
  have hpending : job ∈ h.pendingJobs := mem_pendingJobs.2 (.inr (.inl hhand))
  split
  · constructor
    · intro job' hjob'
      rw [mem_pendingJobs] at hjob'
      rcases hjob' with hjob' | hjob' | ⟨result, hresult, rfl⟩
      · exact .inl (mem_pendingJobs.2 (.inl hjob'))
      · cases hjob'
      · rcases List.mem_append.1 hresult with hresult | hresult
        · exact .inl (mem_pendingJobs.2 (.inr (.inr ⟨result, hresult, rfl⟩)))
        · obtain rfl := List.mem_singleton.1 hresult
          exact .inl hpending
    · intro result hresult
      rcases List.mem_append.1 hresult with hresult | hresult
      · exact .inl hresult
      · obtain rfl := List.mem_singleton.1 hresult
        refine .inr ⟨hpending, fun page hpage => ?_⟩
        exact (call_eq_ok.1 hpage).2
  · exact queues_of_same ⟨rfl, rfl, rfl⟩

theorem queues_handleHistoryResult : Queues h h.handleHistoryResult := by
  unfold handleHistoryResult
  split
  · exact queues_of_same ⟨rfl, rfl, rfl⟩
  rename_i result results hresults
  have hrest : Queues h { h with historyResults := results } := by
    constructor
    · intro job hjob
      rw [mem_pendingJobs] at hjob ⊢
      rw [hresults]
      refine .inl (hjob.imp_right (Or.imp_right ?_))
      rintro ⟨result', hresult', hjob⟩
      exact ⟨result', List.mem_cons_of_mem _ hresult', hjob⟩
    · intro result' hresult'
      exact .inl (hresults ▸ List.mem_cons_of_mem _ hresult')
  dsimp only
  split
  · exact hrest
  split
  · exact hrest
  · exact hrest

/-- Where pending requests and results come from. -/
theorem pendingJobs_step (platform : Platform) (hs : Sound h.registry) (e : Event) :
    Queues h (step platform h e) := by
  cases hinput : e.input with
  | frame c m limited muted =>
    by_cases ht : m.type = .historyRequest
    · rcases step_frame_cases platform hinput (h := h) (fun obj => by simp only [dispatch, ht]; rfl)
        with hquiet | ⟨obj, -, -, heq⟩
      · exact queues_of_same (hquiet.same .history (by decide))
      · rw [heq]
        exact queues_handleHistoryRequest c m
    · have htouch := touches_readPump platform hs e.env c m limited muted
      simp only [step, hinput]
      refine queues_of_same (htouch.same .history fun hmem => ?_)
      cases htype : m.type <;> simp_all [frameParts, chatParts]
  | takeHistoryJob =>
    simp only [step, hinput]
    exact queues_takeHistoryJob
  | runHistoryJob =>
    simp only [step, hinput]
    exact queues_runHistoryJob e.env
  | historyResult =>
    simp only [step, hinput]
    exact queues_handleHistoryResult
  | restart adminCode =>
    simp only [step, hinput]
    refine ⟨fun job hjob => ?_, fun result hresult => ?_⟩
    · cases hjob
    · cases hresult
  | _ =>
    have htouch := step_touches platform hs e (by rw [hinput]; rfl)
    rw [hinput] at htouch
    exact queues_of_same (htouch.same .history (by simp [Input.writes]))

/-! ### Requests that are kept -/

/-- The read pump and the Hub take the request. -/
def takesHistory (h : Hub) (c : ClientID) (request : Message) (limited : Bool) : Bool :=
  h.readsFrames c && !limited && (validateMessage request).isOk && h.registry.isConnected c &&
    h.offlineStore && decide (h.historyJobs.length < historyQueueSize) &&
    (h.registry.client? c).any fun obj =>
      if request.isPrivate then normalizedOrEmpty request.targetUserCode != obj.normalizedCode
      else (h.roomDefinitions.lookup request.room).any (canJoinRoom obj)

/-- The Hub sends the page at the head of `HistoryResults`. -/
def sendsPage (h : Hub) (c : ClientID) : Bool :=
  h.historyResults.head?.all fun result => result.job.client != c ||
    (h.registry.isConnected c && h.registry.hasSpace c && result.page.isOk)

theorem pendingJobs_enqueueHistory {job' : HistoryJob}
    (hspace : h.historyJobs.length < historyQueueSize) :
    job' ∈ (h.enqueueHistory job').pendingJobs := by
  unfold enqueueHistory
  rw [if_pos hspace]
  exact mem_pendingJobs.2 (.inl (List.mem_append_right _ List.mem_cons_self))

theorem mem_pendingJobs_of_same (hsame : Part.history.Same h k) {job : HistoryJob}
    (hjob : job ∈ h.pendingJobs) : job ∈ k.pendingJobs := by
  obtain ⟨hjobs, hhand, hresults⟩ := hsame
  rw [mem_pendingJobs, hjobs, hhand, hresults, ← mem_pendingJobs]
  exact hjob

theorem kept_enqueueHistory {job job' : HistoryJob} (hjob : job ∈ h.pendingJobs) :
    job ∈ (h.enqueueHistory job').pendingJobs := by
  unfold enqueueHistory
  split
  · rw [mem_pendingJobs] at hjob ⊢
    exact hjob.imp_left (List.mem_append_left _)
  · exact mem_pendingJobs_of_same ⟨rfl, rfl, rfl⟩ hjob

theorem kept_handleHistoryRequest (c : ClientID) (request : Message) {job : HistoryJob}
    (hjob : job ∈ h.pendingJobs) : job ∈ (h.handleHistoryRequest c request).pendingJobs := by
  have hquiet : ∀ content, job ∈ (h.deliverError c content).pendingJobs := fun _ =>
    mem_pendingJobs_of_same ⟨rfl, rfl, rfl⟩ hjob
  unfold handleHistoryRequest
  split
  · exact hjob
  split
  · exact hjob
  split
  · split
    · exact hquiet _
    split
    · exact hquiet _
    · exact kept_enqueueHistory hjob
  split
  · exact hquiet _
  split
  · exact hquiet _
  split
  · exact hquiet _
  · exact kept_enqueueHistory hjob

theorem kept_takeHistoryJob {job : HistoryJob} (hjob : job ∈ h.pendingJobs) :
    job ∈ h.takeHistoryJob.pendingJobs := by
  unfold takeHistoryJob
  split
  · rename_i next jobs hhand hjobs
    rw [mem_pendingJobs, hjobs] at hjob
    rw [mem_pendingJobs]
    rcases hjob with hjob | hjob | hjob
    · rcases List.mem_cons.1 hjob with rfl | hjob
      · exact .inr (.inl rfl)
      · exact .inl hjob
    · rw [hhand] at hjob
      cases hjob
    · exact .inr (.inr hjob)
  · exact hjob

theorem kept_runHistoryJob (env : Env) {job : HistoryJob} (hjob : job ∈ h.pendingJobs) :
    job ∈ (h.runHistoryJob env).pendingJobs := by
  unfold runHistoryJob
  split
  · exact hjob
  rename_i next hhand
  split
  · rw [mem_pendingJobs] at hjob ⊢
    rcases hjob with hjob | hjob | ⟨result, hresult, hjob⟩
    · exact .inl hjob
    · obtain rfl := Option.some_injective _ (hhand.symm.trans hjob)
      exact .inr (.inr ⟨_, List.mem_append_right _ List.mem_cons_self, rfl⟩)
    · exact .inr (.inr ⟨result, List.mem_append_left _ hresult, hjob⟩)
  · exact hjob

/-- A pending request stays until it is answered or the process ends. -/
theorem kept_step (platform : Platform) (hs : Sound h.registry) (e : Event)
    (hresult : e.input ≠ .historyResult) (hlive : e.input.isRestart = false) {job : HistoryJob}
    (hjob : job ∈ h.pendingJobs) : job ∈ (step platform h e).pendingJobs := by
  cases hinput : e.input with
  | frame c m limited muted =>
    by_cases ht : m.type = .historyRequest
    · rcases step_frame_cases platform hinput (h := h) (fun obj => by simp only [dispatch, ht]; rfl)
        with hquiet | ⟨obj, -, -, heq⟩
      · exact mem_pendingJobs_of_same (hquiet.same .history (by decide)) hjob
      · rw [heq]
        exact kept_handleHistoryRequest c m hjob
    · have htouch := touches_readPump platform hs e.env c m limited muted
      simp only [step, hinput]
      refine mem_pendingJobs_of_same (htouch.same .history fun hmem => ?_) hjob
      cases htype : m.type <;> simp_all [frameParts, chatParts]
  | takeHistoryJob =>
    simp only [step, hinput]
    exact kept_takeHistoryJob hjob
  | runHistoryJob =>
    simp only [step, hinput]
    exact kept_runHistoryJob e.env hjob
  | historyResult => exact absurd hinput hresult
  | restart adminCode =>
    rw [hinput] at hlive
    cases hlive
  | _ =>
    have htouch := step_touches platform hs e hlive
    rw [hinput] at htouch
    exact mem_pendingJobs_of_same (htouch.same .history (by simp [Input.writes])) hjob

/-- A request that is taken is pending. -/
theorem pending_of_takesHistory (platform : Platform) {e : Event} {c : ClientID} {m : Message}
    {limited muted : Bool} (he : e.input = .frame c m limited muted) (ht : m.type = .historyRequest)
    (htakes : h.takesHistory c m limited = true) :
    ∃ job ∈ (step platform h e).pendingJobs, job.client = c := by
  unfold takesHistory at htakes
  simp only [Bool.and_eq_true, Bool.not_eq_true', decide_eq_true_eq, Option.any_eq_true] at htakes
  obtain ⟨⟨⟨⟨⟨⟨hreads, rfl⟩, hvalid⟩, hcon⟩, hstore⟩, hspace⟩, obj, hobj, haccess⟩ := htakes
  have hcommand : m.commandID.utf8ByteSize ≤ maxCommandIDSize := by
    by_contra hlarge
    unfold validateMessage at hvalid
    rw [if_pos (by omega)] at hvalid
    cases hvalid
  have hstep : step platform h e = h.handleHistoryRequest c m := by
    simp only [step, he]
    rw [readPump_of_ready hreads hobj hcommand]
    simp only [dispatch, ht, validated, hvalid, if_true]
  rw [hstep]
  unfold handleHistoryRequest
  rw [hobj]
  dsimp only
  rw [if_neg (by simp [hcon, hstore])]
  have hchecked := isOk_iff.1 hvalid
  unfold validateMessage at hchecked
  rw [if_neg (by omega), ht] at hchecked
  dsimp only at hchecked
  by_cases hprivate : m.isPrivate = true
  · rw [if_pos hprivate] at haccess hchecked ⊢
    obtain ⟨_, htarget, -⟩ := bind_eq_ok.1 hchecked
    obtain ⟨peer, hpeer, -⟩ := bind_eq_ok.1 htarget
    have hne : peer ≠ obj.normalizedCode := by
      simpa [normalizedOrEmpty, hpeer] using haccess
    rw [hpeer]
    dsimp only
    rw [if_neg hne]
    exact ⟨_, pendingJobs_enqueueHistory hspace, rfl⟩
  · rw [if_neg hprivate] at haccess hchecked ⊢
    obtain ⟨_, hroom, -⟩ := bind_eq_ok.1 hchecked
    obtain ⟨definition, hdefinition, hjoin⟩ := (Option.any_eq_true _ _).1 haccess
    rw [if_neg (by simp [hroom, Except.isOk, Except.toBool]), hdefinition]
    dsimp only
    rw [if_neg (by simp [hjoin])]
    exact ⟨_, pendingJobs_enqueueHistory hspace, rfl⟩

/-- A pending request stays, or its page is sent. -/
theorem kept_handleHistoryResult {job : HistoryJob} (hsends : h.sendsPage job.client = true)
    (hjob : job ∈ h.pendingJobs) : job ∈ h.handleHistoryResult.pendingJobs ∨
      ∃ m : Message, m.type = .historyResponse ∧
        h.handleHistoryResult.registry.sent = h.registry.sent ++ [(job.client, m)] := by
  unfold handleHistoryResult
  cases hresults : h.historyResults with
  | nil => exact .inl hjob
  | cons result results =>
    dsimp only
    by_cases hhead : result.job = job
    · right
      unfold sendsPage at hsends
      rw [hresults, List.head?_cons, Option.all_some, hhead] at hsends
      simp only [bne_self_eq_false, Bool.false_or, Bool.and_eq_true] at hsends
      obtain ⟨⟨hcon, hspace⟩, hok⟩ := hsends
      rw [hhead, if_neg (by simp [hcon])]
      cases hpage : result.page with
      | error x =>
        rw [hpage] at hok
        cases hok
      | ok page =>
        refine ⟨historyResponse job page, rfl, ?_⟩
        exact sent_deliver (isConnected_iff.1 hcon) hspace
    · left
      have hkept : job ∈ ({ h with historyResults := results } : Hub).pendingJobs := by
        rw [mem_pendingJobs, hresults] at hjob
        rw [mem_pendingJobs]
        refine hjob.imp_right (Or.imp_right ?_)
        rintro ⟨result', hresult', rfl⟩
        rcases List.mem_cons.1 hresult' with rfl | hresult'
        · exact absurd rfl hhead
        · exact ⟨result', hresult', rfl⟩
      split
      · exact hkept
      split
      · exact hkept
      · exact hkept

/-! ### Pages -/

/-- What every run keeps about rows, requests and results. -/
structure HistoryInv (h : Hub) : Prop where
  named : ∀ row ∈ h.db.chat.messages.rows, row.kind = .room → row.room = row.conversationKey
  jobs : ∀ job ∈ h.pendingJobs, JobOf job
  pages : ∀ result ∈ h.historyResults, ∀ page, result.page = .ok page → ∀ row ∈ page.rows,
    row.kind = .room → result.job.isPrivate = false ∧ row.room = result.job.room

/-- The rows of a page are rows of the queried conversation. -/
theorem loadHistory_rows {s : ChatStore} {q : HistoryQuery} {page : HistoryPage}
    (hload : s.loadHistory q = .ok page) : ∃ kind key, queryConversation q = .ok (kind, key) ∧
      ∀ row ∈ page.rows, row ∈ s.messages.rows ∧ row.inConversation kind key = true := by
  unfold loadHistory at hload
  obtain ⟨⟨kind, key⟩, hquery, hload⟩ := bind_eq_ok.1 hload
  cases hload
  refine ⟨kind, key, hquery, fun row hrow => ?_⟩
  have hfound := List.mem_of_mem_filter (List.mem_reverse.1
    (List.mem_of_mem_take (List.mem_reverse.1 hrow)))
  unfold rowsBefore at hfound
  dsimp only at hfound
  split at hfound
  · exact List.mem_filter.1 hfound
  split at hfound
  · exact List.mem_filter.1 (List.mem_of_mem_filter hfound)
  · cases hfound

/-- Only a query without a peer is about a room. -/
theorem queryConversation_room {q : HistoryQuery} {key : String}
    (hquery : queryConversation q = .ok (.room, key)) : q.isPrivate = false ∧ key = q.room := by
  cases hprivate : q.isPrivate with
  | true => cases (queryConversation_private hprivate hquery).1
  | false => exact ⟨rfl, (queryConversation_public hprivate hquery).2⟩

theorem historyInv_start (adminCode : String) (offlineStore : Bool) :
    HistoryInv (start adminCode offlineStore) where
  named := by simp [start, boot, Database.empty, ChatStore.empty]
  jobs := by simp [start, boot, pendingJobs]
  pages := by simp [start, boot]

theorem historyInv_step (platform : Platform) (hs : Sound h.registry) (e : Event)
    (hi : HistoryInv h) : HistoryInv (step platform h e) := by
  obtain ⟨hjobs, hresults⟩ := pendingJobs_step platform hs e
  have hjobs' : ∀ job ∈ (step platform h e).pendingJobs, JobOf job := fun job hjob =>
    (hjobs job hjob).elim (hi.jobs job) Granted.query
  refine ⟨fun row hrow hkind => ?_, hjobs', fun result hresult page hpage row hrow hkind => ?_⟩
  · obtain ⟨base, hbase, hfix, -⟩ := (step_grows platform hs e).origin row hrow
    have hroom : row.room = base.room := by
      simpa [ChatRow.fixed] using congrArg ChatRow.room hfix
    rw [hroom, ChatRow.fixed_conversationKey hfix]
    rw [ChatRow.fixed_kind hfix] at hkind
    rcases hbase with hbase | ⟨message, i, -, hcheck, heq, -, -⟩
    · exact hi.named base hbase hkind
    · rw [heq] at hkind ⊢
      rcases (checkChatMessage_ok hcheck).2 with ⟨-, hprivate⟩ | ⟨-, -, -, hkey⟩
      · cases hprivate.symm.trans hkind
      · exact hkey.symm
  · rcases hresults result hresult with hold | ⟨hjob, hload⟩
    · exact hi.pages result hold page hpage row hrow hkind
    · obtain ⟨kind, key, hquery, hrows⟩ := loadHistory_rows (hload page hpage)
      obtain ⟨hstored, hin⟩ := hrows row hrow
      simp only [ChatRow.inConversation, Bool.and_eq_true, beq_iff_eq] at hin
      obtain rfl : kind = .room := hin.1.symm.trans hkind
      obtain ⟨hprivate, hkey⟩ := queryConversation_room hquery
      have hof := hi.jobs _ hjob
      rw [hof.isPrivate] at hprivate
      refine ⟨hprivate, ?_⟩
      rw [hi.named row hstored hkind, hin.2, hkey, hof.room hprivate]

/-- A page goes to the client that asked for it. -/
theorem step_historyResponse (platform : Platform) (hs : Sound h.registry) {e : Event} {c : ClientID}
    {x : Message} (hx : (c, x) ∈ sentBetween h (step platform h e)) (ht : x.type = .historyResponse) :
    ∃ result ∈ h.historyResults, ∃ page, result.page = .ok page ∧ result.job.client = c ∧
      x = historyResponse result.job page := by
  have hsend := type_mem_sends platform hs hx
  rw [ht] at hsend
  cases hinput : e.input with
  | historyResult =>
    simp only [step, hinput] at hx
    unfold handleHistoryResult at hx
    split at hx
    · exact absurd hx (not_mem_sentBetween rfl)
    rename_i result results hresults
    refine ⟨result, hresults ▸ List.mem_cons_self, ?_⟩
    dsimp only at hx
    split at hx
    · exact absurd hx (not_mem_sentBetween rfl)
    split at hx
    · have hemits : Emits (fun y => y.2.type = .error) h.registry
          (h.registry.deliverError result.job.client "Failed to load message history") :=
        emits_tell rfl
      cases ht.symm.trans (mem_sentBetween hemits hx)
    · rename_i page hpage
      have hemits : Emits (fun y => y = (result.job.client, historyResponse result.job page))
          h.registry (h.registry.tell result.job.client (historyResponse result.job page)) :=
        emits_tell rfl
      have hpair := mem_sentBetween hemits hx
      obtain ⟨hc, hmessage⟩ := Prod.mk.inj hpair
      exact ⟨page, hpage, hc.symm, hmessage⟩
  | frame c m limited muted =>
    cases htype : m.type <;> simp [hinput, Input.sends, htype, frameTypes, chatTypes, roomTypes,
      recallTypes, adminTypes, requestTypes] at hsend
  | _ => simp [hinput, Input.sends, adminTypes, loginTypes, replayTypes] at hsend

/-! ### Attachments -/

/-- Rows of `attachments` come from rows with the same id and room, or have an id that was free. -/
def KeepsRooms (s s' : AttachmentStore) : Prop :=
  ∀ row' ∈ s'.attachments.rows,
    (∃ row ∈ s.attachments.rows, row.attachmentID = row'.attachmentID ∧ row.room = row'.room) ∨
      ∀ row ∈ s.attachments.rows, row.attachmentID ≠ row'.attachmentID

theorem keepsRooms_of_eq {s s' : AttachmentStore} (heq : s'.attachments = s.attachments) :
    KeepsRooms s s' := fun row' hrow' => .inl ⟨row', heq ▸ hrow', rfl, rfl⟩

theorem keepsRooms_initializeAttachment {s s' : AttachmentStore} {now : ℕ}
    {attachmentID uploadID room authorCode : String} {logicalSize : ℤ}
    {upload : AttachmentStore.AttachmentUpload}
    (hinit : s.initializeAttachment now attachmentID uploadID room authorCode logicalSize =
      .ok (upload, s')) : KeepsRooms s s' := by
  unfold AttachmentStore.initializeAttachment at hinit
  split at hinit
  · cases hinit
  · cases hinit
  split at hinit
  · cases hinit
  split at hinit
  · cases hinit
  split at hinit
  · cases hinit
  dsimp only at hinit
  split at hinit
  · rename_i attachments uploads hins _
    cases hinit
    intro row' hrow'
    have hrow' : row' ∈ attachments.rows := hrow'
    rcases (Table.mem_insert? hins).1 hrow' with hold | rfl
    · exact .inl ⟨row', hold, rfl, rfl⟩
    · -- the new id is free, as `attachment_id` is unique
      refine .inr fun row hrow hid => ?_
      have hdistinct := attachments.distinct
      rw [Table.rows_of_insert? hins, List.pairwise_append] at hdistinct
      have hfree := (hdistinct.2.2 row hrow _ (List.mem_singleton.2 rfl)).1
      exact absurd (Table.keyClash_of_eq AttachmentRow.attachmentID hid) (by simp [hfree])
  · cases hinit

theorem keepsRooms_recordCommit (s : AttachmentStore) (upload : UploadRow)
    (whole committedAt : String) : KeepsRooms s (s.recordCommit upload whole committedAt) := by
  intro row' hrow'
  obtain ⟨row, hrow, rfl⟩ := List.mem_map.1 hrow'
  refine .inl ⟨row, hrow, ?_⟩
  split <;> exact ⟨rfl, rfl⟩

theorem keepsRooms_commitAttachmentUpload (s : AttachmentStore) (sha256Bytes : List UInt8 → String)
    (now : ℕ) (committedAt : String) (txFails : Bool) (uploadID authorCode : String) :
    KeepsRooms s (s.commitAttachmentUpload sha256Bytes now committedAt txFails uploadID
      authorCode).2 := by
  unfold AttachmentStore.commitAttachmentUpload
  split
  · exact keepsRooms_of_eq rfl
  dsimp only
  split
  · exact keepsRooms_of_eq rfl
  split
  · exact keepsRooms_of_eq rfl
  split
  · exact keepsRooms_of_eq rfl
  · exact keepsRooms_recordCommit (s.publish _) _ _ _

theorem keepsRooms_cleanup (s : AttachmentStore) (rfc3339 : ℕ → String) (now : ℕ) :
    KeepsRooms s (s.cleanupExpiredAttachmentUploads rfc3339 now) := by
  have hsub : ∀ (l : List UploadRow) (s : AttachmentStore),
      (l.foldl AttachmentStore.removeUpload s).attachments.rows ⊆ s.attachments.rows := by
    intro l
    induction l with
    | nil => exact fun s => List.Subset.refl _
    | cons upload l ih =>
      intro s row hrow
      exact List.mem_of_mem_filter (ih (s.removeUpload upload) hrow)
  exact fun row' hrow' => .inl ⟨row', hsub _ s hrow', rfl, rfl⟩

theorem attachments_storeAttachmentChunk {s s' : AttachmentStore} {sha256Bytes : List UInt8 → String}
    {now : ℕ} {uploadID authorCode : String} {index : ℤ} {ciphertext : List UInt8}
    {cipherSHA256 : String} {duplicate : Bool}
    (hstore : s.storeAttachmentChunk sha256Bytes now uploadID authorCode index ciphertext
      cipherSHA256 = .ok (duplicate, s')) : s'.attachments = s.attachments := by
  unfold AttachmentStore.storeAttachmentChunk at hstore
  obtain ⟨upload, -, hstore⟩ := bind_eq_ok.1 hstore
  obtain ⟨_, -, hstore⟩ := bind_eq_ok.1 hstore
  dsimp only at hstore
  split at hstore
  · split at hstore
    · split at hstore
      · cases hstore
        rfl
      · cases hstore
    · cases hstore
  split at hstore
  · cases hstore
  split at hstore
  · split at hstore
    · cases hstore
      rfl
    · cases hstore
  · cases hstore
    rfl

theorem attachments_resumeAttachmentUpload {s s' : AttachmentStore}
    {sha256Bytes : List UInt8 → String} {now : ℕ} {uploadID authorCode : String} {indexes : List ℤ}
    (hresume : s.resumeAttachmentUpload sha256Bytes now uploadID authorCode = .ok (indexes, s')) :
    s'.attachments = s.attachments := by
  unfold AttachmentStore.resumeAttachmentUpload at hresume
  obtain ⟨_, -, hresume⟩ := bind_eq_ok.1 hresume
  cases hresume
  rfl

theorem keepsRooms_of_same (hsame : Part.attachments.Same h k) :
    KeepsRooms h.db.attachments k.db.attachments :=
  keepsRooms_of_eq (congrArg AttachmentStore.attachments hsame)

theorem keepsRooms_step (platform : Platform) (hs : Sound h.registry) (e : Event) :
    KeepsRooms h.db.attachments (step platform h e).db.attachments := by
  have hquiet : ∀ {k : Hub}, Touches [] [.system, .error] h k →
      KeepsRooms h.db.attachments k.db.attachments := fun a =>
    keepsRooms_of_same (a.same .attachments (by decide))
  cases hinput : e.input with
  | frame c m limited muted =>
    cases ht : m.type with
    | attachmentInit =>
      rcases step_frame_cases platform hinput (h := h) (fun obj => by simp only [dispatch, ht]; rfl)
        with hq | ⟨obj, -, -, heq⟩
      · exact hquiet hq
      rw [heq]
      unfold handleAttachmentInit
      split
      · exact keepsRooms_of_eq rfl
      split
      · exact keepsRooms_of_eq rfl
      split
      · exact keepsRooms_of_eq rfl
      split
      · exact keepsRooms_of_eq rfl
      · rename_i hinit
        exact keepsRooms_initializeAttachment (callAttachment_eq_ok hinit)
    | attachmentChunk =>
      rcases step_frame_cases platform hinput (h := h) (fun obj => by simp only [dispatch, ht]; rfl)
        with hq | ⟨obj, -, -, heq⟩
      · exact hquiet hq
      rw [heq]
      unfold handleAttachmentChunk
      split
      · exact keepsRooms_of_eq rfl
      split
      · exact keepsRooms_of_eq rfl
      split
      · exact keepsRooms_of_eq rfl
      split
      · exact keepsRooms_of_eq rfl
      · rename_i hstore
        exact keepsRooms_of_eq (attachments_storeAttachmentChunk (callAttachment_eq_ok hstore))
    | attachmentResume =>
      rcases step_frame_cases platform hinput (h := h) (fun obj => by simp only [dispatch, ht]; rfl)
        with hq | ⟨obj, -, -, heq⟩
      · exact hquiet hq
      rw [heq]
      unfold handleAttachmentResume
      split
      · exact keepsRooms_of_eq rfl
      split
      · exact keepsRooms_of_eq rfl
      split
      · exact keepsRooms_of_eq rfl
      · rename_i hresume
        exact keepsRooms_of_eq (attachments_resumeAttachmentUpload (callAttachment_eq_ok hresume))
    | attachmentCommit =>
      rcases step_frame_cases platform hinput (h := h) (fun obj => by simp only [dispatch, ht]; rfl)
        with hq | ⟨obj, -, -, heq⟩
      · exact hquiet hq
      rw [heq]
      unfold handleAttachmentCommit
      split
      · exact keepsRooms_of_eq rfl
      split
      · exact keepsRooms_of_eq rfl
      split
      · exact keepsRooms_of_eq rfl
      have hcommit := keepsRooms_commitAttachmentUpload h.db.attachments platform.sha256Bytes e.env.now
        (platform.rfc3339 e.env.now) (e.env.fails .commitAttachmentTransaction) m.uploadID
      dsimp only
      split
      · exact hcommit _
      · exact hcommit _
      · exact hcommit _
    | _ =>
      have htouch := touches_readPump platform hs e.env c m limited muted
      simp only [step, hinput]
      exact keepsRooms_of_same (htouch.same .attachments (by simp [ht, frameParts, chatParts]))
  | cleanup =>
    simp only [step, hinput]
    exact keepsRooms_cleanup _ _ _
  | restart adminCode =>
    simp only [step, hinput]
    exact keepsRooms_of_eq rfl
  | _ =>
    have htouch := step_touches platform hs e (by rw [hinput]; rfl)
    rw [hinput] at htouch
    exact keepsRooms_of_same (htouch.same .attachments (by simp [Input.writes]))

/-- An attachment that is there before and after an event keeps its room. -/
theorem attachmentRoom_step (platform : Platform) (hs : Sound h.registry) (e : Event)
    {attachmentID room room' : String} (hroom : h.db.attachments.attachmentRoom attachmentID = some room)
    (hroom' : (step platform h e).db.attachments.attachmentRoom attachmentID = some room') :
    room' = room := by
  unfold AttachmentStore.attachmentRoom at hroom hroom'
  obtain ⟨row, hrow, rfl⟩ := Option.map_eq_some_iff.1 hroom
  obtain ⟨row', hrow', rfl⟩ := Option.map_eq_some_iff.1 hroom'
  have hid := Table.key_of_lookup hrow
  rcases keepsRooms_step platform hs e row' (Table.mem_of_lookup hrow') with
    ⟨base, hbase, hbaseid, hsame⟩ | hnew
  · have heq : base = row := h.db.attachments.attachments.eq_of_clash hbase (Table.mem_of_lookup hrow)
      (Table.keyClash_of_eq _ (hbaseid.trans ((Table.key_of_lookup hrow').trans hid.symm)))
    rw [← hsame, heq]
  · exact absurd (hid.trans (Table.key_of_lookup hrow').symm) (hnew row (Table.mem_of_lookup hrow))

theorem attachmentID_of_readAttachmentChunk {s : AttachmentStore} {sha256Bytes : List UInt8 → String}
    {attachmentID : String} {index : ℤ} {chunk : AttachmentStore.AttachmentDownloadChunk}
    (hread : s.readAttachmentChunk sha256Bytes attachmentID index = .ok chunk) :
    chunk.attachmentID = attachmentID := by
  unfold AttachmentStore.readAttachmentChunk at hread
  split at hread
  · cases hread
  dsimp only at hread
  generalize (if (s.uploads.lookup UploadRow.attachmentID attachmentID).elim 0 UploadRow.chunkSize ≤ 0
    then attachmentChunkSize
    else (s.uploads.lookup UploadRow.attachmentID attachmentID).elim 0 UploadRow.chunkSize) = size
    at hread
  split at hread
  · cases hread
  split at hread
  · cases hread
  split at hread
  · cases hread
  split at hread
  · cases hread
  · cases hread
    rfl

/-- The download handler answers only a member of the attachment's room. -/
theorem emits_handleAttachmentDownload (platform : Platform) (env : Env) (c : ClientID)
    (attachmentID : String) (index : ℤ) (commandID : String) :
    Emits (fun y => y.2.type = .attachmentDownload → y.1 = c ∧ c ∈ h.registry.clients ∧ ∃ room,
        h.db.attachments.attachmentRoom y.2.attachmentID = some room ∧ c ∈ h.registry.members room)
      h.registry (h.handleAttachmentDownload platform env c attachmentID index commandID).registry := by
  unfold handleAttachmentDownload
  split
  · exact Emits.refl _
  rename_i hcon
  dsimp only
  generalize hfound : (if env.fails .attachmentRoom = true then none
    else h.db.attachments.attachmentRoom attachmentID) = found
  split
  · exact emits_tell fun ht => by cases ht
  rename_i hroom
  split
  · exact emits_tell fun ht => by cases ht
  · rename_i chunk hread
    refine emits_tell fun _ => ⟨rfl, ?_, ?_⟩
    · have hready : (h.registry.isConnected c && h.offlineStore) = true := by simpa using hcon
      exact isConnected_iff.1 ((Bool.and_eq_true_iff.1 hready).1)
    · have hid := attachmentID_of_readAttachmentChunk (callAttachment_eq_ok hread)
      have hany : found.any (fun room => h.registry.inRoom room c) = true := by simpa using hroom
      obtain ⟨room, rfl, hin⟩ := (Option.any_eq_true _ _).1 hany
      split at hfound
      · cases hfound
      · refine ⟨room, ?_, ?_⟩
        · change h.db.attachments.attachmentRoom chunk.attachmentID = some room
          rw [hid]
          exact hfound
        · unfold inRoom at hin
          simpa using hin

/-- A chunk goes to a member of the attachment's room. -/
theorem step_download (platform : Platform) (hs : Sound h.registry) {e : Event} {c : ClientID}
    {x : Message} (hx : (c, x) ∈ sentBetween h (step platform h e))
    (ht : x.type = .attachmentDownload) :
    c ∈ h.registry.clients ∧ ∃ room,
      h.db.attachments.attachmentRoom x.attachmentID = some room ∧ c ∈ h.registry.members room := by
  have hsend := type_mem_sends platform hs hx
  rw [ht] at hsend
  cases hinput : e.input with
  | frame d m limited muted =>
    have htype : m.type = .attachmentDownload := by
      cases htype : m.type with
      | attachmentDownload => rfl
      | _ => simp [hinput, Input.sends, htype, frameTypes, chatTypes, roomTypes, recallTypes,
          adminTypes, requestTypes] at hsend
    rcases step_frame_cases platform hinput (h := h) (fun obj => by simp only [dispatch, htype]; rfl)
      with hquiet | ⟨obj, -, -, heq⟩
    · have hquiet := mem_sentBetween hquiet.moves.emits hx
      simp [ht] at hquiet
    · rw [heq] at hx
      obtain ⟨rfl, hc, hroom⟩ := mem_sentBetween
        (emits_handleAttachmentDownload platform e.env d m.attachmentID m.chunkIndex m.commandID) hx ht
      exact ⟨hc, hroom⟩
  | _ => simp [hinput, Input.sends, adminTypes, loginTypes, replayTypes, historyTypes] at hsend

end Hub

end LanChat
