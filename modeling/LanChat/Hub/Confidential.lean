import LanChat.Hub.HistoryLog

/-!
# Confidentiality of private rooms

Who may view a room is kept in memory and ends with the room's definition; rows and attachments
stay in the database under the room's name.  An instance of a room lasts from its creation to its
deletion or to the end of the process.

* `Confidential`: pages and chunks of a private instance go only to clients that could view that
  instance at some time;
* `CleanRun`: no room is created under the name of an earlier private room that left rows or
  attachments, and no private room while a history request under its name is pending;
* `confidential_of_clean`: clean runs are confidential;
* `recreated_room_leaks`: others need not be.
-/

namespace LanChat

namespace Hub

open GoStrings Registry ChatStore EventMachine

variable {h k : Hub}

namespace Trace

variable {r : Trace} {n : ℕ}

/-- What every run keeps about rooms, requests and pages. -/
structure Inv (h : Hub) : Prop where
  sound : Sound h.registry
  lobby : LobbyOpen h
  history : HistoryInv h

theorem inv (r : Trace) (n : ℕ) : Inv (r.hub n) := by
  refine invariant (I := Inv) ⟨sound_start _ _, lobbyOpen_boot, historyInv_start _ _⟩ ?_ n
  intro h e hi
  exact ⟨sound_step _ h e hi.sound, (definitions_step _ hi.sound hi.lobby e).lobby,
    historyInv_step _ hi.sound e hi.history⟩

/-! ### Instances of rooms -/

/-- The room is defined. -/
def Exists (r : Trace) (room : String) (t : ℕ) : Prop :=
  ((r.hub t).roomDefinitions.lookup room).isSome = true

/-- The room is defined at every position between the two, so they are in one instance. -/
def SameInstance (r : Trace) (room : String) (i j : ℕ) : Prop :=
  ∀ t, min i j ≤ t → t ≤ max i j → r.Exists room t

/-- The room is defined and private. -/
def PrivateAt (r : Trace) (room : String) (t : ℕ) : Prop :=
  ∃ definition, (r.hub t).roomDefinitions.lookup room = some definition ∧
    definition.isPrivate = true

/-- The client is an administrator or in the room's `Allowed` set. -/
def CanViewAt (r : Trace) (c : ClientID) (room : String) (t : ℕ) : Prop :=
  ∃ obj definition, (r.hub t).registry.client? c = some obj ∧
    (r.hub t).roomDefinitions.lookup room = some definition ∧
    (obj.isAdmin = true ∨ obj.normalizedCode ∈ definition.allowed)

/-- By position `n` the client could view the instance of the room at position `j`. -/
def Permitted (r : Trace) (c : ClientID) (room : String) (j n : ℕ) : Prop :=
  ∃ t ≤ n, r.SameInstance room j t ∧ r.CanViewAt c room t

/-- Event number `n` sends the message to the client. -/
def SendsAt (r : Trace) (n : ℕ) (c : ClientID) (x : Message) : Prop :=
  n < r.events.length ∧ (c, x) ∈ sentBetween (r.hub n) (r.hub (n + 1))

/-- Event number `j` stores the row. -/
def StoresRowAt (r : Trace) (j : ℕ) (row : ChatRow) : Prop :=
  row ∈ (r.hub (j + 1)).db.chat.messages.rows ∧ (r.hub j).db.chat.lastID < row.id

/-- The message of a page shows the row of a room. -/
def Shows (m : HistoryMessage) (row : ChatRow) : Prop :=
  row.kind = .room ∧ m.type = .chat ∧ m.room = row.room ∧ m.userCode = row.senderCode ∧
    m.messageID = row.messageID

/-- A chunk of the attachment waits in the directory of its upload. -/
def HasChunk (h : Hub) (attachmentID : String) (index : ℤ) : Prop :=
  ∃ upload ∈ h.db.attachments.uploads.rows, upload.attachmentID = attachmentID ∧
    ∃ file ∈ h.db.attachments.partialFiles, file.directory = upload.uploadID ∧ file.index = index

/-- Event number `j` stores the chunk of an attachment that is still there at position `n`. -/
def StoresChunkAt (r : Trace) (j n : ℕ) (attachmentID : String) (index : ℤ) : Prop :=
  ¬ HasChunk (r.hub j) attachmentID index ∧ HasChunk (r.hub (j + 1)) attachmentID index ∧
    ∀ t, j ≤ t → t ≤ n →
      ((r.hub t).db.attachments.attachmentRoom attachmentID).isSome = true

/-- Nobody is sent a row or a chunk of a private instance that they could never view. -/
structure Confidential (r : Trace) : Prop where
  history : ∀ n c x m j row, r.SendsAt n c x → x.type = .historyResponse → m ∈ x.messages → j < n →
    r.StoresRowAt j row → Shows m row → r.PrivateAt row.conversationKey j →
    r.Permitted c row.conversationKey j n
  download : ∀ n c x j room, r.SendsAt n c x → x.type = .attachmentDownload → j < n →
    r.StoresChunkAt j n x.attachmentID x.chunkIndex →
    (r.hub j).db.attachments.attachmentRoom x.attachmentID = some room → r.PrivateAt room j →
    r.Permitted c room j n

/-- The database has no row and no attachment of the room. -/
def NoLeftovers (h : Hub) (room : String) : Prop :=
  ¬ h.db.chat.HasRows .room room ∧
    ∀ attachment ∈ h.db.attachments.attachments.rows, attachment.room ≠ room

/-- No history request for the room is pending. -/
def NoPending (h : Hub) (room : String) : Prop :=
  ∀ job ∈ h.pendingJobs, job.isPrivate = false → job.room ≠ room

/-- Room creations do not take over what an earlier instance left. -/
def CleanRun (r : Trace) : Prop :=
  ∀ n (hn : n < r.events.length) room isPrivate, Opens (r.hub n) r.events[n] room isPrivate →
    ((∃ j ≤ n, r.PrivateAt room j) → NoLeftovers (r.hub n) room) ∧
      (isPrivate = true → NoPending (r.hub n) room)

/-! ### Instances begin with a creation -/

section Instances

variable {room : String} {i j t : ℕ} {c : ClientID}

theorem PrivateAt.exists (hp : r.PrivateAt room t) : r.Exists room t := by
  obtain ⟨definition, hdef, -⟩ := hp
  unfold Exists
  rw [hdef]
  rfl

theorem PrivateAt.ne_lobby (hp : r.PrivateAt room t) : room ≠ defaultRoomName := by
  rintro rfl
  obtain ⟨definition, hdef, hprivate⟩ := hp
  obtain ⟨d, hd, hpublic⟩ := (r.inv t).lobby
  obtain rfl := Option.some_injective _ (hdef.symm.trans hd)
  rw [hprivate] at hpublic
  cases hpublic

theorem not_opens_of_exists (he : r.Exists room t) {e : Event} {isPrivate : Bool} :
    ¬ Opens (r.hub t) e room isPrivate := by
  rintro ⟨_, _, _, -, -, -, -, -, hnone⟩
  unfold Exists at he
  rw [hnone] at he
  cases he

theorem defines_at (hn : n < r.events.length) :
    Defines (Opens (r.hub n) r.events[n]) (r.hub n) (r.hub (n + 1)) := by
  rw [hub_succ hn]
  exact definitions_step r.platform (r.inv n).sound (r.inv n).lobby _

/-- A room that is defined after an event was defined before or is opened by it. -/
theorem exists_back (hn : n < r.events.length) (hroom : room ≠ defaultRoomName)
    (he : r.Exists room (n + 1)) :
    r.Exists room n ∨ ∃ isPrivate, Opens (r.hub n) r.events[n] room isPrivate := by
  obtain ⟨d', hd'⟩ := Option.isSome_iff_exists.1 he
  rcases (defines_at hn).origin room d' hroom hd' with ⟨d, hd, -⟩ | hopens
  · exact .inl (Option.isSome_iff_exists.2 ⟨d, hd⟩)
  · exact .inr ⟨_, hopens⟩

/-- A private room was private before the event or is opened as a private room. -/
theorem private_back (hn : n < r.events.length) (hp : r.PrivateAt room (n + 1)) :
    r.PrivateAt room n ∨ Opens (r.hub n) r.events[n] room true := by
  have hroom := hp.ne_lobby
  obtain ⟨d', hd', hprivate⟩ := hp
  rcases (defines_at hn).origin room d' hroom hd' with ⟨d, hd, hsame⟩ | hopens
  · exact .inl ⟨d, hd, hsame ▸ hprivate⟩
  · rw [hprivate] at hopens
    exact .inr hopens

/-- Between two neighbouring positions of an instance the privacy is the same. -/
theorem private_forward (hn : n < r.events.length) (hp : r.PrivateAt room n)
    (he : r.Exists room (n + 1)) : r.PrivateAt room (n + 1) := by
  have hroom := hp.ne_lobby
  have hexists := hp.exists
  obtain ⟨d, hd, hprivate⟩ := hp
  obtain ⟨d', hd'⟩ := Option.isSome_iff_exists.1 he
  rcases (defines_at hn).origin room d' hroom hd' with ⟨d'', hd'', hsame⟩ | hopens
  · obtain rfl := Option.some_injective _ (hd.symm.trans hd'')
    exact ⟨d', hd', hsame.trans hprivate⟩
  · exact absurd hopens (not_opens_of_exists hexists)

/-- Privacy is the same throughout an instance. -/
theorem private_of_sameInstance (hj : j ≤ r.events.length) (ht : t ≤ r.events.length)
    (hp : r.PrivateAt room j) (hsame : r.SameInstance room j t) : r.PrivateAt room t := by
  rcases Nat.le_total j t with hjt | htj
  · rw [SameInstance, min_eq_left hjt, max_eq_right hjt] at hsame
    induction t, hjt using Nat.le_induction with
    | base => exact hp
    | succ t hjt ih =>
      have hpt := ih (by omega) fun s hs hst => hsame s hs (by omega)
      exact private_forward (by omega) hpt (hsame (t + 1) (by omega) (Nat.le_refl _))
  · rw [SameInstance, min_eq_right htj, max_eq_left htj] at hsame
    refine holds_downward (P := fun s => r.PrivateAt room s) (i := t) (j := j) ?_ hp t (Nat.le_refl t) htj
    intro s hts hsj hps
    rcases private_back (by omega) hps with hps | hopens
    · exact hps
    · exact absurd hopens (not_opens_of_exists (hsame s hts (by omega)))

/-- Without a creation in between, a room that is defined later was defined before. -/
theorem exists_between (hj : j ≤ r.events.length) (hroom : room ≠ defaultRoomName)
    (he : r.Exists room j)
    (hno : ∀ s (hs : s < r.events.length) isPrivate, i ≤ s → s < j →
      ¬ Opens (r.hub s) r.events[s] room isPrivate) : ∀ t, i ≤ t → t ≤ j → r.Exists room t := by
  refine holds_downward ?_ he
  intro s his hsj hs
  rcases exists_back (by omega) hroom hs with hs | ⟨isPrivate, hopens⟩
  · exact hs
  · exact absurd hopens (hno s (by omega) isPrivate his hsj)

/-! ### Where members and requests come from -/

/-- The client may join the room. -/
def JoinableAt (r : Trace) (c : ClientID) (room : String) (t : ℕ) : Prop :=
  ∃ obj definition, (r.hub t).registry.client? c = some obj ∧
    (r.hub t).roomDefinitions.lookup room = some definition ∧ canJoinRoom obj definition = true

theorem JoinableAt.exists (hjoin : r.JoinableAt c room t) : r.Exists room t := by
  obtain ⟨obj, definition, -, hdef, -⟩ := hjoin
  unfold Exists
  rw [hdef]
  rfl

/-- Who may join a private room may view it. -/
theorem JoinableAt.canView (hjoin : r.JoinableAt c room t) (hp : r.PrivateAt room t) :
    r.CanViewAt c room t := by
  obtain ⟨obj, definition, hobj, hdef, hcan⟩ := hjoin
  obtain ⟨definition', hdef', hprivate⟩ := hp
  obtain rfl := Option.some_injective _ (hdef.symm.trans hdef')
  refine ⟨obj, definition, hobj, hdef, ?_⟩
  simpa [canJoinRoom, hprivate] using hcan

/-- Whoever is in a room other than the lobby could join the instance. -/
theorem member_joined (hn : n ≤ r.events.length) :
    ∀ c ∈ (r.hub n).registry.clients, ∀ obj, (r.hub n).registry.client? c = some obj →
      obj.room ≠ defaultRoomName → ∃ t ≤ n, (∀ s, t ≤ s → s ≤ n → r.Exists obj.room s) ∧
        r.JoinableAt c obj.room t := by
  induction n with
  | zero =>
    intro c hc
    cases hc
  | succ n ih =>
    intro c hc obj hobj hroom
    have hplaced : Placed (r.hub n) (r.hub (n + 1)) := by
      rw [hub_succ hn]
      exact places_step r.platform (r.inv n).sound (r.inv n).lobby _
    rcases hplaced c hc obj hobj hroom with ⟨hc', o, ho, horoom, hkept⟩ | ⟨definition, hdef, hcan⟩
    · obtain ⟨t, htn, hexists, hjoin⟩ := ih (by omega) c hc' o ho (horoom ▸ hroom)
      rw [horoom] at hexists hjoin
      refine ⟨t, by omega, fun s hts hsn => ?_, hjoin⟩
      rcases Nat.lt_or_ge n s with hns | hsn'
      · obtain rfl : s = n + 1 := by omega
        exact hkept (hexists n htn (Nat.le_refl n))
      · exact hexists s hts hsn'
    · have hjoin : r.JoinableAt c obj.room (n + 1) := ⟨obj, definition, hobj, hdef, hcan⟩
      refine ⟨n + 1, Nat.le_refl _, fun s hs hs' => ?_, hjoin⟩
      obtain rfl : s = n + 1 := by omega
      exact hjoin.exists

/-- A pending request for a room was granted, and has been pending since. -/
theorem pending_granted (hn : n ≤ r.events.length) :
    ∀ job ∈ (r.hub n).pendingJobs, job.isPrivate = false → ∃ a < n,
      r.JoinableAt job.client job.room a ∧ ∀ t, a < t → t ≤ n → job ∈ (r.hub t).pendingJobs := by
  induction n with
  | zero =>
    intro job hjob
    cases hjob
  | succ n ih =>
    intro job hjob hprivate
    have hqueues : Queues (r.hub n) (r.hub (n + 1)) := by
      rw [hub_succ hn]
      exact pendingJobs_step r.platform (r.inv n).sound _
    rcases hqueues.1 job hjob with hold | hgranted
    · obtain ⟨a, han, hjoin, hsince⟩ := ih (by omega) job hold hprivate
      refine ⟨a, by omega, hjoin, fun t hat htn => ?_⟩
      rcases Nat.lt_or_ge n t with hnt | htn'
      · obtain rfl : t = n + 1 := by omega
        exact hjob
      · exact hsince t hat htn'
    · refine ⟨n, Nat.lt_succ_self n, hgranted.access hprivate, fun t hnt htn => ?_⟩
      obtain rfl : t = n + 1 := by omega
      exact hjob

/-- A conversation that has rows keeps some. -/
theorem hasRows_mono (hij : i ≤ j) (hj : j ≤ r.events.length) {kind : ChatKind} {key : String}
    (hrows : (r.hub i).db.chat.HasRows kind key) : (r.hub j).db.chat.HasRows kind key := by
  induction j, hij using Nat.le_induction with
  | base => exact hrows
  | succ j hij ih =>
    rw [hub_succ hj]
    exact (step_grows r.platform (r.inv j).sound _).kept kind key (ih (by omega))

/-- An attachment that stays keeps its room. -/
theorem attachmentRoom_const (hij : i ≤ j) (hj : j ≤ r.events.length) {attachmentID room' : String}
    (hthere : ∀ t, i ≤ t → t ≤ j →
      ((r.hub t).db.attachments.attachmentRoom attachmentID).isSome = true)
    (hi : (r.hub i).db.attachments.attachmentRoom attachmentID = some room)
    (hroom' : (r.hub j).db.attachments.attachmentRoom attachmentID = some room') : room' = room := by
  induction j, hij using Nat.le_induction generalizing room' with
  | base => exact Option.some_injective _ (hroom'.symm.trans hi)
  | succ j hij ih =>
    obtain ⟨mid, hmid⟩ := Option.isSome_iff_exists.1 (hthere j hij (by omega))
    have hsame := ih (by omega) (fun t hit htj => hthere t hit (by omega)) hmid
    rw [hub_succ hj] at hroom'
    exact (attachmentRoom_step r.platform (r.inv j).sound _ hmid hroom').trans hsame

/-! ### Clean runs are confidential -/

/-- In a clean run, a room that was private while its rows or attachments were stored is not created
again as long as they are there. -/
theorem CleanRun.exists_since (hclean : CleanRun r) (hj : j ≤ r.events.length)
    (hp : r.PrivateAt room i) (he : r.Exists room j)
    (hleft : ∀ s, i < s → s < j → ¬ NoLeftovers (r.hub s) room) :
    ∀ t, i ≤ t → t ≤ j → r.Exists room t := by
  refine exists_between hj hp.ne_lobby he ?_
  intro s hs isPrivate his hsj hopens
  rcases Nat.eq_or_lt_of_le his with rfl | his
  · exact not_opens_of_exists hp.exists hopens
  · exact hleft s his hsj ((hclean s hs room isPrivate hopens).1 ⟨i, Nat.le_of_lt his, hp⟩)

/-- In a clean run, a room that is private while a request for it is pending was private when the
request was granted. -/
theorem CleanRun.private_since (hclean : CleanRun r) (hj : j ≤ r.events.length)
    (hp : r.PrivateAt room j) (he : r.Exists room i)
    (hpending : ∀ s, i < s → s < j → ¬ NoPending (r.hub s) room) :
    ∀ t, i ≤ t → t ≤ j → r.PrivateAt room t := by
  refine holds_downward ?_ hp
  intro s his hsj hs
  rcases private_back (by omega) hs with hs | hopens
  · exact hs
  rcases Nat.eq_or_lt_of_le his with rfl | his
  · exact absurd hopens (not_opens_of_exists he)
  · exact absurd ((hclean s (by omega) room true hopens).2 rfl) (hpending s his hsj)

/-- A request of a clean run that is granted at one position and answered at another concerns the
instance of whatever has been stored before the answer. -/
theorem CleanRun.permitted_history (hclean : CleanRun r) {a : ℕ} (hn : n ≤ r.events.length)
    (hjn : j < n) (han : a < n) (hp : r.PrivateAt room j)
    (hrows : (r.hub (j + 1)).db.chat.HasRows .room room) (hjoin : r.JoinableAt c room a)
    (hpending : ∀ t, a < t → t ≤ n → ¬ NoPending (r.hub t) room) : r.Permitted c room j n := by
  have hsame : r.SameInstance room j a := by
    unfold SameInstance
    rcases Nat.lt_or_ge j a with hja | haj
    · -- the rows are older than the request and keep the name
      rw [min_eq_left (Nat.le_of_lt hja), max_eq_right (Nat.le_of_lt hja)]
      refine hclean.exists_since (by omega) hp hjoin.exists fun s hjs hsa hnone => ?_
      exact hnone.1 (hasRows_mono hjs (by omega) hrows)
    · -- the request is older than the rows and keeps the name
      rw [min_eq_right haj, max_eq_left haj]
      have hprivate := hclean.private_since (by omega) hp hjoin.exists
        fun s has hsj => hpending s has (by omega)
      exact fun t hat htj => (hprivate t hat htj).exists
  have hpa := private_of_sameInstance (by omega) (by omega) hp hsame
  exact ⟨a, Nat.le_of_lt han, hsame, hjoin.canView hpa⟩

/-- Clean runs are confidential. -/
theorem confidential_of_clean (r : Trace) (hclean : CleanRun r) : Confidential r := by
  constructor
  · intro n c x m j row hsend ht hm hjn hstore hshows hp
    obtain ⟨hn, hsent⟩ := hsend
    rw [hub_succ hn] at hsent
    obtain ⟨result, hresult, page, hpage, rfl, rfl⟩ :=
      step_historyResponse r.platform (r.inv n).sound hsent ht
    obtain ⟨hkind, hmtype, hmroom, -, -⟩ := hshows
    -- the message renders a row of the page, which is about the room of the job
    obtain ⟨shown, hshown, rfl⟩ := List.mem_map.1 hm
    have hshownkind : shown.kind = .room := by
      cases hk : shown.kind with
      | room => rfl
      | privateChat => simp [ChatRow.toMessage, hk] at hmtype
    obtain ⟨hprivate, hroom⟩ :=
      (r.inv n).history.pages result hresult page hpage shown hshown hshownkind
    have hrow : row.room = row.conversationKey := (r.inv (j + 1)).history.named row hstore.1 hkind
    have hjob : result.job.room = row.conversationKey :=
      hroom.symm.trans (Eq.trans hmroom hrow)
    have hjobs : result.job ∈ (r.hub n).pendingJobs :=
      mem_pendingJobs.2 (.inr (.inr ⟨result, hresult, rfl⟩))
    obtain ⟨a, han, hjoin, hsince⟩ := pending_granted (Nat.le_of_lt hn) _ hjobs hprivate
    rw [hjob] at hjoin
    refine hclean.permitted_history (Nat.le_of_lt hn) hjn han hp
      ⟨row, hstore.1, by simp [ChatRow.inConversation, hkind]⟩ hjoin fun t hat htn hnone => ?_
    exact hnone _ (hsince t hat htn) hprivate hjob
  · intro n c x j room hsend ht hjn hstore hroom hp
    obtain ⟨hn, hsent⟩ := hsend
    rw [hub_succ hn] at hsent
    obtain ⟨hc, room', hroom', hmember⟩ := step_download r.platform (r.inv n).sound hsent ht
    obtain ⟨-, -, hthere⟩ := hstore
    obtain rfl := attachmentRoom_const (Nat.le_of_lt hjn) (Nat.le_of_lt hn) hthere hroom hroom'
    -- the client is in the attachment's room, hence could join this instance of it
    obtain ⟨obj, hobj, -, -⟩ := (r.inv n).sound.online c hc
    have hin := (r.inv n).sound.one_room c hc obj hobj room' hmember
    obtain ⟨t, htn, hexists, hjoin⟩ :=
      member_joined (Nat.le_of_lt hn) c hc obj hobj (hin ▸ hp.ne_lobby)
    rw [hin] at hexists hjoin
    have hsince : ∀ s, j ≤ s → s ≤ n → r.Exists room' s := by
      refine hclean.exists_since (Nat.le_of_lt hn) hp (hexists n htn (Nat.le_refl n)) ?_
      intro s hjs hsn hnone
      obtain ⟨other, hother⟩ := Option.isSome_iff_exists.1 (hthere s (Nat.le_of_lt hjs) (Nat.le_of_lt hsn))
      obtain rfl := attachmentRoom_const (Nat.le_of_lt hjs) (by omega)
        (fun u hju hus => hthere u hju (by omega)) hroom hother
      obtain ⟨attachment, hattachment, hsame⟩ := Option.map_eq_some_iff.1 hother
      exact hnone.2 attachment (Table.mem_of_lookup hattachment) hsame
    have hsame : r.SameInstance room' j t := by
      intro s hmin hmax
      rcases Nat.lt_or_ge s t with hst | hts
      · exact hsince s (by omega) (by omega)
      · exact hexists s hts (by omega)
    exact ⟨t, htn, hsame, hjoin.canView
      (private_of_sameInstance (by omega) (by omega) hp hsame)⟩

end Instances

/-! ### Runs -/

/-- Alice opens a private room, writes in it and reads its history. -/
def ownHistory : Trace where
  platform := samplePlatform
  adminCode := ""
  offlineStore := true
  events := sessionEvents 0 "Alice" "alice" ++
    [frameEvent 0 { type := .roomCreate, room := "den", isPrivate := true },
      frameEvent 0 { type := .chat, room := "den", content := "secret" },
      frameEvent 0 { type := .historyRequest, room := "den" }, ⟨.takeHistoryJob, {}⟩,
      ⟨.runHistoryJob, {}⟩, ⟨.historyResult, {}⟩]

/-- A frame that asks for a new room. -/
def isCreation : Input → Bool
  | .frame _ m _ _ => m.type == .roomCreate
  | _ => false

theorem confidential_of_clean_own_history : Confidential ownHistory := by
  refine confidential_of_clean ownHistory ?_
  -- only event 3 is a creation
  have hevents : ∀ k : Fin ownHistory.events.length, k.val ≠ 3 →
      isCreation ownHistory.events[k].input = false := by
    decide +kernel
  rintro n hn room isPrivate ⟨c, obj, m, ⟨⟨limited, muted, hinput⟩, -⟩, -, ht, -⟩
  have hn3 : n = 3 := by
    by_contra hne
    have hother := hevents ⟨n, hn⟩ hne
    simp only [Fin.getElem_fin, hinput, isCreation, ht] at hother
    cases hother
  subst hn3
  have hrows : (ownHistory.hub 3).db.chat.messages.rows = [] := by decide +kernel
  have hattachments : (ownHistory.hub 3).db.attachments.attachments.rows = [] := by decide +kernel
  have hjobs : (ownHistory.hub 3).pendingJobs = [] := by decide +kernel
  refine ⟨fun _ => ⟨?_, ?_⟩, fun _ => ?_⟩
  · rintro ⟨row, hrow, -⟩
    rw [hrows] at hrow
    cases hrow
  · intro attachment hattachment
    rw [hattachments] at hattachment
    cases hattachment
  · intro job hjob
    rw [hjobs] at hjob
    cases hjob

/-- Alice writes in a private room and deletes it; Bob opens a room under the same name and reads
its history. -/
def recreated : Trace where
  platform := samplePlatform
  adminCode := ""
  offlineStore := true
  events := sessionEvents 0 "Alice" "alice" ++ sessionEvents 1 "Bob" "bob" ++
    [frameEvent 0 { type := .roomCreate, room := "den", isPrivate := true },
      frameEvent 0 { type := .chat, room := "den", content := "secret" },
      frameEvent 0 { type := .roomAction, room := "den", content := "delete" },
      frameEvent 1 { type := .roomCreate, room := "den", isPrivate := true },
      frameEvent 1 { type := .historyRequest, room := "den" }, ⟨.takeHistoryJob, {}⟩,
      ⟨.runHistoryJob, {}⟩, ⟨.historyResult, {}⟩]

/-- The row of Alice's chat. -/
def secretRow : ChatRow :=
  { id := 1, messageID := "1", kind := .room, conversationKey := "den", room := "den"
    senderUsername := "Alice", senderCode := "alice", targetCode := "", content := "secret"
    crypto := "", deliveryState := "sent", createdAt := "1970-01-01T00:00:00Z", recalled := false }

/-- The page that Bob gets. -/
def leakedPage : Message :=
  { type := .historyResponse, room := "den", messages := [secretRow.toMessage] }

theorem recreated_room_leaks : ¬ ∀ r : Trace, Confidential r := by
  intro hclaim
  have hsend : recreated.SendsAt 13 1 leakedPage := ⟨by decide, by decide +kernel⟩
  have hstore : recreated.StoresRowAt 7 secretRow := ⟨by decide +kernel, by decide +kernel⟩
  have hprivate : recreated.PrivateAt "den" 7 :=
    ⟨{ ownerCode := "alice", isPrivate := true, allowed := ["alice"] }, by decide +kernel, rfl⟩
  obtain ⟨t, -, hsame, hview⟩ := (hclaim recreated).history 13 1 leakedPage secretRow.toMessage 7
    secretRow hsend rfl (List.mem_singleton.2 rfl) (by decide) hstore ⟨rfl, rfl, rfl, rfl, rfl⟩ hprivate
  -- the room of Alice ends with event 8, and Bob is never in its `Allowed` set
  have hgone : ¬ recreated.Exists "den" 9 := by
    unfold Exists
    decide +kernel
  have ht : t < 9 := by
    by_contra hlt
    exact hgone (hsame 9 (by omega) (by omega))
  have hnever : ∀ t < 9, ((recreated.hub t).registry.client? 1).any (fun obj =>
      ((recreated.hub t).roomDefinitions.lookup "den").any fun definition =>
        obj.isAdmin || definition.allowed.contains obj.normalizedCode) = false := by
    decide +kernel
  obtain ⟨obj, definition, hobj, hdef, hcan⟩ := hview
  have hden : (recreated.hub t).roomDefinitions.lookup "den" = some definition := hdef
  have hfalse := hnever t ht
  rw [hobj, hden] at hfalse
  simp only [Option.any_some, Bool.or_eq_false_iff] at hfalse
  rcases hcan with hcan | hcan
  · rw [hcan] at hfalse
    cases hfalse.1
  · simp [hcan] at hfalse

end Trace

end Hub

end LanChat
