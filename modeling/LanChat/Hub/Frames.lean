import LanChat.Hub.Moves
import LanChat.Hub.Step

/-!
# What each handler touches

* `Part`: the parts of the Hub beside the registry;
* `Hub.Touches parts types h k`: only the given parts may differ, and the registry changes by moves
  that send only messages of the given types.

Every handler has one lemma in these terms.  `step_touches` puts them together for every event but
a restart, and `sound_run` is its first use.
-/

namespace LanChat

open GoStrings

/-- The parts of the Hub beside the registry, and `places`, which stands for clients that come or
change rooms. -/
inductive Part
  | mls
  | chat
  | attachments
  | records
  | counter
  | definitions
  | approvals
  | history
  | config
  | places
  deriving DecidableEq, Repr

/-- Two Hubs agree on a part. -/
def Part.Same : Part → Hub → Hub → Prop
  | .mls, h, k => k.db.mls = h.db.mls
  | .chat, h, k => k.db.chat = h.db.chat
  | .attachments, h, k => k.db.attachments = h.db.attachments
  | .records, h, k => k.messageRecords = h.messageRecords
  | .counter, h, k => k.nextMessageID = h.nextMessageID
  | .definitions, h, k => k.roomDefinitions = h.roomDefinitions
  | .approvals, h, k => k.approvals = h.approvals ∧ k.nextApprovalID = h.nextApprovalID ∧
      k.decisions = h.decisions
  | .history, h, k => k.historyJobs = h.historyJobs ∧ k.inHand = h.inHand ∧
      k.historyResults = h.historyResults
  | .config, h, k => k.adminCode = h.adminCode ∧ k.offlineStore = h.offlineStore
  | .places, _, _ => True

theorem Part.Same.refl (p : Part) (h : Hub) : p.Same h h := by
  cases p <;> simp [Part.Same]

theorem Part.Same.trans {p : Part} {h k l : Hub} (a : p.Same h k) (b : p.Same k l) :
    p.Same h l := by
  cases p with
  | approvals => exact ⟨b.1.trans a.1, b.2.1.trans a.2.1, b.2.2.trans a.2.2⟩
  | history => exact ⟨b.1.trans a.1, b.2.1.trans a.2.1, b.2.2.trans a.2.2⟩
  | config => exact ⟨b.1.trans a.1, b.2.trans a.2⟩
  | places => trivial
  | _ => exact Eq.trans b a

namespace Hub

open Registry

variable {h k l : Hub} {parts parts' : List Part} {types types' : List MessageType} {walks : Prop}

theorem call_eq_ok {α : Type} {env : Env} {d : DbCall} {x : Except GoError α} {a : α} :
    env.call d x = .ok a ↔ env.fails d = false ∧ x = .ok a := by
  unfold Env.call
  split_ifs with h
  · simp [h]
  · simp [h]

theorem callAttachment_eq_ok {α : Type} {env : Env} {d : DbCall}
    {x : Except AttachmentError α} {a : α} (h : env.callAttachment d x = .ok a) : x = .ok a := by
  unfold Env.callAttachment at h
  split at h
  · cases h
  · exact h

/-! ### Footprints -/

/-- Only the given parts may differ, and the registry changes by moves that send only messages of
the given types. -/
structure Touches (parts : List Part) (types : List MessageType) (h k : Hub) : Prop where
  same : ∀ p, p ∉ parts → p.Same h k
  moves : Moves (.places ∈ parts) types h.registry k.registry

theorem Touches.refl (h : Hub) : Touches parts types h h :=
  ⟨fun p _ => Part.Same.refl p h, Moves.refl _⟩

theorem Touches.trans (a : Touches parts types h k) (b : Touches parts types k l) :
    Touches parts types h l :=
  ⟨fun p hp => (a.same p hp).trans (b.same p hp), a.moves.trans b.moves⟩

theorem Touches.mono (hparts : parts ⊆ parts') (htypes : types ⊆ types')
    (a : Touches parts types h k) : Touches parts' types' h k :=
  ⟨fun p hp => a.same p fun h => hp (hparts h), a.moves.mono (fun h => hparts h) htypes⟩

theorem touches_onRegistry {f : Registry → Registry}
    (hf : Moves (.places ∈ parts) types h.registry (f h.registry)) :
    Touches parts types h (h.onRegistry f) :=
  ⟨fun p _ => by cases p <;> simp [Part.Same, onRegistry], hf⟩

theorem touches_tell {c : ClientID} {m : Message} {t : MessageType} (ht : m.type = t)
    (hm : t ∈ types) : Touches parts types h (h.tell c m) :=
  touches_onRegistry (moves_tell (ht ▸ hm))

theorem touches_deliverError (herr : .error ∈ types) (c : ClientID)
    (content messageID commandID : String) :
    Touches parts types h (h.deliverError c content messageID commandID) :=
  touches_onRegistry (moves_deliverError herr c content messageID commandID)

/-- Two Hubs with the same registry that agree outside the given parts. -/
theorem touches_of_same (hreg : k.registry = h.registry) (hsame : ∀ p, p ∉ parts → p.Same h k) :
    Touches parts types h k := ⟨hsame, hreg ▸ Moves.refl _⟩

theorem touches_withMls (hp : .mls ∈ parts) (mls : MlsStore) :
    Touches parts types h (h.withMls mls) :=
  touches_of_same rfl fun p hp' => by cases p <;> first | exact absurd hp hp' | simp [Part.Same, withMls]

theorem touches_withAttachments (hp : .attachments ∈ parts) (attachments : AttachmentStore) :
    Touches parts types h (h.withAttachments attachments) :=
  touches_of_same rfl fun p hp' => by
    cases p <;> first | exact absurd hp hp' | simp [Part.Same, withAttachments]

theorem touches_setChat (hp : .chat ∈ parts) (chat : ChatStore) :
    Touches parts types h { h with db := { h.db with chat } } :=
  touches_of_same rfl fun p hp' => by cases p <;> first | exact absurd hp hp' | simp [Part.Same]

theorem touches_setDefinitions (hp : .definitions ∈ parts)
    (roomDefinitions : AList fun _ : String => RoomDefinition) :
    Touches parts types h { h with roomDefinitions } :=
  touches_of_same rfl fun p hp' => by cases p <;> first | exact absurd hp hp' | simp [Part.Same]

theorem touches_setRecords (hp : .records ∈ parts)
    (messageRecords : AList fun _ : String => MessageRecord) :
    Touches parts types h { h with messageRecords } :=
  touches_of_same rfl fun p hp' => by cases p <;> first | exact absurd hp hp' | simp [Part.Same]

theorem touches_setApprovals (hp : .approvals ∈ parts)
    (approvals : AList fun _ : String => PendingApproval) (nextApprovalID : UInt64)
    (decisions : List (String × Bool)) :
    Touches parts types h { h with approvals, nextApprovalID, decisions } :=
  touches_of_same rfl fun p hp' => by cases p <;> first | exact absurd hp hp' | simp [Part.Same]

theorem touches_setHistory (hp : .history ∈ parts) (historyJobs : List HistoryJob)
    (inHand : Option HistoryJob) (historyResults : List HistoryResult) :
    Touches parts types h { h with historyJobs, inHand, historyResults } :=
  touches_of_same rfl fun p hp' => by cases p <;> first | exact absurd hp hp' | simp [Part.Same]

/-- A write to some parts, then moves of the registry. -/
theorem Touches.withRegistry {r : Registry} (a : Touches parts types h k)
    (hr : Moves (.places ∈ parts) types k.registry r) : Touches parts types h { k with registry := r } :=
  a.trans (touches_onRegistry (f := fun _ => r) hr)

/-! ### Registration -/

/-- The types that registration, approvals and administration send. -/
def adminTypes : List MessageType :=
  [.system, .error, .connectionApprovalRequest, .connectionApprovalResult]

theorem touches_unregisterClient (hsys : .system ∈ types) (env : Env) (c : ClientID) :
    Touches parts types h (h.onRegistry fun r => r.unregisterClient env c) :=
  touches_onRegistry (moves_unregisterClient hsys env c)

theorem touches_ensureLobby (hp : .definitions ∈ parts) : Touches parts types h h.ensureLobby := by
  unfold ensureLobby
  split
  · exact Touches.refl h
  · exact touches_setDefinitions hp _

theorem registry_ensureLobby : h.ensureLobby.registry = h.registry := by
  unfold ensureLobby
  split <;> rfl

theorem moves_tellApprovals {r : Registry} (env : Env)
    (approvals : AList fun _ : String => PendingApproval) (c : ClientID) :
    Moves walks adminTypes r (tellApprovals r env approvals c) := by
  refine moves_foldl (fun r id _ => ?_) r
  cases approvals.lookup id with
  | none => exact Moves.refl r
  | some p => exact moves_tell (by simp [adminTypes, pendingApprovalMessage])

theorem touches_completeRegistration (hp : .places ∈ parts) (env : Env) {obj : Client}
    (hobj : ValidClient obj) (hnew : obj.send = [] ∧ obj.replay = [])
    (hfree : h.registry.active? obj.normalizedCode = none) :
    Touches parts adminTypes h (h.completeRegistration env obj) := by
  unfold completeRegistration
  refine touches_onRegistry ?_
  have hann : ∀ o : Client, ValidClient o → (o.send = [] ∧ o.replay = []) →
      h.registry.active? o.normalizedCode = none →
      Moves (.places ∈ parts) adminTypes h.registry ((enroll h.registry o).broadcastSystemMessageToRoom
        env o.room (presenceMessage o "joined the chat")) := by
    intro o ho hnew hfree
    exact (Move.enroll _ o hp ho hnew hfree).moves.trans
      (moves_broadcastSystemMessageToRoom (by decide) env _ _)
  have hadmin := hann
    { obj with isAdmin := h.adminCode != "" && obj.normalizedCode == h.adminCode }
    ⟨hobj.code, hobj.room, hobj.replay⟩ hnew hfree
  dsimp only
  split
  · exact hadmin.trans (moves_tellApprovals env h.approvals _)
  · exact hadmin

theorem touches_handleRegisterRequest (hs : Sound h.registry) (env : Env) {obj : Client}
    (hobj : ValidClient obj) (hnew : obj.send = [] ∧ obj.replay = []) :
    Touches [.definitions, .places] adminTypes h (h.handleRegisterRequest env obj).2 := by
  unfold handleRegisterRequest
  split
  · exact Touches.refl h
  refine (touches_ensureLobby (by decide)).trans ?_
  dsimp only
  split
  · rename_i c hact
    split
    · rw [registry_ensureLobby] at hact
      have hfree : (h.ensureLobby.onRegistry fun r => r.unregisterClient env c).registry.active?
          obj.normalizedCode = none := by
        change (h.ensureLobby.registry.unregisterClient env c).active? _ = none
        rw [registry_ensureLobby]
        exact active?_unregisterClient hs env hact
      exact (touches_unregisterClient (by decide) env _).trans
        (touches_completeRegistration (by decide) env hobj hnew hfree)
    · exact Touches.refl _
  · rename_i hact
    split
    · exact Touches.refl _
    · exact touches_completeRegistration (by decide) env hobj hnew hact

/-! ### Rooms -/

/-- The types that the room handlers send. -/
def roomTypes : List MessageType := [.system, .error, .usersResponse, .roomsResponse]

theorem isOk_iff {x : Except GoError Unit} : x.isOk = true ↔ x = .ok () := by
  cases x <;> simp [Except.isOk, Except.toBool]

theorem moves_changeRoom {r : Registry} (hw : walks) (hsys : .system ∈ types) (env : Env)
    {c : ClientID} {obj : Client} (hc : r.client? c = some obj) {room : String}
    (hroom : validateRoomName room = .ok ()) : Moves walks types r (r.changeRoom env c obj room) := by
  unfold changeRoom
  have hlen := (fades_broadcastSystemMessageToRoom (r := r) env obj.room
    (presenceMessage obj ("left room " ++ obj.room))).length
  have h1 : Moves walks types r (r.broadcastSystemMessageToRoom env obj.room
      (presenceMessage obj ("left room " ++ obj.room))) :=
    moves_broadcastSystemMessageToRoom hsys env _ _
  have h2 := h1.trans (Move.go _ c room hw (by rw [hlen]; exact client?_lt hc) hroom).moves
  exact h2.trans (moves_broadcastSystemMessageToRoom hsys env room _)

section Rooms

variable (hsys : .system ∈ types) (herr : .error ∈ types)

include hsys

include herr in
theorem touches_handleRoomJoin (hp : .places ∈ parts) (env : Env) (c : ClientID) (room : String) :
    Touches parts types h (h.handleRoomJoin env c room) := by
  unfold handleRoomJoin
  split
  · exact Touches.refl h
  rename_i obj hobj
  split
  · exact Touches.refl h
  split
  · exact touches_deliverError herr c _ _ _
  rename_i hvalid
  have hroom : validateRoomName room = .ok () := isOk_iff.1 (by simpa using hvalid)
  split
  · exact touches_deliverError herr c _ _ _
  split
  · exact touches_deliverError herr c _ _ _
  split
  · exact touches_tell (t := .system) rfl hsys
  · exact touches_onRegistry (moves_changeRoom hp hsys env hobj hroom)

include herr in
theorem touches_handleRoomCreate (env : Env) (c : ClientID) (room : String) (isPrivate : Bool) :
    Touches [.definitions, .places] types h (h.handleRoomCreate env c room isPrivate) := by
  unfold handleRoomCreate
  split
  · exact Touches.refl h
  rename_i obj _
  split
  · exact Touches.refl h
  split
  · exact touches_deliverError herr c _ _ _
  split
  · exact touches_deliverError herr c _ _ _
  have hdef : Touches [.definitions, .places] types h { h with
      roomDefinitions := h.roomDefinitions.insert room
        { ownerCode := obj.normalizedCode, isPrivate, allowed := [obj.normalizedCode] } } :=
    touches_setDefinitions (by decide) _
  have htold := hdef.trans (touches_tell (c := c) (t := .system)
    (m := { type := .system, content := "Channel #" ++ room ++ " created" }) rfl hsys)
  exact htold.trans (touches_handleRoomJoin hsys herr (by decide) env c room)

/-- The loop of `deleteRoom` leaves no connected client in the room. -/
theorem evict_members (hw : walks) (hs : Sound h.registry) (env : Env) {room : String}
    (hroom : room ≠ defaultRoomName) (content : String) :
    Moves walks types h.registry ((env.visit (h.registry.members room)).foldl
        (fun r member => evict r member content) h.registry) ∧
      ∀ c ∈ ((env.visit (h.registry.members room)).foldl
          (fun r member => evict r member content) h.registry).clients, ∀ o,
        ((env.visit (h.registry.members room)).foldl
          (fun r member => evict r member content) h.registry).client? c = some o → o.room ≠ room := by
  refine evict_foldl hw hsys content hroom _ (fun c hc => hs.bounded room c (mem_visit.1 hc)) ?_
  -- every connected client of the room is among the members that the loop visits
  intro c hc o ho horoom
  obtain ⟨o', ho', -, hin⟩ := hs.online c hc
  obtain rfl := Option.some_injective _ (ho.symm.trans ho')
  rw [horoom] at hin
  exact mem_visit.2 hin

theorem touches_deleteRoom (hs : Sound h.registry) (env : Env) {room : String}
    (hroom : room ≠ defaultRoomName) :
    Touches [.definitions, .places] types h (h.deleteRoom env room) := by
  unfold deleteRoom
  have hwalk : Part.places ∈ [Part.definitions, Part.places] := by decide
  obtain ⟨hmoves, hempty⟩ := evict_members hsys hwalk hs env hroom ("Channel #" ++ room ++ " was deleted")
  have hdrop := hmoves.trans (Move.dropRoom _ room hempty).moves
  exact (touches_setDefinitions (by decide) _).withRegistry hdrop

theorem touches_inviteMember (c : ClientID) (room : String) (definition : RoomDefinition)
    (target : String) :
    Touches [.definitions, .places] types h (h.inviteMember c room definition target) :=
  (touches_setDefinitions (by decide) _).trans (touches_tell (t := .system) rfl hsys)

theorem touches_removeMember (c : ClientID) (room : String) (definition : RoomDefinition)
    (target : String) :
    Touches [.definitions, .places] types h (h.removeMember c room definition target) := by
  unfold removeMember
  have hdef : Touches [.definitions, .places] types h { h with
      roomDefinitions := h.roomDefinitions.insert room
        { definition with allowed := definition.allowed.filter (· ≠ target) } } :=
    touches_setDefinitions (by decide) _
  refine (hdef.withRegistry ?_).trans (touches_tell (t := .system) rfl hsys)
  dsimp only
  split
  · rename_i d _
    split
    · rename_i hd
      cases ho : h.registry.client? d with
      | none => simp [ho] at hd
      | some o => exact moves_evict (by decide) hsys (client?_lt ho) _
    · exact Moves.refl _
  · exact Moves.refl _

include herr in
theorem touches_handleRoomAction (hs : Sound h.registry) (env : Env) (c : ClientID)
    (action room targetCode : String) :
    Touches [.definitions, .places] types h (h.handleRoomAction env c action room targetCode) := by
  unfold handleRoomAction
  split
  · exact Touches.refl h
  split
  · exact Touches.refl h
  split
  · exact touches_deliverError herr c _ _ _
  split
  · exact touches_deliverError herr c _ _ _
  rename_i hroom
  split
  · exact touches_deliverError herr c _ _ _
  split
  · exact touches_deleteRoom hsys hs env hroom
  split
  · exact touches_deliverError herr c _ _ _
  split
  · exact touches_inviteMember hsys c room _ _
  split
  · exact touches_removeMember hsys c room _ _
  · exact Touches.refl h

theorem touches_handleRoomLeave (hp : .places ∈ parts) (env : Env) (c : ClientID) :
    Touches parts types h (h.handleRoomLeave env c) := by
  unfold handleRoomLeave
  split
  · exact Touches.refl h
  rename_i obj hobj
  split
  · exact Touches.refl h
  split
  · exact touches_tell (t := .system) rfl hsys
  · exact touches_onRegistry
      (moves_changeRoom hp hsys env hobj validateRoomName_defaultRoomName)

end Rooms

theorem touches_handleRequestUsers (c : ClientID) :
    Touches parts roomTypes h (h.handleRequestUsers c) := by
  unfold handleRequestUsers
  split
  · exact Touches.refl h
  · exact touches_tell (t := .usersResponse) rfl (by decide)

theorem touches_handleRequestRooms (c : ClientID) :
    Touches parts roomTypes h (h.handleRequestRooms c) := by
  unfold handleRequestRooms
  split
  · exact Touches.refl h
  split
  · exact Touches.refl h
  · exact touches_tell (t := .roomsResponse) rfl (by decide)

/-! ### Approvals and administration -/

theorem touches_handleConnectionApproval (platform : Platform) (env : Env)
    (username userCode normalizedCode remoteAddress : String) :
    Touches [.approvals] adminTypes h
      (h.handleConnectionApproval platform env username userCode normalizedCode remoteAddress) := by
  unfold handleConnectionApproval
  split
  · exact Touches.refl h
  · refine ⟨fun p hp => by cases p <;> simp_all [Part.Same], moves_tellAll ?_⟩
    simp [adminTypes, pendingApprovalMessage]

theorem touches_resolveApproval (env : Env) (id : String) (pending : PendingApproval)
    (content commandID : String) :
    Touches [.approvals] adminTypes h (h.resolveApproval env id pending content commandID) := by
  refine ⟨fun p hp => by cases p <;> simp_all [Part.Same, resolveApproval], moves_tellAll ?_⟩
  simp [adminTypes]

theorem touches_cancelConnectionApproval (env : Env) (id : String) :
    Touches [.approvals] adminTypes h (h.cancelConnectionApproval env id) := by
  unfold cancelConnectionApproval
  split
  · exact Touches.refl h
  · exact touches_resolveApproval env id _ _ _

theorem touches_handleDecision (env : Env) (c : ClientID) (approved : Bool)
    (messageID commandID : String) :
    Touches [.approvals] adminTypes h (h.handleDecision env c approved messageID commandID) := by
  unfold handleDecision
  split
  · exact touches_deliverError (by decide) c _ _ _
  · exact (touches_resolveApproval env messageID _ _ _).trans
      (touches_setApprovals (by decide) _ _ _)

theorem moves_kick {r : Registry} (hsys : .system ∈ types) (env : Env) (c target : ClientID)
    (obj : Client) : Moves walks types r (kick r env c target obj) := by
  have h1 : Moves walks types r (r.tell target
      { type := .system, content := "You were kicked by the administrator" }) :=
    moves_tell hsys
  have h2 := h1.trans (moves_unregisterClient hsys env target)
  exact h2.trans (moves_tell hsys)

theorem moves_toggleMute {r : Registry} (hsys : .system ∈ types) (c target : ClientID)
    (obj : Client) : Moves walks types r (toggleMute r c target obj) := by
  have h1 : Moves walks types r (r.modifyClient target fun o => { o with muted := !o.muted }) :=
    (Move.mute r target).moves
  have h2 := h1.trans (moves_tell (c := target)
    (m := { type := .system, content := "You were " ++ (if obj.muted then "unmuted" else "muted") ++
      " by the administrator" }) hsys)
  exact h2.trans (moves_tell hsys)

/-- The types that a recall sends. -/
def recallTypes : List MessageType := [.messageRecalled, .error]

theorem touches_removeOfflineCopy (env : Env) (record : MessageRecord) :
    Touches [.chat, .records] types h (h.removeOfflineCopy env record).2 := by
  unfold removeOfflineCopy
  split
  · exact Touches.refl h
  split
  · exact Touches.refl h
  · exact touches_setChat (by decide) _

theorem touches_persistRecall (env : Env) (messageID : String) (record : MessageRecord) :
    Touches [.chat, .records] types h (h.persistRecall env messageID record).2 := by
  unfold persistRecall
  split
  · split
    · exact (touches_setChat (by decide) _).trans (touches_removeOfflineCopy env record)
    · exact touches_removeOfflineCopy env record
    · exact Touches.refl h
  · exact Touches.refl h

theorem moves_deliverRecall {r : Registry} (env : Env) (record : MessageRecord) {message : Message}
    (hm : message.type ∈ types) : Moves walks types r (deliverRecall r env record message) := by
  refine moves_foldl (fun r code _ => ?_) r
  cases r.active? code with
  | none => exact Moves.refl r
  | some c => exact moves_tell hm

theorem touches_handleRecall (env : Env) (c : ClientID) (obj : Client)
    (messageID commandID : String) :
    Touches [.chat, .records] recallTypes h (h.handleRecall env c obj messageID commandID) := by
  unfold handleRecall
  split
  · exact touches_deliverError (by decide) c _ _ _
  rename_i record _
  split
  · exact touches_deliverError (by decide) c _ _ _
  split
  · exact touches_deliverError (by decide) c _ _ _
  split
  · exact touches_deliverError (by decide) c _ _ _
  have hpersist : Touches _ recallTypes h (h.persistRecall env messageID record).2 :=
    touches_persistRecall env messageID record
  split
  · rename_i k heq
    rw [heq] at hpersist
    exact hpersist.trans (touches_deliverError (by decide) c _ _ _)
  · rename_i k heq
    rw [heq] at hpersist
    have hrecords := hpersist.trans (touches_setRecords (by decide)
      (k.messageRecords.insert messageID { record with recalled := true }))
    exact hrecords.withRegistry (moves_deliverRecall env record (by simp [recallTypes]))

theorem touches_handleAdminAction (env : Env) (c : ClientID)
    (action targetCode messageID commandID : String) :
    Touches [.chat, .records, .approvals] (recallTypes ++ adminTypes) h
      (h.handleAdminAction env c action targetCode messageID commandID) := by
  have houtcome := adminOutcome_handleAdminAction h env c action targetCode messageID commandID
  generalize h.handleAdminAction env c action targetCode messageID commandID = k at houtcome ⊢
  cases houtcome with
  | unchanged => exact Touches.refl h
  | refused content => exact touches_deliverError (by decide) c _ _ _
  | recalled obj =>
    exact (touches_handleRecall env c obj messageID commandID).mono (by decide) (by decide)
  | decision obj approved =>
    exact (touches_handleDecision env c approved messageID commandID).mono (by decide) (by decide)
  | kick target o => exact touches_onRegistry (moves_kick (by decide) env c target o)
  | mute target o => exact touches_onRegistry (moves_toggleMute (by decide) c target o)

/-! ### Chats, private chats and history -/

/-- The types that the two chat handlers send for a message of type `t`. -/
def chatTypes (t : MessageType) : List MessageType := [t, .deliveryReceipt, .error, .system]

/-- The parts that the chat handlers write. -/
def chatParts : List Part := [.chat, .records, .counter]

theorem touches_assignMessageID (messageID : String) :
    Touches chatParts types h (h.assignMessageID messageID).2 := by
  unfold assignMessageID
  split
  · exact touches_of_same rfl fun p hp => by
      cases p <;> first | exact absurd (by decide) hp | simp [Part.Same]
  · exact Touches.refl h

theorem touches_saveChatMessage {env : Env} {message : Message} {x : Except GoError Bool}
    (hk : h.saveChatMessage env message = (x, k)) : Touches chatParts types h k := by
  obtain rfl : (h.saveChatMessage env message).2 = k := congrArg Prod.snd hk
  unfold saveChatMessage
  split
  · exact Touches.refl h
  · exact touches_setChat (by decide) _

theorem touches_recordMessage (message : Message) (recipients : List String)
    (offlineMessageID : String) :
    Touches chatParts types h (h.recordMessage message recipients offlineMessageID) := by
  unfold recordMessage
  split
  · exact Touches.refl h
  · exact touches_setRecords (by decide) _

theorem touches_answerRetry (t : MessageType) (env : Env) (sender : Option ClientID)
    (tracking : Bool) (message : Message) :
    Touches parts (chatTypes t) h (h.answerRetry env sender tracking message) := by
  unfold answerRetry
  split
  · exact Touches.refl h
  split
  · exact Touches.refl h
  split
  · exact touches_deliverError (by simp [chatTypes]) _ _ _ _
  · exact touches_tell (t := .deliveryReceipt) rfl (by simp [chatTypes])

/-- Without a store there is nothing to mark; with one, the rows of the message are marked. -/
theorem markDelivered_eq_some {env : Env} {message : Message}
    (hk : h.markDelivered env message = some k) :
    h.offlineStore = false ∧ k = h ∨
      ∃ chat, h.db.chat.updateChatMessageDeliveryStateForMessage message "delivered" = .ok chat ∧
        k = { h with db := { h.db with chat } } := by
  unfold markDelivered at hk
  split at hk
  · rename_i hoff
    exact .inl ⟨by simpa using hoff, (Option.some_injective _ hk).symm⟩
  split at hk
  · cases hk
  · rename_i chat hupdate
    exact .inr ⟨chat, (call_eq_ok.1 hupdate).2, (Option.some_injective _ hk).symm⟩

theorem registry_markDelivered {env : Env} {message : Message}
    (hk : h.markDelivered env message = some k) : k.registry = h.registry := by
  obtain ⟨-, rfl⟩ | ⟨chat, -, rfl⟩ := markDelivered_eq_some hk
  · rfl
  · rfl

theorem touches_markDelivered {env : Env} {message : Message}
    (hk : h.markDelivered env message = some k) : Touches chatParts types h k := by
  obtain ⟨-, rfl⟩ | ⟨chat, -, rfl⟩ := markDelivered_eq_some hk
  · exact Touches.refl k
  · exact touches_setChat (by decide) _

theorem moves_deliverToPeers {r : Registry} (sender : Option ClientID) {message : Message}
    (hm : message.type ∈ types) (clients : List ClientID) :
    Moves walks types r (deliverToPeers r sender message clients).1 := by
  induction clients generalizing r with
  | nil => exact Moves.refl r
  | cons c clients ih => exact (Move.deliver r c message hm).moves.trans ih

@[simp] theorem type_wireMessage (tracking : Bool) (message : Message) :
    (wireMessage tracking message).type = message.type := by
  unfold wireMessage
  split <;> rfl

theorem touches_relayChat {t : MessageType} (env : Env) (sender : Option ClientID) (room : String)
    (tracking : Bool) {message : Message} (ht : message.type = t) :
    Touches chatParts (chatTypes t) h (h.relayChat env sender room tracking message) := by
  unfold relayChat
  have hwire : (wireMessage tracking message).type ∈ chatTypes t := by simp [chatTypes, ht]
  have hrecord : Touches chatParts (chatTypes t) h
      (h.recordMessage message (h.registry.recipientCodes (h.registry.roomClients room)) "") :=
    touches_recordMessage message _ ""
  dsimp only
  generalize env.visit _ = clients
  have hrelay := hrecord.withRegistry (moves_deliverToPeers sender hwire clients)
  split
  · exact hrelay
  refine hrelay.trans ?_
  split
  · exact Touches.refl _
  split
  · exact touches_tell (t := .deliveryReceipt) rfl (by simp [chatTypes])
  split
  · exact touches_deliverError (by simp [chatTypes]) _ _ _ _
  · rename_i hmark
    exact (touches_markDelivered hmark).trans
      (touches_tell (t := .deliveryReceipt) rfl (by simp [chatTypes]))

theorem touches_publishChat {t : MessageType} (platform : Platform) (env : Env) (tracking : Bool)
    {message : Message} (ht : message.type = t) :
    Touches chatParts (chatTypes t) h (h.publishChat platform env tracking message) := by
  unfold publishChat
  dsimp only
  split
  · exact touches_relayChat env _ _ _ ht
  split
  · rename_i hsave
    refine (touches_saveChatMessage hsave).trans ?_
    split
    · exact touches_deliverError (by simp [chatTypes]) _ _ _ _
    · exact Touches.refl _
  · rename_i hsave
    exact (touches_saveChatMessage hsave).trans (touches_answerRetry _ env _ _ _)
  · rename_i hsave
    exact (touches_saveChatMessage hsave).trans (touches_relayChat env _ _ _ ht)

theorem touches_broadcastMessage {t : MessageType} (platform : Platform) (env : Env)
    {message : Message} (ht : message.type = t) :
    Touches chatParts (chatTypes t) h (h.broadcastMessage platform env message) :=
  (touches_assignMessageID message.messageID).trans (touches_publishChat platform env _ ht)

theorem touches_saveOfflineMessage {env : Env} {targetCode : String} {message : Message}
    {x : Except GoError Unit} (hk : h.saveOfflineMessage env targetCode message = (x, k)) :
    Touches chatParts types h k := by
  obtain rfl : (h.saveOfflineMessage env targetCode message).2 = k := congrArg Prod.snd hk
  unfold saveOfflineMessage
  split
  · exact Touches.refl h
  · exact touches_setChat (by decide) _

theorem touches_savePrivateOffline (env : Env) (c : ClientID) (obj : Client) (targetCode : String)
    (tracking : Bool) {message : Message} (ht : message.type = .privateChat) :
    Touches chatParts (chatTypes .privateChat) h
      (h.savePrivateOffline env c obj targetCode tracking message) := by
  unfold savePrivateOffline
  split
  · exact touches_deliverError (by decide) c _ _ _
  have hrecord : Touches chatParts (chatTypes .privateChat) h
      (h.recordMessage message [obj.normalizedCode, targetCode] message.messageID) :=
    touches_recordMessage message _ _
  refine hrecord.trans ?_
  dsimp only
  split
  · rename_i hsave
    exact (touches_saveOfflineMessage hsave).trans (touches_deliverError (by decide) c _ _ _)
  · rename_i hsave
    have hecho : ∀ k : Hub, Touches chatParts (chatTypes .privateChat) k
        ((k.tell c (wireMessage tracking message)).tell c
          { type := .system, content := "Private message saved for offline user" }) := by
      intro k
      exact (touches_tell (t := .privateChat) (by simp [ht]) (by decide)).trans
        (touches_tell (t := .system) rfl (by decide))
    refine ((touches_saveOfflineMessage hsave).trans (hecho _)).trans ?_
    split
    · exact touches_tell (t := .deliveryReceipt) rfl (by decide)
    · exact Touches.refl _

theorem touches_relayPrivate (env : Env) (c : ClientID) (obj : Client) (target : ClientID)
    (targetCode : String) (tracking : Bool) {message : Message} (ht : message.type = .privateChat) :
    Touches chatParts (chatTypes .privateChat) h
      (h.relayPrivate env c obj target targetCode tracking message) := by
  unfold relayPrivate
  have hwire : (wireMessage tracking message).type ∈ chatTypes .privateChat := by
    simp [chatTypes, ht]
  have hrecord : Touches chatParts (chatTypes .privateChat) h
      (h.recordMessage message [obj.normalizedCode, targetCode] "") :=
    touches_recordMessage message _ _
  have hdeliver : ∀ {r r' : Registry} {d : ClientID} {ok : Bool},
      r.deliver d (wireMessage tracking message) = (r', ok) →
        Moves (.places ∈ chatParts) (chatTypes .privateChat) r r' := by
    intro r r' d ok heq
    have hmove : Moves (.places ∈ chatParts) (chatTypes .privateChat) r
        (r.deliver d (wireMessage tracking message)).1 := (Move.deliver r d _ hwire).moves
    rwa [heq] at hmove
  dsimp only
  split
  · rename_i hself
    exact hrecord.withRegistry (hdeliver hself)
  rename_i hself
  split
  · rename_i hpeer
    refine (hrecord.withRegistry ((hdeliver hself).trans (hdeliver hpeer))).trans ?_
    split
    · exact touches_tell (t := .deliveryReceipt) rfl (by decide)
    · exact Touches.refl _
  · rename_i hpeer
    refine (hrecord.withRegistry ((hdeliver hself).trans (hdeliver hpeer))).trans ?_
    split
    · exact touches_deliverError (by decide) c _ _ _
    · rename_i hmark
      refine (touches_markDelivered hmark).trans ?_
      split
      · exact touches_tell (t := .deliveryReceipt) rfl (by decide)
      · exact Touches.refl _

theorem touches_routePrivate (env : Env) (c : ClientID) (obj : Client) (targetCode : String)
    (tracking : Bool) {message : Message} (ht : message.type = .privateChat) :
    Touches chatParts (chatTypes .privateChat) h
      (h.routePrivate env c obj targetCode tracking message) := by
  unfold routePrivate
  split
  · exact touches_savePrivateOffline env c obj targetCode tracking ht
  · exact touches_relayPrivate env c obj _ targetCode tracking ht

theorem touches_publishPrivate (env : Env) (c : ClientID) (obj : Client) (targetCode : String)
    (tracking : Bool) {message : Message} (ht : message.type = .privateChat) :
    Touches chatParts (chatTypes .privateChat) h
      (h.publishPrivate env c obj targetCode tracking message) := by
  unfold publishPrivate
  split
  · exact touches_routePrivate env c obj _ _ ht
  split
  · rename_i hsave
    exact (touches_saveChatMessage hsave).trans (touches_deliverError (by decide) c _ _ _)
  · rename_i hsave
    exact (touches_saveChatMessage hsave).trans (touches_answerRetry _ env _ _ _)
  · rename_i hsave
    exact (touches_saveChatMessage hsave).trans (touches_routePrivate env c obj _ _ ht)

theorem touches_handlePrivateMessage (platform : Platform) (env : Env) (c : ClientID)
    (targetCode content messageID : String) :
    Touches chatParts (chatTypes .privateChat) h
      (h.handlePrivateMessage platform env c targetCode content messageID) := by
  unfold handlePrivateMessage
  split
  · exact Touches.refl h
  split
  · exact Touches.refl h
  split
  · exact touches_deliverError (by decide) c _ _ _
  split
  · exact touches_deliverError (by decide) c _ _ _
  split
  · exact touches_deliverError (by decide) c _ _ _
  · exact (touches_assignMessageID messageID).trans (touches_publishPrivate env c _ _ _ rfl)

/-- The types that the history results send. -/
def historyTypes : List MessageType := [.historyResponse, .error]

theorem touches_enqueueHistory (job : HistoryJob) :
    Touches [.history] [.error] h (h.enqueueHistory job) := by
  unfold enqueueHistory
  split
  · exact touches_setHistory (by decide) _ _ _
  · exact touches_deliverError (by decide) _ _ _ _

theorem touches_handleHistoryRequest (c : ClientID) (request : Message) :
    Touches [.history] [.error] h (h.handleHistoryRequest c request) := by
  unfold handleHistoryRequest
  split
  · exact Touches.refl h
  split
  · exact Touches.refl h
  split
  · split
    · exact touches_deliverError (by decide) c _ _ _
    split
    · exact touches_deliverError (by decide) c _ _ _
    · exact touches_enqueueHistory _
  split
  · exact touches_deliverError (by decide) c _ _ _
  split
  · exact touches_deliverError (by decide) c _ _ _
  split
  · exact touches_deliverError (by decide) c _ _ _
  · exact touches_enqueueHistory _

theorem touches_takeHistoryJob : Touches [.history] types h h.takeHistoryJob := by
  unfold takeHistoryJob
  split
  · exact touches_setHistory (by decide) _ _ _
  · exact Touches.refl h

theorem touches_runHistoryJob (env : Env) : Touches [.history] types h (h.runHistoryJob env) := by
  unfold runHistoryJob
  split
  · exact Touches.refl h
  split
  · exact touches_setHistory (by decide) _ _ _
  · exact Touches.refl h

theorem touches_handleHistoryResult : Touches [.history] historyTypes h h.handleHistoryResult := by
  unfold handleHistoryResult
  split
  · exact Touches.refl h
  rename_i result results _
  refine (touches_setHistory (by decide) h.historyJobs h.inHand results).trans ?_
  dsimp only
  split
  · exact Touches.refl _
  split
  · exact touches_deliverError (by decide) _ _ _ _
  · exact touches_tell (t := .historyResponse) rfl (by decide)

/-! ### MLS requests -/

/-- The types that an MLS handler sends for a request of type `t`. -/
def requestTypes (t : MessageType) : List MessageType := [t, .error]

theorem self_mem_requestTypes (t : MessageType) : t ∈ requestTypes t := List.mem_cons_self

theorem moves_tellCode {r : Registry} (code : String) {message : Message}
    (hm : message.type ∈ types) : Moves walks types r (tellCode r code message) := by
  unfold tellCode
  split
  · exact moves_tell hm
  · exact Moves.refl r

theorem moves_tellMembers {r : Registry} (members : List String) (senderCode : String)
    {message : Message} (hm : message.type ∈ types) :
    Moves walks types r (tellMembers r members senderCode message) :=
  moves_foldl (fun _ code _ => moves_tellCode code hm) r

theorem moves_tellRoom {r : Registry} (env : Env) (room : String) (sender : ClientID)
    {message : Message} (hm : message.type ∈ types) :
    Moves walks types r (tellRoom r env room sender message) := moves_tellAll hm

theorem touches_handleMLSKeyPackagePublish (env : Env) (c : ClientID)
    (keyPackage commandID : String) :
    Touches [.mls] (requestTypes .mlsKeyPackagePublish) h
      (h.handleMLSKeyPackagePublish env c keyPackage commandID) := by
  unfold handleMLSKeyPackagePublish
  split
  · exact Touches.refl h
  split
  · exact touches_deliverError (by decide) c _ _ _
  split
  · exact touches_deliverError (by decide) c _ _ _
  · exact (touches_withMls (by decide) _).trans
      (touches_tell (t := .mlsKeyPackagePublish) rfl (by decide))

theorem touches_handleMLSKeyPackageFetch (env : Env) (c : ClientID)
    (targetCode room commandID : String) :
    Touches parts (requestTypes .mlsKeyPackageFetch) h
      (h.handleMLSKeyPackageFetch env c targetCode room commandID) := by
  unfold handleMLSKeyPackageFetch
  split
  · exact Touches.refl h
  rename_i obj _
  split
  · exact touches_deliverError (by decide) c _ _ _
  split
  · exact touches_deliverError (by decide) c _ _ _
  rename_i target _
  dsimp only
  generalize (if room = "" ∧ target ≠ obj.normalizedCode then obj.room else room) = room'
  split
  · exact touches_deliverError (by decide) c _ _ _
  split
  · exact touches_deliverError (by decide) c _ _ _
  · exact touches_tell (t := .mlsKeyPackageFetch) rfl (by decide)

theorem touches_commitForMember (env : Env) (c : ClientID) (obj : Client) (q : CommitRequest) :
    Touches [.mls] (requestTypes .mlsGroupCommit) h (h.commitForMember env c obj q) := by
  unfold commitForMember
  dsimp only
  split
  · exact touches_deliverError (by decide) c _ _ _
  · rename_i inserted membership mls _
    refine (touches_withMls (by decide) mls).trans (touches_onRegistry ?_)
    exact (moves_tellMembers _ _ (self_mem_requestTypes .mlsGroupCommit)).trans
      (moves_tell (self_mem_requestTypes .mlsGroupCommit))

theorem touches_commitLegacy (env : Env) (c : ClientID) (obj : Client) (q : CommitRequest) :
    Touches [.mls] (requestTypes .mlsGroupCommit) h (h.commitLegacy env c obj q) := by
  unfold commitLegacy
  dsimp only
  split
  · exact touches_deliverError (by decide) c _ _ _
  split
  · exact touches_deliverError (by decide) c _ _ _
  · rename_i inserted mls _
    refine (touches_withMls (by decide) mls).trans (touches_onRegistry ?_)
    refine Moves.trans ?_ (moves_tell (self_mem_requestTypes .mlsGroupCommit))
    split
    · exact moves_tellRoom env _ c (self_mem_requestTypes .mlsGroupCommit)
    · exact Moves.refl _

theorem touches_handleMLSGroupCommit (env : Env) (c : ClientID) (q : CommitRequest) :
    Touches [.mls] (requestTypes .mlsGroupCommit) h (h.handleMLSGroupCommit env c q) := by
  unfold handleMLSGroupCommit
  split
  · exact Touches.refl h
  split
  · exact touches_deliverError (by decide) c _ _ _
  split
  · exact touches_commitForMember env c _ q
  · exact touches_commitLegacy env c _ q

theorem touches_proposeForMember (platform : Platform) (env : Env) (c : ClientID) (obj : Client)
    (q : ProposalRequest) :
    Touches [.mls] (requestTypes .mlsGroupProposal) h (h.proposeForMember platform env c obj q) := by
  unfold proposeForMember
  dsimp only
  split
  · exact touches_deliverError (by decide) c _ _ _
  split
  · exact touches_deliverError (by decide) c _ _ _
  split
  · exact touches_deliverError (by decide) c _ _ _
  · rename_i inserted membership mls _
    refine (touches_withMls (by decide) mls).trans (touches_onRegistry ?_)
    exact (moves_tellMembers _ _ (self_mem_requestTypes .mlsGroupProposal)).trans
      (moves_tell (self_mem_requestTypes .mlsGroupProposal))

theorem touches_proposeLegacy (platform : Platform) (env : Env) (c : ClientID) (obj : Client)
    (q : ProposalRequest) :
    Touches [.mls] (requestTypes .mlsGroupProposal) h (h.proposeLegacy platform env c obj q) := by
  unfold proposeLegacy
  dsimp only
  split
  · exact touches_deliverError (by decide) c _ _ _
  split
  · exact touches_deliverError (by decide) c _ _ _
  · rename_i inserted mls _
    refine (touches_withMls (by decide) mls).trans (touches_onRegistry ?_)
    refine Moves.trans ?_ (moves_tell (self_mem_requestTypes .mlsGroupProposal))
    split
    · exact moves_tellRoom env _ c (self_mem_requestTypes .mlsGroupProposal)
    · exact Moves.refl _

theorem touches_handleMLSGroupProposal (platform : Platform) (env : Env) (c : ClientID)
    (q : ProposalRequest) :
    Touches [.mls] (requestTypes .mlsGroupProposal) h
      (h.handleMLSGroupProposal platform env c q) := by
  unfold handleMLSGroupProposal
  split
  · exact Touches.refl h
  split
  · exact touches_deliverError (by decide) c _ _ _
  split
  · exact touches_proposeForMember platform env c _ q
  · exact touches_proposeLegacy platform env c _ q

theorem touches_welcomeForMember (platform : Platform) (env : Env) (c : ClientID) (obj : Client)
    (target : String) (q : WelcomeRequest) :
    Touches [.mls] (requestTypes .mlsGroupWelcome) h
      (h.welcomeForMember platform env c obj target q) := by
  unfold welcomeForMember
  dsimp only
  split
  · exact touches_deliverError (by decide) c _ _ _
  split
  · exact touches_deliverError (by decide) c _ _ _
  · rename_i inserted mls _
    refine (touches_withMls (by decide) mls).trans (touches_onRegistry ?_)
    exact (moves_tellCode target (self_mem_requestTypes .mlsGroupWelcome)).trans
      (moves_tell (self_mem_requestTypes .mlsGroupWelcome))

theorem touches_welcomeLegacy (env : Env) (c : ClientID) (obj : Client) (target : String)
    (q : WelcomeRequest) :
    Touches [.mls] (requestTypes .mlsGroupWelcome) h (h.welcomeLegacy env c obj target q) := by
  unfold welcomeLegacy
  dsimp only
  split
  · exact touches_deliverError (by decide) c _ _ _
  split
  · exact touches_deliverError (by decide) c _ _ _
  · rename_i inserted mls _
    refine (touches_withMls (by decide) mls).trans (touches_onRegistry ?_)
    exact (moves_tellCode target (self_mem_requestTypes .mlsGroupWelcome)).trans
      (moves_tell (self_mem_requestTypes .mlsGroupWelcome))

theorem touches_handleMLSGroupWelcome (platform : Platform) (env : Env) (c : ClientID)
    (q : WelcomeRequest) :
    Touches [.mls] (requestTypes .mlsGroupWelcome) h
      (h.handleMLSGroupWelcome platform env c q) := by
  unfold handleMLSGroupWelcome
  split
  · exact Touches.refl h
  split
  · exact touches_deliverError (by decide) c _ _ _
  split
  · exact touches_deliverError (by decide) c _ _ _
  split
  · exact touches_welcomeForMember platform env c _ _ q
  · exact touches_welcomeLegacy env c _ _ q

theorem touches_handleMLSGroupWelcomeAccept (env : Env) (c : ClientID) (q : AcceptRequest) :
    Touches [.mls] (requestTypes .mlsGroupWelcomeAccept) h
      (h.handleMLSGroupWelcomeAccept env c q) := by
  unfold handleMLSGroupWelcomeAccept
  split
  · exact Touches.refl h
  split
  · exact touches_deliverError (by decide) c _ _ _
  dsimp only
  split
  · exact touches_deliverError (by decide) c _ _ _
  split
  · exact touches_deliverError (by decide) c _ _ _
  split
  · exact touches_deliverError (by decide) c _ _ _
  · exact (touches_withMls (by decide) _).trans
      (touches_tell (t := .mlsGroupWelcomeAccept) rfl (by decide))

/-! ### Attachments -/

theorem touches_handleAttachmentInit (platform : Platform) (env : Env) (c : ClientID)
    (room : String) (logicalSize : ℤ) (commandID : String) :
    Touches [.attachments] (requestTypes .attachmentInit) h
      (h.handleAttachmentInit platform env c room logicalSize commandID) := by
  unfold handleAttachmentInit
  split
  · exact Touches.refl h
  split
  · exact touches_deliverError (by decide) c _ _ _
  split
  · exact touches_deliverError (by decide) c _ _ _
  split
  · exact touches_deliverError (by decide) c _ _ _
  · exact (touches_withAttachments (by decide) _).trans
      (touches_tell (t := .attachmentInit) rfl (by decide))

theorem touches_handleAttachmentChunk (platform : Platform) (env : Env) (c : ClientID)
    (uploadID : String) (index : ℤ) (ciphertext cipherSHA256 commandID : String) :
    Touches [.attachments] (requestTypes .attachmentChunk) h
      (h.handleAttachmentChunk platform env c uploadID index ciphertext cipherSHA256 commandID) := by
  unfold handleAttachmentChunk
  split
  · exact Touches.refl h
  split
  · exact touches_deliverError (by decide) c _ _ _
  split
  · exact touches_deliverError (by decide) c _ _ _
  split
  · exact touches_deliverError (by decide) c _ _ _
  · exact (touches_withAttachments (by decide) _).trans
      (touches_tell (t := .attachmentChunk) rfl (by decide))

theorem touches_handleAttachmentResume (platform : Platform) (env : Env) (c : ClientID)
    (uploadID commandID : String) :
    Touches [.attachments] (requestTypes .attachmentResume) h
      (h.handleAttachmentResume platform env c uploadID commandID) := by
  unfold handleAttachmentResume
  split
  · exact Touches.refl h
  split
  · exact touches_deliverError (by decide) c _ _ _
  split
  · exact touches_deliverError (by decide) c _ _ _
  · refine (touches_withAttachments (by decide) _).trans
      (touches_tell (t := .attachmentResume) ?_ (by decide))
    unfold attachmentResumeMessage
    split <;> rfl

theorem touches_handleAttachmentCommit (platform : Platform) (env : Env) (c : ClientID)
    (uploadID commandID : String) :
    Touches [.attachments] (requestTypes .attachmentCommit) h
      (h.handleAttachmentCommit platform env c uploadID commandID) := by
  unfold handleAttachmentCommit
  split
  · exact Touches.refl h
  split
  · exact touches_deliverError (by decide) c _ _ _
  split
  · exact touches_deliverError (by decide) c _ _ _
  dsimp only
  split
  · exact (touches_withAttachments (by decide) _).trans (touches_deliverError (by decide) c _ _ _)
  · exact (touches_withAttachments (by decide) _).trans (touches_deliverError (by decide) c _ _ _)
  · exact (touches_withAttachments (by decide) _).trans
      (touches_tell (t := .attachmentCommit) rfl (by decide))

theorem touches_handleAttachmentDownload (platform : Platform) (env : Env) (c : ClientID)
    (attachmentID : String) (index : ℤ) (commandID : String) :
    Touches parts (requestTypes .attachmentDownload) h
      (h.handleAttachmentDownload platform env c attachmentID index commandID) := by
  unfold handleAttachmentDownload
  split
  · exact Touches.refl h
  dsimp only
  generalize (if env.fails .attachmentRoom = true then none
    else h.db.attachments.attachmentRoom attachmentID) = room
  split
  · exact touches_deliverError (by decide) c _ _ _
  split
  · exact touches_deliverError (by decide) c _ _ _
  · exact touches_tell (t := .attachmentDownload) rfl (by decide)

/-! ### Every event -/

/-- The client that a login registers is valid, whatever case the account was stored in. -/
theorem validClient_newClient (username : String) {userCode : String} (accountBacked : Bool)
    (hcode : validateUserCode userCode = .ok ()) :
    ValidClient (newClient username userCode (asciiLower userCode) accountBacked) where
  code := normalizeUserCode_eq_ok.2 ⟨hcode, rfl⟩
  room := validateRoomName_defaultRoomName
  replay := by simp [newClient]

theorem validateUserCode_of_login {username userCode : String}
    (hlogin : validateMessage { type := .login, username, userCode } = .ok ()) :
    validateUserCode userCode = .ok () := by
  have hlogin' : validateLogin username userCode = .ok () := by
    simpa [validateMessage, maxCommandIDSize] using hlogin
  cases hnorm : normalizeUserCode userCode with
  | ok norm => exact (normalizeUserCode_eq_ok.1 hnorm).1
  | error e =>
    simp only [validateLogin, hnorm, fail, discard] at hlogin'
    split_ifs at hlogin' <;> cases hlogin'

/-- The account of a login has the code that was claimed, up to case. -/
theorem asciiLower_of_ensureIdentity {s s' : ChatStore} {username userCode : String} {a : Account}
    (hident : s.ensureIdentity username userCode = .ok (a, s')) :
    asciiLower a.userCode = asciiLower userCode := by
  unfold ChatStore.ensureIdentity at hident
  obtain ⟨_, -, hident⟩ := bind_eq_ok.1 hident
  split at hident
  · obtain ⟨_, hmatch, hident⟩ := bind_eq_ok.1 hident
    rw [require_eq_ok] at hmatch
    cases hident
    simp only [Account.matches, Bool.and_eq_true, beq_iff_eq] at hmatch
    exact hmatch.2
  · split at hident
    · cases hident
      rfl
    · cases hident

theorem touches_login (hs : Sound h.registry) (env : Env) (username userCode : String) :
    Touches [.chat, .definitions, .places] adminTypes h (h.login env username userCode) := by
  unfold login
  split
  · exact Touches.refl h
  rename_i hvalid
  have hcode := validateUserCode_of_login (isOk_iff.1 (by simpa using hvalid))
  split
  · split
    · exact Touches.refl h
    · rename_i account chat hident
      replace hident := (call_eq_ok.1 hident).2
      have haccount := validateUserCode_of_asciiLower_eq (asciiLower_of_ensureIdentity hident) hcode
      have hstored : Touches [.chat, .definitions, .places] adminTypes h
          { h with db := { h.db with chat } } := touches_setChat (by decide) chat
      have hreg := touches_handleRegisterRequest (h := { h with db := { h.db with chat } }) hs env
        (validClient_newClient account.username true haccount) ⟨rfl, rfl⟩
      exact hstored.trans (hreg.mono (by decide) (by decide))
  · exact (touches_handleRegisterRequest hs env (validClient_newClient username false hcode)
      ⟨rfl, rfl⟩).mono
      (by decide) (by decide)

/-- The types that the login goroutine sends. -/
def loginTypes : List MessageType := .system :: replayTypes

theorem touches_replay (hs : Sound h.registry) (env : Env) (c : ClientID) :
    Touches [.chat] loginTypes h (h.replay env c) := by
  unfold replay
  split
  · exact Touches.refl h
  rename_i obj hobj
  split
  · rename_i message rest hreplay
    split
    · refine touches_onRegistry ?_
      exact (Move.load _ c .ended [] (by simp) (by simp) (by decide)).moves.trans
        (moves_unregisterClient (by decide) env c)
    split
    · refine touches_onRegistry (Move.push _ c obj message rest hobj hreplay ?_).moves
      have hvalid := (hs.valid obj (client?_mem hobj)).replay message (by simp [hreplay])
      exact List.mem_cons_of_mem _ hvalid
    · exact Touches.refl h
  · split
    · dsimp only
      have htaken : ∀ m ∈ (if env.fails .takeOfflineMessages = true then ([], h.db.chat)
          else h.db.chat.takeOfflineMessages obj.userCode).1, m.type ∈ replayTypes := by
        intro m hm
        split at hm
        · cases hm
        · obtain ⟨row, -, rfl⟩ := List.mem_map.1 hm
          simp [replayTypes]
      exact ⟨fun p hp => by cases p <;> simp_all [Part.Same], (Move.load _ c .welcomes _ htaken
        (fun m hm => List.mem_cons_of_mem _ (htaken m hm)) (by decide)).moves⟩
    · cases env.call .pendingMLSWelcomes (h.db.mls.pendingMLSWelcomes obj.userCode) with
      | ok welcomes =>
        have htypes : ∀ m ∈ welcomes.map welcomeReplay, m.type ∈ replayTypes := by
          intro m hm
          obtain ⟨row, -, rfl⟩ := List.mem_map.1 hm
          simp [replayTypes, welcomeReplay]
        exact touches_onRegistry (Move.load _ c .reading _ htypes
          (fun m hm => List.mem_cons_of_mem _ (htypes m hm)) (by decide)).moves
      | error e =>
        exact touches_onRegistry (Move.load _ c .reading [] (by simp) (by simp) (by decide)).moves
    · exact Touches.refl h
    · exact Touches.refl h

/-- The parts that a frame of the given type may change. -/
def frameParts : MessageType → List Part
  | .chat | .privateChat => chatParts
  | .mlsKeyPackagePublish | .mlsGroupCommit | .mlsGroupProposal | .mlsGroupWelcome
  | .mlsGroupWelcomeAccept => [.mls]
  | .attachmentInit | .attachmentChunk | .attachmentResume | .attachmentCommit => [.attachments]
  | .roomCreate | .roomAction => [.definitions, .places]
  | .roomJoin | .roomLeave => [.places]
  | .historyRequest => [.history]
  | .adminAction => [.chat, .records, .approvals]
  | _ => []

/-- The types that a frame of the given type makes the Hub send. -/
def frameTypes : MessageType → List MessageType
  | .chat => chatTypes .chat
  | .privateChat => chatTypes .privateChat
  | .roomJoin | .roomCreate | .roomAction | .roomLeave | .roomsRequest | .usersRequest => roomTypes
  | .historyRequest => [.error]
  | .adminAction => recallTypes ++ adminTypes
  | .mlsKeyPackagePublish => requestTypes .mlsKeyPackagePublish
  | .mlsKeyPackageFetch => requestTypes .mlsKeyPackageFetch
  | .mlsGroupCommit => requestTypes .mlsGroupCommit
  | .mlsGroupProposal => requestTypes .mlsGroupProposal
  | .mlsGroupWelcome => requestTypes .mlsGroupWelcome
  | .mlsGroupWelcomeAccept => requestTypes .mlsGroupWelcomeAccept
  | .attachmentInit => requestTypes .attachmentInit
  | .attachmentChunk => requestTypes .attachmentChunk
  | .attachmentResume => requestTypes .attachmentResume
  | .attachmentCommit => requestTypes .attachmentCommit
  | .attachmentDownload => requestTypes .attachmentDownload
  | _ => [.system, .error]

theorem error_mem_frameTypes (t : MessageType) : .error ∈ frameTypes t := by
  cases t with
  | other name => exact (by decide : MessageType.error ∈ [.system, .error])
  | _ => decide

theorem touches_validated {c : ClientID} {m : Message} {messageID commandID : String}
    {handle : Hub → Hub} (herr : .error ∈ types) (hf : Touches parts types h (handle h)) :
    Touches parts types h (h.validated c m messageID commandID handle) := by
  unfold validated
  split
  · exact hf
  · exact touches_deliverError herr c _ _ _

theorem touches_dispatch (platform : Platform) (hs : Sound h.registry) (env : Env) (c : ClientID)
    (obj : Client) (m : Message) (muted : Bool) :
    Touches (frameParts m.type) (frameTypes m.type) h
      (h.dispatch platform env c obj m muted) := by
  unfold dispatch
  have herr := error_mem_frameTypes m.type
  cases ht : m.type with
  | chat =>
    dsimp only
    split
    · exact touches_deliverError (by decide) c _ _ _
    · exact touches_validated (by decide) (touches_broadcastMessage platform env rfl)
  | privateChat =>
    dsimp only
    split
    · exact touches_deliverError (by decide) c _ _ _
    split
    · exact touches_deliverError (by decide) c _ _ _
    · exact touches_handlePrivateMessage platform env c _ _ _
  | mlsKeyPackagePublish =>
    exact touches_validated (by decide) (touches_handleMLSKeyPackagePublish env c _ _)
  | mlsKeyPackageFetch =>
    exact touches_validated (by decide) (touches_handleMLSKeyPackageFetch env c _ _ _)
  | mlsGroupCommit => exact touches_validated (by decide) (touches_handleMLSGroupCommit env c _)
  | mlsGroupProposal =>
    exact touches_validated (by decide) (touches_handleMLSGroupProposal platform env c _)
  | mlsGroupWelcome =>
    exact touches_validated (by decide) (touches_handleMLSGroupWelcome platform env c _)
  | mlsGroupWelcomeAccept =>
    exact touches_validated (by decide) (touches_handleMLSGroupWelcomeAccept env c _)
  | attachmentInit =>
    exact touches_validated (by decide) (touches_handleAttachmentInit platform env c _ _ _)
  | attachmentChunk =>
    exact touches_validated (by decide) (touches_handleAttachmentChunk platform env c _ _ _ _ _)
  | attachmentResume =>
    exact touches_validated (by decide) (touches_handleAttachmentResume platform env c _ _)
  | attachmentCommit =>
    exact touches_validated (by decide) (touches_handleAttachmentCommit platform env c _ _)
  | attachmentDownload =>
    exact touches_validated (by decide) (touches_handleAttachmentDownload platform env c _ _ _)
  | usersRequest => exact touches_handleRequestUsers c
  | roomJoin =>
    exact touches_validated (by decide)
      (touches_handleRoomJoin (by decide) (by decide) (by decide) env c _)
  | roomCreate =>
    exact touches_validated (by decide)
      (touches_handleRoomCreate (by decide) (by decide) env c _ _)
  | roomAction =>
    exact touches_validated (by decide)
      (touches_handleRoomAction (by decide) (by decide) hs env c _ _ _)
  | roomLeave => exact touches_handleRoomLeave (by decide) (by decide) env c
  | roomsRequest => exact touches_handleRequestRooms c
  | historyRequest => exact touches_validated (by decide) (touches_handleHistoryRequest c _)
  | adminAction => exact touches_validated (by decide) (touches_handleAdminAction env c _ _ _ _)
  | quit => exact touches_unregisterClient (by decide) env c
  | _ =>
    rw [ht] at herr
    exact touches_deliverError herr c _ _ _

namespace Input

/-- The input starts a new process. -/
def isRestart : Input → Bool
  | .restart _ => true
  | _ => false

/-- The parts that an event may change. -/
def writes : Input → List Part
  | .login _ _ => [.chat, .definitions, .places]
  | .replay _ => [.chat]
  | .frame _ m _ _ => frameParts m.type
  | .unregister _ | .writePump _ => []
  | .takeHistoryJob | .runHistoryJob | .historyResult => [.history]
  | .connectionApproval .. | .cancelConnectionApproval _ => [.approvals]
  | .cleanup => [.attachments]
  | .restart _ => [.records, .counter, .definitions, .approvals, .history, .config]

/-- The types that an event makes the Hub send. -/
def sends : Input → List MessageType
  | .login _ _ | .connectionApproval .. | .cancelConnectionApproval _ => adminTypes
  | .replay _ => loginTypes
  | .frame _ m _ _ => .system :: frameTypes m.type
  | .unregister _ => [.system]
  | .historyResult => historyTypes
  | .writePump _ | .takeHistoryJob | .runHistoryJob | .cleanup | .restart _ => []

end Input

theorem touches_readPump (platform : Platform) (hs : Sound h.registry) (env : Env) (c : ClientID)
    (message : Message) (limited muted : Bool) :
    Touches (frameParts message.type) (.system :: frameTypes message.type) h
      (h.readPump platform env c message limited muted) := by
  unfold readPump
  have hsub : frameTypes message.type ⊆ .system :: frameTypes message.type :=
    List.subset_cons_self _ _
  split
  · exact Touches.refl h
  split
  · exact Touches.refl h
  split
  · exact touches_unregisterClient List.mem_cons_self env c
  split
  · exact touches_deliverError (hsub (error_mem_frameTypes _)) c _ _ _
  · exact (touches_dispatch platform hs env c _ message muted).mono (List.Subset.refl _) hsub

/-- A frame that is neither too large in its command id nor rate limited is dispatched. -/
theorem readPump_of_ready {platform : Platform} {env : Env} {c : ClientID} {obj : Client}
    {m : Message} {muted : Bool} (hready : h.readsFrames c = true)
    (hobj : h.registry.client? c = some obj) (hcommand : m.commandID.utf8ByteSize ≤ maxCommandIDSize) :
    h.readPump platform env c m false muted = h.dispatch platform env c obj m muted := by
  unfold readsFrames at hready
  rw [hobj, Option.any_some] at hready
  unfold readPump
  rw [hobj]
  dsimp only
  rw [if_neg (by simpa [and_assoc] using hready), if_neg (by omega), if_neg (by simp)]

/-- A frame is dropped, answered with a notice, or dispatched. -/
theorem readPump_cases (platform : Platform) (env : Env) (c : ClientID) (message : Message)
    (limited muted : Bool) :
    Touches [] [.system, .error] h (h.readPump platform env c message limited muted) ∨
      ∃ obj, h.registry.client? c = some obj ∧
        h.readPump platform env c message limited muted =
          h.dispatch platform env c obj message muted := by
  unfold readPump
  split
  · exact .inl (Touches.refl h)
  rename_i obj hobj
  split
  · exact .inl (Touches.refl h)
  split
  · exact .inl (touches_unregisterClient (by decide) env c)
  split
  · exact .inl (touches_deliverError (by decide) c _ _ _)
  · exact .inr ⟨obj, hobj, rfl⟩

/-- A request is handled or answered with an error. -/
theorem validated_cases (c : ClientID) (m : Message) (messageID commandID : String)
    (handle : Hub → Hub) :
    Touches [] [.system, .error] h (h.validated c m messageID commandID handle) ∨
      (validateMessage m = .ok () ∧ h.validated c m messageID commandID handle = handle h) := by
  unfold validated
  split
  · rename_i hvalid
    exact .inr ⟨isOk_iff.1 hvalid, rfl⟩
  · exact .inl (touches_deliverError (by decide) c _ _ _)

theorem Touches.stays (a : Touches parts types h k) (hp : .places ∉ parts) :
    Stays h.registry k.registry :=
  (a.moves.mono (fun h => hp h) (List.Subset.refl _)).stays

/-- One event within a process changes only the parts it is about, and moves the registry. -/
theorem step_touches (platform : Platform) (hs : Sound h.registry) (e : Event)
    (hlive : e.input.isRestart = false) :
    Touches e.input.writes e.input.sends h (step platform h e) := by
  obtain ⟨input, env⟩ := e
  cases input with
  | login username userCode => exact touches_login hs env username userCode
  | replay c =>
    dsimp only [step]
    split
    · exact touches_replay hs env c
    · exact Touches.refl h
  | frame c message limited muted => exact touches_readPump platform hs env c message limited muted
  | unregister c =>
    dsimp only [step]
    split
    · exact touches_unregisterClient List.mem_cons_self env c
    · exact Touches.refl h
  | writePump c =>
    dsimp only [step]
    split
    · exact touches_onRegistry (Move.pump _ c).moves
    · exact Touches.refl h
  | takeHistoryJob => exact touches_takeHistoryJob
  | runHistoryJob => exact touches_runHistoryJob env
  | historyResult => exact touches_handleHistoryResult
  | connectionApproval username userCode normalizedCode remoteAddress =>
    exact touches_handleConnectionApproval platform env _ _ _ _
  | cancelConnectionApproval id => exact touches_cancelConnectionApproval env id
  | cleanup => exact touches_withAttachments List.mem_cons_self _
  | restart adminCode => cases hlive

/-! ### Reachable states -/

theorem sound_boot {r : Registry} (hs : Sound r) (db : Database) (adminCode : String)
    (offlineStore : Bool) : Sound (boot r db adminCode offlineStore).registry :=
  Sound.of_empty hs.valid rfl rfl rfl (Nat.le_refl _)

theorem sound_step (platform : Platform) (h : Hub) (e : Event) (hs : Sound h.registry) :
    Sound (step platform h e).registry := by
  cases hlive : e.input.isRestart with
  | false => exact (step_touches platform hs e hlive).moves.sound hs
  | true =>
    obtain ⟨input, env⟩ := e
    cases input with
    | restart adminCode => exact sound_boot hs h.db adminCode h.offlineStore
    | _ => cases hlive

theorem sound_start (adminCode : String) (offlineStore : Bool) :
    Sound (start adminCode offlineStore).registry :=
  Sound.of_empty (by simp [start, boot, Registry.empty]) rfl rfl rfl (Nat.le_refl _)

/-- The state after the events of a run from the first start. -/
def after (platform : Platform) (adminCode : String) (offlineStore : Bool) (es : List Event) : Hub :=
  EventMachine.run (step platform) (start adminCode offlineStore) es

/-- In every run connected clients, active codes and rooms agree. -/
theorem sound_run (platform : Platform) (adminCode : String) (offlineStore : Bool)
    (es : List Event) : Sound (after platform adminCode offlineStore es).registry :=
  EventMachine.run_invariant (step platform) (sound_step platform)
    (sound_start adminCode offlineStore) es

section Runs

variable {platform : Platform} {adminCode : String} {offlineStore : Bool} {es : List Event}

theorem after_concat (es : List Event) (e : Event) :
    after platform adminCode offlineStore (es ++ [e]) =
      step platform (after platform adminCode offlineStore es) e := EventMachine.run_concat ..

/-- The state after one more event. -/
theorem after_take_succ {i : ℕ} (hi : i < es.length) :
    after platform adminCode offlineStore (es.take (i + 1)) =
      step platform (after platform adminCode offlineStore (es.take i)) es[i] := by
  rw [List.take_succ_eq_append_getElem hi, after_concat]

end Runs

/-- The messages that went into send queues between two states. -/
def sentBetween (h k : Hub) : List (ClientID × Message) :=
  k.registry.sent.drop h.registry.sent.length

theorem mem_sentBetween {P : ClientID × Message → Prop} (he : Emits P h.registry k.registry)
    {x : ClientID × Message} (hx : x ∈ sentBetween h k) : P x := by
  obtain ⟨l, hl, hp⟩ := he
  unfold sentBetween at hx
  rw [hl, List.drop_left] at hx
  exact hp x hx

theorem not_mem_sentBetween (hsent : k.registry.sent = h.registry.sent)
    {x : ClientID × Message} : x ∉ sentBetween h k := by
  unfold sentBetween
  rw [hsent, List.drop_length]
  exact List.not_mem_nil

/-- What has been sent to a session, oldest first. -/
def sentTo (h : Hub) (c : ClientID) : List Message :=
  (h.registry.sent.filter fun x => x.1 == c).map Prod.snd

theorem sentTo_append {out : List (ClientID × Message)}
    (hsent : k.registry.sent = h.registry.sent ++ out) (c : ClientID) :
    k.sentTo c = h.sentTo c ++ (out.filter fun x => x.1 == c).map Prod.snd := by
  unfold sentTo
  rw [hsent, List.filter_append, List.map_append]

theorem mem_sentTo {c : ClientID} {m : Message} :
    m ∈ h.sentTo c ↔ (c, m) ∈ h.registry.sent := by
  simp [sentTo]

/-- An event sends only messages of its types. -/
theorem type_mem_sends (platform : Platform) (hs : Sound h.registry) {e : Event} {c : ClientID}
    {x : Message} (hx : (c, x) ∈ sentBetween h (step platform h e)) : x.type ∈ e.input.sends := by
  cases hlive : e.input.isRestart with
  | false => exact mem_sentBetween (step_touches platform hs e hlive).moves.emits hx
  | true =>
    obtain ⟨input, env⟩ := e
    cases input with
    | restart adminCode => exact absurd hx (not_mem_sentBetween rfl)
    | _ => cases hlive

/-- The log of what has been sent only grows. -/
theorem sent_step (platform : Platform) (hs : Sound h.registry) (e : Event) :
    ∃ out, (step platform h e).registry.sent = h.registry.sent ++ out := by
  cases hlive : e.input.isRestart with
  | false =>
    obtain ⟨out, hout, -⟩ := (step_touches platform hs e hlive).moves.emits
    exact ⟨out, hout⟩
  | true =>
    obtain ⟨input, env⟩ := e
    cases input with
    | restart adminCode => exact ⟨[], (List.append_nil _).symm⟩
    | _ => cases hlive

/-! ### Runs by position -/

/-- A run of the server from its first start. -/
structure Trace where
  platform : Platform
  adminCode : String
  offlineStore : Bool
  events : List Event

namespace Trace

/-- The Hub before event number `n`. -/
def hub (r : Trace) (n : ℕ) : Hub := after r.platform r.adminCode r.offlineStore (r.events.take n)

variable {r : Trace} {n : ℕ}

theorem hub_succ (hn : n < r.events.length) :
    r.hub (n + 1) = step r.platform (r.hub n) r.events[n] := after_take_succ hn

/-- What holds at the start and is kept by every event holds at every position. -/
theorem invariant {I : Hub → Prop} (hstart : I (start r.adminCode r.offlineStore))
    (hstep : ∀ h e, I h → I (step r.platform h e)) (n : ℕ) : I (r.hub n) :=
  EventMachine.run_invariant (step r.platform) hstep hstart _

end Trace

end Hub

end LanChat
