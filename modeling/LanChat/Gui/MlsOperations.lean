import LanChat.Gui.MlsSession

/-!
# What a step does to the pending operations

* `IsOpFrame`: the frames that drive an operation, its proposal, commit and welcome;
* `OpStep`: the ways in which a step may change the pending operations, with the frames it sends;
* `opStep`: every step is one of them.
-/

namespace LanChat

namespace Gui

open GoStrings

/-- The frame is a proposal, a commit or a welcome. -/
def IsOpFrame (m : Message) : Prop :=
  m.type = .mlsGroupProposal ∨ m.type = .mlsGroupCommit ∨ m.type = .mlsGroupWelcome

namespace MlsWorker

/-- The group of every pending operation is there. -/
def GroupsKnown (w : MlsWorker) : Prop :=
  ∀ id op, w.pendingMlsOperations.lookup id = some op → (w.mlsGroups.lookup op.group).isSome

/-- The command id of the operation that an input may start. -/
def startID (w : MlsWorker) : MlsInput → Option String
  | .addMlsMember _ _ _ commandID | .removeMlsMember _ _ _ commandID => some (trimSpace commandID)
  | .receive m =>
    if m.type = .mlsKeyPackageFetch then
      (w.pendingAttachmentMlsFetches.lookup m.commandID).bind fun attachmentCommandID =>
        (w.pendingAttachmentMlsSetups.lookup attachmentCommandID).map fun setup =>
          trimSpace (addCommand attachmentCommandID setup.nextTarget)
    else none
  | _ => none

/-- The key package that an add of the input uses. -/
def addPackage (w : MlsWorker) : MlsInput → Option String
  | .addMlsMember _ _ target _ => w.mlsKeyPackages.lookup (QString.toLower (trimSpace target))
  | .receive m => (w.startID (.receive m)).bind fun _ =>
      (w.storeKeyPackage m).mlsKeyPackages.lookup (QString.toLower (trimSpace m.targetUserCode))
  | _ => none

/-- The input is a login as another user. -/
def switchesUser (w : MlsWorker) : MlsInput → Bool
  | .connectToServer _ userCode (some _) => !(w.saved && QString.equalFold w.userCode userCode)
  | _ => false

/-- The ways in which a step may change the pending operations `ops`, with the frames it sends;
`starts` is the command id that it may start, `package` the key package that an add uses, `switches`
whether another user logs in, `session` the connection before the step. -/
inductive OpStep (platform : Platform) (ops : AList fun _ : String => PendingMlsOperation)
    (starts package : Option String) (switches : Bool) (session : Option ClientID)
    (x : MlsInput × MlsDraw) (w' : MlsWorker) (frames : List Message) : Prop
  | quiet (hops : w'.pendingMlsOperations = ops) (hframes : ∀ m ∈ frames, ¬ IsOpFrame m)
  | start (id : String) (op : PendingMlsOperation) (hstarts : starts = some id) (hid : id ≠ "")
      (hnone : ops.lookup id = none) (hphase : op.phase = .proposal)
      (hgroup : (w'.mlsGroups.lookup op.group).isSome)
      (hwelcome : op.add = true → package.isSome ∧ ∃ commit, x.2.commit = some (commit, op.welcome))
      (hops : w'.pendingMlsOperations = ops.insert id op)
      (hframes : frames = [op.proposalMessage id])
  | commit (id : String) (op : PendingMlsOperation) (hop : ops.lookup id = some op)
      (hphase : op.phase = .proposal)
      (hops : w'.pendingMlsOperations = ops.insert id { op with phase := .commit })
      (hframes : frames = [op.commitMessage id])
  | welcome (id : String) (op : PendingMlsOperation) (hop : ops.lookup id = some op)
      (hphase : op.phase = .commit) (hadd : op.add = true) (hsession : w'.session = session)
      (hack : ∃ m, x.1 = .receive m ∧ m.commandID = id ∧ m.type = .mlsGroupCommit ∧ m.commit = "")
      (hops : w'.pendingMlsOperations = ops.insert id { op with phase := .welcome })
      (hframes : frames = [op.welcomeMessage platform id])
  | drop (id : String) (hops : w'.pendingMlsOperations = ops.erase id)
      (hframes : ∀ m ∈ frames, ¬ IsOpFrame m)
      (hwhy : ∀ op, ops.lookup id = some op → op.phase = .commit → op.add = true →
        ∃ m, x.1 = .receive m ∧ m.commandID = id ∧ (m.type = .error ∨
          m.type = .mlsGroupCommit ∧ m.commit = "" ∧
            x.2.sendFails (op.welcomeMessage platform id) = true))
  | reset (hswitches : switches = true) (hops : w'.pendingMlsOperations = ∅)
      (hframes : ∀ m ∈ frames, ¬ IsOpFrame m)
  | resume (hops : ∀ id, w'.pendingMlsOperations.lookup id =
        if (ops.lookup id).any (fun op => op.phase == .welcome) then none else ops.lookup id)
      (hframes : ∀ m ∈ frames, IsOpFrame m → ∃ id op, ops.lookup id = some op ∧
        ((op.phase = .proposal ∧ m = op.proposalMessage id) ∨
          (op.phase = .commit ∧ m = op.commitMessage id)))

variable {w w' : MlsWorker} {d : MlsDraw} {platform : Platform} {x : MlsInput × MlsDraw}
  {starts package : Option String} {switches : Bool} {session : Option ClientID}

theorem mem_send {m m' : Message} (hm : m ∈ d.send m') : m = m' := by
  unfold MlsDraw.send at hm
  split at hm
  · cases hm
  · exact List.mem_singleton.1 hm

theorem not_isOpFrame {m m' : Message} (hm : m ∈ d.send m') (hm' : ¬ IsOpFrame m') :
    ¬ IsOpFrame m := by
  rw [mem_send hm]
  exact hm'

theorem frames_publishMlsKeyPackage : ∀ m ∈ w.publishMlsKeyPackage d, ¬ IsOpFrame m := by
  intro m hm
  unfold publishMlsKeyPackage at hm
  split at hm
  · split at hm
    · cases hm
    · exact not_isOpFrame hm (by simp [IsOpFrame])
  · cases hm

theorem frames_fetchMlsKeyPackage {room target commandID : String} :
    ∀ m ∈ w.fetchMlsKeyPackage d room target commandID, ¬ IsOpFrame m := by
  intro m hm
  unfold fetchMlsKeyPackage at hm
  split at hm
  · cases hm
  · exact not_isOpFrame hm (by simp [IsOpFrame])

theorem frames_sendWelcomeAccept {m' : Message} :
    ∀ m ∈ w.sendWelcomeAccept platform d m', ¬ IsOpFrame m := by
  intro m hm
  unfold sendWelcomeAccept at hm
  split at hm
  · cases hm
  · exact not_isOpFrame hm (by simp [IsOpFrame])

theorem frames_startNextAttachmentMlsSetup {attachmentCommandID : String} :
    ∀ m ∈ (w.startNextAttachmentMlsSetup d attachmentCommandID).2, ¬ IsOpFrame m := by
  intro m hm
  unfold startNextAttachmentMlsSetup at hm
  split at hm
  · cases hm
  split at hm
  · split at hm
    · cases hm
    · dsimp only at hm
      split at hm
      · cases hm
      · exact not_isOpFrame hm (by simp [IsOpFrame])
  · exact frames_fetchMlsKeyPackage m hm

theorem frames_continueAttachmentMlsSetup {commandID : String} :
    ∀ m ∈ (w.continueAttachmentMlsSetup d commandID).2, ¬ IsOpFrame m := by
  intro m hm
  unfold continueAttachmentMlsSetup at hm
  split at hm
  · cases hm
  dsimp only at hm
  split at hm
  · cases hm
  · exact frames_startNextAttachmentMlsSetup m hm

/-- A step that leaves the operations alone and sends none of their frames. -/
theorem OpStep.of_nil {ops : AList fun _ : String => PendingMlsOperation}
    (hops : w'.pendingMlsOperations = ops) :
    OpStep platform ops starts package switches session x w' [] :=
  .quiet hops fun _ hm => by cases hm

theorem opStep_startOperation {input : MlsInput} {room g target commandID : String} {add : Bool}
    (hpackage : add = true → package.isSome) :
    OpStep platform w.pendingMlsOperations (some (trimSpace commandID)) package switches session
      (input, d)
      (w.startOperation d room g target commandID add).1
      (w.startOperation d room g target commandID add).2 := by
  unfold startOperation
  split
  · rename_i state proposal commit _ _ hcommit
    dsimp only
    split
    · exact .of_nil rfl
    split
    · exact .of_nil rfl
    split
    · exact .of_nil rfl
    rename_i hpending
    split
    · exact .of_nil rfl
    · obtain ⟨hid, hnone⟩ := not_or.1 hpending
      have hgroup : ((w.advanceSession g state).mlsGroups.lookup g).isSome := by
        simp [advanceSession]
      have hwelcome : add = true → package.isSome ∧ ∃ c, d.commit =
          some (c, (newOperation state room g target proposal commit add).welcome) := by
        intro hadd
        refine ⟨hpackage hadd, commit.1, ?_⟩
        unfold newOperation
        rw [if_pos hadd]
        exact hcommit
      exact .start (trimSpace commandID) (newOperation state room g target proposal commit add)
        rfl hid (Option.not_isSome_iff_eq_none.1 hnone) rfl hgroup hwelcome rfl rfl
  · exact .of_nil rfl

theorem package_of_prepareAdd {room g target : String} (h : w.prepareAdd d room g target = some w') :
    (w.mlsKeyPackages.lookup target).isSome := by
  unfold prepareAdd at h
  split at h
  · cases h
  split at h
  · cases h
  split at h
  · cases h
  · rename_i hpackage
    exact Option.isSome_iff_ne_none.2 fun hnone => hpackage (by rw [hnone]; rfl)

theorem opStep_addMlsMember {input : MlsInput} {room g target commandID : String} :
    OpStep platform w.pendingMlsOperations (some (trimSpace commandID))
      (w.mlsKeyPackages.lookup (QString.toLower (trimSpace target))) switches session (input, d)
      (w.addMlsMember d room g target commandID).1
      (w.addMlsMember d room g target commandID).2 := by
  unfold addMlsMember
  dsimp only
  split
  · exact .of_nil rfl
  · rename_i w' hw
    have hops : w'.pendingMlsOperations = w.pendingMlsOperations := by
      rcases prepareAdd_eq_some hw with rfl | rfl
      · rfl
      · rfl
    rw [← hops]
    exact opStep_startOperation fun _ => package_of_prepareAdd hw

theorem opStep_receiveKeyPackage {input : MlsInput} {m : Message}
    (ht : m.type = .mlsKeyPackageFetch) :
    OpStep platform w.pendingMlsOperations (w.startID (.receive m)) (w.addPackage (.receive m))
      switches session (input, d)
      (w.receiveKeyPackage d m).1 (w.receiveKeyPackage d m).2 := by
  unfold receiveKeyPackage
  dsimp only
  split
  · exact .of_nil rfl
  rename_i id hfetch
  split
  · exact .of_nil rfl
  · rename_i setup hsetup
    have hstarts : w.startID (.receive m) = some (trimSpace (addCommand id setup.nextTarget)) := by
      have hfetch' : w.pendingAttachmentMlsFetches.lookup m.commandID = some id := hfetch
      have hsetup' : w.pendingAttachmentMlsSetups.lookup id = some setup := hsetup
      simp [startID, ht, hfetch', hsetup']
    have hops : ((w.storeKeyPackage m).awaitAdd m.commandID
        (addCommand id setup.nextTarget) id).pendingMlsOperations = w.pendingMlsOperations := rfl
    have hkeys : ((w.storeKeyPackage m).awaitAdd m.commandID
        (addCommand id setup.nextTarget) id).mlsKeyPackages = (w.storeKeyPackage m).mlsKeyPackages :=
      rfl
    have hpackage : w.addPackage (.receive m) = ((w.storeKeyPackage m).awaitAdd m.commandID
        (addCommand id setup.nextTarget) id).mlsKeyPackages.lookup
          (QString.toLower (trimSpace m.targetUserCode)) := by
      rw [hkeys, addPackage, hstarts, Option.bind_some]
    rw [hstarts, hpackage, ← hops]
    exact opStep_addMlsMember

theorem opStep_receiveProposalAck (commandID : String) :
    OpStep platform w.pendingMlsOperations starts package switches session x
      (w.receiveProposalAck d commandID).1
      (w.receiveProposalAck d commandID).2 := by
  unfold receiveProposalAck
  split
  · exact .of_nil rfl
  rename_i op hop
  split
  · exact .of_nil rfl
  rename_i hphase
  have hproposal : op.phase = .proposal := by simpa using hphase
  split
  · refine .drop commandID rfl (fun m hm => by cases hm) fun op' hop' hcommit => ?_
    cases hop.symm.trans hop'
    rw [hproposal] at hcommit
    cases hcommit
  · exact .commit commandID op hop hproposal rfl rfl

theorem opStep_receiveCommitAck (hk : w.GroupsKnown) {m : Message} (ht : m.type = .mlsGroupCommit)
    (hm : m.commit = "") :
    OpStep platform w.pendingMlsOperations starts package switches w.session (.receive m, d)
      (w.receiveCommitAck platform d m.commandID).1
      (w.receiveCommitAck platform d m.commandID).2 := by
  unfold receiveCommitAck
  split
  · exact .of_nil rfl
  rename_i op hop
  split
  · exact .of_nil rfl
  rename_i hphase
  have hcommit : op.phase = .commit := by simpa using hphase
  split
  · rename_i hnone
    have hsome := hk m.commandID op hop
    rw [hnone] at hsome
    cases hsome
  rename_i state hstate
  dsimp only
  split
  · rename_i hadd
    split
    · rename_i hfail
      refine .drop m.commandID rfl (fun m hm => by cases hm) fun op' hop' _ _ => ?_
      cases hop.symm.trans hop'
      exact ⟨m, rfl, rfl, .inr ⟨ht, hm, hfail⟩⟩
    · exact .welcome m.commandID op hop hcommit hadd rfl ⟨m, rfl, rfl, ht, hm⟩ rfl rfl
  · rename_i hadd
    refine .drop m.commandID (same_continueAttachmentMlsSetup m.commandID).1
      frames_continueAttachmentMlsSetup fun op' hop' _ hadd' => ?_
    cases hop.symm.trans hop'
    exact absurd hadd' hadd

theorem opStep_receiveWelcomeAck (commandID : String) :
    OpStep platform w.pendingMlsOperations starts package switches session x
      (w.receiveWelcomeAck d commandID).1
      (w.receiveWelcomeAck d commandID).2 := by
  unfold receiveWelcomeAck
  split
  · exact .of_nil rfl
  rename_i op hop
  split
  · exact .of_nil rfl
  rename_i hphase
  have hwelcome : op.phase = .welcome := by simpa using hphase
  refine .drop commandID (same_continueAttachmentMlsSetup commandID).1
    frames_continueAttachmentMlsSetup fun op' hop' hcommit => ?_
  cases hop.symm.trans hop'
  rw [hwelcome] at hcommit
  cases hcommit

theorem opStep_receiveWelcome (m : Message) :
    OpStep platform w.pendingMlsOperations starts package switches session x
      (w.receiveWelcome platform d m).1
      (w.receiveWelcome platform d m).2 := by
  unfold receiveWelcome
  split
  · exact .of_nil rfl
  split
  · split
    · exact .of_nil rfl
    split
    · exact .quiet rfl frames_sendWelcomeAccept
    · exact .of_nil rfl
  split
  · split
    · exact .of_nil rfl
    dsimp only
    split
    · exact .of_nil rfl
    split
    · exact .quiet rfl frames_sendWelcomeAccept
    · refine .quiet rfl fun m' hm' => ?_
      rcases List.mem_append.1 hm' with hm' | hm'
      · exact frames_sendWelcomeAccept m' hm'
      · exact frames_publishMlsKeyPackage m' hm'
  · exact .of_nil rfl

theorem pending_receiveError (commandID : String) :
    (w.receiveError commandID).pendingMlsOperations = w.pendingMlsOperations.erase commandID := by
  unfold receiveError
  dsimp only
  split
  · split
    · rfl
    · rfl
  · split
    · rfl
    · rfl

theorem opStep_processMlsMessage (hk : w.GroupsKnown) (m : Message) :
    OpStep platform w.pendingMlsOperations (w.startID (.receive m)) (w.addPackage (.receive m))
      switches w.session (.receive m, d)
      (w.processMlsMessage platform d m).1
      (w.processMlsMessage platform d m).2 := by
  unfold processMlsMessage
  cases ht : m.type with
  | mlsKeyPackageFetch =>
    dsimp only
    split
    · exact .of_nil rfl
    · exact opStep_receiveKeyPackage ht
  | mlsGroupProposal =>
    dsimp only
    split
    · exact .of_nil rfl
    · exact opStep_receiveProposalAck _
  | mlsGroupWelcome =>
    dsimp only
    split
    · exact opStep_receiveWelcome m
    split
    · exact .of_nil rfl
    · exact opStep_receiveWelcomeAck _
  | mlsGroupCommit =>
    dsimp only
    split
    · refine .of_nil ?_
      unfold receiveCommit
      split
      · rfl
      split
      · rfl
      · rfl
    rename_i hm
    split
    · exact .of_nil rfl
    · exact opStep_receiveCommitAck hk ht (not_not.1 hm)
  | error =>
    dsimp only
    split
    · exact .of_nil rfl
    · exact .drop m.commandID (pending_receiveError _) (fun _ hm => by cases hm)
        fun op _ _ _ => ⟨m, rfl, rfl, .inl ht⟩
  | _ => exact .of_nil rfl

/-- The frames of a resumption are those of the operations that are kept. -/
theorem mem_resumed {id : String} {m : Message} (hm : m ∈ w.resumed d id) :
    ∃ op, w.pendingMlsOperations.lookup id = some op ∧
      ((op.phase = .proposal ∧ m = op.proposalMessage id) ∨
        (op.phase = .commit ∧ m = op.commitMessage id)) := by
  unfold resumed at hm
  split at hm
  · cases hm
  rename_i op hop
  refine ⟨op, hop, ?_⟩
  cases hphase : op.phase with
  | proposal =>
    rw [hphase] at hm
    exact .inl ⟨rfl, mem_send hm⟩
  | commit =>
    rw [hphase] at hm
    exact .inr ⟨rfl, mem_send hm⟩
  | welcome =>
    rw [hphase] at hm
    cases hm

theorem opStep_resume {published : List Message} (hpublished : ∀ m ∈ published, ¬ IsOpFrame m) :
    OpStep platform w.pendingMlsOperations starts package switches session x
      (w.resumePendingMlsOperations d).1
      (published ++ (w.resumePendingMlsOperations d).2) := by
  refine .resume (fun id => ?_) fun m hm hop => ?_
  · unfold resumePendingMlsOperations
    dsimp only
    rw [lookup_dropWelcomes]
    change (if _ ∧ w.awaitsWelcome id = true then _ else _) = if w.awaitsWelcome id then _ else _
    by_cases hwelcome : w.awaitsWelcome id = true
    · have hmem : id ∈ w.pendingMlsOperations.keys.insertionSort (· ≤ ·) := by
        rw [List.mem_insertionSort]
        obtain ⟨op, hop, -⟩ := (Option.any_eq_true _ _).1 hwelcome
        exact AList.lookup_isSome.1 (by rw [hop]; rfl)
      rw [if_pos ⟨hmem, hwelcome⟩, if_pos hwelcome]
    · rw [if_neg fun h => hwelcome h.2, if_neg hwelcome]
  · rcases List.mem_append.1 hm with hm | hm
    · exact absurd hop (hpublished m hm)
    · obtain ⟨id, -, hm⟩ := List.mem_flatMap.1 hm
      exact ⟨id, mem_resumed hm⟩

theorem opStep_connected (c : ClientID) (preserveMlsState : Bool)
    (hswitches : preserveMlsState = false → switches = true) :
    OpStep platform w.pendingMlsOperations starts package switches session x
      (w.connected d c preserveMlsState).1
      (w.connected d c preserveMlsState).2 := by
  unfold connected
  dsimp only
  split
  · split
    · exact opStep_resume (w := { w with session := some c, mlsClient := d.keyPackage.map some })
        frames_publishMlsKeyPackage
    · exact opStep_resume (w := { w with session := some c }) frames_publishMlsKeyPackage
  · rename_i hpreserve
    exact .reset (hswitches (by simpa using hpreserve)) rfl frames_publishMlsKeyPackage

/-- Every step changes the pending operations in one of the ways of `OpStep`. -/
theorem opStep (platform : Platform) (hk : w.GroupsKnown) (x : MlsInput × MlsDraw) :
    OpStep platform w.pendingMlsOperations (w.startID x.1) (w.addPackage x.1) (w.switchesUser x.1)
      w.session x (w.step platform x).1 (w.step platform x).2 := by
  obtain ⟨input, d⟩ := x
  unfold step
  cases input with
  | connectToServer username userCode login =>
    dsimp only
    unfold connectToServer
    dsimp only
    split
    · rename_i c
      refine opStep_connected (w := { w with saved := true, username, userCode }) c _ fun h => ?_
      simp [switchesUser, h]
    · exact .of_nil rfl
  | retrySavedConnection login =>
    dsimp only
    unfold retrySavedConnection
    split
    · exact opStep_connected _ true fun h => by cases h
    · exact .of_nil rfl
  | disconnect => exact .of_nil rfl
  | fetchMlsKeyPackage room target commandID => exact .quiet rfl frames_fetchMlsKeyPackage
  | addMlsMember room g target commandID => exact opStep_addMlsMember
  | removeMlsMember room g target commandID =>
    dsimp only
    unfold removeMlsMember
    dsimp only
    split
    · exact opStep_startOperation fun h => by cases h
    · exact .of_nil rfl
  | startAttachmentUpload room targets commandID =>
    dsimp only
    unfold startAttachmentUpload
    dsimp only
    split
    · exact .of_nil rfl
    -- an upload creates its group, and its members are added by later messages
    · refine .quiet ?_ frames_startNextAttachmentMlsSetup
      unfold startNextAttachmentMlsSetup
      split
      · rfl
      split
      · split
        · rfl
        · rfl
      · rfl
  | receive m =>
    dsimp only
    split
    · exact opStep_processMlsMessage hk m
    · exact .of_nil rfl

/-! ### The groups of the operations -/

/-- No group is forgotten. -/
def KeepsGroups (w w' : MlsWorker) : Prop :=
  ∀ g, (w.mlsGroups.lookup g).isSome → (w'.mlsGroups.lookup g).isSome

theorem KeepsGroups.refl (w : MlsWorker) : KeepsGroups w w := fun _ hg => hg

theorem KeepsGroups.of_eq (h : w'.mlsGroups = w.mlsGroups) : KeepsGroups w w' := by
  intro g hg
  rw [h]
  exact hg

theorem KeepsGroups.trans {v : MlsWorker} (h : KeepsGroups w v) (h' : KeepsGroups v w') :
    KeepsGroups w w' := fun g hg => h' g (h g hg)

/-- A group is written. -/
theorem KeepsGroups.of_insert {g : String} {state : MlsGroupState}
    (h : w'.mlsGroups = w.mlsGroups.insert g state) : KeepsGroups w w' := by
  intro g' hg'
  rw [h]
  by_cases heq : g' = g
  · subst heq
    simp
  · rwa [AList.lookup_insert_ne heq]

theorem keepsGroups_createGroup (room g : String) : KeepsGroups w (w.createGroup room g) := by
  unfold createGroup emplace
  split
  · exact .refl w
  · exact .of_insert rfl

theorem keepsGroups_startOperation {room g target commandID : String} {add : Bool} :
    KeepsGroups w (w.startOperation d room g target commandID add).1 := by
  unfold startOperation
  split
  · rename_i state _ _ _ _ _
    have hadvance : KeepsGroups w (w.advanceSession g state) := .of_insert rfl
    dsimp only
    split
    · exact hadvance
    split
    · exact hadvance
    split
    · exact hadvance
    split
    · exact hadvance
    · exact hadvance
  · exact .refl w

theorem keepsGroups_addMlsMember {room g target commandID : String} :
    KeepsGroups w (w.addMlsMember d room g target commandID).1 := by
  unfold addMlsMember
  dsimp only
  split
  · exact .refl w
  · rename_i w' hw
    refine KeepsGroups.trans ?_ keepsGroups_startOperation
    rcases prepareAdd_eq_some hw with rfl | rfl
    · exact .refl _
    · exact keepsGroups_createGroup _ _

theorem groups_startNextAttachmentMlsSetup (attachmentCommandID : String) :
    (w.startNextAttachmentMlsSetup d attachmentCommandID).1.mlsGroups = w.mlsGroups := by
  unfold startNextAttachmentMlsSetup
  split
  · rfl
  split
  · split
    · rfl
    · rfl
  · rfl

theorem groups_continueAttachmentMlsSetup (commandID : String) :
    (w.continueAttachmentMlsSetup d commandID).1.mlsGroups = w.mlsGroups := by
  unfold continueAttachmentMlsSetup
  split
  · rfl
  dsimp only
  split
  · rfl
  · exact groups_startNextAttachmentMlsSetup _

theorem keepsGroups_receiveCommitAck (commandID : String) :
    KeepsGroups w (w.receiveCommitAck platform d commandID).1 := by
  unfold receiveCommitAck
  split
  · exact .refl w
  split
  · exact .refl w
  split
  · exact .refl w
  dsimp only
  split
  · split
    · exact .of_insert rfl
    · exact .of_insert rfl
  · exact .of_insert (groups_continueAttachmentMlsSetup _)

theorem keepsGroups_receiveWelcomeAck (commandID : String) :
    KeepsGroups w (w.receiveWelcomeAck d commandID).1 := by
  unfold receiveWelcomeAck
  split
  · exact .refl w
  rename_i op _
  split
  · exact .refl w
  · have hrecord : KeepsGroups w (w.recordWelcome op) := by
      unfold recordWelcome
      split
      · exact .refl w
      · exact .of_insert rfl
    exact hrecord.trans (.of_eq (groups_continueAttachmentMlsSetup _))

theorem keepsGroups_receiveWelcome (m : Message) :
    KeepsGroups w (w.receiveWelcome platform d m).1 := by
  unfold receiveWelcome
  split
  · exact .refl w
  split
  · split
    · exact .refl w
    split
    · exact .refl w
    · exact .refl w
  split
  · split
    · exact .refl w
    dsimp only
    split
    · exact .of_insert rfl
    split
    · exact .of_insert rfl
    · exact .of_insert rfl
  · exact .refl w

theorem keepsGroups_receiveCommit (m : Message) : KeepsGroups w (w.receiveCommit d m) := by
  unfold receiveCommit
  split
  · exact .refl w
  split
  · exact .refl w
  · exact .of_insert rfl

theorem keepsGroups_receiveKeyPackage (m : Message) :
    KeepsGroups w (w.receiveKeyPackage d m).1 := by
  unfold receiveKeyPackage
  dsimp only
  split
  · exact .refl w
  rename_i id _
  split
  · exact .refl w
  · rename_i setup _
    have hsame : ((w.storeKeyPackage m).awaitAdd m.commandID
        (addCommand id setup.nextTarget) id).mlsGroups = w.mlsGroups := rfl
    exact (KeepsGroups.of_eq hsame).trans keepsGroups_addMlsMember

theorem keepsGroups_receiveProposalAck (commandID : String) :
    KeepsGroups w (w.receiveProposalAck d commandID).1 := by
  unfold receiveProposalAck
  split
  · exact .refl w
  split
  · exact .refl w
  split
  · exact .refl w
  · exact .refl w

theorem keepsGroups_receiveError (commandID : String) :
    KeepsGroups w (w.receiveError commandID) := by
  refine .of_eq ?_
  unfold receiveError
  dsimp only
  split
  · split
    · rfl
    · rfl
  · split
    · rfl
    · rfl

theorem keepsGroups_processMlsMessage (m : Message) :
    KeepsGroups w (w.processMlsMessage platform d m).1 := by
  unfold processMlsMessage
  cases m.type with
  | mlsKeyPackageFetch =>
    dsimp only
    split
    · exact .refl w
    · exact keepsGroups_receiveKeyPackage m
  | mlsGroupProposal =>
    dsimp only
    split
    · exact .refl w
    · exact keepsGroups_receiveProposalAck _
  | mlsGroupWelcome =>
    dsimp only
    split
    · exact keepsGroups_receiveWelcome m
    split
    · exact .refl w
    · exact keepsGroups_receiveWelcomeAck _
  | mlsGroupCommit =>
    dsimp only
    split
    · exact keepsGroups_receiveCommit m
    split
    · exact .refl w
    · exact keepsGroups_receiveCommitAck _
  | error =>
    dsimp only
    split
    · exact .refl w
    · exact keepsGroups_receiveError _
  | _ => exact .refl w

theorem keepsGroups_connected (c : ClientID) :
    KeepsGroups w (w.connected d c true).1 := by
  unfold connected
  rw [if_pos rfl]
  dsimp only
  split
  · exact .refl w
  · exact .refl w

/-- Only a login as another user forgets a group. -/
theorem keepsGroups_step (platform : Platform) (x : MlsInput × MlsDraw)
    (hx : w.switchesUser x.1 = false) : KeepsGroups w (w.step platform x).1 := by
  obtain ⟨input, d⟩ := x
  unfold step
  cases input with
  | connectToServer username userCode login =>
    dsimp only
    unfold connectToServer
    dsimp only
    split
    · rename_i c
      have hpreserve : (w.saved && QString.equalFold w.userCode userCode) = true := by
        simpa [switchesUser] using hx
      have hsame : ({ w with saved := true, username, userCode } : MlsWorker).mlsGroups =
        w.mlsGroups := rfl
      rw [hpreserve]
      exact (KeepsGroups.of_eq hsame).trans (keepsGroups_connected c)
    · exact .refl w
  | retrySavedConnection login =>
    dsimp only
    unfold retrySavedConnection
    split
    · exact keepsGroups_connected _
    · exact .refl w
  | disconnect => exact .refl w
  | fetchMlsKeyPackage room target commandID => exact .refl w
  | addMlsMember room g target commandID => exact keepsGroups_addMlsMember
  | removeMlsMember room g target commandID =>
    dsimp only
    unfold removeMlsMember
    dsimp only
    split
    · exact keepsGroups_startOperation
    · exact .refl w
  | startAttachmentUpload room targets commandID =>
    dsimp only
    unfold startAttachmentUpload
    dsimp only
    split
    · exact .refl w
    · exact (keepsGroups_createGroup _ _).trans
        (.of_eq (groups_startNextAttachmentMlsSetup _))
  | receive m =>
    dsimp only
    split
    · exact keepsGroups_processMlsMessage m
    · exact .refl w

theorem pending_of_switchesUser {x : MlsInput × MlsDraw} (hx : w.switchesUser x.1 = true) :
    (w.step platform x).1.pendingMlsOperations = ∅ := by
  obtain ⟨input, d⟩ := x
  cases input with
  | connectToServer username userCode login =>
    cases login with
    | none => cases hx
    | some c =>
      have hpreserve : (w.saved && QString.equalFold w.userCode userCode) = false :=
        Bool.not_eq_true' _ |>.mp hx
      unfold step connectToServer
      dsimp only
      rw [hpreserve]
      rfl
  | _ => cases hx

/-- What an operation that is pending after a step was before it. -/
theorem OpStep.pending {ops : AList fun _ : String => PendingMlsOperation} {frames : List Message}
    (hs : OpStep platform ops starts package switches session x w' frames) {id : String}
    {op : PendingMlsOperation}
    (hop : w'.pendingMlsOperations.lookup id = some op) :
    (∃ op', ops.lookup id = some op' ∧ op = { op' with phase := op.phase }) ∨
      (starts = some id ∧ (w'.mlsGroups.lookup op.group).isSome ∧
        (op.add = true → package.isSome ∧ ∃ commit, x.2.commit = some (commit, op.welcome))) := by
  cases hs with
  | quiet hops _ =>
    rw [hops] at hop
    exact .inl ⟨op, hop, rfl⟩
  | start id' op' hstarts _ _ _ hgroup hwelcome hops _ =>
    rw [hops] at hop
    by_cases heq : id = id'
    · subst heq
      rw [AList.lookup_insert] at hop
      cases hop
      exact .inr ⟨hstarts, hgroup, hwelcome⟩
    · rw [AList.lookup_insert_ne heq] at hop
      exact .inl ⟨op, hop, rfl⟩
  | commit id' op' hop' hphase hops _ | welcome id' op' hop' hphase _ _ _ hops _ =>
    rw [hops] at hop
    by_cases heq : id = id'
    · subst heq
      rw [AList.lookup_insert] at hop
      cases hop
      exact .inl ⟨op', hop', rfl⟩
    · rw [AList.lookup_insert_ne heq] at hop
      exact .inl ⟨op, hop, rfl⟩
  | drop id' hops _ _ =>
    rw [hops] at hop
    by_cases heq : id = id'
    · subst heq
      rw [AList.lookup_erase] at hop
      cases hop
    · rw [AList.lookup_erase_ne heq] at hop
      exact .inl ⟨op, hop, rfl⟩
  | reset _ hops _ =>
    rw [hops] at hop
    cases hop
  | resume hops _ =>
    rw [hops] at hop
    split at hop
    · cases hop
    · exact .inl ⟨op, hop, rfl⟩

/-- A welcome frame is that of an add that was pending. -/
theorem OpStep.welcome_frame {ops : AList fun _ : String => PendingMlsOperation}
    {frames : List Message} (hs : OpStep platform ops starts package switches session x w' frames)
    {m : Message} (hm : m ∈ frames) (ht : m.type = .mlsGroupWelcome) :
    ∃ id op, ops.lookup id = some op ∧ op.add = true ∧ m = op.welcomeMessage platform id := by
  cases hs with
  | quiet _ hframes | drop _ _ hframes _ | reset _ _ hframes =>
    exact absurd (.inr (.inr ht)) (hframes m hm)
  | start id op _ _ _ _ _ _ _ hframes | commit id op _ _ _ hframes =>
    rw [hframes, List.mem_singleton] at hm
    rw [hm] at ht
    cases ht
  | welcome id op hop _ hadd _ _ _ hframes =>
    rw [hframes, List.mem_singleton] at hm
    exact ⟨id, op, hop, hadd, hm⟩
  | resume _ hframes =>
    obtain ⟨id, op, -, ⟨-, rfl⟩ | ⟨-, rfl⟩⟩ := hframes m hm (.inr (.inr ht))
    · cases ht
    · cases ht

/-- The group of every pending operation is known in every state. -/
theorem GroupsKnown.step (platform : Platform) (hk : w.GroupsKnown) (x : MlsInput × MlsDraw) :
    (w.step platform x).1.GroupsKnown := by
  intro id op hop
  cases hx : w.switchesUser x.1 with
  | true =>
    rw [pending_of_switchesUser hx] at hop
    cases hop
  | false =>
    rcases (opStep platform hk x).pending hop with ⟨op', hop', heq⟩ | ⟨-, hgroup, -⟩
    · rw [heq]
      exact keepsGroups_step platform x hx _ (hk id op' hop')
    · exact hgroup

end MlsWorker

end Gui

end LanChat
