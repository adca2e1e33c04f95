import LanChat.Gui.AttachmentSetups
import LanChat.Gui.BridgeCommands
import LanChat.Gui.ManyUploads
import LanChat.Gui.MlsOperations

/-!
# The ids that the worker sends (`chat_bridge.cpp`, `gui_connection_worker.cpp`)

The worker sends frames for the commands that the bridge hands to it, for messages of the server and
after a login.  Whatever happens, the id of a frame is one of those that `wireCommandIDs` lists for
one of the commands.

* `Handed`: a command with what the user interface adds to it, and `Handed.input`, what the worker
  makes of it;
* `MlsWorker.Named`, `UploadsWorker.Named`: the ids that the maps of the worker hold belong to
  commands;
* `frames_listed`: the frames that keep groups, start uploads and answer welcomes;
* `frames_startAttachmentUpload`: the first fetch of an upload is sent indeed;
* `sent_listed`: the chunks and the commits of uploads.
-/

namespace LanChat.Gui

open GoStrings EventMachine
open BridgeCommands (commandID commandType wireCommandIDs uploadCommandIDs ownTypes)
open Discovery (stringOf hexEncode bytesOf)
open Client (plaintextChunkBytes)

theorem lookup_of_erase {β : Type} {m : AList fun _ : String => β} {id id' : String} {b : β}
    (h : (m.erase id).lookup id' = some b) : id' ≠ id ∧ m.lookup id' = some b := by
  by_cases hid : id' = id
  · rw [hid, AList.lookup_erase] at h
    cases h
  · exact ⟨hid, (AList.lookup_erase_ne hid).symm.trans h⟩

theorem lookup_of_insert {β : Type} {m : AList fun _ : String => β} {id id' : String} {b b' : β}
    (h : (m.insert id b).lookup id' = some b') : (id' = id ∧ b' = b) ∨ m.lookup id' = some b' := by
  by_cases hid : id' = id
  · rw [hid, AList.lookup_insert] at h
    exact .inl ⟨hid, (Option.some.inj h).symm⟩
  · exact .inr ((AList.lookup_insert_ne hid).symm.trans h)

namespace BridgeCommands

/-- A command that `ChatBridge::dispatch` hands on, with the members that are online and the size of
the file that is chosen. -/
structure Handed where
  command : Json
  targetUsers : List String := []
  fileSize : ℤ := 0

namespace Handed

/-- What `dispatch` makes the worker do, for the commands about groups and for
`chooseAndUploadAttachment`. -/
def input (c : Handed) : Option MlsInput :=
  let payload := (c.command.get? "payload").getD .null
  let room := stringOf (payload.get? "room")
  let groupID := stringOf (payload.get? "groupId")
  let target := stringOf (payload.get? "targetUserCode")
  match commandType c.command with
  | "mls.keyPackage.fetch" => some (.fetchMlsKeyPackage room target (commandID c.command))
  | "mls.group.add" => some (.addMlsMember room groupID target (commandID c.command))
  | "mls.group.remove" => some (.removeMlsMember room groupID target (commandID c.command))
  | "attachment.chooseUpload" =>
    some (.startAttachmentUpload room c.targetUsers (commandID c.command))
  | _ => none

/-- The chunks of the file. -/
def chunks (c : Handed) : ℕ :=
  ((c.fileSize + plaintextChunkBytes - 1) / plaintextChunkBytes).toNat

end Handed

/-- The id of an input about groups. -/
def groupCommand : MlsInput → Option String
  | .fetchMlsKeyPackage _ _ id => some id
  | .addMlsMember _ _ _ id => some id
  | .removeMlsMember _ _ _ id => some id
  | _ => none

/-- The input comes from one of the commands, from the server, or from the connection. -/
def From (commands : List Handed) : MlsInput → Prop
  | .connectToServer _ _ _ => True
  | .retrySavedConnection _ => True
  | .disconnect => True
  | .receive _ => True
  | input => ∃ c ∈ commands, c.input = some input

/-- An upload is one of the commands, for these members. -/
def Uploaded (commands : List Handed) (id : String) (targetUsers : List String) : Prop :=
  ∃ c ∈ commands, commandType c.command = "attachment.chooseUpload" ∧
    id = trimSpace (commandID c.command) ∧ targetUsers = c.targetUsers

variable (sha256 : List UInt8 → Vector UInt8 32) (commands : List Handed)

/-- The id is listed for one of the commands, however many chunks a file has. -/
def Wired (id : String) : Prop :=
  ∃ c ∈ commands, ∀ chunks, 0 < chunks →
    id ∈ wireCommandIDs sha256 c.command ⟨c.targetUsers.length, chunks⟩ []

/-- A frame without an id, one that accepts a welcome, or one for a command. -/
def Listed (m : Message) : Prop :=
  m.commandID = "" ∨ m.commandID = welcomeAcceptCommandID sha256 m.groupID m.epoch.toNat ∨
    Wired sha256 commands m.commandID

variable {sha256 commands}

/-- A command of the list keeps its own id. -/
theorem Wired.own {c : Handed} (hc : c ∈ commands) (htype : commandType c.command ∈ ownTypes) :
    Wired sha256 commands (trimSpace (commandID c.command)) := by
  refine ⟨c, hc, fun chunks _ => List.mem_append_left _ ?_⟩
  rw [if_pos htype]
  exact List.mem_singleton_self _

theorem uploadCommandIDs_subset {c : Handed} (htype : commandType c.command =
    "attachment.chooseUpload") (size : UploadSize) {id : String}
    (hid : id ∈ uploadCommandIDs (trimSpace (commandID c.command)) size) :
    id ∈ wireCommandIDs sha256 c.command size [] := by
  refine List.mem_append_left _ ?_
  rw [if_neg (by rw [htype]; decide), if_pos htype]
  exact hid

/-- The ids of the setup of an upload, and of its announcement. -/
theorem Uploaded.wired {id : String} {targetUsers : List String} {n : ℕ}
    (h : Uploaded commands id targetUsers) (hn : n < targetUsers.length) :
    Wired sha256 commands (trimSpace (MlsWorker.fetchCommand id n)) ∧
      Wired sha256 commands (trimSpace (MlsWorker.addCommand id n)) ∧
      Wired sha256 commands id := by
  obtain ⟨c, hc, htype, rfl, rfl⟩ := h
  have hsome : c.targetUsers.length ≠ 0 := by omega
  have hids : ∀ {id : String}, (∀ chunks, 0 < chunks → id ∈ uploadCommandIDs
      (trimSpace (commandID c.command)) ⟨c.targetUsers.length, chunks⟩) →
        Wired sha256 commands id := fun h =>
    ⟨c, hc, fun chunks hpos => uploadCommandIDs_subset htype _ (h chunks hpos)⟩
  unfold uploadCommandIDs at hids
  simp only [if_neg hsome] at hids
  refine ⟨hids fun chunks _ => ?_, hids fun chunks _ => ?_, hids fun chunks hpos => ?_⟩
  · exact List.mem_append_left _ (List.mem_append_left _
      (List.mem_map.2 ⟨n, List.mem_range.2 hn, rfl⟩))
  · exact List.mem_append_left _ (List.mem_append_right _
      (List.mem_map.2 ⟨n, List.mem_range.2 hn, rfl⟩))
  · rw [if_neg (Nat.pos_iff_ne_zero.1 hpos), trimSpace_trimSpace]
    exact List.mem_append_right _ (List.mem_append_left _ List.mem_cons_self)

/-- The inputs about groups have the id of their command. -/
theorem wired_group {c : Handed} {input : MlsInput} (hc : c ∈ commands)
    (hinput : c.input = some input) {id : String} (hid : groupCommand input = some id) :
    Wired sha256 commands (trimSpace id) := by
  unfold Handed.input at hinput
  dsimp only at hinput
  split at hinput
  -- an upload has no id of its own here, its setup makes them
  case h_4 =>
    cases hinput
    cases hid
  case h_5 => cases hinput
  all_goals
    rename_i htype
    cases hinput
    cases hid
    exact Wired.own hc (by rw [htype]; decide)

/-- An upload comes from its command. -/
theorem uploaded_of_input {c : Handed} {room id : String} {targetUsers : List String}
    (hc : c ∈ commands) (hinput : c.input = some (.startAttachmentUpload room targetUsers id)) :
    Uploaded commands (trimSpace id) targetUsers := by
  unfold Handed.input at hinput
  dsimp only at hinput
  split at hinput
  case h_4 htype =>
    cases hinput
    exact ⟨c, hc, htype, rfl, rfl⟩
  all_goals cases hinput

end BridgeCommands

/-! ### Groups and the setups of uploads -/

namespace MlsWorker

open BridgeCommands (Uploaded Wired Listed From Handed groupCommand wired_group uploaded_of_input)

variable {sha256 : List UInt8 → Vector UInt8 32} {commands : List Handed} {platform : Platform}
  {w w' : MlsWorker} {d : MlsDraw} {loose loose' : String → Prop}

/-- Every setup belongs to an upload and has a member to go on with, those in `loose` aside, and
every pending operation has an id of the list. -/
structure Named (sha256 : List UInt8 → Vector UInt8 32) (commands : List Handed) (w : MlsWorker)
    (loose : String → Prop) : Prop where
  uploads : ∀ id setup, w.pendingAttachmentMlsSetups.lookup id = some setup →
    Uploaded commands id setup.targetUsers ∧ setup.targetUsers ≠ []
  next : ∀ id setup, w.pendingAttachmentMlsSetups.lookup id = some setup → ¬ loose id →
    setup.nextTarget < setup.targetUsers.length
  operations : ∀ id op, w.pendingMlsOperations.lookup id = some op → Wired sha256 commands id

/-- What a function of the worker has to return. -/
def Keeps (sha256 : List UInt8 → Vector UInt8 32) (commands : List Handed)
    (r : MlsWorker × List Message) : Prop :=
  Named sha256 commands r.1 (fun _ => False) ∧ ∀ m ∈ r.2, Listed sha256 commands m

theorem Named.shrink (h : Named sha256 commands w loose)
    (hsetups : ∀ id setup, w'.pendingAttachmentMlsSetups.lookup id = some setup →
      w.pendingAttachmentMlsSetups.lookup id = some setup ∧ (loose id → loose' id))
    (hops : ∀ id op, w'.pendingMlsOperations.lookup id = some op →
      w.pendingMlsOperations.lookup id = some op) : Named sha256 commands w' loose' where
  uploads := fun id setup hid => h.uploads id setup (hsetups id setup hid).1
  next := fun id setup hid hloose =>
    h.next id setup (hsetups id setup hid).1 fun hl => hloose ((hsetups id setup hid).2 hl)
  operations := fun id op hid => h.operations id op (hops id op hid)

theorem Named.of_eq (h : Named sha256 commands w loose)
    (hsetups : w'.pendingAttachmentMlsSetups = w.pendingAttachmentMlsSetups)
    (hops : w'.pendingMlsOperations = w.pendingMlsOperations) : Named sha256 commands w' loose :=
  h.shrink (fun _ _ hid => ⟨hsetups ▸ hid, fun hl => hl⟩) fun _ _ hid => hops ▸ hid

theorem Named.keeps (h : Named sha256 commands w fun _ => False) : Keeps sha256 commands (w, []) :=
  ⟨h, fun _ hm => absurd hm List.not_mem_nil⟩

/-- An operation is pending under its id. -/
theorem Named.insertOperation (h : Named sha256 commands w loose) {id : String}
    (hid : Wired sha256 commands id) (op : PendingMlsOperation) :
    Named sha256 commands
      { w with pendingMlsOperations := w.pendingMlsOperations.insert id op } loose where
  uploads := h.uploads
  next := h.next
  operations := by
    intro id' op' hlookup
    rcases lookup_of_insert hlookup with ⟨rfl, -⟩ | hlookup
    · exact hid
    · exact h.operations id' op' hlookup

theorem Named.eraseOperation (h : Named sha256 commands w loose) (id : String) :
    Named sha256 commands
      { w with pendingMlsOperations := w.pendingMlsOperations.erase id } loose :=
  h.shrink (fun _ _ hid => ⟨hid, fun hl => hl⟩) fun _ _ hop => (lookup_of_erase hop).2

/-- The setup of an upload is over. -/
theorem Named.eraseSetup {a : String} (h : Named sha256 commands w (· = a)) :
    Named sha256 commands
      { w with pendingAttachmentMlsSetups := w.pendingAttachmentMlsSetups.erase a }
      fun _ => False :=
  h.shrink (fun _ _ hid => ⟨(lookup_of_erase hid).2, fun hl => (lookup_of_erase hid).1 hl⟩)
    fun _ _ hop => hop

/-! ### The frames -/

theorem listed_send {m m' : Message} (hm' : Listed sha256 commands m') (hm : m ∈ d.send m') :
    Listed sha256 commands m := by
  rwa [mem_send hm]

/-- A function that sends one frame for a command. -/
theorem listed_singleton {m : Message} (hid : Wired sha256 commands m.commandID) :
    ∀ m' ∈ [m], Listed sha256 commands m' := by
  intro m' hm'
  rw [List.mem_singleton.1 hm']
  exact .inr (.inr hid)

theorem listed_publish : ∀ m ∈ w.publishMlsKeyPackage d, Listed sha256 commands m := by
  intro m hm
  unfold publishMlsKeyPackage at hm
  split at hm
  · split_ifs at hm
    · cases hm
    · exact listed_send (.inl rfl) hm
  · cases hm

theorem listed_fetch {room target id : String} (hid : Wired sha256 commands (trimSpace id)) :
    ∀ m ∈ w.fetchMlsKeyPackage d room target id, Listed sha256 commands m := by
  intro m hm
  have hfetch : Listed sha256 commands (fetchMessage room target id) := .inr (.inr hid)
  unfold fetchMlsKeyPackage at hm
  split_ifs at hm
  · cases hm
  · exact listed_send hfetch hm

/-- The proposal of a member change. -/
theorem Named.startOperation (h : Named sha256 commands w fun _ => False)
    {room groupID target id : String} (hid : Wired sha256 commands (trimSpace id)) (add : Bool) :
    Keeps sha256 commands (w.startOperation d room groupID target id add) := by
  unfold MlsWorker.startOperation
  split
  · rename_i state _ _ _ _ _
    have hadvanced : Named sha256 commands (w.advanceSession groupID state) fun _ => False :=
      h.of_eq rfl rfl
    dsimp only
    split_ifs
    · exact hadvanced.keeps
    · exact hadvanced.keeps
    · exact hadvanced.keeps
    · exact hadvanced.keeps
    · exact ⟨hadvanced.insertOperation hid _, listed_singleton hid⟩
  · exact h.keeps

theorem Named.addMlsMember (h : Named sha256 commands w fun _ => False)
    {room groupID target id : String} (hid : Wired sha256 commands (trimSpace id)) :
    Keeps sha256 commands (w.addMlsMember d room groupID target id) := by
  unfold MlsWorker.addMlsMember
  dsimp only
  split
  · exact h.keeps
  · rename_i w' hprepare
    -- a group that has to be created first touches neither map
    rcases prepareAdd_eq_some hprepare with rfl | rfl
    · exact h.startOperation hid true
    · have hcreated : Named sha256 commands (w.createGroup (trimSpace room) (trimSpace groupID))
          fun _ => False := h.of_eq rfl rfl
      exact hcreated.startOperation hid true

theorem Named.removeMlsMember (h : Named sha256 commands w fun _ => False)
    {room groupID target id : String} (hid : Wired sha256 commands (trimSpace id)) :
    Keeps sha256 commands (w.removeMlsMember d room groupID target id) := by
  unfold MlsWorker.removeMlsMember
  dsimp only
  split_ifs
  · exact h.startOperation hid false
  · exact h.keeps

/-- The setup of an upload goes on, or the upload is announced. -/
theorem Named.startNext {a : String} (h : Named sha256 commands w (· = a)) :
    Keeps sha256 commands (w.startNextAttachmentMlsSetup d a) := by
  unfold startNextAttachmentMlsSetup
  cases hsetup : w.pendingAttachmentMlsSetups.lookup a with
  | none =>
    -- there is no setup under this id, so that none is left loose
    refine (h.shrink (fun id setup hid => ⟨hid, fun hl => ?_⟩) fun _ _ hop => hop).keeps
    rw [hl, hsetup] at hid
    cases hid
  | some setup =>
    obtain ⟨hupload, hmembers⟩ := h.uploads a setup hsetup
    dsimp only
    cases htarget : setup.targetUsers[setup.nextTarget]? with
    | none =>
      -- every member has been added: the setup ends, and the upload is announced if it has a file
      have hfailed : Named sha256 commands (w.failAttachmentMlsSetup a) fun _ => False :=
        h.eraseSetup.of_eq rfl rfl
      cases d.fileSize with
      | none => exact hfailed.keeps
      | some logicalSize =>
        refine ⟨h.eraseSetup, fun m hm => ?_⟩
        dsimp only at hm
        split_ifs at hm
        · cases hm
        · exact listed_send
            (.inr (.inr (hupload.wired (List.length_pos_of_ne_nil hmembers)).2.2)) hm
    | some target =>
      have hn := (List.getElem?_eq_some_iff.1 htarget).1
      refine ⟨⟨h.uploads, fun id s hid _ => ?_, h.operations⟩, listed_fetch (hupload.wired hn).1⟩
      by_cases hne : id = a
      · rw [hne] at hid
        obtain rfl := Option.some.inj (hsetup.symm.trans hid)
        exact hn
      · exact h.next id s hid hne

/-- A setup is new, or goes on with the next member. -/
theorem Named.insertSetup (h : Named sha256 commands w fun _ => False) {a : String}
    {setup : PendingAttachmentMlsSetup} (hupload : Uploaded commands a setup.targetUsers)
    (hmembers : setup.targetUsers ≠ []) :
    Named sha256 commands
      { w with pendingAttachmentMlsSetups := w.pendingAttachmentMlsSetups.insert a setup }
      (· = a) where
  uploads := by
    intro id s hid
    rcases lookup_of_insert hid with ⟨rfl, rfl⟩ | hid
    · exact ⟨hupload, hmembers⟩
    · exact h.uploads id s hid
  next := fun id s hid hne => h.next id s ((AList.lookup_insert_ne hne).symm.trans hid) not_false
  operations := h.operations

theorem Named.startUpload (h : Named sha256 commands w fun _ => False) {room id : String}
    {targetUsers : List String} (hupload : Uploaded commands (trimSpace id) targetUsers) :
    Keeps sha256 commands (w.startAttachmentUpload platform d room targetUsers id) := by
  unfold startAttachmentUpload
  dsimp only
  split_ifs with hrefused
  · exact h.keeps
  · have hmembers : targetUsers ≠ [] := fun hnone => hrefused (.inr (.inr (.inl hnone)))
    have hcreated : Named sha256 commands (w.createGroup (trimSpace room)
        (attachmentMlsGroupID platform room id)) fun _ => False := h.of_eq rfl rfl
    exact (hcreated.insertSetup hupload hmembers).startNext

theorem Named.continueSetup (h : Named sha256 commands w fun _ => False) (id : String) :
    Keeps sha256 commands (w.continueAttachmentMlsSetup d id) := by
  have hdone : Named sha256 commands
      { w with pendingAttachmentMlsAdds := w.pendingAttachmentMlsAdds.erase id } fun _ => False :=
    h.of_eq rfl rfl
  unfold continueAttachmentMlsSetup
  split
  · exact h.keeps
  · dsimp only
    split
    · exact hdone.keeps
    · rename_i a _ _ setup hsetup
      obtain ⟨hupload, hmembers⟩ := h.uploads a setup hsetup
      have hnext : Named sha256 commands (w.nextSetup id a setup) (· = a) :=
        hdone.insertSetup hupload hmembers
      exact hnext.startNext

/-! ### Messages and runs -/

theorem Named.receiveKeyPackage (h : Named sha256 commands w fun _ => False) (m : Message) :
    Keeps sha256 commands (w.receiveKeyPackage d m) := by
  have hstored : Named sha256 commands (w.storeKeyPackage m) fun _ => False := h.of_eq rfl rfl
  unfold MlsWorker.receiveKeyPackage
  dsimp only
  split
  · exact hstored.keeps
  · rename_i a _
    split
    · exact Named.keeps (hstored.of_eq rfl rfl)
    · rename_i setup hsetup
      have hawaits : Named sha256 commands ((w.storeKeyPackage m).awaitAdd m.commandID
          (addCommand a setup.nextTarget) a) fun _ => False := hstored.of_eq rfl rfl
      exact hawaits.addMlsMember
        ((h.uploads a setup hsetup).1.wired (h.next a setup hsetup not_false)).2.1

theorem Named.receiveProposalAck (h : Named sha256 commands w fun _ => False) (id : String) :
    Keeps sha256 commands (w.receiveProposalAck d id) := by
  unfold MlsWorker.receiveProposalAck
  split
  · exact h.keeps
  · rename_i op hop
    have hid := h.operations id op hop
    split_ifs
    · exact h.keeps
    · exact (h.eraseOperation id).keeps
    · exact ⟨h.insertOperation hid _, listed_singleton hid⟩

theorem Named.receiveCommitAck (h : Named sha256 commands w fun _ => False) (id : String) :
    Keeps sha256 commands (w.receiveCommitAck platform d id) := by
  unfold MlsWorker.receiveCommitAck
  split
  · exact h.keeps
  · rename_i op hop
    have hid := h.operations id op hop
    split
    · exact h.keeps
    split
    · exact (h.eraseOperation id).keeps
    · rename_i state _
      have hcommitted : Named sha256 commands { w with
          mlsGroups := w.mlsGroups.insert op.group
            { state with
              epoch := op.epoch
              commits := emplace state.commits op.epoch op.commit } } fun _ => False :=
        h.of_eq rfl rfl
      dsimp only
      split
      · split
        · exact (hcommitted.eraseOperation id).keeps
        · exact ⟨hcommitted.insertOperation hid _, listed_singleton hid⟩
      · exact (hcommitted.eraseOperation id).continueSetup id

theorem setups_recordWelcome (op : PendingMlsOperation) :
    (w.recordWelcome op).pendingAttachmentMlsSetups = w.pendingAttachmentMlsSetups := by
  unfold recordWelcome
  split <;> rfl

theorem Named.receiveWelcomeAck (h : Named sha256 commands w fun _ => False) (id : String) :
    Keeps sha256 commands (w.receiveWelcomeAck d id) := by
  unfold MlsWorker.receiveWelcomeAck
  split
  · exact h.keeps
  · rename_i op _
    have hdone : Named sha256 commands { w.recordWelcome op with
        pendingMlsOperations := w.pendingMlsOperations.erase id } fun _ => False :=
      (h.eraseOperation id).of_eq (setups_recordWelcome op) rfl
    split_ifs
    · exact h.keeps
    · exact hdone.continueSetup id

/-- The id of an acceptance is the digest of the group and the epoch. -/
theorem listed_accept (hdigest : ∀ s, platform.sha256Hex s = hexEncode (sha256 (bytesOf s)).toList)
    (m : Message) : ∀ m' ∈ w.sendWelcomeAccept platform d m, Listed sha256 commands m' := by
  intro m' hm'
  unfold sendWelcomeAccept at hm'
  split_ifs at hm'
  · cases hm'
  · refine listed_send (.inr (.inl ?_)) hm'
    dsimp only [welcomeAcceptCommandID, BridgeCommands.welcomeAcceptCommandID]
    rw [hdigest]
    rfl

theorem Named.receiveWelcome (h : Named sha256 commands w fun _ => False)
    (hdigest : ∀ s, platform.sha256Hex s = hexEncode (sha256 (bytesOf s)).toList) (m : Message) :
    Keeps sha256 commands (w.receiveWelcome platform d m) := by
  unfold MlsWorker.receiveWelcome
  split
  · exact h.keeps
  split
  · split
    · exact h.keeps
    split
    · exact ⟨h, listed_accept hdigest m⟩
    · exact h.keeps
  · split
    · split
      · exact h.keeps
      dsimp only
      have hjoined : ∀ mlsClient mlsGroups, Named sha256 commands
          { w with mlsClient, mlsGroups } fun _ => False := fun _ _ => h.of_eq rfl rfl
      split
      · exact (hjoined _ _).keeps
      · split
        · exact ⟨hjoined _ _, listed_accept hdigest m⟩
        · refine ⟨hjoined _ _, fun m' hm' => ?_⟩
          rcases List.mem_append.1 hm' with hm' | hm'
          · exact listed_accept hdigest m m' hm'
          · exact listed_publish m' hm'
    · exact h.keeps

theorem Named.failSetup (h : Named sha256 commands w fun _ => False) (a : String) :
    Named sha256 commands (w.failAttachmentMlsSetup a) fun _ => False :=
  h.shrink (fun _ _ hid => ⟨(lookup_of_erase hid).2, False.elim⟩) fun _ _ hop => hop

theorem Named.receiveError (h : Named sha256 commands w fun _ => False) (id : String) :
    Named sha256 commands (w.receiveError id) fun _ => False := by
  have hfetch : Named sha256 commands (w.failFetch id) fun _ => False := by
    unfold failFetch
    split
    · exact h
    · have hdone : Named sha256 commands { w with
          pendingAttachmentMlsFetches := w.pendingAttachmentMlsFetches.erase id } fun _ => False :=
        h.of_eq rfl rfl
      exact hdone.failSetup _
  have hadd : Named sha256 commands ((w.failFetch id).failAdd id) fun _ => False := by
    unfold failAdd
    split
    · exact hfetch
    · have hdone : Named sha256 commands { w.failFetch id with
          pendingAttachmentMlsAdds := (w.failFetch id).pendingAttachmentMlsAdds.erase id }
          fun _ => False := hfetch.of_eq rfl rfl
      exact hdone.failSetup _
  exact hadd.eraseOperation id

theorem Named.receiveCommit (h : Named sha256 commands w fun _ => False) (m : Message) :
    Named sha256 commands (w.receiveCommit d m) fun _ => False := by
  unfold MlsWorker.receiveCommit
  split
  · exact h
  · split
    · exact h
    · exact h.of_eq rfl rfl

theorem Named.message (h : Named sha256 commands w fun _ => False)
    (hdigest : ∀ s, platform.sha256Hex s = hexEncode (sha256 (bytesOf s)).toList) (m : Message) :
    Keeps sha256 commands (w.processMlsMessage platform d m) := by
  unfold processMlsMessage
  split
  · split_ifs
    · exact h.keeps
    · exact h.receiveKeyPackage m
  · split_ifs
    · exact h.keeps
    · exact h.receiveProposalAck m.commandID
  · split_ifs
    · exact h.receiveWelcome hdigest m
    · exact h.keeps
    · exact h.receiveWelcomeAck m.commandID
  · split_ifs
    · exact (h.receiveCommit m).keeps
    · exact h.keeps
    · exact h.receiveCommitAck m.commandID
  · split_ifs
    · exact h.keeps
    · exact (h.receiveError m.commandID).keeps
  · exact h.keeps

/-- What is resumed keeps its id. -/
theorem Named.resume (h : Named sha256 commands w fun _ => False) :
    Keeps sha256 commands (w.resumePendingMlsOperations d) := by
  refine ⟨h.shrink (fun _ _ hid => ⟨hid, False.elim⟩) fun id op hop => ?_, fun m hm => ?_⟩
  · unfold resumePendingMlsOperations at hop
    dsimp only at hop
    rw [lookup_dropWelcomes] at hop
    split_ifs at hop
    exact hop
  · obtain ⟨id, -, hm⟩ := List.mem_flatMap.1 hm
    obtain ⟨op, hop, ⟨-, rfl⟩ | ⟨-, rfl⟩⟩ := mem_resumed hm
    · exact .inr (.inr (h.operations id op hop))
    · exact .inr (.inr (h.operations id op hop))

theorem Named.connected (h : Named sha256 commands w fun _ => False) (c : ClientID)
    (preserveMlsState : Bool) :
    Keeps sha256 commands (w.connected d c preserveMlsState) := by
  have hresumed : ∀ v : MlsWorker,
      v.pendingAttachmentMlsSetups = w.pendingAttachmentMlsSetups →
        v.pendingMlsOperations = w.pendingMlsOperations → Keeps sha256 commands
          ((v.resumePendingMlsOperations d).1,
            v.publishMlsKeyPackage d ++ (v.resumePendingMlsOperations d).2) := by
    intro v hsetups hops
    obtain ⟨hnamed, hframes⟩ := (h.of_eq hsetups hops).resume (d := d)
    refine ⟨hnamed, fun m hm => ?_⟩
    rcases List.mem_append.1 hm with hm | hm
    · exact listed_publish m hm
    · exact hframes m hm
  unfold MlsWorker.connected
  dsimp only
  split
  · split
    · exact hresumed _ rfl rfl
    · exact hresumed _ rfl rfl
  -- another user: the operations are gone
  · refine ⟨h.shrink (fun _ _ hid => ⟨hid, False.elim⟩) fun id op hop => ?_, listed_publish⟩
    cases hop

/-- Every step keeps the ids of its commands. -/
theorem Named.step (h : Named sha256 commands w fun _ => False)
    (hdigest : ∀ s, platform.sha256Hex s = hexEncode (sha256 (bytesOf s)).toList)
    {x : MlsInput × MlsDraw} (hx : From commands x.1) :
    Keeps sha256 commands (w.step platform x) := by
  obtain ⟨input, d⟩ := x
  unfold MlsWorker.step
  cases input with
  | connectToServer username userCode login =>
    have hsaved : Named sha256 commands { w with saved := true, username, userCode }
        fun _ => False := h.of_eq rfl rfl
    cases login with
    | none => exact Named.keeps (h.of_eq rfl rfl)
    | some c => exact hsaved.connected c _
  | retrySavedConnection login =>
    cases login with
    | none => exact Named.keeps (h.of_eq rfl rfl)
    | some c => exact h.connected c true
  | disconnect => exact Named.keeps (h.of_eq rfl rfl)
  | fetchMlsKeyPackage room target id =>
    obtain ⟨c, hc, hinput⟩ := hx
    exact ⟨h, listed_fetch (wired_group hc hinput rfl)⟩
  | addMlsMember room groupID target id =>
    obtain ⟨c, hc, hinput⟩ := hx
    exact h.addMlsMember (wired_group hc hinput rfl)
  | removeMlsMember room groupID target id =>
    obtain ⟨c, hc, hinput⟩ := hx
    exact h.removeMlsMember (wired_group hc hinput rfl)
  | startAttachmentUpload room targets id =>
    obtain ⟨c, hc, hinput⟩ := hx
    exact h.startUpload (uploaded_of_input hc hinput)
  | receive m =>
    dsimp only
    split
    · exact h.message hdigest m
    · exact h.keeps

theorem Named.start : Named sha256 commands {} fun _ => False where
  uploads := fun _ _ hid => by cases hid
  next := fun _ _ hid => by cases hid
  operations := fun _ _ hop => by cases hop

/-- Whatever the server answers and however often the connection is lost: every frame has no id, or
the id of an acceptance, or one that is listed for a command.  `platform` and `sha256` are one
digest. -/
theorem frames_listed (hdigest : ∀ s, platform.sha256Hex s = hexEncode (sha256 (bytesOf s)).toList)
    {xs : List (MlsInput × MlsDraw)} (hxs : ∀ x ∈ xs, From commands x.1) :
    Along (fun (w : MlsWorker) x => (w.step platform x).1)
      (fun w x => ∀ m ∈ (w.step platform x).2, Listed sha256 commands m) {} xs :=
  along_of_invariant _ (I := fun w => Named sha256 commands w fun _ => False)
    (fun _ _ hx hw => (hw.step hdigest hx).1) (fun _ _ hw hx => (hw.step hdigest hx).2) Named.start
    (along_of_forall hxs)

/-- An upload that is not refused begins with the fetch for its first member. -/
theorem frames_startAttachmentUpload {room target id : String} {targets : List String}
    (hsession : w.session.isSome) (hrefused : refusesUpload d (target :: targets) id = false)
    (hroom : trimSpace room ≠ "") (htarget : trimSpace target ≠ "")
    (hsends : ∀ m, d.sendFails m = false) :
    (w.startAttachmentUpload platform d room (target :: targets) id).2 =
      [fetchMessage (trimSpace room) target (fetchCommand (trimSpace id) 0)] := by
  rw [startAttachmentUpload_eq, hrefused]
  unfold startNextAttachmentMlsSetup
  rw [if_neg (by decide), setups_withSetup, AList.lookup_insert]
  dsimp only [List.getElem?_cons_zero]
  unfold fetchMlsKeyPackage MlsDraw.send
  rw [if_neg, if_neg (by rw [hsends]; decide)]
  · rfl
  · rintro (h | h | h)
    · have hnone : w.session = none := Option.isNone_iff_eq_none.1 h
      rw [hnone] at hsession
      cases hsession
    · exact hroom (by rwa [trimSpace_trimSpace] at h)
    · exact htarget h

end MlsWorker

/-! ### The chunks of uploads -/

namespace Attachments

namespace UploadsWorker

open BridgeCommands (Handed uploadCommandIDs_subset)

variable {sha256 : List UInt8 → Vector UInt8 32} {commands : List Handed} {crypto : Crypto}
  {w w' : UploadsWorker} {u : String} {job : AttachmentUploadJob}

/-- A command of `attachment.chooseUpload` whose members have been added, with its file. -/
def Uploads (commands : List Handed) (id : String) (logicalSize : ℤ) : Prop :=
  ∃ c ∈ commands, commandType c.command = "attachment.chooseUpload" ∧ c.targetUsers ≠ [] ∧
    id = trimSpace (commandID c.command) ∧ logicalSize = c.fileSize

/-- The input comes from one of the commands, or from the server. -/
def From (commands : List Handed) : Input → Prop
  | .startUpload file id _ _ => Uploads commands id file.logicalSize
  | .sendInit _ _ id _ _ => ∃ c ∈ commands,
      commandType c.command = "attachment.init" ∧ id = commandID c.command
  | .sendChunk _ _ id _ => ∃ c ∈ commands,
      commandType c.command = "attachment.chunk" ∧ id = commandID c.command
  | .message _ _ => True

variable (sha256 commands) in
/-- The id is listed for one of the commands and its file. -/
def Wired (id : String) : Prop :=
  ∃ c ∈ commands, id ∈ wireCommandIDs sha256 c.command ⟨c.targetUsers.length, c.chunks⟩ []

/-- The ids of an upload whose file is not empty. -/
theorem Uploads.wired {id id' : String} {logicalSize : ℤ} (h : Uploads commands id logicalSize)
    (hsize : 0 < logicalSize) (hid : (∃ i : ℕ, (i : ℤ) < (logicalSize + plaintextChunkBytes - 1) /
      plaintextChunkBytes ∧ id' = chunkCommand id i) ∨ id' = id ++ "-commit") :
    Wired sha256 commands (trimSpace id') := by
  obtain ⟨c, hc, htype, hmembers, rfl, rfl⟩ := h
  have hchunks : (c.chunks : ℤ) =
      (c.fileSize + plaintextChunkBytes - 1) / plaintextChunkBytes := by
    refine Int.toNat_of_nonneg (Int.ediv_nonneg ?_ (by decide))
    have hpos : 0 < plaintextChunkBytes := by decide
    omega
  have hone : 1 ≤ (c.fileSize + plaintextChunkBytes - 1) / plaintextChunkBytes := by
    refine Int.le_ediv_of_mul_le (by decide) ?_
    omega
  refine ⟨c, hc, uploadCommandIDs_subset htype _ ?_⟩
  unfold uploadCommandIDs
  rw [if_neg fun hnone => hmembers (List.eq_nil_of_length_eq_zero hnone), if_neg (by
    show c.chunks ≠ 0
    omega), trimSpace_trimSpace]
  refine List.mem_append_right _ ?_
  rcases hid with ⟨i, hi, rfl⟩ | rfl
  · refine List.mem_append_left _ (List.mem_cons_of_mem _ (List.mem_map.2 ⟨i, ?_, rfl⟩))
    rw [List.mem_range]
    show i < c.chunks
    omega
  · exact List.mem_append_right _ (List.mem_singleton_self _)

/-- A job of the list: it goes on with the file of its command. -/
structure NamedJob (commands : List Handed) (job : AttachmentUploadJob) : Prop where
  uploads : Uploads commands job.baseCommand job.context.logicalSize
  chunkSize : job.context.chunkSize = plaintextChunkBytes
  begun : job.lastChunkSent = true → 0 < job.context.logicalSize

/-- What the maps hold belongs to commands, and what has been sent has their ids. -/
structure Named (sha256 : List UInt8 → Vector UInt8 32) (commands : List Handed)
    (w : UploadsWorker) : Prop where
  inits : ∀ id t, w.pendingInits.lookup id = some t → t.chunkSize = plaintextChunkBytes
  files : ∀ id file, w.pendingFiles.lookup id = some file → Uploads commands id file.logicalSize
  jobs : ∀ u job, w.jobs.lookup u = some job → NamedJob commands job
  sent : ∀ m ∈ w.sent, Wired sha256 commands m.commandID

theorem Named.setTransfers (h : Named sha256 commands w)
    (transfers : AList fun _ : String => AttachmentTransferState)
    (pendingChunks : List PendingChunk) :
    Named sha256 commands { w with transfers, pendingChunks } :=
  ⟨h.inits, h.files, h.jobs, h.sent⟩

/-- A job is new, or goes on. -/
theorem Named.insertJob (h : Named sha256 commands w) (hjob : NamedJob commands job) (u : String) :
    Named sha256 commands { w with jobs := w.jobs.insert u job } where
  inits := h.inits
  files := h.files
  jobs := by
    intro u' job' hlookup
    rcases lookup_of_insert hlookup with ⟨-, rfl⟩ | hlookup
    · exact hjob
    · exact h.jobs u' job' hlookup
  sent := h.sent

theorem Named.eraseJob (h : Named sha256 commands w) (u : String) :
    Named sha256 commands { w with jobs := w.jobs.erase u } :=
  ⟨h.inits, h.files, fun u' job hlookup => h.jobs u' job (lookup_of_erase hlookup).2, h.sent⟩

theorem Named.failTransfer (h : Named sha256 commands w) (u : String) :
    Named sha256 commands (w.failTransfer u) := by
  unfold UploadsWorker.failTransfer
  split
  · exact ⟨h.inits, h.files, h.jobs, h.sent⟩
  · exact h

/-- An upload fails, and its job ends. -/
theorem Named.endJob (h : Named sha256 commands w) (u : String)
    (pendingChunks : List PendingChunk) :
    Named sha256 commands
      { w.failTransfer u with jobs := w.jobs.erase u, pendingChunks } := by
  obtain ⟨hinits, hfiles, -, hsent⟩ := h.failTransfer u
  exact ⟨hinits, hfiles, (h.eraseJob u).jobs, hsent⟩

theorem Named.abandon (h : Named sha256 commands w) (u : String) :
    Named sha256 commands (w.abandon u) :=
  h.endJob (trimSpace u) _

theorem Named.send (h : Named sha256 commands w) {m : Message}
    (hm : Wired sha256 commands m.commandID) :
    Named sha256 commands { w with sent := w.sent ++ [m] } := by
  refine ⟨h.inits, h.files, h.jobs, fun m' hm' => ?_⟩
  rcases List.mem_append.1 hm' with hm' | hm'
  · exact h.sent m' hm'
  · rwa [List.mem_singleton.1 hm']

theorem Named.sendAttachmentChunk (h : Named sha256 commands w) (d : UploadDraw)
    (chunk : TransferChunk) {id : String} (hid : Wired sha256 commands (trimSpace id)) :
    Named sha256 commands (w.sendAttachmentChunk d u chunk id) := by
  unfold UploadsWorker.sendAttachmentChunk
  split
  · exact h
  split
  · exact h
  split
  · exact h
  · dsimp only
    split
    · exact (h.send (m := UploadWorker.chunkMessage (trimSpace u) chunk (trimSpace id))
        hid).setTransfers _ _
    · exact h.setTransfers _ _

theorem encryptNextChunk_bounds {input input' : Device} {key : Key} {context : ChunkContext}
    {chunk : TransferChunk} {endOfFile : Bool}
    (h : encryptNextChunk crypto input key context = .ok (chunk, endOfFile, input'))
    (hmore : ¬ (endOfFile = true ∧ chunk.ciphertext = [])) :
    0 < context.logicalSize ∧ 0 ≤ chunk.index ∧ chunk.index < chunkCount context := by
  obtain ⟨hindex, -⟩ := encryptNextChunk_spec h hmore
  rw [hindex]
  unfold encryptNextChunk at h
  split_ifs at h with hcontext
  simp only [Bool.or_eq_true, decide_eq_true_eq, not_or] at hcontext
  obtain ⟨⟨⟨-, hsize⟩, hchunk⟩, hpos⟩ := hcontext
  dsimp only at h
  split_ifs at h with hrest
  -- behind the end of the file there is no chunk
  · cases h
    exact absurd ⟨rfl, rfl⟩ hmore
  · refine ⟨not_le.1 hsize, not_lt.1 hpos, ?_⟩
    unfold chunkCount
    refine Int.lt_of_add_one_le (Int.le_ediv_of_mul_le (not_le.1 hchunk) ?_)
    rw [add_mul, one_mul]
    omega

theorem Named.sendChunks (h : Named sha256 commands w) (d : UploadDraw) (fuel : ℕ) :
    Named sha256 commands (UploadsWorker.sendChunks crypto d u fuel w) := by
  induction fuel generalizing w with
  | zero => exact h
  | succ fuel ih =>
    unfold UploadsWorker.sendChunks
    split
    · exact h
    rename_i job hjob
    obtain ⟨huploads, hchunk, hbegun⟩ := h.jobs _ job hjob
    split
    · exact h
    split
    · exact h.abandon u
    rename_i chunk endOfFile input hencrypt
    split
    · exact h.abandon u
    rename_i hmore
    obtain ⟨hsize, hpos, hlt⟩ := encryptNextChunk_bounds hencrypt hmore
    obtain ⟨i, hi⟩ := Int.eq_ofNat_of_zero_le hpos
    -- the index is in the file, so its command is one of the upload's
    have hid : Wired sha256 commands (trimSpace (chunkCommand job.baseCommand chunk.index)) := by
      refine huploads.wired hsize (.inl ⟨i, ?_, by rw [hi]⟩)
      unfold chunkCount at hlt
      rwa [← hi, ← hchunk]
    obtain ⟨-, rfl, -⟩ := encryptNextChunk_spec hencrypt hmore
    have hgoes : NamedJob commands (Agrees.nextJob job input) :=
      ⟨huploads, hchunk, fun _ => hsize⟩
    have hnext := (h.insertJob hgoes (trimSpace u)).sendAttachmentChunk (u := u) d chunk hid
    dsimp only
    split
    · exact hnext
    · split
      · exact hnext
      · exact ih hnext

theorem Named.sendNextAttachmentChunk (h : Named sha256 commands w) (d : UploadDraw) (u : String) :
    Named sha256 commands (w.sendNextAttachmentChunk crypto d u) := by
  unfold UploadsWorker.sendNextAttachmentChunk
  split
  · exact h
  · exact h.sendChunks d _

theorem Named.sendAttachmentInit (h : Named sha256 commands w) (room : String) (logicalSize : ℤ)
    (id : String) (ready taken : Bool) :
    Named sha256 commands (w.sendAttachmentInit room logicalSize id ready taken) := by
  unfold UploadsWorker.sendAttachmentInit
  split
  · exact h
  split
  · exact h
  rename_i t hbegin
  split
  · refine ⟨fun id' t' hlookup => ?_, h.files, h.jobs, h.sent⟩
    rcases lookup_of_insert hlookup with ⟨-, rfl⟩ | hlookup
    · unfold AttachmentTransferState.begin at hbegin
      split_ifs at hbegin
      cases hbegin
      rfl
    · exact h.inits id' t' hlookup
  · exact ⟨fun id' t' hlookup => h.inits id' t' (lookup_of_erase hlookup).2, h.files, h.jobs,
      h.sent⟩

theorem Named.startUpload (h : Named sha256 commands w) {file : PendingAttachmentFile} {id : String}
    (hid : Uploads commands id file.logicalSize) (ready taken : Bool) :
    Named sha256 commands (w.startUpload file id ready taken) := by
  obtain ⟨c, hc, htype, hmembers, rfl, hsize⟩ := hid
  have hfile : Named sha256 commands { w with
      pendingFiles :=
        w.pendingFiles.insert (trimSpace (trimSpace (commandID c.command))) file } := by
    refine ⟨h.inits, fun id' file' hlookup => ?_, h.jobs, h.sent⟩
    rcases lookup_of_insert hlookup with ⟨rfl, rfl⟩ | hlookup
    · exact ⟨c, hc, htype, hmembers, trimSpace_trimSpace _, hsize⟩
    · exact h.files id' file' hlookup
  exact hfile.sendAttachmentInit _ _ _ _ _

theorem Named.receiveError (h : Named sha256 commands w) (id : String) :
    Named sha256 commands (w.receiveError id) := by
  have hdone : Named sha256 commands { w with
      pendingInits := w.pendingInits.erase id
      pendingFiles := w.pendingFiles.erase id } :=
    ⟨fun id' t hlookup => h.inits id' t (lookup_of_erase hlookup).2,
      fun id' file hlookup => h.files id' file (lookup_of_erase hlookup).2, h.jobs, h.sent⟩
  unfold UploadsWorker.receiveError
  dsimp only
  split
  · exact hdone
  · exact hdone.endJob _ _

/-- A job starts under the id of its command. -/
theorem Named.receiveInit (h : Named sha256 commands w) (d : UploadDraw) (m : Message) :
    Named sha256 commands (w.receiveInit crypto d m) := by
  have hdone : Named sha256 commands { w with pendingInits := w.pendingInits.erase m.commandID } :=
    ⟨fun id t hlookup => h.inits id t (lookup_of_erase hlookup).2, h.files, h.jobs, h.sent⟩
  unfold UploadsWorker.receiveInit
  split
  · exact h
  rename_i t hinit
  dsimp only
  split
  · exact hdone
  rename_i t' haccept
  split
  · exact hdone.setTransfers _ _
  rename_i file hfile
  have hfiles : Named sha256 commands { w with
      pendingInits := w.pendingInits.erase m.commandID
      pendingFiles := w.pendingFiles.erase m.commandID
      transfers := w.transfers.insert m.uploadID t' } :=
    ⟨hdone.inits, fun id f hlookup => h.files id f (lookup_of_erase hlookup).2, h.jobs, h.sent⟩
  split
  · exact hfiles
  · rename_i input _
    have hchunk : m.chunkSize = plaintextChunkBytes := by
      unfold AttachmentTransferState.acceptInit at haccept
      split_ifs at haccept with hrefused
      simp only [not_or, not_not] at hrefused
      rw [hrefused.2.2.2.2]
      exact h.inits m.commandID t hinit
    have hjob : NamedJob commands (newJob m file input) :=
      ⟨h.files m.commandID file hfile, hchunk, fun hlast => by cases hlast⟩
    exact (hfiles.insertJob hjob m.uploadID).sendNextAttachmentChunk d m.uploadID

theorem Named.advanceJob (h : Named sha256 commands w) (d : UploadDraw) (u : String) :
    Named sha256 commands (w.advanceJob crypto d u) := by
  unfold UploadsWorker.advanceJob
  split
  · exact h
  rename_i job hjob
  obtain ⟨huploads, hchunk, hbegun⟩ := h.jobs u job hjob
  dsimp only
  split
  -- the last chunk is acknowledged: a file that was sent is not empty, so that it has a commit
  · rename_i hlast
    unfold UploadsWorker.sendAttachmentCommit
    split
    · exact h.eraseJob u
    · have hid : Wired sha256 commands (trimSpace (job.baseCommand ++ "-commit")) :=
        huploads.wired (hbegun hlast.1) (.inr rfl)
      exact (h.send (m := UploadWorker.commitMessage (trimSpace u)
        (trimSpace (job.baseCommand ++ "-commit"))) hid).eraseJob u
  · have hgoes : NamedJob commands { job with inFlightChunks := job.inFlightChunks - 1 } :=
      ⟨huploads, hchunk, hbegun⟩
    exact (h.insertJob hgoes u).sendNextAttachmentChunk d u

theorem Named.step (h : Named sha256 commands w) {input : Input} (hinput : From commands input) :
    Named sha256 commands (w.step crypto input) := by
  cases input with
  | startUpload file id ready taken => exact h.startUpload hinput ready taken
  | sendInit room logicalSize id ready taken =>
    exact h.sendAttachmentInit room logicalSize id ready taken
  | sendChunk u chunk id d =>
    obtain ⟨c, hc, htype, rfl⟩ := hinput
    refine h.sendAttachmentChunk d chunk ⟨c, hc, List.mem_append_left _ ?_⟩
    rw [if_pos (by rw [htype]; decide)]
    exact List.mem_singleton_self _
  | message m d =>
    unfold UploadsWorker.step processAttachmentMessage
    dsimp only
    split
    · exact h.receiveError m.commandID
    · exact h.receiveInit d m
    · unfold UploadsWorker.receiveResume
      split
      · exact h
      · exact h.setTransfers _ _
    · unfold UploadsWorker.receiveChunkAck
      split
      · exact h
      dsimp only
      split
      · exact h.setTransfers _ _
      · split
        · exact (h.setTransfers _ _).advanceJob d _
        · exact h.setTransfers _ _
    · exact h

/-- Whatever uploads are started and whatever the server answers: the ids of the chunks and commits
that have been sent are listed for the commands. -/
theorem sent_listed {inputs : List Input} (hinputs : ∀ input ∈ inputs, From commands input) :
    ∀ m ∈ (run (step crypto) {} inputs).sent, Wired sha256 commands m.commandID := by
  have hstart : Named sha256 commands {} :=
    ⟨fun _ _ hc => (by cases hc), fun _ _ hc => (by cases hc), fun _ _ hc => (by cases hc),
      fun _ hm => absurd hm List.not_mem_nil⟩
  exact (run_invariant_along (step crypto) (fun _ _ hinput hw => hw.step hinput) hstart
    (along_of_forall hinputs)).sent

end UploadsWorker

end Attachments

end LanChat.Gui
