import Mathlib.Data.Finset.Basic
import LanChat.Gui.MlsWorker
import LanChat.Lib.Run

/-!
# Setups of attachments that wait for nothing

Before an attachment is sent, the worker sets up a group for it: for every target it fetches the key
package and adds its owner.  A setup is held by an entry of `pendingAttachmentMlsFetches_` or of
`pendingAttachmentMlsAdds_`, and what happens to the command of the entry decides how it goes on.

* `SetupWorker`: the worker with `pendingMlsCommands_`;
* `Tended`: every setup has an entry whose command is still pending;
* `Reported`: a setup goes away when its upload begins or with an error;
* `orphans w x`: the command of a setup is not sent, is dropped, or does not lead to the next one.
-/

namespace LanChat

namespace Gui

open GoStrings EventMachine

namespace MlsWorker

/-! ### `pendingMlsCommands_` -/

/-- The frame of `fetchMlsKeyPackage`. -/
def fetchMessage (room targetUserCode commandID : String) : Message :=
  { type := .mlsKeyPackageFetch, targetUserCode := trimSpace targetUserCode
    room := trimSpace room, commandID := trimSpace commandID }

/-- The pending commands after `fetchMlsKeyPackage`. -/
def fetchCommands (w : MlsWorker) (d : MlsDraw) (room targetUserCode commandID : String)
    (commands : Finset String) : Finset String :=
  if w.session.isNone ∨ trimSpace room = "" ∨ trimSpace targetUserCode = "" then commands
  else if d.sendFails (fetchMessage room targetUserCode commandID) then commands.erase commandID
  else insert commandID commands

/-- The pending commands after `startOperation`. -/
def operationCommands (w : MlsWorker) (d : MlsDraw) (room groupID target commandID : String)
    (add : Bool) (commands : Finset String) : Finset String :=
  match w.mlsGroups.lookup groupID, d.proposal, d.commit with
  | some state, some proposal, some commit =>
    if proposal = "" ∨ commit.1 = "" ∨ (add ∧ commit.2 = "") then commands
    else if state.epoch.toNat = 2 ^ 64 - 1 then commands
    else
      let pendingID := trimSpace commandID
      if pendingID = "" ∨ (w.pendingMlsOperations.lookup pendingID).isSome then commands
      else if d.sendFails ((newOperation state room groupID target proposal commit
          add).proposalMessage pendingID) then commands.erase commandID
      else insert commandID commands
  | _, _, _ => commands

/-- The pending commands after `addMlsMember`. -/
def addCommands (w : MlsWorker) (d : MlsDraw) (room groupID targetUserCode commandID : String)
    (commands : Finset String) : Finset String :=
  let target := QString.toLower (trimSpace targetUserCode)
  match w.prepareAdd d (trimSpace room) (trimSpace groupID) target with
  | none => commands
  | some w =>
    w.operationCommands d (trimSpace room) (trimSpace groupID) target commandID true commands

/-- The pending commands after `removeMlsMember`. -/
def removeCommands (w : MlsWorker) (d : MlsDraw) (room groupID targetUserCode commandID : String)
    (commands : Finset String) : Finset String :=
  let target := trimSpace targetUserCode
  if w.prepareRemove (trimSpace room) (trimSpace groupID) target then
    w.operationCommands d (trimSpace room) (trimSpace groupID) target commandID false commands
  else commands

/-- The pending commands after a login. -/
def connectedCommands (w : MlsWorker) (preserveMlsState : Bool) (commands : Finset String) :
    Finset String :=
  if preserveMlsState then commands.filter fun id => w.awaitsWelcome id = false else ∅

/-- The pending commands after `startNextAttachmentMlsSetup`. -/
def startNextCommands (w : MlsWorker) (d : MlsDraw) (attachmentCommandID : String)
    (commands : Finset String) : Finset String :=
  match w.pendingAttachmentMlsSetups.lookup attachmentCommandID with
  | none => commands
  | some setup =>
    match setup.targetUsers[setup.nextTarget]? with
    | none => commands
    | some target =>
      w.fetchCommands d setup.room target (fetchCommand attachmentCommandID setup.nextTarget)
        commands

/-- The worker of `startAttachmentUpload` with its new setup. -/
def withSetup (w : MlsWorker) (platform : Platform) (room : String) (targetUsers : List String)
    (commandID : String) : MlsWorker :=
  let groupID := attachmentMlsGroupID platform room commandID
  let w := w.createGroup (trimSpace room) groupID
  { w with
    pendingAttachmentMlsSetups := w.pendingAttachmentMlsSetups.insert (trimSpace commandID)
      ⟨trimSpace room, groupID, targetUsers, 0⟩ }

/-- `startAttachmentUpload` refuses the upload. -/
def refusesUpload (d : MlsDraw) (targetUsers : List String) (commandID : String) : Bool :=
  d.fileSize.all (maxAttachmentLogicalBytes < ·) || trimSpace commandID == "" ||
    targetUsers == [] || d.keyPackage.isNone

theorem refusesUpload_iff {d : MlsDraw} {targets : List String} {commandID : String} :
    refusesUpload d targets commandID = true ↔
      (d.fileSize.all (maxAttachmentLogicalBytes < ·) = true ∨ trimSpace commandID = "" ∨
        targets = [] ∨ d.keyPackage.isNone = true) := by
  simp only [refusesUpload, Bool.or_eq_true, beq_iff_eq, or_assoc]

theorem setups_withSetup (w : MlsWorker) (platform : Platform) (room : String)
    (targets : List String) (commandID : String) :
    (w.withSetup platform room targets commandID).pendingAttachmentMlsSetups =
      w.pendingAttachmentMlsSetups.insert (trimSpace commandID)
        ⟨trimSpace room, attachmentMlsGroupID platform room commandID, targets, 0⟩ := rfl

theorem operations_withSetup (w : MlsWorker) (platform : Platform) (room : String)
    (targets : List String) (commandID : String) :
    (w.withSetup platform room targets commandID).pendingMlsOperations =
      w.pendingMlsOperations := rfl

theorem startAttachmentUpload_eq (w : MlsWorker) (platform : Platform) (d : MlsDraw)
    (room : String) (targets : List String) (commandID : String) :
    w.startAttachmentUpload platform d room targets commandID =
      if refusesUpload d targets commandID then (w, [])
      else (w.withSetup platform room targets commandID).startNextAttachmentMlsSetup d
        (trimSpace commandID) := by
  unfold startAttachmentUpload
  dsimp only
  by_cases hrefused : refusesUpload d targets commandID = true
  · rw [if_pos (refusesUpload_iff.1 hrefused), if_pos hrefused]
  · rw [if_neg fun hc => hrefused (refusesUpload_iff.2 hc), if_neg hrefused]
    rfl

/-- The worker of `continueAttachmentMlsSetup` that goes on to the next target. -/
def nextSetup (w : MlsWorker) (commandID attachmentCommandID : String)
    (setup : PendingAttachmentMlsSetup) : MlsWorker :=
  { w with
    pendingAttachmentMlsAdds := w.pendingAttachmentMlsAdds.erase commandID
    pendingAttachmentMlsSetups := w.pendingAttachmentMlsSetups.insert attachmentCommandID
      { setup with nextTarget := setup.nextTarget + 1 } }

/-- The pending commands after `continueAttachmentMlsSetup`. -/
def continueCommands (w : MlsWorker) (d : MlsDraw) (commandID : String)
    (commands : Finset String) : Finset String :=
  match w.pendingAttachmentMlsAdds.lookup commandID with
  | none => commands
  | some attachmentCommandID =>
    match w.pendingAttachmentMlsSetups.lookup attachmentCommandID with
    | none => commands
    | some setup => (w.nextSetup commandID attachmentCommandID setup).startNextCommands d
        attachmentCommandID commands

/-- The pending commands after a key package has arrived. -/
def keyPackageCommands (w : MlsWorker) (d : MlsDraw) (m : Message) (commands : Finset String) :
    Finset String :=
  let w := w.storeKeyPackage m
  let commands := commands.erase m.commandID
  match w.pendingAttachmentMlsFetches.lookup m.commandID with
  | none => commands
  | some attachmentCommandID =>
    match w.pendingAttachmentMlsSetups.lookup attachmentCommandID with
    | none => commands
    | some setup =>
      let command := addCommand attachmentCommandID setup.nextTarget
      (w.awaitAdd m.commandID command attachmentCommandID).addCommands d setup.room setup.groupID
        m.targetUserCode command commands

/-- The pending commands after a message of the server. -/
def messageCommands (w : MlsWorker) (platform : Platform) (d : MlsDraw) (m : Message)
    (commands : Finset String) : Finset String :=
  match m.type with
  | .mlsKeyPackageFetch => if m.keyPackage = "" then commands else w.keyPackageCommands d m commands
  | .mlsGroupProposal =>
    if m.proposal ≠ "" ∨ m.commandID = "" then commands
    else match w.pendingMlsOperations.lookup m.commandID with
      | none => commands
      | some op =>
        if op.phase = .proposal ∧ d.sendFails (op.commitMessage m.commandID) then
          commands.erase m.commandID
        else commands
  | .mlsGroupWelcome =>
    if m.welcome ≠ "" ∨ m.commandID = "" then commands
    else match w.pendingMlsOperations.lookup m.commandID with
      | none => commands
      | some op =>
        if op.phase ≠ .welcome then commands
        else w.continueCommands d m.commandID (commands.erase m.commandID)
  | .mlsGroupCommit =>
    if m.commit ≠ "" ∨ m.commandID = "" then commands
    else match w.pendingMlsOperations.lookup m.commandID with
      | none => commands.erase m.commandID
      | some op =>
        if op.phase ≠ .commit ∨ (w.mlsGroups.lookup op.group).isNone then
          commands.erase m.commandID
        else if op.add then
          if d.sendFails (op.welcomeMessage platform m.commandID) then commands.erase m.commandID
          else commands
        else w.continueCommands d m.commandID (commands.erase m.commandID)
  | .error => if m.commandID = "" then commands else commands.erase m.commandID
  | _ => commands

/-- The pending commands after a step. -/
def nextCommands (w : MlsWorker) (platform : Platform) (x : MlsInput × MlsDraw)
    (commands : Finset String) : Finset String :=
  match x.1 with
  | .connectToServer _ userCode login =>
    if login.isSome then w.connectedCommands (w.saved && QString.equalFold w.userCode userCode) commands
    else commands
  | .retrySavedConnection login =>
    if login.isSome then w.connectedCommands true commands else commands
  | .disconnect => commands
  | .fetchMlsKeyPackage room target commandID =>
    w.fetchCommands x.2 room target commandID commands
  | .addMlsMember room groupID target commandID =>
    w.addCommands x.2 room groupID target commandID commands
  | .removeMlsMember room groupID target commandID =>
    w.removeCommands x.2 room groupID target commandID commands
  | .startAttachmentUpload room targets commandID =>
    if refusesUpload x.2 targets commandID then commands
    else (w.withSetup platform room targets commandID).startNextCommands x.2 (trimSpace commandID)
      commands
  | .receive m => if w.session.isSome then w.messageCommands platform x.2 m commands else commands

/-! ### Errors of uploads -/

/-- The errors that `startNextAttachmentMlsSetup` reports: without a file, and those of
`sendAttachmentInit`. -/
def startNextErrors (w : MlsWorker) (d : MlsDraw) (attachmentCommandID : String) : List String :=
  match w.pendingAttachmentMlsSetups.lookup attachmentCommandID with
  | none => []
  | some setup =>
    match setup.targetUsers[setup.nextTarget]? with
    | some _ => []
    | none =>
      match d.fileSize with
      | none => [attachmentCommandID]
      | some logicalSize =>
        if maxAttachmentLogicalBytes < logicalSize ∨ w.session.isNone ∨ setup.room = "" ∨
            logicalSize ≤ 0 ∨
            d.sendFails { type := .attachmentInit, room := setup.room, logicalSize
                          commandID := attachmentCommandID } then [attachmentCommandID]
        else []

/-- The errors that `continueAttachmentMlsSetup` reports. -/
def continueErrors (w : MlsWorker) (d : MlsDraw) (commandID : String) : List String :=
  match w.pendingAttachmentMlsAdds.lookup commandID with
  | none => []
  | some attachmentCommandID =>
    match w.pendingAttachmentMlsSetups.lookup attachmentCommandID with
    | none => []
    | some setup => (w.nextSetup commandID attachmentCommandID setup).startNextErrors d
        attachmentCommandID

/-- The worker after `receiveError` has failed the setup of a fetch. -/
def failFetch (w : MlsWorker) (commandID : String) : MlsWorker :=
  match w.pendingAttachmentMlsFetches.lookup commandID with
  | none => w
  | some attachmentCommandID =>
    { w with
      pendingAttachmentMlsFetches := w.pendingAttachmentMlsFetches.erase commandID
      }.failAttachmentMlsSetup attachmentCommandID

/-- The worker after `receiveError` has failed the setup of an add. -/
def failAdd (w : MlsWorker) (commandID : String) : MlsWorker :=
  match w.pendingAttachmentMlsAdds.lookup commandID with
  | none => w
  | some attachmentCommandID =>
    { w with
      pendingAttachmentMlsAdds := w.pendingAttachmentMlsAdds.erase commandID
      }.failAttachmentMlsSetup attachmentCommandID

/-- The errors that a step reports: the command ids of the uploads. -/
def attachmentErrors (w : MlsWorker) (x : MlsInput × MlsDraw) (platform : Platform) : List String :=
  match x.1 with
  | .startAttachmentUpload room targets commandID =>
    if refusesUpload x.2 targets commandID then [commandID]
    else (w.withSetup platform room targets commandID).startNextErrors x.2 (trimSpace commandID)
  | .receive m =>
    if w.session.isNone ∨ m.commandID = "" then []
    else match m.type with
      | .error => (w.pendingAttachmentMlsFetches.lookup m.commandID).toList ++
          ((w.failFetch m.commandID).pendingAttachmentMlsAdds.lookup m.commandID).toList
      | .mlsGroupWelcome =>
        if m.welcome = "" ∧ w.awaitsWelcome m.commandID then w.continueErrors x.2 m.commandID
        else []
      | .mlsGroupCommit =>
        if m.commit = "" ∧ (w.pendingMlsOperations.lookup m.commandID).any (fun op =>
            op.phase == .commit && (w.mlsGroups.lookup op.group).isSome && !op.add) then
          w.continueErrors x.2 m.commandID
        else []
      | _ => []
  | _ => []

/-! ### Steps after which a setup waits for nothing -/

/-- A setup waits for the fetch of this command. -/
def fetchHolds (w : MlsWorker) (commandID : String) : Bool :=
  (w.pendingAttachmentMlsFetches.lookup commandID).any fun id =>
    (w.pendingAttachmentMlsSetups.lookup id).isSome

/-- A setup waits for the fetch or for the add of this command. -/
def holdsSetup (w : MlsWorker) (commandID : String) : Bool :=
  w.fetchHolds commandID || (w.pendingAttachmentMlsAdds.lookup commandID).any fun id =>
    (w.pendingAttachmentMlsSetups.lookup id).isSome

/-- `fetchMlsKeyPackage` sends its frame. -/
def fetchSent (w : MlsWorker) (d : MlsDraw) (room targetUserCode commandID : String) : Bool :=
  w.session.isSome && trimSpace room != "" && trimSpace targetUserCode != "" &&
    !d.sendFails (fetchMessage room targetUserCode commandID)

/-- The operation whose proposal `startOperation` gives to the connection: the library throws
nothing, its results fit into frames, the epoch can advance and the command id is free. -/
def startedOperation (w : MlsWorker) (d : MlsDraw) (room groupID target commandID : String)
    (add : Bool) : Option PendingMlsOperation :=
  match w.mlsGroups.lookup groupID, d.proposal, d.commit with
  | some state, some proposal, some commit =>
    if proposal = "" ∨ commit.1 = "" ∨ (add ∧ commit.2 = "") then none
    else if state.epoch.toNat = 2 ^ 64 - 1 then none
    else if trimSpace commandID = "" ∨
        (w.pendingMlsOperations.lookup (trimSpace commandID)).isSome then none
    else some (newOperation state room groupID target proposal commit add)
  | _, _, _ => none

/-- The operation whose proposal `addMlsMember` gives to the connection. -/
def startedAdd (w : MlsWorker) (d : MlsDraw) (room groupID targetUserCode commandID : String) :
    Option PendingMlsOperation :=
  let target := QString.toLower (trimSpace targetUserCode)
  (w.prepareAdd d (trimSpace room) (trimSpace groupID) target).bind fun w =>
    w.startedOperation d (trimSpace room) (trimSpace groupID) target commandID true

/-- The operation whose proposal `removeMlsMember` gives to the connection. -/
def startedRemove (w : MlsWorker) (d : MlsDraw) (room groupID targetUserCode commandID : String) :
    Option PendingMlsOperation :=
  let target := trimSpace targetUserCode
  if w.prepareRemove (trimSpace room) (trimSpace groupID) target then
    w.startedOperation d (trimSpace room) (trimSpace groupID) target commandID false
  else none

/-- The setup has a next target whose key package is not asked for. -/
def startNextStalls (w : MlsWorker) (d : MlsDraw) (attachmentCommandID : String) : Bool :=
  (w.pendingAttachmentMlsSetups.lookup attachmentCommandID).any fun setup =>
    (setup.targetUsers[setup.nextTarget]?).any fun target =>
      !w.fetchSent d setup.room target (fetchCommand attachmentCommandID setup.nextTarget)

/-- An add is done, and the setup does not go on. -/
def continueStalls (w : MlsWorker) (d : MlsDraw) (commandID : String) : Bool :=
  (w.pendingAttachmentMlsAdds.lookup commandID).any fun attachmentCommandID =>
    (w.pendingAttachmentMlsSetups.lookup attachmentCommandID).any fun setup =>
      (w.nextSetup commandID attachmentCommandID setup).startNextStalls d attachmentCommandID

/-- A key package has arrived, and its owner is not added. -/
def keyPackageStalls (w : MlsWorker) (d : MlsDraw) (m : Message) : Bool :=
  (w.pendingAttachmentMlsFetches.lookup m.commandID).any fun attachmentCommandID =>
    (w.pendingAttachmentMlsSetups.lookup attachmentCommandID).any fun setup =>
      let command := addCommand attachmentCommandID setup.nextTarget
      (w.pendingMlsOperations.lookup command).isNone &&
        (((w.storeKeyPackage m).awaitAdd m.commandID command attachmentCommandID).startedAdd d
          setup.room setup.groupID m.targetUserCode command).all fun op =>
            d.sendFails (op.proposalMessage command)

/-- The message leaves a setup without the command that it waits for. -/
def messageOrphans (w : MlsWorker) (platform : Platform) (d : MlsDraw) (m : Message) : Bool :=
  match m.type with
  | .mlsKeyPackageFetch => m.keyPackage != "" && w.keyPackageStalls d m
  | .mlsGroupProposal =>
    m.proposal == "" && m.commandID != "" && w.holdsSetup m.commandID &&
      (w.pendingMlsOperations.lookup m.commandID).any fun op =>
        op.phase == .proposal && d.sendFails (op.commitMessage m.commandID)
  | .mlsGroupWelcome =>
    m.welcome == "" && m.commandID != "" && w.awaitsWelcome m.commandID &&
      (w.fetchHolds m.commandID || w.continueStalls d m.commandID)
  | .mlsGroupCommit =>
    m.commit == "" && m.commandID != "" &&
      match w.pendingMlsOperations.lookup m.commandID with
      | none => w.fetchHolds m.commandID
      | some op =>
        if op.phase ≠ .commit then w.fetchHolds m.commandID
        else if (w.mlsGroups.lookup op.group).isNone then w.holdsSetup m.commandID
        else if op.add then
          d.sendFails (op.welcomeMessage platform m.commandID) && w.holdsSetup m.commandID
        else w.fetchHolds m.commandID || w.continueStalls d m.commandID
  | _ => false

/-- The login leaves a setup without the command that it waits for: it drops an operation that
waits for the acknowledgement of its welcome, or everything. -/
def loginOrphans (w : MlsWorker) (preserveMlsState : Bool) : Bool :=
  if preserveMlsState then
    (w.pendingAttachmentMlsFetches.keys ++ w.pendingAttachmentMlsAdds.keys).any fun id =>
      w.awaitsWelcome id && w.holdsSetup id
  else !w.pendingAttachmentMlsSetups.keys.isEmpty

/-- The step leaves a setup without the command that it waits for. -/
def orphans (w : MlsWorker) (platform : Platform) (x : MlsInput × MlsDraw) : Bool :=
  match x.1 with
  | .connectToServer _ userCode login =>
    login.isSome && w.loginOrphans (w.saved && QString.equalFold w.userCode userCode)
  | .retrySavedConnection login => login.isSome && w.loginOrphans true
  | .disconnect => false
  | .fetchMlsKeyPackage room target commandID =>
    w.fetchHolds commandID && w.session.isSome && trimSpace room != "" && trimSpace target != "" &&
      x.2.sendFails (fetchMessage room target commandID)
  | .addMlsMember room groupID target commandID =>
    w.fetchHolds commandID && (w.startedAdd x.2 room groupID target commandID).any fun op =>
      x.2.sendFails (op.proposalMessage (trimSpace commandID))
  | .removeMlsMember room groupID target commandID =>
    w.fetchHolds commandID && (w.startedRemove x.2 room groupID target commandID).any fun op =>
      x.2.sendFails (op.proposalMessage (trimSpace commandID))
  | .startAttachmentUpload room targets commandID =>
    !refusesUpload x.2 targets commandID &&
      (w.withSetup platform room targets commandID).startNextStalls x.2 (trimSpace commandID)
  | .receive m => w.session.isSome && w.messageOrphans platform x.2 m

end MlsWorker

/-- The worker and the commands whose results it still owes to the user interface. -/
structure SetupWorker where
  worker : MlsWorker := {}
  pendingMlsCommands : Finset String := ∅

namespace SetupWorker

/-- One step. -/
def step (platform : Platform) (s : SetupWorker) (x : MlsInput × MlsDraw) : SetupWorker where
  worker := (s.worker.step platform x).1
  pendingMlsCommands := s.worker.nextCommands platform x s.pendingMlsCommands

/-- The setup waits for a fetch whose command is still in `pendingMlsCommands_`, or for an add whose
command is still in `pendingMlsOperations_`. -/
def Outstanding (s : SetupWorker) (attachmentCommandID : String) : Prop :=
  (∃ fetch ∈ s.pendingMlsCommands,
    s.worker.pendingAttachmentMlsFetches.lookup fetch = some attachmentCommandID) ∨
  ∃ add, (s.worker.pendingMlsOperations.lookup add).isSome ∧
    s.worker.pendingAttachmentMlsAdds.lookup add = some attachmentCommandID

/-- Every setup waits for something. -/
def Tended (s : SetupWorker) : Prop :=
  ∀ id, (s.worker.pendingAttachmentMlsSetups.lookup id).isSome → s.Outstanding id

/-- A setup goes away when its upload begins, or an error is reported for it. -/
def Reported (platform : Platform) (s : SetupWorker) (x : MlsInput × MlsDraw) : Prop :=
  ∀ id, (s.worker.pendingAttachmentMlsSetups.lookup id).isSome →
    (s.step platform x).worker.pendingAttachmentMlsSetups.lookup id = none →
      (∃ m ∈ (s.worker.step platform x).2, m.type = .attachmentInit ∧ m.commandID = id) ∨
        id ∈ s.worker.attachmentErrors x platform

end SetupWorker

end Gui

end LanChat
