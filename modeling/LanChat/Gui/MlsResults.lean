import LanChat.Gui.TendedSetups

/-!
# The results of the MLS commands (`gui_connection_worker.cpp`, `chat_bridge.cpp`)

`SetupWorker` has the commands that wait for a result; here are the results that the bridge emits.

* `…Results`: the results of a function of the worker;
* `raises`: the processing of a message ends with an exception, which is a result as well;
* `disturbs`: a step gives a command a result and leaves it pending;
* `MlsControl`: the worker with the results so far.

An attachment event passes the signal of the results under a type of its own and is no result.
-/

namespace LanChat

namespace Gui

open GoStrings

/-- `makeCommandResult`, without the text of the error. -/
structure CommandResult where
  commandID : String
  ok : Bool
  code : String
  deriving DecidableEq, Repr

/-- The number of results with an id. -/
def answersTo (commandID : String) (results : List CommandResult) : ℕ :=
  results.countP fun result => result.commandID == commandID

/-- The slot of the bridge for `mlsCommandResult`: a result without an id is dropped, and only a
failure has a code. -/
def commandResult (commandID : String) (ok : Bool) (code : String) : List CommandResult :=
  if commandID = "" then []
  else [⟨commandID, ok, if ok then "" else if code = "" then "mls_operation_failed" else code⟩]

namespace MlsWorker

/-! ### Slots -/

/-- The results of `fetchMlsKeyPackage`. -/
def fetchResults (w : MlsWorker) (d : MlsDraw) (room targetUserCode commandID : String) :
    List CommandResult :=
  if w.session.isNone then commandResult commandID false "not_connected"
  else if trimSpace room = "" ∨ trimSpace targetUserCode = "" then
    commandResult commandID false "invalid_mls_request"
  else if d.sendFails (fetchMessage room targetUserCode commandID) then
    commandResult commandID false "send_failed"
  else []

/-- The results of the common end of `addMlsMember` and `removeMlsMember`; the library may throw. -/
def operationResults (w : MlsWorker) (d : MlsDraw) (room groupID target commandID : String)
    (add : Bool) : List CommandResult :=
  match w.mlsGroups.lookup groupID, d.proposal, d.commit with
  | some state, some proposal, some commit =>
    if proposal = "" ∨ commit.1 = "" ∨ (add ∧ commit.2 = "") then
      commandResult commandID false "mls_opaque_too_large"
    else if state.epoch.toNat = 2 ^ 64 - 1 then commandResult commandID false "mls_epoch_exhausted"
    else if trimSpace commandID = "" ∨
        (w.pendingMlsOperations.lookup (trimSpace commandID)).isSome then
      commandResult commandID false "command_pending"
    else if d.sendFails ((newOperation state room groupID target proposal commit
        add).proposalMessage (trimSpace commandID)) then
      commandResult commandID false "send_failed"
    else []
  | _, _, _ => commandResult commandID false "mls_operation_failed"

/-- The results of `addMlsMember`. -/
def addResults (w : MlsWorker) (d : MlsDraw) (room groupID targetUserCode commandID : String) :
    List CommandResult :=
  let target := QString.toLower (trimSpace targetUserCode)
  match w.prepareAdd d (trimSpace room) (trimSpace groupID) target with
  | none =>
    commandResult commandID false
      (if w.session.isNone then "not_connected"
      else if trimSpace room = "" ∨ trimSpace groupID = "" ∨ target = "" then "invalid_mls_request"
      else if (w.mlsKeyPackages.lookup target).isNone then "key_package_unavailable"
      else if (w.mlsGroups.lookup (trimSpace groupID)).isSome then "group_room_mismatch"
      else "mls_operation_failed")
  | some w => w.operationResults d (trimSpace room) (trimSpace groupID) target commandID true

/-- The results of `removeMlsMember`. -/
def removeResults (w : MlsWorker) (d : MlsDraw) (room groupID targetUserCode commandID : String) :
    List CommandResult :=
  let target := trimSpace targetUserCode
  if w.prepareRemove (trimSpace room) (trimSpace groupID) target then
    w.operationResults d (trimSpace room) (trimSpace groupID) target commandID false
  else
    commandResult commandID false
      (if w.session.isNone then "not_connected"
      else if trimSpace room = "" ∨ trimSpace groupID = "" ∨ target = "" ∨
          (w.mlsGroups.lookup (trimSpace groupID)).isNone then "invalid_mls_request"
      else "group_room_mismatch")

/-! ### Connections -/

/-- The operation cannot be sent again. -/
def resumeFails (w : MlsWorker) (d : MlsDraw) (commandID : String) : Bool :=
  (w.pendingMlsOperations.lookup commandID).any fun op =>
    match op.phase with
    | .proposal => d.sendFails (op.proposalMessage commandID)
    | .commit => d.sendFails (op.commitMessage commandID)
    | .welcome => false

/-- The results of a login that has succeeded: an operation that cannot be sent again stays
pending. -/
def connectedResults (w : MlsWorker) (d : MlsDraw) (preserveMlsState : Bool) :
    List CommandResult :=
  if preserveMlsState then
    (w.pendingMlsOperations.keys.insertionSort (· ≤ ·)).flatMap fun id =>
      if w.resumeFails d id then commandResult id false "send_failed" else []
  else []

/-! ### The group of an attachment -/

/-- The results of `startNextAttachmentMlsSetup`: the fetch of the next key package is a command. -/
def startNextResults (w : MlsWorker) (d : MlsDraw) (attachmentCommandID : String) :
    List CommandResult :=
  match w.pendingAttachmentMlsSetups.lookup attachmentCommandID with
  | none => []
  | some setup =>
    match setup.targetUsers[setup.nextTarget]? with
    | none => []
    | some target =>
      w.fetchResults d setup.room target (fetchCommand attachmentCommandID setup.nextTarget)

/-- The results of `continueAttachmentMlsSetup`. -/
def continueResults (w : MlsWorker) (d : MlsDraw) (commandID : String) : List CommandResult :=
  match w.pendingAttachmentMlsAdds.lookup commandID with
  | none => []
  | some attachmentCommandID =>
    match w.pendingAttachmentMlsSetups.lookup attachmentCommandID with
    | none => []
    | some setup => (w.nextSetup commandID attachmentCommandID setup).startNextResults d
        attachmentCommandID

/-! ### Messages of the server -/

/-- `if (pendingMlsCommands_.remove(commandId)) emit mlsCommandResult(…)`. -/
def settleResults (commands : Finset String) (commandID : String) (ok : Bool) (code : String) :
    List CommandResult :=
  if commandID ∈ commands then commandResult commandID ok code else []

/-- The results when a key package has arrived; an attachment that waits for it adds its owner. -/
def keyPackageResults (w : MlsWorker) (d : MlsDraw) (m : Message) (commands : Finset String) :
    List CommandResult :=
  let w := w.storeKeyPackage m
  settleResults commands m.commandID true "" ++
    match w.pendingAttachmentMlsFetches.lookup m.commandID with
    | none => []
    | some attachmentCommandID =>
      match w.pendingAttachmentMlsSetups.lookup attachmentCommandID with
      | none => []
      | some setup =>
        let command := addCommand attachmentCommandID setup.nextTarget
        (w.awaitAdd m.commandID command attachmentCommandID).addResults d setup.room setup.groupID
          m.targetUserCode command

/-- `duplicate ? "duplicate" : ""`. -/
def duplicateCode (m : Message) : String := if m.content = "duplicate" then "duplicate" else ""

/-- The results when a commit has been stored: when it is not the one of a pending operation that
waits for it, the command is answered and the operation stays. -/
def commitAckResults (w : MlsWorker) (platform : Platform) (d : MlsDraw) (m : Message)
    (commands : Finset String) : List CommandResult :=
  match w.pendingMlsOperations.lookup m.commandID with
  | none => settleResults commands m.commandID true (duplicateCode m)
  | some op =>
    if op.phase ≠ .commit then settleResults commands m.commandID true (duplicateCode m)
    else if (w.mlsGroups.lookup op.group).isNone then
      commandResult m.commandID false "group_unavailable"
    else if op.add then
      if d.sendFails (op.welcomeMessage platform m.commandID) then
        commandResult m.commandID false "send_failed"
      else []
    else w.continueResults d m.commandID ++ commandResult m.commandID true (duplicateCode m)

/-- The processing of a message ends with an exception: an envelope that is no JSON text or cannot be
opened, a proposal or a commit that the session refuses, a welcome that cannot be joined, or no new
client after it.  `refuses` is the library's answer to an envelope or a proposal. -/
def raises (w : MlsWorker) (platform : Platform) (d : MlsDraw) (refuses : Bool) (m : Message) :
    Bool :=
  match m.type with
  | .chat => m.crypto != "" && refuses
  | .mlsGroupProposal =>
    m.proposal != "" && refuses &&
      (w.mlsGroups.lookup m.groupID).any fun state => state.room == m.room
  | .mlsGroupCommit =>
    m.commit != "" && !d.accepts &&
      (w.mlsGroups.lookup m.groupID).any fun state => state.room == m.room &&
        state.commits.lookup m.epoch != some m.commit && m.epoch == state.epoch + 1
  | .mlsGroupWelcome =>
    m.welcome != "" && (m.targetUserCode == "" || QString.equalFold m.targetUserCode w.userCode) &&
      (w.mlsGroups.lookup m.groupID).isNone && w.mlsClient.any fun keyPackage =>
        keyPackage.isNone || !d.accepts ||
          (!(w.sendWelcomeAccept platform d m).isEmpty && d.keyPackage.isNone)
  | _ => false

/-- The results of `processMlsMessage` where nothing throws. -/
def replyResults (w : MlsWorker) (platform : Platform) (d : MlsDraw) (m : Message)
    (commands : Finset String) : List CommandResult :=
  match m.type with
  | .mlsKeyPackageFetch => if m.keyPackage = "" then [] else w.keyPackageResults d m commands
  | .mlsGroupProposal =>
    if m.proposal ≠ "" ∨ m.commandID = "" then []
    else if (w.pendingMlsOperations.lookup m.commandID).any fun op =>
        op.phase == .proposal && d.sendFails (op.commitMessage m.commandID) then
      commandResult m.commandID false "send_failed"
    else []
  | .mlsGroupCommit =>
    if m.commit ≠ "" ∨ m.commandID = "" then [] else w.commitAckResults platform d m commands
  | .mlsGroupWelcome =>
    if m.welcome ≠ "" ∨ m.commandID = "" then []
    else if w.awaitsWelcome m.commandID then
      w.continueResults d m.commandID ++ commandResult m.commandID true (duplicateCode m)
    else []
  | .error =>
    if m.commandID = "" then [] else settleResults commands m.commandID false "server_rejected"
  | _ => []

/-- The results of `processMlsMessage`. -/
def messageResults (w : MlsWorker) (platform : Platform) (d : MlsDraw) (refuses : Bool) (m : Message)
    (commands : Finset String) : List CommandResult :=
  if w.raises platform d refuses m then commandResult m.commandID false "mls_operation_failed"
  else w.replyResults platform d m commands

/-! ### Steps that break the order -/

/-- The message answers a command whose operation it leaves pending: a key package for an add or a
remove, or the acknowledgement of a commit that has not been sent or whose welcome follows. -/
def answersEarly (w : MlsWorker) (m : Message) (commands : Finset String) : Bool :=
  decide (m.commandID ∈ commands) &&
    match m.type with
    | .mlsKeyPackageFetch =>
      m.keyPackage != "" && (w.pendingMlsOperations.lookup m.commandID).isSome
    | .mlsGroupCommit =>
      m.commit == "" && (w.pendingMlsOperations.lookup m.commandID).any fun op =>
        op.phase != .commit
    | _ => false

/-- The step gives the command a result and leaves it pending: an operation cannot be sent again
after a login, the processing of a message with its id throws, or such a message answers early. -/
def disturbs (w : MlsWorker) (platform : Platform) (x : MlsInput × MlsDraw) (refuses : Bool)
    (commands : Finset String) (commandID : String) : Bool :=
  match x.1 with
  | .connectToServer _ userCode login =>
    login.isSome && (w.saved && QString.equalFold w.userCode userCode) && w.resumeFails x.2 commandID
  | .retrySavedConnection login => login.isSome && w.resumeFails x.2 commandID
  | .receive m =>
    w.session.isSome && m.commandID == commandID &&
      (w.raises platform x.2 refuses m || w.answersEarly m commands)
  | _ => false

/-- The results of a step. -/
def stepResults (w : MlsWorker) (platform : Platform) (x : MlsInput × MlsDraw) (refuses : Bool)
    (commands : Finset String) : List CommandResult :=
  match x.1 with
  | .connectToServer _ userCode login =>
    if login.isSome then w.connectedResults x.2 (w.saved && QString.equalFold w.userCode userCode) else []
  | .retrySavedConnection login => if login.isSome then w.connectedResults x.2 true else []
  | .disconnect => []
  | .fetchMlsKeyPackage room target commandID => w.fetchResults x.2 room target commandID
  | .addMlsMember room groupID target commandID => w.addResults x.2 room groupID target commandID
  | .removeMlsMember room groupID target commandID =>
    w.removeResults x.2 room groupID target commandID
  | .startAttachmentUpload room targets commandID =>
    if refusesUpload x.2 targets commandID then []
    else (w.withSetup platform room targets commandID).startNextResults x.2 (trimSpace commandID)
  | .receive m =>
    if w.session.isSome then w.messageResults platform x.2 refuses m commands else []

end MlsWorker

/-- The input sends frames under this id, or under the id without the spaces around it. -/
def MlsInput.Issues (commandID : String) : MlsInput → Prop
  | .fetchMlsKeyPackage _ _ id | .addMlsMember _ _ _ id | .removeMlsMember _ _ _ id =>
    id = commandID ∨ trimSpace id = commandID
  | .startAttachmentUpload _ _ id => ∃ n, MlsWorker.fetchCommand (trimSpace id) n = commandID ∨
    MlsWorker.addCommand (trimSpace id) n = commandID
  | _ => False

/-- The input is a command for key packages or members, with this id. -/
def MlsInput.Commands (commandID : String) : MlsInput → Prop
  | .fetchMlsKeyPackage _ _ id | .addMlsMember _ _ _ id | .removeMlsMember _ _ _ id =>
    id = commandID
  | _ => False

/-- What happens to the worker, with what it draws from outside. -/
structure MlsControlInput where
  input : MlsInput
  draw : MlsDraw := {}
  refuses : Bool := false

/-- The worker, the commands that wait for a result, and the results, oldest first. -/
structure MlsControl where
  setups : SetupWorker := {}
  results : List CommandResult := []

namespace MlsControl

/-- One step. -/
def step (platform : Platform) (s : MlsControl) (x : MlsControlInput) : MlsControl where
  setups := s.setups.step platform (x.input, x.draw)
  results := s.results ++ s.setups.worker.stepResults platform (x.input, x.draw) x.refuses
    s.setups.pendingMlsCommands

/-- The step does not give the command a result and leave it pending. -/
def Undisturbed (platform : Platform) (commandID : String) (s : MlsControl) (x : MlsControlInput) :
    Prop :=
  s.setups.worker.disturbs platform (x.input, x.draw) x.refuses s.setups.pendingMlsCommands
    commandID = false

end MlsControl

end Gui

end LanChat
