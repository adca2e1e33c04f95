import LanChat.Hub.Step
import LanChat.Lib.QString

/-!
# Encrypted groups in the desktop client (`client-cpp/gui/src/gui_connection_worker.cpp`)

The part of the worker that adds and removes group members and sets up the group of an attachment.

* `MlsGroupState`: `session` is the epoch of the group's library session, which the worker never
  reads: it starts at the creation or at the epoch of the welcome and grows with every commit that
  the session applies;
* `MlsWorker`: `session` is the server's client object behind a connection that is ready,
  `mlsClient` the key package that `mlsClient_` still has pending;
* `MlsDraw`: what one call or message draws from outside, the library and the socket.

A function returns the worker and the frames it puts on the connection.  The results that only go
to the user interface are left out.
-/

namespace LanChat

namespace Gui

open GoStrings

/-- `PendingMlsOperation::Phase`. -/
inductive Phase
  | proposal
  | commit
  | welcome
  deriving DecidableEq, Repr

/-- `PendingMlsOperation`. -/
structure PendingMlsOperation where
  phase : Phase
  room : String
  group : String
  target : String
  epoch : UInt64
  proposal : String
  commit : String
  welcome : String
  add : Bool
  deriving DecidableEq, Repr

namespace PendingMlsOperation

/-- The proposal frame, the first time and after a reconnection. -/
def proposalMessage (op : PendingMlsOperation) (commandID : String) : Message :=
  { type := .mlsGroupProposal, groupID := op.group, room := op.room, epoch := op.epoch
    proposalID := commandID, commandID, action := if op.add then "add" else "remove"
    targetUserCode := op.target, proposal := op.proposal }

/-- The commit frame, the first time and after a reconnection. -/
def commitMessage (op : PendingMlsOperation) (commandID : String) : Message :=
  { type := .mlsGroupCommit, groupID := op.group, room := op.room, epoch := op.epoch
    proposalID := commandID, commandID, commit := op.commit }

/-- The welcome frame. -/
def welcomeMessage (op : PendingMlsOperation) (platform : Platform) (commandID : String) :
    Message :=
  { type := .mlsGroupWelcome, groupID := op.group, room := op.room, epoch := op.epoch
    proposalID := commandID, commandID, targetUserCode := op.target
    welcomeDigest := platform.sha256Hex op.welcome, welcome := op.welcome }

end PendingMlsOperation

/-- `MlsGroupState`. -/
structure MlsGroupState where
  room : String
  epoch : UInt64 := 0
  session : UInt64 := 0
  commits : AList fun _ : UInt64 => String := ∅
  welcomes : AList fun _ : UInt64 => String := ∅

/-- `PendingAttachmentMlsSetup`, without the file. -/
structure PendingAttachmentMlsSetup where
  room : String
  groupID : String
  targetUsers : List String
  nextTarget : ℕ
  deriving DecidableEq, Repr

/-- What a call or a message draws from outside: the encoded results of the library (the empty text
for one that is too large, `none` for an exception), whether it takes a commit or a welcome, the key
package of a new `MlsClient`, the size of the attachment's file, and the frames that cannot be
sent. -/
structure MlsDraw where
  proposal : Option String := none
  commit : Option (String × String) := none
  accepts : Bool := true
  keyPackage : Option String := none
  fileSize : Option ℤ := none
  sendFails : Message → Bool := fun _ => false

/-- A send: the frame is on the connection, or the send has failed. -/
def MlsDraw.send (d : MlsDraw) (message : Message) : List Message :=
  if d.sendFails message then [] else [message]

/-- `map::emplace`: a value that is there stays. -/
def emplace {α β : Type} [DecidableEq α] (m : AList fun _ : α => β) (a : α) (b : β) :
    AList fun _ : α => β :=
  if (m.lookup a).isSome then m else m.insert a b

/-- `GuiConnectionWorker`, the part that keeps encrypted groups. -/
structure MlsWorker where
  session : Option ClientID := none
  saved : Bool := false
  username : String := ""
  userCode : String := ""
  mlsClient : Option (Option String) := none
  mlsKeyPackages : AList fun _ : String => String := ∅
  mlsGroups : AList fun _ : String => MlsGroupState := ∅
  pendingMlsOperations : AList fun _ : String => PendingMlsOperation := ∅
  pendingAttachmentMlsSetups : AList fun _ : String => PendingAttachmentMlsSetup := ∅
  pendingAttachmentMlsFetches : AList fun _ : String => String := ∅
  pendingAttachmentMlsAdds : AList fun _ : String => String := ∅

namespace MlsWorker

/-- `publishMlsKeyPackage`: the key package of a client that has joined is gone. -/
def publishMlsKeyPackage (w : MlsWorker) (d : MlsDraw) : List Message :=
  match w.session, w.mlsClient with
  | some _, some (some keyPackage) =>
    if keyPackage = "" then []
    else d.send { type := .mlsKeyPackagePublish, userCode := w.userCode, keyPackage }
  | _, _ => []

/-- `fetchMlsKeyPackage`. -/
def fetchMlsKeyPackage (w : MlsWorker) (d : MlsDraw) (room targetUserCode commandID : String) :
    List Message :=
  if w.session.isNone ∨ trimSpace room = "" ∨ trimSpace targetUserCode = "" then []
  else d.send { type := .mlsKeyPackageFetch, targetUserCode := trimSpace targetUserCode
                room := trimSpace room, commandID := trimSpace commandID }

/-! ### Operations -/

/-- A new group of this client. -/
def createGroup (w : MlsWorker) (room groupID : String) : MlsWorker :=
  { w with mlsGroups := emplace w.mlsGroups groupID { room } }

/-- The group of an add: one that is there must be of the room, else it is created; `none` when
the operation ends here. -/
def openGroup (w : MlsWorker) (d : MlsDraw) (room groupID : String) : Option MlsWorker :=
  match w.mlsGroups.lookup groupID with
  | some state => if state.room ≠ room then none else some w
  | none => if d.keyPackage.isNone then none else some (w.createGroup room groupID)

/-- The session of the group has applied a commit. -/
def advanceSession (w : MlsWorker) (groupID : String) (state : MlsGroupState) : MlsWorker :=
  { w with
    mlsGroups := w.mlsGroups.insert groupID { state with session := state.session + 1 } }

/-- The operation that a member change leaves pending. -/
def newOperation (state : MlsGroupState) (room groupID target proposal : String)
    (commit : String × String) (add : Bool) : PendingMlsOperation :=
  { phase := .proposal, room, group := groupID, target, epoch := state.epoch + 1, proposal
    commit := commit.1, welcome := if add then commit.2 else "", add }

/-- The common end of `addMlsMember` and `removeMlsMember`: the session makes a proposal and its
commit and applies both, and only then the checks follow and the proposal is sent. -/
def startOperation (w : MlsWorker) (d : MlsDraw) (room groupID target commandID : String)
    (add : Bool) : MlsWorker × List Message :=
  match w.mlsGroups.lookup groupID, d.proposal, d.commit with
  | some state, some proposal, some commit =>
    let w := w.advanceSession groupID state
    if proposal = "" ∨ commit.1 = "" ∨ (add ∧ commit.2 = "") then (w, [])
    else if state.epoch.toNat = 2 ^ 64 - 1 then (w, [])
    else
      let pendingID := trimSpace commandID
      if pendingID = "" ∨ (w.pendingMlsOperations.lookup pendingID).isSome then (w, [])
      else
        let op := newOperation state room groupID target proposal commit add
        if d.sendFails (op.proposalMessage pendingID) then (w, [])
        else ({ w with pendingMlsOperations := w.pendingMlsOperations.insert pendingID op },
          [op.proposalMessage pendingID])
  | _, _, _ => (w, [])

/-- What `addMlsMember` checks before the session does anything. -/
def prepareAdd (w : MlsWorker) (d : MlsDraw) (room groupID target : String) : Option MlsWorker :=
  if w.session.isNone then none
  else if room = "" ∨ groupID = "" ∨ target = "" then none
  else if (w.mlsKeyPackages.lookup target).isNone then none
  else w.openGroup d room groupID

/-- `addMlsMember`. -/
def addMlsMember (w : MlsWorker) (d : MlsDraw) (room groupID targetUserCode commandID : String) :
    MlsWorker × List Message :=
  let target := QString.toLower (trimSpace targetUserCode)
  match w.prepareAdd d (trimSpace room) (trimSpace groupID) target with
  | none => (w, [])
  | some w => w.startOperation d (trimSpace room) (trimSpace groupID) target commandID true

/-- What `removeMlsMember` checks before the session does anything. -/
def prepareRemove (w : MlsWorker) (room groupID target : String) : Bool :=
  w.session.isSome && room != "" && groupID != "" && target != "" &&
    (w.mlsGroups.lookup groupID).any fun state => state.room == room

/-- `removeMlsMember`; unlike an add it leaves the case of the target's letters alone. -/
def removeMlsMember (w : MlsWorker) (d : MlsDraw) (room groupID targetUserCode commandID : String) :
    MlsWorker × List Message :=
  let target := trimSpace targetUserCode
  if w.prepareRemove (trimSpace room) (trimSpace groupID) target then
    w.startOperation d (trimSpace room) (trimSpace groupID) target commandID false
  else (w, [])

/-- `resetMlsState`. -/
def resetMlsState (w : MlsWorker) (d : MlsDraw) : MlsWorker :=
  { w with
    mlsKeyPackages := ∅
    mlsGroups := ∅
    pendingMlsOperations := ∅
    mlsClient := d.keyPackage.map some }

/-- The operation waits for its welcome to be acknowledged. -/
def awaitsWelcome (w : MlsWorker) (commandID : String) : Bool :=
  (w.pendingMlsOperations.lookup commandID).any fun op => op.phase == .welcome

/-- The frame that `resumePendingMlsOperations` sends for an operation. -/
def resumed (w : MlsWorker) (d : MlsDraw) (commandID : String) : List Message :=
  match w.pendingMlsOperations.lookup commandID with
  | none => []
  | some op =>
    match op.phase with
    | .proposal => d.send (op.proposalMessage commandID)
    | .commit => d.send (op.commitMessage commandID)
    | .welcome => []

/-- `resumePendingMlsOperations`, in the order of the command ids: operations that wait for a
welcome's acknowledgement are dropped, the others send their frame again. -/
def resumePendingMlsOperations (w : MlsWorker) (d : MlsDraw) : MlsWorker × List Message :=
  let keys := w.pendingMlsOperations.keys.insertionSort (· ≤ ·)
  ({ w with
      pendingMlsOperations := keys.foldl
        (fun ops id => if w.awaitsWelcome id then ops.erase id else ops) w.pendingMlsOperations },
    keys.flatMap (w.resumed d))

/-- A login has succeeded: the MLS part of `connectToServerWithRetries`. -/
def connected (w : MlsWorker) (d : MlsDraw) (c : ClientID) (preserveMlsState : Bool) :
    MlsWorker × List Message :=
  let w := { w with session := some c }
  if preserveMlsState then
    let w := if w.mlsClient.isNone then { w with mlsClient := d.keyPackage.map some } else w
    let (w', frames) := w.resumePendingMlsOperations d
    (w', w.publishMlsKeyPackage d ++ frames)
  else
    let w := w.resetMlsState d
    (w, w.publishMlsKeyPackage d)

/-- `connectToServer`, given the session that the login ended with: the state is kept for the same
user. -/
def connectToServer (w : MlsWorker) (d : MlsDraw) (username userCode : String)
    (login : Option ClientID) : MlsWorker × List Message :=
  let preserveMlsState := w.saved && QString.equalFold w.userCode userCode
  let w := { w with saved := true, username, userCode }
  match login with
  | some c => w.connected d c preserveMlsState
  | none => ({ w with session := none }, [])

/-- `retrySavedConnection`, given the session that the login ended with. -/
def retrySavedConnection (w : MlsWorker) (d : MlsDraw) (login : Option ClientID) :
    MlsWorker × List Message :=
  match login with
  | some c => w.connected d c true
  | none => ({ w with session := none }, [])

/-- The connection is closed. -/
def disconnect (w : MlsWorker) : MlsWorker := { w with session := none }

/-! ### The group of an attachment -/

/-- `attachmentCommandId + "-mls-fetch-%1"`. -/
def fetchCommand (attachmentCommandID : String) (n : ℕ) : String :=
  attachmentCommandID ++ "-mls-fetch-" ++ toString n

/-- `attachmentCommandId + "-mls-add-%1"`. -/
def addCommand (attachmentCommandID : String) (n : ℕ) : String :=
  attachmentCommandID ++ "-mls-add-" ++ toString n

/-- `failAttachmentMlsSetup`. -/
def failAttachmentMlsSetup (w : MlsWorker) (attachmentCommandID : String) : MlsWorker :=
  let drop := fun (m : AList fun _ : String => String) =>
    m.keys.foldl (fun l id => if m.lookup id = some attachmentCommandID then l.erase id else l) m
  { w with
    pendingAttachmentMlsSetups := w.pendingAttachmentMlsSetups.erase attachmentCommandID
    pendingAttachmentMlsFetches := drop w.pendingAttachmentMlsFetches
    pendingAttachmentMlsAdds := drop w.pendingAttachmentMlsAdds }

/-- `startNextAttachmentMlsSetup`: the key package of the next target is fetched; after the last
one the upload begins. -/
def startNextAttachmentMlsSetup (w : MlsWorker) (d : MlsDraw) (attachmentCommandID : String) :
    MlsWorker × List Message :=
  match w.pendingAttachmentMlsSetups.lookup attachmentCommandID with
  | none => (w, [])
  | some setup =>
    match setup.targetUsers[setup.nextTarget]? with
    | none =>
      match d.fileSize with
      | none => (w.failAttachmentMlsSetup attachmentCommandID, [])
      | some logicalSize =>
        ({ w with
            pendingAttachmentMlsSetups := w.pendingAttachmentMlsSetups.erase attachmentCommandID },
          if maxAttachmentLogicalBytes < logicalSize ∨ w.session.isNone ∨ setup.room = "" ∨
              logicalSize ≤ 0 then []
          else d.send { type := .attachmentInit, room := setup.room, logicalSize
                        commandID := attachmentCommandID })
    | some target =>
      let command := fetchCommand attachmentCommandID setup.nextTarget
      let w := { w with
        pendingAttachmentMlsFetches :=
          w.pendingAttachmentMlsFetches.insert command attachmentCommandID }
      (w, w.fetchMlsKeyPackage d setup.room target command)

/-- `attachment_mls_group_id`. -/
def attachmentMlsGroupID (platform : Platform) (room commandID : String) : String :=
  "lan-chat-attachment/" ++ platform.sha256Hex (trimSpace room ++ "\x00" ++ trimSpace commandID)

/-- `startAttachmentUpload`. -/
def startAttachmentUpload (w : MlsWorker) (platform : Platform) (d : MlsDraw) (room : String)
    (targetUsers : List String) (commandID : String) : MlsWorker × List Message :=
  let command := trimSpace commandID
  let groupID := attachmentMlsGroupID platform room commandID
  if d.fileSize.all (maxAttachmentLogicalBytes < ·) ∨ command = "" ∨ targetUsers = [] ∨
      d.keyPackage.isNone then (w, [])
  else
    let w := w.createGroup (trimSpace room) groupID
    { w with
      pendingAttachmentMlsSetups := w.pendingAttachmentMlsSetups.insert command
        ⟨trimSpace room, groupID, targetUsers, 0⟩ }.startNextAttachmentMlsSetup d command

/-- An add of the setup is done: the next target follows. -/
def continueAttachmentMlsSetup (w : MlsWorker) (d : MlsDraw) (commandID : String) :
    MlsWorker × List Message :=
  match w.pendingAttachmentMlsAdds.lookup commandID with
  | none => (w, [])
  | some attachmentCommandID =>
    let w := { w with pendingAttachmentMlsAdds := w.pendingAttachmentMlsAdds.erase commandID }
    match w.pendingAttachmentMlsSetups.lookup attachmentCommandID with
    | none => (w, [])
    | some setup =>
      { w with
        pendingAttachmentMlsSetups := w.pendingAttachmentMlsSetups.insert attachmentCommandID
          { setup with nextTarget := setup.nextTarget + 1 } }.startNextAttachmentMlsSetup d
        attachmentCommandID

/-! ### Messages of the server -/

/-- The key package of a user is kept. -/
def storeKeyPackage (w : MlsWorker) (m : Message) : MlsWorker :=
  { w with mlsKeyPackages := w.mlsKeyPackages.insert (QString.toLower m.targetUserCode) m.keyPackage }

/-- The add that follows a fetch of an attachment's setup. -/
def awaitAdd (w : MlsWorker) (fetchID addID attachmentCommandID : String) : MlsWorker :=
  { w with
    pendingAttachmentMlsFetches := w.pendingAttachmentMlsFetches.erase fetchID
    pendingAttachmentMlsAdds := w.pendingAttachmentMlsAdds.insert addID attachmentCommandID }

/-- A key package arrives; when it is one that an attachment waits for, its owner is added. -/
def receiveKeyPackage (w : MlsWorker) (d : MlsDraw) (m : Message) : MlsWorker × List Message :=
  let w := w.storeKeyPackage m
  match w.pendingAttachmentMlsFetches.lookup m.commandID with
  | none => (w, [])
  | some attachmentCommandID =>
    match w.pendingAttachmentMlsSetups.lookup attachmentCommandID with
    | none => ({ w with
        pendingAttachmentMlsFetches := w.pendingAttachmentMlsFetches.erase m.commandID }, [])
    | some setup =>
      let command := addCommand attachmentCommandID setup.nextTarget
      (w.awaitAdd m.commandID command attachmentCommandID).addMlsMember d setup.room setup.groupID
        m.targetUserCode command

/-- The proposal of a pending operation has been stored: its commit follows. -/
def receiveProposalAck (w : MlsWorker) (d : MlsDraw) (commandID : String) :
    MlsWorker × List Message :=
  match w.pendingMlsOperations.lookup commandID with
  | none => (w, [])
  | some op =>
    if op.phase ≠ .proposal then (w, [])
    else if d.sendFails (op.commitMessage commandID) then
      ({ w with pendingMlsOperations := w.pendingMlsOperations.erase commandID }, [])
    else
      ({ w with
          pendingMlsOperations :=
            w.pendingMlsOperations.insert commandID { op with phase := .commit } },
        [op.commitMessage commandID])

/-- The commit of another member: only the next epoch is taken. -/
def receiveCommit (w : MlsWorker) (d : MlsDraw) (m : Message) : MlsWorker :=
  match w.mlsGroups.lookup m.groupID with
  | none => w
  | some state =>
    if state.room ≠ m.room ∨ state.commits.lookup m.epoch = some m.commit ∨
        m.epoch ≠ state.epoch + 1 ∨ !d.accepts then w
    else
      { w with
        mlsGroups := w.mlsGroups.insert m.groupID
          { state with
            epoch := m.epoch
            session := state.session + 1
            commits := emplace state.commits m.epoch m.commit } }

/-- The commit of a pending operation has been stored: after an add its welcome follows. -/
def receiveCommitAck (w : MlsWorker) (platform : Platform) (d : MlsDraw) (commandID : String) :
    MlsWorker × List Message :=
  match w.pendingMlsOperations.lookup commandID with
  | none => (w, [])
  | some op =>
    if op.phase ≠ .commit then (w, [])
    else match w.mlsGroups.lookup op.group with
      | none =>
        ({ w with pendingMlsOperations := w.pendingMlsOperations.erase commandID }, [])
      | some state =>
        let w := { w with
          mlsGroups := w.mlsGroups.insert op.group
            { state with
              epoch := op.epoch
              commits := emplace state.commits op.epoch op.commit } }
        if op.add then
          if d.sendFails (op.welcomeMessage platform commandID) then
            ({ w with pendingMlsOperations := w.pendingMlsOperations.erase commandID }, [])
          else
            ({ w with
                pendingMlsOperations :=
                  w.pendingMlsOperations.insert commandID { op with phase := .welcome } },
              [op.welcomeMessage platform commandID])
        else
          { w with pendingMlsOperations := w.pendingMlsOperations.erase commandID
            }.continueAttachmentMlsSetup d commandID

/-- The welcome that an operation has sent is kept with its group. -/
def recordWelcome (w : MlsWorker) (op : PendingMlsOperation) : MlsWorker :=
  match w.mlsGroups.lookup op.group with
  | none => w
  | some state =>
    { w with
      mlsGroups := w.mlsGroups.insert op.group
        { state with welcomes := emplace state.welcomes op.epoch op.welcome } }

/-- The welcome of a pending operation has been stored. -/
def receiveWelcomeAck (w : MlsWorker) (d : MlsDraw) (commandID : String) :
    MlsWorker × List Message :=
  match w.pendingMlsOperations.lookup commandID with
  | none => (w, [])
  | some op =>
    if op.phase ≠ .welcome then (w, [])
    else
      { w.recordWelcome op with
        pendingMlsOperations := w.pendingMlsOperations.erase commandID
        }.continueAttachmentMlsSetup d commandID

/-- `welcomeAcceptCommandId`. -/
def welcomeAcceptCommandID (platform : Platform) (groupID : String) (epoch : UInt64) : String :=
  "wa-" ++ String.ofList ((platform.sha256Hex (groupID ++ "|" ++ formatUint epoch)).toList.take 56)

/-- `sendWelcomeAccept`; nothing is sent without a proposal id. -/
def sendWelcomeAccept (w : MlsWorker) (platform : Platform) (d : MlsDraw) (m : Message) :
    List Message :=
  if m.proposalID = "" ∨ m.welcome = "" ∨ w.session.isNone then []
  else d.send { type := .mlsGroupWelcomeAccept, userCode := w.username, targetUserCode := w.userCode
                room := m.room, groupID := m.groupID, epoch := m.epoch, proposalID := m.proposalID
                welcomeDigest := platform.sha256Hex m.welcome
                commandID := welcomeAcceptCommandID platform m.groupID m.epoch }

/-- A welcome of this user: a known one is accepted again, one for another group is joined with the
pending key package, which is replaced once the acceptance has been sent. -/
def receiveWelcome (w : MlsWorker) (platform : Platform) (d : MlsDraw) (m : Message) :
    MlsWorker × List Message :=
  if m.targetUserCode ≠ "" ∧ !QString.equalFold m.targetUserCode w.userCode then (w, [])
  else match w.mlsGroups.lookup m.groupID with
    | some state =>
      if state.room ≠ m.room then (w, [])
      else if state.welcomes.lookup m.epoch = some m.welcome then
        (w, w.sendWelcomeAccept platform d m)
      else (w, [])
    | none =>
      match w.mlsClient with
      | some (some _) =>
        if !d.accepts then (w, [])
        else
          let w := { w with
            mlsClient := some none
            mlsGroups := w.mlsGroups.insert m.groupID
              { room := m.room, epoch := m.epoch, session := m.epoch
                welcomes := emplace ∅ m.epoch m.welcome } }
          match w.sendWelcomeAccept platform d m with
          | [] => (w, [])
          | accept =>
            match d.keyPackage with
            | none => (w, accept)
            | some keyPackage =>
              let w := { w with mlsClient := some (some keyPackage) }
              (w, accept ++ w.publishMlsKeyPackage d)
      | _ => (w, [])

/-- The server refuses a command. -/
def receiveError (w : MlsWorker) (commandID : String) : MlsWorker :=
  let w := match w.pendingAttachmentMlsFetches.lookup commandID with
    | none => w
    | some attachmentCommandID =>
      { w with
        pendingAttachmentMlsFetches := w.pendingAttachmentMlsFetches.erase commandID
        }.failAttachmentMlsSetup attachmentCommandID
  let w := match w.pendingAttachmentMlsAdds.lookup commandID with
    | none => w
    | some attachmentCommandID =>
      { w with
        pendingAttachmentMlsAdds := w.pendingAttachmentMlsAdds.erase commandID
        }.failAttachmentMlsSetup attachmentCommandID
  { w with pendingMlsOperations := w.pendingMlsOperations.erase commandID }

/-- `processMlsMessage`; a relayed proposal goes to the session and changes nothing here. -/
def processMlsMessage (w : MlsWorker) (platform : Platform) (d : MlsDraw) (m : Message) :
    MlsWorker × List Message :=
  match m.type with
  | .mlsKeyPackageFetch => if m.keyPackage = "" then (w, []) else w.receiveKeyPackage d m
  | .mlsGroupProposal =>
    if m.proposal ≠ "" ∨ m.commandID = "" then (w, []) else w.receiveProposalAck d m.commandID
  | .mlsGroupWelcome =>
    if m.welcome ≠ "" then w.receiveWelcome platform d m
    else if m.commandID = "" then (w, [])
    else w.receiveWelcomeAck d m.commandID
  | .mlsGroupCommit =>
    if m.commit ≠ "" then (w.receiveCommit d m, [])
    else if m.commandID = "" then (w, [])
    else w.receiveCommitAck platform d m.commandID
  | .error => if m.commandID = "" then (w, []) else (w.receiveError m.commandID, [])
  | _ => (w, [])

end MlsWorker

/-- What happens to the worker: a slot runs, a timer retries, or a message arrives. -/
inductive MlsInput
  | connectToServer (username userCode : String) (login : Option ClientID)
  | retrySavedConnection (login : Option ClientID)
  | disconnect
  | fetchMlsKeyPackage (room targetUserCode commandID : String)
  | addMlsMember (room groupID targetUserCode commandID : String)
  | removeMlsMember (room groupID targetUserCode commandID : String)
  | startAttachmentUpload (room : String) (targetUsers : List String) (commandID : String)
  | receive (m : Message)

namespace MlsWorker

/-- One step of the worker. -/
def step (platform : Platform) (w : MlsWorker) (x : MlsInput × MlsDraw) : MlsWorker × List Message :=
  match x.1 with
  | .connectToServer username userCode login => w.connectToServer x.2 username userCode login
  | .retrySavedConnection login => w.retrySavedConnection x.2 login
  | .disconnect => (w.disconnect, [])
  | .fetchMlsKeyPackage room target commandID => (w, w.fetchMlsKeyPackage x.2 room target commandID)
  | .addMlsMember room groupID target commandID => w.addMlsMember x.2 room groupID target commandID
  | .removeMlsMember room groupID target commandID =>
    w.removeMlsMember x.2 room groupID target commandID
  | .startAttachmentUpload room targets commandID =>
    w.startAttachmentUpload platform x.2 room targets commandID
  | .receive m => if w.session.isSome then w.processMlsMessage platform x.2 m else (w, [])

end MlsWorker

end Gui

end LanChat
