import LanChat.Lib.Table
import LanChat.Message
import Mathlib.Data.List.Sort

/-!
# The MLS tables and the operations on them (`server-go/auth_store.go`)

The five `mls_*` tables and the seven operations that write them.  An operation runs in one
transaction: it returns the new store, or an error and leaves the store as it was, so a database
failure in the middle of it is the same as not running it.

* the legacy operations `saveMLSProposal`, `saveMLSCommit`, `saveMLSWelcome` know no sender;
* the strict ones `saveMLSProposalForMember`, `saveMLSCommitForMember`,
  `saveMLSWelcomeForMember`, `acceptMLSWelcomeForMember` check membership.

The `created_at` columns are left out: nothing reads them.  `member_snapshot` is the list that
its JSON text encodes.  An epoch is an `int64` column; values are bounded by `mlsEpochValue`, so
`currentEpoch + 1` does not wrap on any path that compares it equal to a requested epoch.
-/

namespace LanChat

open GoStrings

/-! ### Rows -/

/-- A row of `mls_groups`; `currentEpoch` starts at `-1`. -/
structure MlsGroup where
  groupID : String
  room : String
  currentEpoch : ℤ
  deriving DecidableEq, Repr

/-- A row of `mls_group_epochs`. -/
structure MlsEpoch where
  groupID : String
  epoch : ℤ
  proposalID : String
  commitData : String
  deriving DecidableEq, Repr

/-- The `action` of a proposal. -/
inductive MlsAction
  | add
  | remove
  deriving DecidableEq, Repr

/-- A row of `mls_group_proposals`. -/
structure MlsProposal where
  groupID : String
  epoch : ℤ
  proposalID : String
  proposalData : String
  proposalDigest : String
  action : MlsAction
  targetCode : String
  memberSnapshot : List String
  deriving DecidableEq, Repr

/-- A row of `mls_group_welcomes`. -/
structure MlsWelcome where
  groupID : String
  epoch : ℤ
  targetCode : String
  welcome : String
  proposalID : String
  welcomeDigest : String
  accepted : Bool
  deriving DecidableEq, Repr

/-- A row of `mls_group_members`. -/
structure MlsMember where
  groupID : String
  userCode : String
  active : Bool
  joinedEpoch : ℤ
  removedEpoch : Option ℤ
  deriving DecidableEq, Repr

/-- A row of `mls_key_packages`. -/
structure MlsKeyPackage where
  userCode : String
  keyPackage : String
  deriving DecidableEq, Repr

/-- `PRIMARY KEY(group_id, epoch)`. -/
def MlsEpoch.key (r : MlsEpoch) : String × ℤ := (r.groupID, r.epoch)
/-- `PRIMARY KEY(group_id, epoch, proposal_id)`. -/
def MlsProposal.key (r : MlsProposal) : String × ℤ × String := (r.groupID, r.epoch, r.proposalID)
/-- `UNIQUE(group_id, epoch, proposal_digest)`. -/
def MlsProposal.digestKey (r : MlsProposal) : String × ℤ × String :=
  (r.groupID, r.epoch, r.proposalDigest)
/-- `PRIMARY KEY(group_id, epoch, target_code)`. -/
def MlsWelcome.key (r : MlsWelcome) : String × ℤ × String := (r.groupID, r.epoch, r.targetCode)
/-- `PRIMARY KEY(group_id, user_code)`. -/
def MlsMember.key (r : MlsMember) : String × String := (r.groupID, r.userCode)

/-- Both constraints of `mls_group_proposals`. -/
def MlsProposal.clash (a b : MlsProposal) : Bool :=
  Table.keyClash MlsProposal.key a b || Table.keyClash MlsProposal.digestKey a b

/-- The MLS part of the database. -/
structure MlsStore where
  groups : Table (Table.keyClash MlsGroup.groupID)
  epochs : Table (Table.keyClash MlsEpoch.key)
  proposals : Table MlsProposal.clash
  welcomes : Table (Table.keyClash MlsWelcome.key)
  members : Table (Table.keyClash MlsMember.key)
  keyPackages : Table (Table.keyClash MlsKeyPackage.userCode)

namespace MlsStore

/-- The database right after `initialize`. -/
def empty : MlsStore :=
  ⟨Table.empty _, Table.empty _, Table.empty _, Table.empty _, Table.empty _, Table.empty _⟩

/-! ### Queries -/

/-- The row of a group. -/
def group? (s : MlsStore) (groupID : String) : Option MlsGroup :=
  s.groups.lookup MlsGroup.groupID groupID

/-- The commit logged for an epoch. -/
def epoch? (s : MlsStore) (groupID : String) (epoch : ℤ) : Option MlsEpoch :=
  s.epochs.lookup MlsEpoch.key (groupID, epoch)

/-- The proposal with an id. -/
def proposal? (s : MlsStore) (groupID : String) (epoch : ℤ) (proposalID : String) :
    Option MlsProposal :=
  s.proposals.lookup MlsProposal.key (groupID, epoch, proposalID)

/-- The welcome addressed to a user at an epoch. -/
def welcome? (s : MlsStore) (groupID : String) (epoch : ℤ) (targetCode : String) :
    Option MlsWelcome :=
  s.welcomes.lookup MlsWelcome.key (groupID, epoch, targetCode)

/-- The membership row of a user. -/
def member? (s : MlsStore) (groupID userCode : String) : Option MlsMember :=
  s.members.lookup MlsMember.key (groupID, userCode)

/-- `SELECT COUNT(1) … WHERE group_id=? AND user_code=? AND active=1` is not zero. -/
def isActive (s : MlsStore) (groupID userCode : String) : Bool :=
  s.members.rows.any fun m => m.groupID == groupID && m.userCode == userCode && m.active

/-- `MLSGroupMembers`: the active members, ordered by code. -/
def mlsGroupMembers (s : MlsStore) (groupID : String) : List String :=
  ((s.members.rows.filter fun m => m.groupID == groupID && m.active).map
    MlsMember.userCode).insertionSort (· ≤ ·)

/-- `MLSGroupHasControlState`. -/
def mlsGroupHasControlState (s : MlsStore) (groupID : String) : Bool :=
  (s.group? groupID).isSome

/-- Some proposal is stored for the epoch. -/
def hasProposal (s : MlsStore) (groupID : String) (epoch : ℤ) : Bool :=
  s.proposals.rows.any fun p => p.groupID == groupID && p.epoch == epoch

/-- The proposal with this payload digest. -/
def proposalByDigest? (s : MlsStore) (groupID : String) (epoch : ℤ) (digest : String) :
    Option MlsProposal :=
  s.proposals.lookup MlsProposal.digestKey (groupID, epoch, digest)

/-- `hasPendingMLSWelcome`: an unaccepted welcome that joins with its add proposal. -/
def hasPendingMLSWelcome (s : MlsStore) (groupID : String) : Bool :=
  s.welcomes.rows.any fun w => w.groupID == groupID && !w.accepted &&
    s.proposals.rows.any fun p =>
      p.groupID == w.groupID && p.epoch == w.epoch && p.proposalID == w.proposalID &&
        p.action == .add

/-- What `PendingMLSWelcomes` returns for one row. -/
structure PendingMlsWelcome where
  groupID : String
  room : String
  epoch : ℤ
  targetCode : String
  proposalID : String
  welcome : String
  welcomeDigest : String
  deriving DecidableEq, Repr

/-- One iteration of the loop of `PendingMLSWelcomes`, on a welcome and the group row that the
`LEFT JOIN` pairs it with. -/
def pendingRow (s : MlsStore) (w : MlsWelcome) : Except GoError PendingMlsWelcome :=
  match s.group? w.groupID with
  | none => .error .errMLSWelcomeStale
  | some g =>
    if w.epoch < 0 ∨ g.currentEpoch < 0 ∨ w.epoch ≠ g.currentEpoch then .error .errMLSWelcomeStale
    else .ok ⟨w.groupID, g.room, w.epoch, w.targetCode, w.proposalID, w.welcome, w.welcomeDigest⟩

/-- `PendingMLSWelcomes`. -/
def pendingMLSWelcomes (s : MlsStore) (targetCode : String) :
    Except GoError (List PendingMlsWelcome) := do
  let target ← normalizeUserCode targetCode
  ((s.welcomes.rows.filter fun w => w.targetCode == target && !w.accepted).insertionSort
    fun a b => a.groupID < b.groupID ∨ a.groupID = b.groupID ∧ a.epoch ≤ b.epoch).mapM
    s.pendingRow

/-- `FetchMLSKeyPackage`. -/
def fetchMLSKeyPackage (s : MlsStore) (userCode : String) : Except GoError String := do
  let code ← normalizeUserCode userCode
  match s.keyPackages.lookup MlsKeyPackage.userCode code with
  | some row => return row.keyPackage
  | none => .error .errNoRows

/-! ### Writes -/

/-- `PublishMLSKeyPackage`. -/
def publishMLSKeyPackage (s : MlsStore) (userCode keyPackage : String) :
    Except GoError MlsStore := do
  let code ← normalizeUserCode userCode
  validateOpaqueMLS "key package" keyPackage
  return { s with
    keyPackages := s.keyPackages.upsert ⟨code, keyPackage⟩ (fun r => { r with keyPackage })
      (Table.keepsKey_keyClash fun _ => rfl) }

/-- `mlsEpochValue`. -/
def mlsEpochValue (epoch : UInt64) : Except GoError ℤ :=
  if 2 ^ 63 ≤ epoch.toNat then .error (.text "MLS epoch is too large") else .ok epoch.toNat

/-- `INSERT`, with the error that the source wraps around a refused one. -/
def insertOr {α : Type} {clash : α → α → Bool} (t : Table clash) (r : α) (error : String) :
    Except GoError (Table clash) :=
  match t.insert? r with
  | some t' => .ok t'
  | none => .error (.text error)

/-- The group row is read, checked against the requested room and, when `epoch` is given, against
the requested epoch; a group without a row gets one at epoch `-1`. -/
def openGroup (s : MlsStore) (groupID room : String) (epoch : Option ℤ) (conflict : GoError)
    (error : String) : Except GoError MlsStore :=
  match s.group? groupID with
  | some g =>
    if room ≠ "" ∧ g.room ≠ "" ∧ room ≠ g.room then .error conflict
    else if ∃ e ∈ epoch, e < g.currentEpoch then .error .errMLSEpochRollback
    else .ok s
  | none => do
    let groups ← insertOr s.groups ⟨groupID, room, -1⟩ error
    return { s with groups }

/-- `UPDATE mls_groups SET … WHERE group_id = ?` for columns other than the key. -/
def updateGroup (s : MlsStore) (groupID : String) (f : MlsGroup → String × ℤ) : MlsStore :=
  { s with
    groups := s.groups.modify (fun g => g.groupID == groupID)
      (fun g => ⟨g.groupID, (f g).1, (f g).2⟩) (Table.keepsKey_keyClash fun _ => rfl) }

/-- `UPDATE mls_group_members SET active=0,removed_epoch=?` on an active row. -/
def deactivate (s : MlsStore) (groupID userCode : String) (epoch : ℤ) : MlsStore :=
  { s with
    members := s.members.modify
      (fun m => m.groupID == groupID && m.userCode == userCode && m.active)
      (fun m => { m with active := false, removedEpoch := some epoch })
      (Table.keepsKey_keyClash fun _ => rfl) }

/-- The creator of a group becomes its first member. -/
def initializeCreator (s : MlsStore) (groupID sender : String) : MlsStore :=
  { s with
    members := s.members.upsert ⟨groupID, sender, true, 0, none⟩
      (fun m => { m with active := true, removedEpoch := none })
      (Table.keepsKey_keyClash fun _ => rfl) }

/-- An accepted welcome activates its target at the welcome's epoch. -/
def activate (s : MlsStore) (groupID target : String) (epoch : ℤ) : MlsStore :=
  { s with
    members := s.members.upsert ⟨groupID, target, true, epoch, none⟩
      (fun m => { m with active := true, joinedEpoch := epoch, removedEpoch := none })
      (Table.keepsKey_keyClash fun _ => rfl) }

/-- `UPDATE mls_group_welcomes SET accepted=1` on the row with these identifiers. -/
def markAccepted (s : MlsStore) (groupID : String) (epoch : ℤ)
    (target proposalID welcomeDigest : String) : MlsStore :=
  { s with
    welcomes := s.welcomes.modify
      (fun w => w.groupID == groupID && w.epoch == epoch && w.targetCode == target &&
        w.proposalID == proposalID && w.welcomeDigest == welcomeDigest)
      (fun w => { w with accepted := true }) (Table.keepsKey_keyClash fun _ => rfl) }

/-! ### The legacy operations -/

/-- The transaction of `SaveMLSCommit`. -/
def saveMLSCommitTx (s : MlsStore) (groupID room : String) (epoch : ℤ) (commit : String) :
    Except GoError (Bool × MlsStore) :=
  match s.epoch? groupID epoch with
  | some existing => do
    require (existing.commitData == commit) .errMLSCommitConflict
    return (false, s)
  | none => do
    let s ← s.openGroup groupID room (some epoch) .errMLSCommitConflict "create MLS group"
    require (!s.hasPendingMLSWelcome groupID) .errMLSGroupPendingWelcome
    require (s.hasProposal groupID epoch) .errMLSProposalMissing
    let epochs ← insertOr s.epochs ⟨groupID, epoch, "", commit⟩ "save MLS commit"
    return (true, { s with epochs }.updateGroup groupID fun g =>
      (if g.room = "" then room else g.room,
        if g.currentEpoch < epoch then epoch else g.currentEpoch))

/-- `SaveMLSCommit`. -/
def saveMLSCommit (s : MlsStore) (groupID room : String) (epoch : UInt64) (commit : String) :
    Except GoError (Bool × MlsStore) := do
  validateMLSGroupID groupID
  validateOptionalRoom room
  validateOpaqueMLS "MLS group commit" commit
  let epochValue ← mlsEpochValue epoch
  s.saveMLSCommitTx groupID room epochValue commit

section Digests

variable (sha256Hex : String → String)

/-- The transaction of `SaveMLSProposal`; the columns `action`, `target_code` and
`member_snapshot` take their defaults. -/
def saveMLSProposalTx (s : MlsStore) (groupID room : String) (epoch : ℤ)
    (proposalID proposal : String) : Except GoError (Bool × MlsStore) :=
  match s.proposal? groupID epoch proposalID with
  | some existing => do
    require (existing.proposalData == proposal) .errMLSProposalConflict
    return (false, s)
  | none =>
    match s.proposalByDigest? groupID epoch (sha256Hex proposal) with
    | some _ => .ok (false, s)
    | none => do
      let s ← s.openGroup groupID room (some epoch) .errMLSProposalConflict
        "create MLS group for proposal"
      require (!s.hasPendingMLSWelcome groupID) .errMLSGroupPendingWelcome
      let proposals ← insertOr s.proposals
        ⟨groupID, epoch, proposalID, proposal, sha256Hex proposal, .add, "", []⟩
        "save MLS proposal"
      return (true, { s with proposals }.updateGroup groupID fun g =>
        (if g.room = "" then room else g.room, g.currentEpoch))

/-- `SaveMLSProposal`. -/
def saveMLSProposal (s : MlsStore) (groupID room : String) (epoch : UInt64)
    (proposalID proposal : String) : Except GoError (Bool × MlsStore) := do
  validateMLSGroupID groupID
  validateOptionalRoom room
  require (validProposalID proposalID)
    (.text "MLS proposal id must be valid and no longer than message limit")
  validateOpaqueMLS "MLS group proposal" proposal
  let epochValue ← mlsEpochValue epoch
  s.saveMLSProposalTx sha256Hex groupID room epochValue proposalID proposal

/-- The transaction of `SaveMLSWelcome`; the row is accepted from the start. -/
def saveMLSWelcomeTx (s : MlsStore) (groupID room : String) (epoch : ℤ)
    (target welcome : String) : Except GoError (Bool × MlsStore) :=
  match s.welcome? groupID epoch target with
  | some existing => do
    require (existing.welcome == welcome) .errMLSWelcomeConflict
    return (false, s)
  | none => do
    let s ← s.openGroup groupID room none .errMLSWelcomeConflict "create MLS group for welcome"
    let welcomes ← insertOr s.welcomes ⟨groupID, epoch, target, welcome, "", "", true⟩
      "save MLS welcome"
    return (true, { s with welcomes })

/-- `SaveMLSWelcome`. -/
def saveMLSWelcome (s : MlsStore) (groupID room : String) (epoch : UInt64)
    (targetCode welcome : String) : Except GoError (Bool × MlsStore) := do
  validateMLSGroupID groupID
  validateOptionalRoom room
  let target ← normalizeUserCode targetCode
  validateOpaqueMLS "MLS group welcome" welcome
  let epochValue ← mlsEpochValue epoch
  s.saveMLSWelcomeTx groupID room epochValue target welcome

/-! ### The strict operations -/

/-- `MLSGroupMembership`; the zero value is what the source returns when it has nothing to say. -/
structure MlsGroupMembership where
  action : Option MlsAction := none
  target : String := ""
  members : List String := []
  deriving DecidableEq, Repr

/-- `strings.ToLower(strings.TrimSpace(action))`, when it names an action. -/
def parseAction (action : String) : Except GoError MlsAction :=
  if toLower (trimSpace action) = "add" then .ok .add
  else if toLower (trimSpace action) = "remove" then .ok .remove
  else .error (.text "MLS proposal action must be add or remove")

/-- A group that never had an epoch and has no active member gets the sender as its creator;
`before` is the group row as the transaction found it. -/
def withCreator (s : MlsStore) (before : Option MlsGroup) (groupID sender : String) : MlsStore :=
  if (s.mlsGroupMembers groupID).isEmpty ∧ before.all (fun g => g.currentEpoch < 0) then
    s.initializeCreator groupID sender
  else s

/-- A member can be added only while not active and removed only while active. -/
def requireTarget (s : MlsStore) (groupID : String) (action : MlsAction) (target : String) :
    Except GoError Unit :=
  match action with
  | .add => require (!s.isActive groupID target) .errMLSMemberConflict
  | .remove => require (s.isActive groupID target) .errMLSGroupMemberRequired

/-- The transaction of `SaveMLSProposalForMember`. -/
def saveMLSProposalForMemberTx (s : MlsStore) (groupID room sender : String) (action : MlsAction)
    (target : String) (epoch : ℤ) (proposalID proposal : String) :
    Except GoError (Bool × MlsGroupMembership × MlsStore) :=
  match s.proposal? groupID epoch proposalID with
  | some existing => do
    require (s.isActive groupID sender) .errMLSGroupMemberRequired
    require (existing.proposalData == proposal && existing.action == action &&
      existing.targetCode == target) .errMLSProposalConflict
    return (false, ⟨some existing.action, existing.targetCode, existing.memberSnapshot⟩, s)
  | none =>
    match s.proposalByDigest? groupID epoch (sha256Hex proposal) with
    | some _ => .ok (false, {}, s)
    | none => do
      -- the room is not empty here, so the check of `openGroup` is the source's
      let opened ← s.openGroup groupID room (some epoch) .errMLSProposalConflict
        "create MLS group"
      require (!opened.hasPendingMLSWelcome groupID) .errMLSGroupPendingWelcome
      let joined := opened.withCreator (s.group? groupID) groupID sender
      require (joined.isActive groupID sender) .errMLSGroupMemberRequired
      joined.requireTarget groupID action target
      let members := joined.mlsGroupMembers groupID
      let proposals ← insertOr joined.proposals
        ⟨groupID, epoch, proposalID, proposal, sha256Hex proposal, action, target, members⟩
        "save MLS member proposal"
      return (true, ⟨some action, target, members⟩, { joined with proposals })

/-- `SaveMLSProposalForMember`. -/
def saveMLSProposalForMember (s : MlsStore) (groupID room senderCode action targetCode : String)
    (epoch : UInt64) (proposalID proposal : String) :
    Except GoError (Bool × MlsGroupMembership × MlsStore) := do
  validateMLSGroupID groupID
  validateRoomName room
  let sender ← normalizeUserCode senderCode
  let action ← parseAction action
  let target ← normalizeUserCode targetCode
  require (validProposalID proposalID)
    (.text "MLS proposal id must be valid and no longer than message limit")
  validateOpaqueMLS "MLS group proposal" proposal
  let epochValue ← mlsEpochValue epoch
  s.saveMLSProposalForMemberTx sha256Hex groupID room sender action target epochValue proposalID
    proposal

/-- The proposal that a strict commit applies: the one with its id, or without an id the first by
proposal id. -/
def proposalForCommit (s : MlsStore) (groupID : String) (epoch : ℤ) (proposalID : String) :
    Option MlsProposal :=
  if proposalID = "" then
    ((s.proposals.rows.filter fun p => p.groupID == groupID && p.epoch == epoch).insertionSort
      fun a b => a.proposalID ≤ b.proposalID).head?
  else s.proposal? groupID epoch proposalID

/-- A committed remove proposal deactivates its target. -/
def applyProposal (s : MlsStore) (p : MlsProposal) (groupID : String) (epoch : ℤ) : MlsStore :=
  match p.action with
  | .remove => s.deactivate groupID p.targetCode epoch
  | .add => s

/-- The transaction of `SaveMLSCommitForMember`. -/
def saveMLSCommitForMemberTx (s : MlsStore) (groupID room sender proposalID : String) (epoch : ℤ)
    (commit : String) : Except GoError (Bool × MlsGroupMembership × MlsStore) :=
  match s.epoch? groupID epoch with
  | some existing => do
    require (s.isActive groupID sender) .errMLSGroupMemberRequired
    require (existing.commitData == commit && existing.proposalID == proposalID)
      .errMLSCommitConflict
    return (false, {}, s)
  | none =>
    match s.group? groupID with
    | none => .error .errMLSGroupMemberRequired
    | some g => do
      require (g.room == room) .errMLSCommitConflict
      require (!s.hasPendingMLSWelcome groupID) .errMLSGroupPendingWelcome
      if 0 ≤ g.currentEpoch ∧ epoch ≠ g.currentEpoch + 1 then
        .error (if epoch < g.currentEpoch then .errMLSEpochRollback else .errMLSCommitConflict)
      else do
        require (s.isActive groupID sender) .errMLSGroupMemberRequired
        match s.proposalForCommit groupID epoch proposalID with
        | none => .error .errMLSProposalMissing
        | some p => do
          require (p.memberSnapshot.all (· != "")) .errMLSMemberConflict
          require (proposalID != "") .errMLSProposalMissing
          let epochs ← insertOr s.epochs ⟨groupID, epoch, proposalID, commit⟩
            "save MLS member commit"
          let advanced := { s with epochs }.updateGroup groupID fun g => (g.room, epoch)
          return (true, ⟨some p.action, p.targetCode, p.memberSnapshot⟩,
            advanced.applyProposal p groupID epoch)

/-- `SaveMLSCommitForMember`. -/
def saveMLSCommitForMember (s : MlsStore) (groupID room senderCode proposalID : String)
    (epoch : UInt64) (commit : String) :
    Except GoError (Bool × MlsGroupMembership × MlsStore) := do
  validateMLSGroupID groupID
  validateRoomName room
  let sender ← normalizeUserCode senderCode
  validateOpaqueMLS "MLS group commit" commit
  let epochValue ← mlsEpochValue epoch
  s.saveMLSCommitForMemberTx groupID room sender proposalID epochValue commit

/-- The transaction of `SaveMLSWelcomeForMember`. -/
def saveMLSWelcomeForMemberTx (s : MlsStore) (groupID room sender : String) (epoch : ℤ)
    (target proposalID welcome : String) : Except GoError (Bool × MlsStore) :=
  match s.group? groupID with
  | none => .error .errMLSGroupMemberRequired
  | some g => do
    require (g.room == room && g.currentEpoch == epoch) .errMLSWelcomeConflict
    require (s.isActive groupID sender) .errMLSGroupMemberRequired
    match s.proposal? groupID epoch proposalID with
    | none => .error .errMLSProposalMissing
    | some p => do
      require (p.action == .add && p.targetCode == target) .errMLSMemberConflict
      match s.epoch? groupID epoch with
      | none => .error .errMLSProposalMissing
      | some r => do
        require (r.proposalID == proposalID) .errMLSProposalMissing
        match s.welcome? groupID epoch target with
        | some w => do
          require (w.welcome == welcome && w.welcomeDigest == sha256Hex welcome &&
            w.proposalID == proposalID) .errMLSWelcomeConflict
          return (false, s)
        | none => do
          let welcomes ← insertOr s.welcomes
            ⟨groupID, epoch, target, welcome, proposalID, sha256Hex welcome, false⟩
            "save MLS member welcome"
          return (true, { s with welcomes })

/-- `SaveMLSWelcomeForMember`. -/
def saveMLSWelcomeForMember (s : MlsStore) (groupID room senderCode : String) (epoch : UInt64)
    (targetCode proposalID welcome : String) : Except GoError (Bool × MlsStore) := do
  validateMLSGroupID groupID
  validateRoomName room
  let sender ← normalizeUserCode senderCode
  let target ← normalizeUserCode targetCode
  validateOpaqueMLS "MLS group welcome" welcome
  require (validProposalID proposalID) .errMLSProposalMissing
  let epochValue ← mlsEpochValue epoch
  s.saveMLSWelcomeForMemberTx sha256Hex groupID room sender epochValue target proposalID welcome

end Digests

/-- The transaction of `AcceptMLSWelcomeForMember`. -/
def acceptMLSWelcomeForMemberTx (s : MlsStore) (groupID room target : String) (epoch : ℤ)
    (proposalID welcomeDigest : String) : Except GoError (Bool × MlsStore) :=
  match s.welcome? groupID epoch target with
  | none => .error .errMLSWelcomeConflict
  | some w => do
    require (w.proposalID == proposalID && w.welcomeDigest == welcomeDigest)
      .errMLSWelcomeConflict
    if w.accepted then .ok (false, s)
    else match s.group? groupID with
      | none => .error .errMLSGroupMemberRequired
      | some g => do
        require (g.room == room && g.currentEpoch == epoch) .errMLSWelcomeConflict
        return (true, (s.markAccepted groupID epoch target proposalID welcomeDigest).activate
          groupID target epoch)

/-- `AcceptMLSWelcomeForMember`. -/
def acceptMLSWelcomeForMember (s : MlsStore) (groupID room targetCode : String) (epoch : UInt64)
    (proposalID welcomeDigest : String) : Except GoError (Bool × MlsStore) := do
  validateMLSGroupID groupID
  validateRoomName room
  let target ← normalizeUserCode targetCode
  require (proposalID != "" && welcomeDigest != "") .errMLSProposalMissing
  let epochValue ← mlsEpochValue epoch
  s.acceptMLSWelcomeForMemberTx groupID room target epochValue proposalID welcomeDigest

end MlsStore

end LanChat
