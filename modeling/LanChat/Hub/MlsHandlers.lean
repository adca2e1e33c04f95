import LanChat.Hub.State

/-!
# The MLS handlers (`server-go/hub.go`)

Each request runs at most one store operation, tells peers about what was newly stored, and
acknowledges the sender.  A request without a proposal id (commit), without action and target
(proposal) or for a group without control state (welcome) takes the legacy path.
-/

namespace LanChat

namespace Hub

open GoStrings Registry

/-- The text of an action in a message. -/
def actionText : MlsAction → String
  | .add => "add"
  | .remove => "remove"

/-- `"stored"` or `"duplicate"`. -/
def storedText (inserted : Bool) : String := if inserted then "stored" else "duplicate"

/-- The MLS part of the database after an operation. -/
def withMls (h : Hub) (mls : MlsStore) : Hub := { h with db := { h.db with mls } }

/-- The sender is connected and there is a store; else it is told (`…service unavailable`). -/
def serviceReady (h : Hub) (c : ClientID) : Bool := h.registry.isConnected c && h.offlineStore

/-- `canAccessMLSRoom`. -/
def canAccessMLSRoom (h : Hub) (env : Env) (c : ClientID) (obj : Client)
    (targetCode room : String) : Bool :=
  if !h.registry.isConnected c then false
  else if targetCode = obj.normalizedCode then true
  else if room = "" then false
  else match h.roomDefinitions.lookup room with
    | none => false
    | some definition =>
      if !h.registry.inRoom room c then false
      else if definition.allowed.contains targetCode then true
      else if !definition.isPrivate && h.offlineStore && !env.fails .hasUserCode &&
          h.db.chat.hasUserCode targetCode then true
      else match h.registry.active? targetCode with
        | none => false
        | some target =>
          (h.registry.client? target).any (fun o => o.room == room) && h.registry.inRoom room target

/-- `request.Room`, else the room of the session. -/
def requestRoom (room : String) (obj : Client) : String := if room = "" then obj.room else room

/-- `if member := h.ActiveCodes[code]; member != nil { h.deliver(member, …) }`. -/
def tellCode (r : Registry) (code : String) (message : Message) : Registry :=
  match r.active? code with
  | some c => r.tell c message
  | none => r

/-- A message to the members of a snapshot other than the sender. -/
def tellMembers (r : Registry) (members : List String) (senderCode : String)
    (message : Message) : Registry :=
  (members.filter (· ≠ senderCode)).foldl (fun r code => tellCode r code message) r

/-- A message to the other clients of a room. -/
def tellRoom (r : Registry) (env : Env) (room : String) (sender : ClientID) (message : Message) :
    Registry :=
  r.tellAll ((env.visit (r.members room)).filter (· ≠ sender)) message

/-! ### Key packages -/

/-- `handleMLSKeyPackagePublish`. -/
def handleMLSKeyPackagePublish (h : Hub) (env : Env) (c : ClientID)
    (keyPackage commandID : String) : Hub :=
  match h.registry.client? c with
  | none => h
  | some obj =>
    if !h.serviceReady c then h.deliverError c "MLS key package service unavailable" "" commandID
    else match env.call .publishMLSKeyPackage
        (h.db.mls.publishMLSKeyPackage obj.normalizedCode keyPackage) with
      | .error _ => h.deliverError c "Invalid MLS key package" "" commandID
      | .ok mls => (h.withMls mls).tell c
          { type := .mlsKeyPackagePublish, userCode := obj.userCode, content := "stored", commandID }

/-- `handleMLSKeyPackageFetch`. -/
def handleMLSKeyPackageFetch (h : Hub) (env : Env) (c : ClientID)
    (targetCode room commandID : String) : Hub :=
  match h.registry.client? c with
  | none => h
  | some obj =>
    if !h.serviceReady c then h.deliverError c "MLS key package service unavailable" "" commandID
    else match normalizeUserCode targetCode with
      | .error _ => h.deliverError c "Invalid MLS key package target" "" commandID
      | .ok target =>
        let room := if room = "" ∧ target ≠ obj.normalizedCode then obj.room else room
        if !h.canAccessMLSRoom env c obj target room then
          h.deliverError c "MLS key package access denied" "" commandID
        else match env.call .fetchMLSKeyPackage (h.db.mls.fetchMLSKeyPackage target) with
          | .error _ => h.deliverError c "MLS key package not found" "" commandID
          | .ok keyPackage => h.tell c
              { type := .mlsKeyPackageFetch, targetUserCode := target, keyPackage, room, commandID }

/-! ### Commits -/

/-- The fields of `MLSGroupCommitRequest` after the sender. -/
structure CommitRequest where
  groupID : String
  room : String
  epoch : UInt64
  commit : String
  proposalID : String
  commandID : String
  deriving DecidableEq, Repr

/-- The error text of a strict commit. -/
def commitForMemberError : GoError → String
  | .errMLSGroupMemberRequired => "MLS group commit access denied"
  | .errMLSEpochRollback => "MLS group epoch rollback"
  | .errMLSCommitConflict => "MLS group commit conflict"
  | .errMLSProposalMissing => "MLS group commit requires an accepted proposal"
  | .errMLSGroupPendingWelcome => "MLS group has pending welcome"
  | _ => "Invalid MLS group commit"

/-- The error text of a legacy commit. -/
def commitError : GoError → String
  | .errMLSEpochRollback => "MLS group epoch rollback"
  | .errMLSCommitConflict => "MLS group commit conflict"
  | .errMLSProposalMissing => "MLS group commit requires an accepted proposal"
  | _ => "Invalid MLS group commit"

/-- The copy of a commit that peers get. -/
def commitRelay (q : CommitRequest) (room : String) : Message :=
  { type := .mlsGroupCommit, groupID := q.groupID, room, epoch := q.epoch, commit := q.commit
    proposalID := q.proposalID }

/-- The acknowledgement of a commit: it never carries the commit. -/
def commitAck (q : CommitRequest) (room : String) (inserted : Bool) : Message :=
  { type := .mlsGroupCommit, groupID := q.groupID, room, epoch := q.epoch
    content := storedText inserted, commandID := q.commandID, proposalID := q.proposalID }

/-- The strict branch of `handleMLSGroupCommit`. -/
def commitForMember (h : Hub) (env : Env) (c : ClientID) (obj : Client) (q : CommitRequest) : Hub :=
  let room := requestRoom q.room obj
  match env.call .mlsCommit (h.db.mls.saveMLSCommitForMember q.groupID room obj.normalizedCode
      q.proposalID q.epoch q.commit) with
  | .error e => h.deliverError c (commitForMemberError e) "" q.commandID
  | .ok (inserted, membership, mls) =>
    let members := if inserted then membership.members else []
    (h.withMls mls).onRegistry fun r =>
      (tellMembers r members obj.normalizedCode (commitRelay q room)).tell c
        (commitAck q room inserted)

/-- The legacy branch of `handleMLSGroupCommit`. -/
def commitLegacy (h : Hub) (env : Env) (c : ClientID) (obj : Client) (q : CommitRequest) : Hub :=
  let room := requestRoom q.room obj
  if !h.canAccessMLSRoom env c obj obj.normalizedCode room || !h.registry.inRoom room c then
    h.deliverError c "MLS group commit access denied" "" q.commandID
  else match env.call .mlsCommit (h.db.mls.saveMLSCommit q.groupID room q.epoch q.commit) with
    | .error e => h.deliverError c (commitError e) "" q.commandID
    | .ok (inserted, mls) =>
      (h.withMls mls).onRegistry fun r =>
        (if inserted then tellRoom r env room c (commitRelay q room) else r).tell c
          (commitAck q room inserted)

/-- `handleMLSGroupCommit`. -/
def handleMLSGroupCommit (h : Hub) (env : Env) (c : ClientID) (q : CommitRequest) : Hub :=
  match h.registry.client? c with
  | none => h
  | some obj =>
    if !h.serviceReady c then h.deliverError c "MLS group service unavailable" "" q.commandID
    else if q.proposalID ≠ "" then h.commitForMember env c obj q
    else h.commitLegacy env c obj q

/-! ### Proposals -/

/-- The fields of `MLSGroupProposalRequest` after the sender. -/
structure ProposalRequest where
  groupID : String
  room : String
  epoch : UInt64
  proposalID : String
  action : String
  targetCode : String
  proposal : String
  commandID : String
  deriving DecidableEq, Repr

/-- The error text of a strict proposal. -/
def proposalForMemberError : GoError → String
  | .errMLSGroupMemberRequired => "MLS group proposal access denied"
  | .errMLSEpochRollback => "MLS group proposal epoch rollback"
  | .errMLSProposalConflict | .errMLSMemberConflict => "MLS group proposal conflict"
  | .errMLSGroupPendingWelcome => "MLS group has pending welcome"
  | _ => "Invalid MLS group proposal"

/-- The error text of a legacy proposal. -/
def proposalError : GoError → String
  | .errMLSEpochRollback => "MLS group proposal epoch rollback"
  | .errMLSProposalConflict => "MLS group proposal conflict"
  | _ => "Invalid MLS group proposal"

/-- The acknowledgement of a proposal. -/
def proposalAck (q : ProposalRequest) (room : String) (inserted : Bool) : Message :=
  { type := .mlsGroupProposal, groupID := q.groupID, room, epoch := q.epoch
    proposalID := q.proposalID, content := storedText inserted, commandID := q.commandID }

/-- The copy of a proposal that peers get. -/
def proposalRelay (q : ProposalRequest) (room target : String) (action : Option MlsAction) :
    Message :=
  { type := .mlsGroupProposal, groupID := q.groupID, room, epoch := q.epoch
    proposalID := q.proposalID, proposal := q.proposal, targetUserCode := target
    content := action.elim "" actionText }

/-- The strict branch of `handleMLSGroupProposal`. -/
def proposeForMember (h : Hub) (platform : Platform) (env : Env) (c : ClientID) (obj : Client)
    (q : ProposalRequest) : Hub :=
  let room := requestRoom q.room obj
  match normalizeUserCode q.targetCode with
  | .error _ => h.deliverError c "MLS group proposal access denied" "" q.commandID
  | .ok target =>
    if q.action = "add" ∧ !h.canAccessMLSRoom env c obj target room then
      h.deliverError c "MLS group proposal access denied" "" q.commandID
    else match env.call .mlsProposal (h.db.mls.saveMLSProposalForMember platform.sha256Hex
        q.groupID room obj.normalizedCode q.action target q.epoch q.proposalID q.proposal) with
      | .error e => h.deliverError c (proposalForMemberError e) "" q.commandID
      | .ok (inserted, membership, mls) =>
        let members := if inserted then membership.members else []
        (h.withMls mls).onRegistry fun r =>
          (tellMembers r members obj.normalizedCode
            (proposalRelay q room target membership.action)).tell c (proposalAck q room inserted)

/-- The legacy branch of `handleMLSGroupProposal`. -/
def proposeLegacy (h : Hub) (platform : Platform) (env : Env) (c : ClientID) (obj : Client)
    (q : ProposalRequest) : Hub :=
  let room := requestRoom q.room obj
  if !h.canAccessMLSRoom env c obj obj.normalizedCode room || !h.registry.inRoom room c then
    h.deliverError c "MLS group proposal access denied" "" q.commandID
  else match env.call .mlsProposal (h.db.mls.saveMLSProposal platform.sha256Hex q.groupID room
      q.epoch q.proposalID q.proposal) with
    | .error e => h.deliverError c (proposalError e) "" q.commandID
    | .ok (inserted, mls) =>
      (h.withMls mls).onRegistry fun r =>
        (if inserted then tellRoom r env room c (proposalRelay q room "" none) else r).tell c
          (proposalAck q room inserted)

/-- `handleMLSGroupProposal`. -/
def handleMLSGroupProposal (h : Hub) (platform : Platform) (env : Env) (c : ClientID)
    (q : ProposalRequest) : Hub :=
  match h.registry.client? c with
  | none => h
  | some obj =>
    if !h.serviceReady c then h.deliverError c "MLS group service unavailable" "" q.commandID
    else if q.action ≠ "" ∨ q.targetCode ≠ "" then h.proposeForMember platform env c obj q
    else h.proposeLegacy platform env c obj q

/-! ### Welcomes -/

/-- The fields of `MLSGroupWelcomeRequest` after the sender. -/
structure WelcomeRequest where
  groupID : String
  room : String
  epoch : UInt64
  proposalID : String
  welcomeDigest : String
  targetCode : String
  welcome : String
  commandID : String
  deriving DecidableEq, Repr

/-- The error text of a strict welcome. -/
def welcomeForMemberError : GoError → String
  | .errMLSGroupMemberRequired => "MLS group welcome access denied"
  | .errMLSProposalMissing | .errMLSMemberConflict =>
    "MLS group welcome requires a matching add commit"
  | .errMLSWelcomeConflict => "MLS group welcome conflict"
  | _ => "Invalid MLS group welcome"

/-- The error text of a legacy welcome. -/
def welcomeError : GoError → String
  | .errMLSWelcomeConflict => "MLS group welcome conflict"
  | _ => "Invalid MLS group welcome"

/-- The strict branch of `handleMLSGroupWelcome`. -/
def welcomeForMember (h : Hub) (platform : Platform) (env : Env) (c : ClientID) (obj : Client)
    (target : String) (q : WelcomeRequest) : Hub :=
  let room := requestRoom q.room obj
  let digest := platform.sha256Hex q.welcome
  if q.proposalID = "" ∨ !equalFold q.welcomeDigest digest ∨
      !h.canAccessMLSRoom env c obj target room then
    h.deliverError c "MLS group welcome access denied" "" q.commandID
  else match env.call .mlsWelcome (h.db.mls.saveMLSWelcomeForMember platform.sha256Hex q.groupID
      room obj.normalizedCode q.epoch target q.proposalID q.welcome) with
    | .error e => h.deliverError c (welcomeForMemberError e) "" q.commandID
    | .ok (inserted, mls) =>
      (h.withMls mls).onRegistry fun r =>
        (tellCode r target
          { type := .mlsGroupWelcome, groupID := q.groupID, room, epoch := q.epoch
            proposalID := q.proposalID, welcomeDigest := digest, targetUserCode := target
            welcome := q.welcome }).tell c
          { type := .mlsGroupWelcome, groupID := q.groupID, room, epoch := q.epoch
            proposalID := q.proposalID, welcomeDigest := q.welcomeDigest
            targetUserCode := target, content := storedText inserted, commandID := q.commandID }

/-- The legacy branch of `handleMLSGroupWelcome`. -/
def welcomeLegacy (h : Hub) (env : Env) (c : ClientID) (obj : Client) (target : String)
    (q : WelcomeRequest) : Hub :=
  let room := requestRoom q.room obj
  if !h.canAccessMLSRoom env c obj target room || !h.registry.inRoom room c then
    h.deliverError c "MLS group welcome access denied" "" q.commandID
  else match env.call .mlsWelcome
      (h.db.mls.saveMLSWelcome q.groupID room q.epoch target q.welcome) with
    | .error e => h.deliverError c (welcomeError e) "" q.commandID
    | .ok (inserted, mls) =>
      (h.withMls mls).onRegistry fun r =>
        (tellCode r target
          { type := .mlsGroupWelcome, groupID := q.groupID, room, epoch := q.epoch
            targetUserCode := target, welcome := q.welcome }).tell c
          { type := .mlsGroupWelcome, groupID := q.groupID, room, epoch := q.epoch
            targetUserCode := target, content := storedText inserted, commandID := q.commandID }

/-- `handleMLSGroupWelcome`. -/
def handleMLSGroupWelcome (h : Hub) (platform : Platform) (env : Env) (c : ClientID)
    (q : WelcomeRequest) : Hub :=
  match h.registry.client? c with
  | none => h
  | some obj =>
    if !h.serviceReady c then h.deliverError c "MLS group service unavailable" "" q.commandID
    else match normalizeUserCode q.targetCode with
      | .error _ => h.deliverError c "Invalid MLS welcome target" "" q.commandID
      | .ok target =>
        if !env.fails .mlsControlState && (validateMLSGroupID q.groupID).isOk &&
            h.db.mls.mlsGroupHasControlState q.groupID then
          h.welcomeForMember platform env c obj target q
        else h.welcomeLegacy env c obj target q

/-- The fields of `MLSGroupWelcomeAcceptRequest` after the sender. -/
structure AcceptRequest where
  groupID : String
  room : String
  epoch : UInt64
  proposalID : String
  welcomeDigest : String
  targetCode : String
  commandID : String
  deriving DecidableEq, Repr

/-- The error text of an accept. -/
def acceptError : GoError → String
  | .errMLSWelcomeConflict => "MLS welcome accept conflict"
  | _ => "Invalid MLS welcome accept"

/-- `handleMLSGroupWelcomeAccept`. -/
def handleMLSGroupWelcomeAccept (h : Hub) (env : Env) (c : ClientID) (q : AcceptRequest) : Hub :=
  match h.registry.client? c with
  | none => h
  | some obj =>
    if !h.serviceReady c then h.deliverError c "MLS group service unavailable" "" q.commandID
    else
      let room := requestRoom q.room obj
      match normalizeUserCode q.targetCode with
      | .error _ => h.deliverError c "MLS welcome accept identity denied" "" q.commandID
      | .ok target =>
        if target ≠ obj.normalizedCode then
          h.deliverError c "MLS welcome accept identity denied" "" q.commandID
        else match env.call .mlsAccept (h.db.mls.acceptMLSWelcomeForMember q.groupID room target
            q.epoch q.proposalID q.welcomeDigest) with
          | .error e => h.deliverError c (acceptError e) "" q.commandID
          | .ok (accepted, mls) => (h.withMls mls).tell c
              { type := .mlsGroupWelcomeAccept, groupID := q.groupID, room, epoch := q.epoch
                proposalID := q.proposalID, welcomeDigest := q.welcomeDigest
                content := if accepted then "activated" else "duplicate"
                commandID := q.commandID }

end Hub

end LanChat
