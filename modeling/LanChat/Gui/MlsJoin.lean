import LanChat.Gui.MlsWelcome
import LanChat.Hub.Queues

/-!
# Which welcomes can be joined

A key package is a token, and a welcome can be joined by the client that still has pending the
token the welcome was made from.  `madeFrom` names that token.

* `Held`: the welcomes that exist, pending with an operation, on their way to the server or stored;
* `Single`: welcomes made from one token are for one group;
* `Unspent`: the worker still has the token, or has joined a stored welcome made from it;
* `welcome_joinable`, and `welcome_not_joinable` for two adds with one key package: the server hands
  a key package out again and again, the client replaces it after the first join.
-/

namespace LanChat

namespace Gui

open GoStrings EventMachine MlsStore Hub

namespace MlsWorker

variable {w w' : MlsWorker} {d : MlsDraw} {platform : Platform}

/-- The connection and the pending key package are the same. -/
def SameClient (w w' : MlsWorker) : Prop := w'.session = w.session ∧ w'.mlsClient = w.mlsClient

theorem SameClient.refl (w : MlsWorker) : SameClient w w := ⟨rfl, rfl⟩

theorem SameClient.trans {v : MlsWorker} (h : SameClient w v) (h' : SameClient v w') :
    SameClient w w' := ⟨h'.1.trans h.1, h'.2.trans h.2⟩

theorem sameClient_startOperation {room g target commandID : String} {add : Bool} :
    SameClient w (w.startOperation d room g target commandID add).1 := by
  unfold startOperation
  split
  · dsimp only
    split
    · exact ⟨rfl, rfl⟩
    split
    · exact ⟨rfl, rfl⟩
    split
    · exact ⟨rfl, rfl⟩
    split
    · exact ⟨rfl, rfl⟩
    · exact ⟨rfl, rfl⟩
  · exact .refl w

theorem sameClient_addMlsMember {room g target commandID : String} :
    SameClient w (w.addMlsMember d room g target commandID).1 := by
  unfold addMlsMember
  dsimp only
  split
  · exact .refl w
  · rename_i w' hw
    refine SameClient.trans ?_ sameClient_startOperation
    rcases prepareAdd_eq_some hw with rfl | rfl
    · exact .refl _
    · exact ⟨rfl, rfl⟩

theorem sameClient_startNextAttachmentMlsSetup (attachmentCommandID : String) :
    SameClient w (w.startNextAttachmentMlsSetup d attachmentCommandID).1 := by
  unfold startNextAttachmentMlsSetup
  split
  · exact .refl w
  split
  · split
    · exact ⟨rfl, rfl⟩
    · exact ⟨rfl, rfl⟩
  · exact ⟨rfl, rfl⟩

theorem sameClient_continueAttachmentMlsSetup (commandID : String) :
    SameClient w (w.continueAttachmentMlsSetup d commandID).1 := by
  unfold continueAttachmentMlsSetup
  split
  · exact .refl w
  dsimp only
  split
  · exact ⟨rfl, rfl⟩
  · exact SameClient.trans ⟨rfl, rfl⟩ (sameClient_startNextAttachmentMlsSetup _)

theorem sameClient_receiveKeyPackage (m : Message) :
    SameClient w (w.receiveKeyPackage d m).1 := by
  unfold receiveKeyPackage
  dsimp only
  split
  · exact ⟨rfl, rfl⟩
  rename_i id _
  split
  · exact ⟨rfl, rfl⟩
  · rename_i setup _
    have hsame : SameClient w ((w.storeKeyPackage m).awaitAdd m.commandID
        (addCommand id setup.nextTarget) id) := ⟨rfl, rfl⟩
    exact hsame.trans sameClient_addMlsMember

theorem sameClient_receiveProposalAck (commandID : String) :
    SameClient w (w.receiveProposalAck d commandID).1 := by
  unfold receiveProposalAck
  split
  · exact .refl w
  split
  · exact .refl w
  split
  · exact ⟨rfl, rfl⟩
  · exact ⟨rfl, rfl⟩

theorem sameClient_receiveCommit (m : Message) : SameClient w (w.receiveCommit d m) := by
  unfold receiveCommit
  split
  · exact .refl w
  split
  · exact .refl w
  · exact ⟨rfl, rfl⟩

theorem sameClient_receiveCommitAck (commandID : String) :
    SameClient w (w.receiveCommitAck platform d commandID).1 := by
  unfold receiveCommitAck
  split
  · exact .refl w
  split
  · exact .refl w
  split
  · exact ⟨rfl, rfl⟩
  dsimp only
  split
  · split
    · exact ⟨rfl, rfl⟩
    · exact ⟨rfl, rfl⟩
  · exact SameClient.trans ⟨rfl, rfl⟩ (sameClient_continueAttachmentMlsSetup _)

theorem sameClient_receiveWelcomeAck (commandID : String) :
    SameClient w (w.receiveWelcomeAck d commandID).1 := by
  unfold receiveWelcomeAck
  split
  · exact .refl w
  rename_i op _
  split
  · exact .refl w
  · have hrecord : SameClient w (w.recordWelcome op) := by
      unfold recordWelcome
      split
      · exact .refl w
      · exact ⟨rfl, rfl⟩
    exact hrecord.trans (SameClient.trans ⟨rfl, rfl⟩ (sameClient_continueAttachmentMlsSetup _))

theorem sameClient_receiveError (commandID : String) :
    SameClient w (w.receiveError commandID) := by
  unfold receiveError
  dsimp only
  split
  · split
    · exact ⟨rfl, rfl⟩
    · exact ⟨rfl, rfl⟩
  · split
    · exact ⟨rfl, rfl⟩
    · exact ⟨rfl, rfl⟩

/-- A welcome leaves the client alone, or is joined: its group was not known, and the library has
taken it. -/
theorem client_receiveWelcome (m : Message) :
    SameClient w (w.receiveWelcome platform d m).1 ∨
      (w.receiveWelcome platform d m).1.session = w.session ∧ d.accepts = true ∧
        w.mlsGroups.lookup m.groupID = none ∧
          ((w.receiveWelcome platform d m).1.mlsGroups.lookup m.groupID).isSome := by
  unfold receiveWelcome
  split
  · exact .inl (.refl w)
  split
  · split
    · exact .inl (.refl w)
    split
    · exact .inl (.refl w)
    · exact .inl (.refl w)
  rename_i hnone
  split
  · split
    · exact .inl (.refl w)
    rename_i haccepts
    have haccepts' : d.accepts = true := by simpa using haccepts
    dsimp only
    split
    · exact .inr ⟨rfl, haccepts', hnone, by simp⟩
    split
    · exact .inr ⟨rfl, haccepts', hnone, by simp⟩
    · exact .inr ⟨rfl, haccepts', hnone, by simp⟩
  · exact .inl (.refl w)

/-- The message is a welcome with its payload. -/
def isWelcome (m : Message) : Bool := m.type == .mlsGroupWelcome && m.welcome != ""

/-- A message leaves the client alone, or is a welcome that is joined. -/
theorem client_processMlsMessage (m : Message) :
    SameClient w (w.processMlsMessage platform d m).1 ∨
      (w.processMlsMessage platform d m).1.session = w.session ∧ isWelcome m = true ∧
        d.accepts = true ∧ w.mlsGroups.lookup m.groupID = none ∧
          ((w.processMlsMessage platform d m).1.mlsGroups.lookup m.groupID).isSome := by
  unfold processMlsMessage
  cases ht : m.type with
  | mlsKeyPackageFetch =>
    dsimp only
    split
    · exact .inl (.refl w)
    · exact .inl (sameClient_receiveKeyPackage m)
  | mlsGroupProposal =>
    dsimp only
    split
    · exact .inl (.refl w)
    · exact .inl (sameClient_receiveProposalAck _)
  | mlsGroupWelcome =>
    dsimp only
    split
    · rename_i hne
      refine (client_receiveWelcome m).imp_right fun ⟨hs, hd, hnone, hsome⟩ => ?_
      exact ⟨hs, by simp [isWelcome, ht, hne], hd, hnone, hsome⟩
    split
    · exact .inl (.refl w)
    · exact .inl (sameClient_receiveWelcomeAck _)
  | mlsGroupCommit =>
    dsimp only
    split
    · exact .inl (sameClient_receiveCommit m)
    split
    · exact .inl (.refl w)
    · exact .inl (sameClient_receiveCommitAck _)
  | error =>
    dsimp only
    split
    · exact .inl (.refl w)
    · exact .inl (sameClient_receiveError _)
  | _ => exact .inl (.refl w)

/-- A slot leaves the client alone or closes the connection. -/
theorem client_slot {input : MlsInput} (hslot : input.isSlot = true) :
    SameClient w (w.step platform (input, d)).1 ∨ (w.step platform (input, d)).1.session = none := by
  unfold step
  cases input with
  | connectToServer username userCode login => cases hslot
  | retrySavedConnection login => cases hslot
  | receive m => cases hslot
  | disconnect => exact .inr rfl
  | fetchMlsKeyPackage room target commandID => exact .inl (.refl w)
  | addMlsMember room g target commandID => exact .inl sameClient_addMlsMember
  | removeMlsMember room g target commandID =>
    dsimp only
    unfold removeMlsMember
    dsimp only
    split
    · exact .inl sameClient_startOperation
    · exact .inl (.refl w)
  | startAttachmentUpload room targets commandID =>
    dsimp only
    unfold startAttachmentUpload
    dsimp only
    split
    · exact .inl (.refl w)
    · refine .inl (SameClient.trans ?_ (sameClient_startNextAttachmentMlsSetup _))
      exact ⟨rfl, rfl⟩

theorem session_connected (c : ClientID) (preserveMlsState : Bool) :
    (w.connected d c preserveMlsState).1.session = some c := by
  unfold connected
  dsimp only
  split
  · split
    · rfl
    · rfl
  · rfl

/-- A step leaves the client alone, closes the connection, opens another one, or joins a welcome. -/
theorem client_step (platform : Platform) (x : MlsInput × MlsDraw) :
    SameClient w (w.step platform x).1 ∨ (w.step platform x).1.session = none ∨
      (∃ c, x.1.login = some c ∧ (w.step platform x).1.session = some c) ∨
      ∃ m, x.1 = .receive m ∧ (w.step platform x).1.session = w.session ∧ isWelcome m = true ∧
        x.2.accepts = true ∧ w.mlsGroups.lookup m.groupID = none ∧
          ((w.step platform x).1.mlsGroups.lookup m.groupID).isSome := by
  obtain ⟨input, d⟩ := x
  cases hslot : input.isSlot with
  | true => exact (client_slot hslot).imp_right .inl
  | false =>
    unfold step
    cases input with
    | connectToServer username userCode login =>
      dsimp only
      unfold connectToServer
      dsimp only
      split
      · exact .inr (.inr (.inl ⟨_, rfl, session_connected _ _⟩))
      · exact .inr (.inl rfl)
    | retrySavedConnection login =>
      dsimp only
      unfold retrySavedConnection
      split
      · exact .inr (.inr (.inl ⟨_, rfl, session_connected _ _⟩))
      · exact .inr (.inl rfl)
    | receive m =>
      dsimp only
      split
      · refine (client_processMlsMessage m).imp_right fun h => .inr (.inr ⟨m, rfl, ?_⟩)
        exact h
      · exact .inl (.refl w)
    | _ => cases hslot

end MlsWorker

namespace MlsNet

variable {net net' : MlsNet} (madeFrom : String → String) (platform : Platform)

/-! ### Welcomes and their key packages -/

/-- There is a welcome of the group with the payload: an operation has it, it is on its way to the
server, or it is stored. -/
def Held (net : MlsNet) (g payload : String) : Prop :=
  (∃ w ∈ net.workers, ∃ id op, w.pendingMlsOperations.lookup id = some op ∧ op.add = true ∧
    op.group = g ∧ op.welcome = payload) ∨
  (∃ f ∈ net.toServer, f.2.type = .mlsGroupWelcome ∧ f.2.groupID = g ∧ f.2.welcome = payload) ∨
  ∃ e u w, net.hub.db.mls.welcome? g e u = some w ∧ w.welcome = payload

/-- Welcomes made from one key package are for one group. -/
def Single (net : MlsNet) : Prop :=
  ∀ g payload g' payload', net.Held g payload → net.Held g' payload' →
    madeFrom payload = madeFrom payload' → g = g'

/-- A welcome has been made from the key package and still exists. -/
def isSpent (net : MlsNet) (keyPackage : String) : Bool :=
  net.workers.any (fun w => w.pendingMlsOperations.keys.any fun id =>
    (w.pendingMlsOperations.lookup id).any fun op => op.add && madeFrom op.welcome == keyPackage) ||
  net.toServer.any (fun f => f.2.type == .mlsGroupWelcome && madeFrom f.2.welcome == keyPackage) ||
  net.hub.db.mls.welcomes.rows.any fun w => madeFrom w.welcome == keyPackage

/-- The add of a step, if it makes one, uses a key package that is not spent. -/
def sparing (net : MlsNet) (input : Input) : Bool :=
  (net.workerInput platform input).all fun (w, x) =>
    (w.addPackage x.1).all fun keyPackage => !net.isSpent madeFrom keyPackage

/-- The library: the welcome of an add is made from the key package it uses, and a welcome can be
joined exactly by the client that has its key package pending. -/
def faithful (net : MlsNet) (input : Input) : Bool :=
  (net.workerInput platform input).all fun (w, x) =>
    ((w.addPackage x.1).all fun keyPackage => x.2.commit.all fun commit =>
      madeFrom commit.2 == keyPackage) &&
    match x.1 with
    | .receive m => !MlsWorker.isWelcome m ||
        x.2.accepts == (w.mlsClient == some (some (madeFrom m.welcome)))
    | _ => true

theorem isSpent_of_held {g payload keyPackage : String} (hh : net.Held g payload)
    (hk : madeFrom payload = keyPackage) : net.isSpent madeFrom keyPackage = true := by
  unfold isSpent
  rw [Bool.or_eq_true, Bool.or_eq_true]
  rcases hh with ⟨w, hw, id, op, hop, hadd, -, rfl⟩ | ⟨f, hf, ht, -, rfl⟩ | ⟨e, u, w, hrow, rfl⟩
  · refine .inl (.inl (List.any_eq_true.2 ⟨w, hw, List.any_eq_true.2 ⟨id, ?_, ?_⟩⟩))
    · exact AList.lookup_isSome.1 (by rw [hop]; rfl)
    · simp [hop, hadd, hk]
  · exact .inl (.inr (List.any_eq_true.2 ⟨f, hf, by simp [ht, hk]⟩))
  · exact .inr (List.any_eq_true.2 ⟨w, Table.mem_of_lookup hrow, by simp [hk]⟩)

/-- A step that only adds welcomes of one group, made from a key package that is not spent. -/
theorem Single.of_new (hs : net.Single madeFrom) (g payload : String)
    (hunspent : net.isSpent madeFrom (madeFrom payload) = false)
    (hheld : ∀ g' payload', net'.Held g' payload' →
      net.Held g' payload' ∨ (g' = g ∧ payload' = payload)) : net'.Single madeFrom := by
  intro g1 p1 g2 p2 h1 h2 heq
  rcases hheld g1 p1 h1 with h1 | ⟨rfl, rfl⟩
  · rcases hheld g2 p2 h2 with h2 | ⟨rfl, rfl⟩
    · exact hs g1 p1 g2 p2 h1 h2 heq
    · rw [isSpent_of_held madeFrom h1 heq] at hunspent
      cases hunspent
  · rcases hheld g2 p2 h2 with h2 | ⟨rfl, rfl⟩
    · rw [isSpent_of_held madeFrom h2 heq.symm] at hunspent
      cases hunspent
    · rfl

/-- A step that adds no welcome. -/
theorem Single.of_held (hs : net.Single madeFrom)
    (hheld : ∀ g payload, net'.Held g payload → net.Held g payload) : net'.Single madeFrom :=
  fun g p g' p' h h' heq => hs g p g' p' (hheld g p h) (hheld g' p' h') heq

theorem Held.of_keeps (hmls : KeepsMls net.hub.db.mls net'.hub.db.mls)
    (hworkers : net'.workers = net.workers) (hserver : net'.toServer = net.toServer)
    {g payload : String} (hh : net'.Held g payload) : net.Held g payload := by
  obtain ⟨keyPackages, hmls⟩ := hmls
  unfold Held at hh
  rw [hmls, hworkers, hserver] at hh
  exact hh

theorem isSpent_congr (hmls : KeepsMls net.hub.db.mls net'.hub.db.mls)
    (hworkers : net'.workers = net.workers) (hserver : net'.toServer = net.toServer)
    (keyPackage : String) : net'.isSpent madeFrom keyPackage = net.isSpent madeFrom keyPackage := by
  obtain ⟨keyPackages, hmls⟩ := hmls
  unfold isSpent
  rw [hmls, hworkers, hserver]

/-! ### Steps -/

section Checks

variable {madeFrom platform} {input : Input} {w : MlsWorker} {x : MlsInput × MlsDraw}
  (hinput : net.workerInput platform input = some (w, x))

include hinput

theorem isSpent_of_sparing (hsparing : net.sparing madeFrom platform input = true)
    {keyPackage : String} (hk : w.addPackage x.1 = some keyPackage) :
    net.isSpent madeFrom keyPackage = false := by
  unfold sparing at hsparing
  rw [hinput] at hsparing
  simpa [hk] using hsparing

theorem madeFrom_of_faithful (hfaithful : net.faithful madeFrom platform input = true)
    {keyPackage : String} {commit : String × String} (hk : w.addPackage x.1 = some keyPackage)
    (hcommit : x.2.commit = some commit) : madeFrom commit.2 = keyPackage := by
  unfold faithful at hfaithful
  rw [hinput, Option.all_some, Bool.and_eq_true] at hfaithful
  simpa [hk, hcommit] using hfaithful.1

theorem accepts_of_faithful (hfaithful : net.faithful madeFrom platform input = true) {m : Message}
    (hm : x.1 = .receive m) (hwelcome : MlsWorker.isWelcome m = true) (haccepts : x.2.accepts = true) :
    w.mlsClient = some (some (madeFrom m.welcome)) := by
  unfold faithful at hfaithful
  rw [hinput, Option.all_some, Bool.and_eq_true, hm] at hfaithful
  simpa [hwelcome, haccepts] using hfaithful.2

end Checks

theorem held_dropNext {c : ClientID} {hub : Hub} {g payload : String}
    (hrow : ∀ {e u w}, hub.db.mls.welcome? g e u = some w → net.Held g w.welcome)
    (hh : ({ net with hub, toServer := dropNext net.toServer c } : MlsNet).Held g payload) :
    net.Held g payload := by
  rcases hh with hop | ⟨f, hf, hframe⟩ | ⟨e, u, w, hw, rfl⟩
  · exact .inl hop
  · exact .inr (.inl ⟨f, List.mem_of_mem_eraseP hf, hframe⟩)
  · exact hrow hw

/-- A worker's step keeps welcomes apart. -/
theorem Single.afterWorker {i : ℕ} {w : MlsWorker} {x : MlsInput × MlsDraw}
    (hs : net.Single madeFrom) (hw : net.workers[i]? = some w) (hk : w.GroupsKnown)
    (hsparing : ∀ keyPackage, w.addPackage x.1 = some keyPackage →
      net.isSpent madeFrom keyPackage = false)
    (hfaithful : ∀ keyPackage commit, w.addPackage x.1 = some keyPackage →
      x.2.commit = some commit → madeFrom commit.2 = keyPackage) :
    (net.afterWorker i (w.step platform x).1 (w.step platform x).2).Single madeFrom := by
  have hstep := MlsWorker.opStep platform hk x
  generalize (w.step platform x).1 = w' at hstep
  generalize (w.step platform x).2 = frames at hstep
  have hmem := List.mem_of_getElem? hw
  -- every welcome of the new system is an old one, or that of the operation just started
  have hheld : ∀ g payload, (net.afterWorker i w' frames).Held g payload →
      net.Held g payload ∨ ∃ id op, w'.pendingMlsOperations.lookup id = some op ∧
        w.startID x.1 = some id ∧ op.group = g ∧ op.welcome = payload ∧
          ((w.addPackage x.1).isSome ∧ ∃ commit, x.2.commit = some (commit, op.welcome)) := by
    rintro g payload (⟨v, hv, id, op, hop, hadd, hg, hp⟩ | ⟨f, hf, ht, hg, hp⟩ | hrow)
    · rcases mem_workers_afterWorker hv with rfl | hv
      · rcases hstep.pending hop with ⟨op', hop', heq⟩ | ⟨hstarts, -, hwelcome⟩
        · rw [heq] at hadd hg hp
          exact .inl (.inl ⟨w, hmem, id, op', hop', hadd, hg, hp⟩)
        · exact .inr ⟨id, op, hop, hstarts, hg, hp, hwelcome hadd⟩
      · exact .inl (.inl ⟨v, hv, id, op, hop, hadd, hg, hp⟩)
    · rcases mem_frames_afterWorker hf with hf | hf
      · exact .inl (.inr (.inl ⟨f, hf, ht, hg, hp⟩))
      · obtain ⟨id, op, hop, hadd, heq⟩ := hstep.welcome_frame hf ht
        rw [heq] at hg hp
        exact .inl (.inl ⟨w, hmem, id, op, hop, hadd, hg, hp⟩)
    · exact .inl (.inr (.inr hrow))
  by_cases hnew : ∃ id op, w'.pendingMlsOperations.lookup id = some op ∧ w.startID x.1 = some id ∧
      ((w.addPackage x.1).isSome ∧ ∃ commit, x.2.commit = some (commit, op.welcome))
  · obtain ⟨id, op, hop, hid, hpackage, commit, hcommit⟩ := hnew
    obtain ⟨keyPackage, hkey⟩ := Option.isSome_iff_exists.1 hpackage
    have hmade : madeFrom op.welcome = keyPackage := hfaithful keyPackage _ hkey hcommit
    refine hs.of_new madeFrom op.group op.welcome ?_ fun g payload hh => ?_
    · rw [hmade]
      exact hsparing keyPackage hkey
    · rcases hheld g payload hh with hold | ⟨id', op', hop', hid', rfl, rfl, -⟩
      · exact .inl hold
      · cases hid.symm.trans hid'
        cases hop.symm.trans hop'
        exact .inr ⟨rfl, rfl⟩
  · refine hs.of_held madeFrom fun g payload hh => ?_
    rcases hheld g payload hh with hold | ⟨id, op, hop, hid, -, -, hwelcome⟩
    · exact hold
    · exact absurd ⟨id, op, hop, hid, hwelcome⟩ hnew

/-- The invariant of a system whose welcomes can be joined. -/
structure Joinable (net : MlsNet) : Prop where
  sound : net.hub.registry.Sound
  known : ∀ w ∈ net.workers, w.GroupsKnown
  single : net.Single madeFrom
  queues : QueuesBacked net.hub
  backed : ∀ f ∈ net.toClient, Backed net.hub.db.mls f.2
  bounded : ∀ w ∈ net.workers, ∀ c, w.session = some c → c < net.hub.registry.objects.length

theorem joinable_start (adminCode : String) (offlineStore : Bool) (n : ℕ) :
    Joinable madeFrom (start adminCode offlineStore n) where
  sound := Hub.sound_start adminCode offlineStore
  known := by
    intro w hw id op hop
    rw [List.eq_of_mem_replicate hw] at hop
    cases hop
  single := by
    rintro g payload g' payload' (⟨w, hw, id, op, hop, -⟩ | ⟨f, hf, -⟩ | ⟨e, u, w, hw, -⟩)
    · rw [List.eq_of_mem_replicate hw] at hop
      cases hop
    · cases hf
    · cases hw
  queues := fun _ _ hc => by cases hc
  backed := fun _ hf => by cases hf
  bounded := by
    intro w hw c hc
    rw [List.eq_of_mem_replicate hw] at hc
    cases hc

/-- The server's part of the invariant, after an event. -/
theorem Joinable.hub_step (hj : Joinable madeFrom net) {hub : Hub}
    (hhub : hub = net.hub ∨ ∃ e, hub = net.hub.step platform e) :
    hub.registry.Sound ∧ QueuesBacked hub ∧ (∀ f ∈ net.toClient, Backed hub.db.mls f.2) ∧
      net.hub.registry.objects.length ≤ hub.registry.objects.length := by
  rcases hhub with rfl | ⟨e, rfl⟩
  · exact ⟨hj.sound, hj.queues, hj.backed, Nat.le_refl _⟩
  · exact ⟨Hub.sound_step platform _ e hj.sound, backed_step platform hj.sound e hj.queues,
      fun f hf => (hj.backed f hf).step platform hj.sound e, length_le_step platform hj.sound e⟩

/-- Steps that add with unspent key packages keep the invariant. -/
theorem joinable_step {input : Input} (hsparing : net.sparing madeFrom platform input = true)
    (hfaithful : net.faithful madeFrom platform input = true) (hj : Joinable madeFrom net) :
    Joinable madeFrom (net.step platform input) := by
  cases netStep platform net input with
  | quiet hworkers hserver hclient hhub =>
    obtain ⟨hsound, hqueues, hbacked, hlen⟩ := hj.hub_step madeFrom platform
      (hhub.imp_right fun ⟨e, _, heq⟩ => ⟨e, heq⟩)
    have hmls : KeepsMls net.hub.db.mls (net.step platform input).hub.db.mls := by
      rcases hhub with heq | ⟨e, he, heq⟩
      · rw [heq]
        exact KeepsMls.refl _
      · rw [heq]
        exact keepsMls_of_not_frame platform hj.sound he
    refine ⟨hsound, hworkers ▸ hj.known, ?_, hqueues, hclient ▸ hbacked, ?_⟩
    · exact hj.single.of_held madeFrom fun g payload hh => hh.of_keeps hmls hworkers hserver
    · rw [hworkers]
      exact fun w hw c hc => (hj.bounded w hw c hc).trans_le hlen
  | worker i w x base hw hinput hworkers hserver hclient hhub hlogin h =>
    obtain ⟨hsound, hqueues, hbacked, hlen⟩ := hj.hub_step madeFrom platform
      (hhub.imp_right fun ⟨u, c, env, heq⟩ => ⟨⟨.login u c, env⟩, heq⟩)
    have hmls : KeepsMls net.hub.db.mls base.hub.db.mls := by
      rcases hhub with heq | ⟨u, c, env, heq⟩
      · rw [heq]
        exact KeepsMls.refl _
      · rw [heq]
        exact keepsMls_of_not_frame platform hj.sound fun _ _ _ _ h => by cases h
    have hmem := List.mem_of_getElem? hw
    have hw' : base.workers[i]? = some w := hworkers ▸ hw
    rw [h]
    refine ⟨hsound, ?_, ?_, hqueues, fun f hf => hbacked f (hclient f hf), ?_⟩
    · intro v hv
      rcases mem_workers_afterWorker hv with rfl | hv
      · exact (hj.known w hmem).step platform x
      · exact hj.known v (hworkers ▸ hv)
    · have hsingle : base.Single madeFrom :=
        hj.single.of_held madeFrom fun g payload hh => hh.of_keeps hmls hworkers hserver
      refine hsingle.afterWorker madeFrom platform hw' (hj.known w hmem) (fun keyPackage hk => ?_)
        fun keyPackage commit hk => madeFrom_of_faithful hinput hfaithful hk
      rw [isSpent_congr madeFrom hmls hworkers hserver]
      exact isSpent_of_sparing hinput hsparing hk
    · intro v hv c hc
      rcases mem_workers_afterWorker hv with rfl | hv
      · rcases w.client_step platform x with hsame | hnone | ⟨c', hc', hs⟩ | ⟨m, -, hs, -⟩
        · exact (hj.bounded w hmem c (hsame.1 ▸ hc)).trans_le hlen
        · rw [hnone] at hc
          cases hc
        · cases hs.symm.trans hc
          exact (hlogin _ hc').2
        · exact (hj.bounded w hmem c (hs ▸ hc)).trans_le hlen
      · exact (hj.bounded v (hworkers ▸ hv) c hc).trans_le hlen
  | read c m env limited muted hinput hnext hreads h =>
    obtain ⟨hsound, hqueues, hbacked, hlen⟩ := hj.hub_step madeFrom platform (.inr ⟨_, rfl⟩)
    rw [h]
    refine ⟨hsound, hj.known, ?_, hqueues, hbacked,
      fun w hw c hc => (hj.bounded w hw c hc).trans_le hlen⟩
    refine hj.single.of_held madeFrom fun g payload hh => held_dropNext (fun {e u w} hw => ?_) hh
    -- a row that is new is that of the frame, which was on its way
    rcases welcome_row_step platform hj.sound _ hw with
      ⟨w', hw', heq⟩ | ⟨c', obj, m', ⟨⟨_, _, hframe⟩, -⟩, ht, hg, hpayload⟩
    · exact .inr (.inr ⟨e, u, w', hw', heq⟩)
    · cases hframe
      exact .inr (.inl ⟨(c, m), nextFrame_eq_some hnext, ht, hg, hpayload⟩)
  | pump c obj m hobj hm h =>
    obtain ⟨hsound, hqueues, hbacked, hlen⟩ := hj.hub_step madeFrom platform (.inr ⟨_, rfl⟩)
    have hmls := keepsMls_of_not_frame platform hj.sound (e := ⟨.writePump c, {}⟩)
      fun _ _ _ _ h => by cases h
    have hsingle : (net.step platform input).Single madeFrom := by
      refine hj.single.of_held madeFrom fun g payload hh => hh.of_keeps ?_ ?_ ?_
      · rw [h]
        exact hmls
      · rw [h]
      · rw [h]
    rw [h] at hsingle ⊢
    refine ⟨hsound, hj.known, hsingle, hqueues, fun f hf => ?_,
      fun w hw c hc => (hj.bounded w hw c hc).trans_le hlen⟩
    rcases List.mem_append.1 hf with hf | hf
    · exact hbacked f hf
    · rw [List.mem_singleton.1 hf]
      have hsend : m ∈ obj.send ++ obj.replay := List.mem_append_left _ (List.mem_of_head? hm)
      exact (hj.queues c obj hobj m hsend).step platform hj.sound _
  | lose c hinput h =>
    rw [h]
    refine ⟨hj.sound, hj.known, ?_, hj.queues, fun f hf => hj.backed f (List.mem_filter.1 hf).1,
      hj.bounded⟩
    refine hj.single.of_held madeFrom fun g payload hh => ?_
    rcases hh with hop | ⟨f, hf, hframe⟩ | hrow
    · exact .inl hop
    · exact .inr (.inl ⟨f, (List.mem_filter.1 hf).1, hframe⟩)
    · exact .inr (.inr hrow)

/-! ### One connection -/

/-- Worker `i` has published the key package on its connection `c` and can join with it. -/
def Publishes (net : MlsNet) (i : ℕ) (c : ClientID) (keyPackage : String) : Prop :=
  ∃ w, net.workers[i]? = some w ∧ w.session = some c ∧ w.mlsClient = some (some keyPackage) ∧
    ∃ f ∈ net.toServer, f.1 = c ∧ f.2.type = .mlsKeyPackagePublish ∧ f.2.keyPackage = keyPackage

/-- The worker can join with the key package, or it is in a group for which a welcome made from it
is stored. -/
def Unspent (net : MlsNet) (w : MlsWorker) (keyPackage : String) : Prop :=
  w.mlsClient = some (some keyPackage) ∨
    ∃ g e u row, (w.mlsGroups.lookup g).isSome ∧ net.hub.db.mls.welcome? g e u = some row ∧
      madeFrom row.welcome = keyPackage

/-- Worker `i` is unspent for as long as it is connected as `c`. -/
def UnspentOn (i : ℕ) (c : ClientID) (keyPackage : String) (net : MlsNet) : Prop :=
  c < net.hub.registry.objects.length ∧ ∀ w, net.workers[i]? = some w → w.session = some c →
    net.Unspent madeFrom w keyPackage

variable {madeFrom}

/-- Stored welcomes stay. -/
theorem Unspent.of_hub {w : MlsWorker} {keyPackage : String} (hu : net.Unspent madeFrom w keyPackage)
    (hs : net.hub.registry.Sound)
    (hhub : net'.hub = net.hub ∨ ∃ e, net'.hub = net.hub.step platform e) :
    net'.Unspent madeFrom w keyPackage := by
  rcases hu with hclient | ⟨g, e, u, row, hg, hrow, hk⟩
  · exact .inl hclient
  rcases hhub with heq | ⟨ev, heq⟩
  · rw [← heq] at hrow
    exact .inr ⟨g, e, u, row, hg, hrow, hk⟩
  · obtain ⟨row', hrow', hsame⟩ := payload_step platform hs ev hrow
    rw [← heq] at hrow'
    exact .inr ⟨g, e, u, row', hg, hrow', by rw [hsame, hk]⟩

/-- A step of the worker that leaves it on its connection keeps it unspent. -/
theorem Unspent.step {input : Input} {w : MlsWorker} {x : MlsInput × MlsDraw} {c : ClientID}
    {keyPackage : String} (hu : net.Unspent madeFrom w keyPackage)
    (hinput : net.workerInput platform input = some (w, x))
    (hfaithful : net.faithful madeFrom platform input = true)
    (hlogin : ∀ c', x.1.login = some c' → c' ≠ c)
    (hback : ∀ m, x.1 = .receive m → Backed net.hub.db.mls m)
    (hw' : (w.step platform x).1.session = some c) :
    net.Unspent madeFrom (w.step platform x).1 keyPackage := by
  have hkeeps : w.KeepsGroups (w.step platform x).1 := by
    refine w.keepsGroups_step platform x ?_
    cases hswitch : w.switchesUser x.1 with
    | false => rfl
    | true =>
      obtain ⟨input', d⟩ := x
      unfold MlsWorker.switchesUser at hswitch
      split at hswitch
      · rename_i username userCode c' heq
        dsimp only at heq
        subst heq
        have hsession : ((w.step platform (.connectToServer username userCode (some c'), d)).1).session
            = some c' := MlsWorker.session_connected _ _
        cases hsession.symm.trans hw'
        exact absurd rfl (hlogin c rfl)
      · cases hswitch
  rcases hu with hclient | ⟨g, e, u, row, hg, hrow, hk⟩
  · rcases w.client_step platform x with
      hsame | hnone | ⟨c', hc', hs⟩ | ⟨m, hm, -, hwelcome, haccepts, -, hsome⟩
    · exact .inl (hsame.2.trans hclient)
    · rw [hnone] at hw'
      cases hw'
    · cases hs.symm.trans hw'
      exact absurd rfl (hlogin c hc')
    · -- the token is used for a welcome that is stored
      have hmade := accepts_of_faithful hinput hfaithful hm hwelcome haccepts
      have hkey : madeFrom m.welcome = keyPackage :=
        Option.some.inj (Option.some.inj (hmade.symm.trans hclient))
      unfold MlsWorker.isWelcome at hwelcome
      simp only [Bool.and_eq_true, beq_iff_eq, bne_iff_ne, ne_eq] at hwelcome
      obtain ⟨e, u, row, hrow, hpayload⟩ := hback m hm hwelcome.1 hwelcome.2
      exact .inr ⟨m.groupID, e, u, row, hsome, hrow, by rw [hpayload, hkey]⟩
  · exact .inr ⟨g, e, u, row, hkeeps g hg, hrow, hk⟩

/-- A worker receives only what is on its connection. -/
theorem mem_toClient_of_workerInput {input : Input} {w : MlsWorker} {x : MlsInput × MlsDraw}
    (hinput : net.workerInput platform input = some (w, x)) {m : Message} (hm : x.1 = .receive m) :
    ∃ c, (c, m) ∈ net.toClient := by
  cases input with
  | call i slot d =>
    unfold workerInput at hinput
    dsimp only at hinput
    split at hinput
    · rename_i hslot
      obtain ⟨w', -, heq⟩ := Option.map_eq_some_iff.1 hinput
      cases heq
      dsimp only at hm
      rw [hm] at hslot
      cases hslot
    · cases hinput
  | connectToServer i username userCode attempt d =>
    obtain ⟨w', -, heq⟩ := Option.map_eq_some_iff.1 hinput
    cases heq
    cases hm
  | retrySavedConnection i attempt d =>
    obtain ⟨w', -, hinput⟩ := Option.bind_eq_some_iff.1 hinput
    split at hinput
    · cases hinput
      cases hm
    · cases hinput
  | receive i d =>
    obtain ⟨w', -, hinput⟩ := Option.bind_eq_some_iff.1 hinput
    obtain ⟨c, -, hinput⟩ := Option.bind_eq_some_iff.1 hinput
    obtain ⟨m', hnext, heq⟩ := Option.map_eq_some_iff.1 hinput
    cases heq
    cases hm
    exact ⟨c, nextFrame_eq_some hnext⟩
  | _ => cases hinput

/-- Every step keeps a published key package unspent on its connection. -/
theorem unspentOn_step {input : Input} {i : ℕ} {c : ClientID} {keyPackage : String}
    (hfaithful : net.faithful madeFrom platform input = true) (hj : Joinable madeFrom net)
    (hu : UnspentOn madeFrom i c keyPackage net) :
    UnspentOn madeFrom i c keyPackage (net.step platform input) := by
  obtain ⟨hlt, hu⟩ := hu
  have hhub := hub_step platform net input
  have hlen : net.hub.registry.objects.length ≤
      (net.step platform input).hub.registry.objects.length := by
    rcases hhub with heq | ⟨e, heq⟩
    · rw [heq]
    · rw [heq]
      exact length_le_step platform hj.sound e
  refine ⟨hlt.trans_le hlen, fun w hw hs => ?_⟩
  cases netStep platform net input with
  | quiet hworkers _ _ _ =>
    rw [hworkers] at hw
    exact (hu w hw hs).of_hub platform hj.sound hhub
  | worker j v x base hv hinput hworkers _ _ _ hlogin h =>
    rw [h] at hw
    by_cases hij : j = i
    · subst hij
      have hlt' : j < base.workers.length := by
        rw [hworkers]
        exact (List.getElem?_eq_some_iff.1 hv).1
      have hself : w = (v.step platform x).1 := by
        unfold afterWorker at hw
        rw [List.getElem?_set_self hlt'] at hw
        exact (Option.some.inj hw).symm
      subst hself
      have hne : ∀ c', x.1.login = some c' → c' ≠ c := by
        intro c' hc' heq
        rw [heq] at hc'
        exact absurd (hlogin c hc').1 hlt.ne
      -- a worker that comes from another connection has just logged in
      have hbefore : v.session = some c := by
        rcases v.client_step platform x with hsame | hnone | ⟨c', hc', hs'⟩ | ⟨_, _, hs', _⟩
        · exact hsame.1.symm.trans hs
        · rw [hnone] at hs
          cases hs
        · exact absurd (Option.some.inj (hs'.symm.trans hs)) (hne c' hc')
        · exact hs'.symm.trans hs
      have hback : ∀ m, x.1 = .receive m → Backed net.hub.db.mls m := by
        intro m hm
        obtain ⟨c', hmem⟩ := mem_toClient_of_workerInput platform hinput hm
        exact hj.backed _ hmem
      have hunspent := (hu v hv hbefore).step platform hinput hfaithful hne hback hs
      exact hunspent.of_hub platform hj.sound hhub
    · unfold afterWorker at hw
      rw [List.getElem?_set_ne hij, hworkers] at hw
      exact (hu w hw hs).of_hub platform hj.sound hhub
  | read c' m env limited muted _ _ _ h =>
    have hw' : net.workers[i]? = some w := by
      rw [h] at hw
      exact hw
    exact (hu w hw' hs).of_hub platform hj.sound hhub
  | pump c' obj m _ _ h =>
    have hw' : net.workers[i]? = some w := by
      rw [h] at hw
      exact hw
    exact (hu w hw' hs).of_hub platform hj.sound hhub
  | lose c' _ h =>
    have hw' : net.workers[i]? = some w := by
      rw [h] at hw
      exact hw
    exact (hu w hw' hs).of_hub platform hj.sound hhub

/-- When every add uses a key package from which no welcome exists, a client that has been connected
since it published a key package can join every welcome made from it, for a group it is not in. -/
theorem welcome_joinable (madeFrom : String → String) (platform : Platform) (adminCode : String)
    (offlineStore : Bool) (n : ℕ) (es fs : List Input)
    (hfaithful : Along (step platform) (fun net x => net.faithful madeFrom platform x = true)
      (start adminCode offlineStore n) (es ++ fs))
    (hsparing : Along (step platform) (fun net x => net.sparing madeFrom platform x = true)
      (start adminCode offlineStore n) (es ++ fs))
    (i : ℕ) (c : ClientID) (keyPackage : String)
    (hpublishes : (run (step platform) (start adminCode offlineStore n) es).Publishes i c keyPackage)
    (w : MlsWorker) (m : Message)
    (hw : (run (step platform) (start adminCode offlineStore n) (es ++ fs)).workers[i]? = some w)
    (hsession : w.session = some c)
    (hnext : nextFrame (run (step platform) (start adminCode offlineStore n) (es ++ fs)).toClient c =
      some m)
    (hwelcome : MlsWorker.isWelcome m = true) (hmade : madeFrom m.welcome = keyPackage)
    (hgroup : w.mlsGroups.lookup m.groupID = none) : w.mlsClient = some (some keyPackage) := by
  have hboth := hfaithful.and hsparing
  have hstep : ∀ net x, (net.faithful madeFrom platform x = true ∧
      net.sparing madeFrom platform x = true) → Joinable madeFrom net →
      Joinable madeFrom (net.step platform x) :=
    fun net x hx hj => joinable_step madeFrom platform hx.2 hx.1 hj
  have hjes := run_invariant_along (step platform) hstep
    (joinable_start madeFrom adminCode offlineStore n) hboth.append.1
  obtain ⟨w0, hw0, hs0, hclient0, -⟩ := hpublishes
  have hstart : UnspentOn madeFrom i c keyPackage
      (run (step platform) (start adminCode offlineStore n) es) := by
    refine ⟨hjes.bounded w0 (List.mem_of_getElem? hw0) c hs0, fun v hv _ => ?_⟩
    cases hw0.symm.trans hv
    exact .inl hclient0
  obtain ⟨hj, -, hu⟩ := run_invariant_along (step platform)
    (I := fun net => Joinable madeFrom net ∧ UnspentOn madeFrom i c keyPackage net)
    (fun net x hx hI => ⟨hstep net x hx hI.1, unspentOn_step platform hx.1 hI.1 hI.2⟩)
    ⟨hjes, hstart⟩ hboth.append.2
  rw [← run_append] at hj hu
  rcases hu w hw hsession with hclient | ⟨g, e, u, row, hg, hrow, hk⟩
  · exact hclient
  · -- the welcome that was joined is of the same group
    have hheld : (run (step platform) (start adminCode offlineStore n) (es ++ fs)).Held m.groupID
        m.welcome := by
      unfold MlsWorker.isWelcome at hwelcome
      simp only [Bool.and_eq_true, beq_iff_eq, bne_iff_ne, ne_eq] at hwelcome
      obtain ⟨e', u', row', hrow', hpayload⟩ :=
        hj.backed _ (nextFrame_eq_some hnext) hwelcome.1 hwelcome.2
      exact .inr (.inr ⟨e', u', row', hrow', hpayload⟩)
    have hsame := hj.single g row.welcome m.groupID m.welcome (.inr (.inr ⟨e, u, row, hrow, rfl⟩))
      hheld (hk.trans hmade.symm)
    rw [hsame, hgroup] at hg
    cases hg

/-! ### Alice and Carol add Bob -/

/-- `samplePlatform` with the digests of a second proposal and welcome, and of a welcome's command. -/
def joinPlatform : Platform where
  sha256Hex payload :=
    if payload = "cHJvcG9zYWwy" then
      "bda5a35da16e0bef4a772af1c5feb13969622672133865411f5df37edebc0ac4"
    else if payload = "d2VsY29tZTI=" then
      "b5fee713176d0e8e3d7d0dce245d0e9cf1ba62e302e70937507162174ea72f42"
    else if payload = "g|1" then
      "224715358bb0f6a1d60dc2c97ee4073b8c3e26caa132491bfd7615508462c8ae"
    else samplePlatform.sha256Hex payload
  sha256Bytes := samplePlatform.sha256Bytes
  rfc3339 := samplePlatform.rfc3339

/-- Both welcomes are made from the key package that Bob has published. -/
def bobsPackage (welcome : String) : String :=
  if welcome = "d2VsY29tZQ==" ∨ welcome = "d2VsY29tZTI=" then "a2V5Qg==" else ""

/-- Alice, Carol and then Bob connect; Bob's key package is on its way. -/
def bobPublishes : List Input :=
  joins 0 0 "alice" "A001" "a2V5QQ==" ++ joins 1 1 "carol" "C001" "a2V5Qw==" ++
  [.connectToServer 2 "bob" "B001" (.answered {}) { keyPackage := some "a2V5Qg==" }]

/-- The server reads Bob's key package. -/
def bobIsKnown : List Input :=
  [.server ⟨.replay 2, {}⟩, .server ⟨.replay 2, {}⟩, .readFrame 2 {} false false]

/-- Worker `i` fetches Bob's key package, which is message `n` for it, and adds him to the group. -/
def addsBobTo (i : ℕ) (c : ClientID) (n : ℕ) (groupID commandID proposal welcome : String) :
    List Input :=
  [.call i (.fetchMlsKeyPackage "lobby" "B001" "f1") {}, .readFrame c {} false false] ++
  hears i c n ++
  [.call i (.addMlsMember "lobby" groupID "B001" commandID)
    { keyPackage := some "a2V5QQ==", proposal := some proposal
      commit := some ("Y29tbWl0", welcome) }, .readFrame c {} false false] ++
  hears i c 1 ++ [.readFrame c {} false false] ++ hears i c 1 ++ [.readFrame c {} false false]

/-- Alice adds Bob, and the welcome is next for him. -/
def oneWelcome : List Input :=
  bobIsKnown ++ addsBobTo 0 0 5 "g" "op1" "cHJvcG9zYWw=" "d2VsY29tZQ==" ++ hears 2 2 2 ++
  [.writePump 2]

/-- Alice and Carol both add Bob with the one key package; he joins Alice's group, and Carol's
welcome is next for him. -/
def twoWelcomes : List Input :=
  bobIsKnown ++ addsBobTo 0 0 5 "g" "op1" "cHJvcG9zYWw=" "d2VsY29tZQ==" ++
  addsBobTo 1 1 4 "h" "op2" "cHJvcG9zYWwy" "d2VsY29tZTI=" ++ hears 2 2 2 ++
  [.writePump 2, .receive 2 { keyPackage := some "a2V5QjI=" }, .writePump 2]

/-- What worker `i` sees when a welcome for a new group, made from the key package, is next. -/
def seesWelcome (madeFrom : String → String) (net : MlsNet) (i : ℕ) (c : ClientID)
    (keyPackage : String) : Bool :=
  (net.workers[i]?).any fun w => (nextFrame net.toClient c).any fun m =>
    w.session == some c && MlsWorker.isWelcome m && madeFrom m.welcome == keyPackage &&
      (w.mlsGroups.lookup m.groupID).isNone

theorem seesWelcome_iff {i : ℕ} {c : ClientID} {keyPackage : String} :
    seesWelcome madeFrom net i c keyPackage = true ↔
      ∃ w m, net.workers[i]? = some w ∧ w.session = some c ∧ nextFrame net.toClient c = some m ∧
        MlsWorker.isWelcome m = true ∧ madeFrom m.welcome = keyPackage ∧
          w.mlsGroups.lookup m.groupID = none := by
  simp only [seesWelcome, Option.any_eq_true, Bool.and_eq_true, beq_iff_eq, Option.isNone_iff_eq_none]
  constructor
  · rintro ⟨w, hw, m, hm, ⟨⟨hs, hwelcome⟩, hmade⟩, hnone⟩
    exact ⟨w, m, hw, hs, hm, hwelcome, hmade, hnone⟩
  · rintro ⟨w, m, hw, hs, hm, hwelcome, hmade, hnone⟩
    exact ⟨w, hw, m, hm, ⟨⟨hs, hwelcome⟩, hmade⟩, hnone⟩

theorem bobPublishes_publishes :
    (run (step joinPlatform) (start "admin" true 3) bobPublishes).Publishes 2 2 "a2V5Qg==" := by
  have hcheck : ((run (step joinPlatform) (start "admin" true 3) bobPublishes).workers[2]?).any
      (fun w => w.session == some 2 && w.mlsClient == some (some "a2V5Qg==")) = true := by
    decide +kernel
  have hframe : (run (step joinPlatform) (start "admin" true 3) bobPublishes).toServer.any
      (fun f => f.1 == 2 && f.2.type == .mlsKeyPackagePublish && f.2.keyPackage == "a2V5Qg==") =
        true := by decide +kernel
  obtain ⟨w, hw, hsame⟩ := (Option.any_eq_true _ _).1 hcheck
  obtain ⟨f, hf, hfsame⟩ := List.any_eq_true.1 hframe
  simp only [Bool.and_eq_true, beq_iff_eq] at hsame hfsame
  exact ⟨w, hw, hsame.1, hsame.2, f, hf, hfsame.1.1, hfsame.1.2, hfsame.2⟩

theorem welcome_joinable_once : ∃ w m,
    (run (step joinPlatform) (start "admin" true 3) (bobPublishes ++ oneWelcome)).workers[2]? =
      some w ∧
    nextFrame (run (step joinPlatform) (start "admin" true 3)
      (bobPublishes ++ oneWelcome)).toClient 2 = some m ∧
    bobsPackage m.welcome = "a2V5Qg==" ∧ w.mlsClient = some (some "a2V5Qg==") := by
  obtain ⟨hfaithful, hsparing, hsees⟩ :
      Along (step joinPlatform) (fun net x => net.faithful bobsPackage joinPlatform x = true)
        (start "admin" true 3) (bobPublishes ++ oneWelcome) ∧
      Along (step joinPlatform) (fun net x => net.sparing bobsPackage joinPlatform x = true)
        (start "admin" true 3) (bobPublishes ++ oneWelcome) ∧
      seesWelcome bobsPackage (run (step joinPlatform) (start "admin" true 3)
        (bobPublishes ++ oneWelcome)) 2 2 "a2V5Qg==" = true := by decide +kernel
  obtain ⟨w, m, hw, hs, hm, hwelcome, hmade, hnone⟩ := seesWelcome_iff.1 hsees
  exact ⟨w, m, hw, hm, hmade, welcome_joinable bobsPackage joinPlatform "admin" true 3 bobPublishes
    oneWelcome hfaithful hsparing 2 2 "a2V5Qg==" bobPublishes_publishes w m hw hs hm hwelcome hmade
    hnone⟩

/-- Bob cannot join the second of two welcomes made from one key package. -/
theorem welcome_not_joinable :
    ¬ ∀ (madeFrom : String → String) (platform : Platform) (adminCode : String)
      (offlineStore : Bool) (n : ℕ) (es fs : List Input),
      Along (step platform) (fun net x => net.faithful madeFrom platform x = true)
        (start adminCode offlineStore n) (es ++ fs) →
      ∀ (i : ℕ) (c : ClientID) (keyPackage : String),
      (run (step platform) (start adminCode offlineStore n) es).Publishes i c keyPackage →
      ∀ (w : MlsWorker) (m : Message),
      (run (step platform) (start adminCode offlineStore n) (es ++ fs)).workers[i]? = some w →
      w.session = some c →
      nextFrame (run (step platform) (start adminCode offlineStore n) (es ++ fs)).toClient c =
        some m →
      MlsWorker.isWelcome m = true → madeFrom m.welcome = keyPackage →
      w.mlsGroups.lookup m.groupID = none → w.mlsClient = some (some keyPackage) := by
  intro h
  obtain ⟨hfaithful, hsees, hclient⟩ :
      Along (step joinPlatform) (fun net x => net.faithful bobsPackage joinPlatform x = true)
        (start "admin" true 3) (bobPublishes ++ twoWelcomes) ∧
      seesWelcome bobsPackage (run (step joinPlatform) (start "admin" true 3)
        (bobPublishes ++ twoWelcomes)) 2 2 "a2V5Qg==" = true ∧
      ((run (step joinPlatform) (start "admin" true 3) (bobPublishes ++ twoWelcomes)).workers[2]?).all
        (fun w : MlsWorker => w.mlsClient != some (some "a2V5Qg==")) = true := by decide +kernel
  obtain ⟨w, m, hw, hs, hm, hwelcome, hmade, hnone⟩ := seesWelcome_iff.1 hsees
  have hjoins := h bobsPackage joinPlatform "admin" true 3 bobPublishes twoWelcomes hfaithful 2 2
    "a2V5Qg==" bobPublishes_publishes w m hw hs hm hwelcome hmade hnone
  rw [hw] at hclient
  simp [hjoins] at hclient

end MlsNet

end Gui

end LanChat
