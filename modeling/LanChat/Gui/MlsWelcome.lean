import LanChat.Gui.MlsSteps
import LanChat.Hub.MlsRows

/-!
# No welcome is lost

After the server has logged the commit of an add, its welcome is stored, on its way, or still to be
sent by an operation that waits for the commit's acknowledgement.

* `WelcomeKept`: one of the three;
* `Traced`: every frame and every proposal row belongs to an operation of a log, and every add whose
  commit is logged or on its way is covered;
* `isServed`: the server reads the frames of the session;
* `careful`: the step takes no unstored welcome away, no session that one is on, and no operation that
  still owes one;
* `welcome_kept`, and `welcome_lost_with_connection` for a step that does: an operation that has sent
  its welcome does not send it again after a reconnection.
-/

namespace LanChat

namespace Gui

open GoStrings EventMachine MlsStore Hub

namespace MlsNet

variable {net net' : MlsNet} {log : String → Option PendingMlsOperation}

/-- The frame is the welcome of a user at an epoch. -/
def isWelcomeOf (m : Message) (g : String) (e : ℤ) (t : String) : Bool :=
  m.type == .mlsGroupWelcome && m.groupID == g && (m.epoch.toNat : ℤ) == e &&
    normalizedOrEmpty m.targetUserCode == t

/-- The worker has an operation that will send the welcome. -/
def willSend (w : MlsWorker) (pid g : String) (e : ℤ) (t : String) : Bool :=
  (w.pendingMlsOperations.lookup pid).any fun op =>
    op.add && op.phase != .welcome && op.group == g && (op.epoch.toNat : ℤ) == e &&
      normalizedOrEmpty op.target == t

/-- The session is registered, and the server reads its frames. -/
def isServed (net : MlsNet) (c : ClientID) : Bool :=
  net.hub.readsFrames c && net.hub.registry.isConnected c

/-- The welcome of an add is stored, on its way to a server that reads it, or still to be sent. -/
def WelcomeKept (net : MlsNet) (g : String) (e : ℤ) (pid t : String) : Prop :=
  (net.hub.db.mls.welcome? g e t).isSome = true ∨
    (∃ f ∈ net.toServer, net.isServed f.1 = true ∧ isWelcomeOf f.2 g e t = true) ∨
      ∃ w ∈ net.workers, willSend w pid g e t = true

instance {g : String} {e : ℤ} {pid t : String} : Decidable (net.WelcomeKept g e pid t) :=
  inferInstanceAs (Decidable (_ ∨ _ ∨ _))

/-! ### Steps that lose nothing -/

/-- The server has logged the commit of the operation. -/
def isCommitted (net : MlsNet) (id g : String) (e : UInt64) : Bool :=
  (net.hub.db.mls.epoch? g e.toNat).any fun r => r.proposalID == id

/-- The commit of the operation has been logged or is on its way. -/
def isOwed (net : MlsNet) (id : String) (op : PendingMlsOperation) : Bool :=
  net.isCommitted id op.group op.epoch || net.toServer.any fun f => f.2 == op.commitMessage id

/-- Nobody has used the command id. -/
def unused (net : MlsNet) (id : String) : Bool :=
  net.workers.all (fun w => (w.pendingMlsOperations.lookup id).isNone) &&
    net.toServer.all (fun f => f.2.proposalID != id) &&
    net.hub.db.mls.proposals.rows.all fun p => p.proposalID != id

variable (platform : Platform)

/-- The worker gives an operation up that waits for its commit's acknowledgement: the server refuses
the command, another user logs in, or the welcome cannot be sent or goes to a session that the server
has ended. -/
def losesAdd (net : MlsNet) (w : MlsWorker) (x : MlsInput × MlsDraw) (id : String)
    (op : PendingMlsOperation) : Bool :=
  w.switchesUser x.1 ||
    match x.1 with
    | .receive m => m.commandID == id && (m.type == .error ||
        (m.type == .mlsGroupCommit && m.commit == "" &&
          (x.2.sendFails (op.welcomeMessage platform id) || !w.session.any net.isServed)))
    | _ => false

/-- A new operation has a command id of its own, and no add whose commit is logged or on its way is
given up. -/
def carefulWorker (net : MlsNet) (w : MlsWorker) (x : MlsInput × MlsDraw) : Bool :=
  (w.startID x.1).all net.unused &&
    w.pendingMlsOperations.keys.all fun id =>
      (w.pendingMlsOperations.lookup id).all fun op =>
        !(op.add && op.phase == .commit && net.isOwed id op && net.losesAdd platform w x id op)

/-- The welcome of the frame is stored. -/
def isStored (net : MlsNet) (m : Message) : Bool :=
  (net.hub.db.mls.welcome? m.groupID m.epoch.toNat (normalizedOrEmpty m.targetUserCode)).isSome

/-- The frame is a welcome that is not stored, on its way to a server that reads it. -/
def isUnread (net : MlsNet) (f : ClientID × Message) : Bool :=
  f.2.type == .mlsGroupWelcome && net.isServed f.1 && !net.isStored f.2

/-- The server ends no session with an unread welcome: no login takes it over, no member is removed,
no process starts anew. -/
def keepsSessions (net : MlsNet) (x : Input) : Bool :=
  (net.step platform x).toServer.all fun f =>
    !net.isUnread f || (net.step platform x).isServed f.1

/-- The conditions of a step on its own input: no unread welcome is on a connection that is lost, and
one that the server reads belongs to a logged commit and passes the server's checks. -/
def carefulInput (net : MlsNet) : Input → Bool
  | .call i input d => (net.workers[i]?).all fun w => net.carefulWorker platform w (input, d)
  | .connectToServer i username userCode attempt d =>
    (net.workers[i]?).all fun w => net.carefulWorker platform w (.connectToServer username userCode
      (System.loginSession platform net.hub username userCode attempt), d)
  | .receive i d => (net.workers[i]?).all fun w => w.session.all fun c =>
      (nextFrame net.toClient c).all fun m => net.carefulWorker platform w (.receive m, d)
  | .readFrame c env limited _ => (nextFrame net.toServer c).all fun m =>
      !net.isUnread (c, m) || (!limited && net.isCommitted m.proposalID m.groupID m.epoch &&
        net.hub.welcomeChecks env c m)
  | .loseFrames c => net.toServer.all fun f => f.1 != c || !net.isUnread f
  | .retrySavedConnection .. | .writePump _ | .server _ => true

/-- The step loses no welcome. -/
def careful (net : MlsNet) (x : Input) : Bool :=
  net.carefulInput platform x && net.keepsSessions platform x

/-! ### The invariant -/

/-- The operation as it was started. -/
def started (op : PendingMlsOperation) : PendingMlsOperation := { op with phase := .proposal }

/-- The welcome of a logged operation is stored, on its way, or waits for an acknowledgement. -/
def Covered (net : MlsNet) (id : String) (op : PendingMlsOperation) : Prop :=
  (net.hub.db.mls.welcome? op.group op.epoch.toNat (normalizedOrEmpty op.target)).isSome = true ∨
    (∃ f ∈ net.toServer, net.isServed f.1 = true ∧ f.2 = op.welcomeMessage platform id) ∨
      ∃ w ∈ net.workers, ∃ op', w.pendingMlsOperations.lookup id = some op' ∧ op'.phase = .commit

/-- The proposal row is that of the operation. -/
def RowOf (op : PendingMlsOperation) (p : MlsProposal) : Prop :=
  op.group = p.groupID ∧ (op.epoch.toNat : ℤ) = p.epoch ∧ (op.add = true ↔ p.action = .add) ∧
    normalizeUserCode op.target = .ok p.targetCode

/-- The frame is one of the operation that the log has under its proposal id. -/
def FrameLogged (log : String → Option PendingMlsOperation) (m : Message) : Prop :=
  IsOpFrame m → ∃ op, log m.proposalID = some op ∧
    (m = op.proposalMessage m.proposalID ∨ m = op.commitMessage m.proposalID ∨
      m = op.welcomeMessage platform m.proposalID)

/-- The operations, the frames and the proposal rows are those of the log, and every add of the log
that is owed is covered. -/
structure Traced (log : String → Option PendingMlsOperation) (net : MlsNet) : Prop where
  sound : net.hub.registry.Sound
  known : ∀ w ∈ net.workers, w.GroupsKnown
  named : ∀ id op, log id = some op → id ≠ ""
  ops : ∀ w ∈ net.workers, ∀ id op, w.pendingMlsOperations.lookup id = some op →
    log id = some (started op)
  frames : ∀ f ∈ net.toServer, FrameLogged platform log f.2
  rows : ∀ g e i p, net.hub.db.mls.proposal? g e i = some p → ∃ op, log i = some op ∧ RowOf op p
  backed : ∀ g e r, net.hub.db.mls.epoch? g e = some r → r.proposalID ≠ "" →
    (net.hub.db.mls.proposal? g e r.proposalID).isSome
  owed : ∀ id op, log id = some op → op.add = true → net.isOwed id op = true →
    Covered platform net id op

/-- A welcome frame of a served session covers its operation as long as the session stays, or is in
the tables already. -/
theorem Covered.of_frame {id : String} {op : PendingMlsOperation} {f : ClientID × Message}
    (hserved : net.isServed f.1 = true) (hfm : f.2 = op.welcomeMessage platform id)
    (hstored : (net.hub.db.mls.welcome? op.group op.epoch.toNat
        (normalizedOrEmpty op.target)).isSome = true →
      (net'.hub.db.mls.welcome? op.group op.epoch.toNat (normalizedOrEmpty op.target)).isSome = true)
    (hkept : net.isUnread f = true → f ∈ net'.toServer ∧ net'.isServed f.1 = true) :
    Covered platform net' id op := by
  by_cases hrow : (net.hub.db.mls.welcome? op.group op.epoch.toNat
      (normalizedOrEmpty op.target)).isSome = true
  · exact .inl (hstored hrow)
  · have hunread : net.isUnread f = true := by
      unfold isUnread isStored
      rw [hserved, hfm]
      simpa [PendingMlsOperation.welcomeMessage] using hrow
    obtain ⟨hf, hserved'⟩ := hkept hunread
    exact .inr (.inl ⟨f, hf, hserved', hfm⟩)

/-- The five tables of the store, the workers, the frames and the sessions with an unread welcome
decide the invariant. -/
theorem Traced.of_keeps (ht : Traced platform log net)
    (hmls : KeepsMls net.hub.db.mls net'.hub.db.mls) (hs : net'.hub.registry.Sound)
    (hw : net'.workers = net.workers) (hf : net'.toServer = net.toServer)
    (hserved : ∀ f ∈ net.toServer, net.isUnread f = true → net'.isServed f.1 = true) :
    Traced platform log net' := by
  obtain ⟨keyPackages, hmls⟩ := hmls
  refine ⟨hs, hw ▸ ht.known, ht.named, hw ▸ ht.ops, hf ▸ ht.frames, ?_, ?_, ?_⟩
  · rw [hmls]
    exact ht.rows
  · rw [hmls]
    exact ht.backed
  · intro id op hop hadd howed
    have hbefore : net.isOwed id op = true := by
      unfold isOwed isCommitted at howed ⊢
      rw [hmls, hf] at howed
      exact howed
    have hrows : (net'.hub.db.mls.welcome? op.group op.epoch.toNat (normalizedOrEmpty op.target)) =
        net.hub.db.mls.welcome? op.group op.epoch.toNat (normalizedOrEmpty op.target) := by
      rw [hmls]
      rfl
    rcases ht.owed id op hop hadd hbefore with hstored | ⟨f, hmem, hsession, hfm⟩ | hwaits
    · exact .inl (hrows ▸ hstored)
    · exact .of_frame platform hsession hfm (fun h => hrows ▸ h) fun hunread =>
        ⟨hf ▸ hmem, hserved f hmem hunread⟩
    · exact .inr (.inr (hw ▸ hwaits))

theorem traced_start (adminCode : String) (offlineStore : Bool) (n : ℕ) :
    Traced platform (fun _ => none) (start adminCode offlineStore n) where
  sound := Hub.sound_start adminCode offlineStore
  known := by
    intro w hw id op hop
    rw [List.eq_of_mem_replicate hw] at hop
    cases hop
  named := fun _ _ hop => by cases hop
  ops := by
    intro w hw id op hop
    rw [List.eq_of_mem_replicate hw] at hop
    cases hop
  frames := fun _ hf => by cases hf
  rows := fun _ _ _ _ hp => by cases hp
  backed := fun _ _ _ hr => by cases hr
  owed := fun _ _ hop => by cases hop

/-! ### A worker's step -/

theorem isOpFrame_commitMessage (op : PendingMlsOperation) (id : String) :
    IsOpFrame (op.commitMessage id) := .inr (.inl rfl)

theorem isOwed_iff {id : String} {op : PendingMlsOperation} : net.isOwed id op = true ↔
    net.isCommitted id op.group op.epoch = true ∨ ∃ f ∈ net.toServer, f.2 = op.commitMessage id := by
  unfold isOwed
  simp only [Bool.or_eq_true, List.any_eq_true, beq_iff_eq]

section Worker

variable {platform} {i : ℕ} {w w' : MlsWorker} {frames : List Message} {x : MlsInput × MlsDraw}
  (hw : net.workers[i]? = some w)

include hw

/-- An add that was covered still is, unless the worker's own operation covered it. -/
theorem Covered.afterWorker {id : String} {op : PendingMlsOperation}
    (hc : Covered platform net id op)
    (hown : ∀ op', w.pendingMlsOperations.lookup id = some op' → op'.phase = .commit →
      Covered platform (net.afterWorker i w' frames) id op) :
    Covered platform (net.afterWorker i w' frames) id op := by
  rcases hc with hstored | ⟨f, hf, hserved, hfm⟩ | ⟨v, hv, op', hop', hphase⟩
  · exact .inl hstored
  · exact .inr (.inl ⟨f, List.mem_append_left _ hf, hserved, hfm⟩)
  · have hmem : v = w ∨ v ∈ (net.afterWorker i w' frames).workers := mem_afterWorker_of_mem hw hv
    rcases hmem with rfl | hmem
    · exact hown op' hop' hphase
    · exact .inr (.inr ⟨v, hmem, op', hop', hphase⟩)

/-- A step that starts no operation: the log stays, when the new frames are logged and what is owed
afterwards is covered. -/
theorem Traced.afterWorker (ht : Traced platform log net) (hk : w'.GroupsKnown)
    (hops : ∀ id op, w'.pendingMlsOperations.lookup id = some op →
      ∃ op', w.pendingMlsOperations.lookup id = some op' ∧ started op = started op')
    (hframes : ∀ m ∈ frames, FrameLogged platform log m)
    (hcover : ∀ id op, log id = some op → op.add = true →
      (net.isOwed id op = true → Covered platform net id op) →
      (net.afterWorker i w' frames).isOwed id op = true →
      Covered platform (net.afterWorker i w' frames) id op) :
    Traced platform log (net.afterWorker i w' frames) where
  sound := ht.sound
  known := by
    intro v hv
    rcases mem_workers_afterWorker hv with rfl | hv
    · exact hk
    · exact ht.known v hv
  named := ht.named
  ops := by
    intro v hv id op hop
    rcases mem_workers_afterWorker hv with rfl | hv
    · obtain ⟨op', hop', heq⟩ := hops id op hop
      rw [heq]
      exact ht.ops w (List.mem_of_getElem? hw) id op' hop'
    · exact ht.ops v hv id op hop
  frames := by
    intro f hf
    rcases mem_frames_afterWorker hf with hf | hf
    · exact ht.frames f hf
    · exact hframes _ hf
  rows := ht.rows
  backed := ht.backed
  owed := fun id op hop hadd howed => hcover id op hop hadd (ht.owed id op hop hadd) howed

end Worker

/-- What is owed after a worker's step was owed before or has a new commit frame. -/
theorem isOwed_of_afterWorker {i : ℕ} {w' : MlsWorker} {frames : List Message} {id : String}
    {op : PendingMlsOperation} (ho : (net.afterWorker i w' frames).isOwed id op = true) :
    net.isOwed id op = true ∨ op.commitMessage id ∈ frames := by
  rcases isOwed_iff.1 ho with hc | ⟨f, hf, hfm⟩
  · exact .inl (isOwed_iff.2 (.inl hc))
  · rcases mem_frames_afterWorker hf with hf | hf
    · exact .inl (isOwed_iff.2 (.inr ⟨f, hf, hfm⟩))
    · exact .inr (hfm ▸ hf)

theorem carefulWorker_iff {w : MlsWorker} {x : MlsInput × MlsDraw} :
    net.carefulWorker platform w x = true ↔
      (∀ id, w.startID x.1 = some id → net.unused id = true) ∧
        ∀ id op, w.pendingMlsOperations.lookup id = some op → op.add = true → op.phase = .commit →
          net.isOwed id op = true → net.losesAdd platform w x id op = false := by
  unfold carefulWorker
  simp only [Bool.and_eq_true, Option.all_eq_true, List.all_eq_true, Bool.not_eq_true',
    Bool.and_eq_false_imp, beq_iff_eq, and_imp]
  refine and_congr_right fun _ => ⟨fun h id op hop => ?_, fun h id _ op hop => h id op hop⟩
  exact h id (AList.lookup_isSome.1 (by rw [hop]; rfl)) op hop

theorem unused_iff {id : String} : net.unused id = true ↔
    (∀ w ∈ net.workers, w.pendingMlsOperations.lookup id = none) ∧
      (∀ f ∈ net.toServer, f.2.proposalID ≠ id) ∧
        ∀ p ∈ net.hub.db.mls.proposals.rows, p.proposalID ≠ id := by
  unfold unused
  simp only [Bool.and_eq_true, List.all_eq_true, Option.isNone_iff_eq_none, bne_iff_ne, and_assoc]

/-- A started operation has a place of its own in the log. -/
theorem Traced.start {i : ℕ} {w w' : MlsWorker} {id : String} {op : PendingMlsOperation}
    (ht : Traced platform log net) (hw : net.workers[i]? = some w) (hk : w'.GroupsKnown)
    (hu : net.unused id = true) (hid : id ≠ "") (hphase : op.phase = .proposal)
    (hops : w'.pendingMlsOperations = w.pendingMlsOperations.insert id op) :
    Traced platform (Function.update log id (some op))
      (net.afterWorker i w' [op.proposalMessage id]) := by
  obtain ⟨hworkers, hwire, hrows⟩ := unused_iff.1 hu
  have hmem := List.mem_of_getElem? hw
  have hrow : ∀ g e j p, net.hub.db.mls.proposal? g e j = some p → j ≠ id := by
    rintro g e j p hp rfl
    have hkey := Table.key_of_lookup hp
    simp only [MlsProposal.key, Prod.mk.injEq] at hkey
    exact hrows p (Table.mem_of_lookup hp) hkey.2.2
  have hstarted : started op = op := by
    unfold started
    rw [← hphase]
  -- the log grows at the new command id only, which no other part of the state has
  refine ⟨ht.sound, ?_, ?_, ?_, ?_, ?_, ht.backed, ?_⟩
  · intro v hv
    rcases mem_workers_afterWorker hv with rfl | hv
    · exact hk
    · exact ht.known v hv
  · intro j op' hop'
    by_cases hj : j = id
    · subst hj
      exact hid
    · rw [Function.update_of_ne hj] at hop'
      exact ht.named j op' hop'
  · intro v hv j op' hop'
    rcases mem_workers_afterWorker hv with rfl | hv'
    · rw [hops] at hop'
      by_cases hj : j = id
      · subst hj
        rw [AList.lookup_insert] at hop'
        cases hop'
        rw [Function.update_self, hstarted]
      · rw [AList.lookup_insert_ne hj] at hop'
        rw [Function.update_of_ne hj]
        exact ht.ops w hmem j op' hop'
    · have hj : j ≠ id := by
        rintro rfl
        rw [hworkers v hv'] at hop'
        cases hop'
      rw [Function.update_of_ne hj]
      exact ht.ops v hv' j op' hop'
  · intro f hf hopf
    rcases mem_frames_afterWorker hf with hf | hf
    · rw [Function.update_of_ne (hwire f hf)]
      exact ht.frames f hf hopf
    · rw [List.mem_singleton.1 hf]
      exact ⟨op, Function.update_self _ _ _, .inl rfl⟩
  · intro g e j p hp
    rw [Function.update_of_ne (hrow g e j p hp)]
    exact ht.rows g e j p hp
  · intro j op' hop' hadd howed
    have hbefore : net.isOwed j op' = true := by
      rcases isOwed_of_afterWorker howed with howed | hframe
      · exact howed
      · have htype := congrArg Message.type (List.mem_singleton.1 hframe)
        cases htype
    by_cases hj : j = id
    · -- nothing on the wires or in the tables has the new command id
      subst hj
      rcases isOwed_iff.1 hbefore with hcommitted | ⟨f, hf, hfm⟩
      · obtain ⟨r, hr, hpid⟩ := (Option.any_eq_true _ _).1 hcommitted
        rw [beq_iff_eq] at hpid
        obtain ⟨p, hp⟩ := Option.isSome_iff_exists.1 (ht.backed _ _ r hr (hpid ▸ hid))
        exact absurd hpid (hrow _ _ _ p hp)
      · exact absurd (congrArg Message.proposalID hfm) (hwire f hf)
    · rw [Function.update_of_ne hj] at hop'
      refine (ht.owed j op' hop' hadd hbefore).afterWorker hw fun op'' hop'' hcommit => ?_
      refine .inr (.inr ⟨w', worker_mem_afterWorker hw, op'', ?_, hcommit⟩)
      rw [hops, AList.lookup_insert_ne hj]
      exact hop''

/-- A frame of an operation that is pending is logged. -/
theorem Traced.frameLogged {w : MlsWorker} {id : String} {op : PendingMlsOperation} {m : Message}
    (ht : Traced platform log net) (hw : w ∈ net.workers)
    (hop : w.pendingMlsOperations.lookup id = some op)
    (hm : m = op.proposalMessage id ∨ m = op.commitMessage id ∨ m = op.welcomeMessage platform id) :
    FrameLogged platform log m := by
  intro _
  have hlog := ht.ops w hw id op hop
  rcases hm with rfl | rfl | rfl
  · exact ⟨started op, hlog, .inl rfl⟩
  · exact ⟨started op, hlog, .inr (.inl rfl)⟩
  · exact ⟨started op, hlog, .inr (.inr rfl)⟩

/-- A phase moves on, and the operation's next frame is sent: the others are left alone. -/
theorem Traced.advance {i : ℕ} {w w' : MlsWorker} {id : String} {op : PendingMlsOperation}
    {phase : Phase} {m : Message} (ht : Traced platform log net) (hw : net.workers[i]? = some w)
    (hk : w'.GroupsKnown) (hop : w.pendingMlsOperations.lookup id = some op)
    (hops : w'.pendingMlsOperations = w.pendingMlsOperations.insert id { op with phase })
    (hm : m = op.commitMessage id ∨ m = op.welcomeMessage platform id)
    (hcover : (net.afterWorker i w' [m]).isOwed id (started op) = true →
      Covered platform (net.afterWorker i w' [m]) id (started op)) :
    Traced platform log (net.afterWorker i w' [m]) := by
  have hmem := List.mem_of_getElem? hw
  refine ht.afterWorker hw hk (fun j op'' hop'' => ?_) (fun m' hm' => ?_) ?_
  · rw [hops] at hop''
    by_cases hj : j = id
    · subst hj
      rw [AList.lookup_insert] at hop''
      cases hop''
      exact ⟨op, hop, rfl⟩
    · rw [AList.lookup_insert_ne hj] at hop''
      exact ⟨op'', hop'', rfl⟩
  · rw [List.mem_singleton.1 hm']
    exact ht.frameLogged platform hmem hop (.inr hm)
  · intro j op'' hop'' hadd hbefore howed
    by_cases hj : j = id
    · subst hj
      have hlog := ht.ops w hmem j op hop
      rw [hlog] at hop''
      cases hop''
      exact hcover howed
    · have howed' : net.isOwed j op'' = true := by
        rcases isOwed_of_afterWorker howed with howed | hframe
        · exact howed
        · have hpid := congrArg Message.proposalID (List.mem_singleton.1 hframe)
          rcases hm with rfl | rfl
          · exact absurd hpid hj
          · exact absurd hpid hj
      refine (hbefore howed').afterWorker hw fun op3 hop3 hcommit => ?_
      refine .inr (.inr ⟨w', worker_mem_afterWorker hw, op3, ?_, hcommit⟩)
      rw [hops, AList.lookup_insert_ne hj]
      exact hop3

/-- A careful step of a worker keeps the invariant. -/
theorem Traced.stepWorker {i : ℕ} {w : MlsWorker} {x : MlsInput × MlsDraw}
    (ht : Traced platform log net) (hw : net.workers[i]? = some w)
    (hc : net.carefulWorker platform w x = true) :
    ∃ log', Traced platform log' (net.stepWorker platform i x) := by
  rw [stepWorker_eq platform hw]
  obtain ⟨hunused, hkept⟩ := (carefulWorker_iff platform).1 hc
  have hmem := List.mem_of_getElem? hw
  have hk := (ht.known w hmem).step platform x
  have hstep := MlsWorker.opStep platform (ht.known w hmem) x
  generalize (w.step platform x).1 = w' at hstep hk
  generalize (w.step platform x).2 = frames at hstep
  -- frames that are none of an operation's leave nothing new to cover
  have hquiet : (∀ m ∈ frames, ¬ IsOpFrame m) → ∀ id op,
      (net.afterWorker i w' frames).isOwed id op = true → net.isOwed id op = true := by
    intro hframes id op howed
    rcases isOwed_of_afterWorker howed with howed | hframe
    · exact howed
    · exact absurd (isOpFrame_commitMessage op id) (hframes _ hframe)
  cases hstep with
  | quiet hops hframes =>
    refine ⟨log, ht.afterWorker hw hk (fun id op hop => ⟨op, hops ▸ hop, rfl⟩)
      (fun m hm hop => absurd hop (hframes m hm)) ?_⟩
    intro id op hop hadd hbefore howed
    refine (hbefore (hquiet hframes id op howed)).afterWorker hw fun op' hop' hcommit => ?_
    exact .inr (.inr ⟨w', worker_mem_afterWorker hw, op', hops ▸ hop', hcommit⟩)
  | start id op hstarts hid hnone hphase hgroup _ hops hframes =>
    rw [hframes]
    exact ⟨_, ht.start platform hw hk (hunused id hstarts) hid hphase hops⟩
  | commit id op hop hphase hops hframes =>
    rw [hframes]
    refine ⟨log, ht.advance platform hw hk hop hops (.inl rfl) fun _ => .inr (.inr ?_)⟩
    exact ⟨w', worker_mem_afterWorker hw, _, by rw [hops, AList.lookup_insert], rfl⟩
  | welcome id op hop hphase hadd hsession hack hops hframes =>
    rw [hframes]
    refine ⟨log, ht.advance platform hw hk hop hops (.inr rfl) fun howed => .inr (.inl ?_)⟩
    have howed' : net.isOwed id op = true := by
      rcases isOwed_of_afterWorker howed with howed | hframe
      · exact howed
      · have htype := congrArg Message.type (List.mem_singleton.1 hframe)
        cases htype
    -- the acknowledgement has come on a session that the server still reads
    obtain ⟨m, hm, hid, htype, hempty⟩ := hack
    have hloses := hkept id op hop hadd hphase howed'
    unfold losesAdd at hloses
    rw [hm, Bool.or_eq_false_iff] at hloses
    have hserved : w.session.any net.isServed = true := by
      have hboth := hloses.2
      simp only [hid, htype, hempty, beq_self_eq_true, Bool.true_and, Bool.or_eq_false_iff,
        Bool.not_eq_false'] at hboth
      exact hboth.2.2
    obtain ⟨c, hc, hserved⟩ := (Option.any_eq_true _ _).1 hserved
    exact ⟨(c, op.welcomeMessage platform id),
      List.mem_append_right _ (mem_sent (hsession.trans hc) (List.mem_singleton_self _)), hserved, rfl⟩
  | drop id hops hframes hwhy =>
    have hlookup : ∀ j, j ≠ id → w'.pendingMlsOperations.lookup j =
        w.pendingMlsOperations.lookup j := by
      intro j hj
      rw [hops, AList.lookup_erase_ne hj]
    refine ⟨log, ht.afterWorker hw hk (fun j op hop => ?_)
      (fun m hm hop => absurd hop (hframes m hm)) ?_⟩
    · have hj : j ≠ id := by
        rintro rfl
        rw [hops, AList.lookup_erase] at hop
        cases hop
      exact ⟨op, hlookup j hj ▸ hop, rfl⟩
    · intro j op hop hadd hbefore howed
      have howed' := hquiet hframes j op howed
      refine (hbefore howed').afterWorker hw fun op' hop' hcommit => ?_
      by_cases hj : j = id
      · subst hj
        have hlog := (ht.ops w hmem j op' hop').symm.trans hop
        cases hlog
        obtain ⟨m, hm, hid, hcause⟩ := hwhy op' hop' hcommit hadd
        have hloses := hkept j op' hop' hadd hcommit howed'
        unfold losesAdd at hloses
        rw [hm, Bool.or_eq_false_iff] at hloses
        rcases hcause with herror | ⟨hack, hempty, hfail⟩
        · simp [hid, herror] at hloses
        · simp [hid, hack, hempty, hfail] at hloses
      · exact .inr (.inr ⟨w', worker_mem_afterWorker hw, op', (hlookup j hj).trans hop', hcommit⟩)
  | reset hswitches hops hframes =>
    refine ⟨log, ht.afterWorker hw hk (fun j op hop => ?_)
      (fun m hm hop => absurd hop (hframes m hm)) ?_⟩
    · rw [hops] at hop
      cases hop
    · intro j op hop hadd hbefore howed
      have howed' := hquiet hframes j op howed
      refine (hbefore howed').afterWorker hw fun op' hop' hcommit => ?_
      have hlog := (ht.ops w hmem j op' hop').symm.trans hop
      cases hlog
      have hloses := hkept j op' hop' hadd hcommit howed'
      unfold losesAdd at hloses
      rw [hswitches, Bool.true_or] at hloses
      cases hloses
  | resume hops hframes =>
    have hlookup : ∀ j op, w.pendingMlsOperations.lookup j = some op → op.phase = .commit →
        w'.pendingMlsOperations.lookup j = some op := by
      intro j op hop hcommit
      rw [hops, hop, Option.any_some, hcommit]
      rfl
    refine ⟨log, ht.afterWorker hw hk (fun j op hop => ?_) (fun m hm hop => ?_) ?_⟩
    · rw [hops] at hop
      split at hop
      · cases hop
      · exact ⟨op, hop, rfl⟩
    · obtain ⟨id, op, hop', hframe⟩ := hframes m hm hop
      refine ht.frameLogged platform hmem hop' ?_ hop
      rcases hframe with ⟨-, rfl⟩ | ⟨-, rfl⟩
      · exact .inl rfl
      · exact .inr (.inl rfl)
    · intro j op hop hadd hbefore howed
      rcases isOwed_of_afterWorker howed with howed' | hframe
      · refine (hbefore howed').afterWorker hw fun op' hop' hcommit => ?_
        exact .inr (.inr ⟨w', worker_mem_afterWorker hw, op', hlookup j op' hop' hcommit, hcommit⟩)
      · -- a commit that is sent again is that of an operation which still waits
        obtain ⟨id, op', hop', ⟨-, hm⟩ | ⟨hcommit, hm⟩⟩ :=
          hframes _ hframe (isOpFrame_commitMessage op j)
        · have htype := congrArg Message.type hm
          cases htype
        · obtain rfl : j = id := congrArg Message.proposalID hm
          exact .inr (.inr ⟨w', worker_mem_afterWorker hw, op', hlookup j op' hop' hcommit, hcommit⟩)

/-! ### The server's steps -/

theorem Traced.of_event (ht : Traced platform log net) {e : Hub.Event}
    (he : ∀ c m limited muted, e.input = .frame c m limited muted → isMlsFrame m = false)
    (hh : net'.hub = net.hub.step platform e) (hw : net'.workers = net.workers)
    (hf : net'.toServer = net.toServer)
    (hserved : ∀ f ∈ net.toServer, net.isUnread f = true → net'.isServed f.1 = true) :
    Traced platform log net' := by
  refine ht.of_keeps platform ?_ ?_ hw hf hserved
  · rw [hh]
    exact keepsMls_of_not_frame platform ht.sound he
  · rw [hh]
    exact Hub.sound_step platform _ e ht.sound

/-- The tables, the workers and the frames decide the conditions on a worker's step, and for a message
the sessions. -/
theorem carefulWorker_congr (hmls : KeepsMls net.hub.db.mls net'.hub.db.mls)
    (hworkers : net'.workers = net.workers) (hserver : net'.toServer = net.toServer)
    (w : MlsWorker) {x : MlsInput × MlsDraw} (hhub : ∀ m, x.1 = .receive m → net'.hub = net.hub) :
    net'.carefulWorker platform w x = net.carefulWorker platform w x := by
  obtain ⟨keyPackages, hmls⟩ := hmls
  have hloses : net'.losesAdd platform w x = net.losesAdd platform w x := by
    funext id op
    unfold losesAdd
    cases hx : x.1 with
    | receive m =>
      have hsame : net'.isServed = net.isServed := by
        unfold isServed
        rw [hhub m hx]
      rw [hsame]
    | _ => rfl
  unfold carefulWorker unused isOwed isCommitted
  rw [hloses, hmls, hworkers, hserver]
  rfl

/-- Frames are lost with their connection, but no welcome that is not stored. -/
theorem Traced.loseFrames (ht : Traced platform log net) {c : ClientID}
    (hc : net.carefulInput platform (.loseFrames c) = true) :
    Traced platform log (net.step platform (.loseFrames c)) where
  sound := ht.sound
  known := ht.known
  named := ht.named
  ops := ht.ops
  frames := fun f hf => ht.frames f (List.mem_filter.1 hf).1
  rows := ht.rows
  backed := ht.backed
  owed := by
    intro id op hop hadd howed
    have hbefore : net.isOwed id op = true := by
      refine isOwed_iff.2 ((isOwed_iff.1 howed).imp_right ?_)
      rintro ⟨f, hf, hfm⟩
      exact ⟨f, (List.mem_filter.1 hf).1, hfm⟩
    rcases ht.owed id op hop hadd hbefore with hstored | ⟨f, hf, hserved, hfm⟩ | hwaits
    · exact .inl hstored
    · refine .of_frame platform hserved hfm (fun h => h) fun hunread => ⟨?_, hserved⟩
      have hother : f.1 ≠ c := by
        rintro rfl
        have hlost := List.all_eq_true.1 hc f hf
        rw [hunread, bne_self_eq_false] at hlost
        cases hlost
      exact List.mem_filter.2 ⟨hf, by simpa using hother⟩
    · exact .inr (.inr hwaits)

theorem normalizedOrEmpty_of_ok {code norm : String} (h : normalizeUserCode code = .ok norm) :
    normalizedOrEmpty code = norm := by
  unfold normalizedOrEmpty
  rw [h]

theorem Traced.proposal_frame (ht : Traced platform log net) {f : ClientID × Message}
    (hf : f ∈ net.toServer) (hm : f.2.type = .mlsGroupProposal) :
    ∃ op, log f.2.proposalID = some op ∧ f.2 = op.proposalMessage f.2.proposalID := by
  obtain ⟨op, hlog, heq | heq | heq⟩ := ht.frames f hf (.inl hm)
  · exact ⟨op, hlog, heq⟩
  · rw [heq] at hm
    cases hm
  · rw [heq] at hm
    cases hm

theorem Traced.commit_frame (ht : Traced platform log net) {f : ClientID × Message}
    (hf : f ∈ net.toServer) (hm : f.2.type = .mlsGroupCommit) :
    ∃ op, log f.2.proposalID = some op ∧ f.2 = op.commitMessage f.2.proposalID := by
  obtain ⟨op, hlog, heq | heq | heq⟩ := ht.frames f hf (.inr (.inl hm))
  · rw [heq] at hm
    cases hm
  · exact ⟨op, hlog, heq⟩
  · rw [heq] at hm
    cases hm

/-- The row that a proposal frame asks for is that of its operation. -/
theorem RowOf.of_proposedBy {op : PendingMlsOperation} {p : MlsProposal} {id : String}
    (h : ProposedBy (op.proposalMessage id) p) : RowOf op p := by
  have hne : (op.proposalMessage id).action ≠ "" := by
    unfold PendingMlsOperation.proposalMessage
    split
    · simp
    · simp
  obtain ⟨haction, htarget⟩ := h.strict hne
  refine ⟨h.group.symm, h.epoch.symm, ?_, htarget⟩
  unfold PendingMlsOperation.proposalMessage at haction
  cases hadd : op.add with
  | true =>
    rw [hadd] at haction
    have hp : p.action = .add := by
      have hparse : parseAction "add" = .ok .add := by decide
      exact (Except.ok.inj (hparse.symm.trans haction)).symm
    simp [hp]
  | false =>
    rw [hadd] at haction
    have hp : p.action = .remove := by
      have hparse : parseAction "remove" = .ok .remove := by decide
      exact (Except.ok.inj (hparse.symm.trans haction)).symm
    simp [hp]

/-- A logged commit of an operation is that of its add. -/
theorem Traced.addCommitted (ht : Traced platform log net) {id : String}
    {op : PendingMlsOperation} (hop : log id = some op) (hadd : op.add = true)
    (hc : net.isCommitted id op.group op.epoch = true) :
    ∃ t, normalizeUserCode op.target = .ok t ∧
      AddCommitted net.hub.db.mls op.group op.epoch.toNat id t := by
  obtain ⟨r, hr, hpid⟩ := (Option.any_eq_true _ _).1 hc
  rw [beq_iff_eq] at hpid
  obtain ⟨p, hp⟩ := Option.isSome_iff_exists.1 (ht.backed _ _ r hr (hpid ▸ ht.named id op hop))
  rw [hpid] at hp
  obtain ⟨op', hop', -, -, haction, htarget⟩ := ht.rows _ _ _ p hp
  cases hop.symm.trans hop'
  exact ⟨p.targetCode, htarget, ⟨p, hp, haction.1 hadd, rfl⟩, r, hr, hpid⟩

/-- The system after the server has read a frame. -/
def afterRead (net : MlsNet) (c : ClientID) (m : Message) (env : Env) (limited muted : Bool) : MlsNet :=
  { net with
    hub := net.hub.step platform ⟨.frame c m limited muted, env⟩
    toServer := dropNext net.toServer c }

/-- The server reads a frame. -/
theorem Traced.readFrame (ht : Traced platform log net) {c : ClientID} {m : Message} {env : Env}
    {limited muted : Bool} (hm : nextFrame net.toServer c = some m)
    (hreads : net.hub.readsFrames c = true)
    (hc : net.carefulInput platform (.readFrame c env limited muted) = true)
    (hserved : ∀ f ∈ dropNext net.toServer c, net.isUnread f = true →
      (net.afterRead platform c m env limited muted).isServed f.1 = true) :
    Traced platform log (net.afterRead platform c m env limited muted) := by
  have hmem := nextFrame_eq_some hm
  have hcheck : net.isUnread (c, m) = true → (limited = false ∧
      net.isCommitted m.proposalID m.groupID m.epoch = true) ∧
        net.hub.welcomeChecks env c m = true := by
    intro hunread
    simpa [carefulInput, hm, hunread] using hc
  have hext := extends_of_sound platform ht.sound ⟨.frame c m limited muted, env⟩
  have hframe : ∀ {c' obj m'}, FrameOf net.hub ⟨.frame c m limited muted, env⟩ c' obj m' →
      m' = m := by
    rintro c' obj m' ⟨⟨_, _, hinput⟩, -⟩
    cases hinput
    rfl
  refine ⟨Hub.sound_step platform _ _ ht.sound, ht.known, ht.named, ht.ops,
    fun f hf => ht.frames f (List.mem_of_mem_eraseP hf), ?_, ?_, ?_⟩
  -- a row of a proposal is old, or of the frame
  · intro g e i p hp
    rcases proposal_step platform ht.sound _ hp with hold | ⟨c', obj, m', hfo, htype, hby⟩
    · exact ht.rows g e i p hold
    · obtain rfl := hframe hfo
      obtain ⟨op, hlog, heq⟩ := ht.proposal_frame platform hmem htype
      have hkey := Table.key_of_lookup hp
      simp only [MlsProposal.key, Prod.mk.injEq] at hkey
      rw [← hkey.2.2, hby.proposalID]
      have hby' : ProposedBy (op.proposalMessage m'.proposalID) p := heq ▸ hby
      exact ⟨op, hlog, .of_proposedBy hby'⟩
  · intro g e r hr hne
    have hbefore : (net.hub.db.mls.proposal? g e r.proposalID).isSome := by
      rcases epoch_step platform ht.sound _ hr with hold | ⟨c', obj, m', hfo, -, -, -, hpid, -, hp⟩
      · exact ht.backed g e r hold hne
      · rw [hpid] at hne ⊢
        exact hp hne
    obtain ⟨p, hp⟩ := Option.isSome_iff_exists.1 hbefore
    have hafter : (net.afterRead platform c m env limited muted).hub.db.mls.proposal? g e
        r.proposalID = some p := hext.proposal hp
    rw [hafter]
    rfl
  · intro id op hop hadd howed
    have hbefore : net.isOwed id op = true := by
      rcases isOwed_iff.1 howed with hcommitted | ⟨f, hf, hfm⟩
      · obtain ⟨r, hr, hpid⟩ := (Option.any_eq_true _ _).1 hcommitted
        rcases epoch_step platform ht.sound _ hr with
          hold | ⟨c', obj, m', hfo, htype, -, -, hrpid, -, -⟩
        · exact isOwed_iff.2 (.inl ((Option.any_eq_true _ _).2 ⟨r, hold, hpid⟩))
        · -- the commit was on its way
          obtain rfl := hframe hfo
          rw [beq_iff_eq] at hpid
          obtain ⟨op', hlog, heq⟩ := ht.commit_frame platform hmem htype
          have hid : m'.proposalID = id := hrpid.symm.trans hpid
          dsimp only at hlog heq
          rw [hid] at hlog heq
          cases hop.symm.trans hlog
          exact isOwed_iff.2 (.inr ⟨_, hmem, heq⟩)
      · exact isOwed_iff.2 (.inr ⟨f, List.mem_of_mem_eraseP hf, hfm⟩)
    have hrows : ∀ e : Hub.Event, (net.hub.db.mls.welcome? op.group op.epoch.toNat
        (normalizedOrEmpty op.target)).isSome = true → ((net.hub.step platform e).db.mls.welcome?
          op.group op.epoch.toNat (normalizedOrEmpty op.target)).isSome = true :=
      fun e => welcome_isSome_step platform ht.sound e
    -- a stored welcome stays, a waiting operation waits on, and of the frames one has been read
    rcases ht.owed id op hop hadd hbefore with hstored | ⟨f, hf, hsession, hfm⟩ | hwaits
    · exact .inl (hrows _ hstored)
    · rcases mem_dropNext hm hf with rfl | hkept
      · -- the welcome itself is read, and the server stores it
        dsimp only at hfm
        subst hfm
        by_cases hunread : net.isUnread (c, op.welcomeMessage platform id) = true
        · obtain ⟨⟨rfl, hcommitted⟩, hchecks⟩ := hcheck hunread
          obtain ⟨t, htarget, hcommit⟩ := ht.addCommitted platform hop hadd hcommitted
          have hstored := welcome_stored platform ht.sound
            (e := ⟨.frame c (op.welcomeMessage platform id) false muted, env⟩) rfl rfl hreads
            hchecks rfl (ht.named id op hop) rfl htarget hcommit
          rw [← normalizedOrEmpty_of_ok htarget] at hstored
          exact .inl hstored
        · exact .of_frame platform (f := (c, op.welcomeMessage platform id)) hsession rfl (hrows _)
            fun h => absurd h hunread
      · exact .of_frame platform hsession hfm (hrows _) fun hunread =>
          ⟨hkept, hserved f hkept hunread⟩
    · exact .inr (.inr hwaits)

/-! ### Runs -/

/-- A careful step gives a worker a careful input. -/
theorem carefulWorker_of_careful {input : Input} {w : MlsWorker} {x : MlsInput × MlsDraw}
    (hc : net.carefulInput platform input = true)
    (hinput : net.workerInput platform input = some (w, x)) :
    net.carefulWorker platform w x = true := by
  cases input with
  | call i slot d =>
    unfold workerInput at hinput
    dsimp only at hinput
    split at hinput
    · obtain ⟨w', hw, heq⟩ := Option.map_eq_some_iff.1 hinput
      cases heq
      simpa [carefulInput, hw] using hc
    · cases hinput
  | connectToServer i username userCode attempt d =>
    obtain ⟨w', hw, heq⟩ := Option.map_eq_some_iff.1 hinput
    cases heq
    simpa [carefulInput, hw] using hc
  | retrySavedConnection i attempt d =>
    obtain ⟨w', hw, hinput⟩ := Option.bind_eq_some_iff.1 hinput
    split at hinput
    · cases hinput
      refine (carefulWorker_iff platform).2 ⟨fun id h => ?_, fun id op _ _ _ _ => rfl⟩
      cases h
    · cases hinput
  | receive i d =>
    obtain ⟨w', hw, hinput⟩ := Option.bind_eq_some_iff.1 hinput
    obtain ⟨c, hwc, hinput⟩ := Option.bind_eq_some_iff.1 hinput
    obtain ⟨m, hm, heq⟩ := Option.map_eq_some_iff.1 hinput
    cases heq
    simpa [carefulInput, hw, hwc, hm] using hc
  | _ => cases hinput

/-- Every careful step keeps the invariant. -/
theorem traced_step {input : Input} (hc : net.careful platform input = true)
    (ht : ∃ log, Traced platform log net) : ∃ log, Traced platform log (net.step platform input) := by
  obtain ⟨log, ht⟩ := ht
  obtain ⟨hinputs, hsessions⟩ := Bool.and_eq_true_iff.1 hc
  have hserved : ∀ f ∈ (net.step platform input).toServer, net.isUnread f = true →
      (net.step platform input).isServed f.1 = true := by
    intro f hf hunread
    simpa [hunread] using List.all_eq_true.1 hsessions f hf
  cases netStep platform net input with
  | quiet hworkers hserver _ hhub =>
    refine ⟨log, ?_⟩
    rw [hserver] at hserved
    rcases hhub with heq | ⟨e, he, heq⟩
    · exact ht.of_keeps platform (heq ▸ KeepsMls.refl _) (heq ▸ ht.sound) hworkers hserver hserved
    · exact ht.of_event platform he heq hworkers hserver hserved
  | worker i w x base hw hinput hworkers hserver _ hhub _ h =>
    have hmls : KeepsMls net.hub.db.mls base.hub.db.mls := by
      rcases hhub with heq | ⟨u, c, env, heq⟩
      · rw [heq]
        exact KeepsMls.refl _
      · rw [heq]
        exact keepsMls_of_not_frame platform ht.sound fun _ _ _ _ h => by cases h
    have hsound : base.hub.registry.Sound := by
      rcases hhub with heq | ⟨u, c, env, heq⟩
      · rw [heq]
        exact ht.sound
      · rw [heq]
        exact Hub.sound_step platform _ _ ht.sound
    have hreceive : ∀ m, x.1 = .receive m → base.hub = net.hub := by
      intro m hx
      have hsame := hub_of_receive platform hinput hx
      rwa [h] at hsame
    have ht' := ht.of_keeps platform hmls hsound hworkers hserver fun f hf hunread => by
      rw [h] at hserved
      exact hserved f (List.mem_append_left _ (hserver ▸ hf)) hunread
    have hw' : base.workers[i]? = some w := hworkers ▸ hw
    rw [h, ← stepWorker_eq platform hw']
    refine ht'.stepWorker platform hw' ?_
    rw [carefulWorker_congr platform hmls hworkers hserver w hreceive]
    exact carefulWorker_of_careful platform hinputs hinput
  | read c m env limited muted hinput hm hreads h =>
    subst hinput
    rw [h] at hserved ⊢
    exact ⟨log, ht.readFrame platform hm hreads hinputs hserved⟩
  | pump c obj m _ _ h =>
    rw [h] at hserved ⊢
    exact ⟨log, ht.of_event platform (e := ⟨.writePump c, {}⟩) (fun _ _ _ _ h => by cases h)
      rfl rfl rfl hserved⟩
  | lose c hinput _ =>
    subst hinput
    exact ⟨log, ht.loseFrames platform hinputs⟩

/-- A committed add of the invariant has its welcome. -/
theorem Traced.welcomeKept (ht : Traced platform log net) {g pid t : String} {e : ℤ}
    (hadd : AddCommitted net.hub.db.mls g e pid t) : net.WelcomeKept g e pid t := by
  obtain ⟨p, hp, haction, rfl⟩ := hadd.proposal
  obtain ⟨r, hr, hpid⟩ := hadd.epoch
  obtain ⟨op, hop, hgroup, hepoch, hiff, htarget⟩ := ht.rows g e pid p hp
  have hopAdd := hiff.2 haction
  have hkey := Table.key_of_lookup hp
  simp only [MlsProposal.key, Prod.mk.injEq] at hkey
  obtain ⟨rfl, rfl, -⟩ := hkey
  have hcommitted : net.isCommitted pid op.group op.epoch = true := by
    unfold isCommitted
    rw [hgroup, hepoch, hr]
    simpa using hpid
  have hnormal := normalizedOrEmpty_of_ok htarget
  rcases ht.owed pid op hop hopAdd (isOwed_iff.2 (.inl hcommitted)) with
    hstored | ⟨f, hf, hserved, hfm⟩ | ⟨w, hw, op', hop', hphase⟩
  · rw [hgroup, hepoch, hnormal] at hstored
    exact .inl hstored
  · refine .inr (.inl ⟨f, hf, hserved, ?_⟩)
    rw [hfm]
    simp [isWelcomeOf, PendingMlsOperation.welcomeMessage, hgroup, hepoch, hnormal]
  · refine .inr (.inr ⟨w, hw, ?_⟩)
    have hlog := (ht.ops w hw pid op' hop').symm.trans hop
    cases hlog
    have hadd' : op'.add = true := hopAdd
    have hgroup' : op'.group = p.groupID := hgroup
    have hepoch' : (op'.epoch.toNat : ℤ) = p.epoch := hepoch
    have hnormal' : normalizedOrEmpty op'.target = p.targetCode := hnormal
    unfold willSend
    rw [hop']
    simp [hphase, hadd', hgroup', hepoch', hnormal']

/-- A committed add stays committed. -/
theorem addCommitted_mono {s s' : MlsStore} (h : Extends s s') {g pid t : String} {e : ℤ}
    (hadd : AddCommitted s g e pid t) : AddCommitted s' g e pid t := by
  obtain ⟨⟨p, hp, hpt⟩, r, hr, hpid⟩ := hadd
  exact ⟨⟨p, h.proposal hp, hpt⟩, r, h.epoch hr, hpid⟩

/-! ### Alice adds Bob -/

/-- The conditions of a committed add, as a check on the tables. -/
theorem addCommitted_iff {s : MlsStore} {g pid t : String} {e : ℤ} : AddCommitted s g e pid t ↔
    ((s.proposal? g e pid).any (fun p => p.action == .add && p.targetCode == t) &&
      (s.epoch? g e).any fun r => r.proposalID == pid) = true := by
  simp only [Bool.and_eq_true, Option.any_eq_true, beq_iff_eq]
  exact ⟨fun h => ⟨h.proposal, h.epoch⟩, fun h => ⟨h.1, h.2⟩⟩

instance {s : MlsStore} {g pid t : String} {e : ℤ} : Decidable (AddCommitted s g e pid t) :=
  decidable_of_iff _ addCommitted_iff.symm

/-- Worker `i` logs in as client `c`, and the server reads its key package. -/
def joins (i : ℕ) (c : ClientID) (username userCode keyPackage : String) : List Input :=
  [.connectToServer i username userCode (.answered {}) { keyPackage := some keyPackage },
    .server ⟨.replay c, {}⟩, .server ⟨.replay c, {}⟩, .readFrame c {} false false]

/-- The next `n` messages of the server reach worker `i`. -/
def hears (i : ℕ) (c : ClientID) (n : ℕ) : List Input :=
  (List.replicate n [.writePump c, .receive i {}]).flatten

/-- Alice adds Bob, up to the commit that the server has logged. -/
def addsBob : List Input :=
  joins 0 0 "alice" "A001" "a2V5QQ==" ++ joins 1 1 "bob" "B001" "a2V5Qg==" ++
  [.call 0 (.fetchMlsKeyPackage "lobby" "B001" "f1") {}, .readFrame 0 {} false false] ++
  hears 0 0 4 ++
  [.call 0 (.addMlsMember "lobby" "g" "B001" "op1")
    { keyPackage := some "a2V5QQ==", proposal := some "cHJvcG9zYWw="
      commit := some ("Y29tbWl0", "d2VsY29tZQ==") }, .readFrame 0 {} false false] ++
  hears 0 0 1 ++ [.readFrame 0 {} false false]

/-- The server reads Alice's welcome. -/
def welcomesBob : List Input := hears 0 0 1 ++ [.readFrame 0 {} false false]

end MlsNet

end Gui

end LanChat
