import LanChat.Gui.MlsWorker
import LanChat.Lib.Run

/-!
# The library session and the recorded epoch

A member change is committed in the local session before the server has seen anything, while the
recorded epoch follows the server's acknowledgement.  An operation is undecided until then.

* `undecided`, `clock`: what the worker knows of undecided operations and of the two epochs;
* `Ticks`: how a step may move them;
* `Aligned`: a group has at most one undecided operation, and its session is one epoch ahead exactly
  while it has one;
* `Careful`: the step does not leave through a failure after the local commit;
* `session_in_step`, and `rejected_proposal_leaves_session_ahead` for a step that does.
-/

namespace LanChat

namespace Gui

open GoStrings EventMachine

namespace MlsWorker

variable {w w' : MlsWorker} {d : MlsDraw}

/-- Group and epoch of an operation that the server has not acknowledged. -/
def undecided (w : MlsWorker) (id : String) : Option (String × UInt64) :=
  (w.pendingMlsOperations.lookup id).bind fun op =>
    if op.phase = .welcome then none else some (op.group, op.epoch)

/-- The recorded epoch of a group and that of its session. -/
def clock (w : MlsWorker) (groupID : String) : Option (UInt64 × UInt64) :=
  (w.mlsGroups.lookup groupID).map fun state => (state.epoch, state.session)

/-- The group has no undecided operation. -/
def Settled (w : MlsWorker) (groupID : String) : Prop :=
  ∀ id epoch, w.undecided id ≠ some (groupID, epoch)

/-- What a step may do to the undecided operations and the clocks. -/
inductive Ticks (w w' : MlsWorker) : Prop
  | same (hu : w'.undecided = w.undecided) (hc : w'.clock = w.clock)
  | found (g : String) (e : UInt64) (hnone : w.clock g = none) (hu : w'.undecided = w.undecided)
      (hc : w'.clock = Function.update w.clock g (some (e, e)))
  | start (id g : String) (e n : UInt64) (hclock : w.clock g = some (e, n)) (hfree : w.Settled g)
      (hu : w'.undecided = Function.update w.undecided id (some (g, e + 1)))
      (hid : w.undecided id = none)
      (hc : w'.clock = Function.update w.clock g (some (e, n + 1)))
  | settle (id g : String) (e e' n : UInt64) (hop : w.undecided id = some (g, e'))
      (hclock : w.clock g = some (e, n)) (hu : w'.undecided = Function.update w.undecided id none)
      (hc : w'.clock = Function.update w.clock g (some (e', n)))
  | relay (g : String) (e n : UInt64) (hclock : w.clock g = some (e, n)) (hfree : w.Settled g)
      (hu : w'.undecided = w.undecided)
      (hc : w'.clock = Function.update w.clock g (some (e + 1, n + 1)))
  | reset (hu : w'.undecided = fun _ => none) (hc : w'.clock = fun _ => none)

/-- The session of the group is one epoch ahead exactly while the group has an undecided operation,
and it has at most one. -/
structure AlignedAt (w : MlsWorker) (g : String) : Prop where
  calm : w.Settled g → ∀ e n, w.clock g = some (e, n) → n = e
  ahead : ∀ id e', w.undecided id = some (g, e') → ∃ e, w.clock g = some (e, e + 1) ∧ e' = e + 1
  alone : ∀ id id' e e', w.undecided id = some (g, e) → w.undecided id' = some (g, e') → id = id'

/-- Every group is aligned. -/
def Aligned (w : MlsWorker) : Prop := ∀ g, w.AlignedAt g

/-- A group whose clock and operations stay remains aligned. -/
theorem AlignedAt.of_same {g : String} (ha : w.AlignedAt g) (hc : w'.clock g = w.clock g)
    (hu : ∀ id e, w'.undecided id = some (g, e) ↔ w.undecided id = some (g, e)) :
    w'.AlignedAt g where
  calm hfree e n hclock :=
    ha.calm (fun id e hop => hfree id e ((hu id e).2 hop)) e n (hc.symm.trans hclock)
  ahead id e' hop := by
    rw [hc]
    exact ha.ahead id e' ((hu id e').1 hop)
  alone id id' e e' hop hop' := ha.alone id id' e e' ((hu id e).1 hop) ((hu id' e').1 hop')

/-- A group without operations is aligned when its two epochs agree. -/
theorem AlignedAt.of_settled {g : String} (hfree : w.Settled g)
    (hclock : ∀ e n, w.clock g = some (e, n) → n = e) : w.AlignedAt g where
  calm _ := hclock
  ahead id e' hop := absurd hop (hfree id e')
  alone id _ e _ hop := absurd hop (hfree id e)

theorem aligned_empty : Aligned {} := fun _ =>
  .of_settled (fun _ _ hop => by cases hop) fun _ _ hclock => by cases hclock

theorem Settled.of_eq {g : String} (hu : w'.undecided = w.undecided) (hfree : w.Settled g) :
    w'.Settled g := by
  intro id epoch
  rw [hu]
  exact hfree id epoch

/-- A change of one group's clock alone, to equal epochs and without operations of the group. -/
theorem Aligned.of_clock {g : String} {e : UInt64} (ha : Aligned w) (hfree : w.Settled g)
    (hu : w'.undecided = w.undecided) (hc : w'.clock = Function.update w.clock g (some (e, e))) :
    Aligned w' := by
  intro x
  by_cases hx : x = g
  · subst hx
    refine .of_settled (hfree.of_eq hu) fun e' n hclock => ?_
    rw [hc, Function.update_self] at hclock
    cases hclock
    rfl
  · refine (ha x).of_same ?_ fun id e' => by rw [hu]
    rw [hc, Function.update_of_ne hx]

theorem Aligned.of_ticks (ha : Aligned w) (ht : Ticks w w') : Aligned w' := by
  cases ht with
  | same hu hc =>
    intro g
    refine (ha g).of_same (by rw [hc]) fun id e => by rw [hu]
  | found g e hnone hu hc =>
    -- the group of an undecided operation is known, so the new one has none
    refine ha.of_clock (fun id e' hop => ?_) hu hc
    obtain ⟨e, hclock, -⟩ := (ha g).ahead id e' hop
    cases hnone.symm.trans hclock
  | start id g e n hclock hfree hu hid hc =>
    obtain rfl : e = n := ((ha g).calm hfree e n hclock).symm
    intro x
    by_cases hx : x = g
    · subst hx
      have honly : ∀ id' e', w'.undecided id' = some (x, e') → id' = id ∧ e' = e + 1 := by
        intro id' e' hop
        rw [hu] at hop
        by_cases hid' : id' = id
        · subst hid'
          rw [Function.update_self] at hop
          cases hop
          exact ⟨rfl, rfl⟩
        · rw [Function.update_of_ne hid'] at hop
          exact absurd hop (hfree id' e')
      refine ⟨fun hfree' => ?_, fun id' e' hop => ⟨e, ?_, (honly id' e' hop).2⟩, ?_⟩
      · refine absurd ?_ (hfree' id (e + 1))
        rw [hu, Function.update_self]
      · rw [hc, Function.update_self]
      · intro id' id'' e' e'' hop hop'
        exact (honly id' e' hop).1.trans (honly id'' e'' hop').1.symm
    · refine (ha x).of_same (by rw [hc, Function.update_of_ne hx]) fun id' e' => ?_
      rw [hu]
      by_cases hid' : id' = id
      · subst hid'
        simp [hid, Ne.symm hx]
      · rw [Function.update_of_ne hid']
  | settle id g e e' n hop hclock hu hc =>
    obtain ⟨e₁, hclock₁, rfl⟩ := (ha g).ahead id e' hop
    cases hclock.symm.trans hclock₁
    intro x
    by_cases hx : x = g
    · subst hx
      refine .of_settled (fun id' e' hop' => ?_) fun e' n hclock' => ?_
      · rw [hu] at hop'
        by_cases hid' : id' = id
        · subst hid'
          rw [Function.update_self] at hop'
          cases hop'
        · rw [Function.update_of_ne hid'] at hop'
          exact hid' ((ha x).alone id' id e' _ hop' hop)
      · rw [hc, Function.update_self] at hclock'
        cases hclock'
        rfl
    · refine (ha x).of_same (by rw [hc, Function.update_of_ne hx]) fun id' e' => ?_
      rw [hu]
      by_cases hid' : id' = id
      · subst hid'
        simp [hop, Ne.symm hx]
      · rw [Function.update_of_ne hid']
  | relay g e n hclock hfree hu hc =>
    obtain rfl : e = n := ((ha g).calm hfree e n hclock).symm
    exact ha.of_clock hfree hu hc
  | reset hu hc =>
    intro g
    refine .of_settled (fun id e hop => ?_) fun e n hclock => ?_
    · rw [hu] at hop
      cases hop
    · rw [hc] at hclock
      cases hclock

/-! ### The pieces of a step -/

theorem ticks_of_eq (hops : w'.pendingMlsOperations = w.pendingMlsOperations)
    (hgroups : w'.mlsGroups = w.mlsGroups) : Ticks w w' := by
  refine .same ?_ ?_
  · funext id
    unfold undecided
    rw [hops]
  · funext g
    unfold clock
    rw [hgroups]

theorem clock_of_insert {g : String} (state : MlsGroupState)
    (hgroups : w'.mlsGroups = w.mlsGroups.insert g state) :
    w'.clock = Function.update w.clock g (some (state.epoch, state.session)) := by
  funext x
  unfold clock
  rw [hgroups]
  by_cases hx : x = g
  · subst hx
    rw [AList.lookup_insert, Function.update_self]
    rfl
  · rw [AList.lookup_insert_ne hx, Function.update_of_ne hx]

theorem undecided_of_insert {id : String} (op : PendingMlsOperation)
    (hops : w'.pendingMlsOperations = w.pendingMlsOperations.insert id op) :
    w'.undecided = Function.update w.undecided id
      (if op.phase = .welcome then none else some (op.group, op.epoch)) := by
  funext x
  unfold undecided
  rw [hops]
  by_cases hx : x = id
  · subst hx
    rw [AList.lookup_insert, Function.update_self]
    rfl
  · rw [AList.lookup_insert_ne hx, Function.update_of_ne hx]

theorem undecided_of_erase {id : String}
    (hops : w'.pendingMlsOperations = w.pendingMlsOperations.erase id) :
    w'.undecided = Function.update w.undecided id none := by
  funext x
  unfold undecided
  rw [hops]
  by_cases hx : x = id
  · subst hx
    rw [AList.lookup_erase, Function.update_self]
    rfl
  · rw [AList.lookup_erase_ne hx, Function.update_of_ne hx]

/-- What the new state of a group does to its clock when the epochs stay. -/
theorem clock_of_insert_same {g : String} {state state' : MlsGroupState}
    (hstate : w.mlsGroups.lookup g = some state)
    (hgroups : w'.mlsGroups = w.mlsGroups.insert g state') (hepoch : state'.epoch = state.epoch)
    (hsession : state'.session = state.session) : w'.clock = w.clock := by
  rw [clock_of_insert state' hgroups, hepoch, hsession]
  refine Function.update_eq_self_iff.2 ?_
  unfold clock
  rw [hstate]
  rfl

theorem ticks_createGroup (room g : String) : Ticks w (w.createGroup room g) := by
  unfold createGroup emplace
  split
  · exact ticks_of_eq rfl rfl
  · rename_i hnone
    refine .found g 0 ?_ rfl (clock_of_insert { room } rfl)
    unfold clock
    rw [Option.not_isSome_iff_eq_none.1 hnone]
    rfl

/-- Once the session has applied the commit, the operation is sent and left pending, and it is the
only undecided one of its group. -/
def Completes (w : MlsWorker) (d : MlsDraw) (room g target commandID : String) (add : Bool) :
    Prop :=
  ∀ state proposal commit, w.mlsGroups.lookup g = some state → d.proposal = some proposal →
    d.commit = some commit →
    proposal ≠ "" ∧ commit.1 ≠ "" ∧ (add = true → commit.2 ≠ "") ∧
      state.epoch.toNat ≠ 2 ^ 64 - 1 ∧ trimSpace commandID ≠ "" ∧
      w.pendingMlsOperations.lookup (trimSpace commandID) = none ∧
      d.sendFails ((newOperation state room g target proposal commit add).proposalMessage
        (trimSpace commandID)) = false ∧
      w.Settled g

theorem ticks_startOperation {room g target commandID : String} {add : Bool}
    (hc : Completes w d room g target commandID add) :
    Ticks w (w.startOperation d room g target commandID add).1 := by
  unfold startOperation
  split
  · rename_i state proposal commit hstate hproposal hcommit
    obtain ⟨hp, hcom, hwel, hmax, hid, hnone, hsend, hfree⟩ :=
      hc state proposal commit hstate hproposal hcommit
    have hclock : w.clock g = some (state.epoch, state.session) := by
      unfold clock
      rw [hstate]
      rfl
    have hfirst : ¬ (proposal = "" ∨ commit.1 = "" ∨ (add = true ∧ commit.2 = "")) := by
      rintro (h | h | ⟨ha, h⟩)
      · exact hp h
      · exact hcom h
      · exact hwel ha h
    have hpending : ¬ (trimSpace commandID = "" ∨
        (w.pendingMlsOperations.lookup (trimSpace commandID)).isSome = true) := by
      rintro (h | h)
      · exact hid h
      · rw [hnone] at h
        cases h
    dsimp only
    rw [if_neg hfirst, if_neg hmax]
    split
    · exact absurd (by assumption) hpending
    split
    · rename_i hfail
      rw [hsend] at hfail
      cases hfail
    refine .start (trimSpace commandID) g state.epoch state.session hclock hfree ?_ ?_ ?_
    · exact undecided_of_insert (newOperation state room g target proposal commit add) rfl
    · unfold undecided
      rw [hnone]
      rfl
    · exact clock_of_insert { state with session := state.session + 1 } rfl
  · exact ticks_of_eq rfl rfl

theorem prepareAdd_eq_some {room g target : String} (hw : w.prepareAdd d room g target = some w') :
    w' = w ∨ w' = w.createGroup room g := by
  unfold prepareAdd at hw
  split at hw
  · cases hw
  split at hw
  · cases hw
  split at hw
  · cases hw
  unfold openGroup at hw
  split at hw
  · split at hw
    · cases hw
    · cases hw
      exact .inl rfl
  · split at hw
    · cases hw
    · cases hw
      exact .inr rfl

theorem ticks_prepareAdd {room g target : String} (hw : w.prepareAdd d room g target = some w') :
    Ticks w w' := by
  rcases prepareAdd_eq_some hw with rfl | rfl
  · exact ticks_of_eq rfl rfl
  · exact ticks_createGroup room g

/-- An add that reaches the session completes. -/
def CarefulAdd (w : MlsWorker) (d : MlsDraw) (room g targetUserCode commandID : String) : Prop :=
  ∀ w', w.prepareAdd d (trimSpace room) (trimSpace g)
      (QString.toLower (trimSpace targetUserCode)) = some w' →
    w'.Completes d (trimSpace room) (trimSpace g) (QString.toLower (trimSpace targetUserCode))
      commandID true

theorem aligned_addMlsMember (ha : Aligned w) {room g target commandID : String}
    (hc : CarefulAdd w d room g target commandID) :
    Aligned (w.addMlsMember d room g target commandID).1 := by
  unfold addMlsMember
  dsimp only
  split
  · exact ha
  · rename_i hw
    exact (ha.of_ticks (ticks_prepareAdd hw)).of_ticks (ticks_startOperation (hc _ hw))

/-- The attachment's bookkeeping leaves groups and operations alone. -/
theorem ticks_startNextAttachmentMlsSetup (attachmentCommandID : String) :
    Ticks w (w.startNextAttachmentMlsSetup d attachmentCommandID).1 := by
  unfold startNextAttachmentMlsSetup
  split
  · exact ticks_of_eq rfl rfl
  split
  · split
    · exact ticks_of_eq rfl rfl
    · exact ticks_of_eq rfl rfl
  · exact ticks_of_eq rfl rfl

theorem same_continueAttachmentMlsSetup (commandID : String) :
    (w.continueAttachmentMlsSetup d commandID).1.pendingMlsOperations = w.pendingMlsOperations ∧
      (w.continueAttachmentMlsSetup d commandID).1.mlsGroups = w.mlsGroups := by
  unfold continueAttachmentMlsSetup
  split
  · exact ⟨rfl, rfl⟩
  dsimp only
  split
  · exact ⟨rfl, rfl⟩
  unfold startNextAttachmentMlsSetup
  split
  · exact ⟨rfl, rfl⟩
  split
  · split
    · exact ⟨rfl, rfl⟩
    · exact ⟨rfl, rfl⟩
  · exact ⟨rfl, rfl⟩

theorem undecided_of_lookup {id : String} {op : PendingMlsOperation}
    (hop : w.pendingMlsOperations.lookup id = some op) (hphase : op.phase ≠ .welcome) :
    w.undecided id = some (op.group, op.epoch) := by
  unfold undecided
  rw [hop]
  exact if_neg hphase

theorem ticks_receiveProposalAck {commandID : String}
    (hsend : ∀ op, w.pendingMlsOperations.lookup commandID = some op → op.phase = .proposal →
      d.sendFails (op.commitMessage commandID) = false) :
    Ticks w (w.receiveProposalAck d commandID).1 := by
  unfold receiveProposalAck
  split
  · exact ticks_of_eq rfl rfl
  rename_i op hop
  split
  · exact ticks_of_eq rfl rfl
  rename_i hphase
  have hproposal : op.phase = .proposal := by simpa using hphase
  split
  · rename_i hfail
    rw [hsend op hop hproposal] at hfail
    cases hfail
  · refine .same ?_ rfl
    rw [undecided_of_insert { op with phase := .commit } rfl]
    refine Function.update_eq_self_iff.2 ?_
    rw [undecided_of_lookup hop (by simp [hproposal])]
    rfl

/-- The relayed commit is one that the worker applies. -/
def TakesCommit (w : MlsWorker) (d : MlsDraw) (m : Message) : Prop :=
  ∃ state, w.mlsGroups.lookup m.groupID = some state ∧ state.room = m.room ∧
    state.commits.lookup m.epoch ≠ some m.commit ∧ m.epoch = state.epoch + 1 ∧ d.accepts = true

theorem ticks_receiveCommit {m : Message} (hfree : TakesCommit w d m → w.Settled m.groupID) :
    Ticks w (w.receiveCommit d m) := by
  unfold receiveCommit
  split
  · exact ticks_of_eq rfl rfl
  rename_i state hstate
  split
  · exact ticks_of_eq rfl rfl
  rename_i htake
  have htake' : state.room = m.room ∧ state.commits.lookup m.epoch ≠ some m.commit ∧
      m.epoch = state.epoch + 1 ∧ d.accepts = true := by
    simpa [not_or] using htake
  have hepoch := htake'.2.2.1
  refine .relay m.groupID state.epoch state.session ?_ (hfree ⟨state, hstate, htake'⟩) rfl ?_
  · unfold clock
    rw [hstate]
    rfl
  · rw [← hepoch]
    exact clock_of_insert { state with
      epoch := m.epoch, session := state.session + 1
      commits := emplace state.commits m.epoch m.commit } rfl

theorem ticks_receiveCommitAck (ha : Aligned w) (platform : Platform) (commandID : String) :
    Ticks w (w.receiveCommitAck platform d commandID).1 := by
  unfold receiveCommitAck
  split
  · exact ticks_of_eq rfl rfl
  rename_i op hop
  split
  · exact ticks_of_eq rfl rfl
  rename_i hphase
  have hcommit : op.phase = .commit := by simpa using hphase
  have hu := undecided_of_lookup hop (by simp [hcommit])
  obtain ⟨e, hclock, -⟩ := (ha op.group).ahead commandID op.epoch hu
  split
  · -- the group of a pending operation is there
    rename_i hnone
    unfold clock at hclock
    rw [hnone] at hclock
    cases hclock
  rename_i state hstate
  have hstateclock : w.clock op.group = some (state.epoch, state.session) := by
    unfold clock
    rw [hstate]
    rfl
  have hsettle : ∀ {w' : MlsWorker}, w'.undecided = Function.update w.undecided commandID none →
      w'.mlsGroups = w.mlsGroups.insert op.group { state with
        epoch := op.epoch, commits := emplace state.commits op.epoch op.commit } → Ticks w w' :=
    fun hu' hgroups => .settle commandID op.group state.epoch op.epoch state.session hu hstateclock
      hu' (clock_of_insert { state with
        epoch := op.epoch, commits := emplace state.commits op.epoch op.commit } hgroups)
  dsimp only
  split
  · split
    · exact hsettle (undecided_of_erase rfl) rfl
    · exact hsettle (undecided_of_insert { op with phase := .welcome } rfl) rfl
  · obtain ⟨hops, hgroups⟩ := same_continueAttachmentMlsSetup (d := d) (w := { w with
      mlsGroups := w.mlsGroups.insert op.group { state with
        epoch := op.epoch, commits := emplace state.commits op.epoch op.commit }
      pendingMlsOperations := w.pendingMlsOperations.erase commandID }) commandID
    exact hsettle (undecided_of_erase hops) hgroups

theorem clock_recordWelcome (op : PendingMlsOperation) : (w.recordWelcome op).clock = w.clock := by
  unfold recordWelcome
  split
  · rfl
  · rename_i state hstate
    exact clock_of_insert_same hstate rfl rfl rfl

theorem ticks_receiveWelcomeAck (commandID : String) :
    Ticks w (w.receiveWelcomeAck d commandID).1 := by
  unfold receiveWelcomeAck
  split
  · exact ticks_of_eq rfl rfl
  rename_i op hop
  split
  · exact ticks_of_eq rfl rfl
  rename_i hphase
  have hwelcome : op.phase = .welcome := by simpa using hphase
  obtain ⟨hops, hgroups⟩ := same_continueAttachmentMlsSetup (d := d) (w := { w.recordWelcome op with
    pendingMlsOperations := w.pendingMlsOperations.erase commandID }) commandID
  refine .same ?_ ?_
  · rw [undecided_of_erase hops]
    refine Function.update_eq_self_iff.2 ?_
    unfold undecided
    rw [hop]
    exact (if_pos hwelcome).symm
  · refine Eq.trans ?_ (clock_recordWelcome op)
    funext g
    exact congrArg (fun groups => (AList.lookup g groups).map fun state =>
      (state.epoch, state.session)) hgroups

theorem ticks_receiveWelcome (platform : Platform) (m : Message) :
    Ticks w (w.receiveWelcome platform d m).1 := by
  unfold receiveWelcome
  split
  · exact ticks_of_eq rfl rfl
  split
  · split
    · exact ticks_of_eq rfl rfl
    split
    · exact ticks_of_eq rfl rfl
    · exact ticks_of_eq rfl rfl
  rename_i hnone
  split
  · split
    · exact ticks_of_eq rfl rfl
    have hfound : ∀ {w' : MlsWorker}, w'.pendingMlsOperations = w.pendingMlsOperations →
        w'.mlsGroups = w.mlsGroups.insert m.groupID { room := m.room, epoch := m.epoch
                                                      session := m.epoch
                                                      welcomes := emplace ∅ m.epoch m.welcome } →
        Ticks w w' := by
      intro w' hops hgroups
      refine .found m.groupID m.epoch ?_ ?_ (clock_of_insert _ hgroups)
      · unfold clock
        rw [hnone]
        rfl
      · funext id
        unfold undecided
        rw [hops]
    dsimp only
    split
    · exact hfound rfl rfl
    split
    · exact hfound rfl rfl
    · exact hfound rfl rfl
  · exact ticks_of_eq rfl rfl

theorem ticks_receiveError {commandID : String} (hnone : w.undecided commandID = none) :
    Ticks w (w.receiveError commandID) := by
  have hsame : ∀ {w' : MlsWorker}, w'.pendingMlsOperations = w.pendingMlsOperations.erase commandID →
      w'.mlsGroups = w.mlsGroups → Ticks w w' := by
    intro w' hops hgroups
    refine .same ?_ ?_
    · rw [undecided_of_erase hops]
      exact Function.update_eq_self_iff.2 hnone.symm
    · funext g
      unfold clock
      rw [hgroups]
  unfold receiveError
  dsimp only
  split
  · split
    · exact hsame rfl rfl
    · exact hsame rfl rfl
  · split
    · exact hsame rfl rfl
    · exact hsame rfl rfl

/-- A reconnection keeps the undecided operations. -/
theorem lookup_dropWelcomes (keys : List String)
    (ops : AList fun _ : String => PendingMlsOperation) (id : String) :
    (keys.foldl (fun ops x => if w.awaitsWelcome x then ops.erase x else ops) ops).lookup id =
      if id ∈ keys ∧ w.awaitsWelcome id = true then none else ops.lookup id := by
  induction keys generalizing ops with
  | nil => simp
  | cons x keys ih =>
    rw [List.foldl_cons, ih]
    by_cases hid : id = x
    · subst hid
      by_cases haw : w.awaitsWelcome id = true
      · simp [haw, AList.lookup_erase]
      · simp [haw]
    · by_cases haw : w.awaitsWelcome x = true
      · simp [haw, hid, AList.lookup_erase_ne hid]
      · simp [haw, hid]

theorem ticks_resumePendingMlsOperations (d : MlsDraw) :
    Ticks w (w.resumePendingMlsOperations d).1 := by
  refine .same ?_ rfl
  funext id
  unfold resumePendingMlsOperations undecided
  dsimp only
  rw [lookup_dropWelcomes]
  split
  · rename_i hdrop
    obtain ⟨op, hop, hphase⟩ := (Option.any_eq_true _ _).1 hdrop.2
    have hwelcome : op.phase = .welcome := by simpa using hphase
    rw [hop]
    exact (if_pos hwelcome).symm
  · rfl

theorem aligned_connected (ha : Aligned w) (c : ClientID) (preserveMlsState : Bool) :
    Aligned (w.connected d c preserveMlsState).1 := by
  unfold connected
  dsimp only
  split
  · refine Aligned.of_ticks ?_ (ticks_resumePendingMlsOperations d)
    split
    · exact ha.of_ticks (ticks_of_eq rfl rfl)
    · exact ha.of_ticks (ticks_of_eq rfl rfl)
  · exact ha.of_ticks (.reset rfl rfl)

/-! ### Runs -/

/-- The message leaves no operation through a failure after the local commit, and no relayed commit
is applied beside an undecided operation. -/
def CarefulMessage (w : MlsWorker) (d : MlsDraw) (m : Message) : Prop :=
  match m.type with
  | .mlsKeyPackageFetch => ∀ id setup,
      w.pendingAttachmentMlsFetches.lookup m.commandID = some id →
      w.pendingAttachmentMlsSetups.lookup id = some setup →
      ((w.storeKeyPackage m).awaitAdd m.commandID (addCommand id setup.nextTarget) id).CarefulAdd d
        setup.room setup.groupID m.targetUserCode (addCommand id setup.nextTarget)
  | .mlsGroupProposal => m.proposal = "" → ∀ op,
      w.pendingMlsOperations.lookup m.commandID = some op → op.phase = .proposal →
      d.sendFails (op.commitMessage m.commandID) = false
  | .mlsGroupCommit => m.commit ≠ "" → TakesCommit w d m → w.Settled m.groupID
  | .error => m.commandID ≠ "" → w.undecided m.commandID = none
  | _ => True

/-- The step leaves no operation through a failure after the local commit. -/
def Careful (w : MlsWorker) (x : MlsInput × MlsDraw) : Prop :=
  match x.1 with
  | .addMlsMember room g target commandID => w.CarefulAdd x.2 room g target commandID
  | .removeMlsMember room g target commandID =>
    w.prepareRemove (trimSpace room) (trimSpace g) (trimSpace target) = true →
      w.Completes x.2 (trimSpace room) (trimSpace g) (trimSpace target) commandID false
  | .receive m => w.CarefulMessage x.2 m
  | _ => True

theorem aligned_processMlsMessage (platform : Platform) (ha : Aligned w) {m : Message}
    (hc : w.CarefulMessage d m) : Aligned (w.processMlsMessage platform d m).1 := by
  unfold processMlsMessage
  unfold CarefulMessage at hc
  cases ht : m.type with
  | mlsKeyPackageFetch =>
    rw [ht] at hc
    dsimp only at hc ⊢
    split
    · exact ha
    unfold receiveKeyPackage
    dsimp only
    split
    · exact ha.of_ticks (ticks_of_eq rfl rfl)
    rename_i id hid
    split
    · exact ha.of_ticks (ticks_of_eq rfl rfl)
    · rename_i setup hsetup
      have hready : Aligned ((w.storeKeyPackage m).awaitAdd m.commandID
          (addCommand id setup.nextTarget) id) := ha.of_ticks (ticks_of_eq rfl rfl)
      exact aligned_addMlsMember hready (hc id setup hid hsetup)
  | mlsGroupProposal =>
    rw [ht] at hc
    dsimp only at hc ⊢
    split
    · exact ha
    · rename_i hack
      exact ha.of_ticks (ticks_receiveProposalAck (hc (by simpa using fun h => hack (.inl h))))
  | mlsGroupWelcome =>
    dsimp only
    split
    · exact ha.of_ticks (ticks_receiveWelcome platform m)
    split
    · exact ha
    · exact ha.of_ticks (ticks_receiveWelcomeAck _)
  | mlsGroupCommit =>
    rw [ht] at hc
    dsimp only at hc ⊢
    split
    · rename_i hcommit
      exact ha.of_ticks (ticks_receiveCommit (hc hcommit))
    split
    · exact ha
    · exact ha.of_ticks (ticks_receiveCommitAck ha platform _)
  | error =>
    rw [ht] at hc
    dsimp only at hc ⊢
    split
    · exact ha
    · rename_i hid
      exact ha.of_ticks (ticks_receiveError (hc hid))
  | _ => exact ha

/-- One step, without the frames. -/
def advance (platform : Platform) (w : MlsWorker) (x : MlsInput × MlsDraw) : MlsWorker :=
  (w.step platform x).1

theorem aligned_advance (platform : Platform) (w : MlsWorker) (x : MlsInput × MlsDraw)
    (hc : w.Careful x) (ha : Aligned w) : Aligned (w.advance platform x) := by
  obtain ⟨input, d⟩ := x
  unfold advance step
  cases input with
  | connectToServer username userCode login =>
    dsimp only
    unfold connectToServer
    dsimp only
    split
    · have hsaved : Aligned { w with saved := true, username, userCode } :=
        ha.of_ticks (ticks_of_eq rfl rfl)
      exact aligned_connected hsaved _ _
    · exact ha.of_ticks (ticks_of_eq rfl rfl)
  | retrySavedConnection login =>
    dsimp only
    unfold retrySavedConnection
    split
    · exact aligned_connected ha _ _
    · exact ha.of_ticks (ticks_of_eq rfl rfl)
  | disconnect => exact ha.of_ticks (ticks_of_eq rfl rfl)
  | fetchMlsKeyPackage room target commandID => exact ha
  | addMlsMember room g target commandID => exact aligned_addMlsMember ha hc
  | removeMlsMember room g target commandID =>
    dsimp only
    unfold removeMlsMember
    dsimp only
    split
    · rename_i hready
      exact ha.of_ticks (ticks_startOperation (hc hready))
    · exact ha
  | startAttachmentUpload room targets commandID =>
    dsimp only
    unfold startAttachmentUpload
    dsimp only
    split
    · exact ha
    · refine Aligned.of_ticks ?_ (ticks_startNextAttachmentMlsSetup _)
      exact (ha.of_ticks (ticks_createGroup _ _)).of_ticks (ticks_of_eq rfl rfl)
  | receive m =>
    dsimp only
    split
    · exact aligned_processMlsMessage platform ha hc
    · exact ha

/-- Whenever no operation of a group is pending, its session is at the recorded epoch. -/
def InStep (w : MlsWorker) : Prop :=
  ∀ g state, w.mlsGroups.lookup g = some state →
    (∀ id op, w.pendingMlsOperations.lookup id = some op → op.group ≠ g) →
    state.session = state.epoch

theorem Aligned.inStep (ha : Aligned w) : w.InStep := by
  intro g state hstate hnone
  refine (ha g).calm ?_ state.epoch state.session ?_
  · intro id e hop
    unfold undecided at hop
    obtain ⟨op, hlookup, hop⟩ := Option.bind_eq_some_iff.1 hop
    split at hop
    · cases hop
    · cases hop
      exact hnone id op hlookup rfl
  · unfold clock
    rw [hstate]
    rfl

/-- In every run that leaves no operation through a failure after its local commit, the session of a
group without pending operations is at the recorded epoch. -/
theorem session_in_step (platform : Platform) (xs : List (MlsInput × MlsDraw))
    (hrun : Along (advance platform) Careful {} xs) : InStep (run (advance platform) {} xs) :=
  (run_invariant_along (advance platform) (fun w x hc ha => aligned_advance platform w x hc ha)
    aligned_empty hrun).inStep

/-- Alice logs in, gets Bob's key package and adds him to a new group. -/
def addBob : List (MlsInput × MlsDraw) :=
  [(.connectToServer "Alice" "alice" (some 0), { keyPackage := some "b3du" }),
    (.receive { type := .mlsKeyPackageFetch, targetUserCode := "bob", keyPackage := "a2V5" }, {}),
    (.addMlsMember "lobby" "g" "bob" "c1",
      { proposal := some "cHJvcG9zYWw=", commit := some ("Y29tbWl0", "d2VsY29tZQ==")
        keyPackage := some "b3du" })]

/-- The server stores proposal, commit and welcome. -/
def storedBob : List (MlsInput × MlsDraw) :=
  [(.receive { type := .mlsGroupProposal, commandID := "c1", content := "stored" }, {}),
    (.receive { type := .mlsGroupCommit, commandID := "c1", content := "stored" }, {}),
    (.receive { type := .mlsGroupWelcome, commandID := "c1", content := "stored" }, {})]

theorem session_in_step_addBob :
    InStep (run (advance Hub.samplePlatform) {} (addBob ++ storedBob)) := by
  refine session_in_step Hub.samplePlatform (addBob ++ storedBob)
    ⟨trivial, ?_, ?_, ?_, ?_, trivial, trivial⟩
  · intro id setup hid
    cases hid
  · intro w' hw
    have hclock : ((prepareAdd (run (advance Hub.samplePlatform) {} (addBob.take 2))
        { proposal := some "cHJvcG9zYWw=", commit := some ("Y29tbWl0", "d2VsY29tZQ==")
          keyPackage := some "b3du" } (trimSpace "lobby") (trimSpace "g")
        (QString.toLower (trimSpace "bob"))).bind fun w => w.clock (trimSpace "g")) = some (0, 0) := by
      decide +kernel
    have hnone : w'.pendingMlsOperations = ∅ := by
      rcases prepareAdd_eq_some hw with rfl | rfl
      · rfl
      · rfl
    rintro state proposal commit hstate ⟨⟩ ⟨⟩
    have hepoch : state.epoch = 0 := by
      rw [show prepareAdd (run (advance Hub.samplePlatform) {} (addBob.take 2)) _ _ _ _ = some w'
        from hw, Option.bind_some] at hclock
      unfold clock at hclock
      rw [hstate] at hclock
      exact (Prod.mk.inj (Option.some_injective _ hclock)).1
    refine ⟨by decide, by decide, fun _ => by decide, ?_, by decide +kernel, ?_, rfl, ?_⟩
    · rw [hepoch]
      decide
    · rw [hnone]
      rfl
    · intro id e hop
      unfold undecided at hop
      rw [hnone] at hop
      cases hop
  · intro _ op _ _
    rfl
  · intro h
    exact absurd rfl h

/-- The server refuses the proposal. -/
def refusedBob : List (MlsInput × MlsDraw) :=
  [(.receive { type := .error, commandID := "c1", content := "MLS group proposal conflict" }, {})]

theorem rejected_proposal_leaves_session_ahead :
    ¬ ∀ (platform : Platform) (xs : List (MlsInput × MlsDraw)),
      InStep (run (advance platform) {} xs) := by
  intro hclaim
  -- nothing is pending any more, but the session has kept the commit
  have hclock : (run (advance Hub.samplePlatform) {} (addBob ++ refusedBob)).clock "g" =
      some (0, 1) := by decide +kernel
  have hnone : ∀ id, (run (advance Hub.samplePlatform) {}
      (addBob ++ refusedBob)).pendingMlsOperations.lookup id = none := by
    intro id
    have hkeys : (run (advance Hub.samplePlatform) {}
        (addBob ++ refusedBob)).pendingMlsOperations.keys = [] := by decide +kernel
    refine AList.lookup_eq_none.2 ?_
    rw [AList.mem_keys, hkeys]
    exact List.not_mem_nil
  unfold clock at hclock
  obtain ⟨state, hstate, heq⟩ := Option.map_eq_some_iff.1 hclock
  have hsame := hclaim Hub.samplePlatform (addBob ++ refusedBob) "g" state hstate fun id op hop => by
    rw [hnone id] at hop
    cases hop
  obtain ⟨hepoch, hsession⟩ := Prod.mk.inj heq
  rw [hepoch, hsession] at hsame
  cases hsame

end MlsWorker

end Gui

end LanChat
