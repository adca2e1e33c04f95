import LanChat.Gui.MlsResults

/-!
# A command has one result

* `OneResult`: the results of a slot are at most one, with the id of its command;
* `Live s id`: the command is in `pendingMlsCommands_` or in `pendingMlsOperations_`;
* `Slot`: a slot that has a result leaves nothing new pending;
* `Moves`: a step does not answer the command, or answers it and takes it from what is pending;
* `Foreign`: no frame of a setup is sent under the id;
* `one_result`: over a run that nothing disturbs the command has at most one result.
-/

namespace LanChat

namespace Gui

open GoStrings EventMachine

/-! ### Counting results -/

variable {id commandID : String} {results results' : List CommandResult}

@[simp] theorem answersTo_nil : answersTo id [] = 0 := rfl

@[simp] theorem answersTo_append :
    answersTo id (results ++ results') = answersTo id results + answersTo id results' :=
  List.countP_append

/-- Nothing, or the result of a command. -/
def OneResult (commandID : String) (results : List CommandResult) : Prop :=
  results = [] ∨ ∃ ok code, results = commandResult commandID ok code

theorem oneResult_commandResult (commandID : String) (ok : Bool) (code : String) :
    OneResult commandID (commandResult commandID ok code) := .inr ⟨ok, code, rfl⟩

theorem commandID_of_mem_commandResult {ok : Bool} {code : String} {result : CommandResult}
    (h : result ∈ commandResult commandID ok code) : result.commandID = commandID := by
  unfold commandResult at h
  split at h
  · cases h
  · rw [List.mem_singleton.1 h]

theorem OneResult.answersTo_le (h : OneResult commandID results) : answersTo id results ≤ 1 := by
  rcases h with rfl | ⟨ok, code, rfl⟩
  · exact Nat.zero_le 1
  · unfold commandResult
    split
    · exact Nat.zero_le 1
    · exact List.countP_le_length

theorem OneResult.answersTo_eq_zero (h : OneResult commandID results) (hne : commandID ≠ id) :
    answersTo id results = 0 := by
  rcases h with rfl | ⟨ok, code, rfl⟩
  · rfl
  · refine List.countP_eq_zero.2 fun result hresult => ?_
    rw [commandID_of_mem_commandResult hresult]
    simpa using hne

namespace MlsWorker

variable {w : MlsWorker} {d : MlsDraw} {room groupID target : String}

theorem oneResult_fetchResults : OneResult commandID (w.fetchResults d room target commandID) := by
  unfold fetchResults
  split_ifs
  · exact oneResult_commandResult _ _ _
  · exact oneResult_commandResult _ _ _
  · exact oneResult_commandResult _ _ _
  · exact .inl rfl

theorem oneResult_operationResults {add : Bool} :
    OneResult commandID (w.operationResults d room groupID target commandID add) := by
  unfold operationResults
  split
  · split_ifs
    · exact oneResult_commandResult _ _ _
    · exact oneResult_commandResult _ _ _
    · exact oneResult_commandResult _ _ _
    · exact oneResult_commandResult _ _ _
    · exact .inl rfl
  · exact oneResult_commandResult _ _ _

theorem oneResult_addResults :
    OneResult commandID (w.addResults d room groupID target commandID) := by
  unfold addResults
  dsimp only
  split
  · exact oneResult_commandResult _ _ _
  · exact oneResult_operationResults

theorem oneResult_removeResults :
    OneResult commandID (w.removeResults d room groupID target commandID) := by
  unfold removeResults
  dsimp only
  split
  · exact oneResult_operationResults
  · exact oneResult_commandResult _ _ _

theorem oneResult_settleResults {commands : Finset String} {ok : Bool} {code : String} :
    OneResult commandID (settleResults commands commandID ok code) := by
  unfold settleResults
  split
  · exact oneResult_commandResult _ _ _
  · exact .inl rfl

/-! ### An operation that has been sent has no result yet -/

variable {op : PendingMlsOperation}

theorem operationResults_eq_nil {add : Bool}
    (hop : w.startedOperation d room groupID target commandID add = some op)
    (hsend : d.sendFails (op.proposalMessage (trimSpace commandID)) = false) :
    w.operationResults d room groupID target commandID add = [] := by
  unfold startedOperation at hop
  unfold operationResults
  cases hgroup : w.mlsGroups.lookup groupID with
  | none => simp [hgroup] at hop
  | some state =>
    cases hproposal : d.proposal with
    | none => simp [hgroup, hproposal] at hop
    | some proposal =>
      cases hcommit : d.commit with
      | none => simp [hgroup, hproposal, hcommit] at hop
      | some commit =>
        rw [hgroup, hproposal, hcommit] at hop
        dsimp only at hop ⊢
        split_ifs at hop with hsize hepoch hid
        cases hop
        rw [if_neg hsize, if_neg hepoch, if_neg hid, if_neg (by simp [hsend])]

theorem addResults_eq_nil (hop : w.startedAdd d room groupID target commandID = some op)
    (hsend : d.sendFails (op.proposalMessage (trimSpace commandID)) = false) :
    w.addResults d room groupID target commandID = [] := by
  unfold startedAdd at hop
  unfold addResults
  dsimp only at hop ⊢
  obtain ⟨w', hprepare, hop⟩ := Option.bind_eq_some_iff.1 hop
  rw [hprepare]
  exact operationResults_eq_nil hop hsend

theorem removeResults_eq_nil (hop : w.startedRemove d room groupID target commandID = some op)
    (hsend : d.sendFails (op.proposalMessage (trimSpace commandID)) = false) :
    w.removeResults d room groupID target commandID = [] := by
  unfold startedRemove at hop
  unfold removeResults
  dsimp only at hop ⊢
  split_ifs at hop with hprepare
  rw [if_pos hprepare]
  exact operationResults_eq_nil hop hsend

end MlsWorker

namespace SetupWorker

variable {s s' s'' : SetupWorker} {w w' : MlsWorker} {commands commands' : Finset String}
  {d : MlsDraw}

/-! ### Slots -/

/-- The worker waits for the answer to a command. -/
def Live (s : SetupWorker) (id : String) : Prop :=
  id ∈ s.pendingMlsCommands ∨ (s.worker.pendingMlsOperations.lookup id).isSome

theorem Live.mono (hops : s'.worker.pendingMlsOperations = s.worker.pendingMlsOperations)
    (hcommands : id ∈ s'.pendingMlsCommands → id ∈ s.pendingMlsCommands) (h : s'.Live id) :
    s.Live id :=
  h.imp hcommands fun hop => hops ▸ hop

/-- What a slot does with its command: the other commands stay as they are, and with a result
nothing new is pending. -/
structure Slot (commandID : String) (s s' : SetupWorker) (results : List CommandResult) : Prop where
  one : OneResult commandID results
  other : ∀ id, commandID ≠ id → trimSpace commandID ≠ id → s'.Live id → s.Live id
  idle : results = [] ∨ ∀ id, s'.Live id → s.Live id

theorem slot_fetch (room target commandID : String) :
    Slot commandID ⟨w, commands⟩ ⟨w, w.fetchCommands d room target commandID commands⟩
      (w.fetchResults d room target commandID) where
  one := MlsWorker.oneResult_fetchResults
  other := by
    intro id hne _
    refine Live.mono rfl fun hid => ?_
    unfold MlsWorker.fetchCommands at hid
    dsimp only at hid
    split_ifs at hid
    · exact hid
    · exact Finset.mem_of_mem_erase hid
    · exact Finset.mem_of_mem_insert_of_ne hid (Ne.symm hne)
  idle := by
    unfold MlsWorker.fetchResults MlsWorker.fetchCommands
    by_cases hsession : w.session.isNone = true
    · rw [if_pos hsession, if_pos (.inl hsession)]
      exact .inr fun _ h => h
    by_cases hempty : trimSpace room = "" ∨ trimSpace target = ""
    · rw [if_neg hsession, if_pos hempty, if_pos (.inr hempty)]
      exact .inr fun _ h => h
    rw [if_neg hsession, if_neg hempty, if_neg (not_or.2 ⟨hsession, hempty⟩)]
    by_cases hsend : d.sendFails (MlsWorker.fetchMessage room target commandID) = true
    · rw [if_pos hsend, if_pos hsend]
      exact .inr fun id => Live.mono rfl Finset.mem_of_mem_erase
    · exact .inl (if_neg hsend)

/-- An operation is pending once its proposal has been sent, and then there is no result. -/
theorem slot_operation {started : Option PendingMlsOperation}
    (hops : w'.pendingMlsOperations = (started.filter fun op =>
      !d.sendFails (op.proposalMessage (trimSpace commandID))).elim w.pendingMlsOperations
        fun op => w.pendingMlsOperations.insert (trimSpace commandID) op)
    (hcommands : commands' = started.elim commands fun op =>
      if d.sendFails (op.proposalMessage (trimSpace commandID)) then commands.erase commandID
      else insert commandID commands)
    (hone : OneResult commandID results)
    (hnil : ∀ op, started = some op →
      d.sendFails (op.proposalMessage (trimSpace commandID)) = false → results = []) :
    Slot commandID ⟨w, commands⟩ ⟨w', commands'⟩ results := by
  cases started with
  | none =>
    rw [Option.elim_none] at hcommands
    have hsame : ∀ id, Live ⟨w', commands'⟩ id → Live ⟨w, commands⟩ id :=
      fun id => Live.mono hops fun hid => hcommands ▸ hid
    exact ⟨hone, fun id _ _ => hsame id, .inr hsame⟩
  | some op =>
    rw [Option.elim_some] at hcommands
    by_cases hsend : d.sendFails (op.proposalMessage (trimSpace commandID)) = true
    · rw [if_pos hsend] at hcommands
      rw [Option.filter_some, if_neg (by simp [hsend])] at hops
      have hsame : ∀ id, Live ⟨w', commands'⟩ id → Live ⟨w, commands⟩ id :=
        fun id => Live.mono hops fun hid => Finset.mem_of_mem_erase (hcommands ▸ hid)
      exact ⟨hone, fun id _ _ => hsame id, .inr hsame⟩
    · rw [if_neg hsend] at hcommands
      rw [Bool.not_eq_true] at hsend
      rw [Option.filter_some, if_pos (by rw [hsend]; rfl), Option.elim_some] at hops
      refine ⟨hone, ?_, .inl (hnil op rfl hsend)⟩
      intro id hne htrim hlive
      refine hlive.imp (fun hid => ?_) fun hop => ?_
      · rw [hcommands] at hid
        exact Finset.mem_of_mem_insert_of_ne hid (Ne.symm hne)
      · dsimp only at hop
        rwa [hops, AList.lookup_insert_ne (Ne.symm htrim)] at hop

theorem slot_add (room groupID target commandID : String) :
    Slot commandID ⟨w, commands⟩ ⟨(w.addMlsMember d room groupID target commandID).1,
      w.addCommands d room groupID target commandID commands⟩
      (w.addResults d room groupID target commandID) :=
  slot_operation (addMlsMember_spec d room groupID target commandID).2
    (addCommands_eq d room groupID target commandID) MlsWorker.oneResult_addResults
    fun _ hop hsend => MlsWorker.addResults_eq_nil hop hsend

theorem slot_remove (room groupID target commandID : String) :
    Slot commandID ⟨w, commands⟩ ⟨(w.removeMlsMember d room groupID target commandID).1,
      w.removeCommands d room groupID target commandID commands⟩
      (w.removeResults d room groupID target commandID) :=
  slot_operation (removeMlsMember_spec d room groupID target commandID).2
    (removeCommands_eq d room groupID target commandID) MlsWorker.oneResult_removeResults
    fun _ hop hsend => MlsWorker.removeResults_eq_nil hop hsend

/-! ### Setups -/

/-- No setup sends its frames under the id. -/
def Foreign (id : String) (w : MlsWorker) : Prop :=
  ∀ a, (w.pendingAttachmentMlsSetups.lookup a).isSome → trimSpace a = a ∧ a ≠ "" ∧
    ∀ n, MlsWorker.fetchCommand a n ≠ id ∧ MlsWorker.addCommand a n ≠ id

theorem Foreign.mono (h : Foreign id w) (hsetups : ∀ a, (w'.pendingAttachmentMlsSetups.lookup
    a).isSome → (w.pendingAttachmentMlsSetups.lookup a).isSome) : Foreign id w' :=
  fun a ha => h a (hsetups a ha)

theorem Foreign.same (h : Foreign id w) (hsame : SameSetups w w') : Foreign id w' :=
  h.mono fun a ha => by rwa [hsame.setups] at ha

/-- The key package of the next target is asked for under an id of the setup. -/
theorem startNext_foreign (h : Foreign id w) (d : MlsDraw) (commands : Finset String)
    (a : String) :
    Foreign id (w.startNextAttachmentMlsSetup d a).1 ∧
      (w.startNextAttachmentMlsSetup d a).1.pendingMlsOperations = w.pendingMlsOperations ∧
      (id ∈ w.startNextCommands d a commands → id ∈ commands) ∧
      answersTo id (w.startNextResults d a) = 0 := by
  unfold MlsWorker.startNextAttachmentMlsSetup MlsWorker.startNextCommands
    MlsWorker.startNextResults
  cases hsetup : w.pendingAttachmentMlsSetups.lookup a with
  | none => exact ⟨h, rfl, fun hid => hid, rfl⟩
  | some setup =>
    dsimp only
    cases htarget : setup.targetUsers[setup.nextTarget]? with
    | none =>
      dsimp only
      split
      · exact ⟨h.mono fun _ ha => (isSome_of_lookup_erase ha).2, rfl, fun hid => hid, rfl⟩
      · exact ⟨h.mono fun _ ha => (isSome_of_lookup_erase ha).2, rfl, fun hid => hid, rfl⟩
    | some target =>
      have hne := ((h a (by rw [hsetup]; rfl)).2.2 setup.nextTarget).1
      refine ⟨h, rfl, fun hid => ?_, MlsWorker.oneResult_fetchResults.answersTo_eq_zero hne⟩
      dsimp only at hid
      unfold MlsWorker.fetchCommands at hid
      split_ifs at hid
      · exact hid
      · exact Finset.mem_of_mem_erase hid
      · exact Finset.mem_of_mem_insert_of_ne hid (Ne.symm hne)

/-- The next target of a setup, after an add that is done. -/
theorem continue_foreign (h : Foreign id w) (hsame : SameSetups w w') (d : MlsDraw)
    (commandID : String) (commands : Finset String) :
    Foreign id (w'.continueAttachmentMlsSetup d commandID).1 ∧
      (id ∈ w.continueCommands d commandID commands → id ∈ commands) ∧
      answersTo id (w.continueResults d commandID) = 0 := by
  unfold MlsWorker.continueAttachmentMlsSetup MlsWorker.continueCommands MlsWorker.continueResults
  rw [hsame.adds, hsame.setups]
  cases hadd : w.pendingAttachmentMlsAdds.lookup commandID with
  | none => exact ⟨h.same hsame, fun hid => hid, rfl⟩
  | some a =>
    dsimp only
    cases hsetup : w.pendingAttachmentMlsSetups.lookup a with
    | none => exact ⟨h.mono fun _ hb => hb, fun hid => hid, rfl⟩
    | some setup =>
      dsimp only
      have hnext : Foreign id (w.nextSetup commandID a setup) := by
        refine h.mono fun b hb => ?_
        by_cases hba : b = a
        · rw [hba, hsetup]
          rfl
        · rwa [MlsWorker.nextSetup, AList.lookup_insert_ne hba] at hb
      obtain ⟨-, -, hcommands, hresults⟩ := startNext_foreign hnext d commands a
      refine ⟨(startNext_foreign ?_ d commands a).1, hcommands, hresults⟩
      exact hnext.mono fun _ hb => hb

/-! ### Messages of the server -/

/-- What happens to the command in a step: it is not answered and nothing new waits for an answer,
or what was waiting is answered for good. -/
def Moves (id : String) (s s' : SetupWorker) (results : List CommandResult) : Prop :=
  answersTo id results = 0 ∧ (s'.Live id → s.Live id) ∨
    answersTo id results ≤ 1 ∧ s.Live id ∧ ¬ s'.Live id

theorem Moves.still (h : Moves id s s' results) (hlive : s'.Live id) : s.Live id := by
  rcases h with ⟨-, hstill⟩ | ⟨-, -, hnot⟩
  · exact hstill hlive
  · exact absurd hlive hnot

theorem Moves.rfl : Moves id s s [] := .inl ⟨Eq.refl 0, fun h => h⟩

/-- Something that does not concern the command follows. -/
theorem Moves.append (h : Moves id s s' results) (hzero : answersTo id results' = 0)
    (hlive : s''.Live id → s'.Live id) : Moves id s s'' (results ++ results') := by
  unfold Moves
  rw [answersTo_append, hzero, Nat.add_zero]
  exact h.imp (fun hstill => ⟨hstill.1, fun hl => hstill.2 (hlive hl)⟩)
    fun hdone => ⟨hdone.1, hdone.2.1, fun hl => hdone.2.2 (hlive hl)⟩

/-- Nothing that waits under another id matters. -/
theorem moves_of_ne (hne : commandID ≠ id) (hone : OneResult commandID results)
    (hlive : s'.Live id → s.Live id) : Moves id s s' results :=
  .inl ⟨hone.answersTo_eq_zero hne, hlive⟩

theorem live_erase (hops : w'.pendingMlsOperations = w.pendingMlsOperations)
    (hlive : Live ⟨w', commands.erase commandID⟩ id) : Live ⟨w, commands⟩ id :=
  hlive.mono hops Finset.mem_of_mem_erase

theorem live_eraseOperation
    (hops : w'.pendingMlsOperations = w.pendingMlsOperations.erase commandID)
    (hcommands : id ∈ commands' → id ∈ commands) (hlive : Live ⟨w', commands'⟩ id) :
    Live ⟨w, commands⟩ id := by
  refine hlive.imp hcommands fun hop => ?_
  dsimp only at hop
  rw [hops] at hop
  exact (isSome_of_lookup_erase hop).2

/-- The answer to a command whose operation is not pending, or ends with it. -/
theorem moves_settle {ok : Bool} {code : String}
    (hops : w'.pendingMlsOperations = w.pendingMlsOperations ∧
        (id ∈ commands → commandID = id → w.pendingMlsOperations.lookup id = none) ∨
      w'.pendingMlsOperations = w.pendingMlsOperations.erase commandID) :
    Moves id ⟨w, commands⟩ ⟨w', commands.erase commandID⟩
      (MlsWorker.settleResults commands commandID ok code) := by
  have hstill : Live ⟨w', commands.erase commandID⟩ id → Live ⟨w, commands⟩ id := by
    rcases hops with ⟨hops, -⟩ | hops
    · exact live_erase hops
    · exact live_eraseOperation hops Finset.mem_of_mem_erase
  by_cases hne : commandID = id
  · subst hne
    by_cases hmem : commandID ∈ commands
    · refine .inr ⟨MlsWorker.oneResult_settleResults.answersTo_le, .inl hmem, ?_⟩
      rintro (hid | hop)
      · exact Finset.notMem_erase _ _ hid
      · dsimp only at hop
        rcases hops with ⟨hops, hnone⟩ | hops
        · rw [hops, hnone hmem (Eq.refl commandID)] at hop
          cases hop
        · rw [hops, AList.lookup_erase] at hop
          cases hop
    · refine .inl ⟨?_, hstill⟩
      rw [MlsWorker.settleResults, if_neg hmem]
      rfl
  · exact moves_of_ne hne MlsWorker.oneResult_settleResults hstill

/-- The answer to a pending operation ends it. -/
theorem moves_done (hop : (w.pendingMlsOperations.lookup commandID).isSome)
    (hops : w'.pendingMlsOperations = w.pendingMlsOperations.erase commandID)
    (hcommands : id ∈ commands' → id ∈ commands.erase commandID)
    (hone : OneResult commandID results) : Moves id ⟨w, commands⟩ ⟨w', commands'⟩ results := by
  by_cases hne : commandID = id
  · subst hne
    refine .inr ⟨hone.answersTo_le, .inr hop, ?_⟩
    rintro (hid | hop)
    · exact Finset.notMem_erase _ _ (hcommands hid)
    · dsimp only at hop
      rw [hops, AList.lookup_erase] at hop
      cases hop
  · exact moves_of_ne hne hone
      (live_eraseOperation hops fun hid => Finset.mem_of_mem_erase (hcommands hid))

/-- An arriving key package answers its fetch; an add that follows is one of a setup. -/
theorem moves_receiveKeyPackage (h : Foreign id w) (m : Message)
    (hturn : id ∈ commands → m.commandID = id → w.pendingMlsOperations.lookup id = none) :
    Foreign id (w.receiveKeyPackage d m).1 ∧
      Moves id ⟨w, commands⟩ ⟨(w.receiveKeyPackage d m).1, w.keyPackageCommands d m commands⟩
        (w.keyPackageResults d m commands) := by
  unfold MlsWorker.receiveKeyPackage MlsWorker.keyPackageCommands MlsWorker.keyPackageResults
  have hfetches : (w.storeKeyPackage m).pendingAttachmentMlsFetches =
      w.pendingAttachmentMlsFetches := rfl
  have hsetups : (w.storeKeyPackage m).pendingAttachmentMlsSetups =
      w.pendingAttachmentMlsSetups := rfl
  dsimp only
  rw [hfetches, hsetups]
  have hsettle : ∀ v : MlsWorker, v.pendingMlsOperations = w.pendingMlsOperations →
      Moves id ⟨w, commands⟩ ⟨v, commands.erase m.commandID⟩
        (MlsWorker.settleResults commands m.commandID true "") :=
    fun v hops => moves_settle (.inl ⟨hops, hturn⟩)
  cases hfetch : w.pendingAttachmentMlsFetches.lookup m.commandID with
  | none => exact ⟨h, (hsettle _ rfl).append rfl fun hl => hl⟩
  | some a =>
    dsimp only
    cases hsetup : w.pendingAttachmentMlsSetups.lookup a with
    | none => exact ⟨h, (hsettle _ rfl).append rfl fun hl => hl⟩
    | some setup =>
      dsimp only
      obtain ⟨htrim, hne, hforeign⟩ := h a (by rw [hsetup]; rfl)
      have hadd := (hforeign setup.nextTarget).2
      generalize hw : (w.storeKeyPackage m).awaitAdd m.commandID
        (MlsWorker.addCommand a setup.nextTarget) a = w₁
      have hslot : Slot (MlsWorker.addCommand a setup.nextTarget)
          ⟨w₁, commands.erase m.commandID⟩ _ _ :=
        slot_add (d := d) setup.room setup.groupID m.targetUserCode _
      refine ⟨h.mono fun b hb => ?_, (hsettle w₁ ?_).append (hslot.one.answersTo_eq_zero hadd)
        (hslot.other id hadd ?_)⟩
      · rw [(addMlsMember_spec d _ _ _ _).1.setups, ← hw] at hb
        exact hb
      · rw [← hw]
        rfl
      · rwa [MlsWorker.trimSpace_addCommand htrim hne]

/-- A proposal is stored: its commit follows, or the operation has failed. -/
theorem moves_receiveProposalAck (h : Foreign id w) (commandID : String) :
    Foreign id (w.receiveProposalAck d commandID).1 ∧
      Moves id ⟨w, commands⟩ ⟨(w.receiveProposalAck d commandID).1,
        match w.pendingMlsOperations.lookup commandID with
        | none => commands
        | some op =>
          if op.phase = .proposal ∧ d.sendFails (op.commitMessage commandID) then
            commands.erase commandID
          else commands⟩
        (if (w.pendingMlsOperations.lookup commandID).any fun op =>
            op.phase == .proposal && d.sendFails (op.commitMessage commandID) then
          commandResult commandID false "send_failed"
        else []) := by
  unfold MlsWorker.receiveProposalAck
  cases hop : w.pendingMlsOperations.lookup commandID with
  | none => exact ⟨h, .rfl⟩
  | some op =>
    dsimp only
    rw [Option.any_some]
    by_cases hphase : op.phase = .proposal
    · rw [if_neg (by simp [hphase]), hphase]
      by_cases hsend : d.sendFails (op.commitMessage commandID) = true
      · rw [if_pos hsend, if_pos ⟨rfl, hsend⟩, if_pos (by rw [hsend]; rfl)]
        exact ⟨h, moves_done (by rw [hop]; rfl) rfl (fun hid => hid)
          (oneResult_commandResult _ _ _)⟩
      · rw [if_neg hsend, if_neg fun hc => hsend hc.2, if_neg (by simp [hsend])]
        refine ⟨h, .inl ⟨rfl, fun hl => hl.imp (fun hid => hid) fun hl => ?_⟩⟩
        by_cases hid : id = commandID
        · rw [hid, hop]
          rfl
        · rwa [AList.lookup_insert_ne hid] at hl
    · rw [if_pos hphase, if_neg fun hc => hphase hc.1, if_neg (by simp [hphase])]
      exact ⟨h, .rfl⟩

/-- The operation of an add is done: its setup goes on to the next target. -/
theorem moves_continue (h : Foreign id w) (hsame : SameSetups w w')
    (hop : (w.pendingMlsOperations.lookup commandID).isSome)
    (hops : w'.pendingMlsOperations = w.pendingMlsOperations.erase commandID)
    (hone : OneResult commandID results) :
    Foreign id (w'.continueAttachmentMlsSetup d commandID).1 ∧
      Moves id ⟨w, commands⟩ ⟨(w'.continueAttachmentMlsSetup d commandID).1,
        w.continueCommands d commandID (commands.erase commandID)⟩
        (w.continueResults d commandID ++ results) := by
  obtain ⟨hforeign, hcommands, hzero⟩ := continue_foreign h hsame d commandID
    (commands.erase commandID)
  refine ⟨hforeign, ?_⟩
  have hdone : Moves id ⟨w, commands⟩ ⟨(w'.continueAttachmentMlsSetup d commandID).1,
      w.continueCommands d commandID (commands.erase commandID)⟩ results := by
    refine moves_done hop ?_ hcommands hone
    rw [(MlsWorker.same_continueAttachmentMlsSetup commandID).1, hops]
  unfold Moves
  rw [answersTo_append, hzero, Nat.zero_add]
  exact hdone

/-- A commit is stored: a welcome follows, or the operation ends. -/
theorem moves_receiveCommitAck {platform : Platform} (h : Foreign id w) (m : Message)
    (hturn : id ∈ commands → m.commandID = id →
      ∀ op, w.pendingMlsOperations.lookup id = some op → op.phase = .commit) :
    Foreign id (w.receiveCommitAck platform d m.commandID).1 ∧
      Moves id ⟨w, commands⟩ ⟨(w.receiveCommitAck platform d m.commandID).1,
        match w.pendingMlsOperations.lookup m.commandID with
        | none => commands.erase m.commandID
        | some op =>
          if op.phase ≠ .commit ∨ (w.mlsGroups.lookup op.group).isNone then
            commands.erase m.commandID
          else if op.add then
            if d.sendFails (op.welcomeMessage platform m.commandID) then commands.erase m.commandID
            else commands
          else w.continueCommands d m.commandID (commands.erase m.commandID)⟩
        (w.commitAckResults platform d m commands) := by
  unfold MlsWorker.receiveCommitAck MlsWorker.commitAckResults
  cases hop : w.pendingMlsOperations.lookup m.commandID with
  | none =>
    refine ⟨h, moves_settle (.inl ⟨rfl, ?_⟩)⟩
    rintro - rfl
    exact hop
  | some op =>
    dsimp only
    have hsome : (w.pendingMlsOperations.lookup m.commandID).isSome := by
      rw [hop]
      rfl
    by_cases hphase : op.phase = .commit
    · rw [if_neg (not_not.2 hphase), if_neg (not_not.2 hphase)]
      cases hgroup : w.mlsGroups.lookup op.group with
      | none =>
        rw [if_pos (.inr rfl)]
        exact ⟨h, moves_done hsome rfl (fun hid => hid) (oneResult_commandResult _ _ _)⟩
      | some state =>
        have hnone : ¬ (some state).isNone = true := Bool.false_ne_true
        rw [if_neg (not_or.2 ⟨not_not.2 hphase, hnone⟩), if_neg hnone]
        dsimp only
        by_cases hadd : op.add = true
        · rw [if_pos hadd, if_pos hadd, if_pos hadd]
          by_cases hsend : d.sendFails (op.welcomeMessage platform m.commandID) = true
          · rw [if_pos hsend, if_pos hsend, if_pos hsend]
            exact ⟨h, moves_done hsome rfl (fun hid => hid) (oneResult_commandResult _ _ _)⟩
          · rw [if_neg hsend, if_neg hsend, if_neg hsend]
            refine ⟨h, .inl ⟨rfl, fun hl => hl.imp (fun hid => hid) fun hl => ?_⟩⟩
            by_cases hid : id = m.commandID
            · rw [hid, hop]
              rfl
            · rwa [AList.lookup_insert_ne hid] at hl
        · rw [if_neg hadd, if_neg hadd, if_neg hadd]
          exact moves_continue h ⟨rfl, rfl, rfl⟩ hsome rfl (oneResult_commandResult _ _ _)
    · rw [if_pos hphase, if_pos hphase, if_pos (.inl hphase)]
      refine ⟨h, moves_settle (.inl ⟨rfl, fun hid hm => ?_⟩)⟩
      subst hm
      exact absurd (hturn hid rfl op hop) hphase

/-- A welcome is stored: the operation ends. -/
theorem moves_receiveWelcomeAck (h : Foreign id w) (m : Message) :
    Foreign id (w.receiveWelcomeAck d m.commandID).1 ∧
      Moves id ⟨w, commands⟩ ⟨(w.receiveWelcomeAck d m.commandID).1,
        match w.pendingMlsOperations.lookup m.commandID with
        | none => commands
        | some op =>
          if op.phase ≠ .welcome then commands
          else w.continueCommands d m.commandID (commands.erase m.commandID)⟩
        (if w.awaitsWelcome m.commandID then
          w.continueResults d m.commandID ++ commandResult m.commandID true (MlsWorker.duplicateCode m)
        else []) := by
  unfold MlsWorker.receiveWelcomeAck MlsWorker.awaitsWelcome
  cases hop : w.pendingMlsOperations.lookup m.commandID with
  | none => exact ⟨h, .rfl⟩
  | some op =>
    dsimp only
    rw [Option.any_some]
    by_cases hphase : op.phase = .welcome
    · rw [if_neg (not_not.2 hphase), if_neg (not_not.2 hphase), if_pos (by rw [hphase]; rfl)]
      obtain ⟨hsame, -⟩ := recordWelcome_same (w := w) op
      exact moves_continue h ⟨hsame.setups, hsame.fetches, hsame.adds⟩ (by rw [hop]; rfl) rfl
        (oneResult_commandResult _ _ _)
    · rw [if_pos hphase, if_pos hphase, if_neg (by simpa using hphase)]
      exact ⟨h, .rfl⟩

/-- The server refuses the command: whatever waits for it ends. -/
theorem moves_receiveError (h : Foreign id w) (commandID : String) :
    Foreign id (w.receiveError commandID) ∧
      Moves id ⟨w, commands⟩ ⟨w.receiveError commandID, commands.erase commandID⟩
        (MlsWorker.settleResults commands commandID false "server_rejected") := by
  have hfetch : Foreign id (w.failFetch commandID) ∧
      (w.failFetch commandID).pendingMlsOperations = w.pendingMlsOperations := by
    unfold MlsWorker.failFetch
    split
    · exact ⟨h, rfl⟩
    · exact ⟨h.mono fun _ ha => (isSome_of_lookup_erase ha).2, rfl⟩
  have hadd : Foreign id ((w.failFetch commandID).failAdd commandID) ∧
      ((w.failFetch commandID).failAdd commandID).pendingMlsOperations =
        w.pendingMlsOperations := by
    unfold MlsWorker.failAdd
    split
    · exact hfetch
    · exact ⟨hfetch.1.mono fun _ ha => (isSome_of_lookup_erase ha).2, hfetch.2⟩
  refine ⟨hadd.1.mono fun _ ha => ha, moves_settle (.inr ?_)⟩
  exact congrArg (fun l => AList.erase commandID l) hadd.2

/-- A message of the server whose processing throws nothing and that does not answer early. -/
theorem moves_reply {platform : Platform} (h : Foreign id w) (m : Message)
    (hturn : m.commandID = id → w.answersEarly m commands = false) :
    Foreign id (w.processMlsMessage platform d m).1 ∧
      Moves id ⟨w, commands⟩ ⟨(w.processMlsMessage platform d m).1,
        w.messageCommands platform d m commands⟩ (w.replyResults platform d m commands) := by
  unfold MlsWorker.processMlsMessage MlsWorker.messageCommands MlsWorker.replyResults
  unfold MlsWorker.answersEarly at hturn
  generalize m.type = messageType at hturn ⊢
  cases messageType
  case mlsKeyPackageFetch =>
    dsimp only at hturn ⊢
    by_cases hkey : m.keyPackage = ""
    · rw [if_pos hkey, if_pos hkey, if_pos hkey]
      exact ⟨h, .rfl⟩
    · rw [if_neg hkey, if_neg hkey, if_neg hkey]
      refine moves_receiveKeyPackage h m fun hid hm => ?_
      subst hm
      simpa [hid, hkey] using hturn rfl
  case mlsGroupProposal =>
    dsimp only
    by_cases hack : m.proposal ≠ "" ∨ m.commandID = ""
    · rw [if_pos hack, if_pos hack, if_pos hack]
      exact ⟨h, .rfl⟩
    · rw [if_neg hack, if_neg hack, if_neg hack]
      exact moves_receiveProposalAck h m.commandID
  case mlsGroupWelcome =>
    dsimp only
    by_cases hwelcome : m.welcome = ""
    · by_cases hcommand : m.commandID = ""
      · rw [if_neg (not_not.2 hwelcome), if_pos hcommand, if_pos (.inr hcommand),
          if_pos (.inr hcommand)]
        exact ⟨h, .rfl⟩
      · have hnot : ¬ (m.welcome ≠ "" ∨ m.commandID = "") := not_or.2 ⟨not_not.2 hwelcome, hcommand⟩
        rw [if_neg (not_not.2 hwelcome), if_neg hcommand, if_neg hnot, if_neg hnot]
        exact moves_receiveWelcomeAck h m
    · rw [if_pos hwelcome, if_pos (.inl hwelcome), if_pos (.inl hwelcome)]
      obtain ⟨hsame, hops⟩ := receiveWelcome_same (w := w) (d := d) m
      exact ⟨h.same hsame, .inl ⟨rfl, Live.mono hops fun hid => hid⟩⟩
  case mlsGroupCommit =>
    dsimp only at hturn ⊢
    by_cases hcommit : m.commit = ""
    · by_cases hcommand : m.commandID = ""
      · rw [if_neg (not_not.2 hcommit), if_pos hcommand, if_pos (.inr hcommand),
          if_pos (.inr hcommand)]
        exact ⟨h, .rfl⟩
      · have hnot : ¬ (m.commit ≠ "" ∨ m.commandID = "") := not_or.2 ⟨not_not.2 hcommit, hcommand⟩
        rw [if_neg (not_not.2 hcommit), if_neg hcommand, if_neg hnot, if_neg hnot]
        refine moves_receiveCommitAck h m fun hid hm op hop => ?_
        subst hm
        simpa [hid, hcommit, hop] using hturn rfl
    · rw [if_pos hcommit, if_pos (.inl hcommit), if_pos (.inl hcommit)]
      obtain ⟨hsame, hops⟩ := receiveCommit_same (w := w) (d := d) m
      exact ⟨h.same hsame, .inl ⟨rfl, Live.mono hops fun hid => hid⟩⟩
  case error =>
    dsimp only
    by_cases hcommand : m.commandID = ""
    · rw [if_pos hcommand, if_pos hcommand, if_pos hcommand]
      exact ⟨h, .rfl⟩
    · rw [if_neg hcommand, if_neg hcommand, if_neg hcommand]
      exact moves_receiveError h m.commandID
  all_goals exact ⟨h, .rfl⟩

/-! ### Steps -/

/-- A login after which the operation is sent again, or dropped, gives no result. -/
theorem answersTo_connectedResults {preserveMlsState : Bool}
    (hresume : preserveMlsState = true → w.resumeFails d id = false) :
    answersTo id (w.connectedResults d preserveMlsState) = 0 := by
  unfold MlsWorker.connectedResults
  split
  · rename_i hpreserve
    refine List.countP_eq_zero.2 fun result hresult => ?_
    obtain ⟨x, -, hx⟩ := List.mem_flatMap.1 hresult
    split at hx
    · rename_i hfails
      rw [commandID_of_mem_commandResult hx, beq_iff_eq]
      rintro rfl
      rw [hresume hpreserve] at hfails
      cases hfails
    · cases hx
  · rfl

theorem moves_connected (h : Foreign id w) (c : ClientID) {preserveMlsState : Bool}
    (hresume : preserveMlsState = true → w.resumeFails d id = false) :
    Foreign id (w.connected d c preserveMlsState).1 ∧
      Moves id ⟨w, commands⟩ ⟨(w.connected d c preserveMlsState).1,
        w.connectedCommands preserveMlsState commands⟩ (w.connectedResults d preserveMlsState) := by
  have hzero := answersTo_connectedResults hresume
  unfold MlsWorker.connected MlsWorker.connectedCommands
  cases preserveMlsState with
  | true =>
    have hkeep : ∀ v : MlsWorker, SameSetups w v → v.pendingMlsOperations = w.pendingMlsOperations →
        Foreign id (v.resumePendingMlsOperations d).1 ∧
          Moves id ⟨w, commands⟩ ⟨(v.resumePendingMlsOperations d).1,
            commands.filter fun id => w.awaitsWelcome id = false⟩ (w.connectedResults d true) := by
      intro v hsame hops
      refine ⟨h.mono fun a ha => hsame.setups ▸ ha, .inl ⟨hzero, fun hl => hl.imp ?_ ?_⟩⟩
      · exact fun hid => (Finset.mem_filter.1 hid).1
      · intro hop
        unfold MlsWorker.resumePendingMlsOperations at hop
        dsimp only at hop
        rw [MlsWorker.lookup_dropWelcomes, hops] at hop
        split at hop
        · cases hop
        · exact hop
    dsimp only
    rw [if_pos rfl, if_pos rfl]
    split_ifs
    · exact hkeep _ ⟨rfl, rfl, rfl⟩ rfl
    · exact hkeep _ ⟨rfl, rfl, rfl⟩ rfl
  | false =>
    dsimp only
    rw [if_neg Bool.false_ne_true, if_neg Bool.false_ne_true]
    refine ⟨h.mono fun _ ha => ha, .inl ⟨hzero, ?_⟩⟩
    rintro (hid | hop)
    · cases hid
    · cases hop

/-- The first fetch of a new setup is one of the setup. -/
theorem moves_startUpload {platform : Platform} (h : Foreign id w) {room : String}
    {targets : List String} (hissues : ∀ n, MlsWorker.fetchCommand (trimSpace commandID) n ≠ id ∧
      MlsWorker.addCommand (trimSpace commandID) n ≠ id) :
    Foreign id (w.startAttachmentUpload platform d room targets commandID).1 ∧
      Moves id ⟨w, commands⟩ ⟨(w.startAttachmentUpload platform d room targets commandID).1,
        if MlsWorker.refusesUpload d targets commandID then commands
        else (w.withSetup platform room targets commandID).startNextCommands d
          (trimSpace commandID) commands⟩
        (if MlsWorker.refusesUpload d targets commandID then []
        else (w.withSetup platform room targets commandID).startNextResults d
          (trimSpace commandID)) := by
  rw [MlsWorker.startAttachmentUpload_eq]
  by_cases hrefused : MlsWorker.refusesUpload d targets commandID = true
  · rw [if_pos hrefused, if_pos hrefused, if_pos hrefused]
    exact ⟨h, .rfl⟩
  · rw [if_neg hrefused, if_neg hrefused, if_neg hrefused]
    have hne : trimSpace commandID ≠ "" :=
      fun he => hrefused (MlsWorker.refusesUpload_iff.2 (.inr (.inl he)))
    have hnew : Foreign id (w.withSetup platform room targets commandID) := by
      intro a ha
      by_cases hid : a = trimSpace commandID
      · subst hid
        exact ⟨trimSpace_trimSpace commandID, hne, hissues⟩
      · rw [MlsWorker.setups_withSetup, AList.lookup_insert_ne hid] at ha
        exact h a ha
    obtain ⟨hforeign, hops, hcommands, hzero⟩ :=
      startNext_foreign hnew d commands (trimSpace commandID)
    rw [MlsWorker.operations_withSetup] at hops
    generalize ((w.withSetup platform room targets commandID).startNextAttachmentMlsSetup d
      (trimSpace commandID)).1 = w' at hforeign hops ⊢
    exact ⟨hforeign, .inl ⟨hzero, Live.mono hops hcommands⟩⟩

/-- A slot of another command. -/
theorem Slot.moves (h : Slot commandID s s' results)
    (hissues : ¬ (commandID = id ∨ trimSpace commandID = id)) : Moves id s s' results :=
  have hne := not_or.1 hissues
  moves_of_ne hne.1 h.one (h.other id hne.1 hne.2)

/-- A step that is no command with the id and does not disturb it. -/
theorem moves_step {platform : Platform} {x : MlsInput × MlsDraw} {refuses : Bool}
    (h : Foreign id s.worker) (hissues : ¬ x.1.Issues id)
    (hquiet : s.worker.disturbs platform x refuses s.pendingMlsCommands id = false) :
    Foreign id (s.step platform x).worker ∧ Moves id s (s.step platform x)
      (s.worker.stepResults platform x refuses s.pendingMlsCommands) := by
  obtain ⟨w, commands⟩ := s
  obtain ⟨input, d⟩ := x
  unfold SetupWorker.step MlsWorker.step MlsWorker.nextCommands MlsWorker.stepResults
  unfold MlsWorker.disturbs at hquiet
  cases input with
  | connectToServer username userCode login =>
    dsimp only at hquiet ⊢
    unfold MlsWorker.connectToServer
    cases login with
    | none => exact ⟨h.mono fun _ ha => ha, .rfl⟩
    | some c =>
      dsimp only
      rw [Option.isSome_some, if_pos rfl, if_pos rfl]
      rw [Option.isSome_some, Bool.true_and] at hquiet
      have hsaved : Foreign id { w with saved := true, username, userCode } := h.mono fun _ ha => ha
      refine moves_connected hsaved c fun hpreserve => ?_
      rwa [hpreserve, Bool.true_and] at hquiet
  | retrySavedConnection login =>
    dsimp only at hquiet ⊢
    unfold MlsWorker.retrySavedConnection
    cases login with
    | none => exact ⟨h.mono fun _ ha => ha, .rfl⟩
    | some c =>
      dsimp only
      rw [Option.isSome_some, if_pos rfl, if_pos rfl]
      rw [Option.isSome_some, Bool.true_and] at hquiet
      exact moves_connected h c fun _ => hquiet
  | disconnect => exact ⟨h.mono fun _ ha => ha, .rfl⟩
  | fetchMlsKeyPackage room target commandID =>
    exact ⟨h, (slot_fetch room target commandID).moves hissues⟩
  | addMlsMember room groupID target commandID =>
    exact ⟨h.same (addMlsMember_spec d room groupID target commandID).1,
      (slot_add room groupID target commandID).moves hissues⟩
  | removeMlsMember room groupID target commandID =>
    exact ⟨h.same (removeMlsMember_spec d room groupID target commandID).1,
      (slot_remove room groupID target commandID).moves hissues⟩
  | startAttachmentUpload room targets commandID =>
    exact moves_startUpload h fun n => not_or.1 fun he => hissues ⟨n, he⟩
  | receive m =>
    dsimp only at hquiet ⊢
    by_cases hsession : w.session.isSome = true
    · rw [if_pos hsession, if_pos hsession, if_pos hsession]
      rw [hsession, Bool.true_and] at hquiet
      have hturn : m.commandID = id → w.raises platform d refuses m = false ∧
          w.answersEarly m commands = false := by
        rintro rfl
        rwa [beq_self_eq_true, Bool.true_and, Bool.or_eq_false_iff] at hquiet
      obtain ⟨hforeign, hmoves⟩ := moves_reply (d := d) h m
        fun hm => (hturn hm).2
      refine ⟨hforeign, ?_⟩
      unfold MlsWorker.messageResults
      split
      · rename_i hraises
        refine moves_of_ne (fun hm => ?_) (oneResult_commandResult _ _ _) hmoves.still
        rw [(hturn hm).1] at hraises
        cases hraises
      · exact hmoves
    · rw [if_neg hsession, if_neg hsession, if_neg hsession]
      exact ⟨h, .rfl⟩

/-- The command itself. -/
theorem slot_step (platform : Platform) {x : MlsInput × MlsDraw} (refuses : Bool)
    (h : Foreign id s.worker) (hcommand : x.1.Commands id) :
    Foreign id (s.step platform x).worker ∧ Slot id s (s.step platform x)
      (s.worker.stepResults platform x refuses s.pendingMlsCommands) := by
  obtain ⟨w, commands⟩ := s
  obtain ⟨input, d⟩ := x
  cases input
  case fetchMlsKeyPackage room target commandID =>
    obtain rfl : commandID = id := hcommand
    exact ⟨h, slot_fetch room target commandID⟩
  case addMlsMember room groupID target commandID =>
    obtain rfl : commandID = id := hcommand
    exact ⟨h.same (addMlsMember_spec d room groupID target commandID).1,
      slot_add room groupID target commandID⟩
  case removeMlsMember room groupID target commandID =>
    obtain rfl : commandID = id := hcommand
    exact ⟨h.same (removeMlsMember_spec d room groupID target commandID).1,
      slot_remove room groupID target commandID⟩
  all_goals exact hcommand.elim

end SetupWorker

namespace MlsControl

variable {s : MlsControl}

/-! ### Runs -/

/-- The command has at most one result, and with one it waits for nothing. -/
structure Answered (id : String) (s : MlsControl) : Prop where
  foreign : SetupWorker.Foreign id s.setups.worker
  one : answersTo id s.results ≤ 1
  done : answersTo id s.results = 1 → ¬ s.setups.Live id

/-- Nothing has been said about the command. -/
structure Unheard (id : String) (s : MlsControl) : Prop where
  foreign : SetupWorker.Foreign id s.setups.worker
  zero : answersTo id s.results = 0
  idle : ¬ s.setups.Live id

variable {platform : Platform} {x : MlsControlInput}

theorem unheard_empty (id : String) : Unheard id {} where
  foreign := by
    intro a ha
    cases ha
  zero := rfl
  idle := by
    rintro (hid | hop)
    · cases hid
    · cases hop

theorem Unheard.step (h : Unheard id s) (hissues : ¬ x.input.Issues id)
    (hquiet : Undisturbed platform id s x) : Unheard id (s.step platform x) := by
  obtain ⟨hforeign, hmoves⟩ := SetupWorker.moves_step h.foreign hissues hquiet
  rcases hmoves with ⟨hzero, hstill⟩ | ⟨-, hlive, -⟩
  · refine ⟨hforeign, ?_, fun hlive => h.idle (hstill hlive)⟩
    unfold MlsControl.step
    rw [answersTo_append, h.zero, hzero]
  · exact absurd hlive h.idle

/-- The command is sent, or answered at once. -/
theorem Unheard.command (h : Unheard id s) (hcommand : x.input.Commands id) :
    Answered id (s.step platform x) := by
  obtain ⟨hforeign, hslot⟩ := SetupWorker.slot_step (x := (x.input, x.draw)) platform x.refuses
    h.foreign hcommand
  have hresults : answersTo id (s.step platform x).results =
      answersTo id (s.setups.worker.stepResults platform (x.input, x.draw) x.refuses
        s.setups.pendingMlsCommands) := by
    unfold MlsControl.step
    rw [answersTo_append, h.zero, Nat.zero_add]
  refine ⟨hforeign, hresults.trans_le hslot.one.answersTo_le, fun hone hlive => ?_⟩
  rcases hslot.idle with hnil | hidle
  · rw [hresults, hnil] at hone
    cases hone
  · exact h.idle (hidle id hlive)

theorem Answered.step (h : Answered id s) (hissues : ¬ x.input.Issues id)
    (hquiet : Undisturbed platform id s x) : Answered id (s.step platform x) := by
  obtain ⟨hforeign, hmoves⟩ := SetupWorker.moves_step h.foreign hissues hquiet
  have hresults : answersTo id (s.step platform x).results = answersTo id s.results +
      answersTo id (s.setups.worker.stepResults platform (x.input, x.draw) x.refuses
        s.setups.pendingMlsCommands) := answersTo_append
  have hone := h.one
  rcases hmoves with ⟨hzero, hstill⟩ | ⟨hle, hlive, hnot⟩
  · rw [hzero, Nat.add_zero] at hresults
    exact ⟨hforeign, hresults.trans_le hone,
      fun hdone hlive => h.done (hresults.symm.trans hdone) (hstill hlive)⟩
  · -- the command was waiting, so it had no result
    have hzero : answersTo id s.results ≠ 1 := fun hdone => h.done hdone hlive
    exact ⟨hforeign, by omega, fun _ => hnot⟩

/-- A command whose id nothing else uses has at most one result, in every run in which no step gives
it a result and leaves it pending. -/
theorem one_result (platform : Platform) (id : String) (before after : List MlsControlInput)
    (command : MlsControlInput) (hcommand : command.input.Commands id)
    (hfresh : ∀ x ∈ before ++ after, ¬ x.input.Issues id)
    (hquiet : Along (step platform) (Undisturbed platform id) {} (before ++ command :: after)) :
    answersTo id (run (step platform) {} (before ++ command :: after)).results ≤ 1 := by
  obtain ⟨hbefore, -, hafter⟩ := hquiet.append
  have hfirst : ∀ x ∈ before, ¬ x.input.Issues id :=
    fun x hx => hfresh x (List.mem_append_left _ hx)
  have hlast : ∀ x ∈ after, ¬ x.input.Issues id :=
    fun x hx => hfresh x (List.mem_append_right _ hx)
  rw [run_append, run_cons]
  have hunheard : Unheard id (run (step platform) {} before) :=
    run_invariant_along _ (fun _ _ hx h => Unheard.step h hx.1 hx.2) (unheard_empty id)
      ((along_of_forall hfirst).and hbefore)
  exact (run_invariant_along _ (fun _ _ hx h => Answered.step h hx.1 hx.2)
    (hunheard.command hcommand) ((along_of_forall hlast).and hafter)).one

instance (platform : Platform) (id : String) (s : MlsControl) (x : MlsControlInput) :
    Decidable (Undisturbed platform id s x) := inferInstanceAs (Decidable (_ = false))

/-- Nothing is refused. -/
def plain (x : MlsInput × MlsDraw) : MlsControlInput := { input := x.1, draw := x.2 }

/-- Alice logs in and has Bob's key package. -/
def keyPackageOfBob : List MlsControlInput := (MlsWorker.addBob.take 2).map plain

/-- Alice adds Bob. -/
def addBobCommand : MlsControlInput :=
  { input := .addMlsMember "lobby" "g" "bob" "c1"
    draw := { proposal := some "cHJvcG9zYWw=", commit := some ("Y29tbWl0", "d2VsY29tZQ==")
              keyPackage := some "b3du" } }

theorem one_result_addBob :
    answersTo "c1" (run (step Hub.samplePlatform) {} (keyPackageOfBob ++ addBobCommand ::
      MlsWorker.storedBob.map plain)).results ≤ 1 := by
  refine one_result Hub.samplePlatform "c1" _ _ _ rfl ?_ (by decide +kernel)
  simp [keyPackageOfBob, MlsWorker.addBob, MlsWorker.storedBob, plain, MlsInput.Issues]

/-- The connection is lost and comes back twice, the first time for too short to send the proposal
again. -/
def lostTwice : List MlsControlInput :=
  [{ input := .disconnect },
    { input := .retrySavedConnection (some 1), draw := { sendFails := fun _ => true } },
    { input := .disconnect },
    { input := .retrySavedConnection (some 2) }]

/-- The proposal that could not be sent again is answered as failed, and once it has been sent and
stored, as done. -/
theorem failed_resume_then_result :
    ¬ ∀ (platform : Platform) (id : String) (before after : List MlsControlInput)
      (command : MlsControlInput), command.input.Commands id →
        (∀ x ∈ before ++ after, ¬ x.input.Issues id) →
          answersTo id (run (step platform) {} (before ++ command :: after)).results ≤ 1 := by
  intro hclaim
  have htwo : answersTo "c1" (run (step Hub.samplePlatform) {} (keyPackageOfBob ++ addBobCommand ::
      (lostTwice ++ MlsWorker.storedBob.map plain))).results = 2 := by decide +kernel
  have hone := hclaim Hub.samplePlatform "c1" keyPackageOfBob
    (lostTwice ++ MlsWorker.storedBob.map plain) addBobCommand rfl
    (by simp [keyPackageOfBob, MlsWorker.addBob, lostTwice, MlsWorker.storedBob, plain,
      MlsInput.Issues])
  omega

end MlsControl

end Gui

end LanChat
