import LanChat.Gui.TendedSetups

/-!
# Runs of attachment setups

* `reported`: a setup goes away when its upload begins or with an error, in every step;
* `setups_tended`: in a run that orphans no setup every setup waits for something;
* `thrown_add_leaves_setup`: an add that throws orphans its setup.
-/

namespace LanChat

namespace Gui

open GoStrings EventMachine

namespace SetupWorker

variable {w : MlsWorker} {d : MlsDraw} {platform : Platform}

/-! ### Setups that go away -/

theorem startNext_reported {a id : String} (hid : (w.pendingAttachmentMlsSetups.lookup id).isSome)
    (hgone : (w.startNextAttachmentMlsSetup d a).1.pendingAttachmentMlsSetups.lookup id = none) :
    (∃ m ∈ (w.startNextAttachmentMlsSetup d a).2, m.type = .attachmentInit ∧ m.commandID = id) ∨
      id ∈ w.startNextErrors d a := by
  unfold MlsWorker.startNextAttachmentMlsSetup at hgone ⊢
  unfold MlsWorker.startNextErrors
  cases hsetup : w.pendingAttachmentMlsSetups.lookup a with
  | none =>
    rw [hsetup] at hgone
    rw [hgone] at hid
    cases hid
  | some setup =>
    rw [hsetup] at hgone
    dsimp only at hgone ⊢
    cases htarget : setup.targetUsers[setup.nextTarget]? with
    | some target =>
      rw [htarget] at hgone
      dsimp only at hgone
      rw [hgone] at hid
      cases hid
    | none =>
      rw [htarget] at hgone
      dsimp only at hgone ⊢
      have herase : (w.pendingAttachmentMlsSetups.erase a).lookup id = none := by
        cases hfile : d.fileSize with
        | none =>
          rw [hfile] at hgone
          exact hgone
        | some logicalSize =>
          rw [hfile] at hgone
          exact hgone
      have hsame : id = a := by
        by_contra hne
        rw [AList.lookup_erase_ne hne] at herase
        rw [herase] at hid
        cases hid
      subst hsame
      cases d.fileSize with
      | none => exact .inr (List.mem_singleton.2 rfl)
      | some logicalSize =>
        dsimp only
        by_cases hready : maxAttachmentLogicalBytes < logicalSize ∨ w.session.isNone ∨
            setup.room = "" ∨ logicalSize ≤ 0
        · have herror : maxAttachmentLogicalBytes < logicalSize ∨ w.session.isNone ∨
              setup.room = "" ∨ logicalSize ≤ 0 ∨ d.sendFails
                { type := .attachmentInit, room := setup.room, logicalSize, commandID := id } := by
            rcases hready with h | h | h | h
            · exact .inl h
            · exact .inr (.inl h)
            · exact .inr (.inr (.inl h))
            · exact .inr (.inr (.inr (.inl h)))
          rw [if_pos hready, if_pos herror]
          exact .inr (List.mem_singleton.2 rfl)
        · rw [if_neg hready]
          by_cases hsend : d.sendFails { type := .attachmentInit, room := setup.room, logicalSize
                                         commandID := id } = true
          · rw [if_pos (.inr (.inr (.inr (.inr hsend))))]
            exact .inr (List.mem_singleton.2 rfl)
          · refine .inl ⟨{ type := .attachmentInit, room := setup.room, logicalSize
                           commandID := id }, ?_, rfl, rfl⟩
            unfold MlsDraw.send
            rw [if_neg hsend]
            exact List.mem_singleton.2 rfl

/-- The errors of a setup depend on the session and the setups only. -/
theorem startNextErrors_congr {w' : MlsWorker} (a : String)
    (hsetups : w'.pendingAttachmentMlsSetups = w.pendingAttachmentMlsSetups)
    (hsession : w'.session = w.session) : w'.startNextErrors d a = w.startNextErrors d a := by
  unfold MlsWorker.startNextErrors
  rw [hsetups, hsession]

theorem continue_reported {w' : MlsWorker} {command id : String} (hsame : SameSetups w w')
    (hsession : w'.session = w.session)
    (hid : (w.pendingAttachmentMlsSetups.lookup id).isSome)
    (hgone : (w'.continueAttachmentMlsSetup d command).1.pendingAttachmentMlsSetups.lookup id =
      none) :
    (∃ m ∈ (w'.continueAttachmentMlsSetup d command).2, m.type = .attachmentInit ∧
      m.commandID = id) ∨ id ∈ w.continueErrors d command := by
  unfold MlsWorker.continueAttachmentMlsSetup at hgone ⊢
  unfold MlsWorker.continueErrors
  rw [hsame.adds, hsame.setups] at hgone ⊢
  cases hadd : w.pendingAttachmentMlsAdds.lookup command with
  | none =>
    rw [hadd] at hgone
    dsimp only at hgone
    rw [hsame.setups, Option.eq_none_iff_forall_not_mem] at hgone
    obtain ⟨setup, hsetup⟩ := Option.isSome_iff_exists.1 hid
    exact (hgone setup hsetup).elim
  | some a =>
    rw [hadd] at hgone
    dsimp only at hgone ⊢
    cases hsetup : w.pendingAttachmentMlsSetups.lookup a with
    | none =>
      rw [hsetup] at hgone
      dsimp only at hgone
      rw [hgone] at hid
      cases hid
    | some setup =>
      rw [hsetup] at hgone
      dsimp only at hgone ⊢
      have herrors : { w' with
          pendingAttachmentMlsAdds := w.pendingAttachmentMlsAdds.erase command
          pendingAttachmentMlsSetups := w.pendingAttachmentMlsSetups.insert a
            { setup with nextTarget := setup.nextTarget + 1 } }.startNextErrors d a =
          (w.nextSetup command a setup).startNextErrors d a :=
        startNextErrors_congr a rfl hsession
      rw [← herrors]
      refine startNext_reported ?_ hgone
      dsimp only
      by_cases hia : id = a
      · rw [hia, AList.lookup_insert]
        rfl
      · rwa [AList.lookup_insert_ne hia]

theorem lookup_of_failFetch {command id : String}
    (hid : (w.pendingAttachmentMlsSetups.lookup id).isSome)
    (hgone : (w.failFetch command).pendingAttachmentMlsSetups.lookup id = none) :
    w.pendingAttachmentMlsFetches.lookup command = some id := by
  unfold MlsWorker.failFetch at hgone
  cases hfetch : w.pendingAttachmentMlsFetches.lookup command with
  | none =>
    rw [hfetch] at hgone
    dsimp only at hgone
    rw [hgone] at hid
    cases hid
  | some a =>
    rw [hfetch] at hgone
    by_cases hia : id = a
    · rw [hia]
    · have hkeep : (w.pendingAttachmentMlsSetups.erase a).lookup id = none := hgone
      rw [AList.lookup_erase_ne hia] at hkeep
      rw [hkeep] at hid
      cases hid

theorem lookup_of_failAdd {command id : String}
    (hid : (w.pendingAttachmentMlsSetups.lookup id).isSome)
    (hgone : (w.failAdd command).pendingAttachmentMlsSetups.lookup id = none) :
    w.pendingAttachmentMlsAdds.lookup command = some id := by
  unfold MlsWorker.failAdd at hgone
  cases hadd : w.pendingAttachmentMlsAdds.lookup command with
  | none =>
    rw [hadd] at hgone
    dsimp only at hgone
    rw [hgone] at hid
    cases hid
  | some a =>
    rw [hadd] at hgone
    by_cases hia : id = a
    · rw [hia]
    · have hkeep : (w.pendingAttachmentMlsSetups.erase a).lookup id = none := hgone
      rw [AList.lookup_erase_ne hia] at hkeep
      rw [hkeep] at hid
      cases hid

/-- A new setup of the same id is not taken away by its upload. -/
theorem startUpload_reported {room commandID id : String} {targets : List String}
    (hid : (w.pendingAttachmentMlsSetups.lookup id).isSome)
    (hgone : (w.startAttachmentUpload platform d room targets
      commandID).1.pendingAttachmentMlsSetups.lookup id = none) :
    (∃ m ∈ (w.startAttachmentUpload platform d room targets commandID).2,
      m.type = .attachmentInit ∧ m.commandID = id) ∨
        id ∈ w.attachmentErrors (.startAttachmentUpload room targets commandID, d) platform := by
  rw [MlsWorker.startAttachmentUpload_eq] at hgone ⊢
  unfold MlsWorker.attachmentErrors
  dsimp only
  by_cases hrefused : MlsWorker.refusesUpload d targets commandID = true
  · rw [if_pos hrefused] at hgone
    dsimp only at hgone
    rw [hgone] at hid
    cases hid
  · rw [if_neg hrefused] at hgone
    rw [if_neg hrefused, if_neg hrefused]
    refine startNext_reported (w := w.withSetup platform room targets commandID) ?_ hgone
    rw [MlsWorker.setups_withSetup]
    by_cases hnew : id = trimSpace commandID
    · rw [hnew, AList.lookup_insert]
      rfl
    · rw [AList.lookup_insert_ne hnew]
      exact hid

theorem receiveKeyPackage_setups (m : Message) :
    (w.receiveKeyPackage d m).1.pendingAttachmentMlsSetups = w.pendingAttachmentMlsSetups := by
  unfold MlsWorker.receiveKeyPackage
  dsimp only
  split
  · rfl
  · split
    · rfl
    · exact (addMlsMember_spec d _ _ _ _).1.setups

theorem receiveProposalAck_setups (command : String) :
    (w.receiveProposalAck d command).1.pendingAttachmentMlsSetups =
      w.pendingAttachmentMlsSetups := by
  unfold MlsWorker.receiveProposalAck
  split
  · rfl
  split_ifs
  · rfl
  · rfl
  · rfl

/-- An acknowledged welcome takes a setup away at its last target. -/
theorem welcomeAck_reported {command id : String}
    (hid : (w.pendingAttachmentMlsSetups.lookup id).isSome)
    (hgone : (w.receiveWelcomeAck d command).1.pendingAttachmentMlsSetups.lookup id = none) :
    (∃ m ∈ (w.receiveWelcomeAck d command).2, m.type = .attachmentInit ∧ m.commandID = id) ∨
      w.awaitsWelcome command = true ∧ id ∈ w.continueErrors d command := by
  unfold MlsWorker.receiveWelcomeAck at hgone ⊢
  unfold MlsWorker.awaitsWelcome
  cases hop : w.pendingMlsOperations.lookup command with
  | none =>
    rw [hop] at hgone
    dsimp only at hgone
    rw [hgone] at hid
    cases hid
  | some op =>
    rw [hop] at hgone
    dsimp only at hgone ⊢
    by_cases hphase : op.phase = .welcome
    · rw [if_neg (by simp [hphase])] at hgone
      rw [if_neg (by simp [hphase]), Option.any_some, hphase]
      obtain ⟨hsame, hsession⟩ := recordWelcome_same (w := w) op
      refine (continue_reported ?_ ?_ hid hgone).imp_right fun herror => ⟨rfl, herror⟩
      · exact ⟨hsame.setups, hsame.fetches, hsame.adds⟩
      · exact hsession
    · rw [if_pos hphase] at hgone
      dsimp only at hgone
      rw [hgone] at hid
      cases hid

/-- So does an acknowledged commit that is no add. -/
theorem commitAck_reported {command id : String}
    (hid : (w.pendingAttachmentMlsSetups.lookup id).isSome)
    (hgone : (w.receiveCommitAck platform d command).1.pendingAttachmentMlsSetups.lookup id =
      none) :
    (∃ m ∈ (w.receiveCommitAck platform d command).2, m.type = .attachmentInit ∧
      m.commandID = id) ∨
      (w.pendingMlsOperations.lookup command).any (fun op =>
        op.phase == .commit && (w.mlsGroups.lookup op.group).isSome && !op.add) = true ∧
          id ∈ w.continueErrors d command := by
  have hkeeps : ∀ {w' : MlsWorker}, w'.pendingAttachmentMlsSetups.lookup id = none →
      w'.pendingAttachmentMlsSetups = w.pendingAttachmentMlsSetups → False := by
    intro w' hnone hsame
    rw [← hsame, hnone] at hid
    cases hid
  unfold MlsWorker.receiveCommitAck at hgone ⊢
  cases hop : w.pendingMlsOperations.lookup command with
  | none =>
    rw [hop] at hgone
    exact (hkeeps hgone rfl).elim
  | some op =>
    rw [hop] at hgone
    dsimp only at hgone ⊢
    by_cases hphase : op.phase = .commit
    · rw [if_neg (by simp [hphase])] at hgone
      rw [if_neg (by simp [hphase])]
      cases hgroup : w.mlsGroups.lookup op.group with
      | none =>
        rw [hgroup] at hgone
        exact (hkeeps hgone rfl).elim
      | some state =>
        rw [hgroup] at hgone
        dsimp only at hgone ⊢
        by_cases hadd : op.add = true
        · rw [if_pos hadd] at hgone
          split_ifs at hgone
          · exact (hkeeps hgone rfl).elim
          · exact (hkeeps hgone rfl).elim
        · rw [if_neg hadd] at hgone
          rw [if_neg hadd]
          refine (continue_reported ?_ ?_ hid hgone).imp_right fun herror => ⟨?_, herror⟩
          · exact ⟨rfl, rfl, rfl⟩
          · rfl
          · simp [hphase, hgroup, hadd]
    · rw [if_pos hphase] at hgone
      exact (hkeeps hgone rfl).elim

theorem message_reported {id : String} (m : Message) (hsession : w.session.isSome)
    (hid : (w.pendingAttachmentMlsSetups.lookup id).isSome)
    (hgone : (w.processMlsMessage platform d m).1.pendingAttachmentMlsSetups.lookup id = none) :
    (∃ f ∈ (w.processMlsMessage platform d m).2, f.type = .attachmentInit ∧ f.commandID = id) ∨
      id ∈ w.attachmentErrors (.receive m, d) platform := by
  have hkeeps : ∀ {w' : MlsWorker}, w'.pendingAttachmentMlsSetups.lookup id = none →
      w'.pendingAttachmentMlsSetups = w.pendingAttachmentMlsSetups → False := by
    intro w' hnone hsame
    rw [← hsame, hnone] at hid
    cases hid
  have hguard : m.commandID ≠ "" → ¬ (w.session.isNone = true ∨ m.commandID = "") := by
    rintro hcommand (hnone | he)
    · rw [Option.isNone_iff_eq_none] at hnone
      rw [hnone] at hsession
      cases hsession
    · exact hcommand he
  unfold MlsWorker.processMlsMessage at hgone ⊢
  unfold MlsWorker.attachmentErrors
  dsimp only
  generalize m.type = messageType at hgone ⊢
  cases messageType
  case mlsKeyPackageFetch =>
    dsimp only at hgone
    split_ifs at hgone
    · exact (hkeeps hgone rfl).elim
    · exact (hkeeps hgone (receiveKeyPackage_setups m)).elim
  case mlsGroupProposal =>
    dsimp only at hgone
    split_ifs at hgone
    · exact (hkeeps hgone rfl).elim
    · exact (hkeeps hgone (receiveProposalAck_setups m.commandID)).elim
  case mlsGroupWelcome =>
    dsimp only at hgone ⊢
    by_cases hwelcome : m.welcome = ""
    · rw [if_neg (by simp [hwelcome])] at hgone
      rw [if_neg (by simp [hwelcome])]
      by_cases hcommand : m.commandID = ""
      · rw [if_pos hcommand] at hgone
        exact (hkeeps hgone rfl).elim
      rw [if_neg hcommand] at hgone
      rw [if_neg hcommand, if_neg (hguard hcommand)]
      refine (welcomeAck_reported hid hgone).imp_right fun ⟨hawaits, herror⟩ => ?_
      rwa [if_pos ⟨hwelcome, hawaits⟩]
    · rw [if_pos hwelcome] at hgone
      exact (hkeeps hgone (receiveWelcome_same m).1.setups).elim
  case mlsGroupCommit =>
    dsimp only at hgone ⊢
    by_cases hcommit : m.commit = ""
    · rw [if_neg (by simp [hcommit])] at hgone
      rw [if_neg (by simp [hcommit])]
      by_cases hcommand : m.commandID = ""
      · rw [if_pos hcommand] at hgone
        exact (hkeeps hgone rfl).elim
      rw [if_neg hcommand] at hgone
      rw [if_neg hcommand, if_neg (hguard hcommand)]
      refine (commitAck_reported hid hgone).imp_right fun ⟨hlast, herror⟩ => ?_
      rwa [if_pos ⟨hcommit, hlast⟩]
    · rw [if_pos hcommit] at hgone
      exact (hkeeps hgone (receiveCommit_same m).1.setups).elim
  case error =>
    dsimp only at hgone ⊢
    by_cases hcommand : m.commandID = ""
    · rw [if_pos hcommand] at hgone
      exact (hkeeps hgone rfl).elim
    rw [if_neg hcommand] at hgone
    rw [if_neg hcommand, if_neg (hguard hcommand)]
    refine .inr (List.mem_append.2 ?_)
    by_cases hfetch : (w.failFetch m.commandID).pendingAttachmentMlsSetups.lookup id = none
    · exact .inl (Option.mem_toList.2 (lookup_of_failFetch hid hfetch))
    · refine .inr (Option.mem_toList.2 (lookup_of_failAdd ?_ hgone))
      rwa [Option.isSome_iff_ne_none]
  all_goals exact (hkeeps hgone rfl).elim

/-- The setups that a step takes away, by the kind of the step. -/
theorem reported (platform : Platform) (s : SetupWorker) (x : MlsInput × MlsDraw) :
    Reported platform s x := by
  obtain ⟨w, commands⟩ := s
  obtain ⟨input, d⟩ := x
  intro id hid hgone
  unfold SetupWorker.step at hgone
  dsimp only at hid hgone ⊢
  -- a step that leaves the setups alone takes none away
  have hkeeps : ∀ {w' : MlsWorker}, w'.pendingAttachmentMlsSetups.lookup id = none →
      w'.pendingAttachmentMlsSetups = w.pendingAttachmentMlsSetups → False := by
    intro w' hnone hsame
    rw [← hsame, hnone] at hid
    cases hid
  have hconnected : ∀ (v : MlsWorker) (c : ClientID) (preserve : Bool),
      (v.connected d c preserve).1.pendingAttachmentMlsSetups = v.pendingAttachmentMlsSetups := by
    intro v c preserve
    unfold MlsWorker.connected
    cases preserve with
    | false => rfl
    | true =>
      dsimp only
      rw [if_pos rfl]
      split_ifs
      · rfl
      · rfl
  cases input with
  | connectToServer username userCode login =>
    cases login with
    | none => exact (hkeeps hgone rfl).elim
    | some c => exact (hkeeps hgone (hconnected _ c _)).elim
  | retrySavedConnection login =>
    cases login with
    | none => exact (hkeeps hgone rfl).elim
    | some c => exact (hkeeps hgone (hconnected _ c _)).elim
  | disconnect => exact (hkeeps hgone rfl).elim
  | fetchMlsKeyPackage room target commandID => exact (hkeeps hgone rfl).elim
  | addMlsMember room groupID target commandID =>
    exact (hkeeps hgone (addMlsMember_spec d room groupID target commandID).1.setups).elim
  | removeMlsMember room groupID target commandID =>
    exact (hkeeps hgone (removeMlsMember_spec d room groupID target commandID).1.setups).elim
  | startAttachmentUpload room targets commandID => exact startUpload_reported hid hgone
  | receive m =>
    unfold MlsWorker.step at hgone ⊢
    dsimp only at hgone ⊢
    by_cases hsession : w.session.isSome = true
    · rw [if_pos hsession] at hgone
      rw [if_pos hsession]
      exact message_reported m hsession hid hgone
    · rw [if_neg hsession] at hgone
      exact (hkeeps hgone rfl).elim

/-- In a run in which no step leaves a setup without its command, every setup waits for a command
that is pending, and it goes away only when its upload begins or an error is reported for it. -/
theorem setups_tended (platform : Platform) {xs : List (MlsInput × MlsDraw)}
    (h : Along (step platform) (fun s x => s.worker.orphans platform x = false) {} xs) :
    (run (step platform) {} xs).Tended ∧ Along (step platform) (Reported platform) {} xs := by
  have hstart : Kept {} fun _ => False := by
    constructor
    · rintro fetch id ⟨⟩
    · rintro add id ⟨⟩
    · rintro id ⟨⟩
    · rintro id ⟨⟩
  have hkept : Kept (run (step platform) {} xs) fun _ => False :=
    run_invariant_along (step platform) (I := fun s => Kept s fun _ => False)
      (fun _ x hx hs => hs.step x hx) hstart h
  exact ⟨fun id hid => hkept.outstanding id hid not_false,
    h.mono fun s x _ => reported platform s x⟩

/-- The library functions with the digest of the room and the command id of this upload. -/
def uploadPlatform : Platform :=
  { Hub.samplePlatform with
    sha256Hex := fun payload =>
      if payload = "lobby\x00up" then
        "2b2ab786085e37bf4901bdbf7a62cb96e275aacdd0d8ecb838b8d31377ecf771"
      else Hub.samplePlatform.sha256Hex payload }

/-- Alice logs in and uploads a file for Bob. -/
def aliceUploads : List (MlsInput × MlsDraw) :=
  [(.connectToServer "Alice" "000000001" (some 0), { keyPackage := some "b3du" }),
    (.startAttachmentUpload "lobby" ["000000002"] "up",
      { keyPackage := some "b3du", fileSize := some 10 })]

/-- The server's answers: Bob's key package, and the acknowledgements of his add. -/
def serverAnswers : List (MlsInput × MlsDraw) :=
  [(.receive { type := .mlsKeyPackageFetch, commandID := "up-mls-fetch-0", keyPackage := "a2V5"
               targetUserCode := "000000002" },
      { proposal := some "cHJvcG9zYWw=", commit := some ("Y29tbWl0", "d2VsY29tZQ==") }),
    (.receive { type := .mlsGroupProposal, commandID := "up-mls-add-0" }, {}),
    (.receive { type := .mlsGroupCommit, commandID := "up-mls-add-0" }, {}),
    (.receive { type := .mlsGroupWelcome, commandID := "up-mls-add-0" }, { fileSize := some 10 })]

/-- After the acknowledgement of the proposal the setup is pending, and tended; in the end it is
gone, and its upload has begun. -/
theorem setups_tended_alice :
    let s := run (step uploadPlatform) {} (aliceUploads ++ serverAnswers.take 2)
    (s.worker.pendingAttachmentMlsSetups.lookup "up").isSome ∧ s.Tended ∧
      ((run (step uploadPlatform) {}
        (aliceUploads ++ serverAnswers)).worker.pendingAttachmentMlsSetups.lookup "up").isNone ∧
      Along (step uploadPlatform) (Reported uploadPlatform) {} (aliceUploads ++ serverAnswers) :=
  ⟨by decide +kernel, (setups_tended uploadPlatform (by decide +kernel)).1, by decide +kernel,
    (setups_tended uploadPlatform (by decide +kernel)).2⟩

/-- The library throws while it adds Bob. -/
def libraryThrows : List (MlsInput × MlsDraw) :=
  [(.receive { type := .mlsKeyPackageFetch, commandID := "up-mls-fetch-0", keyPackage := "a2V5"
               targetUserCode := "000000002" }, {})]

/-- The setup stays, waits for nothing, and no error has been reported. -/
theorem thrown_add_leaves_setup :
    ¬ (run (step uploadPlatform) {} (aliceUploads ++ libraryThrows)).Tended ∧
      Along (step uploadPlatform) (fun s x => s.worker.attachmentErrors x uploadPlatform = [])
        {} (aliceUploads ++ libraryThrows) := by
  refine ⟨fun htended => ?_, by decide +kernel⟩
  obtain ⟨hsetup, hcommands, hkeys⟩ :
      ((run (step uploadPlatform) {}
        (aliceUploads ++ libraryThrows)).worker.pendingAttachmentMlsSetups.lookup "up").isSome ∧
      (run (step uploadPlatform) {} (aliceUploads ++ libraryThrows)).pendingMlsCommands = ∅ ∧
      (run (step uploadPlatform) {}
        (aliceUploads ++ libraryThrows)).worker.pendingMlsOperations.keys = [] := by decide +kernel
  rcases htended "up" hsetup with ⟨fetch, hmem, -⟩ | ⟨add, hop, -⟩
  · rw [hcommands] at hmem
    cases hmem
  · have hkey := AList.mem_keys.1 (AList.lookup_isSome.1 hop)
    rw [hkeys] at hkey
    cases hkey

end SetupWorker

end Gui

end LanChat
