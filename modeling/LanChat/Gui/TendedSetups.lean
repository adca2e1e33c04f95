import LanChat.Gui.AttachmentSetups
import LanChat.Gui.MlsSession

/-!
# Every setup of an attachment waits for something

* `fetchCommand_inj`, `addCommand_inj`: the command of an entry names its setup;
* `Kept`: the invariant, some setups aside;
* `Kept.shrink`, `Kept.fetch`, `Kept.add`: how entries go away and come;
* `Kept.startNext`, `Kept.continue`, `Kept.operation`, …: what each function of the worker keeps;
* `Kept.step`: so does every step that does not orphan a setup.
-/

namespace LanChat

namespace Gui

open GoStrings EventMachine

namespace MlsWorker

/-! ### The command ids of a setup -/

theorem fetchCommand_inj {a b : String} {m n : ℕ} (h : fetchCommand a m = fetchCommand b n) :
    a = b := (numbered_inj (by decide) h).1

theorem addCommand_inj {a b : String} {m n : ℕ} (h : addCommand a m = addCommand b n) : a = b :=
  (numbered_inj (by decide) h).1

/-- The command of an add is trimmed, as the command id of the attachment is. -/
theorem trimSpace_addCommand {a : String} (ha : trimSpace a = a) (hne : a ≠ "") (n : ℕ) :
    trimSpace (addCommand a n) = addCommand a n :=
  trimSpace_numbered ha hne "-mls-add-" n

end MlsWorker

namespace SetupWorker

variable {s s' : SetupWorker} {loose loose' : String → Prop}

/-- The commands of the entries name their setups, and every setup waits for something, those in
`loose` aside. -/
structure Kept (s : SetupWorker) (loose : String → Prop) : Prop where
  fetchKey : ∀ fetch id, s.worker.pendingAttachmentMlsFetches.lookup fetch = some id →
    ∃ n, fetch = MlsWorker.fetchCommand id n
  addKey : ∀ add id, s.worker.pendingAttachmentMlsAdds.lookup add = some id →
    ∃ n, add = MlsWorker.addCommand id n
  trimmed : ∀ id, (s.worker.pendingAttachmentMlsSetups.lookup id).isSome →
    trimSpace id = id ∧ id ≠ ""
  outstanding : ∀ id, (s.worker.pendingAttachmentMlsSetups.lookup id).isSome → ¬ loose id →
    s.Outstanding id

/-- No entry is new, and those of the other setups keep their commands. -/
theorem Kept.shrink (h : Kept s loose)
    (hsetups : ∀ id, (s'.worker.pendingAttachmentMlsSetups.lookup id).isSome →
      (s.worker.pendingAttachmentMlsSetups.lookup id).isSome)
    (hfetches : ∀ fetch id, s'.worker.pendingAttachmentMlsFetches.lookup fetch = some id →
      s.worker.pendingAttachmentMlsFetches.lookup fetch = some id)
    (hadds : ∀ add id, s'.worker.pendingAttachmentMlsAdds.lookup add = some id →
      s.worker.pendingAttachmentMlsAdds.lookup add = some id)
    (hloose : ∀ id, (s'.worker.pendingAttachmentMlsSetups.lookup id).isSome → loose id → loose' id)
    (hfetch : ∀ fetch id, (s'.worker.pendingAttachmentMlsSetups.lookup id).isSome → ¬ loose' id →
      s.worker.pendingAttachmentMlsFetches.lookup fetch = some id → fetch ∈ s.pendingMlsCommands →
        s'.worker.pendingAttachmentMlsFetches.lookup fetch = some id ∧
          fetch ∈ s'.pendingMlsCommands)
    (hadd : ∀ add id, (s'.worker.pendingAttachmentMlsSetups.lookup id).isSome → ¬ loose' id →
      s.worker.pendingAttachmentMlsAdds.lookup add = some id →
        (s.worker.pendingMlsOperations.lookup add).isSome →
          s'.worker.pendingAttachmentMlsAdds.lookup add = some id ∧
            (s'.worker.pendingMlsOperations.lookup add).isSome) : Kept s' loose' where
  fetchKey := fun fetch id hlookup => h.fetchKey fetch id (hfetches fetch id hlookup)
  addKey := fun add id hlookup => h.addKey add id (hadds add id hlookup)
  trimmed := fun id hid => h.trimmed id (hsetups id hid)
  outstanding := by
    intro id hid hnot
    rcases h.outstanding id (hsetups id hid) fun hl => hnot (hloose id hid hl) with
      ⟨fetch, hmem, hlookup⟩ | ⟨add, hop, hlookup⟩
    · obtain ⟨hlookup', hmem'⟩ := hfetch fetch id hid hnot hlookup hmem
      exact .inl ⟨fetch, hmem', hlookup'⟩
    · obtain ⟨hlookup', hop'⟩ := hadd add id hid hnot hlookup hop
      exact .inr ⟨add, hop', hlookup'⟩

/-- A setup that waits for nothing waits for a new fetch. -/
theorem Kept.fetch {a : String} {n : ℕ} (h : Kept s (· = a))
    (hsetups : s'.worker.pendingAttachmentMlsSetups = s.worker.pendingAttachmentMlsSetups)
    (hfetches : s'.worker.pendingAttachmentMlsFetches =
      s.worker.pendingAttachmentMlsFetches.insert (MlsWorker.fetchCommand a n) a)
    (hadds : s'.worker.pendingAttachmentMlsAdds = s.worker.pendingAttachmentMlsAdds)
    (hops : s'.worker.pendingMlsOperations = s.worker.pendingMlsOperations)
    (hcommands : s'.pendingMlsCommands =
      insert (MlsWorker.fetchCommand a n) s.pendingMlsCommands) : Kept s' (fun _ => False) where
  fetchKey := by
    intro fetch id hlookup
    rw [hfetches] at hlookup
    by_cases hf : fetch = MlsWorker.fetchCommand a n
    · subst hf
      rw [AList.lookup_insert] at hlookup
      cases hlookup
      exact ⟨n, rfl⟩
    · rw [AList.lookup_insert_ne hf] at hlookup
      exact h.fetchKey fetch id hlookup
  addKey := by
    rw [hadds]
    exact h.addKey
  trimmed := by
    rw [hsetups]
    exact h.trimmed
  outstanding := by
    intro id hid _
    rw [hsetups] at hid
    by_cases ha : id = a
    · subst ha
      refine .inl ⟨MlsWorker.fetchCommand id n, ?_, ?_⟩
      · rw [hcommands]
        exact Finset.mem_insert_self _ _
      · rw [hfetches, AList.lookup_insert]
    rcases h.outstanding id hid ha with ⟨fetch, hmem, hlookup⟩ | ⟨add, hop, hlookup⟩
    · -- another setup does not wait for the command that is new
      have hne : fetch ≠ MlsWorker.fetchCommand a n := by
        rintro rfl
        obtain ⟨m, hm⟩ := h.fetchKey _ id hlookup
        exact ha (MlsWorker.fetchCommand_inj hm).symm
      refine .inl ⟨fetch, ?_, ?_⟩
      · rw [hcommands]
        exact Finset.mem_insert_of_mem hmem
      · rwa [hfetches, AList.lookup_insert_ne hne]
    · exact .inr ⟨add, by rwa [hops], by rwa [hadds]⟩

/-- A setup that waits for nothing waits for an add whose operation is pending. -/
theorem Kept.add {a : String} {n : ℕ} (h : Kept s (· = a))
    (hsetups : s'.worker.pendingAttachmentMlsSetups = s.worker.pendingAttachmentMlsSetups)
    (hfetches : s'.worker.pendingAttachmentMlsFetches = s.worker.pendingAttachmentMlsFetches)
    (hadds : s'.worker.pendingAttachmentMlsAdds =
      s.worker.pendingAttachmentMlsAdds.insert (MlsWorker.addCommand a n) a)
    (hops : ∀ add, (s.worker.pendingMlsOperations.lookup add).isSome →
      (s'.worker.pendingMlsOperations.lookup add).isSome)
    (hop : (s'.worker.pendingMlsOperations.lookup (MlsWorker.addCommand a n)).isSome)
    (hcommands : s.pendingMlsCommands ⊆ s'.pendingMlsCommands) : Kept s' (fun _ => False) where
  fetchKey := by
    rw [hfetches]
    exact h.fetchKey
  addKey := by
    intro add id hlookup
    rw [hadds] at hlookup
    by_cases hf : add = MlsWorker.addCommand a n
    · subst hf
      rw [AList.lookup_insert] at hlookup
      cases hlookup
      exact ⟨n, rfl⟩
    · rw [AList.lookup_insert_ne hf] at hlookup
      exact h.addKey add id hlookup
  trimmed := by
    rw [hsetups]
    exact h.trimmed
  outstanding := by
    intro id hid _
    rw [hsetups] at hid
    by_cases ha : id = a
    · subst ha
      exact .inr ⟨MlsWorker.addCommand id n, hop, by rw [hadds, AList.lookup_insert]⟩
    rcases h.outstanding id hid ha with ⟨fetch, hmem, hlookup⟩ | ⟨add, hpending, hlookup⟩
    · exact .inl ⟨fetch, hcommands hmem, by rwa [hfetches]⟩
    · have hne : add ≠ MlsWorker.addCommand a n := by
        rintro rfl
        obtain ⟨m, hm⟩ := h.addKey _ id hlookup
        exact ha (MlsWorker.addCommand_inj hm).symm
      exact .inr ⟨add, hops add hpending, by rwa [hadds, AList.lookup_insert_ne hne]⟩

/-! ### The steps of a setup -/

variable {w : MlsWorker} {d : MlsDraw} {commands : Finset String}

theorem lookup_dropEntries (m : AList fun _ : String => String) (a : String) (keys : List String)
    (l : AList fun _ : String => String) (id : String) :
    (keys.foldl (fun l id => if m.lookup id = some a then l.erase id else l) l).lookup id =
      if id ∈ keys ∧ m.lookup id = some a then none else l.lookup id := by
  induction keys generalizing l with
  | nil => simp
  | cons x keys ih =>
    rw [List.foldl_cons, ih]
    by_cases hid : id = x
    · subst hid
      by_cases ha : m.lookup id = some a
      · simp [ha, AList.lookup_erase]
      · simp [ha]
    · by_cases ha : m.lookup x = some a
      · simp [ha, hid, AList.lookup_erase_ne hid]
      · simp [ha, hid]

/-- The entries that are left when a setup has failed. -/
theorem lookup_failed (m : AList fun _ : String => String) (a id : String) :
    (m.keys.foldl (fun l id => if m.lookup id = some a then l.erase id else l) m).lookup id =
      if m.lookup id = some a then none else m.lookup id := by
  rw [lookup_dropEntries]
  by_cases ha : m.lookup id = some a
  · have hkey : id ∈ m.keys := AList.lookup_isSome.1 (by rw [ha]; rfl)
    rw [if_pos ⟨hkey, ha⟩, if_pos ha]
  · rw [if_neg fun h => ha h.2, if_neg ha]

theorem isSome_of_lookup_erase {β : String → Type} {m : AList β} {a id : String}
    (h : ((m.erase a).lookup id).isSome) : id ≠ a ∧ (m.lookup id).isSome := by
  by_cases hid : id = a
  · subst hid
    rw [AList.lookup_erase] at h
    cases h
  · rw [AList.lookup_erase_ne hid] at h
    exact ⟨hid, h⟩

/-- A setup that fails takes its entries with it. -/
theorem Kept.fail {a : String} (h : Kept ⟨w, commands⟩ (· = a)) :
    Kept ⟨w.failAttachmentMlsSetup a, commands⟩ (fun _ => False) := by
  have hother : ∀ {id : String}, ((w.failAttachmentMlsSetup a).pendingAttachmentMlsSetups.lookup
      id).isSome → id ≠ a := fun hid => (isSome_of_lookup_erase hid).1
  have hlookup : ∀ (m : AList fun _ : String => String) {c id : String}, id ≠ a →
      m.lookup c = some id →
        (m.keys.foldl (fun l id => if m.lookup id = some a then l.erase id else l) m).lookup c =
          some id := by
    intro m c id hid hc
    rw [lookup_failed, hc, if_neg fun he => hid (Option.some_inj.1 he)]
  have hback : ∀ (m : AList fun _ : String => String) {c id : String},
      (m.keys.foldl (fun l id => if m.lookup id = some a then l.erase id else l) m).lookup c =
        some id → m.lookup c = some id := by
    intro m c id hc
    rw [lookup_failed] at hc
    split_ifs at hc
    exact hc
  refine h.shrink (fun id hid => (isSome_of_lookup_erase hid).2) (fun _ _ hc => hback _ hc)
    (fun _ _ hc => hback _ hc) (fun id hid ha => hother hid ha) ?_ ?_
  · intro fetch id hid _ hc hmem
    exact ⟨hlookup _ (hother hid) hc, hmem⟩
  · intro add id hid _ hc hop
    exact ⟨hlookup _ (hother hid) hc, hop⟩

/-- Where the key package of the next target is asked for, the setup waits for it. -/
theorem Kept.startNext {a : String} (h : Kept ⟨w, commands⟩ (· = a))
    (hsent : w.startNextStalls d a = false) :
    Kept ⟨(w.startNextAttachmentMlsSetup d a).1, w.startNextCommands d a commands⟩
      (fun _ => False) := by
  unfold MlsWorker.startNextAttachmentMlsSetup MlsWorker.startNextCommands
  unfold MlsWorker.startNextStalls at hsent
  cases hsetup : w.pendingAttachmentMlsSetups.lookup a with
  | none =>
    refine h.shrink (fun _ hid => hid) (fun _ _ hc => hc) (fun _ _ hc => hc) ?_
      (fun _ _ _ _ hc hmem => ⟨hc, hmem⟩) fun _ _ _ _ hc hop => ⟨hc, hop⟩
    rintro id hid rfl
    rw [hsetup] at hid
    cases hid
  | some setup =>
    dsimp only
    cases htarget : setup.targetUsers[setup.nextTarget]? with
    | none =>
      dsimp only
      split
      · exact h.fail
      · -- the upload begins
        refine h.shrink (fun id hid => (isSome_of_lookup_erase hid).2) (fun _ _ hc => hc)
          (fun _ _ hc => hc) (fun id hid ha => (isSome_of_lookup_erase hid).1 ha)
          (fun _ _ _ _ hc hmem => ⟨hc, hmem⟩) fun _ _ _ _ hc hop => ⟨hc, hop⟩
    | some target =>
      dsimp only
      rw [hsetup, Option.any_some, htarget, Option.any_some, Bool.not_eq_false'] at hsent
      refine h.fetch rfl rfl rfl rfl ?_
      simp only [MlsWorker.fetchSent, Bool.and_eq_true, bne_iff_ne, Bool.not_eq_true'] at hsent
      obtain ⟨⟨⟨hsession, hroom⟩, htarget⟩, hsend⟩ := hsent
      unfold MlsWorker.fetchCommands
      rw [if_neg (by simp [Option.isSome_iff_ne_none.1 hsession, hroom, htarget]),
        if_neg (by simp [hsend])]

/-! ### Operations -/

/-- The setups and what they wait for are the same. -/
structure SameSetups (w w' : MlsWorker) : Prop where
  setups : w'.pendingAttachmentMlsSetups = w.pendingAttachmentMlsSetups
  fetches : w'.pendingAttachmentMlsFetches = w.pendingAttachmentMlsFetches
  adds : w'.pendingAttachmentMlsAdds = w.pendingAttachmentMlsAdds

theorem SameSetups.refl (w : MlsWorker) : SameSetups w w := ⟨rfl, rfl, rfl⟩

theorem SameSetups.trans {w' w'' : MlsWorker} (h : SameSetups w w') (h' : SameSetups w' w'') :
    SameSetups w w'' :=
  ⟨h'.setups.trans h.setups, h'.fetches.trans h.fetches, h'.adds.trans h.adds⟩

/-- The entries stay, and so do the commands and operations that setups wait for. -/
theorem Kept.same {w' : MlsWorker} {commands' : Finset String} (h : Kept ⟨w, commands⟩ loose)
    (hsame : SameSetups w w')
    (hfetch : ∀ id ∈ commands, w.fetchHolds id = true → id ∈ commands')
    (hadd : ∀ id, (w.pendingMlsOperations.lookup id).isSome → w.holdsSetup id = true →
      (w'.pendingMlsOperations.lookup id).isSome) : Kept ⟨w', commands'⟩ loose := by
  refine h.shrink ?_ ?_ ?_ (fun _ _ hl => hl) ?_ ?_
  · intro id hid
    rwa [hsame.setups] at hid
  · intro fetch id hc
    rwa [hsame.fetches] at hc
  · intro add id hc
    rwa [hsame.adds] at hc
  · intro fetch id hid _ hc hmem
    rw [hsame.setups] at hid
    have hholds : w.fetchHolds fetch = true := by
      rw [MlsWorker.fetchHolds, hc]
      exact hid
    exact ⟨by rwa [hsame.fetches], hfetch fetch hmem hholds⟩
  · intro add id hid _ hc hop
    rw [hsame.setups] at hid
    have hholds : w.holdsSetup add = true := by
      rw [MlsWorker.holdsSetup, hc, Bool.or_eq_true]
      exact .inr hid
    exact ⟨by rwa [hsame.adds], hadd add hop hholds⟩

section Operations

variable (d) (room groupID target commandID : String) (add : Bool)

/-- An operation is pending once its proposal is on the connection. -/
theorem startOperation_spec :
    SameSetups w (w.startOperation d room groupID target commandID add).1 ∧
      (w.startOperation d room groupID target commandID add).1.pendingMlsOperations =
        ((w.startedOperation d room groupID target commandID add).filter fun op =>
          !d.sendFails (op.proposalMessage (trimSpace commandID))).elim w.pendingMlsOperations
            fun op => w.pendingMlsOperations.insert (trimSpace commandID) op := by
  unfold MlsWorker.startOperation MlsWorker.startedOperation
  cases hgroup : w.mlsGroups.lookup groupID with
  | none => exact ⟨.refl w, rfl⟩
  | some state =>
    cases hproposal : d.proposal with
    | none => exact ⟨.refl w, rfl⟩
    | some proposal =>
      cases hcommit : d.commit with
      | none => exact ⟨.refl w, rfl⟩
      | some commit =>
        have hops : (w.advanceSession groupID state).pendingMlsOperations =
            w.pendingMlsOperations := rfl
        dsimp only
        rw [hops]
        by_cases hsize : proposal = "" ∨ commit.1 = "" ∨ (add ∧ commit.2 = "")
        · rw [if_pos hsize, if_pos hsize]
          exact ⟨⟨rfl, rfl, rfl⟩, rfl⟩
        rw [if_neg hsize, if_neg hsize]
        by_cases hepoch : state.epoch.toNat = 2 ^ 64 - 1
        · rw [if_pos hepoch, if_pos hepoch]
          exact ⟨⟨rfl, rfl, rfl⟩, rfl⟩
        rw [if_neg hepoch, if_neg hepoch]
        by_cases hid : trimSpace commandID = "" ∨
            (w.pendingMlsOperations.lookup (trimSpace commandID)).isSome
        · rw [if_pos hid, if_pos hid]
          exact ⟨⟨rfl, rfl, rfl⟩, rfl⟩
        rw [if_neg hid, if_neg hid]
        by_cases hsend : d.sendFails ((MlsWorker.newOperation state room groupID target proposal
            commit add).proposalMessage (trimSpace commandID))
        · rw [if_pos hsend]
          simp only [Option.filter, hsend]
          exact ⟨⟨rfl, rfl, rfl⟩, rfl⟩
        · rw [if_neg hsend]
          simp only [Option.filter, hsend]
          exact ⟨⟨rfl, rfl, rfl⟩, rfl⟩

theorem operationCommands_eq :
    w.operationCommands d room groupID target commandID add commands =
      (w.startedOperation d room groupID target commandID add).elim commands fun op =>
        if d.sendFails (op.proposalMessage (trimSpace commandID)) then commands.erase commandID
        else insert commandID commands := by
  unfold MlsWorker.operationCommands MlsWorker.startedOperation
  cases hgroup : w.mlsGroups.lookup groupID with
  | none => rfl
  | some state =>
    cases hproposal : d.proposal with
    | none => rfl
    | some proposal =>
      cases hcommit : d.commit with
      | none => rfl
      | some commit =>
        dsimp only
        by_cases hsize : proposal = "" ∨ commit.1 = "" ∨ (add ∧ commit.2 = "")
        · rw [if_pos hsize, if_pos hsize]
          rfl
        rw [if_neg hsize, if_neg hsize]
        by_cases hepoch : state.epoch.toNat = 2 ^ 64 - 1
        · rw [if_pos hepoch, if_pos hepoch]
          rfl
        rw [if_neg hepoch, if_neg hepoch]
        by_cases hid : trimSpace commandID = "" ∨
            (w.pendingMlsOperations.lookup (trimSpace commandID)).isSome
        · rw [if_pos hid, if_pos hid]
          rfl
        · rw [if_neg hid, if_neg hid]
          rfl

theorem addMlsMember_spec :
    SameSetups w (w.addMlsMember d room groupID target commandID).1 ∧
      (w.addMlsMember d room groupID target commandID).1.pendingMlsOperations =
        ((w.startedAdd d room groupID target commandID).filter fun op =>
          !d.sendFails (op.proposalMessage (trimSpace commandID))).elim w.pendingMlsOperations
            fun op => w.pendingMlsOperations.insert (trimSpace commandID) op := by
  unfold MlsWorker.addMlsMember MlsWorker.startedAdd
  dsimp only
  cases hprepare : w.prepareAdd d (trimSpace room) (trimSpace groupID)
    (QString.toLower (trimSpace target)) with
  | none => exact ⟨.refl w, rfl⟩
  | some w' =>
    have hspec := startOperation_spec (w := w') d (trimSpace room) (trimSpace groupID)
      (QString.toLower (trimSpace target)) commandID true
    rcases MlsWorker.prepareAdd_eq_some hprepare with rfl | rfl
    · exact hspec
    · have hcreate : SameSetups w (w.createGroup (trimSpace room) (trimSpace groupID)) :=
        ⟨rfl, rfl, rfl⟩
      exact ⟨hcreate.trans hspec.1, hspec.2⟩

theorem addCommands_eq :
    w.addCommands d room groupID target commandID commands =
      (w.startedAdd d room groupID target commandID).elim commands fun op =>
        if d.sendFails (op.proposalMessage (trimSpace commandID)) then commands.erase commandID
        else insert commandID commands := by
  unfold MlsWorker.addCommands MlsWorker.startedAdd
  dsimp only
  cases hprepare : w.prepareAdd d (trimSpace room) (trimSpace groupID)
    (QString.toLower (trimSpace target)) with
  | none => rfl
  | some w' => exact operationCommands_eq d _ _ _ _ _

theorem removeMlsMember_spec :
    SameSetups w (w.removeMlsMember d room groupID target commandID).1 ∧
      (w.removeMlsMember d room groupID target commandID).1.pendingMlsOperations =
        ((w.startedRemove d room groupID target commandID).filter fun op =>
          !d.sendFails (op.proposalMessage (trimSpace commandID))).elim w.pendingMlsOperations
            fun op => w.pendingMlsOperations.insert (trimSpace commandID) op := by
  unfold MlsWorker.removeMlsMember MlsWorker.startedRemove
  dsimp only
  by_cases hprepare : w.prepareRemove (trimSpace room) (trimSpace groupID) (trimSpace target)
  · rw [if_pos hprepare, if_pos hprepare]
    exact startOperation_spec d _ _ _ _ _
  · rw [if_neg hprepare, if_neg hprepare]
    exact ⟨.refl w, rfl⟩

theorem removeCommands_eq :
    w.removeCommands d room groupID target commandID commands =
      (w.startedRemove d room groupID target commandID).elim commands fun op =>
        if d.sendFails (op.proposalMessage (trimSpace commandID)) then commands.erase commandID
        else insert commandID commands := by
  unfold MlsWorker.removeCommands MlsWorker.startedRemove
  dsimp only
  by_cases hprepare : w.prepareRemove (trimSpace room) (trimSpace groupID) (trimSpace target)
  · rw [if_pos hprepare, if_pos hprepare]
    exact operationCommands_eq d _ _ _ _ _
  · rw [if_neg hprepare, if_neg hprepare]
    rfl

variable {room groupID target commandID}

theorem isSome_of_started {started : Option PendingMlsOperation} {pendingID id : String}
    (h : (w.pendingMlsOperations.lookup id).isSome) :
    ((started.elim w.pendingMlsOperations fun op =>
      w.pendingMlsOperations.insert pendingID op).lookup id).isSome := by
  cases started with
  | none => exact h
  | some op =>
    by_cases hid : id = pendingID
    · subst hid
      rw [Option.elim_some, AList.lookup_insert]
      rfl
    · rwa [Option.elim_some, AList.lookup_insert_ne hid]

/-- A slot that starts an operation takes no command from a setup, unless it fails under the id of
a fetch. -/
theorem Kept.operation {w' : MlsWorker} {started : Option PendingMlsOperation}
    {commands' : Finset String} (h : Kept ⟨w, commands⟩ loose) (hsame : SameSetups w w')
    (hops : w'.pendingMlsOperations = (started.filter fun op =>
      !d.sendFails (op.proposalMessage (trimSpace commandID))).elim w.pendingMlsOperations
        fun op => w.pendingMlsOperations.insert (trimSpace commandID) op)
    (hcommands : commands' = started.elim commands fun op =>
      if d.sendFails (op.proposalMessage (trimSpace commandID)) then commands.erase commandID
      else insert commandID commands)
    (hnot : (w.fetchHolds commandID && started.any fun op =>
      d.sendFails (op.proposalMessage (trimSpace commandID))) = false) :
    Kept ⟨w', commands'⟩ loose := by
  refine h.same hsame ?_ ?_
  · intro id hmem hholds
    rw [hcommands]
    cases started with
    | none => exact hmem
    | some op =>
      rw [Option.elim_some]
      by_cases hsend : d.sendFails (op.proposalMessage (trimSpace commandID)) = true
      · rw [if_pos hsend]
        refine Finset.mem_erase.2 ⟨?_, hmem⟩
        rintro rfl
        rw [hholds, Option.any_some, hsend] at hnot
        cases hnot
      · rw [if_neg hsend]
        exact Finset.mem_insert_of_mem hmem
  · intro id hop _
    rw [hops]
    exact isSome_of_started hop

end Operations

/-! ### Messages -/

variable {platform : Platform}

theorem startedAdd_of_pending {room groupID target id : String}
    (h : (w.pendingMlsOperations.lookup (trimSpace id)).isSome) :
    w.startedAdd d room groupID target id = none := by
  unfold MlsWorker.startedAdd
  dsimp only
  rw [Option.bind_eq_none_iff]
  intro w' hprepare
  have hops : w'.pendingMlsOperations = w.pendingMlsOperations := by
    rcases MlsWorker.prepareAdd_eq_some hprepare with rfl | rfl
    · rfl
    · rfl
  unfold MlsWorker.startedOperation
  rw [hops]
  split
  · split_ifs with hsize hepoch hid
    · rfl
    · rfl
    · rfl
    · exact absurd (.inr h) hid
  · rfl

/-- A command that no setup waits for is taken from the pending ones. -/
theorem Kept.drop {w' : MlsWorker} {id : String} (h : Kept ⟨w, commands⟩ loose)
    (hsame : SameSetups w w') (hholds : w.holdsSetup id = false)
    (hops : ∀ x, x ≠ id → (w.pendingMlsOperations.lookup x).isSome →
      (w'.pendingMlsOperations.lookup x).isSome) :
    Kept ⟨w', commands.erase id⟩ loose := by
  refine h.same hsame ?_ ?_
  · intro x hx hfetch
    refine Finset.mem_erase.2 ⟨?_, hx⟩
    rintro rfl
    rw [MlsWorker.holdsSetup, hfetch, Bool.true_or] at hholds
    cases hholds
  · intro x hx hadd
    refine hops x ?_ hx
    rintro rfl
    rw [hadd] at hholds
    cases hholds

theorem isSome_lookup_erase {β : String → Type} {m : AList β} {id x : String} (hx : x ≠ id)
    (h : (m.lookup x).isSome) : ((m.erase id).lookup x).isSome := by
  rwa [AList.lookup_erase_ne hx]

/-- An arriving key package leads to the add of its owner. -/
theorem Kept.receiveKeyPackage (h : Kept ⟨w, commands⟩ fun _ => False) (m : Message)
    (hnot : w.keyPackageStalls d m = false) :
    Kept ⟨(w.receiveKeyPackage d m).1, w.keyPackageCommands d m commands⟩ fun _ => False := by
  unfold MlsWorker.receiveKeyPackage MlsWorker.keyPackageCommands
  unfold MlsWorker.keyPackageStalls at hnot
  have hstore : (w.storeKeyPackage m).pendingAttachmentMlsFetches =
      w.pendingAttachmentMlsFetches := rfl
  have hstore' : (w.storeKeyPackage m).pendingAttachmentMlsSetups =
      w.pendingAttachmentMlsSetups := rfl
  dsimp only
  rw [hstore, hstore']
  cases hfetch : w.pendingAttachmentMlsFetches.lookup m.commandID with
  | none =>
    refine h.same ⟨rfl, rfl, rfl⟩ ?_ fun _ hop _ => hop
    intro id hid hholds
    refine Finset.mem_erase.2 ⟨?_, hid⟩
    rintro rfl
    rw [MlsWorker.fetchHolds, hfetch] at hholds
    cases hholds
  | some a =>
    dsimp only
    -- without the fetch, setup `a` is the only one that may wait for nothing
    have hloose : Kept ⟨{ w.storeKeyPackage m with
        pendingAttachmentMlsFetches := w.pendingAttachmentMlsFetches.erase m.commandID },
        commands.erase m.commandID⟩ (· = a) := by
      refine h.shrink (fun _ hid => hid) ?_ (fun _ _ hc => hc) (fun _ _ hl => hl.elim) ?_
        fun _ _ _ _ hc hop => ⟨hc, hop⟩
      · intro fetch id hc
        have hne := (isSome_of_lookup_erase (by rw [hc]; rfl)).1
        rwa [AList.lookup_erase_ne hne] at hc
      · intro fetch id hid hne hc hmem
        have hcommand : fetch ≠ m.commandID := by
          rintro rfl
          exact hne (Option.some_inj.1 (hc.symm.trans hfetch))
        exact ⟨by rwa [AList.lookup_erase_ne hcommand], Finset.mem_erase.2 ⟨hcommand, hmem⟩⟩
    cases hsetup : w.pendingAttachmentMlsSetups.lookup a with
    | none =>
      refine hloose.shrink (fun _ hid => hid) (fun _ _ hc => hc) (fun _ _ hc => hc) ?_
        (fun _ _ _ _ hc hmem => ⟨hc, hmem⟩) fun _ _ _ _ hc hop => ⟨hc, hop⟩
      rintro id hid rfl
      have hsome : (w.pendingAttachmentMlsSetups.lookup id).isSome := hid
      rw [hsetup] at hsome
      cases hsome
    | some setup =>
      dsimp only
      rw [hfetch, Option.any_some, hsetup, Option.any_some] at hnot
      dsimp only at hnot
      obtain ⟨htrim, hne⟩ := h.trimmed a (by rw [hsetup]; rfl)
      have hcommand := MlsWorker.trimSpace_addCommand htrim hne setup.nextTarget
      generalize hw : (w.storeKeyPackage m).awaitAdd m.commandID
        (MlsWorker.addCommand a setup.nextTarget) a = w₁ at hnot ⊢
      have hops : w₁.pendingMlsOperations = w.pendingMlsOperations := by
        rw [← hw]
        rfl
      obtain ⟨hsame, hstarted⟩ := addMlsMember_spec (w := w₁) d setup.room setup.groupID
        m.targetUserCode (MlsWorker.addCommand a setup.nextTarget)
      have hcommands : w₁.addCommands d setup.room setup.groupID m.targetUserCode
          (MlsWorker.addCommand a setup.nextTarget) (commands.erase m.commandID) = _ :=
        addCommands_eq d setup.room setup.groupID m.targetUserCode _
      rw [hcommand] at hstarted hcommands
      -- the add is pending already, or its proposal is sent
      have hpending : (w.pendingMlsOperations.lookup (MlsWorker.addCommand a
          setup.nextTarget)).isSome ∧ w₁.startedAdd d setup.room setup.groupID m.targetUserCode
            (MlsWorker.addCommand a setup.nextTarget) = none ∨
          ∃ op, w₁.startedAdd d setup.room setup.groupID m.targetUserCode
            (MlsWorker.addCommand a setup.nextTarget) = some op ∧
              d.sendFails (op.proposalMessage (MlsWorker.addCommand a setup.nextTarget)) =
                false := by
        by_cases hop : (w.pendingMlsOperations.lookup (MlsWorker.addCommand a
          setup.nextTarget)).isSome
        · refine .inl ⟨hop, startedAdd_of_pending ?_⟩
          rwa [hcommand, hops]
        · rw [Bool.not_eq_true, Option.isSome_eq_false_iff] at hop
          rw [hop, Bool.true_and, Option.all_eq_false] at hnot
          exact .inr hnot
      refine hloose.add (n := setup.nextTarget) ?_ ?_ ?_ ?_ ?_ ?_
      · rw [hsame.setups, ← hw]
        rfl
      · rw [hsame.fetches, ← hw]
        rfl
      · rw [hsame.adds, ← hw]
        rfl
      · intro add hop
        rw [hstarted]
        refine isSome_of_started ?_
        rw [hops]
        exact hop
      · rw [hstarted]
        rcases hpending with ⟨hop, -⟩ | ⟨op, hop, hsend⟩
        · refine isSome_of_started ?_
          rwa [hops]
        · rw [hop, Option.filter_some, if_pos (by rw [hsend]; rfl), Option.elim_some,
            AList.lookup_insert]
          rfl
      · dsimp only
        rw [hcommands]
        rcases hpending with ⟨-, hop⟩ | ⟨op, hop, hsend⟩
        · rw [hop]
          exact Finset.Subset.refl _
        · rw [hop, Option.elim_some, if_neg (by rw [hsend]; decide)]
          exact Finset.subset_insert _ _

/-- Another target of the setup: only the session and the setups matter. -/
theorem startNext_congr {w' : MlsWorker} (a : String)
    (hsetups : w'.pendingAttachmentMlsSetups = w.pendingAttachmentMlsSetups)
    (hsession : w'.session = w.session) :
    w'.startNextStalls d a = w.startNextStalls d a ∧
      w'.startNextCommands d a commands = w.startNextCommands d a commands := by
  unfold MlsWorker.startNextStalls MlsWorker.startNextCommands MlsWorker.fetchSent
    MlsWorker.fetchCommands
  rw [hsetups, hsession]
  exact ⟨rfl, rfl⟩

/-- The operation of an add is done: its setup goes on to the next target. -/
theorem Kept.continue {w' : MlsWorker} {id : String} (h : Kept ⟨w, commands⟩ fun _ => False)
    (hsame : SameSetups w w') (hsession : w'.session = w.session)
    (hops : w'.pendingMlsOperations = w.pendingMlsOperations.erase id)
    (hholds : w.fetchHolds id = false) (hstalls : w.continueStalls d id = false) :
    Kept ⟨(w'.continueAttachmentMlsSetup d id).1, w.continueCommands d id (commands.erase id)⟩
      fun _ => False := by
  have hkeep : ∀ x, x ≠ id → (w.pendingMlsOperations.lookup x).isSome →
      (w'.pendingMlsOperations.lookup x).isSome := by
    intro x hx hop
    rw [hops]
    exact isSome_lookup_erase hx hop
  unfold MlsWorker.continueAttachmentMlsSetup MlsWorker.continueCommands
  unfold MlsWorker.continueStalls at hstalls
  rw [hsame.adds, hsame.setups]
  cases hadd : w.pendingAttachmentMlsAdds.lookup id with
  | none =>
    refine h.drop hsame ?_ hkeep
    rw [MlsWorker.holdsSetup, hholds, hadd]
    rfl
  | some a =>
    dsimp only
    have hfetch : ∀ fetch x, (w.pendingAttachmentMlsSetups.lookup x).isSome →
        w.pendingAttachmentMlsFetches.lookup fetch = some x → fetch ≠ id := by
      rintro fetch x hx hc rfl
      rw [MlsWorker.fetchHolds, hc, Option.any_some, hx] at hholds
      cases hholds
    have hother : ∀ add x, x ≠ a → w.pendingAttachmentMlsAdds.lookup add = some x → add ≠ id := by
      rintro add x hx hc rfl
      exact hx (Option.some_inj.1 (hc.symm.trans hadd))
    have hback : ∀ add x, (w.pendingAttachmentMlsAdds.erase id).lookup add = some x →
        w.pendingAttachmentMlsAdds.lookup add = some x := by
      intro add x hc
      have hne := (isSome_of_lookup_erase (by rw [hc]; rfl)).1
      rwa [AList.lookup_erase_ne hne] at hc
    cases hsetup : w.pendingAttachmentMlsSetups.lookup a with
    | none =>
      refine h.shrink ?_ ?_ hback (fun _ _ hl => hl) ?_ ?_
      · intro x hx
        exact hsame.setups ▸ hx
      · intro fetch x hc
        exact hsame.fetches ▸ hc
      · intro fetch x hx _ hc hmem
        have hx' : (w.pendingAttachmentMlsSetups.lookup x).isSome := hsame.setups ▸ hx
        exact ⟨hsame.fetches.symm ▸ hc, Finset.mem_erase.2 ⟨hfetch fetch x hx' hc, hmem⟩⟩
      · intro add x hx _ hc hop
        have hx' : (w.pendingAttachmentMlsSetups.lookup x).isSome := hsame.setups ▸ hx
        have hxa : x ≠ a := by
          rintro rfl
          rw [hsetup] at hx'
          cases hx'
        have hne := hother add x hxa hc
        exact ⟨(AList.lookup_erase_ne hne).trans hc, hkeep add hne hop⟩
    | some setup =>
      dsimp only
      rw [hadd, Option.any_some, hsetup, Option.any_some] at hstalls
      generalize hw : ({ w' with
        pendingAttachmentMlsAdds := w.pendingAttachmentMlsAdds.erase id
        pendingAttachmentMlsSetups := w.pendingAttachmentMlsSetups.insert a
          { setup with nextTarget := setup.nextTarget + 1 } } : MlsWorker) = w₁
      have hsetups : w₁.pendingAttachmentMlsSetups = w.pendingAttachmentMlsSetups.insert a
          { setup with nextTarget := setup.nextTarget + 1 } := by
        rw [← hw]
      have hadds : w₁.pendingAttachmentMlsAdds = w.pendingAttachmentMlsAdds.erase id := by
        rw [← hw]
      have hfetches : w₁.pendingAttachmentMlsFetches = w.pendingAttachmentMlsFetches := by
        rw [← hw]
        exact hsame.fetches
      have hops₁ : w₁.pendingMlsOperations = w'.pendingMlsOperations := by
        rw [← hw]
      have hold : ∀ x, (w₁.pendingAttachmentMlsSetups.lookup x).isSome →
          (w.pendingAttachmentMlsSetups.lookup x).isSome := by
        intro x hx
        by_cases hxa : x = a
        · rw [hxa, hsetup]
          rfl
        · rwa [hsetups, AList.lookup_insert_ne hxa] at hx
      -- setup `a` is the only one that may wait for nothing
      have hloose : Kept ⟨w₁, commands.erase id⟩ (· = a) := by
        refine h.shrink hold ?_ ?_ (fun _ _ hl => hl.elim) ?_ ?_
        · intro fetch x hc
          exact hfetches ▸ hc
        · intro add x hc
          exact hback add x (hadds ▸ hc)
        · intro fetch x hx _ hc hmem
          exact ⟨hfetches.symm ▸ hc, Finset.mem_erase.2 ⟨hfetch fetch x (hold x hx) hc, hmem⟩⟩
        · intro add x hx hxa hc hop
          have hne := hother add x hxa hc
          refine ⟨?_, ?_⟩
          · dsimp only
            rw [hadds, AList.lookup_erase_ne hne]
            exact hc
          · dsimp only
            rw [hops₁]
            exact hkeep add hne hop
      have hnext : w₁.startNextStalls d a = (w.nextSetup id a setup).startNextStalls d a ∧
          w₁.startNextCommands d a (commands.erase id) =
            (w.nextSetup id a setup).startNextCommands d a (commands.erase id) :=
        startNext_congr a hsetups (by rw [← hw]; exact hsession)
      rw [← hnext.2]
      exact hloose.startNext (hnext.1.trans hstalls)

/-- An acknowledged proposal is followed by its commit. -/
theorem Kept.receiveProposalAck {id : String} (h : Kept ⟨w, commands⟩ loose)
    (hnot : (w.holdsSetup id && (w.pendingMlsOperations.lookup id).any fun op =>
      op.phase == .proposal && d.sendFails (op.commitMessage id)) = false) :
    Kept ⟨(w.receiveProposalAck d id).1, match w.pendingMlsOperations.lookup id with
      | none => commands
      | some op =>
        if op.phase = .proposal ∧ d.sendFails (op.commitMessage id) then commands.erase id
        else commands⟩ loose := by
  unfold MlsWorker.receiveProposalAck
  cases hop : w.pendingMlsOperations.lookup id with
  | none => exact h
  | some op =>
    dsimp only
    by_cases hphase : op.phase = .proposal
    · rw [if_neg (by simp [hphase])]
      by_cases hsend : d.sendFails (op.commitMessage id) = true
      · rw [if_pos hsend, if_pos ⟨hphase, hsend⟩]
        refine h.drop ⟨rfl, rfl, rfl⟩ ?_ fun x hx hxop => isSome_lookup_erase hx hxop
        rw [hop, Option.any_some, hphase, hsend] at hnot
        simpa using hnot
      · rw [if_neg hsend, if_neg fun hc => hsend hc.2]
        refine h.same ⟨rfl, rfl, rfl⟩ (fun _ hid _ => hid) fun x hxop _ => ?_
        by_cases hx : x = id
        · subst hx
          rw [AList.lookup_insert]
          rfl
        · rwa [AList.lookup_insert_ne hx]
    · rw [if_pos hphase, if_neg fun hc => hphase hc.1]
      exact h

theorem recordWelcome_same (op : PendingMlsOperation) : SameSetups w (w.recordWelcome op) ∧
    (w.recordWelcome op).session = w.session := by
  unfold MlsWorker.recordWelcome
  split
  · exact ⟨.refl w, rfl⟩
  · exact ⟨⟨rfl, rfl, rfl⟩, rfl⟩

/-- An acknowledged welcome ends an add. -/
theorem Kept.receiveWelcomeAck {id : String} (h : Kept ⟨w, commands⟩ fun _ => False)
    (hnot : (w.awaitsWelcome id && (w.fetchHolds id || w.continueStalls d id)) = false) :
    Kept ⟨(w.receiveWelcomeAck d id).1, match w.pendingMlsOperations.lookup id with
      | none => commands
      | some op =>
        if op.phase ≠ .welcome then commands else w.continueCommands d id (commands.erase id)⟩
      fun _ => False := by
  unfold MlsWorker.receiveWelcomeAck
  unfold MlsWorker.awaitsWelcome at hnot
  cases hop : w.pendingMlsOperations.lookup id with
  | none => exact h
  | some op =>
    dsimp only
    by_cases hphase : op.phase = .welcome
    · rw [if_neg (by simp [hphase]), if_neg (by simp [hphase])]
      rw [hop, Option.any_some, hphase] at hnot
      obtain ⟨hholds, hstalls⟩ := Bool.or_eq_false_iff.1 hnot
      obtain ⟨hsame, hsession⟩ := recordWelcome_same (w := w) op
      exact h.continue ⟨hsame.setups, hsame.fetches, hsame.adds⟩ hsession rfl hholds hstalls
    · rw [if_pos hphase, if_pos hphase]
      exact h

/-- The acknowledgement of a commit takes a command from the pending ones. -/
theorem Kept.eraseCommand {id : String} (h : Kept ⟨w, commands⟩ loose)
    (hholds : w.fetchHolds id = false) : Kept ⟨w, commands.erase id⟩ loose := by
  refine h.same (.refl w) ?_ fun _ hop _ => hop
  intro x hx hfetch
  refine Finset.mem_erase.2 ⟨?_, hx⟩
  rintro rfl
  rw [hholds] at hfetch
  cases hfetch

/-- An acknowledged commit is followed by the welcome, or ends the operation. -/
theorem Kept.receiveCommitAck {id : String} (h : Kept ⟨w, commands⟩ fun _ => False)
    (hnot : (match w.pendingMlsOperations.lookup id with
      | none => w.fetchHolds id
      | some op =>
        if op.phase ≠ .commit then w.fetchHolds id
        else if (w.mlsGroups.lookup op.group).isNone then w.holdsSetup id
        else if op.add then d.sendFails (op.welcomeMessage platform id) && w.holdsSetup id
        else w.fetchHolds id || w.continueStalls d id) = false) :
    Kept ⟨(w.receiveCommitAck platform d id).1, match w.pendingMlsOperations.lookup id with
      | none => commands.erase id
      | some op =>
        if op.phase ≠ .commit ∨ (w.mlsGroups.lookup op.group).isNone then commands.erase id
        else if op.add then
          if d.sendFails (op.welcomeMessage platform id) then commands.erase id else commands
        else w.continueCommands d id (commands.erase id)⟩ fun _ => False := by
  unfold MlsWorker.receiveCommitAck
  cases hop : w.pendingMlsOperations.lookup id with
  | none =>
    rw [hop] at hnot
    exact h.eraseCommand hnot
  | some op =>
    rw [hop] at hnot
    dsimp only at hnot ⊢
    by_cases hphase : op.phase = .commit
    · rw [if_neg (by simp [hphase])] at hnot
      rw [if_neg (by simp [hphase])]
      cases hgroup : w.mlsGroups.lookup op.group with
      | none =>
        rw [hgroup, if_pos (by rfl)] at hnot
        rw [if_pos (.inr rfl)]
        exact h.drop ⟨rfl, rfl, rfl⟩ hnot fun x hx hxop => isSome_lookup_erase hx hxop
      | some state =>
        rw [hgroup, if_neg (by simp)] at hnot
        rw [if_neg (by simp [hphase])]
        dsimp only
        by_cases hadd : op.add = true
        · rw [if_pos hadd] at hnot
          rw [if_pos hadd, if_pos hadd]
          by_cases hsend : d.sendFails (op.welcomeMessage platform id) = true
          · rw [hsend, Bool.true_and] at hnot
            rw [if_pos hsend, if_pos hsend]
            exact h.drop ⟨rfl, rfl, rfl⟩ hnot fun x hx hxop => isSome_lookup_erase hx hxop
          · rw [if_neg hsend, if_neg hsend]
            refine h.same ⟨rfl, rfl, rfl⟩ (fun _ hid _ => hid) fun x hxop _ => ?_
            by_cases hx : x = id
            · subst hx
              rw [AList.lookup_insert]
              rfl
            · rwa [AList.lookup_insert_ne hx]
        · rw [if_neg hadd] at hnot
          rw [if_neg hadd, if_neg hadd]
          obtain ⟨hholds, hstalls⟩ := Bool.or_eq_false_iff.1 hnot
          exact h.continue ⟨rfl, rfl, rfl⟩ rfl rfl hholds hstalls
    · rw [if_pos hphase] at hnot
      rw [if_pos hphase, if_pos (.inl hphase)]
      exact h.eraseCommand hnot

/-- The errors of the server end the setups that wait for the command. -/
theorem Kept.failFetch (id : String) (h : Kept ⟨w, commands⟩ fun _ => False) :
    Kept ⟨w.failFetch id, commands⟩ (fun _ => False) ∧
      (w.failFetch id).pendingAttachmentMlsFetches.lookup id = none := by
  unfold MlsWorker.failFetch
  cases hfetch : w.pendingAttachmentMlsFetches.lookup id with
  | none => exact ⟨h, hfetch⟩
  | some a =>
    refine ⟨Kept.fail ?_, ?_⟩
    · refine h.shrink (fun _ hid => hid) ?_ (fun _ _ hc => hc) (fun _ _ hl => hl.elim) ?_
        fun _ _ _ _ hc hop => ⟨hc, hop⟩
      · intro fetch x hc
        have hne := (isSome_of_lookup_erase (by rw [hc]; rfl)).1
        rwa [AList.lookup_erase_ne hne] at hc
      · intro fetch x hx hxa hc hmem
        have hne : fetch ≠ id := by
          rintro rfl
          exact hxa (Option.some_inj.1 (hc.symm.trans hfetch))
        exact ⟨by rwa [AList.lookup_erase_ne hne], hmem⟩
    · refine (lookup_failed _ a id).trans ?_
      rw [AList.lookup_erase]
      rfl

theorem Kept.failAdd {id : String} (h : Kept ⟨w, commands⟩ fun _ => False)
    (hfetch : w.pendingAttachmentMlsFetches.lookup id = none) :
    Kept ⟨w.failAdd id, commands⟩ (fun _ => False) ∧ (w.failAdd id).holdsSetup id = false := by
  unfold MlsWorker.failAdd
  cases hadd : w.pendingAttachmentMlsAdds.lookup id with
  | none =>
    refine ⟨h, ?_⟩
    dsimp only
    rw [MlsWorker.holdsSetup, MlsWorker.fetchHolds, hfetch, hadd]
    rfl
  | some a =>
    refine ⟨Kept.fail ?_, ?_⟩
    · refine h.shrink (fun _ hid => hid) (fun _ _ hc => hc) ?_ (fun _ _ hl => hl.elim)
        (fun _ _ _ _ hc hmem => ⟨hc, hmem⟩) ?_
      · intro add x hc
        have hne := (isSome_of_lookup_erase (by rw [hc]; rfl)).1
        rwa [AList.lookup_erase_ne hne] at hc
      · intro add x hx hxa hc hop
        have hne : add ≠ id := by
          rintro rfl
          exact hxa (Option.some_inj.1 (hc.symm.trans hadd))
        exact ⟨by rwa [AList.lookup_erase_ne hne], hop⟩
    · have hfetch' : ({ w with
          pendingAttachmentMlsAdds := w.pendingAttachmentMlsAdds.erase id
          }.failAttachmentMlsSetup a).pendingAttachmentMlsFetches.lookup id = none := by
        refine (lookup_failed _ a id).trans ?_
        rw [hfetch]
        rfl
      have hadd' : ({ w with
          pendingAttachmentMlsAdds := w.pendingAttachmentMlsAdds.erase id
          }.failAttachmentMlsSetup a).pendingAttachmentMlsAdds.lookup id = none := by
        refine (lookup_failed _ a id).trans ?_
        rw [AList.lookup_erase]
        rfl
      dsimp only
      rw [MlsWorker.holdsSetup, MlsWorker.fetchHolds, hfetch', hadd']
      rfl

theorem Kept.receiveError {id : String} (h : Kept ⟨w, commands⟩ fun _ => False) :
    Kept ⟨w.receiveError id, commands.erase id⟩ fun _ => False := by
  obtain ⟨hfailed, hfetch⟩ := h.failFetch id
  obtain ⟨hkept, hholds⟩ := hfailed.failAdd hfetch
  exact hkept.drop ⟨rfl, rfl, rfl⟩ hholds fun x hx hop => isSome_lookup_erase hx hop

/-- The commit of another member moves a group only. -/
theorem receiveCommit_same (m : Message) : SameSetups w (w.receiveCommit d m) ∧
    (w.receiveCommit d m).pendingMlsOperations = w.pendingMlsOperations := by
  unfold MlsWorker.receiveCommit
  split
  · exact ⟨.refl w, rfl⟩
  split_ifs
  · exact ⟨.refl w, rfl⟩
  · exact ⟨⟨rfl, rfl, rfl⟩, rfl⟩

theorem receiveWelcome_same (m : Message) : SameSetups w (w.receiveWelcome platform d m).1 ∧
    (w.receiveWelcome platform d m).1.pendingMlsOperations = w.pendingMlsOperations := by
  unfold MlsWorker.receiveWelcome
  split
  · exact ⟨.refl w, rfl⟩
  split
  · split_ifs
    all_goals exact ⟨.refl w, rfl⟩
  split
  · split
    · exact ⟨.refl w, rfl⟩
    dsimp only
    split
    · exact ⟨⟨rfl, rfl, rfl⟩, rfl⟩
    split
    · exact ⟨⟨rfl, rfl, rfl⟩, rfl⟩
    · exact ⟨⟨rfl, rfl, rfl⟩, rfl⟩
  · exact ⟨.refl w, rfl⟩

/-- The setups are left alone. -/
theorem Kept.of_same {w' : MlsWorker} (h : Kept ⟨w, commands⟩ loose)
    (hsame : SameSetups w w' ∧ w'.pendingMlsOperations = w.pendingMlsOperations) :
    Kept ⟨w', commands⟩ loose :=
  h.same hsame.1 (fun _ hid _ => hid) fun _ hop _ => hsame.2.symm ▸ hop

/-- A message of the server. -/
theorem Kept.message (h : Kept ⟨w, commands⟩ fun _ => False) (m : Message)
    (hnot : w.messageOrphans platform d m = false) :
    Kept ⟨(w.processMlsMessage platform d m).1, w.messageCommands platform d m commands⟩
      fun _ => False := by
  unfold MlsWorker.processMlsMessage MlsWorker.messageCommands
  unfold MlsWorker.messageOrphans at hnot
  generalize m.type = messageType at hnot ⊢
  cases messageType
  case mlsKeyPackageFetch =>
    dsimp only at hnot ⊢
    by_cases hkey : m.keyPackage = ""
    · rw [if_pos hkey, if_pos hkey]
      exact h
    · rw [if_neg hkey, if_neg hkey]
      refine h.receiveKeyPackage m ?_
      simpa [hkey] using hnot
  case mlsGroupProposal =>
    dsimp only at hnot ⊢
    by_cases hack : m.proposal ≠ "" ∨ m.commandID = ""
    · rw [if_pos hack, if_pos hack]
      exact h
    · rw [if_neg hack, if_neg hack]
      refine h.receiveProposalAck ?_
      simp only [not_or, not_not] at hack
      simpa [hack.1, hack.2] using hnot
  case mlsGroupWelcome =>
    dsimp only at hnot ⊢
    by_cases hwelcome : m.welcome = ""
    · by_cases hcommand : m.commandID = ""
      · rw [if_neg (by simp [hwelcome]), if_pos hcommand, if_pos (.inr hcommand)]
        exact h
      · rw [if_neg (by simp [hwelcome]), if_neg hcommand, if_neg (by simp [hwelcome, hcommand])]
        refine h.receiveWelcomeAck ?_
        simpa [hwelcome, hcommand] using hnot
    · rw [if_pos hwelcome, if_pos (.inl hwelcome)]
      exact h.of_same (receiveWelcome_same m)
  case mlsGroupCommit =>
    dsimp only at hnot ⊢
    by_cases hcommit : m.commit = ""
    · by_cases hcommand : m.commandID = ""
      · rw [if_neg (by simp [hcommit]), if_pos hcommand, if_pos (.inr hcommand)]
        exact h
      · rw [if_neg (by simp [hcommit]), if_neg hcommand, if_neg (by simp [hcommit, hcommand])]
        have hack : (m.commit == "" && m.commandID != "") = true := by simp [hcommit, hcommand]
        rw [hack, Bool.true_and] at hnot
        exact h.receiveCommitAck hnot
    · rw [if_pos hcommit, if_pos (.inl hcommit)]
      exact h.of_same (receiveCommit_same m)
  case error =>
    dsimp only
    by_cases hcommand : m.commandID = ""
    · rw [if_pos hcommand, if_pos hcommand]
      exact h
    · rw [if_neg hcommand, if_neg hcommand]
      exact h.receiveError
  all_goals exact h

/-! ### Logins and runs -/

/-- A login keeps what the setups wait for, unless it drops it. -/
theorem Kept.connected (h : Kept ⟨w, commands⟩ fun _ => False) (c : ClientID)
    (preserveMlsState : Bool) (hnot : w.loginOrphans preserveMlsState = false) :
    Kept ⟨(w.connected d c preserveMlsState).1, w.connectedCommands preserveMlsState commands⟩
      fun _ => False := by
  unfold MlsWorker.connected MlsWorker.connectedCommands
  unfold MlsWorker.loginOrphans at hnot
  cases preserveMlsState with
  | true =>
    rw [if_pos rfl] at hnot
    have hdropped : ∀ id, w.holdsSetup id = true → w.awaitsWelcome id = false := by
      intro id hholds
      by_contra hawaits
      rw [Bool.not_eq_false] at hawaits
      rw [List.any_eq_false] at hnot
      refine hnot id ?_ (by rw [hawaits, hholds]; rfl)
      rw [List.mem_append]
      rw [MlsWorker.holdsSetup, Bool.or_eq_true] at hholds
      rcases hholds with hf | ha
      · obtain ⟨a, ha, -⟩ := (Option.any_eq_true _ _).1 hf
        exact .inl (AList.lookup_isSome.1 (by rw [ha]; rfl))
      · obtain ⟨a, ha, -⟩ := (Option.any_eq_true _ _).1 ha
        exact .inr (AList.lookup_isSome.1 (by rw [ha]; rfl))
    have hresume : ∀ v : MlsWorker, SameSetups w v →
        v.pendingMlsOperations = w.pendingMlsOperations →
          Kept ⟨(v.resumePendingMlsOperations d).1, commands.filter fun id =>
            w.awaitsWelcome id = false⟩ fun _ => False := by
      intro v hsame hops
      have hawaits : ∀ id, v.awaitsWelcome id = w.awaitsWelcome id := by
        intro id
        rw [MlsWorker.awaitsWelcome, hops, MlsWorker.awaitsWelcome]
      refine h.same (hsame.trans ⟨rfl, rfl, rfl⟩) ?_ ?_
      · intro id hid hfetch
        refine Finset.mem_filter.2 ⟨hid, hdropped id ?_⟩
        rw [MlsWorker.holdsSetup, hfetch, Bool.true_or]
      · intro id hop hholds
        unfold MlsWorker.resumePendingMlsOperations
        dsimp only
        rw [MlsWorker.lookup_dropWelcomes, if_neg, hops]
        · exact hop
        · rintro ⟨-, hwelcome⟩
          rw [hawaits, hdropped id hholds] at hwelcome
          cases hwelcome
    dsimp only
    rw [if_pos rfl, if_pos rfl]
    split_ifs
    · exact hresume _ ⟨rfl, rfl, rfl⟩ rfl
    · exact hresume _ ⟨rfl, rfl, rfl⟩ rfl
  | false =>
    -- there is no setup
    rw [if_neg (by decide), Bool.not_eq_false', List.isEmpty_iff] at hnot
    dsimp only
    rw [if_neg (by decide), if_neg (by decide)]
    have hnone : ∀ id, ¬ (w.pendingAttachmentMlsSetups.lookup id).isSome := by
      intro id hid
      have hkey := AList.mem_keys.1 (AList.lookup_isSome.1 hid)
      rw [hnot] at hkey
      cases hkey
    exact h.shrink (fun _ hid => hid) (fun _ _ hc => hc) (fun _ _ hc => hc) (fun _ _ hl => hl)
      (fun _ id hid => (hnone id hid).elim) fun _ id hid => (hnone id hid).elim

/-- A new setup waits for the key package of its first target. -/
theorem Kept.startUpload (h : Kept ⟨w, commands⟩ fun _ => False) {room : String}
    {targets : List String} {commandID : String}
    (hnot : (!MlsWorker.refusesUpload d targets commandID &&
      (w.withSetup platform room targets commandID).startNextStalls d (trimSpace commandID)) =
        false) :
    Kept ⟨(w.startAttachmentUpload platform d room targets commandID).1,
      if MlsWorker.refusesUpload d targets commandID then commands
      else (w.withSetup platform room targets commandID).startNextCommands d (trimSpace commandID)
        commands⟩ fun _ => False := by
  rw [MlsWorker.startAttachmentUpload_eq]
  by_cases hrefused : MlsWorker.refusesUpload d targets commandID = true
  · rw [if_pos hrefused, if_pos hrefused]
    exact h
  · rw [if_neg hrefused, if_neg hrefused]
    have hne : trimSpace commandID ≠ "" :=
      fun he => hrefused (MlsWorker.refusesUpload_iff.2 (.inr (.inl he)))
    rw [Bool.not_eq_true] at hrefused
    rw [hrefused, Bool.not_false, Bool.true_and] at hnot
    refine Kept.startNext (w := w.withSetup platform room targets commandID) ?_ hnot
    have hold : ∀ id, id ≠ trimSpace commandID →
        (w.withSetup platform room targets commandID).pendingAttachmentMlsSetups.lookup id =
          w.pendingAttachmentMlsSetups.lookup id := by
      intro id hid
      rw [MlsWorker.setups_withSetup, AList.lookup_insert_ne hid]
    constructor
    · exact h.fetchKey
    · exact h.addKey
    · intro id hid
      by_cases hnew : id = trimSpace commandID
      · subst hnew
        exact ⟨trimSpace_trimSpace commandID, hne⟩
      · dsimp only at hid
        rw [hold id hnew] at hid
        exact h.trimmed id hid
    · intro id hid hnew
      dsimp only at hid
      rw [hold id hnew] at hid
      exact h.outstanding id hid not_false

/-- A step that leaves no setup without its command keeps every setup tended. -/
theorem Kept.step (h : Kept s fun _ => False) (x : MlsInput × MlsDraw)
    (hnot : s.worker.orphans platform x = false) : Kept (s.step platform x) fun _ => False := by
  obtain ⟨w, commands⟩ := s
  obtain ⟨input, d⟩ := x
  unfold SetupWorker.step MlsWorker.step MlsWorker.nextCommands
  unfold MlsWorker.orphans at hnot
  cases input with
  | connectToServer username userCode login =>
    dsimp only at hnot ⊢
    unfold MlsWorker.connectToServer
    cases login with
    | none => exact h.of_same ⟨⟨rfl, rfl, rfl⟩, rfl⟩
    | some c =>
      rw [Option.isSome_some, Bool.true_and] at hnot
      have hsaved : Kept ⟨{ w with saved := true, username, userCode }, commands⟩ fun _ => False :=
        h.of_same ⟨⟨rfl, rfl, rfl⟩, rfl⟩
      exact hsaved.connected c _ hnot
  | retrySavedConnection login =>
    dsimp only at hnot ⊢
    unfold MlsWorker.retrySavedConnection
    cases login with
    | none => exact h.of_same ⟨⟨rfl, rfl, rfl⟩, rfl⟩
    | some c =>
      rw [Option.isSome_some, Bool.true_and] at hnot
      exact h.connected c true hnot
  | disconnect => exact h.of_same ⟨⟨rfl, rfl, rfl⟩, rfl⟩
  | fetchMlsKeyPackage room target commandID =>
    dsimp only at hnot ⊢
    unfold MlsWorker.fetchCommands
    by_cases hready : w.session.isNone ∨ trimSpace room = "" ∨ trimSpace target = ""
    · rw [if_pos hready]
      exact h
    rw [if_neg hready]
    by_cases hsend : d.sendFails (MlsWorker.fetchMessage room target commandID) = true
    · rw [if_pos hsend]
      refine h.eraseCommand ?_
      simp only [not_or, Option.isNone_iff_eq_none] at hready
      have hsession : w.session.isSome = true := Option.isSome_iff_ne_none.2 hready.1
      simpa [hsession, hready.2, hsend] using hnot
    · rw [if_neg hsend]
      exact h.same (.refl w) (fun _ hid _ => Finset.mem_insert_of_mem hid) fun _ hop _ => hop
  | addMlsMember room groupID target commandID =>
    obtain ⟨hsame, hops⟩ := addMlsMember_spec (w := w) d room groupID target commandID
    exact h.operation d hsame hops (addCommands_eq d room groupID target commandID) hnot
  | removeMlsMember room groupID target commandID =>
    obtain ⟨hsame, hops⟩ := removeMlsMember_spec (w := w) d room groupID target commandID
    exact h.operation d hsame hops (removeCommands_eq d room groupID target commandID) hnot
  | startAttachmentUpload room targets commandID => exact h.startUpload hnot
  | receive m =>
    dsimp only at hnot ⊢
    by_cases hsession : w.session.isSome = true
    · rw [hsession, Bool.true_and] at hnot
      rw [if_pos hsession, if_pos hsession]
      exact h.message m hnot
    · rw [if_neg hsession, if_neg hsession]
      exact h

end SetupWorker

end Gui

end LanChat
