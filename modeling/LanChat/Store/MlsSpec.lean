import LanChat.Store.Mls

/-!
# What the MLS operations do to the tables

One lemma per operation says everything a successful call can do, in terms of the lookups
`group?`, `epoch?`, `proposal?`, `welcome?`, `member?`; later modules never unfold a transaction.

* `LogsCommit`, `StoresProposal`, `StoresWelcome`, `AcceptsWelcome`: the four kinds of write;
* `saveMLSCommit_ok`, …, `acceptMLSWelcomeForMember_ok`: the operations in these terms.
-/

namespace LanChat

namespace MlsStore

variable {s s' : MlsStore} {g u : String}

/-! ### Lookups after the elementary writes -/

/-- The epoch a group is at; a group without a row counts as `-1`. -/
def currentEpoch (s : MlsStore) (g : String) : ℤ := (s.group? g).elim (-1) MlsGroup.currentEpoch

/-- The row a group has once it has been opened. -/
def openedGroup (s : MlsStore) (g room : String) : MlsGroup := (s.group? g).getD ⟨g, room, -1⟩

/-- `CASE WHEN room = '' THEN ? ELSE room END`. -/
def filledRoom (s : MlsStore) (g room : String) : String :=
  if (s.openedGroup g room).room = "" then room else (s.openedGroup g room).room

theorem groupID_of_group? {r : MlsGroup} (h : s.group? g = some r) : r.groupID = g :=
  Table.key_of_lookup h

theorem groupID_openedGroup (room : String) : (s.openedGroup g room).groupID = g := by
  unfold openedGroup
  cases h : s.group? g with
  | none => rfl
  | some r => exact groupID_of_group? h

theorem currentEpoch_openedGroup (room : String) :
    (s.openedGroup g room).currentEpoch = s.currentEpoch g := by
  unfold openedGroup currentEpoch
  cases s.group? g <;> rfl

theorem openedGroup_eq (room : String) :
    s.openedGroup g room = ⟨g, (s.openedGroup g room).room, s.currentEpoch g⟩ := by
  cases h : s.openedGroup g room with
  | mk i r e =>
    have h1 := groupID_openedGroup (s := s) (g := g) room
    have h2 := currentEpoch_openedGroup (s := s) (g := g) room
    rw [h] at h1 h2
    rw [← h2, ← h1]

theorem currentEpoch_of_group? {r : MlsGroup} (h : s.group? g = some r) :
    s.currentEpoch g = r.currentEpoch := by
  unfold currentEpoch
  rw [h]
  rfl

theorem group?_updateGroup (s : MlsStore) (g : String) (f : MlsGroup → String × ℤ) (g' : String) :
    (s.updateGroup g f).group? g' =
      if g' = g then (s.group? g).map fun r => ⟨g, (f r).1, (f r).2⟩ else s.group? g' := by
  have h : (s.updateGroup g f).group? g' =
      (s.group? g').map fun r => if r.groupID == g then ⟨r.groupID, (f r).1, (f r).2⟩ else r :=
    Table.lookup_modify (f := fun r => ⟨r.groupID, (f r).1, (f r).2⟩) s.groups _
      (Table.keepsKey_keyClash fun _ => rfl) (fun _ => rfl) g'
  rw [h]
  cases hg : s.group? g' with
  | none =>
    split_ifs with he
    · subst he
      rw [hg]
      rfl
    · rfl
  | some r =>
    have hr := groupID_of_group? hg
    split_ifs with he
    · subst he
      rw [hg]
      simp [hr]
    · simp [hr, he]

@[simp] theorem insertOr_eq_ok {α : Type} {clash : α → α → Bool} {t t' : Table clash} {r : α}
    {error : String} : insertOr t r error = .ok t' ↔ t.insert? r = some t' := by
  unfold insertOr
  cases t.insert? r <;> simp

theorem group?_insert {t : Table (Table.keyClash MlsGroup.groupID)} {r : MlsGroup}
    (h : s.groups.insert? r = some t) (g : String) :
    ({ s with groups := t } : MlsStore).group? g = if g = r.groupID then some r else s.group? g := by
  simp only [eq_comm (a := g)]
  exact Table.lookup_insert? (fun _ _ => Table.keyClash_of_eq _) h g

theorem epoch?_insert {t : Table (Table.keyClash MlsEpoch.key)} {r : MlsEpoch}
    (h : s.epochs.insert? r = some t) (g : String) (e : ℤ) :
    t.lookup MlsEpoch.key (g, e) =
      if g = r.groupID ∧ e = r.epoch then some r else s.epoch? g e := by
  rw [Table.lookup_insert? (fun _ _ => Table.keyClash_of_eq _) h]
  simp only [MlsEpoch.key, Prod.mk.injEq, eq_comm, epoch?]

theorem clash_of_key (a b : MlsProposal) (h : a.key = b.key) : MlsProposal.clash a b = true := by
  unfold MlsProposal.clash
  rw [Table.keyClash_of_eq _ h, Bool.true_or]

theorem proposal?_insert {t : Table MlsProposal.clash} {r : MlsProposal}
    (h : s.proposals.insert? r = some t) (g : String) (e : ℤ) (p : String) :
    t.lookup MlsProposal.key (g, e, p) =
      if g = r.groupID ∧ e = r.epoch ∧ p = r.proposalID then some r else s.proposal? g e p := by
  rw [Table.lookup_insert? clash_of_key h]
  simp only [MlsProposal.key, Prod.mk.injEq, eq_comm, proposal?]

theorem welcome?_insert {t : Table (Table.keyClash MlsWelcome.key)} {r : MlsWelcome}
    (h : s.welcomes.insert? r = some t) (g : String) (e : ℤ) (u : String) :
    t.lookup MlsWelcome.key (g, e, u) =
      if g = r.groupID ∧ e = r.epoch ∧ u = r.targetCode then some r else s.welcome? g e u := by
  rw [Table.lookup_insert? (fun _ _ => Table.keyClash_of_eq _) h]
  simp only [MlsWelcome.key, Prod.mk.injEq, eq_comm, welcome?]

theorem member?_upsert (r : MlsMember) {f : MlsMember → MlsMember}
    (hf : ∀ m, (f m).key = m.key) (g u : String) :
    (s.members.upsert r f (Table.keepsKey_keyClash hf)).lookup MlsMember.key (g, u) =
      if g = r.groupID ∧ u = r.userCode then some ((s.member? g u).elim r f)
      else s.member? g u := by
  rw [Table.lookup_upsert (fun _ _ => Table.keyClash_of_eq _) _ _ hf
    (fun a b h => of_decide_eq_true h)]
  simp only [MlsMember.key, Prod.mk.injEq, eq_comm, member?]

theorem isActive_iff : s.isActive g u = true ↔ ∃ m, s.member? g u = some m ∧ m.active = true := by
  simp only [isActive, List.any_eq_true, Bool.and_eq_true, beq_iff_eq]
  constructor
  · rintro ⟨m, hm, ⟨rfl, rfl⟩, ha⟩
    exact ⟨m, Table.lookup_of_mem (fun _ _ => Table.keyClash_of_eq _) s.members hm, ha⟩
  · rintro ⟨m, hm, ha⟩
    have hk := Table.key_of_lookup hm
    simp only [MlsMember.key, Prod.mk.injEq] at hk
    exact ⟨m, Table.mem_of_lookup hm, hk, ha⟩

theorem mlsGroupMembers_eq_nil :
    s.mlsGroupMembers g = [] ↔ ∀ u, s.isActive g u = false := by
  unfold mlsGroupMembers
  rw [← List.length_eq_zero_iff, List.length_insertionSort, List.length_eq_zero_iff,
    List.map_eq_nil_iff, List.filter_eq_nil_iff]
  constructor
  · intro h u
    by_contra hu
    simp only [Bool.not_eq_false, isActive, List.any_eq_true, Bool.and_eq_true, beq_iff_eq] at hu
    obtain ⟨m, hm, ⟨hg, -⟩, ha⟩ := hu
    exact h m hm (by simp [hg, ha])
  · intro h m hm hcon
    have := h m.userCode
    simp only [isActive, List.any_eq_false] at this
    exact this m hm (by simpa using hcon)

theorem mem_mlsGroupMembers : u ∈ s.mlsGroupMembers g ↔ s.isActive g u = true := by
  unfold mlsGroupMembers
  rw [List.mem_insertionSort]
  simp only [isActive, List.mem_map, List.mem_filter, List.any_eq_true, Bool.and_eq_true,
    beq_iff_eq]
  constructor
  · rintro ⟨m, ⟨hm, hg, ha⟩, hu⟩
    exact ⟨m, hm, ⟨hg, hu⟩, ha⟩
  · rintro ⟨m, hm, ⟨hg, hu⟩, ha⟩
    exact ⟨m, ⟨hm, hg, ha⟩, hu⟩

theorem hasProposal_iff {e : ℤ} :
    s.hasProposal g e = true ↔ ∃ pid p, s.proposal? g e pid = some p := by
  simp only [hasProposal, List.any_eq_true, Bool.and_eq_true, beq_iff_eq]
  constructor
  · rintro ⟨p, hp, rfl, rfl⟩
    exact ⟨p.proposalID, p, Table.lookup_of_mem clash_of_key s.proposals hp⟩
  · rintro ⟨pid, p, hp⟩
    have hk := Table.key_of_lookup hp
    simp only [MlsProposal.key, Prod.mk.injEq] at hk
    exact ⟨p, Table.mem_of_lookup hp, hk.1, hk.2.1⟩

/-- A pending welcome that joins with its add proposal is seen by the check. -/
theorem hasPendingMLSWelcome_of {e : ℤ} {w : MlsWelcome} {p : MlsProposal}
    (hw : s.welcome? g e u = some w) (hacc : w.accepted = false)
    (hp : s.proposal? g e w.proposalID = some p) (hadd : p.action = .add) :
    s.hasPendingMLSWelcome g = true := by
  have hwk := Table.key_of_lookup hw
  have hpk := Table.key_of_lookup hp
  simp only [MlsWelcome.key, MlsProposal.key, Prod.mk.injEq] at hwk hpk
  simp only [hasPendingMLSWelcome, List.any_eq_true, Bool.and_eq_true, beq_iff_eq,
    Bool.not_eq_true']
  exact ⟨w, Table.mem_of_lookup hw, ⟨hwk.1, hacc⟩, p, Table.mem_of_lookup hp,
    ⟨⟨hpk.1.trans hwk.1.symm, hpk.2.1.trans hwk.2.1.symm⟩, hpk.2.2⟩, hadd⟩

/-- Everything `openGroup` can do: only the group's row may be new. -/
theorem openGroup_ok {room error : String} {epoch : Option ℤ} {conflict : GoError}
    (h : s.openGroup g room epoch conflict error = .ok s') :
    (∃ t, s' = { s with groups := t }) ∧
      (∀ g', s'.group? g' = if g' = g then some (s.openedGroup g room) else s.group? g') ∧
      (∀ e ∈ epoch, s.currentEpoch g ≤ e ∨ s.group? g = none) := by
  unfold openGroup at h
  cases hg : s.group? g with
  | some r =>
    simp only [hg] at h
    split_ifs at h with h1 h2
    cases h
    refine ⟨⟨s.groups, rfl⟩, ?_, ?_⟩
    · intro g'
      split_ifs with he
      · subst he
        simp [openedGroup, hg]
      · rfl
    · intro e he
      left
      rw [currentEpoch_of_group? hg]
      exact not_lt.1 fun hlt => h2 ⟨e, he, hlt⟩
  | none =>
    simp only [hg, bind_eq_ok, insertOr_eq_ok, pure, Except.pure, Except.ok.injEq] at h
    obtain ⟨t, ht, rfl⟩ := h
    refine ⟨⟨t, rfl⟩, ?_, fun _ _ => Or.inr rfl⟩
    intro g'
    rw [group?_insert ht]
    simp [openedGroup, hg]

/-! ### The four kinds of write -/

/-- A commit is logged and moves its group to the commit's epoch. -/
structure LogsCommit (s s' : MlsStore) (room : String) (r : MlsEpoch) : Prop where
  fresh : s.epoch? r.groupID r.epoch = none
  calm : s.hasPendingMLSWelcome r.groupID = false
  nonneg : 0 ≤ r.epoch
  above : s.currentEpoch r.groupID ≤ r.epoch
  proposed : s.hasProposal r.groupID r.epoch = true
  group : ∀ g, s'.group? g = if g = r.groupID then some ⟨r.groupID, room, r.epoch⟩ else s.group? g
  epoch : ∀ g e, s'.epoch? g e = if g = r.groupID ∧ e = r.epoch then some r else s.epoch? g e
  proposals : s'.proposals = s.proposals
  welcomes : s'.welcomes = s.welcomes
  keyPackages : s'.keyPackages = s.keyPackages

/-- A proposal is stored; its group is opened and keeps its epoch. -/
structure StoresProposal (s s' : MlsStore) (room : String) (p : MlsProposal) : Prop where
  fresh : s.proposal? p.groupID p.epoch p.proposalID = none
  calm : s.hasPendingMLSWelcome p.groupID = false
  nonneg : 0 ≤ p.epoch
  above : s.currentEpoch p.groupID ≤ p.epoch
  group : ∀ g, s'.group? g =
    if g = p.groupID then some ⟨p.groupID, room, s.currentEpoch p.groupID⟩ else s.group? g
  proposal : ∀ g e i, s'.proposal? g e i =
    if g = p.groupID ∧ e = p.epoch ∧ i = p.proposalID then some p else s.proposal? g e i
  epochs : s'.epochs = s.epochs
  welcomes : s'.welcomes = s.welcomes
  keyPackages : s'.keyPackages = s.keyPackages

/-- A welcome is stored; its group is opened and keeps its epoch. -/
structure StoresWelcome (s s' : MlsStore) (room : String) (w : MlsWelcome) : Prop where
  fresh : s.welcome? w.groupID w.epoch w.targetCode = none
  nonneg : 0 ≤ w.epoch
  group : ∀ g, s'.group? g = if g = w.groupID then some (s.openedGroup g room) else s.group? g
  welcome : ∀ g e u, s'.welcome? g e u =
    if g = w.groupID ∧ e = w.epoch ∧ u = w.targetCode then some w else s.welcome? g e u
  epochs : s'.epochs = s.epochs
  proposals : s'.proposals = s.proposals
  members : s'.members = s.members
  keyPackages : s'.keyPackages = s.keyPackages

/-- A pending welcome is accepted and its target becomes active at its epoch. -/
structure AcceptsWelcome (s s' : MlsStore) (w : MlsWelcome) : Prop where
  stored : s.welcome? w.groupID w.epoch w.targetCode = some w
  pending : w.accepted = false
  current : ∃ r, s.group? w.groupID = some r ∧ r.currentEpoch = w.epoch
  welcome : ∀ g e u, s'.welcome? g e u =
    if g = w.groupID ∧ e = w.epoch ∧ u = w.targetCode then some { w with accepted := true }
    else s.welcome? g e u
  member : ∀ g u, s'.member? g u =
    if g = w.groupID ∧ u = w.targetCode then some ⟨w.groupID, w.targetCode, true, w.epoch, none⟩
    else s.member? g u
  groups : s'.groups = s.groups
  epochs : s'.epochs = s.epochs
  proposals : s'.proposals = s.proposals
  keyPackages : s'.keyPackages = s.keyPackages

/-- The creator path was taken: the group had no row above `-1` and no active member. -/
structure InitializesCreator (s s' : MlsStore) (g sender : String) : Prop where
  early : s.currentEpoch g < 0
  memberless : ∀ u, s.isActive g u = false
  member : ∀ g' u, s'.member? g' u =
    if g' = g ∧ u = sender then
      some ((s.member? g' u).elim ⟨g, sender, true, 0, none⟩
        fun m => { m with active := true, removedEpoch := none })
    else s.member? g' u

/-- A strict commit deactivates the target of a remove proposal and nobody else. -/
def RemovesMember (s s' : MlsStore) (g u : String) (epoch : ℤ) : Prop :=
  ∀ g' u', s'.member? g' u' =
    if g' = g ∧ u' = u then
      (s.member? g u).map fun m =>
        if m.active then { m with active := false, removedEpoch := some epoch } else m
    else s.member? g' u'

/-! ### The legacy operations -/

theorem mlsEpochValue_ok {epoch : UInt64} {e : ℤ} (h : mlsEpochValue epoch = .ok e) :
    e = epoch.toNat ∧ 0 ≤ e := by
  unfold mlsEpochValue at h
  split_ifs at h
  cases h
  exact ⟨rfl, Int.natCast_nonneg _⟩

theorem group?_updateGroup_of_opened {row : MlsGroup} {f : MlsGroup → String × ℤ}
    (h : ∀ g', s'.group? g' = if g' = g then some row else s.group? g') (g' : String) :
    (s'.updateGroup g f).group? g' =
      if g' = g then some ⟨g, (f row).1, (f row).2⟩ else s.group? g' := by
  rw [group?_updateGroup, h g, h g', if_pos rfl]
  split_ifs <;> rfl

theorem currentEpoch_le_of_opened {e : ℤ} (he : 0 ≤ e)
    (h : s.currentEpoch g ≤ e ∨ s.group? g = none) : s.currentEpoch g ≤ e := by
  rcases h with h | h
  · exact h
  · have : s.currentEpoch g = -1 := by
      unfold currentEpoch
      rw [h]
      rfl
    omega

theorem saveMLSCommitTx_ok {room commit : String} {e : ℤ} {b : Bool} (he : 0 ≤ e)
    (h : s.saveMLSCommitTx g room e commit = .ok (b, s')) :
    (b = false ∧ s' = s ∧ ∃ r, s.epoch? g e = some r ∧ r.commitData = commit) ∨
    (b = true ∧ s'.members = s.members ∧
      LogsCommit s s' (s.filledRoom g room) ⟨g, e, "", commit⟩) := by
  unfold saveMLSCommitTx at h
  cases hx : s.epoch? g e with
  | some r =>
    simp only [hx, bind_eq_ok, require_eq_ok, pure, Except.pure, Except.ok.injEq] at h
    obtain ⟨-, hc, heq⟩ := h
    cases heq
    exact Or.inl ⟨rfl, rfl, r, rfl, by simpa using hc⟩
  | none =>
    simp only [hx, bind_eq_ok, require_eq_ok, insertOr_eq_ok, pure, Except.pure,
      Except.ok.injEq, Bool.not_eq_true'] at h
    obtain ⟨o, ho, -, hcalm, -, hprop, t, ht, heq⟩ := h
    cases heq
    obtain ⟨⟨gs, rfl⟩, hgroup, hle⟩ := openGroup_ok ho
    have habove := currentEpoch_le_of_opened he (hle e rfl)
    refine Or.inr ⟨rfl, rfl, ?_⟩
    refine ⟨hx, hcalm, he, habove, hprop, ?_, fun g' e' => epoch?_insert ht g' e', rfl, rfl, rfl⟩
    intro g'
    refine (group?_updateGroup_of_opened (s := s) hgroup g').trans ?_
    rw [currentEpoch_openedGroup]
    have hmax : (if s.currentEpoch g < e then e else s.currentEpoch g) = e := by
      split_ifs <;> omega
    rw [hmax]
    rfl

theorem saveMLSCommit_ok {room commit : String} {epoch : UInt64} {b : Bool}
    (h : s.saveMLSCommit g room epoch commit = .ok (b, s')) :
    (b = false ∧ s' = s ∧ ∃ r, s.epoch? g epoch.toNat = some r ∧ r.commitData = commit) ∨
    (b = true ∧ s'.members = s.members ∧
      LogsCommit s s' (s.filledRoom g room) ⟨g, epoch.toNat, "", commit⟩) := by
  simp only [saveMLSCommit, bind_eq_ok] at h
  obtain ⟨-, -, -, -, -, -, e, he, h⟩ := h
  obtain ⟨rfl, hnonneg⟩ := mlsEpochValue_ok he
  exact saveMLSCommitTx_ok hnonneg h

variable {sha256Hex : String → String}

theorem saveMLSProposalTx_ok {room pid proposal : String} {e : ℤ} {b : Bool} (he : 0 ≤ e)
    (h : s.saveMLSProposalTx sha256Hex g room e pid proposal = .ok (b, s')) :
    (b = false ∧ s' = s) ∨
    (b = true ∧ s'.members = s.members ∧ StoresProposal s s' (s.filledRoom g room)
      ⟨g, e, pid, proposal, sha256Hex proposal, .add, "", []⟩) := by
  unfold saveMLSProposalTx at h
  cases hx : s.proposal? g e pid with
  | some r =>
    simp only [hx, bind_eq_ok, pure, Except.pure, Except.ok.injEq] at h
    obtain ⟨-, -, heq⟩ := h
    cases heq
    exact Or.inl ⟨rfl, rfl⟩
  | none =>
    cases hd : s.proposalByDigest? g e (sha256Hex proposal) with
    | some r =>
      simp only [hx, hd, Except.ok.injEq] at h
      cases h
      exact Or.inl ⟨rfl, rfl⟩
    | none =>
      simp only [hx, hd, bind_eq_ok, require_eq_ok, insertOr_eq_ok, pure, Except.pure,
        Except.ok.injEq, Bool.not_eq_true'] at h
      obtain ⟨o, ho, -, hcalm, t, ht, heq⟩ := h
      cases heq
      obtain ⟨⟨gs, rfl⟩, hgroup, hle⟩ := openGroup_ok ho
      have habove := currentEpoch_le_of_opened he (hle e rfl)
      refine Or.inr ⟨rfl, rfl, ?_⟩
      refine ⟨hx, hcalm, he, habove, ?_, fun g' e' i => proposal?_insert ht g' e' i, rfl, rfl, rfl⟩
      intro g'
      refine (group?_updateGroup_of_opened (s := s) hgroup g').trans ?_
      rw [currentEpoch_openedGroup]
      rfl

theorem saveMLSProposal_ok {room pid proposal : String} {epoch : UInt64} {b : Bool}
    (h : s.saveMLSProposal sha256Hex g room epoch pid proposal = .ok (b, s')) :
    (b = false ∧ s' = s) ∨
    (b = true ∧ s'.members = s.members ∧ StoresProposal s s' (s.filledRoom g room)
      ⟨g, epoch.toNat, pid, proposal, sha256Hex proposal, .add, "", []⟩) := by
  simp only [saveMLSProposal, bind_eq_ok] at h
  obtain ⟨-, -, -, -, -, -, -, -, e, he, h⟩ := h
  obtain ⟨rfl, hnonneg⟩ := mlsEpochValue_ok he
  exact saveMLSProposalTx_ok hnonneg h

theorem saveMLSWelcomeTx_ok {room target welcome : String} {e : ℤ} {b : Bool} (he : 0 ≤ e)
    (h : s.saveMLSWelcomeTx g room e target welcome = .ok (b, s')) :
    (b = false ∧ s' = s) ∨
    (b = true ∧ StoresWelcome s s' room ⟨g, e, target, welcome, "", "", true⟩) := by
  unfold saveMLSWelcomeTx at h
  cases hx : s.welcome? g e target with
  | some r =>
    simp only [hx, bind_eq_ok, pure, Except.pure, Except.ok.injEq] at h
    obtain ⟨-, -, heq⟩ := h
    cases heq
    exact Or.inl ⟨rfl, rfl⟩
  | none =>
    simp only [hx, bind_eq_ok, insertOr_eq_ok, pure, Except.pure, Except.ok.injEq] at h
    obtain ⟨o, ho, t, ht, heq⟩ := h
    cases heq
    obtain ⟨⟨gs, rfl⟩, hgroup, -⟩ := openGroup_ok ho
    refine Or.inr ⟨rfl, hx, he, ?_, fun g' e' u => welcome?_insert ht g' e' u, rfl, rfl, rfl, rfl⟩
    intro g'
    refine (hgroup g').trans ?_
    split_ifs with hg'
    · subst hg'
      rfl
    · rfl

theorem saveMLSWelcome_ok {room targetCode welcome : String} {epoch : UInt64} {b : Bool}
    (h : s.saveMLSWelcome g room epoch targetCode welcome = .ok (b, s')) :
    (b = false ∧ s' = s) ∨
    (b = true ∧ ∃ target, normalizeUserCode targetCode = .ok target ∧
      StoresWelcome s s' room ⟨g, epoch.toNat, target, welcome, "", "", true⟩) := by
  simp only [saveMLSWelcome, bind_eq_ok] at h
  obtain ⟨-, -, -, -, target, ht, -, -, e, he, h⟩ := h
  obtain ⟨rfl, hnonneg⟩ := mlsEpochValue_ok he
  rcases saveMLSWelcomeTx_ok hnonneg h with h | ⟨hb, h⟩
  · exact Or.inl h
  · exact Or.inr ⟨hb, target, ht, h⟩

/-! ### The strict operations -/

theorem member?_initializeCreator (s : MlsStore) (g sender g' u : String) :
    (s.initializeCreator g sender).member? g' u =
      if g' = g ∧ u = sender then
        some ((s.member? g' u).elim ⟨g, sender, true, 0, none⟩
          fun m => { m with active := true, removedEpoch := none })
      else s.member? g' u :=
  member?_upsert (s := s) (f := fun m => { m with active := true, removedEpoch := none })
    ⟨g, sender, true, 0, none⟩ (fun _ => rfl) g' u

theorem member?_activate (s : MlsStore) (g target : String) (e : ℤ) (g' u : String) :
    (s.activate g target e).member? g' u =
      if g' = g ∧ u = target then some ⟨g, target, true, e, none⟩ else s.member? g' u := by
  refine (member?_upsert (s := s)
    (f := fun m => { m with active := true, joinedEpoch := e, removedEpoch := none })
    ⟨g, target, true, e, none⟩ (fun _ => rfl) g' u).trans ?_
  split_ifs with h
  · cases hm : s.member? g' u with
    | none => rfl
    | some m =>
      have hk := Table.key_of_lookup hm
      simp only [MlsMember.key, Prod.mk.injEq] at hk
      simp [hk.1, hk.2, h.1, h.2]
  · rfl

theorem member?_deactivate (s : MlsStore) (g u : String) (e : ℤ) :
    RemovesMember s (s.deactivate g u e) g u e := by
  intro g' u'
  have h : (s.deactivate g u e).member? g' u' = (s.member? g' u').map fun m =>
      if m.groupID == g && m.userCode == u && m.active then
        { m with active := false, removedEpoch := some e } else m :=
    Table.lookup_modify (f := fun m => { m with active := false, removedEpoch := some e })
      s.members _ (Table.keepsKey_keyClash fun _ => rfl) (fun _ => rfl) (g', u')
  rw [h]
  cases hm : s.member? g' u' with
  | none =>
    split_ifs with he
    · rw [← he.1, ← he.2, hm]
      rfl
    · rfl
  | some m =>
    have hk := Table.key_of_lookup hm
    simp only [MlsMember.key, Prod.mk.injEq] at hk
    split_ifs with he
    · rw [← he.1, ← he.2, hm]
      simp [hk.1, hk.2]
    · rw [not_and_or] at he
      rcases he with he | he <;> simp [hk.1, hk.2, he]

theorem welcome?_markAccepted (s : MlsStore) {w : MlsWelcome}
    (hw : s.welcome? w.groupID w.epoch w.targetCode = some w) (g : String) (e : ℤ) (u : String) :
    (s.markAccepted w.groupID w.epoch w.targetCode w.proposalID w.welcomeDigest).welcome? g e u =
      if g = w.groupID ∧ e = w.epoch ∧ u = w.targetCode then some { w with accepted := true }
      else s.welcome? g e u := by
  refine (Table.lookup_modify (f := fun w => { w with accepted := true }) s.welcomes _
    (Table.keepsKey_keyClash fun _ => rfl) (fun _ => rfl) (g, e, u)).trans ?_
  split_ifs with h
  · obtain ⟨rfl, rfl, rfl⟩ := h
    have hl : s.welcomes.lookup MlsWelcome.key (w.groupID, w.epoch, w.targetCode) = some w := hw
    rw [hl]
    simp
  · change (s.welcome? g e u).map _ = _
    cases hx : s.welcome? g e u with
    | none => rfl
    | some x =>
      have hk := Table.key_of_lookup hx
      simp only [MlsWelcome.key, Prod.mk.injEq] at hk
      obtain ⟨rfl, rfl, rfl⟩ := hk
      rw [Option.map_some, if_neg]
      simpa using fun h1 h2 h3 => absurd ⟨h1, h2, h3⟩ h

/-- The creator path changes the members table alone. -/
theorem withCreator_cases (s : MlsStore) (before : Option MlsGroup) (g sender : String) :
    (∃ t, s.withCreator before g sender = { s with members := t }) ∧
      ((before.all (fun r => r.currentEpoch < 0) = true ∧ (∀ u, s.isActive g u = false) ∧
          s.withCreator before g sender = s.initializeCreator g sender) ∨
        s.withCreator before g sender = s) := by
  unfold withCreator
  split_ifs with h
  · exact ⟨⟨_, rfl⟩, Or.inl ⟨h.2, mlsGroupMembers_eq_nil.1 (List.isEmpty_iff.1 h.1), rfl⟩⟩
  · exact ⟨⟨s.members, rfl⟩, Or.inr rfl⟩

theorem requireTarget_ok {action : MlsAction} {target : String} {x : Unit}
    (h : s.requireTarget g action target = .ok x) :
    s.isActive g target = true ↔ action = .remove := by
  cases action with
  | add =>
    have : s.isActive g target = false := by simpa [requireTarget] using h
    simp [this]
  | remove =>
    have : s.isActive g target = true := by simpa [requireTarget] using h
    simp [this]

/-- What a successful strict proposal stored. -/
structure ProposesForMember (s s' : MlsStore) (room sender : String) (p : MlsProposal) : Prop where
  stores : StoresProposal s s' (s.openedGroup p.groupID room).room p
  members : InitializesCreator s s' p.groupID sender ∨ s'.members = s.members
  sender_active : s'.isActive p.groupID sender = true
  snapshot : p.memberSnapshot = s'.mlsGroupMembers p.groupID
  target : s'.isActive p.groupID p.targetCode = true ↔ p.action = .remove

theorem currentEpoch_neg_of_all
    (h : (s.group? g).all (fun r => decide (r.currentEpoch < 0)) = true) :
    s.currentEpoch g < 0 := by
  unfold currentEpoch
  cases hg : s.group? g with
  | none => decide
  | some r => simpa [hg] using h

theorem saveMLSProposalForMemberTx_ok {room sender target pid proposal : String}
    {action : MlsAction} {e : ℤ} {b : Bool} {ms : MlsGroupMembership} (he : 0 ≤ e)
    (h : s.saveMLSProposalForMemberTx sha256Hex g room sender action target e pid proposal =
      .ok (b, ms, s')) :
    (b = false ∧ s' = s) ∨
    (b = true ∧ ∃ p : MlsProposal, p.groupID = g ∧ p.epoch = e ∧ p.proposalID = pid ∧
      p.proposalData = proposal ∧ p.action = action ∧ p.targetCode = target ∧
      ms = ⟨some p.action, p.targetCode, p.memberSnapshot⟩ ∧
      ProposesForMember s s' room sender p) := by
  unfold saveMLSProposalForMemberTx at h
  cases hx : s.proposal? g e pid with
  | some r =>
    simp only [hx, bind_eq_ok, pure, Except.pure, Except.ok.injEq] at h
    obtain ⟨-, -, -, -, heq⟩ := h
    cases heq
    exact Or.inl ⟨rfl, rfl⟩
  | none =>
    cases hd : s.proposalByDigest? g e (sha256Hex proposal) with
    | some r =>
      simp only [hx, hd, Except.ok.injEq] at h
      cases h
      exact Or.inl ⟨rfl, rfl⟩
    | none =>
      simp only [hx, hd, bind_eq_ok, require_eq_ok, insertOr_eq_ok, pure, Except.pure,
        Except.ok.injEq, Bool.not_eq_true'] at h
      obtain ⟨o, ho, -, hcalm, -, hsender, x, htarget, t, ht, heq⟩ := h
      cases heq
      obtain ⟨⟨gs, rfl⟩, hgroup, hle⟩ := openGroup_ok ho
      obtain ⟨⟨ms, hms⟩, hcreator⟩ := withCreator_cases { s with groups := gs } (s.group? g) g sender
      rw [hms] at ht hsender htarget hcreator ⊢
      have habove := currentEpoch_le_of_opened he (hle e rfl)
      refine Or.inr ⟨rfl, ⟨g, e, pid, proposal, sha256Hex proposal, action, target, _⟩, rfl, rfl,
        rfl, rfl, rfl, rfl, rfl, ?_⟩
      refine ⟨⟨hx, hcalm, he, habove, ?_, fun g' e' i => proposal?_insert ht g' e' i,
        rfl, rfl, rfl⟩, ?_, hsender, rfl, requireTarget_ok htarget⟩
      · intro g'
        refine (hgroup g').trans ?_
        rw [← openedGroup_eq]
      · rcases hcreator with ⟨hall, hnone, hc⟩ | hc
        · refine Or.inl ⟨currentEpoch_neg_of_all hall, hnone, ?_⟩
          intro g' u
          have hm : ms = (initializeCreator { s with groups := gs } g sender).members := by
            rw [← hc]
          subst hm
          exact member?_initializeCreator { s with groups := gs } g sender g' u
        · exact Or.inr (by simpa using congrArg MlsStore.members hc)

theorem saveMLSProposalForMember_ok {room senderCode actionText targetCode pid proposal : String}
    {epoch : UInt64} {b : Bool} {ms : MlsGroupMembership}
    (h : s.saveMLSProposalForMember sha256Hex g room senderCode actionText targetCode epoch pid
      proposal = .ok (b, ms, s')) :
    ∃ sender action target, normalizeUserCode senderCode = .ok sender ∧
      parseAction actionText = .ok action ∧ normalizeUserCode targetCode = .ok target ∧
      ((b = false ∧ s' = s) ∨
      (b = true ∧ ∃ p : MlsProposal, p.groupID = g ∧ p.epoch = epoch.toNat ∧ p.proposalID = pid ∧
        p.proposalData = proposal ∧ p.action = action ∧ p.targetCode = target ∧
        ms = ⟨some p.action, p.targetCode, p.memberSnapshot⟩ ∧
        ProposesForMember s s' room sender p)) := by
  simp only [saveMLSProposalForMember, bind_eq_ok] at h
  obtain ⟨-, -, -, -, sender, hs, action, ha, target, ht, -, -, -, -, e, he, h⟩ := h
  obtain ⟨rfl, hnonneg⟩ := mlsEpochValue_ok he
  exact ⟨sender, action, target, hs, ha, ht, saveMLSProposalForMemberTx_ok hnonneg h⟩

/-- What a successful strict commit did. -/
structure CommitsForMember (s s' : MlsStore) (room sender : String) (r : MlsEpoch)
    (p : MlsProposal) : Prop where
  logs : LogsCommit s s' room r
  room_eq : ∃ gr, s.group? r.groupID = some gr ∧ gr.room = room
  next : s.currentEpoch r.groupID < 0 ∨ r.epoch = s.currentEpoch r.groupID + 1
  sender_active : s.isActive r.groupID sender = true
  proposalID : r.proposalID ≠ ""
  proposal : s.proposal? r.groupID r.epoch r.proposalID = some p
  members : (p.action = .add ∧ s'.members = s.members) ∨
    (p.action = .remove ∧ RemovesMember s s' r.groupID p.targetCode r.epoch)

theorem saveMLSCommitForMemberTx_ok {room sender pid commit : String} {e : ℤ} {b : Bool}
    {ms : MlsGroupMembership} (he : 0 ≤ e)
    (h : s.saveMLSCommitForMemberTx g room sender pid e commit = .ok (b, ms, s')) :
    (b = false ∧ s' = s ∧ s.isActive g sender = true ∧
      ∃ r, s.epoch? g e = some r ∧ r.commitData = commit ∧ r.proposalID = pid) ∨
    (b = true ∧ ∃ p, ms = ⟨some p.action, p.targetCode, p.memberSnapshot⟩ ∧
      CommitsForMember s s' room sender ⟨g, e, pid, commit⟩ p) := by
  unfold saveMLSCommitForMemberTx at h
  cases hx : s.epoch? g e with
  | some r =>
    simp only [hx, bind_eq_ok, require_eq_ok, pure, Except.pure, Except.ok.injEq,
      Bool.and_eq_true, beq_iff_eq] at h
    obtain ⟨-, hactive, -, hr, heq⟩ := h
    cases heq
    exact Or.inl ⟨rfl, rfl, hactive, r, rfl, hr⟩
  | none =>
    cases hg : s.group? g with
    | none =>
      simp only [hx, hg] at h
      cases h
    | some gr =>
      simp only [hx, hg, bind_eq_ok, require_eq_ok, Bool.not_eq_true', beq_iff_eq] at h
      obtain ⟨-, hroom, -, hcalm, h⟩ := h
      split_ifs at h with hepoch
      simp only [bind_eq_ok, require_eq_ok] at h
      obtain ⟨-, hactive, h⟩ := h
      cases hp : s.proposalForCommit g e pid with
      | none =>
        simp only [hp] at h
        cases h
      | some p =>
        simp only [hp, bind_eq_ok, require_eq_ok, insertOr_eq_ok, pure, Except.pure,
          Except.ok.injEq, bne_iff_ne] at h
        obtain ⟨-, -, -, hpid, t, ht, heq⟩ := h
        cases heq
        have hcur := currentEpoch_of_group? hg
        have hprop : s.proposal? g e pid = some p := by
          unfold proposalForCommit at hp
          rwa [if_neg hpid] at hp
        have hnext : s.currentEpoch g < 0 ∨ e = s.currentEpoch g + 1 := by
          rw [hcur]
          by_contra hcon
          push Not at hcon
          exact hepoch hcon
        have hgroup : ∀ g', (({ s with epochs := t } : MlsStore).updateGroup g
            fun g => (g.room, e)).group? g' =
              if g' = g then some ⟨g, room, e⟩ else s.group? g' := by
          intro g'
          rw [group?_updateGroup]
          split_ifs with hg'
          · subst hg'
            change (s.group? g').map _ = _
            rw [hg, Option.map_some, hroom]
          · rfl
        have habove : s.currentEpoch g ≤ e := by omega
        have hhas : s.hasProposal g e = true := hasProposal_iff.2 ⟨pid, p, hprop⟩
        refine Or.inr ⟨rfl, p, rfl, ?_⟩
        cases hact : p.action with
        | add =>
          simp only [applyProposal, hact]
          exact ⟨⟨hx, hcalm, he, habove, hhas, hgroup, fun g' e' => epoch?_insert ht g' e', rfl,
            rfl, rfl⟩, ⟨gr, hg, hroom⟩, hnext, hactive, hpid, hprop, Or.inl ⟨hact, rfl⟩⟩
        | remove =>
          simp only [applyProposal, hact]
          refine ⟨⟨hx, hcalm, he, habove, hhas, hgroup, fun g' e' => epoch?_insert ht g' e', rfl,
            rfl, rfl⟩, ⟨gr, hg, hroom⟩, hnext, hactive, hpid, hprop, Or.inr ⟨hact, ?_⟩⟩
          exact member?_deactivate (({ s with epochs := t } : MlsStore).updateGroup g
            fun g => (g.room, e)) g p.targetCode e

theorem saveMLSCommitForMember_ok {room senderCode pid commit : String} {epoch : UInt64}
    {b : Bool} {ms : MlsGroupMembership}
    (h : s.saveMLSCommitForMember g room senderCode pid epoch commit = .ok (b, ms, s')) :
    ∃ sender, normalizeUserCode senderCode = .ok sender ∧
      ((b = false ∧ s' = s ∧ s.isActive g sender = true ∧
        ∃ r, s.epoch? g epoch.toNat = some r ∧ r.commitData = commit ∧ r.proposalID = pid) ∨
      (b = true ∧ ∃ p, ms = ⟨some p.action, p.targetCode, p.memberSnapshot⟩ ∧
        CommitsForMember s s' room sender ⟨g, epoch.toNat, pid, commit⟩ p)) := by
  simp only [saveMLSCommitForMember, bind_eq_ok] at h
  obtain ⟨-, -, -, -, sender, hs, -, -, e, he, h⟩ := h
  obtain ⟨rfl, hnonneg⟩ := mlsEpochValue_ok he
  exact ⟨sender, hs, saveMLSCommitForMemberTx_ok hnonneg h⟩

/-- What a successful strict welcome rested on. -/
structure WelcomesForMember (s s' : MlsStore) (room sender : String) (w : MlsWelcome)
    (p : MlsProposal) (r : MlsEpoch) : Prop where
  stores : StoresWelcome s s' room w
  pending : w.accepted = false
  current : ∃ gr, s.group? w.groupID = some gr ∧ gr.room = room ∧ gr.currentEpoch = w.epoch
  sender_active : s.isActive w.groupID sender = true
  proposalID : w.proposalID ≠ ""
  proposal : s.proposal? w.groupID w.epoch w.proposalID = some p
  action : p.action = .add
  target : p.targetCode = w.targetCode
  epoch : s.epoch? w.groupID w.epoch = some r
  committed : r.proposalID = w.proposalID

theorem saveMLSWelcomeForMemberTx_ok {room sender target pid welcome : String} {e : ℤ}
    {b : Bool} (he : 0 ≤ e) (hpid : pid ≠ "")
    (h : s.saveMLSWelcomeForMemberTx sha256Hex g room sender e target pid welcome =
      .ok (b, s')) :
    (b = false ∧ s' = s) ∨
    (b = true ∧ ∃ p r, WelcomesForMember s s' room sender
      ⟨g, e, target, welcome, pid, sha256Hex welcome, false⟩ p r) := by
  unfold saveMLSWelcomeForMemberTx at h
  cases hg : s.group? g with
  | none =>
    simp only [hg] at h
    cases h
  | some gr =>
    simp only [hg, bind_eq_ok, require_eq_ok, Bool.and_eq_true, beq_iff_eq] at h
    obtain ⟨-, ⟨hroom, hcur⟩, -, hactive, h⟩ := h
    cases hp : s.proposal? g e pid with
    | none =>
      simp only [hp] at h
      cases h
    | some p =>
      simp only [hp, bind_eq_ok, require_eq_ok, Bool.and_eq_true, beq_iff_eq] at h
      obtain ⟨-, ⟨hadd, htarget⟩, h⟩ := h
      cases hr : s.epoch? g e with
      | none =>
        simp only [hr] at h
        cases h
      | some r =>
        simp only [hr, bind_eq_ok, require_eq_ok, beq_iff_eq] at h
        obtain ⟨-, hcommitted, h⟩ := h
        cases hw : s.welcome? g e target with
        | some w =>
          simp only [hw, bind_eq_ok, pure, Except.pure, Except.ok.injEq] at h
          obtain ⟨-, -, heq⟩ := h
          cases heq
          exact Or.inl ⟨rfl, rfl⟩
        | none =>
          simp only [hw, bind_eq_ok, insertOr_eq_ok, pure, Except.pure, Except.ok.injEq] at h
          obtain ⟨t, ht, heq⟩ := h
          cases heq
          refine Or.inr ⟨rfl, p, r, ⟨hw, he, ?_, fun g' e' u => welcome?_insert ht g' e' u, rfl,
            rfl, rfl, rfl⟩, rfl, ⟨gr, hg, hroom, hcur⟩, hactive, hpid, hp, hadd, htarget, hr,
            hcommitted⟩
          intro g'
          split_ifs with hg'
          · subst hg'
            change s.group? g' = _
            rw [openedGroup, hg]
            rfl
          · rfl

theorem validProposalID_ne {pid : String} (h : validProposalID pid = true) : pid ≠ "" := by
  unfold validProposalID at h
  simp only [Bool.and_eq_true, bne_iff_ne] at h
  exact h.1

theorem saveMLSWelcomeForMember_ok {room senderCode targetCode pid welcome : String}
    {epoch : UInt64} {b : Bool}
    (h : s.saveMLSWelcomeForMember sha256Hex g room senderCode epoch targetCode pid welcome =
      .ok (b, s')) :
    (b = false ∧ s' = s) ∨
    (b = true ∧ ∃ sender target p r, normalizeUserCode senderCode = .ok sender ∧
      normalizeUserCode targetCode = .ok target ∧ WelcomesForMember s s' room sender
        ⟨g, epoch.toNat, target, welcome, pid, sha256Hex welcome, false⟩ p r) := by
  simp only [saveMLSWelcomeForMember, bind_eq_ok, require_eq_ok] at h
  obtain ⟨-, -, -, -, sender, hs, target, ht, -, -, -, hpid, e, he, h⟩ := h
  obtain ⟨rfl, hnonneg⟩ := mlsEpochValue_ok he
  rcases saveMLSWelcomeForMemberTx_ok hnonneg (validProposalID_ne hpid) h with h | ⟨hb, p, r, h⟩
  · exact Or.inl h
  · exact Or.inr ⟨hb, sender, target, p, r, hs, ht, h⟩

theorem acceptMLSWelcomeForMemberTx_ok {room target pid digest : String} {e : ℤ} {b : Bool}
    (h : s.acceptMLSWelcomeForMemberTx g room target e pid digest = .ok (b, s')) :
    (b = false ∧ s' = s) ∨
    (b = true ∧ ∃ w : MlsWelcome, w.groupID = g ∧ w.epoch = e ∧ w.targetCode = target ∧
      w.proposalID = pid ∧ w.welcomeDigest = digest ∧ AcceptsWelcome s s' w) := by
  unfold acceptMLSWelcomeForMemberTx at h
  cases hw : s.welcome? g e target with
  | none =>
    simp only [hw] at h
    cases h
  | some w =>
    simp only [hw, bind_eq_ok, require_eq_ok, Bool.and_eq_true, beq_iff_eq] at h
    obtain ⟨-, ⟨rfl, rfl⟩, h⟩ := h
    split_ifs at h with hacc
    · cases h
      exact Or.inl ⟨rfl, rfl⟩
    · cases hg : s.group? g with
      | none =>
        simp only [hg] at h
        cases h
      | some gr =>
        simp only [hg, bind_eq_ok, require_eq_ok, pure, Except.pure, Except.ok.injEq,
          Bool.and_eq_true, beq_iff_eq] at h
        obtain ⟨-, ⟨-, hcur⟩, heq⟩ := h
        cases heq
        have hk := Table.key_of_lookup hw
        simp only [MlsWelcome.key, Prod.mk.injEq] at hk
        obtain ⟨rfl, rfl, rfl⟩ := hk
        refine Or.inr ⟨rfl, w, rfl, rfl, rfl, rfl, rfl, hw, by simpa using hacc, ⟨gr, hg, hcur⟩,
          welcome?_markAccepted s hw, ?_, rfl, rfl, rfl, rfl⟩
        exact member?_activate (s.markAccepted w.groupID w.epoch w.targetCode w.proposalID
          w.welcomeDigest) w.groupID w.targetCode w.epoch

theorem acceptMLSWelcomeForMember_ok {room targetCode pid digest : String} {epoch : UInt64}
    {b : Bool}
    (h : s.acceptMLSWelcomeForMember g room targetCode epoch pid digest = .ok (b, s')) :
    (b = false ∧ s' = s) ∨
    (b = true ∧ ∃ w : MlsWelcome, w.groupID = g ∧ w.epoch = epoch.toNat ∧
      normalizeUserCode targetCode = .ok w.targetCode ∧ w.proposalID = pid ∧
      w.welcomeDigest = digest ∧ AcceptsWelcome s s' w) := by
  simp only [acceptMLSWelcomeForMember, bind_eq_ok] at h
  obtain ⟨-, -, -, -, target, ht, -, -, e, he, h⟩ := h
  obtain ⟨rfl, -⟩ := mlsEpochValue_ok he
  rcases acceptMLSWelcomeForMemberTx_ok h with h | ⟨hb, w, hg, hwe, rfl, hp, hd, h⟩
  · exact Or.inl h
  · exact Or.inr ⟨hb, w, hg, hwe, ht, hp, hd, h⟩

end MlsStore

end LanChat
