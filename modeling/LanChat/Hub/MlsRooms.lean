import LanChat.Hub.MlsRows

/-!
# The rooms of MLS groups

A group row is bound to the room of the request that stores it.

* `Rooted`: proposals and members belong to a group that has a row;
* `opensGroup_step`: a new row comes from a frame of a client in the room, or from a proposal by
  which a client removes itself;
* `group_creation_present`: when the sender is in the room, over every reachable state.
-/

namespace LanChat

open GoStrings EventMachine

namespace MlsStore

variable {s s' : MlsStore} {g room : String}

/-- The group gets its row, bound to the room. -/
structure OpensGroup (s s' : MlsStore) (g room : String) : Prop where
  fresh : s.group? g = none
  opened : ∃ r, s'.group? g = some r ∧ r.room = room

theorem OpensGroup.ne (h : OpensGroup s s' g room) : s'.group? g ≠ s.group? g := by
  obtain ⟨r, hr, -⟩ := h.opened
  rw [h.fresh, hr]
  exact Option.some_ne_none r

theorem not_opensGroup_of_eq (h : s'.group? g = s.group? g) : ¬ OpensGroup s s' g room :=
  fun ho => ho.ne h

/-- No proposal and no member without a group. -/
structure Rooted (s : MlsStore) : Prop where
  proposal : ∀ {g e i p}, s.proposal? g e i = some p → (s.group? g).isSome
  member : ∀ {g u m}, s.member? g u = some m → (s.group? g).isSome

theorem rooted_empty : Rooted empty := by
  constructor
  · intro g e i p h
    cases h
  · intro g u m h
    cases h

namespace Rooted

theorem of_storesProposal (hr : Rooted s) {p : MlsProposal} (h : StoresProposal s s' room p)
    (hm : ∀ g u m, s'.member? g u = some m → g = p.groupID ∨ (s.member? g u).isSome) :
    Rooted s' := by
  have hgroup : ∀ g, g = p.groupID ∨ (s.group? g).isSome → (s'.group? g).isSome := by
    intro g hg
    rw [h.group]
    split_ifs with hk
    · rfl
    · exact hg.resolve_left hk
  constructor
  · intro g e i q hq
    rw [h.proposal] at hq
    split_ifs at hq with hk
    · exact hgroup g (.inl hk.1)
    · exact hgroup g (.inr (hr.proposal hq))
  · intro g u m hmem
    rcases hm g u m hmem with hg | hold
    · exact hgroup g (.inl hg)
    · obtain ⟨m', hm'⟩ := Option.isSome_iff_exists.1 hold
      exact hgroup g (.inr (hr.member hm'))

theorem of_logsCommit (hr : Rooted s) {r : MlsEpoch} (h : LogsCommit s s' room r)
    (hm : ∀ g u m, s'.member? g u = some m → (s.member? g u).isSome) : Rooted s' := by
  have hgroup : ∀ g, (s.group? g).isSome → (s'.group? g).isSome := by
    intro g hg
    rw [h.group]
    split_ifs
    · rfl
    · exact hg
  constructor
  · intro g e i q hq
    rw [proposal?_congr h.proposals] at hq
    exact hgroup g (hr.proposal hq)
  · intro g u m hmem
    obtain ⟨m', hm'⟩ := Option.isSome_iff_exists.1 (hm g u m hmem)
    exact hgroup g (hr.member hm')

theorem of_storesWelcome (hr : Rooted s) {w : MlsWelcome} (h : StoresWelcome s s' room w) :
    Rooted s' := by
  constructor
  · intro g e i q hq
    rw [proposal?_congr h.proposals] at hq
    exact h.extends.group (hr.proposal hq)
  · intro g u m hmem
    rw [member?_congr h.members] at hmem
    exact h.extends.group (hr.member hmem)

theorem of_acceptsWelcome (hr : Rooted s) {w : MlsWelcome} (h : AcceptsWelcome s s' w) :
    Rooted s' := by
  constructor
  · intro g e i q hq
    rw [proposal?_congr h.proposals] at hq
    exact h.extends.group (hr.proposal hq)
  · intro g u m hmem
    rw [h.member] at hmem
    split_ifs at hmem with hk
    · obtain ⟨r, hrow, -⟩ := h.current
      rw [← hk.1] at hrow
      exact h.extends.group (Option.isSome_iff_exists.2 ⟨r, hrow⟩)
    · exact h.extends.group (hr.member hmem)

theorem of_effect (hr : Rooted s) {op : MlsOp} (h : MlsEffect s s' op) : Rooted s' := by
  cases h with
  | unchanged h => exact h ▸ hr
  | proposed h _ hm =>
    refine hr.of_storesProposal h fun g u m hmem => .inr ?_
    rw [member?_congr hm] at hmem
    rw [hmem]
    rfl
  | proposedForMember _ _ h =>
    refine hr.of_storesProposal h.stores fun g u m hmem => ?_
    rcases h.members with hc | hm
    · rw [hc.member] at hmem
      split_ifs at hmem with hk
      · exact .inl hk.1
      · exact .inr (Option.isSome_iff_exists.2 ⟨m, hmem⟩)
    · rw [member?_congr hm] at hmem
      exact .inr (Option.isSome_iff_exists.2 ⟨m, hmem⟩)
  | committed h hm =>
    refine hr.of_logsCommit h fun g u m hmem => ?_
    rw [member?_congr hm] at hmem
    exact Option.isSome_iff_exists.2 ⟨m, hmem⟩
  | committedForMember _ h =>
    refine hr.of_logsCommit h.logs fun g u m hmem => ?_
    rcases h.members with ⟨-, hm⟩ | ⟨-, hremoves⟩
    · rw [member?_congr hm] at hmem
      exact Option.isSome_iff_exists.2 ⟨m, hmem⟩
    · rw [hremoves g u] at hmem
      split_ifs at hmem with hk
      · obtain ⟨rfl, rfl⟩ := hk
        obtain ⟨m', hm', -⟩ := Option.map_eq_some_iff.1 hmem
        exact Option.isSome_iff_exists.2 ⟨m', hm'⟩
      · exact Option.isSome_iff_exists.2 ⟨m, hmem⟩
  | welcomed h _ => exact hr.of_storesWelcome h
  | welcomedForMember h => exact hr.of_storesWelcome h.stores
  | accepted h _ => exact hr.of_acceptsWelcome h

section Absent

variable (hr : Rooted s) (hg : s.group? g = none)

include hr hg

theorem proposal?_eq_none (e : ℤ) (i : String) : s.proposal? g e i = none := by
  by_contra hne
  obtain ⟨p, hp⟩ := Option.ne_none_iff_exists'.1 hne
  have := hr.proposal hp
  rw [hg] at this
  cases this

theorem isActive_eq_false (u : String) : s.isActive g u = false := by
  by_contra hne
  rw [Bool.not_eq_false, isActive_iff] at hne
  obtain ⟨m, hm, -⟩ := hne
  have := hr.member hm
  rw [hg] at this
  cases this

theorem not_mem_proposals (p : MlsProposal) (hp : p ∈ s.proposals.rows) : p.groupID ≠ g := by
  rintro rfl
  have hrow := Table.lookup_of_mem clash_of_key s.proposals hp
  have hnone := hr.proposal?_eq_none hg p.epoch p.proposalID
  unfold proposal? at hnone
  rw [MlsProposal.key] at hrow
  rw [hrow] at hnone
  cases hnone

theorem proposalByDigest?_eq_none (e : ℤ) (digest : String) :
    s.proposalByDigest? g e digest = none := by
  by_contra hne
  obtain ⟨p, hp⟩ := Option.ne_none_iff_exists'.1 hne
  have hkey := Table.key_of_lookup hp
  simp only [MlsProposal.digestKey, Prod.mk.injEq] at hkey
  exact hr.not_mem_proposals hg p (Table.mem_of_lookup hp) hkey.1

theorem hasPendingMLSWelcome_eq_false : s.hasPendingMLSWelcome g = false := by
  rw [Bool.eq_false_iff]
  intro hpending
  unfold hasPendingMLSWelcome at hpending
  simp only [List.any_eq_true, Bool.and_eq_true, beq_iff_eq] at hpending
  obtain ⟨w, -, ⟨hw, -⟩, p, hp, ⟨⟨hpg, -⟩, -⟩, -⟩ := hpending
  exact hr.not_mem_proposals hg p hp (hpg.trans hw)

/-- A commit is never the first row of a group: it needs a proposal. -/
theorem not_logsCommit {r : MlsEpoch} (hgr : r.groupID = g) : ¬ LogsCommit s s' room r := by
  intro h
  obtain ⟨i, p, hp⟩ := hasProposal_iff.1 h.proposed
  rw [hgr, hr.proposal?_eq_none hg] at hp
  cases hp

/-- The strict proposal that opens a group removes its sender or adds somebody else. -/
theorem removes_iff {sender : String} {p : MlsProposal} (hpg : p.groupID = g)
    (h : ProposesForMember s s' room sender p) : p.targetCode = sender ↔ p.action = .remove := by
  rcases h.members with hc | hm
  · have hactive : ∀ u, s'.isActive p.groupID u = true ↔ u = sender := by
      intro u
      have hnone : s.member? p.groupID u = none := by
        by_contra hne
        obtain ⟨m, hm⟩ := Option.ne_none_iff_exists'.1 hne
        have := hr.member hm
        rw [hpg, hg] at this
        cases this
      rw [isActive_iff, hc.member]
      by_cases hu : u = sender
      · rw [if_pos ⟨rfl, hu⟩, hnone]
        simp [hu]
      · rw [if_neg fun hk => hu hk.2, hnone]
        simp [hu]
    rw [← hactive, h.target]
  · -- without the creator nobody is active, not even the sender
    have hsender := h.sender_active
    rw [isActive_congr (fun g u => member?_congr hm g u), hpg, hr.isActive_eq_false hg] at hsender
    cases hsender

end Absent

end Rooted

/-! ### The room of a new row -/

theorem epoch_lt_of_proposed {sha256Hex : String → String}
    {sender action target pid proposal : String} {e : UInt64}
    {x : Bool × MlsGroupMembership × MlsStore}
    (h : s.saveMLSProposalForMember sha256Hex g room sender action target e pid proposal = .ok x) :
    e.toNat < 2 ^ 63 := by
  simp only [saveMLSProposalForMember, bind_eq_ok] at h
  obtain ⟨-, -, -, -, -, -, -, -, -, -, -, -, -, -, n, hn, -⟩ := h
  unfold mlsEpochValue at hn
  split at hn
  · cases hn
  · omega

theorem filledRoom_of_none (hg : s.group? g = none) : s.filledRoom g room = room := by
  unfold filledRoom openedGroup
  rw [hg]
  simp

theorem StoresProposal.room_of_opens {g' room' : String} {p : MlsProposal}
    (h : StoresProposal s s' room p) (ho : OpensGroup s s' g' room') :
    g' = p.groupID ∧ room' = room := by
  obtain ⟨r, hr, rfl⟩ := ho.opened
  rw [h.group] at hr
  split_ifs at hr with hk
  · cases hr
    exact ⟨hk, rfl⟩
  · rw [ho.fresh] at hr
    cases hr

theorem StoresWelcome.room_of_opens {g' room' : String} {w : MlsWelcome}
    (h : StoresWelcome s s' room w) (ho : OpensGroup s s' g' room') :
    g' = w.groupID ∧ room' = room := by
  obtain ⟨r, hr, rfl⟩ := ho.opened
  rw [h.group] at hr
  split_ifs at hr with hk
  · cases hr
    refine ⟨hk, ?_⟩
    unfold openedGroup
    rw [ho.fresh]
    rfl
  · rw [ho.fresh] at hr
    cases hr

theorem LogsCommit.group_of_opens {g' room' : String} {r : MlsEpoch}
    (h : LogsCommit s s' room r) (ho : OpensGroup s s' g' room') : g' = r.groupID := by
  obtain ⟨r', hr', -⟩ := ho.opened
  rw [h.group] at hr'
  split_ifs at hr' with hk
  · exact hk
  · rw [ho.fresh] at hr'
    cases hr'

/-- The strict operation opens a group for a creator that removes itself. -/
theorem saveMLSProposalForMember_opens (sha256Hex : String → String) (hr : Rooted s)
    {sender pid proposal : String} {e : UInt64} (hg : validateMLSGroupID g = .ok ())
    (hroom : validateRoomName room = .ok ()) (hsender : normalizeUserCode sender = .ok sender)
    (hpid : validProposalID pid = true)
    (hproposal : validateOpaqueMLS "MLS group proposal" proposal = .ok ())
    (he : e.toNat < 2 ^ 63) (hfresh : s.group? g = none) :
    ∃ ms s', s.saveMLSProposalForMember sha256Hex g room sender "remove" sender e pid proposal =
      .ok (true, ms, s') ∧ OpensGroup s s' g room := by
  have hvalue : mlsEpochValue e = .ok (e.toNat : ℤ) := by
    unfold mlsEpochValue
    rw [if_neg (by omega)]
  obtain ⟨groups, hgroups⟩ : ∃ t, s.groups.insert? ⟨g, room, -1⟩ = some t := by
    refine Table.insert?_isSome fun a ha => ?_
    have hne := Table.lookup_eq_none hfresh a ha
    exact ⟨decide_eq_false hne, decide_eq_false fun heq => hne heq.symm⟩
  obtain ⟨opened, hopened⟩ : ∃ o : MlsStore, o = { s with groups } := ⟨_, rfl⟩
  have hopen : s.openGroup g room (some e.toNat) .errMLSProposalConflict "create MLS group" =
      .ok opened := by
    unfold openGroup
    rw [hfresh, hopened]
    exact bind_eq_ok.2 ⟨groups, insertOr_eq_ok.2 hgroups, rfl⟩
  have hcalm : opened.hasPendingMLSWelcome g = false := by
    rw [hopened]
    exact hr.hasPendingMLSWelcome_eq_false hfresh
  have hcreator : opened.withCreator none g sender = opened.initializeCreator g sender := by
    have hempty : opened.mlsGroupMembers g = [] := by
      rw [hopened]
      exact mlsGroupMembers_eq_nil.2 fun u => hr.isActive_eq_false hfresh u
    unfold withCreator
    rw [hempty]
    rfl
  obtain ⟨joined, hjoined⟩ : ∃ j, j = opened.initializeCreator g sender := ⟨_, rfl⟩
  have hactive : joined.isActive g sender = true := by
    rw [hjoined, isActive_iff, member?_initializeCreator, if_pos ⟨rfl, rfl⟩]
    refine ⟨_, rfl, ?_⟩
    cases opened.member? g sender <;> rfl
  have htable : joined.proposals = s.proposals ∧ joined.groups = groups := by
    rw [hjoined, hopened]
    exact ⟨rfl, rfl⟩
  obtain ⟨proposals, hproposals⟩ : ∃ t, joined.proposals.insert? ⟨g, e.toNat, pid, proposal,
      sha256Hex proposal, .remove, sender, joined.mlsGroupMembers g⟩ = some t := by
    rw [htable.1]
    refine Table.insert?_isSome fun p hp => ?_
    have hne := hr.not_mem_proposals hfresh p hp
    simp [MlsProposal.clash, Table.keyClash, MlsProposal.key, MlsProposal.digestKey, hne, hne.symm]
  refine ⟨⟨some .remove, sender, joined.mlsGroupMembers g⟩, { joined with proposals }, ?_, hfresh,
    ⟨g, room, -1⟩, ?_, rfl⟩
  · simp only [saveMLSProposalForMember, bind_eq_ok]
    refine ⟨(), hg, (), hroom, sender, hsender, .remove, by decide, sender, hsender, (),
      require_eq_ok.2 hpid, (), hproposal, _, hvalue, ?_⟩
    unfold saveMLSProposalForMemberTx
    rw [hr.proposal?_eq_none hfresh, hr.proposalByDigest?_eq_none hfresh]
    dsimp only
    refine bind_eq_ok.2 ⟨_, hopen, bind_eq_ok.2 ⟨(), require_eq_ok.2 (by rw [hcalm]; rfl), ?_⟩⟩
    rw [hfresh, hcreator, ← hjoined]
    refine bind_eq_ok.2 ⟨(), require_eq_ok.2 hactive, ?_⟩
    refine bind_eq_ok.2 ⟨(), require_eq_ok.2 hactive, ?_⟩
    exact bind_eq_ok.2 ⟨proposals, insertOr_eq_ok.2 hproposals, rfl⟩
  · have hrow := group?_insert hgroups g
    rw [if_pos rfl] at hrow
    unfold group?
    dsimp only
    rw [htable.2]
    exact hrow

end MlsStore

namespace Hub

open Registry MlsStore

variable {h : Hub} {g room : String}

/-! ### The handlers -/

/-- The frame is a proposal by which its client removes itself, and the server can store it. -/
structure SelfRemoval (h : Hub) (env : Env) (c : ClientID) (obj : Client) (m : Message) : Prop where
  ready : h.serviceReady c = true
  works : env.fails .mlsProposal = false
  type : m.type = .mlsGroupProposal
  epoch : m.epoch.toNat < 2 ^ 63
  action : m.action = "remove"
  target : normalizeUserCode m.targetUserCode = .ok obj.normalizedCode

/-- The frame opens the group in a room of its client, or the client removes itself from it. -/
structure OpenedBy (h : Hub) (env : Env) (c : ClientID) (obj : Client) (m : Message)
    (g room : String) : Prop where
  group_eq : g = m.groupID
  room_eq : room = requestRoom m.room obj
  present : h.registry.inRoom room c = true ∨ SelfRemoval h env c obj m

/-- A client that may act on somebody else is in the room. -/
theorem inRoom_of_canAccess {env : Env} {c : ClientID} {obj : Client} {target : String}
    (ha : h.canAccessMLSRoom env c obj target room = true) (hne : target ≠ obj.normalizedCode) :
    h.registry.inRoom room c = true := by
  unfold canAccessMLSRoom at ha
  split at ha
  · cases ha
  split at ha
  · cases ha
  split at ha
  · cases ha
  by_contra hin
  rw [Bool.not_eq_true] at hin
  rw [hin] at ha
  cases ha

section Handlers

variable (hroot : Rooted h.db.mls) (platform : Platform) (env : Env) (c : ClientID) {obj : Client}
  {m : Message} (hobj : h.registry.client? c = some obj)

include hroot hobj

theorem not_opens_handleMLSGroupCommit :
    ¬ OpensGroup h.db.mls (h.handleMLSGroupCommit env c
      ⟨m.groupID, m.room, m.epoch, m.commit, m.proposalID, m.commandID⟩).db.mls g room := by
  unfold handleMLSGroupCommit
  rw [hobj]
  dsimp only
  split
  · exact not_opensGroup_of_eq rfl
  split
  · unfold commitForMember
    dsimp only
    split
    · exact not_opensGroup_of_eq rfl
    rename_i inserted membership mls hcall
    obtain ⟨sender, -, ⟨-, rfl, -⟩ | ⟨-, p, -, hq⟩⟩ :=
      saveMLSCommitForMember_ok (call_eq_ok.1 hcall).2
    · exact not_opensGroup_of_eq rfl
    · intro ho
      exact hroot.not_logsCommit ho.fresh (hq.logs.group_of_opens ho).symm hq.logs
  · unfold commitLegacy
    dsimp only
    split
    · exact not_opensGroup_of_eq rfl
    split
    · exact not_opensGroup_of_eq rfl
    rename_i inserted mls hcall
    rcases saveMLSCommit_ok (call_eq_ok.1 hcall).2 with ⟨-, rfl, -⟩ | ⟨-, -, hq⟩
    · exact not_opensGroup_of_eq rfl
    · intro ho
      exact hroot.not_logsCommit ho.fresh (hq.group_of_opens ho).symm hq

theorem opens_handleMLSGroupProposal (hs : Sound h.registry) (ht : m.type = .mlsGroupProposal)
    (haction : m.action = "" ∨ m.action = "add" ∨ m.action = "remove")
    (ho : OpensGroup h.db.mls (h.handleMLSGroupProposal platform env c ⟨m.groupID, m.room, m.epoch,
      m.proposalID, m.action, m.targetUserCode, m.proposal, m.commandID⟩).db.mls g room) :
    OpenedBy h env c obj m g room := by
  unfold handleMLSGroupProposal at ho
  rw [hobj] at ho
  dsimp only at ho
  split at ho
  · exact absurd ho (not_opensGroup_of_eq rfl)
  rename_i hready
  split at ho
  · unfold proposeForMember at ho
    dsimp only at ho
    split at ho
    · exact absurd ho (not_opensGroup_of_eq rfl)
    rename_i target htarget
    split at ho
    · exact absurd ho (not_opensGroup_of_eq rfl)
    rename_i haccess
    split at ho
    · exact absurd ho (not_opensGroup_of_eq rfl)
    rename_i inserted membership mls hcall
    obtain ⟨sender, action, target', hsender, ha, ht', ⟨-, rfl⟩ |
        ⟨-, q, hg, -, -, -, hqa, hqt, -, hq⟩⟩ :=
      saveMLSProposalForMember_ok (call_eq_ok.1 hcall).2
    · exact absurd ho (not_opensGroup_of_eq rfl)
    obtain rfl : target' = target := by
      have hidem := normalizeUserCode_idem htarget
      rw [ht'] at hidem
      exact Except.ok.inj hidem
    obtain rfl : sender = obj.normalizedCode := by
      have hcode := normalizeUserCode_idem (hs.valid obj (client?_mem hobj)).code
      rw [hsender] at hcode
      exact Except.ok.inj hcode
    have ho' : OpensGroup h.db.mls mls g room := ho
    obtain ⟨hgroup, hroom⟩ := hq.stores.room_of_opens ho'
    have hfresh : h.db.mls.group? q.groupID = none := hgroup ▸ ho'.fresh
    have hroom' : room = requestRoom m.room obj := by
      rw [hroom]
      unfold openedGroup
      rw [hfresh]
      rfl
    have hiff := hroot.removes_iff hfresh rfl hq
    rw [hqa, hqt] at hiff
    refine ⟨hgroup.trans hg, hroom', ?_⟩
    by_cases hself : target' = obj.normalizedCode
    · right
      rw [hiff.1 hself] at ha
      have hremove : m.action = "remove" := by
        rcases haction with hnone | hadd | hremove
        · rw [hnone] at ha
          cases ha
        · rw [hadd] at ha
          cases ha
        · exact hremove
      exact ⟨by simpa using hready, (call_eq_ok.1 hcall).1, ht,
        epoch_lt_of_proposed (call_eq_ok.1 hcall).2, hremove, hself ▸ htarget⟩
    · left
      have hadd : m.action = "add" := by
        rcases haction with hnone | hadd | hremove
        · rw [hnone] at ha
          cases ha
        · exact hadd
        · rw [hremove] at ha
          cases ha
          exact absurd (hiff.2 rfl) hself
      rw [hroom']
      exact inRoom_of_canAccess (by simpa [hadd] using haccess) hself
  · unfold proposeLegacy at ho
    dsimp only at ho
    split at ho
    · exact absurd ho (not_opensGroup_of_eq rfl)
    rename_i haccess
    split at ho
    · exact absurd ho (not_opensGroup_of_eq rfl)
    rename_i inserted mls hcall
    rcases saveMLSProposal_ok (call_eq_ok.1 hcall).2 with ⟨-, rfl⟩ | ⟨-, -, hq⟩
    · exact absurd ho (not_opensGroup_of_eq rfl)
    have ho' : OpensGroup h.db.mls mls g room := ho
    obtain ⟨hgroup, hroom⟩ := hq.room_of_opens ho'
    have hfresh : h.db.mls.group? m.groupID = none := by
      rw [← show g = m.groupID from hgroup]
      exact ho'.fresh
    rw [filledRoom_of_none hfresh] at hroom
    refine ⟨hgroup, hroom, .inl ?_⟩
    rw [hroom]
    simp only [Bool.or_eq_true, Bool.not_eq_true', not_or, Bool.not_eq_false] at haccess
    exact haccess.2

end Handlers

theorem opens_handleMLSGroupWelcome (platform : Platform) (env : Env) (c : ClientID) {obj : Client}
    {m : Message} (hobj : h.registry.client? c = some obj) (targetCode : String)
    (ho : OpensGroup h.db.mls (h.handleMLSGroupWelcome platform env c ⟨m.groupID, m.room, m.epoch,
      m.proposalID, m.welcomeDigest, targetCode, m.welcome, m.commandID⟩).db.mls g room) :
    OpenedBy h env c obj m g room := by
  unfold handleMLSGroupWelcome at ho
  rw [hobj] at ho
  dsimp only at ho
  split at ho
  · exact absurd ho (not_opensGroup_of_eq rfl)
  split at ho
  · exact absurd ho (not_opensGroup_of_eq rfl)
  split at ho
  · unfold welcomeForMember at ho
    dsimp only at ho
    split at ho
    · exact absurd ho (not_opensGroup_of_eq rfl)
    split at ho
    · exact absurd ho (not_opensGroup_of_eq rfl)
    rename_i inserted mls hcall
    rcases saveMLSWelcomeForMember_ok (call_eq_ok.1 hcall).2 with
      ⟨-, rfl⟩ | ⟨-, sender, target, p, r, -, -, hq⟩
    · exact absurd ho (not_opensGroup_of_eq rfl)
    · -- a strict welcome needs the row that it would open
      have ho' : OpensGroup h.db.mls mls g room := ho
      obtain ⟨gr, hgr, -⟩ := hq.current
      have hgroup : g = m.groupID := (hq.stores.room_of_opens ho').1
      have hfresh := ho'.fresh
      rw [hgroup] at hfresh
      rw [hfresh] at hgr
      cases hgr
  · unfold welcomeLegacy at ho
    dsimp only at ho
    split at ho
    · exact absurd ho (not_opensGroup_of_eq rfl)
    rename_i haccess
    split at ho
    · exact absurd ho (not_opensGroup_of_eq rfl)
    rename_i inserted mls hcall
    rcases saveMLSWelcome_ok (call_eq_ok.1 hcall).2 with ⟨-, rfl⟩ | ⟨-, t, -, hq⟩
    · exact absurd ho (not_opensGroup_of_eq rfl)
    have ho' : OpensGroup h.db.mls mls g room := ho
    obtain ⟨hgroup, hroom⟩ := hq.room_of_opens ho'
    refine ⟨hgroup, hroom, .inl ?_⟩
    rw [hroom]
    simp only [Bool.or_eq_true, Bool.not_eq_true', not_or, Bool.not_eq_false] at haccess
    exact haccess.2

theorem not_opens_handleMLSGroupWelcomeAccept (env : Env) (c : ClientID)
    (q : AcceptRequest) :
    ¬ OpensGroup h.db.mls (h.handleMLSGroupWelcomeAccept env c q).db.mls g room := by
  unfold handleMLSGroupWelcomeAccept
  split
  · exact not_opensGroup_of_eq rfl
  split
  · exact not_opensGroup_of_eq rfl
  dsimp only
  split
  · exact not_opensGroup_of_eq rfl
  split
  · exact not_opensGroup_of_eq rfl
  split
  · exact not_opensGroup_of_eq rfl
  rename_i accepted mls hcall
  rcases acceptMLSWelcomeForMember_ok (call_eq_ok.1 hcall).2 with
    ⟨-, rfl⟩ | ⟨-, w, -, -, -, -, -, hq⟩
  · exact not_opensGroup_of_eq rfl
  · exact not_opensGroup_of_eq (hq.group? g)

/-! ### Every event -/

/-- What `validateMessage` lets through of a proposal. -/
structure ValidProposal (m : Message) : Prop where
  commandID : m.commandID.utf8ByteSize ≤ maxCommandIDSize
  groupID : validateMLSGroupID m.groupID = .ok ()
  proposalID : validProposalID m.proposalID = true
  room : validateOptionalRoom m.room = .ok ()
  action : m.action = "" ∨ m.action = "add" ∨ m.action = "remove"
  proposal : validateOpaqueMLS "MLS group proposal" m.proposal = .ok ()

theorem proposal_of_valid {m : Message} (ht : m.type = .mlsGroupProposal)
    (hvalid : validateMessage m = .ok ()) : ValidProposal m := by
  have hfail : ∀ (text : String) (rest : Except GoError Unit),
      (fail text >>= fun _ => rest) ≠ .ok () := by
    intro text rest hok
    obtain ⟨_, hf, -⟩ := bind_eq_ok.1 hok
    cases hf
  unfold validateMessage at hvalid
  rw [ht] at hvalid
  split at hvalid
  · cases hvalid
  rename_i hsize
  simp only [bind_eq_ok] at hvalid
  obtain ⟨_, hgroup, hvalid⟩ := hvalid
  split at hvalid
  · exact absurd hvalid (hfail _ _)
  rename_i hpid
  obtain ⟨_, hroom, hvalid⟩ := bind_eq_ok.1 hvalid
  split at hvalid
  · exact absurd hvalid (hfail _ _)
  rename_i haction
  refine ⟨not_lt.1 hsize, hgroup, by simpa using hpid, hroom, ?_, ?_⟩
  · by_contra hne
    push Not at hne
    exact haction hne
  · split at hvalid
    · obtain ⟨_, -, hproposal⟩ := bind_eq_ok.1 hvalid
      exact hproposal
    · exact hvalid

/-- A group row that appears is bound to the room that its request names; the request is a frame
that passes `validateMessage`, and the rate limiter when it is a proposal. -/
theorem opensGroup_step (platform : Platform) (hs : Sound h.registry) (hroot : Rooted h.db.mls)
    (e : Event) (ho : OpensGroup h.db.mls (step platform h e).db.mls g room) :
    ∃ c obj m limited muted, e.input = .frame c m limited muted ∧
      h.registry.client? c = some obj ∧ h.readsFrames c = true ∧
      (m.type = .mlsGroupProposal → limited = false) ∧ validateMessage m = .ok () ∧
      OpenedBy h e.env c obj m g room := by
  rcases step_mls platform hs e with hkeeps | ⟨c, obj, m, op, hframe, hop, heq⟩
  · obtain ⟨keyPackages, hmls⟩ := hkeeps
    refine absurd ho (not_opensGroup_of_eq ?_)
    rw [hmls]
    rfl
  obtain ⟨⟨limited, muted, hinput⟩, hobj⟩ := hframe
  refine ⟨c, obj, m, limited, muted, hinput, hobj, ?_⟩
  simp only [step, hinput] at ho
  unfold readPump at ho
  rw [hobj] at ho
  dsimp only at ho
  split at ho
  · exact absurd rfl ho.ne
  rename_i hreads
  split at ho
  · exact absurd rfl ho.ne
  split at ho
  · exact absurd rfl ho.ne
  rename_i hlimited
  have hready : h.readsFrames c = true := by
    unfold readsFrames
    rw [hobj, Option.any_some]
    simpa [and_assoc] using hreads
  unfold dispatch validated at ho
  have htype : m.type = .mlsGroupCommit ∨ m.type = .mlsGroupProposal ∨
      m.type = .mlsGroupWelcome ∨ m.type = .mlsGroupWelcomeAccept := by
    cases hop with
    | commitForMember room ht _ => exact .inl ht
    | commit room ht _ => exact .inl ht
    | proposeForMember room target ht => exact .inr (.inl ht)
    | propose room ht => exact .inr (.inl ht)
    | welcomeForMember room target ht => exact .inr (.inr (.inl ht))
    | welcome room target ht => exact .inr (.inr (.inl ht))
    | accept room target ht => exact .inr (.inr (.inr ht))
  rcases htype with ht | ht | ht | ht
  all_goals
    rw [ht] at ho
    dsimp only at ho
    split at ho
    case isFalse => exact absurd rfl ho.ne
    rename_i hvalid
    rw [isOk_iff] at hvalid
  · exact absurd ho (not_opens_handleMLSGroupCommit hroot e.env c hobj)
  · refine ⟨hready, fun _ => ?_, hvalid, opens_handleMLSGroupProposal hroot platform e.env c hobj hs
      ht (proposal_of_valid ht hvalid).action ho⟩
    by_contra hlim
    exact hlimited ⟨by simpa using hlim, by simp [ht], by simp [ht], by simp [ht]⟩
  · exact ⟨hready, fun hp => absurd (ht.symm.trans hp) (by simp), hvalid,
      opens_handleMLSGroupWelcome platform e.env c hobj _ ho⟩
  · exact absurd ho (not_opens_handleMLSGroupWelcomeAccept e.env c _)

/-! ### A client that removes itself from a group that nobody has opened -/

/-- The server takes a frame by which a client outside the room removes itself from a group without
a row. -/
structure RemovesSelfOutside (h : Hub) (e : Event) (c : ClientID) (obj : Client) (m : Message) :
    Prop where
  input : ∃ muted, e.input = .frame c m false muted
  client : h.registry.client? c = some obj
  reads : h.readsFrames c = true
  valid : (validateMessage m).isOk = true
  removal : SelfRemoval h e.env c obj m
  fresh : h.db.mls.group? m.groupID = none
  outside : h.registry.inRoom (requestRoom m.room obj) c = false

theorem RemovesSelfOutside.opens (platform : Platform) (hs : Sound h.registry)
    (hroot : Rooted h.db.mls) {e : Event} {c : ClientID} {obj : Client} {m : Message}
    (hx : RemovesSelfOutside h e c obj m) :
    OpensGroup h.db.mls (step platform h e).db.mls m.groupID (requestRoom m.room obj) := by
  obtain ⟨muted, hinput⟩ := hx.input
  have hrequest := hx.removal
  have hvalid := proposal_of_valid hrequest.type (isOk_iff.1 hx.valid)
  -- the session is in its own room, so the frame names another one
  have hne : m.room ≠ "" := by
    intro hempty
    have hconnected : c ∈ h.registry.clients := by
      have hready := hrequest.ready
      unfold serviceReady at hready
      rw [Bool.and_eq_true] at hready
      exact isConnected_iff.1 hready.1
    obtain ⟨obj', hobj', -, hmem⟩ := hs.online c hconnected
    rw [hx.client] at hobj'
    obtain rfl := Option.some.inj hobj'
    have hout := hx.outside
    unfold requestRoom inRoom at hout
    rw [if_pos hempty] at hout
    rw [← Bool.not_eq_true] at hout
    exact hout (List.contains_iff_mem.2 hmem)
  have hroomEq : requestRoom m.room obj = m.room := if_neg hne
  have hroom : validateRoomName m.room = .ok () := by
    have hoptional := hvalid.room
    unfold validateOptionalRoom at hoptional
    rwa [if_neg hne] at hoptional
  have hself := normalizeUserCode_idem hrequest.target
  obtain ⟨ms, s', hsave, hopens⟩ := saveMLSProposalForMember_opens platform.sha256Hex hroot
    hvalid.groupID hroom hself hvalid.proposalID hvalid.proposal hrequest.epoch hx.fresh
  have hstep : (step platform h e).db.mls = s' := by
    simp only [step, hinput]
    rw [readPump_of_ready hx.reads hx.client hvalid.commandID]
    unfold dispatch validated
    rw [hrequest.type]
    dsimp only
    rw [if_pos hx.valid]
    unfold handleMLSGroupProposal
    rw [hx.client]
    dsimp only
    rw [if_neg (by simp [hrequest.ready]), if_pos (.inl (by simp [hrequest.action]))]
    unfold proposeForMember
    dsimp only
    rw [hrequest.target]
    dsimp only
    rw [if_neg (by simp [hrequest.action]), hroomEq, hrequest.action, hsave]
    unfold Env.call
    rw [hrequest.works]
    rfl
  rw [hstep, hroomEq]
  exact hopens

/-! ### Every reachable state -/

theorem rooted_run (platform : Platform) (adminCode : String) (offlineStore : Bool)
    (es : List Event) : Rooted (after platform adminCode offlineStore es).db.mls := by
  have hstep : ∀ (h : Hub) (e : Event), Sound h.registry ∧ Rooted h.db.mls →
      Sound (step platform h e).registry ∧ Rooted (step platform h e).db.mls := by
    rintro h e ⟨hs, hroot⟩
    refine ⟨sound_step platform h e hs, ?_⟩
    rcases step_mls platform hs e with ⟨kp, hkeeps⟩ | ⟨c, obj, m, op, -, -, heq⟩
    · rw [hkeeps]
      exact ⟨hroot.proposal, hroot.member⟩
    · rw [heq]
      exact hroot.of_effect (apply_effect _ op)
  exact (run_invariant _ hstep ⟨sound_start adminCode offlineStore, rooted_empty⟩ es).2

/-- In every reachable state, each group row that an event stores is bound to a room that the sender
is in, unless the event is a proposal by which a client outside the room removes itself from a group
without a row. -/
theorem group_creation_present (platform : Platform) (adminCode : String) (offlineStore : Bool)
    (es : List Event) (e : Event) :
    let h := after platform adminCode offlineStore es
    (∀ g room, OpensGroup h.db.mls (step platform h e).db.mls g room →
        ∃ c obj m, FrameOf h e c obj m ∧ h.registry.inRoom room c = true) ↔
      ¬ ∃ c obj m, RemovesSelfOutside h e c obj m := by
  intro h
  have hs : Sound h.registry := sound_run platform adminCode offlineStore es
  have hroot : Rooted h.db.mls := rooted_run platform adminCode offlineStore es
  constructor
  · rintro hpresent ⟨c, obj, m, hx⟩
    obtain ⟨c', obj', m', ⟨⟨limited, muted, hinput⟩, -⟩, hin⟩ :=
      hpresent _ _ (hx.opens platform hs hroot)
    obtain ⟨muted', hinput'⟩ := hx.input
    rw [hinput'] at hinput
    cases hinput
    rw [hx.outside] at hin
    cases hin
  · intro hnone g room ho
    obtain ⟨c, obj, m, limited, muted, hinput, hobj, hready, hlimited, hvalid, hby⟩ :=
      opensGroup_step platform hs hroot e ho
    refine ⟨c, obj, m, ⟨⟨limited, muted, hinput⟩, hobj⟩, ?_⟩
    rcases hby.present with hin | hremoval
    · exact hin
    · by_contra hout
      obtain rfl := hlimited hremoval.type
      refine hnone ⟨c, obj, m, ⟨muted, hinput⟩, hobj, hready, isOk_iff.2 hvalid, hremoval, ?_, ?_⟩
      · rw [← hby.group_eq]
        exact ho.fresh
      · rw [← hby.room_eq]
        simpa using hout

/-- Bob owns the private channel `den`; Alice is in the lobby. -/
def bobsDen : List Event :=
  sessionEvents 0 "Alice" "alice" ++ sessionEvents 1 "Bob" "bob" ++
    [frameEvent 1 { type := .roomCreate, room := "den", isPrivate := true }]

/-- Alice claims a group id for Bob's channel. -/
def aliceClaims : Event :=
  frameEvent 0 { type := .mlsGroupProposal, groupID := "g", room := "den", proposalID := "p"
                 action := "remove", targetUserCode := "alice", proposal := "cHJvcG9zYWw=" }

/-- A client outside a private channel stores a group row that is bound to it. -/
theorem outsider_opens_group :
    ¬ ∀ g room, OpensGroup (after samplePlatform "" true bobsDen).db.mls
      (step samplePlatform (after samplePlatform "" true bobsDen) aliceClaims).db.mls g room →
        ∃ c obj m, FrameOf (after samplePlatform "" true bobsDen) aliceClaims c obj m ∧
          (after samplePlatform "" true bobsDen).registry.inRoom room c = true := by
  intro hpresent
  have hfresh : (after samplePlatform "" true bobsDen).db.mls.group? "g" = none := by decide +kernel
  have hopened : (step samplePlatform (after samplePlatform "" true bobsDen)
      aliceClaims).db.mls.group? "g" = some ⟨"g", "den", -1⟩ := by decide +kernel
  have houtside : (after samplePlatform "" true bobsDen).registry.inRoom "den" 0 = false := by
    decide +kernel
  obtain ⟨c, obj, m, ⟨⟨limited, muted, hinput⟩, -⟩, hin⟩ :=
    hpresent "g" "den" ⟨hfresh, _, hopened, rfl⟩
  cases hinput
  rw [houtside] at hin
  cases hin

end Hub

end LanChat
