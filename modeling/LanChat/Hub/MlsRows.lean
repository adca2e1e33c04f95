import LanChat.Hub.MlsLog
import LanChat.Hub.Places

/-!
# Where the rows of the MLS tables come from

* `proposal_step`, `epoch_step`: a new row is what a frame of its type asked for;
* `welcome_isSome_step`: a welcome that is stored stays;
* `welcomeChecks`, `welcome_stored`: the checks that a welcome frame of a committed add passes on its
  way to the table.
-/

namespace LanChat

open GoStrings EventMachine

namespace MlsStore

variable {s s' : MlsStore}

theorem MlsEffect.welcome_isSome {op : MlsOp} (h : MlsEffect s s' op) {g u : String} {e : ℤ}
    (hw : (s.welcome? g e u).isSome) : (s'.welcome? g e u).isSome := by
  cases h with
  | unchanged h => rwa [h]
  | proposed h _ _ => rwa [welcome?_congr h.welcomes]
  | proposedForMember _ _ h => rwa [welcome?_congr h.stores.welcomes]
  | committed h _ => rwa [welcome?_congr h.welcomes]
  | committedForMember _ h => rwa [welcome?_congr h.logs.welcomes]
  | welcomed h _ =>
    rw [h.welcome]
    split_ifs
    · rfl
    · exact hw
  | welcomedForMember h =>
    rw [h.stores.welcome]
    split_ifs
    · rfl
    · exact hw
  | accepted h _ =>
    rw [h.welcome]
    split_ifs
    · rfl
    · exact hw

/-- Only the two proposal operations write proposals. -/
theorem MlsEffect.proposals {op : MlsOp} (h : MlsEffect s s' op)
    (hp : ∀ g room e i p, op ≠ .saveMLSProposal g room e i p)
    (hm : ∀ g room sender a t e i p, op ≠ .saveMLSProposalForMember g room sender a t e i p) :
    s'.proposals = s.proposals := by
  cases h with
  | unchanged h => rw [h]
  | proposed h _ _ => exact absurd rfl (hp _ _ _ _ _)
  | proposedForMember _ _ h => exact absurd rfl (hm _ _ _ _ _ _ _ _)
  | committed h _ => exact h.proposals
  | committedForMember _ h => exact h.logs.proposals
  | welcomed h _ => exact h.proposals
  | welcomedForMember h => exact h.stores.proposals
  | accepted h _ => exact h.proposals

end MlsStore

namespace Hub

open Registry MlsStore

variable {h : Hub}

/-- The row is the one that the frame asks for; action and target are those of a strict frame. -/
structure ProposedBy (m : Message) (p : MlsProposal) : Prop where
  group : p.groupID = m.groupID
  epoch : p.epoch = m.epoch.toNat
  proposalID : p.proposalID = m.proposalID
  strict : m.action ≠ "" → parseAction m.action = .ok p.action ∧
    normalizeUserCode m.targetUserCode = .ok p.targetCode

theorem proposal_handleMLSGroupProposal {platform : Platform} {env : Env} {c : ClientID}
    {obj : Client} {m : Message} (hobj : h.registry.client? c = some obj) {g i : String} {n : ℤ}
    {p : MlsProposal}
    (hp : (h.handleMLSGroupProposal platform env c ⟨m.groupID, m.room, m.epoch, m.proposalID,
      m.action, m.targetUserCode, m.proposal, m.commandID⟩).db.mls.proposal? g n i = some p) :
    h.db.mls.proposal? g n i = some p ∨ ProposedBy m p := by
  unfold handleMLSGroupProposal at hp
  rw [hobj] at hp
  dsimp only at hp
  split at hp
  · exact .inl hp
  split at hp
  · unfold proposeForMember at hp
    dsimp only at hp
    split at hp
    · exact .inl hp
    rename_i target htarget
    split at hp
    · exact .inl hp
    split at hp
    · exact .inl hp
    rename_i inserted membership mls hcall
    obtain ⟨sender, action, target', -, ha, ht, ⟨-, rfl⟩ | ⟨-, q, hg, he, hi, -, hqa, hqt, -, hq⟩⟩ :=
      saveMLSProposalForMember_ok (call_eq_ok.1 hcall).2
    · exact .inl hp
    · have hmls : mls.proposal? g n i = some p := hp
      rw [hq.stores.proposal] at hmls
      split_ifs at hmls with hkey
      · cases hmls
        obtain rfl : target' = target := by
          have hidem := normalizeUserCode_idem htarget
          rw [ht] at hidem
          cases hidem
          rfl
        exact .inr ⟨hg, he, hi, fun _ => ⟨hqa ▸ ha, hqt ▸ htarget⟩⟩
      · exact .inl hmls
  · rename_i hlegacy
    unfold proposeLegacy at hp
    dsimp only at hp
    split at hp
    · exact .inl hp
    split at hp
    · exact .inl hp
    rename_i inserted mls hcall
    rcases saveMLSProposal_ok (call_eq_ok.1 hcall).2 with ⟨-, rfl⟩ | ⟨-, -, hq⟩
    · exact .inl hp
    · have hmls : mls.proposal? g n i = some p := hp
      rw [hq.proposal] at hmls
      split_ifs at hmls with hkey
      · cases hmls
        exact .inr ⟨rfl, rfl, rfl, fun hact => absurd (.inl hact) hlegacy⟩
      · exact .inl hmls

/-- A proposal is stored only for a proposal frame that asks for it. -/
theorem proposal_step (platform : Platform) (hs : Sound h.registry) (e : Event) {g i : String}
    {n : ℤ} {p : MlsProposal} (hp : (step platform h e).db.mls.proposal? g n i = some p) :
    h.db.mls.proposal? g n i = some p ∨
      ∃ c obj m, FrameOf h e c obj m ∧ m.type = .mlsGroupProposal ∧ ProposedBy m p := by
  rcases step_mls platform hs e with hkeeps | ⟨c, obj, m, op, hframe, hop, heq⟩
  · obtain ⟨keyPackages, hmls⟩ := hkeeps
    rw [hmls] at hp
    exact .inl hp
  by_cases ht : m.type = .mlsGroupProposal
  · obtain ⟨⟨limited, muted, hinput⟩, hobj⟩ := hframe
    simp only [step, hinput] at hp
    rcases readPump_cases (h := h) platform e.env c m limited muted with hquiet | ⟨obj', hobj', hd⟩
    · have hsame : (h.readPump platform e.env c m limited muted).db.mls = h.db.mls :=
        hquiet.same .mls (by simp)
      rw [hsame] at hp
      exact .inl hp
    rw [hd] at hp
    unfold dispatch at hp
    rw [ht] at hp
    dsimp only at hp
    rcases validated_cases (h := h) c m "" m.commandID (fun h =>
        h.handleMLSGroupProposal platform e.env c ⟨m.groupID, m.room, m.epoch, m.proposalID,
          m.action, m.targetUserCode, m.proposal, m.commandID⟩) with hquiet | ⟨-, hv⟩
    · have hsame := hquiet.same .mls (by simp)
      change _ = h.db.mls at hsame
      rw [hsame] at hp
      exact .inl hp
    rw [hv] at hp
    rcases proposal_handleMLSGroupProposal hobj' hp with hold | hnew
    · exact .inl hold
    · exact .inr ⟨c, obj, m, ⟨⟨limited, muted, hinput⟩, hobj⟩, ht, hnew⟩
  · -- the other operations leave the proposals alone
    have hsame : (h.db.mls.apply platform.sha256Hex op).proposals = h.db.mls.proposals := by
      refine (apply_effect _ op).proposals ?_ ?_
      · rintro g room e i p rfl
        cases hop with
        | propose room ht' => exact ht ht'
      · rintro g room sender a t e i p rfl
        cases hop with
        | proposeForMember room target ht' => exact ht ht'
    rw [heq, proposal?_congr hsame] at hp
    exact .inl hp

/-- A commit is logged only for a commit frame that asks for it; with a proposal id it names a
stored proposal. -/
theorem epoch_step (platform : Platform) (hs : Sound h.registry) (e : Event) {g : String} {n : ℤ}
    {r : MlsEpoch} (hr : (step platform h e).db.mls.epoch? g n = some r) :
    h.db.mls.epoch? g n = some r ∨
      ∃ c obj m, FrameOf h e c obj m ∧ m.type = .mlsGroupCommit ∧ g = m.groupID ∧
        n = m.epoch.toNat ∧ r.proposalID = m.proposalID ∧ r.commitData = m.commit ∧
        (m.proposalID ≠ "" → (h.db.mls.proposal? g n m.proposalID).isSome) := by
  rcases step_mls platform hs e with hkeeps | ⟨c, obj, m, op, hframe, hop, heq⟩
  · obtain ⟨keyPackages, hmls⟩ := hkeeps
    rw [hmls] at hr
    exact .inl hr
  rw [heq] at hr
  have heff : MlsEffect h.db.mls (h.db.mls.apply platform.sha256Hex op) op := apply_effect _ op
  generalize h.db.mls.apply platform.sha256Hex op = s' at heff hr
  cases heff with
  | unchanged hsame =>
    rw [hsame] at hr
    exact .inl hr
  | proposed hq _ _ =>
    rw [epoch?_congr hq.epochs] at hr
    exact .inl hr
  | proposedForMember _ _ hq =>
    rw [epoch?_congr hq.stores.epochs] at hr
    exact .inl hr
  | committed hq _ =>
    cases hop with
    | commit room ht hpid =>
      rw [hq.epoch] at hr
      split_ifs at hr with hkey
      · cases hr
        exact .inr ⟨c, obj, m, hframe, ht, hkey.1, hkey.2, hpid.symm, rfl,
          fun hne => absurd hpid hne⟩
      · exact .inl hr
  | committedForMember _ hq =>
    cases hop with
    | commitForMember room ht hpid =>
      rw [hq.logs.epoch] at hr
      split_ifs at hr with hkey
      · cases hr
        refine .inr ⟨c, obj, m, hframe, ht, hkey.1, hkey.2, rfl, rfl, fun _ => ?_⟩
        have hproposal := hq.proposal
        rw [← hkey.1, ← hkey.2] at hproposal
        rw [hproposal]
        rfl
      · exact .inl hr
  | welcomed hq _ =>
    rw [epoch?_congr hq.epochs] at hr
    exact .inl hr
  | welcomedForMember hq =>
    rw [epoch?_congr hq.stores.epochs] at hr
    exact .inl hr
  | accepted hq _ =>
    rw [epoch?_congr hq.epochs] at hr
    exact .inl hr

/-- A stored welcome stays. -/
theorem welcome_isSome_step (platform : Platform) (hs : Sound h.registry) (e : Event)
    {g u : String} {n : ℤ} (hw : (h.db.mls.welcome? g n u).isSome) :
    ((step platform h e).db.mls.welcome? g n u).isSome := by
  rcases step_mls platform hs e with hkeeps | ⟨c, obj, m, op, -, -, heq⟩
  · obtain ⟨keyPackages, hmls⟩ := hkeeps
    rw [hmls]
    exact hw
  · rw [heq]
    exact (apply_effect _ op).welcome_isSome hw

/-! ### Storing a welcome -/

/-- What the server checks on a welcome frame, apart from the committed add that it belongs to: the
frame itself, the database, access to the room, the group's room and epoch, and the sender's
membership. -/
def welcomeChecks (h : Hub) (env : Env) (c : ClientID) (m : Message) : Bool :=
  (validateMessage m).isOk && h.serviceReady c && !env.fails .mlsControlState &&
    !env.fails .mlsWelcome && decide (m.epoch.toNat < 2 ^ 63) &&
    (h.registry.client? c).any fun obj =>
      (validateRoomName (requestRoom m.room obj)).isOk &&
        h.canAccessMLSRoom env c obj (normalizedOrEmpty m.targetUserCode) (requestRoom m.room obj) &&
        (h.db.mls.group? m.groupID).any (fun g =>
          g.room == requestRoom m.room obj && g.currentEpoch == (m.epoch.toNat : ℤ)) &&
        (normalizeUserCode obj.normalizedCode).isOk &&
        h.db.mls.isActive m.groupID (normalizedOrEmpty obj.normalizedCode)

/-- The add that a welcome belongs to has been proposed and committed. -/
structure AddCommitted (s : MlsStore) (g : String) (e : ℤ) (pid target : String) : Prop where
  proposal : ∃ p, s.proposal? g e pid = some p ∧ p.action = .add ∧ p.targetCode = target
  epoch : ∃ r, s.epoch? g e = some r ∧ r.proposalID = pid

/-- The strict store operation takes the first welcome of a committed add. -/
theorem saveMLSWelcomeForMember_stores (sha256Hex : String → String) {s : MlsStore}
    {g room senderCode sender target pid welcome : String} {e : UInt64} {gr : MlsGroup}
    (hg : validateMLSGroupID g = .ok ()) (hroom : validateRoomName room = .ok ())
    (hsender : normalizeUserCode senderCode = .ok sender)
    (htarget : normalizeUserCode target = .ok target)
    (hwelcome : validateOpaqueMLS "MLS group welcome" welcome = .ok ())
    (hpid : validProposalID pid = true) (he : e.toNat < 2 ^ 63) (hgr : s.group? g = some gr)
    (hgroom : gr.room = room) (hcurrent : gr.currentEpoch = e.toNat)
    (hactive : s.isActive g sender = true) (hadd : AddCommitted s g e.toNat pid target)
    (hnone : s.welcome? g e.toNat target = none) :
    ∃ s', s.saveMLSWelcomeForMember sha256Hex g room senderCode e target pid welcome =
      .ok (true, s') ∧ (s'.welcome? g e.toNat target).isSome := by
  obtain ⟨p, hp, haction, hpt⟩ := hadd.proposal
  obtain ⟨r, hr, hrp⟩ := hadd.epoch
  have hvalue : mlsEpochValue e = .ok (e.toNat : ℤ) := by
    unfold mlsEpochValue
    rw [if_neg (by omega)]
  obtain ⟨t, ht⟩ : ∃ t, s.welcomes.insert?
      ⟨g, e.toNat, target, welcome, pid, sha256Hex welcome, false⟩ = some t := by
    refine Table.insert?_isSome fun a ha => ?_
    have hne := Table.lookup_eq_none hnone a ha
    exact ⟨decide_eq_false hne, decide_eq_false fun heq => hne heq.symm⟩
  refine ⟨{ s with welcomes := t }, ?_, ?_⟩
  · simp only [saveMLSWelcomeForMember, bind_eq_ok]
    refine ⟨(), hg, (), hroom, sender, hsender, target, htarget, (), hwelcome, (),
      require_eq_ok.2 hpid, _, hvalue, ?_⟩
    unfold saveMLSWelcomeForMemberTx
    simp only [hgr, hp, hr, hnone, bind_eq_ok, require_eq_ok, insertOr_eq_ok]
    refine ⟨(), by simp [hgroom, hcurrent], (), hactive, (), by simp [haction, hpt], (),
      by simp [hrp], t, ht, rfl⟩
  · have hlookup := welcome?_insert ht g e.toNat target
    rw [if_pos ⟨rfl, rfl, rfl⟩] at hlookup
    exact Option.isSome_iff_exists.2 ⟨_, hlookup⟩

/-- A welcome frame of a committed add that passes the checks leaves its welcome stored. -/
theorem welcome_stored (platform : Platform) (hs : Sound h.registry) {e : Event} {c : ClientID}
    {m : Message} {muted : Bool} (he : e.input = .frame c m false muted)
    (ht : m.type = .mlsGroupWelcome) (hready : h.readsFrames c = true)
    (hchecks : h.welcomeChecks e.env c m = true) (hpid : m.proposalID = m.commandID)
    (hne : m.proposalID ≠ "") (hdigest : m.welcomeDigest = platform.sha256Hex m.welcome)
    {target : String} (htarget : normalizeUserCode m.targetUserCode = .ok target)
    (hadd : AddCommitted h.db.mls m.groupID m.epoch.toNat m.proposalID target) :
    ((step platform h e).db.mls.welcome? m.groupID m.epoch.toNat target).isSome := by
  cases hold : h.db.mls.welcome? m.groupID m.epoch.toNat target with
  | some w =>
    refine welcome_isSome_step platform hs e ?_
    rw [hold]
    rfl
  | none =>
    unfold welcomeChecks at hchecks
    simp only [Bool.and_eq_true, isOk_iff, Bool.not_eq_true', decide_eq_true_eq,
      Option.any_eq_true] at hchecks
    obtain ⟨⟨⟨⟨⟨hvalid, hservice⟩, hcontrol⟩, hwelcome⟩, hepoch⟩, obj, hobj,
      ⟨⟨⟨hroom, haccess⟩, gr, hgr, hsame⟩, hsenderOk⟩, hactive⟩ := hchecks
    simp only [beq_iff_eq] at hsame
    obtain ⟨hcommand, hgroup, hopaque⟩ : m.commandID.utf8ByteSize ≤ maxCommandIDSize ∧
        validateMLSGroupID m.groupID = .ok () ∧
        validateOpaqueMLS "MLS group welcome" m.welcome = .ok () := by
      unfold validateMessage at hvalid
      rw [ht] at hvalid
      split at hvalid
      · cases hvalid
      · rename_i hsize
        simp only [bind_eq_ok] at hvalid
        obtain ⟨_, hgroup, _, _, _, _, hopaque⟩ := hvalid
        exact ⟨by omega, hgroup, hopaque⟩
    have hnormal : normalizedOrEmpty m.targetUserCode = target := by
      unfold normalizedOrEmpty
      rw [htarget]
    have hidem := normalizeUserCode_idem htarget
    obtain ⟨sender, hsender⟩ : ∃ sender, normalizeUserCode obj.normalizedCode = .ok sender := by
      cases hn : normalizeUserCode obj.normalizedCode with
      | ok sender => exact ⟨sender, rfl⟩
      | error _ =>
        rw [hn] at hsenderOk
        cases hsenderOk
    have hactive' : h.db.mls.isActive m.groupID sender = true := by
      unfold normalizedOrEmpty at hactive
      rwa [hsender] at hactive
    have hproposal : validProposalID m.proposalID = true := by
      unfold validProposalID
      rw [hpid] at hne ⊢
      have hbound : m.commandID.utf8ByteSize ≤ maxMessageSize := hcommand.trans (by decide)
      simp [hne, hbound]
    obtain ⟨s', hsave, hstored⟩ := saveMLSWelcomeForMember_stores platform.sha256Hex hgroup hroom
      hsender hidem hopaque hproposal hepoch hgr hsame.1 hsame.2 hactive' hadd hold
    have hstep : (step platform h e).db.mls = s' := by
      simp only [step, he]
      rw [readPump_of_ready hready hobj hcommand]
      unfold dispatch validated
      rw [ht]
      dsimp only
      rw [if_pos (isOk_iff.2 hvalid)]
      unfold handleMLSGroupWelcome
      rw [hobj]
      dsimp only
      rw [if_neg (by simp [hservice]), hnormal, hidem]
      dsimp only
      have hstate : h.db.mls.mlsGroupHasControlState m.groupID = true := by
        unfold mlsGroupHasControlState
        rw [hgr]
        rfl
      rw [if_pos (by simp [hcontrol, isOk_iff.2 hgroup, hstate])]
      unfold welcomeForMember
      dsimp only
      have hfold : equalFold m.welcomeDigest (platform.sha256Hex m.welcome) = true := by
        rw [hdigest]
        exact beq_self_eq_true _
      rw [hnormal] at haccess
      rw [if_neg (by simp [hne, hfold, haccess]), hsave]
      unfold Env.call
      rw [hwelcome]
      rfl
    rw [hstep]
    exact hstored

end Hub

end LanChat
