import LanChat.Store.MlsRuns

/-!
# What a successful strict proposal says

`SaveMLSProposalForMember` succeeds for a new row, for a row with its own id, and for a row with the
same payload.

* `Recorded`: the sender is an active member, and the call's proposal is stored under its id;
* `knownByDigest`: only the payload is known, from a proposal with another id;
* `strict_proposal_recorded_iff`: a successful call is recorded exactly when that is not so.
-/

namespace LanChat

open GoStrings EventMachine

namespace MlsStore

/-- The sender is an active member and the proposal is stored as the call gives it. -/
def Recorded (s : MlsStore) (groupID senderCode action targetCode : String) (epoch : UInt64)
    (proposalID proposal : String) : Prop :=
  s.isActive groupID (asciiLower senderCode) = true ∧
    ∃ p, s.proposal? groupID epoch.toNat proposalID = some p ∧ p.proposalData = proposal ∧
      parseAction action = .ok p.action ∧ p.targetCode = asciiLower targetCode

/-- No proposal of the epoch has the id, but one has the payload. -/
def knownByDigest (sha256Hex : String → String) (s : MlsStore) (groupID : String) (epoch : UInt64)
    (proposalID proposal : String) : Bool :=
  (s.proposal? groupID epoch.toNat proposalID).isNone &&
    (s.proposalByDigest? groupID epoch.toNat (sha256Hex proposal)).isSome

variable {sha256Hex : String → String} {s s' : MlsStore} {g room : String}

/-- The exit for a known id: the sender and the row have been checked. -/
theorem saveMLSProposalForMemberTx_known {sender target pid proposal : String} {action : MlsAction}
    {e : ℤ} {b : Bool} {ms : MlsGroupMembership} {row : MlsProposal}
    (hrow : s.proposal? g e pid = some row)
    (hcall : s.saveMLSProposalForMemberTx sha256Hex g room sender action target e pid proposal =
      .ok (b, ms, s')) : s' = s ∧ s.isActive g sender = true ∧ row.proposalData = proposal ∧
        row.action = action ∧ row.targetCode = target := by
  unfold saveMLSProposalForMemberTx at hcall
  simp only [hrow, bind_eq_ok, require_eq_ok, pure, Except.pure, Except.ok.injEq, Bool.and_eq_true,
    beq_iff_eq] at hcall
  obtain ⟨_, hactive, _, ⟨⟨hdata, haction⟩, htarget⟩, heq⟩ := hcall
  cases heq
  exact ⟨rfl, hactive, hdata, haction, htarget⟩

/-- The exit for a known payload checks nothing. -/
theorem saveMLSProposalForMemberTx_digest {sender target pid proposal : String} {action : MlsAction}
    {e : ℤ} {b : Bool} {ms : MlsGroupMembership} (hnone : s.proposal? g e pid = none)
    (hdigest : (s.proposalByDigest? g e (sha256Hex proposal)).isSome)
    (hcall : s.saveMLSProposalForMemberTx sha256Hex g room sender action target e pid proposal =
      .ok (b, ms, s')) : s' = s := by
  obtain ⟨row, hrow⟩ := Option.isSome_iff_exists.1 hdigest
  unfold saveMLSProposalForMemberTx at hcall
  simp only [hnone, hrow, Except.ok.injEq] at hcall
  cases hcall
  rfl

/-- Without the id and the payload a successful call stores its proposal. -/
theorem saveMLSProposalForMemberTx_new {sender target pid proposal : String} {action : MlsAction}
    {e : ℤ} {b : Bool} {ms : MlsGroupMembership} (he : 0 ≤ e) (hnone : s.proposal? g e pid = none)
    (hdigest : s.proposalByDigest? g e (sha256Hex proposal) = none)
    (hcall : s.saveMLSProposalForMemberTx sha256Hex g room sender action target e pid proposal =
      .ok (b, ms, s')) : s'.isActive g sender = true ∧ ∃ p, s'.proposal? g e pid = some p ∧
        p.proposalData = proposal ∧ p.action = action ∧ p.targetCode = target := by
  have hb : b = true := by
    unfold saveMLSProposalForMemberTx at hcall
    simp only [hnone, hdigest, bind_eq_ok, pure, Except.pure, Except.ok.injEq] at hcall
    obtain ⟨_, -, _, -, _, -, _, -, _, -, heq⟩ := hcall
    cases heq
    rfl
  rcases saveMLSProposalForMemberTx_ok he hcall with ⟨hfalse, -⟩ |
    ⟨-, p, rfl, rfl, rfl, hdata, haction, htarget, -, hdone⟩
  · rw [hb] at hfalse
    cases hfalse
  · refine ⟨hdone.sender_active, p, ?_, hdata, haction, htarget⟩
    rw [hdone.stores.proposal, if_pos ⟨rfl, rfl, rfl⟩]

/-- A successful strict proposal comes from a member and is stored as it was sent exactly when its
payload is not known from a proposal with another id. -/
theorem strict_proposal_recorded_iff (ops : List MlsOp)
    (g room senderCode action targetCode : String) (epoch : UInt64) (pid proposal : String)
    (b : Bool) (membership : MlsGroupMembership) (s' : MlsStore)
    (hcall : (run (apply sha256Hex) empty ops).saveMLSProposalForMember sha256Hex g room senderCode
      action targetCode epoch pid proposal = .ok (b, membership, s')) :
    s'.Recorded g senderCode action targetCode epoch pid proposal ↔
      ¬ (run (apply sha256Hex) empty ops).knownByDigest sha256Hex g epoch pid proposal = true := by
  generalize run (apply sha256Hex) empty ops = s at hcall
  simp only [saveMLSProposalForMember, bind_eq_ok] at hcall
  obtain ⟨-, -, -, -, sender, hsender, act, hact, target, htarget, -, -, -, -, e, he, hcall⟩ := hcall
  obtain ⟨rfl, hnonneg⟩ := mlsEpochValue_ok he
  obtain rfl := (normalizeUserCode_eq_ok.1 hsender).2
  obtain rfl := (normalizeUserCode_eq_ok.1 htarget).2
  unfold Recorded knownByDigest
  cases hrow : s.proposal? g epoch.toNat pid with
  | some row =>
    obtain ⟨rfl, hactive, hdata, haction, htargetCode⟩ :=
      saveMLSProposalForMemberTx_known hrow hcall
    simp only [Option.isNone_some, Bool.false_and, Bool.false_eq_true, not_false_eq_true, iff_true]
    exact ⟨hactive, row, hrow, hdata, haction ▸ hact, htargetCode⟩
  | none =>
    cases hdigest : s.proposalByDigest? g epoch.toNat (sha256Hex proposal) with
    | some row =>
      obtain rfl := saveMLSProposalForMemberTx_digest hrow (by rw [hdigest]; rfl) hcall
      simp [hrow]
    | none =>
      obtain ⟨hactive, p, hp, hdata, haction, htargetCode⟩ :=
        saveMLSProposalForMemberTx_new hnonneg hrow hdigest hcall
      simp only [Option.isNone_none, Option.isSome_none, Bool.and_false, Bool.false_eq_true,
        not_false_eq_true, iff_true]
      exact ⟨hactive, p, hp, hdata, haction ▸ hact, htargetCode⟩

/-- The first proposal of a group. -/
theorem strict_proposal_recorded_iff_first : ∃ b membership s',
    (run (apply sampleDigest) empty []).saveMLSProposalForMember sampleDigest "g" "lobby" "alice"
      "add" "bob" 0 "p" "cHJvcG9zYWw=" = .ok (b, membership, s') ∧
    s'.Recorded "g" "alice" "add" "bob" 0 "p" "cHJvcG9zYWw=" := by
  have hok : ((run (apply sampleDigest) empty []).saveMLSProposalForMember sampleDigest "g" "lobby"
      "alice" "add" "bob" 0 "p" "cHJvcG9zYWw=").toOption.isSome = true := by
    decide +kernel
  cases hcall : (run (apply sampleDigest) empty []).saveMLSProposalForMember sampleDigest "g"
      "lobby" "alice" "add" "bob" 0 "p" "cHJvcG9zYWw=" with
  | error x =>
    rw [hcall] at hok
    cases hok
  | ok r =>
    refine ⟨r.1, r.2.1, r.2.2, rfl, ?_⟩
    exact (strict_proposal_recorded_iff [] "g" "lobby" "alice" "add" "bob" 0 "p" "cHJvcG9zYWw=" r.1
      r.2.1 r.2.2 hcall).2 (by decide)

/-- Mallory, who is no member, repeats the payload of Alice's proposal under another id and with
another action: the call succeeds, and nothing is stored. -/
theorem strict_proposal_by_stranger :
    let s := run (apply sampleDigest) empty
      [.saveMLSProposalForMember "g" "lobby" "alice" "add" "bob" 0 "p" "cHJvcG9zYWw="]
    ∃ membership, s.saveMLSProposalForMember sampleDigest "g" "lobby" "mallory" "remove" "alice" 0
        "q" "cHJvcG9zYWw=" = .ok (false, membership, s) ∧
      s.isActive "g" "mallory" = false ∧ (s.proposal? "g" 0 "q").isNone ∧
      ¬ s.Recorded "g" "mallory" "remove" "alice" 0 "q" "cHJvcG9zYWw=" := by
  intro s
  have hactive : s.isActive "g" "mallory" = false := by decide +kernel
  refine ⟨{}, rfl, hactive, by decide +kernel, fun hrecorded => ?_⟩
  have hmallory : asciiLower "mallory" = "mallory" := by decide +kernel
  have hclaimed := hrecorded.1
  rw [hmallory, hactive] at hclaimed
  cases hclaimed

end MlsStore

end LanChat
