import LanChat.Store.MlsRuns

/-!
# Who a commit is relayed to

`SaveMLSCommitForMember` returns the member snapshot that was stored with the proposal.  The
proposal may have been stored several epochs ahead, or by the legacy call, which stores no
snapshot.

* `ProposedAt`: the call of a run that stored a proposal with its snapshot;
* `commit_recipients_iff`: the members returned are the active ones exactly when the group has the
  members now that it had after that call;
* `early_proposal_misses_member`: a proposal that is stored two epochs ahead misses who joins
  in between.
-/

namespace LanChat

namespace MlsStore

open EventMachine GoStrings

variable {sha256Hex : String → String} {s : MlsStore} {g : String}

/-- A row that a call adds to the proposals: the legacy call stores an empty snapshot, the strict
one the members that the group then has. -/
theorem snapshot_of_apply {op : MlsOp} {e : ℤ} {pid : String} {p : MlsProposal}
    (hnew : s.proposal? g e pid = none) (hp : (s.apply sha256Hex op).proposal? g e pid = some p) :
    (∃ room epoch proposal, op = .saveMLSProposal g room epoch pid proposal ∧
      p.memberSnapshot = []) ∨
    ∃ room senderCode action target epoch proposal,
      op = .saveMLSProposalForMember g room senderCode action target epoch pid proposal ∧
        p.memberSnapshot = (s.apply sha256Hex op).mlsGroupMembers g := by
  have hsame (h : (s.apply sha256Hex op).proposals = s.proposals) : False := by
    rw [proposal?_congr h, hnew] at hp
    cases hp
  unfold apply at hp hsame ⊢
  cases hr : s.result sha256Hex op with
  | error x =>
    rw [hr] at hsame
    exact (hsame rfl).elim
  | ok s' =>
    rw [hr] at hp hsame
    dsimp only at hp hsame ⊢
    cases op with
    | saveMLSProposal g' room epoch pid' proposal =>
      obtain ⟨⟨b, s''⟩, hcall, rfl⟩ := map_eq_ok.1 hr
      rcases saveMLSProposal_ok hcall with ⟨-, heq⟩ | ⟨-, -, hstore⟩
      · exact (hsame (by rw [heq])).elim
      · rw [hstore.proposal] at hp
        split_ifs at hp with hk
        · obtain ⟨rfl, -, rfl⟩ := hk
          obtain rfl := Option.some_injective _ hp
          exact .inl ⟨room, epoch, proposal, rfl, rfl⟩
        · rw [hnew] at hp
          cases hp
    | saveMLSProposalForMember g' room senderCode action target epoch pid' proposal =>
      obtain ⟨⟨b, ms, s''⟩, hcall, rfl⟩ := map_eq_ok.1 hr
      obtain ⟨sender, act, tgt, -, -, -, ⟨-, heq⟩ | ⟨-, q, hg, -, hpid, -, -, -, -, hstore⟩⟩ :=
        saveMLSProposalForMember_ok hcall
      · exact (hsame (by rw [heq])).elim
      · rw [hstore.stores.proposal] at hp
        split_ifs at hp with hk
        · obtain ⟨rfl, -, rfl⟩ := hk
          obtain rfl := Option.some_injective _ hp
          subst hg hpid
          exact .inr ⟨room, senderCode, action, target, epoch, proposal, rfl, hstore.snapshot⟩
        · rw [hnew] at hp
          cases hp
    | saveMLSCommit g' room epoch commit =>
      cases result_effect hr with
      | unchanged h => exact (hsame (by rw [h])).elim
      | committed h _ => exact (hsame h.proposals).elim
    | saveMLSCommitForMember g' room senderCode pid' epoch commit =>
      cases result_effect hr with
      | unchanged h => exact (hsame (by rw [h])).elim
      | committedForMember _ h => exact (hsame h.logs.proposals).elim
    | saveMLSWelcome g' room epoch target welcome =>
      cases result_effect hr with
      | unchanged h => exact (hsame (by rw [h])).elim
      | welcomed h _ => exact (hsame h.proposals).elim
    | saveMLSWelcomeForMember g' room senderCode epoch target pid' welcome =>
      cases result_effect hr with
      | unchanged h => exact (hsame (by rw [h])).elim
      | welcomedForMember h => exact (hsame h.stores.proposals).elim
    | acceptMLSWelcomeForMember g' room target epoch pid' digest =>
      cases result_effect hr with
      | unchanged h => exact (hsame (by rw [h])).elim
      | accepted h _ => exact (hsame h.proposals).elim

/-- The `i`-th call is the `SaveMLSProposalForMember` that stores the proposal. -/
def ProposedAt (sha256Hex : String → String) (ops : List MlsOp) (g : String) (e : ℤ) (pid : String)
    (i : ℕ) : Prop :=
  (run (apply sha256Hex) empty (ops.take i)).proposal? g e pid = none ∧
    (∃ room senderCode action target epoch proposal,
      ops[i]? = some (.saveMLSProposalForMember g room senderCode action target epoch pid proposal)) ∧
    ((run (apply sha256Hex) empty (ops.take (i + 1))).proposal? g e pid).isSome

theorem run_take_succ {ops : List MlsOp} {i : ℕ} {op : MlsOp} (hop : ops[i]? = some op) :
    run (apply sha256Hex) empty (ops.take (i + 1)) =
      (run (apply sha256Hex) empty (ops.take i)).apply sha256Hex op := by
  rw [List.take_add_one, hop, Option.toList_some, run_concat]

/-- What is stored after some of the calls is stored after all of them. -/
theorem proposal_of_take {ops : List MlsOp} {i : ℕ} {e : ℤ} {pid : String} {p : MlsProposal}
    (hp : (run (apply sha256Hex) empty (ops.take i)).proposal? g e pid = some p) :
    (run (apply sha256Hex) empty ops).proposal? g e pid = some p := by
  have hext := (@run_extends sha256Hex (run (apply sha256Hex) empty (ops.take i)) (ops.drop i))
  rw [← run_append, List.take_append_drop] at hext
  exact hext.proposal hp

/-- The snapshot of a proposal that was stored with one. -/
theorem ProposedAt.snapshot {ops : List MlsOp} {e : ℤ} {pid : String} {i : ℕ} {p : MlsProposal}
    (h : ProposedAt sha256Hex ops g e pid i)
    (hp : (run (apply sha256Hex) empty ops).proposal? g e pid = some p) :
    p.memberSnapshot = (run (apply sha256Hex) empty (ops.take (i + 1))).mlsGroupMembers g := by
  obtain ⟨hnew, ⟨room, sc, act, t, ep, pr, hop⟩, hsome⟩ := h
  obtain ⟨q, hq⟩ := Option.isSome_iff_exists.1 hsome
  obtain rfl := Option.some_injective _ ((proposal_of_take hq).symm.trans hp)
  rw [run_take_succ hop] at hq ⊢
  rcases snapshot_of_apply hnew hq with ⟨_, _, _, heq, -⟩ | ⟨_, _, _, _, _, _, -, hsnapshot⟩
  · cases heq
  · exact hsnapshot

/-- Every stored proposal has an empty snapshot or was stored with one. -/
theorem proposedAt_or_legacy {ops : List MlsOp} {e : ℤ} {pid : String} {p : MlsProposal}
    (hp : (run (apply sha256Hex) empty ops).proposal? g e pid = some p) :
    p.memberSnapshot = [] ∨ ∃ i, ProposedAt sha256Hex ops g e pid i := by
  induction ops using List.reverseRecOn with
  | nil => cases hp
  | append_singleton ops op ih =>
    rw [run_concat] at hp
    cases hold : (run (apply sha256Hex) empty ops).proposal? g e pid with
    | some q =>
      -- the row is older than the last call
      have hkept := (@apply_extends sha256Hex _ op).proposal hold
      obtain rfl := Option.some_injective _ (hkept.symm.trans hp)
      refine (ih hold).imp_right ?_
      rintro ⟨i, hnew, ⟨room, sc, act, t, ep, pr, hop⟩, hsome⟩
      obtain ⟨hlt, -⟩ := List.getElem?_eq_some_iff.1 hop
      refine ⟨i, ?_, ⟨room, sc, act, t, ep, pr, ?_⟩, ?_⟩
      · rwa [List.take_append_of_le_length (by omega)]
      · rwa [List.getElem?_append_left hlt]
      · rwa [List.take_append_of_le_length (by omega)]
    | none =>
      rcases snapshot_of_apply hold hp with ⟨_, _, _, -, hempty⟩ | ⟨room, sc, act, t, ep, pr, rfl, -⟩
      · exact .inl hempty
      · refine .inr ⟨ops.length, ?_, ⟨room, sc, act, t, ep, pr, by simp⟩, ?_⟩
        · rwa [List.take_left]
        · rw [List.take_of_length_le (by simp), run_concat, hp]
          rfl

/-- The members that a successful commit returns are the active ones exactly when its proposal was
stored with a snapshot and the group has the same members now. -/
theorem commit_recipients_iff (ops : List MlsOp) (g room senderCode pid : String) (epoch : UInt64)
    (commit : String) (membership : MlsGroupMembership) (s' : MlsStore)
    (hcommit : (run (apply sha256Hex) empty ops).saveMLSCommitForMember g room senderCode pid epoch
      commit = .ok (true, membership, s')) :
    (∀ u, u ∈ membership.members ↔ (run (apply sha256Hex) empty ops).isActive g u = true) ↔
      ∃ i, ProposedAt sha256Hex ops g epoch.toNat pid i ∧
        ∀ u, (run (apply sha256Hex) empty (ops.take (i + 1))).isActive g u = true ↔
          (run (apply sha256Hex) empty ops).isActive g u = true := by
  obtain ⟨sender, -, ⟨hfalse, -⟩ | ⟨-, p, rfl, hdone⟩⟩ := saveMLSCommitForMember_ok hcommit
  · cases hfalse
  constructor
  · intro hexact
    rcases proposedAt_or_legacy hdone.proposal with hempty | ⟨i, hi⟩
    · -- the sender is active, so the empty snapshot misses somebody
      have hsender := (hexact sender).2 hdone.sender_active
      rw [hempty] at hsender
      cases hsender
    · refine ⟨i, hi, fun u => ?_⟩
      rw [← hexact u, hi.snapshot hdone.proposal, mem_mlsGroupMembers]
  · rintro ⟨i, hi, hsame⟩ u
    rw [hi.snapshot hdone.proposal, mem_mlsGroupMembers]
    exact hsame u

/-- The digests of the two payloads of the concrete runs below. -/
def sampleDigests (payload : String) : String :=
  if payload = "d2VsY29tZQ==" then
    "8c0b467830b46f0eca9d60939be32dbfeb4a15ed7eb91a5dc9a45a70a5626ad5"
  else sampleDigest payload

/-- The creator commits its first proposal. -/
theorem commit_recipients_iff_first :
    let ops : List MlsOp :=
      [.saveMLSProposalForMember "g" "lobby" "alice" "add" "bob" 0 "p" "cHJvcG9zYWw="]
    ∃ membership s', (run (apply sampleDigests) empty ops).saveMLSCommitForMember "g" "lobby" "alice"
        "p" 0 "Y29tbWl0" = .ok (true, membership, s') ∧
      ∀ u, u ∈ membership.members ↔ (run (apply sampleDigests) empty ops).isActive "g" u = true := by
  intro ops
  have hok : ((run (apply sampleDigests) empty ops).saveMLSCommitForMember "g" "lobby" "alice" "p" 0
      "Y29tbWl0").toOption.any (fun r => r.1) = true := by
    decide +kernel
  obtain ⟨⟨b, membership, s'⟩, hr, hb⟩ := (Option.any_eq_true _ _).1 hok
  obtain rfl : b = true := hb
  have hcommit : (run (apply sampleDigests) empty ops).saveMLSCommitForMember "g" "lobby" "alice" "p"
      0 "Y29tbWl0" = .ok (true, membership, s') := by
    cases hx : (run (apply sampleDigests) empty ops).saveMLSCommitForMember "g" "lobby" "alice" "p" 0
      "Y29tbWl0" with
    | error x =>
      rw [hx] at hr
      cases hr
    | ok r =>
      rw [hx] at hr
      rw [Option.some_injective _ hr]
  refine ⟨membership, s', hcommit, ?_⟩
  refine (commit_recipients_iff ops "g" "lobby" "alice" "p" 0 "Y29tbWl0" membership s' hcommit).2
    ⟨0, ⟨rfl, ⟨"lobby", "alice", "add", "bob", 0, "cHJvcG9zYWw=", rfl⟩, by decide +kernel⟩, ?_⟩
  exact fun u => Iff.rfl

/-- Alice proposes to add Bob and, for the epoch after, Carol; Bob joins before the second commit,
which then goes to Alice alone. -/
theorem early_proposal_misses_member :
    let ops : List MlsOp :=
      [.saveMLSProposalForMember "g" "lobby" "alice" "add" "bob" 0 "p" "cHJvcG9zYWw=",
        .saveMLSProposalForMember "g" "lobby" "alice" "add" "carol" 1 "q" "cHJvcG9zYWw=",
        .saveMLSCommitForMember "g" "lobby" "alice" "p" 0 "Y29tbWl0",
        .saveMLSWelcomeForMember "g" "lobby" "alice" 0 "bob" "p" "d2VsY29tZQ==",
        .acceptMLSWelcomeForMember "g" "lobby" "bob" 0 "p"
          "8c0b467830b46f0eca9d60939be32dbfeb4a15ed7eb91a5dc9a45a70a5626ad5"]
    ((run (apply sampleDigests) empty ops).saveMLSCommitForMember "g" "lobby" "alice" "q" 1
      "Y29tbWl0").map (fun r => (r.1, r.2.1.members)) = .ok (true, ["alice"]) ∧
    (run (apply sampleDigests) empty ops).mlsGroupMembers "g" = ["alice", "bob"] := by
  decide +kernel

end MlsStore

end LanChat
