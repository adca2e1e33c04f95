import LanChat.Lib.Run
import LanChat.Store.MlsSpec
import Mathlib.Data.List.Induction

/-!
# Runs of the seven MLS store operations

`MlsOp` is a call with arbitrary arguments, `MlsOp.apply` its effect on the store.  What one call
can do is said once, by `MlsEffect`; the rest follows from it:

* `Extends`: the commit log, the proposals and the accepted welcomes never change, member rows
  are never deleted, `current_epoch` never decreases;
* `MlsInv`: the log reaches exactly up to `current_epoch`, and a pending welcome belongs to the
  current epoch, joins with the add proposal that this epoch committed, and leaves its group
  with an active member.
-/

namespace LanChat

open EventMachine

/-- A call of one of the seven operations. -/
inductive MlsOp
  | saveMLSProposal (groupID room : String) (epoch : UInt64) (proposalID proposal : String)
  | saveMLSProposalForMember (groupID room senderCode action targetCode : String)
      (epoch : UInt64) (proposalID proposal : String)
  | saveMLSCommit (groupID room : String) (epoch : UInt64) (commit : String)
  | saveMLSCommitForMember (groupID room senderCode proposalID : String) (epoch : UInt64)
      (commit : String)
  | saveMLSWelcome (groupID room : String) (epoch : UInt64) (targetCode welcome : String)
  | saveMLSWelcomeForMember (groupID room senderCode : String) (epoch : UInt64)
      (targetCode proposalID welcome : String)
  | acceptMLSWelcomeForMember (groupID room targetCode : String) (epoch : UInt64)
      (proposalID welcomeDigest : String)
  deriving DecidableEq, Repr

namespace MlsStore

variable (sha256Hex : String → String)

/-- The store a call leaves when it succeeds. -/
def result (s : MlsStore) : MlsOp → Except GoError MlsStore
  | .saveMLSProposal g room e pid proposal =>
    Prod.snd <$> s.saveMLSProposal sha256Hex g room e pid proposal
  | .saveMLSProposalForMember g room sender action target e pid proposal =>
    (fun r => r.2.2) <$>
      s.saveMLSProposalForMember sha256Hex g room sender action target e pid proposal
  | .saveMLSCommit g room e commit => Prod.snd <$> s.saveMLSCommit g room e commit
  | .saveMLSCommitForMember g room sender pid e commit =>
    (fun r => r.2.2) <$> s.saveMLSCommitForMember g room sender pid e commit
  | .saveMLSWelcome g room e target welcome =>
    Prod.snd <$> s.saveMLSWelcome g room e target welcome
  | .saveMLSWelcomeForMember g room sender e target pid welcome =>
    Prod.snd <$> s.saveMLSWelcomeForMember sha256Hex g room sender e target pid welcome
  | .acceptMLSWelcomeForMember g room target e pid digest =>
    Prod.snd <$> s.acceptMLSWelcomeForMember g room target e pid digest

/-- The store after a call: a failed one leaves it as it was. -/
def apply (s : MlsStore) (op : MlsOp) : MlsStore :=
  match s.result sha256Hex op with
  | .ok s' => s'
  | .error _ => s

/-- Everything a call can do to the store. -/
inductive MlsEffect (s s' : MlsStore) : MlsOp → Prop
  | unchanged {op : MlsOp} (h : s' = s) : MlsEffect s s' op
  | proposed {g room : String} {e : UInt64} {pid proposal : String} {p : MlsProposal}
      (h : StoresProposal s s' (s.filledRoom g room) p) (hg : p.groupID = g)
      (hm : s'.members = s.members) :
      MlsEffect s s' (.saveMLSProposal g room e pid proposal)
  | proposedForMember {g room senderCode action target : String} {e : UInt64}
      {pid proposal : String} {sender : String} {p : MlsProposal}
      (hs : normalizeUserCode senderCode = .ok sender) (hg : p.groupID = g)
      (h : ProposesForMember s s' room sender p) :
      MlsEffect s s' (.saveMLSProposalForMember g room senderCode action target e pid proposal)
  | committed {g room : String} {e : UInt64} {commit : String}
      (h : LogsCommit s s' (s.filledRoom g room) ⟨g, e.toNat, "", commit⟩)
      (hm : s'.members = s.members) :
      MlsEffect s s' (.saveMLSCommit g room e commit)
  | committedForMember {g room senderCode pid : String} {e : UInt64} {commit sender : String}
      {p : MlsProposal} (hs : normalizeUserCode senderCode = .ok sender)
      (h : CommitsForMember s s' room sender ⟨g, e.toNat, pid, commit⟩ p) :
      MlsEffect s s' (.saveMLSCommitForMember g room senderCode pid e commit)
  | welcomed {g room : String} {e : UInt64} {target welcome : String} {w : MlsWelcome}
      (h : StoresWelcome s s' room w) (ha : w.accepted = true) :
      MlsEffect s s' (.saveMLSWelcome g room e target welcome)
  | welcomedForMember {g room senderCode : String} {e : UInt64} {target pid welcome : String}
      {sender : String} {w : MlsWelcome} {p : MlsProposal} {r : MlsEpoch}
      (h : WelcomesForMember s s' room sender w p r) :
      MlsEffect s s' (.saveMLSWelcomeForMember g room senderCode e target pid welcome)
  | accepted {g room target : String} {e : UInt64} {pid digest : String} {w : MlsWelcome}
      (h : AcceptsWelcome s s' w) (hp : w.proposalID = pid) :
      MlsEffect s s' (.acceptMLSWelcomeForMember g room target e pid digest)

theorem map_eq_ok {α β : Type} {f : α → β} {x : Except GoError α} {b : β} :
    f <$> x = .ok b ↔ ∃ a, x = .ok a ∧ f a = b := by
  cases x with
  | error e => simp [Functor.map, Except.map]
  | ok a => simp [Functor.map, Except.map]

variable {sha256Hex}

theorem result_effect {s s' : MlsStore} {op : MlsOp} (h : s.result sha256Hex op = .ok s') :
    MlsEffect s s' op := by
  cases op with
  | saveMLSProposal g room e pid proposal =>
    obtain ⟨⟨b, s''⟩, hr, rfl⟩ := map_eq_ok.1 h
    rcases saveMLSProposal_ok hr with ⟨-, h⟩ | ⟨-, hm, h⟩
    · exact .unchanged h
    · exact .proposed h rfl hm
  | saveMLSProposalForMember g room sender action target e pid proposal =>
    obtain ⟨⟨b, ms, s''⟩, hr, rfl⟩ := map_eq_ok.1 h
    obtain ⟨sender, act, tgt, hs, -, -, ⟨-, h⟩ | ⟨-, p, hg, -, -, -, -, -, -, h⟩⟩ :=
      saveMLSProposalForMember_ok hr
    · exact .unchanged h
    · exact .proposedForMember hs hg h
  | saveMLSCommit g room e commit =>
    obtain ⟨⟨b, s''⟩, hr, rfl⟩ := map_eq_ok.1 h
    rcases saveMLSCommit_ok hr with ⟨-, h, -⟩ | ⟨-, hm, h⟩
    · exact .unchanged h
    · exact .committed h hm
  | saveMLSCommitForMember g room sender pid e commit =>
    obtain ⟨⟨b, ms, s''⟩, hr, rfl⟩ := map_eq_ok.1 h
    obtain ⟨sender, hs, ⟨-, h, -⟩ | ⟨-, p, -, h⟩⟩ := saveMLSCommitForMember_ok hr
    · exact .unchanged h
    · exact .committedForMember hs h
  | saveMLSWelcome g room e target welcome =>
    obtain ⟨⟨b, s''⟩, hr, rfl⟩ := map_eq_ok.1 h
    rcases saveMLSWelcome_ok hr with ⟨-, h⟩ | ⟨-, t, -, h⟩
    · exact .unchanged h
    · exact .welcomed h rfl
  | saveMLSWelcomeForMember g room sender e target pid welcome =>
    obtain ⟨⟨b, s''⟩, hr, rfl⟩ := map_eq_ok.1 h
    rcases saveMLSWelcomeForMember_ok hr with ⟨-, h⟩ | ⟨-, sd, t, p, r, -, -, h⟩
    · exact .unchanged h
    · exact .welcomedForMember h
  | acceptMLSWelcomeForMember g room target e pid digest =>
    obtain ⟨⟨b, s''⟩, hr, rfl⟩ := map_eq_ok.1 h
    rcases acceptMLSWelcomeForMember_ok hr with ⟨-, h⟩ | ⟨-, w, -, -, -, hp, -, h⟩
    · exact .unchanged h
    · exact .accepted h hp

theorem apply_effect (s : MlsStore) (op : MlsOp) : MlsEffect s (s.apply sha256Hex op) op := by
  unfold apply
  cases h : s.result sha256Hex op with
  | error e => exact .unchanged rfl
  | ok s' => exact result_effect h

/-! ### Lookups of untouched tables -/

section Frame

variable {s s' : MlsStore}

theorem epoch?_congr (h : s'.epochs = s.epochs) (g : String) (e : ℤ) :
    s'.epoch? g e = s.epoch? g e := by
  unfold epoch?
  rw [h]

theorem proposal?_congr (h : s'.proposals = s.proposals) (g : String) (e : ℤ) (p : String) :
    s'.proposal? g e p = s.proposal? g e p := by
  unfold proposal?
  rw [h]

theorem welcome?_congr (h : s'.welcomes = s.welcomes) (g : String) (e : ℤ) (u : String) :
    s'.welcome? g e u = s.welcome? g e u := by
  unfold welcome?
  rw [h]

theorem member?_congr (h : s'.members = s.members) (g u : String) :
    s'.member? g u = s.member? g u := by
  unfold member?
  rw [h]

theorem currentEpoch_congr {g : String} (h : s'.group? g = s.group? g) :
    s'.currentEpoch g = s.currentEpoch g := by
  unfold currentEpoch
  rw [h]

theorem LogsCommit.currentEpoch {room : String} {r : MlsEpoch} (h : LogsCommit s s' room r)
    (g : String) : s'.currentEpoch g = if g = r.groupID then r.epoch else s.currentEpoch g := by
  unfold MlsStore.currentEpoch
  rw [h.group g]
  split_ifs <;> rfl

theorem StoresProposal.currentEpoch {room : String} {p : MlsProposal}
    (h : StoresProposal s s' room p) (g : String) : s'.currentEpoch g = s.currentEpoch g := by
  have hg := h.group g
  split_ifs at hg with hp
  · rw [currentEpoch_of_group? hg, hp]
  · exact currentEpoch_congr hg

theorem StoresWelcome.currentEpoch {room : String} {w : MlsWelcome}
    (h : StoresWelcome s s' room w) (g : String) : s'.currentEpoch g = s.currentEpoch g := by
  have hg := h.group g
  split_ifs at hg with hp
  · rw [currentEpoch_of_group? hg, currentEpoch_openedGroup]
  · exact currentEpoch_congr hg

theorem AcceptsWelcome.group? {w : MlsWelcome} (h : AcceptsWelcome s s' w) (g : String) :
    s'.group? g = s.group? g := by
  unfold MlsStore.group?
  rw [h.groups]

end Frame

/-! ### What never changes -/

/-- `s'` keeps everything durable that `s` holds. -/
structure Extends (s s' : MlsStore) : Prop where
  epoch : ∀ {g e r}, s.epoch? g e = some r → s'.epoch? g e = some r
  proposal : ∀ {g e i p}, s.proposal? g e i = some p → s'.proposal? g e i = some p
  accepted : ∀ {g e u w}, s.welcome? g e u = some w → w.accepted = true →
    s'.welcome? g e u = some w
  member : ∀ {g u}, (s.member? g u).isSome → (s'.member? g u).isSome
  group : ∀ {g}, (s.group? g).isSome → (s'.group? g).isSome
  currentEpoch : ∀ g, s.currentEpoch g ≤ s'.currentEpoch g

theorem Extends.refl (s : MlsStore) : Extends s s :=
  ⟨id, id, fun h _ => h, id, id, fun _ => le_rfl⟩

theorem Extends.trans {a b c : MlsStore} (h : Extends a b) (k : Extends b c) : Extends a c :=
  ⟨fun x => k.epoch (h.epoch x), fun x => k.proposal (h.proposal x),
    fun x y => k.accepted (h.accepted x y) y, fun x => k.member (h.member x),
    fun x => k.group (h.group x), fun g => (h.currentEpoch g).trans (k.currentEpoch g)⟩

section Extension

variable {s s' : MlsStore}

theorem StoresProposal.extends {room : String} {p : MlsProposal} (h : StoresProposal s s' room p)
    (hm : ∀ g u, (s.member? g u).isSome → (s'.member? g u).isSome) : Extends s s' where
  epoch := fun hr => by rwa [epoch?_congr h.epochs]
  proposal := by
    intro g e i q hq
    rw [h.proposal]
    split_ifs with hk
    · obtain ⟨rfl, rfl, rfl⟩ := hk
      rw [h.fresh] at hq
      cases hq
    · exact hq
  accepted := fun hw _ => by rwa [welcome?_congr h.welcomes]
  member := fun hx => hm _ _ hx
  group := by
    intro g hg
    rw [h.group]
    split_ifs
    · rfl
    · exact hg
  currentEpoch := fun g => (h.currentEpoch g).ge

theorem LogsCommit.extends {room : String} {r : MlsEpoch} (h : LogsCommit s s' room r)
    (hm : ∀ g u, (s.member? g u).isSome → (s'.member? g u).isSome) : Extends s s' where
  epoch := by
    intro g e q hq
    rw [h.epoch]
    split_ifs with hk
    · obtain ⟨rfl, rfl⟩ := hk
      rw [h.fresh] at hq
      cases hq
    · exact hq
  proposal := fun hp => by rwa [proposal?_congr h.proposals]
  accepted := fun hw _ => by rwa [welcome?_congr h.welcomes]
  member := fun hx => hm _ _ hx
  group := by
    intro g hg
    rw [h.group]
    split_ifs
    · rfl
    · exact hg
  currentEpoch := by
    intro g
    rw [h.currentEpoch]
    split_ifs with hg
    · subst hg
      exact h.above
    · exact le_rfl

theorem StoresWelcome.extends {room : String} {w : MlsWelcome} (h : StoresWelcome s s' room w) :
    Extends s s' where
  epoch := fun hr => by rwa [epoch?_congr h.epochs]
  proposal := fun hp => by rwa [proposal?_congr h.proposals]
  accepted := by
    intro g e u q hq _
    rw [h.welcome]
    split_ifs with hk
    · obtain ⟨rfl, rfl, rfl⟩ := hk
      rw [h.fresh] at hq
      cases hq
    · exact hq
  member := fun hx => by rwa [member?_congr h.members]
  group := by
    intro g hg
    rw [h.group]
    split_ifs
    · rfl
    · exact hg
  currentEpoch := fun g => (h.currentEpoch g).ge

theorem AcceptsWelcome.extends {w : MlsWelcome} (h : AcceptsWelcome s s' w) : Extends s s' where
  epoch := fun hr => by rwa [epoch?_congr h.epochs]
  proposal := fun hp => by rwa [proposal?_congr h.proposals]
  accepted := by
    intro g e u q hq hacc
    rw [h.welcome]
    split_ifs with hk
    · obtain ⟨rfl, rfl, rfl⟩ := hk
      rw [h.stored] at hq
      cases hq
      rw [h.pending] at hacc
      cases hacc
    · exact hq
  member := by
    intro g u hx
    rw [h.member]
    split_ifs
    · rfl
    · exact hx
  group := fun hg => by rwa [h.group?]
  currentEpoch := fun g => (currentEpoch_congr (h.group? g)).ge

theorem InitializesCreator.member_isSome {g sender : String} (h : InitializesCreator s s' g sender)
    (g' u : String) (hx : (s.member? g' u).isSome) : (s'.member? g' u).isSome := by
  rw [h.member]
  split_ifs
  · rfl
  · exact hx

theorem RemovesMember.member_isSome {g u : String} {e : ℤ} (h : RemovesMember s s' g u e)
    (g' u' : String) (hx : (s.member? g' u').isSome) : (s'.member? g' u').isSome := by
  rw [h g' u']
  split_ifs with hk
  · obtain ⟨rfl, rfl⟩ := hk
    simpa using hx
  · exact hx

end Extension

theorem MlsEffect.extends {s s' : MlsStore} {op : MlsOp} (h : MlsEffect s s' op) :
    Extends s s' := by
  cases h with
  | unchanged h => exact h ▸ Extends.refl s
  | proposed h _ hm => exact h.extends fun g u hx => by rwa [member?_congr hm]
  | proposedForMember _ _ h =>
    refine h.stores.extends fun g u hx => ?_
    rcases h.members with hc | hm
    · exact hc.member_isSome g u hx
    · rwa [member?_congr hm]
  | committed h hm => exact h.extends fun g u hx => by rwa [member?_congr hm]
  | committedForMember _ h =>
    refine h.logs.extends fun g u hx => ?_
    rcases h.members with ⟨-, hm⟩ | ⟨-, hr⟩
    · rwa [member?_congr hm]
    · exact hr.member_isSome g u hx
  | welcomed h _ => exact h.extends
  | welcomedForMember h => exact h.stores.extends
  | accepted h _ => exact h.extends

theorem apply_extends (s : MlsStore) (op : MlsOp) : Extends s (s.apply sha256Hex op) :=
  (apply_effect s op).extends

theorem run_extends (s : MlsStore) (ops : List MlsOp) :
    Extends s (run (apply sha256Hex) s ops) :=
  run_rel (I := fun _ => True) _ Extends.refl (fun _ _ _ => Extends.trans)
    (fun _ _ _ => trivial) (fun s op _ => apply_extends s op) trivial ops

/-! ### The invariant -/

/-- The user's welcome with this proposal id is backed: the proposal is an add of this user and
the epoch was committed with it. -/
def Sponsored (s : MlsStore) (g : String) (e : ℤ) (u pid : String) : Prop :=
  pid ≠ "" ∧ (∃ p, s.proposal? g e pid = some p ∧ p.action = .add ∧ p.targetCode = u) ∧
    ∃ r, s.epoch? g e = some r ∧ r.proposalID = pid

theorem Sponsored.mono {s s' : MlsStore} (h : Extends s s') {g u pid : String} {e : ℤ}
    (hs : Sponsored s g e u pid) : Sponsored s' g e u pid := by
  obtain ⟨hne, ⟨p, hp, hpa⟩, r, hr, hrp⟩ := hs
  exact ⟨hne, ⟨p, h.proposal hp, hpa⟩, r, h.epoch hr, hrp⟩

/-- The invariant of the MLS tables. -/
structure MlsInv (s : MlsStore) : Prop where
  log_le : ∀ {g e r}, s.epoch? g e = some r → 0 ≤ e ∧ e ≤ s.currentEpoch g
  log_current : ∀ {g}, 0 ≤ s.currentEpoch g → (s.epoch? g (s.currentEpoch g)).isSome
  sponsored : ∀ {g e u w}, s.welcome? g e u = some w → w.accepted = false →
    Sponsored s g e u w.proposalID
  frozen : ∀ {g e u w}, s.welcome? g e u = some w → w.accepted = false →
    0 ≤ e ∧ s.currentEpoch g = e
  alive : ∀ {g e u w}, s.welcome? g e u = some w → w.accepted = false →
    ∃ v, s.isActive g v = true
  early : ∀ {g u m}, s.currentEpoch g < 0 → s.member? g u = some m → m.active = true

theorem mlsInv_empty : MlsInv empty where
  log_le := fun h => by cases h
  log_current := fun h => absurd h (show ¬(0 : ℤ) ≤ -1 by decide)
  sponsored := fun h => by cases h
  frozen := fun h => by cases h
  alive := fun h => by cases h
  early := fun _ h => by cases h

section Invariant

variable {s s' : MlsStore}

/-- A group that the pending check passes has no pending welcome. -/
theorem MlsInv.accepted_of_calm (hi : MlsInv s) {g : String}
    (hcalm : s.hasPendingMLSWelcome g = false) {e : ℤ} {u : String} {w : MlsWelcome}
    (hw : s.welcome? g e u = some w) : w.accepted = true := by
  by_contra hacc
  rw [Bool.not_eq_true] at hacc
  obtain ⟨-, ⟨p, hp, hadd, -⟩, -⟩ := hi.sponsored hw hacc
  rw [hasPendingMLSWelcome_of hw hacc hp hadd] at hcalm
  cases hcalm

theorem isActive_congr (hm : ∀ g u, s'.member? g u = s.member? g u) (g u : String) :
    s'.isActive g u = s.isActive g u := by
  rw [Bool.eq_iff_iff, isActive_iff, isActive_iff, hm]

/-- Steps that leave the welcomes and the epochs alone keep the invariant, given what they do to
the members. -/
theorem MlsInv.of_storesProposal (hi : MlsInv s) {room : String} {p : MlsProposal}
    (h : StoresProposal s s' room p) (hext : Extends s s')
    (hactive : ∀ g v, s.isActive g v = true → ∃ v', s'.isActive g v' = true)
    (hearly : ∀ g u m, s'.currentEpoch g < 0 → s'.member? g u = some m → m.active = true) :
    MlsInv s' where
  log_le := by
    intro g e r hr
    rw [epoch?_congr h.epochs] at hr
    rw [h.currentEpoch]
    exact hi.log_le hr
  log_current := by
    intro g hg
    rw [h.currentEpoch] at hg ⊢
    rw [epoch?_congr h.epochs]
    exact hi.log_current hg
  sponsored := by
    intro g e u w hw hacc
    rw [welcome?_congr h.welcomes] at hw
    exact (hi.sponsored hw hacc).mono hext
  frozen := by
    intro g e u w hw hacc
    rw [welcome?_congr h.welcomes] at hw
    rw [h.currentEpoch]
    exact hi.frozen hw hacc
  alive := by
    intro g e u w hw hacc
    rw [welcome?_congr h.welcomes] at hw
    obtain ⟨v, hv⟩ := hi.alive hw hacc
    exact hactive g v hv
  early := fun hg hm => hearly _ _ _ hg hm

/-- A commit keeps the invariant: its group has no pending welcome, and the other groups keep
their active members. -/
theorem MlsInv.of_logsCommit (hi : MlsInv s) {room : String} {r : MlsEpoch}
    (h : LogsCommit s s' room r) (hext : Extends s s')
    (hmembers : ∀ g u, g ≠ r.groupID → s'.member? g u = s.member? g u) : MlsInv s' where
  log_le := by
    intro g e q hq
    rw [h.epoch] at hq
    rw [h.currentEpoch]
    split_ifs at hq with hk
    · rw [if_pos hk.1, hk.2]
      exact ⟨h.nonneg, le_rfl⟩
    · have hle := hi.log_le hq
      split_ifs with hg
      · subst hg
        exact ⟨hle.1, hle.2.trans h.above⟩
      · exact hle
  log_current := by
    intro g hg
    rw [h.currentEpoch] at hg ⊢
    rw [h.epoch]
    split_ifs with hk h2 h2
    · rfl
    · exact absurd ⟨hk, rfl⟩ h2
    · exact absurd h2.1 hk
    · rw [if_neg hk] at hg
      exact hi.log_current hg
  sponsored := by
    intro g e u w hw hacc
    rw [welcome?_congr h.welcomes] at hw
    exact (hi.sponsored hw hacc).mono hext
  frozen := by
    intro g e u w hw hacc
    rw [welcome?_congr h.welcomes] at hw
    rw [h.currentEpoch]
    split_ifs with hg
    · subst hg
      rw [hi.accepted_of_calm h.calm hw] at hacc
      cases hacc
    · exact hi.frozen hw hacc
  alive := by
    intro g e u w hw hacc
    rw [welcome?_congr h.welcomes] at hw
    by_cases hg : g = r.groupID
    · subst hg
      rw [hi.accepted_of_calm h.calm hw] at hacc
      cases hacc
    · obtain ⟨v, hv⟩ := hi.alive hw hacc
      refine ⟨v, ?_⟩
      rw [isActive_iff] at hv ⊢
      rwa [hmembers g v hg]
  early := by
    intro g u m hg hm
    rw [h.currentEpoch] at hg
    split_ifs at hg with hk
    · exact absurd hg (not_lt.2 h.nonneg)
    · rw [hmembers g u hk] at hm
      exact hi.early hg hm

/-- A welcome keeps the invariant when it is accepted from the start or backed. -/
theorem MlsInv.of_storesWelcome (hi : MlsInv s) {room : String} {w : MlsWelcome}
    (h : StoresWelcome s s' room w)
    (hpending : w.accepted = false → Sponsored s w.groupID w.epoch w.targetCode w.proposalID ∧
      s.currentEpoch w.groupID = w.epoch ∧ ∃ v, s.isActive w.groupID v = true) :
    MlsInv s' := by
  have hext := h.extends
  have hactive := isActive_congr (member?_congr h.members)
  refine ⟨?_, ?_, ?_, ?_, ?_, ?_⟩
  · intro g e r hr
    rw [epoch?_congr h.epochs] at hr
    rw [h.currentEpoch]
    exact hi.log_le hr
  · intro g hg
    rw [h.currentEpoch] at hg ⊢
    rw [epoch?_congr h.epochs]
    exact hi.log_current hg
  · intro g e u x hx hacc
    rw [h.welcome] at hx
    split_ifs at hx with hk
    · cases hx
      obtain ⟨rfl, rfl, rfl⟩ := hk
      exact (hpending hacc).1.mono hext
    · exact (hi.sponsored hx hacc).mono hext
  · intro g e u x hx hacc
    rw [h.welcome] at hx
    rw [h.currentEpoch]
    split_ifs at hx with hk
    · cases hx
      obtain ⟨rfl, rfl, rfl⟩ := hk
      exact ⟨h.nonneg, (hpending hacc).2.1⟩
    · exact hi.frozen hx hacc
  · intro g e u x hx hacc
    rw [h.welcome] at hx
    simp only [hactive]
    split_ifs at hx with hk
    · cases hx
      obtain ⟨rfl, rfl, rfl⟩ := hk
      exact (hpending hacc).2.2
    · exact hi.alive hx hacc
  · intro g u m hg hm
    rw [h.currentEpoch] at hg
    rw [member?_congr h.members] at hm
    exact hi.early hg hm

theorem MlsInv.of_acceptsWelcome (hi : MlsInv s) {w : MlsWelcome} (h : AcceptsWelcome s s' w) :
    MlsInv s' := by
  have hcur : ∀ g, s'.currentEpoch g = s.currentEpoch g := fun g => currentEpoch_congr (h.group? g)
  -- an unaccepted row of the new store is an old one
  have hold : ∀ {g e u x}, s'.welcome? g e u = some x → x.accepted = false →
      s.welcome? g e u = some x := by
    intro g e u x hx hacc
    rw [h.welcome] at hx
    split_ifs at hx
    · cases hx
      cases hacc
    · exact hx
  refine ⟨?_, ?_, ?_, ?_, ?_, ?_⟩
  · intro g e r hr
    rw [epoch?_congr h.epochs] at hr
    rw [hcur]
    exact hi.log_le hr
  · intro g hg
    rw [hcur] at hg ⊢
    rw [epoch?_congr h.epochs]
    exact hi.log_current hg
  · intro g e u x hx hacc
    exact (hi.sponsored (hold hx hacc) hacc).mono h.extends
  · intro g e u x hx hacc
    rw [hcur]
    exact hi.frozen (hold hx hacc) hacc
  · intro g e u x hx hacc
    obtain ⟨v, hv⟩ := hi.alive (hold hx hacc) hacc
    refine ⟨v, ?_⟩
    rw [isActive_iff] at hv ⊢
    rw [h.member]
    split_ifs
    · exact ⟨_, rfl, rfl⟩
    · exact hv
  · intro g u m hg hm
    rw [hcur] at hg
    rw [h.member] at hm
    split_ifs at hm
    · cases hm
      rfl
    · exact hi.early hg hm

theorem InitializesCreator.isActive_mono {g sender : String}
    (h : InitializesCreator s s' g sender) {g' v : String} (hv : s.isActive g' v = true) :
    s'.isActive g' v = true := by
  rw [isActive_iff] at hv ⊢
  obtain ⟨m, hm, ha⟩ := hv
  rw [h.member]
  split_ifs
  · refine ⟨_, rfl, ?_⟩
    rw [hm]
    rfl
  · exact ⟨m, hm, ha⟩

theorem MlsInv.of_proposesForMember (hi : MlsInv s) {room sender : String} {p : MlsProposal}
    (h : ProposesForMember s s' room sender p) (hext : Extends s s') : MlsInv s' := by
  rcases h.members with hc | hm
  · refine hi.of_storesProposal h.stores hext (fun g v hv => ⟨v, hc.isActive_mono hv⟩) ?_
    intro g u m hg hmem
    rw [h.stores.currentEpoch] at hg
    rw [hc.member] at hmem
    split_ifs at hmem
    · cases hmem
      cases s.member? g u <;> rfl
    · exact hi.early hg hmem
  · refine hi.of_storesProposal h.stores hext (fun g v hv => ⟨v, ?_⟩) ?_
    · rw [isActive_congr (member?_congr hm)]
      exact hv
    · intro g u m hg hmem
      rw [h.stores.currentEpoch] at hg
      rw [member?_congr hm] at hmem
      exact hi.early hg hmem

end Invariant

theorem MlsInv.of_effect {s s' : MlsStore} {op : MlsOp} (hi : MlsInv s) (h : MlsEffect s s' op) :
    MlsInv s' := by
  have hext := h.extends
  cases h with
  | unchanged h => exact h ▸ hi
  | proposed h _ hm =>
    refine hi.of_storesProposal h hext (fun g v hv => ⟨v, ?_⟩) ?_
    · rw [isActive_congr (member?_congr hm)]
      exact hv
    · intro g u m hg hmem
      rw [h.currentEpoch] at hg
      rw [member?_congr hm] at hmem
      exact hi.early hg hmem
  | proposedForMember _ _ h => exact hi.of_proposesForMember h hext
  | committed h hm => exact hi.of_logsCommit h hext fun g u _ => member?_congr hm g u
  | committedForMember _ h =>
    refine hi.of_logsCommit h.logs hext fun g u hg => ?_
    rcases h.members with ⟨-, hm⟩ | ⟨-, hr⟩
    · exact member?_congr hm g u
    · rw [hr g u, if_neg fun hk => hg hk.1]
  | welcomed h ha =>
    refine hi.of_storesWelcome h fun hp => ?_
    rw [ha] at hp
    cases hp
  | welcomedForMember h =>
    refine hi.of_storesWelcome h.stores fun _ => ?_
    obtain ⟨gr, hg, -, hcur⟩ := h.current
    exact ⟨⟨h.proposalID, ⟨_, h.proposal, h.action, h.target⟩, _, h.epoch, h.committed⟩,
      (currentEpoch_of_group? hg).trans hcur, _, h.sender_active⟩
  | accepted h _ => exact hi.of_acceptsWelcome h

theorem mlsInv_run (ops : List MlsOp) : MlsInv (run (apply sha256Hex) empty ops) :=
  run_invariant _ (fun s op hi => hi.of_effect (apply_effect s op)) mlsInv_empty ops

/-! ### Pending welcomes -/

theorem mapM_ne_error {α β ε : Type} {f : α → Except ε β} {e : ε} {l : List α}
    (h : ∀ a ∈ l, f a ≠ .error e) : l.mapM f ≠ .error e := by
  induction l with
  | nil =>
    rw [List.mapM_nil]
    exact fun hcon => by cases hcon
  | cons a l ih =>
    have ha := h a List.mem_cons_self
    have hl := ih fun b hb => h b (List.mem_cons_of_mem _ hb)
    rw [List.mapM_cons]
    cases hfa : f a with
    | error x =>
      rw [hfa] at ha
      exact fun hcon => ha (by cases hcon; rfl)
    | ok b =>
      cases hfl : l.mapM f with
      | error x =>
        rw [hfl] at hl
        exact fun hcon => hl (by cases hcon; rfl)
      | ok bs => exact fun hcon => by cases hcon

theorem MlsInv.pendingRow_ne_stale {s : MlsStore} (hi : MlsInv s) {w : MlsWelcome}
    (hw : w ∈ s.welcomes.rows) (hacc : w.accepted = false) :
    s.pendingRow w ≠ .error .errMLSWelcomeStale := by
  have hl : s.welcome? w.groupID w.epoch w.targetCode = some w :=
    Table.lookup_of_mem (fun _ _ => Table.keyClash_of_eq _) s.welcomes hw
  obtain ⟨hnonneg, hcur⟩ := hi.frozen hl hacc
  unfold pendingRow
  cases hg : s.group? w.groupID with
  | none =>
    unfold currentEpoch at hcur
    rw [hg] at hcur
    have : (-1 : ℤ) = w.epoch := hcur
    omega
  | some gr =>
    rw [currentEpoch_of_group? hg] at hcur
    have hfresh : ¬(w.epoch < 0 ∨ gr.currentEpoch < 0 ∨ w.epoch ≠ gr.currentEpoch) := by omega
    simp only [if_neg hfresh]
    exact fun hcon => by cases hcon

/-- A pending welcome freezes its group: it belongs to the group's current epoch, so replaying
the pending welcomes of any user never finds a stale one. -/
theorem pending_welcome_freezes_group (ops : List MlsOp) :
    let s := run (apply sha256Hex) empty ops
    (∀ w ∈ s.welcomes.rows, w.accepted = false →
      ∃ gr, s.group? w.groupID = some gr ∧ gr.currentEpoch = w.epoch) ∧
    ∀ targetCode, s.pendingMLSWelcomes targetCode ≠ .error .errMLSWelcomeStale := by
  intro s
  have hi : MlsInv s := mlsInv_run ops
  refine ⟨?_, ?_⟩
  · intro w hw hacc
    have hl : s.welcome? w.groupID w.epoch w.targetCode = some w :=
      Table.lookup_of_mem (fun _ _ => Table.keyClash_of_eq _) s.welcomes hw
    obtain ⟨hnonneg, hcur⟩ := hi.frozen hl hacc
    unfold currentEpoch at hcur
    cases hg : s.group? w.groupID with
    | none =>
      rw [hg] at hcur
      have : (-1 : ℤ) = w.epoch := hcur
      omega
    | some gr =>
      rw [hg] at hcur
      exact ⟨gr, rfl, hcur⟩
  · intro targetCode
    unfold pendingMLSWelcomes
    cases hn : normalizeUserCode targetCode with
    | error x =>
      intro hcon
      cases x with
      | text t => cases hcon
      | _ => exact absurd hn (normalizeUserCode_ne_sentinel _ (by simp))
    | ok target =>
      refine mapM_ne_error ?_
      intro w hw
      rw [List.mem_insertionSort, List.mem_filter] at hw
      simp only [Bool.and_eq_true, Bool.not_eq_true'] at hw
      exact hi.pendingRow_ne_stale hw.1 hw.2.2

/-! ### Dead groups -/

/-- A member is activated by the creator path of a group without an epoch or by accepting a
pending welcome. -/
theorem MlsEffect.activates {s s' : MlsStore} {op : MlsOp} (h : MlsEffect s s' op) {g u : String}
    (hbefore : s.isActive g u = false) (hafter : s'.isActive g u = true) :
    s.currentEpoch g < 0 ∨
      ∃ w, s.welcome? w.groupID w.epoch w.targetCode = some w ∧ w.accepted = false ∧
        w.groupID = g := by
  have hsame : ¬∀ g' u', s'.member? g' u' = s.member? g' u' := by
    intro hm
    rw [isActive_congr hm, hbefore] at hafter
    cases hafter
  cases h with
  | unchanged h => exact absurd (fun g' u' => h ▸ rfl) hsame
  | proposed h _ hm => exact absurd (member?_congr hm) hsame
  | proposedForMember _ _ h =>
    rcases h.members with hc | hm
    · rw [isActive_iff, hc.member] at hafter
      split_ifs at hafter with hk
      · exact Or.inl (hk.1 ▸ hc.early)
      · rw [← isActive_iff, hbefore] at hafter
        cases hafter
    · exact absurd (member?_congr hm) hsame
  | committed h hm => exact absurd (member?_congr hm) hsame
  | committedForMember _ h =>
    rcases h.members with ⟨-, hm⟩ | ⟨-, hr⟩
    · exact absurd (member?_congr hm) hsame
    · exfalso
      rw [isActive_iff] at hafter
      obtain ⟨m, hm, ha⟩ := hafter
      rw [hr g u] at hm
      split_ifs at hm with hk
      · obtain ⟨rfl, rfl⟩ := hk
        obtain ⟨m', hm', rfl⟩ := Option.map_eq_some_iff.1 hm
        split_ifs at ha
        exact absurd (isActive_iff.2 ⟨m', hm', ha⟩) (by rw [hbefore]; decide)
      · exact absurd (isActive_iff.2 ⟨m, hm, ha⟩) (by rw [hbefore]; decide)
  | welcomed h _ => exact absurd (member?_congr h.members) hsame
  | welcomedForMember h => exact absurd (member?_congr h.stores.members) hsame
  | accepted h _ =>
    rw [isActive_iff, h.member] at hafter
    split_ifs at hafter with hk
    · exact Or.inr ⟨_, h.stored, h.pending, hk.1.symm⟩
    · rw [← isActive_iff, hbefore] at hafter
      cases hafter

/-- Nobody is active in the group, and it has had an epoch. -/
def Dead (g : String) (s : MlsStore) : Prop :=
  0 ≤ s.currentEpoch g ∧ ∀ u, s.isActive g u = false

theorem Dead.of_effect {s s' : MlsStore} {op : MlsOp} {g : String} (hi : MlsInv s)
    (hd : Dead g s) (h : MlsEffect s s' op) : Dead g s' := by
  refine ⟨hd.1.trans (h.extends.currentEpoch g), ?_⟩
  intro u
  by_contra hu
  rw [Bool.not_eq_false] at hu
  rcases h.activates (hd.2 u) hu with hneg | ⟨w, hw, hacc, rfl⟩
  · exact absurd hneg (not_lt.2 hd.1)
  · obtain ⟨v, hv⟩ := hi.alive hw hacc
    rw [hd.2 v] at hv
    cases hv

/-- A dead group stays dead: once it has an epoch and no active member, no later calls make any
of its members active. -/
theorem dead_group_never_revived (ops later : List MlsOp) (g : String) (gr : MlsGroup)
    (hg : (run (apply sha256Hex) empty ops).group? g = some gr) (hepoch : 0 ≤ gr.currentEpoch)
    (hdead : ∀ u, (run (apply sha256Hex) empty ops).isActive g u = false) (u : String) :
    (run (apply sha256Hex) (run (apply sha256Hex) empty ops) later).isActive g u = false := by
  have hstart : Dead g (run (apply sha256Hex) empty ops) :=
    ⟨by rw [currentEpoch_of_group? hg]; exact hepoch, hdead⟩
  have h := run_invariant (apply sha256Hex) (I := fun s => MlsInv s ∧ Dead g s)
    (fun s op hs => ⟨hs.1.of_effect (apply_effect s op), hs.2.of_effect hs.1 (apply_effect s op)⟩)
    ⟨mlsInv_run ops, hstart⟩ later
  exact h.2.2 u

/-- The SHA-256 digest of the one payload that the concrete run below hashes. -/
def sampleDigest (payload : String) : String :=
  if payload = "cHJvcG9zYWw=" then
    "82026727349f971e1aa8ef9204f2b55397294470943e58b95571d0cbb78e6c4b"
  else ""

/-- The creator of a group removes itself and proposes to add itself again. -/
theorem dead_group_never_revived_sample :
    let ops : List MlsOp :=
      [.saveMLSProposalForMember "g" "lobby" "alice" "remove" "alice" 0 "p" "cHJvcG9zYWw=",
        .saveMLSCommitForMember "g" "lobby" "alice" "p" 0 "Y29tbWl0"]
    let later : List MlsOp :=
      [.saveMLSProposalForMember "g" "lobby" "alice" "add" "alice" 1 "q" "cHJvcG9zYWw="]
    (run (apply sampleDigest) (run (apply sampleDigest) empty ops) later).isActive "g" "alice" =
      false := by
  intro ops later
  have hg : (run (apply sampleDigest) empty ops).group? "g" = some ⟨"g", "lobby", 0⟩ := by
    decide +kernel
  have hdead : (run (apply sampleDigest) empty ops).mlsGroupMembers "g" = [] := by
    decide +kernel
  exact dead_group_never_revived ops later "g" ⟨"g", "lobby", 0⟩ hg (by decide)
    (mlsGroupMembers_eq_nil.1 hdead) "alice"

/-! ### Provenance of members -/

/-- The membership row is backed by an accepted welcome at the epoch it joined. -/
def AddedBy (s : MlsStore) (m : MlsMember) : Prop :=
  ∃ w, s.welcome? m.groupID m.joinedEpoch m.userCode = some w ∧ w.accepted = true ∧
    Sponsored s m.groupID m.joinedEpoch m.userCode w.proposalID

theorem AddedBy.mono {s s' : MlsStore} (h : Extends s s') {m : MlsMember} (ha : AddedBy s m) :
    AddedBy s' m := by
  obtain ⟨w, hw, hacc, hs⟩ := ha
  exact ⟨w, h.accepted hw hacc, hacc, hs.mono h⟩

/-- The `i`-th call is the `SaveMLSProposalForMember` by `u` that gives the group its first
member row. -/
def IsCreation (sha256Hex : String → String) (ops : List MlsOp) (g u : String) (i : ℕ) : Prop :=
  (∀ v, (run (apply sha256Hex) empty (ops.take i)).member? g v = none) ∧
    (∃ room senderCode action target epoch pid proposal,
      ops[i]? = some (.saveMLSProposalForMember g room senderCode action target epoch pid proposal) ∧
        normalizeUserCode senderCode = .ok u) ∧
    ((run (apply sha256Hex) empty (ops.take (i + 1))).member? g u).isSome

theorem IsCreation.append {ops : List MlsOp} {g u : String} {i : ℕ}
    (h : IsCreation sha256Hex ops g u i) (op : MlsOp) :
    IsCreation sha256Hex (ops ++ [op]) g u i := by
  obtain ⟨h1, ⟨room, sc, act, t, e, pid, pr, h2, h3⟩, h4⟩ := h
  obtain ⟨hi, -⟩ := List.getElem?_eq_some_iff.1 h2
  refine ⟨?_, ⟨room, sc, act, t, e, pid, pr, ?_, h3⟩, ?_⟩
  · rwa [List.take_append_of_le_length (by omega)]
  · rwa [List.getElem?_append_left hi]
  · rwa [List.take_append_of_le_length (by omega)]

theorem IsCreation.le {ops : List MlsOp} {g u v : String} {i j : ℕ}
    (hi : IsCreation sha256Hex ops g u i) (hj : IsCreation sha256Hex ops g v j) : j ≤ i := by
  by_contra hlt
  have hsplit : ops.take j = ops.take (i + 1) ++ (ops.take j).drop (i + 1) := by
    conv_lhs => rw [← List.take_append_drop (i + 1) (ops.take j)]
    rw [List.take_take, min_eq_left (by omega)]
  have hkept := (@run_extends sha256Hex
    (run (apply sha256Hex) empty (ops.take (i + 1))) ((ops.take j).drop (i + 1))).member hi.2.2
  rw [← run_append, ← hsplit, hj.1 u] at hkept
  cases hkept

/-- There is one creation, hence one creator. -/
theorem IsCreation.unique {ops : List MlsOp} {g u v : String} {i j : ℕ}
    (hi : IsCreation sha256Hex ops g u i) (hj : IsCreation sha256Hex ops g v j) :
    j = i ∧ v = u := by
  have hij : j = i := le_antisymm (hi.le hj) (hj.le hi)
  subst hij
  obtain ⟨-, ⟨_, sc, _, _, _, _, _, h1, hu⟩, -⟩ := hi
  obtain ⟨-, ⟨_, sc', _, _, _, _, _, h2, hv⟩, -⟩ := hj
  rw [h1] at h2
  cases h2
  rw [hu] at hv
  cases hv
  exact ⟨rfl, rfl⟩

/-- What a call does to an active row: the row is old, or it is the creator's first row, or it
comes from an accepted welcome. -/
theorem MlsEffect.active_row {s s' : MlsStore} {op : MlsOp} (hi : MlsInv s)
    (h : MlsEffect s s' op) {g u : String} {m : MlsMember} (hm : s'.member? g u = some m)
    (ha : m.active = true) :
    s.member? g u = some m ∨
    ((∀ v, s.member? g v = none) ∧
      ∃ room senderCode action target epoch pid proposal,
        op = .saveMLSProposalForMember g room senderCode action target epoch pid proposal ∧
          normalizeUserCode senderCode = .ok u) ∨
    AddedBy s' m := by
  have hext := h.extends
  cases h with
  | unchanged h => exact Or.inl (h ▸ hm)
  | proposed h _ hmem => exact Or.inl ((member?_congr hmem g u).symm.trans hm)
  | proposedForMember hs hg h =>
    rcases h.members with hc | hmem
    · have hm' := hc.member g u
      rw [hm] at hm'
      split_ifs at hm' with hk
      · right
        left
        obtain ⟨rfl, rfl⟩ := hk
        refine ⟨?_, _, _, _, _, _, _, _, by rw [hg], hs⟩
        -- before its first epoch every row of the group would be active
        intro v
        cases hv : s.member? _ v with
        | none => rfl
        | some x =>
          have hx := isActive_iff.2 ⟨x, hv, hi.early hc.early hv⟩
          rw [hc.memberless v] at hx
          cases hx
      · exact Or.inl hm'.symm
    · exact Or.inl ((member?_congr hmem g u).symm.trans hm)
  | committed h hmem => exact Or.inl ((member?_congr hmem g u).symm.trans hm)
  | committedForMember _ h =>
    rcases h.members with ⟨-, hmem⟩ | ⟨-, hr⟩
    · exact Or.inl ((member?_congr hmem g u).symm.trans hm)
    · left
      rw [hr g u] at hm
      split_ifs at hm with hk
      · obtain ⟨rfl, rfl⟩ := hk
        obtain ⟨m', hm', rfl⟩ := Option.map_eq_some_iff.1 hm
        split_ifs at ha with ha'
        rw [if_neg ha', hm']
      · exact hm
  | welcomed h _ => exact Or.inl ((member?_congr h.members g u).symm.trans hm)
  | welcomedForMember h => exact Or.inl ((member?_congr h.stores.members g u).symm.trans hm)
  | accepted h _ =>
    have hm' := h.member g u
    rw [hm] at hm'
    split_ifs at hm' with hk
    · right
      right
      cases hm'
      exact ⟨_, (h.welcome _ _ _).trans (if_pos ⟨rfl, rfl, rfl⟩), rfl,
        (hi.sponsored h.stored h.pending).mono hext⟩
    · exact Or.inl hm'.symm

/-- Every active member is the one creator of its group or joined through an accepted welcome
whose add proposal the epoch of joining committed. -/
theorem active_member_provenance (ops : List MlsOp) (g u : String) (m : MlsMember)
    (hm : (run (apply sha256Hex) empty ops).member? g u = some m) (ha : m.active = true) :
    (∃ i, IsCreation sha256Hex ops g u i ∧
      ∀ j v, IsCreation sha256Hex ops g v j → j = i ∧ v = u) ∨
    (∃ w p r, (run (apply sha256Hex) empty ops).welcome? g m.joinedEpoch u = some w ∧
      w.accepted = true ∧ w.proposalID ≠ "" ∧
      (run (apply sha256Hex) empty ops).proposal? g m.joinedEpoch w.proposalID = some p ∧
      p.action = .add ∧ p.targetCode = u ∧
      (run (apply sha256Hex) empty ops).epoch? g m.joinedEpoch = some r ∧
      r.proposalID = w.proposalID) := by
  have key : (∃ i, IsCreation sha256Hex ops g u i) ∨
      AddedBy (run (apply sha256Hex) empty ops) m := by
    induction ops using List.reverseRecOn with
    | nil => cases hm
    | append_singleton ops op ih =>
      rw [run_concat] at hm ⊢
      rcases (apply_effect _ op).active_row (mlsInv_run ops) hm ha with hold | ⟨hnone, hop⟩ | hadd
      · rcases ih hold with ⟨i, hi⟩ | hadd
        · exact Or.inl ⟨i, hi.append op⟩
        · exact Or.inr (hadd.mono (apply_extends _ op))
      · left
        obtain ⟨room, sc, act, t, e, pid, pr, rfl, hs⟩ := hop
        refine ⟨ops.length, ?_, ⟨room, sc, act, t, e, pid, pr, by simp, hs⟩, ?_⟩
        · intro v
          rw [List.take_left]
          exact hnone v
        · rw [List.take_of_length_le (by simp), run_concat, hm]
          rfl
      · exact Or.inr hadd
  rcases key with ⟨i, hi⟩ | ⟨w, hw, hacc, hne, ⟨p, hp, hadd, ht⟩, r, hr, hrp⟩
  · exact Or.inl ⟨i, hi, fun j v hj => hi.unique hj⟩
  · have hk := Table.key_of_lookup hm
    simp only [MlsMember.key, Prod.mk.injEq] at hk
    obtain ⟨rfl, rfl⟩ := hk
    exact Or.inr ⟨w, p, r, hw, hacc, hne, hp, hadd, ht, hr, hrp⟩

/-- The first proposal of a group makes its sender an active member. -/
theorem active_member_provenance_sample :
    let ops : List MlsOp :=
      [.saveMLSProposalForMember "g" "lobby" "alice" "add" "bob" 0 "p" "cHJvcG9zYWw="]
    ∃ i, IsCreation sampleDigest ops "g" "alice" i := by
  intro ops
  have hm : (run (apply sampleDigest) empty ops).member? "g" "alice" =
      some ⟨"g", "alice", true, 0, none⟩ := by
    decide +kernel
  have hnone : (run (apply sampleDigest) empty ops).welcome? "g" 0 "alice" = none := by
    decide +kernel
  rcases active_member_provenance ops "g" "alice" _ hm rfl with ⟨i, hi, -⟩ | ⟨w, -, -, hw, -⟩
  · exact ⟨i, hi⟩
  · rw [hnone] at hw
    cases hw

end MlsStore

end LanChat
