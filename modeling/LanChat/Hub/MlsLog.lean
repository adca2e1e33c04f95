import LanChat.Hub.ChatLog
import LanChat.Store.MlsRuns

/-!
# The MLS tables along runs of the Hub

An event changes the MLS tables by at most one of the seven store operations, with the sender and
the fields of its frame as arguments.

* `MlsOpOf obj m op`: the operations that a frame `m` of the client object `obj` can lead to;
* `step_mls`: every event keeps the five MLS tables or applies one such operation;
* `step_relays`: commits are relayed only by the request that logs them;
* `commit_log_agreement` and `strict_commits_advance_epoch` for every run.
-/

namespace LanChat

namespace Hub

open GoStrings Registry EventMachine MlsStore

variable {h k : Hub}

/-- The store operations that a frame can lead to; the room and the normalized target come from
the handler. -/
inductive MlsOpOf (obj : Client) (m : Message) : MlsOp → Prop
  | commitForMember (room : String) (ht : m.type = .mlsGroupCommit) (hp : m.proposalID ≠ "") :
      MlsOpOf obj m (.saveMLSCommitForMember m.groupID room obj.normalizedCode m.proposalID m.epoch
        m.commit)
  | commit (room : String) (ht : m.type = .mlsGroupCommit) (hp : m.proposalID = "") :
      MlsOpOf obj m (.saveMLSCommit m.groupID room m.epoch m.commit)
  | proposeForMember (room target : String) (ht : m.type = .mlsGroupProposal) :
      MlsOpOf obj m (.saveMLSProposalForMember m.groupID room obj.normalizedCode m.action target
        m.epoch m.proposalID m.proposal)
  | propose (room : String) (ht : m.type = .mlsGroupProposal) :
      MlsOpOf obj m (.saveMLSProposal m.groupID room m.epoch m.proposalID m.proposal)
  | welcomeForMember (room target : String) (ht : m.type = .mlsGroupWelcome) :
      MlsOpOf obj m (.saveMLSWelcomeForMember m.groupID room obj.normalizedCode m.epoch target
        m.proposalID m.welcome)
  | welcome (room target : String) (ht : m.type = .mlsGroupWelcome) :
      MlsOpOf obj m (.saveMLSWelcome m.groupID room m.epoch target m.welcome)
  | accept (room target : String) (ht : m.type = .mlsGroupWelcomeAccept) :
      MlsOpOf obj m (.acceptMLSWelcomeForMember m.groupID room target m.epoch m.proposalID
        m.welcomeDigest)

/-- The five MLS tables are as they were. -/
def KeepsMls (s s' : MlsStore) : Prop := ∃ keyPackages, s' = { s with keyPackages }

theorem KeepsMls.refl (s : MlsStore) : KeepsMls s s := ⟨s.keyPackages, rfl⟩

/-- What a frame does to the MLS part of the database. -/
def MlsWrites (platform : Platform) (obj : Client) (m : Message) (s s' : MlsStore) : Prop :=
  KeepsMls s s' ∨ ∃ op, MlsOpOf obj m op ∧ s' = s.apply platform.sha256Hex op

theorem mlsWrites_refl {platform : Platform} {obj : Client} {m : Message} (s : MlsStore) :
    MlsWrites platform obj m s s := .inl (KeepsMls.refl s)

theorem apply_of_result {sha256Hex : String → String} {s s' : MlsStore} {op : MlsOp}
    (hr : s.result sha256Hex op = .ok s') : s.apply sha256Hex op = s' := by
  unfold apply
  rw [hr]

section Handlers

variable (platform : Platform) (env : Env) (c : ClientID) {obj : Client} {m : Message}
  (hobj : h.registry.client? c = some obj)

theorem mls_commitForMember (ht : m.type = .mlsGroupCommit) (hp : m.proposalID ≠ "") :
    MlsWrites platform obj m h.db.mls (h.commitForMember env c obj
      ⟨m.groupID, m.room, m.epoch, m.commit, m.proposalID, m.commandID⟩).db.mls := by
  unfold commitForMember
  dsimp only
  split
  · exact mlsWrites_refl _
  · rename_i inserted membership mls hcall
    have hsave := (call_eq_ok.1 hcall).2
    refine .inr ⟨_, .commitForMember (requestRoom m.room obj) ht hp, ?_⟩
    exact (apply_of_result (map_eq_ok.2 ⟨_, hsave, rfl⟩)).symm

theorem mls_commitLegacy (ht : m.type = .mlsGroupCommit) (hp : m.proposalID = "") :
    MlsWrites platform obj m h.db.mls (h.commitLegacy env c obj
      ⟨m.groupID, m.room, m.epoch, m.commit, m.proposalID, m.commandID⟩).db.mls := by
  unfold commitLegacy
  dsimp only
  split
  · exact mlsWrites_refl _
  split
  · exact mlsWrites_refl _
  · rename_i inserted mls hcall
    have hsave := (call_eq_ok.1 hcall).2
    refine .inr ⟨_, .commit (requestRoom m.room obj) ht hp, ?_⟩
    exact (apply_of_result (map_eq_ok.2 ⟨_, hsave, rfl⟩)).symm

theorem mls_proposeForMember (ht : m.type = .mlsGroupProposal) :
    MlsWrites platform obj m h.db.mls (h.proposeForMember platform env c obj ⟨m.groupID, m.room,
      m.epoch, m.proposalID, m.action, m.targetUserCode, m.proposal, m.commandID⟩).db.mls := by
  unfold proposeForMember
  dsimp only
  split
  · exact mlsWrites_refl _
  rename_i target _
  split
  · exact mlsWrites_refl _
  split
  · exact mlsWrites_refl _
  · rename_i inserted membership mls hcall
    have hsave := (call_eq_ok.1 hcall).2
    refine .inr ⟨_, .proposeForMember (requestRoom m.room obj) target ht, ?_⟩
    exact (apply_of_result (map_eq_ok.2 ⟨_, hsave, rfl⟩)).symm

theorem mls_proposeLegacy (ht : m.type = .mlsGroupProposal) :
    MlsWrites platform obj m h.db.mls (h.proposeLegacy platform env c obj ⟨m.groupID, m.room,
      m.epoch, m.proposalID, m.action, m.targetUserCode, m.proposal, m.commandID⟩).db.mls := by
  unfold proposeLegacy
  dsimp only
  split
  · exact mlsWrites_refl _
  split
  · exact mlsWrites_refl _
  · rename_i inserted mls hcall
    have hsave := (call_eq_ok.1 hcall).2
    refine .inr ⟨_, .propose (requestRoom m.room obj) ht, ?_⟩
    exact (apply_of_result (map_eq_ok.2 ⟨_, hsave, rfl⟩)).symm

theorem mls_welcomeForMember (ht : m.type = .mlsGroupWelcome) (target targetCode : String) :
    MlsWrites platform obj m h.db.mls (h.welcomeForMember platform env c obj target ⟨m.groupID,
      m.room, m.epoch, m.proposalID, m.welcomeDigest, targetCode, m.welcome, m.commandID⟩).db.mls := by
  unfold welcomeForMember
  dsimp only
  split
  · exact mlsWrites_refl _
  split
  · exact mlsWrites_refl _
  · rename_i inserted mls hcall
    have hsave := (call_eq_ok.1 hcall).2
    refine .inr ⟨_, .welcomeForMember (requestRoom m.room obj) target ht, ?_⟩
    exact (apply_of_result (map_eq_ok.2 ⟨_, hsave, rfl⟩)).symm

theorem mls_welcomeLegacy (ht : m.type = .mlsGroupWelcome) (target targetCode : String) :
    MlsWrites platform obj m h.db.mls (h.welcomeLegacy env c obj target ⟨m.groupID,
      m.room, m.epoch, m.proposalID, m.welcomeDigest, targetCode, m.welcome, m.commandID⟩).db.mls := by
  unfold welcomeLegacy
  dsimp only
  split
  · exact mlsWrites_refl _
  split
  · exact mlsWrites_refl _
  · rename_i inserted mls hcall
    have hsave := (call_eq_ok.1 hcall).2
    refine .inr ⟨_, .welcome (requestRoom m.room obj) target ht, ?_⟩
    exact (apply_of_result (map_eq_ok.2 ⟨_, hsave, rfl⟩)).symm

include hobj

theorem mls_handleMLSGroupCommit (ht : m.type = .mlsGroupCommit) :
    MlsWrites platform obj m h.db.mls (h.handleMLSGroupCommit env c
      ⟨m.groupID, m.room, m.epoch, m.commit, m.proposalID, m.commandID⟩).db.mls := by
  unfold handleMLSGroupCommit
  rw [hobj]
  dsimp only
  split
  · exact mlsWrites_refl _
  split
  · rename_i hp
    exact mls_commitForMember platform env c ht hp
  · rename_i hp
    exact mls_commitLegacy platform env c ht (not_not.1 hp)

theorem mls_handleMLSGroupProposal (ht : m.type = .mlsGroupProposal) :
    MlsWrites platform obj m h.db.mls (h.handleMLSGroupProposal platform env c ⟨m.groupID, m.room,
      m.epoch, m.proposalID, m.action, m.targetUserCode, m.proposal, m.commandID⟩).db.mls := by
  unfold handleMLSGroupProposal
  rw [hobj]
  dsimp only
  split
  · exact mlsWrites_refl _
  split
  · exact mls_proposeForMember platform env c ht
  · exact mls_proposeLegacy platform env c ht

theorem mls_handleMLSGroupWelcome (ht : m.type = .mlsGroupWelcome) (targetCode : String) :
    MlsWrites platform obj m h.db.mls (h.handleMLSGroupWelcome platform env c ⟨m.groupID, m.room,
      m.epoch, m.proposalID, m.welcomeDigest, targetCode, m.welcome, m.commandID⟩).db.mls := by
  unfold handleMLSGroupWelcome
  rw [hobj]
  dsimp only
  split
  · exact mlsWrites_refl _
  split
  · exact mlsWrites_refl _
  split
  · exact mls_welcomeForMember platform env c ht _ _
  · exact mls_welcomeLegacy platform env c ht _ _

theorem mls_handleMLSGroupWelcomeAccept (ht : m.type = .mlsGroupWelcomeAccept)
    (targetCode : String) :
    MlsWrites platform obj m h.db.mls (h.handleMLSGroupWelcomeAccept env c ⟨m.groupID, m.room,
      m.epoch, m.proposalID, m.welcomeDigest, targetCode, m.commandID⟩).db.mls := by
  unfold handleMLSGroupWelcomeAccept
  rw [hobj]
  dsimp only
  split
  · exact mlsWrites_refl _
  split
  · exact mlsWrites_refl _
  rename_i target _
  split
  · exact mlsWrites_refl _
  split
  · exact mlsWrites_refl _
  · rename_i accepted mls hcall
    have hsave := (call_eq_ok.1 hcall).2
    refine .inr ⟨_, .accept (requestRoom m.room obj) target ht, ?_⟩
    exact (apply_of_result (map_eq_ok.2 ⟨_, hsave, rfl⟩)).symm

theorem mls_handleMLSKeyPackagePublish (keyPackage commandID : String) :
    KeepsMls h.db.mls (h.handleMLSKeyPackagePublish env c keyPackage commandID).db.mls := by
  unfold handleMLSKeyPackagePublish
  rw [hobj]
  dsimp only
  split
  · exact KeepsMls.refl _
  split
  · exact KeepsMls.refl _
  · rename_i mls hcall
    have hpublish := (call_eq_ok.1 hcall).2
    unfold publishMLSKeyPackage at hpublish
    obtain ⟨_, -, hpublish⟩ := bind_eq_ok.1 hpublish
    obtain ⟨_, -, hpublish⟩ := bind_eq_ok.1 hpublish
    cases hpublish
    exact ⟨_, rfl⟩

end Handlers

/-- Every event keeps the five MLS tables or applies one operation of its frame. -/
theorem step_mls (platform : Platform) (hs : Sound h.registry) (e : Event) :
    KeepsMls h.db.mls (step platform h e).db.mls ∨
      ∃ c obj m op, FrameOf h e c obj m ∧ MlsOpOf obj m op ∧
        (step platform h e).db.mls = h.db.mls.apply platform.sha256Hex op := by
  by_cases hmls : Part.mls ∈ e.input.writes
  · cases hinput : e.input with
    | frame c m limited muted =>
      simp only [step, hinput]
      unfold readPump
      split
      · exact .inl (KeepsMls.refl _)
      rename_i obj hobj
      split
      · exact .inl (KeepsMls.refl _)
      split
      · exact .inl (KeepsMls.refl _)
      split
      · exact .inl (KeepsMls.refl _)
      have hframe : FrameOf h e c obj m := ⟨⟨limited, muted, hinput⟩, hobj⟩
      have hwrites : ∀ {s : MlsStore}, MlsWrites platform obj m h.db.mls s →
          KeepsMls h.db.mls s ∨ ∃ c obj m op, FrameOf h e c obj m ∧ MlsOpOf obj m op ∧
            s = h.db.mls.apply platform.sha256Hex op := by
        rintro s (hkeeps | ⟨op, hop, hs⟩)
        · exact .inl hkeeps
        · exact .inr ⟨c, obj, m, op, hframe, hop, hs⟩
      unfold dispatch validated
      cases ht : m.type with
      | mlsKeyPackagePublish =>
        dsimp only
        split
        · exact .inl (mls_handleMLSKeyPackagePublish e.env c hobj _ _)
        · exact .inl (KeepsMls.refl _)
      | mlsGroupCommit =>
        dsimp only
        split
        · exact hwrites (mls_handleMLSGroupCommit platform e.env c hobj ht)
        · exact .inl (KeepsMls.refl _)
      | mlsGroupProposal =>
        dsimp only
        split
        · exact hwrites (mls_handleMLSGroupProposal platform e.env c hobj ht)
        · exact .inl (KeepsMls.refl _)
      | mlsGroupWelcome =>
        dsimp only
        split
        · exact hwrites (mls_handleMLSGroupWelcome platform e.env c hobj ht _)
        · exact .inl (KeepsMls.refl _)
      | mlsGroupWelcomeAccept =>
        dsimp only
        split
        · exact hwrites (mls_handleMLSGroupWelcomeAccept platform e.env c hobj ht _)
        · exact .inl (KeepsMls.refl _)
      | _ => simp [hinput, Input.writes, ht, frameParts, chatParts] at hmls
    | _ => simp [hinput, Input.writes] at hmls
  · refine .inl ?_
    cases hinput : e.input.isRestart with
    | false =>
      have hsame : (step platform h e).db.mls = h.db.mls :=
        (step_touches platform hs e hinput).same _ hmls
      rw [hsame]
      exact KeepsMls.refl _
    | true =>
      obtain ⟨input, env⟩ := e
      cases input with
      | restart adminCode => exact KeepsMls.refl _
      | _ => cases hinput

/-! ### Invariants -/

theorem KeepsMls.mlsInv {s s' : MlsStore} (hk : KeepsMls s s') (hi : MlsInv s) : MlsInv s' := by
  obtain ⟨keyPackages, rfl⟩ := hk
  exact ⟨hi.log_le, hi.log_current, hi.sponsored, hi.frozen, hi.alive, hi.early⟩

theorem KeepsMls.extends {s s' : MlsStore} (hk : KeepsMls s s') : Extends s s' := by
  obtain ⟨keyPackages, rfl⟩ := hk
  exact ⟨id, id, fun h _ => h, id, id, fun _ => le_rfl⟩

/-- The registry is sound and the MLS tables are consistent. -/
structure MlsHubInv (h : Hub) : Prop where
  sound : Sound h.registry
  mls : MlsInv h.db.mls

theorem mlsHubInv_start (adminCode : String) (offlineStore : Bool) :
    MlsHubInv (start adminCode offlineStore) := ⟨sound_start adminCode offlineStore, mlsInv_empty⟩

theorem mlsHubInv_step (platform : Platform) (h : Hub) (e : Event) (hi : MlsHubInv h) :
    MlsHubInv (step platform h e) := by
  refine ⟨sound_step platform h e hi.sound, ?_⟩
  rcases step_mls platform hi.sound e with hkeeps | ⟨c, obj, m, op, -, -, heq⟩
  · exact hkeeps.mlsInv hi.mls
  · rw [heq]
    exact hi.mls.of_effect (apply_effect _ op)

theorem mlsHubInv_run (platform : Platform) (adminCode : String) (offlineStore : Bool)
    (es : List Event) : MlsHubInv (after platform adminCode offlineStore es) :=
  run_invariant (step platform) (mlsHubInv_step platform) (mlsHubInv_start adminCode offlineStore) es

theorem extends_of_sound (platform : Platform) (hs : Sound h.registry) (e : Event) :
    Extends h.db.mls (step platform h e).db.mls := by
  rcases step_mls platform hs e with hkeeps | ⟨c, obj, m, op, -, -, heq⟩
  · exact hkeeps.extends
  · rw [heq]
    exact apply_extends _ op

theorem extends_step (platform : Platform) (h : Hub) (e : Event) (hi : MlsHubInv h) :
    Extends h.db.mls (step platform h e).db.mls := extends_of_sound platform hi.sound e

/-- Nothing durable is lost between two states of a run. -/
theorem extends_run (platform : Platform) (adminCode : String) (offlineStore : Bool)
    (es fs : List Event) :
    Extends (after platform adminCode offlineStore es).db.mls
      (after platform adminCode offlineStore (es ++ fs)).db.mls := by
  unfold after
  rw [run_append]
  exact run_rel (I := MlsHubInv) (R := fun a b => Extends a.db.mls b.db.mls) (step platform)
    (fun s => Extends.refl s.db.mls) (fun _ _ _ => Extends.trans) (mlsHubInv_step platform)
    (extends_step platform) (mlsHubInv_run platform adminCode offlineStore es) fs

/-! ### Relays -/

/-- The message carries a commit that the step from `h` to `k` has logged. -/
def RelaysCommit (h k : Hub) (x : Message) : Prop :=
  h.db.mls.epoch? x.groupID x.epoch.toNat = none ∧
    ∃ row, k.db.mls.epoch? x.groupID x.epoch.toNat = some row ∧ row.commitData = x.commit

/-- What the step sends as a commit is a relay of what it has logged. -/
def RelaysOnly (h k : Hub) (x : ClientID × Message) : Prop :=
  x.2.type = .mlsGroupCommit → x.2.commit ≠ "" → RelaysCommit h k x.2

theorem emits_tellCode {r : Registry} {P : ClientID × Message → Prop} {code : String} {m : Message}
    (hm : ∀ c, P (c, m)) : Emits P r (tellCode r code m) := by
  unfold tellCode
  split
  · exact emits_tell (hm _)
  · exact Emits.refl r

theorem emits_tellMembers {r : Registry} {P : ClientID × Message → Prop} {members : List String}
    {sender : String} {m : Message} (hm : members ≠ [] → ∀ c, P (c, m)) :
    Emits P r (tellMembers r members sender m) := by
  unfold tellMembers
  refine emits_foldl (fun r code hcode => emits_tellCode (hm ?_)) r
  rintro rfl
  cases hcode

theorem relays_commitForMember (env : Env) (c : ClientID) (obj : Client) (q : CommitRequest) :
    Emits (RelaysOnly h (h.commitForMember env c obj q)) h.registry
      (h.commitForMember env c obj q).registry := by
  unfold commitForMember
  dsimp only
  split
  · exact emits_tell fun ht => by cases ht
  · rename_i inserted membership mls hcall
    have hsave := (call_eq_ok.1 hcall).2
    refine Emits.trans (emits_tellMembers fun hne d _ _ => ?_) (emits_tell fun _ hne => ?_)
    · obtain ⟨_, -, ⟨rfl, -, -⟩ | ⟨rfl, p, -, hcommit⟩⟩ := saveMLSCommitForMember_ok hsave
      · exact absurd rfl hne
      · refine ⟨hcommit.logs.fresh, ⟨q.groupID, q.epoch.toNat, q.proposalID, q.commit⟩, ?_, rfl⟩
        exact (hcommit.logs.epoch _ _).trans (if_pos ⟨rfl, rfl⟩)
    · exact absurd rfl hne

theorem relays_commitLegacy (env : Env) (c : ClientID) (obj : Client) (q : CommitRequest) :
    Emits (RelaysOnly h (h.commitLegacy env c obj q)) h.registry
      (h.commitLegacy env c obj q).registry := by
  unfold commitLegacy
  dsimp only
  split
  · exact emits_tell fun ht => by cases ht
  split
  · exact emits_tell fun ht => by cases ht
  · rename_i inserted mls hcall
    have hsave := (call_eq_ok.1 hcall).2
    refine Emits.trans ?_ (emits_tell fun _ hne => absurd rfl hne)
    rcases saveMLSCommit_ok hsave with ⟨rfl, -, -⟩ | ⟨rfl, -, hcommit⟩
    · exact Emits.refl _
    · refine emits_tellAll fun d _ _ _ =>
        ⟨hcommit.fresh, ⟨q.groupID, q.epoch.toNat, "", q.commit⟩, ?_, rfl⟩
      exact (hcommit.epoch _ _).trans (if_pos ⟨rfl, rfl⟩)

/-- Commits are relayed only by the event that logs them. -/
theorem step_relays (platform : Platform) (hs : Sound h.registry) (e : Event) :
    Emits (RelaysOnly h (step platform h e)) h.registry (step platform h e).registry := by
  cases hlive : e.input.isRestart with
  | true =>
    obtain ⟨input, env⟩ := e
    cases input with
    | restart adminCode => exact Emits.of_eq rfl
    | _ => cases hlive
  | false =>
    by_cases hsend : MessageType.mlsGroupCommit ∈ e.input.sends
    · cases hinput : e.input with
      | frame c m limited muted =>
        have ht : m.type = .mlsGroupCommit := by
          cases ht : m.type with
          | mlsGroupCommit => rfl
          | _ =>
            simp [hinput, Input.sends, ht, frameTypes, chatTypes, roomTypes,
              recallTypes, adminTypes, requestTypes] at hsend
        simp only [step, hinput]
        unfold readPump
        split
        · exact Emits.refl _
        rename_i obj hobj
        split
        · exact Emits.refl _
        split
        · have hquiet : Moves False [.system] h.registry (h.registry.unregisterClient e.env c) :=
            moves_unregisterClient (by decide) e.env c
          exact hquiet.emits.mono fun x hx ht => by simp [ht] at hx
        split
        · exact emits_tell fun ht => by cases ht
        unfold dispatch validated
        rw [ht]
        dsimp only
        split
        · unfold handleMLSGroupCommit
          rw [hobj]
          dsimp only
          split
          · exact emits_tell fun ht => by cases ht
          split
          · exact relays_commitForMember e.env c obj _
          · exact relays_commitLegacy e.env c obj _
        · exact emits_tell fun ht => by cases ht
      | _ => simp [hinput, Input.sends, adminTypes, loginTypes, replayTypes, historyTypes] at hsend
    · refine (step_touches platform hs e hlive).moves.emits.mono fun x hx ht => ?_
      rw [ht] at hx
      exact absurd hx hsend

/-- Event number `i` of the run relays the commit `x` to the client `d`.  An acknowledgement never
carries the commit. -/
def RelayedAt (platform : Platform) (adminCode : String) (offlineStore : Bool) (es : List Event)
    (i : ℕ) (d : ClientID) (x : Message) : Prop :=
  i < es.length ∧
    (d, x) ∈ sentBetween (after platform adminCode offlineStore (es.take i))
      (after platform adminCode offlineStore (es.take (i + 1))) ∧
    x.type = .mlsGroupCommit ∧ x.commit ≠ ""

section Runs

variable {platform : Platform} {adminCode : String} {offlineStore : Bool} {es : List Event}

theorem extends_take {i j : ℕ} (hij : i ≤ j) :
    Extends (after platform adminCode offlineStore (es.take i)).db.mls
      (after platform adminCode offlineStore (es.take j)).db.mls := by
  obtain ⟨fs, hfs⟩ : es.take i <+: es.take j := List.take_prefix_take_left hij
  rw [← hfs]
  exact extends_run platform adminCode offlineStore _ fs

theorem RelayedAt.relays {i : ℕ} {d : ClientID} {x : Message}
    (hx : RelayedAt platform adminCode offlineStore es i d x) :
    RelaysCommit (after platform adminCode offlineStore (es.take i))
      (after platform adminCode offlineStore (es.take (i + 1))) x := by
  obtain ⟨hi, hmem, ht, hne⟩ := hx
  have hemit := step_relays platform (sound_run platform adminCode offlineStore (es.take i)) es[i]
  rw [← after_take_succ hi] at hemit
  exact mem_sentBetween hemit hmem ht hne

/-- A logged commit is not relayed by a later event. -/
theorem RelayedAt.not_lt {i j : ℕ} {d d' : ClientID} {x x' : Message}
    (hx : RelayedAt platform adminCode offlineStore es i d x)
    (hx' : RelayedAt platform adminCode offlineStore es j d' x') (hg : x.groupID = x'.groupID)
    (he : x.epoch = x'.epoch) : ¬ i < j := by
  intro hij
  obtain ⟨-, row, hrow, -⟩ := hx.relays
  obtain ⟨hfresh, -⟩ := hx'.relays
  have hext : Extends (after platform adminCode offlineStore (es.take (i + 1))).db.mls
      (after platform adminCode offlineStore (es.take j)).db.mls := extends_take hij
  have hkept := hext.epoch hrow
  rw [hg, he, hfresh] at hkept
  cases hkept

end Runs

/-- The commit log of the server.  For one group and epoch all relays carry the same commit and
are sent by one event; logged rows never change; `current_epoch` never decreases; the log of a
group reaches up to its `current_epoch` and has a row there. -/
theorem commit_log_agreement (platform : Platform) (adminCode : String) (offlineStore : Bool)
    (es : List Event) :
    (∀ i j d d' x x', RelayedAt platform adminCode offlineStore es i d x →
      RelayedAt platform adminCode offlineStore es j d' x' → x.groupID = x'.groupID →
      x.epoch = x'.epoch → i = j ∧ x.commit = x'.commit) ∧
    (∀ fs, fs <+: es → ∀ g n row, (after platform adminCode offlineStore fs).db.mls.epoch? g n = some row →
      (after platform adminCode offlineStore es).db.mls.epoch? g n = some row) ∧
    (∀ fs, fs <+: es → ∀ g, (after platform adminCode offlineStore fs).db.mls.currentEpoch g ≤
      (after platform adminCode offlineStore es).db.mls.currentEpoch g) ∧
    (∀ g n row, (after platform adminCode offlineStore es).db.mls.epoch? g n = some row →
      n ≤ (after platform adminCode offlineStore es).db.mls.currentEpoch g) ∧
    (∀ g, 0 ≤ (after platform adminCode offlineStore es).db.mls.currentEpoch g →
      ∃ row, (after platform adminCode offlineStore es).db.mls.epoch? g
        ((after platform adminCode offlineStore es).db.mls.currentEpoch g) = some row) := by
  have hinv := mlsHubInv_run platform adminCode offlineStore es
  refine ⟨?_, ?_, ?_, ?_, ?_⟩
  · intro i j d d' x x' hx hx' hg he
    have hij : i = j := by
      have h1 := hx.not_lt hx' hg he
      have h2 := hx'.not_lt hx hg.symm he.symm
      omega
    subst hij
    obtain ⟨-, row, hrow, hcommit⟩ := hx.relays
    obtain ⟨-, row', hrow', hcommit'⟩ := hx'.relays
    rw [hg, he, hrow'] at hrow
    cases hrow
    exact ⟨rfl, hcommit.symm.trans hcommit'⟩
  · rintro fs ⟨gs, rfl⟩ g n row hrow
    exact (extends_run platform adminCode offlineStore fs gs).epoch hrow
  · rintro fs ⟨gs, rfl⟩ g
    exact (extends_run platform adminCode offlineStore fs gs).currentEpoch g
  · intro g n row hrow
    exact (hinv.mls.log_le hrow).2
  · intro g hg
    exact Option.isSome_iff_exists.1 (hinv.mls.log_current hg)

/-! ### Epochs -/

/-- The event is a commit without a proposal id. -/
def IsLegacyCommit (e : Event) : Prop :=
  ∃ c m limited muted, e.input = .frame c m limited muted ∧ m.type = .mlsGroupCommit ∧
    m.proposalID = ""

/-- The event is a commit for the group from an active member of it. -/
def CommitOfMember (h : Hub) (e : Event) (g : String) : Prop :=
  ∃ c obj m, FrameOf h e c obj m ∧ m.type = .mlsGroupCommit ∧ m.groupID = g ∧
    h.db.mls.isActive g obj.normalizedCode = true

/-- The event leaves the epoch of the group, or is a commit of an active member that moves it to
the next one. -/
def StrictAdvance (platform : Platform) (h : Hub) (e : Event) (g : String) : Prop :=
  (step platform h e).db.mls.currentEpoch g = h.db.mls.currentEpoch g ∨
    (CommitOfMember h e g ∧
      (step platform h e).db.mls.currentEpoch g = h.db.mls.currentEpoch g + 1)

/-- The group has had an active member in a state of the run. -/
def HadMember (platform : Platform) (adminCode : String) (offlineStore : Bool) (es : List Event)
    (g : String) : Prop :=
  ∃ fs, fs <+: es ∧ ∃ u, (after platform adminCode offlineStore fs).db.mls.isActive g u = true

/-- The epoch after an operation other than the legacy commit. -/
theorem currentEpoch_of_effect {s s' : MlsStore} {op : MlsOp} (heff : MlsEffect s s' op)
    (hlegacy : ∀ g room e commit, op ≠ .saveMLSCommit g room e commit) (g : String) :
    s'.currentEpoch g = s.currentEpoch g ∨
      ∃ room senderCode sender pid e commit, op = .saveMLSCommitForMember g room senderCode pid e commit ∧
        normalizeUserCode senderCode = .ok sender ∧ s.isActive g sender = true ∧
        (s'.currentEpoch g = s.currentEpoch g + 1 ∨ s.currentEpoch g < 0) := by
  cases heff with
  | unchanged hs => exact .inl (by rw [hs])
  | proposed hp hg hm => exact .inl (hp.currentEpoch g)
  | proposedForMember hs hg hp => exact .inl (hp.stores.currentEpoch g)
  | committed hc hm => exact absurd rfl (hlegacy _ _ _ _)
  | @committedForMember g' room senderCode pid e commit sender p hs hc =>
    have hcur := hc.logs.currentEpoch g
    by_cases hgg : g = g'
    · subst hgg
      refine .inr ⟨room, senderCode, sender, pid, e, commit, rfl, hs, hc.sender_active, ?_⟩
      rw [hcur, if_pos rfl]
      rcases hc.next with hneg | hnext
      · exact .inr hneg
      · exact .inl hnext
    · rw [if_neg hgg] at hcur
      exact .inl hcur
  | welcomed hw ha => exact .inl (hw.currentEpoch g)
  | welcomedForMember hw => exact .inl (hw.stores.currentEpoch g)
  | accepted ha hp => exact .inl (currentEpoch_congr (ha.group? g))

/-- In every run and for every event other than a commit without a proposal id, the epoch of a
group stays, or a commit of an active member moves it: to the next epoch, unless the group had no
epoch yet. -/
theorem strict_commits_advance_epoch (platform : Platform) (adminCode : String)
    (offlineStore : Bool) (es : List Event) (e : Event) (hlegacy : ¬ IsLegacyCommit e)
    (g : String) :
    let h := after platform adminCode offlineStore es
    (step platform h e).db.mls.currentEpoch g = h.db.mls.currentEpoch g ∨
      (CommitOfMember h e g ∧ ((step platform h e).db.mls.currentEpoch g =
        h.db.mls.currentEpoch g + 1 ∨ h.db.mls.currentEpoch g < 0)) := by
  intro h
  have hsound : Sound h.registry := sound_run platform adminCode offlineStore es
  rcases step_mls platform hsound e with ⟨kp, hkeeps⟩ | ⟨c, obj, m, op, hframe, hop, heq⟩
  · rw [hkeeps]
    exact .inl rfl
  · have hstrict : ∀ g room n commit, op ≠ .saveMLSCommit g room n commit := by
      rintro g room n commit rfl
      cases hop with
      | commit room ht hp =>
        obtain ⟨⟨limited, muted, he⟩, -⟩ := hframe
        exact hlegacy ⟨c, m, limited, muted, he, ht, hp⟩
    have heff : MlsEffect h.db.mls (h.db.mls.apply platform.sha256Hex op) op := apply_effect _ op
    rw [heq]
    rcases currentEpoch_of_effect heff hstrict g with hsame |
      ⟨room, senderCode, sender, pid, n, commit, rfl, hsender, hactive, hmove⟩
    · exact .inl hsame
    · refine .inr ⟨?_, hmove⟩
      cases hop with
      | commitForMember room ht hp =>
        -- the session's code is normalized already
        have hcode := normalizeUserCode_idem (hsound.valid obj (client?_mem hframe.2)).code
        obtain rfl : obj.normalizedCode = sender := by
          rw [hcode] at hsender
          exact Except.ok.inj hsender
        exact ⟨c, obj, m, hframe, ht, rfl, hactive⟩

/-- Alice creates the group `g` with a proposal for the given epoch. -/
def aliceProposes (epoch : UInt64) : List Event :=
  sessionEvents 0 "Alice" "alice" ++
    [frameEvent 0 { type := .mlsGroupProposal, groupID := "g", epoch, proposalID := "p"
                    action := "remove", targetUserCode := "alice", proposal := "cHJvcG9zYWw=" }]

/-- Alice commits her proposal. -/
def aliceCommits (epoch : UInt64) : Event :=
  frameEvent 0 { type := .mlsGroupCommit, groupID := "g", epoch, proposalID := "p"
                 commit := "Y29tbWl0" }

theorem strict_commits_advance_epoch_first_commit :
    let h := after samplePlatform "" true (aliceProposes 0)
    (step samplePlatform h (aliceCommits 0)).db.mls.currentEpoch "g" =
        h.db.mls.currentEpoch "g" ∨
      (CommitOfMember h (aliceCommits 0) "g" ∧
        ((step samplePlatform h (aliceCommits 0)).db.mls.currentEpoch "g" =
          h.db.mls.currentEpoch "g" + 1 ∨ h.db.mls.currentEpoch "g" < 0)) := by
  refine strict_commits_advance_epoch samplePlatform "" true (aliceProposes 0) (aliceCommits 0) ?_ "g"
  rintro ⟨c, m, limited, muted, ⟨⟩, -, hp⟩
  exact absurd hp (by decide)

/-- Alice's group reaches epoch 0 and Bob, who is not a member, proposes for epoch 5. -/
def bobProposes : List Event :=
  sessionEvents 0 "Alice" "alice" ++ sessionEvents 1 "Bob" "bob" ++
    [frameEvent 0 { type := .mlsGroupProposal, groupID := "g", epoch := 0, proposalID := "p"
                    action := "add", targetUserCode := "bob", proposal := "cHJvcG9zYWw=" },
      aliceCommits 0,
      frameEvent 1 { type := .mlsGroupProposal, groupID := "g", epoch := 5, proposalID := "q"
                     proposal := "cHJvcG9zYWw=" }]

/-- Bob commits without a proposal id. -/
def bobCommits : Event :=
  frameEvent 1 { type := .mlsGroupCommit, groupID := "g", epoch := 5, commit := "Y29tbWl0" }

/-- A first commit may open the log at epoch 1, and a commit without a proposal id from a client
that is not a member may move the epoch from 0 to 5. -/
theorem strict_advance_fails :
    (HadMember samplePlatform "" true (aliceProposes 1) "g" ∧
      ¬ StrictAdvance samplePlatform (after samplePlatform "" true (aliceProposes 1))
        (aliceCommits 1) "g") ∧
    (HadMember samplePlatform "" true bobProposes "g" ∧
      ¬ StrictAdvance samplePlatform (after samplePlatform "" true bobProposes) bobCommits "g") := by
  have hfirst : (after samplePlatform "" true (aliceProposes 1)).db.mls.currentEpoch "g" = -1 ∧
      (step samplePlatform (after samplePlatform "" true (aliceProposes 1))
        (aliceCommits 1)).db.mls.currentEpoch "g" = 1 := by decide +kernel
  have hjump : (after samplePlatform "" true bobProposes).db.mls.currentEpoch "g" = 0 ∧
      (step samplePlatform (after samplePlatform "" true bobProposes)
        bobCommits).db.mls.currentEpoch "g" = 5 := by decide +kernel
  refine ⟨⟨⟨_, List.prefix_refl _, "alice", by decide +kernel⟩, ?_⟩,
    ⟨_, List.prefix_refl _, "alice", by decide +kernel⟩, ?_⟩
  · unfold StrictAdvance
    rw [hfirst.1, hfirst.2]
    omega
  · unfold StrictAdvance
    rw [hjump.1, hjump.2]
    omega

end Hub

end LanChat
