import LanChat.Hub.Admission

/-!
# What the administrators are told about a request (`server-go/client.go`, `server-go/hub.go`)

The Hub announces how a request ended when it removes the pending entry; the login that waits acts
on what its `select` came back with.  The two differ when the timer fires although a decision is in
the channel, when an administrator decides about an entry whose login has given up, and an entry
stays for good when the cancellation of an expired login finds the queue full.

* `Run.Settled`: what is announced is what the login acts on, and no entry is left behind;
* `InTime`: the events that keep the two sides together;
* `Run.Waiting`, `Run.Told`: the invariants of the pending and of the announced requests;
* `Run.settled_of_inTime`: a run of such events is settled.
-/

namespace LanChat

namespace Gate

open GoStrings Hub Registry EventMachine

namespace Run

/-- What the Hub announces about the request of a login is what the login acts on. -/
def Agrees (r : Run) : Prop :=
  ∀ i j g id x, r.Holds i j g id → x ∈ r.sentAt j → x.2.type = .connectionApprovalResult →
    x.2.messageID = id → ∀ n ≤ r.events.length, ∀ l resolution, (r.gate n).login? g = some l →
      l.resolution = some resolution → x.2.content = resolution.text

/-- When a login is past its wait and the cancellations are drained, its entry is gone. -/
def Clears (r : Run) : Prop :=
  ∀ n ≤ r.events.length, ∀ i g id l, r.Holds i n g id → (r.gate n).login? g = some l →
    l.resolution ≠ none → l.stage ≠ .resolved id → (r.gate n).cancels = [] →
    (r.gate n).hub.approvals.lookup id = none

/-- The Hub and the logins agree how the requests ended. -/
structure Settled (r : Run) : Prop where
  agrees : r.Agrees
  clears : r.Clears

end Run

/-- The timer of a login fires only when no decision waits in its channel, an administrator decides
about a pending entry only while its login waits, and the cancellation of an expired login finds
room in the queue. -/
structure InTime (s : Gate) (e : GateEvent) : Prop where
  timer : ∀ g l, e.input = .timeout g → s.login? g = some l → l.decision = none
  decision : ∀ input id approved g l, e.input = .hub input →
    DecisionFrame s.hub ⟨input, e.env⟩ id approved → (s.hub.approvals.lookup id).isSome = true →
    s.owners.lookup id = some g → s.login? g = some l → l.resolution = none
  room : ∀ g l, e.input = .cancel g → s.login? g = some l → l.resolution = some .expired →
    s.cancels.length < cancelQueueSize

namespace Run

variable {r : Run} {n : ℕ} {g : LoginID} {l : Login} {id : String}

/-! ### A login asks once -/

/-- A login that has asked is past asking. -/
theorem not_asking {i : ℕ} (hask : r.At i (AskEvent · · g id)) (hin : i < n)
    (hn : n ≤ r.events.length) : ∃ l, (r.gate n).login? g = some l ∧ l.stage ≠ .asking := by
  induction n with
  | zero => omega
  | succ n ih =>
    obtain ⟨hi, hevent⟩ := hask
    obtain hlt | rfl := Nat.lt_succ_iff_lt_or_eq.1 hin
    · obtain ⟨l, hl, hstage⟩ := ih hlt (Nat.le_of_succ_le hn)
      have hkeeps : Keeps (r.gate n) (r.gate (n + 1)) := by
        obtain ⟨g, l, id, p, hasks⟩ | ⟨-, heffect⟩ := effect_at (r := r) hn
        · exact hasks.keeps
        · exact heffect.keeps
      obtain ⟨l', hl', -, hback⟩ := hkeeps g l hl
      exact ⟨l', hl', fun h => hstage (hback h)⟩
    · obtain ⟨l, p, hasks⟩ := asks_ask r.platform hevent
      rw [← gate_succ hi] at hasks
      exact ⟨_, by rw [hasks.logins, if_pos rfl], by simp⟩

theorem asks_once {i i' : ℕ} {id' : String} (hask : r.At i (AskEvent · · g id))
    (hask' : r.At i' (AskEvent · · g id')) : i = i' := by
  have hnot : ∀ {i i' : ℕ} {id id' : String}, r.At i (AskEvent · · g id) →
      r.At i' (AskEvent · · g id') → ¬ i < i' := by
    intro i i' id id' hask hask' hlt
    obtain ⟨hi', -, l, hl, hstage, -⟩ := hask'
    obtain ⟨l', hl', hstage'⟩ := not_asking hask hlt hi'.le
    rw [hl, Option.some.injEq] at hl'
    exact hstage' (hl' ▸ hstage)
  exact Nat.le_antisymm (Nat.not_lt.1 (hnot hask' hask)) (Nat.not_lt.1 (hnot hask hask'))

/-- A login holds one id. -/
theorem Holds.id_eq {i i' m : ℕ} {id' : String} (hh : r.Holds i n g id)
    (hh' : r.Holds i' m g id') : id = id' := by
  have hi := asks_once hh.asks hh'.asks
  subst hi
  exact askEvent_unique hh.asks hh'.asks

/-- The entry under an id holds the channel of the login that asked last. -/
theorem Holds.owner {i : ℕ} (hh : r.Holds i n g id) (hn : n ≤ r.events.length) :
    (r.gate n).owners.lookup id = some g := by
  induction n with
  | zero => exact absurd hh.before (Nat.not_lt_zero i)
  | succ n ih =>
    obtain hlt | rfl := Nat.lt_succ_iff_lt_or_eq.1 hh.before
    · have hh' : r.Holds i n g id :=
        ⟨hlt, hh.asks, fun k g' hik hkn => hh.last k g' hik (Nat.lt_succ_of_lt hkn)⟩
      have howner := ih hh' (Nat.le_of_succ_le hn)
      obtain ⟨g', l, id', p, hasks⟩ | ⟨-, heffect⟩ := effect_at (r := r) hn
      · have hne : id ≠ id' := by
          rintro rfl
          exact hh.last n g' hlt (Nat.lt_succ_self n) ⟨hn, hasks.event⟩
        rw [hasks.owners, AList.lookup_insert_ne hne]
        exact howner
      · rw [heffect.owners_eq]
        exact howner
    · obtain ⟨hi, hevent⟩ := hh.asks
      obtain ⟨l, p, hasks⟩ := asks_ask r.platform hevent
      rw [← gate_succ hi] at hasks
      rw [hasks.owners, AList.lookup_insert]

/-! ### The invariants -/

/-- A login that waits has no resolution, and one that asks has nothing in its channel either. -/
def Steady (l : Login) : Prop :=
  (∀ id, l.stage = .waiting id → l.resolution = none) ∧
    (l.stage = .asking → l.decision = none ∧ l.resolution = none)

/-- The login of a pending entry waits, or it has expired and its cancellation is on the way. -/
structure Awaits (s : Gate) (id : String) (l : Login) : Prop where
  undecided : l.decision = none
  stage : (l.stage = .waiting id ∧ l.resolution = none) ∨
    (l.resolution = some .expired ∧ (l.stage = .resolved id ∨ id ∈ s.cancels))

/-- The login acts on the resolution, or will. -/
def Heeds (l : Login) : Resolution → Prop
  | .approved => l.resolution = some .approved ∨ (l.resolution = none ∧ l.decision = some true)
  | .denied => l.resolution = some .denied ∨ (l.resolution = none ∧ l.decision = some false)
  | .expired => l.decision = none ∧ (l.resolution = none ∨ l.resolution = some .expired)

/-- The administrators have been told how the request ended. -/
structure Told (r : Run) (n : ℕ) (g : LoginID) (id : String) (resolution : Resolution) : Prop where
  gone : (r.gate n).owners.lookup id = some g → (r.gate n).hub.approvals.lookup id = none
  heeds : ∀ l, (r.gate n).login? g = some l → Heeds l resolution

/-- Before event `n` the entries, the announcements and the logins fit together. -/
structure Linked (r : Run) (n : ℕ) : Prop where
  steady : ∀ g l, (r.gate n).login? g = some l → Steady l
  awaits : ∀ id p g l, (r.gate n).hub.approvals.lookup id = some p →
    (r.gate n).owners.lookup id = some g → (r.gate n).login? g = some l → Awaits (r.gate n) id l
  told : ∀ i j g id x, j < n → r.Holds i j g id → x ∈ r.sentAt j →
    x.2.type = .connectionApprovalResult → x.2.messageID = id →
    ∃ resolution, x.2.content = resolution.text ∧ r.Told n g id resolution

theorem linked_zero : r.Linked 0 where
  steady := by simp [gate, start, login?]
  awaits := by simp [gate, start, Hub.boot]
  told := fun _ _ _ _ _ hj => absurd hj (Nat.not_lt_zero _)

/-- The login of a pending entry has asked for it. -/
theorem holds_of_pending {p : PendingApproval} (hn : n ≤ r.events.length)
    (hp : (r.gate n).hub.approvals.lookup id = some p)
    (hg : (r.gate n).owners.lookup id = some g) : ∃ i, r.Holds i n g id := by
  obtain ⟨i, _, hholds, -⟩ := (admits_gate hn).stands id p g hp hg
  exact ⟨i, hholds⟩

theorem steady_of_effect (hk : r.Linked n) (hn : n < r.events.length)
    (he : Effect (r.gate n) r.events[n] (r.gate (n + 1))) (hl : (r.gate (n + 1)).login? g = some l) :
    Steady l := by
  have hset : ∀ {g₀ : LoginID} {l₀ : Login}, Sets (r.gate n) (r.gate (n + 1)) g₀ l₀ →
      Steady l₀ → Steady l := by
    intro g₀ l₀ hset hnew
    obtain ⟨rfl, rfl⟩ | ⟨-, hold⟩ := hset.cases hl
    · exact hnew
    · exact hk.steady g l hold
  cases he with
  | idle quiet cancels logins => exact hk.steady g l ((logins g).symm.trans hl)
  | connect g₀ l₀ quiet cancels new channel stage logins =>
    exact hset logins ⟨fun _ _ => channel.2, fun _ => channel⟩
  | refuse g₀ l₀ content quiet cancels login stage logins => exact hset logins (by simp [Steady])
  | decide g₀ l₀ id approved quiet cancels login stage decision logins =>
    exact hset logins (by simp [Steady])
  | expire g₀ l₀ id input quiet cancels login stage logins => exact hset logins (by simp [Steady])
  | cancel g₀ l₀ id input quiet login stage cancels logins =>
    refine hset logins ?_
    unfold Steady
    dsimp only
    split <;> simp
  | persist g₀ l₀ account quiet cancels login stage same valid logins =>
    exact hset logins (by simp [Steady])
  | register g₀ l₀ account quiet cancels login stage logins => exact hset logins (by simp [Steady])
  | resolve i id approved p input frame pending ends cancels logins =>
    rw [logins g] at hl
    split at hl
    · rename_i howner
      obtain ⟨l₀, hl₀, rfl⟩ := Option.map_eq_some_iff.1 hl
      -- a login with a pending entry is past asking
      obtain ⟨i', hholds⟩ := holds_of_pending hn.le pending howner
      obtain ⟨l₁, hl₁, hpast⟩ := not_asking hholds.asks hholds.before hn.le
      rw [hl₀, Option.some.injEq] at hl₁
      subst hl₁
      have hsteady := hk.steady g l₀ hl₀
      refine ⟨fun id hwaiting => ?_, fun hasking => ?_⟩
      · rw [stage_put] at hwaiting
        rw [resolution_put]
        exact hsteady.1 id hwaiting
      · rw [stage_put] at hasking
        exact absurd hasking hpast
    · exact hk.steady g l hl
  | drain id waiting ends logins => exact hk.steady g l ((logins g).symm.trans hl)

/-- A login that is not past its wait, or has expired, still waits for the entry to go. -/
theorem Awaits.of_same {s t : Gate} {l' : Login} (ha : Awaits s id l)
    (hdecision : l'.decision = l.decision) (hresolution : l'.resolution = l.resolution)
    (hstage : (∀ id, l.stage ≠ .waiting id) ∧ ∀ id, l.stage ≠ .resolved id)
    (hcancels : t.cancels = s.cancels) : Awaits t id l' := by
  refine ⟨hdecision.trans ha.undecided, ?_⟩
  obtain ⟨hwaiting, -⟩ | ⟨hexpired, hresolved | hqueued⟩ := ha.stage
  · exact absurd hwaiting (hstage.1 id)
  · exact absurd hresolved (hstage.2 id)
  · exact .inr ⟨hresolution.trans hexpired, .inr (hcancels ▸ hqueued)⟩

theorem Awaits.of_cancels {s t : Gate} (ha : Awaits s id l) (hcancels : s.cancels ⊆ t.cancels) :
    Awaits t id l :=
  ⟨ha.undecided, ha.stage.imp_right fun ⟨hexpired, hway⟩ =>
    ⟨hexpired, hway.imp_right fun hqueued => hcancels hqueued⟩⟩

theorem awaits_of_effect {p : PendingApproval} (hk : r.Linked n) (hn : n < r.events.length)
    (htime : InTime (r.gate n) r.events[n])
    (he : Effect (r.gate n) r.events[n] (r.gate (n + 1)))
    (hp : (r.gate (n + 1)).hub.approvals.lookup id = some p)
    (hg : (r.gate (n + 1)).owners.lookup id = some g) (hl : (r.gate (n + 1)).login? g = some l) :
    Awaits (r.gate (n + 1)) id l := by
  have hp' := he.lookup_approvals hp
  have hg' := hg
  rw [he.owners_eq] at hg'
  have hold : ∀ {l₀ : Login}, (r.gate n).login? g = some l₀ → Awaits (r.gate n) id l₀ :=
    fun hl₀ => hk.awaits id p g _ hp' hg' hl₀
  -- the login of the entry is the one that the event is about, or it is as it was
  have hset : ∀ {g₀ : LoginID} {l₀ l₁ : Login}, Sets (r.gate n) (r.gate (n + 1)) g₀ l₁ →
      (r.gate n).login? g₀ = some l₀ → (r.gate n).cancels ⊆ (r.gate (n + 1)).cancels →
      (Awaits (r.gate n) id l₀ → Awaits (r.gate (n + 1)) id l₁) → Awaits (r.gate (n + 1)) id l := by
    intro g₀ l₀ l₁ hset hlogin hcancels hnew
    obtain ⟨rfl, rfl⟩ | ⟨-, hsame⟩ := hset.cases hl
    · exact hnew (hold hlogin)
    · exact (hold hsame).of_cancels hcancels
  cases he with
  | idle quiet cancels logins =>
    exact (hold ((logins g).symm.trans hl)).of_cancels (cancels ▸ List.Subset.refl _)
  | connect g₀ l₀ quiet cancels new channel stage logins =>
    obtain ⟨i, hholds⟩ := holds_of_pending hn.le hp' hg'
    obtain ⟨l₁, hl₁, -⟩ := not_asking hholds.asks hholds.before hn.le
    obtain ⟨rfl, -⟩ | ⟨-, hsame⟩ := logins.cases hl
    · rw [new] at hl₁
      cases hl₁
    · exact (hold hsame).of_cancels (cancels ▸ List.Subset.refl _)
  | refuse g₀ l₀ content quiet cancels login stage logins =>
    exact hset logins login (cancels ▸ List.Subset.refl _)
      fun ha => ha.of_same rfl rfl stage cancels
  | decide g₀ l₀ id₀ approved quiet cancels login stage decision logins =>
    refine hset logins login (cancels ▸ List.Subset.refl _) fun ha => ?_
    rw [ha.undecided] at decision
    cases decision
  | expire g₀ l₀ id₀ input quiet cancels login stage logins =>
    refine hset logins login (cancels ▸ List.Subset.refl _) fun ha => ⟨ha.undecided, .inr ⟨rfl, ?_⟩⟩
    obtain ⟨hwaiting, -⟩ | ⟨-, hresolved | hqueued⟩ := ha.stage
    · rw [stage] at hwaiting
      exact .inl (by rw [GateStage.waiting.inj hwaiting])
    · rw [stage] at hresolved
      cases hresolved
    · exact .inr (cancels ▸ hqueued)
  | cancel g₀ l₀ id₀ input quiet login stage cancels logins =>
    have hgrows : (r.gate n).cancels ⊆ (r.gate (n + 1)).cancels := by
      rw [cancels]
      split
      · exact List.subset_append_left _ _
      · exact List.Subset.refl _
    refine hset logins login hgrows fun ha => ⟨ha.undecided, ?_⟩
    obtain ⟨hwaiting, -⟩ | ⟨hexpired, hresolved | hqueued⟩ := ha.stage
    · rw [stage] at hwaiting
      cases hwaiting
    · refine .inr ⟨hexpired, .inr ?_⟩
      rw [stage] at hresolved
      obtain rfl : id₀ = id := GateStage.resolved.inj hresolved
      rw [cancels, if_pos (htime.room g₀ l₀ input login hexpired)]
      exact List.mem_append_right _ (List.mem_singleton_self _)
    · exact .inr ⟨hexpired, .inr (hgrows hqueued)⟩
  | persist g₀ l₀ account quiet cancels login stage same valid logins =>
    exact hset logins login (cancels ▸ List.Subset.refl _)
      fun ha => ha.of_same rfl rfl (by simp [stage]) cancels
  | register g₀ l₀ account quiet cancels login stage logins =>
    exact hset logins login (cancels ▸ List.Subset.refl _)
      fun ha => ha.of_same rfl rfl (by simp [stage]) cancels
  | resolve i id₀ approved p₀ input frame pending ends cancels logins =>
    rw [logins g] at hl
    split at hl
    · -- the entry of the login is the one that goes
      rename_i howner
      obtain ⟨i₀, hholds₀⟩ := holds_of_pending hn.le pending howner
      obtain ⟨i₁, hholds₁⟩ := holds_of_pending hn.le hp' hg'
      rw [ends.approvals, hholds₀.id_eq hholds₁, AList.lookup_erase] at hp
      cases hp
    · exact (hold hl).of_cancels (cancels ▸ List.Subset.refl _)
  | drain id₀ waiting ends logins =>
    have hne : id ≠ id₀ := by
      rintro rfl
      rw [ends.approvals, AList.lookup_erase] at hp
      cases hp
    have ha := hold ((logins g).symm.trans hl)
    refine ⟨ha.undecided, ha.stage.imp_right fun ⟨hexpired, hway⟩ =>
      ⟨hexpired, hway.imp_right fun hqueued => ?_⟩⟩
    rw [waiting] at hqueued
    exact (List.mem_cons.1 hqueued).resolve_left hne

theorem awaits_of_asks {e : GateEvent} {l₀ : Login} {id₀ : String} {g₀ : LoginID}
    {p p₀ : PendingApproval} (hk : r.Linked n)
    (hasks : Asks (r.gate n) e (r.gate (n + 1)) g₀ l₀ id₀ p₀)
    (hp : (r.gate (n + 1)).hub.approvals.lookup id = some p)
    (hg : (r.gate (n + 1)).owners.lookup id = some g) (hl : (r.gate (n + 1)).login? g = some l) :
    Awaits (r.gate (n + 1)) id l := by
  obtain ⟨hdecision, hresolution⟩ := (hk.steady g₀ l₀ hasks.login).2 hasks.stage
  by_cases heq : id = id₀
  · subst heq
    rw [hasks.owners, AList.lookup_insert, Option.some.injEq] at hg
    subst hg
    rw [hasks.logins, if_pos rfl, Option.some.injEq] at hl
    rw [← hl]
    exact ⟨hdecision, .inl ⟨rfl, hresolution⟩⟩
  · rw [hasks.approvals, AList.lookup_insert_ne heq] at hp
    rw [hasks.owners, AList.lookup_insert_ne heq] at hg
    obtain ⟨rfl, -⟩ | ⟨-, hold⟩ := hasks.logins.cases hl
    · -- a login that asks has no entry yet
      have ha := hk.awaits id p g₀ l₀ hp hg hasks.login
      obtain ⟨hwaiting, -⟩ | ⟨hexpired, -⟩ := ha.stage
      · rw [hasks.stage] at hwaiting
        cases hwaiting
      · rw [hresolution] at hexpired
        cases hexpired
    · exact (hk.awaits id p g l hp hg hold).of_cancels (hasks.cancels ▸ List.Subset.refl _)

theorem Heeds.of_same {l' : Login} {resolution : Resolution} (hh : Heeds l resolution)
    (hdecision : l'.decision = l.decision) (hresolution : l'.resolution = l.resolution) :
    Heeds l' resolution := by
  cases resolution <;> simpa only [Heeds, hdecision, hresolution] using hh

/-- The `select` comes back with the decision that the administrators have been told. -/
theorem Heeds.decide {approved : Bool} {resolution : Resolution} (hh : Heeds l resolution)
    (hnone : l.resolution = none) (hdecision : l.decision = some approved) (stage : GateStage) :
    Heeds { l with
      stage, decision := none
      resolution := some (if approved then .approved else .denied) } resolution := by
  cases resolution with
  | approved =>
    obtain hacted | ⟨-, htrue⟩ := hh
    · rw [hnone] at hacted
      cases hacted
    · rw [hdecision, Option.some.injEq] at htrue
      subst htrue
      exact .inl rfl
  | denied =>
    obtain hacted | ⟨-, hfalse⟩ := hh
    · rw [hnone] at hacted
      cases hacted
    · rw [hdecision, Option.some.injEq] at hfalse
      subst hfalse
      exact .inl rfl
  | expired =>
    rw [hh.1] at hdecision
    cases hdecision

/-- The timer fires with an empty channel, so nobody was told of a decision. -/
theorem Heeds.expire {resolution : Resolution} (hh : Heeds l resolution)
    (hnone : l.resolution = none) (hdecision : l.decision = none) (stage : GateStage) :
    Heeds { l with stage, resolution := some .expired } resolution := by
  cases resolution with
  | expired => exact ⟨hdecision, .inr rfl⟩
  | _ => simp [Heeds, hnone, hdecision] at hh

theorem Heeds.eq {resolution resolution' : Resolution} (hh : Heeds l resolution)
    (hl : l.resolution = some resolution') : resolution = resolution' := by
  cases resolution with
  | expired =>
    obtain ⟨-, hnone | hexpired⟩ := hh
    · rw [hnone] at hl
      cases hl
    · exact Option.some.inj (hexpired.symm.trans hl)
  | _ =>
    obtain hacted | ⟨hnone, -⟩ := hh
    · exact Option.some.inj (hacted.symm.trans hl)
    · rw [hnone] at hl
      cases hl

/-- Once told, the entry is gone for good, and what the login does agrees. -/
theorem told_of_effect {i j : ℕ} {resolution : Resolution} (hk : r.Linked n)
    (hn : n < r.events.length) (htime : InTime (r.gate n) r.events[n])
    (he : Effect (r.gate n) r.events[n] (r.gate (n + 1))) (hj : j < n) (hholds : r.Holds i j g id)
    (ht : r.Told n g id resolution) : r.Told (n + 1) g id resolution := by
  have hgone : (r.gate (n + 1)).owners.lookup id = some g →
      (r.gate (n + 1)).hub.approvals.lookup id = none := by
    intro hg
    rw [he.owners_eq] at hg
    by_contra hsome
    obtain ⟨p, hp⟩ := Option.ne_none_iff_exists'.1 hsome
    have hnone := ht.gone hg
    rw [he.lookup_approvals hp] at hnone
    cases hnone
  refine ⟨hgone, fun l hl => ?_⟩
  have hset : ∀ {g₀ : LoginID} {l₀ l₁ : Login}, Sets (r.gate n) (r.gate (n + 1)) g₀ l₁ →
      (r.gate n).login? g₀ = some l₀ → (Heeds l₀ resolution → Heeds l₁ resolution) →
      Heeds l resolution := by
    intro g₀ l₀ l₁ hset hlogin hnew
    obtain ⟨rfl, rfl⟩ | ⟨-, hsame⟩ := hset.cases hl
    · exact hnew (ht.heeds l₀ hlogin)
    · exact ht.heeds l hsame
  have hsteady : ∀ {g₀ : LoginID} {l₀ : Login} {id₀ : String}, (r.gate n).login? g₀ = some l₀ →
      l₀.stage = .waiting id₀ → l₀.resolution = none :=
    fun hlogin hstage => (hk.steady _ _ hlogin).1 _ hstage
  cases he with
  | idle quiet cancels logins => exact ht.heeds l ((logins g).symm.trans hl)
  | connect g₀ l₀ quiet cancels new channel stage logins =>
    obtain ⟨l₁, hl₁, -⟩ := not_asking hholds.asks (hholds.before.trans hj) hn.le
    obtain ⟨rfl, -⟩ | ⟨-, hsame⟩ := logins.cases hl
    · rw [new] at hl₁
      cases hl₁
    · exact ht.heeds l hsame
  | refuse g₀ l₀ content quiet cancels login stage logins =>
    exact hset logins login fun hh => hh.of_same rfl rfl
  | decide g₀ l₀ id₀ approved quiet cancels login stage decision logins =>
    exact hset logins login fun hh => hh.decide (hsteady login stage) decision _
  | expire g₀ l₀ id₀ input quiet cancels login stage logins =>
    exact hset logins login fun hh =>
      hh.expire (hsteady login stage) (htime.timer g₀ l₀ input login) _
  | cancel g₀ l₀ id₀ input quiet login stage cancels logins =>
    exact hset logins login fun hh => hh.of_same rfl rfl
  | persist g₀ l₀ account quiet cancels login stage same valid logins =>
    exact hset logins login fun hh => hh.of_same rfl rfl
  | register g₀ l₀ account quiet cancels login stage logins =>
    exact hset logins login fun hh => hh.of_same rfl rfl
  | resolve i₀ id₀ approved p₀ input frame pending ends cancels logins =>
    rw [logins g] at hl
    split at hl
    · -- a login has one entry, and this one is gone
      rename_i howner
      obtain ⟨i₁, hholds₁⟩ := holds_of_pending hn.le pending howner
      have hsame := hholds₁.id_eq hholds
      subst hsame
      rw [ht.gone howner] at pending
      cases pending
    · exact ht.heeds l hl
  | drain id₀ waiting ends logins => exact ht.heeds l ((logins g).symm.trans hl)

theorem told_of_asks {e : GateEvent} {i j : ℕ} {l₀ : Login} {id₀ : String} {g₀ : LoginID}
    {p₀ : PendingApproval} {resolution : Resolution}
    (hat : r.At n (AskEvent · · g₀ id₀)) (hasks : Asks (r.gate n) e (r.gate (n + 1)) g₀ l₀ id₀ p₀)
    (hj : j < n) (hholds : r.Holds i j g id) (ht : r.Told n g id resolution) :
    r.Told (n + 1) g id resolution := by
  have hne : g₀ ≠ g := by
    rintro rfl
    have heq := asks_once hat hholds.asks
    have hbefore := hholds.before
    omega
  refine ⟨fun hg => ?_, fun l hl => ?_⟩
  · have hid : id ≠ id₀ := by
      rintro rfl
      rw [hasks.owners, AList.lookup_insert, Option.some.injEq] at hg
      exact hne hg
    rw [hasks.owners, AList.lookup_insert_ne hid] at hg
    rw [hasks.approvals, AList.lookup_insert_ne hid]
    exact ht.gone hg
  · rw [hasks.logins, if_neg hne] at hl
    exact ht.heeds l hl

/-- The announcement of an event ends a pending request, and its login is going to act on it. -/
theorem told_now {i : ℕ} {x : ClientID × Message} (hk : r.Linked n) (hn : n < r.events.length)
    (htime : InTime (r.gate n) r.events[n])
    (he : Effect (r.gate n) r.events[n] (r.gate (n + 1))) (hholds : r.Holds i n g id)
    (hx : x ∈ r.sentAt n) (htype : x.2.type = .connectionApprovalResult)
    (hid : x.2.messageID = id) :
    ∃ resolution, x.2.content = resolution.text ∧ r.Told (n + 1) g id resolution := by
  have howner := hholds.owner hn.le
  obtain ⟨l, hl, -⟩ := not_asking hholds.asks hholds.before hn.le
  have hquiet : ¬ Quiet (r.gate n) (r.gate (n + 1)) :=
    fun hquiet => (mem_sentAt hquiet.sent x hx).1 htype
  cases he with
  | resolve i₀ id₀ approved p input frame pending ends cancels logins =>
    obtain ⟨-, -, hid₀, hcontent⟩ := mem_sentAt ends.sent x hx
    obtain rfl : id₀ = id := hid₀.symm.trans hid
    have ha := hk.awaits id₀ p g l pending howner hl
    have hnone := htime.decision i₀ id₀ approved g l input frame (by rw [pending]; rfl) howner hl
    refine ⟨_, hcontent, fun _ => by rw [ends.approvals, AList.lookup_erase], fun l' hl' => ?_⟩
    rw [logins g, if_pos howner, hl, Option.map_some, Option.some.injEq] at hl'
    subst hl'
    have hput := decision_put approved l ha.undecided
    have hres := (resolution_put approved l).trans hnone
    cases approved with
    | true => exact .inr ⟨hres, hput⟩
    | false => exact .inr ⟨hres, hput⟩
  | drain id₀ waiting ends logins =>
    obtain ⟨hpending, -, hid₀, hcontent⟩ := mem_sentAt ends.sent x hx
    obtain rfl : id₀ = id := hid₀.symm.trans hid
    obtain ⟨p, hp⟩ := Option.isSome_iff_exists.1 hpending
    have ha := hk.awaits id₀ p g l hp howner hl
    refine ⟨_, hcontent, fun _ => by rw [ends.approvals, AList.lookup_erase], fun l' hl' => ?_⟩
    rw [logins g, hl, Option.some.injEq] at hl'
    subst hl'
    exact ⟨ha.undecided, ha.stage.imp (fun h => h.2) fun h => h.1⟩
  | idle quiet cancels logins => exact absurd quiet hquiet
  | connect g l quiet cancels new channel stage logins => exact absurd quiet hquiet
  | refuse g l content quiet cancels login stage logins => exact absurd quiet hquiet
  | decide g l id approved quiet cancels login stage decision logins => exact absurd quiet hquiet
  | expire g l id input quiet cancels login stage logins => exact absurd quiet hquiet
  | cancel g l id input quiet login stage cancels logins => exact absurd quiet hquiet
  | persist g l account quiet cancels login stage same valid logins => exact absurd quiet hquiet
  | register g l account quiet cancels login stage logins => exact absurd quiet hquiet

/-! ### Runs -/

theorem linked_succ (hk : r.Linked n) (hn : n < r.events.length)
    (htime : InTime (r.gate n) r.events[n]) : r.Linked (n + 1) := by
  obtain ⟨g₀, l₀, id₀, p₀, hasks⟩ | ⟨-, heffect⟩ := effect_at hn
  · refine ⟨fun g l hl => ?_, fun id p g l hp hg hl => awaits_of_asks hk hasks hp hg hl, ?_⟩
    · obtain ⟨-, rfl⟩ | ⟨-, hold⟩ := hasks.logins.cases hl
      · obtain ⟨hdecision, hresolution⟩ := (hk.steady g₀ l₀ hasks.login).2 hasks.stage
        exact ⟨fun _ _ => hresolution, fun _ => ⟨hdecision, hresolution⟩⟩
      · exact hk.steady g l hold
    · intro i j g id x hj hholds hx htype hid
      obtain hlt | rfl := Nat.lt_succ_iff_lt_or_eq.1 hj
      · obtain ⟨resolution, hcontent, ht⟩ := hk.told i j g id x hlt hholds hx htype hid
        exact ⟨resolution, hcontent, told_of_asks ⟨hn, hasks.event⟩ hasks hlt hholds ht⟩
      · have hmessage := mem_sentAt hasks.sent x hx
        rw [hmessage] at htype
        cases htype
  · refine ⟨fun g l hl => steady_of_effect hk hn heffect hl,
      fun id p g l hp hg hl => awaits_of_effect hk hn htime heffect hp hg hl, ?_⟩
    intro i j g id x hj hholds hx htype hid
    obtain hlt | rfl := Nat.lt_succ_iff_lt_or_eq.1 hj
    · obtain ⟨resolution, hcontent, ht⟩ := hk.told i j g id x hlt hholds hx htype hid
      exact ⟨resolution, hcontent, told_of_effect hk hn htime heffect hlt hholds ht⟩
    · exact told_now hk hn htime heffect hholds hx htype hid

theorem linked_gate (htime : ∀ n (hn : n < r.events.length), InTime (r.gate n) r.events[n])
    (hn : n ≤ r.events.length) : r.Linked n := by
  induction n with
  | zero => exact linked_zero
  | succ n ih => exact linked_succ (ih (Nat.le_of_succ_le hn)) hn (htime n hn)

/-- What a `select` came back with stays. -/
theorem resolution_succ {resolution : Resolution} (hk : r.Linked n) (hn : n < r.events.length)
    (hl : (r.gate n).login? g = some l) (hres : l.resolution = some resolution) :
    ∃ l', (r.gate (n + 1)).login? g = some l' ∧ l'.resolution = some resolution := by
  have hset : ∀ {g₀ : LoginID} {l₀ l₁ : Login}, Sets (r.gate n) (r.gate (n + 1)) g₀ l₁ →
      (r.gate n).login? g₀ = some l₀ →
      (l₀.resolution = some resolution → l₁.resolution = some resolution) →
      ∃ l', (r.gate (n + 1)).login? g = some l' ∧ l'.resolution = some resolution := by
    intro g₀ l₀ l₁ hset hlogin hnew
    by_cases heq : g₀ = g
    · subst heq
      rw [hl, Option.some.injEq] at hlogin
      exact ⟨l₁, by rw [hset, if_pos rfl], hnew (hlogin ▸ hres)⟩
    · exact ⟨l, by rw [hset, if_neg heq, hl], hres⟩
  have hwaits : ∀ {g₀ : LoginID} {l₀ : Login} {id₀ : String}, (r.gate n).login? g₀ = some l₀ →
      l₀.stage = .waiting id₀ → l₀.resolution ≠ some resolution := by
    intro g₀ l₀ id₀ hlogin hstage hsome
    rw [(hk.steady g₀ l₀ hlogin).1 id₀ hstage] at hsome
    cases hsome
  obtain ⟨g₀, l₀, id₀, p₀, hasks⟩ | ⟨-, heffect⟩ := effect_at hn
  · exact hset hasks.logins hasks.login id
  cases heffect with
  | idle quiet cancels logins => exact ⟨l, (logins g).trans hl, hres⟩
  | connect g₀ l₀ quiet cancels new channel stage logins =>
    have hne : g₀ ≠ g := by
      rintro rfl
      rw [new] at hl
      cases hl
    exact ⟨l, by rw [logins, if_neg hne, hl], hres⟩
  | refuse g₀ l₀ content quiet cancels login stage logins => exact hset logins login id
  | decide g₀ l₀ id₀ approved quiet cancels login stage decision logins =>
    exact hset logins login fun h => absurd h (hwaits login stage)
  | expire g₀ l₀ id₀ input quiet cancels login stage logins =>
    exact hset logins login fun h => absurd h (hwaits login stage)
  | cancel g₀ l₀ id₀ input quiet login stage cancels logins => exact hset logins login id
  | persist g₀ l₀ account quiet cancels login stage same valid logins =>
    exact hset logins login id
  | register g₀ l₀ account quiet cancels login stage logins => exact hset logins login id
  | resolve i₀ id₀ approved p₀ input frame pending ends cancels logins =>
    rw [logins g, hl]
    split
    · exact ⟨_, rfl, (resolution_put approved l).trans hres⟩
    · exact ⟨l, rfl, hres⟩
  | drain id₀ waiting ends logins => exact ⟨l, (logins g).trans hl, hres⟩

theorem resolution_stays {m : ℕ} {resolution : Resolution}
    (htime : ∀ n (hn : n < r.events.length), InTime (r.gate n) r.events[n]) (hnm : n ≤ m)
    (hm : m ≤ r.events.length) (hl : (r.gate n).login? g = some l)
    (hres : l.resolution = some resolution) :
    ∃ l', (r.gate m).login? g = some l' ∧ l'.resolution = some resolution := by
  induction m with
  | zero =>
    obtain rfl : n = 0 := Nat.le_zero.1 hnm
    exact ⟨l, hl, hres⟩
  | succ m ih =>
    obtain hle | rfl := Nat.le_succ_iff.1 hnm
    · obtain ⟨l', hl', hres'⟩ := ih hle (Nat.le_of_succ_le hm)
      exact resolution_succ (linked_gate htime (Nat.le_of_succ_le hm)) hm hl' hres'
    · exact ⟨l, hl, hres⟩

/-- Nothing is sent after the end of a run. -/
theorem lt_of_mem_sentAt {x : ClientID × Message} (hx : x ∈ r.sentAt n) : n < r.events.length := by
  by_contra hn
  have hend : r.gate (n + 1) = r.gate n := by
    rw [gate, gate, List.take_of_length_le (by omega), List.take_of_length_le (by omega)]
  exact not_mem_sentBetween (by rw [hend]) hx

/-- In a run whose events are in time, what the Hub announces about a request is what its login acts
on, and no entry is left once the login is past its wait and the cancellations are drained. -/
theorem settled_of_inTime (r : Run)
    (htime : ∀ n (hn : n < r.events.length), InTime (r.gate n) r.events[n]) : r.Settled where
  agrees := by
    intro i j g id x hholds hx htype hid n hn l resolution hl hres
    have hj := lt_of_mem_sentAt hx
    obtain ⟨l', hl', hres'⟩ := resolution_stays htime hn (Nat.le_refl _) hl hres
    obtain ⟨announced, hcontent, ht⟩ :=
      (linked_gate htime (Nat.le_refl _)).told i j g id x hj hholds hx htype hid
    rw [hcontent, (ht.heeds l' hl').eq hres']
  clears := by
    intro n hn i g id l hholds hl hres hstage hcancels
    by_contra hsome
    obtain ⟨p, hp⟩ := Option.ne_none_iff_exists'.1 hsome
    have ha := (linked_gate htime hn).awaits id p g l hp (hholds.owner hn) hl
    obtain ⟨-, hnone⟩ | ⟨-, hresolved | hqueued⟩ := ha.stage
    · exact hres hnone
    · exact hstage hresolved
    · rw [hcancels] at hqueued
      exact List.not_mem_nil hqueued

/-- An administrator's approval of the first request. -/
def approveFrame : Message :=
  { type := .adminAction, messageID := "connection-1", content := "approve_connection" }

/-- The administrator logs in from the machine itself, Bob asks and is approved. -/
def approvedEvents : List GateEvent :=
  [⟨.connect "Host" "HOST01" "127.0.0.1:5000" true false, {}⟩, ⟨.persist 0, {}⟩, ⟨.register 0, {}⟩,
    ⟨.hub (.replay 0), {}⟩, ⟨.hub (.replay 0), {}⟩,
    ⟨.connect "Bob" "BOB001" "192.168.1.2:5001" false false, {}⟩, ⟨.ask 1, {}⟩,
    ⟨.hub (.frame 0 approveFrame false false), {}⟩]

/-- Bob's `select` takes the decision. -/
def approvedInTime : Run where
  platform := samplePlatform
  db := Database.empty
  adminCode := "HOST01"
  events := approvedEvents ++ [⟨.decide 1, {}⟩, ⟨.cancel 1, {}⟩, ⟨.drain, {}⟩]

/-- What an event asks of the logins, checked for all of them at once. -/
theorem inTime_of_all {s : Gate} {e : GateEvent}
    (hall : (match e.input with
      | .timeout _ => s.logins.all fun l => l.decision.isNone
      | .hub _ => s.logins.all fun l => l.resolution.isNone
      | .cancel _ => decide (s.cancels.length < cancelQueueSize)
      | _ => true) = true) : InTime s e where
  timer := by
    intro g l hin hl
    rw [hin] at hall
    simpa using List.all_eq_true.1 hall l (List.mem_of_getElem? hl)
  decision := by
    intro input id approved g l hin _ _ _ hl
    rw [hin] at hall
    simpa using List.all_eq_true.1 hall l (List.mem_of_getElem? hl)
  room := by
    intro g l hin _ _
    rw [hin] at hall
    exact of_decide_eq_true hall

theorem settled_of_inTime_approvedInTime : approvedInTime.Settled := by
  refine settled_of_inTime approvedInTime fun n hn => inTime_of_all ?_
  revert n
  decide +kernel

/-- The timer of Bob's `select` fires after the approval, and wins. -/
def approvedLate : Run where
  platform := samplePlatform
  db := Database.empty
  adminCode := "HOST01"
  events := approvedEvents ++ [⟨.timeout 1, {}⟩, ⟨.cancel 1, {}⟩, ⟨.drain, {}⟩]

/-- The administrator is told that Bob is in, and Bob that nobody approved him in time. -/
theorem announced_unlike_acted : ¬ approvedLate.Settled := by
  intro hsettled
  have hasks : approvedLate.At 6 (AskEvent · · 1 "connection-1") := by
    refine ⟨by decide, rfl, ⟨⟨"Bob", "BOB001"⟩, "192.168.1.2:5001", false, none, none, .asking⟩, ?_⟩
    decide +kernel
  have hholds : approvedLate.Holds 6 7 1 "connection-1" :=
    ⟨by decide, hasks, fun k _ hk hk' => absurd hk' (by omega)⟩
  obtain ⟨x, hx, htype, hid, hcontent⟩ : ∃ x ∈ approvedLate.sentAt 7,
      x.2.type = .connectionApprovalResult ∧ x.2.messageID = "connection-1" ∧
        x.2.content = "approved" := by decide +kernel
  obtain ⟨l, hl, hexpired⟩ : ∃ l, (approvedLate.gate 11).login? 1 = some l ∧
      l.resolution = some .expired := by
    refine ⟨⟨⟨"Bob", "BOB001"⟩, "192.168.1.2:5001", false, some true, some .expired,
      .refused "The room owner did not approve the connection in time"⟩, ?_⟩
    decide +kernel
  have hagrees := hsettled.agrees 6 7 1 "connection-1" x hholds hx htype hid 11 (by decide) l _ hl
    hexpired
  rw [hcontent] at hagrees
  exact absurd hagrees (by decide)

end Run

end Gate

end LanChat
