import LanChat.Hub.Gate

/-!
# Who gets to `hub.Register` (`server-go/client.go`)

A login that registers is the first administrator's from the machine itself, or an administrator
approved the request that was made for it.  The pending entry of the Hub holds the channel of one
login; the id of the entry was last made for the request of that login, the entry was shown as the
identity of that login, and what `EnsureIdentity` returns after the wait is that identity again.

* `Run.Holds`: the last request under an id;
* `Run.ApprovesAt`: an approval of the request of a login;
* `Run.Admits`: the invariant of the logins and the pending entries;
* `Run.admission`: the approval behind a registration.
-/

namespace LanChat

namespace Gate

open GoStrings Hub Registry EventMachine

namespace Run

variable {r : Run} {n : ℕ} {g : LoginID}

/-- The request under `id` that login `g` made at `i` is the last one before `n`. -/
structure Holds (r : Run) (i n : ℕ) (g : LoginID) (id : String) : Prop where
  before : i < n
  asks : r.At i (AskEvent · · g id)
  last : ∀ k g', i < k → k < n → ¬ r.At k (AskEvent · · g' id)

/-- What the Hub sends at the position. -/
def sentAt (r : Run) (n : ℕ) : List (ClientID × Message) :=
  sentBetween (r.gate n).hub (r.gate (n + 1)).hub

/-- Whenever the request is shown from `i` until before `n`, it is shown as the account. -/
def ShownAs (r : Run) (i n : ℕ) (id : String) (account : Account) : Prop :=
  ∀ k, i ≤ k → k < n → ∀ x ∈ r.sentAt k, x.2.type = .connectionApprovalRequest →
    x.2.messageID = id → x.2.username = account.username ∧ x.2.userCode = account.userCode

/-- An administrator approves the request of login `g`, which was shown as the account. -/
structure ApprovesAt (r : Run) (j : ℕ) (g : LoginID) (account : Account) : Prop where
  approval : ∃ i id, r.Holds i j g id ∧ r.ShownAs i (j + 1) id account ∧
    ((r.gate j).hub.approvals.lookup id).isSome = true ∧
    r.At j fun s e => ∃ input, e.input = .hub input ∧ DecisionFrame s.hub ⟨input, e.env⟩ id true

/-- Login `g` gets to `hub.Register` with the account. -/
def RegistersAt (r : Run) (n : ℕ) (g : LoginID) (account : Account) : Prop :=
  r.At n fun s e => e.input = .register g ∧
    ∃ l, s.login? g = some l ∧ l.stage = .persisted account

/-! ### The last request under an id -/

theorem mem_sentAt {P : ClientID × Message → Prop}
    (hsent : Emits P (r.gate n).hub.registry (r.gate (n + 1)).hub.registry) :
    ∀ x ∈ r.sentAt n, P x := fun _ hx => mem_sentBetween hsent hx

theorem Holds.succ {i : ℕ} {id : String} (hh : r.Holds i n g id)
    (hno : ∀ g', ¬ r.At n (AskEvent · · g' id)) : r.Holds i (n + 1) g id where
  before := Nat.lt_succ_of_lt hh.before
  asks := hh.asks
  last := by
    intro k g' hik hkn
    obtain hlt | rfl := Nat.lt_succ_iff_lt_or_eq.1 hkn
    · exact hh.last k g' hik hlt
    · exact hno g'

/-- Two logins do not hold the same id at the same time. -/
theorem Holds.unique {i i' : ℕ} {g' : LoginID} {id : String} (hh : r.Holds i n g id)
    (hh' : r.Holds i' n g' id) : g = g' := by
  obtain hlt | heq | hlt := Nat.lt_trichotomy i i'
  · exact absurd hh'.asks (hh.last i' g' hlt hh'.before)
  · subst heq
    obtain ⟨_, hin, _⟩ := hh.asks
    obtain ⟨_, hin', _⟩ := hh'.asks
    exact GateInput.ask.inj (hin.symm.trans hin')
  · exact absurd hh.asks (hh'.last i g hlt hh.before)

/-- An approval is of one request. -/
theorem ApprovesAt.unique {j : ℕ} {g' : LoginID} {a a' : Account} (hg : r.ApprovesAt j g a)
    (hg' : r.ApprovesAt j g' a') : g = g' := by
  obtain ⟨i, id, hh, -, -, ⟨_, input, hin, hframe⟩⟩ := hg.approval
  obtain ⟨i', id', hh', -, -, ⟨_, input', hin', hframe'⟩⟩ := hg'.approval
  obtain ⟨c, obj, m, ⟨⟨_, _, hm⟩, -⟩, -, -, -, -, rfl⟩ := hframe
  obtain ⟨c', obj', m', ⟨⟨_, _, hm'⟩, -⟩, -, -, -, -, rfl⟩ := hframe'
  rw [hin, GateInput.hub.injEq] at hin'
  subst hin'
  dsimp only at hm hm'
  rw [hm, Input.frame.injEq] at hm'
  obtain ⟨-, rfl, -, -⟩ := hm'
  exact hh.unique hh'

/-! ### The invariant -/

/-- What a login has before event `n` has been given to it. -/
structure Backed (r : Run) (n : ℕ) (g : LoginID) (l : Login) : Prop where
  approved : l.decision = some true ∨ l.resolution = some .approved →
    ∃ j < n, r.ApprovesAt j g l.account
  admitted : l.stage = .admitted ∨ (∃ account, l.stage = .persisted account) →
    (∃ i < n, r.At i (Boots · · g)) ∨ ∃ j < n, r.ApprovesAt j g l.account
  persisted : ∀ account, l.stage = .persisted account → SameIdentity account l.account

/-- The entry under `id` is the last request of the login under it, and is shown as its identity. -/
def Stands (r : Run) (n : ℕ) (id : String) (p : PendingApproval) (g : LoginID) : Prop :=
  ∃ i l, r.Holds i n g id ∧ r.ShownAs i n id l.account ∧ (r.gate n).login? g = some l ∧
    p.username = l.account.username ∧ p.userCode = l.account.userCode

/-- The logins are backed, and the pending entries are the requests of their logins. -/
structure Admits (r : Run) (n : ℕ) : Prop where
  backed : ∀ g l, (r.gate n).login? g = some l → r.Backed n g l
  stands : ∀ id p g, (r.gate n).hub.approvals.lookup id = some p →
    (r.gate n).owners.lookup id = some g → r.Stands n id p g

theorem admits_zero : r.Admits 0 where
  backed := by simp [gate, start, login?]
  stands := by simp [gate, start, Hub.boot]

theorem Backed.succ {l : Login} (hb : r.Backed n g l) : r.Backed (n + 1) g l where
  approved := by
    intro hl
    obtain ⟨j, hj, happroves⟩ := hb.approved hl
    exact ⟨j, Nat.lt_succ_of_lt hj, happroves⟩
  admitted := by
    intro hl
    obtain ⟨i, hi, hboots⟩ | ⟨j, hj, happroves⟩ := hb.admitted hl
    · exact .inl ⟨i, Nat.lt_succ_of_lt hi, hboots⟩
    · exact .inr ⟨j, Nat.lt_succ_of_lt hj, happroves⟩
  persisted := hb.persisted

/-- A login that is past its wait without approval needs nothing behind it. -/
theorem Backed.of_stage {l l' : Login} (hb : r.Backed n g l) (haccount : l'.account = l.account)
    (hdecision : l'.decision = some true → l.decision = some true)
    (hresolution : l'.resolution = some .approved →
      l.decision = some true ∨ l.resolution = some .approved)
    (hstage : l'.stage ≠ .admitted ∧ ∀ account, l'.stage ≠ .persisted account) :
    r.Backed n g l' where
  approved := by
    rw [haccount]
    exact fun hl => hb.approved (hl.elim (fun hd => .inl (hdecision hd)) hresolution)
  admitted := by
    rintro (hadmitted | ⟨account, hpersisted⟩)
    · exact absurd hadmitted hstage.1
    · exact absurd hpersisted (hstage.2 account)
  persisted := fun account hpersisted => absurd hpersisted (hstage.2 account)

/-- The messages that an event sends show no pending request as another identity. -/
def Truthful (s : Gate) (sent : List (ClientID × Message)) : Prop :=
  ∀ x ∈ sent, x.2.type = .connectionApprovalRequest → ∀ p,
    s.hub.approvals.lookup x.2.messageID = some p →
    x.2.username = p.username ∧ x.2.userCode = p.userCode

theorem truthful_of_quiet (hq : Quiet (r.gate n) (r.gate (n + 1))) :
    Truthful (r.gate n) (r.sentAt n) := by
  intro x hx hrequest p hp
  obtain ⟨p', hp', hshown⟩ := (mem_sentAt hq.sent x hx).2 hrequest
  rw [hp, Option.some.injEq] at hp'
  rw [hp']
  exact hshown

theorem truthful_of_ends {id : String} {resolution : Resolution}
    (hends : Ends (r.gate n) (r.gate (n + 1)) id resolution) :
    Truthful (r.gate n) (r.sentAt n) := by
  intro x hx hrequest
  rw [(mem_sentAt hends.sent x hx).2.1] at hrequest
  cases hrequest

theorem ShownAs.succ {i : ℕ} {id : String} {p : PendingApproval} {account : Account}
    (hs : r.ShownAs i n id account) (htrue : Truthful (r.gate n) (r.sentAt n))
    (hp : (r.gate n).hub.approvals.lookup id = some p)
    (haccount : p.username = account.username ∧ p.userCode = account.userCode) :
    r.ShownAs i (n + 1) id account := by
  intro k hik hkn x hx hrequest hid
  obtain hlt | rfl := Nat.lt_succ_iff_lt_or_eq.1 hkn
  · exact hs k hik hlt x hx hrequest hid
  · obtain ⟨husername, huserCode⟩ := htrue x hx hrequest p (hid ▸ hp)
    exact ⟨husername.trans haccount.1, huserCode.trans haccount.2⟩

/-- An entry that is pending before and after an event stands on when nobody asks under its id. -/
theorem Stands.succ {id : String} {p : PendingApproval} (hst : r.Stands n id p g)
    (hp : (r.gate n).hub.approvals.lookup id = some p)
    (hno : ∀ g', ¬ r.At n (AskEvent · · g' id)) (htrue : Truthful (r.gate n) (r.sentAt n))
    (hkeep : Keeps (r.gate n) (r.gate (n + 1))) : r.Stands (n + 1) id p g := by
  obtain ⟨i, l, hholds, hshown, hl, haccount⟩ := hst
  obtain ⟨l', hl', hsame, -⟩ := hkeep g l hl
  refine ⟨i, l', hholds.succ hno, ?_, hl', ?_⟩
  · rw [hsame]
    exact hshown.succ htrue hp haccount
  · rw [hsame]
    exact haccount

/-- After an event that makes no request every entry still stands. -/
theorem stands_of_effect {e : GateEvent} (ha : r.Admits n)
    (hno : ∀ g id, ¬ r.At n (AskEvent · · g id)) (he : Effect (r.gate n) e (r.gate (n + 1)))
    (id : String) (p : PendingApproval) (g : LoginID)
    (hp : (r.gate (n + 1)).hub.approvals.lookup id = some p)
    (hg : (r.gate (n + 1)).owners.lookup id = some g) : r.Stands (n + 1) id p g := by
  have hp' := he.lookup_approvals hp
  rw [he.owners_eq] at hg
  have htrue : Truthful (r.gate n) (r.sentAt n) := by
    obtain hquiet | ⟨id', resolution, hends⟩ := he.quiet_or_ends
    · exact truthful_of_quiet hquiet
    · exact truthful_of_ends hends
  exact (ha.stands id p g hp' hg).succ hp' (fun g' => hno g' id) htrue he.keeps

theorem askEvent_unique {g' : LoginID} {id id' : String} (h : r.At n (AskEvent · · g id))
    (h' : r.At n (AskEvent · · g' id')) : id = id' := by
  obtain ⟨_, hin, l, hl, -, hid, -⟩ := h
  obtain ⟨_, hin', l', hl', -, hid', -⟩ := h'
  rw [hin, GateInput.ask.injEq] at hin'
  subst hin'
  rw [hl, Option.some.injEq] at hl'
  rw [← hid, ← hid', hl']

/-- A new entry stands for the request that made it; the others stand on. -/
theorem stands_of_asks {l : Login} {id : String} {p : PendingApproval} (ha : r.Admits n)
    (hn : n < r.events.length)
    (hasks : Asks (r.gate n) r.events[n] (r.gate (n + 1)) g l id p)
    (id' : String) (p' : PendingApproval) (g' : LoginID)
    (hp : (r.gate (n + 1)).hub.approvals.lookup id' = some p')
    (hg : (r.gate (n + 1)).owners.lookup id' = some g') : r.Stands (n + 1) id' p' g' := by
  rw [hasks.approvals] at hp
  rw [hasks.owners] at hg
  have hat : r.At n (AskEvent · · g id) := ⟨hn, hasks.event⟩
  by_cases heq : id' = id
  · subst heq
    rw [AList.lookup_insert, Option.some.injEq] at hp hg
    subst hp hg
    have hholds : r.Holds n (n + 1) g id' :=
      ⟨Nat.lt_succ_self n, hat, fun k _ hnk hkn => absurd (Nat.lt_succ_iff.1 hkn) (by omega)⟩
    refine ⟨n, { l with stage := .waiting id' }, hholds, ?_, by rw [hasks.logins, if_pos rfl],
      hasks.shown⟩
    intro k hnk hkn x hx hrequest hid
    obtain rfl : k = n := by omega
    have hmessage : x.2 = pendingApprovalMessage id' p := mem_sentAt hasks.sent x hx
    rw [hmessage]
    exact hasks.shown
  · rw [AList.lookup_insert_ne heq] at hp hg
    have hkeeps : Keeps (r.gate n) (r.gate (n + 1)) := hasks.keeps
    have hother : ∀ g'', ¬ r.At n (AskEvent · · g'' id') :=
      fun g'' hask => heq (askEvent_unique hask hat)
    obtain ⟨i, l', hholds, hshown, hl', haccount⟩ := ha.stands id' p' g' hp hg
    obtain ⟨l'', hl'', hsame, -⟩ := hkeeps g' l' hl'
    refine ⟨i, l'', hholds.succ hother, ?_, hl'', by rw [hsame]; exact haccount⟩
    rw [hsame]
    intro k hik hkn x hx hrequest hid
    obtain hlt | rfl := Nat.lt_succ_iff_lt_or_eq.1 hkn
    · exact hshown k hik hlt x hx hrequest hid
    · have hmessage : x.2 = pendingApprovalMessage id p := mem_sentAt hasks.sent x hx
      rw [hmessage] at hid
      exact absurd hid.symm heq

/-- An approval of a pending entry approves the request of the login whose channel it holds. -/
theorem approvesAt_of_resolve {i : Input} {id : String} {p : PendingApproval} {l : Login}
    (ha : r.Admits n) (hn : n < r.events.length) (hin : r.events[n].input = .hub i)
    (hframe : DecisionFrame (r.gate n).hub ⟨i, r.events[n].env⟩ id true)
    (hp : (r.gate n).hub.approvals.lookup id = some p)
    (hends : Ends (r.gate n) (r.gate (n + 1)) id .approved)
    (hg : (r.gate n).owners.lookup id = some g) (hl : (r.gate n).login? g = some l) :
    r.ApprovesAt n g l.account := by
  obtain ⟨i', l', hholds, hshown, hl', haccount⟩ := ha.stands id p g hp hg
  rw [hl, Option.some.injEq] at hl'
  subst hl'
  exact ⟨i', id, hholds, hshown.succ (truthful_of_ends hends) hp haccount, by rw [hp]; rfl,
    hn, i, hin, hframe⟩

/-- What an event gives to a login is behind it then. -/
theorem backed_of_effect (ha : r.Admits n) (hn : n < r.events.length)
    (he : Effect (r.gate n) r.events[n] (r.gate (n + 1))) (g : LoginID) (l : Login)
    (hl : (r.gate (n + 1)).login? g = some l) : r.Backed (n + 1) g l := by
  have hset : ∀ {g₀ : LoginID} {l₀ : Login}, Sets (r.gate n) (r.gate (n + 1)) g₀ l₀ →
      r.Backed (n + 1) g₀ l₀ → r.Backed (n + 1) g l := by
    intro g₀ l₀ hset hnew
    obtain ⟨rfl, rfl⟩ | ⟨-, hold⟩ := hset.cases hl
    · exact hnew
    · exact (ha.backed g l hold).succ
  have hold : ∀ {g₀ : LoginID} {l₀ : Login}, (r.gate n).login? g₀ = some l₀ →
      r.Backed (n + 1) g₀ l₀ := fun hl₀ => (ha.backed _ _ hl₀).succ
  cases he with
  | idle quiet cancels logins => exact hold ((logins g).symm.trans hl)
  | connect g₀ l₀ quiet cancels new channel stage logins =>
    refine hset logins ⟨?_, ?_, ?_⟩
    · simp [channel]
    · intro hadmitted
      obtain hasking | ⟨content, hrefused⟩ | ⟨-, hboots⟩ := stage
      · simp [hasking] at hadmitted
      · simp [hrefused] at hadmitted
      · exact .inl ⟨n, Nat.lt_succ_self n, hn, hboots⟩
    · intro account hpersisted
      simp [hpersisted] at stage
  | refuse g₀ l₀ content quiet cancels login stage logins =>
    exact hset logins ((hold login).of_stage rfl id .inr (by simp))
  | decide g₀ l₀ id approved quiet cancels login stage decision logins =>
    refine hset logins ((hold login).of_stage rfl (by simp) (fun happroved => ?_) (by simp))
    cases approved with
    | true => exact .inl decision
    | false => cases happroved
  | expire g₀ l₀ id input quiet cancels login stage logins =>
    exact hset logins ((hold login).of_stage rfl (fun hd => hd) (by simp) (by simp))
  | cancel g₀ l₀ id input quiet login stage cancels logins =>
    have hb := hold login
    refine hset logins ⟨hb.approved, fun hadmitted => ?_, fun account hpersisted => ?_⟩
    · dsimp only at hadmitted
      split at hadmitted
      · rename_i hresolution
        exact .inr (hb.approved (.inr hresolution))
      · simp at hadmitted
      · simp at hadmitted
    · dsimp only at hpersisted
      split at hpersisted <;> cases hpersisted
  | persist g₀ l₀ account quiet cancels login stage same valid logins =>
    have hb := hold login
    refine hset logins ⟨hb.approved, fun _ => hb.admitted (.inl stage), fun account' hpersisted => ?_⟩
    cases hpersisted
    exact same
  | register g₀ l₀ account quiet cancels login stage logins =>
    exact hset logins ((hold login).of_stage rfl id .inr (by simp))
  | resolve i id approved p input frame pending ends cancels logins =>
    rw [logins g] at hl
    split at hl
    · rename_i howner
      obtain ⟨l₀, hl₀, rfl⟩ := Option.map_eq_some_iff.1 hl
      have hb := hold hl₀
      refine ⟨fun happroved => ?_, ?_, ?_⟩
      · rw [account_put]
        by_cases hnone : l₀.decision = none
        · rw [decision_put approved l₀ hnone, resolution_put] at happroved
          obtain hdecision | hresolution := happroved
          · obtain rfl : approved = true := Option.some.inj hdecision
            exact ⟨n, Nat.lt_succ_self n,
              approvesAt_of_resolve ha hn input frame pending ends howner hl₀⟩
          · exact hb.approved (.inr hresolution)
        · have hsame : Login.put approved l₀ = l₀ := by
            rw [Login.put, if_neg (by simpa using hnone)]
          rw [hsame] at happroved
          exact hb.approved happroved
      · simpa using hb.admitted
      · simpa using hb.persisted
    · exact hold hl
  | drain id waiting ends logins => exact hold ((logins g).symm.trans hl)

theorem admits_succ (ha : r.Admits n) (hn : n < r.events.length) : r.Admits (n + 1) := by
  obtain ⟨g, l, id, p, hasks⟩ | ⟨hno, heffect⟩ := effect_at hn
  · refine ⟨fun g' l' hl' => ?_, stands_of_asks ha hn hasks⟩
    obtain ⟨rfl, rfl⟩ | ⟨-, hold⟩ := hasks.logins.cases hl'
    · exact (ha.backed g l hasks.login).succ.of_stage rfl (fun hd => hd) .inr (by simp)
    · exact (ha.backed g' l' hold).succ
  · exact ⟨backed_of_effect ha hn heffect, stands_of_effect ha hno heffect⟩

theorem admits_gate (hn : n ≤ r.events.length) : r.Admits n := by
  induction n with
  | zero => exact admits_zero
  | succ n ih => exact admits_succ (ih (Nat.le_of_succ_le hn)) hn

/-- A login gets to `hub.Register` only as the first administrator's or after an approval of its own
request, under the identity that the request was shown as; and an approval is of one login. -/
theorem admission (r : Run) :
    (∀ n g account, r.RegistersAt n g account →
      (∃ i < n, r.At i (Boots · · g)) ∨
        ∃ j < n, ∃ shown, r.ApprovesAt j g shown ∧ SameIdentity account shown) ∧
    ∀ j g g' shown shown', r.ApprovesAt j g shown → r.ApprovesAt j g' shown' → g = g' := by
  refine ⟨fun n g account hregisters => ?_, fun _ _ _ _ _ h h' => h.unique h'⟩
  obtain ⟨hn, -, l, hl, hstage⟩ := hregisters
  have hb := (admits_gate hn.le).backed g l hl
  obtain hboots | ⟨j, hj, happroves⟩ := hb.admitted (.inr ⟨account, hstage⟩)
  · exact .inl hboots
  · exact .inr ⟨j, hj, l.account, happroves, hb.persisted account hstage⟩

end Run

end Gate

end LanChat
