import LanChat.Lib.Run
import LanChat.Store.Chat

/-!
# Logins that run side by side

`EnsureIdentity` looks an account up with one statement and inserts it with another one, and nothing
keeps the statements of other calls out between the two.

* `LoginNet`: the accounts and the calls that run, each with the statement that comes next;
* `LoginNet.step`: a call begins, or its next statement runs;
* `Account.OneToOne`: no name and no code has two accounts;
* `ReturnsBinding`: an `EnsureIdentity` of a bound identity returns its account;
* `Unraced`: an `INSERT` of `EnsureIdentity` does not find its own identity bound meanwhile;
* `identity_binding_iff`: the binding is one-to-one and stable in every run, and the calls return it
  exactly in the runs without a race.
-/

namespace LanChat

open GoStrings EventMachine

/-- The calls that read or write `accounts`. -/
inductive AccountCall
  | resolveConnectionIdentity (username userCode : String)
  | ensureIdentity (username userCode : String)
  | register (username userCode : String)
  deriving DecidableEq, Repr

/-- The name and the code of a call. -/
def AccountCall.identity : AccountCall → String × String
  | .resolveConnectionIdentity username userCode => (username, userCode)
  | .ensureIdentity username userCode => (username, userCode)
  | .register username userCode => (username, userCode)

/-- `ErrAccountAlreadyExists`. -/
def errAccountAlreadyExists : GoError := .text "account already exists"

/-- How far a call has come.  `Register` returns nothing but its error. -/
inductive AccountCallState
  | ready (call : AccountCall)
  | inserting (username userCode : String)
  | returned (call : AccountCall) (result : Except GoError (Option Account))
  deriving DecidableEq

/-- The database and the calls on it. -/
structure LoginNet where
  chat : ChatStore
  calls : ℕ → Option AccountCallState

/-- What can happen next. -/
inductive LoginEvent
  | begins (id : ℕ) (call : AccountCall)
  | statement (id : ℕ)
  deriving DecidableEq, Repr

namespace LoginNet

/-- An empty database without calls. -/
def initial : LoginNet := ⟨.empty, fun _ => none⟩

/-- The call has come that far. -/
def mark (s : LoginNet) (id : ℕ) (state : AccountCallState) : LoginNet :=
  { s with calls := Function.update s.calls id (some state) }

/-- The call is between its beginning and its return. -/
def runs (s : LoginNet) (id : ℕ) : Bool :=
  match s.calls id with
  | some (.ready _) => true
  | some (.inserting ..) => true
  | _ => false

/-- A call whose identity `validateMessage` refuses returns before its first statement. -/
def begins (s : LoginNet) (id : ℕ) (call : AccountCall) : LoginNet :=
  if s.runs id then s
  else match validateMessage
      { type := .login, username := call.identity.1, userCode := call.identity.2 } with
    | .ok _ => s.mark id (.ready call)
    | .error e => s.mark id (.returned call (.error e))

/-- The `INSERT` of a call, which returns with it. -/
def insertAccount (s : LoginNet) (id : ℕ) (call : AccountCall) (username userCode : String)
    (account : Option Account) : LoginNet :=
  match s.chat.accounts.insert? ⟨username, userCode⟩ with
  | some accounts =>
    { s with chat := { s.chat with accounts } }.mark id (.returned call (.ok account))
  | none => s.mark id (.returned call (.error errAccountAlreadyExists))

/-- What the lookup of a call returns when there is a row. -/
def foundAccount (a : Account) (username userCode : String) : Except GoError (Option Account) :=
  if a.matches username userCode then .ok (some a) else .error errAccountAlreadyExists

/-- The next statement of a call. -/
def statement (s : LoginNet) (id : ℕ) : LoginNet :=
  match s.calls id with
  | some (.ready (.resolveConnectionIdentity username userCode)) =>
    match s.chat.findAccount username userCode with
    | some a => s.mark id (.returned (.resolveConnectionIdentity username userCode)
        (foundAccount a username userCode))
    | none => s.mark id (.returned (.resolveConnectionIdentity username userCode)
        (.ok (some ⟨username, userCode⟩)))
  | some (.ready (.ensureIdentity username userCode)) =>
    match s.chat.findAccount username userCode with
    | some a => s.mark id (.returned (.ensureIdentity username userCode)
        (foundAccount a username userCode))
    | none => s.mark id (.inserting username userCode)
  | some (.ready (.register username userCode)) =>
    s.insertAccount id (.register username userCode) username userCode none
  | some (.inserting username userCode) =>
    s.insertAccount id (.ensureIdentity username userCode) username userCode
      (some ⟨username, userCode⟩)
  | _ => s

def step (s : LoginNet) : LoginEvent → LoginNet
  | .begins id call => s.begins id call
  | .statement id => s.statement id

/-! ### Single calls -/

@[simp] theorem chat_mark (s : LoginNet) (id : ℕ) (state : AccountCallState) :
    (s.mark id state).chat = s.chat := rfl

@[simp] theorem calls_mark (s : LoginNet) (id : ℕ) (state : AccountCallState) :
    (s.mark id state).calls id = some state := Function.update_self ..

/-- All statements of a call, one after the other. -/
def alone (s : LoginNet) (id : ℕ) : LoginNet :=
  if (s.statement id).runs id then (s.statement id).statement id else s.statement id

/-- Alone, the statements of `EnsureIdentity` do what `ensureIdentity` does. -/
theorem ensureIdentity_alone {s : LoginNet} {id : ℕ} {username userCode : String}
    (hready : s.calls id = some (.ready (.ensureIdentity username userCode)))
    (hvalid : validateMessage { type := .login, username, userCode } = .ok ()) :
    (s.alone id).calls id = some (.returned (.ensureIdentity username userCode)
        ((s.chat.ensureIdentity username userCode).map fun r => some r.1)) ∧
      (s.alone id).chat = ((s.chat.ensureIdentity username userCode).toOption.map Prod.snd).getD
        s.chat := by
  unfold ChatStore.ensureIdentity
  rw [hvalid]
  cases hfind : s.chat.findAccount username userCode with
  | some a =>
    have hlookup : s.statement id = s.mark id (.returned (.ensureIdentity username userCode)
        (foundAccount a username userCode)) := by
      unfold statement
      rw [hready]
      dsimp only
      rw [hfind]
    have hdone : (s.statement id).runs id = false := by
      unfold runs
      rw [hlookup, calls_mark]
    unfold alone
    rw [if_neg (by rw [hdone]; decide), hlookup, calls_mark, chat_mark]
    unfold foundAccount
    dsimp only
    cases hmatch : a.matches username userCode with
    | true => exact ⟨rfl, rfl⟩
    | false => exact ⟨rfl, rfl⟩
  | none =>
    have hlookup : s.statement id = s.mark id (.inserting username userCode) := by
      unfold statement
      rw [hready]
      dsimp only
      rw [hfind]
    have hgoes : (s.statement id).runs id = true := by
      unfold runs
      rw [hlookup, calls_mark]
    unfold alone
    rw [if_pos hgoes, hlookup]
    unfold statement
    rw [calls_mark]
    dsimp only
    unfold insertAccount
    rw [chat_mark]
    cases s.chat.accounts.insert? ⟨username, userCode⟩ with
    | some accounts => exact ⟨calls_mark _ _ _, rfl⟩
    | none => exact ⟨calls_mark _ _ _, rfl⟩

/-! ### The accounts -/

end LoginNet

/-- No name and no code has two accounts, whatever their case. -/
def Account.OneToOne (rows : List Account) : Prop :=
  ∀ a ∈ rows, ∀ b ∈ rows,
    (toLower a.username = toLower b.username ↔ asciiLower a.userCode = asciiLower b.userCode)

theorem Account.clash_iff {a b : Account} : a.clash b = true ↔
    toLower a.username = toLower b.username ∨ asciiLower a.userCode = asciiLower b.userCode := by
  unfold Account.clash Table.keyClash
  simp

theorem Account.matches_iff {a : Account} {username userCode : String} :
    a.matches username userCode = true ↔
      toLower a.username = toLower username ∧ asciiLower a.userCode = asciiLower userCode := by
  unfold Account.matches
  simp

/-- The two unique columns make the accounts one-to-one. -/
theorem oneToOne_accounts (t : Table Account.clash) : Account.OneToOne t.rows := by
  intro a ha b hb
  constructor
  · intro hname
    rw [t.eq_of_clash ha hb (Account.clash_iff.2 (.inl hname))]
  · intro hcode
    rw [t.eq_of_clash ha hb (Account.clash_iff.2 (.inr hcode))]

/-- A bound identity is found. -/
theorem findAccount_of_matches {s : ChatStore} {a : Account} {username userCode : String}
    (ha : a ∈ s.accounts.rows) (hmatch : a.matches username userCode = true) :
    s.findAccount username userCode = some a := by
  obtain ⟨hname, hcode⟩ := Account.matches_iff.1 hmatch
  refine s.accounts.find?_eq_some_of_mem ha ?_ fun b hb => Account.clash_iff.2 ?_
  · simp [hname]
  · rw [hname, hcode]
    simpa using hb

/-- `Ärger`, bound to a code, logs in as `äRGER`. -/
example : ((ChatStore.empty.ensureIdentity "Ärger" "0000000001").toOption.bind fun bound =>
    (bound.2.ensureIdentity "äRGER" "0000000001").toOption).map (·.1) =
    some ⟨"Ärger", "0000000001"⟩ := by decide +kernel

namespace LoginNet

variable {s : LoginNet}

/-- Rows are only added. -/
theorem prefix_insertAccount (id : ℕ) (call : AccountCall) (username userCode : String)
    (account : Option Account) : s.chat.accounts.rows <+:
      (s.insertAccount id call username userCode account).chat.accounts.rows := by
  unfold insertAccount
  cases hinsert : s.chat.accounts.insert? ⟨username, userCode⟩ with
  | some accounts => exact ⟨_, (Table.rows_of_insert? hinsert).symm⟩
  | none => exact List.prefix_rfl

theorem prefix_statement (id : ℕ) :
    s.chat.accounts.rows <+: (s.statement id).chat.accounts.rows := by
  unfold statement
  split
  · split
    · exact List.prefix_rfl
    · exact List.prefix_rfl
  · split
    · exact List.prefix_rfl
    · exact List.prefix_rfl
  · exact prefix_insertAccount ..
  · exact prefix_insertAccount ..
  · exact List.prefix_rfl

theorem prefix_step (s : LoginNet) (e : LoginEvent) :
    s.chat.accounts.rows <+: (s.step e).chat.accounts.rows := by
  cases e with
  | begins id call =>
    dsimp only [step, begins]
    split_ifs
    · exact List.prefix_rfl
    · split
      · exact List.prefix_rfl
      · exact List.prefix_rfl
  | statement id => exact prefix_statement id

/-- An existing binding never changes. -/
theorem prefix_run (s : LoginNet) (es : List LoginEvent) :
    s.chat.accounts.rows <+: (run step s es).chat.accounts.rows :=
  run_rel step (I := fun _ => True) (R := fun s t => s.chat.accounts.rows <+: t.chat.accounts.rows)
    (fun _ => List.prefix_rfl) (fun _ _ _ => List.IsPrefix.trans) (fun _ _ _ => trivial)
    (fun s e _ => prefix_step s e) trivial es

/-! ### What a call returns -/

/-- The call is an `EnsureIdentity` of that identity before one of its statements. -/
def Ensures (s : LoginNet) (id : ℕ) (username userCode : String) : Prop :=
  s.calls id = some (.ready (.ensureIdentity username userCode)) ∨
    s.calls id = some (.inserting username userCode)

/-- If the statement ends an `EnsureIdentity` of an identity that is bound when it returns, it returns
the account with its stored spelling. -/
def ReturnsBinding (s : LoginNet) : LoginEvent → Prop
  | .begins .. => True
  | .statement id => ∀ username userCode result a, Ensures s id username userCode →
      (s.statement id).calls id = some (.returned (.ensureIdentity username userCode) result) →
      a ∈ (s.statement id).chat.accounts.rows → a.matches username userCode = true →
      result = .ok (some a)

/-- If the statement is the `INSERT` of an `EnsureIdentity`, its identity is not bound. -/
def Unraced (s : LoginNet) : LoginEvent → Prop
  | .begins .. => True
  | .statement id => ∀ username userCode, s.calls id = some (.inserting username userCode) →
      ∀ a ∈ s.chat.accounts.rows, a.matches username userCode = false

theorem returnsBinding_iff (s : LoginNet) (e : LoginEvent) : ReturnsBinding s e ↔ Unraced s e := by
  cases e with
  | begins => exact Iff.rfl
  | statement id =>
    constructor
    · intro hreturns username userCode hcall a ha
      by_contra hmatch
      have hmatch : a.matches username userCode = true := by simpa using hmatch
      -- the row that is there refuses the new one
      have hrefused : s.chat.accounts.insert? ⟨username, userCode⟩ = none := by
        cases hinsert : s.chat.accounts.insert? ⟨username, userCode⟩ with
        | none => rfl
        | some accounts =>
          have hclash := (Table.not_clash_of_insert? hinsert a ha).1
          have hsame : a.clash ⟨username, userCode⟩ = true :=
            Account.clash_iff.2 (.inl (Account.matches_iff.1 hmatch).1)
          rw [hsame] at hclash
          cases hclash
      have hstatement : s.statement id = s.mark id (.returned (.ensureIdentity username userCode)
          (.error errAccountAlreadyExists)) := by
        unfold statement
        rw [hcall]
        dsimp only
        unfold insertAccount
        rw [hrefused]
      have hresult := hreturns username userCode (.error errAccountAlreadyExists) a (.inr hcall)
        (by rw [hstatement, calls_mark]) (by rw [hstatement]; exact ha) hmatch
      cases hresult
    · rintro hunraced username userCode result a (hcall | hcall) hreturned ha hmatch
      · unfold statement at hreturned ha
        rw [hcall] at hreturned ha
        dsimp only at hreturned ha
        cases hfind : s.chat.findAccount username userCode with
        | some b =>
          rw [hfind] at hreturned ha
          obtain rfl := Option.some.inj (hfind.symm.trans (findAccount_of_matches ha hmatch))
          rw [calls_mark] at hreturned
          cases hreturned
          unfold foundAccount
          rw [if_pos hmatch]
        | none =>
          rw [hfind] at hreturned
          rw [calls_mark] at hreturned
          cases hreturned
      · have hnone := hunraced username userCode hcall
        unfold statement at hreturned ha
        rw [hcall] at hreturned ha
        dsimp only at hreturned ha
        unfold insertAccount at hreturned ha
        cases hinsert : s.chat.accounts.insert? ⟨username, userCode⟩ with
        | some accounts =>
          rw [hinsert] at hreturned ha
          rw [calls_mark] at hreturned
          cases hreturned
          rcases (Table.mem_insert? hinsert).1 ha with hold | rfl
          · rw [hnone a hold] at hmatch
            cases hmatch
          · rfl
        | none =>
          rw [hinsert] at ha
          rw [hnone a ha] at hmatch
          cases hmatch

/-- In the run no two accounts ever share a name or a code, an account that is bound stays as it is,
and every `EnsureIdentity` for a bound identity returns its account. -/
structure KeepsBinding (es : List LoginEvent) : Prop where
  oneToOne : ∀ k, Account.OneToOne (run step initial (es.take k)).chat.accounts.rows
  stable : ∀ k, (run step initial (es.take k)).chat.accounts.rows <+:
    (run step initial es).chat.accounts.rows
  returns : Along step ReturnsBinding initial es

/-- Whatever the interleaving, the accounts are one-to-one and bindings stay; every `EnsureIdentity`
returns the binding exactly when no `INSERT` of one finds its identity bound since its lookup. -/
theorem identity_binding_iff (es : List LoginEvent) :
    KeepsBinding es ↔ Along step Unraced initial es := by
  constructor
  · intro hkeeps
    exact hkeeps.returns.mono fun s e => (returnsBinding_iff s e).1
  · intro hunraced
    refine ⟨fun k => oneToOne_accounts _, fun k => ?_, hunraced.mono fun s e =>
      (returnsBinding_iff s e).2⟩
    have hrun := run_append step initial (es.take k) (es.drop k)
    rw [List.take_append_drop] at hrun
    rw [hrun]
    exact prefix_run _ _

/-- Two first logins of one identity, with their lookups before both insertions. -/
def twoFirstLogins : List LoginEvent :=
  [.begins 0 (.ensureIdentity "alice" "0000000001"),
    .begins 1 (.ensureIdentity "alice" "0000000001"),
    .statement 0, .statement 1, .statement 0, .statement 1]

/-- The second one returns an error, although its identity is bound. -/
theorem second_login_refused :
    (run step initial twoFirstLogins).chat.accounts.rows = [⟨"alice", "0000000001"⟩] ∧
      (run step initial twoFirstLogins).calls 1 =
        some (.returned (.ensureIdentity "alice" "0000000001") (.error errAccountAlreadyExists)) ∧
      ¬ Along step ReturnsBinding initial twoFirstLogins := by
  refine ⟨by decide +kernel, by decide +kernel, fun hreturns => ?_⟩
  have hreturns : Along step ReturnsBinding initial (twoFirstLogins.take 5 ++ [.statement 1]) :=
    hreturns
  have hlast := hreturns.append.2.1
  have hresult := hlast "alice" "0000000001" (.error errAccountAlreadyExists)
    ⟨"alice", "0000000001"⟩ (.inr (by decide +kernel)) (by decide +kernel) (by decide +kernel) rfl
  cases hresult

end LoginNet

end LanChat
