import LanChat.Hub.Finality

/-!
# Logins that wait for approval (`server-go/client.go`, `server-go/hub.go`)

With a store, the goroutine of a connection resolves the claimed identity, asks the Hub for an
approval and waits for the decision or for its timer; then it cancels the request, and only when it
was approved does it persist the identity and register.  Decisions come over a channel with one
place that the pending entry of the Hub holds, cancellations go over a queue of 128 that drops what
does not fit.

* `Login`: a login goroutine; `Gate`: the Hub, its login goroutines and the cancellation queue;
* `Gate.step`: one event, of a goroutine or of the Hub;
* `decision_step`: which events of the Hub decide about a pending entry.
-/

namespace LanChat

namespace ChatStore

open GoStrings

/-- `ResolveConnectionIdentity`: as `EnsureIdentity`, but nothing is written. -/
def resolveConnectionIdentity (s : ChatStore) (username userCode : String) :
    Except GoError Account := do
  validateMessage { type := .login, username, userCode }
  match s.findAccount username userCode with
  | some a =>
    require (a.matches username userCode) (.text "account already exists")
    return a
  | none => return ⟨username, userCode⟩

end ChatStore

/-- The number of a login goroutine. -/
abbrev LoginID := ℕ

/-- What the wait of a login ended with. -/
inductive Resolution
  | approved
  | denied
  | expired
  deriving DecidableEq, Repr

/-- The text under which the Hub announces it. -/
def Resolution.text : Resolution → String
  | .approved => "approved"
  | .denied => "denied"
  | .expired => "expired"

/-- Where a login goroutine is. -/
inductive GateStage
  | asking
  | waiting (id : String)
  | resolved (id : String)
  | admitted
  | persisted (account : Account)
  | registered (account : Account)
  | refused (content : String)
  deriving DecidableEq, Repr

/-- The goroutine of `handleConnectionWithStore` up to the registration.  `account` is the resolved
identity, `decision` the channel of that name, `resolution` what the `select` came back with. -/
structure Login where
  account : Account
  remoteAddress : String
  bootstrapAdmin : Bool
  decision : Option Bool := none
  resolution : Option Resolution := none
  stage : GateStage
  deriving DecidableEq, Repr

/-- The Hub with the logins of its process.  `owners` names the goroutine whose channel a pending
entry holds. -/
structure Gate where
  hub : Hub
  logins : List Login
  owners : AList fun _ : String => LoginID
  cancels : List String

namespace Gate

open GoStrings Hub

/-- Events of the login goroutines and of the Hub. -/
inductive GateInput
  | connect (username userCode remoteAddress : String) (loopback fails : Bool)
  | ask (g : LoginID)
  | decide (g : LoginID)
  | timeout (g : LoginID)
  | cancel (g : LoginID)
  | persist (g : LoginID)
  | register (g : LoginID)
  | drain
  | hub (input : Input)
  deriving DecidableEq, Repr

structure GateEvent where
  input : GateInput
  env : Env := {}

def login? (s : Gate) (g : LoginID) : Option Login := s.logins[g]?

def modifyLogin (s : Gate) (g : LoginID) (f : Login → Login) : Gate :=
  { s with logins := s.logins.modify g f }

/-- The first administrator logs in from the machine itself. -/
def bootstrapAdmin (h : Hub) (userCode : String) (loopback : Bool) : Bool :=
  h.adminCode != "" && equalFold userCode h.adminCode && loopback

/-- A login frame is read and its identity resolved. -/
def connect (s : Gate) (username userCode remoteAddress : String) (loopback fails : Bool) : Gate :=
  let login (stage : GateStage) (account : Account) : Login :=
    ⟨account, remoteAddress, bootstrapAdmin s.hub userCode loopback, none, none, stage⟩
  let new :=
    if !(validateMessage { type := .login, username, userCode }).isOk then
      login (.refused "Invalid username") ⟨username, userCode⟩
    else if fails then login (.refused "Connection identity failed") ⟨username, userCode⟩
    else match s.hub.db.chat.resolveConnectionIdentity username userCode with
      | .error _ => login (.refused "Connection identity failed") ⟨username, userCode⟩
      | .ok account =>
        if bootstrapAdmin s.hub userCode loopback then login .admitted account
        else login .asking account
  { s with logins := s.logins ++ [new] }

/-- What the Hub puts into `created`. -/
def createdID (h : Hub) (account : Account) : String :=
  if account.username = "" ∨ account.userCode = "" ∨ asciiLower account.userCode = "" then ""
  else "connection-" ++ formatUint (h.nextApprovalID + 1)

/-- The approval request, which the Hub handles at once. -/
def ask (s : Gate) (platform : Platform) (env : Env) (g : LoginID) (l : Login) : Gate :=
  let id := createdID s.hub l.account
  let s := { s with
    hub := s.hub.handleConnectionApproval platform env l.account.username l.account.userCode
      (asciiLower l.account.userCode) l.remoteAddress }
  if id = "" then
    s.modifyLogin g fun l => { l with stage := .refused "Connection approval could not be created" }
  else
    { s with owners := s.owners.insert id g }.modifyLogin g
      fun l => { l with stage := .waiting id }

/-- The size of `CancelConnectionApproval`. -/
def cancelQueueSize : ℕ := 128

/-- The text of the `login_error` after a wait without approval. -/
def refusalText : Resolution → String
  | .denied => "The room owner declined this connection"
  | _ => "The room owner did not approve the connection in time"

/-- The cancellation after the wait, dropped when the queue is full, and the way on. -/
def cancel (s : Gate) (g : LoginID) (l : Login) (id : String) : Gate :=
  let cancels := if s.cancels.length < cancelQueueSize then s.cancels ++ [id] else s.cancels
  { s with cancels }.modifyLogin g fun l' => { l' with
    stage := match l.resolution with
      | some .approved => .admitted
      | some resolution => .refused (refusalText resolution)
      | none => .refused (refusalText .expired) }

/-- `EnsureIdentity` for an approved login. -/
def persist (s : Gate) (env : Env) (g : LoginID) (l : Login) : Gate :=
  match env.call .ensureIdentity
      (s.hub.db.chat.ensureIdentity l.account.username l.account.userCode) with
  | .error _ => s.modifyLogin g fun l =>
      { l with stage := .refused "Approved connection could not be completed" }
  | .ok (account, chat) =>
    { s with hub := { s.hub with db := { s.hub.db with chat } } }.modifyLogin g
      fun l => { l with stage := .persisted account }

/-- `hub.Register <- …`, and the `login_error` when the Hub refuses. -/
def register (s : Gate) (env : Env) (g : LoginID) (account : Account) : Gate :=
  let result := s.hub.handleRegisterRequest env
    (newClient account.username account.userCode (normalizedOrEmpty account.userCode) true)
  { s with hub := result.2 }.modifyLogin g fun l => { l with
    stage := match result.1 with
      | .ok _ => .registered account
      | .error .errUserCodeAlreadyUsed => .refused "User code already exists"
      | .error _ => .refused "Login failed" }

/-- A decision of the Hub goes into the channel of the pending entry, when there is room. -/
def deliverDecision (s : Gate) (decision : String × Bool) : Gate :=
  match s.owners.lookup decision.1 with
  | none => s
  | some g => s.modifyLogin g fun l =>
      if l.decision.isNone then { l with decision := some decision.2 } else l

/-- The events of the Hub that no login goroutine stands behind. -/
def isOwn : Input → Bool
  | .login _ _ | .connectionApproval .. | .cancelConnectionApproval _ | .restart _ => false
  | _ => true

/-- The Hub takes the next event. -/
def hubStep (s : Gate) (platform : Platform) (e : Event) : Gate :=
  let hub := Hub.step platform s.hub e
  (hub.decisions.drop s.hub.decisions.length).foldl deliverDecision { s with hub }

def step (platform : Platform) (s : Gate) (e : GateEvent) : Gate :=
  match e.input with
  | .connect username userCode remoteAddress loopback fails =>
    s.connect username userCode remoteAddress loopback fails
  | .ask g =>
    match s.login? g with
    | some l => if l.stage = .asking then s.ask platform e.env g l else s
    | none => s
  | .decide g =>
    match s.login? g with
    | some l =>
      match l.stage, l.decision with
      | .waiting id, some approved => s.modifyLogin g fun l => { l with
          stage := .resolved id, decision := none
          resolution := some (if approved then .approved else .denied) }
      | _, _ => s
    | none => s
  | .timeout g =>
    match s.login? g with
    | some l =>
      match l.stage with
      | .waiting id => s.modifyLogin g fun l => { l with
          stage := .resolved id, resolution := some .expired }
      | _ => s
    | none => s
  | .cancel g =>
    match s.login? g with
    | some l =>
      match l.stage with
      | .resolved id => s.cancel g l id
      | _ => s
    | none => s
  | .persist g =>
    match s.login? g with
    | some l => if l.stage = .admitted then s.persist e.env g l else s
    | none => s
  | .register g =>
    match s.login? g with
    | some l =>
      match l.stage with
      | .persisted account => s.register e.env g account
      | _ => s
    | none => s
  | .drain =>
    match s.cancels with
    | [] => s
    | id :: cancels => { s with cancels, hub := s.hub.cancelConnectionApproval e.env id }
  | .hub input => if isOwn input then s.hubStep platform ⟨input, e.env⟩ else s

end Gate

/-! ### Decisions of the Hub -/

namespace Hub

open GoStrings Registry EventMachine

variable {h k : Hub}

/-- An administrator decides about the approval id. -/
def DecisionFrame (h : Hub) (e : Event) (id : String) (approved : Bool) : Prop :=
  ∃ c obj m, FrameOf h e c obj m ∧ c ∈ h.registry.clients ∧ obj.isAdmin = true ∧
    m.type = .adminAction ∧
    m.content = (if approved then "approve_connection" else "deny_connection") ∧ m.messageID = id

/-- The message says how a request ended. -/
def Announces (id : String) (resolution : Resolution) (m : Message) : Prop :=
  m.type = .connectionApprovalResult ∧ m.messageID = id ∧ m.content = resolution.text

/-- The message neither shows a request nor says how one ended. -/
def Unrelated (m : Message) : Prop :=
  m.type ≠ .connectionApprovalRequest ∧ m.type ≠ .connectionApprovalResult

/-- The Hub decides about a pending entry: the entry goes, the decision is sent to its channel and
its text to the administrators. -/
structure Decides (h : Hub) (e : Event) (k : Hub) (id : String) (approved : Bool) : Prop where
  frame : DecisionFrame h e id approved
  pending : ∃ p, h.approvals.lookup id = some p
  approvals : k.approvals = h.approvals.erase id
  decisions : k.decisions = h.decisions ++ [(id, approved)]
  announced : Emits (fun x => Announces id (if approved then .approved else .denied) x.2)
    h.registry k.registry

/-- Nothing is decided. -/
structure Undecided (h k : Hub) : Prop where
  approvals : k.approvals = h.approvals
  decisions : k.decisions = h.decisions
  silent : Emits (fun x => Unrelated x.2) h.registry k.registry

theorem Undecided.of_touches {parts : List Part} {types : List MessageType}
    (a : Touches parts types h k) (hparts : .approvals ∉ parts)
    (hrequest : .connectionApprovalRequest ∉ types) (hresult : .connectionApprovalResult ∉ types) :
    Undecided h k := by
  obtain ⟨happrovals, -, hdecisions⟩ := a.same .approvals hparts
  refine ⟨happrovals, hdecisions, a.moves.emits.mono fun x hx => ⟨fun ht => ?_, fun ht => ?_⟩⟩
  · exact hrequest (ht ▸ hx)
  · exact hresult (ht ▸ hx)

theorem Undecided.notice {types : List MessageType} (a : Touches [] types h k)
    (htypes : types ⊆ [.system, .error]) : Undecided h k :=
  .of_touches (a.mono (List.Subset.refl _) htypes) (by decide) (by decide) (by decide)

theorem Undecided.refl (h : Hub) : Undecided h h := by
  have htouch : Touches [] [] h h := Touches.refl h
  exact .notice htouch (by decide)

theorem undecided_deliverError (c : ClientID) (content messageID commandID : String) :
    Undecided h (h.deliverError c content messageID commandID) := by
  have htouch : Touches [] [.error] h (h.deliverError c content messageID commandID) :=
    touches_deliverError (by decide) c _ _ _
  exact .notice htouch (by decide)

theorem decides_handleDecision {e : Event} (env : Env) (c : ClientID) (approved : Bool)
    (messageID commandID : String) (hframe : DecisionFrame h e messageID approved) :
    Undecided h (h.handleDecision env c approved messageID commandID) ∨
      Decides h e (h.handleDecision env c approved messageID commandID) messageID approved := by
  unfold handleDecision
  split
  · exact .inl (undecided_deliverError c _ _ _)
  · rename_i p hp
    refine .inr ⟨hframe, ⟨p, hp⟩, rfl, rfl, emits_tellAll fun _ _ => ⟨rfl, rfl, ?_⟩⟩
    cases approved <;> rfl

theorem decides_handleAdminAction {e : Event} {c : ClientID} {obj : Client} {m : Message}
    (hof : FrameOf h e c obj m) (htype : m.type = .adminAction) (env : Env) :
    Undecided h (h.handleAdminAction env c m.content m.targetUserCode m.messageID m.commandID) ∨
      ∃ id approved, Decides h e
        (h.handleAdminAction env c m.content m.targetUserCode m.messageID m.commandID)
        id approved := by
  have houtcome :=
    adminOutcome_handleAdminAction h env c m.content m.targetUserCode m.messageID m.commandID
  generalize h.handleAdminAction env c m.content m.targetUserCode m.messageID m.commandID = k
    at houtcome ⊢
  cases houtcome with
  | unchanged => exact .inl (.refl h)
  | refused content => exact .inl (undecided_deliverError c _ _ _)
  | recalled o =>
    exact .inl (.of_touches (touches_handleRecall env c o m.messageID m.commandID) (by decide)
      (by decide) (by decide))
  | decision o approved hobj hconn hadmin haction =>
    rw [hof.2, Option.some.injEq] at hobj
    subst hobj
    have hmem : c ∈ h.registry.clients := by simpa [isConnected] using hconn
    have hframe : DecisionFrame h e m.messageID approved :=
      ⟨c, obj, m, hof, hmem, hadmin, htype, haction, rfl⟩
    exact (decides_handleDecision env c approved m.messageID m.commandID hframe).imp_right
      fun hd => ⟨_, _, hd⟩
  | kick target o =>
    have htouch : Touches [] [.system] h (h.onRegistry fun r => kick r env c target o) :=
      touches_onRegistry (moves_kick (by decide) env c target o)
    exact .inl (.notice htouch (by decide))
  | mute target o =>
    have htouch : Touches [] [.system] h (h.onRegistry fun r => toggleMute r c target o) :=
      touches_onRegistry (moves_toggleMute (by decide) c target o)
    exact .inl (.notice htouch (by decide))

/-- A frame that is not an administrator's action has no business with the approvals. -/
theorem unrelated_frame {t : MessageType} (ht : t ≠ .adminAction) :
    Part.approvals ∉ frameParts t ∧ .connectionApprovalRequest ∉ .system :: frameTypes t ∧
      .connectionApprovalResult ∉ .system :: frameTypes t := by
  cases t with
  | other name =>
    exact (by decide : Part.approvals ∉ ([] : List Part) ∧
      MessageType.connectionApprovalRequest ∉ [.system, .system, .error] ∧
      MessageType.connectionApprovalResult ∉ [.system, .system, .error])
  | adminAction => exact absurd rfl ht
  | _ => decide

/-- Only an administrator's decision about a pending entry ends a request on the Hub's side, among
the events that no login goroutine stands behind. -/
theorem decision_step (platform : Platform) (hs : Sound h.registry) (e : Event)
    (hown : Gate.isOwn e.input = true) :
    Undecided h (step platform h e) ∨ ∃ id approved, Decides h e (step platform h e) id approved := by
  by_cases hframe : ∃ c m limited muted, e.input = .frame c m limited muted ∧
      m.type = .adminAction
  · obtain ⟨c, m, limited, muted, hin, htype⟩ := hframe
    have hstep : step platform h e = h.readPump platform e.env c m limited muted := by
      simp only [step, hin]
    rw [hstep]
    obtain htouch | ⟨obj, hobj, heq⟩ := readPump_cases (h := h) platform e.env c m limited muted
    · exact .inl (.notice htouch (by decide))
    rw [heq]
    have hof : FrameOf h e c obj m := ⟨⟨limited, muted, hin⟩, hobj⟩
    have hdisp : h.dispatch platform e.env c obj m muted = h.validated c m "" "" fun h =>
        h.handleAdminAction e.env c m.content m.targetUserCode m.messageID m.commandID := by
      unfold dispatch
      rw [htype]
    rw [hdisp]
    obtain htouch | ⟨-, hvalid⟩ := validated_cases (h := h) c m "" "" fun h =>
      h.handleAdminAction e.env c m.content m.targetUserCode m.messageID m.commandID
    · exact .inl (.notice htouch (by decide))
    · rw [hvalid]
      exact decides_handleAdminAction hof htype e.env
  · left
    obtain ⟨input, env⟩ := e
    cases input with
    | frame c m limited muted =>
      have htype : m.type ≠ .adminAction := fun htype => hframe ⟨c, m, limited, muted, rfl, htype⟩
      obtain ⟨hparts, hrequest, hresult⟩ := unrelated_frame htype
      exact .of_touches (touches_readPump platform hs env c m limited muted) hparts hrequest hresult
    | login _ _ => cases hown
    | connectionApproval _ _ _ _ => cases hown
    | cancelConnectionApproval _ => cases hown
    | restart _ => cases hown
    | _ =>
      exact .of_touches (step_touches platform hs _ rfl) (by simp [Input.writes])
        (by simp [Input.sends, loginTypes, replayTypes, historyTypes])
        (by simp [Input.sends, loginTypes, replayTypes, historyTypes])

end Hub

/-! ### What an event does -/

namespace Gate

open GoStrings Hub Registry EventMachine

variable {platform : Platform} {s t : Gate} {e : GateEvent} {g : LoginID} {l : Login}

theorem login?_modifyLogin (s : Gate) (g g' : LoginID) (f : Login → Login) :
    (s.modifyLogin g f).login? g' = if g = g' then (s.login? g').map f else s.login? g' := by
  simp only [login?, modifyLogin, List.getElem?_modify]
  split <;> simp

/-- The message is about no request, or shows one as it is pending. -/
def Shows (approvals : AList fun _ : String => PendingApproval) (m : Message) : Prop :=
  m.type ≠ .connectionApprovalResult ∧ (m.type = .connectionApprovalRequest →
    ∃ p, approvals.lookup m.messageID = some p ∧ m.username = p.username ∧ m.userCode = p.userCode)

/-- The requests stay as they are. -/
structure Quiet (s t : Gate) : Prop where
  approvals : t.hub.approvals = s.hub.approvals
  owners : t.owners = s.owners
  sent : Emits (fun x => Shows s.hub.approvals x.2) s.hub.registry t.hub.registry

theorem Quiet.refl (s : Gate) : Quiet s s := ⟨rfl, rfl, Emits.refl _⟩

/-- The login `g` is `l` now, and the others are as they were. -/
def Sets (s t : Gate) (g : LoginID) (l : Login) : Prop :=
  ∀ g', t.login? g' = if g = g' then some l else s.login? g'

theorem Sets.cases (hset : Sets s t g l) {g' : LoginID} {l' : Login}
    (hl' : t.login? g' = some l') : (g = g' ∧ l = l') ∨ (g ≠ g' ∧ s.login? g' = some l') := by
  rw [hset g'] at hl'
  split at hl'
  · rename_i heq
    exact .inl ⟨heq, Option.some.inj hl'⟩
  · rename_i hne
    exact .inr ⟨hne, hl'⟩

theorem sets_modifyLogin {f : Login → Login} (hl : s.login? g = some l)
    (hlogins : s.logins = t.logins) : Sets s (t.modifyLogin g f) g (f l) := by
  intro g'
  have hsame : t.login? g' = s.login? g' := by rw [login?, login?, hlogins]
  rw [login?_modifyLogin, hsame]
  split
  · rename_i heq
    rw [← heq, hl, Option.map_some]
  · rfl

/-- The connection `g` is accepted as the first administrator's. -/
def Boots (s : Gate) (e : GateEvent) (g : LoginID) : Prop :=
  ∃ username userCode remoteAddress loopback fails,
    e.input = .connect username userCode remoteAddress loopback fails ∧
      bootstrapAdmin s.hub userCode loopback = true ∧ g = s.logins.length

/-- The Hub makes the approval id for the request of `g`. -/
def AskEvent (s : Gate) (e : GateEvent) (g : LoginID) (id : String) : Prop :=
  e.input = .ask g ∧ ∃ l, s.login? g = some l ∧ l.stage = .asking ∧
    createdID s.hub l.account = id ∧ id ≠ ""

/-- The accounts differ in case only. -/
def SameIdentity (a b : Account) : Prop :=
  toLower a.username = toLower b.username ∧ asciiLower a.userCode = asciiLower b.userCode

/-- The decision is put into the channel when there is room. -/
def Login.put (approved : Bool) (l : Login) : Login :=
  if l.decision.isNone then { l with decision := some approved } else l

/-- A request is pending from then on, under its id and with the channel of its login. -/
structure Asks (s : Gate) (e : GateEvent) (t : Gate) (g : LoginID) (l : Login) (id : String)
    (p : PendingApproval) : Prop where
  event : AskEvent s e g id
  login : s.login? g = some l
  stage : l.stage = .asking
  shown : p.username = l.account.username ∧ p.userCode = l.account.userCode
  approvals : t.hub.approvals = s.hub.approvals.insert id p
  owners : t.owners = s.owners.insert id g
  cancels : t.cancels = s.cancels
  sent : Emits (fun x => x.2 = pendingApprovalMessage id p) s.hub.registry t.hub.registry
  logins : Sets s t g { l with stage := .waiting id }

/-- A request ends on the Hub's side, and the administrators are told how when it was pending. -/
structure Ends (s t : Gate) (id : String) (resolution : Resolution) : Prop where
  approvals : t.hub.approvals = s.hub.approvals.erase id
  owners : t.owners = s.owners
  sent : Emits (fun x => (s.hub.approvals.lookup id).isSome = true ∧ Announces id resolution x.2)
    s.hub.registry t.hub.registry

/-- What an event other than a request can do to the logins and their requests. -/
inductive Effect (s : Gate) (e : GateEvent) (t : Gate) : Prop
  | idle (quiet : Quiet s t) (cancels : t.cancels = s.cancels)
      (logins : ∀ g, t.login? g = s.login? g)
  | connect (g : LoginID) (l : Login) (quiet : Quiet s t) (cancels : t.cancels = s.cancels)
      (new : s.login? g = none) (channel : l.decision = none ∧ l.resolution = none)
      (stage : l.stage = .asking ∨ (∃ content, l.stage = .refused content) ∨
        (l.stage = .admitted ∧ Boots s e g))
      (logins : Sets s t g l)
  | refuse (g : LoginID) (l : Login) (content : String) (quiet : Quiet s t)
      (cancels : t.cancels = s.cancels) (login : s.login? g = some l)
      (stage : (∀ id, l.stage ≠ .waiting id) ∧ ∀ id, l.stage ≠ .resolved id)
      (logins : Sets s t g { l with stage := .refused content })
  | decide (g : LoginID) (l : Login) (id : String) (approved : Bool) (quiet : Quiet s t)
      (cancels : t.cancels = s.cancels) (login : s.login? g = some l)
      (stage : l.stage = .waiting id) (decision : l.decision = some approved)
      (logins : Sets s t g { l with
        stage := .resolved id, decision := none
        resolution := some (if approved then .approved else .denied) })
  | expire (g : LoginID) (l : Login) (id : String) (input : e.input = .timeout g)
      (quiet : Quiet s t) (cancels : t.cancels = s.cancels) (login : s.login? g = some l)
      (stage : l.stage = .waiting id)
      (logins : Sets s t g { l with stage := .resolved id, resolution := some .expired })
  | cancel (g : LoginID) (l : Login) (id : String) (input : e.input = .cancel g)
      (quiet : Quiet s t) (login : s.login? g = some l) (stage : l.stage = .resolved id)
      (cancels : t.cancels =
        if s.cancels.length < cancelQueueSize then s.cancels ++ [id] else s.cancels)
      (logins : Sets s t g { l with
        stage := match l.resolution with
          | some .approved => .admitted
          | some resolution => .refused (refusalText resolution)
          | none => .refused (refusalText .expired) })
  | persist (g : LoginID) (l : Login) (account : Account) (quiet : Quiet s t)
      (cancels : t.cancels = s.cancels) (login : s.login? g = some l) (stage : l.stage = .admitted)
      (same : SameIdentity account l.account) (valid : validateUserCode account.userCode = .ok ())
      (logins : Sets s t g { l with stage := .persisted account })
  | register (g : LoginID) (l : Login) (account : Account) (quiet : Quiet s t)
      (cancels : t.cancels = s.cancels) (login : s.login? g = some l)
      (stage : l.stage = .persisted account)
      (logins : Sets s t g { l with stage := .registered account })
  | resolve (i : Input) (id : String) (approved : Bool) (p : PendingApproval)
      (input : e.input = .hub i) (frame : DecisionFrame s.hub ⟨i, e.env⟩ id approved)
      (pending : s.hub.approvals.lookup id = some p)
      (ends : Ends s t id (if approved then .approved else .denied))
      (cancels : t.cancels = s.cancels)
      (logins : ∀ g, t.login? g =
        if s.owners.lookup id = some g then (s.login? g).map (Login.put approved) else s.login? g)
  | drain (id : String) (waiting : s.cancels = id :: t.cancels) (ends : Ends s t id .expired)
      (logins : ∀ g, t.login? g = s.login? g)

/-- The registry is sound and a persisted account has a valid code. -/
structure Valid (s : Gate) : Prop where
  sound : Sound s.hub.registry
  code : ∀ g l account, s.login? g = some l → l.stage = .persisted account →
    validateUserCode account.userCode = .ok ()

theorem shows_system (approvals : AList fun _ : String => PendingApproval) {r r' : Registry}
    (hmoves : Moves True [.system] r r') : Emits (fun x => Shows approvals x.2) r r' := by
  refine hmoves.emits.mono fun x hx => ?_
  have htype : x.2.type = .system := by simpa using hx
  simp [Shows, htype]

theorem shows_tellApprovals (r : Registry) (env : Env)
    (approvals : AList fun _ : String => PendingApproval) (c : ClientID) :
    Emits (fun x => Shows approvals x.2) r (tellApprovals r env approvals c) := by
  refine emits_foldl (fun r id _ => ?_) r
  cases hp : approvals.lookup id with
  | none => exact Emits.refl r
  | some p => exact emits_tell ⟨by simp [pendingApprovalMessage], fun _ => ⟨p, hp, rfl, rfl⟩⟩

theorem shows_completeRegistration (h : Hub) (env : Env) (obj : Client) :
    Emits (fun x => Shows h.approvals x.2) h.registry (h.completeRegistration env obj).registry := by
  have hannounce : ∀ o : Client, Emits (fun x => Shows h.approvals x.2) h.registry
      ((enroll h.registry o).broadcastSystemMessageToRoom env o.room
        (presenceMessage o "joined the chat")) := by
    intro o
    have henroll : Emits (fun x => Shows h.approvals x.2) h.registry (enroll h.registry o) :=
      Emits.of_eq rfl
    exact henroll.trans (shows_system h.approvals
      (moves_broadcastSystemMessageToRoom (by decide) env _ _))
  unfold completeRegistration
  dsimp only [onRegistry]
  split
  · exact (hannounce _).trans (shows_tellApprovals _ env h.approvals _)
  · exact hannounce _

theorem approvals_ensureLobby (h : Hub) : h.ensureLobby.approvals = h.approvals := by
  unfold ensureLobby
  split <;> rfl

/-- A registration shows the pending requests to a new administrator. -/
theorem shows_handleRegisterRequest (h : Hub) (env : Env) (obj : Client) :
    Emits (fun x => Shows h.approvals x.2) h.registry
      (h.handleRegisterRequest env obj).2.registry := by
  have hcomplete := shows_completeRegistration h.ensureLobby env obj
  rw [approvals_ensureLobby, registry_ensureLobby] at hcomplete
  unfold handleRegisterRequest
  split
  · exact Emits.refl _
  dsimp only
  split
  · rename_i active _
    split
    · obtain ⟨k, hk⟩ : ∃ k, h.ensureLobby.onRegistry (fun r => r.unregisterClient env active) = k :=
        ⟨_, rfl⟩
      have happrovals : k.approvals = h.approvals := by
        rw [← hk]
        exact approvals_ensureLobby h
      have hregistry : k.registry = h.registry.unregisterClient env active := by
        rw [← hk, ← registry_ensureLobby (h := h)]
        rfl
      have hjoined := shows_completeRegistration k env obj
      rw [happrovals, hregistry] at hjoined
      rw [hk]
      exact (shows_system h.approvals (moves_unregisterClient (by decide) env active)).trans hjoined
    · exact Emits.of_eq (congrArg Registry.sent registry_ensureLobby)
  · split
    · exact Emits.of_eq (congrArg Registry.sent registry_ensureLobby)
    · exact hcomplete

theorem shows_unrelated {approvals : AList fun _ : String => PendingApproval} {r r' : Registry}
    (hsent : Emits (fun x => Unrelated x.2) r r') : Emits (fun x => Shows approvals x.2) r r' :=
  hsent.mono fun _ hx => ⟨hx.2, fun ht => absurd ht hx.1⟩

theorem effect_connect {username userCode remoteAddress : String} {loopback fails : Bool}
    (hin : e.input = .connect username userCode remoteAddress loopback fails) :
    Effect s e (s.connect username userCode remoteAddress loopback fails) := by
  have hnew : ∀ l : Login, ((l.decision = none ∧ l.resolution = none) ∧
      (l.stage = .asking ∨ (∃ content, l.stage = .refused content) ∨
        (l.stage = .admitted ∧ Boots s e s.logins.length))) →
      Effect s e { s with logins := s.logins ++ [l] } := by
    rintro l ⟨hchannel, hstage⟩
    refine .connect s.logins.length l ⟨rfl, rfl, Emits.refl _⟩ rfl ?_ hchannel hstage fun g' => ?_
    · simp [login?]
    · simp only [login?, List.getElem?_append, List.getElem?_singleton]
      grind
  unfold connect
  refine hnew _ ?_
  dsimp only
  split
  · exact ⟨⟨rfl, rfl⟩, .inr (.inl ⟨_, rfl⟩)⟩
  split
  · exact ⟨⟨rfl, rfl⟩, .inr (.inl ⟨_, rfl⟩)⟩
  split
  · exact ⟨⟨rfl, rfl⟩, .inr (.inl ⟨_, rfl⟩)⟩
  split
  · rename_i hadmin
    exact ⟨⟨rfl, rfl⟩, .inr (.inr ⟨rfl, _, _, _, _, _, hin, hadmin, rfl⟩)⟩
  · exact ⟨⟨rfl, rfl⟩, .inl rfl⟩

/-- The Hub gives no id to an identity without a code, and keeps no request of it. -/
theorem effect_ask_refused (hl : s.login? g = some l) (hstage : l.stage = .asking)
    (hid : createdID s.hub l.account = "") : Effect s e (s.ask platform e.env g l) := by
  have hhub : s.hub.handleConnectionApproval platform e.env l.account.username l.account.userCode
      (asciiLower l.account.userCode) l.remoteAddress = s.hub := by
    unfold createdID at hid
    unfold handleConnectionApproval
    split at hid
    · rename_i hempty
      rw [if_pos hempty]
    · simp at hid
  unfold ask
  dsimp only
  rw [if_pos hid, hhub]
  exact .refuse g l _ ⟨rfl, rfl, Emits.refl _⟩ rfl hl (by simp [hstage]) (sets_modifyLogin hl rfl)

theorem asks_ask (platform : Platform) {id : String} (hask : AskEvent s e g id) :
    ∃ l p, Asks s e (step platform s e) g l id p := by
  obtain ⟨hin, l, hl, hstage, hcreated, hid⟩ := hask
  have hstep : step platform s e = s.ask platform e.env g l := by
    simp only [step, hin, hl, hstage, if_true]
  have hfull : ¬ (l.account.username = "" ∨ l.account.userCode = "" ∨
      asciiLower l.account.userCode = "") := by
    intro hempty
    rw [createdID, if_pos hempty] at hcreated
    exact hid hcreated.symm
  have hnumber : "connection-" ++ formatUint (s.hub.nextApprovalID + 1) = id := by
    rw [← hcreated, createdID, if_neg hfull]
  refine ⟨l, ⟨l.account.username, l.account.userCode, asciiLower l.account.userCode,
    l.remoteAddress, platform.rfc3339 e.env.now⟩, ⟨hin, l, hl, hstage, hcreated, hid⟩, hl, hstage,
    ⟨rfl, rfl⟩, ?_, ?_, ?_, ?_, ?_⟩
  all_goals rw [hstep]; unfold ask; dsimp only; rw [hcreated, if_neg hid]
  · simp only [modifyLogin, handleConnectionApproval, if_neg hfull, hnumber]
  · rfl
  · rfl
  · simp only [modifyLogin, handleConnectionApproval, if_neg hfull, hnumber]
    exact emits_tellAll fun _ _ => rfl
  · exact sets_modifyLogin hl rfl

theorem effect_cancel {id : String} (hin : e.input = .cancel g) (hl : s.login? g = some l)
    (hstage : l.stage = .resolved id) : Effect s e (s.cancel g l id) :=
  .cancel g l id hin ⟨rfl, rfl, Emits.refl _⟩ hl hstage rfl (sets_modifyLogin hl rfl)

/-- What `EnsureIdentity` returns is the identity that was claimed, but for case. -/
theorem sameIdentity_of_ensureIdentity {chat chat' : ChatStore} {account claimed : Account}
    (hident : chat.ensureIdentity claimed.username claimed.userCode = .ok (account, chat')) :
    SameIdentity account claimed ∧ validateUserCode account.userCode = .ok () := by
  have hcode := asciiLower_of_ensureIdentity hident
  unfold ChatStore.ensureIdentity at hident
  obtain ⟨_, hvalid, hident⟩ := bind_eq_ok.1 hident
  refine ⟨⟨?_, hcode⟩, validateUserCode_of_asciiLower_eq hcode (validateUserCode_of_login hvalid)⟩
  split at hident
  · obtain ⟨_, hmatch, hident⟩ := bind_eq_ok.1 hident
    rw [require_eq_ok] at hmatch
    cases hident
    simp only [Account.matches, Bool.and_eq_true, beq_iff_eq] at hmatch
    exact hmatch.1
  · split at hident
    · cases hident
      rfl
    · cases hident

theorem effect_persist (hl : s.login? g = some l) (hstage : l.stage = .admitted) :
    Effect s e (s.persist e.env g l) := by
  unfold persist
  split
  · exact .refuse g l _ ⟨rfl, rfl, Emits.refl _⟩ rfl hl (by simp [hstage]) (sets_modifyLogin hl rfl)
  · rename_i account chat hcall
    obtain ⟨hsame, hvalid⟩ := sameIdentity_of_ensureIdentity (call_eq_ok.1 hcall).2
    exact .persist g l account ⟨rfl, rfl, Emits.refl _⟩ rfl hl hstage hsame hvalid
      (sets_modifyLogin hl rfl)

theorem touches_register (hs : Sound s.hub.registry) (env : Env) {account : Account}
    (hvalid : validateUserCode account.userCode = .ok ()) :
    Touches [.definitions, .places] adminTypes s.hub (s.register env g account).hub := by
  have hnorm : normalizedOrEmpty account.userCode = asciiLower account.userCode := by
    rw [normalizedOrEmpty, normalizeUserCode_eq_ok.2 ⟨hvalid, rfl⟩]
  have hclient := validClient_newClient account.username true hvalid
  rw [← hnorm] at hclient
  exact touches_handleRegisterRequest hs env hclient ⟨rfl, rfl⟩

theorem effect_register {account : Account} (hv : Sound s.hub.registry)
    (hcode : validateUserCode account.userCode = .ok ()) (hl : s.login? g = some l)
    (hstage : l.stage = .persisted account) : Effect s e (s.register e.env g account) := by
  have hquiet : Quiet s (s.register e.env g account) :=
    ⟨((touches_register hv e.env hcode).same .approvals (by decide)).1, rfl,
      shows_handleRegisterRequest _ _ _⟩
  obtain ⟨stage, hset, hcases⟩ : ∃ stage, Sets s (s.register e.env g account) g { l with stage } ∧
      (stage = .registered account ∨ ∃ content, stage = .refused content) := by
    refine ⟨_, sets_modifyLogin hl rfl, ?_⟩
    split
    · exact .inl rfl
    · exact .inr ⟨_, rfl⟩
    · exact .inr ⟨_, rfl⟩
  obtain rfl | ⟨content, rfl⟩ := hcases
  · exact .register g l account hquiet rfl hl hstage hset
  · exact .refuse g l content hquiet rfl hl (by simp [hstage]) hset

theorem effect_hubStep (hv : Sound s.hub.registry) {input : Input} (hin : e.input = .hub input)
    (hown : isOwn input = true) : Effect s e (s.hubStep platform ⟨input, e.env⟩) := by
  obtain hun | ⟨id, approved, hdec⟩ := decision_step platform hv ⟨input, e.env⟩ hown
  · have hnone : (Hub.step platform s.hub ⟨input, e.env⟩).decisions.drop s.hub.decisions.length =
        [] := by
      rw [hun.decisions, List.drop_length]
    unfold hubStep
    dsimp only
    rw [hnone]
    exact .idle ⟨hun.approvals, rfl, shows_unrelated hun.silent⟩ rfl fun _ => rfl
  · have hone : (Hub.step platform s.hub ⟨input, e.env⟩).decisions.drop s.hub.decisions.length =
        [(id, approved)] := by
      rw [hdec.decisions, List.drop_left]
    obtain ⟨p, hp⟩ := hdec.pending
    have hsent := hdec.announced.mono (Q := fun x => (s.hub.approvals.lookup id).isSome = true ∧
      Announces id (if approved then .approved else .denied) x.2)
        fun _ hx => ⟨by rw [hp]; rfl, hx⟩
    unfold hubStep
    dsimp only
    rw [hone, List.foldl_cons, List.foldl_nil]
    unfold deliverDecision
    dsimp only
    split
    · rename_i howner
      refine .resolve input id approved p hin hdec.frame hp ⟨hdec.approvals, rfl, hsent⟩ rfl
        fun g' => ?_
      rw [if_neg (by rw [howner]; simp)]
      rfl
    · rename_i g howner
      refine .resolve input id approved p hin hdec.frame hp ⟨hdec.approvals, rfl, hsent⟩ rfl
        fun g' => ?_
      rw [login?_modifyLogin]
      simp only [howner, Option.some.injEq]
      rfl

theorem effect_drain {id : String} {cancels : List String} (hc : s.cancels = id :: cancels) :
    Effect s e { s with cancels, hub := s.hub.cancelConnectionApproval e.env id } := by
  refine .drain id hc ⟨?_, rfl, ?_⟩ fun _ => rfl
  · unfold cancelConnectionApproval
    split
    · rename_i hnone
      exact AList.ext (List.kerase_of_notMem_keys (AList.lookup_eq_none.1 hnone)).symm
    · rfl
  · unfold cancelConnectionApproval
    split
    · exact Emits.refl _
    · rename_i p hp
      exact emits_tellAll fun _ _ => ⟨by rw [hp]; rfl, rfl, rfl, rfl⟩

/-- Every event makes a request or has one of the other effects. -/
theorem effect_step (platform : Platform) (hv : Valid s) (e : GateEvent) :
    (∃ g l id p, Asks s e (step platform s e) g l id p) ∨
      ((∀ g id, ¬ AskEvent s e g id) ∧ Effect s e (step platform s e)) := by
  by_cases hask : ∃ g id, AskEvent s e g id
  · obtain ⟨g, id, hask⟩ := hask
    obtain ⟨l, p, hp⟩ := asks_ask platform hask
    exact .inl ⟨g, l, id, p, hp⟩
  refine .inr ⟨fun g id hevent => hask ⟨g, id, hevent⟩, ?_⟩
  -- an event for a login that is at another stage changes nothing
  have hidle : Effect s e s := .idle (.refl s) rfl fun _ => rfl
  cases hin : e.input with
  | connect username userCode remoteAddress loopback fails =>
    simp only [step, hin]
    exact effect_connect hin
  | ask g =>
    simp only [step, hin]
    split
    · rename_i l hl
      split
      · rename_i hstage
        refine effect_ask_refused hl hstage ?_
        by_contra hid
        exact hask ⟨g, _, hin, l, hl, hstage, rfl, hid⟩
      · exact hidle
    · exact hidle
  | decide g =>
    simp only [step, hin]
    split
    · rename_i l hl
      split
      · rename_i id approved hstage hdecision
        exact .decide g l id approved ⟨rfl, rfl, Emits.refl _⟩ rfl hl hstage hdecision
          (sets_modifyLogin hl rfl)
      · exact hidle
    · exact hidle
  | timeout g =>
    simp only [step, hin]
    split
    · rename_i l hl
      split
      · rename_i id hstage
        exact .expire g l id hin ⟨rfl, rfl, Emits.refl _⟩ rfl hl hstage (sets_modifyLogin hl rfl)
      · exact hidle
    · exact hidle
  | cancel g =>
    simp only [step, hin]
    split
    · rename_i l hl
      split
      · rename_i id hstage
        exact effect_cancel hin hl hstage
      · exact hidle
    · exact hidle
  | persist g =>
    simp only [step, hin]
    split
    · split
      · exact effect_persist ‹_› ‹_›
      · exact hidle
    · exact hidle
  | register g =>
    simp only [step, hin]
    split
    · rename_i l hl
      split
      · rename_i account hstage
        exact effect_register hv.sound (hv.code g l account hl hstage) hl hstage
      · exact hidle
    · exact hidle
  | drain =>
    simp only [step, hin]
    split
    · exact hidle
    · rename_i id cancels hc
      exact effect_drain hc
  | hub input =>
    simp only [step, hin]
    split
    · exact effect_hubStep hv.sound hin ‹_›
    · exact hidle

/-! ### What every event keeps -/

/-- Logins stay, with their accounts, and none goes back to asking. -/
def Keeps (s t : Gate) : Prop :=
  ∀ g l, s.login? g = some l → ∃ l', t.login? g = some l' ∧ l'.account = l.account ∧
    (l'.stage = .asking → l.stage = .asking)

theorem keeps_of_same (hlogins : ∀ g, t.login? g = s.login? g) : Keeps s t :=
  fun g l hl => ⟨l, (hlogins g).trans hl, rfl, id⟩

theorem Sets.keeps {l' : Login} (hset : Sets s t g l') (hold : ∀ l, s.login? g = some l →
    l'.account = l.account ∧ (l'.stage = .asking → l.stage = .asking)) : Keeps s t := by
  intro g' l hl
  by_cases heq : g = g'
  · subst heq
    exact ⟨l', by rw [hset, if_pos rfl], hold l hl⟩
  · exact ⟨l, by rw [hset, if_neg heq, hl], rfl, id⟩

theorem Sets.keeps_of_login {l' : Login} (hset : Sets s t g l') (hl : s.login? g = some l)
    (haccount : l'.account = l.account) (hstage : l'.stage ≠ .asking) : Keeps s t := by
  refine hset.keeps fun l₀ hl₀ => ?_
  rw [hl, Option.some.injEq] at hl₀
  rw [← hl₀]
  exact ⟨haccount, fun h => absurd h hstage⟩

@[simp] theorem account_put (approved : Bool) (l : Login) :
    (Login.put approved l).account = l.account := by
  unfold Login.put
  split <;> rfl

@[simp] theorem stage_put (approved : Bool) (l : Login) :
    (Login.put approved l).stage = l.stage := by
  unfold Login.put
  split <;> rfl

@[simp] theorem resolution_put (approved : Bool) (l : Login) :
    (Login.put approved l).resolution = l.resolution := by
  unfold Login.put
  split <;> rfl

theorem decision_put (approved : Bool) (l : Login) (hnone : l.decision = none) :
    (Login.put approved l).decision = some approved := by
  rw [Login.put, hnone]
  rfl

theorem Asks.keeps {id : String} {p : PendingApproval} (hasks : Asks s e t g l id p) :
    Keeps s t := hasks.logins.keeps_of_login hasks.login rfl (by simp)

theorem Effect.keeps (he : Effect s e t) : Keeps s t := by
  cases he with
  | idle quiet cancels logins => exact keeps_of_same logins
  | connect g l quiet cancels new channel stage logins =>
    exact logins.keeps fun l₀ hl₀ => by rw [new] at hl₀; cases hl₀
  | refuse g l content quiet cancels login stage logins =>
    exact logins.keeps_of_login login rfl (by simp)
  | decide g l id approved quiet cancels login stage decision logins =>
    exact logins.keeps_of_login login rfl (by simp)
  | expire g l id input quiet cancels login stage logins =>
    exact logins.keeps_of_login login rfl (by simp)
  | cancel g l id input quiet login stage cancels logins =>
    refine logins.keeps_of_login login rfl ?_
    dsimp only
    split <;> simp
  | persist g l account quiet cancels login stage same valid logins =>
    exact logins.keeps_of_login login rfl (by simp)
  | register g l account quiet cancels login stage logins =>
    exact logins.keeps_of_login login rfl (by simp)
  | resolve i id approved p input frame pending ends cancels logins =>
    intro g l hl
    rw [logins g, hl]
    split
    · exact ⟨_, rfl, account_put approved l, fun h => by rwa [stage_put] at h⟩
    · exact ⟨l, rfl, rfl, fun h => h⟩
  | drain id waiting ends logins => exact keeps_of_same logins

/-- The requests stay as they are, or one of them ends. -/
theorem Effect.quiet_or_ends (he : Effect s e t) :
    Quiet s t ∨ ∃ id resolution, Ends s t id resolution := by
  cases he with
  | idle quiet cancels logins => exact .inl quiet
  | connect g l quiet cancels new channel stage logins => exact .inl quiet
  | refuse g l content quiet cancels login stage logins => exact .inl quiet
  | decide g l id approved quiet cancels login stage decision logins => exact .inl quiet
  | expire g l id input quiet cancels login stage logins => exact .inl quiet
  | cancel g l id input quiet login stage cancels logins => exact .inl quiet
  | persist g l account quiet cancels login stage same valid logins => exact .inl quiet
  | register g l account quiet cancels login stage logins => exact .inl quiet
  | resolve i id approved p input frame pending ends cancels logins => exact .inr ⟨id, _, ends⟩
  | drain id waiting ends logins => exact .inr ⟨id, _, ends⟩

theorem Effect.owners_eq (he : Effect s e t) : t.owners = s.owners := by
  obtain hquiet | ⟨id, resolution, hends⟩ := he.quiet_or_ends
  · exact hquiet.owners
  · exact hends.owners

/-- Only a request makes an entry. -/
theorem Effect.lookup_approvals (he : Effect s e t) {id : String} {p : PendingApproval}
    (hp : t.hub.approvals.lookup id = some p) : s.hub.approvals.lookup id = some p := by
  obtain hquiet | ⟨id', resolution, hends⟩ := he.quiet_or_ends
  · rwa [hquiet.approvals] at hp
  · rw [hends.approvals] at hp
    by_cases heq : id = id'
    · rw [heq, AList.lookup_erase] at hp
      cases hp
    · rwa [AList.lookup_erase_ne heq] at hp

/-! ### Valid states -/

/-- The delivery of decisions is not seen by the Hub. -/
theorem hub_deliverDecisions (decisions : List (String × Bool)) (s : Gate) :
    (decisions.foldl deliverDecision s).hub = s.hub := by
  induction decisions generalizing s with
  | nil => rfl
  | cons decision decisions ih =>
    rw [List.foldl_cons, ih]
    unfold deliverDecision
    split <;> rfl

theorem sound_step (hv : Valid s) (e : GateEvent) :
    Sound (step platform s e).hub.registry := by
  cases hin : e.input with
  | connect username userCode remoteAddress loopback fails =>
    simp only [step, hin]
    exact hv.sound
  | ask g =>
    simp only [step, hin]
    split
    · split
      · unfold ask
        dsimp only
        split
        all_goals exact (touches_handleConnectionApproval _ _ _ _ _ _).moves.sound hv.sound
      · exact hv.sound
    · exact hv.sound
  | decide g =>
    simp only [step, hin]
    split
    · split <;> exact hv.sound
    · exact hv.sound
  | timeout g =>
    simp only [step, hin]
    split
    · split <;> exact hv.sound
    · exact hv.sound
  | cancel g =>
    simp only [step, hin]
    split
    · split <;> exact hv.sound
    · exact hv.sound
  | persist g =>
    simp only [step, hin]
    split
    · split
      · unfold persist
        split <;> exact hv.sound
      · exact hv.sound
    · exact hv.sound
  | register g =>
    simp only [step, hin]
    split
    · rename_i l hl
      split
      · rename_i account hstage
        exact (touches_register hv.sound e.env (hv.code g l account hl hstage)).moves.sound hv.sound
      · exact hv.sound
    · exact hv.sound
  | drain =>
    simp only [step, hin]
    split
    · exact hv.sound
    · exact (touches_cancelConnectionApproval _ _).moves.sound hv.sound
  | hub input =>
    simp only [step, hin]
    split
    · unfold hubStep
      dsimp only
      rw [hub_deliverDecisions]
      exact Hub.sound_step platform s.hub _ hv.sound
    · exact hv.sound

theorem valid_step (hv : Valid s) (e : GateEvent) : Valid (step platform s e) where
  sound := sound_step hv e
  code := by
    intro g' l' account hl' hstage'
    have hother : ∀ {g : LoginID} {l : Login}, Sets s (step platform s e) g l →
        (l.stage = .persisted account → validateUserCode account.userCode = .ok ()) →
        validateUserCode account.userCode = .ok () := by
      intro g l hset hnew
      obtain ⟨-, rfl⟩ | ⟨-, hold⟩ := hset.cases hl'
      · exact hnew hstage'
      · exact hv.code g' l' account hold hstage'
    obtain ⟨g, l, id, p, hasks⟩ | ⟨-, heffect⟩ := effect_step platform hv e
    · exact hother hasks.logins (by simp)
    cases heffect with
    | idle quiet cancels logins => exact hv.code g' l' account ((logins g').symm.trans hl') hstage'
    | connect g l quiet cancels new channel stage logins =>
      refine hother logins fun hpersisted => ?_
      simp [hpersisted] at stage
    | refuse g l content quiet cancels login stage logins => exact hother logins (by simp)
    | decide g l id approved quiet cancels login stage decision logins =>
      exact hother logins (by simp)
    | expire g l id input quiet cancels login stage logins => exact hother logins (by simp)
    | cancel g l id input quiet login stage cancels logins =>
      refine hother logins fun hpersisted => ?_
      dsimp only at hpersisted
      split at hpersisted <;> cases hpersisted
    | persist g l account' quiet cancels login stage same valid logins =>
      refine hother logins fun hpersisted => ?_
      cases hpersisted
      exact valid
    | register g l account' quiet cancels login stage logins => exact hother logins (by simp)
    | resolve i id approved p input frame pending ends cancels logins =>
      rw [logins g'] at hl'
      split at hl'
      · obtain ⟨l, hl, rfl⟩ := Option.map_eq_some_iff.1 hl'
        exact hv.code g' l account hl ((stage_put approved l).symm.trans hstage')
      · exact hv.code g' l' account hl' hstage'
    | drain id waiting ends logins =>
      exact hv.code g' l' account ((logins g').symm.trans hl') hstage'

/-- The gate when the server starts on a database. -/
def start (db : Database) (adminCode : String) : Gate where
  hub := Hub.boot Registry.empty db adminCode true
  logins := []
  owners := ∅
  cancels := []

theorem valid_start (db : Database) (adminCode : String) : Valid (start db adminCode) where
  sound := Sound.of_empty (by simp [start, Hub.boot, Registry.empty]) rfl rfl rfl (Nat.le_refl _)
  code := by simp [start, login?]

/-! ### Runs -/

/-- A run of the gate from the start of the server on a database. -/
structure Run where
  platform : Platform
  db : Database
  adminCode : String
  events : List GateEvent

namespace Run

variable {r : Run} {n : ℕ}

/-- The gate before event number `n`. -/
def gate (r : Run) (n : ℕ) : Gate :=
  EventMachine.run (Gate.step r.platform) (start r.db r.adminCode) (r.events.take n)

theorem gate_succ (hn : n < r.events.length) :
    r.gate (n + 1) = Gate.step r.platform (r.gate n) r.events[n] := by
  rw [gate, List.take_succ_eq_append_getElem hn, EventMachine.run_concat, gate]

theorem valid_gate (n : ℕ) : Valid (r.gate n) :=
  EventMachine.run_invariant (Gate.step r.platform) (I := Valid) (fun _ e hv => valid_step hv e)
    (valid_start r.db r.adminCode) _

/-- What the event at the position does. -/
def At (r : Run) (n : ℕ) (P : Gate → GateEvent → Prop) : Prop :=
  ∃ hn : n < r.events.length, P (r.gate n) r.events[n]

/-- The event at the position makes a request or has one of the other effects. -/
theorem effect_at (hn : n < r.events.length) :
    (∃ g l id p, Asks (r.gate n) r.events[n] (r.gate (n + 1)) g l id p) ∨
      ((∀ g id, ¬ r.At n (AskEvent · · g id)) ∧
        Effect (r.gate n) r.events[n] (r.gate (n + 1))) := by
  rw [gate_succ hn]
  obtain hasks | ⟨hno, heffect⟩ := effect_step r.platform (valid_gate n) r.events[n]
  · exact .inl hasks
  · exact .inr ⟨fun g id hat => hno g id hat.2, heffect⟩

end Run

end Gate

end LanChat
