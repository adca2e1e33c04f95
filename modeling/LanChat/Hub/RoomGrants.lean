import LanChat.Hub.Occupancy
import LanChat.Hub.Places

/-!
# Who may enter a channel, read off the log of a run

* `RoomChange`: the entries of the log, and `RoomChange.apply`, what each of them does to the room
  definitions;
* `roomChange h e`: the entry that an event makes, with every check of `readPump`,
  `handleRoomCreate` and `handleRoomAction`;
* `roomDefinitions_step`: an event changes the definitions as its entry says, and not at all when
  it makes none;
* `Trace.allowed_iff`, `Trace.belongs_iff`: the `Allowed` set, the owner and the privacy of a channel
  are what the log grants and has not taken back since;
* `Trace.change_authorized`: entries are made by connected clients that own the channel or are
  administrators;
* `Trace.chat_reaches`, `Trace.rooms_response_exact`: who is sent a chat of a channel, and whose list
  of channels names it, is let in by the log.
-/

namespace LanChat

namespace Hub

open GoStrings Registry EventMachine

/-! ### The log -/

/-- An entry: what an event does to the room definitions. -/
inductive RoomChange
  | created (room owner : String) (isPrivate : Bool)
  | invited (room code : String)
  | removed (room code : String)
  | deleted (room : String)
  | restarted
  deriving DecidableEq, Repr

namespace RoomChange

variable {rooms : AList fun _ : String => RoomDefinition} {room code : String}

/-- The definitions after an entry. -/
def apply (rooms : AList fun _ : String => RoomDefinition) :
    RoomChange → AList fun _ : String => RoomDefinition
  | .created room owner isPrivate =>
    rooms.insert room { ownerCode := owner, isPrivate, allowed := [owner] }
  | .invited room code =>
    match rooms.lookup room with
    | none => rooms
    | some definition =>
      rooms.insert room { definition with allowed := definition.allowed.insert code }
  | .removed room code =>
    match rooms.lookup room with
    | none => rooms
    | some definition =>
      rooms.insert room { definition with allowed := definition.allowed.filter (· ≠ code) }
  | .deleted room => rooms.erase room
  | .restarted => initialRooms

/-- The entry names a new channel, or one that is defined. -/
def Applies (rooms : AList fun _ : String => RoomDefinition) : RoomChange → Prop
  | .created room _ _ => rooms.lookup room = none
  | .invited room _ | .removed room _ | .deleted room => ∃ d, rooms.lookup room = some d
  | .restarted => True

/-- The entry puts the code into the `Allowed` set of the channel. -/
def Grants (change : RoomChange) (room code : String) : Prop :=
  (∃ isPrivate, change = .created room code isPrivate) ∨ change = .invited room code

/-- The channel is gone after the entry. -/
def Closes (change : RoomChange) (room : String) : Prop :=
  change = .deleted room ∨ change = .restarted

/-- The code is not in the `Allowed` set of the channel after the entry. -/
def Revokes (change : RoomChange) (room code : String) : Prop :=
  change = .removed room code ∨ change.Closes room

/-- The channel that the entry is about. -/
def about : RoomChange → Option String
  | .created room _ _ | .invited room _ | .removed room _ | .deleted room => some room
  | .restarted => none

/-- The code is in the `Allowed` set of the channel. -/
def Allowed (rooms : AList fun _ : String => RoomDefinition) (room code : String) : Prop :=
  ∃ definition, rooms.lookup room = some definition ∧ code ∈ definition.allowed

/-- The channel is defined with the given owner and privacy. -/
def Belongs (rooms : AList fun _ : String => RoomDefinition) (room owner : String)
    (isPrivate : Bool) : Prop :=
  ∃ definition, rooms.lookup room = some definition ∧ definition.ownerCode = owner ∧
    definition.isPrivate = isPrivate

theorem lookup_initialRooms_eq {definition : RoomDefinition}
    (hroom : initialRooms.lookup room = some definition) :
    room = defaultRoomName ∧ definition = {} := by
  by_cases hlobby : room = defaultRoomName
  · subst hlobby
    rw [show initialRooms.lookup defaultRoomName = some {} from AList.lookup_insert _] at hroom
    exact ⟨rfl, (Option.some_injective _ hroom).symm⟩
  · rw [lookup_initialRooms hlobby] at hroom
    cases hroom

theorem not_allowed_initialRooms : ¬ Allowed initialRooms room code := by
  rintro ⟨definition, hlookup, hmem⟩
  obtain ⟨-, rfl⟩ := lookup_initialRooms_eq hlookup
  cases hmem

/-- What a write to one channel does to the `Allowed` sets. -/
theorem allowed_insert {x : String} {definition : RoomDefinition} :
    Allowed (rooms.insert x definition) room code ↔
      if room = x then code ∈ definition.allowed else Allowed rooms room code := by
  unfold Allowed
  split_ifs with hx
  · subst hx
    simp only [AList.lookup_insert, Option.some.injEq, exists_eq_left']
  · rw [AList.lookup_insert_ne hx]

theorem belongs_insert {x owner : String} {isPrivate : Bool} {definition : RoomDefinition} :
    Belongs (rooms.insert x definition) room owner isPrivate ↔
      if room = x then definition.ownerCode = owner ∧ definition.isPrivate = isPrivate
      else Belongs rooms room owner isPrivate := by
  unfold Belongs
  split_ifs with hx
  · subst hx
    simp only [AList.lookup_insert, Option.some.injEq, exists_eq_left']
  · rw [AList.lookup_insert_ne hx]

/-- An entry leaves the other channels as they are. -/
theorem lookup_apply_ne {change : RoomChange} {x : String} (habout : change.about = some x)
    (hroom : room ≠ x) : (change.apply rooms).lookup room = rooms.lookup room := by
  cases change with
  | created y owner isPrivate =>
    obtain rfl := Option.some_injective _ habout
    exact AList.lookup_insert_ne hroom
  | invited y target | removed y target =>
    obtain rfl := Option.some_injective _ habout
    simp only [apply]
    split
    · rfl
    · exact AList.lookup_insert_ne hroom
  | deleted y =>
    obtain rfl := Option.some_injective _ habout
    exact AList.lookup_erase_ne hroom
  | restarted => cases habout

/-- An entry grants, keeps or revokes a code. -/
theorem allowed_apply {change : RoomChange} (happlies : change.Applies rooms) :
    Allowed (change.apply rooms) room code ↔
      change.Grants room code ∨ (Allowed rooms room code ∧ ¬ change.Revokes room code) := by
  cases change with
  | created x owner isPrivate =>
    have hnew : room = x → ¬ Allowed rooms room code := by
      rintro rfl ⟨d, hd, -⟩
      cases (happlies : rooms.lookup room = none).symm.trans hd
    simp only [apply, allowed_insert, Grants, Revokes, Closes]
    split_ifs with hx
    · subst hx
      simp [hnew rfl, eq_comm]
    · simp [Ne.symm hx]
  | invited x target =>
    obtain ⟨d, hd⟩ := happlies
    simp only [apply, hd, allowed_insert, Grants, Revokes, Closes]
    split_ifs with hx
    · subst hx
      have hold : Allowed rooms room code ↔ code ∈ d.allowed := by
        simp only [Allowed, hd, Option.some.injEq, exists_eq_left']
      simp [hold, List.mem_insert_iff, @eq_comm _ code]
    · simp [Ne.symm hx]
  | removed x target =>
    obtain ⟨d, hd⟩ := happlies
    simp only [apply, hd, allowed_insert, Grants, Revokes, Closes]
    split_ifs with hx
    · subst hx
      have hold : Allowed rooms room code ↔ code ∈ d.allowed := by
        simp only [Allowed, hd, Option.some.injEq, exists_eq_left']
      simp [hold, @eq_comm _ code]
    · simp [Ne.symm hx]
  | deleted x =>
    simp only [apply, Grants, Revokes, Closes]
    by_cases hx : room = x
    · subst hx
      simp [Allowed, AList.lookup_erase]
    · simp [Allowed, AList.lookup_erase_ne hx, Ne.symm hx]
  | restarted =>
    simp [apply, Grants, Revokes, Closes, not_allowed_initialRooms]

/-- An entry founds, keeps or closes a channel other than the lobby. -/
theorem belongs_apply {change : RoomChange} {owner : String} {isPrivate : Bool}
    (hroom : room ≠ defaultRoomName) (happlies : change.Applies rooms) :
    Belongs (change.apply rooms) room owner isPrivate ↔
      change = .created room owner isPrivate ∨
        (Belongs rooms room owner isPrivate ∧ ¬ change.Closes room) := by
  cases change with
  | created x creator shut =>
    have hnew : room = x → ¬ Belongs rooms room owner isPrivate := by
      rintro rfl ⟨d, hd, -⟩
      cases (happlies : rooms.lookup room = none).symm.trans hd
    simp only [apply, belongs_insert, Closes]
    split_ifs with hx
    · subst hx
      simp [hnew rfl]
    · simp [Ne.symm hx]
  | invited x target =>
    obtain ⟨d, hd⟩ := happlies
    simp only [apply, hd, belongs_insert, Closes]
    split_ifs with hx
    · subst hx
      simp [Belongs, hd]
    · simp
  | removed x target =>
    obtain ⟨d, hd⟩ := happlies
    simp only [apply, hd, belongs_insert, Closes]
    split_ifs with hx
    · subst hx
      simp [Belongs, hd]
    · simp
  | deleted x =>
    simp only [apply, Closes]
    by_cases hx : room = x
    · subst hx
      simp [Belongs, AList.lookup_erase]
    · simp [Belongs, AList.lookup_erase_ne hx, Ne.symm hx]
  | restarted =>
    simp [apply, Closes, Belongs, lookup_initialRooms hroom]

end RoomChange

/-! ### The entry of an event -/

/-- The entry of a request that the read pump hands to the Hub. -/
def requested (h : Hub) (obj : Client) (m : Message) : Option RoomChange :=
  match m.type, h.roomDefinitions.lookup m.room with
  | .roomCreate, none => some (.created m.room obj.normalizedCode m.isPrivate)
  | .roomAction, some definition =>
    if m.room = defaultRoomName ∨ canManageRoom obj definition = false then none
    else if m.content = "delete" then some (.deleted m.room)
    else match normalizeUserCode m.targetUserCode with
      | .error _ => none
      | .ok target =>
        if m.content = "invite" then some (.invited m.room target)
        else if m.content = "remove_member" then some (.removed m.room target)
        else none
  | _, _ => none

/-- The entry that an event makes. -/
def roomChange (h : Hub) (e : Event) : Option RoomChange :=
  match e.input with
  | .restart _ => some .restarted
  | .frame c m limited _ =>
    if h.reads c m limited && (validateMessage m).isOk then
      (h.registry.client? c).bind fun obj => h.requested obj m
    else none
  | _ => none

/-- The definitions after an event that makes the given entry, or none. -/
def applyChange (h : Hub) : Option RoomChange → AList fun _ : String => RoomDefinition
  | some change => change.apply h.roomDefinitions
  | none => h.roomDefinitions

variable {h : Hub} {c : ClientID} {obj : Client} {m : Message} {limited muted : Bool}

theorem applies_requested {change : RoomChange} (hchange : h.requested obj m = some change) :
    change.Applies h.roomDefinitions := by
  unfold requested at hchange
  split at hchange
  · rename_i hnone
    obtain rfl := Option.some_injective _ hchange
    exact hnone
  · rename_i definition _ hsome
    split at hchange
    · cases hchange
    split at hchange
    · obtain rfl := Option.some_injective _ hchange
      exact ⟨definition, hsome⟩
    split at hchange
    · cases hchange
    split at hchange
    · obtain rfl := Option.some_injective _ hchange
      exact ⟨definition, hsome⟩
    split at hchange
    · obtain rfl := Option.some_injective _ hchange
      exact ⟨definition, hsome⟩
    · cases hchange
  · cases hchange

theorem applies_roomChange {e : Event} {change : RoomChange} (hchange : h.roomChange e = some change) :
    change.Applies h.roomDefinitions := by
  unfold roomChange at hchange
  split at hchange
  · obtain rfl := Option.some_injective _ hchange
    trivial
  · split at hchange
    · obtain ⟨obj, -, hchange⟩ := Option.bind_eq_some_iff.1 hchange
      exact applies_requested hchange
    · cases hchange
  · cases hchange

/-- A frame of a connected client is read, or answered without being looked at. -/
theorem reads_or_quiet (platform : Platform) (env : Env) (hobj : h.registry.client? c = some obj)
    (hconnected : h.registry.isConnected c = true)
    (ht : m.type = .roomCreate ∨ m.type = .roomAction) :
    h.reads c m limited = true ∨
      Touches [] [.system, .error] h (h.readPump platform env c m limited muted) := by
  unfold readPump
  rw [hobj]
  dsimp only
  split
  · exact .inr (Touches.refl h)
  rename_i hready
  split
  · exact .inr (touches_unregisterClient (by decide) env c)
  rename_i hcommand
  split
  · exact .inr (touches_deliverError (by decide) c _ _ _)
  rename_i hlimited
  refine .inl ?_
  have hfree : limited = false := by
    cases limited with
    | false => rfl
    | true => rcases ht with ht | ht <;> simp [ht] at hlimited
  rw [Bool.not_eq_true', Bool.not_eq_false] at hready
  unfold reads readsFrames
  rw [hobj, Option.any_some, hconnected, hfree, ← Bool.and_assoc, hready]
  exact decide_eq_true (Nat.le_of_not_lt hcommand)

theorem roomDefinitions_create (env : Env) (hobj : h.registry.client? c = some obj)
    (hconnected : h.registry.isConnected c = true) (ht : m.type = .roomCreate)
    (hvalid : validateMessage m = .ok ()) :
    (h.handleRoomCreate env c m.room m.isPrivate).roomDefinitions =
      h.applyChange (h.requested obj m) := by
  have hname : validateRoomName m.room = .ok () := by
    unfold validateMessage at hvalid
    simp only [ht] at hvalid
    split at hvalid
    · cases hvalid
    · exact hvalid
  unfold handleRoomCreate requested
  simp only [hobj, hconnected, hname, ht]
  cases hlookup : h.roomDefinitions.lookup m.room with
  | none => exact roomDefinitions_handleRoomJoin env c m.room
  | some definition => rfl

theorem roomDefinitions_action (env : Env) (hobj : h.registry.client? c = some obj)
    (hconnected : h.registry.isConnected c = true) (ht : m.type = .roomAction) :
    (h.handleRoomAction env c m.content m.room m.targetUserCode).roomDefinitions =
      h.applyChange (h.requested obj m) := by
  unfold handleRoomAction requested
  simp only [hobj, hconnected, ht]
  cases hlookup : h.roomDefinitions.lookup m.room with
  | none => rfl
  | some definition =>
    by_cases hlobby : m.room = defaultRoomName
    · simp [hlobby, applyChange, deliverError, onRegistry]
    by_cases hmanage : canManageRoom obj definition = false
    · simp [hlobby, hmanage, applyChange, deliverError, onRegistry]
    by_cases hdelete : m.content = "delete"
    · simp [hlobby, hmanage, hdelete, applyChange, deleteRoom, RoomChange.apply]
    cases htarget : normalizeUserCode m.targetUserCode with
    | error e => simp [hlobby, hmanage, hdelete, applyChange, deliverError, onRegistry]
    | ok target =>
      by_cases hinvite : m.content = "invite"
      · simp [hlobby, hmanage, hinvite, applyChange, inviteMember, RoomChange.apply, hlookup, tell,
          onRegistry]
      by_cases hremove : m.content = "remove_member"
      · simp [hlobby, hmanage, hremove, applyChange, removeMember, RoomChange.apply, hlookup, tell,
          onRegistry]
      · simp [hlobby, hmanage, hdelete, hinvite, hremove, applyChange]

/-- A request of a client that is not connected changes no definition. -/
theorem roomDefinitions_unconnected (env : Env) (hconnected : h.registry.isConnected c = false)
    (ht : m.type = .roomCreate ∨ m.type = .roomAction) (platform : Platform) :
    (h.readPump platform env c m limited muted).roomDefinitions = h.roomDefinitions := by
  have hquiet : ∀ {k : Hub}, Touches [] [.system, .error] h k →
      k.roomDefinitions = h.roomDefinitions := fun a => a.same .definitions (by decide)
  rcases readPump_cases (h := h) platform env c m limited muted with hq | ⟨obj, hobj, heq⟩
  · exact hquiet hq
  rw [heq]
  rcases ht with ht | ht
  · simp only [dispatch, ht]
    rcases validated_cases (h := h) c m "" ""
      (fun h => h.handleRoomCreate env c m.room m.isPrivate) with hq | ⟨-, heq⟩
    · exact hquiet hq
    · rw [heq, handleRoomCreate]
      simp [hobj, hconnected]
  · simp only [dispatch, ht]
    rcases validated_cases (h := h) c m "" ""
      (fun h => h.handleRoomAction env c m.content m.room m.targetUserCode) with hq | ⟨-, heq⟩
    · exact hquiet hq
    · rw [heq, handleRoomAction]
      simp [hobj, hconnected]

theorem roomDefinitions_readPump (platform : Platform) (env : Env)
    (ht : m.type = .roomCreate ∨ m.type = .roomAction) :
    (h.readPump platform env c m limited muted).roomDefinitions =
      h.applyChange (if h.reads c m limited && (validateMessage m).isOk then
        (h.registry.client? c).bind fun obj => h.requested obj m else none) := by
  cases hconnected : h.registry.isConnected c with
  | false =>
    have hreads : h.reads c m limited = false := by simp [reads, hconnected]
    rw [roomDefinitions_unconnected env hconnected ht platform, hreads]
    rfl
  | true =>
    cases hobj : h.registry.client? c with
    | none =>
      simp [readPump, hobj, applyChange]
    | some obj =>
      cases hreads : h.reads c m limited with
      | false =>
        have hcases : _ ∨ Touches [] [.system, .error] h (h.readPump platform env c m limited muted) :=
          reads_or_quiet platform env hobj hconnected ht
        rcases hcases with htrue | hquiet
        · cases hreads.symm.trans htrue
        · exact hquiet.same .definitions (by decide)
      | true =>
        have hdispatch : h.readPump platform env c m limited muted =
            h.dispatch platform env c obj m muted := by
          unfold reads at hreads
          simp only [Bool.and_eq_true, Bool.not_eq_true', decide_eq_true_eq] at hreads
          obtain ⟨⟨⟨hready, -⟩, rfl⟩, hcommand⟩ := hreads
          exact readPump_of_ready hready hobj hcommand
        rw [hdispatch]
        cases hvalid : (validateMessage m).isOk with
        | false => rcases ht with ht | ht <;> simp [dispatch, ht, validated, hvalid, applyChange,
            deliverError, onRegistry]
        | true =>
          rcases ht with ht | ht
          · simp only [dispatch, ht, validated, hvalid]
            exact roomDefinitions_create env hobj hconnected ht (isOk_iff.1 hvalid)
          · simp only [dispatch, ht, validated, hvalid]
            exact roomDefinitions_action env hobj hconnected ht

theorem requested_of_type (hcreate : m.type ≠ .roomCreate) (haction : m.type ≠ .roomAction) :
    h.requested obj m = none := by
  unfold requested
  split <;> simp_all

/-- An event changes the room definitions as its entry says. -/
theorem roomDefinitions_step (platform : Platform) (hs : Sound h.registry) (hl : LobbyOpen h)
    (e : Event) : (step platform h e).roomDefinitions = h.applyChange (h.roomChange e) := by
  unfold roomChange
  cases hinput : e.input with
  | restart adminCode => simp only [step, hinput, boot, applyChange, RoomChange.apply]
  | login username userCode =>
    simp only [step, hinput]
    exact roomDefinitions_login hl e.env username userCode
  | frame c m limited muted =>
    simp only [step, hinput]
    by_cases ht : m.type = .roomCreate ∨ m.type = .roomAction
    · exact roomDefinitions_readPump platform e.env ht
    · rw [not_or] at ht
      have hnone : (if h.reads c m limited && (validateMessage m).isOk then
          (h.registry.client? c).bind fun obj => h.requested obj m else none) = none := by
        split
        · simp [requested_of_type ht.1 ht.2]
        · rfl
      rw [hnone]
      refine (touches_readPump platform hs e.env c m limited muted).same .definitions ?_
      generalize hty : m.type = t at ht
      cases t <;> simp_all [frameParts, chatParts]
  | _ =>
    have htouch := step_touches platform hs e (by rw [hinput]; rfl)
    rw [hinput] at htouch
    exact htouch.same .definitions (by simp [Input.writes])

/-! ### The lobby -/

/-- The lobby is defined as it was at the start. -/
def LobbyFixed (h : Hub) : Prop := h.roomDefinitions.lookup defaultRoomName = some {}

theorem LobbyFixed.open (hl : LobbyFixed h) : LobbyOpen h := ⟨{}, hl, rfl⟩

/-- A request is about the channel that it names, and never about the lobby. -/
theorem about_requested (hl : LobbyFixed h) {change : RoomChange}
    (hchange : h.requested obj m = some change) :
    change.about = some m.room ∧ m.room ≠ defaultRoomName := by
  have hne : h.roomDefinitions.lookup m.room = none → m.room ≠ defaultRoomName := by
    intro hnone hroom
    rw [hroom] at hnone
    cases hnone.symm.trans hl
  unfold requested at hchange
  split at hchange
  · rename_i hnone
    obtain rfl := Option.some_injective _ hchange
    exact ⟨rfl, hne hnone⟩
  · split at hchange
    · cases hchange
    rename_i hgate
    have hroom : m.room ≠ defaultRoomName := fun hroom => hgate (.inl hroom)
    split at hchange
    · obtain rfl := Option.some_injective _ hchange
      exact ⟨rfl, hroom⟩
    split at hchange
    · cases hchange
    split at hchange
    · obtain rfl := Option.some_injective _ hchange
      exact ⟨rfl, hroom⟩
    split at hchange
    · obtain rfl := Option.some_injective _ hchange
      exact ⟨rfl, hroom⟩
    · cases hchange
  · cases hchange

/-- A request founds a channel under the session's code, or the session may manage the channel. -/
theorem manager_requested {change : RoomChange} (hchange : h.requested obj m = some change) :
    (∃ isPrivate, change = .created m.room obj.normalizedCode isPrivate) ∨
      ∃ definition, h.roomDefinitions.lookup m.room = some definition ∧
        canManageRoom obj definition = true := by
  unfold requested at hchange
  split at hchange
  · exact .inl ⟨_, (Option.some_injective _ hchange).symm⟩
  · rename_i definition _ hdefinition
    split at hchange
    · cases hchange
    rename_i hgate
    exact .inr ⟨definition, hdefinition, by simpa using (not_or.1 hgate).2⟩
  · cases hchange

/-- An entry other than a restart comes from a request that is read. -/
theorem roomChange_cases {e : Event} {change : RoomChange} (hchange : h.roomChange e = some change) :
    change = .restarted ∨ ∃ c obj m limited muted, e.input = .frame c m limited muted ∧
      h.registry.client? c = some obj ∧ h.reads c m limited = true ∧
      h.requested obj m = some change := by
  unfold roomChange at hchange
  split at hchange
  · exact .inl (Option.some_injective _ hchange).symm
  · rename_i c m limited muted hinput
    split at hchange
    · rename_i hread
      obtain ⟨obj, hobj, hchange⟩ := Option.bind_eq_some_iff.1 hchange
      exact .inr ⟨c, obj, m, limited, muted, hinput, hobj, (Bool.and_eq_true_iff.1 hread).1, hchange⟩
    · cases hchange
  · cases hchange

theorem lobbyFixed_step (platform : Platform) (hs : Sound h.registry) (hl : LobbyFixed h)
    (e : Event) : LobbyFixed (step platform h e) := by
  unfold LobbyFixed
  rw [roomDefinitions_step platform hs hl.open e]
  cases hchange : h.roomChange e with
  | none => exact hl
  | some change =>
    rcases roomChange_cases hchange with rfl | ⟨c, obj, m, limited, muted, -, -, -, hrequest⟩
    · exact AList.lookup_insert _
    · obtain ⟨habout, hroom⟩ := about_requested hl hrequest
      exact (RoomChange.lookup_apply_ne habout hroom.symm).trans hl

/-! ### Administrators -/

/-- Nobody came, and everybody keeps their code and their administrator mark. -/
def KeepsBadges (r r' : Registry) : Prop :=
  ∀ d ∈ r'.clients, ∀ o', r'.client? d = some o' →
    d ∈ r.clients ∧ ∃ o, r.client? d = some o ∧
      o'.normalizedCode = o.normalizedCode ∧ o'.isAdmin = o.isAdmin

/-- The administrators are the connected clients with the configured code. -/
def AdminsKnown (h : Hub) : Prop :=
  ∀ c ∈ h.registry.clients, ∀ obj, h.registry.client? c = some obj →
    (obj.isAdmin = true ↔ h.adminCode ≠ "" ∧ obj.normalizedCode = h.adminCode)

section Badges

variable {r r' : Registry} {k : Hub}

theorem keepsBadges_of_walksTo {room : String} {who : ClientID → Prop}
    (hw : WalksTo room who r r') : KeepsBadges r r' := by
  intro d hd o' ho'
  obtain ⟨hd, o, ho, hstand⟩ := hw d hd o' ho'
  refine ⟨hd, o, ho, ?_⟩
  rcases hstand with hstand | ⟨-, hstand⟩ <;> simpa [standing] using (Prod.mk.inj hstand).2

theorem keepsBadges_of_stays (hstay : Stays r r') : KeepsBadges r r' := by
  have hw : WalksTo "" (fun _ => False) r r' := hstay.walksTo
  exact keepsBadges_of_walksTo hw

theorem KeepsBadges.trans {r'' : Registry} (h' : KeepsBadges r' r'') (h : KeepsBadges r r') :
    KeepsBadges r r'' := by
  intro d hd o'' ho''
  obtain ⟨hd', o', ho', hcode', hadmin'⟩ := h' d hd o'' ho''
  obtain ⟨hd, o, ho, hcode, hadmin⟩ := h d hd' o' ho'
  exact ⟨hd, o, ho, hcode'.trans hcode, hadmin'.trans hadmin⟩

theorem AdminsKnown.keep (ha : AdminsKnown h) (hk : KeepsBadges h.registry k.registry)
    (hconfig : k.adminCode = h.adminCode) : AdminsKnown k := by
  intro c hc obj hobj
  obtain ⟨hc, o, ho, hcode, hadmin⟩ := hk c hc obj hobj
  rw [hconfig, hcode, hadmin]
  exact ha c hc o ho

theorem keepsBadges_handleRoomJoin (env : Env) (c : ClientID) (room : String) :
    KeepsBadges h.registry (h.handleRoomJoin env c room).registry := by
  have hquiet : ∀ {k : Hub}, Touches [] [.system, .error] h k →
      KeepsBadges h.registry k.registry := fun a => keepsBadges_of_stays (a.stays (by decide))
  unfold handleRoomJoin
  split
  · exact hquiet (Touches.refl h)
  rename_i obj _
  split
  · exact hquiet (Touches.refl h)
  split
  · exact hquiet (touches_deliverError (by decide) c _ _ _)
  split
  · exact hquiet (touches_deliverError (by decide) c _ _ _)
  split
  · exact hquiet (touches_deliverError (by decide) c _ _ _)
  split
  · exact hquiet (touches_tell (t := .system) rfl (by decide))
  · exact keepsBadges_of_walksTo (walksTo_changeRoom env obj room)

theorem keepsBadges_handleRoomCreate (env : Env) (c : ClientID) (room : String)
    (isPrivate : Bool) :
    KeepsBadges h.registry (h.handleRoomCreate env c room isPrivate).registry := by
  have hquiet : ∀ {k : Hub}, Touches [] [.system, .error] h k →
      KeepsBadges h.registry k.registry := fun a => keepsBadges_of_stays (a.stays (by decide))
  unfold handleRoomCreate
  split
  · exact hquiet (Touches.refl h)
  split
  · exact hquiet (Touches.refl h)
  split
  · exact hquiet (touches_deliverError (by decide) c _ _ _)
  split
  · exact hquiet (touches_deliverError (by decide) c _ _ _)
  exact (keepsBadges_handleRoomJoin env c room).trans
    (keepsBadges_of_stays (fades_tell (r := h.registry) c _).stays)

theorem keepsBadges_handleRoomLeave (env : Env) (c : ClientID) :
    KeepsBadges h.registry (h.handleRoomLeave env c).registry := by
  unfold handleRoomLeave
  split
  · exact keepsBadges_of_stays (Stays.refl _)
  rename_i obj _
  split
  · exact keepsBadges_of_stays (Stays.refl _)
  split
  · exact keepsBadges_of_stays (fades_tell c _).stays
  · exact keepsBadges_of_walksTo (walksTo_changeRoom env obj defaultRoomName)

theorem keepsBadges_removeMember (c : ClientID) (room : String) (definition : RoomDefinition)
    (target : String) :
    KeepsBadges h.registry (h.removeMember c room definition target).registry := by
  unfold removeMember
  refine KeepsBadges.trans (keepsBadges_of_stays (fades_tell c _).stays) ?_
  dsimp only
  split
  · split
    · rename_i d _ _
      have hd : d ∈ [d] := List.mem_singleton_self d
      exact keepsBadges_of_walksTo (walksTo_evict hd _)
    · exact keepsBadges_of_stays (Stays.refl _)
  · exact keepsBadges_of_stays (Stays.refl _)

theorem keepsBadges_handleRoomAction (env : Env) (c : ClientID) (action room targetCode : String) :
    KeepsBadges h.registry (h.handleRoomAction env c action room targetCode).registry := by
  have hquiet : ∀ {k : Hub}, Touches [] [.system, .error] h k →
      KeepsBadges h.registry k.registry := fun a => keepsBadges_of_stays (a.stays (by decide))
  unfold handleRoomAction
  split
  · exact hquiet (Touches.refl h)
  split
  · exact hquiet (Touches.refl h)
  split
  · exact hquiet (touches_deliverError (by decide) c _ _ _)
  split
  · exact hquiet (touches_deliverError (by decide) c _ _ _)
  split
  · exact hquiet (touches_deliverError (by decide) c _ _ _)
  split
  · exact keepsBadges_of_walksTo (walksTo_evict_foldl _ _)
  split
  · exact hquiet (touches_deliverError (by decide) c _ _ _)
  split
  · exact keepsBadges_of_stays (fades_tell (r := h.registry) c _).stays
  split
  · exact keepsBadges_removeMember c room _ _
  · exact hquiet (Touches.refl h)

/-- A registration marks the new client by its code. -/
theorem adminsKnown_completeRegistration (ha : AdminsKnown h) (env : Env) (obj : Client) :
    AdminsKnown (h.completeRegistration env obj) := by
  have hfade := fades_completeRegistration (h := h) env obj
  intro d hd o' ho'
  obtain ⟨hd, o, ho, hstand⟩ := hfade.stays d hd o' ho'
  obtain ⟨hcode, hadmin⟩ := Prod.mk.inj (Prod.mk.inj hstand).2
  rw [hcode, hadmin]
  rcases walksTo_enroll hd ho with rfl | ⟨hd, ho⟩
  · simp [completeRegistration, onRegistry]
  · exact ha d hd o ho

theorem adminsKnown_handleRegisterRequest (ha : AdminsKnown h) (hl : LobbyOpen h) (env : Env)
    (obj : Client) : AdminsKnown (h.handleRegisterRequest env obj).2 := by
  unfold handleRegisterRequest
  split
  · exact ha
  rw [ensureLobby_of_open hl]
  dsimp only
  split
  · split
    · rename_i active _ _
      have hleft : Moves False [.system] h.registry (h.registry.unregisterClient env active) :=
        moves_unregisterClient (by decide) env active
      exact adminsKnown_completeRegistration
        (h := h.onRegistry fun r => r.unregisterClient env active)
        (ha.keep (keepsBadges_of_stays hleft.stays) rfl) env obj
    · exact ha
  · split
    · exact ha
    · exact adminsKnown_completeRegistration ha env obj

theorem adminsKnown_login (ha : AdminsKnown h) (hl : LobbyOpen h) (env : Env)
    (username userCode : String) : AdminsKnown (h.login env username userCode) := by
  unfold login
  split
  · exact ha
  split
  · split
    · exact ha
    · rename_i chat _
      exact adminsKnown_handleRegisterRequest (h := { h with db := { h.db with chat } }) ha hl env _
  · exact adminsKnown_handleRegisterRequest ha hl env _

theorem adminsKnown_step (platform : Platform) (hs : Sound h.registry) (hl : LobbyOpen h)
    (ha : AdminsKnown h) (e : Event) : AdminsKnown (step platform h e) := by
  cases hlive : e.input.isRestart with
  | true =>
    obtain ⟨input, env⟩ := e
    cases input with
    | restart adminCode =>
      intro c hc
      cases hc
    | _ => cases hlive
  | false =>
  have hconfig : (step platform h e).adminCode = h.adminCode := by
    refine ((step_touches platform hs e hlive).same .config ?_).1
    obtain ⟨input, env⟩ := e
    cases input with
    | frame c m limited muted =>
      generalize hty : m.type = t
      cases t <;> simp [Input.writes, frameParts, chatParts, hty]
    | restart adminCode => cases hlive
    | _ => simp [Input.writes]
  have hstep := roomStep platform hs e
  generalize step platform h e = k at hstep hconfig ⊢
  cases hstep with
  | quiet hp hd a => exact ha.keep (keepsBadges_of_stays (a.stays hp)) hconfig
  | login username userCode he => exact adminsKnown_login ha hl e.env username userCode
  | join c obj m limited muted he hobj ht hreads hvalid =>
    exact ha.keep (keepsBadges_handleRoomJoin e.env c m.room) hconfig
  | create c obj m limited muted he hobj ht hreads hvalid =>
    exact ha.keep (keepsBadges_handleRoomCreate e.env c m.room m.isPrivate) hconfig
  | leave c obj m limited muted he hobj ht hreads =>
    exact ha.keep (keepsBadges_handleRoomLeave e.env c) hconfig
  | action c obj m limited muted he hobj ht =>
    exact ha.keep (keepsBadges_handleRoomAction e.env c _ _ _) hconfig
  | restart adminCode he => cases (he ▸ hlive : (Input.restart adminCode).isRestart = false)

end Badges

/-! ### The list of channels -/

/-- The names that `handleRequestRooms` lists for a client. -/
def visibleRooms (h : Hub) (obj : Client) : List String :=
  ((h.roomDefinitions.entries.filter fun e => canJoinRoom obj e.2).map Sigma.fst).insertionSort
    (· ≤ ·)

theorem mem_visibleRooms {room : String} : room ∈ h.visibleRooms obj ↔
    ∃ definition, h.roomDefinitions.lookup room = some definition ∧
      canJoinRoom obj definition = true := by
  unfold visibleRooms
  simp only [List.mem_insertionSort, List.mem_map, List.mem_filter]
  constructor
  · rintro ⟨⟨x, definition⟩, ⟨hmem, hjoin⟩, rfl⟩
    exact ⟨definition, AList.mem_lookup_iff.2 hmem, hjoin⟩
  · rintro ⟨definition, hlookup, hjoin⟩
    exact ⟨⟨room, definition⟩, ⟨AList.mem_lookup_iff.1 hlookup, hjoin⟩, rfl⟩

theorem nodup_visibleRooms : (h.visibleRooms obj).Nodup := by
  unfold visibleRooms
  refine (List.perm_insertionSort _ _).nodup_iff.2 ?_
  have hkeys : (h.roomDefinitions.entries.map Sigma.fst).Nodup := h.roomDefinitions.nodupKeys
  exact hkeys.sublist (List.filter_sublist.map _)

theorem sorted_visibleRooms : (h.visibleRooms obj).Pairwise (· ≤ ·) :=
  List.pairwise_insertionSort _ _

/-- A list of channels answers a request, and names what the client may join. -/
theorem roomsResponse_step (platform : Platform) (hs : Sound h.registry) {e : Event} {x : Message}
    (hx : (c, x) ∈ sentBetween h (step platform h e)) (ht : x.type = .roomsResponse) :
    ∃ obj, c ∈ h.registry.clients ∧ h.registry.client? c = some obj ∧
      x.rooms = h.visibleRooms obj := by
  have htypes : ∀ {parts : List Part} {types : List MessageType} {k : Hub},
      Touches parts types h k → .roomsResponse ∉ types → (c, x) ∉ sentBetween h k := by
    intro parts types k a hnot hmem
    have hin : x.type ∈ types := mem_sentBetween a.moves.emits hmem
    exact hnot (ht ▸ hin)
  have hsends := type_mem_sends platform hs hx
  rw [ht] at hsends
  obtain ⟨input, env⟩ := e
  cases input with
  | frame d m limited muted =>
    simp only [step] at hx
    rcases readPump_cases (h := h) platform env d m limited muted with hq | ⟨obj, hobj, heq⟩
    · exact absurd hx (htypes hq (by decide))
    rw [heq] at hx
    have htouch := touches_dispatch platform hs env d obj m muted
    have herr : MessageType.error ∈ [MessageType.system, .error] := by decide
    -- the footprint of the other room requests is too wide, so each of them is looked at
    cases hty : m.type with
    | roomsRequest =>
      simp only [dispatch, hty, handleRequestRooms, hobj] at hx
      split at hx
      · exact absurd hx (not_mem_sentBetween rfl)
      · rename_i hconnected
        obtain ⟨rfl, hrooms⟩ : c = d ∧ x.rooms = h.visibleRooms obj := mem_sentBetween
          (P := fun y => y.1 = d ∧ y.2.rooms = h.visibleRooms obj) (emits_tell ⟨rfl, rfl⟩) hx
        exact ⟨obj, isConnected_iff.1 (by simpa using hconnected), hobj, hrooms⟩
    | roomJoin =>
      simp only [dispatch, hty] at hx
      exact absurd hx (htypes (touches_validated herr
        (touches_handleRoomJoin (by decide) (by decide) (List.mem_singleton_self Part.places) env d _))
          (by decide))
    | roomCreate =>
      simp only [dispatch, hty] at hx
      exact absurd hx (htypes (touches_validated herr
        (touches_handleRoomCreate (by decide) (by decide) env d _ _)) (by decide))
    | roomAction =>
      simp only [dispatch, hty] at hx
      exact absurd hx (htypes (touches_validated herr
        (touches_handleRoomAction (by decide) (by decide) hs env d _ _ _)) (by decide))
    | roomLeave =>
      simp only [dispatch, hty] at hx
      have hleave : Touches [.places] [.system, .error] h (h.handleRoomLeave env d) :=
        touches_handleRoomLeave (by decide) (List.mem_singleton_self Part.places) env d
      exact absurd hx (htypes hleave (by decide))
    | usersRequest =>
      simp only [dispatch, hty, handleRequestUsers] at hx
      split at hx
      · exact absurd hx (not_mem_sentBetween rfl)
      · have htell : ∀ u : Message, u.type = .usersResponse →
            Touches [] [.usersResponse] h (h.tell d u) :=
          fun u hu => touches_tell hu (List.mem_singleton_self _)
        exact absurd hx (htypes (htell _ rfl) (by decide))
    | _ =>
      refine absurd hx (htypes htouch ?_)
      simp [hty, frameTypes, chatTypes, requestTypes, recallTypes, adminTypes]
  | _ => simp [Input.sends, adminTypes, loginTypes, replayTypes, historyTypes] at hsends

/-! ### Runs -/

namespace Trace

variable {r : Trace} {i n : ℕ} {room code : String}

/-- The entry of event number `i`. -/
def changeAt (r : Trace) (i : ℕ) : Option RoomChange := (r.events[i]?).bind (r.hub i).roomChange

/-- Event number `i` puts the code into the `Allowed` set of the channel. -/
def GrantsAt (r : Trace) (i : ℕ) (room code : String) : Prop :=
  ∃ change ∈ r.changeAt i, change.Grants room code

/-- Event number `i` takes the code out of the `Allowed` set of the channel, or the channel away. -/
def RevokesAt (r : Trace) (i : ℕ) (room code : String) : Prop :=
  ∃ change ∈ r.changeAt i, change.Revokes room code

/-- Event number `i` takes the channel away. -/
def ClosesAt (r : Trace) (i : ℕ) (room : String) : Prop :=
  ∃ change ∈ r.changeAt i, change.Closes room

/-- What every run keeps about sessions and channels. -/
structure RoomInv (h : Hub) : Prop where
  sound : Sound h.registry
  lobby : LobbyFixed h
  occupied : Occupied h
  admins : AdminsKnown h

theorem roomInv (r : Trace) (n : ℕ) : RoomInv (r.hub n) := by
  refine r.invariant (I := RoomInv) ⟨sound_start _ _, AList.lookup_insert _, ?_, ?_⟩ ?_ n
  · intro c hc
    cases hc
  · intro c hc
    cases hc
  · intro h e hi
    exact ⟨sound_step _ h e hi.sound, lobbyFixed_step _ hi.sound hi.lobby e,
      occupied_step _ hi.sound hi.lobby.open hi.occupied e,
      adminsKnown_step _ hi.sound hi.lobby.open hi.admins e⟩

/-- Past the end of the run nothing happens. -/
theorem hub_succ_of_le (hn : r.events.length ≤ n) : r.hub (n + 1) = r.hub n := by
  unfold hub
  rw [List.take_of_length_le hn, List.take_of_length_le (by omega)]

theorem roomDefinitions_succ (r : Trace) (i : ℕ) :
    (r.hub (i + 1)).roomDefinitions = (r.hub i).applyChange (r.changeAt i) := by
  have hinv := roomInv r i
  unfold changeAt
  rcases Nat.lt_or_ge i r.events.length with hi | hi
  · rw [hub_succ hi, roomDefinitions_step _ hinv.sound hinv.lobby.open, List.getElem?_eq_getElem hi]
    rfl
  · rw [hub_succ_of_le hi, List.getElem?_eq_none hi]
    rfl

theorem applies_changeAt {change : RoomChange} (hchange : r.changeAt i = some change) :
    change.Applies (r.hub i).roomDefinitions := by
  obtain ⟨e, -, hchange⟩ := Option.bind_eq_some_iff.1 hchange
  exact applies_roomChange hchange

/-- A code is in the `Allowed` set of a channel exactly when some event granted it, by creating the
channel or by an invitation, and none has revoked it since. -/
theorem allowed_iff (r : Trace) (n : ℕ) (room code : String) :
    RoomChange.Allowed (r.hub n).roomDefinitions room code ↔
      ∃ i < n, r.GrantsAt i room code ∧ ∀ j, i < j → j < n → ¬ r.RevokesAt j room code := by
  refine latch_iff (p := fun n => RoomChange.Allowed (r.hub n).roomDefinitions room code)
    RoomChange.not_allowed_initialRooms fun i _ => ?_
  rw [roomDefinitions_succ]
  unfold GrantsAt RevokesAt
  cases hchange : r.changeAt i with
  | none => simp [applyChange]
  | some change =>
    simpa [applyChange] using RoomChange.allowed_apply (applies_changeAt hchange)

/-- A channel has the given owner and privacy exactly when its last creation gave it both and no
event has taken it away since; the lobby has no owner and is public. -/
theorem belongs_iff (r : Trace) (n : ℕ) (room owner : String) (isPrivate : Bool) :
    RoomChange.Belongs (r.hub n).roomDefinitions room owner isPrivate ↔
      (room = defaultRoomName ∧ owner = "" ∧ isPrivate = false) ∨
      ∃ i < n, r.changeAt i = some (.created room owner isPrivate) ∧
        ∀ j, i < j → j < n → ¬ r.ClosesAt j room := by
  by_cases hroom : room = defaultRoomName
  · subst hroom
    have hlobby : RoomChange.Belongs (r.hub n).roomDefinitions defaultRoomName owner isPrivate ↔
        owner = "" ∧ isPrivate = false := by
      simp [RoomChange.Belongs, show _ = _ from (roomInv r n).lobby, eq_comm]
    have hnever : ∀ i, r.changeAt i ≠ some (.created defaultRoomName owner isPrivate) := by
      intro i hchange
      cases (applies_changeAt hchange).symm.trans (roomInv r i).lobby
    simp [hlobby, hnever]
  · simp only [hroom, false_and, false_or]
    refine latch_iff
      (p := fun n => RoomChange.Belongs (r.hub n).roomDefinitions room owner isPrivate) ?_
      fun i _ => ?_
    · rintro ⟨definition, hdefinition, -⟩
      exact hroom (RoomChange.lookup_initialRooms_eq hdefinition).1
    · rw [roomDefinitions_succ]
      unfold ClosesAt
      cases hchange : r.changeAt i with
      | none => simp [applyChange]
      | some change =>
        simpa [applyChange] using RoomChange.belongs_apply hroom (applies_changeAt hchange)

/-- The entry is a restart, or it is made by a connected client that founds the channel under its own
code, holds the configured administrator code, or has created the channel, which has not gone
since. -/
def AuthorizedAt (r : Trace) (i : ℕ) (change : RoomChange) : Prop :=
  change = .restarted ∨ ∃ c obj room, c ∈ (r.hub i).registry.clients ∧
    (r.hub i).registry.client? c = some obj ∧ change.about = some room ∧
    ((∃ isPrivate, change = .created room obj.normalizedCode isPrivate) ∨
      ((r.hub i).adminCode ≠ "" ∧ obj.normalizedCode = (r.hub i).adminCode) ∨
      ∃ k < i, (∃ isPrivate, r.changeAt k = some (.created room obj.normalizedCode isPrivate)) ∧
        ∀ j, k < j → j < i → ¬ r.ClosesAt j room)

/-- Alice opens a private channel and invites Bob, who joins, is sent a chat and asks for the
channels. -/
def denRun : Trace where
  platform := samplePlatform
  adminCode := ""
  offlineStore := false
  events := [⟨.login "Alice" "alice", {}⟩, ⟨.login "Bob" "bob", {}⟩,
    frameEvent 0 { type := .roomCreate, room := "den", isPrivate := true },
    frameEvent 0 { type := .roomAction, room := "den", content := "invite", targetUserCode := "bob" },
    frameEvent 1 { type := .roomJoin, room := "den" },
    frameEvent 0 { type := .chat, content := "hello" },
    frameEvent 1 { type := .roomsRequest }]

/-- Every entry of every run is authorized. -/
theorem change_authorized (r : Trace) {i : ℕ} {change : RoomChange}
    (hchange : r.changeAt i = some change) : r.AuthorizedAt i change := by
  have hinv := roomInv r i
  obtain ⟨e, -, he⟩ := Option.bind_eq_some_iff.1 hchange
  rcases roomChange_cases he with hrestart | ⟨c, obj, m, limited, muted, -, hobj, hreads, hrequest⟩
  · exact .inl hrestart
  have hconnected : c ∈ (r.hub i).registry.clients := by
    unfold reads at hreads
    simp only [Bool.and_eq_true] at hreads
    exact isConnected_iff.1 hreads.1.1.2
  obtain ⟨habout, hlobby⟩ := about_requested hinv.lobby hrequest
  refine .inr ⟨c, obj, m.room, hconnected, hobj, habout, ?_⟩
  rcases manager_requested hrequest with hcreated | ⟨definition, hdefinition, hmanage⟩
  · exact .inl hcreated
  · refine .inr ?_
    simp only [canManageRoom, Bool.or_eq_true, Bool.and_eq_true, bne_iff_ne, beq_iff_eq] at hmanage
    rcases hmanage with hadmin | ⟨-, howner⟩
    · exact .inl ((hinv.admins c hconnected obj hobj).1 hadmin)
    · right
      have hbelongs : RoomChange.Belongs (r.hub i).roomDefinitions m.room obj.normalizedCode
          definition.isPrivate := ⟨definition, hdefinition, howner, rfl⟩
      rcases (belongs_iff r i _ _ _).1 hbelongs with ⟨hroom, -⟩ | ⟨k, hk, hcreated, hsince⟩
      · exact absurd hroom hlobby
      · exact ⟨k, hk, ⟨_, hcreated⟩, hsince⟩

theorem change_authorized_invitation : denRun.AuthorizedAt 3 (.invited "den" "bob") :=
  change_authorized denRun (by decide +kernel)

/-! ### Entering -/

/-- At position `n` the log lets the session into the channel: the channel is public, the session
is an administrator's, or its code was granted and has not been revoked since. -/
def MayEnter (r : Trace) (n : ℕ) (obj : Client) (room : String) : Prop :=
  ∃ definition, (r.hub n).roomDefinitions.lookup room = some definition ∧
    (definition.isPrivate = false ∨
      ((r.hub n).adminCode ≠ "" ∧ obj.normalizedCode = (r.hub n).adminCode) ∨
      ∃ i < n, r.GrantsAt i room obj.normalizedCode ∧
        ∀ j, i < j → j < n → ¬ r.RevokesAt j room obj.normalizedCode)

/-- `canJoinRoom` decides as the log does. -/
theorem mayEnter_iff {c : ClientID} {obj : Client} (hc : c ∈ (r.hub n).registry.clients)
    (hobj : (r.hub n).registry.client? c = some obj) :
    r.MayEnter n obj room ↔ ∃ definition,
      (r.hub n).roomDefinitions.lookup room = some definition ∧
        canJoinRoom obj definition = true := by
  unfold MayEnter
  refine exists_congr fun definition => and_congr_right fun hdefinition => ?_
  have hcode : obj.normalizedCode ∈ definition.allowed ↔
      RoomChange.Allowed (r.hub n).roomDefinitions room obj.normalizedCode := by
    simp only [RoomChange.Allowed, hdefinition, Option.some.injEq, exists_eq_left']
  rw [← allowed_iff, ← hcode, ← (roomInv r n).admins c hc obj hobj]
  simp [canJoinRoom, or_assoc]

/-- Every connected client is in a channel that the log lets it into. -/
theorem mayEnter_room {c : ClientID} {obj : Client} (hc : c ∈ (r.hub n).registry.clients)
    (hobj : (r.hub n).registry.client? c = some obj) : r.MayEnter n obj obj.room :=
  (mayEnter_iff hc hobj).2 ((roomInv r n).occupied c hc obj hobj)

/-- A chat of a connected client goes only to connected clients in its room, and the log lets each
of them into that room. -/
theorem chat_reaches (r : Trace) (hn : n < r.events.length) {c : ClientID} {m : Message}
    {limited muted : Bool} (he : r.events[n].input = .frame c m limited muted) (ht : m.type = .chat)
    {obj : Client} (hc : c ∈ (r.hub n).registry.clients)
    (hobj : (r.hub n).registry.client? c = some obj) {d : ClientID} {x : Message}
    (hx : (d, x) ∈ sentBetween (r.hub n) (r.hub (n + 1))) (hxt : x.type = .chat) :
    ∃ o, d ∈ (r.hub n).registry.clients ∧ (r.hub n).registry.client? d = some o ∧
      o.room = obj.room ∧ r.MayEnter n o obj.room := by
  have hs := (roomInv r n).sound
  rw [hub_succ hn] at hx
  obtain ⟨hd, hmem⟩ := mem_sentBetween (chatsStay_step r.platform hs he ht hc hobj) hx hxt
  obtain ⟨o, ho, -, -⟩ := hs.online d hd
  have hroom := hs.one_room d hd o ho _ hmem
  exact ⟨o, hd, ho, hroom, hroom ▸ mayEnter_room hd ho⟩

theorem chat_reaches_bob : ∃ o, (denRun.hub 5).registry.client? 1 = some o ∧
    denRun.MayEnter 5 o "den" := by
  have hsent : (sentBetween (denRun.hub 5) (denRun.hub 6)).any
      (fun y => y.1 == 1 && y.2.type == .chat) = true := by decide +kernel
  obtain ⟨⟨d, x⟩, hx, htype⟩ := List.any_eq_true.1 hsent
  simp only [Bool.and_eq_true, beq_iff_eq] at htype
  obtain ⟨rfl, hchat⟩ := htype
  have hroom : ((denRun.hub 5).registry.client? 0).map Client.room = some "den" := by
    decide +kernel
  obtain ⟨obj, hobj, hden⟩ := Option.map_eq_some_iff.1 hroom
  obtain ⟨o, -, ho, -, hmay⟩ := chat_reaches denRun (n := 5) (by decide) (c := 0) rfl rfl
    (by decide +kernel) hobj hx hchat
  exact ⟨o, ho, hden ▸ hmay⟩

/-- Every list of channels that is sent is sorted, names no channel twice, and names exactly the
channels that the log lets the client into. -/
theorem rooms_response_exact (r : Trace) (hn : n < r.events.length) {c : ClientID} {x : Message}
    (hx : (c, x) ∈ sentBetween (r.hub n) (r.hub (n + 1))) (ht : x.type = .roomsResponse) :
    ∃ obj, c ∈ (r.hub n).registry.clients ∧ (r.hub n).registry.client? c = some obj ∧
      x.rooms.Pairwise (· ≤ ·) ∧ x.rooms.Nodup ∧ ∀ room, room ∈ x.rooms ↔ r.MayEnter n obj room := by
  rw [hub_succ hn] at hx
  obtain ⟨obj, hc, hobj, hrooms⟩ := roomsResponse_step r.platform (roomInv r n).sound hx ht
  rw [hrooms]
  exact ⟨obj, hc, hobj, sorted_visibleRooms, nodup_visibleRooms,
    fun room => mem_visibleRooms.trans (mayEnter_iff hc hobj).symm⟩

theorem rooms_response_exact_bob : ∃ o, (denRun.hub 6).registry.client? 1 = some o ∧
    denRun.MayEnter 6 o "den" := by
  have hsent : (sentBetween (denRun.hub 6) (denRun.hub 7)).any
      (fun y => y.1 == 1 && y.2.type == .roomsResponse && y.2.rooms.contains "den") = true := by
    decide +kernel
  obtain ⟨⟨d, x⟩, hx, htype⟩ := List.any_eq_true.1 hsent
  simp only [Bool.and_eq_true, beq_iff_eq, List.contains_iff_mem] at htype
  obtain ⟨⟨rfl, hlist⟩, hden⟩ := htype
  obtain ⟨o, -, ho, -, -, hrooms⟩ := rooms_response_exact denRun (n := 6) (by decide) hx hlist
  exact ⟨o, ho, (hrooms "den").1 hden⟩

end Trace

end Hub

end LanChat
