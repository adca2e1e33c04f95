import LanChat.Hub.ChatLog

/-!
# What an event does to rooms

* `Opens h e room isPrivate`: the event is a room creation that the Hub accepts;
* `definitions_step`: a room is defined after an event when it was before, with the same privacy, or
  when the event opens it; the lobby stays public;
* `places_step`: whoever is in a room other than the lobby after an event was there before, and the
  room has not gone, or may join the room as it is defined then.
-/

namespace LanChat

namespace Registry

variable {r r' r'' : Registry} {room : String} {who : ClientID → Prop}

/-! ### Walking -/

/-- Nobody came, and whoever changed rooms satisfies `who` and is in the given room. -/
def WalksTo (room : String) (who : ClientID → Prop) (r r' : Registry) : Prop :=
  ∀ d ∈ r'.clients, ∀ o', r'.client? d = some o' →
    d ∈ r.clients ∧ ∃ o, r.client? d = some o ∧
      (standing o' = standing o ∨ (who d ∧ standing o' = (room, o.normalizedCode, o.isAdmin)))

theorem Stays.walksTo (h : Stays r r') : WalksTo room who r r' := by
  intro d hd o' ho'
  obtain ⟨hd, o, ho, hstand⟩ := h d hd o' ho'
  exact ⟨hd, o, ho, .inl hstand⟩

theorem WalksTo.trans (h : WalksTo room who r r') (h' : WalksTo room who r' r'') :
    WalksTo room who r r'' := by
  intro d hd o'' ho''
  obtain ⟨hd', o', ho', hstand'⟩ := h' d hd o'' ho''
  obtain ⟨hd, o, ho, hstand⟩ := h d hd' o' ho'
  refine ⟨hd, o, ho, ?_⟩
  have hsame : o'.normalizedCode = o.normalizedCode ∧ o'.isAdmin = o.isAdmin := by
    rcases hstand with hstand | ⟨-, hstand⟩ <;> simpa [standing] using (Prod.mk.inj hstand).2
  rcases hstand' with hstand' | ⟨hwho, hstand'⟩
  · rcases hstand with hstand | ⟨hwho, hstand⟩
    · exact .inl (hstand'.trans hstand)
    · exact .inr ⟨hwho, hstand'.trans hstand⟩
  · rw [hsame.1, hsame.2] at hstand'
    exact .inr ⟨hwho, hstand'⟩

theorem walksTo_moveTo {c : ClientID} (hc : who c) : WalksTo room who r (r.moveTo c room) := by
  intro d hd o' ho'
  have hclients : (r.moveTo c room).clients = r.clients := clients_removeFromRoom c
  rw [client?_moveTo] at ho'
  refine ⟨hclients ▸ hd, ?_⟩
  split_ifs at ho' with hcd
  · obtain ⟨o, ho, rfl⟩ := Option.map_eq_some_iff.1 ho'
    exact ⟨o, ho, .inr ⟨hcd ▸ hc, rfl⟩⟩
  · exact ⟨o', ho', .inl rfl⟩

theorem walksTo_evict {c : ClientID} (hc : who c) (content : String) :
    WalksTo defaultRoomName who r (Hub.evict r c content) :=
  (walksTo_moveTo hc).trans (fades_tell c _).stays.walksTo

theorem walksTo_changeRoom (env : Env) {c : ClientID} (obj : Client) (room : String) :
    WalksTo room (· = c) r (r.changeRoom env c obj room) := by
  have hleft : WalksTo room (· = c) r (r.broadcastSystemMessageToRoom env obj.room
      (presenceMessage obj ("left room " ++ obj.room))) :=
    (fades_broadcastSystemMessageToRoom env _ _).stays.walksTo
  have hmoved := hleft.trans (walksTo_moveTo (c := c) rfl)
  exact hmoved.trans (fades_broadcastSystemMessageToRoom env _ _).stays.walksTo

/-- Registration adds one client, in the lobby. -/
theorem walksTo_enroll {obj : Client} {d : ClientID} {o' : Client}
    (hd : d ∈ (Hub.enroll r obj).clients) (ho' : (Hub.enroll r obj).client? d = some o') :
    o' = obj ∨ (d ∈ r.clients ∧ r.client? d = some o') := by
  rw [mem_clients_enroll] at hd
  rw [client?_enroll] at ho'
  split_ifs at ho' with hnew
  · exact .inl (Option.some_injective _ ho').symm
  · exact .inr ⟨hd.resolve_left hnew, ho'⟩

end Registry

namespace Hub

open GoStrings Registry

variable {h k l : Hub}

/-! ### Definitions -/

/-- The event is a room creation that the Hub accepts. -/
def Opens (h : Hub) (e : Event) (room : String) (isPrivate : Bool) : Prop :=
  ∃ c obj m, FrameOf h e c obj m ∧ c ∈ h.registry.clients ∧ m.type = .roomCreate ∧ m.room = room ∧
    m.isPrivate = isPrivate ∧ h.roomDefinitions.lookup room = none

/-- The lobby is defined and public. -/
def LobbyOpen (h : Hub) : Prop :=
  ∃ d, h.roomDefinitions.lookup defaultRoomName = some d ∧ d.isPrivate = false

theorem lookup_initialRooms {room : String} (hroom : room ≠ defaultRoomName) :
    initialRooms.lookup room = none := AList.lookup_insert_ne hroom

theorem lobbyOpen_boot {r : Registry} {db : Database} {adminCode : String} {offlineStore : Bool} :
    LobbyOpen (boot r db adminCode offlineStore) := ⟨{}, AList.lookup_insert _, rfl⟩

/-- The lobby stays public, and whatever other room is defined afterwards was defined before with
the same privacy or is opened. -/
structure Defines (opens : String → Bool → Prop) (h k : Hub) : Prop where
  lobby : LobbyOpen k
  origin : ∀ room d', room ≠ defaultRoomName → k.roomDefinitions.lookup room = some d' →
    (∃ d, h.roomDefinitions.lookup room = some d ∧ d'.isPrivate = d.isPrivate) ∨
      opens room d'.isPrivate

variable {opens : String → Bool → Prop}

theorem defines_of_eq (hl : LobbyOpen h) (hk : k.roomDefinitions = h.roomDefinitions) :
    Defines opens h k := by
  refine ⟨?_, fun room d' _ hd' => .inl ⟨d', hk ▸ hd', rfl⟩⟩
  unfold LobbyOpen
  rwa [hk]

/-- A write under a name other than the lobby's. -/
theorem defines_insert (hl : LobbyOpen h) {room : String} {definition : RoomDefinition}
    (hk : k.roomDefinitions = h.roomDefinitions.insert room definition)
    (hroom : room ≠ defaultRoomName)
    (hdef : (∃ d, h.roomDefinitions.lookup room = some d ∧ definition.isPrivate = d.isPrivate) ∨
      opens room definition.isPrivate) : Defines opens h k := by
  constructor
  · obtain ⟨d, hd, hpublic⟩ := hl
    exact ⟨d, by rw [hk, AList.lookup_insert_ne hroom.symm, hd], hpublic⟩
  · intro x d' _ hd'
    rw [hk] at hd'
    by_cases hx : x = room
    · subst hx
      rw [AList.lookup_insert] at hd'
      obtain rfl := Option.some_injective _ hd'
      exact hdef
    · rw [AList.lookup_insert_ne hx] at hd'
      exact .inl ⟨d', hd', rfl⟩

theorem defines_erase (hl : LobbyOpen h) {room : String}
    (hk : k.roomDefinitions = h.roomDefinitions.erase room) (hroom : room ≠ defaultRoomName) :
    Defines opens h k := by
  constructor
  · obtain ⟨d, hd, hpublic⟩ := hl
    exact ⟨d, by rw [hk, AList.lookup_erase_ne hroom.symm, hd], hpublic⟩
  · intro x d' _ hd'
    rw [hk] at hd'
    by_cases hx : x = room
    · subst hx
      rw [AList.lookup_erase] at hd'
      cases hd'
    · rw [AList.lookup_erase_ne hx] at hd'
      exact .inl ⟨d', hd', rfl⟩

theorem roomDefinitions_handleRoomJoin (env : Env) (c : ClientID) (room : String) :
    (h.handleRoomJoin env c room).roomDefinitions = h.roomDefinitions := by
  have htouch : Touches [.places] roomTypes h (h.handleRoomJoin env c room) :=
    touches_handleRoomJoin (by decide) (by decide) (by decide) env c room
  exact htouch.same .definitions (by decide)

theorem defines_handleRoomCreate (hl : LobbyOpen h) (env : Env) (c : ClientID) (room : String)
    (isPrivate : Bool) :
    Defines (fun x p => c ∈ h.registry.clients ∧ x = room ∧ p = isPrivate ∧
      h.roomDefinitions.lookup room = none) h (h.handleRoomCreate env c room isPrivate) := by
  unfold handleRoomCreate
  split
  · exact defines_of_eq hl rfl
  split
  · exact defines_of_eq hl rfl
  rename_i hcon
  split
  · exact defines_of_eq hl rfl
  split
  · exact defines_of_eq hl rfl
  rename_i hnew
  have hnone : h.roomDefinitions.lookup room = none := by simpa using hnew
  refine defines_insert hl (roomDefinitions_handleRoomJoin env c room) ?_ (.inr ⟨?_, rfl, rfl, hnone⟩)
  · rintro rfl
    obtain ⟨d, hd, -⟩ := hl
    rw [hnone] at hd
    cases hd
  · simpa [isConnected] using hcon

theorem defines_handleRoomAction (hl : LobbyOpen h) (env : Env) (c : ClientID)
    (action room targetCode : String) :
    Defines opens h (h.handleRoomAction env c action room targetCode) := by
  unfold handleRoomAction
  split
  · exact defines_of_eq hl rfl
  split
  · exact defines_of_eq hl rfl
  split
  · exact defines_of_eq hl rfl
  rename_i definition hdefinition
  split
  · exact defines_of_eq hl rfl
  rename_i hroom
  split
  · exact defines_of_eq hl rfl
  split
  · exact defines_erase hl rfl hroom
  split
  · exact defines_of_eq hl rfl
  split
  · exact defines_insert hl rfl hroom (.inl ⟨definition, hdefinition, rfl⟩)
  split
  · exact defines_insert hl rfl hroom (.inl ⟨definition, hdefinition, rfl⟩)
  · exact defines_of_eq hl rfl

theorem ensureLobby_of_open (hl : LobbyOpen h) : h.ensureLobby = h := by
  obtain ⟨d, hd, -⟩ := hl
  unfold ensureLobby
  rw [if_pos (by rw [hd]; rfl)]

theorem roomDefinitions_handleRegisterRequest (hl : LobbyOpen h) (env : Env) (obj : Client) :
    (h.handleRegisterRequest env obj).2.roomDefinitions = h.roomDefinitions := by
  unfold handleRegisterRequest
  split
  · rfl
  rw [ensureLobby_of_open hl]
  dsimp only
  split
  · split <;> rfl
  · split <;> rfl

theorem roomDefinitions_login (hl : LobbyOpen h) (env : Env) (username userCode : String) :
    (h.login env username userCode).roomDefinitions = h.roomDefinitions := by
  unfold login
  split
  · rfl
  split
  · split
    · rfl
    · rename_i chat _
      exact roomDefinitions_handleRegisterRequest (h := { h with db := { h.db with chat } }) hl env _
  · exact roomDefinitions_handleRegisterRequest hl env _

/-- The request of a frame whose type has one handler behind `validateMessage`. -/
theorem step_frame_cases (platform : Platform) {e : Event} {c : ClientID} {m : Message}
    {limited muted : Bool} (he : e.input = .frame c m limited muted)
    {messageID commandID : String} {handle : Hub → Hub}
    (hdispatch : ∀ obj, h.dispatch platform e.env c obj m muted =
      h.validated c m messageID commandID handle) :
    Touches [] [.system, .error] h (step platform h e) ∨
      ∃ obj, FrameOf h e c obj m ∧ validateMessage m = .ok () ∧ step platform h e = handle h := by
  simp only [step, he]
  rcases readPump_cases (h := h) platform e.env c m limited muted with hquiet | ⟨obj, hobj, heq⟩
  · exact .inl hquiet
  · rw [heq, hdispatch obj]
    rcases validated_cases (h := h) c m messageID commandID handle with hquiet | ⟨hvalid, heq⟩
    · exact .inl hquiet
    · exact .inr ⟨obj, ⟨⟨limited, muted, he⟩, hobj⟩, hvalid, heq⟩

/-! ### The events that concern rooms -/

/-- The read pump hands the frame to the Hub. -/
def reads (h : Hub) (c : ClientID) (m : Message) (limited : Bool) : Bool :=
  h.readsFrames c && h.registry.isConnected c && !limited &&
    decide (m.commandID.utf8ByteSize ≤ maxCommandIDSize)

/-- A frame that moves its sender is dropped, answered, or read. -/
theorem readPump_reads (platform : Platform) (env : Env) (c : ClientID) {m : Message}
    (limited muted : Bool) (ht : m.type = .roomJoin ∨ m.type = .roomCreate ∨ m.type = .roomLeave) :
    Touches [] [.system, .error] h (h.readPump platform env c m limited muted) ∨
      ∃ obj, h.registry.client? c = some obj ∧
        (h.registry.isConnected c = true → h.reads c m limited = true) ∧
        h.readPump platform env c m limited muted = h.dispatch platform env c obj m muted := by
  unfold readPump
  split
  · exact .inl (Touches.refl h)
  rename_i obj hobj
  split
  · exact .inl (Touches.refl h)
  rename_i hready
  split
  · exact .inl (touches_unregisterClient (by decide) env c)
  rename_i hcommand
  split
  · exact .inl (touches_deliverError (by decide) c _ _ _)
  rename_i hlimited
  refine .inr ⟨obj, hobj, fun hconnected => ?_, rfl⟩
  have hfree : limited = false := by
    cases limited with
    | false => rfl
    | true => rcases ht with ht | ht | ht <;> simp [ht] at hlimited
  have hgate : (h.alive c && (obj.stage == .reading && obj.replay.isEmpty)) = true := by
    rw [← Bool.and_assoc]
    exact eq_true_of_ne_false fun hfalse => hready (by rw [hfalse]; rfl)
  unfold reads readsFrames
  rw [hobj, Option.any_some, hgate, hconnected, hfree]
  exact decide_eq_true (Nat.le_of_not_lt hcommand)

/-- An event that concerns rooms ends in one of a few handlers; every other one neither walks nor
defines. -/
inductive RoomStep (h : Hub) (e : Event) : Hub → Prop
  | quiet {parts : List Part} {types : List MessageType} {k : Hub} (hp : .places ∉ parts)
      (hd : .definitions ∉ parts) (a : Touches parts types h k) : RoomStep h e k
  | login (username userCode : String) (he : e.input = .login username userCode) :
      RoomStep h e (h.login e.env username userCode)
  | join (c : ClientID) (obj : Client) (m : Message) (limited muted : Bool)
      (he : e.input = .frame c m limited muted) (hobj : h.registry.client? c = some obj)
      (ht : m.type = .roomJoin)
      (hreads : h.registry.isConnected c = true → h.reads c m limited = true)
      (hvalid : validateMessage m = .ok ()) : RoomStep h e (h.handleRoomJoin e.env c m.room)
  | create (c : ClientID) (obj : Client) (m : Message) (limited muted : Bool)
      (he : e.input = .frame c m limited muted) (hobj : h.registry.client? c = some obj)
      (ht : m.type = .roomCreate)
      (hreads : h.registry.isConnected c = true → h.reads c m limited = true)
      (hvalid : validateMessage m = .ok ()) :
      RoomStep h e (h.handleRoomCreate e.env c m.room m.isPrivate)
  | leave (c : ClientID) (obj : Client) (m : Message) (limited muted : Bool)
      (he : e.input = .frame c m limited muted) (hobj : h.registry.client? c = some obj)
      (ht : m.type = .roomLeave)
      (hreads : h.registry.isConnected c = true → h.reads c m limited = true) :
      RoomStep h e (h.handleRoomLeave e.env c)
  | action (c : ClientID) (obj : Client) (m : Message) (limited muted : Bool)
      (he : e.input = .frame c m limited muted) (hobj : h.registry.client? c = some obj)
      (ht : m.type = .roomAction) :
      RoomStep h e (h.handleRoomAction e.env c m.content m.room m.targetUserCode)
  | restart (adminCode : String) (he : e.input = .restart adminCode) :
      RoomStep h e (boot h.registry h.db adminCode h.offlineStore)

theorem roomStep (platform : Platform) (hs : Sound h.registry) (e : Event) :
    RoomStep h e (step platform h e) := by
  have hquiet : ∀ {k : Hub}, Touches [] [.system, .error] h k → RoomStep h e k :=
    .quiet (by decide) (by decide)
  cases hinput : e.input with
  | login username userCode =>
    simp only [step, hinput]
    exact .login username userCode hinput
  | frame c m limited muted =>
    simp only [step, hinput]
    cases ht : m.type with
    | roomJoin =>
      rcases readPump_reads (h := h) platform e.env c limited muted (.inl ht) with
        hq | ⟨obj, hobj, hreads, heq⟩
      · exact hquiet hq
      rw [heq]
      simp only [dispatch, ht]
      rcases validated_cases (h := h) c m "" "" (fun h => h.handleRoomJoin e.env c m.room) with
        hq | ⟨hvalid, heq⟩
      · exact hquiet hq
      rw [heq]
      exact .join c obj m limited muted hinput hobj ht hreads hvalid
    | roomCreate =>
      rcases readPump_reads (h := h) platform e.env c limited muted (.inr (.inl ht)) with
        hq | ⟨obj, hobj, hreads, heq⟩
      · exact hquiet hq
      rw [heq]
      simp only [dispatch, ht]
      rcases validated_cases (h := h) c m "" ""
        (fun h => h.handleRoomCreate e.env c m.room m.isPrivate) with hq | ⟨hvalid, heq⟩
      · exact hquiet hq
      rw [heq]
      exact .create c obj m limited muted hinput hobj ht hreads hvalid
    | roomLeave =>
      rcases readPump_reads (h := h) platform e.env c limited muted (.inr (.inr ht)) with
        hq | ⟨obj, hobj, hreads, heq⟩
      · exact hquiet hq
      rw [heq]
      simp only [dispatch, ht]
      exact .leave c obj m limited muted hinput hobj ht hreads
    | roomAction =>
      rcases readPump_cases (h := h) platform e.env c m limited muted with hq | ⟨obj, hobj, heq⟩
      · exact hquiet hq
      rw [heq]
      simp only [dispatch, ht]
      rcases validated_cases (h := h) c m "" ""
        (fun h => h.handleRoomAction e.env c m.content m.room m.targetUserCode) with hq | ⟨-, heq⟩
      · exact hquiet hq
      rw [heq]
      exact .action c obj m limited muted hinput hobj ht
    | _ =>
      refine .quiet ?_ ?_ (touches_readPump platform hs e.env c m limited muted) <;>
        simp [ht, frameParts, chatParts]
  | restart adminCode =>
    simp only [step, hinput]
    exact .restart adminCode hinput
  | _ =>
    have htouch := step_touches platform hs e (by rw [hinput]; rfl)
    rw [hinput] at htouch
    refine .quiet ?_ ?_ htouch <;> simp [Input.writes]

/-- Rooms are opened only by creations that the Hub accepts. -/
theorem definitions_step (platform : Platform) (hs : Sound h.registry) (hl : LobbyOpen h)
    (e : Event) : Defines (Opens h e) h (step platform h e) := by
  have hstep := roomStep platform hs e
  generalize step platform h e = k at hstep ⊢
  cases hstep with
  | quiet hp hd a => exact defines_of_eq hl (a.same .definitions hd)
  | login username userCode he =>
    exact defines_of_eq hl (roomDefinitions_login hl e.env username userCode)
  | join c obj m limited muted he hobj ht hreads hvalid =>
    exact defines_of_eq hl (roomDefinitions_handleRoomJoin e.env c m.room)
  | create c obj m limited muted he hobj ht hreads hvalid =>
    obtain ⟨hlobby, horigin⟩ := defines_handleRoomCreate hl e.env c m.room m.isPrivate
    refine ⟨hlobby, fun room d' hroom hd' => (horigin room d' hroom hd').imp_right ?_⟩
    rintro ⟨hc, rfl, hprivate, hnone⟩
    exact ⟨c, obj, m, ⟨⟨limited, muted, he⟩, hobj⟩, hc, ht, rfl, hprivate.symm, hnone⟩
  | leave c obj m limited muted he hobj ht hreads =>
    have htouch : Touches [.places] roomTypes h (h.handleRoomLeave e.env c) :=
      touches_handleRoomLeave (by decide) (by decide) e.env c
    exact defines_of_eq hl (htouch.same .definitions (by decide))
  | action c obj m limited muted he hobj ht => exact defines_handleRoomAction hl e.env c _ _ _
  | restart adminCode he =>
    refine ⟨lobbyOpen_boot, fun room d' hroom hd' => ?_⟩
    have hnone : initialRooms.lookup room = none := lookup_initialRooms hroom
    cases hnone.symm.trans hd'

/-! ### Places -/

/-- Whoever is in a room other than the lobby afterwards was there before, and the room has not
gone, or may join the room as it is defined now. -/
def Placed (h k : Hub) : Prop :=
  ∀ d ∈ k.registry.clients, ∀ o', k.registry.client? d = some o' → o'.room ≠ defaultRoomName →
    (d ∈ h.registry.clients ∧ ∃ o, h.registry.client? d = some o ∧ o.room = o'.room ∧
      ((h.roomDefinitions.lookup o'.room).isSome → (k.roomDefinitions.lookup o'.room).isSome)) ∨
    ∃ definition, k.roomDefinitions.lookup o'.room = some definition ∧
      canJoinRoom o' definition = true

/-- Nobody walks and no definition goes. -/
theorem placed_of_stays (hstay : Stays h.registry k.registry)
    (hdef : ∀ room, (h.roomDefinitions.lookup room).isSome →
      (k.roomDefinitions.lookup room).isSome) : Placed h k := by
  intro d hd o' ho' _
  obtain ⟨hd, o, ho, hstand⟩ := hstay d hd o' ho'
  exact .inl ⟨hd, o, ho, (Prod.mk.inj hstand).1.symm, hdef _⟩

theorem placed_of_touches {parts : List Part} {types : List MessageType} (a : Touches parts types h k)
    (hp : .places ∉ parts) (hdef : .definitions ∉ parts) : Placed h k := by
  refine placed_of_stays (a.stays hp) fun room hroom => ?_
  have hsame : k.roomDefinitions = h.roomDefinitions := a.same .definitions hdef
  rwa [hsame]

/-- Everybody who walks goes to the lobby. -/
theorem placed_of_walksTo_lobby {who : ClientID → Prop}
    (hwalk : WalksTo defaultRoomName who h.registry k.registry)
    (hdef : ∀ d ∈ k.registry.clients, ∀ o', k.registry.client? d = some o' →
      o'.room ≠ defaultRoomName → (h.roomDefinitions.lookup o'.room).isSome →
      (k.roomDefinitions.lookup o'.room).isSome) : Placed h k := by
  intro d hd o' ho' hroom
  have hkept := hdef d hd o' ho' hroom
  obtain ⟨hd, o, ho, hstand | ⟨-, hstand⟩⟩ := hwalk d hd o' ho'
  · exact .inl ⟨hd, o, ho, (Prod.mk.inj hstand).1.symm, hkept⟩
  · exact absurd (Prod.mk.inj hstand).1 hroom

theorem canJoinRoom_congr {o o' : Client} (hcode : o'.normalizedCode = o.normalizedCode)
    (hadmin : o'.isAdmin = o.isAdmin) (definition : RoomDefinition) :
    canJoinRoom o' definition = canJoinRoom o definition := by
  unfold canJoinRoom
  rw [hcode, hadmin]

theorem placed_handleRoomJoin (env : Env) (c : ClientID) (room : String) :
    Placed h (h.handleRoomJoin env c room) := by
  have hquiet : ∀ {k : Hub}, Touches [] [.system, .error] h k → Placed h k := fun a =>
    placed_of_touches a (by decide) (by decide)
  unfold handleRoomJoin
  split
  · exact hquiet (Touches.refl h)
  rename_i obj hobj
  split
  · exact hquiet (Touches.refl h)
  split
  · exact hquiet (touches_deliverError (by decide) c _ _ _)
  split
  · exact hquiet (touches_deliverError (by decide) c _ _ _)
  rename_i definition hdefinition
  split
  · exact hquiet (touches_deliverError (by decide) c _ _ _)
  rename_i hjoin
  split
  · exact hquiet (touches_tell (t := .system) rfl (by decide))
  intro d hd o' ho' _
  obtain ⟨hd, o, ho, hstand | ⟨rfl, hstand⟩⟩ := walksTo_changeRoom env obj room d hd o' ho'
  · exact .inl ⟨hd, o, ho, (Prod.mk.inj hstand).1.symm, id⟩
  · obtain rfl := Option.some_injective _ (hobj.symm.trans ho)
    obtain ⟨hroom, hstand⟩ := Prod.mk.inj hstand
    obtain ⟨hcode, hadmin⟩ := Prod.mk.inj hstand
    refine .inr ⟨definition, ?_, ?_⟩
    · change h.roomDefinitions.lookup o'.room = some definition
      rw [hroom]
      exact hdefinition
    · rw [canJoinRoom_congr hcode hadmin]
      simpa using hjoin

/-- What is placed after a change that moves nobody and drops no room. -/
theorem Placed.after_stays (hplaced : Placed k l) (hstay : Stays h.registry k.registry)
    (hdef : ∀ room, (h.roomDefinitions.lookup room).isSome →
      (k.roomDefinitions.lookup room).isSome) : Placed h l := by
  intro d hd o' ho' hroom
  rcases hplaced d hd o' ho' hroom with ⟨hd', o, ho, horoom, hkept⟩ | hjoin
  · obtain ⟨hd'', o'', ho'', hstand⟩ := hstay d hd' o ho
    exact .inl ⟨hd'', o'', ho'', (Prod.mk.inj hstand).1.symm.trans horoom,
      fun hsome => hkept (hdef _ hsome)⟩
  · exact .inr hjoin

theorem isSome_lookup_insert {rooms : AList fun _ : String => RoomDefinition} {room x : String}
    {definition : RoomDefinition} (hx : (rooms.lookup x).isSome) :
    ((rooms.insert room definition).lookup x).isSome := by
  by_cases h : x = room
  · subst h
    rw [AList.lookup_insert]
    rfl
  · rwa [AList.lookup_insert_ne h]

theorem placed_handleRoomCreate (env : Env) (c : ClientID) (room : String) (isPrivate : Bool) :
    Placed h (h.handleRoomCreate env c room isPrivate) := by
  have hquiet : ∀ {k : Hub}, Touches [] [.system, .error] h k → Placed h k := fun a =>
    placed_of_touches a (by decide) (by decide)
  unfold handleRoomCreate
  split
  · exact hquiet (Touches.refl h)
  split
  · exact hquiet (Touches.refl h)
  split
  · exact hquiet (touches_deliverError (by decide) c _ _ _)
  split
  · exact hquiet (touches_deliverError (by decide) c _ _ _)
  refine (placed_handleRoomJoin env c room).after_stays ?_ ?_
  · exact (fades_tell (r := h.registry) c _).stays
  · exact fun x => isSome_lookup_insert

theorem walksTo_evict_foldl {r : Registry} (content : String) (l : List ClientID) :
    WalksTo defaultRoomName (fun _ => True) r (l.foldl (fun r member => evict r member content) r) := by
  induction l generalizing r with
  | nil => exact (Stays.refl r).walksTo
  | cons c l ih => exact (walksTo_evict trivial content).trans ih

theorem placed_deleteRoom (hs : Sound h.registry) (env : Env) {room : String}
    (hroom : room ≠ defaultRoomName) : Placed h (h.deleteRoom env room) := by
  obtain ⟨-, hempty⟩ := evict_members (List.mem_singleton_self MessageType.system) trivial hs env hroom
    ("Channel #" ++ room ++ " was deleted")
  refine placed_of_walksTo_lobby (walksTo_evict_foldl _ _) fun d hd o' ho' _ hsome => ?_
  have hne : o'.room ≠ room := hempty d hd o' ho'
  change ((h.roomDefinitions.erase room).lookup o'.room).isSome
  rwa [AList.lookup_erase_ne hne]

theorem placed_removeMember (c : ClientID) (room : String) (definition : RoomDefinition)
    (targetCode : String) : Placed h (h.removeMember c room definition targetCode) := by
  have hwalk : WalksTo defaultRoomName (fun _ => True) h.registry
      (h.removeMember c room definition targetCode).registry := by
    unfold removeMember
    refine WalksTo.trans ?_ (fades_tell c _).stays.walksTo
    dsimp only
    split
    · split
      · exact walksTo_evict trivial _
      · exact (Stays.refl _).walksTo
    · exact (Stays.refl _).walksTo
  exact placed_of_walksTo_lobby hwalk fun _ _ _ _ _ hsome => isSome_lookup_insert hsome

theorem placed_handleRoomAction (hs : Sound h.registry) (env : Env) (c : ClientID)
    (action room targetCode : String) :
    Placed h (h.handleRoomAction env c action room targetCode) := by
  have hquiet : ∀ {k : Hub}, Touches [] [.system, .error] h k → Placed h k := fun a =>
    placed_of_touches a (by decide) (by decide)
  unfold handleRoomAction
  split
  · exact hquiet (Touches.refl h)
  split
  · exact hquiet (Touches.refl h)
  split
  · exact hquiet (touches_deliverError (by decide) c _ _ _)
  split
  · exact hquiet (touches_deliverError (by decide) c _ _ _)
  rename_i hroom
  split
  · exact hquiet (touches_deliverError (by decide) c _ _ _)
  split
  · exact placed_deleteRoom hs env hroom
  split
  · exact hquiet (touches_deliverError (by decide) c _ _ _)
  split
  · exact placed_of_stays (fades_tell (r := h.registry) c _).stays fun _ => isSome_lookup_insert
  split
  · exact placed_removeMember c room _ _
  · exact hquiet (Touches.refl h)

theorem placed_handleRoomLeave (env : Env) (c : ClientID) : Placed h (h.handleRoomLeave env c) := by
  have hquiet : ∀ {k : Hub}, Touches [] [.system, .error] h k → Placed h k := fun a =>
    placed_of_touches a (by decide) (by decide)
  unfold handleRoomLeave
  split
  · exact hquiet (Touches.refl h)
  split
  · exact hquiet (Touches.refl h)
  split
  · exact hquiet (touches_tell (t := .system) rfl (by decide))
  · exact placed_of_walksTo_lobby (walksTo_changeRoom env _ _) fun _ _ _ _ _ hsome => hsome

/-- After the enrolment a registration only delivers. -/
theorem fades_completeRegistration (env : Env) (obj : Client) :
    Fades (enroll h.registry
      { obj with isAdmin := h.adminCode != "" && obj.normalizedCode == h.adminCode })
      (h.completeRegistration env obj).registry := by
  refine (fades_broadcastSystemMessageToRoom env obj.room (presenceMessage obj "joined the chat")).trans
    ?_
  unfold completeRegistration onRegistry
  dsimp only
  split
  · refine fades_foldl (fun r id => ?_) _
    split
    · exact fades_tell _ _
    · exact Fades.refl r
  · exact Fades.refl _

/-- Whoever registers is in the lobby. -/
theorem placed_completeRegistration (env : Env) {obj : Client} (hobj : obj.room = defaultRoomName) :
    Placed h (h.completeRegistration env obj) := by
  intro d hd o' ho' hroom
  obtain ⟨hd, o, ho, hstand⟩ := (fades_completeRegistration env obj).stays d hd o' ho'
  obtain ⟨horoom, -⟩ := Prod.mk.inj hstand
  rcases walksTo_enroll hd ho with rfl | ⟨hd, ho⟩
  · exact absurd (horoom.trans hobj) hroom
  · exact .inl ⟨hd, o, ho, horoom.symm, id⟩

theorem placed_handleRegisterRequest (hl : LobbyOpen h) (env : Env) {obj : Client}
    (hobj : obj.room = defaultRoomName) : Placed h (h.handleRegisterRequest env obj).2 := by
  have hstays : Placed h h := placed_of_stays (Stays.refl _) fun _ hsome => hsome
  unfold handleRegisterRequest
  split
  · exact hstays
  rw [ensureLobby_of_open hl]
  dsimp only
  split
  · split
    · rename_i active _ _
      have hleft : Moves False [.system] h.registry (h.registry.unregisterClient env active) :=
        moves_unregisterClient (by decide) env active
      have hplaced : Placed (h.onRegistry fun r => r.unregisterClient env active)
          ((h.onRegistry fun r => r.unregisterClient env active).completeRegistration env obj) :=
        placed_completeRegistration env hobj
      exact hplaced.after_stays hleft.stays fun _ hsome => hsome
    · exact hstays
  · split
    · exact hstays
    · exact placed_completeRegistration env hobj

theorem placed_login (hl : LobbyOpen h) (env : Env) (username userCode : String) :
    Placed h (h.login env username userCode) := by
  have hstays : Placed h h := placed_of_stays (Stays.refl _) fun _ hsome => hsome
  unfold login
  split
  · exact hstays
  split
  · split
    · exact hstays
    · rename_i chat _
      exact placed_handleRegisterRequest (h := { h with db := { h.db with chat } }) hl env rfl
  · exact placed_handleRegisterRequest hl env rfl

/-- Every event keeps people in rooms that stay defined, or lets them join. -/
theorem places_step (platform : Platform) (hs : Sound h.registry) (hl : LobbyOpen h) (e : Event) :
    Placed h (step platform h e) := by
  have hstep := roomStep platform hs e
  generalize step platform h e = k at hstep ⊢
  cases hstep with
  | quiet hp hd a => exact placed_of_touches a hp hd
  | login username userCode he => exact placed_login hl e.env username userCode
  | join c obj m limited muted he hobj ht hreads hvalid => exact placed_handleRoomJoin e.env c _
  | create c obj m limited muted he hobj ht hreads hvalid =>
    exact placed_handleRoomCreate e.env c _ _
  | leave c obj m limited muted he hobj ht hreads => exact placed_handleRoomLeave e.env c
  | action c obj m limited muted he hobj ht => exact placed_handleRoomAction hs e.env c _ _ _
  | restart adminCode he =>
    intro d hd
    cases hd

end Hub

end LanChat
