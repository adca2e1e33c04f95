import LanChat.Hub.RoomLog

/-!
# Where sessions are, and where a chat goes

* `Moved h e d`: the event makes session `d` change rooms, by its own request or by an eviction;
* `rooms_step`: a session that is connected after an event was there before in the same room, or is
  new and in the lobby, or was moved;
* `room_after_join`: a session whose join is granted is in the room it asked for;
* `chat_step`: a chat goes only to clients whose room is that of the session which sent it.
-/

namespace LanChat

namespace Registry

variable {r r' r'' : Registry} {walks : Prop} {types : List MessageType}

/-! ### Client objects stay -/

theorem Move.length_le (h : Move walks types r r') : r.objects.length ≤ r'.objects.length := by
  cases h with
  | deliver c m hm => exact (fades_deliver c m).length.ge
  | remove c => exact (fades_removeClient c).length.ge
  | close c => exact (fades_closeSend c).length.ge
  | go c room hw hc hroom => exact (length_moveTo c room).ge
  | mute c => exact (length_modifyClient c _).ge
  | pump c => exact (length_modifyClient c _).ge
  | enroll obj =>
    change r.objects.length ≤ (r.objects ++ [obj]).length
    rw [List.length_append]
    omega
  | dropRoom room hempty => exact Nat.le_refl _
  | load c stage replay => exact (length_modifyClient c _).ge
  | push c obj message rest hc hobj hm =>
    change r.objects.length ≤ ((r.modifyClient c _).modifyClient c _).objects.length
    rw [length_modifyClient, length_modifyClient]

theorem Moves.length_le (h : Moves walks types r r') : r.objects.length ≤ r'.objects.length := by
  induction h with
  | refl => exact Nat.le_refl _
  | tail _ hmove ih => exact ih.trans hmove.length_le

/-! ### Newcomers -/

/-- Whoever is connected was there before in the same room, or is new and in the lobby. -/
def Settles (r r' : Registry) : Prop :=
  ∀ d ∈ r'.clients, ∀ o', r'.client? d = some o' →
    (d ∈ r.clients ∧ ∃ o, r.client? d = some o ∧ o'.room = o.room) ∨
      (r.objects.length ≤ d ∧ o'.room = defaultRoomName)

theorem Stays.settles (h : Stays r r') : Settles r r' := by
  intro d hd o' ho'
  obtain ⟨hd, o, ho, hstand⟩ := h d hd o' ho'
  exact .inl ⟨hd, o, ho, (Prod.mk.inj hstand).1⟩

/-- What settles after a change that moves nobody and makes no object. -/
theorem Settles.after_stays (h' : Settles r' r'') (h : Stays r r')
    (hlen : r.objects.length ≤ r'.objects.length) : Settles r r'' := by
  intro d hd o'' ho''
  rcases h' d hd o'' ho'' with ⟨hd, o', ho', hroom⟩ | ⟨hnew, hroom⟩
  · obtain ⟨hd, o, ho, hstand⟩ := h d hd o' ho'
    exact .inl ⟨hd, o, ho, hroom.trans (Prod.mk.inj hstand).1⟩
  · exact .inr ⟨hlen.trans hnew, hroom⟩

theorem Settles.fades (h : Settles r r') (h' : Fades r' r'') : Settles r r'' := by
  intro d hd o'' ho''
  obtain ⟨hd, o', ho', hstand⟩ := h'.stays d hd o'' ho''
  have hroom : o''.room = o'.room := (Prod.mk.inj hstand).1
  rw [hroom]
  exact h d hd o' ho'

theorem settles_enroll {obj : Client} (hobj : obj.room = defaultRoomName) :
    Settles r (Hub.enroll r obj) := by
  intro d hd o' ho'
  rw [mem_clients_enroll] at hd
  rw [client?_enroll] at ho'
  split_ifs at ho' with hnew
  · obtain rfl := Option.some_injective _ ho'
    exact .inr ⟨hnew.ge, hobj⟩
  · exact .inl ⟨hd.resolve_left hnew, o', ho', rfl⟩

/-- A client that walks ends up in the room it walks to. -/
theorem room_changeRoom {env : Env} {c : ClientID} {obj o' : Client} {room : String}
    (ho' : (r.changeRoom env c obj room).client? c = some o') : o'.room = room := by
  have hfade := fades_broadcastSystemMessageToRoom
    (r := (r.broadcastSystemMessageToRoom env obj.room
      (presenceMessage obj ("left room " ++ obj.room))).moveTo c room)
    env room (presenceMessage obj ("joined room " ++ room))
  obtain ⟨o, ho, hprofile⟩ := hfade.client? ho'
  have hroom : (profile o).room = (profile o').room := by rw [hprofile]
  rw [client?_moveTo, if_pos rfl] at ho
  obtain ⟨o'', -, rfl⟩ := Option.map_eq_some_iff.1 ho
  exact hroom.symm

end Registry

namespace Hub

open GoStrings Registry

variable {h k : Hub}

theorem length_le_step (platform : Platform) (hs : Sound h.registry) (e : Event) :
    h.registry.objects.length ≤ (step platform h e).registry.objects.length := by
  cases hlive : e.input.isRestart with
  | false => exact (step_touches platform hs e hlive).moves.length_le
  | true =>
    obtain ⟨input, env⟩ := e
    cases input with
    | restart adminCode => exact Nat.le_refl _
    | _ => cases hlive

/-! ### Moving -/

/-- The session that a room action names. -/
def targetSession (h : Hub) (m : Message) : Option ClientID :=
  match normalizeUserCode m.targetUserCode with
  | .ok code => h.registry.active? code
  | .error _ => none

/-- The room action, when the Hub carries it out, sends the session back to the lobby. -/
def evicts (h : Hub) (m : Message) (d : ClientID) : Bool :=
  m.type == .roomAction && m.room != defaultRoomName &&
    (h.registry.client? d).any (fun o => o.room == m.room) &&
    (m.content == "delete" || (m.content == "remove_member" && h.targetSession m == some d))

theorem evicts_of_member {m : Message} {d : ClientID} (ht : m.type = .roomAction)
    (hroom : m.room ≠ defaultRoomName)
    (hin : ∃ o, h.registry.client? d = some o ∧ o.room = m.room)
    (haction : m.content = "delete" ∨ (m.content = "remove_member" ∧ h.targetSession m = some d)) :
    h.evicts m d = true := by
  obtain ⟨o, ho, horoom⟩ := hin
  unfold evicts
  rw [ht, ho, Option.any_some, horoom]
  simpa [hroom] using haction

/-- The requests that move the session that makes them. -/
def walkTypes : List MessageType := [.roomJoin, .roomCreate, .roomLeave]

/-- The event moves the session. -/
def Moved (h : Hub) (e : Event) (d : ClientID) : Prop :=
  ∃ c m limited muted, e.input = .frame c m limited muted ∧
    ((c = d ∧ m.type ∈ walkTypes) ∨ h.evicts m d = true)

/-- Whoever is connected was there before, in the same room or among those who may move, or is
new and in the lobby. -/
def Rooms (moved : ClientID → Prop) (r r' : Registry) : Prop :=
  ∀ d ∈ r'.clients, ∀ o', r'.client? d = some o' →
    (d ∈ r.clients ∧ ∃ o, r.client? d = some o ∧ (o'.room = o.room ∨ moved d)) ∨
      (r.objects.length ≤ d ∧ o'.room = defaultRoomName)

variable {moved : ClientID → Prop} {r r' : Registry}

theorem rooms_of_settles (hs : Settles r r') : Rooms moved r r' := by
  intro d hd o' ho'
  exact (hs d hd o' ho').imp_left fun ⟨hd, o, ho, hroom⟩ => ⟨hd, o, ho, .inl hroom⟩

theorem rooms_of_walksTo {room : String} {who : ClientID → Prop} (hw : WalksTo room who r r')
    (hwho : ∀ d ∈ r.clients, who d → moved d) : Rooms moved r r' := by
  intro d hd o' ho'
  obtain ⟨hd, o, ho, hstand | ⟨hmove, -⟩⟩ := hw d hd o' ho'
  · exact .inl ⟨hd, o, ho, .inl (Prod.mk.inj hstand).1⟩
  · exact .inl ⟨hd, o, ho, .inr (hwho d hd hmove)⟩

theorem rooms_of_touches {parts : List Part} {types : List MessageType}
    (a : Touches parts types h k) (hp : .places ∉ parts) : Rooms moved h.registry k.registry :=
  rooms_of_settles (a.stays hp).settles

theorem settles_completeRegistration (env : Env) {obj : Client}
    (hobj : obj.room = defaultRoomName) :
    Settles h.registry (h.completeRegistration env obj).registry := by
  have henroll : Settles h.registry (enroll h.registry
      { obj with isAdmin := h.adminCode != "" && obj.normalizedCode == h.adminCode }) :=
    settles_enroll hobj
  exact henroll.fades (fades_completeRegistration env obj)

theorem settles_handleRegisterRequest (env : Env) {obj : Client}
    (hobj : obj.room = defaultRoomName) :
    Settles h.registry (h.handleRegisterRequest env obj).2.registry := by
  have hstay : Settles h.registry h.ensureLobby.registry := by
    rw [registry_ensureLobby]
    exact (Stays.refl _).settles
  unfold handleRegisterRequest
  split
  · exact (Stays.refl _).settles
  dsimp only
  split
  · split
    · rename_i active _ _
      have hleft : Moves False [.system] h.registry
          (h.ensureLobby.onRegistry fun r => r.unregisterClient env active).registry := by
        change Moves False [.system] h.registry (h.ensureLobby.registry.unregisterClient env active)
        rw [registry_ensureLobby]
        exact moves_unregisterClient (by decide) env active
      exact (settles_completeRegistration env hobj).after_stays hleft.stays hleft.length_le
    · exact hstay
  · split
    · exact hstay
    · have hlobby : h.ensureLobby.registry = h.registry := registry_ensureLobby
      rw [← hlobby]
      exact settles_completeRegistration env hobj

/-- A login makes at most a new session in the lobby. -/
theorem settles_login (env : Env) (username userCode : String) :
    Settles h.registry (h.login env username userCode).registry := by
  unfold login
  split
  · exact (Stays.refl _).settles
  split
  · split
    · exact (Stays.refl _).settles
    · rename_i chat _
      exact settles_handleRegisterRequest (h := { h with db := { h.db with chat } }) env rfl
  · exact settles_handleRegisterRequest env rfl

theorem rooms_handleRoomJoin (env : Env) (c : ClientID) (room : String) :
    Rooms (· = c) h.registry (h.handleRoomJoin env c room).registry := by
  have hquiet : ∀ {k : Hub}, Touches [] [.system, .error] h k →
      Rooms (· = c) h.registry k.registry := fun a => rooms_of_touches a (by decide)
  unfold handleRoomJoin
  split
  · exact hquiet (Touches.refl h)
  split
  · exact hquiet (Touches.refl h)
  split
  · exact hquiet (touches_deliverError (by decide) c _ _ _)
  split
  · exact hquiet (touches_deliverError (by decide) c _ _ _)
  split
  · exact hquiet (touches_deliverError (by decide) c _ _ _)
  split
  · exact hquiet (touches_tell (t := .system) rfl (by decide))
  · exact rooms_of_walksTo (walksTo_changeRoom env _ room) fun _ _ h => h

theorem rooms_handleRoomCreate (env : Env) (c : ClientID) (room : String) (isPrivate : Bool) :
    Rooms (· = c) h.registry (h.handleRoomCreate env c room isPrivate).registry := by
  have hquiet : ∀ {k : Hub}, Touches [] [.system, .error] h k →
      Rooms (· = c) h.registry k.registry := fun a => rooms_of_touches a (by decide)
  unfold handleRoomCreate
  split
  · exact hquiet (Touches.refl h)
  split
  · exact hquiet (Touches.refl h)
  split
  · exact hquiet (touches_deliverError (by decide) c _ _ _)
  split
  · exact hquiet (touches_deliverError (by decide) c _ _ _)
  dsimp only
  generalize hk : Hub.tell _ c _ = k
  have hfade : Fades h.registry k.registry := hk ▸ fades_tell c _
  intro d hd o' ho'
  rcases rooms_handleRoomJoin env c room d hd o' ho' with ⟨hd, o, ho, hroom⟩ | ⟨hnew, hroom⟩
  · obtain ⟨hd, o₀, ho₀, hstand⟩ := hfade.stays d hd o ho
    exact .inl ⟨hd, o₀, ho₀, hroom.imp_left fun heq => heq.trans (Prod.mk.inj hstand).1⟩
  · exact .inr ⟨hfade.length ▸ hnew, hroom⟩

theorem rooms_handleRoomLeave (env : Env) (c : ClientID) :
    Rooms (· = c) h.registry (h.handleRoomLeave env c).registry := by
  have hquiet : ∀ {k : Hub}, Touches [] [.system, .error] h k →
      Rooms (· = c) h.registry k.registry := fun a => rooms_of_touches a (by decide)
  unfold handleRoomLeave
  split
  · exact hquiet (Touches.refl h)
  split
  · exact hquiet (Touches.refl h)
  split
  · exact hquiet (touches_tell (t := .system) rfl (by decide))
  · exact rooms_of_walksTo (walksTo_changeRoom env _ defaultRoomName) fun _ _ h => h

theorem walksTo_evict_members (content : String) (l : List ClientID) (r : Registry) :
    WalksTo defaultRoomName (· ∈ l) r (l.foldl (fun r member => evict r member content) r) := by
  suffices h : ∀ l' ⊆ l, ∀ r, WalksTo defaultRoomName (· ∈ l) r
      (l'.foldl (fun r member => evict r member content) r) from h l (List.Subset.refl l) r
  intro l' hsub
  induction l' with
  | nil => exact fun r => (Stays.refl r).walksTo
  | cons c l' ih =>
    intro r
    have hc : c ∈ l := hsub List.mem_cons_self
    exact (walksTo_evict hc content).trans (ih (fun d hd => hsub (List.mem_cons_of_mem _ hd)) _)

/-- The members that the delete loop visits are in the room. -/
theorem rooms_deleteRoom (hs : Sound h.registry) (env : Env) (room : String) :
    Rooms (fun d => ∃ o, h.registry.client? d = some o ∧ o.room = room) h.registry
      (h.deleteRoom env room).registry := by
  refine rooms_of_walksTo (walksTo_evict_members _ (env.visit (h.registry.members room)) _) ?_
  intro d hd hmem
  obtain ⟨o, ho, -, -⟩ := hs.online d hd
  exact ⟨o, ho, hs.one_room d hd o ho room (mem_visit.1 hmem)⟩

theorem rooms_removeMember (c : ClientID) (room : String) (definition : RoomDefinition)
    (target : String) :
    Rooms (fun d => (∃ o, h.registry.client? d = some o ∧ o.room = room) ∧
      h.registry.active? target = some d) h.registry
      (h.removeMember c room definition target).registry := by
  have hwalk : WalksTo defaultRoomName (fun d => (∃ o, h.registry.client? d = some o ∧
      o.room = room) ∧ h.registry.active? target = some d) h.registry
      (h.removeMember c room definition target).registry := by
    unfold removeMember
    refine WalksTo.trans ?_ (fades_tell c _).stays.walksTo
    dsimp only
    split
    · rename_i d hactive
      split
      · rename_i hin
        obtain ⟨o, ho, hroom⟩ := (Option.any_eq_true _ _).1 hin
        exact walksTo_evict ⟨⟨o, ho, beq_iff_eq.1 hroom⟩, hactive⟩ _
      · exact (Stays.refl _).walksTo
    · exact (Stays.refl _).walksTo
  exact rooms_of_walksTo hwalk fun _ _ hmoved => hmoved

theorem Rooms.mono {moved' : ClientID → Prop} (hr : Rooms moved r r')
    (hsub : ∀ d, moved d → moved' d) : Rooms moved' r r' := by
  intro d hd o' ho'
  exact (hr d hd o' ho').imp_left fun ⟨hd, o, ho, hroom⟩ => ⟨hd, o, ho, hroom.imp_right (hsub d)⟩

theorem rooms_handleRoomAction (hs : Sound h.registry) (env : Env) (c : ClientID) {m : Message}
    (ht : m.type = .roomAction) :
    Rooms (fun d => h.evicts m d = true) h.registry
      (h.handleRoomAction env c m.content m.room m.targetUserCode).registry := by
  have hquiet : ∀ {k : Hub}, Touches [] [.system, .error] h k →
      Rooms (fun d => h.evicts m d = true) h.registry k.registry := fun a => rooms_of_touches a (by decide)
  unfold handleRoomAction
  split
  · exact hquiet (Touches.refl h)
  split
  · exact hquiet (Touches.refl h)
  split
  · exact hquiet (touches_deliverError (by decide) c _ _ _)
  split
  · exact hquiet (touches_deliverError (by decide) c _ _ _)
  rename_i hroom
  split
  · exact hquiet (touches_deliverError (by decide) c _ _ _)
  split
  · rename_i hdelete
    exact (rooms_deleteRoom hs env m.room).mono fun d hin =>
      evicts_of_member ht hroom hin (.inl hdelete)
  split
  · exact hquiet (touches_deliverError (by decide) c _ _ _)
  rename_i code hcode
  split
  · exact rooms_of_settles (fades_tell (r := h.registry) c _).stays.settles
  split
  · rename_i hremove
    refine (rooms_removeMember c m.room _ code).mono fun d hin => ?_
    have htarget : h.targetSession m = some d := by
      simp only [targetSession, hcode]
      exact hin.2
    exact evicts_of_member ht hroom hin.1 (.inr ⟨hremove, htarget⟩)
  · exact hquiet (Touches.refl h)

/-- A session that is connected after an event was there before in the same room, or was moved by
the event, or is new and in the lobby. -/
theorem rooms_step (platform : Platform) (hs : Sound h.registry) (e : Event) :
    Rooms (Moved h e) h.registry (step platform h e).registry := by
  have hown : ∀ {c : ClientID} {m : Message} {limited muted : Bool},
      e.input = .frame c m limited muted → m.type ∈ walkTypes → ∀ d, d = c → Moved h e d :=
    fun he hwalk d hd => ⟨_, _, _, _, he, .inl ⟨hd.symm, hwalk⟩⟩
  have hstep := roomStep platform hs e
  generalize step platform h e = k at hstep ⊢
  cases hstep with
  | quiet hp hd a => exact rooms_of_touches a hp
  | login username userCode he => exact rooms_of_settles (settles_login e.env username userCode)
  | join c obj m limited muted he hobj ht hreads hvalid =>
    exact (rooms_handleRoomJoin e.env c _).mono (hown he (by rw [ht]; decide))
  | create c obj m limited muted he hobj ht hreads hvalid =>
    exact (rooms_handleRoomCreate e.env c _ _).mono (hown he (by rw [ht]; decide))
  | leave c obj m limited muted he hobj ht hreads =>
    exact (rooms_handleRoomLeave e.env c).mono (hown he (by rw [ht]; decide))
  | action c obj m limited muted he hobj ht =>
    exact (rooms_handleRoomAction hs e.env c ht).mono fun d hev =>
      ⟨c, m, limited, muted, he, .inr hev⟩
  | restart adminCode he =>
    intro d hd
    cases hd

/-! ### A granted join -/

/-- The join passes every check of the Hub. -/
def grants (h : Hub) (c : ClientID) (m : Message) : Bool :=
  decide (m.commandID.utf8ByteSize ≤ maxCommandIDSize) && (validateRoomName m.room).isOk &&
    (h.registry.client? c).any fun obj =>
      (h.roomDefinitions.lookup m.room).any fun definition => canJoinRoom obj definition

theorem grants_iff {c : ClientID} {m : Message} : h.grants c m = true ↔
    m.commandID.utf8ByteSize ≤ maxCommandIDSize ∧ validateRoomName m.room = .ok () ∧
      ∃ obj, h.registry.client? c = some obj ∧
        ∃ definition, h.roomDefinitions.lookup m.room = some definition ∧
          canJoinRoom obj definition = true := by
  unfold grants
  simp only [Bool.and_eq_true, decide_eq_true_eq, isOk_iff, Option.any_eq_true, and_assoc]

/-- A session whose join is granted is in the room it asked for. -/
theorem room_after_join {platform : Platform} {e : Event} {c : ClientID} {m : Message}
    {muted : Bool} (he : e.input = .frame c m false muted) (ht : m.type = .roomJoin)
    (hready : h.readsFrames c = true) (hgrant : h.grants c m = true) {o' : Client}
    (hc : c ∈ (step platform h e).registry.clients)
    (ho' : (step platform h e).registry.client? c = some o') : o'.room = m.room := by
  obtain ⟨hcommand, hname, obj, hobj, definition, hdefinition, hjoin⟩ := grants_iff.1 hgrant
  have hvalid : validateMessage m = .ok () := by
    unfold validateMessage
    rw [ht, if_neg (by omega)]
    exact hname
  have hstep : step platform h e = h.handleRoomJoin e.env c m.room := by
    simp only [step, he]
    rw [readPump_of_ready hready hobj hcommand]
    simp only [dispatch, ht]
    unfold validated
    rw [if_pos (isOk_iff.2 hvalid)]
  rw [hstep] at hc ho'
  unfold handleRoomJoin at hc ho'
  simp only [hobj, hdefinition, hjoin, isOk_iff.2 hname, Bool.not_true, Bool.false_eq_true,
    if_false] at hc ho'
  split at hc
  · rename_i hcon
    rw [isConnected_iff.2 hc] at hcon
    cases hcon
  rename_i hcon
  rw [if_neg hcon] at ho'
  split at ho'
  · rename_i hroom
    obtain ⟨o, ho, hprofile⟩ := (fades_tell c _).client? ho'
    obtain rfl := Option.some_injective _ (hobj.symm.trans ho)
    have hsame : (profile obj).room = (profile o').room := by rw [hprofile]
    exact hsame.symm.trans hroom.symm
  · exact room_changeRoom ho'

/-! ### Chats -/

/-- A connected client among the given ones gets the message, and nobody else. -/
theorem emits_deliverToPeers {r : Registry} (sender : Option ClientID) (m : Message)
    (l : List ClientID) :
    Emits (fun x => x.1 ∈ l ∧ x.1 ∈ r.clients) r (deliverToPeers r sender m l).1 := by
  induction l generalizing r with
  | nil => exact Emits.refl r
  | cons c l ih =>
    have hfirst : Emits (fun x => x.1 ∈ c :: l ∧ x.1 ∈ r.clients) r (r.deliver c m).1 := by
      unfold Registry.deliver
      split_ifs with hcon hspace
      · refine ⟨[(c, m)], rfl, fun x hx => ?_⟩
        rw [List.mem_singleton.1 hx]
        exact ⟨List.mem_cons_self, isConnected_iff.1 hcon⟩
      · exact Emits.of_eq (sent_removeClient c)
      · exact Emits.refl r
    refine hfirst.trans ((ih (r := (r.deliver c m).1)).mono ?_)
    exact fun x hx => ⟨List.mem_cons_of_mem _ hx.1, (fades_deliver c m).clients _ hx.2⟩

/-- Chats among what was sent went to clients in the room. -/
def ChatsStay (room : String) (r r' : Registry) : Prop :=
  Emits (fun x => x.2.type = .chat → x.1 ∈ r.clients ∧ x.1 ∈ r.members room) r r'

theorem chatsStay_of_types {room : String} {types : List MessageType}
    (hm : Moves False types r r') (hchat : .chat ∉ types) : ChatsStay room r r' :=
  hm.emits.mono fun _ hx ht => absurd (ht ▸ hx) hchat

theorem chatsStay_relayChat (env : Env) (sender : Option ClientID) {room : String}
    (hroom : room ≠ "") (tracking : Bool) (message : Message) :
    ChatsStay room h.registry (h.relayChat env sender room tracking message).registry := by
  have hrecord : (h.recordMessage message (h.registry.recipientCodes (h.registry.roomClients room))
      "").registry = h.registry := by
    unfold recordMessage
    split <;> rfl
  have hpeers : ChatsStay room h.registry (deliverToPeers h.registry sender
      (wireMessage tracking message) (env.visit (h.registry.roomClients room))).1 := by
    refine (emits_deliverToPeers sender _ _).mono fun x hx _ => ⟨hx.2, ?_⟩
    have hmem := mem_visit.1 hx.1
    unfold roomClients at hmem
    rwa [if_neg hroom] at hmem
  unfold relayChat
  dsimp only
  rw [hrecord]
  generalize deliverToPeers _ _ _ _ = delivered at hpeers ⊢
  -- what follows the deliveries is a receipt or an error
  have htold : ∀ {k l : Hub} {types : List MessageType}, k.registry = delivered.1 →
      Touches [] types k l → .chat ∉ types → ChatsStay room h.registry l.registry := by
    intro k l types hk htouch hchat
    refine hpeers.trans ?_
    rw [← hk]
    exact htouch.moves.emits.mono fun x hx ht => absurd (ht ▸ hx) hchat
  split
  · exact hpeers
  split
  · exact hpeers
  split
  · exact htold rfl (touches_tell (t := .deliveryReceipt) rfl List.mem_cons_self)
      (by decide : MessageType.chat ∉ [.deliveryReceipt])
  split
  · exact htold rfl (touches_deliverError List.mem_cons_self _ _ _ _)
      (by decide : MessageType.chat ∉ [.error])
  · rename_i k hmark
    have hkept : k.registry = delivered.1 := registry_markDelivered hmark
    exact htold hkept (touches_tell (t := .deliveryReceipt) rfl List.mem_cons_self)
      (by decide : MessageType.chat ∉ [.deliveryReceipt])

theorem registry_saveChatMessage {env : Env} {message : Message} {x : Except GoError Bool}
    (hsave : h.saveChatMessage env message = (x, k)) : k.registry = h.registry := by
  unfold saveChatMessage at hsave
  split at hsave
  · obtain ⟨-, rfl⟩ := Prod.mk.inj hsave
    rfl
  · obtain ⟨-, rfl⟩ := Prod.mk.inj hsave
    rfl

theorem chatsStay_publishChat (platform : Platform) (env : Env) (tracking : Bool)
    {message : Message} (hroom : h.senderRoom (h.senderOf message.userCode) ≠ "") :
    ChatsStay (h.senderRoom (h.senderOf message.userCode)) h.registry
      (h.publishChat platform env tracking message).registry := by
  unfold publishChat
  dsimp only
  split
  · exact chatsStay_relayChat env _ hroom tracking _
  split
  · rename_i k hsave
    have hreg := registry_saveChatMessage hsave
    rw [← hreg]
    split
    · exact chatsStay_of_types (moves_deliverError List.mem_cons_self _ _ _ _)
        (by decide : MessageType.chat ∉ [.error])
    · exact Emits.refl _
  · rename_i k hsave
    have hreg := registry_saveChatMessage hsave
    rw [← hreg]
    unfold answerRetry
    split
    · exact Emits.refl _
    split
    · exact Emits.refl _
    split
    · exact chatsStay_of_types (moves_deliverError List.mem_cons_self _ _ _ _)
        (by decide : MessageType.chat ∉ [.error])
    · exact chatsStay_of_types (moves_tell List.mem_cons_self)
        (by decide : MessageType.chat ∉ [.deliveryReceipt])
  · rename_i k hsave
    have hreg := registry_saveChatMessage hsave
    rw [← hreg]
    exact chatsStay_relayChat env _ hroom tracking _

/-- The session that sends under its own code is the session itself. -/
theorem senderRoom_of_online (hs : Sound h.registry) {c : ClientID} {obj : Client}
    (hc : c ∈ h.registry.clients) (hobj : h.registry.client? c = some obj) :
    h.senderRoom (h.senderOf obj.userCode) = obj.room := by
  obtain ⟨o, ho, hactive, -⟩ := hs.online c hc
  obtain rfl := Option.some_injective _ (hobj.symm.trans ho)
  have hcode := (hs.valid obj (client?_mem hobj)).code
  simp only [senderOf, hcode, hactive, senderRoom, Option.bind_some, hobj]

/-- A chat frame sends chats only into the room of the session that it comes from. -/
theorem chatsStay_step (platform : Platform) (hs : Sound h.registry) {e : Event} {c : ClientID}
    {m : Message} {limited muted : Bool} (he : e.input = .frame c m limited muted)
    (ht : m.type = .chat) (hc : c ∈ h.registry.clients) {obj : Client}
    (hobj : h.registry.client? c = some obj) :
    ChatsStay obj.room h.registry (step platform h e).registry := by
  have hroom : obj.room ≠ "" := room_ne_empty (hs.valid obj (client?_mem hobj)).room
  have hquiet : ∀ {k : Hub}, Touches [] [.system, .error] h k →
      ChatsStay obj.room h.registry k.registry := fun a =>
    chatsStay_of_types (a.moves.mono (fun h => by cases h) (List.Subset.refl _)) (by decide)
  simp only [step, he]
  rcases readPump_cases (h := h) platform e.env c m limited muted with hq | ⟨o, ho, heq⟩
  · exact hquiet hq
  obtain rfl := Option.some_injective _ (hobj.symm.trans ho)
  rw [heq]
  simp only [dispatch, ht]
  split
  · exact hquiet (touches_deliverError (by decide) c _ _ _)
  unfold validated
  split
  swap
  · exact hquiet (touches_deliverError (by decide) c _ _ _)
  have hassign : (h.assignMessageID m.messageID).2.registry = h.registry := by
    unfold assignMessageID
    split <;> rfl
  have hsender : (h.assignMessageID m.messageID).2.senderRoom
      ((h.assignMessageID m.messageID).2.senderOf obj.userCode) = obj.room :=
    senderRoom_of_online (by rw [hassign]; exact hs) (by rw [hassign]; exact hc)
      (by rw [hassign]; exact hobj)
  have hpublish : ChatsStay _ (h.assignMessageID m.messageID).2.registry
      ((h.assignMessageID m.messageID).2.publishChat platform e.env (deliveryTracking m.messageID)
        { m with
          type := .chat, username := obj.username, userCode := obj.userCode
          messageID := (h.assignMessageID m.messageID).1 }).registry :=
    chatsStay_publishChat platform e.env _ (by rw [hsender]; exact hroom)
  rw [hassign, hsender] at hpublish
  exact hpublish

/-- A chat goes only to clients whose room is that of the session which sent it. -/
theorem chat_step (platform : Platform) (hs : Sound h.registry) {e : Event} {c : ClientID}
    {m : Message} {limited muted : Bool} (he : e.input = .frame c m limited muted)
    (ht : m.type = .chat) (hc : c ∈ h.registry.clients) {obj : Client}
    (hobj : h.registry.client? c = some obj) {d : ClientID} {x : Message}
    (hx : (d, x) ∈ sentBetween h (step platform h e)) (hxt : x.type = .chat) :
    ∃ o, h.registry.client? d = some o ∧ o.room = obj.room := by
  obtain ⟨hd, hmem⟩ := mem_sentBetween (chatsStay_step platform hs he ht hc hobj) hx hxt
  obtain ⟨o, ho, -, -⟩ := hs.online d hd
  exact ⟨o, ho, hs.one_room d hd o ho _ hmem⟩

end Hub

end LanChat
