import LanChat.Hub.GeneratedID
import LanChat.Hub.RoomLog

/-!
# The registry's maps agree

* `Consistent`: a client is in `Clients` exactly when `ActiveCodes` has it under its code and
  exactly when it is a member of its room; members are connected and in one room;
* `Tidy`: member sets have no duplicates and only connected clients.  With `Sound` it gives
  `Consistent`, and every move that does not walk keeps it;
* `consistent_of_roomy`: along every run in which nobody with a full queue walks.

The tail of `handleRoomJoin` and `handleRoomLeave` tells the old room first.  The walker is still
in it, so when its queue is full it is removed there, and then put into the new room all the same:
`removed_client_joins` ends with a member that has left `Clients`.
-/

namespace LanChat

namespace Registry

variable {r r' : Registry} {types : List MessageType} {c d : ClientID} {m : Message}

/-- `Clients`, `ActiveCodes` and `Rooms` say the same. -/
structure Consistent (r : Registry) : Prop where
  active_iff : ∀ c obj, r.client? c = some obj →
    (c ∈ r.clients ↔ r.active? obj.normalizedCode = some c)
  member_iff : ∀ c obj, r.client? c = some obj → (c ∈ r.clients ↔ c ∈ r.members obj.room)
  one_room : ∀ c obj, r.client? c = some obj → ∀ room, c ∈ r.members room → room = obj.room
  connected : ∀ room, ∀ c ∈ r.members room, c ∈ r.clients
  codes : ∀ c ∈ r.clients, ∀ d ∈ r.clients, ∀ o o', r.client? c = some o → r.client? d = some o' →
    o.normalizedCode = o'.normalizedCode → c = d

/-- Member sets have no duplicates and only connected clients. -/
structure Tidy (r : Registry) : Prop where
  nodup : ∀ room, (r.members room).Nodup
  connected : ∀ room, ∀ c ∈ r.members room, c ∈ r.clients

theorem Tidy.consistent (ht : Tidy r) (hs : Sound r) : Consistent r where
  active_iff c obj hobj := by
    constructor
    · intro hc
      obtain ⟨o, ho, hactive, -⟩ := hs.online c hc
      obtain rfl := Option.some_injective _ (hobj.symm.trans ho)
      exact hactive
    · exact fun hactive => (hs.active _ c hactive).1
  member_iff c obj hobj := by
    constructor
    · intro hc
      obtain ⟨o, ho, -, hin⟩ := hs.online c hc
      obtain rfl := Option.some_injective _ (hobj.symm.trans ho)
      exact hin
    · exact ht.connected obj.room c
  one_room c obj hobj room hin := (hs.one_room c (ht.connected room c hin) obj hobj room hin).symm
  connected := ht.connected
  codes c hc d hd o o' ho ho' hcode := by
    obtain ⟨o₁, ho₁, hactive, -⟩ := hs.online c hc
    obtain ⟨o₂, ho₂, hactive', -⟩ := hs.online d hd
    obtain rfl := Option.some_injective _ (ho.symm.trans ho₁)
    obtain rfl := Option.some_injective _ (ho'.symm.trans ho₂)
    rw [← hcode, hactive] at hactive'
    exact Option.some_injective _ hactive'

/-! ### Moves that do not walk -/

/-- Same clients, and no more members than before. -/
theorem Tidy.of_sub (ht : Tidy r) (hclients : r'.clients = r.clients)
    (hmembers : ∀ room, (r'.members room).Sublist (r.members room)) : Tidy r' := by
  refine ⟨fun room => (hmembers room).nodup (ht.nodup room), fun room c hc => ?_⟩
  rw [hclients]
  exact ht.connected room c ((hmembers room).subset hc)

theorem Tidy.modifyClient (ht : Tidy r) (c : ClientID) (f : Client → Client) :
    Tidy (r.modifyClient c f) := ht.of_sub rfl fun _ => List.Sublist.refl _

theorem Tidy.enqueue (ht : Tidy r) (c : ClientID) (m : Message) : Tidy (r.enqueue c m) :=
  ht.of_sub rfl fun _ => List.Sublist.refl _

/-- A client that goes leaves no member set behind, since it was in one room only. -/
theorem Tidy.removeClient (ht : Tidy r) (hs : Sound r) (c : ClientID) :
    Tidy (r.removeClient c) := by
  cases hc : r.client? c with
  | none =>
    have hsame : r.removeClient c = r := by simp only [Registry.removeClient, hc]
    rwa [hsame]
  | some obj =>
    have hmembers := members_removeClient hc (hs.valid obj (client?_mem hc))
    refine ⟨fun room => ?_, fun room d hd => ?_⟩
    · rw [hmembers]
      split
      · exact (ht.nodup room).filter _
      · exact ht.nodup room
    · rw [hmembers] at hd
      rw [clients_removeClient hc, List.mem_filter]
      split at hd
      · obtain ⟨hd, hne⟩ := List.mem_filter.1 hd
        exact ⟨ht.connected room d hd, hne⟩
      · rename_i hroom
        have hdc := ht.connected room d hd
        refine ⟨hdc, decide_eq_true fun hdc' => hroom ?_⟩
        subst hdc'
        exact (hs.one_room d hdc obj hc room hd).symm

theorem Tidy.deliver (ht : Tidy r) (hs : Sound r) (c : ClientID) (m : Message) :
    Tidy (r.deliver c m).1 := by
  unfold Registry.deliver
  split_ifs
  · exact ht.enqueue c m
  · exact (ht.removeClient hs c).modifyClient c _
  · exact ht

theorem Tidy.dropRoom (ht : Tidy r) (room : String) :
    Tidy { r with rooms := r.rooms.erase room } := by
  refine ht.of_sub rfl fun x => ?_
  unfold members
  by_cases hx : x = room
  · subst hx
    rw [AList.lookup_erase]
    exact List.nil_sublist _
  · rw [AList.lookup_erase_ne hx]

theorem Move.tidy (h : Move False types r r') (hs : Sound r) (ht : Tidy r) : Tidy r' := by
  cases h with
  | deliver c m hm => exact ht.deliver hs c m
  | remove c => exact ht.removeClient hs c
  | close c => exact ht.modifyClient c _
  | go c room hw hc hroom => exact hw.elim
  | mute c => exact ht.modifyClient c _
  | pump c => exact ht.modifyClient c _
  | enroll obj hw => exact hw.elim
  | dropRoom room hempty => exact ht.dropRoom room
  | load c stage replay => exact ht.modifyClient c _
  | push c obj message rest hc hobj hm => exact (ht.modifyClient c _).enqueue c message

/-- Moves that do not walk keep both. -/
theorem Moves.tidy (h : Moves False types r r') (hs : Sound r) (ht : Tidy r) :
    Sound r' ∧ Tidy r' :=
  h.preserves (I := fun r => Sound r ∧ Tidy r)
    (fun _ _ hmove hr => ⟨hmove.sound hr.1, hmove.tidy hr.1 hr.2⟩) ⟨hs, ht⟩

/-! ### Coming and walking -/

theorem members_enroll (obj : Client) (x : String) :
    (Hub.enroll r obj).members x =
      if x = obj.room then (r.members obj.room).insert r.objects.length else r.members x :=
  members_addToRoom (r := { r with
    objects := r.objects ++ [obj]
    usedCodes := r.usedCodes.insert obj.normalizedCode
    activeCodes := r.activeCodes.insert obj.normalizedCode r.objects.length
    clients := r.clients.insert r.objects.length }) r.objects.length obj.room x

theorem Tidy.enroll (ht : Tidy r) (obj : Client) : Tidy (Hub.enroll r obj) := by
  refine ⟨fun room => ?_, fun room d hd => ?_⟩
  · rw [members_enroll]
    split
    · exact (ht.nodup obj.room).insert
    · exact ht.nodup room
  · rw [mem_clients_enroll]
    exact (mem_members_enroll obj d room).1 hd |>.imp (fun h => h.2) (ht.connected room d)

theorem members_moveTo (c : ClientID) (room x : String) :
    (r.moveTo c room).members x =
      if x = room then ((r.removeFromRoom c).members room).insert c
      else (r.removeFromRoom c).members x :=
  members_addToRoom (r := (r.removeFromRoom c).setRoom c room) c room x

/-- A connected client walks. -/
theorem Tidy.moveTo (ht : Tidy r) (hs : Sound r) (hc : c ∈ r.clients) (room : String) :
    Tidy (r.moveTo c room) := by
  obtain ⟨obj, hobj, -, -⟩ := hs.online c hc
  have hroom : obj.room ≠ "" := room_ne_empty (hs.valid obj (client?_mem hobj)).room
  have hleft : ∀ x, ((r.removeFromRoom c).members x).Nodup := by
    intro x
    rw [members_removeFromRoom hobj hroom]
    split
    · exact (ht.nodup x).filter _
    · exact ht.nodup x
  have hclients : (r.moveTo c room).clients = r.clients := clients_removeFromRoom c
  refine ⟨fun x => ?_, fun x d hd => ?_⟩
  · rw [members_moveTo]
    split
    · exact (hleft room).insert
    · exact hleft x
  · rw [hclients]
    rcases (mem_members_moveTo hobj hroom d room x).1 hd with ⟨-, rfl⟩ | ⟨hd, -⟩
    · exact hc
    · exact ht.connected x d hd

/-- A message to several clients, each told once, removes nobody who has a free place. -/
theorem mem_clients_tellAll {l : List ClientID} (hl : l.Nodup) (hc : c ∈ r.clients)
    (hspace : c ∈ l → r.hasSpace c = true) (m : Message) : c ∈ (r.tellAll l m).clients := by
  induction l generalizing r with
  | nil => exact hc
  | cons d l ih =>
    obtain ⟨hd, hl⟩ := List.nodup_cons.1 hl
    change c ∈ ((r.tell d m).tellAll l m).clients
    by_cases hdc : d = c
    · subst hdc
      have htold : r.tell d m = r.enqueue d m := by
        unfold tell
        rw [deliver_of_hasSpace hc (hspace List.mem_cons_self)]
      rw [htold]
      exact ih hl hc fun h => absurd h hd
    · refine ih hl (mem_clients_deliver_of_ne hdc hc) fun hmem => ?_
      change (r.deliver d m).1.hasSpace c = true
      rw [hasSpace_deliver_of_ne hdc]
      exact hspace (List.mem_cons_of_mem d hmem)

theorem nodup_visit {env : Env} {l : List ClientID} (hl : l.Nodup) : (env.visit l).Nodup :=
  (List.perm_insertionSort _ l).nodup_iff.2 hl

theorem mem_clients_broadcast (ht : Tidy r) (hc : c ∈ r.clients) (hspace : r.hasSpace c = true)
    (env : Env) (room content : String) :
    c ∈ (r.broadcastSystemMessageToRoom env room content).clients := by
  unfold broadcastSystemMessageToRoom
  split
  · exact hc
  · exact mem_clients_tellAll (nodup_visit (ht.nodup room)) hc (fun _ => hspace) _

/-- A client with a free place walks. -/
theorem Tidy.changeRoom (ht : Tidy r) (hs : Sound r) (hc : c ∈ r.clients)
    (hspace : r.hasSpace c = true) (env : Env) (obj : Client) {room : String}
    (hroom : validateRoomName room = .ok ()) : Tidy (r.changeRoom env c obj room) := by
  unfold Registry.changeRoom
  have hleft : Moves False [.system] r (r.broadcastSystemMessageToRoom env obj.room
      (presenceMessage obj ("left room " ++ obj.room))) :=
    moves_broadcastSystemMessageToRoom List.mem_cons_self env _ _
  have hstill := mem_clients_broadcast ht hc hspace env obj.room
    (presenceMessage obj ("left room " ++ obj.room))
  generalize r.broadcastSystemMessageToRoom env obj.room _ = r₁ at hleft hstill
  obtain ⟨hs₁, ht₁⟩ := hleft.tidy hs ht
  obtain ⟨o, ho, -, -⟩ := hs₁.online c hstill
  have hjoined : Moves False [.system] (r₁.moveTo c room)
      ((r₁.moveTo c room).broadcastSystemMessageToRoom env room
        (presenceMessage obj ("joined room " ++ room))) :=
    moves_broadcastSystemMessageToRoom List.mem_cons_self env _ _
  exact (hjoined.tidy (hs₁.moveTo (client?_lt ho) hroom) (ht₁.moveTo hs₁ hstill room)).2

/-- A connected client is sent to the lobby; nobody else can be removed by it. -/
theorem tidy_evict (ht : Tidy r) (hs : Sound r) (hc : c ∈ r.clients) (content : String) :
    (Sound (Hub.evict r c content) ∧ Tidy (Hub.evict r c content)) ∧
      ∀ d ∈ r.clients, d ≠ c → d ∈ (Hub.evict r c content).clients := by
  obtain ⟨obj, hobj, -, -⟩ := hs.online c hc
  have hs₁ := hs.moveTo (client?_lt hobj) validateRoomName_defaultRoomName
  have ht₁ := ht.moveTo hs hc defaultRoomName
  refine ⟨⟨hs₁.deliver c _, ht₁.deliver hs₁ c _⟩, fun d hd hne => ?_⟩
  refine mem_clients_deliver_of_ne (Ne.symm hne) ?_
  rwa [show (r.moveTo c defaultRoomName).clients = r.clients from clients_removeFromRoom c]

/-- The loop of a delete: the members it still has to visit stay connected. -/
theorem tidy_evict_foldl {l : List ClientID} (hl : l.Nodup) (ht : Tidy r) (hs : Sound r)
    (hconnected : ∀ c ∈ l, c ∈ r.clients) (content : String) :
    Sound (l.foldl (fun r member => Hub.evict r member content) r) ∧
      Tidy (l.foldl (fun r member => Hub.evict r member content) r) := by
  induction l generalizing r with
  | nil => exact ⟨hs, ht⟩
  | cons c l ih =>
    obtain ⟨hc, hl⟩ := List.nodup_cons.1 hl
    obtain ⟨⟨hs₁, ht₁⟩, hothers⟩ := tidy_evict ht hs (hconnected c List.mem_cons_self) content
    refine ih hl ht₁ hs₁ fun d hd => hothers d (hconnected d (List.mem_cons_of_mem c hd)) ?_
    rintro rfl
    exact hc hd

end Registry

namespace Hub

open GoStrings Registry EventMachine

variable {h k : Hub}

/-! ### Who walks -/

/-- The send queue of the client has one free place. -/
def lastPlace (h : Hub) (c : ClientID) : Bool :=
  (h.registry.client? c).any fun obj => obj.send.length + 1 == clientSendBufferSize

/-- The client may join the room, and is in another one. -/
def mayEnter (h : Hub) (c : ClientID) (room : String) : Bool :=
  (h.registry.client? c).any fun obj =>
    (h.roomDefinitions.lookup room).any (fun definition => canJoinRoom obj definition) &&
      obj.room != room

/-- The event makes a client walk whose queue is full when its old room is told.  A creation is
announced to its owner first, which takes the last free place. -/
def squeezes (h : Hub) (e : Event) : Bool :=
  match e.input with
  | .frame c m limited _ =>
    h.reads c m limited &&
      match m.type with
      | .roomJoin => (validateMessage m).isOk && h.mayEnter c m.room && !h.registry.hasSpace c
      | .roomCreate => (validateMessage m).isOk && (h.roomDefinitions.lookup m.room).isNone &&
          (h.registry.client? c).any (fun obj => obj.room != m.room) && h.lastPlace c
      | .roomLeave => (h.registry.client? c).any (fun obj => obj.room != defaultRoomName) &&
          !h.registry.hasSpace c
      | _ => false
  | _ => false

/-! ### The handlers that walk -/

/-- Deliveries and other moves that do not walk keep a tidy registry tidy. -/
theorem tidy_of_touches {parts : List Part} {types : List MessageType} (hs : Sound h.registry)
    (ht : Tidy h.registry) (a : Touches parts types h k) (hp : .places ∉ parts) :
    Tidy k.registry :=
  ((a.moves.mono hp (List.Subset.refl types)).tidy hs ht).2

section handlers

variable (hs : Sound h.registry) (ht : Tidy h.registry) (env : Env) (c : ClientID)
include hs ht

theorem tidy_handleRoomJoin {room : String}
    (hroomy : h.registry.isConnected c = true → h.mayEnter c room = true →
      h.registry.hasSpace c = true) : Tidy (h.handleRoomJoin env c room).registry := by
  have hquiet : ∀ {k : Hub}, Touches [] [.system, .error] h k → Tidy k.registry := fun a =>
    tidy_of_touches hs ht a (by decide)
  unfold handleRoomJoin
  split
  · exact ht
  rename_i obj hobj
  split
  · exact ht
  rename_i hcon
  split
  · exact hquiet (touches_deliverError (by decide) c _ _ _)
  rename_i hname
  split
  · exact hquiet (touches_deliverError (by decide) c _ _ _)
  rename_i definition hdefinition
  split
  · exact hquiet (touches_deliverError (by decide) c _ _ _)
  rename_i hjoin
  split
  · exact hquiet (touches_tell (t := .system) rfl (by decide))
  rename_i hother
  have hconnected : h.registry.isConnected c = true := by simpa using hcon
  have henter : h.mayEnter c room = true := by
    unfold mayEnter
    rw [hobj, Option.any_some, hdefinition, Option.any_some]
    simpa [Ne.symm hother] using hjoin
  exact ht.changeRoom hs (isConnected_iff.1 hconnected) (hroomy hconnected henter) env obj
    (isOk_iff.1 (by simpa using hname))

theorem tidy_handleRoomLeave
    (hroomy : h.registry.isConnected c = true →
      (h.registry.client? c).any (fun obj => obj.room != defaultRoomName) = true →
      h.registry.hasSpace c = true) : Tidy (h.handleRoomLeave env c).registry := by
  unfold handleRoomLeave
  split
  · exact ht
  rename_i obj hobj
  split
  · exact ht
  rename_i hcon
  split
  · exact ht.deliver hs c _
  rename_i hother
  have hconnected : h.registry.isConnected c = true := by simpa using hcon
  refine ht.changeRoom hs (isConnected_iff.1 hconnected) (hroomy hconnected ?_) env obj
    validateRoomName_defaultRoomName
  rw [hobj, Option.any_some]
  simpa using hother

theorem tidy_handleRoomCreate {room : String} (isPrivate : Bool)
    (hroomy : h.registry.isConnected c = true → (h.roomDefinitions.lookup room).isNone = true →
      (h.registry.client? c).any (fun obj => obj.room != room) = true → h.lastPlace c = false) :
    Tidy (h.handleRoomCreate env c room isPrivate).registry := by
  have hquiet : ∀ {k : Hub}, Touches [] [.system, .error] h k → Tidy k.registry := fun a =>
    tidy_of_touches hs ht a (by decide)
  unfold handleRoomCreate
  split
  · exact ht
  rename_i obj hobj
  split
  · exact ht
  rename_i hcon
  split
  · exact hquiet (touches_deliverError (by decide) c _ _ _)
  split
  · exact hquiet (touches_deliverError (by decide) c _ _ _)
  rename_i hnone
  have hconnected : h.registry.isConnected c = true := by simpa using hcon
  dsimp only
  generalize hk : Hub.tell _ c _ = k
  have hreg : ∃ m, k.registry = (h.registry.deliver c m).1 := ⟨_, by rw [← hk]; rfl⟩
  obtain ⟨m, hreg⟩ := hreg
  refine tidy_handleRoomJoin (hreg ▸ hs.deliver c m) (hreg ▸ ht.deliver hs c m) env c ?_
  intro hstill henter
  -- the owner is still connected, so it had a free place for the announcement
  by_cases hspace : h.registry.hasSpace c = true
  · rw [deliver_of_hasSpace (isConnected_iff.1 hconnected) hspace] at hreg
    have hobj' : k.registry.client? c = some { obj with send := obj.send ++ [m] } := by
      rw [hreg]
      change (h.registry.modifyClient c _).client? c = _
      rw [client?_modifyClient, if_pos rfl, hobj]
      rfl
    have hother : obj.room ≠ room := by
      unfold mayEnter at henter
      rw [hobj', Option.any_some] at henter
      simpa using (Bool.and_eq_true_iff.1 henter).2
    have hlast := hroomy hconnected (by simpa using hnone)
      (by rw [hobj, Option.any_some]; simpa using hother)
    unfold lastPlace at hlast
    unfold hasSpace at hspace ⊢
    rw [hobj, Option.any_some] at hlast hspace
    rw [hobj', Option.any_some]
    simp only [beq_eq_false_iff_ne, decide_eq_true_eq, List.length_append, List.length_singleton]
      at hlast hspace ⊢
    omega
  · rw [deliver_of_full (isConnected_iff.1 hconnected) (by simpa using hspace)] at hreg
    have hmem := isConnected_iff.1 hstill
    rw [hreg] at hmem
    change c ∈ (h.registry.removeClient c).clients at hmem
    rw [clients_removeClient hobj, List.mem_filter] at hmem
    simp at hmem

theorem tidy_deleteRoom (room : String) : Tidy (h.deleteRoom env room).registry := by
  have hvisit : (env.visit (h.registry.members room)).Nodup := nodup_visit (ht.nodup room)
  obtain ⟨-, ht'⟩ := tidy_evict_foldl hvisit ht hs
    (fun c hc => ht.connected room c (mem_visit.1 hc)) ("Channel #" ++ room ++ " was deleted")
  exact ht'.dropRoom room

theorem tidy_removeMember (room : String) (definition : RoomDefinition) (target : String) :
    Tidy (h.removeMember c room definition target).registry := by
  unfold removeMember
  dsimp only
  split
  · rename_i d hactive
    split
    · obtain ⟨⟨hs', ht'⟩, -⟩ := tidy_evict ht hs (hs.active target d hactive).1
        ("You were removed from #" ++ room)
      exact ht'.deliver hs' c _
    · exact ht.deliver hs c _
  · exact ht.deliver hs c _

theorem tidy_handleRoomAction (action room targetCode : String) :
    Tidy (h.handleRoomAction env c action room targetCode).registry := by
  have hquiet : ∀ {k : Hub}, Touches [] [.system, .error] h k → Tidy k.registry := fun a =>
    tidy_of_touches hs ht a (by decide)
  unfold handleRoomAction
  split
  · exact ht
  split
  · exact ht
  split
  · exact hquiet (touches_deliverError (by decide) c _ _ _)
  split
  · exact hquiet (touches_deliverError (by decide) c _ _ _)
  split
  · exact hquiet (touches_deliverError (by decide) c _ _ _)
  split
  · exact tidy_deleteRoom hs ht env room
  split
  · exact hquiet (touches_deliverError (by decide) c _ _ _)
  split
  · exact ht.deliver hs c _
  split
  · exact tidy_removeMember hs ht c room _ _
  · exact ht

end handlers

/-! ### Registration -/

theorem tidy_completeRegistration (hs : Sound h.registry) (ht : Tidy h.registry) (env : Env)
    {obj : Client} (hobj : ValidClient obj)
    (hfree : h.registry.active? obj.normalizedCode = none) :
    Tidy (h.completeRegistration env obj).registry := by
  have hvalid : ValidClient
      { obj with isAdmin := h.adminCode != "" && obj.normalizedCode == h.adminCode } :=
    ⟨hobj.code, hobj.room, hobj.replay⟩
  have hs' := hs.enroll hvalid hfree
  have ht' := ht.enroll
    { obj with isAdmin := h.adminCode != "" && obj.normalizedCode == h.adminCode }
  unfold completeRegistration onRegistry
  dsimp only
  generalize enroll h.registry _ = r at hs' ht'
  have hann : Moves False adminTypes r (r.broadcastSystemMessageToRoom env obj.room
      (presenceMessage obj "joined the chat")) :=
    moves_broadcastSystemMessageToRoom (by decide) env _ _
  split
  · exact ((hann.trans (moves_tellApprovals env h.approvals _)).tidy hs' ht').2
  · exact (hann.tidy hs' ht').2

theorem tidy_handleRegisterRequest (hs : Sound h.registry) (ht : Tidy h.registry) (env : Env)
    {obj : Client} (hobj : ValidClient obj) :
    Tidy (h.handleRegisterRequest env obj).2.registry := by
  have hlobby : h.ensureLobby.registry = h.registry := registry_ensureLobby
  unfold handleRegisterRequest
  split
  · exact ht
  dsimp only
  split
  · rename_i active hactive
    rw [hlobby] at hactive
    split
    · have hleft : Moves False [.system] h.registry (h.registry.unregisterClient env active) :=
        moves_unregisterClient (by decide) env active
      obtain ⟨hs', ht'⟩ := hleft.tidy hs ht
      have hreg : (h.ensureLobby.onRegistry fun r => r.unregisterClient env active).registry =
          h.registry.unregisterClient env active := by
        rw [← hlobby]
        rfl
      refine tidy_completeRegistration (hreg ▸ hs') (hreg ▸ ht') env hobj ?_
      rw [hreg]
      exact active?_unregisterClient hs env hactive
    · exact hlobby ▸ ht
  · rename_i hfree
    split
    · exact hlobby ▸ ht
    · exact tidy_completeRegistration (hlobby ▸ hs) (hlobby ▸ ht) env hobj hfree

theorem tidy_login (hs : Sound h.registry) (ht : Tidy h.registry) (env : Env)
    (username userCode : String) : Tidy (h.login env username userCode).registry := by
  unfold login
  split
  · exact ht
  rename_i hvalid
  have hcode := validateUserCode_of_login (isOk_iff.1 (by simpa using hvalid))
  split
  · split
    · exact ht
    · rename_i account chat hident
      have haccount := validateUserCode_of_asciiLower_eq
        (asciiLower_of_ensureIdentity (call_eq_ok.1 hident).2) hcode
      exact tidy_handleRegisterRequest (h := { h with db := { h.db with chat } }) hs ht env
        (validClient_newClient account.username true haccount)
  · exact tidy_handleRegisterRequest hs ht env (validClient_newClient username false hcode)

/-! ### Every event -/

theorem tidy_step (platform : Platform) (hs : Sound h.registry) (ht : Tidy h.registry) (e : Event)
    (hroomy : h.squeezes e = false) : Tidy (step platform h e).registry := by
  have hstep := roomStep platform hs e
  generalize step platform h e = k at hstep ⊢
  cases hstep with
  | quiet hp hd a => exact tidy_of_touches hs ht a hp
  | login username userCode he => exact tidy_login hs ht e.env username userCode
  | join c obj m limited muted he hobj htype hreads hvalid =>
    refine tidy_handleRoomJoin hs ht e.env c fun hconnected henter => ?_
    simp only [squeezes, he] at hroomy
    simpa [htype, hreads hconnected, isOk_iff.2 hvalid, henter] using hroomy
  | create c obj m limited muted he hobj htype hreads hvalid =>
    refine tidy_handleRoomCreate hs ht e.env c m.isPrivate fun hconnected hnone hother => ?_
    simp only [squeezes, he] at hroomy
    simpa only [htype, hreads hconnected, isOk_iff.2 hvalid, hnone, hother, Bool.true_and]
      using hroomy
  | leave c obj m limited muted he hobj htype hreads =>
    refine tidy_handleRoomLeave hs ht e.env c fun hconnected hother => ?_
    simp only [squeezes, he] at hroomy
    simpa only [htype, hreads hconnected, hother, Bool.true_and, Bool.not_eq_false'] using hroomy
  | action c obj m limited muted he hobj htype => exact tidy_handleRoomAction hs ht e.env c _ _ _
  | restart adminCode he =>
    exact ⟨fun room => List.nodup_nil, fun room c hc => by cases hc⟩

/-- The maps agree in every state of every run in which nobody with a full queue walks. -/
theorem consistent_of_roomy (platform : Platform) (adminCode : String) (offlineStore : Bool)
    (events : List Event)
    (hroomy : Along (step platform) (fun h e => h.squeezes e = false)
      (start adminCode offlineStore) events) :
    Consistent (run (step platform) (start adminCode offlineStore) events).registry := by
  have hinv := run_invariant_along (step platform)
    (I := fun h => Sound h.registry ∧ Tidy h.registry)
    (fun h e hroomy hi => ⟨sound_step platform h e hi.1, tidy_step platform hi.1 hi.2 e hroomy⟩)
    (s := start adminCode offlineStore)
    ⟨sound_start adminCode offlineStore, fun room => List.nodup_nil, fun room c hc => by cases hc⟩
    hroomy
  exact hinv.2.consistent hinv.1

/-- Alice logs in and creates a room. -/
theorem consistent_of_roomy_creation :
    Consistent (run (step samplePlatform) (start "" false)
      [⟨.login "Alice" "alice", {}⟩, frameEvent 0 { type := .roomCreate, room := "den" }]).registry :=
  consistent_of_roomy samplePlatform "" false _ (by decide +kernel)

/-- Alice is in her room with a full queue and leaves. -/
theorem removed_client_joins :
    ¬ Consistent (run (step samplePlatform) (start "" false)
      ([⟨.login "Alice" "alice", {}⟩, frameEvent 0 { type := .roomCreate, room := "den" }] ++
        List.replicate 252 (frameEvent 0 { type := .roomJoin, room := "den" }) ++
        [frameEvent 0 { type := .roomLeave }])).registry := by
  intro hc
  obtain ⟨hmember, hgone⟩ :
      0 ∈ (run (step samplePlatform) (start "" false)
        ([⟨.login "Alice" "alice", {}⟩, frameEvent 0 { type := .roomCreate, room := "den" }] ++
          List.replicate 252 (frameEvent 0 { type := .roomJoin, room := "den" }) ++
          [frameEvent 0 { type := .roomLeave }])).registry.members defaultRoomName ∧
      0 ∉ (run (step samplePlatform) (start "" false)
        ([⟨.login "Alice" "alice", {}⟩, frameEvent 0 { type := .roomCreate, room := "den" }] ++
          List.replicate 252 (frameEvent 0 { type := .roomJoin, room := "den" }) ++
          [frameEvent 0 { type := .roomLeave }])).registry.clients := by decide +kernel
  exact hgone (hc.connected defaultRoomName 0 hmember)

end Hub

end LanChat
