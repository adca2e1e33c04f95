import LanChat.Hub.Rooms
import Mathlib.Logic.Relation

/-!
# How the registry changes

Every handler changes the registry by a sequence of a few primitive moves.

* `Registry.Move walks types`, `Registry.Moves walks types`: one move, and any number of them, that
  send only messages of the given types; clients come or change rooms only when `walks` holds;
* `Registry.Stays r r'`: nobody came or changed rooms, as in moves that do not walk;
* `Registry.Emits P r r'`: what `r'` has sent beyond `r` satisfies `P`;
* `Registry.Sound`: connected clients, active codes and rooms agree; every move keeps it.

A client whose queue overflows while its own move is announced stays in the member set of a room
after it has left `Clients`, so `Sound` says nothing about members that are not connected.
-/

namespace LanChat

namespace Registry

open GoStrings

variable {r r' r'' : Registry} {P Q : ClientID × Message → Prop} {walks : Prop}
  {types : List MessageType}

/-- The message types of the replay after a login. -/
def replayTypes : List MessageType := [.offlineMessage, .mlsGroupWelcome]

/-- What registration, `SetRoom` and the replay keep about a client object. -/
structure ValidClient (obj : Client) : Prop where
  code : normalizeUserCode obj.userCode = .ok obj.normalizedCode
  room : validateRoomName obj.room = .ok ()
  replay : ∀ m ∈ obj.replay, m.type ∈ replayTypes

/-- One primitive change, which sends only messages of the given types; only when `walks` holds a
client may come or change rooms. -/
inductive Move (walks : Prop) (types : List MessageType) : Registry → Registry → Prop
  | deliver (r : Registry) (c : ClientID) (m : Message) (hm : m.type ∈ types) :
      Move walks types r (r.deliver c m).1
  | remove (r : Registry) (c : ClientID) : Move walks types r (r.removeClient c)
  | close (r : Registry) (c : ClientID) : Move walks types r (r.closeSend c)
  | go (r : Registry) (c : ClientID) (room : String) (hw : walks) (hc : c < r.objects.length)
      (hroom : validateRoomName room = .ok ()) : Move walks types r (r.moveTo c room)
  | mute (r : Registry) (c : ClientID) :
      Move walks types r (r.modifyClient c fun o => { o with muted := !o.muted })
  | pump (r : Registry) (c : ClientID) :
      Move walks types r (r.modifyClient c fun o => { o with send := o.send.tail })
  | enroll (r : Registry) (obj : Client) (hw : walks) (hobj : ValidClient obj)
      (hnew : obj.send = [] ∧ obj.replay = []) (hfree : r.active? obj.normalizedCode = none) :
      Move walks types r (Hub.enroll r obj)
  | dropRoom (r : Registry) (room : String)
      (hempty : ∀ c ∈ r.clients, ∀ obj, r.client? c = some obj → obj.room ≠ room) :
      Move walks types r { r with rooms := r.rooms.erase room }
  | load (r : Registry) (c : ClientID) (stage : LoginStage) (replay : List Message)
      (hreplay : ∀ m ∈ replay, m.type ∈ replayTypes) (htypes : ∀ m ∈ replay, m.type ∈ types)
      (hload : ∃ t ∈ replayTypes, t ∈ types) :
      Move walks types r (r.modifyClient c fun o => { o with stage, replay })
  | push (r : Registry) (c : ClientID) (obj : Client) (message : Message) (rest : List Message)
      (hc : r.client? c = some obj) (hobj : obj.replay = message :: rest)
      (hm : message.type ∈ types) :
      Move walks types r ((r.modifyClient c fun o => { o with replay := rest }).enqueue c message)

/-- Any number of moves. -/
def Moves (walks : Prop) (types : List MessageType) : Registry → Registry → Prop :=
  Relation.ReflTransGen (Move walks types)

theorem Move.moves (h : Move walks types r r') : Moves walks types r r' :=
  Relation.ReflTransGen.single h

theorem Moves.refl (r : Registry) : Moves walks types r r := Relation.ReflTransGen.refl

theorem Moves.trans (h : Moves walks types r r') (h' : Moves walks types r' r'') :
    Moves walks types r r'' := Relation.ReflTransGen.trans h h'

theorem Move.mono {walks' : Prop} {types' : List MessageType} (hw : walks → walks')
    (hsub : types ⊆ types') (h : Move walks types r r') : Move walks' types' r r' := by
  cases h with
  | deliver c m hm => exact .deliver r c m (hsub hm)
  | remove c => exact .remove r c
  | close c => exact .close r c
  | go c room hgo hc hroom => exact .go r c room (hw hgo) hc hroom
  | mute c => exact .mute r c
  | pump c => exact .pump r c
  | enroll obj hgo hobj hnew hfree => exact .enroll r obj (hw hgo) hobj hnew hfree
  | dropRoom room hempty => exact .dropRoom r room hempty
  | load c stage replay hreplay htypes hload =>
    obtain ⟨t, ht, hmem⟩ := hload
    exact .load r c stage replay hreplay (fun m hm => hsub (htypes m hm)) ⟨t, ht, hsub hmem⟩
  | push c obj message rest hc hobj hm => exact .push r c obj message rest hc hobj (hsub hm)

theorem Moves.mono {walks' : Prop} {types' : List MessageType} (hw : walks → walks')
    (hsub : types ⊆ types') (h : Moves walks types r r') : Moves walks' types' r r' :=
  Relation.ReflTransGen.mono (fun _ _ => Move.mono hw hsub) _ _ h

/-- What every move preserves, any number of moves preserve. -/
theorem Moves.preserves {I : Registry → Prop} (hI : ∀ r r', Move walks types r r' → I r → I r')
    (h : Moves walks types r r') (hr : I r) : I r' := by
  induction h with
  | refl => exact hr
  | tail _ hmove ih => exact hI _ _ hmove ih

/-- A fold of steps that are moves. -/
theorem moves_foldl {α : Type} {f : Registry → α → Registry} {l : List α}
    (h : ∀ r, ∀ a ∈ l, Moves walks types r (f r a)) (r : Registry) :
    Moves walks types r (l.foldl f r) := by
  induction l generalizing r with
  | nil => exact Moves.refl r
  | cons a l ih =>
    have h1 := h r a List.mem_cons_self
    exact h1.trans (ih (fun r b hb => h r b (List.mem_cons_of_mem _ hb)) (f r a))

/-! ### The deliveries as moves -/

theorem moves_tell {c : ClientID} {m : Message} (hm : m.type ∈ types) :
    Moves walks types r (r.tell c m) := (Move.deliver r c m hm).moves

theorem moves_tellAll {clients : List ClientID} {m : Message} (hm : m.type ∈ types) :
    Moves walks types r (r.tellAll clients m) := moves_foldl (fun _ _ _ => moves_tell hm) r

theorem moves_deliverError (herr : .error ∈ types) (c : ClientID)
    (content messageID commandID : String) :
    Moves walks types r (r.deliverError c content messageID commandID) := moves_tell herr

section System

variable (hsys : .system ∈ types)
include hsys

theorem moves_broadcastSystemMessageToRoom (env : Env) (room content : String) :
    Moves walks types r (r.broadcastSystemMessageToRoom env room content) := by
  unfold broadcastSystemMessageToRoom
  split_ifs
  · exact Moves.refl r
  · exact moves_tellAll hsys

theorem moves_unregisterClient (env : Env) (c : ClientID) :
    Moves walks types r (r.unregisterClient env c) := by
  unfold unregisterClient
  cases r.client? c with
  | none => exact Moves.refl r
  | some obj =>
    dsimp only
    split_ifs
    · have h1 : Moves walks types r (r.removeClient c) := (Move.remove r c).moves
      have h2 := h1.trans (moves_broadcastSystemMessageToRoom hsys env obj.room
        (presenceMessage obj "left the chat"))
      exact h2.trans (Move.close _ c).moves
    · exact Moves.refl r

end System

/-! ### Objects and members after the primitive updates -/

theorem client?_modifyClient (c d : ClientID) (f : Client → Client) :
    (r.modifyClient c f).client? d = if c = d then (r.client? d).map f else r.client? d := by
  unfold client? modifyClient
  rw [List.getElem?_modify]
  split_ifs with h
  · rfl
  · cases r.objects[d]? <;> rfl

theorem length_modifyClient (c : ClientID) (f : Client → Client) :
    (r.modifyClient c f).objects.length = r.objects.length := List.length_modify ..

theorem isConnected_iff {c : ClientID} : r.isConnected c = true ↔ c ∈ r.clients := by
  simp [isConnected]

theorem client?_lt {c : ClientID} {obj : Client} (h : r.client? c = some obj) :
    c < r.objects.length := (List.getElem?_eq_some_iff.1 h).1

theorem client?_mem {c : ClientID} {obj : Client} (h : r.client? c = some obj) :
    obj ∈ r.objects := List.mem_of_getElem? h

theorem members_addToRoom (c : ClientID) (room x : String) :
    (r.addToRoom c room).members x =
      if x = room then (r.members room).insert c else r.members x := by
  unfold addToRoom members
  dsimp only
  split_ifs with h
  · subst h
    rw [AList.lookup_insert]
    rfl
  · rw [AList.lookup_insert_ne h]

/-- Leaving a room takes the client out of that room's members and changes no other room. -/
theorem members_removeFromRoom {c : ClientID} {obj : Client} (hc : r.client? c = some obj)
    (hroom : obj.room ≠ "") (x : String) :
    (r.removeFromRoom c).members x =
      if x = obj.room then (r.members x).filter (· ≠ c) else r.members x := by
  simp only [removeFromRoom, hc, if_neg hroom, members, roomsWithout]
  cases hlook : r.rooms.lookup obj.room with
  | none =>
    dsimp only
    split_ifs with h
    · rw [h, hlook]
      rfl
    · rfl
  | some ms =>
    dsimp only
    by_cases hx : x = obj.room
    · subst hx
      rw [if_pos rfl, hlook]
      split_ifs with h
      · rw [AList.lookup_erase]
        exact h.1.symm
      · rw [AList.lookup_insert]
        rfl
    · rw [if_neg hx]
      split_ifs with h
      · rw [AList.lookup_erase_ne hx]
      · rw [AList.lookup_insert_ne hx]

/-! ### Soundness -/

/-- Connected clients, active codes and rooms agree. -/
structure Sound (r : Registry) : Prop where
  valid : ∀ obj ∈ r.objects, ValidClient obj
  online : ∀ c ∈ r.clients, ∃ obj, r.client? c = some obj ∧
    r.active? obj.normalizedCode = some c ∧ c ∈ r.members obj.room
  active : ∀ code c, r.active? code = some c →
    c ∈ r.clients ∧ ∃ obj, r.client? c = some obj ∧ obj.normalizedCode = code
  one_room : ∀ c ∈ r.clients, ∀ obj, r.client? c = some obj →
    ∀ room, c ∈ r.members room → obj.room = room
  bounded : ∀ room, ∀ c ∈ r.members room, c < r.objects.length
  booted : ∀ c ∈ r.clients, r.boot ≤ c
  boot_le : r.boot ≤ r.objects.length

/-- A registry without clients. -/
theorem Sound.of_empty (hvalid : ∀ obj ∈ r.objects, ValidClient obj) (hclients : r.clients = [])
    (hcodes : r.activeCodes = ∅) (hrooms : r.rooms = ∅) (hboot : r.boot ≤ r.objects.length) :
    Sound r := by
  have hmem : ∀ room, r.members room = [] := by
    intro room
    simp [members, hrooms]
  refine ⟨hvalid, ?_, ?_, ?_, ?_, ?_, hboot⟩
  · simp [hclients]
  · intro code c h
    simp [active?, hcodes] at h
  · simp [hclients]
  · simp [hmem]
  · simp [hclients]

/-- A write to a client object that keeps what `Sound` reads. -/
theorem Sound.modifyClient {c : ClientID} {f : Client → Client} (hs : Sound r)
    (hf : ∀ o, r.client? c = some o → (f o).normalizedCode = o.normalizedCode ∧
      (f o).room = o.room ∧ ValidClient (f o)) : Sound (r.modifyClient c f) := by
  have hkey : ∀ d o, r.client? d = some o → ∃ o', (r.modifyClient c f).client? d = some o' ∧
      o'.normalizedCode = o.normalizedCode ∧ o'.room = o.room := by
    intro d o ho
    rw [client?_modifyClient]
    split_ifs with h
    · subst h
      exact ⟨f o, by rw [ho]; rfl, (hf o ho).1, (hf o ho).2.1⟩
    · exact ⟨o, ho, rfl, rfl⟩
  have hlen := length_modifyClient (r := r) c f
  refine ⟨?_, ?_, ?_, ?_, ?_, hs.booted, hlen ▸ hs.boot_le⟩
  · intro o ho
    obtain ⟨d, hd⟩ := List.getElem?_of_mem ho
    have hd' : (r.modifyClient c f).client? d = some o := hd
    rw [client?_modifyClient] at hd'
    split_ifs at hd' with h
    · subst h
      obtain ⟨o', ho', rfl⟩ := Option.map_eq_some_iff.1 hd'
      exact (hf o' ho').2.2
    · exact hs.valid o (client?_mem hd')
  · intro d hd
    obtain ⟨o, ho, hact, hin⟩ := hs.online d hd
    obtain ⟨o', ho', hcode, hroom⟩ := hkey d o ho
    exact ⟨o', ho', by rw [hcode]; exact hact, by rw [hroom]; exact hin⟩
  · intro code d hact
    obtain ⟨hd, o, ho, hcode⟩ := hs.active code d hact
    obtain ⟨o', ho', hcode', -⟩ := hkey d o ho
    exact ⟨hd, o', ho', hcode'.trans hcode⟩
  · intro d hd o' ho' room hin
    obtain ⟨o, ho, -, -⟩ := hs.online d hd
    obtain ⟨o'', ho'', -, hroom⟩ := hkey d o ho
    have : o' = o'' := Option.some_injective _ (ho'.symm.trans ho'')
    rw [this, hroom]
    exact hs.one_room d hd o ho room hin
  · intro room d hd
    rw [hlen]
    exact hs.bounded room d hd

/-- The log of what was sent plays no part. -/
theorem Sound.withSent (hs : Sound r) (sent : List (ClientID × Message)) :
    Sound { r with sent } :=
  ⟨hs.valid, hs.online, hs.active, hs.one_room, hs.bounded, hs.booted, hs.boot_le⟩

theorem Sound.enqueue (hs : Sound r) (c : ClientID) (message : Message) :
    Sound (r.enqueue c message) := by
  refine Sound.withSent (hs.modifyClient fun o ho => ?_) _
  obtain ⟨hcode, hroom, hreplay⟩ := hs.valid o (client?_mem ho)
  exact ⟨rfl, rfl, hcode, hroom, hreplay⟩

theorem room_ne_empty {room : String} (h : validateRoomName room = .ok ()) : room ≠ "" := by
  rintro rfl
  simp [validateRoomName, fail] at h

@[simp] theorem clients_removeFromRoom (c : ClientID) :
    (r.removeFromRoom c).clients = r.clients := by
  unfold removeFromRoom
  cases r.client? c with
  | none => rfl
  | some obj => dsimp only; split_ifs <;> rfl

@[simp] theorem objects_removeFromRoom (c : ClientID) :
    (r.removeFromRoom c).objects = r.objects := by
  unfold removeFromRoom
  cases r.client? c with
  | none => rfl
  | some obj => dsimp only; split_ifs <;> rfl

@[simp] theorem activeCodes_removeFromRoom (c : ClientID) :
    (r.removeFromRoom c).activeCodes = r.activeCodes := by
  unfold removeFromRoom
  cases r.client? c with
  | none => rfl
  | some obj => dsimp only; split_ifs <;> rfl

@[simp] theorem boot_removeFromRoom (c : ClientID) : (r.removeFromRoom c).boot = r.boot := by
  unfold removeFromRoom
  cases r.client? c with
  | none => rfl
  | some obj => dsimp only; split_ifs <;> rfl

@[simp] theorem client?_removeFromRoom (c d : ClientID) :
    (r.removeFromRoom c).client? d = r.client? d := by
  unfold client?
  rw [objects_removeFromRoom]

theorem members_releaseCode (c : ClientID) (obj : Client) (room : String) :
    (r.releaseCode c obj).members room = r.members room := by
  unfold releaseCode
  split_ifs <;> rfl

theorem clients_releaseCode (c : ClientID) (obj : Client) :
    (r.releaseCode c obj).clients = r.clients := by
  unfold releaseCode
  split_ifs <;> rfl

theorem objects_releaseCode (c : ClientID) (obj : Client) :
    (r.releaseCode c obj).objects = r.objects := by
  unfold releaseCode
  split_ifs <;> rfl

theorem boot_releaseCode (c : ClientID) (obj : Client) :
    (r.releaseCode c obj).boot = r.boot := by
  unfold releaseCode
  split_ifs <;> rfl

/-- After a release the code no longer leads to the client; other codes are as they were. -/
theorem active?_releaseCode {c : ClientID} {obj : Client} (hcode : obj.normalizedCode ≠ "")
    (code : String) :
    (r.releaseCode c obj).active? code =
      if code = obj.normalizedCode ∧ r.active? code = some c then none else r.active? code := by
  have hrel : (r.releaseCode c obj).active? code =
      (if r.active? obj.normalizedCode = some c then r.activeCodes.erase obj.normalizedCode
        else r.activeCodes).lookup code := by
    simp only [releaseCode, if_neg hcode]
    rfl
  rw [hrel]
  by_cases hx : code = obj.normalizedCode
  · subst hx
    split_ifs with h1 h2 h2
    · exact AList.lookup_erase _ _
    · exact absurd ⟨rfl, h1⟩ h2
    · exact absurd h2.2 h1
    · rfl
  · have hcond : ¬ (code = obj.normalizedCode ∧ r.active? code = some c) := fun h => hx h.1
    rw [if_neg hcond]
    split_ifs with h1
    · exact AList.lookup_erase_ne hx
    · rfl

/-- What is left after `removeClient` of an existing object. -/
theorem removeClient_eq {c : ClientID} {obj : Client} (hc : r.client? c = some obj) :
    r.removeClient c =
      (({ r with clients := r.clients.filter (· ≠ c) }).removeFromRoom c).releaseCode c obj := by
  simp only [removeClient, hc]

section RemoveClient

variable {c : ClientID} {obj : Client} (hc : r.client? c = some obj) (hv : ValidClient obj)
include hc

theorem clients_removeClient : (r.removeClient c).clients = r.clients.filter (· ≠ c) := by
  rw [removeClient_eq hc, clients_releaseCode, clients_removeFromRoom]

theorem client?_removeClient (d : ClientID) : (r.removeClient c).client? d = r.client? d := by
  rw [removeClient_eq hc]
  unfold client?
  rw [objects_releaseCode, objects_removeFromRoom]

include hv

theorem members_removeClient (x : String) :
    (r.removeClient c).members x =
      if x = obj.room then (r.members x).filter (· ≠ c) else r.members x := by
  rw [removeClient_eq hc, members_releaseCode]
  exact members_removeFromRoom (r := { r with clients := r.clients.filter (· ≠ c) }) hc
    (room_ne_empty hv.room) x

theorem active?_removeClient (code : String) :
    (r.removeClient c).active? code =
      if code = obj.normalizedCode ∧ r.active? code = some c then none else r.active? code := by
  have hcode : obj.normalizedCode ≠ "" := normalizeUserCode_ne_empty hv.code
  have hact : ∀ x, (({ r with clients := r.clients.filter (· ≠ c) }).removeFromRoom c).active? x =
      r.active? x := by
    intro x
    unfold active?
    rw [activeCodes_removeFromRoom]
  rw [removeClient_eq hc, active?_releaseCode hcode, hact]

end RemoveClient

theorem Sound.removeClient (hs : Sound r) (c : ClientID) : Sound (r.removeClient c) := by
  cases hc : r.client? c with
  | none =>
    have : r.removeClient c = r := by simp only [Registry.removeClient, hc]
    rwa [this]
  | some obj =>
    have hv := hs.valid obj (client?_mem hc)
    have hobjects : (r.removeClient c).objects = r.objects := by
      rw [removeClient_eq hc, objects_releaseCode, objects_removeFromRoom]
    have hmem : ∀ d ∈ (r.removeClient c).clients, d ∈ r.clients ∧ d ≠ c := by
      intro d hd
      rw [clients_removeClient hc, List.mem_filter] at hd
      exact ⟨hd.1, by simpa using hd.2⟩
    have hmembers : ∀ room d, d ∈ (r.removeClient c).members room → d ∈ r.members room := by
      intro room d hd
      rw [members_removeClient hc hv] at hd
      split_ifs at hd
      · exact List.mem_of_mem_filter hd
      · exact hd
    have hboot : (r.removeClient c).boot = r.boot := by
      rw [removeClient_eq hc, boot_releaseCode, boot_removeFromRoom]
    refine ⟨?_, ?_, ?_, ?_, ?_, ?_, ?_⟩
    · rw [hobjects]
      exact hs.valid
    · intro d hd
      obtain ⟨hd, hne⟩ := hmem d hd
      obtain ⟨o, ho, hact, hin⟩ := hs.online d hd
      refine ⟨o, by rwa [client?_removeClient hc], ?_, ?_⟩
      · rw [active?_removeClient hc hv, if_neg, hact]
        rintro ⟨-, h⟩
        exact hne (Option.some_injective _ (hact.symm.trans h))
      · rw [members_removeClient hc hv]
        split_ifs
        · exact List.mem_filter.2 ⟨hin, by simpa using hne⟩
        · exact hin
    · intro code d hact
      rw [active?_removeClient hc hv] at hact
      split_ifs at hact with h
      obtain ⟨hd, o, ho, hcode⟩ := hs.active code d hact
      refine ⟨?_, o, by rwa [client?_removeClient hc], hcode⟩
      rw [clients_removeClient hc, List.mem_filter]
      refine ⟨hd, ?_⟩
      have hne : d ≠ c := by
        rintro rfl
        have : o = obj := Option.some_injective _ (ho.symm.trans hc)
        exact h ⟨by rw [← hcode, this], hact⟩
      simpa using hne
    · intro d hd o ho room hin
      obtain ⟨hd, -⟩ := hmem d hd
      rw [client?_removeClient hc] at ho
      exact hs.one_room d hd o ho room (hmembers room d hin)
    · intro room d hd
      rw [hobjects]
      exact hs.bounded room d (hmembers room d hd)
    · intro d hd
      rw [hboot]
      exact hs.booted d (hmem d hd).1
    · rw [hboot, hobjects]
      exact hs.boot_le

theorem Sound.closeSend (hs : Sound r) (c : ClientID) : Sound (r.closeSend c) := by
  refine hs.modifyClient fun o ho => ?_
  obtain ⟨hcode, hroom, hreplay⟩ := hs.valid o (client?_mem ho)
  exact ⟨rfl, rfl, hcode, hroom, hreplay⟩

theorem Sound.deliver (hs : Sound r) (c : ClientID) (m : Message) : Sound (r.deliver c m).1 := by
  unfold Registry.deliver
  split_ifs
  · exact hs.enqueue c m
  · exact (hs.removeClient c).closeSend c
  · exact hs

/-- The object after a move has the new room; every other object is as it was. -/
theorem client?_moveTo (c d : ClientID) (room : String) :
    (r.moveTo c room).client? d =
      if c = d then (r.client? d).map fun o => { o with room } else r.client? d := by
  have h : (r.moveTo c room).client? d = ((r.removeFromRoom c).setRoom c room).client? d := rfl
  rw [h]
  unfold setRoom
  rw [client?_modifyClient, client?_removeFromRoom]

/-- After a move the client is in the new room's members and in no other's. -/
theorem mem_members_moveTo {c : ClientID} {obj : Client} (hc : r.client? c = some obj)
    (hroom : obj.room ≠ "") (d : ClientID) (room x : String) :
    d ∈ (r.moveTo c room).members x ↔
      (x = room ∧ d = c) ∨ (d ∈ r.members x ∧ ¬ (x = obj.room ∧ d = c)) := by
  have hset : ∀ y, ((r.removeFromRoom c).setRoom c room).members y =
      (r.removeFromRoom c).members y := fun _ => rfl
  unfold moveTo
  rw [members_addToRoom]
  by_cases hx : x = room
  · subst hx
    rw [if_pos rfl, List.mem_insert_iff, hset, members_removeFromRoom hc hroom]
    split_ifs with h
    · simp [h]
    · simp [h]
  · rw [if_neg hx, hset, members_removeFromRoom hc hroom]
    split_ifs with h
    · subst h
      simp [hx]
    · simp [h, hx]

theorem Sound.moveTo (hs : Sound r) {c : ClientID} (hlt : c < r.objects.length) {room : String}
    (hroom : validateRoomName room = .ok ()) : Sound (r.moveTo c room) := by
  obtain ⟨obj, hc⟩ : ∃ obj, r.client? c = some obj := ⟨r.objects[c], List.getElem?_eq_getElem hlt⟩
  have hv := hs.valid obj (client?_mem hc)
  have hmem := fun d x => mem_members_moveTo hc (room_ne_empty hv.room) d room x
  have hclients : (r.moveTo c room).clients = r.clients := clients_removeFromRoom c
  have hactive : ∀ code, (r.moveTo c room).active? code = r.active? code := fun code =>
    congrArg (AList.lookup code) (activeCodes_removeFromRoom (r := r) c)
  have hlen : (r.moveTo c room).objects.length = r.objects.length := by
    have : (r.moveTo c room).objects.length = (r.removeFromRoom c).objects.length :=
      length_modifyClient c _
    rw [this, objects_removeFromRoom]
  have hboot : (r.moveTo c room).boot = r.boot := boot_removeFromRoom c
  refine ⟨?_, ?_, ?_, ?_, ?_, ?_, ?_⟩
  · intro o ho
    obtain ⟨d, hd⟩ := List.getElem?_of_mem ho
    have hd' : (r.moveTo c room).client? d = some o := hd
    rw [client?_moveTo] at hd'
    split_ifs at hd'
    · obtain ⟨o', ho', rfl⟩ := Option.map_eq_some_iff.1 hd'
      obtain ⟨hcode, -, hreplay⟩ := hs.valid o' (client?_mem ho')
      exact ⟨hcode, hroom, hreplay⟩
    · exact hs.valid o (client?_mem hd')
  · intro d hd
    rw [hclients] at hd
    obtain ⟨o, ho, hact, hin⟩ := hs.online d hd
    by_cases hcd : c = d
    · subst hcd
      refine ⟨{ o with room }, ?_, ?_, ?_⟩
      · rw [client?_moveTo, if_pos rfl, ho]
        rfl
      · rw [hactive]
        exact hact
      · exact (hmem c room).2 (.inl ⟨rfl, rfl⟩)
    · refine ⟨o, ?_, ?_, ?_⟩
      · rw [client?_moveTo, if_neg hcd, ho]
      · rw [hactive, hact]
      · exact (hmem d o.room).2 (.inr ⟨hin, fun h => hcd h.2.symm⟩)
  · intro code d hact
    rw [hactive] at hact
    obtain ⟨hd, o, ho, hcode⟩ := hs.active code d hact
    refine ⟨by rwa [hclients], ?_⟩
    rw [client?_moveTo, ho]
    split_ifs
    · exact ⟨{ o with room }, rfl, hcode⟩
    · exact ⟨o, rfl, hcode⟩
  · intro d hd o ho x hin
    rw [hclients] at hd
    rw [client?_moveTo] at ho
    rw [hmem] at hin
    by_cases hcd : c = d
    · subst hcd
      rw [if_pos rfl, hc] at ho
      obtain rfl := Option.some_injective _ ho
      -- the only room that still lists it is the new one
      rcases hin with ⟨hx, -⟩ | ⟨hin, hne⟩
      · exact hx.symm
      · exact absurd ⟨(hs.one_room c hd obj hc x hin).symm, rfl⟩ hne
    · rw [if_neg hcd] at ho
      rcases hin with ⟨-, rfl⟩ | ⟨hin, -⟩
      · exact absurd rfl hcd
      · exact hs.one_room d hd o ho x hin
  · intro x d hd
    rw [hlen]
    rcases (hmem d x).1 hd with ⟨-, rfl⟩ | ⟨hin, -⟩
    · exact hlt
    · exact hs.bounded x d hin
  · intro d hd
    rw [hclients] at hd
    rw [hboot]
    exact hs.booted d hd
  · rw [hboot, hlen]
    exact hs.boot_le

/-- Dropping a room that no connected client is in. -/
theorem Sound.dropRoom (hs : Sound r) {room : String}
    (hempty : ∀ c ∈ r.clients, ∀ obj, r.client? c = some obj → obj.room ≠ room) :
    Sound { r with rooms := r.rooms.erase room } := by
  have hmem : ∀ x, ({ r with rooms := r.rooms.erase room } : Registry).members x =
      if x = room then [] else r.members x := by
    intro x
    unfold members
    split_ifs with h
    · subst h
      rw [AList.lookup_erase]
      rfl
    · rw [AList.lookup_erase_ne h]
  refine ⟨hs.valid, ?_, hs.active, ?_, ?_, hs.booted, hs.boot_le⟩
  · intro c hc
    obtain ⟨obj, hobj, hact, hin⟩ := hs.online c hc
    refine ⟨obj, hobj, hact, ?_⟩
    rw [hmem, if_neg (hempty c hc obj hobj)]
    exact hin
  · intro c hc obj hobj x hin
    rw [hmem] at hin
    split_ifs at hin
    · simp at hin
    · exact hs.one_room c hc obj hobj x hin
  · intro x c hin
    rw [hmem] at hin
    split_ifs at hin
    · simp at hin
    · exact hs.bounded x c hin

theorem client?_enroll (obj : Client) (d : ClientID) :
    (Hub.enroll r obj).client? d = if d = r.objects.length then some obj else r.client? d := by
  have h : (Hub.enroll r obj).client? d = (r.objects ++ [obj])[d]? := rfl
  rw [h]
  unfold client?
  split_ifs with hd
  · rw [hd, List.getElem?_concat_length]
  · rcases Nat.lt_or_gt_of_ne hd with hlt | hgt
    · exact List.getElem?_append_left hlt
    · rw [List.getElem?_eq_none (by simp; omega), List.getElem?_eq_none (by omega)]

theorem mem_members_enroll (obj : Client) (d : ClientID) (x : String) :
    d ∈ (Hub.enroll r obj).members x ↔
      (x = obj.room ∧ d = r.objects.length) ∨ d ∈ r.members x := by
  unfold Hub.enroll
  rw [members_addToRoom]
  have h : ∀ y, ({ r with
      objects := r.objects ++ [obj]
      usedCodes := r.usedCodes.insert obj.normalizedCode
      activeCodes := r.activeCodes.insert obj.normalizedCode r.objects.length
      clients := r.clients.insert r.objects.length } : Registry).members y = r.members y :=
    fun _ => rfl
  split_ifs with hx
  · subst hx
    rw [List.mem_insert_iff, h]
    simp
  · rw [h]
    simp [hx]

theorem active?_enroll (obj : Client) (code : String) :
    (Hub.enroll r obj).active? code =
      if code = obj.normalizedCode then some r.objects.length else r.active? code := by
  have h : (Hub.enroll r obj).active? code =
      (r.activeCodes.insert obj.normalizedCode r.objects.length).lookup code := rfl
  rw [h]
  split_ifs with hx
  · rw [hx, AList.lookup_insert]
  · rw [AList.lookup_insert_ne hx]
    rfl

theorem mem_clients_enroll (obj : Client) (d : ClientID) :
    d ∈ (Hub.enroll r obj).clients ↔ d = r.objects.length ∨ d ∈ r.clients :=
  List.mem_insert_iff

/-- A valid client registers under a code that is free. -/
theorem Sound.enroll (hs : Sound r) {obj : Client} (hobj : ValidClient obj)
    (hfree : r.active? obj.normalizedCode = none) :
    Sound (Hub.enroll r obj) := by
  have hlt : ∀ d ∈ r.clients, d < r.objects.length := by
    intro d hd
    obtain ⟨o, ho, -, -⟩ := hs.online d hd
    exact client?_lt ho
  have hold : ∀ d ∈ r.clients, (Hub.enroll r obj).client? d = r.client? d := by
    intro d hd
    rw [client?_enroll, if_neg (Nat.ne_of_lt (hlt d hd))]
  have hlen : (Hub.enroll r obj).objects.length = r.objects.length + 1 := List.length_append ..
  refine ⟨?_, ?_, ?_, ?_, ?_, ?_, ?_⟩
  · intro o ho
    rcases List.mem_append.1 (show o ∈ r.objects ++ [obj] from ho) with ho | ho
    · exact hs.valid o ho
    · obtain rfl := List.mem_singleton.1 ho
      exact hobj
  · intro d hd
    rcases (mem_clients_enroll obj d).1 hd with rfl | hd
    · refine ⟨obj, by rw [client?_enroll, if_pos rfl], by rw [active?_enroll, if_pos rfl], ?_⟩
      exact (mem_members_enroll obj _ _).2 (.inl ⟨rfl, rfl⟩)
    · obtain ⟨o, ho, hact, hin⟩ := hs.online d hd
      refine ⟨o, by rw [hold d hd, ho], ?_, (mem_members_enroll obj _ _).2 (.inr hin)⟩
      rw [active?_enroll, if_neg, hact]
      intro hcode
      rw [hcode, hfree] at hact
      cases hact
  · intro code d hact
    rw [active?_enroll] at hact
    split_ifs at hact with hcode
    · obtain rfl := Option.some_injective _ hact
      exact ⟨(mem_clients_enroll obj _).2 (.inl rfl), obj, by rw [client?_enroll, if_pos rfl],
        hcode.symm⟩
    · obtain ⟨hd, o, ho, hcode⟩ := hs.active code d hact
      exact ⟨(mem_clients_enroll obj _).2 (.inr hd), o, by rw [hold d hd, ho], hcode⟩
  · intro d hd o ho x hin
    rcases (mem_clients_enroll obj d).1 hd with rfl | hd
    · rw [client?_enroll, if_pos rfl] at ho
      obtain rfl := Option.some_injective _ ho
      rcases (mem_members_enroll obj _ _).1 hin with ⟨hx, -⟩ | hin
      · exact hx.symm
      · exact absurd (hs.bounded x _ hin) (Nat.lt_irrefl _)
    · rw [hold d hd] at ho
      rcases (mem_members_enroll obj _ _).1 hin with ⟨-, rfl⟩ | hin
      · exact absurd (hlt _ hd) (Nat.lt_irrefl _)
      · exact hs.one_room d hd o ho x hin
  · intro x d hd
    rw [hlen]
    rcases (mem_members_enroll obj _ _).1 hd with ⟨-, rfl⟩ | hin
    · exact Nat.lt_succ_self _
    · exact Nat.lt_succ_of_lt (hs.bounded x d hin)
  · intro d hd
    rcases (mem_clients_enroll obj d).1 hd with rfl | hd
    · exact hs.boot_le
    · exact hs.booted d hd
  · rw [hlen]
    exact Nat.le_succ_of_le hs.boot_le

/-- Every move keeps the registry sound. -/
theorem Move.sound (h : Move walks types r r') (hs : Sound r) : Sound r' := by
  cases h with
  | deliver c m hm => exact hs.deliver c m
  | remove c => exact hs.removeClient c
  | close c => exact hs.closeSend c
  | go c room _ hc hroom => exact hs.moveTo hc hroom
  | mute c =>
    refine hs.modifyClient fun o ho => ?_
    obtain ⟨hcode, hroom, hreplay⟩ := hs.valid o (client?_mem ho)
    exact ⟨rfl, rfl, hcode, hroom, hreplay⟩
  | pump c =>
    refine hs.modifyClient fun o ho => ?_
    obtain ⟨hcode, hroom, hreplay⟩ := hs.valid o (client?_mem ho)
    exact ⟨rfl, rfl, hcode, hroom, hreplay⟩
  | enroll obj _ hobj _ hfree => exact hs.enroll hobj hfree
  | dropRoom room hempty => exact hs.dropRoom hempty
  | load c stage replay hreplay _ =>
    refine hs.modifyClient fun o ho => ?_
    obtain ⟨hcode, hroom, -⟩ := hs.valid o (client?_mem ho)
    exact ⟨rfl, rfl, hcode, hroom, hreplay⟩
  | push c obj message rest hc hobj hm =>
    refine Sound.enqueue (hs.modifyClient fun o ho => ?_) c message
    obtain ⟨hcode, hroom, hreplay⟩ := hs.valid o (client?_mem ho)
    obtain rfl := Option.some_injective _ (hc.symm.trans ho)
    refine ⟨rfl, rfl, hcode, hroom, fun m hm => hreplay m ?_⟩
    rw [hobj]
    exact List.mem_cons_of_mem _ hm

theorem Moves.sound (h : Moves walks types r r') (hs : Sound r) : Sound r' :=
  h.preserves (fun _ _ => Move.sound) hs

/-! ### Emission -/

/-- Everything sent between `r` and `r'` satisfies `P`. -/
def Emits (P : ClientID × Message → Prop) (r r' : Registry) : Prop :=
  ∃ l, r'.sent = r.sent ++ l ∧ ∀ x ∈ l, P x

theorem Emits.refl (r : Registry) : Emits P r r := ⟨[], by simp, by simp⟩

theorem Emits.of_eq (h : r'.sent = r.sent) : Emits P r r' := ⟨[], by simp [h], by simp⟩

theorem Emits.trans (h : Emits P r r') (h' : Emits P r' r'') : Emits P r r'' := by
  obtain ⟨l, hl, hp⟩ := h
  obtain ⟨l', hl', hp'⟩ := h'
  refine ⟨l ++ l', by rw [hl', hl, List.append_assoc], ?_⟩
  intro x hx
  rcases List.mem_append.1 hx with hx | hx
  · exact hp x hx
  · exact hp' x hx

theorem Emits.mono (hPQ : ∀ x, P x → Q x) (h : Emits P r r') : Emits Q r r' := by
  obtain ⟨l, hl, hp⟩ := h
  exact ⟨l, hl, fun x hx => hPQ x (hp x hx)⟩

theorem sent_removeFromRoom (c : ClientID) : (r.removeFromRoom c).sent = r.sent := by
  unfold removeFromRoom
  cases r.client? c with
  | none => rfl
  | some obj => dsimp only; split_ifs <;> rfl

theorem sent_removeClient (c : ClientID) : (r.removeClient c).sent = r.sent := by
  cases hc : r.client? c with
  | none => simp only [Registry.removeClient, hc]
  | some obj =>
    have hrel : ∀ x : Registry, (x.releaseCode c obj).sent = x.sent := by
      intro x
      unfold releaseCode
      split_ifs <;> rfl
    rw [removeClient_eq hc, hrel, sent_removeFromRoom]

theorem emits_deliver {c : ClientID} {m : Message} (h : P (c, m)) :
    Emits P r (r.deliver c m).1 := by
  unfold Registry.deliver
  split_ifs
  · exact ⟨[(c, m)], rfl, by simpa using h⟩
  · exact Emits.of_eq (sent_removeClient c)
  · exact Emits.refl r

/-- A connected client with a free place gets what is delivered to it. -/
theorem deliver_of_hasSpace {d : ClientID} {m : Message} (hd : d ∈ r.clients)
    (hspace : r.hasSpace d = true) :
    r.deliver d m = (r.enqueue d m, true) := by
  unfold Registry.deliver
  rw [if_pos (isConnected_iff.2 hd), if_pos hspace]

theorem deliver_of_full {d : ClientID} {m : Message} (hd : d ∈ r.clients)
    (hfull : r.hasSpace d = false) :
    r.deliver d m = (r.removeSlowClient d, false) := by
  unfold Registry.deliver
  rw [if_pos (isConnected_iff.2 hd), if_neg (by simp [hfull])]

theorem sent_deliver {d : ClientID} {m : Message} (hd : d ∈ r.clients)
    (hspace : r.hasSpace d = true) :
    (r.deliver d m).1.sent = r.sent ++ [(d, m)] := by
  rw [deliver_of_hasSpace hd hspace]
  rfl

theorem emits_tell {c : ClientID} {m : Message} (h : P (c, m)) : Emits P r (r.tell c m) :=
  emits_deliver h

theorem emits_foldl {α : Type} {f : Registry → α → Registry} {l : List α}
    (h : ∀ r, ∀ a ∈ l, Emits P r (f r a)) (r : Registry) : Emits P r (l.foldl f r) := by
  induction l generalizing r with
  | nil => exact Emits.refl r
  | cons a l ih =>
    have h1 := h r a List.mem_cons_self
    exact h1.trans (ih (fun r b hb => h r b (List.mem_cons_of_mem _ hb)) (f r a))

theorem emits_tellAll {clients : List ClientID} {m : Message} (h : ∀ c ∈ clients, P (c, m)) :
    Emits P r (r.tellAll clients m) := emits_foldl (fun _ c hc => emits_tell (h c hc)) r

theorem Moves.emits (h : Moves walks types r r') : Emits (fun x => x.2.type ∈ types) r r' := by
  induction h with
  | refl => exact Emits.refl r
  | tail _ hmove ih =>
    refine ih.trans ?_
    cases hmove with
    | deliver c m hm => exact emits_deliver hm
    | remove c => exact Emits.of_eq (sent_removeClient c)
    | go c room _ hc hroom => exact Emits.of_eq (sent_removeFromRoom c)
    | push c obj message rest hc hobj hm =>
      refine ⟨[(c, message)], rfl, fun x hx => ?_⟩
      rw [List.mem_singleton.1 hx]
      exact hm
    | _ => exact Emits.of_eq rfl

/-! ### Deliveries only take clients away -/

/-- What a delivery leaves of a client object. -/
def profile (o : Client) : Client := { o with send := [], sendClosed := false }

/-- Clients may have been removed and messages queued, but nobody came or moved. -/
structure Fades (r r' : Registry) : Prop where
  clients : ∀ c ∈ r'.clients, c ∈ r.clients
  active : ∀ code c, r'.active? code = some c → r.active? code = some c
  members : ∀ room, ∀ c ∈ r'.members room, c ∈ r.members room
  object : ∀ c, (r'.client? c).map profile = (r.client? c).map profile
  length : r'.objects.length = r.objects.length
  boot : r'.boot = r.boot

theorem Fades.refl (r : Registry) : Fades r r :=
  ⟨fun _ h => h, fun _ _ h => h, fun _ _ h => h, fun _ => rfl, rfl, rfl⟩

theorem Fades.trans (h : Fades r r') (h' : Fades r' r'') : Fades r r'' where
  clients c hc := h.clients c (h'.clients c hc)
  active code c hc := h.active code c (h'.active code c hc)
  members room c hc := h.members room c (h'.members room c hc)
  object c := (h'.object c).trans (h.object c)
  length := h'.length.trans h.length
  boot := h'.boot.trans h.boot

/-- A later object and the earlier one have the same profile. -/
theorem Fades.client? (h : Fades r r') {c : ClientID} {o : Client} (hc : r'.client? c = some o) :
    ∃ o', r.client? c = some o' ∧ profile o' = profile o := by
  have := h.object c
  rw [hc, Option.map_some] at this
  exact Option.map_eq_some_iff.1 this.symm

theorem fades_modifyClient {c : ClientID} {f : Client → Client} (hf : ∀ o, profile (f o) = profile o) :
    Fades r (r.modifyClient c f) := by
  refine ⟨fun _ h => h, fun _ _ h => h, fun _ _ h => h, fun d => ?_, length_modifyClient c f, rfl⟩
  rw [client?_modifyClient]
  split_ifs
  · rw [Option.map_map]
    congr 1
    funext o
    exact hf o
  · rfl

theorem fades_removeFromRoom (c : ClientID) : Fades r (r.removeFromRoom c) := by
  refine ⟨?_, ?_, ?_, fun d => by rw [client?_removeFromRoom], by rw [objects_removeFromRoom],
    boot_removeFromRoom c⟩
  · intro d hd
    rwa [clients_removeFromRoom] at hd
  · intro code d hd
    unfold active? at hd
    rwa [activeCodes_removeFromRoom] at hd
  · intro room d hd
    cases hc : r.client? c with
    | none =>
      simp only [removeFromRoom, hc] at hd
      exact hd
    | some obj =>
      by_cases hroom : obj.room = ""
      · simp only [removeFromRoom, hc, if_pos hroom] at hd
        exact hd
      · rw [members_removeFromRoom hc hroom] at hd
        split_ifs at hd
        · exact List.mem_of_mem_filter hd
        · exact hd

theorem fades_releaseCode (c : ClientID) (obj : Client) : Fades r (r.releaseCode c obj) := by
  refine ⟨?_, ?_, ?_, ?_, by rw [objects_releaseCode], boot_releaseCode c obj⟩
  · intro d hd
    rwa [clients_releaseCode] at hd
  · intro code d hd
    by_cases hcode : obj.normalizedCode = ""
    · simp only [releaseCode, if_pos hcode] at hd
      exact hd
    · rw [active?_releaseCode hcode] at hd
      split_ifs at hd
      exact hd
  · intro room d hd
    rwa [members_releaseCode] at hd
  · intro d
    unfold Registry.client?
    rw [objects_releaseCode]

theorem fades_removeClient (c : ClientID) : Fades r (r.removeClient c) := by
  cases hc : r.client? c with
  | none =>
    simp only [removeClient, hc]
    exact Fades.refl r
  | some obj =>
    rw [removeClient_eq hc]
    have h1 : Fades r { r with clients := r.clients.filter (· ≠ c) } :=
      ⟨fun _ h => List.mem_of_mem_filter h, fun _ _ h => h, fun _ _ h => h, fun _ => rfl, rfl, rfl⟩
    exact (h1.trans (fades_removeFromRoom c)).trans (fades_releaseCode c obj)

theorem fades_closeSend (c : ClientID) : Fades r (r.closeSend c) := fades_modifyClient fun _ => rfl

theorem fades_deliver (c : ClientID) (m : Message) : Fades r (r.deliver c m).1 := by
  unfold Registry.deliver
  split_ifs
  · have h : Fades r (r.modifyClient c fun obj => { obj with send := obj.send ++ [m] }) :=
      fades_modifyClient fun _ => rfl
    exact ⟨h.clients, h.active, h.members, h.object, h.length, h.boot⟩
  · exact (fades_removeClient c).trans (fades_closeSend c)
  · exact Fades.refl r

theorem fades_tell (c : ClientID) (m : Message) : Fades r (r.tell c m) := fades_deliver c m

theorem fades_foldl {α : Type} {f : Registry → α → Registry} {l : List α}
    (h : ∀ r a, Fades r (f r a)) (r : Registry) : Fades r (l.foldl f r) := by
  induction l generalizing r with
  | nil => exact Fades.refl r
  | cons a l ih => exact (h r a).trans (ih (f r a))

theorem fades_tellAll (clients : List ClientID) (m : Message) : Fades r (r.tellAll clients m) :=
  fades_foldl (fun _ c => fades_tell c m) r

theorem fades_broadcastSystemMessageToRoom (env : Env) (room content : String) :
    Fades r (r.broadcastSystemMessageToRoom env room content) := by
  unfold broadcastSystemMessageToRoom
  split_ifs
  · exact Fades.refl r
  · exact fades_tellAll _ _

/-! ### Staying -/

/-- What access decisions look at: the room, the code and the administrator mark. -/
def standing (o : Client) : String × String × Bool := (o.room, o.normalizedCode, o.isAdmin)

/-- Nobody came, changed rooms or changed standing. -/
def Stays (r r' : Registry) : Prop :=
  ∀ c ∈ r'.clients, ∀ o', r'.client? c = some o' →
    c ∈ r.clients ∧ ∃ o, r.client? c = some o ∧ standing o' = standing o

theorem Stays.refl (r : Registry) : Stays r r := fun _ hc o ho => ⟨hc, o, ho, rfl⟩

theorem Stays.trans (h : Stays r r') (h' : Stays r' r'') : Stays r r'' := by
  intro c hc o'' ho''
  obtain ⟨hc', o', ho', hstand'⟩ := h' c hc o'' ho''
  obtain ⟨hc, o, ho, hstand⟩ := h c hc' o' ho'
  exact ⟨hc, o, ho, hstand'.trans hstand⟩

theorem Fades.stays (h : Fades r r') : Stays r r' := by
  intro c hc o' ho'
  obtain ⟨o, ho, hprofile⟩ := h.client? ho'
  have hstand : standing (profile o') = standing (profile o) := by rw [hprofile]
  exact ⟨h.clients c hc, o, ho, hstand⟩

theorem stays_modifyClient {c : ClientID} {f : Client → Client}
    (hf : ∀ o, standing (f o) = standing o) : Stays r (r.modifyClient c f) := by
  intro d hd o' ho'
  rw [client?_modifyClient] at ho'
  split_ifs at ho'
  · obtain ⟨o, ho, rfl⟩ := Option.map_eq_some_iff.1 ho'
    exact ⟨hd, o, ho, hf o⟩
  · exact ⟨hd, o', ho', rfl⟩

theorem Move.stays (h : Move False types r r') : Stays r r' := by
  cases h with
  | deliver c m hm => exact (fades_deliver c m).stays
  | remove c => exact (fades_removeClient c).stays
  | close c => exact (fades_closeSend c).stays
  | go c room hw => exact hw.elim
  | mute c => exact stays_modifyClient fun _ => rfl
  | pump c => exact stays_modifyClient fun _ => rfl
  | enroll obj hw => exact hw.elim
  | dropRoom room hempty => exact Stays.refl r
  | load c stage replay hreplay _ => exact stays_modifyClient fun _ => rfl
  | push c obj message rest hc hobj hm =>
    have hload : Stays r (r.modifyClient c fun o => { o with replay := rest }) :=
      stays_modifyClient fun _ => rfl
    refine hload.trans ?_
    exact stays_modifyClient (r := r.modifyClient c fun o => { o with replay := rest }) fun _ => rfl

theorem Moves.stays (h : Moves False types r r') : Stays r r' := by
  induction h with
  | refl => exact Stays.refl r
  | tail _ hmove ih => exact ih.trans hmove.stays


/-- The session that is taken over frees its code. -/
theorem active?_unregisterClient (hs : Sound r) (env : Env) {c : ClientID} {code : String}
    (hact : r.active? code = some c) : (r.unregisterClient env c).active? code = none := by
  obtain ⟨hc, obj, hobj, hcode⟩ := hs.active code c hact
  have hcon : r.isConnected c = true := by
    unfold isConnected
    simpa using hc
  have hfree : (r.removeClient c).active? code = none := by
    rw [active?_removeClient hobj (hs.valid obj (client?_mem hobj)), if_pos ⟨hcode.symm, hact⟩]
  simp only [unregisterClient, hobj, hcon, if_true]
  have hfade := (fades_broadcastSystemMessageToRoom (r := r.removeClient c) env obj.room
    (presenceMessage obj "left the chat")).trans (fades_closeSend c)
  by_contra hne
  obtain ⟨d, hd⟩ := Option.ne_none_iff_exists'.1 hne
  have := hfade.active code d hd
  rw [hfree] at this
  cases this

/-! ### The loop of a room deletion -/

theorem validateRoomName_defaultRoomName : validateRoomName defaultRoomName = .ok () := by decide

theorem moves_evict (hw : walks) (hsys : .system ∈ types) {c : ClientID} (hc : c < r.objects.length)
    (content : String) : Moves walks types r (Hub.evict r c content) :=
  (Move.go r c defaultRoomName hw hc validateRoomName_defaultRoomName).moves.trans (moves_tell hsys)

theorem length_moveTo (c : ClientID) (room : String) :
    (r.moveTo c room).objects.length = r.objects.length := by
  have h : (r.moveTo c room).objects.length = (r.removeFromRoom c).objects.length :=
    length_modifyClient c _
  rw [h, objects_removeFromRoom]

theorem length_evict (c : ClientID) (content : String) :
    (Hub.evict r c content).objects.length = r.objects.length :=
  (fades_tell c _).length.trans (length_moveTo c defaultRoomName)

/-- An evicted client is in the lobby or gone; everybody else is where they were. -/
theorem room_evict {c : ClientID} {content : String} {d : ClientID} {o : Client}
    (hd : d ∈ (Hub.evict r c content).clients) (ho : (Hub.evict r c content).client? d = some o) :
    d ∈ r.clients ∧ ∃ o', r.client? d = some o' ∧
      o.room = if c = d then defaultRoomName else o'.room := by
  have hfade : Fades (r.moveTo c defaultRoomName) (Hub.evict r c content) := fades_tell c _
  have hd' := hfade.clients d hd
  obtain ⟨o', ho', hprofile⟩ := hfade.client? ho
  have hroom : o'.room = o.room := by simpa [profile] using congrArg Client.room hprofile
  have hclients : (r.moveTo c defaultRoomName).clients = r.clients := clients_removeFromRoom c
  refine ⟨hclients ▸ hd', ?_⟩
  rw [client?_moveTo] at ho'
  split_ifs at ho' ⊢ with h
  · obtain ⟨o'', ho'', rfl⟩ := Option.map_eq_some_iff.1 ho'
    exact ⟨o'', ho'', hroom.symm⟩
  · exact ⟨o', ho', hroom.symm⟩

/-- The loop of `deleteRoom`, over any list that has every connected client of the room. -/
theorem evict_foldl (hw : walks) (hsys : .system ∈ types) {room : String} (content : String)
    (hroom : room ≠ defaultRoomName) (l : List ClientID) (hl : ∀ c ∈ l, c < r.objects.length)
    (hcover : ∀ c ∈ r.clients, ∀ o, r.client? c = some o → o.room = room → c ∈ l) :
    Moves walks types r (l.foldl (fun r c => Hub.evict r c content) r) ∧
      ∀ c ∈ (l.foldl (fun r c => Hub.evict r c content) r).clients, ∀ o,
        (l.foldl (fun r c => Hub.evict r c content) r).client? c = some o → o.room ≠ room := by
  induction l generalizing r with
  | nil =>
    refine ⟨Moves.refl r, fun c hc o ho h => ?_⟩
    exact absurd (hcover c hc o ho h) List.not_mem_nil
  | cons a l ih =>
    have hmove : Moves walks types r (Hub.evict r a content) :=
      moves_evict hw hsys (hl a List.mem_cons_self) content
    obtain ⟨hmoves, hempty⟩ := ih (r := Hub.evict r a content)
      (fun c hc => by rw [length_evict]; exact hl c (List.mem_cons_of_mem _ hc))
      (fun c hc o ho h => by
        obtain ⟨hc', o', ho', horoom⟩ := room_evict hc ho
        split_ifs at horoom with hac
        · exact absurd (h.symm.trans horoom) hroom
        · have hmem := hcover c hc' o' ho' (horoom.symm.trans h)
          exact (List.mem_cons.1 hmem).resolve_left fun h => hac h.symm)
    exact ⟨hmove.trans hmoves, hempty⟩

theorem mem_visit {env : Env} {clients : List ClientID} {c : ClientID} :
    c ∈ env.visit clients ↔ c ∈ clients := List.mem_insertionSort _

theorem mem_visitTexts {env : Env} {texts : List String} {x : String} :
    x ∈ env.visitTexts texts ↔ x ∈ texts := List.mem_insertionSort _

end Registry

end LanChat
