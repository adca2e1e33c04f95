import LanChat.Hub.RoomLog

/-!
# Whoever is in a room may be there

`Occupied h`: every connected client is in a room that is defined and open to it.  Permissions
change in four places, and each of them keeps it: a creation adds a name that nobody is in, a
delete evicts everybody first, an invitation only adds, and a removal evicts the one client that
holds the removed code.
-/

namespace LanChat

namespace Hub

open GoStrings Registry EventMachine

variable {h k : Hub} {room : String} {who : ClientID → Prop}

/-- The room of the client is defined, and `canJoinRoom` grants it. -/
def Admits (h : Hub) (obj : Client) : Prop :=
  ∃ definition, h.roomDefinitions.lookup obj.room = some definition ∧
    canJoinRoom obj definition = true

/-- Every connected client is in a room that admits it. -/
def Occupied (h : Hub) : Prop :=
  ∀ c ∈ h.registry.clients, ∀ obj, h.registry.client? c = some obj → h.Admits obj

theorem LobbyOpen.admits (hl : LobbyOpen h) {obj : Client} (hroom : obj.room = defaultRoomName) :
    h.Admits obj := by
  obtain ⟨definition, hdefinition, hpublic⟩ := hl
  refine ⟨definition, by rw [hroom, hdefinition], ?_⟩
  simp [canJoinRoom, hpublic]

theorem canJoinRoom_of_standing {o o' : Client} (hstand : standing o' = standing o)
    (definition : RoomDefinition) : canJoinRoom o' definition = canJoinRoom o definition := by
  obtain ⟨hcode, hadmin⟩ := Prod.mk.inj (Prod.mk.inj hstand).2
  exact canJoinRoom_congr hcode hadmin definition

theorem Admits.congr {o o' : Client} (ha : h.Admits o) (hstand : standing o' = standing o) :
    h.Admits o' := by
  obtain ⟨definition, hdefinition, hjoin⟩ := ha
  refine ⟨definition, ?_, by rw [canJoinRoom_of_standing hstand, hjoin]⟩
  rw [show o'.room = o.room from (Prod.mk.inj hstand).1, hdefinition]

/-- Those who stay keep their permission, and those who walk have one where they go. -/
theorem Occupied.of_walksTo (ho : Occupied h) (hw : WalksTo room who h.registry k.registry)
    (hkeep : ∀ d ∈ k.registry.clients, ∀ obj, k.registry.client? d = some obj →
      h.Admits obj → k.Admits obj)
    (hwalk : ∀ d o obj, who d → h.registry.client? d = some o →
      standing obj = (room, o.normalizedCode, o.isAdmin) → k.Admits obj) : Occupied k := by
  intro d hd obj hobj
  obtain ⟨hd', o, ho', hstand | ⟨hwho, hstand⟩⟩ := hw d hd obj hobj
  · exact hkeep d hd obj hobj ((ho d hd' o ho').congr hstand)
  · exact hwalk d o obj hwho ho' hstand

theorem Occupied.of_stays (ho : Occupied h) (hstay : Stays h.registry k.registry)
    (hkeep : ∀ d ∈ k.registry.clients, ∀ obj, k.registry.client? d = some obj →
      h.Admits obj → k.Admits obj) : Occupied k := by
  intro d hd obj hobj
  obtain ⟨hd', o, ho', hstand⟩ := hstay d hd obj hobj
  exact hkeep d hd obj hobj ((ho d hd' o ho').congr hstand)

theorem Admits.of_eq {obj : Client} (ha : h.Admits obj)
    (hk : k.roomDefinitions = h.roomDefinitions) : k.Admits obj := by
  unfold Admits
  rwa [hk]

theorem Occupied.of_touches (ho : Occupied h) {parts : List Part} {types : List MessageType}
    (a : Touches parts types h k) (hp : .places ∉ parts) (hd : .definitions ∉ parts) :
    Occupied k :=
  ho.of_stays (a.stays hp) fun _ _ _ _ ha => ha.of_eq (a.same .definitions hd)

/-! ### Joining, creating, leaving -/

theorem occupied_handleRoomJoin (ho : Occupied h) (env : Env) (c : ClientID) (room : String) :
    Occupied (h.handleRoomJoin env c room) := by
  have hquiet : ∀ {k : Hub}, Touches [] [.system, .error] h k → Occupied k := fun a =>
    ho.of_touches a (by decide) (by decide)
  unfold handleRoomJoin
  split
  · exact ho
  rename_i obj hobj
  split
  · exact ho
  split
  · exact hquiet (touches_deliverError (by decide) c _ _ _)
  split
  · exact hquiet (touches_deliverError (by decide) c _ _ _)
  rename_i definition hdefinition
  split
  · exact hquiet (touches_deliverError (by decide) c _ _ _)
  rename_i hjoin
  split
  · exact hquiet (touches_tell (t := .system) rfl (by decide))
  refine ho.of_walksTo (walksTo_changeRoom env obj room) (fun _ _ _ _ ha => ha) ?_
  intro d o obj' hd ho' hstand
  obtain rfl := Option.some_injective _ (hobj.symm.trans (hd ▸ ho'))
  obtain ⟨hroom, hrest⟩ := Prod.mk.inj hstand
  obtain ⟨hcode, hadmin⟩ := Prod.mk.inj hrest
  refine ⟨definition, ?_, ?_⟩
  · change h.roomDefinitions.lookup obj'.room = some definition
    rw [hroom, hdefinition]
  · rw [canJoinRoom_congr hcode hadmin]
    simpa using hjoin

theorem occupied_handleRoomCreate (ho : Occupied h) (env : Env) (c : ClientID) (room : String)
    (isPrivate : Bool) : Occupied (h.handleRoomCreate env c room isPrivate) := by
  have hquiet : ∀ {k : Hub}, Touches [] [.system, .error] h k → Occupied k := fun a =>
    ho.of_touches a (by decide) (by decide)
  unfold handleRoomCreate
  split
  · exact ho
  split
  · exact ho
  split
  · exact hquiet (touches_deliverError (by decide) c _ _ _)
  split
  · exact hquiet (touches_deliverError (by decide) c _ _ _)
  rename_i hnone
  refine occupied_handleRoomJoin (ho.of_stays (fades_tell (r := h.registry) c _).stays ?_) env c room
  rintro d - obj - ⟨definition, hdefinition, hjoin⟩
  refine ⟨definition, ?_, hjoin⟩
  have hne : obj.room ≠ room := by
    rintro rfl
    rw [hdefinition] at hnone
    exact hnone rfl
  change (h.roomDefinitions.insert room _).lookup obj.room = some definition
  rw [AList.lookup_insert_ne hne, hdefinition]

theorem occupied_handleRoomLeave (ho : Occupied h) (hl : LobbyOpen h) (env : Env) (c : ClientID) :
    Occupied (h.handleRoomLeave env c) := by
  unfold handleRoomLeave
  split
  · exact ho
  split
  · exact ho
  split
  · exact ho.of_stays (fades_tell (r := h.registry) c _).stays fun _ _ _ _ ha => ha
  rename_i obj _ _ _
  refine ho.of_walksTo (walksTo_changeRoom env obj defaultRoomName) (fun _ _ _ _ ha => ha) ?_
  intro d o obj' _ _ hstand
  have hadmits : h.Admits obj' := hl.admits (Prod.mk.inj hstand).1
  exact hadmits

/-! ### Room actions -/

theorem occupied_deleteRoom (hs : Sound h.registry) (ho : Occupied h) (env : Env)
    (hroom : room ≠ defaultRoomName) (hl : LobbyOpen (h.deleteRoom env room)) :
    Occupied (h.deleteRoom env room) := by
  obtain ⟨-, hempty⟩ := evict_members (List.mem_singleton_self MessageType.system) trivial hs env hroom
    ("Channel #" ++ room ++ " was deleted")
  refine ho.of_walksTo (walksTo_evict_foldl _ _) ?_ ?_
  · rintro d hd obj hobj ⟨definition, hdefinition, hjoin⟩
    refine ⟨definition, ?_, hjoin⟩
    change (h.roomDefinitions.erase room).lookup obj.room = some definition
    rw [AList.lookup_erase_ne (hempty d hd obj hobj), hdefinition]
  · exact fun d o obj _ _ hstand => hl.admits (Prod.mk.inj hstand).1

/-- A definition that is replaced by one which grants as much to the client. -/
theorem Admits.insert {obj : Client} {definition definition' : RoomDefinition} (ha : h.Admits obj)
    (hdefinition : h.roomDefinitions.lookup room = some definition)
    (hk : k.roomDefinitions = h.roomDefinitions.insert room definition')
    (hgrant : obj.room = room → canJoinRoom obj definition = true →
      canJoinRoom obj definition' = true) : k.Admits obj := by
  obtain ⟨current, hcurrent, hjoin⟩ := ha
  unfold Admits
  rw [hk]
  by_cases hobj : obj.room = room
  · rw [hobj] at hcurrent ⊢
    obtain rfl := Option.some_injective _ (hdefinition.symm.trans hcurrent)
    exact ⟨definition', AList.lookup_insert _, hgrant hobj hjoin⟩
  · exact ⟨current, by rw [AList.lookup_insert_ne hobj, hcurrent], hjoin⟩

theorem occupied_inviteMember (ho : Occupied h) (c : ClientID) {definition : RoomDefinition}
    (hdefinition : h.roomDefinitions.lookup room = some definition) (target : String) :
    Occupied (h.inviteMember c room definition target) := by
  refine ho.of_stays (fades_tell (r := h.registry) c _).stays fun d _ obj _ ha => ?_
  refine ha.insert hdefinition rfl fun _ hjoin => ?_
  simp only [canJoinRoom, Bool.or_eq_true, List.contains_iff_mem] at hjoin ⊢
  exact hjoin.imp_right List.mem_insert_of_mem

/-- Whoever is still in the room after a removal does not hold the removed code. -/
theorem code_ne_of_removed (hs : Sound h.registry) (c : ClientID) {definition : RoomDefinition}
    {target : String} (hroom : room ≠ defaultRoomName) {d : ClientID} {obj : Client}
    (hd : d ∈ (h.removeMember c room definition target).registry.clients)
    (hobj : (h.removeMember c room definition target).registry.client? d = some obj)
    (hin : obj.room = room) : obj.normalizedCode ≠ target := by
  rintro rfl
  unfold removeMember at hd hobj
  dsimp only at hd hobj
  -- the last thing is a notice to the owner
  have htold : ∀ {r : Registry} {m : Message}, d ∈ (r.tell c m).clients →
      (r.tell c m).client? d = some obj → d ∈ r.clients ∧
        ∃ o, r.client? d = some o ∧ o.room = room ∧ o.normalizedCode = obj.normalizedCode := by
    intro r m hd hobj
    obtain ⟨hd, o, ho, hstand⟩ := (fades_tell c m).stays d hd obj hobj
    obtain ⟨horoom, hrest⟩ := Prod.mk.inj hstand
    exact ⟨hd, o, ho, horoom.symm.trans hin, (Prod.mk.inj hrest).1.symm⟩
  have hactive : ∀ {o : Client}, d ∈ h.registry.clients → h.registry.client? d = some o →
      o.normalizedCode = obj.normalizedCode →
      h.registry.active? obj.normalizedCode = some d := by
    intro o hd ho hcode
    obtain ⟨o', ho', hactive, -⟩ := hs.online d hd
    obtain rfl := Option.some_injective _ (ho.symm.trans ho')
    rw [← hcode]
    exact hactive
  cases hlook : h.registry.active? obj.normalizedCode with
  | none =>
    rw [hlook] at hd hobj
    obtain ⟨hd, o, ho, -, hcode⟩ := htold hd hobj
    rw [hactive hd ho hcode] at hlook
    cases hlook
  | some t =>
    rw [hlook] at hd hobj
    dsimp only at hd hobj
    split at hd
    · rename_i hevicts
      rw [if_pos hevicts] at hobj
      obtain ⟨hd, o, ho, horoom, hcode⟩ := htold hd hobj
      obtain ⟨-, o₁, -, hmoved⟩ := room_evict hd ho
      split at hmoved
      · exact hroom (horoom.symm.trans hmoved)
      · rename_i hne
        have hwalk : WalksTo defaultRoomName (fun _ => True) h.registry
            (evict h.registry t ("You were removed from #" ++ room)) := walksTo_evict trivial _
        obtain ⟨hd, o₂, ho₂, hstand⟩ := hwalk d hd o ho
        have hsame : o.normalizedCode = o₂.normalizedCode := by
          rcases hstand with hstand | ⟨-, hstand⟩
          · exact (Prod.mk.inj (Prod.mk.inj hstand).2).1
          · exact (Prod.mk.inj (Prod.mk.inj hstand).2).1
        rw [hactive hd ho₂ (hsame.symm.trans hcode)] at hlook
        exact hne (Option.some_injective _ hlook).symm
    · rename_i hstays
      rw [if_neg hstays] at hobj
      obtain ⟨hd, o, ho, horoom, hcode⟩ := htold hd hobj
      have := hactive hd ho hcode
      rw [hlook] at this
      obtain rfl := Option.some_injective _ this
      rw [ho] at hstays
      exact hstays (by simp [horoom])

theorem occupied_removeMember (hs : Sound h.registry) (ho : Occupied h) (c : ClientID)
    {definition : RoomDefinition} (hroom : room ≠ defaultRoomName)
    (hdefinition : h.roomDefinitions.lookup room = some definition) (target : String)
    (hl : LobbyOpen (h.removeMember c room definition target)) :
    Occupied (h.removeMember c room definition target) := by
  have hwalk : WalksTo defaultRoomName (fun _ => True) h.registry
      (h.removeMember c room definition target).registry := by
    unfold removeMember
    refine WalksTo.trans ?_ (fades_tell c _).stays.walksTo
    dsimp only
    split
    · split
      · exact walksTo_evict trivial _
      · exact (Stays.refl _).walksTo
    · exact (Stays.refl _).walksTo
  refine ho.of_walksTo hwalk (fun d hd obj hobj ha => ?_) fun d o obj _ _ hstand =>
    hl.admits (Prod.mk.inj hstand).1
  refine ha.insert hdefinition rfl fun hin hjoin => ?_
  have hcode := code_ne_of_removed hs c hroom hd hobj hin
  simp only [canJoinRoom, Bool.or_eq_true, List.contains_iff_mem] at hjoin ⊢
  refine hjoin.imp_right fun hmem => List.mem_filter.2 ⟨hmem, ?_⟩
  simpa using hcode

theorem occupied_handleRoomAction (hs : Sound h.registry) (ho : Occupied h) (hl : LobbyOpen h)
    (env : Env) (c : ClientID) (action room targetCode : String) :
    Occupied (h.handleRoomAction env c action room targetCode) := by
  have hquiet : ∀ {k : Hub}, Touches [] [.system, .error] h k → Occupied k := fun a =>
    ho.of_touches a (by decide) (by decide)
  unfold handleRoomAction
  split
  · exact ho
  split
  · exact ho
  split
  · exact hquiet (touches_deliverError (by decide) c _ _ _)
  rename_i definition hdefinition
  split
  · exact hquiet (touches_deliverError (by decide) c _ _ _)
  rename_i hroom
  have hopen : ∀ {k : Hub} {definition : RoomDefinition},
      k.roomDefinitions = h.roomDefinitions.insert room definition → LobbyOpen k := by
    rintro k definition hk
    obtain ⟨lobby, hlobby, hpublic⟩ := hl
    exact ⟨lobby, by rw [hk, AList.lookup_insert_ne (Ne.symm hroom), hlobby], hpublic⟩
  split
  · exact hquiet (touches_deliverError (by decide) c _ _ _)
  split
  · have hdelete : Defines (fun _ _ => True) h (h.deleteRoom env room) :=
      defines_erase hl rfl hroom
    exact occupied_deleteRoom hs ho env hroom hdelete.lobby
  split
  · exact hquiet (touches_deliverError (by decide) c _ _ _)
  split
  · exact occupied_inviteMember ho c hdefinition _
  split
  · exact occupied_removeMember hs ho c hroom hdefinition _ (hopen rfl)
  · exact ho

/-! ### Registration -/

theorem occupied_completeRegistration (ho : Occupied h) (hl : LobbyOpen h) (env : Env)
    {obj : Client} (hobj : obj.room = defaultRoomName) :
    Occupied (h.completeRegistration env obj) := by
  have hfade : Fades (enroll h.registry
      { obj with isAdmin := h.adminCode != "" && obj.normalizedCode == h.adminCode })
      (h.completeRegistration env obj).registry :=
    fades_completeRegistration env obj
  intro d hd o' ho'
  obtain ⟨hd, o, ho₁, hstand⟩ := hfade.stays d hd o' ho'
  have hadmits : h.Admits o := by
    rcases walksTo_enroll hd ho₁ with rfl | ⟨hd, ho₁⟩
    · exact hl.admits hobj
    · exact ho d hd o ho₁
  exact hadmits.congr hstand

theorem occupied_handleRegisterRequest (ho : Occupied h) (hl : LobbyOpen h) (env : Env)
    {obj : Client} (hobj : obj.room = defaultRoomName) :
    Occupied (h.handleRegisterRequest env obj).2 := by
  unfold handleRegisterRequest
  split
  · exact ho
  rw [ensureLobby_of_open hl]
  dsimp only
  split
  · split
    · rename_i active _ _
      have hleft : Moves False [.system] h.registry (h.registry.unregisterClient env active) :=
        moves_unregisterClient (by decide) env active
      exact occupied_completeRegistration
        (h := h.onRegistry fun r => r.unregisterClient env active)
        (ho.of_stays hleft.stays fun _ _ _ _ ha => ha) hl env hobj
    · exact ho
  · split
    · exact ho
    · exact occupied_completeRegistration ho hl env hobj

theorem occupied_login (ho : Occupied h) (hl : LobbyOpen h) (env : Env)
    (username userCode : String) : Occupied (h.login env username userCode) := by
  unfold login
  split
  · exact ho
  split
  · split
    · exact ho
    · rename_i chat _
      exact occupied_handleRegisterRequest (h := { h with db := { h.db with chat } }) ho hl env rfl
  · exact occupied_handleRegisterRequest ho hl env rfl

/-! ### Every event -/

theorem occupied_step (platform : Platform) (hs : Sound h.registry) (hl : LobbyOpen h)
    (ho : Occupied h) (e : Event) : Occupied (step platform h e) := by
  have hstep := roomStep platform hs e
  generalize step platform h e = k at hstep ⊢
  cases hstep with
  | quiet hp hd a => exact ho.of_touches a hp hd
  | login username userCode he => exact occupied_login ho hl e.env username userCode
  | join c obj m limited muted he hobj ht hreads hvalid =>
    exact occupied_handleRoomJoin ho e.env c m.room
  | create c obj m limited muted he hobj ht hreads hvalid =>
    exact occupied_handleRoomCreate ho e.env c m.room m.isPrivate
  | leave c obj m limited muted he hobj ht hreads => exact occupied_handleRoomLeave ho hl e.env c
  | action c obj m limited muted he hobj ht => exact occupied_handleRoomAction hs ho hl e.env c _ _ _
  | restart adminCode he =>
    intro c hc
    cases hc

/-- In every state of every run, every connected client is in a room that is defined and open to
it. -/
theorem occupied_run (platform : Platform) (adminCode : String) (offlineStore : Bool)
    (events : List Event) : Occupied (run (step platform) (start adminCode offlineStore) events) := by
  have hinv := run_invariant (step platform)
    (I := fun h => Sound h.registry ∧ LobbyOpen h ∧ Occupied h)
    (fun h e hi => ⟨sound_step platform h e hi.1, (definitions_step platform hi.1 hi.2.1 e).lobby,
      occupied_step platform hi.1 hi.2.1 hi.2.2 e⟩)
    (s := start adminCode offlineStore)
    ⟨sound_start adminCode offlineStore, lobbyOpen_boot, fun c hc => by cases hc⟩ events
  exact hinv.2.2

end Hub

end LanChat
