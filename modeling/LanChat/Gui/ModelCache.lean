import LanChat.Gui.BridgeSnapshots
import LanChat.Gui.ChatView

/-!
# The cache of the conversation models (`gui_chat_controller.cpp`)

The controller keeps the models of at most eight conversations.  A conversation that is sent to,
written in or opened gets a model, and the model of another one may be destroyed for it.

* `CacheInput`: what the controller's slots look up; the rows that they change are left open;
* `CachedModels`: the bridge with its models, and the conversations in the order of their use;
* `Recorded`: the access order says how long ago a conversation was used;
* `Makes`: what a look-up leaves, with the conversation that it pushes out;
* `cached_models`: the cache in every state that is reached.
-/

namespace LanChat.Gui

open EventMachine GoStrings

variable {V J : Type} [VariantEquals V]

/-! ### Slots -/

/-- The slots of the controller that look up conversation models or change the local user. -/
inductive CacheSlot
  | connectToServer (username userCode : String)
  | sendRoomMessage (content room : String)
  | sendPrivateMessage (content targetUserCode : String)
  | selectRoom (room : String)
  | selectDirectMessage (userCode : String)
  | openPrivateChat (userCode : String)
  | handleMessage (message : Message)
  | resetSessionData
  deriving DecidableEq

/-- A slot, the address that a new model would get, the row that is left of the room list after a
reset, and what the slot does to rows. -/
structure CacheInput (V : Type) where
  slot : CacheSlot
  address : ℕ
  lobby : Row V
  changes : List (ModelRef × RowChange V)

/-- The conversation that `handleMessage` looks up. -/
def messageKey (user : LocalUser) (message : Message) : Option String :=
  match message.type with
  | .chat | .privateChat | .offlineMessage => some (Conversations.conversationKey user message)
  | .other name =>
    if name = "private_message" then some (Conversations.conversationKey user message) else none
  | .system => if message.room = "" then none else some (Controller.roomKey message.room)
  | _ => none

/-- What a slot does to the models of the conversations. -/
def CacheInput.event (user : LocalUser) (x : CacheInput V) : Option (BridgeEvent V) :=
  match x.slot with
  | .connectToServer _ _ => none
  | .sendRoomMessage content room =>
    if trimSpace content = "" then none
    else some (.ensureConversationModel (Controller.roomKey (declaredRoom room)) x.address)
  | .sendPrivateMessage content targetUserCode =>
    if trimSpace content = "" ∨ trimSpace targetUserCode = "" then none
    else some (.ensureConversationModel (Controller.directKey (trimSpace targetUserCode)) x.address)
  | .selectRoom room => some (.select (Controller.roomKey room) x.address)
  | .selectDirectMessage userCode => some (.select (Controller.directKey userCode) x.address)
  | .openPrivateChat userCode =>
    if Conversations.opens user userCode then
      some (.select (Controller.directKey userCode) x.address)
    else none
  | .handleMessage message =>
    (messageKey user message).map fun key => .ensureConversationModel key x.address
  | .resetSessionData => some (.resetSessionData x.lobby x.address)

/-- The conversation that is looked up. -/
def BridgeEvent.requested : BridgeEvent V → Option String
  | .ensureConversationModel key _ | .select key _ => some key
  | .resetSessionData _ _ => some "room:lobby"
  | .change _ _ | .buildState => none

/-- The active conversation while models are looked up: a reset makes the lobby active before. -/
def BridgeEvent.activeKey (store : ModelStore V) : BridgeEvent V → String
  | .resetSessionData _ _ => "room:lobby"
  | _ => store.activeConversationKey

/-- The local user, the models, and the conversations that have been looked up, the last one
first. -/
structure CachedModels (V J : Type) where
  user : LocalUser
  bridge : Bridge V J
  accesses : List String

namespace CachedModels

variable (fromVariant : Variant V → J)

/-- A new controller has looked up the lobby. -/
def start : CachedModels V J where
  user := ⟨"", ""⟩
  bridge := Bridge.start fromVariant
  accesses := ["room:lobby"]

/-- The event of a slot. -/
def look (s : CachedModels V J) (event : BridgeEvent V) : CachedModels V J :=
  { s with
    bridge := s.bridge.step fromVariant event
    accesses := event.requested.toList ++ s.accesses }

/-- The local user that a slot leaves. -/
def nextUser (s : CachedModels V J) : CacheSlot → LocalUser
  | .connectToServer username userCode => ⟨username, userCode⟩
  | _ => s.user

/-- One slot; an address that is in use is not given to a new model. -/
def step (s : CachedModels V J) (x : CacheInput V) : CachedModels V J :=
  if x.address ∈ s.bridge.store.conversations then s
  else
    let looked := match x.event s.user with
      | some event => s.look fromVariant event
      | none => s
    { looked with
      user := s.nextUser x.slot
      bridge := x.changes.foldl (fun bridge change => bridge.change change.1 change.2)
        looked.bridge }

/-- A model is destroyed by a step. -/
def evicts (s : CachedModels V J) (x : CacheInput V) (key : String) : Prop :=
  key ∈ s.bridge.store.conversationModels ∧
    key ∉ (s.step fromVariant x).bridge.store.conversationModels

/-- The other conversation has been used after the first one. -/
def UsedAfter (s : CachedModels V J) (key other : String) : Prop :=
  s.accesses.idxOf other < s.accesses.idxOf key

end CachedModels

/-! ### The access order -/

namespace ModelStore

variable {s : ModelStore V}

/-- The access order has the conversations that have a model, and says how many look-ups there had
been when a conversation was looked up last. -/
structure Recorded (s : ModelStore V) (accesses : List String) : Prop where
  size : s.conversationModels.keys.length ≤ maxCachedConversationModels
  keys : ∀ key, key ∈ s.conversationModels ↔ key ∈ s.accessOrder
  order : ∀ key n, s.accessOrder.lookup key = some n →
    key ∈ accesses ∧ n + accesses.idxOf key = accesses.length
  sequence : s.accessSequence = accesses.length

/-- A look-up is the last access. -/
theorem order_access {order : AList fun _ : String => ℕ} {accesses : List String}
    (horder : ∀ key n, order.lookup key = some n →
      key ∈ accesses ∧ n + accesses.idxOf key = accesses.length) (used : String) :
    ∀ key n, (order.insert used (accesses.length + 1)).lookup key = some n →
      key ∈ used :: accesses ∧ n + (used :: accesses).idxOf key = (used :: accesses).length := by
  intro key n hkey
  by_cases hused : key = used
  · subst hused
    rw [AList.lookup_insert] at hkey
    obtain rfl := Option.some.inj hkey
    exact ⟨List.mem_cons_self, by rw [List.idxOf_cons_self, List.length_cons]⟩
  · rw [AList.lookup_insert_ne hused] at hkey
    obtain ⟨hmem, hsum⟩ := horder key n hkey
    refine ⟨List.mem_cons_of_mem _ hmem, ?_⟩
    rw [List.idxOf_cons_ne accesses (Ne.symm hused), List.length_cons]
    omega

omit [VariantEquals V] in
/-- A smaller access order means a longer time without a look-up. -/
theorem Recorded.idxOf_lt {accesses : List String} (h : s.Recorded accesses) {key other : String}
    (hkey : key ∈ s.conversationModels) (hother : other ∈ s.conversationModels)
    (hne : other ≠ key)
    (hle : (s.accessOrder.lookup key).getD 0 ≤ (s.accessOrder.lookup other).getD 0) :
    accesses.idxOf other < accesses.idxOf key := by
  obtain ⟨n, hn⟩ := Option.isSome_iff_exists.1 (AList.lookup_isSome.2 ((h.keys key).1 hkey))
  obtain ⟨m, hm⟩ := Option.isSome_iff_exists.1 (AList.lookup_isSome.2 ((h.keys other).1 hother))
  rw [hn, hm, Option.getD_some, Option.getD_some] at hle
  obtain ⟨-, hnsum⟩ := h.order key n hn
  obtain ⟨hmem, hmsum⟩ := h.order other m hm
  have hdistinct : accesses.idxOf other ≠ accesses.idxOf key :=
    fun heq => hne ((List.idxOf_inj hmem).1 heq)
  omega

omit [VariantEquals V] in
/-- Some conversation can be pushed out of a full cache. -/
theorem exists_leastRecentlyUsed (hfull : 2 < s.conversationModels.keys.length)
    (protectedKey : String) : ∃ least, s.leastRecentlyUsed protectedKey = some least := by
  unfold leastRecentlyUsed
  cases hleast : List.argmin (fun key => (s.accessOrder.lookup key).getD 0)
      (s.conversationModels.keys.filter fun key =>
        key ≠ s.activeConversationKey ∧ key ≠ protectedKey) with
  | some least => exact ⟨least, rfl⟩
  | none =>
    exfalso
    have hnone := List.filter_eq_nil_iff.1 (List.argmin_eq_none.1 hleast)
    have hsub : s.conversationModels.keys ⊆ [s.activeConversationKey, protectedKey] := by
      intro key hkey
      have hout := hnone key hkey
      simp only [decide_eq_true_eq, not_and_or, not_not] at hout
      simpa using hout
    have hlen := (List.subperm_of_subset s.conversationModels.keys_nodup hsub).length_le
    exact absurd hlen (by simpa using hfull)

omit [VariantEquals V] in
/-- The conversation that is pushed out has a model, and no other one that could go was looked up
before it. -/
theorem leastRecentlyUsed_le {protectedKey least : String}
    (hleast : s.leastRecentlyUsed protectedKey = some least) :
    least ∈ s.conversationModels ∧ ∀ other ∈ s.conversationModels,
      other ≠ s.activeConversationKey → other ≠ protectedKey →
      (s.accessOrder.lookup least).getD 0 ≤ (s.accessOrder.lookup other).getD 0 := by
  have hmem := (List.mem_filter.1 (List.argmin_mem hleast)).1
  refine ⟨AList.mem_keys.2 hmem, fun other hother hactive hprotected => ?_⟩
  refine List.le_of_mem_argmin (List.mem_filter.2 ⟨AList.mem_keys.1 hother, ?_⟩) hleast
  exact decide_eq_true ⟨hactive, hprotected⟩

end ModelStore

namespace Bridge

variable {s t : Bridge V J} {accesses : List String}

/-- What a look-up makes of the models: the conversation has one, and the others keep theirs but for
one that was pushed out of a full cache, the one of those that may go which was used longest ago. -/
structure Makes (s t : Bridge V J) (accesses : List String) (active key : String) : Prop where
  requested : key ∈ t.store.conversationModels
  recorded : t.store.Recorded (key :: accesses)
  evicted : ∀ out ∈ s.store.conversationModels, out ∉ t.store.conversationModels →
    out ≠ active ∧ out ≠ key ∧ ∀ other ∈ s.store.conversationModels, other ≠ out →
      other ≠ active → other ≠ key → accesses.idxOf other < accesses.idxOf out

omit [VariantEquals V] in
theorem trimLoop_of_le (rounds : ℕ) (protectedKey : String)
    (hlen : s.store.conversationModels.keys.length ≤ ModelStore.maxCachedConversationModels) :
    trimLoop rounds s protectedKey = s := by
  cases rounds with
  | zero => rfl
  | succ rounds => exact if_pos hlen

omit [VariantEquals V] in
/-- One model too many: one is destroyed, and there is room. -/
theorem trimLoop_full (rounds : ℕ) {protectedKey least : String} {address : ℕ}
    (hfull : s.store.conversationModels.keys.length = ModelStore.maxCachedConversationModels + 1)
    (hleast : s.store.leastRecentlyUsed protectedKey = some least)
    (haddress : s.store.conversationModels.lookup least = some address) :
    trimLoop (rounds + 1) s protectedKey =
      { store := { s.store with
          conversations := s.store.conversations.erase address
          conversationModels := s.store.conversationModels.erase least
          accessOrder := s.store.accessOrder.erase least }
        snapshots := s.snapshots.forget (.conversation address) } := by
  have hmem : least ∈ s.store.conversationModels.keys :=
    AList.mem_keys.1 (AList.lookup_isSome.1 (Option.isSome_iff_exists.2 ⟨_, haddress⟩))
  unfold trimLoop
  rw [if_neg (by omega), hleast]
  dsimp only
  rw [haddress]
  refine trimLoop_of_le rounds protectedKey ?_
  change (s.store.conversationModels.erase least).keys.length ≤ _
  rw [AList.keys_erase, List.length_erase_of_mem hmem, hfull]
  exact le_rfl

omit [VariantEquals V] in
/-- A conversation without a model gets one; a full cache pushes another one out. -/
theorem Makes.create (h : s.store.Recorded accesses) {key : String}
    (hnew : key ∉ s.store.conversationModels) (address : ℕ) :
    Makes s (s.ensureConversationModel key address) accesses s.store.activeConversationKey key := by
  unfold ensureConversationModel
  dsimp only
  rw [if_neg hnew]
  -- the state before the cache is trimmed, by the fields that count
  obtain ⟨created, hcreated, hmodels, horder, hsequence, hactive⟩ : ∃ c : Bridge V J,
      { s with store := { s.store with
          accessOrder := s.store.accessOrder.insert key (s.store.accessSequence + 1)
          accessSequence := s.store.accessSequence + 1
          conversations := s.store.conversations.insert address { roles := ModelStore.messageRoles }
          conversationModels := s.store.conversationModels.insert key address } } = c ∧
        c.store.conversationModels = s.store.conversationModels.insert key address ∧
        c.store.accessOrder = s.store.accessOrder.insert key (accesses.length + 1) ∧
        c.store.accessSequence = accesses.length + 1 ∧
        c.store.activeConversationKey = s.store.activeConversationKey := by
    refine ⟨_, rfl, rfl, ?_, ?_, rfl⟩
    · rw [h.sequence]
    · rw [h.sequence]
  rw [hcreated]
  have hkeys : created.store.conversationModels.keys = key :: s.store.conversationModels.keys := by
    rw [hmodels, AList.keys_insert, List.erase_of_not_mem fun hk => hnew (AList.mem_keys.2 hk)]
  have hrecorded := ModelStore.order_access h.order key
  rw [← horder] at hrecorded
  have hsame : ∀ k, k ∈ created.store.conversationModels ↔ k ∈ created.store.accessOrder := by
    intro k
    rw [hmodels, horder, AList.mem_insert, AList.mem_insert, h.keys]
  have hlen : (s.store.conversationModels.insert key address).keys.length =
      s.store.conversationModels.keys.length + 1 := by
    rw [← hmodels, hkeys, List.length_cons]
  rw [hlen]
  have hstays : ∀ {k}, k ∈ s.store.conversationModels → k ∈ created.store.conversationModels :=
    fun hk => by
      rw [hmodels]
      exact (AList.mem_insert _).2 (.inr hk)
  by_cases hroom : created.store.conversationModels.keys.length ≤
      ModelStore.maxCachedConversationModels
  · rw [trimLoop_of_le _ _ hroom]
    exact {
      requested := by
        rw [hmodels]
        exact (AList.mem_insert _).2 (.inl rfl)
      recorded := ⟨hroom, hsame, hrecorded, hsequence⟩
      evicted := fun out hout hgone => absurd (hstays hout) hgone }
  · have hfull : created.store.conversationModels.keys.length =
        ModelStore.maxCachedConversationModels + 1 := by
      have := h.size
      rw [hkeys, List.length_cons] at hroom ⊢
      omega
    obtain ⟨least, hleast⟩ := ModelStore.exists_leastRecentlyUsed
      (s := created.store) (by rw [hfull]; decide) key
    obtain ⟨hmem, hle⟩ := ModelStore.leastRecentlyUsed_le hleast
    obtain ⟨hnotActive, hnotKey⟩ := ModelStore.leastRecentlyUsed_ne hleast
    obtain ⟨gone, hgone⟩ := Option.isSome_iff_exists.1 (AList.lookup_isSome.2 hmem)
    -- one model is too many, so that the loop ends with the first that it evicts
    rw [trimLoop_full _ hfull hleast hgone]
    rw [hactive] at hnotActive
    have hold : ∀ {k}, k ≠ key → k ∈ created.store.conversationModels →
        k ∈ s.store.conversationModels := fun hne hk => by
      rw [hmodels] at hk
      exact ((AList.mem_insert _).1 hk).resolve_left hne
    exact {
      requested := by
        refine AList.mem_erase.2 ⟨hnotKey.symm, ?_⟩
        rw [hmodels]
        exact (AList.mem_insert _).2 (.inl rfl)
      recorded := {
        size := by
          change (created.store.conversationModels.erase least).keys.length ≤ _
          rw [AList.keys_erase, List.length_erase_of_mem (AList.mem_keys.1 hmem), hfull]
          exact le_rfl
        keys := fun k => by
          change k ∈ created.store.conversationModels.erase least ↔
            k ∈ created.store.accessOrder.erase least
          rw [AList.mem_erase, AList.mem_erase, hsame]
        order := by
          intro k n hk
          change (created.store.accessOrder.erase least).lookup k = some n at hk
          by_cases hne : k = least
          · rw [hne, AList.lookup_erase] at hk
            cases hk
          · rw [AList.lookup_erase_ne hne] at hk
            exact hrecorded k n hk
        sequence := hsequence }
      evicted := by
        intro out hout hout'
        obtain rfl : out = least := by
          by_contra hne
          exact hout' (AList.mem_erase.2 ⟨hne, hstays hout⟩)
        refine ⟨hnotActive, hnotKey, fun other hother hne hotherActive hotherKey => ?_⟩
        refine h.idxOf_lt hout hother hne ?_
        have hfirst := hle other (hstays hother) (by rwa [hactive]) hotherKey
        rwa [horder, AList.lookup_insert_ne hnotKey, AList.lookup_insert_ne hotherKey] at hfirst }

omit [VariantEquals V] in
theorem Makes.ensureConversationModel (h : s.store.Recorded accesses) (key : String)
    (address : ℕ) :
    Makes s (s.ensureConversationModel key address) accesses s.store.activeConversationKey key := by
  by_cases hused : key ∈ s.store.conversationModels
  · unfold Bridge.ensureConversationModel
    dsimp only
    rw [if_pos hused]
    refine ⟨hused, ⟨h.size, fun k => ?_, ?_, ?_⟩, fun out hout hgone => absurd hout hgone⟩
    · change k ∈ s.store.conversationModels ↔ k ∈ s.store.accessOrder.insert key _
      rw [AList.mem_insert, h.keys]
      exact ⟨.inr, fun hk => hk.elim (fun heq => heq ▸ (h.keys key).1 hused) id⟩
    · change ∀ k n,
        (s.store.accessOrder.insert key (s.store.accessSequence + 1)).lookup k = some n → _
      rw [h.sequence]
      exact ModelStore.order_access h.order key
    · change s.store.accessSequence + 1 = _
      rw [h.sequence, List.length_cons]
  · exact Makes.create h hused address

/-! ### Slots -/

/-- The models of the conversations and the order of their use are the same. -/
structure SameNames (s t : Bridge V J) : Prop where
  models : t.store.conversationModels = s.store.conversationModels
  order : t.store.accessOrder = s.store.accessOrder
  sequence : t.store.accessSequence = s.store.accessSequence
  active : t.store.activeConversationKey = s.store.activeConversationKey

omit [VariantEquals V] in
theorem SameNames.trans {u : Bridge V J} (h : SameNames s t) (h' : SameNames t u) :
    SameNames s u :=
  ⟨h'.models.trans h.models, h'.order.trans h.order, h'.sequence.trans h.sequence,
    h'.active.trans h.active⟩

omit [VariantEquals V] in
theorem SameNames.recorded (h : SameNames s t) (hs : s.store.Recorded accesses) :
    t.store.Recorded accesses := by
  refine ⟨?_, ?_, ?_, ?_⟩
  · rw [h.models]
    exact hs.size
  · rw [h.models, h.order]
    exact hs.keys
  · rw [h.order]
    exact hs.order
  · rw [h.sequence]
    exact hs.sequence

theorem sameNames_change (s : Bridge V J) (ref : ModelRef) (operation : RowChange V) :
    SameNames s (s.change ref operation) := by
  unfold Bridge.change
  cases ref with
  | room | directMessage | member => exact ⟨rfl, rfl, rfl, rfl⟩
  | conversation address =>
    unfold ModelStore.setModel
    dsimp only
    split_ifs
    · exact ⟨rfl, rfl, rfl, rfl⟩
    · exact ⟨rfl, rfl, rfl, rfl⟩

theorem sameNames_changes (s : Bridge V J) (changes : List (ModelRef × RowChange V)) :
    SameNames s (changes.foldl (fun s change => s.change change.1 change.2) s) := by
  induction changes generalizing s with
  | nil => exact ⟨rfl, rfl, rfl, rfl⟩
  | cons first rest ih => exact (sameNames_change s _ _).trans (ih _)

theorem sameNames_clearConversations (s : Bridge V J) : SameNames s s.clearConversations := by
  unfold clearConversations
  generalize s.store.conversationModels.entries.map Sigma.snd = addresses
  induction addresses generalizing s with
  | nil => exact ⟨rfl, rfl, rfl, rfl⟩
  | cons first rest ih => exact (sameNames_change s _ _).trans (ih _)

omit [VariantEquals V] in
/-- The conversation that was looked up becomes the active one. -/
theorem Makes.select (h : s.store.Recorded accesses) (key : String) (address : ℕ) :
    Makes s (s.select key address) accesses s.store.activeConversationKey key := by
  have hmade := Makes.ensureConversationModel h key address
  unfold Bridge.select activate
  split
  · exact hmade
  · exact ⟨hmade.requested,
      ⟨hmade.recorded.size, hmade.recorded.keys, hmade.recorded.order, hmade.recorded.sequence⟩,
      hmade.evicted⟩

/-- A reset makes the lobby active before it looks the lobby up. -/
theorem Makes.resetSessionData (h : s.store.Recorded accesses) (lobby : Row V) (address : ℕ) :
    Makes s (s.resetSessionData lobby address) accesses "room:lobby" "room:lobby" := by
  obtain ⟨cleared, hcleared, hsame⟩ : ∃ c : Bridge V J,
      (((s.change .room (.replaceRows [lobby])).change .directMessage (.replaceRows [])).change
        .member (.replaceRows [])).clearConversations = c ∧ SameNames s c :=
    ⟨_, rfl, (((sameNames_change s _ _).trans (sameNames_change _ _ _)).trans
      (sameNames_change _ _ _)).trans (sameNames_clearConversations _)⟩
  unfold Bridge.resetSessionData
  dsimp only
  rw [hcleared]
  have hrecorded := hsame.recorded h
  have hlobby : ({ cleared with store := { cleared.store with
      activeConversationKey := "room:lobby" } } : Bridge V J).store.Recorded accesses :=
    ⟨hrecorded.size, hrecorded.keys, hrecorded.order, hrecorded.sequence⟩
  have hmade := Makes.select hlobby "room:lobby" address
  refine ⟨hmade.requested, hmade.recorded, fun out hout hgone => ?_⟩
  rw [← hsame.models] at hout ⊢
  exact hmade.evicted out hout hgone

end Bridge

namespace CacheInput

variable {s : Bridge V J} {accesses : List String} {user : LocalUser} {event : BridgeEvent V}
  (fromVariant : Variant V → J)

omit [VariantEquals V] in
theorem event_cases {x : CacheInput V} (hevent : x.event user = some event) :
    (∃ key, event = .ensureConversationModel key x.address) ∨
      (∃ key, event = .select key x.address) ∨ event = .resetSessionData x.lobby x.address := by
  unfold CacheInput.event at hevent
  cases hslot : x.slot with
  | connectToServer username userCode =>
    rw [hslot] at hevent
    cases hevent
  | sendRoomMessage content room =>
    rw [hslot] at hevent
    dsimp only at hevent
    split_ifs at hevent
    exact .inl ⟨_, (Option.some.inj hevent).symm⟩
  | sendPrivateMessage content targetUserCode =>
    rw [hslot] at hevent
    dsimp only at hevent
    split_ifs at hevent
    exact .inl ⟨_, (Option.some.inj hevent).symm⟩
  | selectRoom room =>
    rw [hslot] at hevent
    exact .inr (.inl ⟨_, (Option.some.inj hevent).symm⟩)
  | selectDirectMessage userCode =>
    rw [hslot] at hevent
    exact .inr (.inl ⟨_, (Option.some.inj hevent).symm⟩)
  | openPrivateChat userCode =>
    rw [hslot] at hevent
    dsimp only at hevent
    split_ifs at hevent
    exact .inr (.inl ⟨_, (Option.some.inj hevent).symm⟩)
  | handleMessage message =>
    rw [hslot] at hevent
    obtain ⟨key, -, hkey⟩ := Option.map_eq_some_iff.1 hevent
    exact .inl ⟨key, hkey.symm⟩
  | resetSessionData =>
    rw [hslot] at hevent
    exact .inr (.inr (Option.some.inj hevent).symm)

/-- A slot that has an event looks a conversation up. -/
theorem makes (h : s.store.Recorded accesses) {x : CacheInput V}
    (hfree : x.address ∉ s.store.conversations) (hevent : x.event user = some event) :
    ∃ key, event.requested = some key ∧
      Bridge.Makes s (s.step fromVariant event) accesses (event.activeKey s.store) key := by
  rcases event_cases hevent with ⟨key, rfl⟩ | ⟨key, rfl⟩ | rfl
  · refine ⟨key, rfl, ?_⟩
    unfold Bridge.step
    dsimp only
    rw [if_neg hfree]
    exact Bridge.Makes.ensureConversationModel h key x.address
  · refine ⟨key, rfl, ?_⟩
    unfold Bridge.step
    dsimp only
    rw [if_neg hfree]
    exact Bridge.Makes.select h key x.address
  · refine ⟨"room:lobby", rfl, ?_⟩
    unfold Bridge.step
    dsimp only
    rw [if_neg hfree]
    exact Bridge.Makes.resetSessionData h x.lobby x.address

end CacheInput

/-! ### The cache in every state -/

namespace CachedModels

variable {fromVariant : Variant V → J} {s : CachedModels V J}

/-- What every slot keeps. -/
structure Inv (s : CachedModels V J) : Prop where
  tended : Bridge.Tended s.bridge
  recorded : s.bridge.store.Recorded s.accesses

theorem tended_changes {bridge : Bridge V J} (h : Bridge.Tended bridge)
    (changes : List (ModelRef × RowChange V)) :
    Bridge.Tended (changes.foldl (fun bridge change => bridge.change change.1 change.2) bridge) := by
  induction changes generalizing bridge with
  | nil => exact h
  | cons first rest ih => exact ih (h.change _ _)

/-- What a slot does to the names of the models is its look-up, when it has one. -/
theorem step_cases (fromVariant : Variant V → J) (s : CachedModels V J) (x : CacheInput V) :
    s.step fromVariant x = s ∨
      (x.address ∉ s.bridge.store.conversations ∧
        ∃ looked : CachedModels V J,
          (x.event s.user = none ∧ looked = s ∨
            ∃ event, x.event s.user = some event ∧ looked = s.look fromVariant event) ∧
          (s.step fromVariant x).accesses = looked.accesses ∧
          (s.step fromVariant x).bridge =
            x.changes.foldl (fun bridge change => bridge.change change.1 change.2)
              looked.bridge) := by
  unfold step
  split_ifs with hfree
  · exact .inl rfl
  · refine .inr ⟨hfree, ?_⟩
    cases hevent : x.event s.user with
    | none => exact ⟨s, .inl ⟨rfl, rfl⟩, rfl, rfl⟩
    | some event => exact ⟨s.look fromVariant event, .inr ⟨event, rfl, rfl⟩, rfl, rfl⟩

theorem Inv.step (h : Inv s) (x : CacheInput V) :
    Inv (s.step fromVariant x) := by
  rcases step_cases fromVariant s x with hsame | ⟨hfree, looked, hlooked, haccesses, hbridge⟩
  · rwa [hsame]
  · have hinv : Inv looked := by
      rcases hlooked with ⟨-, rfl⟩ | ⟨event, hevent, rfl⟩
      · exact h
      · obtain ⟨key, hkey, hmade⟩ := CacheInput.makes fromVariant h.recorded hfree hevent
        refine ⟨h.tended.step fromVariant event, ?_⟩
        have hrecorded := hmade.recorded
        unfold look
        rw [hkey]
        exact hrecorded
    constructor
    · rw [hbridge]
      exact tended_changes hinv.tended _
    · rw [haccesses, hbridge]
      exact (Bridge.sameNames_changes _ _).recorded hinv.recorded

omit [VariantEquals V] in
theorem inv_start : Inv (start fromVariant : CachedModels V J) := by
  refine ⟨Bridge.tended_start, ⟨?_, ?_, ?_, rfl⟩⟩
  · change (((∅ : AList fun _ : String => ℕ).insert "room:lobby" 0).keys).length ≤ 8
    rw [AList.keys_insert]
    simp
  · intro key
    change key ∈ (∅ : AList fun _ : String => ℕ).insert "room:lobby" 0 ↔
      key ∈ (∅ : AList fun _ : String => ℕ).insert "room:lobby" 1
    rw [AList.mem_insert, AList.mem_insert]
  · intro key n hkey
    change ((∅ : AList fun _ : String => ℕ).insert "room:lobby" 1).lookup key = some n at hkey
    by_cases hlobby : key = "room:lobby"
    · subst hlobby
      rw [AList.lookup_insert] at hkey
      obtain rfl := Option.some.inj hkey
      exact ⟨List.mem_singleton.2 rfl, rfl⟩
    · rw [AList.lookup_insert_ne hlobby, AList.lookup_empty] at hkey
      cases hkey

variable (fromVariant) in
/-- In every state that is reached there are at most eight conversation models, the active
conversation is among them with the model that is shown, their keys are the ones of the access
order, and a step destroys only the model of the conversation that was looked up longest ago, the
active one and the one that is asked for aside. -/
theorem cached_models (inputs : List (CacheInput V)) :
    let s := run (step fromVariant) (start fromVariant : CachedModels V J) inputs
    s.bridge.store.conversationModels.keys.length ≤ ModelStore.maxCachedConversationModels ∧
      s.bridge.store.conversationModels.lookup s.bridge.store.activeConversationKey =
        some s.bridge.store.messageModel ∧
      s.bridge.store.messageModel ∈ s.bridge.store.conversations ∧
      (∀ key, key ∈ s.bridge.store.conversationModels ↔ key ∈ s.bridge.store.accessOrder) ∧
      ∀ x key, s.evicts fromVariant x key →
        ∃ event requested, x.event s.user = some event ∧ event.requested = some requested ∧
          key ≠ event.activeKey s.bridge.store ∧ key ≠ requested ∧
          ∀ other ∈ s.bridge.store.conversationModels, other ≠ key →
            other ≠ event.activeKey s.bridge.store → other ≠ requested → s.UsedAfter key other := by
  intro s
  have hs : Inv s :=
    run_invariant (step fromVariant) (fun _ x h => h.step x) inv_start inputs
  refine ⟨hs.recorded.size, hs.tended.active, hs.tended.used _ _ hs.tended.active, hs.recorded.keys,
    fun x key hevicts => ?_⟩
  obtain ⟨hhad, hgone⟩ := hevicts
  rcases step_cases fromVariant s x with hsame | ⟨hfree, looked, hlooked, -, hbridge⟩
  · rw [hsame] at hgone
    exact absurd hhad hgone
  rw [hbridge, (Bridge.sameNames_changes _ _).models] at hgone
  rcases hlooked with ⟨-, rfl⟩ | ⟨event, hevent, rfl⟩
  · exact absurd hhad hgone
  obtain ⟨requested, hrequested, hmade⟩ := CacheInput.makes fromVariant hs.recorded hfree hevent
  obtain ⟨hactive, hkey, hrest⟩ := hmade.evicted key hhad hgone
  exact ⟨event, requested, hevent, hrequested, hactive, hkey, hrest⟩

end CachedModels

end LanChat.Gui
