import Mathlib.Data.List.MinMax
import LanChat.Gui.ChatModel
import LanChat.Lib.DirtyCache
import LanChat.Lib.Run

/-!
# The snapshots of the bridge (`chat_bridge.cpp`)

The bridge keeps the serialized rows of the models and serializes a model again when a signal said
that it has changed.  Models are objects with addresses: the conversation models are created when
they are used and destroyed when they are pushed out, and an address may be used again.

* `RowChange`: the operations on a model; `serializeModel_quiet`: an operation that emits no signal
  leaves what is serialized as it is, unless `masks` holds: `updateRows` replaces values by equal ones
  that are serialized otherwise, as a number by its text;
* `Controller`: the models, with the cache of the conversation models;
* `Bridge`: the controller with the snapshots, `step` and `buildState`;
* `Tended`: what every step keeps; `Fresh`: what every step keeps that masks no change;
* `snapshots_eq_serializeModel`: the arrays of the state are the models at that moment, and
  `equal_text_stale` for a step that masks a change.
-/

namespace LanChat.Gui

open EventMachine KeyedRows DirtyCache

variable {V J : Type} [VariantEquals V]

/-! ### Changes of a model -/

/-- The operations that change the rows of a model. -/
inductive RowChange (V : Type)
  | append (row : Row V)
  | appendRows (rows : List (Row V))
  | prependRows (rows : List (Row V))
  | replaceRows (rows : List (Row V))
  | updateRow (row : ℕ) (values : Row V)
  | updateRows (valuesByRow : List (Row V))
  | removeRow (row : ℕ)
  | removeRowsByValue (role : String) (value : Variant V)
  | clear

namespace ChatModel

/-- What an operation does to a model, and the signals that it emits. -/
def change (m : ChatModel V) : RowChange V → ChatModel V × List ModelSignal
  | .append row => m.appendRows [row]
  | .appendRows rows => m.appendRows rows
  | .prependRows rows => m.prependRows rows
  | .replaceRows rows => m.replaceRows rows
  | .updateRow row values => m.updateRow row values
  | .updateRows valuesByRow => m.updateRows valuesByRow
  | .removeRow row => m.removeRow row
  | .removeRowsByValue role value => m.removeRowsByValue role value
  | .clear => m.replaceRows []

/-- `kMaxSerializedRows`. -/
def maxSerializedRows : ℕ := 500

/-- The object of a row: the value of every role. -/
def serializeRow (fromVariant : Variant V → J) (roles : List String) (row : Row V) :
    List (String × J) :=
  roles.map fun role => (role, fromVariant (row.value role))

/-- `serializeModel`. -/
def serializeModel (fromVariant : Variant V → J) (m : ChatModel V) : List (List (String × J)) :=
  (m.rows.drop (m.rows.length - maxSerializedRows)).map (serializeRow fromVariant m.roles)

/-- `updateRows` finds every value equal to the one it replaces, and emits no signal, although one of
them that is shown is serialized otherwise. -/
def masks (fromVariant : Variant V → J) (m : ChatModel V) (valuesByRow : List (Row V)) : Prop :=
  (∀ p ∈ m.rows.zip valuesByRow, ∀ role ∈ p.2.values.keys,
      (p.1.value role).equals (p.2.value role) = true) ∧
    ∃ p ∈ (m.rows.zip valuesByRow).drop (m.rows.length - maxSerializedRows), ∃ role ∈ m.roles,
      role ∈ p.2.values ∧ fromVariant (p.1.value role) ≠ fromVariant (p.2.value role)

end ChatModel

/-! ### The models of the controller -/

/-- The models that the bridge shows, with the addresses of the conversation models. -/
inductive ModelRef
  | room | directMessage | member
  | conversation (address : ℕ)
  deriving DecidableEq, Repr

/-- The models of a `GuiChatController`; `conversations` are the conversation models that exist. -/
structure ModelStore (V : Type) where
  roomModel : ChatModel V
  directMessageModel : ChatModel V
  memberModel : ChatModel V
  conversations : AList fun _ : ℕ => ChatModel V
  conversationModels : AList fun _ : String => ℕ
  accessOrder : AList fun _ : String => ℕ
  accessSequence : ℕ
  activeConversationKey : String
  messageModel : ℕ

namespace ModelStore

/-- `kMessageRoles`. -/
def messageRoles : List String :=
  ["messageId", "displayName", "userCode", "time", "content", "selfMessage", "systemMessage",
    "deliveryState", "attachment"]

/-- `kMaxCachedConversationModels`. -/
def maxCachedConversationModels : ℕ := 8

/-- The model at a reference; one that does not exist has no rows. -/
def model (s : ModelStore V) : ModelRef → ChatModel V
  | .room => s.roomModel
  | .directMessage => s.directMessageModel
  | .member => s.memberModel
  | .conversation address => (s.conversations.lookup address).getD { roles := messageRoles }

/-- A model is replaced by what an operation makes of it. -/
def setModel (s : ModelStore V) (m : ChatModel V) : ModelRef → ModelStore V
  | .room => { s with roomModel := m }
  | .directMessage => { s with directMessageModel := m }
  | .member => { s with memberModel := m }
  | .conversation address =>
    if address ∈ s.conversations then { s with conversations := s.conversations.insert address m }
    else s

/-- The conversation that `trimConversationModelCache` takes: the one that was used longest ago, but
for the active and the protected one. -/
def leastRecentlyUsed (s : ModelStore V) (protectedKey : String) : Option String :=
  (s.conversationModels.keys.filter fun key =>
    key ≠ s.activeConversationKey ∧ key ≠ protectedKey).argmin fun key =>
      (s.accessOrder.lookup key).getD 0

end ModelStore

/-! ### The bridge -/

/-- The controller with the `ChatBridge` that shows it. -/
structure Bridge (V J : Type) where
  store : ModelStore V
  snapshots : Cache ModelRef (List (List (String × J)))

/-- The arrays of models in the state that `buildState` returns. -/
structure BridgeState (J : Type) where
  rooms : List (List (String × J))
  directMessages : List (List (String × J))
  activeMessages : List (List (String × J))
  members : List (List (String × J))
  deriving DecidableEq, Repr

/-- What happens to the models; `address` is where a new conversation model would be created. -/
inductive BridgeEvent (V : Type)
  | change (ref : ModelRef) (operation : RowChange V)
  | ensureConversationModel (key : String) (address : ℕ)
  | select (key : String) (address : ℕ)
  | resetSessionData (lobby : Row V) (address : ℕ)
  | buildState

namespace Bridge

/-- An operation on a model; every signal tells the bridge, if it is connected. -/
def change (s : Bridge V J) (ref : ModelRef) (operation : RowChange V) : Bridge V J :=
  let changed := (s.store.model ref).change operation
  { store := s.store.setModel changed.1 ref
    snapshots := changed.2.foldl (fun snapshots _ => snapshots.notify ref) s.snapshots }

/-- The loop of `trimConversationModelCache`; a model that is taken is destroyed. -/
def trimLoop : ℕ → Bridge V J → String → Bridge V J
  | 0, s, _ => s
  | rounds + 1, s, protectedKey =>
    if s.store.conversationModels.keys.length ≤ ModelStore.maxCachedConversationModels then s
    else match s.store.leastRecentlyUsed protectedKey with
      | none => s
      | some key =>
        match s.store.conversationModels.lookup key with
        | none => s
        | some address =>
          trimLoop rounds
            { store := { s.store with
                conversations := s.store.conversations.erase address
                conversationModels := s.store.conversationModels.erase key
                accessOrder := s.store.accessOrder.erase key }
              snapshots := s.snapshots.forget (.conversation address) }
            protectedKey

/-- `ensureConversationModel`; an address that is in use is not given to a new model. -/
def ensureConversationModel (s : Bridge V J) (key : String) (address : ℕ) : Bridge V J :=
  let used := { s.store with
    accessOrder := s.store.accessOrder.insert key (s.store.accessSequence + 1)
    accessSequence := s.store.accessSequence + 1 }
  if key ∈ s.store.conversationModels then { s with store := used }
  else
    let created := { used with
      conversations := s.store.conversations.insert address { roles := ModelStore.messageRoles }
      conversationModels := s.store.conversationModels.insert key address }
    trimLoop created.conversationModels.keys.length { s with store := created } key

/-- The model of a conversation becomes the active one, and the bridge is told. -/
def activate (s : Bridge V J) (key : String) : Bridge V J :=
  match s.store.conversationModels.lookup key with
  | none => s
  | some address =>
    { store := { s.store with messageModel := address, activeConversationKey := key }
      snapshots := s.snapshots.connect (.conversation address) }

/-- `selectRoom` and `selectDirectMessage`; the unread count that they set is a change of its
own. -/
def select (s : Bridge V J) (key : String) (address : ℕ) : Bridge V J :=
  (s.ensureConversationModel key address).activate key

/-- The loop of `resetSessionData` over the conversation models. -/
def clearConversations (s : Bridge V J) : Bridge V J :=
  (s.store.conversationModels.entries.map Sigma.snd).foldl
    (fun s address => s.change (.conversation address) .clear) s

/-- `resetSessionData`: the active conversation is the lobby before the model of the lobby is looked
up. -/
def resetSessionData (s : Bridge V J) (lobby : Row V) (address : ℕ) : Bridge V J :=
  let rooms := s.change .room (.replaceRows [lobby])
  let directMessages := rooms.change .directMessage (.replaceRows [])
  let members := directMessages.change .member (.replaceRows [])
  let cleared := members.clearConversations
  { cleared with
    store := { cleared.store with activeConversationKey := "room:lobby" } : Bridge V J }.select
      "room:lobby" address

variable (fromVariant : Variant V → J)

/-- What is shown of every model. -/
def shown (s : Bridge V J) (ref : ModelRef) : List (List (String × J)) :=
  (s.store.model ref).serializeModel fromVariant

/-- `buildState`: the models that have changed are serialized, and all arrays are read. -/
def buildState (s : Bridge V J) : Bridge V J × BridgeState J :=
  let snapshots := s.snapshots.refresh (s.shown fromVariant)
  let snapshotFor ref := (snapshots.cached.lookup ref).getD []
  ({ s with snapshots },
    { rooms := snapshotFor .room
      directMessages := snapshotFor .directMessage
      activeMessages := snapshotFor (.conversation s.store.messageModel)
      members := snapshotFor .member })

/-- What an event does. -/
def step (s : Bridge V J) : BridgeEvent V → Bridge V J
  | .change ref operation => s.change ref operation
  | .ensureConversationModel key address =>
    if address ∈ s.store.conversations then s else s.ensureConversationModel key address
  | .select key address =>
    if address ∈ s.store.conversations then s else s.select key address
  | .resetSessionData lobby address =>
    if address ∈ s.store.conversations then s else s.resetSessionData lobby address
  | .buildState => (s.buildState fromVariant).1

/-- No `updateRows` masks a change of a model whose snapshot is taken for the current one. -/
def faithful (s : Bridge V J) : BridgeEvent V → Prop
  | .change ref (.updateRows valuesByRow) =>
    ref ∈ s.snapshots.connected → ref ∉ s.snapshots.dirty →
      ¬ (s.store.model ref).masks fromVariant valuesByRow
  | _ => True

end Bridge

/-! ### Operations that emit no signal -/

namespace ChatModel

variable {m : ChatModel V}

omit [VariantEquals V] in
theorem updateRow_quiet {row : ℕ} {values : Row V} (hquiet : (m.updateRow row values).2 = []) :
    (m.updateRow row values).1 = m := by
  unfold updateRow at hquiet ⊢
  split_ifs at hquiet ⊢
  rfl

/-- The loop of `appendRows` changes a row of the model only with a signal. -/
theorem mergeRow_quiet (merge : Merge V) (row : Row V)
    (hquiet : (mergeRow merge row).signals = []) :
    merge.signals = [] ∧ (mergeRow merge row).model = merge.model := by
  unfold mergeRow at hquiet ⊢
  by_cases hid : row.messageID = ""
  · rw [if_pos hid] at hquiet ⊢
    exact ⟨hquiet, rfl⟩
  rw [if_neg hid] at hquiet ⊢
  cases hfind : merge.model.findRow "messageId" (.text row.messageID) with
  | some i =>
    rw [hfind] at hquiet
    obtain ⟨hbefore, hupdate⟩ := List.append_eq_nil_iff.1 hquiet
    exact ⟨hbefore, updateRow_quiet hupdate⟩
  | none =>
    rw [hfind] at hquiet
    dsimp only at hquiet ⊢
    cases hlookup : merge.incomingRowsByMessageID.lookup row.messageID with
    | some i =>
      rw [hlookup] at hquiet
      exact ⟨hquiet, rfl⟩
    | none =>
      rw [hlookup] at hquiet
      exact ⟨hquiet, rfl⟩

theorem mergeRows_quiet (rows : List (Row V)) (hquiet : (m.mergeRows rows).signals = []) :
    (m.mergeRows rows).model = m := by
  have hfold : ∀ (rows : List (Row V)) (merge : Merge V),
      (rows.foldl mergeRow merge).signals = [] →
        merge.signals = [] ∧ (rows.foldl mergeRow merge).model = merge.model := by
    intro rows
    induction rows with
    | nil => exact fun merge h => ⟨h, rfl⟩
    | cons row rest ih =>
      intro merge h
      obtain ⟨hrow, hmodel⟩ := ih _ h
      obtain ⟨hbefore, hsame⟩ := mergeRow_quiet merge row hrow
      exact ⟨hbefore, hmodel.trans hsame⟩
  unfold mergeRows at hquiet ⊢
  split_ifs at hquiet ⊢
  · exact (hfold rows _ hquiet).2
  · rfl

omit [VariantEquals V] in
theorem insertAtEnd_signals (m : ChatModel V) (incoming : List (Row V)) :
    (m.insertAtEnd incoming).2 ≠ [] := by
  unfold insertAtEnd
  dsimp only
  split_ifs <;> simp

omit [VariantEquals V] in
theorem insertAtFront_signals (m : ChatModel V) (incoming : List (Row V)) :
    (m.insertAtFront incoming).2 ≠ [] := by
  unfold insertAtFront
  dsimp only
  split_ifs <;> simp

theorem appendRows_quiet {rows : List (Row V)} (hquiet : (m.appendRows rows).2 = []) :
    (m.appendRows rows).1 = m := by
  unfold appendRows at hquiet ⊢
  by_cases hrows : rows = []
  · rw [if_pos hrows]
  rw [if_neg hrows] at hquiet ⊢
  by_cases hempty : (m.mergeRows rows).uniqueIncoming = []
  · rw [if_pos hempty] at hquiet ⊢
    exact mergeRows_quiet rows hquiet
  · rw [if_neg hempty] at hquiet
    exact absurd (List.append_eq_nil_iff.1 hquiet).2 (insertAtEnd_signals _ _)

omit [VariantEquals V] in
theorem prependRows_quiet {rows : List (Row V)} (hquiet : (m.prependRows rows).2 = []) :
    (m.prependRows rows).1 = m := by
  unfold prependRows at hquiet ⊢
  split_ifs at hquiet ⊢
  · rfl
  · exact absurd hquiet (insertAtFront_signals m _)

theorem replaceRows_quiet {rows : List (Row V)} (hquiet : (m.replaceRows rows).2 = []) :
    (m.replaceRows rows).1 = m := by
  unfold replaceRows at hquiet ⊢
  split_ifs at hquiet ⊢
  rfl

omit [VariantEquals V] in
theorem removeRow_quiet {row : ℕ} (hquiet : (m.removeRow row).2 = []) :
    (m.removeRow row).1 = m := by
  unfold removeRow at hquiet ⊢
  split_ifs at hquiet ⊢
  rfl

theorem removeLoop_quiet (role : String) (value : Variant V) (row : ℕ)
    (hquiet : (removeLoop role value row m).2 = []) : (removeLoop role value row m).1 = m := by
  induction row generalizing m with
  | zero => rfl
  | succ row ih =>
    unfold removeLoop at hquiet ⊢
    obtain ⟨hhere, hrest⟩ := List.append_eq_nil_iff.1 hquiet
    refine (ih hrest).trans ?_
    split_ifs at hhere ⊢
    · exact removeRow_quiet hhere
    · rfl

section Serialized

variable (fromVariant : Variant V → J)

omit [VariantEquals V] in
/-- Values that are serialized like those of a row leave it as it is shown. -/
theorem serializeRow_insert {roles : List String} {row values : Row V}
    (hsame : ∀ role ∈ roles, role ∈ values.values →
      fromVariant (row.value role) = fromVariant (values.value role)) :
    serializeRow fromVariant roles (row.insert values) = serializeRow fromVariant roles row := by
  refine List.map_congr_left fun role hrole => ?_
  rw [value_insert]
  split_ifs with hmem
  · rw [hsame role hrole hmem]
  · rfl

omit [VariantEquals V] in
theorem map_fst_zip_eq_take (rows values : List (Row V)) :
    (rows.zip values).map Prod.fst = rows.take values.length := by
  induction rows generalizing values with
  | nil => exact List.take_nil.symm
  | cons row rest ih =>
    cases values with
    | nil => rfl
    | cons first others => exact congrArg (row :: ·) (ih others)

omit [VariantEquals V] in
/-- The rows that `updateRows` leaves, next to the rows before it. -/
theorem length_updated (rows values : List (Row V)) :
    ((rows.zip values).map (fun p => p.1.insert p.2) ++ rows.drop values.length).length =
      rows.length := by
  rw [List.length_append, List.length_map, List.length_zip, List.length_drop]
  omega

theorem updateRows_quiet {valuesByRow : List (Row V)} (hquiet : (m.updateRows valuesByRow).2 = [])
    (hshown : ¬ m.masks fromVariant valuesByRow) :
    (m.updateRows valuesByRow).1.serializeModel fromVariant = m.serializeModel fromVariant := by
  unfold updateRows at hquiet ⊢
  by_cases hnone : m.rows.zip valuesByRow = []
  · rw [if_pos hnone]
  rw [if_neg hnone] at hquiet ⊢
  dsimp only at hquiet ⊢
  split_ifs at hquiet with hchanged
  have hequal : ∀ p ∈ m.rows.zip valuesByRow, ∀ role ∈ p.2.values.keys,
      (p.1.value role).equals (p.2.value role) = true := by
    intro p hp role hrole
    by_contra hdiffer
    exact hchanged ⟨p, hp, role, hrole, Bool.eq_false_iff.2 hdiffer⟩
  -- no signal, and no change is masked: the rows that are shown are serialized as before
  have hsame : ∀ p ∈ (m.rows.zip valuesByRow).drop (m.rows.length - maxSerializedRows),
      serializeRow fromVariant m.roles (p.1.insert p.2) = serializeRow fromVariant m.roles p.1 := by
    intro p hp
    refine serializeRow_insert fromVariant fun role hrole hmem => ?_
    by_contra hdiffer
    exact hshown ⟨hequal, p, hp, role, hrole, hmem, hdiffer⟩
  unfold serializeModel
  dsimp only
  rw [length_updated]
  generalize m.rows.length - maxSerializedRows = skipped at hsame ⊢
  calc (((m.rows.zip valuesByRow).map (fun p => p.1.insert p.2) ++
          m.rows.drop valuesByRow.length).drop skipped).map (serializeRow fromVariant m.roles)
      = (((m.rows.zip valuesByRow).map Prod.fst ++
          m.rows.drop valuesByRow.length).drop skipped).map (serializeRow fromVariant m.roles) := by
        simp only [List.drop_append, List.length_map, List.map_append]
        rw [← List.map_drop, ← List.map_drop, List.map_map, List.map_map]
        exact congrArg (· ++ _) (List.map_congr_left hsame)
    _ = (m.rows.drop skipped).map (serializeRow fromVariant m.roles) := by
        rw [map_fst_zip_eq_take, List.take_append_drop]

/-- An operation that emits no signal and masks no change changes nothing that is shown. -/
theorem serializeModel_quiet {operation : RowChange V} (hquiet : (m.change operation).2 = [])
    (hshown : ∀ valuesByRow, operation = .updateRows valuesByRow →
      ¬ m.masks fromVariant valuesByRow) :
    (m.change operation).1.serializeModel fromVariant = m.serializeModel fromVariant := by
  have hsame : ∀ {m' : ChatModel V}, m' = m →
      m'.serializeModel fromVariant = m.serializeModel fromVariant := fun h => by rw [h]
  cases operation with
  | append row => exact hsame (appendRows_quiet hquiet)
  | appendRows rows => exact hsame (appendRows_quiet hquiet)
  | prependRows rows => exact hsame (prependRows_quiet hquiet)
  | replaceRows rows => exact hsame (replaceRows_quiet hquiet)
  | updateRow row values => exact hsame (updateRow_quiet hquiet)
  | updateRows valuesByRow => exact updateRows_quiet fromVariant hquiet (hshown _ rfl)
  | removeRow row => exact hsame (removeRow_quiet hquiet)
  | removeRowsByValue role value => exact hsame (removeLoop_quiet role value _ hquiet)
  | clear => exact hsame (replaceRows_quiet hquiet)

end Serialized

end ChatModel

/-! ### What the steps keep -/

namespace ModelStore

variable {s : ModelStore V}

omit [VariantEquals V] in
theorem mem_conversations_setModel (m : ChatModel V) (ref : ModelRef) (address : ℕ) :
    address ∈ (s.setModel m ref).conversations ↔ address ∈ s.conversations := by
  cases ref with
  | room | directMessage | member => exact Iff.rfl
  | conversation other =>
    simp only [setModel]
    split_ifs with hlive
    · rw [AList.mem_insert]
      exact ⟨fun h => h.elim (fun h => h ▸ hlive) id, .inr⟩
    · exact Iff.rfl

omit [VariantEquals V] in
theorem setModel_names (m : ChatModel V) (ref : ModelRef) :
    (s.setModel m ref).conversationModels = s.conversationModels ∧
      (s.setModel m ref).activeConversationKey = s.activeConversationKey ∧
      (s.setModel m ref).messageModel = s.messageModel := by
  cases ref with
  | room | directMessage | member => exact ⟨rfl, rfl, rfl⟩
  | conversation other =>
    simp only [setModel]
    split_ifs <;> exact ⟨rfl, rfl, rfl⟩

omit [VariantEquals V] in
theorem model_setModel_ne (m : ChatModel V) {ref other : ModelRef} (hne : other ≠ ref) :
    (s.setModel m ref).model other = s.model other := by
  cases ref with
  | room | directMessage | member => cases other <;> first | rfl | exact absurd rfl hne
  | conversation address =>
    simp only [setModel]
    split_ifs
    · cases other with
      | room | directMessage | member => rfl
      | conversation address' =>
        unfold model
        dsimp only
        rw [AList.lookup_insert_ne fun h => hne (congrArg ModelRef.conversation h)]
    · rfl

omit [VariantEquals V] in
/-- The model itself is replaced, if it exists. -/
theorem model_setModel (m : ChatModel V) (ref : ModelRef) :
    (s.setModel m ref).model ref = m ∨ (s.setModel m ref).model ref = s.model ref := by
  cases ref with
  | room | directMessage | member => exact .inl rfl
  | conversation address =>
    simp only [setModel]
    split_ifs
    · left
      unfold model
      dsimp only
      rw [AList.lookup_insert]
      rfl
    · exact .inr rfl

omit [VariantEquals V] in
/-- The conversation that is pushed out is neither the active nor the protected one. -/
theorem leastRecentlyUsed_ne {protectedKey key : String}
    (hleast : s.leastRecentlyUsed protectedKey = some key) :
    key ≠ s.activeConversationKey ∧ key ≠ protectedKey := by
  have hmem := List.argmin_mem hleast
  exact of_decide_eq_true (List.mem_filter.1 hmem).2

end ModelStore

namespace Bridge

variable (fromVariant : Variant V → J) {s : Bridge V J}

/-- The conversation models that are used exist, each for one conversation, and the bridge knows
models that exist only. -/
structure Kept (s : Bridge V J) : Prop where
  used : ∀ key address, s.store.conversationModels.lookup key = some address →
    address ∈ s.store.conversations
  single : ∀ key other address, s.store.conversationModels.lookup key = some address →
    s.store.conversationModels.lookup other = some address → key = other
  live : ∀ address, .conversation address ∈ s.snapshots.connected →
    address ∈ s.store.conversations
  lists : ∀ ref ∈ [ModelRef.room, .directMessage, .member], ref ∈ s.snapshots.connected

/-- The active model is the one of the active conversation, and it is connected. -/
structure Tended (s : Bridge V J) : Prop extends Kept s where
  active : s.store.conversationModels.lookup s.store.activeConversationKey =
    some s.store.messageModel
  connected : .conversation s.store.messageModel ∈ s.snapshots.connected

/-- What the bridge keeps of a model is what is shown of it, unless the model is marked. -/
def Fresh (s : Bridge V J) : Prop := s.snapshots.Good (s.shown fromVariant)

variable {fromVariant}

omit [VariantEquals V] in
theorem mem_foldl_notify (signals : List ModelSignal)
    (snapshots : Cache ModelRef (List (List (String × J)))) (ref : ModelRef) :
    (signals.foldl (fun snapshots _ => snapshots.notify ref) snapshots).connected =
      snapshots.connected := by
  induction signals generalizing snapshots with
  | nil => rfl
  | cons signal rest ih => exact (ih _).trans (Cache.mem_notify snapshots ref)

/-- A change of a model leaves no value in the cache that is not the one that is shown: either a
signal marks the model, or what is shown of it stays. -/
theorem Fresh.change (hgood : Fresh fromVariant s) {ref : ModelRef} {operation : RowChange V}
    (hf : s.faithful fromVariant (.change ref operation)) :
    Fresh fromVariant (s.change ref operation) := by
  have hother : ∀ other, other ≠ ref →
      (s.change ref operation).shown fromVariant other = s.shown fromVariant other := by
    intro other hne
    exact congrArg (ChatModel.serializeModel fromVariant) (ModelStore.model_setModel_ne _ hne)
  have hmark : ∀ (signals : List ModelSignal)
      (snapshots : Cache ModelRef (List (List (String × J)))),
      snapshots.Good ((s.change ref operation).shown fromVariant) →
      (signals.foldl (fun snapshots _ => snapshots.notify ref) snapshots).Good
        ((s.change ref operation).shown fromVariant) := by
    intro signals
    induction signals with
    | nil => exact fun _ h => h
    | cons signal rest ih => exact fun snapshots h => ih _ (Cache.good_notify h fun _ _ => rfl)
  change ((((s.store.model ref).change operation).2.foldl
    (fun snapshots _ => snapshots.notify ref) s.snapshots).Good _)
  cases hsignals : ((s.store.model ref).change operation).2 with
  | nil =>
    refine Cache.good_congr hgood fun other hconnected hclean => ?_
    by_cases hne : other = ref
    · subst hne
      have hshown : ∀ valuesByRow, operation = .updateRows valuesByRow →
          ¬ (s.store.model other).masks fromVariant valuesByRow := by
        rintro valuesByRow rfl
        exact hf hconnected hclean
      rcases ModelStore.model_setModel ((s.store.model other).change operation).1 other with h | h
      · exact (congrArg (ChatModel.serializeModel fromVariant) h).trans
          (ChatModel.serializeModel_quiet fromVariant hsignals hshown)
      · exact congrArg (ChatModel.serializeModel fromVariant) h
    · exact hother other hne
  | cons signal rest => exact hmark rest _ (Cache.good_notify hgood hother)

theorem Kept.change (h : Kept s) (ref : ModelRef) (operation : RowChange V) :
    Kept (s.change ref operation) where
  used := by
    intro key address hkey
    rw [show (s.change ref operation).store.conversationModels = s.store.conversationModels from
      (ModelStore.setModel_names _ ref).1] at hkey
    exact (ModelStore.mem_conversations_setModel _ ref address).2 (h.used key address hkey)
  single := by
    rw [show (s.change ref operation).store.conversationModels = s.store.conversationModels from
      (ModelStore.setModel_names _ ref).1]
    exact h.single
  live := by
    intro address hconnected
    unfold Bridge.change at hconnected
    rw [mem_foldl_notify] at hconnected
    exact (ModelStore.mem_conversations_setModel _ ref address).2 (h.live address hconnected)
  lists := by
    intro other hother
    unfold Bridge.change
    rw [mem_foldl_notify]
    exact h.lists other hother

theorem Tended.change (h : Tended s) (ref : ModelRef) (operation : RowChange V) :
    Tended (s.change ref operation) where
  toKept := h.toKept.change ref operation
  active := by
    have hnames := ModelStore.setModel_names (s := s.store)
      ((s.store.model ref).change operation).1 ref
    unfold Bridge.change
    dsimp only
    rw [hnames.1, hnames.2.1, hnames.2.2]
    exact h.active
  connected := by
    unfold Bridge.change
    dsimp only
    rw [mem_foldl_notify, (ModelStore.setModel_names _ ref).2.2]
    exact h.connected

omit [VariantEquals V] in
/-- A conversation model is destroyed, and the bridge forgets it. -/
theorem Kept.destroy (h : Kept s) {key : String} {address : ℕ}
    (hkey : s.store.conversationModels.lookup key = some address) :
    Kept
      { store := { s.store with
          conversations := s.store.conversations.erase address
          conversationModels := s.store.conversationModels.erase key
          accessOrder := s.store.accessOrder.erase key }
        snapshots := s.snapshots.forget (.conversation address) } where
  used := by
    intro other address' hother
    by_cases hsame : other = key
    · rw [hsame, AList.lookup_erase] at hother
      cases hother
    · rw [AList.lookup_erase_ne hsame] at hother
      refine AList.mem_erase.2 ⟨?_, h.used other address' hother⟩
      rintro rfl
      exact hsame (h.single other key _ hother hkey)
  single := by
    intro first second address' hfirst hsecond
    have hne : ∀ {other}, (s.store.conversationModels.erase key).lookup other = some address' →
        s.store.conversationModels.lookup other = some address' := by
      intro other hother
      by_cases hsame : other = key
      · rw [hsame, AList.lookup_erase] at hother
        cases hother
      · rwa [AList.lookup_erase_ne hsame] at hother
    exact h.single first second address' (hne hfirst) (hne hsecond)
  live := by
    intro address' hconnected
    obtain ⟨hne, hconnected⟩ := (Cache.mem_forget s.snapshots _ _).1 hconnected
    refine AList.mem_erase.2 ⟨fun h => hne (congrArg _ h), h.live address' hconnected⟩
  lists := by
    intro ref href
    refine (Cache.mem_forget s.snapshots _ _).2 ⟨?_, h.lists ref href⟩
    rintro rfl
    simp at href

omit [VariantEquals V] in
theorem Fresh.destroy (h : Fresh fromVariant s) (key : String) (address : ℕ) :
    Fresh fromVariant
      { store := { s.store with
          conversations := s.store.conversations.erase address
          conversationModels := s.store.conversationModels.erase key
          accessOrder := s.store.accessOrder.erase key }
        snapshots := s.snapshots.forget (.conversation address) } := by
  refine Cache.good_congr (Cache.good_forget h _) fun ref href _ => ?_
  obtain ⟨hne, -⟩ := (Cache.mem_forget s.snapshots _ _).1 href
  refine congrArg (ChatModel.serializeModel fromVariant) ?_
  cases ref with
  | room | directMessage | member => rfl
  | conversation address' =>
    unfold ModelStore.model
    dsimp only
    rw [AList.lookup_erase_ne fun h => hne (congrArg _ h)]

/-- The models of a conversation are the same in two states, and connected in the second one when
they are in the first one. -/
def SameModel (s t : Bridge V J) (key : String) : Prop :=
  t.store.conversationModels.lookup key = s.store.conversationModels.lookup key ∧
    ∀ address, s.store.conversationModels.lookup key = some address →
      .conversation address ∈ s.snapshots.connected →
      .conversation address ∈ t.snapshots.connected

omit [VariantEquals V] in
/-- Making room takes neither the model of the active conversation nor the protected one. -/
theorem Kept.trimLoop (h : Kept s) (rounds : ℕ) (protectedKey : String) :
    let t := Bridge.trimLoop rounds s protectedKey
    Kept t ∧ t.store.activeConversationKey = s.store.activeConversationKey ∧
      t.store.messageModel = s.store.messageModel ∧
      ∀ key, key = s.store.activeConversationKey ∨ key = protectedKey → SameModel s t key := by
  induction rounds generalizing s with
  | zero => exact ⟨h, rfl, rfl, fun _ _ => ⟨rfl, fun _ _ hc => hc⟩⟩
  | succ rounds ih =>
    have hstay : Kept s ∧ s.store.activeConversationKey = s.store.activeConversationKey ∧
        s.store.messageModel = s.store.messageModel ∧
        ∀ key, key = s.store.activeConversationKey ∨ key = protectedKey → SameModel s s key :=
      ⟨h, rfl, rfl, fun _ _ => ⟨rfl, fun _ _ hc => hc⟩⟩
    unfold Bridge.trimLoop
    split_ifs
    · exact hstay
    cases hleast : s.store.leastRecentlyUsed protectedKey with
    | none => exact hstay
    | some least =>
      dsimp only
      cases hlookup : s.store.conversationModels.lookup least with
      | none => exact hstay
      | some address =>
        obtain ⟨hactive, hprotected⟩ := ModelStore.leastRecentlyUsed_ne hleast
        obtain ⟨hkept, hkey, hmodel, hrest⟩ := ih (h.destroy hlookup)
        refine ⟨hkept, hkey, hmodel, fun key hk => ?_⟩
        have hne : key ≠ least := by
          rintro rfl
          exact hk.elim hactive hprotected
        obtain ⟨hsame, hconnected⟩ := hrest key hk
        rw [show AList.lookup key (s.store.conversationModels.erase least) =
          s.store.conversationModels.lookup key from AList.lookup_erase_ne hne] at hsame hconnected
        refine ⟨hsame, fun address' hk' hc => hconnected address' hk' ?_⟩
        refine (Cache.mem_forget s.snapshots _ _).2 ⟨fun heq => hne ?_, hc⟩
        obtain rfl : address' = address := by injection heq
        exact h.single key least _ hk' hlookup

omit [VariantEquals V] in
theorem Fresh.trimLoop (h : Fresh fromVariant s) (rounds : ℕ) (protectedKey : String) :
    Fresh fromVariant (Bridge.trimLoop rounds s protectedKey) := by
  induction rounds generalizing s with
  | zero => exact h
  | succ rounds ih =>
    unfold Bridge.trimLoop
    split_ifs
    · exact h
    cases s.store.leastRecentlyUsed protectedKey with
    | none => exact h
    | some least =>
      dsimp only
      cases s.store.conversationModels.lookup least with
      | none => exact h
      | some address => exact ih (h.destroy least address)

omit [VariantEquals V] in
theorem Kept.create (h : Kept s) (key : String) {address : ℕ}
    (hfree : address ∉ s.store.conversations) (accessOrder : AList fun _ : String => ℕ)
    (accessSequence : ℕ) :
    Kept { s with store := { s.store with
      conversations := s.store.conversations.insert address { roles := ModelStore.messageRoles }
      conversationModels := s.store.conversationModels.insert key address
      accessOrder, accessSequence } } where
  used := by
    intro other address' hother
    refine (AList.mem_insert _).2 ?_
    by_cases hsame : other = key
    · rw [hsame, AList.lookup_insert] at hother
      exact .inl (Option.some.inj hother).symm
    · rw [AList.lookup_insert_ne hsame] at hother
      exact .inr (h.used other address' hother)
  single := by
    intro first second address' hfirst hsecond
    have hold : ∀ {other}, other ≠ key →
        (s.store.conversationModels.insert key address).lookup other = some address' →
        s.store.conversationModels.lookup other = some address' :=
      fun hne hother => by rwa [AList.lookup_insert_ne hne] at hother
    have hnew : ∀ {other}, other ≠ key →
        (s.store.conversationModels.insert key address).lookup other = some address' →
        (s.store.conversationModels.insert key address).lookup key = some address' → False := by
      intro other hne hother hkey
      rw [AList.lookup_insert] at hkey
      obtain rfl := Option.some.inj hkey
      exact hfree (h.used other _ (hold hne hother))
    by_cases h1 : first = key
    · by_cases h2 : second = key
      · exact h1.trans h2.symm
      · exact (hnew h2 hsecond (h1 ▸ hfirst)).elim
    · by_cases h2 : second = key
      · exact (hnew h1 hfirst (h2 ▸ hsecond)).elim
      · exact h.single first second address' (hold h1 hfirst) (hold h2 hsecond)
  live := fun address' hc => (AList.mem_insert _).2 (.inr (h.live address' hc))
  lists := h.lists

omit [VariantEquals V] in
/-- A new conversation model has no rows yet, like a model that does not exist. -/
theorem Fresh.create (h : Fresh fromVariant s) (key : String) {address : ℕ}
    (hfree : address ∉ s.store.conversations) (accessOrder : AList fun _ : String => ℕ)
    (accessSequence : ℕ) :
    Fresh fromVariant { s with store := { s.store with
      conversations := s.store.conversations.insert address { roles := ModelStore.messageRoles }
      conversationModels := s.store.conversationModels.insert key address
      accessOrder, accessSequence } } := by
  refine Cache.good_congr h fun ref _ _ => congrArg (ChatModel.serializeModel fromVariant) ?_
  cases ref with
  | room | directMessage | member => rfl
  | conversation address' =>
    unfold ModelStore.model
    dsimp only
    by_cases hsame : address' = address
    · subst hsame
      rw [AList.lookup_insert, AList.lookup_eq_none.2 hfree]
      rfl
    · rw [AList.lookup_insert_ne hsame]

omit [VariantEquals V] in
/-- `ensureConversationModel`: the conversation has a model, and the active one keeps its own. -/
theorem Kept.ensureConversationModel (h : Kept s) (key : String) {address : ℕ}
    (hfree : address ∉ s.store.conversations) :
    let t := s.ensureConversationModel key address
    Kept t ∧ t.store.activeConversationKey = s.store.activeConversationKey ∧
      t.store.messageModel = s.store.messageModel ∧
      (∃ a, t.store.conversationModels.lookup key = some a) ∧
      (s.store.activeConversationKey ∈ s.store.conversationModels →
        SameModel s t s.store.activeConversationKey) := by
  unfold Bridge.ensureConversationModel
  dsimp only
  split_ifs with hkey
  · exact ⟨⟨h.used, h.single, h.live, h.lists⟩, rfl, rfl,
      Option.isSome_iff_exists.1 (AList.lookup_isSome.2 hkey), fun _ => ⟨rfl, fun _ _ hc => hc⟩⟩
  · obtain ⟨hkept, hactive, hmodel, hsame⟩ := (h.create key hfree
      (s.store.accessOrder.insert key (s.store.accessSequence + 1))
      (s.store.accessSequence + 1)).trimLoop
      (s.store.conversationModels.insert key address).keys.length key
    refine ⟨hkept, hactive, hmodel, ⟨address, ?_⟩, fun hused => ?_⟩
    · exact (hsame key (.inr rfl)).1.trans (AList.lookup_insert _)
    · have hne : s.store.activeConversationKey ≠ key := fun h => hkey (h ▸ hused)
      have hactive := hsame _ (.inl rfl)
      unfold SameModel at hactive ⊢
      dsimp only at hactive
      rwa [AList.lookup_insert_ne hne] at hactive

omit [VariantEquals V] in
theorem Fresh.ensureConversationModel (h : Fresh fromVariant s) (key : String) {address : ℕ}
    (hfree : address ∉ s.store.conversations) :
    Fresh fromVariant (s.ensureConversationModel key address) := by
  unfold Bridge.ensureConversationModel
  dsimp only
  split_ifs
  · exact h
  · exact (h.create key hfree _ _).trimLoop _ key

omit [VariantEquals V] in
/-- The model of a conversation that is selected is connected before it is shown. -/
theorem Kept.select (h : Kept s) (key : String) {address : ℕ}
    (hfree : address ∉ s.store.conversations) : Tended (s.select key address) := by
  obtain ⟨hkept, -, -, ⟨a, ha⟩, -⟩ := h.ensureConversationModel key hfree
  unfold Bridge.select activate
  rw [ha]
  exact {
    used := hkept.used
    single := hkept.single
    live := by
      intro address' hc
      rcases (Cache.mem_connect _ _ _).1 hc with heq | hc
      · obtain rfl : address' = a := by injection heq
        exact hkept.used key _ ha
      · exact hkept.live address' hc
    lists := fun ref href => (Cache.mem_connect _ _ _).2 (.inr (hkept.lists ref href))
    active := ha
    connected := (Cache.mem_connect _ _ _).2 (.inl rfl) }

omit [VariantEquals V] in
theorem Fresh.select (h : Fresh fromVariant s) (key : String) {address : ℕ}
    (hfree : address ∉ s.store.conversations) : Fresh fromVariant (s.select key address) := by
  have hmade := h.ensureConversationModel key hfree
  unfold Bridge.select activate
  split
  · exact hmade
  · exact Cache.good_connect hmade _

theorem conversations_change (ref : ModelRef) (operation : RowChange V) (address : ℕ) :
    address ∈ (s.change ref operation).store.conversations ↔ address ∈ s.store.conversations :=
  ModelStore.mem_conversations_setModel _ ref address

theorem conversations_clearConversations (s : Bridge V J) (address : ℕ) :
    address ∈ s.clearConversations.store.conversations ↔ address ∈ s.store.conversations := by
  unfold Bridge.clearConversations
  generalize s.store.conversationModels.entries.map Sigma.snd = addresses
  induction addresses generalizing s with
  | nil => exact Iff.rfl
  | cons first rest ih => exact (ih _).trans (conversations_change _ _ address)

theorem Kept.clearConversations (h : Kept s) : Kept s.clearConversations := by
  unfold Bridge.clearConversations
  generalize s.store.conversationModels.entries.map Sigma.snd = addresses
  induction addresses generalizing s with
  | nil => exact h
  | cons first rest ih => exact ih (h.change _ _)

theorem Fresh.clearConversations (h : Fresh fromVariant s) :
    Fresh fromVariant s.clearConversations := by
  unfold Bridge.clearConversations
  generalize s.store.conversationModels.entries.map Sigma.snd = addresses
  induction addresses generalizing s with
  | nil => exact h
  | cons first rest ih =>
    have hfirst : Fresh fromVariant (s.change (.conversation first) .clear) := h.change trivial
    exact ih hfirst

/-- A reset empties the models and makes the lobby active; then it looks the lobby up. -/
theorem resetSessionData_eq (s : Bridge V J) (lobby : Row V) (address : ℕ) :
    ∃ c : Bridge V J, s.resetSessionData lobby address = c.select "room:lobby" address ∧
      (Kept s → Kept c) ∧ (∀ fromVariant : Variant V → J, Fresh fromVariant s → Fresh fromVariant c) ∧
      (address ∈ c.store.conversations ↔ address ∈ s.store.conversations) := by
  refine ⟨_, rfl, fun h => ?_, fun fromVariant h => ?_, ?_⟩
  · have hkept := (((h.change .room (.replaceRows [lobby])).change .directMessage
      (.replaceRows [])).change .member (.replaceRows [])).clearConversations
    exact ⟨hkept.used, hkept.single, hkept.live, hkept.lists⟩
  · have hrooms : Fresh fromVariant (s.change .room (.replaceRows [lobby])) := h.change trivial
    have hdirect : Fresh fromVariant ((s.change .room (.replaceRows [lobby])).change
      .directMessage (.replaceRows [])) := hrooms.change trivial
    have hmembers : Fresh fromVariant (((s.change .room (.replaceRows [lobby])).change
      .directMessage (.replaceRows [])).change .member (.replaceRows [])) := hdirect.change trivial
    exact hmembers.clearConversations
  · exact (conversations_clearConversations _ address).trans <| (conversations_change _ _ _).trans <|
      (conversations_change _ _ _).trans (conversations_change _ _ _)

theorem Kept.resetSessionData (h : Kept s) (lobby : Row V) {address : ℕ}
    (hfree : address ∉ s.store.conversations) : Tended (s.resetSessionData lobby address) := by
  obtain ⟨c, heq, hkept, -, hsame⟩ := resetSessionData_eq s lobby address
  rw [heq]
  exact (hkept h).select "room:lobby" (mt hsame.1 hfree)

theorem Fresh.resetSessionData (h : Fresh fromVariant s) (lobby : Row V) {address : ℕ}
    (hfree : address ∉ s.store.conversations) :
    Fresh fromVariant (s.resetSessionData lobby address) := by
  obtain ⟨c, heq, -, hfresh, hsame⟩ := resetSessionData_eq s lobby address
  rw [heq]
  exact (hfresh fromVariant h).select "room:lobby" (mt hsame.1 hfree)

variable (fromVariant) in
theorem Tended.step (h : Tended s) (event : BridgeEvent V) : Tended (s.step fromVariant event) := by
  cases event with
  | change ref operation => exact h.change ref operation
  | ensureConversationModel key address =>
    unfold Bridge.step
    dsimp only
    split_ifs with hfree
    · exact h
    obtain ⟨hkept, hkey, hmodel, -, hsame⟩ := h.toKept.ensureConversationModel key hfree
    obtain ⟨hactive, hconnected⟩ := hsame
      (AList.lookup_isSome.1 (Option.isSome_iff_exists.2 ⟨_, h.active⟩))
    refine ⟨hkept, ?_, ?_⟩
    · rw [hkey, hmodel, hactive]
      exact h.active
    · rw [hmodel]
      exact hconnected _ h.active h.connected
  | select key address =>
    unfold Bridge.step
    dsimp only
    split_ifs with hfree
    · exact h
    · exact h.toKept.select key hfree
  | resetSessionData lobby address =>
    unfold Bridge.step
    dsimp only
    split_ifs with hfree
    · exact h
    · exact h.toKept.resetSessionData lobby hfree
  | buildState => exact ⟨⟨h.used, h.single, h.live, h.lists⟩, h.active, h.connected⟩

theorem Fresh.step (h : Fresh fromVariant s) {event : BridgeEvent V}
    (hf : s.faithful fromVariant event) : Fresh fromVariant (s.step fromVariant event) := by
  cases event with
  | change ref operation => exact h.change hf
  | ensureConversationModel key address =>
    unfold Bridge.step
    dsimp only
    split_ifs with hfree
    · exact h
    · exact h.ensureConversationModel key hfree
  | select key address =>
    unfold Bridge.step
    dsimp only
    split_ifs with hfree
    · exact h
    · exact h.select key hfree
  | resetSessionData lobby address =>
    unfold Bridge.step
    dsimp only
    split_ifs with hfree
    · exact h
    · exact h.resetSessionData lobby hfree
  | buildState => exact Cache.good_refresh h

/-! ### The arrays of the state -/

/-- The store of a new controller, whose only conversation is the lobby. -/
def newStore : ModelStore V where
  roomModel :=
    { roles := ["roomName", "memberCount", "unreadCount", "ownerCode", "private", "canManage"] }
  directMessageModel := { roles := ["displayName", "userCode", "unreadCount"] }
  memberModel := { roles := ["displayName", "userCode", "online", "admin"] }
  conversations := (∅ : AList fun _ : ℕ => ChatModel V).insert 0 { roles := ModelStore.messageRoles }
  conversationModels := (∅ : AList fun _ : String => ℕ).insert "room:lobby" 0
  accessOrder := (∅ : AList fun _ : String => ℕ).insert "room:lobby" 1
  accessSequence := 1
  activeConversationKey := "room:lobby"
  messageModel := 0

variable (fromVariant) in
/-- A new bridge: the models are connected, and a first state is built. -/
def start : Bridge V J :=
  let snapshots := ((({} : Cache ModelRef (List (List (String × J)))).connect .room).connect
    .directMessage).connect (.conversation 0) |>.connect .member
  (({ store := newStore, snapshots } : Bridge V J).buildState fromVariant).1

omit [VariantEquals V] in
theorem fresh_start : Fresh fromVariant (start fromVariant : Bridge V J) :=
  Cache.good_refresh <| Cache.good_connect (Cache.good_connect (Cache.good_connect
    (Cache.good_connect (Cache.good_empty
      (({ store := newStore, snapshots := {} } : Bridge V J).shown fromVariant))
      .room) .directMessage) (.conversation 0)) .member

omit [VariantEquals V] in
theorem tended_start : Tended (start fromVariant : Bridge V J) := by
  have hkeys : ∀ key address, (newStore : ModelStore V).conversationModels.lookup key =
      some address → key = "room:lobby" ∧ address = 0 := by
    intro key address hkey
    change ((∅ : AList fun _ : String => ℕ).insert "room:lobby" 0).lookup key = _ at hkey
    by_cases hlobby : key = "room:lobby"
    · subst hlobby
      rw [AList.lookup_insert] at hkey
      exact ⟨rfl, (Option.some.inj hkey).symm⟩
    · rw [AList.lookup_insert_ne hlobby, AList.lookup_empty] at hkey
      cases hkey
  have hlobby : 0 ∈ (newStore : ModelStore V).conversations := (AList.mem_insert _).2 (.inl rfl)
  have hconnected : (start fromVariant : Bridge V J).snapshots.connected =
      [.member, .conversation 0, .directMessage, .room] := rfl
  exact {
    used := fun key address hkey => (hkeys key address hkey).2 ▸ hlobby
    single := fun key other address hkey hother =>
      (hkeys key address hkey).1.trans (hkeys other address hother).1.symm
    live := by
      intro address hc
      rw [hconnected] at hc
      obtain rfl : address = 0 := by simpa using hc
      exact hlobby
    lists := by
      rw [hconnected]
      decide
    active := AList.lookup_insert _
    connected := by
      rw [hconnected]
      exact List.mem_cons_of_mem _ List.mem_cons_self }

variable (fromVariant) in
/-- The arrays of rooms, direct messages, active messages and members, read when `s` is reached, are the
models at that moment. -/
def Current (s : Bridge V J) : Prop :=
  (s.buildState fromVariant).2 =
    { rooms := s.store.roomModel.serializeModel fromVariant
      directMessages := s.store.directMessageModel.serializeModel fromVariant
      activeMessages := (s.store.model (.conversation s.store.messageModel)).serializeModel fromVariant
      members := s.store.memberModel.serializeModel fromVariant }

variable (fromVariant) in
/-- The arrays are the models in every state that is reached by steps that mask no change. -/
theorem snapshots_eq_serializeModel {events : List (BridgeEvent V)}
    (hfaithful : Along (step fromVariant) (faithful fromVariant) (start fromVariant) events) :
    (run (step fromVariant) (start fromVariant : Bridge V J) events).Current fromVariant := by
  generalize hrun : run (step fromVariant) (start fromVariant : Bridge V J) events = s
  have hs : Tended s :=
    hrun ▸ run_invariant (step fromVariant) (fun _ e h => h.step fromVariant e) tended_start events
  have hfresh : Fresh fromVariant s := hrun ▸ run_invariant_along (step fromVariant)
    (fun _ _ hf h => h.step hf) fresh_start hfaithful
  have hshown : ∀ ref, ref ∈ s.snapshots.connected →
      ((s.snapshots.refresh (s.shown fromVariant)).cached.lookup ref).getD [] =
        s.shown fromVariant ref := by
    intro ref href
    rw [Cache.lookup_refresh hfresh href, Option.getD_some]
  unfold Current buildState
  rw [BridgeState.mk.injEq]
  exact ⟨hshown .room (hs.lists _ (by simp)), hshown .directMessage (hs.lists _ (by simp)),
    hshown _ hs.connected, hshown .member (hs.lists _ (by simp))⟩

/-! ### A room with a number of unread messages -/

/-- A row that has nothing but a number of unread messages. -/
def unread (count : Variant ℤ) : Row ℤ where
  values := Finmap.singleton "unreadCount" count
  messageID_text := by
    intro v hv
    rw [Finmap.lookup_eq_none.2 (by rw [Finmap.mem_singleton]; decide)] at hv
    cases hv

/-- The room has no unread message, which a state shows, and its row is updated. -/
def updatesUnread (count : Variant ℤ) : List (BridgeEvent ℤ) :=
  [.change .room (.append (unread (.other 0))), .buildState,
    .change .room (.updateRows [unread count])]

theorem snapshots_eq_serializeModel_unread :
    (run (step id) (start id) (updatesUnread (.other 1))).Current (id : Variant ℤ → Variant ℤ) := by
  refine snapshots_eq_serializeModel id ⟨trivial, trivial, fun _ _ hmasks => ?_, trivial⟩
  -- the numbers are different
  have hdiffer : ∃ p ∈ ((run (step id) (start id : Bridge ℤ (Variant ℤ))
      ((updatesUnread (.other 1)).take 2)).store.model .room).rows.zip [unread (.other 1)],
        ∃ role ∈ p.2.values.keys, (p.1.value role).equals (p.2.value role) = false := by
    decide +kernel
  obtain ⟨p, hp, role, hrole, hequal⟩ := hdiffer
  rw [hmasks.1 p hp role hrole] at hequal
  cases hequal

/-- A number is replaced by its text: the row changes without a signal, and the state keeps the
number. -/
theorem equal_text_stale :
    ¬ ∀ (V J : Type) [VariantEquals V] (fromVariant : Variant V → J) (events : List (BridgeEvent V)),
      (run (step fromVariant) (start fromVariant) events).Current fromVariant := by
  intro h
  have hrooms := congrArg BridgeState.rooms (h ℤ (Variant ℤ) id (updatesUnread (.text "0")))
  exact absurd hrooms (by decide +kernel)

end Bridge

end LanChat.Gui
