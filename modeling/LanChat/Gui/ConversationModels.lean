import Mathlib.Data.List.AList
import Mathlib.Data.List.Nodup
import LanChat.Gui.Controller

/-!
# The conversations that the desktop client shows

`chat_model.cpp` and what `gui_chat_controller.cpp` keeps in it: one list of rows for each
conversation, at most a thousand rows each, and at most eight conversations.

* `appendRows`: a row whose message id is in the list already replaces the row that has it;
* `ensureConversationModel`: the list of a conversation, which may push out the list that was used
  longest ago;
* `handleMessage`: the row of a chat or a private chat.

Attachments and the counts of unread messages are left out.
-/

namespace LanChat

namespace Gui

open GoStrings

/-- A row of a conversation. -/
structure MessageRow where
  messageID : String
  displayName : String
  userCode : String
  time : String
  content : String
  selfMessage : Bool
  systemMessage : Bool
  deliveryState : String
  deriving DecidableEq, Repr

namespace ChatListModel

/-- `kMaxRowsPerModel`. -/
def maxRowsPerModel : ℕ := 1000

/-- `findRow` for the role `messageId`. -/
def findRow (rows : List MessageRow) (messageID : String) : Option ℕ :=
  rows.findIdx? fun row => row.messageID == messageID

/-- The rows of the list, and the rows that it will get. -/
structure Merge where
  rows : List MessageRow
  incoming : List MessageRow

/-- One row of `appendRows`; every role is in the row, so an update leaves nothing of the old
one. -/
def mergeRow (m : Merge) (row : MessageRow) : Merge :=
  if row.messageID = "" then { m with incoming := m.incoming ++ [row] }
  else match findRow m.rows row.messageID with
    | some i => { m with rows := m.rows.set i row }
    | none =>
      match findRow m.incoming row.messageID with
      | some i => { m with incoming := m.incoming.set i row }
      | none => { m with incoming := m.incoming ++ [row] }

/-- `incoming.mid(incoming.size() - kMaxRowsPerModel)` when there are more. -/
def lastRows (incoming : List MessageRow) : List MessageRow :=
  incoming.drop (incoming.length - maxRowsPerModel)

/-- `appendRows`. -/
def appendRows (rows new : List MessageRow) : List MessageRow :=
  let merged := new.foldl mergeRow ⟨rows, []⟩
  if merged.incoming = [] then merged.rows
  else
    let incoming := lastRows merged.incoming
    let overflow := merged.rows.length + incoming.length - maxRowsPerModel
    if merged.rows.length ≤ overflow ∧ merged.rows ≠ [] then incoming
    else merged.rows.drop overflow ++ incoming

end ChatListModel

/-- `localUserName_` and `localUserCode_`. -/
structure LocalUser where
  name : String
  code : String

/-- The conversations of a controller. -/
structure Conversations where
  models : AList fun _ : String => List MessageRow
  accessOrder : AList fun _ : String => ℕ
  accessSequence : ℕ
  activeConversationKey : String
  localMessageCounter : ℕ

namespace Conversations

open ChatListModel

/-- `kMaxCachedConversationModels`. -/
def maxCachedConversationModels : ℕ := 8

/-- A new controller. -/
def start : Conversations where
  models := (∅ : AList fun _ : String => List MessageRow).insert (Controller.roomKey "lobby") []
  accessOrder := (∅ : AList fun _ : String => ℕ).insert (Controller.roomKey "lobby") 1
  accessSequence := 1
  activeConversationKey := Controller.roomKey "lobby"
  localMessageCounter := 0

/-- The rows that are shown for a conversation. -/
def rows (s : Conversations) (key : String) : List MessageRow := (s.models.lookup key).getD []

/-- The search for the conversation that was used longest ago comes to a conversation. -/
def leastRecent (s : Conversations) (protectedKey : String) (least : Option (String × ℕ))
    (key : String) : Option (String × ℕ) :=
  if key = s.activeConversationKey ∨ key = protectedKey then least
  else
    let order := (s.accessOrder.lookup key).getD 0
    match least with
    | some (_, leastOrder) => if order < leastOrder then some (key, order) else least
    | none => some (key, order)

/-- The conversation that was used longest ago, but for the active one and a protected one. -/
def leastRecentlyUsed (s : Conversations) (protectedKey : String) : Option (String × ℕ) :=
  s.models.keys.foldl (s.leastRecent protectedKey) none

/-- The loop of `trimConversationModelCache`; every round takes a conversation away. -/
def trimLoop : ℕ → Conversations → String → Conversations
  | 0, s, _ => s
  | rounds + 1, s, protectedKey =>
    if s.models.keys.length ≤ maxCachedConversationModels then s
    else match s.leastRecentlyUsed protectedKey with
      | none => s
      | some (key, _) =>
        trimLoop rounds
          { s with models := s.models.erase key, accessOrder := s.accessOrder.erase key } protectedKey

/-- `trimConversationModelCache`. -/
def trimConversationModelCache (s : Conversations) (protectedKey : String) : Conversations :=
  trimLoop s.models.keys.length s protectedKey

/-- `ensureConversationModel`. -/
def ensureConversationModel (s : Conversations) (key : String) : Conversations :=
  let used := { s with
    accessOrder := s.accessOrder.insert key (s.accessSequence + 1)
    accessSequence := s.accessSequence + 1 }
  if (s.models.lookup key).isSome then used
  else { used with models := s.models.insert key [] }.trimConversationModelCache key

/-- `selectRoom` and `selectDirectMessage`. -/
def select (s : Conversations) (key : String) : Conversations :=
  { s.ensureConversationModel key with activeConversationKey := key }

/-- `resetSessionData`. -/
def resetSessionData (s : Conversations) : Conversations :=
  let lobby := Controller.roomKey "lobby"
  { s with
    models := s.models.keys.foldl (fun models key => models.insert key []) s.models
    activeConversationKey := lobby }.ensureConversationModel lobby

/-- The message is from the local user. -/
def isSelf (user : LocalUser) (message : Message) : Bool :=
  user.code != "" && QString.equalFold message.userCode user.code

/-- The conversation of a message: a private chat belongs to the other user. -/
def conversationKey (user : LocalUser) (message : Message) : String :=
  if message.type = .chat then
    Controller.roomKey (if message.room = "" then "lobby" else message.room)
  else
    Controller.directKey (if isSelf user message then message.targetUserCode else message.userCode)

/-- `effectiveUsername`. -/
def effectiveUsername (user : LocalUser) (message : Message) : String :=
  if trimSpace message.username = "" then
    if isSelf user message then user.name
    else if trimSpace message.userCode = "" then "未知用户" else message.userCode
  else message.username

/-- The row of a message. -/
def messageRow (user : LocalUser) (time messageID : String) (message : Message) : MessageRow where
  messageID
  displayName := effectiveUsername user message
  userCode := message.userCode
  time
  content := message.content
  selfMessage := isSelf user message
  systemMessage := false
  deliveryState := if message.deliveryState = "" then "sent" else message.deliveryState

/-- `handleMessage` for a `chat`, a `private_chat` or an `offline_message`. -/
def handleMessage (user : LocalUser) (time : String) (message : Message) (s : Conversations) :
    Conversations :=
  let s := if message.messageID = "" then
    { s with localMessageCounter := s.localMessageCounter + 1 } else s
  let messageID :=
    if message.messageID = "" then "local-" ++ toString s.localMessageCounter else message.messageID
  let key := conversationKey user message
  let s := s.ensureConversationModel key
  { s with
    models := s.models.insert key (appendRows (s.rows key) [messageRow user time messageID message]) }

end Conversations

/-! ### Rows -/

namespace ChatListModel

variable {rows : List MessageRow} {row : MessageRow}

/-- One row with an id replaces the row with this id, or it is appended; rows make room for it only
when there is none. -/
theorem appendRows_one (rows : List MessageRow) (hid : row.messageID ≠ "") :
    (∃ i r, rows[i]? = some r ∧ r.messageID = row.messageID ∧
        appendRows rows [row] = rows.set i row) ∨
      ((∀ r ∈ rows, r.messageID ≠ row.messageID) ∧
        ∃ n, (rows.length < maxRowsPerModel → n = 0) ∧
          appendRows rows [row] = rows.drop n ++ [row]) := by
  unfold appendRows
  simp only [List.foldl_cons, List.foldl_nil, mergeRow, if_neg hid]
  cases hfind : findRow rows row.messageID with
  | some i =>
    left
    obtain ⟨hi, hmatch, -⟩ := List.findIdx?_eq_some_iff_getElem.1 hfind
    exact ⟨i, rows[i], List.getElem?_eq_getElem hi, beq_iff_eq.1 hmatch, rfl⟩
  | none =>
    right
    have hnone : ∀ r ∈ rows, r.messageID ≠ row.messageID := by
      intro r hr hsame
      have hfree := List.findIdx?_eq_none_iff.1 hfind r hr
      rw [beq_eq_false_iff_ne] at hfree
      exact hfree hsame
    refine ⟨hnone, ?_⟩
    have hempty : findRow [] row.messageID = none := rfl
    have hlast : lastRows [row] = [row] := by simp [lastRows, maxRowsPerModel]
    simp only [hempty, List.nil_append, hlast]
    rw [if_neg (List.cons_ne_nil row []), List.length_singleton]
    split_ifs with hfull
    · refine ⟨rows.length, fun hroom => ?_, by rw [List.drop_length, List.nil_append]⟩
      have hzero : rows.length + 1 - maxRowsPerModel = 0 := Nat.sub_eq_zero_of_le hroom
      exact Nat.le_zero.1 (hzero ▸ hfull.1)
    · exact ⟨_, fun hroom => Nat.sub_eq_zero_of_le hroom, rfl⟩

/-- Whatever is in the list afterwards was there before or is the new row. -/
theorem mem_appendRows_one (hid : row.messageID ≠ "") {r : MessageRow}
    (hr : r ∈ appendRows rows [row]) : r = row ∨ r ∈ rows := by
  rcases appendRows_one rows hid with ⟨i, old, -, -, happend⟩ | ⟨-, n, -, happend⟩
  · rw [happend] at hr
    exact (List.mem_or_eq_of_mem_set hr).symm
  · rw [happend] at hr
    rcases List.mem_append.1 hr with hr | hr
    · exact .inr (List.mem_of_mem_drop hr)
    · exact .inl (List.mem_singleton.1 hr)

/-- A list has one row for each message id. -/
def Distinct (rows : List MessageRow) : Prop := (rows.map MessageRow.messageID).Nodup

theorem distinct_appendRows_one (hid : row.messageID ≠ "") (hd : Distinct rows) :
    Distinct (appendRows rows [row]) := by
  unfold Distinct at hd ⊢
  rcases appendRows_one rows hid with ⟨i, old, hold, hsame, happend⟩ | ⟨hnone, n, -, happend⟩
  · rw [happend, List.map_set, ← hsame]
    have hi : (rows.map MessageRow.messageID)[i]? = some old.messageID := by
      rw [List.getElem?_map, hold]
      rfl
    have hkept : (rows.map MessageRow.messageID).set i old.messageID =
        rows.map MessageRow.messageID := by
      obtain ⟨hlt, hget⟩ := List.getElem?_eq_some_iff.1 hi
      rw [← hget, List.set_getElem_self]
    rwa [hkept]
  · rw [happend, List.map_append, List.map_drop]
    refine List.nodup_append.2 ⟨hd.sublist (List.drop_sublist n _), List.nodup_singleton _, ?_⟩
    rintro x hx y hy rfl
    obtain rfl := List.mem_singleton.1 hy
    obtain ⟨r, hr, hsame⟩ := List.mem_map.1 (List.mem_of_mem_drop hx)
    exact hnone r hr hsame

/-- In a list with one row for each id the id says which row it is. -/
theorem Distinct.eq (hd : Distinct rows) {r r' : MessageRow} (hr : r ∈ rows) (hr' : r' ∈ rows)
    (hsame : r'.messageID = r.messageID) : r' = r :=
  List.inj_on_of_nodup_map hd hr' hr hsame

end ChatListModel

/-! ### The cache -/

namespace Conversations

open ChatListModel

variable {s : Conversations} {key : String}

/-- The protected conversation is not chosen. -/
theorem leastRecentlyUsed_ne {protectedKey : String} {order : ℕ}
    (hleast : s.leastRecentlyUsed protectedKey = some (key, order)) : key ≠ protectedKey := by
  unfold leastRecentlyUsed at hleast
  revert hleast
  suffices hfold : ∀ (keys : List String) (least : Option (String × ℕ)),
      (∀ k o, least = some (k, o) → k ≠ protectedKey) →
      ∀ k o, keys.foldl (s.leastRecent protectedKey) least = some (k, o) → k ≠ protectedKey from
    hfold s.models.keys none (fun _ _ h => by cases h) key order
  intro keys
  induction keys with
  | nil => exact fun least hne k o hk => hne k o hk
  | cons first rest ih =>
    intro least hne
    refine ih _ fun k o hk => ?_
    unfold leastRecent at hk
    split at hk
    · exact hne k o hk
    rename_i hfree
    have hfirst : first ≠ protectedKey := fun h => hfree (.inr h)
    dsimp only at hk
    split at hk
    · split at hk
      · cases hk
        exact hfirst
      · exact hne k o hk
    · cases hk
      exact hfirst

theorem rows_of_lookup {t : Conversations} (hsame : t.models.lookup key = s.models.lookup key) :
    t.rows key = s.rows key := by
  unfold rows
  rw [hsame]

theorem rows_of_insert {t : Conversations} {new : List MessageRow}
    (hmodels : t.models = s.models.insert key new) : t.rows key = new := by
  unfold rows
  rw [hmodels, AList.lookup_insert]
  rfl

theorem rows_of_insert_ne {t : Conversations} {other : String} {new : List MessageRow}
    (hmodels : t.models = s.models.insert other new) (hkey : key ≠ other) :
    t.rows key = s.rows key := by
  unfold rows
  rw [hmodels, AList.lookup_insert_ne hkey]

/-- A conversation keeps its rows, or it is gone; the protected one is kept. -/
theorem rows_trimLoop (rounds : ℕ) (s : Conversations) (protectedKey : String) :
    ((trimLoop rounds s protectedKey).rows key = s.rows key ∨
      (trimLoop rounds s protectedKey).rows key = []) ∧
      (key = protectedKey → (trimLoop rounds s protectedKey).rows key = s.rows key) := by
  induction rounds generalizing s with
  | zero => exact ⟨.inl rfl, fun _ => rfl⟩
  | succ rounds ih =>
    unfold trimLoop
    split
    · exact ⟨.inl rfl, fun _ => rfl⟩
    split
    · exact ⟨.inl rfl, fun _ => rfl⟩
    rename_i least order hleast
    have hne := leastRecentlyUsed_ne hleast
    have hrest := ih { s with
      models := s.models.erase least, accessOrder := s.accessOrder.erase least }
    by_cases hkey : key = least
    · subst hkey
      have hgone : ({ s with
          models := s.models.erase key
          accessOrder := s.accessOrder.erase key } : Conversations).rows key = [] := by
        unfold rows
        rw [AList.lookup_erase]
        rfl
      rw [hgone] at hrest
      exact ⟨.inr (hrest.1.elim id id), fun h => absurd h hne⟩
    · have hkept : ({ s with
          models := s.models.erase least
          accessOrder := s.accessOrder.erase least } : Conversations).rows key = s.rows key :=
        rows_of_lookup (AList.lookup_erase_ne hkey)
      rwa [hkept] at hrest

theorem rows_ensureConversationModel (s : Conversations) (used : String) :
    ((s.ensureConversationModel used).rows key = s.rows key ∨
      (s.ensureConversationModel used).rows key = []) ∧
      (key = used → (s.ensureConversationModel used).rows key = s.rows key) := by
  unfold ensureConversationModel
  dsimp only
  split
  · exact ⟨.inl rfl, fun _ => rfl⟩
  · rename_i hnew
    obtain ⟨t, ht, hmodels⟩ : ∃ t : Conversations, { s with
        models := s.models.insert used []
        accessOrder := s.accessOrder.insert used (s.accessSequence + 1)
        accessSequence := s.accessSequence + 1 } = t ∧ t.models = s.models.insert used [] :=
      ⟨_, rfl, rfl⟩
    rw [ht]
    have hrows : t.rows key = s.rows key := by
      by_cases hkey : key = used
      · subst hkey
        rw [rows_of_insert hmodels]
        unfold rows
        cases hlookup : s.models.lookup key with
        | none => rfl
        | some rows =>
          rw [hlookup] at hnew
          exact absurd rfl hnew
      · exact rows_of_insert_ne hmodels hkey
    rw [← hrows]
    exact rows_trimLoop _ t used

theorem rows_select (s : Conversations) (used : String) :
    (s.select used).rows key = s.rows key ∨ (s.select used).rows key = [] :=
  (rows_ensureConversationModel s used).1

/-- The rows of some conversations are replaced, one conversation after the other. -/
theorem lookup_foldl_insert (g : String → List MessageRow) (keys : List String)
    (models : AList fun _ : String => List MessageRow) :
    ((keys.foldl (fun models key => models.insert key (g key)) models).lookup key).getD [] =
      if key ∈ keys then g key else (models.lookup key).getD [] := by
  induction keys generalizing models with
  | nil => rfl
  | cons first rest ih =>
    rw [List.foldl_cons, ih]
    by_cases hfirst : key = first
    · subst hfirst
      simp
    · simp [hfirst, AList.lookup_insert_ne hfirst]

theorem rows_eq_nil (hmem : key ∉ s.models.keys) : s.rows key = [] := by
  unfold rows
  rw [AList.lookup_eq_none.2 fun h => hmem (AList.mem_keys.1 h)]
  rfl

theorem rows_start : start.rows key = [] := by
  unfold rows start
  by_cases hkey : key = Controller.roomKey "lobby"
  · rw [hkey, AList.lookup_insert]
    rfl
  · rw [AList.lookup_insert_ne hkey, AList.lookup_empty]
    rfl

theorem rows_resetSessionData (s : Conversations) : s.resetSessionData.rows key = [] := by
  have hempty : ∀ t : Conversations, t.rows key = [] →
      (t.ensureConversationModel (Controller.roomKey "lobby")).rows key = [] := by
    intro t ht
    exact (rows_ensureConversationModel t _).1.elim (fun h => h.trans ht) id
  refine hempty _ ((lookup_foldl_insert (fun _ => []) s.models.keys s.models).trans ?_)
  split_ifs with hmem
  · rfl
  · exact rows_eq_nil hmem

/-- A message with an id goes to its conversation; the others stay, or one of them is pushed out. -/
theorem rows_handleMessage (user : LocalUser) (time : String) {message : Message}
    (hid : message.messageID ≠ "") (s : Conversations) :
    (s.handleMessage user time message).rows (conversationKey user message) =
        appendRows (s.rows (conversationKey user message))
          [messageRow user time message.messageID message] ∧
      ∀ key, key ≠ conversationKey user message →
        (s.handleMessage user time message).rows key = s.rows key ∨
          (s.handleMessage user time message).rows key = [] := by
  have hself : (s.ensureConversationModel (conversationKey user message)).rows
      (conversationKey user message) = s.rows (conversationKey user message) :=
    (rows_ensureConversationModel s _).2 rfl
  unfold handleMessage
  simp only [if_neg hid]
  constructor
  · rw [hself]
    exact rows_of_insert rfl
  · intro key hkey
    rw [rows_of_insert_ne rfl hkey]
    exact (rows_ensureConversationModel s _).1

end Conversations

end Gui

end LanChat
