import LanChat.Client.Resume

/-!
# Frames of the server in the client

What the client makes of a frame that the server has marshalled.

* `Message.value`: the JSON value of a message, `crypto` and the entries of `messages` included;
* `Message.received`: the client's message with the same fields;
* `readMessage_value`: `receive_message_impl` makes it of every frame, up to its last checks.
-/

namespace LanChat

open Json

section Value

variable (read : String → Json)

/-- The members of an entry of `messages`; `read` is the value of a raw text. -/
def HistoryMessage.fields (m : HistoryMessage) : List (String × Option Json) :=
  [("type", some (.text m.type.name)), ("message_id", textField m.messageID),
    ("username", textField m.username), ("user_code", textField m.userCode),
    ("target_user_code", textField m.targetUserCode), ("room", textField m.room),
    ("private", boolField m.isPrivate), ("content", textField m.content),
    ("delivery_state", textField m.deliveryState), ("created_at", textField m.createdAt),
    ("recalled", boolField m.recalled), ("crypto", rawField read m.crypto)]

/-- The value of an entry of `messages`. -/
def HistoryMessage.value (m : HistoryMessage) : Json := ofFields (m.fields read)

/-- The members of a message. -/
def Message.fields (m : Message) : List (String × Option Json) :=
  [("type", some (.text m.type.name)), ("message_id", textField m.messageID),
    ("command_id", textField m.commandID), ("username", textField m.username),
    ("user_code", textField m.userCode), ("target_user_code", textField m.targetUserCode),
    ("room", textField m.room), ("private", boolField m.isPrivate),
    ("users", arrayField (m.users.map .text)), ("rooms", arrayField (m.rooms.map .text)),
    ("user_details", arrayField (m.userDetails.map OnlineUser.json)),
    ("room_details", arrayField (m.roomDetails.map RoomInfo.json)),
    ("content", textField m.content), ("delivery_state", textField m.deliveryState),
    ("created_at", textField m.createdAt), ("before_message_id", textField m.beforeMessageID),
    ("search_query", textField m.searchQuery), ("limit", intField m.limit),
    ("has_more", boolField m.hasMore), ("recalled", boolField m.recalled),
    ("messages", arrayField (m.messages.map (HistoryMessage.value read))),
    ("protocol_version", textField m.protocolVersion),
    ("capabilities", arrayField (m.capabilities.map .text)), ("crypto", rawField read m.crypto),
    ("group_id", textField m.groupID), ("epoch", intField m.epoch.toNat),
    ("proposal_id", textField m.proposalID), ("action", textField m.action),
    ("key_package", textField m.keyPackage), ("proposal", textField m.proposal),
    ("commit", textField m.commit), ("welcome", textField m.welcome),
    ("welcome_digest", textField m.welcomeDigest), ("attachment_id", textField m.attachmentID),
    ("upload_id", textField m.uploadID), ("logical_size", intField m.logicalSize),
    ("chunk_size", intField m.chunkSize), ("expires_at", textField m.expiresAt),
    ("chunk_index", intField m.chunkIndex), ("ciphertext", textField m.ciphertext),
    ("cipher_sha256", textField m.cipherSHA256), ("whole_sha256", textField m.wholeSha256),
    ("received_indexes", arrayField (m.receivedIndexes.map .int)),
    ("received_bitmap", textField m.receivedBitmap), ("is_admin", boolField m.isAdmin)]

/-- The value of a message. -/
def Message.value (m : Message) : Json := ofFields (m.fields read)

end Value

/-- Without `crypto` and `messages` it is the value whose text `json.Marshal` writes. -/
theorem Message.json_eq_value {m : Message} (hcrypto : m.crypto = "") (hmessages : m.messages = [])
    (read : String → Json) : m.json = m.value read := by
  have hraw : rawField read m.crypto = none := by
    rw [hcrypto]
    rfl
  have hnested : arrayField (m.messages.map (HistoryMessage.value read)) = none := by
    rw [hmessages]
    rfl
  unfold Message.json Message.value Message.fields ofFields
  simp only [hraw, hnested, members_some, members_none, members_text, members_bool, members_int,
    members_array, members_nil, List.append_nil, List.append_assoc]

namespace Client

/-! ### Fields -/

section Fields

variable {object : Json} {key : String}

theorem readString_text {error s : String} (h : object.get? key = textField s) :
    readString error object key = .ok s := by
  unfold readString
  rw [h]
  unfold textField
  by_cases hs : s = "" <;> simp [hs]

theorem readBool_bool {error : String} {b : Bool} (h : object.get? key = boolField b) :
    readBool error object key = .ok b := by
  unfold readBool
  rw [h]
  cases b <;> rfl

theorem readInt_int {error : String} {bits : ℕ} {n : ℤ} (h : object.get? key = intField n) :
    readInt error bits object key = .ok (n.bmod (2 ^ bits)) := by
  unfold readInt
  rw [h]
  unfold intField
  by_cases hn : n = 0
  · subst hn
    simp
  · simp [hn]

theorem readEpoch_int {n : ℕ} (h : object.get? "epoch" = intField n) :
    readEpoch object = .ok n := by
  unfold readEpoch
  rw [h]
  unfold intField
  by_cases hn : n = 0
  · subst hn
    rfl
  · have hpos : ¬ (n : ℤ) < 0 := by omega
    simp [hn, hpos]

/-- An array whose entries are all read. -/
theorem readArray_map {α β : Type} {error : String} {asEntry : Json → Except String β}
    {f : α → Json} {g : α → β} {l : List α} (h : object.get? key = arrayField (l.map f))
    (hentry : ∀ a ∈ l, asEntry (f a) = .ok (g a)) :
    readArray error asEntry object key = .ok (l.map g) := by
  have hall : (l.map f).mapM asEntry = .ok (l.map g) := by
    clear h
    induction l with
    | nil => rfl
    | cons a l ih =>
      rw [List.map_cons, List.mapM_cons, hentry a List.mem_cons_self,
        ih fun b hb => hentry b (List.mem_cons_of_mem _ hb)]
      rfl
  unfold readArray
  rw [h]
  cases l with
  | nil => rfl
  | cons a l => exact hall

end Fields

/-! ### Entries -/

/-- The client's entry of `user_details`. -/
def ofOnlineUser (u : LanChat.OnlineUser) : OnlineUser :=
  ⟨u.username, u.userCode, u.room, u.isAdmin⟩

/-- The client's entry of `room_details`. -/
def ofRoomInfo (r : LanChat.RoomInfo) : RoomInfo :=
  ⟨r.name, r.ownerCode, r.isPrivate, r.canManage⟩

/-- The client's entry of `messages`: nothing reads its `crypto`. -/
def ofHistoryMessage (m : HistoryMessage) : NestedMessage where
  type := m.type.name
  messageID := m.messageID
  deliveryState := m.deliveryState
  username := m.username
  userCode := m.userCode
  targetUserCode := m.targetUserCode
  room := m.room
  content := m.content
  createdAt := m.createdAt
  isPrivate := m.isPrivate
  recalled := m.recalled

theorem asOnlineUser_json (u : LanChat.OnlineUser) :
    asOnlineUser u.json = .ok (ofOnlineUser u) := by
  simp [asOnlineUser, LanChat.OnlineUser.json, get?_cons, ofOnlineUser]

theorem asRoomInfo_json (r : LanChat.RoomInfo) : asRoomInfo r.json = .ok (ofRoomInfo r) := by
  by_cases howner : r.ownerCode = ""
  · simp [asRoomInfo, LanChat.RoomInfo.json, get?, ofRoomInfo, optText, howner]
  · simp [asRoomInfo, LanChat.RoomInfo.json, get?, ofRoomInfo, optText, howner]

theorem asNestedMessage_value (read : String → Json) (m : HistoryMessage) :
    asNestedMessage (m.value read) = .ok (ofHistoryMessage m) := by
  have hget : ∀ key v, (key, v) ∈ m.fields read → (m.value read).get? key = v :=
    fun key v h => get?_ofFields (by simp [HistoryMessage.fields]) h
  obtain ⟨ms, hms⟩ : ∃ ms, m.value read = .object ms := ⟨_, rfl⟩
  rw [hms] at hget ⊢
  have htype : ∀ error, readString error (.object ms) "type" = .ok m.type.name := by
    intro error
    unfold readString
    rw [hget "type" (some (.text m.type.name)) (by simp [HistoryMessage.fields])]
  have htext : ∀ key s, (key, textField s) ∈ m.fields read →
      ∀ error, readString error (.object ms) key = .ok s :=
    fun key s h _ => readString_text (hget key _ h)
  have hbool : ∀ key b, (key, boolField b) ∈ m.fields read →
      ∀ error, readBool error (.object ms) key = .ok b :=
    fun key b h _ => readBool_bool (hget key _ h)
  unfold asNestedMessage
  simp only [htype, htext "message_id" m.messageID (by simp [HistoryMessage.fields]),
    htext "username" m.username (by simp [HistoryMessage.fields]),
    htext "user_code" m.userCode (by simp [HistoryMessage.fields]),
    htext "target_user_code" m.targetUserCode (by simp [HistoryMessage.fields]),
    htext "room" m.room (by simp [HistoryMessage.fields]),
    htext "content" m.content (by simp [HistoryMessage.fields]),
    htext "delivery_state" m.deliveryState (by simp [HistoryMessage.fields]),
    htext "created_at" m.createdAt (by simp [HistoryMessage.fields]),
    hbool "private" m.isPrivate (by simp [HistoryMessage.fields]),
    hbool "recalled" m.recalled (by simp [HistoryMessage.fields]), bind, Except.bind]
  rfl

/-! ### The message -/

/-- The message that the client has when it has read a frame, except for chunk indexes. -/
def received (read : String → Json) (dump : Json → String) (m : LanChat.Message) : Message where
  type := m.type.name
  username := m.username
  protocolVersion := m.protocolVersion
  messageID := m.messageID
  commandID := m.commandID
  deliveryState := m.deliveryState
  userCode := m.userCode
  targetUserCode := m.targetUserCode
  room := m.room
  content := m.content
  groupID := m.groupID
  keyPackage := m.keyPackage
  proposalID := m.proposalID
  action := m.action
  proposal := m.proposal
  commit := m.commit
  welcome := m.welcome
  welcomeDigest := m.welcomeDigest
  attachmentID := m.attachmentID
  uploadID := m.uploadID
  ciphertext := m.ciphertext
  cipherSHA256 := m.cipherSHA256
  expiresAt := m.expiresAt
  createdAt := m.createdAt
  beforeMessageID := m.beforeMessageID
  searchQuery := m.searchQuery
  isAdmin := m.isAdmin
  isPrivate := m.isPrivate
  hasMore := m.hasMore
  recalled := m.recalled
  limit := m.limit.bmod (2 ^ 32)
  epoch := m.epoch.toNat
  logicalSize := m.logicalSize.bmod (2 ^ 64)
  chunkSize := m.chunkSize.bmod (2 ^ 64)
  chunkIndex := m.chunkIndex.bmod (2 ^ 64)
  crypto := if m.crypto = "" then "" else dump (read m.crypto)
  receivedIndexes := []
  users := m.users
  rooms := m.rooms
  userDetails := m.userDetails.map ofOnlineUser
  roomDetails := m.roomDetails.map ofRoomInfo
  messages := m.messages.map ofHistoryMessage

/-- The names of the members of a message. -/
def fieldNames : List String :=
  ["type", "message_id", "command_id", "username", "user_code", "target_user_code", "room",
    "private", "users", "rooms", "user_details", "room_details", "content", "delivery_state",
    "created_at", "before_message_id", "search_query", "limit", "has_more", "recalled", "messages",
    "protocol_version", "capabilities", "crypto", "group_id", "epoch", "proposal_id", "action",
    "key_package", "proposal", "commit", "welcome", "welcome_digest", "attachment_id", "upload_id",
    "logical_size", "chunk_size", "expires_at", "chunk_index", "ciphertext", "cipher_sha256",
    "whole_sha256", "received_indexes", "received_bitmap", "is_admin"]

theorem get?_value {read : String → Json} {m : LanChat.Message} {key : String} {v : Option Json}
    (h : (key, v) ∈ m.fields read) : (m.value read).get? key = v := by
  have hnames : (m.fields read).map Prod.fst = fieldNames := rfl
  refine get?_ofFields ?_ h
  rw [hnames]
  decide +kernel

/-- The client reads every frame of the server up to its last checks. -/
theorem readMessage_value (read : String → Json) (dump : Json → String) {m : LanChat.Message}
    (hcrypto : m.crypto = "" ∨ ∃ ms, read m.crypto = .object ms) (hindexes : m.receivedIndexes = [])
    (hbitmap : m.receivedBitmap = "") :
    readMessage dump (m.value read) = checkBase64 (received read dump m) := by
  have htext : ∀ (n : ℕ) key s, (m.fields read)[n]? = some (key, textField s) →
      ∀ error, readString error (m.value read) key = .ok s :=
    fun n key s h _ => readString_text (get?_value (List.mem_of_getElem? h))
  have hbool : ∀ (n : ℕ) key b, (m.fields read)[n]? = some (key, boolField b) →
      ∀ error, readBool error (m.value read) key = .ok b :=
    fun n key b h _ => readBool_bool (get?_value (List.mem_of_getElem? h))
  have hint : ∀ (n : ℕ) key i, (m.fields read)[n]? = some (key, intField i) →
      ∀ error bits, readInt error bits (m.value read) key = .ok (i.bmod (2 ^ bits)) :=
    fun n key i h _ _ => readInt_int (get?_value (List.mem_of_getElem? h))
  have hlist : ∀ {α β : Type} (n : ℕ) key (f : α → Json) (g : α → β) (l : List α)
      (asEntry : Json → Except String β), (m.fields read)[n]? = some (key, arrayField (l.map f)) →
      (∀ a ∈ l, asEntry (f a) = .ok (g a)) →
      ∀ error, readArray error asEntry (m.value read) key = .ok (l.map g) :=
    fun n key f g l _ h hentry _ => readArray_map (get?_value (List.mem_of_getElem? h)) hentry
  have hget : ∀ (n : ℕ) key v, (m.fields read)[n]? = some (key, v) → (m.value read).get? key = v :=
    fun n key v h => get?_value (List.mem_of_getElem? h)
  have hepoch : readEpoch (m.value read) = .ok m.epoch.toNat :=
    readEpoch_int (hget 25 "epoch" _ rfl)
  have hcryptoField : readCrypto dump (m.value read) =
      .ok (if m.crypto = "" then "" else dump (read m.crypto)) := by
    unfold readCrypto
    rw [hget 23 "crypto" _ rfl]
    unfold rawField
    by_cases hc : m.crypto = ""
    · simp [hc]
    · obtain ⟨ms, hms⟩ := hcrypto.resolve_left hc
      simp [hc, hms]
  have hbits : readReceivedBitmap (m.value read) = .ok [] := by
    unfold readReceivedBitmap
    rw [hget 43 "received_bitmap" _ rfl, hbitmap]
    rfl
  have hnumbers : readReceivedIndexes (m.value read) = .ok [] := by
    unfold readReceivedIndexes readArray
    rw [hget 42 "received_indexes" _ rfl, hindexes]
    rfl
  have hstrings : ∀ (n : ℕ) key (l : List String), (m.fields read)[n]? =
      some (key, arrayField (l.map .text)) → ∀ error notText,
        readArray error (asString notText) (m.value read) key = .ok l := by
    intro n key l h error notText
    rw [hlist n key .text id l (asString notText) h (fun _ _ => rfl) error, List.map_id]
  unfold readMessage
  rw [hget 0 "type" _ rfl]
  simp only [hepoch, hcryptoField, hbits, hnumbers,
    hstrings 8 "users" m.users rfl, hstrings 9 "rooms" m.rooms rfl,
    hlist 10 "user_details" _ ofOnlineUser m.userDetails asOnlineUser rfl
      (fun u _ => asOnlineUser_json u),
    hlist 11 "room_details" _ ofRoomInfo m.roomDetails asRoomInfo rfl
      (fun r _ => asRoomInfo_json r),
    hlist 20 "messages" _ ofHistoryMessage m.messages asNestedMessage rfl
      (fun x _ => asNestedMessage_value read x),
    htext 1 "message_id" m.messageID rfl, htext 2 "command_id" m.commandID rfl,
    htext 3 "username" m.username rfl, htext 4 "user_code" m.userCode rfl,
    htext 5 "target_user_code" m.targetUserCode rfl, htext 6 "room" m.room rfl,
    htext 12 "content" m.content rfl, htext 13 "delivery_state" m.deliveryState rfl,
    htext 14 "created_at" m.createdAt rfl, htext 15 "before_message_id" m.beforeMessageID rfl,
    htext 16 "search_query" m.searchQuery rfl, htext 21 "protocol_version" m.protocolVersion rfl,
    htext 24 "group_id" m.groupID rfl, htext 26 "proposal_id" m.proposalID rfl,
    htext 27 "action" m.action rfl, htext 28 "key_package" m.keyPackage rfl,
    htext 29 "proposal" m.proposal rfl, htext 30 "commit" m.commit rfl,
    htext 31 "welcome" m.welcome rfl, htext 32 "welcome_digest" m.welcomeDigest rfl,
    htext 33 "attachment_id" m.attachmentID rfl, htext 34 "upload_id" m.uploadID rfl,
    htext 37 "expires_at" m.expiresAt rfl, htext 39 "ciphertext" m.ciphertext rfl,
    htext 40 "cipher_sha256" m.cipherSHA256 rfl, hbool 7 "private" m.isPrivate rfl,
    hbool 18 "has_more" m.hasMore rfl, hbool 19 "recalled" m.recalled rfl,
    hbool 44 "is_admin" m.isAdmin rfl, hint 17 "limit" m.limit rfl,
    hint 35 "logical_size" m.logicalSize rfl, hint 36 "chunk_size" m.chunkSize rfl,
    hint 38 "chunk_index" m.chunkIndex rfl,
    bind, Except.bind]
  rfl

end Client

end LanChat
