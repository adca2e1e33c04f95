import LanChat.Client.Codec
import LanChat.Message

/-!
# Reading a frame in the server (`receiveMessage` in `server-go/message.go`)

`json.Unmarshal` of a payload into a `Message`, and the checks on the way.

* `decodeField`: a field takes the values of the members whose names fold to its name, one after
  the other;
* `decodeMessage`, `receive`: the message of a payload;
* `receive_serialize`: what a client writes the server reads as the message with the same fields.

The slice of the payload that a value was read from and the decoder of the entries of `messages`
are parameters: of the first only `crypto` keeps a text, and no client sends the second.
-/

namespace LanChat

open JsonReader

/-- `encoding/json`. -/
def encodingJson : Dialect where
  lone := some (Char.ofNat 0xFFFD)
  float := some
  padded := false
  maxDepth := WithTop.some 10000
  close := List.reverse

/-! ### Fields -/

/-- The values of the members that belong to a field, in the order of the text. -/
def fieldValues (members : List (String × Json)) (name : String) : List Json :=
  members.filterMap fun m => if m.1.toList.map UnicodeCase.foldRune = name.toList then some m.2 else none

/-- A value of the wrong type. -/
def cannotUnmarshal : GoError := .text "unmarshal message"

/-- Into a string; `null` changes nothing. -/
def intoText (old : String) : Json → Except GoError String
  | .text s => .ok s
  | .null => .ok old
  | _ => .error cannotUnmarshal

/-- Into a boolean. -/
def intoBool (old : Bool) : Json → Except GoError Bool
  | .bool b => .ok b
  | .null => .ok old
  | _ => .error cannotUnmarshal

/-- Into an `int` or `int64`. -/
def intoInt (old : ℤ) : Json → Except GoError ℤ
  | .int n => if -2 ^ 63 ≤ n ∧ n < 2 ^ 63 then .ok n else .error cannotUnmarshal
  | .null => .ok old
  | _ => .error cannotUnmarshal

/-- Into a `uint64`. -/
def intoUint64 (old : UInt64) : Json → Except GoError UInt64
  | .int n =>
    if 0 ≤ n ∧ n < 2 ^ 64 then .ok (UInt64.ofNat n.toNat) else .error cannotUnmarshal
  | .null => .ok old
  | _ => .error cannotUnmarshal

/-- Into a slice. -/
def intoSlice {α : Type} (one : Json → Except GoError α) (_ : List α) :
    Json → Except GoError (List α)
  | .array values => values.mapM one
  | .null => .ok []
  | _ => .error cannotUnmarshal

/-- A field of a struct. -/
def decodeField {α : Type} (members : List (String × Json)) (name : String)
    (into : α → Json → Except GoError α) (zero : α) : Except GoError α :=
  (fieldValues members name).foldlM into zero

/-- Into an `OnlineUser`. -/
def decodeOnlineUser : Json → Except GoError OnlineUser
  | .object members => do
    let username ← decodeField members "username" intoText ""
    let userCode ← decodeField members "user_code" intoText ""
    let room ← decodeField members "room" intoText ""
    let isAdmin ← decodeField members "is_admin" intoBool false
    return { username, userCode, room, isAdmin }
  | .null => .ok { username := "", userCode := "", room := "", isAdmin := false }
  | _ => .error cannotUnmarshal

/-- Into a `RoomInfo`. -/
def decodeRoomInfo : Json → Except GoError RoomInfo
  | .object members => do
    let name ← decodeField members "name" intoText ""
    let ownerCode ← decodeField members "owner_code" intoText ""
    let isPrivate ← decodeField members "private" intoBool false
    let canManage ← decodeField members "can_manage" intoBool false
    return { name, ownerCode, isPrivate, canManage }
  | .null => .ok { name := "", ownerCode := "", isPrivate := false, canManage := false }
  | _ => .error cannotUnmarshal

/-- The types that have a name of their own in the source. -/
def namedTypes : List MessageType :=
  [.login, .register, .loginAuth, .chat, .privateChat, .historyRequest, .historyResponse,
    .roomJoin, .roomCreate, .roomAction, .roomLeave, .roomsRequest, .usersRequest,
    .mlsKeyPackagePublish, .mlsKeyPackageFetch, .mlsGroupCommit, .mlsGroupProposal,
    .mlsGroupWelcome, .mlsGroupWelcomeAccept, .attachmentInit, .attachmentChunk,
    .attachmentResume, .attachmentCommit, .attachmentDownload, .adminAction, .quit,
    .messageRecalled, .usersResponse, .roomsResponse, .registerOk, .registerError, .loginOk,
    .loginError, .loginPending, .system, .error, .offlineMessage, .deliveryReceipt,
    .connectionApprovalRequest, .connectionApprovalResult]

/-- The type of a `type` text. -/
def MessageType.ofName (name : String) : MessageType :=
  (namedTypes.find? fun t => t.name == name).getD (.other name)

theorem MessageType.name_ofName (name : String) : (MessageType.ofName name).name = name := by
  unfold MessageType.ofName
  cases hfind : namedTypes.find? fun t => t.name == name with
  | none => rfl
  | some t => simpa using List.find?_some hfind

/-! ### The message -/

section Decode

variable (raw : Json → String) (entry : Json → Except GoError HistoryMessage)

/-- The fields of `Message` up to `messages`. -/
def decodeRouting (members : List (String × Json)) : Except GoError Message := do
  let text := fun name => decodeField members name intoText ""
  let flag := fun name => decodeField members name intoBool false
  let type ← text "type"
  let messageID ← text "message_id"
  let commandID ← text "command_id"
  let username ← text "username"
  let userCode ← text "user_code"
  let targetUserCode ← text "target_user_code"
  let room ← text "room"
  let isPrivate ← flag "private"
  let users ← decodeField members "users" (intoSlice (intoText "")) []
  let rooms ← decodeField members "rooms" (intoSlice (intoText "")) []
  let userDetails ← decodeField members "user_details" (intoSlice decodeOnlineUser) []
  let roomDetails ← decodeField members "room_details" (intoSlice decodeRoomInfo) []
  let content ← text "content"
  let deliveryState ← text "delivery_state"
  let createdAt ← text "created_at"
  let beforeMessageID ← text "before_message_id"
  let searchQuery ← text "search_query"
  let limit ← decodeField members "limit" intoInt 0
  let hasMore ← flag "has_more"
  let recalled ← flag "recalled"
  let messages ← decodeField members "messages" (intoSlice entry) []
  return { type := .ofName type, messageID, commandID, username, userCode, targetUserCode, room,
           isPrivate, users, rooms, userDetails, roomDetails, content, deliveryState, createdAt,
           beforeMessageID, searchQuery, limit, hasMore, recalled, messages }

/-- The fields from `protocol_version` to `welcome_digest`. -/
def decodeControl (members : List (String × Json)) (m : Message) : Except GoError Message := do
  let text := fun name => decodeField members name intoText ""
  let protocolVersion ← text "protocol_version"
  let capabilities ← decodeField members "capabilities" (intoSlice (intoText "")) []
  let crypto ← decodeField members "crypto" (fun _ v => .ok (raw v)) ""
  let groupID ← text "group_id"
  let epoch ← decodeField members "epoch" intoUint64 0
  let proposalID ← text "proposal_id"
  let action ← text "action"
  let keyPackage ← text "key_package"
  let proposal ← text "proposal"
  let commit ← text "commit"
  let welcome ← text "welcome"
  let welcomeDigest ← text "welcome_digest"
  return { m with
           protocolVersion, capabilities, crypto, groupID, epoch, proposalID, action, keyPackage,
           proposal, commit, welcome, welcomeDigest }

/-- The fields from `attachment_id` on. -/
def decodeAttachment (members : List (String × Json)) (m : Message) : Except GoError Message := do
  let text := fun name => decodeField members name intoText ""
  let number := fun name => decodeField members name intoInt 0
  let attachmentID ← text "attachment_id"
  let uploadID ← text "upload_id"
  let logicalSize ← number "logical_size"
  let chunkSize ← number "chunk_size"
  let expiresAt ← text "expires_at"
  let chunkIndex ← number "chunk_index"
  let ciphertext ← text "ciphertext"
  let cipherSHA256 ← text "cipher_sha256"
  let wholeSha256 ← text "whole_sha256"
  let receivedIndexes ← decodeField members "received_indexes" (intoSlice (intoInt 0)) []
  let receivedBitmap ← text "received_bitmap"
  let isAdmin ← decodeField members "is_admin" intoBool false
  return { m with
           attachmentID, uploadID, logicalSize, chunkSize, expiresAt, chunkIndex, ciphertext,
           cipherSHA256, wholeSha256, receivedIndexes, receivedBitmap, isAdmin }

/-- `json.Unmarshal` into a `Message`. -/
def decodeMessage : Json → Except GoError Message
  | .object members => do
    let m ← decodeRouting entry members
    let m ← decodeControl raw members m
    decodeAttachment members m
  | .null => .ok { type := .other "" }
  | _ => .error cannotUnmarshal

/-- The members that `validateAttachmentCommandFrame` allows; `none` where it is not called. -/
def allowedFields : MessageType → Option (List String)
  | .attachmentInit => some ["type", "command_id", "room", "logical_size"]
  | .attachmentChunk =>
    some ["type", "command_id", "upload_id", "chunk_index", "ciphertext", "cipher_sha256"]
  | .attachmentResume => some ["type", "command_id", "upload_id"]
  | .attachmentCommit => some ["type", "command_id", "upload_id"]
  | .attachmentDownload => some ["type", "command_id", "attachment_id", "chunk_index"]
  | _ => none

/-- `validateAttachmentCommandFrame`; the error names one of the members that are not allowed. -/
def validateAttachmentCommandFrame (type : MessageType) (v : Json) : Except GoError Unit :=
  match allowedFields type, v with
  | some allowed, .object members =>
    match members.find? fun m => !allowed.contains m.1 with
    | some m => fail ("attachment init contains unsupported field " ++ m.1)
    | none => .ok ()
  | _, _ => .ok ()

/-- The checks of `receiveMessage` on the message of a value. -/
def checkReceived (v : Json) (m : Message) : Except GoError Message := do
  if m.type.name = "" then fail "message type is required"
  if maxCommandIDSize < m.commandID.utf8ByteSize then fail "command id is too large"
  validateAttachmentCommandFrame m.type v
  return m

/-- `receiveMessage`, given the payload of a frame that is valid UTF-8. -/
def receive (payload : String) : Except GoError Message :=
  match parse encodingJson payload with
  | none => .error cannotUnmarshal
  | some v => decodeMessage raw entry v >>= checkReceived v

end Decode

/-! ### What a client writes -/

namespace Client

open Json

variable {doubles : Doubles}

/-- The members of `serialize`. -/
def Message.fields (m : Message) (crypto : Option Json) : List (String × Option Json) :=
  [("type", some (.text m.type)), ("protocol_version", textField m.protocolVersion),
    ("message_id", textField m.messageID), ("command_id", textField m.commandID),
    ("delivery_state", textField m.deliveryState), ("created_at", textField m.createdAt),
    ("before_message_id", textField m.beforeMessageID), ("search_query", textField m.searchQuery),
    ("crypto", crypto), ("limit", intField (max 0 m.limit)), ("has_more", boolField m.hasMore),
    ("recalled", boolField m.recalled), ("username", textField m.username),
    ("user_code", textField m.userCode), ("target_user_code", textField m.targetUserCode),
    ("room", textField m.room), ("content", textField m.content),
    ("users", arrayField (m.users.map .text)), ("rooms", arrayField (m.rooms.map .text)),
    ("user_details", arrayField (m.userDetails.map OnlineUser.serialize)),
    ("room_details", arrayField (m.roomDetails.map RoomInfo.serialize)),
    ("is_admin", boolField m.isAdmin), ("private", boolField m.isPrivate),
    ("group_id", textField m.groupID), ("epoch", intField m.epoch),
    ("key_package", textField m.keyPackage), ("proposal_id", textField m.proposalID),
    ("action", textField m.action), ("proposal", textField m.proposal),
    ("commit", textField m.commit), ("welcome", textField m.welcome),
    ("welcome_digest", textField m.welcomeDigest), ("attachment_id", textField m.attachmentID),
    ("upload_id", textField m.uploadID), ("logical_size", intField m.logicalSize),
    ("chunk_size", intField m.chunkSize),
    ("chunk_index", if m.chunkIndex ≠ 0 ∨ m.type = "attachment.chunk" then
      some (.int m.chunkIndex) else none),
    ("ciphertext", textField m.ciphertext), ("cipher_sha256", textField m.cipherSHA256),
    ("expires_at", textField m.expiresAt),
    ("received_indexes", arrayField (m.receivedIndexes.map .int)),
    ("messages", arrayField (m.messages.map NestedMessage.serialize))]

/-- `serialize` makes the object of the members that are there. -/
theorem serialize_fields {m : Message} {v : Json} (h : m.serialize (parseJson doubles) = .ok v) :
    ∃ crypto, v = sortedObject (members (m.fields crypto)) ∧
      (m.crypto = "" ∧ crypto = none ∨ ∃ w, parseJson doubles m.crypto = .ok w ∧ crypto = some w) := by
  obtain ⟨ms, hms, rfl⟩ : ∃ ms, m.members (parseJson doubles) = .ok ms ∧ sortedObject ms = v := by
    unfold Message.serialize at h
    cases hms : m.members (parseJson doubles) with
    | error e =>
      rw [hms] at h
      cases h
    | ok ms =>
      rw [hms] at h
      exact ⟨ms, rfl, Except.ok.inj h⟩
  -- `serialize` writes a limit only when it is positive
  have hlimit : (if 0 < m.limit then [("limit", Json.int m.limit)] else []) =
      optInt "limit" (max 0 m.limit) := by
    unfold optInt
    by_cases hpos : 0 < m.limit
    · rw [if_pos hpos, max_eq_right hpos.le, if_neg (by omega)]
    · rw [if_neg hpos, max_eq_left (by omega), if_pos rfl]
  have hindex : ∀ fields : List (String × Option Json),
      members (("chunk_index", if m.chunkIndex ≠ 0 ∨ m.type = "attachment.chunk" then
        some (.int m.chunkIndex) else none) :: fields) =
      (if m.chunkIndex ≠ 0 ∨ m.type = "attachment.chunk" then
        [("chunk_index", .int m.chunkIndex)] else []) ++ members fields := by
    intro fields
    split_ifs <;> rfl
  unfold Message.members at hms
  by_cases hempty : m.crypto = ""
  · refine ⟨none, congrArg _ ?_, .inl ⟨hempty, rfl⟩⟩
    rw [if_pos hempty] at hms
    have hlist := Except.ok.inj hms
    rw [← hlist, hlimit]
    unfold Message.fields
    simp only [members_some, members_none, members_text, members_bool, members_int, members_array,
      hindex, members_nil, List.append_nil, List.append_assoc, List.cons_append, List.nil_append]
  · rw [if_neg hempty] at hms
    cases hparse : parseJson doubles m.crypto with
    | error e =>
      rw [hparse] at hms
      cases hms
    | ok w =>
      refine ⟨some w, congrArg _ ?_, .inr ⟨w, rfl, rfl⟩⟩
      rw [hparse] at hms
      have hlist := Except.ok.inj hms
      rw [← hlist, hlimit]
      unfold Message.fields
      simp only [members_some, members_text, members_bool, members_int, members_array, hindex,
        members_nil, List.append_nil, List.append_assoc, List.cons_append, List.nil_append]

/-- The numbers of a message are within their types. -/
structure Message.Fits (m : Message) : Prop where
  limit : m.limit < 2 ^ 31
  epoch : m.epoch < 2 ^ 64
  logicalSize : -2 ^ 63 ≤ m.logicalSize ∧ m.logicalSize < 2 ^ 63
  chunkSize : -2 ^ 63 ≤ m.chunkSize ∧ m.chunkSize < 2 ^ 63
  chunkIndex : -2 ^ 63 ≤ m.chunkIndex ∧ m.chunkIndex < 2 ^ 63
  receivedIndexes : ∀ i ∈ m.receivedIndexes, -2 ^ 63 ≤ i ∧ i < 2 ^ 63

/-! ### What the server makes of it -/

/-- The names of members that fold to themselves, each once. -/
def FieldNames (names : List String) : Prop :=
  names.Nodup ∧ ∀ name ∈ names, name.toList.map UnicodeCase.foldRune = name.toList

instance (names : List String) : Decidable (FieldNames names) := by
  unfold FieldNames
  infer_instance

theorem fieldValues_members {fields : List (String × Option Json)}
    (hnames : FieldNames (fields.map Prod.fst)) {name : String} :
    (name ∉ fields.map Prod.fst → name.toList.map UnicodeCase.foldRune = name.toList →
      fieldValues (members fields) name = []) ∧
    ∀ x, (name, x) ∈ fields → fieldValues (members fields) name = x.toList := by
  induction fields with
  | nil => exact ⟨fun _ _ => rfl, fun x hx => by cases hx⟩
  | cons f fields ih =>
    obtain ⟨key, value⟩ := f
    obtain ⟨hnodup, hfold⟩ := hnames
    rw [List.map_cons, List.nodup_cons] at hnodup
    obtain ⟨hnone, hsome⟩ := ih
      ⟨hnodup.2, fun name hname => hfold name (List.mem_cons_of_mem _ hname)⟩
    have hkey : key.toList.map UnicodeCase.foldRune = key.toList := hfold key List.mem_cons_self
    -- names that fold to themselves meet only where they are equal
    have hother : key ≠ name → fieldValues (members ((key, value) :: fields)) name =
        fieldValues (members fields) name := by
      intro hne
      cases value with
      | none => rfl
      | some v =>
        rw [members_some]
        unfold fieldValues
        rw [List.filterMap_cons, hkey, if_neg fun h => hne (String.toList_inj.1 h)]
    constructor
    · intro hnot hname
      rw [hother fun h => hnot (by simp [h])]
      exact hnone (fun h => hnot (List.mem_cons_of_mem _ h)) hname
    · intro x hx
      rcases List.mem_cons.1 hx with heq | hmem
      · cases heq
        have hrest := hnone hnodup.1 hkey
        cases value with
        | none => exact hrest
        | some v =>
          rw [members_some]
          unfold fieldValues at hrest ⊢
          rw [List.filterMap_cons, hkey, if_pos rfl, hrest]
          rfl
      · rw [hother ?_]
        · exact hsome x hmem
        · rintro rfl
          exact hnodup.1 (List.mem_map.2 ⟨_, hmem, rfl⟩)

/-- The members of the object that is written, in the order of their names. -/
theorem perm_sorted (fields : List (String × Option Json)) :
    ∃ ms, (sortedObject (members fields)).sorted = .object ms ∧
      ms.Perm (members (fields.map fun f => (f.1, f.2.map sorted))) := by
  have hmembers : (members fields).map sortedMember =
      members (fields.map fun f => (f.1, f.2.map sorted)) := by
    unfold members
    rw [List.map_filterMap, List.filterMap_map]
    refine List.filterMap_congr fun f _ => ?_
    obtain ⟨key, value⟩ := f
    cases value with
    | none => rfl
    | some v => simp [sortedMember]
  refine ⟨_, rfl, ?_⟩
  rw [← hmembers]
  exact (perm_sortedMembers _).trans ((List.perm_insertionSort _ _).map _)

/-- In the object that is written every field has the value of its member. -/
theorem fieldValues_perm {fields : List (String × Option Json)}
    (hnames : FieldNames (fields.map Prod.fst)) {ms : List (String × Json)}
    (hperm : ms.Perm (members (fields.map fun f => (f.1, f.2.map sorted)))) :
    (∀ name x, (name, x) ∈ fields → fieldValues ms name = (x.map sorted).toList) ∧
      ∀ name, name ∉ fields.map Prod.fst → name.toList.map UnicodeCase.foldRune = name.toList →
        fieldValues ms name = [] := by
  have hnames' : FieldNames ((fields.map fun f => (f.1, f.2.map sorted)).map Prod.fst) := by
    rw [List.map_map]
    exact hnames
  have hvalues : ∀ name, (fieldValues ms name).Perm
      (fieldValues (members (fields.map fun f => (f.1, f.2.map sorted))) name) :=
    fun name => hperm.filterMap _
  constructor
  · intro name x hx
    have hvalue := hvalues name
    rw [(fieldValues_members hnames').2 _ (List.mem_map.2 ⟨(name, x), hx, rfl⟩)] at hvalue
    cases x with
    | none => exact hvalue.eq_nil
    | some v => exact List.perm_singleton.1 hvalue
  · intro name hname hfold
    have hvalue := hvalues name
    rw [(fieldValues_members hnames').1 (by rwa [List.map_map]) hfold] at hvalue
    exact hvalue.eq_nil

section Fields

variable {ms : List (String × Json)} {name : String}

theorem decode_text {s : String} (h : fieldValues ms name = ((textField s).map sorted).toList) :
    decodeField ms name intoText "" = .ok s := by
  unfold decodeField
  rw [h]
  unfold textField
  split_ifs with hempty
  · rw [hempty]
    rfl
  · rfl

theorem decode_someText {s : String}
    (h : fieldValues ms name = ((some (.text s)).map sorted).toList) :
    decodeField ms name intoText "" = .ok s := by
  unfold decodeField
  rw [h]
  rfl

theorem decode_someBool {b : Bool}
    (h : fieldValues ms name = ((some (.bool b)).map sorted).toList) :
    decodeField ms name intoBool false = .ok b := by
  unfold decodeField
  rw [h]
  rfl

theorem decode_bool {b : Bool} (h : fieldValues ms name = ((boolField b).map sorted).toList) :
    decodeField ms name intoBool false = .ok b := by
  unfold decodeField
  rw [h]
  cases b <;> rfl

theorem decode_int {k : ℤ} (hk : -2 ^ 63 ≤ k ∧ k < 2 ^ 63)
    (h : fieldValues ms name = ((intField k).map sorted).toList) :
    decodeField ms name intoInt 0 = .ok k := by
  unfold decodeField
  rw [h]
  unfold intField
  split_ifs with hzero
  · rw [hzero]
    rfl
  · change intoInt 0 (.int k) >>= pure = _
    rw [intoInt, if_pos hk]
    rfl

theorem decode_slice {α β : Type} {one : Json → Except GoError β} {g : α → Json} {f : α → β}
    {l : List α} (hone : ∀ a ∈ l, one (g a).sorted = .ok (f a))
    (h : fieldValues ms name = ((arrayField (l.map g)).map sorted).toList) :
    decodeField ms name (intoSlice one) [] = .ok (l.map f) := by
  have hmapM : ∀ l : List α, (∀ a ∈ l, one (g a).sorted = .ok (f a)) →
      (sortedValues (l.map g)).mapM one = .ok (l.map f) := by
    intro l
    induction l with
    | nil => exact fun _ => rfl
    | cons a l ih =>
      intro hone
      rw [List.map_cons, sortedValues, List.mapM_cons, hone a List.mem_cons_self,
        ih fun a ha => hone a (List.mem_cons_of_mem _ ha)]
      rfl
  unfold decodeField
  rw [h]
  cases l with
  | nil => rfl
  | cons a l =>
    change (sortedValues ((a :: l).map g)).mapM one >>= pure = _
    rw [hmapM _ hone]
    rfl

end Fields

/-- An entry of `user_details`. -/
def sentOnlineUser (u : OnlineUser) : LanChat.OnlineUser :=
  ⟨u.username, u.userCode, u.room, u.isAdmin⟩

/-- An entry of `room_details`. -/
def sentRoomInfo (r : RoomInfo) : LanChat.RoomInfo := ⟨r.name, r.ownerCode, r.isPrivate, r.canManage⟩

theorem decodeOnlineUser_serialize (u : OnlineUser) :
    decodeOnlineUser u.serialize.sorted = .ok (sentOnlineUser u) := by
  have hnames : FieldNames ["username", "user_code", "room", "is_admin"] := by decide
  obtain ⟨ms, hms, hperm⟩ := perm_sorted [("username", some (.text u.username)),
    ("user_code", some (.text u.userCode)), ("room", some (.text u.room)),
    ("is_admin", some (.bool u.isAdmin))]
  have hvalues := (fieldValues_perm (by exact hnames) hperm).1
  have hobject : u.serialize.sorted = .object ms := hms
  have husername := decode_someText (s := u.username) (hvalues "username" _ (by simp))
  have huserCode := decode_someText (s := u.userCode) (hvalues "user_code" _ (by simp))
  have hroom := decode_someText (s := u.room) (hvalues "room" _ (by simp))
  have hisAdmin := decode_someBool (b := u.isAdmin) (hvalues "is_admin" _ (by simp))
  rw [hobject, decodeOnlineUser, husername, huserCode, hroom, hisAdmin]
  rfl

theorem decodeRoomInfo_serialize (r : RoomInfo) :
    decodeRoomInfo r.serialize.sorted = .ok (sentRoomInfo r) := by
  have hnames : FieldNames ["name", "private", "can_manage", "owner_code"] := by decide
  obtain ⟨ms, hms, hperm⟩ := perm_sorted [("name", some (.text r.name)),
    ("private", some (.bool r.isPrivate)), ("can_manage", some (.bool r.canManage)),
    ("owner_code", textField r.ownerCode)]
  have hvalues := (fieldValues_perm (by exact hnames) hperm).1
  have hobject : r.serialize.sorted = .object ms := by
    rw [← hms]
    simp [RoomInfo.serialize]
  have hname := decode_someText (s := r.name) (hvalues "name" _ (by simp))
  have hownerCode := decode_text (s := r.ownerCode) (hvalues "owner_code" _ (by simp))
  have hisPrivate := decode_someBool (b := r.isPrivate) (hvalues "private" _ (by simp))
  have hcanManage := decode_someBool (b := r.canManage) (hvalues "can_manage" _ (by simp))
  rw [hobject, decodeRoomInfo, hname, hownerCode, hisPrivate, hcanManage]
  rfl

/-- The message that the server has of what a client writes; `crypto` is the text of its envelope. -/
def sent (m : Message) (crypto : String) : LanChat.Message where
  type := .ofName m.type
  messageID := m.messageID
  commandID := m.commandID
  username := m.username
  userCode := m.userCode
  targetUserCode := m.targetUserCode
  room := m.room
  isPrivate := m.isPrivate
  users := m.users
  rooms := m.rooms
  userDetails := m.userDetails.map sentOnlineUser
  roomDetails := m.roomDetails.map sentRoomInfo
  content := m.content
  deliveryState := m.deliveryState
  createdAt := m.createdAt
  beforeMessageID := m.beforeMessageID
  searchQuery := m.searchQuery
  limit := max 0 m.limit
  hasMore := m.hasMore
  recalled := m.recalled
  protocolVersion := m.protocolVersion
  crypto := crypto
  groupID := m.groupID
  epoch := UInt64.ofNat m.epoch
  proposalID := m.proposalID
  action := m.action
  keyPackage := m.keyPackage
  proposal := m.proposal
  commit := m.commit
  welcome := m.welcome
  welcomeDigest := m.welcomeDigest
  attachmentID := m.attachmentID
  uploadID := m.uploadID
  logicalSize := m.logicalSize
  chunkSize := m.chunkSize
  expiresAt := m.expiresAt
  chunkIndex := m.chunkIndex
  ciphertext := m.ciphertext
  cipherSHA256 := m.cipherSHA256
  receivedIndexes := m.receivedIndexes
  isAdmin := m.isAdmin

theorem fieldNames_fields (m : Message) (crypto : Option Json) :
    FieldNames ((m.fields crypto).map Prod.fst) ∧
      ∀ name ∈ ["capabilities", "whole_sha256", "received_bitmap"],
        name ∉ (m.fields crypto).map Prod.fst ∧ name.toList.map UnicodeCase.foldRune = name.toList := by
  have hnames : (m.fields crypto).map Prod.fst =
      ((Message.ofType "").fields none).map Prod.fst := rfl
  rw [hnames]
  decide +kernel

/-- The members of an object are the fields of a message. -/
structure Message.Writes (m : Message) (crypto : Option Json) (ms : List (String × Json)) :
    Prop where
  get : ∀ (n : ℕ) key x, (m.fields crypto)[n]? = some (key, x) →
    fieldValues ms key = (x.map sorted).toList
  absent : ∀ name ∈ ["capabilities", "whole_sha256", "received_bitmap"], fieldValues ms name = []
  names : ∀ P : String → Prop, (∀ member ∈ ms, P member.1) ↔
    ∀ name w, (name, some w) ∈ m.fields crypto → P name

theorem writes_sorted (m : Message) (crypto : Option Json) :
    ∃ ms, (sortedObject (members (m.fields crypto))).sorted = .object ms ∧ m.Writes crypto ms := by
  obtain ⟨hnames, habsent⟩ := fieldNames_fields m crypto
  obtain ⟨ms, hms, hperm⟩ := perm_sorted (m.fields crypto)
  obtain ⟨hvalues, hnone⟩ := fieldValues_perm hnames hperm
  refine ⟨ms, hms, fun n key x h => hvalues key x (List.mem_of_getElem? h),
    fun name hname => hnone name (habsent name hname).1 (habsent name hname).2, fun P => ?_⟩
  -- the members are the fields that are there, in another order
  simp only [hperm.mem_iff, members, List.mem_filterMap, List.mem_map]
  constructor
  · intro hall name w hw
    exact hall (name, w.sorted) ⟨(name, some w.sorted), ⟨(name, some w), hw, rfl⟩, rfl⟩
  · rintro hall member ⟨-, ⟨⟨name, x⟩, hx, rfl⟩, heq⟩
    cases x with
    | none => cases heq
    | some w =>
      obtain rfl := Option.some.inj heq
      exact hall name w hx

namespace Message.Writes

variable {m : Message} {crypto : Option Json} {ms : List (String × Json)}
variable (hw : m.Writes crypto ms)

include hw

theorem text {n : ℕ} {key s : String} (h : (m.fields crypto)[n]? = some (key, textField s)) :
    decodeField ms key intoText "" = .ok s :=
  decode_text (hw.get n key _ h)

theorem bool {n : ℕ} {key : String} {b : Bool}
    (h : (m.fields crypto)[n]? = some (key, boolField b)) :
    decodeField ms key intoBool false = .ok b :=
  decode_bool (hw.get n key _ h)

theorem int {n : ℕ} {key : String} {k : ℤ} (hk : -2 ^ 63 ≤ k ∧ k < 2 ^ 63)
    (h : (m.fields crypto)[n]? = some (key, intField k)) :
    decodeField ms key intoInt 0 = .ok k :=
  decode_int hk (hw.get n key _ h)

theorem texts {n : ℕ} {key : String} {l : List String}
    (h : (m.fields crypto)[n]? = some (key, arrayField (l.map .text))) :
    decodeField ms key (intoSlice (intoText "")) [] = .ok l := by
  rw [decode_slice (f := id) (fun _ _ => rfl) (hw.get n key _ h), List.map_id]

theorem epoch (hfits : m.Fits) :
    decodeField ms "epoch" intoUint64 0 = .ok (UInt64.ofNat m.epoch) := by
  have hinto : intoUint64 0 (.int m.epoch) = .ok (UInt64.ofNat m.epoch) := by
    rw [intoUint64, if_pos ⟨Int.natCast_nonneg _, by exact_mod_cast hfits.epoch⟩,
      Int.toNat_natCast]
  unfold decodeField
  rw [hw.get 24 "epoch" _ rfl]
  unfold intField
  split_ifs with hzero
  · rw [Int.natCast_eq_zero.1 hzero]
    rfl
  · change [Json.int m.epoch].foldlM intoUint64 0 = _
    rw [List.foldlM_cons, hinto]
    rfl

theorem chunkIndex (hfits : m.Fits) :
    decodeField ms "chunk_index" intoInt 0 = .ok m.chunkIndex := by
  unfold decodeField
  rw [hw.get 36 "chunk_index" _ rfl]
  split_ifs with hwritten
  · change intoInt 0 (.int m.chunkIndex) >>= pure = _
    rw [intoInt, if_pos hfits.chunkIndex]
    rfl
  · rw [not_not.1 (not_or.1 hwritten).1]
    rfl

theorem receivedIndexes (hfits : m.Fits) :
    decodeField ms "received_indexes" (intoSlice (intoInt 0)) [] = .ok m.receivedIndexes := by
  rw [decode_slice (f := id) (fun i hi => ?_) (hw.get 40 "received_indexes" _ rfl), List.map_id]
  exact if_pos (hfits.receivedIndexes i hi)

variable {raw : Json → String} {entry : Json → Except GoError HistoryMessage}

theorem decodeRouting (hfits : m.Fits) (hmessages : m.messages = []) :
    LanChat.decodeRouting entry ms = .ok { sent m "" with
      protocolVersion := "", groupID := "", epoch := 0, proposalID := "", action := ""
      keyPackage := "", proposal := "", commit := "", welcome := "", welcomeDigest := ""
      attachmentID := "", uploadID := "", logicalSize := 0, chunkSize := 0, expiresAt := ""
      chunkIndex := 0, ciphertext := "", cipherSHA256 := "", receivedIndexes := []
      isAdmin := false } := by
  have htype : decodeField ms "type" intoText "" = .ok m.type :=
    decode_someText (hw.get 0 "type" _ rfl)
  have hlimit : decodeField ms "limit" intoInt 0 = .ok (max 0 m.limit) := by
    have hlimit := hfits.limit
    exact hw.int (n := 9) ⟨by omega, by omega⟩ rfl
  -- without entries the decoder of an entry is not called
  have hentries : decodeField ms "messages" (intoSlice entry) [] = .ok [] := by
    unfold decodeField
    rw [hw.get 41 "messages" _ rfl, hmessages]
    rfl
  simp only [LanChat.decodeRouting, htype, hw.text (n := 2) (s := m.messageID) rfl,
    hw.text (n := 3) (s := m.commandID) rfl, hw.text (n := 12) (s := m.username) rfl,
    hw.text (n := 13) (s := m.userCode) rfl, hw.text (n := 14) (s := m.targetUserCode) rfl,
    hw.text (n := 15) (s := m.room) rfl, hw.bool (n := 22) (b := m.isPrivate) rfl,
    hw.texts (n := 17) (l := m.users) rfl, hw.texts (n := 18) (l := m.rooms) rfl,
    decode_slice (fun u _ => decodeOnlineUser_serialize u) (hw.get 19 "user_details" _ rfl),
    decode_slice (fun r _ => decodeRoomInfo_serialize r) (hw.get 20 "room_details" _ rfl),
    hw.text (n := 16) (s := m.content) rfl, hw.text (n := 4) (s := m.deliveryState) rfl,
    hw.text (n := 5) (s := m.createdAt) rfl, hw.text (n := 6) (s := m.beforeMessageID) rfl,
    hw.text (n := 7) (s := m.searchQuery) rfl, hlimit, hw.bool (n := 10) (b := m.hasMore) rfl,
    hw.bool (n := 11) (b := m.recalled) rfl, hentries, bind, Except.bind]
  rfl

theorem decodeControl (hfits : m.Fits) (m' : LanChat.Message) :
    LanChat.decodeControl raw ms m' = .ok { m' with
      protocolVersion := m.protocolVersion, capabilities := []
      crypto := crypto.elim "" fun w => raw w.sorted, groupID := m.groupID
      epoch := UInt64.ofNat m.epoch, proposalID := m.proposalID, action := m.action
      keyPackage := m.keyPackage, proposal := m.proposal, commit := m.commit, welcome := m.welcome
      welcomeDigest := m.welcomeDigest } := by
  have hcapabilities : decodeField ms "capabilities" (intoSlice (intoText "")) [] = .ok [] := by
    unfold decodeField
    rw [hw.absent "capabilities" (by simp)]
    rfl
  have hcrypto : decodeField ms "crypto" (fun _ v => .ok (raw v)) "" =
      .ok (crypto.elim "" fun w => raw w.sorted) := by
    unfold decodeField
    rw [hw.get 8 "crypto" _ rfl]
    cases crypto <;> rfl
  simp only [LanChat.decodeControl, hw.text (n := 1) (s := m.protocolVersion) rfl, hcapabilities,
    hcrypto, hw.text (n := 23) (s := m.groupID) rfl, hw.epoch hfits,
    hw.text (n := 26) (s := m.proposalID) rfl, hw.text (n := 27) (s := m.action) rfl,
    hw.text (n := 25) (s := m.keyPackage) rfl, hw.text (n := 28) (s := m.proposal) rfl,
    hw.text (n := 29) (s := m.commit) rfl, hw.text (n := 30) (s := m.welcome) rfl,
    hw.text (n := 31) (s := m.welcomeDigest) rfl, bind, Except.bind]
  rfl

theorem decodeAttachment (hfits : m.Fits) (m' : LanChat.Message) :
    LanChat.decodeAttachment ms m' = .ok { m' with
      attachmentID := m.attachmentID, uploadID := m.uploadID, logicalSize := m.logicalSize
      chunkSize := m.chunkSize, expiresAt := m.expiresAt, chunkIndex := m.chunkIndex
      ciphertext := m.ciphertext, cipherSHA256 := m.cipherSHA256, wholeSha256 := ""
      receivedIndexes := m.receivedIndexes, receivedBitmap := "", isAdmin := m.isAdmin } := by
  have hwhole : decodeField ms "whole_sha256" intoText "" = .ok "" := by
    unfold decodeField
    rw [hw.absent "whole_sha256" (by simp)]
    rfl
  have hbitmap : decodeField ms "received_bitmap" intoText "" = .ok "" := by
    unfold decodeField
    rw [hw.absent "received_bitmap" (by simp)]
    rfl
  simp only [LanChat.decodeAttachment, hw.text (n := 32) (s := m.attachmentID) rfl,
    hw.text (n := 33) (s := m.uploadID) rfl, hw.int (n := 34) hfits.logicalSize rfl,
    hw.int (n := 35) hfits.chunkSize rfl, hw.text (n := 39) (s := m.expiresAt) rfl,
    hw.chunkIndex hfits, hw.text (n := 37) (s := m.ciphertext) rfl,
    hw.text (n := 38) (s := m.cipherSHA256) rfl, hwhole, hw.receivedIndexes hfits, hbitmap,
    hw.bool (n := 21) (b := m.isAdmin) rfl, bind, Except.bind]
  rfl

end Message.Writes

/-- The decoder makes it of the value that is written. -/
theorem decodeMessage_serialize (raw : Json → String) (entry : Json → Except GoError HistoryMessage)
    {m : Message} (hfits : m.Fits) (hmessages : m.messages = []) (crypto : Option Json) :
    decodeMessage raw entry (sortedObject (members (m.fields crypto))).sorted =
      .ok (sent m (crypto.elim "" fun w => raw w.sorted)) := by
  obtain ⟨ms, hms, hw⟩ := writes_sorted m crypto
  rw [hms, decodeMessage, hw.decodeRouting hfits hmessages]
  change decodeControl raw ms _ >>= decodeAttachment ms = _
  rw [hw.decodeControl hfits]
  change decodeAttachment ms _ = _
  rw [hw.decodeAttachment hfits]
  rfl

/-! ### Its text -/

theorem fits_encodingJson {n : ℕ} (hn : n < 10000) : encodingJson.fits n :=
  WithTop.coe_le_coe.2 hn

/-- The values that are there are read at a depth. -/
def WrittenFields (n : ℕ) (fields : List (String × Option Json)) : Prop :=
  ∀ f ∈ fields, ∀ w, f.2 = some w → Written encodingJson n w

section Written

variable {n : ℕ} {name : String} {fields : List (String × Option Json)}

theorem written_nil : WrittenFields n [] := fun _ hf => absurd hf List.not_mem_nil

theorem written_cons {x : Option Json} (hx : ∀ w, x = some w → Written encodingJson n w)
    (h : WrittenFields n fields) : WrittenFields n ((name, x) :: fields) :=
  List.forall_mem_cons.2 ⟨hx, h⟩

theorem written_some {w : Json} (hw : Written encodingJson n w) (h : WrittenFields n fields) :
    WrittenFields n ((name, some w) :: fields) :=
  written_cons (fun _ heq => Option.some.inj heq ▸ hw) h

theorem written_text {s : String} (h : WrittenFields n fields) :
    WrittenFields n ((name, textField s) :: fields) := by
  refine written_cons (fun w hw => ?_) h
  unfold textField at hw
  split_ifs at hw
  obtain rfl := Option.some.inj hw
  exact .text s

theorem written_bool {b : Bool} (h : WrittenFields n fields) :
    WrittenFields n ((name, boolField b) :: fields) := by
  refine written_cons (fun w hw => ?_) h
  unfold boolField at hw
  split_ifs at hw
  obtain rfl := Option.some.inj hw
  exact .bool true

theorem written_int {k : ℤ} (hk : -2 ^ 63 ≤ k ∧ k < 2 ^ 64) (h : WrittenFields n fields) :
    WrittenFields n ((name, intField k) :: fields) := by
  refine written_cons (fun w hw => ?_) h
  unfold intField at hw
  split_ifs at hw
  obtain rfl := Option.some.inj hw
  exact .int hk.1 hk.2

theorem written_array (hn : n < 10000) {α : Type} {l : List α} {g : α → Json}
    (hg : ∀ a ∈ l, Written encodingJson (n + 1) (g a)) (h : WrittenFields n fields) :
    WrittenFields n ((name, arrayField (l.map g)) :: fields) := by
  refine written_cons (fun w hw => ?_) h
  unfold arrayField at hw
  split_ifs at hw
  obtain rfl := Option.some.inj hw
  exact .array (fits_encodingJson hn) (List.forall_mem_map.2 hg)

/-- An object with such members. -/
theorem written_sortedObject (hn : n < 10000) (hnodup : (fields.map Prod.fst).Nodup)
    (h : WrittenFields (n + 1) fields) : Written encodingJson n (sortedObject (members fields)) := by
  have hperm := List.perm_insertionSort (fun a b : String × Json => a.1 ≤ b.1) (members fields)
  refine .object (fits_encodingJson hn) ?_ fun m hm => ?_
  · exact (hperm.map Prod.fst).nodup_iff.2 (nodup_members hnodup)
  · obtain ⟨f, hf, hm⟩ := List.mem_filterMap.1 (hperm.mem_iff.1 hm)
    obtain ⟨w, hw, rfl⟩ := Option.map_eq_some_iff.1 hm
    exact h f hf w hw

end Written

theorem written_onlineUser (u : OnlineUser) : Written encodingJson 2 u.serialize := by
  have hobject : Written encodingJson 2 (sortedObject (members
      [("username", some (.text u.username)), ("user_code", some (.text u.userCode)),
        ("room", some (.text u.room)), ("is_admin", some (.bool u.isAdmin))])) :=
    written_sortedObject (by decide) (by simp) <|
      written_some (.text u.username) <| written_some (.text u.userCode) <|
      written_some (.text u.room) <| written_some (.bool u.isAdmin) written_nil
  exact hobject

theorem written_roomInfo (r : RoomInfo) : Written encodingJson 2 r.serialize := by
  have hobject : Written encodingJson 2 (sortedObject (members
      [("name", some (.text r.name)), ("private", some (.bool r.isPrivate)),
        ("can_manage", some (.bool r.canManage)), ("owner_code", textField r.ownerCode)])) :=
    written_sortedObject (by decide) (by simp) <|
      written_some (.text r.name) <| written_some (.bool r.isPrivate) <|
      written_some (.bool r.canManage) <| written_text written_nil
  simpa [RoomInfo.serialize] using hobject

/-- Every value that a client writes is read by the server. -/
theorem written_fields {m : Message} (hfits : m.Fits) (hmessages : m.messages = [])
    {crypto : Option Json} (hcrypto : ∀ w, crypto = some w → Written encodingJson 1 w) :
    Written encodingJson 0 (sortedObject (members (m.fields crypto))) := by
  have hsigned : ∀ {k : ℤ}, -2 ^ 63 ≤ k ∧ k < 2 ^ 63 → -2 ^ 63 ≤ k ∧ k < 2 ^ 64 := by omega
  have hlimit := hfits.limit
  have hepoch : (m.epoch : ℤ) < 2 ^ 64 := by exact_mod_cast hfits.epoch
  refine written_sortedObject (by decide) (fieldNames_fields m crypto).1.1 ?_
  unfold Message.fields
  rw [hmessages]
  exact written_some (.text _) <| written_text <| written_text <| written_text <| written_text <|
    written_text <| written_text <| written_text <| written_cons hcrypto <|
    written_int ⟨by omega, by omega⟩ <| written_bool <| written_bool <| written_text <|
    written_text <| written_text <| written_text <| written_text <|
    written_array (by decide) (fun s _ => .text s) <|
    written_array (by decide) (fun s _ => .text s) <|
    written_array (by decide) (fun u _ => written_onlineUser u) <|
    written_array (by decide) (fun r _ => written_roomInfo r) <|
    written_bool <| written_bool <| written_text <| written_int ⟨by omega, hepoch⟩ <|
    written_text <| written_text <| written_text <| written_text <| written_text <|
    written_text <| written_text <| written_text <| written_text <|
    written_int (hsigned hfits.logicalSize) <| written_int (hsigned hfits.chunkSize) <|
    written_cons (fun w hw => by
      obtain rfl := Option.some.inj (Option.ite_none_right_eq_some.1 hw).2
      exact .int (hsigned hfits.chunkIndex).1 (hsigned hfits.chunkIndex).2) <|
    written_text <| written_text <| written_text <|
    written_array (by decide) (fun i hi => .int (hsigned (hfits.receivedIndexes i hi)).1
      (hsigned (hfits.receivedIndexes i hi)).2) <|
    written_cons (fun w hw => by cases hw) written_nil

/-- The text of an envelope as `dump` writes it. -/
def envelopeText (doubles : Doubles) (raw : String) : String :=
  if raw = "" then "" else dump (readRaw doubles raw)

/-- The value of an envelope. -/
def envelope (doubles : Doubles) (raw : String) : Option Json :=
  if raw = "" then none else some (readRaw doubles raw)

/-- The server takes the message: it has a type, its command id is small enough, and a command
about an attachment has no other members than it may have. -/
structure Message.Taken (doubles : Doubles) (m : Message) : Prop where
  type : m.type ≠ ""
  commandID : m.commandID.utf8ByteSize ≤ maxCommandIDSize
  allowed : ∀ allowed, allowedFields (.ofName m.type) = some allowed →
    ∀ name w, (name, some w) ∈ m.fields (envelope doubles m.crypto) → name ∈ allowed

theorem validateAttachmentCommandFrame_eq_ok {type : MessageType} {members : List (String × Json)} :
    validateAttachmentCommandFrame type (.object members) = .ok () ↔
      ∀ allowed, allowedFields type = some allowed → ∀ m ∈ members, m.1 ∈ allowed := by
  unfold validateAttachmentCommandFrame
  cases allowedFields type with
  | none => simp
  | some allowed =>
    simp only [Option.some.injEq, forall_eq']
    split
    · rename_i m hfind
      have hbad := List.find?_some hfind
      refine iff_of_false (by simp [fail]) fun hall => ?_
      simp [hall m (List.mem_of_find?_eq_some hfind)] at hbad
    · rename_i hfind
      refine iff_of_true rfl fun m hm => ?_
      simpa using List.find?_eq_none.1 hfind m hm

theorem checkReceived_eq_ok {v : Json} {m m' : LanChat.Message} :
    checkReceived v m = .ok m' ↔ m' = m ∧ m.type.name ≠ "" ∧
      m.commandID.utf8ByteSize ≤ maxCommandIDSize ∧
      validateAttachmentCommandFrame m.type v = .ok () := by
  unfold checkReceived
  by_cases htype : m.type.name = ""
  · rw [if_pos htype]
    exact iff_of_false (fun h => by cases h) fun h => h.2.1 htype
  by_cases hcommand : maxCommandIDSize < m.commandID.utf8ByteSize
  · rw [if_neg htype, if_pos hcommand]
    exact iff_of_false (fun h => by cases h) fun h => absurd h.2.2.1 (Nat.not_le.2 hcommand)
  rw [if_neg htype, if_neg hcommand]
  change validateAttachmentCommandFrame m.type v >>= (fun _ => .ok m) = _ ↔ _
  rw [bind_eq_ok]
  constructor
  · rintro ⟨_, hallowed, heq⟩
    exact ⟨(Except.ok.inj heq).symm, htype, Nat.not_lt.1 hcommand, hallowed⟩
  · intro h
    exact ⟨(), h.2.2.2, congrArg _ h.1.symm⟩

/-- What a client writes is decoded as the message with the same fields. -/
theorem receive_dump (doubles : Doubles) (entry : Json → Except GoError HistoryMessage) {m : Message}
    (hfits : m.Fits) (hmessages : m.messages = [])
    (hcrypto : ∀ w, parseJson doubles m.crypto = .ok w → Written encodingJson 1 w) {v : Json}
    (h : m.serialize (parseJson doubles) = .ok v) :
    v = sortedObject (members (m.fields (envelope doubles m.crypto))) ∧
      receive Json.dump entry (dump v) =
        checkReceived v.sorted (sent m (envelopeText doubles m.crypto)) := by
  obtain ⟨crypto, rfl, hvalue⟩ := serialize_fields h
  have henvelope : crypto = envelope doubles m.crypto := by
    unfold envelope
    rcases hvalue with ⟨hempty, rfl⟩ | ⟨w, hparse, rfl⟩
    · rw [if_pos hempty]
    · rw [if_neg, readRaw, parse_of_parseJson hparse, Option.getD_some]
      intro hempty
      rw [hempty] at hparse
      cases hparse
  have hwritten : ∀ w, crypto = some w → Written encodingJson 1 w := by
    rcases hvalue with ⟨-, rfl⟩ | ⟨w, hparse, rfl⟩
    · exact fun w hw => by cases hw
    · exact fun w' hw => Option.some.inj hw ▸ hcrypto w hparse
  refine ⟨by rw [henvelope], ?_⟩
  -- Go keeps every member of a name, and what is written has each name once
  have hparse := parse_of_reads (reads_dump (fun members _ => List.reverse_reverse members)
    (written_sorted (written_fields hfits hmessages hwritten)))
  have htext : (crypto.elim "" fun w => w.sorted.dump) = envelopeText doubles m.crypto := by
    rw [henvelope]
    unfold envelope envelopeText
    split_ifs <;> rfl
  rw [receive, dump, hparse]
  change decodeMessage _ _ _ >>= checkReceived _ = _
  rw [decodeMessage_serialize Json.dump entry hfits hmessages crypto, htext]
  rfl

/-- The checks of the server let exactly the messages pass that it takes. -/
theorem checkReceived_sent {m : Message} {v : Json} {m' : LanChat.Message}
    (hv : v = sortedObject (members (m.fields (envelope doubles m.crypto)))) :
    checkReceived v.sorted (sent m (envelopeText doubles m.crypto)) = .ok m' ↔
      m' = sent m (envelopeText doubles m.crypto) ∧ m.Taken doubles := by
  rw [checkReceived_eq_ok]
  refine and_congr_right fun _ => ?_
  obtain ⟨ms, hms, hw⟩ := writes_sorted m (envelope doubles m.crypto)
  have htype : (sent m (envelopeText doubles m.crypto)).type.name = m.type := MessageType.name_ofName m.type
  rw [htype, hv, hms, validateAttachmentCommandFrame_eq_ok]
  simp only [hw.names]
  exact ⟨fun ⟨ht, hc, ha⟩ => ⟨ht, hc, ha⟩, fun ⟨ht, hc, ha⟩ => ⟨ht, hc, ha⟩⟩

/-- A chat with an envelope, in which a double is not written as `dump` does. -/
def sealedChat : Message :=
  { Message.ofType "chat" with
    messageID := "m1", crypto := "\x7b\"ciphertext\":\"AA==\",\"ratio\":1.50\x7d" }

/-- The text of its envelope. -/
def sealedText : String := "\x7b\"ciphertext\":\"AA==\",\"ratio\":1.5\x7d"

theorem parse_sealedChat : parseJson sampleDoubles sealedChat.crypto =
    .ok (.object [("ciphertext", .text "AA=="), ("ratio", .float "1.5")]) := rfl

theorem envelopeText_sealedChat :
    envelopeText sampleDoubles sealedChat.crypto = sealedText := by
  rw [envelopeText, readRaw, parse_of_parseJson parse_sealedChat]
  rfl

theorem fits_sealedChat : sealedChat.Fits := by
  have hzero : (-2 ^ 63 : ℤ) ≤ 0 ∧ (0 : ℤ) < 2 ^ 63 := by omega
  have hlimit : (0 : ℤ) < 2 ^ 31 := by omega
  exact ⟨hlimit, Nat.two_pow_pos 64, hzero, hzero, hzero, fun i hi => by cases hi⟩

theorem written_sealedChat (w : Json) (h : parseJson sampleDoubles sealedChat.crypto = .ok w) :
    Written encodingJson 1 w := by
  obtain rfl := Except.ok.inj (h.symm.trans parse_sealedChat)
  refine .object (fits_encodingJson (by decide)) (by simp) fun m hm => ?_
  rcases List.mem_pair.1 hm with rfl | rfl
  · exact .text _
  · exact .float (List.all_eq_true.1 rfl) rfl

theorem taken_sealedChat : sealedChat.Taken sampleDoubles := by
  have htype : MessageType.ofName sealedChat.type = .chat := by decide
  refine ⟨by decide, by decide, fun allowed h => ?_⟩
  rw [htype] at h
  cases h

theorem serialize_sealedChat : ∃ v, sealedChat.serialize (parseJson sampleDoubles) = .ok v := by
  unfold Message.serialize Message.members
  rw [parse_sealedChat]
  exact ⟨_, rfl⟩

end Client

end LanChat
