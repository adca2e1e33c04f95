import LanChat.Hub.ForgedFields
import LanChat.Hub.LiveCopies
import LanChat.Inbound

/-!
# A chat from one client to another

The text that a client writes for a chat, the frame that the server reads of it, the copies that the
Hub sends and what the other clients read of their texts.

* `chat_copy`: a copy of a chat, whether or not there is a store;
* `relay_chat`: what a receiver reads is what the sender wrote.
-/

namespace LanChat

namespace Hub

open GoStrings Registry ChatStore EventMachine

variable {h : Hub}

/-- The chat as it is relayed. -/
def relayed (h : Hub) (platform : Platform) (env : Env) (message : Message) : Message :=
  if h.offlineStore then
    storedChat platform env (h.senderRoom (h.senderOf message.userCode)) message
  else message

/-- The relay of a chat sends it to others only as it goes out. -/
theorem live_relay (platform : Platform) (env : Env) {tracking : Bool} {message : Message}
    {x : ClientID × Message}
    (hx : x ∈ sentBetween h ((Attempt.chat tracking message).relay platform env h))
    (hlive : x.2.type ∈ liveTypes) :
    x.2 = wireMessage tracking (h.relayed platform env message) :=
  (live_relayChat hx hlive).1

/-- A chat that an event sends is a copy of the valid chat of a client. -/
theorem chat_copy (platform : Platform) (hs : Sound h.registry) {e : Event} {c : ClientID}
    {m : Message} {limited muted : Bool} (he : e.input = .frame c m limited muted)
    (ht : m.type = .chat) {x : ClientID × Message} (hx : x ∈ sentBetween h (step platform h e))
    (hlive : x.2.type = .chat) : ∃ obj, h.registry.client? c = some obj ∧
      validateMessage m = .ok () ∧
      x.2 = wireMessage (deliveryTracking m.messageID)
        (h.relayed platform e.env (h.signed obj m)) := by
  have hmem : x.2.type ∈ liveTypes := by
    rw [hlive]
    decide
  rcases step_outcome platform hs e with ⟨-, hquiet⟩ | ⟨a, n, ha, -, ho⟩
  · have hnot := mem_sentBetween hquiet.sent hx
    rw [hlive] at hnot
    exact absurd (by decide) hnot
  unfold attempt? at ha
  simp only [he, ht] at ha
  split at ha
  · cases ha
  rename_i obj hobj
  rw [Option.ite_none_left_eq_some, Option.ite_none_left_eq_some] at ha
  obtain ⟨-, hvalid, ha⟩ := ha
  obtain rfl : Attempt.chat (deliveryTracking m.messageID) (h.signed obj m) = a := by
    rw [← Option.some.inj ha, signed, ht]
  refine ⟨obj, hobj, ?_, ?_⟩
  · simp only [Bool.or_eq_true, Bool.not_eq_true', not_or, Bool.not_eq_false] at hvalid
    exact isOk_iff.1 hvalid.2
  -- an attempt that is not relayed answers the sender, with no live message
  have hquiet : ∀ {k l : Hub} {types : List MessageType}, Touches [] types k l →
      k.registry = h.registry → (∀ t ∈ types, t ∉ liveTypes) → x ∉ sentBetween h l := by
    intro k l types htouch hreg htypes hin
    have hemits := htouch.moves.emits
    rw [hreg] at hemits
    exact htypes _ (mem_sentBetween hemits hin) hmem
  cases ho with
  | unstored hopen hk =>
    rw [hk] at hx
    exact live_relay (h := h.counted n) platform e.env hx hmem
  | refused _ hk => exact absurd hx (hquiet hk rfl (by decide))
  | retried _ row hrow hkey hk =>
    rw [hk] at hx
    rcases sent_answerRetry (h := h.counted n) hx with herror | ⟨-, -, row, -, hreceipt⟩
    · exact absurd hmem (not_live_of_error herror)
    · rw [hreceipt] at hmem
      exact absurd hmem (receipt_not_live _ _)
  | unpruned _ hfails hprune s hsender hsaved hk => exact absurd hx (hquiet hk rfl (by decide))
  | relayed _ hfails hprune s hsender hsaved hk =>
    rw [hk] at hx
    exact live_relay (h := (h.counted n).withChat s) platform e.env hx hmem

/-- Only the room, the time and the delivery state are the server's. -/
theorem relayed_fields (platform : Platform) (env : Env) (tracking : Bool) (p : Message) :
    ∃ room deliveryState createdAt,
      wireMessage tracking (h.relayed platform env p) = { p with room, deliveryState, createdAt } ∧
        (h.offlineStore = true → room = h.senderRoom (h.senderOf p.userCode)) := by
  unfold relayed
  split_ifs with hstore
  · cases tracking with
    | true => exact ⟨_, _, _, rfl, fun _ => rfl⟩
    | false => exact ⟨_, _, _, rfl, fun _ => rfl⟩
  · cases tracking with
    | true => exact ⟨p.room, p.deliveryState, p.createdAt, rfl, fun h => absurd h hstore⟩
    | false => exact ⟨p.room, _, _, rfl, fun h => absurd h hstore⟩

end Hub

namespace Client

open JsonReader

variable {doubles : Doubles}

/-! ### Envelopes -/

theorem not_bare_brace : JsonReader.isBare '\x7b' = false := by decide

theorem head_toString_ne_brace (k : ℤ) : (toString k).toList.head? ≠ some '\x7b' := by
  intro hbrace
  cases k with
  | ofNat n =>
    have hmem : '\x7b' ∈ Nat.toDigits 10 n := by
      rw [← Nat.toList_repr]
      exact List.mem_of_mem_head? hbrace
    exact absurd (Nat.isDigit_of_mem_toDigits (by decide) (by decide) hmem) (by decide)
  | negSucc n =>
    rw [show toString (Int.negSucc n) = "-" ++ (n + 1).repr from rfl, String.toList_append] at hbrace
    cases hbrace

/-- Only the text of an object begins with a brace. -/
theorem object_of_dump {d : Dialect} {n : ℕ} {w : Json} (h : Written d n w)
    (hbrace : w.dump.toList.head? = some '\x7b') : ∃ members, w = .object members := by
  cases h with
  | null => cases hbrace
  | bool b => cases b <;> cases hbrace
  | int => exact absurd hbrace (head_toString_ne_brace _)
  | float hbare _ =>
    have hchar := hbare _ (List.mem_of_mem_head? hbrace)
    rw [not_bare_brace] at hchar
    cases hchar
  | text s =>
    rw [Json.dump, GoJson.plainQuote, String.toList_append, String.toList_append] at hbrace
    cases hbrace
  | array =>
    rw [Json.dump, GoJson.array, String.toList_append, String.toList_append] at hbrace
    cases hbrace
  | object => exact ⟨_, rfl⟩

/-- The envelope of a chat that the server accepts is an object for the client, which keeps its
text. -/
theorem envelope_of_valid {raw : String}
    (hparse : raw = "" ∨ ∃ w, parseJson doubles raw = .ok w)
    (hvalid : envelopeText doubles raw ≠ "" →
      validateOpaqueCrypto (envelopeText doubles raw) = .ok ()) :
    EnvelopeReads doubles (envelopeText doubles raw) ∧
      (if envelopeText doubles raw = "" then ""
        else dump (readRaw doubles (envelopeText doubles raw))) = envelopeText doubles raw := by
  by_cases hempty : envelopeText doubles raw = ""
  · rw [if_pos hempty, hempty]
    exact ⟨.inl rfl, rfl⟩
  obtain ⟨w, hw⟩ := hparse.resolve_left fun h => hempty (if_pos h)
  have hne : raw ≠ "" := fun h => hempty (if_pos h)
  have htext : envelopeText doubles raw = dump w := by
    rw [envelopeText, if_neg hne, readRaw, parse_of_parseJson hw, Option.getD_some]
  have hread := value?_of_reads (reads_sorted hw)
  have hagain := (parseJson_dump hw).2
  -- the server has looked at the first character only
  have hbrace : w.sorted.dump.toList.head? = some '\x7b' := by
    have hopaque := hvalid hempty
    rw [htext] at hopaque
    unfold validateOpaqueCrypto at hopaque
    split_ifs at hopaque
    · cases hopaque
    · cases hopaque
    · split at hopaque
      · rename_i heq
        exact congrArg List.head? heq
      · cases hopaque
  have hwritten := Json.written_sorted
    (written_parse (regular_nlohmann doubles) (parse_of_parseJson hw))
  obtain ⟨members, hobject⟩ := object_of_dump hwritten hbrace
  rw [if_neg hempty, htext, readRaw_of_value? hread, hagain]
  exact ⟨.inr ⟨members, by rw [hread, hobject]⟩, rfl⟩

/-- An accepted chat has an opaque envelope or none. -/
theorem opaque_of_chat {m : LanChat.Message} (ht : m.type = .chat)
    (hvalid : validateMessage m = .ok ()) (hne : m.crypto ≠ "") :
    validateOpaqueCrypto m.crypto = .ok () := by
  unfold validateMessage at hvalid
  rw [ht] at hvalid
  by_cases hcommand : maxCommandIDSize < m.commandID.utf8ByteSize
  · rw [if_pos hcommand] at hvalid
    cases hvalid
  · rw [if_neg hcommand] at hvalid
    dsimp only at hvalid
    rwa [if_pos hne] at hvalid

/-! ### A chat -/

/-- The message that is read is the chat that was written, under the name and the code of a session. -/
structure SameChat (doubles : Doubles) (m : Message) (obj : LanChat.Client) (r : Message) :
    Prop where
  type : r.type = "chat"
  content : r.content = m.content
  crypto : r.crypto = envelopeText doubles m.crypto
  protocolVersion : r.protocolVersion = m.protocolVersion
  groupID : r.groupID = m.groupID
  epoch : r.epoch = m.epoch
  username : r.username = obj.username
  userCode : r.userCode = obj.userCode

/-- The chat as the Hub relays it. -/
def relayedAs (doubles : Doubles) (m : Message) (obj : LanChat.Client)
    (messageID room deliveryState createdAt : String) : LanChat.Message :=
  { sent m (envelopeText doubles m.crypto) with
    username := obj.username, userCode := obj.userCode, messageID, room, deliveryState, createdAt }

/-- A copy of a chat is read as the chat. -/
theorem receive_relayedAs {m : Message} (hfits : m.Fits) (hindexes : m.receivedIndexes = [])
    (ht : m.type = "chat") (hreads : EnvelopeReads doubles (envelopeText doubles m.crypto))
    (hkept : (if envelopeText doubles m.crypto = "" then ""
      else dump (readRaw doubles (envelopeText doubles m.crypto))) = envelopeText doubles m.crypto)
    (obj : LanChat.Client) (messageID room deliveryState createdAt : String) :
    ∃ r, receiveMessage (parseJson doubles) dump
        (relayedAs doubles m obj messageID room deliveryState createdAt).marshal = .ok r ∧
      SameChat doubles m obj r ∧ r.messageID = messageID ∧ r.room = room := by
  have hlimit := hfits.limit
  have hsigned : ∀ {k : ℤ}, -2 ^ 63 ≤ k ∧ k < 2 ^ 63 → -2 ^ 63 ≤ k ∧ k < 2 ^ 64 := by omega
  have hsendable : Sendable doubles
      (relayedAs doubles m obj messageID room deliveryState createdAt) := by
    refine ⟨?_, hsigned hfits.logicalSize, hsigned hfits.chunkSize, hsigned hfits.chunkIndex,
      fun i hi => hsigned (hfits.receivedIndexes i hi), hreads, fun x hx => by cases hx⟩
    change -2 ^ 63 ≤ max 0 m.limit ∧ max 0 m.limit < 2 ^ 64
    omega
  have htype : (MessageType.ofName m.type).name = "chat" := by rw [MessageType.name_ofName, ht]
  have hepoch : (UInt64.ofNat m.epoch).toNat = m.epoch := UInt64.toNat_ofNat_of_lt' hfits.epoch
  rw [receive_marshal hsendable hindexes rfl]
  set r := received (readRaw doubles) dump
    (relayedAs doubles m obj messageID room deliveryState createdAt) with hr
  have hrtype : r.type = "chat" := htype
  have hnone : base64Field r = none := by
    unfold base64Field
    rw [hrtype]
    rfl
  refine ⟨r, by rw [checkBase64, hnone], ⟨hrtype, rfl, hkept, rfl, rfl, hepoch, rfl, rfl⟩, rfl, rfl⟩

/-- Whatever happened before, a client that is sent a chat reads of its text what the sender wrote
into its own, under the name and the code of the sender's session. -/
theorem relay_chat (doubles : Doubles) (platform : Platform) (adminCode : String) (store : Bool)
    (es : List Hub.Event) (env : Env) (entry : Json → Except GoError HistoryMessage)
    {m : Message} (hfits : m.Fits) (hmessages : m.messages = []) (hindexes : m.receivedIndexes = [])
    (hcrypto : ∀ w, parseJson doubles m.crypto = .ok w → Written encodingJson 1 w)
    (ht : m.type = "chat") {v : Json} (hv : m.serialize (parseJson doubles) = .ok v)
    {frame : LanChat.Message} (hframe : receive Json.dump entry (dump v) = .ok frame)
    {c : ClientID} {limited muted : Bool} {d : ClientID} {x : LanChat.Message}
    (hx : (d, x) ∈ Hub.sentBetween (Hub.after platform adminCode store es)
      (Hub.after platform adminCode store (es ++ [⟨.frame c frame limited muted, env⟩])))
    (hlive : x.type = .chat) :
    ∃ obj r, (Hub.after platform adminCode store es).registry.client? c = some obj ∧
      receiveMessage (parseJson doubles) dump x.marshal = .ok r ∧ SameChat doubles m obj r ∧
      (m.messageID ≠ "" → r.messageID = m.messageID) ∧
      (store = true → c ∈ (Hub.after platform adminCode store es).registry.clients →
        r.room = obj.room) := by
  obtain ⟨-, hreceive⟩ := receive_dump doubles entry hfits hmessages hcrypto hv
  have hsent := (checkReceived_eq_ok.1 (hreceive.symm.trans hframe)).1
  have htype : frame.type = .chat := by
    rw [hsent]
    exact congrArg MessageType.ofName ht
  have hs := Hub.sound_run platform adminCode store es
  have hstore := Hub.offlineStore_run platform adminCode store es
  -- from here on only the state before the event counts, and what every run keeps of it
  rw [Hub.after_concat] at hx
  generalize Hub.after platform adminCode store es = h at *
  obtain ⟨obj, hobj, hvalid, hcopy⟩ := Hub.chat_copy platform hs rfl htype hx hlive
  obtain ⟨room, deliveryState, createdAt, heq, hroom⟩ := Hub.relayed_fields (h := h) platform env
    (Hub.deliveryTracking frame.messageID) (h.signed obj frame)
  -- the sender has parsed its envelope, the server has checked what was written of it
  have hparse : m.crypto = "" ∨ ∃ w, parseJson doubles m.crypto = .ok w := by
    obtain ⟨_, -, hcases⟩ := serialize_fields hv
    exact hcases.imp And.left fun ⟨w, hw, _⟩ => ⟨w, hw⟩
  have hopaque : envelopeText doubles m.crypto ≠ "" →
      validateOpaqueCrypto (envelopeText doubles m.crypto) = .ok () := by
    have hcrypto' : frame.crypto = envelopeText doubles m.crypto := by
      rw [hsent]
      rfl
    exact hcrypto' ▸ opaque_of_chat htype hvalid
  obtain ⟨hreads, hkept⟩ := envelope_of_valid hparse hopaque
  obtain ⟨r, hr, hsame, hid, hroom'⟩ := receive_relayedAs hfits hindexes ht hreads hkept obj
    (h.assignMessageID frame.messageID).1 room deliveryState createdAt
  refine ⟨obj, r, hobj, ?_, hsame, fun hne => ?_, fun hstored hc => ?_⟩
  · rw [← hr, show x = _ from hcopy.trans heq, hsent]
    rfl
  · rw [hid, hsent]
    exact congrArg Prod.fst (if_neg hne)
  · rw [hroom', hroom (hstore.trans hstored)]
    exact Hub.senderRoom_of_online hs hc hobj

/-- Alice writes the sealed chat, and Bob reads it. -/
theorem relay_chat_sealedChat : ∃ x r,
    (1, x) ∈ Hub.sentBetween (Hub.after Hub.samplePlatform "" true Hub.aliceAndBob)
      (Hub.after Hub.samplePlatform "" true (Hub.aliceAndBob ++
        [⟨.frame 0 (sent sealedChat sealedText) false false, {}⟩])) ∧
      receiveMessage (parseJson sampleDoubles) dump x.marshal = .ok r ∧ r.crypto = sealedText ∧
      r.messageID = "m1" := by
  obtain ⟨v, hv⟩ := serialize_sealedChat
  obtain ⟨hobject, hreceive⟩ := receive_dump sampleDoubles (fun _ => .error cannotUnmarshal)
    fits_sealedChat rfl written_sealedChat hv
  have hframe : receive Json.dump (fun _ => .error cannotUnmarshal) (dump v) =
      .ok (sent sealedChat sealedText) := by
    rw [hreceive, checkReceived_sent hobject, envelopeText_sealedChat]
    exact ⟨rfl, taken_sealedChat⟩
  have hsent : (Hub.sentBetween (Hub.after Hub.samplePlatform "" true Hub.aliceAndBob)
      (Hub.after Hub.samplePlatform "" true (Hub.aliceAndBob ++
        [⟨.frame 0 (sent sealedChat sealedText) false false, {}⟩]))).any
      (fun y => y.1 == 1 && y.2.type == .chat) = true := by decide +kernel
  obtain ⟨⟨d, x⟩, hx, htype⟩ := List.any_eq_true.1 hsent
  simp only [Bool.and_eq_true, beq_iff_eq] at htype
  obtain ⟨rfl, hchat⟩ := htype
  obtain ⟨_, r, -, hr, hsame, hid, -⟩ := relay_chat sampleDoubles Hub.samplePlatform "" true
    Hub.aliceAndBob {} _ fits_sealedChat rfl rfl written_sealedChat rfl hv hframe hx hchat
  refine ⟨x, r, hx, hr, ?_, hid (by decide)⟩
  rw [hsame.crypto, envelopeText_sealedChat]

end Client

end LanChat
